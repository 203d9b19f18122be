import MaskGateway.Proofs.Pgwire.Scram

/-!
# `MaskGateway.Proofs.Pgwire.ScramExchange`: soundness and completeness of an exchange

`clientFinal_ok_iff` reads the two messages together: after a client-first that was accepted, what
makes a client-final succeed is said in the bytes that went over the wire (`Proves`). What a client
of RFC 5802 sends has these properties (`Client.proves`), so that the server keeps no such client
out.
-/

set_option autoImplicit false

namespace MaskGateway.Proofs.Pgwire.Scram

open Lib MaskGateway.Pgwire.Scram

variable {hash : Hash}

/-! ### What a client-final has to show -/

/-- `AuthMessage`, of the bytes as they were received and sent: the bare client-first, the
server-first and the client-final without its proof. -/
def authBytes (bare : List Char) (out : List UInt8) (m : ClientFinal) : List UInt8 :=
  utf8 bare ++ 0x2C :: (out ++ 0x2C :: utf8 m.withoutProof)

/-- `ServerSignature`, in the message it is sent in. -/
def serverFinal (hash : Hash) (serverKey auth : List UInt8) : List UInt8 :=
  utf8 ('v' :: '=' :: Base64.encodePadded (hash.hmac serverKey auth))

/-- What a client-final has to show, after a client-first with a flag and a bare message and the
server-first `out` that answered it with a nonce. -/
structure Proves (hash : Hash) (e : Exchange) (plus : Bool) (flag bare nonce : List Char)
    (out : List UInt8) (m : ClientFinal) (proof : List UInt8) : Prop where
  nonce_eq : m.nonce = nonce
  cbind_eq : m.cbind = Base64.encodePadded
    (utf8 (flag ++ [',', ',']) ++ if plus then e.channelBinding.getD [] else [])
  key_eq : hash.sha256 (xorBytes proof (hash.hmac e.verifier.storedKey
    (authBytes bare out m))) = e.verifier.storedKey
  real : e.verifier.real = true

theorem utf8_comma (text : List Char) : utf8 (',' :: text) = 0x2C :: utf8 text := by
  rw [utf8_cons]
  rfl

/-- An exchange that answered a client-first, in the words of the two messages. -/
theorem answered {e e₁ : Exchange} {plus : Bool} {flag bare clientNonce : List Char}
    {random : Option (List UInt8)} {out : List UInt8}
    (h : e.answerFirst plus flag bare clientNonce random = (e₁, .ok out)) :
    e₁.stage = .awaitFinal ∧ e₁.verifier = e.verifier ∧
      ∀ m, e₁.authMessage m = authBytes bare out m := by
  obtain ⟨suffix, -, rfl, rfl⟩ := answerFirst_eq_ok.mp h
  refine ⟨rfl, rfl, fun m => ?_⟩
  show utf8 (bare ++ ',' :: serverFirst e.verifier (clientNonce ++ suffix) ++ [','] ++
    m.withoutProof) = _
  simp only [authBytes, utf8_append, utf8_comma, List.append_assoc, List.cons_append,
    List.nil_append]

/-- **What makes a client-final succeed.** -/
theorem clientFinal_ok_iff {e e₁ : Exchange} {plus : Bool}
    {flag bare clientNonce suffix : List Char} {random : Option (List UInt8)} {out : List UInt8}
    (h : e.answerFirst plus flag bare clientNonce random = (e₁, .ok out))
    (hsuffix : (e.serverNonce <|> randomSuffix random) = some suffix)
    (data : List UInt8) (identityAccepted : Bool) (reply : List UInt8) :
    (∃ e₂, e₁.clientFinal hash data identityAccepted = (e₂, .ok reply)) ↔
      ∃ m proof, WellFormed data m proof ∧
        Proves hash e plus flag bare (clientNonce ++ suffix) out m proof ∧
        identityAccepted = true ∧
        reply = serverFinal hash e.verifier.serverKey (authBytes bare out m) := by
  obtain ⟨hstage, hverifier, hauth⟩ := answered h
  obtain ⟨suffix', hsuffix', he₁, -⟩ := answerFirst_eq_ok.mp h
  obtain rfl := Option.some.inj (hsuffix.symm.trans hsuffix')
  have hnonce : e₁.nonce = clientNonce ++ suffix := by rw [he₁]
  have hcbind : e₁.cbindInput = utf8 (flag ++ [',', ',']) ++
      (if plus then e.channelBinding.getD [] else []) := by rw [he₁]
  constructor
  · rintro ⟨e₂, hfinal⟩
    obtain ⟨-, m, proof, hformed, haccepted, -, hreply⟩ := clientFinal_eq_ok.mp hfinal
    obtain ⟨hm, hn, hkey, hreal, hidentity⟩ := accepted_iff.mp haccepted
    rw [hverifier, hauth] at hkey hreply
    rw [hverifier] at hreal
    exact ⟨m, proof, hformed, ⟨hn.trans hnonce, by rw [hm, hcbind], hkey, hreal⟩, hidentity,
      hreply⟩
  · rintro ⟨m, proof, hformed, hproves, hidentity, hreply⟩
    refine ⟨_, clientFinal_eq_ok.mpr
      ⟨hstage, m, proof, hformed, accepted_iff.mpr ?_, rfl, ?_⟩⟩
    · rw [hverifier, hauth, hcbind, hnonce]
      exact ⟨hproves.cbind_eq, hproves.nonce_eq, hproves.key_eq, hproves.real, hidentity⟩
    · rw [hverifier, hauth]
      exact hreply

/-! ### Flags -/

/-- `-PLUS` is accepted only where it was offered, with the flag of the binding. -/
theorem plus_of_flagAllowed {e : Exchange} {mechanism flag : List Char}
    (hmechanism : mechanism ∈ e.mechanisms)
    (h : flagAllowed (mechanism == scramSha256Plus) flag e.channelBinding.isSome = true)
    (hplus : mechanism = scramSha256Plus) :
    scramSha256Plus ∈ e.mechanisms ∧ e.channelBinding ≠ none ∧ flag = bindingFlag := by
  subst hplus
  refine ⟨hmechanism, fun hnone => ?_, by simpa [flagAllowed] using h⟩
  simp [Exchange.mechanisms, hnone] at hmechanism
  exact absurd hmechanism (by decide)

/-- The flag `y` is let through only where `-PLUS` was not offered. -/
theorem y_of_flagAllowed {e : Exchange} {mechanism : List Char}
    (h : flagAllowed (mechanism == scramSha256Plus) ['y'] e.channelBinding.isSome = true) :
    scramSha256Plus ∉ e.mechanisms := by
  have hnone : e.channelBinding = none := by
    rw [flagAllowed] at h
    split at h
    case isTrue => exact absurd h (by decide)
    simpa using h
  rw [Exchange.mechanisms, hnone]
  decide

/-! ### Texts of base64 -/

/-- What is written in base64 is read as base64. -/
theorem isBase64Text_encodePadded (bytes : List UInt8) :
    isBase64Text (Base64.encodePadded bytes) = true := by
  have hpad : (Base64.encodePadded bytes).dropWhile Base64.isStandard =
      List.replicate ((3 - bytes.length % 3) % 3) '=' := by
    rw [Base64.encodePadded,
      List.dropWhile_append_of_pos fun c hc => Base64.isStandard_of_mem hc]
    cases (3 - bytes.length % 3) % 3 with
    | zero => rfl
    | succ n => rw [List.replicate_succ, List.dropWhile_cons_of_neg (by decide)]
  rw [isBase64Text, hpad, List.length_replicate, Bool.and_eq_true, List.all_eq_true]
  refine ⟨fun c hc => ?_, decide_eq_true (by omega)⟩
  rw [(List.mem_replicate.mp hc).2]
  rfl

/-- What is written in base64 is printable, and has no comma. -/
theorem printable_encodePadded (bytes : List UInt8) :
    (Base64.encodePadded bytes).all isPrintable = true := by
  have hstandard : ∀ c ∈ Base64.alphabet, isPrintable (Base64.toStandard c) = true := by
    rw [← List.all_iff_forall_prop]
    decide +kernel
  rw [List.all_eq_true, Base64.encodePadded]
  intro c hc
  rcases List.mem_append.mp hc with hc | hc
  · obtain ⟨d, hd, rfl⟩ := List.mem_map.mp hc
    exact hstandard d (Base64.mem_encode bytes d hd)
  · rw [(List.mem_replicate.mp hc).2]
    decide

/-! ### A client of RFC 5802 -/

/-- A name that SASLprep lets through is a `saslname` once it is escaped. -/
theorem isSaslName_escapeName {name : List Char}
    (h : ∀ ch ∈ name, 0x1F < ch.toNat ∧ ch.toNat ≠ 0x7F) :
    isSaslName (escapeName name) = true := by
  induction name with
  | nil => rfl
  | cons c name ih =>
      obtain ⟨hc, hname⟩ := List.forall_mem_cons.mp h
      have hcons : escapeName (c :: name) = (if c = ',' then ['=', '2', 'C'] else
          if c = '=' then ['=', '3', 'D'] else [c]) ++ escapeName name := rfl
      rw [hcons]
      split_ifs with hcomma hequals
      · exact ih hname
      · exact ih hname
      · have hchar : isNameChar c = true := by
          simp [isNameChar, hcomma, hequals, hc.1, hc.2]
        show isSaslName (c :: escapeName name) = true
        rw [isSaslName, hchar, Bool.true_and]
        · exact ih hname
        · rintro rest rfl
          exact absurd rfl hequals
        · rintro rest rfl
          exact absurd rfl hequals

/-- A key comes back when the same bytes are laid over it twice. -/
theorem xorBytes_cancel {key signature : List UInt8} (h : key.length = signature.length) :
    xorBytes (xorBytes key signature) signature = key := by
  induction key generalizing signature with
  | nil => rfl
  | cons k key ih =>
      cases signature with
      | nil => cases h
      | cons s signature =>
          show (k ^^^ s ^^^ s) :: xorBytes (xorBytes key signature) signature = k :: key
          rw [ih (Nat.succ.inj h), UInt8.xor_assoc, UInt8.xor_self, UInt8.xor_zero]

/-- The client reads the nonce that the server wrote. -/
theorem combinedNonce_serverFirst {nonce : List Char} (h : ',' ∉ nonce)
    (verifier : ScramVerifier) : combinedNonce (serverFirst verifier nonce) = nonce := by
  have hdrop : (serverFirst verifier nonce).drop 2 = nonce ++ ',' :: ('s' :: '=' ::
      Base64.encodePadded verifier.salt ++ ',' :: 'i' :: '=' ::
        Nat.toDigits 10 verifier.iterations) := by
    simp [serverFirst]
  rw [combinedNonce, hdrop, beforeComma_append h]

section Honest

variable {e : Exchange} {c : Client}

/-- The flag of a client is let through, and has no comma. -/
theorem Client.flag_ok (h : c.BindsTo e.channelBinding) :
    c.mechanism ∈ e.mechanisms ∧ ',' ∉ c.flag ∧
      flagAllowed (c.mechanism == scramSha256Plus) c.flag e.channelBinding.isSome = true ∧
      (if c.mechanism == scramSha256Plus then e.channelBinding.getD [] else []) = c.binding := by
  rcases h with ⟨hmechanism, hflag, hbinding⟩ | ⟨hmechanism, hbinding, hflag⟩
  · rw [hmechanism, hflag, hbinding, Exchange.mechanisms, hbinding]
    exact ⟨.head _, by decide, rfl, rfl⟩
  · have hmem : scramSha256 ∈ e.mechanisms := by
      rw [Exchange.mechanisms]
      cases e.channelBinding with
      | none => exact .head _
      | some _ => exact .tail _ (.head _)
    rw [hmechanism, hbinding]
    rcases hflag with hflag | ⟨hflag, hnone⟩
    · rw [hflag]
      exact ⟨hmem, by decide, rfl, rfl⟩
    · rw [hflag, hnone]
      exact ⟨hmem, by decide, rfl, rfl⟩

/-- The server-nonce that an exchange was given, or drew, is printable. -/
theorem suffix_printable {random : Option (List UInt8)} {suffix : List Char}
    (h : (e.serverNonce <|> randomSuffix random) = some suffix) :
    suffix.all isPrintable = true := by
  cases hnonce : e.serverNonce with
  | some nonce =>
      rw [hnonce] at h
      obtain rfl := Option.some.inj h
      exact (e.serverNonce_printable nonce hnonce).2
  | none =>
      rw [hnonce] at h
      obtain ⟨raw, -, rfl⟩ := Option.map_eq_some_iff.mp h
      exact printable_encodePadded raw

/-- The server accepts the first message of a client. -/
theorem Client.clientFirst_ok (h : c.Suits hash e) (hfresh : e.stage = .awaitFirst)
    {random : Option (List UInt8)} {suffix : List Char}
    (hsuffix : (e.serverNonce <|> randomSuffix random) = some suffix)
    (hlength : (utf8 c.firstMessage).length ≤ maxSaslMessage) :
    ∃ e₁, e.clientFirst c.mechanism (utf8 c.firstMessage) random =
        (e₁, .ok (utf8 (serverFirst e.verifier (c.nonce ++ suffix)))) ∧
      e.answerFirst (c.mechanism == scramSha256Plus) c.flag c.firstBare c.nonce random =
        (e₁, .ok (utf8 (serverFirst e.verifier (c.nonce ++ suffix)))) := by
  obtain ⟨hmechanism, hcomma, hflag, -⟩ := Client.flag_ok h.binds
  have hbare : clientFirstBare c.firstBare = some c.nonce :=
    clientFirstBare_eq_some.mpr ⟨escapeName c.name, rfl, isSaslName_escapeName h.prepared,
      h.nonce_printable, h.nonce_length⟩
  have hmessage : c.firstMessage = c.flag ++ ',' :: ',' :: c.firstBare := by
    simp [Client.firstMessage, Client.gs2Header]
  obtain ⟨e₁, hanswer⟩ : ∃ e₁, e.answerFirst (c.mechanism == scramSha256Plus) c.flag
      c.firstBare c.nonce random =
        (e₁, .ok (utf8 (serverFirst e.verifier (c.nonce ++ suffix)))) :=
    ⟨_, answerFirst_eq_ok.mpr ⟨suffix, hsuffix, rfl, rfl⟩⟩
  refine ⟨e₁, clientFirst_eq_ok.mpr ⟨hfresh, hmechanism, hlength, c.flag, c.firstBare, c.nonce,
    hcomma, ?_, hflag, hbare, hanswer⟩, hanswer⟩
  rw [hmessage]

/-- The fields of the last message of a client. -/
def Client.final (hash : Hash) (c : Client) (first : List Char) : ClientFinal where
  cbind := Base64.encodePadded (utf8 c.gs2Header ++ c.binding)
  nonce := combinedNonce first
  proof := Base64.encodePadded (c.proof hash first)

/-- The last message of a client is of the right form. -/
theorem Client.wellFormed (h : c.Suits hash e) {suffix first : List Char}
    (hsuffix : suffix.all isPrintable = true) (hnonce : combinedNonce first = c.nonce ++ suffix)
    (hlength : (utf8 (c.finalMessage hash first)).length ≤ maxSaslMessage) :
    WellFormed (utf8 (c.finalMessage hash first)) (Client.final hash c first)
      (c.proof hash first) := by
  have hproof : (c.proof hash first).length = proofBytes := by
    rw [Client.proof, xorBytes, List.length_zipWith, hash.hmac_length, h.clientKey_length]
    rfl
  refine ⟨hlength, rfl, isBase64Text_encodePadded _, ⟨?_, ?_⟩, isBase64Text_encodePadded _, ?_⟩
  · show combinedNonce first ≠ []
    intro hnil
    rw [hnonce] at hnil
    have hlen := h.nonce_length.1
    rw [(List.append_eq_nil_iff.mp hnil).1] at hlen
    exact absurd hlen (by decide)
  · show (combinedNonce first).all isPrintable = true
    rw [hnonce, List.all_append, h.nonce_printable, hsuffix]
    rfl
  · have hdecoded : Base64.decodePadded (Client.final hash c first).proof =
        some (c.proof hash first) := Base64.decodePadded_encodePadded _
    rw [rawProof, hdecoded]
    exact if_pos hproof

/-- Client and server speak of the same bytes. -/
theorem Client.authBytes_final (c : Client) (first : List Char) :
    authBytes c.firstBare (utf8 first) (Client.final hash c first) =
      utf8 (c.authMessage first) := by
  show _ = utf8 (c.firstBare ++ ',' :: first ++ ',' :: (Client.final hash c first).withoutProof)
  simp only [authBytes, utf8_append, utf8_comma, List.append_assoc, List.cons_append]

/-- **The last message of a client shows what it has to.** -/
theorem Client.proves (h : c.Suits hash e) (hreal : e.verifier.real = true)
    {suffix first : List Char} (hnonce : combinedNonce first = c.nonce ++ suffix) :
    Proves hash e (c.mechanism == scramSha256Plus) c.flag c.firstBare (c.nonce ++ suffix)
      (utf8 first) (Client.final hash c first) (c.proof hash first) := by
  obtain ⟨-, -, -, hbinding⟩ := Client.flag_ok h.binds
  refine ⟨hnonce, ?_, ?_, hreal⟩
  · rw [hbinding]
    rfl
  · rw [Client.authBytes_final, ← h.storedKey_eq, Client.proof, xorBytes_cancel]
    rw [h.clientKey_length, hash.hmac_length]

end Honest

/-! ### The whole exchange -/

/-- **A SCRAM exchange lets in exactly the clients that prove themselves**: a client-final
succeeds only as the second call, right after the client-first, and whatever is refused leaves the
exchange failed for good; after an accepted client-first, a client-final succeeds if and only if it
is of the right form and shows what it has to about the bytes of this exchange; `-PLUS` goes only
with an offer and its own flag, and `y` never with an offer; and a client of RFC 5802 with the keys
of a real verifier gets in, and gets the signature it waits for. -/
theorem exchange_exact (hash : Hash) (e : Exchange) (hfresh : e.stage = .awaitFirst) :
    (∀ (cs : List Call) i data identityAccepted out, cs[i]? = some (.final data identityAccepted) →
      (e.calls hash cs).2[i]? = some (.ok out) →
      i = 1 ∧ ∃ mechanism first random reply, cs[0]? = some (.first mechanism first random) ∧
        (e.calls hash cs).2[0]? = some (.ok reply)) ∧
    (∀ (cs : List Call) (i : Nat) category, (e.calls hash cs).2[i]? = some (.error category) →
      (e.calls hash cs).1.stage = .failed ∧
        ∀ (j : Nat) result, i ≤ j → (e.calls hash cs).2[j]? = some result →
          ∃ category, result = .error category) ∧
    (∀ mechanism data random e₁ out, e.clientFirst mechanism data random = (e₁, .ok out) →
      ∃ flag bare name clientNonce suffix, ',' ∉ flag ∧
        data = utf8 (flag ++ ',' :: ',' :: bare) ∧
        bare = 'n' :: '=' :: name ++ ',' :: 'r' :: '=' :: clientNonce ∧
        (e.serverNonce <|> randomSuffix random) = some suffix ∧
        out = utf8 (serverFirst e.verifier (clientNonce ++ suffix)) ∧
        (mechanism = scramSha256Plus →
          scramSha256Plus ∈ e.mechanisms ∧ e.channelBinding ≠ none ∧ flag = bindingFlag) ∧
        (flag = ['y'] → scramSha256Plus ∉ e.mechanisms) ∧
        ∀ final identityAccepted reply,
          (∃ e₂, e₁.clientFinal hash final identityAccepted = (e₂, .ok reply)) ↔
            ∃ m proof, WellFormed final m proof ∧
              Proves hash e (mechanism == scramSha256Plus) flag bare (clientNonce ++ suffix) out
                m proof ∧
              identityAccepted = true ∧
              reply = serverFinal hash e.verifier.serverKey (authBytes bare out m)) ∧
    (∀ (c : Client) random suffix first, c.Suits hash e → e.verifier.real = true →
      (e.serverNonce <|> randomSuffix random) = some suffix →
      first = serverFirst e.verifier (c.nonce ++ suffix) →
      (utf8 c.firstMessage).length ≤ maxSaslMessage →
      (utf8 (c.finalMessage hash first)).length ≤ maxSaslMessage →
      ∃ e₁ e₂, e.clientFirst c.mechanism (utf8 c.firstMessage) random =
          (e₁, .ok (utf8 first)) ∧
        e₁.clientFinal hash (utf8 (c.finalMessage hash first)) true =
          (e₂, .ok (utf8 (c.expectedFinal hash first)))) := by
  refine ⟨fun cs i data identityAccepted out => calls_final_ok hfresh,
    fun cs i category => calls_error, ?_, ?_⟩
  · intro mechanism data random e₁ out h
    obtain ⟨-, hmechanism, -, flag, bare, clientNonce, hcomma, hdata, hflag, hbare, hanswer⟩ :=
      clientFirst_eq_ok.mp h
    obtain ⟨suffix, hsuffix, -, hout⟩ := answerFirst_eq_ok.mp hanswer
    obtain ⟨name, hname, -⟩ := clientFirstBare_eq_some.mp hbare
    refine ⟨flag, bare, name, clientNonce, suffix, hcomma, hdata, hname, hsuffix, hout,
      plus_of_flagAllowed hmechanism hflag, ?_, clientFinal_ok_iff hanswer hsuffix⟩
    rintro rfl
    exact y_of_flagAllowed hflag
  · rintro c random suffix first hsuits hreal hsuffix rfl hlength hfinal
    obtain ⟨e₁, hfirst, hanswer⟩ := Client.clientFirst_ok hsuits hfresh hsuffix hlength
    have hprintable := suffix_printable hsuffix
    have hcomma : ',' ∉ c.nonce ++ suffix := by
      refine comma_not_mem_of_printable ?_
      rw [List.all_append, hsuits.nonce_printable, hprintable]
      rfl
    have hnonce := combinedNonce_serverFirst hcomma e.verifier
    obtain ⟨e₂, hok⟩ := (clientFinal_ok_iff hanswer hsuffix _ true
      (utf8 (c.expectedFinal hash _))).mpr
        ⟨_, _, Client.wellFormed hsuits hprintable hnonce hfinal,
          Client.proves hsuits hreal hnonce, rfl, by
            rw [Client.authBytes_final, ← hsuits.serverKey_eq]
            rfl⟩
    exact ⟨e₁, e₂, hfirst, hok⟩

/-- The verifier of the published example of SCRAM-SHA-256, for the password `pencil`. -/
def pencil : Exchange where
  verifier :=
    { salt := [91, 109, 153, 104, 157, 18, 53, 142, 236, 160, 75, 20, 18, 54, 250, 129]
      iterations := 4096
      storedKey := [88, 110, 93, 242, 131, 230, 220, 235, 92, 62, 121, 29, 139, 133, 40, 236, 25,
        30, 102, 64, 69, 206, 151, 23, 146, 226, 230, 181, 187, 19, 226, 166]
      serverKey := [193, 243, 203, 193, 193, 58, 157, 53, 161, 76, 9, 144, 238, 217, 118, 41, 234,
        34, 88, 99, 229, 102, 164, 49, 74, 185, 159, 63, 0, 229, 217, 213]
      real := true }
  channelBinding := none
  serverNonce := some "%hvYDpWUa2RaTCAfuxFIlj)hNlF$k0".toList
  channelBinding_ne_nil := by decide
  serverNonce_printable := by
    rintro nonce h
    obtain rfl := Option.some.inj h
    decide +kernel

/-- The client of that example. -/
def pencilClient : Client where
  mechanism := scramSha256
  flag := ['n']
  binding := []
  name := "user".toList
  nonce := "rOprNGfwEbeRWgbNEkqO".toList
  clientKey := [166, 15, 201, 35, 214, 126, 134, 68, 169, 45, 22, 185, 110, 218, 94, 244, 101, 107,
    12, 114, 92, 72, 67, 116, 190, 37, 83, 85, 118, 153, 110, 139]
  serverKey := pencil.verifier.serverKey

/-- That client gets in. -/
theorem exchange_exact_pencil :
    ∃ e₁ e₂, pencil.clientFirst scramSha256 (utf8 pencilClient.firstMessage) none =
        (e₁, .ok (utf8 (serverFirst pencil.verifier
          "rOprNGfwEbeRWgbNEkqO%hvYDpWUa2RaTCAfuxFIlj)hNlF$k0".toList))) ∧
      e₁.clientFinal Hash.standard (utf8 (pencilClient.finalMessage Hash.standard
          (serverFirst pencil.verifier
            "rOprNGfwEbeRWgbNEkqO%hvYDpWUa2RaTCAfuxFIlj)hNlF$k0".toList))) true =
        (e₂, .ok (utf8 "v=6rriTRBi23WpRR/wtup+mMhUZUn/dB5nLTJRsjl95G4=".toList)) := by
  have hsuits : pencilClient.Suits Hash.standard pencil :=
    { binds := .inr ⟨rfl, rfl, .inl rfl⟩
      prepared := List.all_iff_forall_prop.mp (by decide)
      nonce_printable := by decide +kernel
      nonce_length := by decide
      clientKey_length := rfl
      storedKey_eq := by decide +kernel
      serverKey_eq := rfl }
  have hfinal : pencilClient.expectedFinal Hash.standard (serverFirst pencil.verifier
      "rOprNGfwEbeRWgbNEkqO%hvYDpWUa2RaTCAfuxFIlj)hNlF$k0".toList) =
        "v=6rriTRBi23WpRR/wtup+mMhUZUn/dB5nLTJRsjl95G4=".toList := by
    decide +kernel
  rw [← hfinal]
  exact (exchange_exact Hash.standard pencil rfl).2.2.2 pencilClient none
    "%hvYDpWUa2RaTCAfuxFIlj)hNlF$k0".toList _ hsuits rfl rfl rfl (by decide +kernel)
    (by decide +kernel)

end MaskGateway.Proofs.Pgwire.Scram
