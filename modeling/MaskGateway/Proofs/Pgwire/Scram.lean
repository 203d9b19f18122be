import MaskGateway.Pgwire.ScramClient

/-!
# `MaskGateway.Proofs.Pgwire.Scram`: who gets through a SCRAM exchange

Each parser is stated as an equivalence with the text it accepts, and each of the two calls as an
equivalence with what it asks for (`clientFirst_eq_ok`, `clientFinal_eq_ok`). The two directions of
the claim are then one statement read both ways: no other client gets through, and a client that
follows RFC 5802 with the keys of the verifier does.
-/

set_option autoImplicit false

namespace MaskGateway.Proofs.Pgwire.Scram

open Lib MaskGateway.Pgwire.Scram

variable {hash : Hash}

/-! ### Commas -/

/-- A text without a comma before a comma is what is in front of it. -/
theorem beforeComma_append {part : List Char} (h : ',' ∉ part) (rest : List Char) :
    beforeComma (part ++ ',' :: rest) = part := by
  rw [beforeComma, List.takeWhile_append_of_pos, List.takeWhile_cons_of_neg (by decide),
    List.append_nil]
  intro c hc
  exact decide_eq_true fun heq => h (heq ▸ hc)

theorem fromComma_append {part : List Char} (h : ',' ∉ part) (rest : List Char) :
    fromComma (part ++ ',' :: rest) = ',' :: rest := by
  rw [fromComma, List.dropWhile_append_of_pos, List.dropWhile_cons_of_neg (by decide)]
  intro c hc
  exact decide_eq_true fun heq => h (heq ▸ hc)

theorem comma_not_mem_beforeComma (text : List Char) : ',' ∉ beforeComma text := by
  intro h
  exact of_decide_eq_true (List.mem_takeWhile_imp (p := (· ≠ ',')) h) rfl

/-- A text is what is before its first comma and the rest. -/
theorem beforeComma_fromComma (text : List Char) : beforeComma text ++ fromComma text = text :=
  List.takeWhile_append_dropWhile

/-- The parts of a text with a comma. -/
theorem fromComma_eq_cons {text rest : List Char} :
    fromComma text = ',' :: rest ↔
      text = beforeComma text ++ ',' :: rest ∧ ',' ∉ beforeComma text := by
  constructor
  · intro h
    exact ⟨by rw [← h, beforeComma_fromComma], comma_not_mem_beforeComma text⟩
  · rintro ⟨h, hnot⟩
    rw [h]
    exact fromComma_append hnot rest

/-! ### The parsers -/

theorem comma_not_mem_of_isSaslName {name : List Char} (h : isSaslName name = true) :
    ',' ∉ name := by
  fun_induction isSaslName name with
  | case1 rest ih => simpa using ih h
  | case2 rest ih => simpa using ih h
  | case3 c rest h₁ h₂ ih =>
      rw [Bool.and_eq_true] at h
      rw [List.mem_cons, not_or]
      refine ⟨?_, ih h.2⟩
      rintro rfl
      exact absurd h.1 (by decide)
  | case4 => exact List.not_mem_nil

theorem comma_not_mem_of_printable {text : List Char} (h : text.all isPrintable = true) :
    ',' ∉ text := by
  intro hmem
  exact absurd (List.all_eq_true.mp h _ hmem) (by decide)

theorem comma_not_mem_of_base64 {text : List Char} (h : isBase64Text text = true) :
    ',' ∉ text := by
  intro hmem
  rw [isBase64Text, Bool.and_eq_true] at h
  rw [← List.takeWhile_append_dropWhile (p := Base64.isStandard) (l := text),
    List.mem_append] at hmem
  rcases hmem with hmem | hmem
  · exact absurd (List.mem_takeWhile_imp hmem) (by decide)
  · exact absurd (List.all_eq_true.mp h.1 _ hmem) (by decide)

/-- `_CLIENT_FIRST_BARE` matches a name and a nonce, and nothing else. -/
theorem clientFirstBare_eq_some {bare nonce : List Char} :
    clientFirstBare bare = some nonce ↔
      ∃ name, bare = 'n' :: '=' :: name ++ ',' :: 'r' :: '=' :: nonce ∧ isSaslName name = true ∧
        nonce.all isPrintable = true ∧ minClientNonce ≤ nonce.length ∧
        nonce.length ≤ maxClientNonce := by
  constructor
  · intro h
    unfold clientFirstBare at h
    split at h
    case h_2 => cases h
    split at h
    case h_2 => cases h
    rename_i rest _ nonce' hrest
    rw [Option.ite_none_right_eq_some] at h
    obtain ⟨hok, heq⟩ := h
    obtain rfl := Option.some.inj heq
    refine ⟨beforeComma rest, ?_, hok⟩
    rw [← hrest]
    show 'n' :: '=' :: rest = 'n' :: '=' :: (beforeComma rest ++ fromComma rest)
    rw [beforeComma_fromComma]
  · rintro ⟨name, rfl, hname, hok⟩
    have hcomma := comma_not_mem_of_isSaslName hname
    simp only [clientFirstBare, List.cons_append, fromComma_append hcomma,
      beforeComma_append hcomma]
    exact if_pos ⟨hname, hok⟩

/-- `_CLIENT_FINAL` matches three fields, and nothing else. -/
theorem clientFinalMatch_eq_some {text : List Char} {m : ClientFinal} :
    clientFinalMatch text = some m ↔
      text = m.withoutProof ++ ',' :: 'p' :: '=' :: m.proof ∧ isBase64Text m.cbind = true ∧
        (m.nonce ≠ [] ∧ m.nonce.all isPrintable = true) ∧ isBase64Text m.proof = true := by
  constructor
  · intro h
    unfold clientFinalMatch at h
    split at h
    case h_2 => cases h
    split at h
    case h_2 => cases h
    split at h
    case h_2 => cases h
    rename_i rest _ tail hrest _ proof htail
    rw [Option.ite_none_right_eq_some] at h
    obtain ⟨hok, heq⟩ := h
    obtain rfl := Option.some.inj heq
    refine ⟨?_, hok⟩
    have htext : 'c' :: '=' :: (beforeComma rest ++ ',' :: 'r' :: '=' ::
        (beforeComma tail ++ ',' :: 'p' :: '=' :: proof)) = 'c' :: '=' :: rest := by
      rw [← htail, beforeComma_fromComma, ← hrest, beforeComma_fromComma]
    rw [← htext]
    simp [ClientFinal.withoutProof]
  · rintro ⟨rfl, hcbind, hnonce, hproof⟩
    have hcomma := comma_not_mem_of_base64 hcbind
    have hcomma' := comma_not_mem_of_printable hnonce.2
    have htext : m.withoutProof ++ ',' :: 'p' :: '=' :: m.proof = 'c' :: '=' :: (m.cbind ++
        ',' :: 'r' :: '=' :: (m.nonce ++ ',' :: 'p' :: '=' :: m.proof)) := by
      simp [ClientFinal.withoutProof]
    rw [htext]
    simp only [clientFinalMatch, fromComma_append hcomma, beforeComma_append hcomma,
      fromComma_append hcomma', beforeComma_append hcomma']
    exact if_pos ⟨hcbind, hnonce, hproof⟩

theorem messageText_eq_some {data : List UInt8} {text : List Char} :
    messageText data = some text ↔ data.length ≤ maxSaslMessage ∧ data = utf8 text := by
  rw [messageText, Option.ite_none_left_eq_some, decodeUtf8_eq_some, Nat.not_lt]

/-! ### The two calls -/

/-- What `answerFirst` asks for, and what it does. -/
theorem answerFirst_eq_ok {e e₁ : Exchange} {plus : Bool} {flag bare clientNonce : List Char}
    {random : Option (List UInt8)} {out : List UInt8} :
    e.answerFirst plus flag bare clientNonce random = (e₁, .ok out) ↔
      ∃ suffix, (e.serverNonce <|> randomSuffix random) = some suffix ∧
        e₁ = { e with
          nonce := clientNonce ++ suffix
          cbindInput := utf8 (flag ++ [',', ',']) ++
            (if plus then e.channelBinding.getD [] else [])
          authPrefix := bare ++ ',' :: serverFirst e.verifier (clientNonce ++ suffix) ++ [',']
          stage := .awaitFinal } ∧
        out = utf8 (serverFirst e.verifier (clientNonce ++ suffix)) := by
  rw [Exchange.answerFirst]
  cases h : (e.serverNonce <|> randomSuffix random) with
  | none => simp [Exchange.fail]
  | some suffix => simp [eq_comm]

/-- **What `client_first` asks for.** -/
theorem clientFirst_eq_ok {e e₁ : Exchange} {mechanism : List Char} {data : List UInt8}
    {random : Option (List UInt8)} {out : List UInt8} :
    e.clientFirst mechanism data random = (e₁, .ok out) ↔
      e.stage = .awaitFirst ∧ mechanism ∈ e.mechanisms ∧ data.length ≤ maxSaslMessage ∧
        ∃ flag bare clientNonce, ',' ∉ flag ∧ data = utf8 (flag ++ ',' :: ',' :: bare) ∧
          flagAllowed (mechanism == scramSha256Plus) flag e.channelBinding.isSome = true ∧
          clientFirstBare bare = some clientNonce ∧
          e.answerFirst (mechanism == scramSha256Plus) flag bare clientNonce random =
            (e₁, .ok out) := by
  constructor
  · intro h
    unfold Exchange.clientFirst at h
    split at h
    case isTrue => cases h
    rename_i hstage
    rw [not_or, not_not, not_not] at hstage
    split at h
    case h_1 => cases h
    rename_i message hmessage
    obtain ⟨hlength, hdata⟩ := messageText_eq_some.mp hmessage
    split at h
    case h_2 => cases h
    rename_i bare hcut
    obtain ⟨htext, hcomma⟩ := fromComma_eq_cons.mp hcut
    dsimp only at h
    split at h
    case isFalse => cases h
    rename_i hflag
    split at h
    case h_1 => cases h
    rename_i clientNonce hbare
    rw [htext] at hdata
    exact ⟨hstage.1, hstage.2, hlength, beforeComma message, bare, clientNonce, hcomma, hdata,
      hflag, hbare, h⟩
  · rintro ⟨hstage, hmechanism, hlength, flag, bare, clientNonce, hcomma, rfl, hflag, hbare, h⟩
    rw [Exchange.clientFirst, if_neg (by simp [hstage, hmechanism]),
      messageText_eq_some.mpr ⟨hlength, rfl⟩]
    simp only [fromComma_append hcomma, beforeComma_append hcomma, hflag, hbare, if_true]
    exact h

/-- A client-final of the right form: its three fields, and the bytes of its proof. -/
structure WellFormed (data : List UInt8) (m : ClientFinal) (proof : List UInt8) : Prop where
  length_le : data.length ≤ maxSaslMessage
  data_eq : data = utf8 (m.withoutProof ++ ',' :: 'p' :: '=' :: m.proof)
  cbind_base64 : isBase64Text m.cbind = true
  nonce_printable : m.nonce ≠ [] ∧ m.nonce.all isPrintable = true
  proof_base64 : isBase64Text m.proof = true
  rawProof_eq : rawProof m = some proof

/-- The parser and the decoder of the proof let through the messages of the right form. -/
theorem wellFormed_iff {data : List UInt8} {m : ClientFinal} {proof : List UInt8} :
    WellFormed data m proof ↔
      (messageText data).bind clientFinalMatch = some m ∧ rawProof m = some proof := by
  rw [Option.bind_eq_some_iff]
  constructor
  · intro h
    exact ⟨⟨_, messageText_eq_some.mpr ⟨h.length_le, h.data_eq⟩, clientFinalMatch_eq_some.mpr
      ⟨rfl, h.cbind_base64, h.nonce_printable, h.proof_base64⟩⟩, h.rawProof_eq⟩
  · rintro ⟨⟨text, htext, hmatch⟩, hproof⟩
    obtain ⟨hlength, hdata⟩ := messageText_eq_some.mp htext
    obtain ⟨rfl, hcbind, hnonce, hbase⟩ := clientFinalMatch_eq_some.mp hmatch
    exact ⟨hlength, hdata, hcbind, hnonce, hbase, hproof⟩

/-- **What `client_final` asks for.** -/
theorem clientFinal_eq_ok {e e₂ : Exchange} {data : List UInt8} {identityAccepted : Bool}
    {out : List UInt8} :
    e.clientFinal hash data identityAccepted = (e₂, .ok out) ↔
      e.stage = .awaitFinal ∧ ∃ m proof, WellFormed data m proof ∧
        e.accepted hash m proof identityAccepted = true ∧ e₂ = { e with stage := .done } ∧
        out = utf8 ('v' :: '=' ::
          Base64.encodePadded (hash.hmac e.verifier.serverKey (e.authMessage m))) := by
  constructor
  · intro h
    unfold Exchange.clientFinal at h
    split at h
    case isTrue => cases h
    rename_i hstage
    split at h
    case h_1 => cases h
    rename_i m hm
    split at h
    case h_1 => cases h
    rename_i proof hproof
    split at h
    case isFalse => cases h
    rename_i haccepted
    obtain ⟨rfl, hout⟩ := Prod.mk.inj h
    exact ⟨not_not.mp hstage, m, proof, wellFormed_iff.mpr ⟨hm, hproof⟩, haccepted, rfl,
      (Except.ok.inj hout).symm⟩
  · rintro ⟨hstage, m, proof, hformed, haccepted, rfl, rfl⟩
    obtain ⟨hm, hproof⟩ := wellFormed_iff.mp hformed
    simp only [Exchange.clientFinal, hstage, hm, hproof, haccepted, ne_eq, not_true_eq_false,
      if_true, if_false]

/-- What `accepted` looks at. -/
theorem accepted_iff {e : Exchange} {m : ClientFinal} {proof : List UInt8}
    {identityAccepted : Bool} :
    e.accepted hash m proof identityAccepted = true ↔
      m.cbind = Base64.encodePadded e.cbindInput ∧ m.nonce = e.nonce ∧
        hash.sha256 (xorBytes proof (hash.hmac e.verifier.storedKey (e.authMessage m))) =
          e.verifier.storedKey ∧
        e.verifier.real = true ∧ identityAccepted = true := by
  simp only [Exchange.accepted, Bool.and_eq_true, beq_iff_eq, and_assoc]

/-! ### Runs of calls -/

/-- What one call does to the stage, with what it gives. -/
inductive Moved :
    Pgwire.Scram.Stage → Call → Pgwire.Scram.Stage →
      Except PgwireErrorCategory (List UInt8) → Prop where
  | refused (stage : Pgwire.Scram.Stage) (call : Call) (category : PgwireErrorCategory) :
      Moved stage call .failed (.error category)
  | first (mechanism : List Char) (data : List UInt8) (random : Option (List UInt8))
      (out : List UInt8) :
      Moved .awaitFirst (.first mechanism data random) .awaitFinal (.ok out)
  | final (data : List UInt8) (identityAccepted : Bool) (out : List UInt8) :
      Moved .awaitFinal (.final data identityAccepted) .done (.ok out)

theorem Moved.failed_of_error {stage after : Pgwire.Scram.Stage} {c : Call}
    {category : PgwireErrorCategory} (h : Moved stage c after (.error category)) : after = .failed := by
  cases h
  rfl

/-- A call that is not a client-first leaves a fresh exchange failed. -/
theorem Moved.first_of_ok {after : Pgwire.Scram.Stage} {c : Call} {out : List UInt8}
    (h : Moved .awaitFirst c after (.ok out)) :
    after = .awaitFinal ∧ ∃ mechanism data random, c = .first mechanism data random := by
  cases h with
  | first mechanism data random => exact ⟨rfl, mechanism, data, random, rfl⟩

/-- After its client-first, an exchange goes on to its end with whatever comes next. -/
theorem Moved.over_of_awaitFinal {after : Pgwire.Scram.Stage} {c : Call}
    {result : Except PgwireErrorCategory (List UInt8)} (h : Moved .awaitFinal c after result) :
    after = .done ∨ after = .failed := by
  cases h with
  | refused => exact .inr rfl
  | final => exact .inl rfl

theorem clientFirst_error {e e₁ : Exchange} {mechanism : List Char} {data : List UInt8}
    {random : Option (List UInt8)} {category : PgwireErrorCategory}
    (h : e.clientFirst mechanism data random = (e₁, .error category)) : e₁.stage = .failed := by
  have hfail : ∀ c, e.fail c = (e₁, .error category) → e₁.stage = .failed := by
    intro c hc
    rw [← (Prod.mk.inj hc).1]
  unfold Exchange.clientFirst at h
  split at h
  case isTrue => exact hfail _ h
  split at h
  case h_1 => exact hfail _ h
  split at h
  case h_2 => exact hfail _ h
  dsimp only at h
  split at h
  case isFalse => exact hfail _ h
  split at h
  case h_1 => exact hfail _ h
  unfold Exchange.answerFirst at h
  split at h
  case h_1 => exact hfail _ h
  case h_2 => cases h

theorem clientFinal_error {e e₁ : Exchange} {data : List UInt8} {identityAccepted : Bool}
    {category : PgwireErrorCategory}
    (h : e.clientFinal hash data identityAccepted = (e₁, .error category)) :
    e₁.stage = .failed := by
  have hfail : ∀ c, e.fail c = (e₁, .error category) → e₁.stage = .failed := by
    intro c hc
    rw [← (Prod.mk.inj hc).1]
  unfold Exchange.clientFinal at h
  split at h
  case isTrue => exact hfail _ h
  split at h
  case h_1 => exact hfail _ h
  split at h
  case h_1 => exact hfail _ h
  split at h
  case isTrue => cases h
  case isFalse => exact hfail _ h

theorem call_moved (e : Exchange) (c : Call) :
    Moved e.stage c (e.call hash c).1.stage (e.call hash c).2 := by
  cases c with
  | first mechanism data random =>
      show Moved _ _ (e.clientFirst mechanism data random).1.stage
        (e.clientFirst mechanism data random).2
      rcases h : e.clientFirst mechanism data random with ⟨e₁, category | out⟩
      · rw [clientFirst_error h]
        exact .refused _ _ _
      · obtain ⟨hstage, -, -, flag, bare, clientNonce, -, -, -, -, hanswer⟩ :=
          clientFirst_eq_ok.mp h
        obtain ⟨suffix, -, rfl, -⟩ := answerFirst_eq_ok.mp hanswer
        rw [hstage]
        exact .first _ _ _ _
  | final data identityAccepted =>
      show Moved _ _ (e.clientFinal hash data identityAccepted).1.stage
        (e.clientFinal hash data identityAccepted).2
      rcases h : e.clientFinal hash data identityAccepted with ⟨e₁, category | out⟩
      · rw [clientFinal_error h]
        exact .refused _ _ _
      · obtain ⟨hstage, m, proof, -, -, rfl, -⟩ := clientFinal_eq_ok.mp h
        rw [hstage]
        exact .final _ _ _

/-- From `done` or `failed` every call is refused. -/
theorem calls_over {e : Exchange} (h : e.stage = .done ∨ e.stage = .failed) (cs : List Call) :
    (∀ result ∈ (e.calls hash cs).2, ∃ category, result = .error category) ∧
      (e.stage = .failed → (e.calls hash cs).1.stage = .failed) := by
  induction cs generalizing e with
  | nil => exact ⟨List.forall_mem_nil _, id⟩
  | cons c cs ih =>
      have hmoved : Moved e.stage c (e.call hash c).1.stage (e.call hash c).2 := call_moved e c
      have hrefused : (e.call hash c).1.stage = .failed ∧
          ∃ category, (e.call hash c).2 = .error category := by
        generalize (e.call hash c).1.stage = after, (e.call hash c).2 = result at hmoved
        generalize e.stage = stage at h hmoved
        cases hmoved with
        | refused => exact ⟨rfl, _, rfl⟩
        | first => exact absurd h (by decide)
        | final => exact absurd h (by decide)
      obtain ⟨hrest, hfailed⟩ := ih (.inr hrefused.1)
      exact ⟨List.forall_mem_cons.mpr ⟨hrefused.2, hrest⟩, fun _ => hfailed hrefused.1⟩

/-- After a refusal, everything is refused. -/
theorem calls_error {e : Exchange} {cs : List Call} {i : Nat} {category : PgwireErrorCategory}
    (h : (e.calls hash cs).2[i]? = some (.error category)) :
    (e.calls hash cs).1.stage = .failed ∧
      ∀ j result, i ≤ j → (e.calls hash cs).2[j]? = some result →
        ∃ category, result = .error category := by
  induction cs generalizing e i with
  | nil => cases h
  | cons c cs ih =>
      cases i with
      | zero =>
          have hresult : (e.call hash c).2 = .error category := Option.some.inj h
          have hfailed : (e.call hash c).1.stage = .failed :=
            (hresult ▸ call_moved e c).failed_of_error
          have hover := @calls_over hash (e.call hash c).1 (.inr hfailed) cs
          obtain ⟨hrest, hlast⟩ := hover
          refine ⟨hlast hfailed, fun j result _ hj => ?_⟩
          cases j with
          | zero => exact ⟨category, Option.some.inj (hj.symm.trans h)⟩
          | succ j => exact hrest result (List.mem_of_getElem? hj)
      | succ i =>
          obtain ⟨hlast, hrest⟩ := ih (e := (e.call hash c).1) h
          refine ⟨hlast, fun j result hle hj => ?_⟩
          cases j with
          | zero => exact absurd hle (Nat.not_succ_le_zero i)
          | succ j => exact hrest j result (Nat.le_of_succ_le_succ hle) hj

/-- Nothing is left over once an exchange is done or failed. -/
theorem calls_over_ok {e : Exchange} (h : e.stage = .done ∨ e.stage = .failed) {cs : List Call}
    {i : Nat} {out : List UInt8} (hok : (e.calls hash cs).2[i]? = some (.ok out)) : False := by
  obtain ⟨category, heq⟩ := (calls_over h cs).1 _ (List.mem_of_getElem? hok)
  cases heq

/-- From `awaitFinal` only the next call can succeed. -/
theorem calls_awaitFinal {e : Exchange} (h : e.stage = .awaitFinal) {cs : List Call} {i : Nat}
    {out : List UInt8} (hok : (e.calls hash cs).2[i]? = some (.ok out)) : i = 0 := by
  cases cs with
  | nil => cases hok
  | cons c cs =>
      cases i with
      | zero => rfl
      | succ i =>
          have hover : (e.call hash c).1.stage = .done ∨ (e.call hash c).1.stage = .failed :=
            (h ▸ call_moved e c).over_of_awaitFinal
          exact (calls_over_ok hover hok).elim

/-- **A client-final succeeds only right after the client-first.** -/
theorem calls_final_ok {e : Exchange} (h : e.stage = .awaitFirst) {cs : List Call} {i : Nat}
    {data : List UInt8} {identityAccepted : Bool} {out : List UInt8}
    (hcall : cs[i]? = some (.final data identityAccepted))
    (hok : (e.calls hash cs).2[i]? = some (.ok out)) :
    i = 1 ∧ ∃ mechanism first random reply, cs[0]? = some (.first mechanism first random) ∧
      (e.calls hash cs).2[0]? = some (.ok reply) := by
  cases cs with
  | nil => cases hok
  | cons c cs =>
      have hmoved : Moved .awaitFirst c (e.call hash c).1.stage (e.call hash c).2 :=
        h ▸ call_moved e c
      cases i with
      | zero =>
          have hresult : (e.call hash c).2 = .ok out := Option.some.inj hok
          obtain ⟨-, mechanism, first, random, rfl⟩ := (hresult ▸ hmoved).first_of_ok
          cases hcall
      | succ i =>
          show i + 1 = 1 ∧ ∃ mechanism first random reply,
            some c = some (.first mechanism first random) ∧
              some (e.call hash c).2 = some (.ok reply)
          have hrest : ((e.call hash c).1.calls hash cs).2[i]? = some (.ok out) := hok
          cases hresult : (e.call hash c).2 with
          | error category =>
              have hfailed := (hresult ▸ hmoved).failed_of_error
              exact (calls_over_ok (.inr hfailed) hrest).elim
          | ok reply =>
              obtain ⟨hafter, mechanism, first, random, rfl⟩ := (hresult ▸ hmoved).first_of_ok
              obtain rfl := calls_awaitFinal hafter hrest
              exact ⟨rfl, mechanism, first, random, reply, rfl, rfl⟩

end MaskGateway.Proofs.Pgwire.Scram
