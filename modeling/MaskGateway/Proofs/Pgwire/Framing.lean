import MaskGateway.Lib.Fields
import MaskGateway.Pgwire.Framing

/-!
# `MaskGateway.Proofs.Pgwire.Framing`: the startup parsers accept exactly their grammars

Each parser is compared with a writer of the pairs or fields that it stands for: `startupBytes`
and `saslInitialBytes`. `StartupPairs` and `IsMechanism` say which pairs and mechanisms may be
written. The parser of a startup is taken apart along its three layers: the code in front, the
fields between NUL bytes (`Lib.Fields`), and the loop over the fields two at a time.
-/

set_option autoImplicit false

namespace MaskGateway.Proofs.Pgwire.Framing

open MaskGateway.Pgwire MaskGateway.Pgwire.Framing MaskGateway.Lib

/-! ### The startup message -/

/-- The fields of the pairs. -/
def pairFields (pairs : List (Name × Name)) : List (List UInt8) :=
  pairs.flatMap fun pair => [utf8 pair.1, utf8 pair.2]

/-- A startup of protocol 3.0: `k1\0v1\0...kn\0vn\0\0`. -/
def startupBytes (pairs : List (Name × Name)) : List UInt8 :=
  toBytes 4 protocol30 ++ terminated 0 (pairFields pairs) ++ [0]

/-- The pairs that a startup may hold, apart from what their values say. -/
structure PairsFit (pairs : List (Name × Name)) : Prop where
  key_ne_nil : ∀ pair ∈ pairs, pair.1 ≠ []
  key_allowed : ∀ pair ∈ pairs, pair.1 ∈ startupKeys
  distinct : (pairs.map Prod.fst).Nodup
  key_bytes : ∀ pair ∈ pairs, (utf8 pair.1).length ≤ maxKeyBytes
  value_bytes : ∀ pair ∈ pairs, (utf8 pair.2).length ≤ maxValueBytes

/-- The grammar of a startup. -/
structure StartupPairs (lower : Name → Name) (pairs : List (Name × Name)) : Prop where
  fit : PairsFit pairs
  count : pairs.length ≤ maxStartupPairs
  nul_free : ∀ pair ∈ pairs, '\x00' ∉ pair.1 ∧ '\x00' ∉ pair.2
  user : ∃ user, pairs.lookup "user".toList = some user ∧ user ≠ []
  encoding : ∀ encoding, pairs.lookup "client_encoding".toList = some encoding →
    lower encoding ∈ utf8Names

/-- Only one code starts a session. -/
theorem classifyInitial_eq_startup {body : List UInt8} :
    classifyInitial body = .ok .startup ↔ body.take 4 = toBytes 4 protocol30 := by
  have hlt : protocol30 < 256 ^ 4 := by decide
  rw [eq_toBytes_iff hlt, classifyInitial, bind_eq_ok, List.length_take]
  simp only [refuseIf_eq_ok]
  constructor
  · rintro ⟨-, hlength, h⟩
    have hfour : ¬ body.length < 4 := hlength
    refine ⟨by omega, ?_⟩
    by_contra hcode
    rw [if_neg hcode] at h
    split_ifs at h
    cases h
  · rintro ⟨hlength, hcode⟩
    have hfour : ¬ body.length < lengthBytes := by
      show ¬ body.length < 4
      omega
    rw [hcode]
    exact ⟨(), hfour, rfl⟩

theorem lookup_isSome_iff {key : Name} {values : List (Name × Name)} :
    (values.lookup key).isSome = true ↔ key ∈ values.map Prod.fst := by
  induction values with
  | nil => simp
  | cons pair values ih =>
      rw [List.lookup_cons, List.map_cons, List.mem_cons, ← ih]
      by_cases hkey : key = pair.1
      · simp [hkey]
      · have hbeq : (key == pair.1) = false := beq_eq_false_iff_ne.mpr hkey
        simp only [hbeq, hkey, false_or]

/-- The fit of one more pair in front. -/
theorem pairsFit_cons {pair : Name × Name} {pairs : List (Name × Name)} :
    PairsFit (pair :: pairs) ↔
      (pair.1 ≠ [] ∧ pair.1 ∈ startupKeys ∧ pair.1 ∉ pairs.map Prod.fst ∧
        (utf8 pair.1).length ≤ maxKeyBytes ∧ (utf8 pair.2).length ≤ maxValueBytes) ∧
      PairsFit pairs := by
  constructor
  · intro h
    obtain ⟨hfresh, hdistinct⟩ := List.nodup_cons.mp h.distinct
    exact ⟨⟨h.key_ne_nil _ List.mem_cons_self, h.key_allowed _ List.mem_cons_self, hfresh,
        h.key_bytes _ List.mem_cons_self, h.value_bytes _ List.mem_cons_self⟩,
      fun p hp => h.key_ne_nil p (List.mem_cons_of_mem _ hp),
      fun p hp => h.key_allowed p (List.mem_cons_of_mem _ hp), hdistinct,
      fun p hp => h.key_bytes p (List.mem_cons_of_mem _ hp),
      fun p hp => h.value_bytes p (List.mem_cons_of_mem _ hp)⟩
  · rintro ⟨⟨hne, hallowed, hfresh, hkey, hvalue⟩, h⟩
    exact ⟨List.forall_mem_cons.mpr ⟨hne, h.key_ne_nil⟩,
      List.forall_mem_cons.mpr ⟨hallowed, h.key_allowed⟩,
      List.nodup_cons.mpr ⟨hfresh, h.distinct⟩,
      List.forall_mem_cons.mpr ⟨hkey, h.key_bytes⟩,
      List.forall_mem_cons.mpr ⟨hvalue, h.value_bytes⟩⟩

theorem utf8_eq_nil {text : List Char} : utf8 text = [] ↔ text = [] := by
  constructor
  · intro h
    have hlength := length_le_length_utf8 text
    rw [h] at hlength
    exact List.eq_nil_of_length_eq_zero (Nat.le_zero.mp hlength)
  · rintro rfl
    rfl

/-- **The loop over the fields**, from the pairs that it has read: it accepts the fields of pairs
that fit and are new to these. -/
theorem parsePairs_eq_ok : ∀ (fields : List (List UInt8)) (values result : List (Name × Name)),
    fields.length % 2 = 0 →
    (parsePairs fields values = .ok result ↔ ∃ pairs, fields = pairFields pairs ∧
      PairsFit pairs ∧ (∀ pair ∈ pairs, pair.1 ∉ values.map Prod.fst) ∧
        result = values ++ pairs)
  | [], values, result, _ => by
      show (Except.ok values = Except.ok result) ↔ _
      constructor
      · intro h
        have hresult : values = result := Except.ok.inj h
        exact ⟨[], rfl, ⟨nofun, nofun, List.nodup_nil, nofun, nofun⟩, nofun, by simp [hresult]⟩
      · rintro ⟨pairs, hfields, -, -, rfl⟩
        cases pairs with
        | nil => rw [List.append_nil]
        | cons pair pairs => cases hfields
  | [_], _, _, hodd => by simp at hodd
  | rawKey :: rawValue :: rest, values, result, heven => by
      have hrest : rest.length % 2 = 0 := by
        simp only [List.length_cons] at heven
        omega
      rw [parsePairs, bind_eq_ok]
      simp only [refuseIf_eq_ok]
      constructor
      · rintro ⟨-, hsizes, h⟩
        obtain ⟨hempty, hsizes⟩ := not_or.mp hsizes
        obtain ⟨hkeyBytes, hvalueBytes⟩ := not_or.mp hsizes
        cases hkey : decodeUtf8 rawKey with
        | none => simp [hkey] at h
        | some key =>
            cases hvalue : decodeUtf8 rawValue with
            | none => simp [hkey, hvalue] at h
            | some value =>
                obtain rfl := decodeUtf8_eq_some.mp hkey
                obtain rfl := decodeUtf8_eq_some.mp hvalue
                simp only [hkey, hvalue, bind_eq_ok, refuseIf_eq_ok, lookup_isSome_iff,
                  not_not] at h
                obtain ⟨-, hnew, -, hallowed, h⟩ := h
                obtain ⟨pairs, rfl, hfit, hfresh, rfl⟩ :=
                  (parsePairs_eq_ok rest (values ++ [(key, value)]) result hrest).mp h
                have hnot : ∀ pair ∈ pairs, pair.1 ∉ values.map Prod.fst ∧ pair.1 ≠ key := by
                  intro pair hpair
                  have hmem := hfresh pair hpair
                  simp only [List.map_append, List.mem_append, not_or, List.map_cons,
                    List.map_nil, List.mem_singleton] at hmem
                  exact hmem
                refine ⟨(key, value) :: pairs, rfl, pairsFit_cons.mpr ⟨⟨?_, hallowed, ?_, ?_, ?_⟩,
                  hfit⟩, List.forall_mem_cons.mpr ⟨hnew, fun p hp => (hnot p hp).1⟩, ?_⟩
                · exact fun hnil => hempty (utf8_eq_nil.mpr hnil)
                · intro hmem
                  obtain ⟨pair, hpair, heq⟩ := List.mem_map.mp hmem
                  exact (hnot pair hpair).2 heq
                · exact Nat.le_of_not_lt hkeyBytes
                · exact Nat.le_of_not_lt hvalueBytes
                · rw [List.append_assoc, List.singleton_append]
      · rintro ⟨pairs, hfields, hfit, hfresh, rfl⟩
        cases pairs with
        | nil => cases hfields
        | cons pair pairs =>
            obtain ⟨hkey, hfields⟩ := List.cons.inj hfields
            obtain ⟨hvalue, hfields⟩ := List.cons.inj hfields
            obtain ⟨⟨hne, hallowed, hdistinct, hkeyBytes, hvalueBytes⟩, hfit⟩ :=
              pairsFit_cons.mp hfit
            obtain ⟨hnew, hfresh⟩ := List.forall_mem_cons.mp hfresh
            have hdecodeKey : decodeUtf8 rawKey = some pair.1 := decodeUtf8_eq_some.mpr hkey
            have hdecodeValue : decodeUtf8 rawValue = some pair.2 := decodeUtf8_eq_some.mpr hvalue
            refine ⟨(), ?_, ?_⟩
            · rw [hkey, hvalue, utf8_eq_nil]
              exact not_or.mpr ⟨hne, not_or.mpr ⟨Nat.not_lt.mpr hkeyBytes,
                Nat.not_lt.mpr hvalueBytes⟩⟩
            · simp only [hdecodeKey, hdecodeValue, bind_eq_ok, refuseIf_eq_ok, lookup_isSome_iff,
                not_not]
              refine ⟨(), hnew, (), hallowed, ?_⟩
              refine (parsePairs_eq_ok rest (values ++ [(pair.1, pair.2)]) _ hrest).mpr
                ⟨pairs, hfields, hfit, fun p hp => ?_, by simp⟩
              simp only [List.map_append, List.mem_append, not_or, List.map_cons, List.map_nil,
                List.mem_singleton]
              refine ⟨hfresh p hp, fun heq => hdistinct ?_⟩
              exact heq ▸ List.mem_map_of_mem hp

/-- The fields of a startup, between its code and its last NUL byte. -/
theorem payload_iff {payload : List UInt8} {fields : List (List UInt8)} (hne : fields ≠ []) :
    (payload = terminated 0 fields ++ [0] ∧ ∀ field ∈ fields, (0 : UInt8) ∉ field) ↔
      [0, 0] <:+ payload ∧ (payload.take (payload.length - 2)).splitOn 0 = fields := by
  rw [← eq_terminated_iff hne]
  constructor
  · rintro ⟨rfl, hfree⟩
    have hsplit : terminated 0 fields ++ [0] = [(0 : UInt8)].intercalate fields ++ [0, 0] := by
      rw [terminated_eq hne, List.append_assoc]
      rfl
    have htake : (terminated 0 fields ++ [0]).take ((terminated 0 fields ++ [0]).length - 2) =
        [(0 : UInt8)].intercalate fields := by
      rw [hsplit, List.length_append]
      exact List.take_left
    rw [htake]
    exact ⟨hsplit ▸ List.suffix_append .., (terminated_eq hne).symm, hfree⟩
  · rintro ⟨⟨front, rfl⟩, hterminated, hfree⟩
    have htake : (front ++ [0, 0]).take ((front ++ [(0 : UInt8), 0]).length - 2) = front := by
      rw [List.length_append]
      exact List.take_left
    rw [htake] at hterminated
    refine ⟨?_, hfree⟩
    rw [← hterminated, List.append_assoc]
    rfl

theorem length_pairFields (pairs : List (Name × Name)) :
    (pairFields pairs).length = 2 * pairs.length := by
  induction pairs with
  | nil => rfl
  | cons pair pairs ih =>
      have hstep : pairFields (pair :: pairs) = utf8 pair.1 :: utf8 pair.2 :: pairFields pairs := rfl
      rw [hstep, List.length_cons, List.length_cons, ih, List.length_cons]
      omega

/-- No field holds a NUL byte when no text holds a NUL. -/
theorem nul_free_iff {pairs : List (Name × Name)} :
    (∀ field ∈ pairFields pairs, (0 : UInt8) ∉ field) ↔
      ∀ pair ∈ pairs, '\x00' ∉ pair.1 ∧ '\x00' ∉ pair.2 := by
  simp only [pairFields, List.forall_mem_flatMap, List.forall_mem_cons, zero_mem_utf8_iff]
  exact forall₂_congr fun pair _ => and_congr_right fun _ => and_iff_left (List.forall_mem_nil _)

/-- The answer for these pairs. -/
def startupOf (pairs : List (Name × Name)) (user : Name) : StartupMessage where
  user := user
  database := pairs.lookup "database".toList
  applicationName := pairs.lookup "application_name".toList

/-- **A startup is accepted exactly when it spells pairs of the grammar**, and then read back. -/
theorem parseStartup_eq_ok {lower : Name → Name} {body : List UInt8} {item : StartupMessage} :
    parseStartup lower body = .ok item ↔ ∃ pairs user, StartupPairs lower pairs ∧
      body = startupBytes pairs ∧ pairs.lookup "user".toList = some user ∧
        item = startupOf pairs user := by
  have hfour : (toBytes 4 protocol30).length = 4 := length_toBytes ..
  constructor
  · intro h
    simp only [parseStartup, bind_eq_ok, refuseIf_eq_ok, not_or, not_not] at h
    obtain ⟨kind, hkind, -, rfl, -, hends, -, ⟨heven, hcount⟩, values, hvalues, h⟩ := h
    rw [classifyInitial_eq_startup] at hkind
    obtain ⟨pairs, hfields, hfit, -, hpairs⟩ := (parsePairs_eq_ok _ _ _ heven).mp hvalues
    have hvalues : values = pairs := hpairs
    subst hvalues
    cases huser : values.lookup "user".toList with
    | none => rw [huser] at h; cases h
    | some user =>
        cases user with
        | nil => rw [huser] at h; cases h
        | cons c user =>
            simp only [huser, bind_eq_ok, pure_eq_ok] at h
            obtain ⟨_, hencoding, rfl⟩ := h
            have hne : pairFields values ≠ [] := by
              intro hnil
              cases values with
              | nil => cases huser
              | cons pair pairs => cases hnil
            obtain ⟨hpayload, hfree⟩ := (payload_iff hne).mpr ⟨hends, hfields⟩
            rw [hfields, length_pairFields] at hcount
            refine ⟨values, c :: user, ⟨hfit, by omega, nul_free_iff.mp hfree,
              ⟨c :: user, huser, List.cons_ne_nil c user⟩, fun encoding hlookup => ?_⟩, ?_, huser, rfl⟩
            · rw [hlookup, checkEncoding, refuseIf_eq_ok, not_not] at hencoding
              exact hencoding
            · calc body = body.take 4 ++ body.drop 4 := (List.take_append_drop 4 body).symm
                _ = startupBytes values := by rw [hkind, hpayload, startupBytes, List.append_assoc]
  · rintro ⟨pairs, user, hpairs, rfl, huser, rfl⟩
    obtain ⟨user', huser', hnil⟩ := hpairs.user
    have hsame : user' = user := Option.some.inj (huser'.symm.trans huser)
    subst hsame
    have hne : pairFields pairs ≠ [] := by
      intro hnil
      cases pairs with
      | nil => cases huser
      | cons pair pairs => cases hnil
    have hdrop : (startupBytes pairs).drop 4 = terminated 0 (pairFields pairs) ++ [0] := by
      rw [startupBytes, List.append_assoc]
      exact List.drop_left' hfour
    have htake : (startupBytes pairs).take 4 = toBytes 4 protocol30 := by
      rw [startupBytes, List.append_assoc]
      exact List.take_left' hfour
    obtain ⟨hends, hfields⟩ :=
      (payload_iff hne).mp ⟨rfl, nul_free_iff.mpr hpairs.nul_free⟩
    have hcount := hpairs.count
    simp only [parseStartup, bind_eq_ok, refuseIf_eq_ok, not_or, not_not, hdrop]
    refine ⟨.startup, classifyInitial_eq_startup.mpr htake, (), rfl, (), hends, (), ⟨?_, ?_⟩,
      pairs, ?_, ?_⟩
    · rw [hfields, length_pairFields]
      omega
    · rw [hfields, length_pairFields]
      omega
    · rw [hfields]
      refine (parsePairs_eq_ok _ _ _ ?_).mpr ⟨pairs, rfl, hpairs.fit, ?_, rfl⟩
      · rw [length_pairFields]
        omega
      · exact fun _ _ => List.not_mem_nil
    · cases user' with
      | nil => exact (hnil rfl).elim
      | cons c user =>
          simp only [huser, bind_eq_ok, pure_eq_ok]
          refine ⟨(), ?_, rfl⟩
          cases hencoding : pairs.lookup "client_encoding".toList with
          | none => rfl
          | some encoding =>
              rw [checkEncoding, refuseIf_eq_ok, not_not]
              exact hpairs.encoding encoding hencoding

/-! ### The SASL initial response -/

/-- A name of a mechanism: ASCII without NUL, neither empty nor too long. -/
structure IsMechanism (mechanism : Name) : Prop where
  ne_nil : mechanism ≠ []
  ascii : ∀ c ∈ mechanism, c.toNat < 128
  nul_free : '\x00' ∉ mechanism
  length_le : mechanism.length ≤ maxMechanismName

/-- `mechanism\0 length data`. -/
def saslInitialBytes (mechanism : Name) (data : List UInt8) : List UInt8 :=
  utf8 mechanism ++ [0] ++ signedToBytes 4 data.length ++ data

/-- The byte of an ASCII character. -/
theorem utf8_ascii {c : Char} (h : c.toNat < 128) : utf8 [c] = [UInt8.ofNat c.toNat] := by
  rw [utf8_cons, encode_one h, utf8_nil, List.append_nil]
  rfl

/-- The character of an ASCII byte. -/
theorem toNat_ofNat_ascii {b : UInt8} (h : b.toNat < 128) :
    (Char.ofNat b.toNat).toNat = b.toNat := by
  rw [Char.ofNat, dif_pos (Or.inl (by omega))]
  rfl

/-- ASCII bytes are those of the text that they are decoded to. -/
theorem utf8_decodeAscii {bytes : List UInt8} (h : ∀ b ∈ bytes, b.toNat < 128) :
    utf8 (decodeAscii bytes) = bytes := by
  induction bytes with
  | nil => rfl
  | cons b bytes ih =>
      obtain ⟨hb, hbytes⟩ := List.forall_mem_cons.mp h
      have hchar := toNat_ofNat_ascii hb
      have hascii : (Char.ofNat b.toNat).toNat < 128 := by rw [hchar]; exact hb
      calc utf8 (decodeAscii (b :: bytes))
          = utf8 [Char.ofNat b.toNat] ++ utf8 (decodeAscii bytes) := utf8_append [_] _
        _ = [b] ++ bytes := by rw [utf8_ascii hascii, hchar, UInt8.ofNat_toNat, ih hbytes]

theorem ascii_decodeAscii {bytes : List UInt8} (h : ∀ b ∈ bytes, b.toNat < 128) :
    ∀ c ∈ decodeAscii bytes, c.toNat < 128 := by
  intro c hc
  obtain ⟨b, hb, rfl⟩ := List.mem_map.mp hc
  rw [toNat_ofNat_ascii (h b hb)]
  exact h b hb

theorem utf8_ascii_lt {text : Name} (h : ∀ c ∈ text, c.toNat < 128) :
    ∀ b ∈ utf8 text, b.toNat < 128 := by
  intro b hb
  rw [utf8, List.mem_flatMap] at hb
  obtain ⟨c, hc, hb⟩ := hb
  have hascii := h c hc
  rw [encode_one hascii, List.mem_singleton] at hb
  rw [hb, toNat_ofNat_byte (by show c.toNat < 256; omega)]
  exact hascii

theorem decodeAscii_utf8 {text : Name} (h : ∀ c ∈ text, c.toNat < 128) :
    decodeAscii (utf8 text) = text := by
  induction text with
  | nil => rfl
  | cons c text ih =>
      obtain ⟨hc, htext⟩ := List.forall_mem_cons.mp h
      have hbyte : (UInt8.ofNat c.toNat).toNat = c.toNat := toNat_ofNat_byte (by omega)
      calc decodeAscii (utf8 (c :: text))
          = decodeAscii (utf8 [c] ++ utf8 text) := by rw [← utf8_append, List.singleton_append]
        _ = decodeAscii (utf8 [c]) ++ decodeAscii (utf8 text) := List.map_append
        _ = c :: text := by
            rw [ih htext, utf8_ascii hc, decodeAscii, List.map_singleton, hbyte, Char.ofNat_toNat,
              List.singleton_append]

/-- The first NUL byte stands right behind a text without NUL. -/
theorem findIdx?_nul {front rest : List UInt8} (h : (0 : UInt8) ∉ front) :
    (front ++ 0 :: rest).findIdx? (· == 0) = some front.length := by
  induction front with
  | nil => rfl
  | cons b front ih =>
      obtain ⟨hb, hfront⟩ := List.ne_and_not_mem_of_not_mem_cons h
      have hbeq : (b == 0) = false := beq_eq_false_iff_ne.mpr hb.symm
      rw [List.cons_append, List.findIdx?_cons, hbeq, ih hfront]
      rfl

/-- Where a NUL byte was found, there is none in front of it. -/
theorem split_of_findIdx? {body : List UInt8} {n : Nat}
    (h : body.findIdx? (· == 0) = some n) :
    body = body.take n ++ 0 :: body.drop (n + 1) ∧ (0 : UInt8) ∉ body.take n ∧
      (body.take n).length = n := by
  induction body generalizing n with
  | nil => cases h
  | cons b body ih =>
      rw [List.findIdx?_cons] at h
      by_cases hb : (b == 0) = true
      · rw [if_pos hb] at h
        cases h
        rw [beq_iff_eq.mp hb]
        exact ⟨rfl, List.not_mem_nil, rfl⟩
      · rw [if_neg hb] at h
        obtain ⟨m, hm, rfl⟩ := Option.map_eq_some_iff.mp h
        obtain ⟨hsplit, hfree, hlength⟩ := ih hm
        refine ⟨congrArg (b :: ·) hsplit, ?_, congrArg (· + 1) hlength⟩
        rw [List.take_succ_cons, List.mem_cons, not_or]
        exact ⟨fun heq => hb (beq_iff_eq.mpr heq.symm), hfree⟩

/-- **A SASL initial response is accepted exactly when it is written so**, and fits the bound of
a SASL message. -/
theorem parseSaslInitial_eq_ok {body data : List UInt8} {mechanism : Name} :
    parseSaslInitial body = .ok (mechanism, data) ↔ IsMechanism mechanism ∧
      body = saslInitialBytes mechanism data ∧ body.length ≤ maxSaslMessage - lengthBytes := by
  constructor
  · intro h
    rw [parseSaslInitial, bind_eq_ok] at h
    obtain ⟨_, hsize, h⟩ := h
    rw [refuseIf_eq_ok, Nat.not_lt] at hsize
    cases hend : body.findIdx? (· == 0) with
    | none => rw [hend] at h; cases h
    | some n =>
        rw [hend] at h
        simp only [bind_eq_ok, refuseIf_eq_ok, pure_eq_ok, not_or, not_not, Prod.mk.injEq,
          List.all_eq_true, decide_eq_true_eq] at h
        obtain ⟨_, ⟨hzero, hmax, hascii⟩, _, hrest, _, ⟨hsign, hdeclared⟩, rfl, rfl⟩ := h
        obtain ⟨hsplit, hfree, hlength⟩ := split_of_findIdx? hend
        have hutf8 := utf8_decodeAscii hascii
        have hname : (decodeAscii (body.take n)).length = n := by
          rw [decodeAscii, List.length_map, hlength]
        refine ⟨⟨?_, ascii_decodeAscii hascii, ?_, ?_⟩, ?_, hsize⟩
        · intro hnil
          rw [hnil] at hname
          exact hzero hname.symm
        · rw [← zero_mem_utf8_iff, hutf8]
          exact hfree
        · rw [hname]
          exact Nat.le_of_not_lt hmax
        · -- the four bytes behind the NUL spell the length of what follows them
          have hfour : ((body.drop (n + 1)).take 4).length = 4 := by
            rw [List.length_take]
            exact Nat.min_eq_left (Nat.le_of_not_lt hrest)
          have hbound : ((body.drop (n + 1)).drop 4).length < 2 ^ 12 := by
            rw [List.length_drop, List.length_drop]
            have hsmall : body.length ≤ 2044 := hsize
            omega
          have hfield : (body.drop (n + 1)).take 4 =
              signedToBytes 4 ((body.drop (n + 1)).drop 4).length :=
            (eq_signedToBytes_iff (by omega) (by omega)).mpr ⟨hfour, hdeclared⟩
          calc body = body.take n ++ 0 :: ((body.drop (n + 1)).take 4 ++
                (body.drop (n + 1)).drop 4) := by rw [List.take_append_drop]; exact hsplit
            _ = saslInitialBytes (decodeAscii (body.take n)) ((body.drop (n + 1)).drop 4) := by
                rw [saslInitialBytes, hutf8, ← hfield]
                simp
  · rintro ⟨hname, rfl, hsize⟩
    have hutf8 : (utf8 mechanism).length = mechanism.length := length_utf8_of_ascii hname.ascii
    have hbytes : saslInitialBytes mechanism data =
        utf8 mechanism ++ 0 :: (signedToBytes 4 data.length ++ data) := by
      simp [saslInitialBytes]
    have hfree : (0 : UInt8) ∉ utf8 mechanism := fun h => hname.nul_free (zero_mem_utf8_iff.mp h)
    have htake : (saslInitialBytes mechanism data).take (utf8 mechanism).length =
        utf8 mechanism := by rw [hbytes]; exact List.take_left
    have hdrop : (saslInitialBytes mechanism data).drop ((utf8 mechanism).length + 1) =
        signedToBytes 4 data.length ++ data := by
      rw [hbytes, ← List.drop_drop, List.drop_left]
      rfl
    have hfour : (signedToBytes 4 data.length).length = 4 := length_signedToBytes ..
    have hbound : data.length < 2 ^ 12 := by
      have hsmall : (saslInitialBytes mechanism data).length ≤ 2044 := hsize
      rw [hbytes, List.length_append, List.length_cons, List.length_append] at hsmall
      omega
    have hdeclared : signedOfBytes (signedToBytes 4 data.length) = data.length :=
      signedOfBytes_signedToBytes (by omega) (by omega)
    have hascii := utf8_ascii_lt hname.ascii
    rw [parseSaslInitial, bind_eq_ok]
    refine ⟨(), refuseIf_eq_ok.mpr (Nat.not_lt.mpr hsize), ?_⟩
    have hend : (saslInitialBytes mechanism data).findIdx? (· == 0) =
        some (utf8 mechanism).length := by rw [hbytes, findIdx?_nul hfree]
    rw [hend]
    simp only [bind_eq_ok, refuseIf_eq_ok, pure_eq_ok, not_or, not_not,
      List.all_eq_true, decide_eq_true_eq, htake, hdrop, List.take_left' hfour,
      List.drop_left' hfour, hdeclared, decodeAscii_utf8 hname.ascii]
    refine ⟨(), ⟨?_, ?_, hascii⟩, (), ?_, (), ⟨?_, trivial⟩, trivial⟩
    · rw [hutf8]
      exact fun hzero => hname.ne_nil (List.eq_nil_of_length_eq_zero hzero)
    · rw [hutf8]
      exact Nat.not_lt.mpr hname.length_le
    · rw [List.length_append, hfour]
      exact Nat.not_lt.mpr (Nat.le_add_right 4 _)
    · omega

/-! ### Both parsers -/

/-- **The startup parsers accept exactly their grammars**: `parse_startup` the encodings of the
pairs of a startup, which it reads back, and `parse_sasl_initial` the encodings of a mechanism
and its data within the bound of a SASL message. -/
theorem framing_exact (lower : Name → Name) :
    (∀ (body : List UInt8) (item : StartupMessage), parseStartup lower body = .ok item ↔
      ∃ pairs user, StartupPairs lower pairs ∧ body = startupBytes pairs ∧
        pairs.lookup "user".toList = some user ∧ item = startupOf pairs user) ∧
    ∀ (body : List UInt8) (mechanism : Name) (data : List UInt8),
      parseSaslInitial body = .ok (mechanism, data) ↔ IsMechanism mechanism ∧
        body = saslInitialBytes mechanism data ∧ body.length ≤ maxSaslMessage - lengthBytes :=
  ⟨fun _ _ => parseStartup_eq_ok, fun _ _ _ => parseSaslInitial_eq_ok⟩

/-- A written initial response that is too long for a SASL message. -/
theorem long_response_refused :
    IsMechanism ['A'] ∧
      parseSaslInitial (saslInitialBytes ['A'] (List.replicate 2040 0)) =
        .error .protocolViolation := by
  have hlong : maxSaslMessage - lengthBytes <
      (saslInitialBytes ['A'] (List.replicate 2040 0)).length := by
    rw [saslInitialBytes, List.length_append, List.length_append, List.length_append,
      length_signedToBytes, List.length_replicate]
    decide
  refine ⟨⟨by decide, List.all_iff_forall_prop.mp (by decide), by decide, by decide⟩, ?_⟩
  rw [parseSaslInitial, refuseIf, if_pos hlong]
  rfl

end MaskGateway.Proofs.Pgwire.Framing
