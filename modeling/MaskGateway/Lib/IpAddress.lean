import Mathlib

/-!
# `MaskGateway.Lib.IpAddress`: internet addresses and their texts

Addresses of both families, the texts that are read as one, and the one text an address is
written as: four decimal numbers for IPv4; for IPv6 eight hexadecimal groups, of which the first
longest run of zeros is left out, with a scope after a `%` where there is one.

* `IPv4Address.ofText_text`, `IPv6Address.ofText_text`: the text of an address is read as it.
* `ipAddress_compressed`: so it is across the families, and `compressed_injective`.
* `IPv4Address.ipv4Mapped_mapped`, `ipAddress_mappedText`: an IPv4 address that is spelled as an
  IPv6 one is taken as it.
-/

set_option autoImplicit false

namespace MaskGateway.Lib

/-! ### Numbers -/

/-- The value of a digit, up to the hexadecimal ones and in either case. -/
def digit? (c : Char) : Option Nat :=
  if '0' ≤ c ∧ c ≤ '9' then some (c.toNat - '0'.toNat)
  else if 'a' ≤ c ∧ c ≤ 'f' then some (c.toNat - 'a'.toNat + 10)
  else if 'A' ≤ c ∧ c ≤ 'F' then some (c.toNat - 'A'.toNat + 10)
  else none

/-- One more digit of a number. -/
def pushDigit (base value : Nat) (c : Char) : Option Nat :=
  match digit? c with
  | some d => if d < base then some (value * base + d) else none
  | none => none

/-- The number that a text spells. -/
def numeral? (base : Nat) (text : List Char) : Option Nat :=
  text.foldlM (pushDigit base) 0

/-- The digit of a value is read as that value. -/
theorem digit?_digitChar {d : Nat} (h : d < 16) : digit? d.digitChar = some d := by
  have all : ∀ e < 16, digit? (Nat.digitChar e) = some e := by decide
  exact all d h

/-- The text of a number spells it. -/
theorem numeral?_toDigits {base : Nat} (hb : 1 < base) (hb' : base ≤ 16) (n : Nat) :
    numeral? base (Nat.toDigits base n) = some n := by
  induction n using Nat.strongRecOn with
  | ind n ih =>
    by_cases h : n < base
    · have hd : digit? n.digitChar = some n := digit?_digitChar (by omega)
      simp [Nat.toDigits_of_lt_base h, numeral?, pushDigit, hd, h]
    · have hpos : 0 < n / base := Nat.div_pos (by omega) (by omega)
      have hmod : n % base < base := Nat.mod_lt n (by omega)
      have hd : digit? (n % base).digitChar = some (n % base) := digit?_digitChar (by omega)
      have hn : n = base * (n / base) + n % base := (Nat.div_add_mod n base).symm
      have hfront := ih (n / base) (Nat.div_lt_self (by omega) hb)
      rw [numeral?] at hfront
      rw [hn, ← Nat.toDigits_append_toDigits hb hpos hmod, Nat.toDigits_of_lt_base hmod, numeral?,
        List.foldlM_append, hfront]
      simp [pushDigit, hd, hmod, Nat.mul_comm]

/-- What spells a number is made of digits. -/
theorem digit?_of_numeral? {base n : Nat} {text : List Char} (h : numeral? base text = some n) :
    ∀ c ∈ text, digit? c ≠ none := by
  have fold : ∀ (text : List Char) (value : Nat), text.foldlM (pushDigit base) value ≠ none →
      ∀ c ∈ text, digit? c ≠ none := by
    intro text
    induction text with
    | nil => simp
    | cons c text ih =>
      intro value h d hd
      rw [List.foldlM_cons] at h
      cases hpush : pushDigit base value c with
      | none => simp [hpush] at h
      | some next =>
        rw [hpush] at h
        rcases List.mem_cons.mp hd with rfl | hd
        · intro hnone
          simp [pushDigit, hnone] at hpush
        · exact ih next h d hd
  exact fold text 0 (by rw [← numeral?, h]; exact Option.some_ne_none n)

/-- The text of a number is made of digits. -/
theorem digit?_toDigits {base n : Nat} (hb : 1 < base) (hb' : base ≤ 16) :
    ∀ c ∈ Nat.toDigits base n, digit? c ≠ none :=
  digit?_of_numeral? (numeral?_toDigits hb hb' n)

/-- A character that is no digit is not in the text of a number. -/
theorem not_mem_toDigits {base n : Nat} (hb : 1 < base) (hb' : base ≤ 16) {c : Char}
    (hc : digit? c = none) : c ∉ Nat.toDigits base n :=
  fun h => digit?_toDigits hb hb' c h hc

/-- The text of a positive number does not start with a zero. -/
theorem head?_toDigits {base n : Nat} (hb : 1 < base) (hb' : base ≤ 16) (hn : 0 < n) :
    (Nat.toDigits base n).head? ≠ some '0' := by
  induction n using Nat.strongRecOn with
  | ind n ih =>
    by_cases h : n < base
    · rw [Nat.toDigits_of_lt_base h, List.head?_cons, Ne, Option.some_inj, Nat.digitChar_eq_zero]
      omega
    · have hpos : 0 < n / base := Nat.div_pos (by omega) (by omega)
      have hmod : n % base < base := Nat.mod_lt n (by omega)
      have hfront := ih (n / base) (Nat.div_lt_self (by omega) hb) hpos
      have hn' : n = base * (n / base) + n % base := (Nat.div_add_mod n base).symm
      rw [hn', ← Nat.toDigits_append_toDigits hb hpos hmod, List.head?_append,
        Option.or_of_isSome (List.isSome_head?.mpr Nat.toDigits_ne_nil)]
      exact hfront

/-! ### IPv4 -/

/-- An IPv4 address: its four bytes. -/
structure IPv4Address where
  a : Fin 256
  b : Fin 256
  c : Fin 256
  d : Fin 256
  deriving DecidableEq

/-- One byte in decimal: up to three digits, and no zero in front. -/
def octet? (text : List Char) : Option (Fin 256) :=
  if text = [] ∨ 3 < text.length ∨ (text.head? = some '0' ∧ text ≠ ['0']) then none
  else
    match numeral? 10 text with
    | some n => if h : n < 256 then some ⟨n, h⟩ else none
    | none => none

/-- A byte in decimal. -/
def octetText (n : Fin 256) : List Char :=
  Nat.toDigits 10 n

namespace IPv4Address

/-- The address that four parts between dots are. -/
def ofParts : List (List Char) → Option IPv4Address
  | [a, b, c, d] => do return ⟨← octet? a, ← octet? b, ← octet? c, ← octet? d⟩
  | _ => none

/-- The address that a text is. -/
def ofText (text : List Char) : Option IPv4Address :=
  ofParts (text.splitOn '.')

/-- `1.2.3.4`. -/
def text (address : IPv4Address) : List Char :=
  ['.'].intercalate
    [octetText address.a, octetText address.b, octetText address.c, octetText address.d]

end IPv4Address

/-- What is in parts that are joined is the separator or in one of them. -/
theorem mem_intercalate {α : Type} {x c : α} {parts : List (List α)}
    (h : c ∈ [x].intercalate parts) : c = x ∨ ∃ part ∈ parts, c ∈ part := by
  induction parts with
  | nil => simp at h
  | cons part parts ih =>
    cases parts with
    | nil => exact .inr ⟨part, by simp, by simpa using h⟩
    | cons next parts =>
      rw [List.intercalate_cons_cons, List.mem_append, List.mem_append, List.mem_singleton] at h
      rcases h with (h | h) | h
      · exact .inr ⟨part, by simp, h⟩
      · exact .inl h
      · obtain h | ⟨found, hfound, h⟩ := ih h
        · exact .inl h
        · exact .inr ⟨found, List.mem_cons_of_mem _ hfound, h⟩

/-- The text of a byte is read as it. -/
theorem octet?_octetText (n : Fin 256) : octet? (octetText n) = some n := by
  have hlen : (Nat.toDigits 10 n).length ≤ 3 :=
    (Nat.length_toDigits_le_iff (by decide) (by decide)).mpr (by omega)
  have hzero : ¬ ((Nat.toDigits 10 n).head? = some '0' ∧ Nat.toDigits 10 n ≠ ['0']) := by
    rintro ⟨hhead, hne⟩
    by_cases h : (n : Nat) = 0
    · exact hne (by rw [h, Nat.toDigits_zero])
    · exact head?_toDigits (by decide) (by decide) (by omega) hhead
  have hguard : ¬ (octetText n = [] ∨ 3 < (octetText n).length ∨
      ((octetText n).head? = some '0' ∧ octetText n ≠ ['0'])) := by
    rintro (h | h | h)
    · exact Nat.toDigits_ne_nil h
    · exact absurd hlen (by rw [octetText] at h; omega)
    · exact hzero h
  rw [octet?, if_neg hguard, octetText, numeral?_toDigits (by decide) (by decide)]
  simp

/-- What is read as a byte is made of digits. -/
theorem digit?_of_octet? {text : List Char} {n : Fin 256} (h : octet? text = some n) :
    ∀ c ∈ text, digit? c ≠ none := by
  rw [octet?] at h
  split at h
  · exact nomatch h
  · split at h
    next m hm => exact digit?_of_numeral? hm
    next => exact nomatch h

namespace IPv4Address

/-- The text of an address is read as it. -/
theorem ofText_text (address : IPv4Address) : ofText address.text = some address := by
  have hdot : ∀ n : Fin 256, '.' ∉ octetText n :=
    fun n => not_mem_toDigits (by decide) (by decide) (by decide)
  rw [ofText, text, List.splitOn_intercalate '.' (by simp [hdot]) (by simp)]
  simp [ofParts, octet?_octetText]

/-- What is read as an IPv4 address is made of digits and dots. -/
theorem digit?_of_ofText {text : List Char} {address : IPv4Address}
    (h : ofText text = some address) {c : Char} (hc : c ∈ text) : c = '.' ∨ digit? c ≠ none := by
  rw [ofText] at h
  have hjoin : ['.'].intercalate (text.splitOn '.') = text := List.intercalate_splitOn '.'
  rw [← hjoin] at hc
  generalize text.splitOn '.' = parts at h hc
  match parts with
  | [p, q, r, s] =>
    rw [ofParts] at h
    simp only [Option.bind_eq_bind, Option.bind_eq_some_iff] at h
    obtain ⟨a, ha, b, hb, c', hc', d, hd, -⟩ := h
    rcases mem_intercalate hc with hc | ⟨part, hpart, hc⟩
    · exact .inl hc
    · have hoctet : ∃ n, octet? part = some n := by
        rcases (by simpa using hpart : part = p ∨ part = q ∨ part = r ∨ part = s) with
          rfl | rfl | rfl | rfl
        exacts [⟨a, ha⟩, ⟨b, hb⟩, ⟨c', hc'⟩, ⟨d, hd⟩]
      obtain ⟨n, hn⟩ := hoctet
      exact .inr (digit?_of_octet? hn c hc)
  | [] | [_] | [_, _] | [_, _, _] | _ :: _ :: _ :: _ :: _ :: _ => exact nomatch h

end IPv4Address

/-! ### The groups of IPv6 -/

/-- One group in hexadecimal: one to four digits. -/
def hextet? (text : List Char) : Option (Fin 65536) :=
  if text = [] ∨ 4 < text.length then none
  else
    match numeral? 16 text with
    | some n => if h : n < 65536 then some ⟨n, h⟩ else none
    | none => none

/-- A group in hexadecimal. -/
def hextetText (n : Fin 65536) : List Char :=
  Nat.toDigits 16 n

/-- One side of a run of zeros that was left out. There may be nothing on it. -/
def side? (parts : List (List Char)) : Option (List (Fin 65536)) :=
  if parts = [[]] then some [] else parts.mapM hextet?

/-- The groups that the parts between colons are. An empty part that is not at an end stands for
zeros that were left out, and there is at most one. -/
def hextets? (parts : List (List Char)) : Option (List (Fin 65536)) :=
  let inner := parts.tail.dropLast
  match inner.count [] with
  | 0 => parts.mapM hextet?
  | 1 => do
      let skip := inner.idxOf [] + 1
      let high ← side? (parts.take skip)
      let low ← side? (parts.drop (skip + 1))
      if high.length + low.length < 8 then
        some (high ++ List.replicate (8 - (high.length + low.length)) 0 ++ low)
      else none
  | _ => none

/-- How many zeros are in front. -/
def zerosAhead : List (Fin 65536) → Nat
  | [] => 0
  | x :: xs => if x = 0 then zerosAhead xs + 1 else 0

/-- Where the first longest run of zeros is, and how long. -/
def zeroRun : List (Fin 65536) → Nat × Nat
  | [] => (0, 0)
  | x :: xs =>
      let here := zerosAhead (x :: xs)
      let later := zeroRun xs
      if later.2 ≤ here then (0, here) else (later.1 + 1, later.2)

/-- One side of a run of zeros that is left out. -/
def sideParts (hextets : List (Fin 65536)) : List (List Char) :=
  if hextets = [] then [[]] else hextets.map hextetText

/-- The parts that groups are written as. A run of zeros is left out where it is longer than
one. -/
def hextetParts (hextets : List (Fin 65536)) : List (List Char) :=
  let run := zeroRun hextets
  if 1 < run.2 then
    sideParts (hextets.take run.1) ++ [] :: sideParts (hextets.drop (run.1 + run.2))
  else hextets.map hextetText

/-- The text of a group is not empty. -/
theorem hextetText_ne_nil (n : Fin 65536) : hextetText n ≠ [] :=
  Nat.toDigits_ne_nil

/-- The text of a group is read as it. -/
theorem hextet?_hextetText (n : Fin 65536) : hextet? (hextetText n) = some n := by
  have hlen : (Nat.toDigits 16 n).length ≤ 4 :=
    (Nat.length_toDigits_le_iff (by decide) (by decide)).mpr (by omega)
  have hguard : ¬ (hextetText n = [] ∨ 4 < (hextetText n).length) := by
    rintro (h | h)
    · exact hextetText_ne_nil n h
    · exact absurd hlen (by rw [hextetText] at h; omega)
  rw [hextet?, if_neg hguard, hextetText, numeral?_toDigits (by decide) (by decide)]
  simp

/-- So are the texts of several. -/
theorem mapM_hextetText (hextets : List (Fin 65536)) :
    (hextets.map hextetText).mapM hextet? = some hextets := by
  induction hextets with
  | nil => rfl
  | cons n hextets ih => simp [List.mapM_cons, hextet?_hextetText, ih]

/-- No text of a group is empty. -/
theorem nil_notMem_map (hextets : List (Fin 65536)) : [] ∉ hextets.map hextetText := by
  simp [hextetText_ne_nil]

/-- A side is read as what is on it. -/
theorem side?_sideParts (hextets : List (Fin 65536)) :
    side? (sideParts hextets) = some hextets := by
  by_cases h : hextets = []
  · simp [h, sideParts, side?]
  · have hne : hextets.map hextetText ≠ [[]] :=
      fun hnil => nil_notMem_map hextets (hnil ▸ List.mem_singleton_self _)
    rw [sideParts, if_neg h, side?, if_neg hne, mapM_hextetText]

/-- The one empty part that is not at an end splits the parts in two sides. -/
theorem hextets?_append {front back : List (List Char)} (hfront : front ≠ []) (hback : back ≠ [])
    (htail : [] ∉ front.tail) (hinit : [] ∉ back.dropLast) :
    hextets? (front ++ [] :: back) =
      (side? front).bind fun high => (side? back).bind fun low =>
        if high.length + low.length < 8 then
          some (high ++ List.replicate (8 - (high.length + low.length)) 0 ++ low)
        else none := by
  have hinner : (front ++ [] :: back).tail.dropLast = front.tail ++ [] :: back.dropLast := by
    rw [List.tail_append_of_ne_nil hfront, List.dropLast_append_of_ne_nil (by simp),
      List.dropLast_cons_of_ne_nil hback]
  have hcount : (front.tail ++ [] :: back.dropLast).count [] = 1 := by
    rw [List.count_append, List.count_cons_self, List.count_eq_zero_of_not_mem htail,
      List.count_eq_zero_of_not_mem hinit]
  have hskip : (front.tail ++ [] :: back.dropLast).idxOf [] + 1 = front.length := by
    rw [List.idxOf_append_of_notMem htail, List.idxOf_cons_self, List.length_tail]
    have := List.length_pos_of_ne_nil hfront
    omega
  simp only [hextets?, hinner, hcount, hskip, List.take_left, List.drop_append,
    Nat.add_sub_cancel_left, List.drop_eq_nil_of_le (Nat.le_succ front.length), List.drop_one,
    List.tail_cons, List.nil_append]
  rfl

/-- The zeros in front are zeros, and what follows is the rest. -/
theorem zerosAhead_spec (hextets : List (Fin 65536)) :
    List.replicate (zerosAhead hextets) 0 ++ hextets.drop (zerosAhead hextets) = hextets := by
  induction hextets with
  | nil => rfl
  | cons x xs ih =>
    rw [zerosAhead]
    split
    next h => simpa [List.replicate_succ, h] using ih
    next => simp

/-- A run of zeros is one, and what is around it is the rest. -/
theorem zeroRun_spec (hextets : List (Fin 65536)) :
    hextets.take (zeroRun hextets).1 ++ List.replicate (zeroRun hextets).2 0 ++
      hextets.drop ((zeroRun hextets).1 + (zeroRun hextets).2) = hextets := by
  induction hextets with
  | nil => rfl
  | cons x xs ih =>
    simp only [zeroRun]
    split
    · simpa using zerosAhead_spec (x :: xs)
    · rw [Nat.add_right_comm]
      simpa using ih

/-- The parts that eight groups are written as are read as them. -/
theorem hextets?_hextetParts {hextets : List (Fin 65536)} (h : hextets.length = 8) :
    hextets? (hextetParts hextets) = some hextets := by
  simp only [hextetParts]
  split
  next hrun =>
    generalize hhigh : hextets.take (zeroRun hextets).1 = high
    generalize hlow : hextets.drop ((zeroRun hextets).1 + (zeroRun hextets).2) = low
    have hspec := zeroRun_spec hextets
    rw [hhigh, hlow] at hspec
    have hlen : high.length + (zeroRun hextets).2 + low.length = 8 := by
      have hwhole := congrArg List.length hspec
      rw [List.length_append, List.length_append, List.length_replicate] at hwhole
      omega
    have hne : ∀ side, sideParts side ≠ [] := by
      intro side
      by_cases hs : side = [] <;> simp [sideParts, hs]
    have hnil : ∀ side, [] ∉ (sideParts side).tail ∧ [] ∉ (sideParts side).dropLast := by
      intro side
      by_cases hs : side = []
      · simp [sideParts, hs]
      · rw [sideParts, if_neg hs]
        exact ⟨fun hmem => nil_notMem_map side (List.mem_of_mem_tail hmem),
          fun hmem => nil_notMem_map side ((List.dropLast_sublist _).mem hmem)⟩
    rw [hextets?_append (hne high) (hne low) (hnil high).1 (hnil low).2, side?_sideParts,
      Option.bind_some, side?_sideParts, Option.bind_some, if_pos (by omega),
      show 8 - (high.length + low.length) = (zeroRun hextets).2 by omega, hspec]
  next =>
    have hcount : (hextets.map hextetText).tail.dropLast.count [] = 0 :=
      List.count_eq_zero_of_not_mem fun hmem => nil_notMem_map hextets
        (List.mem_of_mem_tail ((List.dropLast_sublist _).mem hmem))
    simp only [hextets?, hcount]
    exact mapM_hextetText hextets

/-- The parts of groups are made of digits. -/
theorem digit?_of_hextetParts {hextets : List (Fin 65536)} {part : List Char}
    (h : part ∈ hextetParts hextets) {c : Char} (hc : c ∈ part) : digit? c ≠ none := by
  have hmap : ∀ side : List (Fin 65536), part ∈ side.map hextetText → digit? c ≠ none := by
    intro side hmem
    obtain ⟨n, -, rfl⟩ := List.mem_map.mp hmem
    exact digit?_toDigits (by decide) (by decide) c hc
  have hside : ∀ side : List (Fin 65536), part ∈ sideParts side → digit? c ≠ none := by
    intro side hmem
    rw [sideParts] at hmem
    split at hmem
    · rw [List.mem_singleton.mp hmem] at hc
      exact nomatch hc
    · exact hmap side hmem
  simp only [hextetParts] at h
  split at h
  · rcases List.mem_append.mp h with h | h
    · exact hside _ h
    · rcases List.mem_cons.mp h with rfl | h
      · exact nomatch hc
      · exact hside _ h
  · exact hmap _ h

/-- There are at least two of them. -/
theorem two_le_length_hextetParts {hextets : List (Fin 65536)} (h : hextets.length = 8) :
    2 ≤ (hextetParts hextets).length := by
  have hside : ∀ side : List (Fin 65536), 1 ≤ (sideParts side).length := by
    intro side
    by_cases hs : side = []
    · simp [sideParts, hs]
    · rw [sideParts, if_neg hs, List.length_map]
      exact List.length_pos_of_ne_nil hs
  simp only [hextetParts]
  split
  · have := hside (hextets.take (zeroRun hextets).1)
    simp only [List.length_append, List.length_cons]
    omega
  · simp [h]

/-! ### IPv6 -/

/-- A scope is a text with none of the characters that stand between texts. -/
def ScopeOk : Option (List Char) → Prop
  | none => True
  | some scope => scope ≠ [] ∧ '%' ∉ scope ∧ '/' ∉ scope

instance : ∀ scope, Decidable (ScopeOk scope)
  | none => isTrue trivial
  | some scope => inferInstanceAs (Decidable (scope ≠ [] ∧ '%' ∉ scope ∧ '/' ∉ scope))

/-- An IPv6 address: its eight groups, and the scope it is in, where one is named. -/
structure IPv6Address where
  hextets : List (Fin 65536)
  length_hextets : hextets.length = 8
  scope : Option (List Char)
  scope_ok : ScopeOk scope
  deriving DecidableEq

/-- The two groups that an IPv4 address fills. -/
def IPv4Address.hextets (address : IPv4Address) : List (Fin 65536) :=
  [⟨address.a * 256 + address.b, by omega⟩, ⟨address.c * 256 + address.d, by omega⟩]

/-- An IPv4 address at the end is taken as the groups that it fills. -/
def spread (parts : List (List Char)) : Option (List (List Char)) :=
  match parts.getLast? with
  | some last =>
      if '.' ∈ last then
        (IPv4Address.ofText last).map fun address =>
          parts.dropLast ++ address.hextets.map hextetText
      else some parts
  | none => some parts

/-- The scope at the end of a text, after a `%`. -/
def scopeOf (text : List Char) : Option (List Char) :=
  match text.dropWhile (· != '%') with
  | [] => none
  | _ :: scope => some scope

/-- A scope as it is written. -/
def scopeText : Option (List Char) → List Char
  | none => []
  | some scope => '%' :: scope

namespace IPv6Address

/-- The address of some groups in a scope. -/
def make (hextets : List (Fin 65536)) (scope : Option (List Char)) : Option IPv6Address :=
  if h : hextets.length = 8 ∧ ScopeOk scope then some ⟨hextets, h.1, scope, h.2⟩ else none

/-- The address that a text is. -/
def ofText (text : List Char) : Option IPv6Address := do
  let parts ← spread ((text.takeWhile (· != '%')).splitOn ':')
  make (← hextets? parts) (scopeOf text)

/-- `2001:db8::1`, with the scope after it. -/
def text (address : IPv6Address) : List Char :=
  [':'].intercalate (hextetParts address.hextets) ++ scopeText address.scope

/-- An address is what its groups and its scope make. -/
theorem make_hextets (address : IPv6Address) :
    make address.hextets address.scope = some address := by
  rw [make, dif_pos ⟨address.length_hextets, address.scope_ok⟩]

/-- The text of an address is read as it. -/
theorem ofText_text (address : IPv6Address) : ofText address.text = some address := by
  have hdigit : ∀ part ∈ hextetParts address.hextets, ∀ c, digit? c = none → c ∉ part :=
    fun part hpart c hc hmem => digit?_of_hextetParts hpart hmem hc
  have hpercent : ∀ c ∈ [':'].intercalate (hextetParts address.hextets), (c != '%') = true := by
    intro c hc
    rw [bne_iff_ne]
    rintro rfl
    rcases mem_intercalate hc with h | ⟨part, hpart, h⟩
    · exact absurd h (by decide)
    · exact hdigit part hpart '%' (by decide) h
  have hfront : address.text.takeWhile (· != '%') =
      [':'].intercalate (hextetParts address.hextets) := by
    rw [text, List.takeWhile_append_of_pos hpercent]
    cases address.scope <;> simp [scopeText]
  have hscope : scopeOf address.text = address.scope := by
    rw [scopeOf, text, List.dropWhile_append_of_pos hpercent]
    cases address.scope <;> simp [scopeText]
  have hne : hextetParts address.hextets ≠ [] := by
    intro h
    have := two_le_length_hextetParts address.length_hextets
    simp [h] at this
  have hspread : spread (hextetParts address.hextets) = some (hextetParts address.hextets) := by
    rw [spread, List.getLast?_eq_some_getLast hne]
    exact if_neg (hdigit _ (List.getLast_mem hne) '.' (by decide))
  have hcolon : ∀ part ∈ hextetParts address.hextets, ':' ∉ part :=
    fun part hpart => hdigit part hpart ':' (by decide)
  rw [ofText, hfront, hscope, List.splitOn_intercalate ':' hcolon hne, hspread]
  simp [hextets?_hextetParts address.length_hextets, make_hextets]

/-- There is a colon in the text of an address. -/
theorem colon_mem_text (address : IPv6Address) : ':' ∈ address.text := by
  have hlen := two_le_length_hextetParts address.length_hextets
  rw [text]
  match hextetParts address.hextets, hlen with
  | first :: second :: rest, _ => simp [List.intercalate_cons_cons]

end IPv6Address

/-! ### IPv4 addresses inside IPv6 -/

/-- The groups in front of an IPv4 address. -/
def mappedFront : List (Fin 65536) := [0, 0, 0, 0, 0, 0xFFFF]

/-- The IPv4 address that two groups are. -/
def IPv4Address.ofHextets (high low : Fin 65536) : IPv4Address :=
  ⟨⟨high / 256, by omega⟩, ⟨high % 256, by omega⟩, ⟨low / 256, by omega⟩, ⟨low % 256, by omega⟩⟩

/-- The IPv4 address that an IPv6 address stands for. -/
def IPv6Address.ipv4Mapped (address : IPv6Address) : Option IPv4Address :=
  match address.hextets.drop 6 with
  | [high, low] =>
      if address.hextets.take 6 = mappedFront then some (.ofHextets high low) else none
  | _ => none

/-- An IPv4 address as an IPv6 one. -/
def IPv4Address.mapped (address : IPv4Address) : IPv6Address :=
  ⟨mappedFront ++ address.hextets, rfl, none, trivial⟩

/-- An IPv4 address is what stands for it. -/
theorem IPv4Address.ipv4Mapped_mapped (address : IPv4Address) :
    address.mapped.ipv4Mapped = some address := by
  obtain ⟨a, b, c, d⟩ := address
  simp only [mapped, IPv6Address.ipv4Mapped, mappedFront, hextets, List.cons_append,
    List.nil_append, List.drop_succ_cons, List.drop_zero, List.take_succ_cons, List.take_zero,
    if_true, ofHextets, Option.some_inj, IPv4Address.mk.injEq]
  refine ⟨Fin.ext ?_, Fin.ext ?_, Fin.ext ?_, Fin.ext ?_⟩ <;> simp only <;> omega

/-! ### Both families -/

/-- An address of either family. -/
inductive IPAddress where
  | v4 (address : IPv4Address)
  | v6 (address : IPv6Address)
  deriving DecidableEq

/-- The address that a text is. -/
def ipAddress (text : List Char) : Option IPAddress :=
  match IPv4Address.ofText text with
  | some address => some (.v4 address)
  | none => (IPv6Address.ofText text).map .v6

namespace IPAddress

/-- The one text of an address. -/
def compressed : IPAddress → List Char
  | v4 address => address.text
  | v6 address => address.text

/-- An IPv6 address that stands for an IPv4 one is taken as it. -/
def unmapped : IPAddress → IPAddress
  | v4 address => .v4 address
  | v6 address =>
      match address.ipv4Mapped with
      | some address => .v4 address
      | none => .v6 address

end IPAddress

/-- What has a colon in it is no IPv4 address. -/
theorem ipAddress_of_colon {text : List Char} (h : ':' ∈ text) :
    ipAddress text = (IPv6Address.ofText text).map .v6 := by
  have hnone : IPv4Address.ofText text = none := by
    rw [Option.eq_none_iff_forall_ne_some]
    intro found hfound
    rcases IPv4Address.digit?_of_ofText hfound h with h | h
    · exact absurd h (by decide)
    · exact h (by decide)
  rw [ipAddress, hnone]

/-- The text of an address is read as it. -/
theorem ipAddress_compressed (address : IPAddress) :
    ipAddress address.compressed = some address := by
  cases address with
  | v4 address => rw [IPAddress.compressed, ipAddress, IPv4Address.ofText_text]
  | v6 address =>
    rw [IPAddress.compressed, ipAddress_of_colon address.colon_mem_text, IPv6Address.ofText_text]
    rfl

/-- Different addresses have different texts. -/
theorem compressed_injective {x y : IPAddress} (h : x.compressed = y.compressed) : x = y := by
  rw [← Option.some_inj, ← ipAddress_compressed, h, ipAddress_compressed]

/-- Unmapping twice is unmapping once. -/
theorem unmapped_unmapped (address : IPAddress) : address.unmapped.unmapped = address.unmapped := by
  cases address with
  | v4 address => rfl
  | v6 address =>
    simp only [IPAddress.unmapped]
    cases h : address.ipv4Mapped <;> simp [h]

/-- `::ffff:1.2.3.4`. -/
def mappedText (address : IPv4Address) : List Char :=
  [':', ':', 'f', 'f', 'f', 'f', ':'] ++ address.text

/-- It is read as the IPv6 address that stands for the IPv4 one. -/
theorem ofText_mappedText (address : IPv4Address) :
    IPv6Address.ofText (mappedText address) = some address.mapped := by
  have hchar : ∀ c ∈ address.text, c = '.' ∨ digit? c ≠ none :=
    fun c => IPv4Address.digit?_of_ofText address.ofText_text
  have hnot : ∀ c, c ≠ '.' → digit? c = none → c ∉ address.text := by
    intro c hdot hc hmem
    rcases hchar c hmem with h | h
    exacts [hdot h, h hc]
  have hdot : '.' ∈ address.text := by simp [IPv4Address.text, List.intercalate_cons_cons]
  have hparts : mappedText address =
      [':'].intercalate [[], [], ['f', 'f', 'f', 'f'], address.text] := by
    simp [mappedText, List.intercalate_cons_cons]
  have hpercent : ∀ c ∈ mappedText address, (c != '%') = true := by
    intro c hc
    rw [bne_iff_ne]
    rintro rfl
    rcases List.mem_append.mp hc with h | h
    exacts [absurd h (by decide), hnot '%' (by decide) (by decide) h]
  have htake : (mappedText address).takeWhile (· != '%') = mappedText address := by
    rw [← List.append_nil (mappedText address), List.takeWhile_append_of_pos hpercent]
    rfl
  have hscope : scopeOf (mappedText address) = none := by
    rw [scopeOf, List.dropWhile_eq_nil_iff.mpr hpercent]
  have hsplit : (mappedText address).splitOn ':' =
      [[], [], ['f', 'f', 'f', 'f'], address.text] := by
    rw [hparts]
    refine List.splitOn_intercalate ':' ?_ (by simp)
    intro part hpart
    rcases (by simpa using hpart : part = [] ∨ part = ['f', 'f', 'f', 'f'] ∨ part = address.text)
      with rfl | rfl | rfl
    exacts [by decide, by decide, hnot ':' (by decide) (by decide)]
  have hspread : spread [[], [], ['f', 'f', 'f', 'f'], address.text] =
      some ([[]] ++ [] :: ['f', 'f', 'f', 'f'] :: address.hextets.map hextetText) := by
    simp [spread, hdot, IPv4Address.ofText_text]
  have hlast : [] ∉ (['f', 'f', 'f', 'f'] :: address.hextets.map hextetText).dropLast := by
    intro hmem
    rcases List.mem_cons.mp ((List.dropLast_sublist _).mem hmem) with h | h
    exacts [absurd h (by decide), nil_notMem_map _ h]
  have hlow : side? (['f', 'f', 'f', 'f'] :: address.hextets.map hextetText) =
      some (0xFFFF :: address.hextets) := by
    have hffff : hextet? ['f', 'f', 'f', 'f'] = some 0xFFFF := by decide
    rw [side?, if_neg (by simp), List.mapM_cons, hffff, mapM_hextetText]
    rfl
  rw [IPv6Address.ofText, htake, hscope, hsplit, hspread, Option.bind_eq_bind, Option.bind_some,
    hextets?_append (by simp) (by simp) (by simp) hlast, hlow]
  exact IPv6Address.make_hextets address.mapped

/-- An IPv4 address that is spelled as an IPv6 one is taken as it. -/
theorem ipAddress_mappedText (address : IPv4Address) :
    (ipAddress (mappedText address)).map IPAddress.unmapped = some (.v4 address) := by
  rw [ipAddress_of_colon (by simp [mappedText]), ofText_mappedText]
  simp [IPAddress.unmapped, IPv4Address.ipv4Mapped_mapped]

end MaskGateway.Lib
