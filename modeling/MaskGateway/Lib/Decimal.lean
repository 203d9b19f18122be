import Mathlib

/-!
# `MaskGateway.Lib.Decimal`: decimal numbers as ASCII bytes

The text of a number is Lean's own `Nat.toDigits`, as bytes. `Canonical` says which digit strings
are such texts: no empty one, no leading zero. On those, writing and reading are inverse to each
other (`decimalValue_decimal`, `decimal_decimalValue`).
-/

set_option autoImplicit false

namespace MaskGateway.Lib

/-- The ASCII text of a natural number. -/
def decimal (n : Nat) : List UInt8 :=
  (Nat.toDigits 10 n).map Char.toUInt8

/-- The ASCII text of an integer. -/
def signedDecimal (z : Int) : List UInt8 :=
  if z < 0 then 0x2D :: decimal z.natAbs else decimal z.natAbs

/-- The number that a string of digits spells. -/
def decimalValue (digits : List UInt8) : Nat :=
  digits.foldl (fun value b => value * 10 + (b.toNat - 0x30)) 0

/-- An ASCII digit. -/
def IsDigit (b : UInt8) : Prop := 0x30 ≤ b.toNat ∧ b.toNat ≤ 0x39

instance (b : UInt8) : Decidable (IsDigit b) := inferInstanceAs (Decidable (_ ∧ _))

/-- A string of digits that does not start with a zero, unless it is the zero. -/
structure Canonical (digits : List UInt8) : Prop where
  ne_nil : digits ≠ []
  digit : ∀ b ∈ digits, IsDigit b
  no_leading_zero : digits.head? = some 0x30 → digits.length = 1

/-! ### The text of a number -/

/-- The text of one digit. -/
theorem decimal_of_lt {n : Nat} (h : n < 10) : decimal n = [UInt8.ofNat (n + 0x30)] := by
  rw [decimal, Nat.toDigits_of_lt_base h]
  match n, h with
  | 0, _ | 1, _ | 2, _ | 3, _ | 4, _ | 5, _ | 6, _ | 7, _ | 8, _ | 9, _ => rfl

/-- The text of a number is the text of its tens, then its units. -/
theorem decimal_concat {n d : Nat} (hn : 0 < n) (hd : d < 10) :
    decimal (n * 10 + d) = decimal n ++ [UInt8.ofNat (d + 0x30)] := by
  rw [← decimal_of_lt hd, decimal, decimal, decimal, ← List.map_append,
    Nat.toDigits_append_toDigits (by decide) hn hd, Nat.mul_comm]

/-- One more digit. -/
theorem decimalValue_concat (digits : List UInt8) (b : UInt8) :
    decimalValue (digits ++ [b]) = decimalValue digits * 10 + (b.toNat - 0x30) := by
  simp [decimalValue]

/-- The byte of a digit. -/
theorem toNat_digit {d : Nat} (h : d < 10) : (UInt8.ofNat (d + 0x30)).toNat = d + 0x30 := by
  rw [UInt8.toNat_ofNat']
  omega

/-- The byte that a digit is. -/
theorem digit_eq {b : UInt8} (h : IsDigit b) : UInt8.ofNat (b.toNat - 0x30 + 0x30) = b := by
  rw [Nat.sub_add_cancel h.1, UInt8.ofNat_toNat]

/-- An induction over numbers by their decimal text. -/
theorem decimal_induction {P : Nat → Prop} (unit : ∀ d < 10, P d)
    (concat : ∀ n d, 0 < n → d < 10 → P n → P (n * 10 + d)) (n : Nat) : P n := by
  induction n using Nat.strongRecOn with
  | ind n ih =>
    by_cases h : n < 10
    · exact unit n h
    · rw [show n = n / 10 * 10 + n % 10 by omega]
      exact concat _ _ (by omega) (by omega) (ih _ (by omega))

/-- The text of a number spells it. -/
theorem decimalValue_decimal (n : Nat) : decimalValue (decimal n) = n := by
  induction n using decimal_induction with
  | unit d hd =>
      rw [decimal_of_lt hd, ← List.nil_append [_], decimalValue_concat, toNat_digit hd]
      simp [decimalValue]
  | concat n d hn hd ih =>
      rw [decimal_concat hn hd, decimalValue_concat, ih, toNat_digit hd]
      omega

/-- The text of a number is not empty. -/
theorem decimal_ne_nil (n : Nat) : decimal n ≠ [] := by
  rw [decimal, Ne, List.map_eq_nil_iff]
  exact Nat.toDigits_ne_nil

/-- The text of a positive number does not start with a zero. -/
theorem head?_decimal {n : Nat} (h : 0 < n) : (decimal n).head? ≠ some 0x30 := by
  induction n using decimal_induction with
  | unit d hd =>
      rw [decimal_of_lt hd, List.head?_cons, Ne, Option.some_inj, ← UInt8.toNat_inj,
        toNat_digit hd]
      exact fun h' => absurd (show d + 0x30 = 0x30 from h') (by omega)
  | concat n d hn hd ih =>
      rw [decimal_concat hn hd, List.head?_append,
        Option.or_of_isSome (List.isSome_head?.mpr (decimal_ne_nil n))]
      exact ih hn

/-- The text of a number is a canonical string of digits. -/
theorem canonical_decimal (n : Nat) : Canonical (decimal n) := by
  have hdigit : ∀ d < 10, IsDigit (UInt8.ofNat (d + 0x30)) := by
    intro d hd
    rw [IsDigit, toNat_digit hd]
    omega
  refine ⟨decimal_ne_nil n, ?_, ?_⟩
  · induction n using decimal_induction with
    | unit d hd =>
        rw [decimal_of_lt hd]
        simpa using hdigit d hd
    | concat n d hn hd ih =>
        rw [decimal_concat hn hd]
        intro b hb
        rcases List.mem_append.mp hb with hb | hb
        · exact ih b hb
        · rw [List.mem_singleton.mp hb]
          exact hdigit d hd
  · intro hzero
    by_cases hn : 0 < n
    · exact absurd hzero (head?_decimal hn)
    · rw [Nat.eq_zero_of_not_pos hn]
      rfl

/-- A canonical string of digits is the text of the number it spells. -/
theorem decimal_decimalValue {digits : List UInt8} (h : Canonical digits) :
    decimal (decimalValue digits) = digits := by
  -- Without a leading zero the value is positive, which is what the next digit needs.
  have hpositive : ∀ digits : List UInt8, digits ≠ [] → (∀ b ∈ digits, IsDigit b) →
      digits.head? ≠ some 0x30 →
      0 < decimalValue digits ∧ decimal (decimalValue digits) = digits := by
    intro digits
    induction digits using List.reverseRecOn with
    | nil => intro hne; exact absurd rfl hne
    | append_singleton digits b ih =>
        intro _ hdigit hhead
        have hb := hdigit b (by simp)
        have hlt : b.toNat - 0x30 < 10 := by
          have := hb.2
          omega
        rw [decimalValue_concat]
        by_cases hne : digits = []
        · subst hne
          have hnot : b.toNat ≠ 0x30 := by
            intro heq
            exact hhead (congrArg some (UInt8.toNat_inj.mp heq))
          have hzero : decimalValue [] * 10 + (b.toNat - 0x30) = b.toNat - 0x30 := by
            simp [decimalValue]
          rw [hzero, decimal_of_lt hlt, digit_eq hb]
          refine ⟨?_, rfl⟩
          have := hb.1
          omega
        · rw [List.head?_append, Option.or_of_isSome (List.isSome_head?.mpr hne)] at hhead
          obtain ⟨hpos, heq⟩ := ih hne (fun c hc => hdigit c (by simp [hc])) hhead
          refine ⟨by omega, ?_⟩
          rw [decimal_concat hpos hlt, heq, digit_eq hb]
  by_cases hhead : digits.head? = some 0x30
  · have hlen := h.no_leading_zero hhead
    obtain ⟨b, rfl⟩ := List.length_eq_one_iff.mp hlen
    have hb : b = 0x30 := Option.some.inj hhead
    rw [hb]
    rfl
  · exact (hpositive digits h.ne_nil h.digit hhead).2

/-- How many digits a bounded number has. -/
theorem length_decimal_le {n k : Nat} (hk : 0 < k) (h : n < 10 ^ k) : (decimal n).length ≤ k := by
  rw [decimal, List.length_map]
  exact (Nat.length_toDigits_le_iff (by decide) hk).mpr h

end MaskGateway.Lib
