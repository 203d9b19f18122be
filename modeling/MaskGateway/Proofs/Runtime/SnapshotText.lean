import MaskGateway.Proofs.Datasource.JsonText
import MaskGateway.Runtime.Snapshot

/-!
# `MaskGateway.Proofs.Runtime.SnapshotText`: the text of a snapshot, character by character

What the reader and the depth guard make of a text written with `ensure_ascii`. Its escapes are read as
the characters they stand for (`readable_escapeAscii`), every character written is ASCII
(`ascii_dumps`), and the guard, which looks at bytes only, finds no more open brackets than the value
has levels (`guard_dumps`). The last two go by mutual induction over values, items and fields, for
values without doubles: the text of a double is a parameter.
-/

set_option autoImplicit false

namespace MaskGateway.Proofs.Runtime.Snapshot

open MaskGateway.Runtime.Snapshot MaskGateway.Lib
open MaskGateway.Datasource (Json dumpsWith dumpsItemsWith dumpsFieldsWith
  quotedWith intText hexUnit hexDigit readQuoted readEscape)
open MaskGateway.Proofs.Datasource (Readable readQuoted_cons)

/-! ### Escapes -/

/-- A hexadecimal digit is read as its value. -/
theorem hexDigit_digitChar {n : Nat} (h : n < 16) : hexDigit (Nat.digitChar n) = some n := by
  have hall : ∀ i : Fin 16, hexDigit (Nat.digitChar i) = some i.val := by decide
  exact hall ⟨n, h⟩

/-- The four digits of a unit are read as the unit. -/
theorem hexUnit_digits {unit : Nat} (h : unit < 0x10000) :
    hexUnit (Nat.digitChar (unit / 4096)) (Nat.digitChar (unit / 256 % 16))
      (Nat.digitChar (unit / 16 % 16)) (Nat.digitChar (unit % 16)) = some unit := by
  have hvalue : ((unit / 4096 * 16 + unit / 256 % 16) * 16 + unit / 16 % 16) * 16 + unit % 16 =
      unit := by omega
  simp only [hexUnit, hexDigit_digitChar (show unit / 4096 < 16 by omega),
    hexDigit_digitChar (show unit / 256 % 16 < 16 by omega),
    hexDigit_digitChar (show unit / 16 % 16 < 16 by omega),
    hexDigit_digitChar (show unit % 16 < 16 by omega), Option.bind_eq_bind, Option.bind_some,
    Option.pure_def, hvalue]

/-- A character below the surrogates or above them, in one unit. -/
theorem readEscape_unit {c : Char} (h : c.toNat < 0x10000) (rest : List Char) :
    readEscape ((unitText c.toNat).tail ++ rest) = some (c, rest) := by
  have hvalid : c.toNat < 0xD800 ∨ 0xDFFF < c.toNat := by
    rcases char_valid c with hlow | hhigh
    · exact .inl hlow
    · exact .inr hhigh.1
  simp only [unitText, List.tail_cons, List.cons_append, List.nil_append, readEscape,
    hexUnit_digits h, Option.bind_eq_bind, Option.bind_some]
  rw [if_neg (by omega), if_neg (by omega), Char.ofNat_toNat]

/-- The two units of a pair. -/
theorem readEscape_units {high low : Nat} (hhigh : 0xD800 ≤ high ∧ high < 0xDC00)
    (hlow : 0xDC00 ≤ low ∧ low < 0xE000) (rest : List Char) :
    readEscape ((unitText high).tail ++ unitText low ++ rest) =
      some (Char.ofNat (0x10000 + (high - 0xD800) * 1024 + (low - 0xDC00)), rest) := by
  simp only [unitText, List.tail_cons, List.cons_append, List.nil_append, readEscape,
    hexUnit_digits (show high < 0x10000 by omega), hexUnit_digits (show low < 0x10000 by omega),
    Option.bind_eq_bind, Option.bind_some]
  rw [if_pos hhigh, if_pos hlow]

/-- A character above the first plane, in two units. -/
theorem readEscape_pair {c : Char} (h : 0x10000 ≤ c.toNat) (rest : List Char) :
    readEscape ((unitText (0xD800 + (c.toNat - 0x10000) / 1024)).tail ++
      unitText (0xDC00 + (c.toNat - 0x10000) % 1024) ++ rest) = some (c, rest) := by
  have hbound : c.toNat < 0x110000 := by
    have hvalid := char_valid c
    show c.val.toNat < 0x110000
    omega
  have hvalue : 0x10000 + (0xD800 + (c.toNat - 0x10000) / 1024 - 0xD800) * 1024 +
      (0xDC00 + (c.toNat - 0x10000) % 1024 - 0xDC00) = c.toNat := by omega
  rw [readEscape_units (by omega) (by omega), hvalue, Char.ofNat_toNat]

/-- An escape that `readEscape` takes whole is read in one step. -/
theorem readQuoted_of_readEscape {c : Char} {text : List Char} {rest : List Char}
    (h : readEscape (text ++ rest) = some (c, rest)) (fuel : Nat) :
    readQuoted (fuel + 1) ('\\' :: (text ++ rest)) =
      (readQuoted fuel rest).map fun read => (c :: read.1, read.2) := by
  rw [readQuoted, h]
  simp only [Option.bind_eq_bind, Option.bind_some]
  cases readQuoted fuel rest <;> rfl

/-- The characters with an escape of two characters, with the second one of it. -/
def shortEscapes : List (Char × Char) :=
  [('"', '"'), ('\\', '\\'), ('\n', 'n'), ('\r', 'r'), ('\t', 't'), ('\x0c', 'f'), ('\x08', 'b')]

/-- What an escape of `ensure_ascii` can be. -/
theorem escapeAscii_cases (c : Char) :
    (∃ mark, (c, mark) ∈ shortEscapes ∧ escapeAscii c = ['\\', mark]) ∨
    (c ≠ '"' ∧ c ≠ '\\' ∧ 32 ≤ c.toNat ∧ c.toNat ≤ 126 ∧ escapeAscii c = [c]) ∨
    (c.toNat < 0x10000 ∧ escapeAscii c = unitText c.toNat) ∨
    (0x10000 ≤ c.toNat ∧ c.toNat < 0x110000 ∧
      escapeAscii c = unitText (0xD800 + (c.toNat - 0x10000) / 1024) ++
        unitText (0xDC00 + (c.toNat - 0x10000) % 1024)) := by
  by_cases hshort : c ∈ shortEscapes.map Prod.fst
  · obtain ⟨⟨d, mark⟩, hmem, rfl⟩ := List.mem_map.mp hshort
    have hall : shortEscapes.all (fun p => escapeAscii p.1 == ['\\', p.2]) = true := by decide
    exact .inl ⟨mark, hmem, beq_iff_eq.mp (List.all_eq_true.mp hall _ hmem)⟩
  simp only [shortEscapes, List.map_cons, List.map_nil, List.mem_cons, List.not_mem_nil, or_false,
    not_or] at hshort
  obtain ⟨hquote, hslash, hn, hr, ht, hf, hb⟩ := hshort
  refine .inr ?_
  rw [escapeAscii, if_neg hquote, if_neg hslash, if_neg hn, if_neg hr, if_neg ht, if_neg hf,
    if_neg hb]
  by_cases hplain : 32 ≤ c.toNat ∧ c.toNat ≤ 126
  · exact .inl ⟨hquote, hslash, hplain.1, hplain.2, if_pos hplain⟩
  rw [if_neg hplain]
  by_cases hunit : c.toNat < 0x10000
  · exact .inr (.inl ⟨hunit, if_pos hunit⟩)
  · have hvalid := char_valid c
    have hbound : c.toNat < 0x110000 := by
      show c.val.toNat < 0x110000
      omega
    exact .inr (.inr ⟨by omega, hbound, if_neg hunit⟩)

/-- The escapes of `ensure_ascii` are read. -/
theorem readable_escapeAscii : Readable escapeAscii := by
  intro c fuel rest
  rcases escapeAscii_cases c with ⟨mark, hmem, hescape⟩ | ⟨hquote, hslash, hlow, -, hescape⟩ |
    ⟨hunit, hescape⟩ | ⟨hlow, -, hescape⟩ <;> rw [hescape]
  · have hread : ∀ p ∈ shortEscapes, readEscape (p.2 :: rest) = some (p.1, rest) := by
      simp only [shortEscapes, List.forall_mem_cons]
      exact ⟨rfl, rfl, rfl, rfl, rfl, rfl, rfl, fun _ hnil => absurd hnil List.not_mem_nil⟩
    exact @readQuoted_of_readEscape _ [mark] rest (hread _ hmem) fuel
  · rw [List.singleton_append, readQuoted_cons hquote hslash, if_neg (by omega)]
    cases readQuoted fuel rest <;> rfl
  · exact readQuoted_of_readEscape (readEscape_unit hunit rest) fuel
  · exact readQuoted_of_readEscape (readEscape_pair hlow rest) fuel

/-! ### Every character is ASCII -/

/-- A text of ASCII characters. -/
def Ascii (text : List Char) : Prop := ∀ c ∈ text, c.toNat < 128

theorem Ascii.append {text more : List Char} (h : Ascii text) (h' : Ascii more) :
    Ascii (text ++ more) := by
  intro c hc
  exact (List.mem_append.mp hc).elim (h c) (h' c)

theorem Ascii.cons {c : Char} {text : List Char} (hc : c.toNat < 128) (h : Ascii text) :
    Ascii (c :: text) := by
  intro d hd
  rcases List.mem_cons.mp hd with rfl | hd
  · exact hc
  · exact h d hd

theorem digitChar_lt {n : Nat} (h : n < 16) : (Nat.digitChar n).toNat < 128 := by
  have hall : ∀ i : Fin 16, (Nat.digitChar i).toNat < 128 := by decide
  exact hall ⟨n, h⟩

theorem ascii_unitText {unit : Nat} (h : unit < 0x10000) : Ascii (unitText unit) := by
  refine .cons (by decide) (.cons (by decide) (.cons (digitChar_lt (by omega))
    (.cons (digitChar_lt (by omega)) (.cons (digitChar_lt (by omega))
      (.cons (digitChar_lt (by omega)) ?_)))))
  intro c hc
  cases hc

theorem ascii_escapeAscii (c : Char) : Ascii (escapeAscii c) := by
  rcases escapeAscii_cases c with ⟨mark, hmem, hescape⟩ | ⟨-, -, -, hhigh, hescape⟩ |
    ⟨hunit, hescape⟩ | ⟨hlow, hhigh, hescape⟩ <;> rw [hescape]
  · have hall : shortEscapes.all (fun p => decide (p.2.toNat < 128)) = true := by decide
    have hmark := of_decide_eq_true (List.all_eq_true.mp hall _ hmem)
    exact .cons (by decide) (.cons hmark fun _ hnil => absurd hnil List.not_mem_nil)
  · exact .cons (by omega) fun _ hnil => absurd hnil List.not_mem_nil
  · exact ascii_unitText hunit
  · exact (ascii_unitText (by omega)).append (ascii_unitText (by omega))

theorem ascii_quotedWith (text : Name) : Ascii (quotedWith escapeAscii text) := by
  induction text with
  | nil => simp [Ascii, quotedWith]
  | cons c text ih => exact (ascii_escapeAscii c).append ih

/-- The characters of an integer: its digits, and a sign. -/
theorem mem_intText {value : Int} {c : Char} (h : c ∈ intText value) : c.isDigit = true ∨ c = '-' := by
  have hdigit : ∀ n : Nat, c ∈ Nat.toDigits 10 n → c.isDigit = true := fun n hc =>
    Nat.isDigit_of_mem_toDigits (by decide) (by decide) hc
  rw [intText] at h
  split_ifs at h
  · rcases List.mem_cons.mp h with rfl | h
    · exact .inr rfl
    · exact .inl (hdigit _ h)
  · exact .inl (hdigit _ h)

theorem ascii_intText (value : Int) : Ascii (intText value) := by
  intro c hc
  rcases mem_intText hc with hdigit | rfl
  · have hrange := (Char.isDigit_iff_toNat.mp hdigit).2
    exact Nat.lt_of_le_of_lt hrange (by decide)
  · decide

/-- No double. -/
def noFloat : Json → Bool
  | .float _ => false
  | _ => true

mutual

/-- A value without doubles is written in ASCII. -/
theorem ascii_dumps : ∀ value : Json, every noFloat value = true →
    Ascii (dumpsWith escapeAscii value)
  | .null, _ | .bool true, _ | .bool false, _ | .arr [], _ | .obj [], _ => by
      simp [Ascii, dumpsWith]
  | .int value, _ => ascii_intText value
  | .float _, h => by cases h
  | .str text, _ => .cons (by decide) (ascii_quotedWith text)
  | .arr (item :: items), h => by
      simp only [every, everyItem, Bool.and_eq_true] at h
      exact .cons (by decide) ((ascii_dumps item h.2.1).append (ascii_dumpsItems items h.2.2))
  | .obj ((key, value) :: fields), h => by
      simp only [every, everyField, Bool.and_eq_true] at h
      exact .cons (by decide) (.cons (by decide) ((ascii_quotedWith key).append
        (.cons (by decide) ((ascii_dumps value h.2.1).append (ascii_dumpsFields fields h.2.2)))))

theorem ascii_dumpsItems : ∀ items : List Json, everyItem noFloat items = true →
    Ascii (dumpsItemsWith escapeAscii items)
  | [], _ => by simp [Ascii, dumpsItemsWith]
  | item :: items, h => by
      simp only [everyItem, Bool.and_eq_true] at h
      exact .cons (by decide) ((ascii_dumps item h.1).append (ascii_dumpsItems items h.2))

theorem ascii_dumpsFields : ∀ fields : List (Name × Json), everyField noFloat fields = true →
    Ascii (dumpsFieldsWith escapeAscii fields)
  | [], _ => by simp [Ascii, dumpsFieldsWith]
  | (key, value) :: fields, h => by
      simp only [everyField, Bool.and_eq_true] at h
      exact .cons (by decide) (.cons (by decide) ((ascii_quotedWith key).append
        (.cons (by decide) ((ascii_dumps value h.1).append (ascii_dumpsFields fields h.2)))))

end

/-- An ASCII text is decoded from its bytes. -/
theorem decodeAscii_asciiBytes {text : List Char} (h : Ascii text) :
    decodeAscii (asciiBytes text) = some text := by
  have hbyte : ∀ c ∈ text, (UInt8.ofNat c.toNat).toNat = c.toNat := fun c hc =>
    toNat_ofNat_byte (by have := h c hc; omega)
  have hall : (asciiBytes text).all (fun byte => decide (byte.toNat < 128)) = true := by
    simp only [asciiBytes, List.all_map, List.all_eq_true, Function.comp, decide_eq_true_eq]
    intro c hc
    rw [hbyte c hc]
    exact h c hc
  rw [decodeAscii, if_pos hall, asciiBytes, List.map_map]
  congr 1
  refine (List.map_congr_left fun c hc => ?_).trans (List.map_id text)
  rw [Function.comp, hbyte c hc, Char.ofNat_toNat, id]

/-- Only ASCII is encoded. -/
theorem encodeAscii_eq_some {text : List Char} {data : List UInt8} :
    encodeAscii text = some data ↔ Ascii text ∧ asciiBytes text = data := by
  rw [encodeAscii]
  split_ifs with h
  · simp only [List.all_eq_true, decide_eq_true_eq] at h
    simp only [Option.some.injEq, iff_and_self]
    exact fun _ => h
  · simp only [List.all_eq_true, decide_eq_true_eq] at h
    constructor
    · intro hnone
      cases hnone
    · rintro ⟨hascii, -⟩
      exact absurd hascii h

/-! ### The depth guard -/

/-- What the guard makes of a text. -/
def scan (guard : Guard) (text : List Char) : Option Guard :=
  (asciiBytes text).foldlM Guard.step guard

theorem scan_append (guard : Guard) (text more : List Char) :
    scan guard (text ++ more) = (scan guard text).bind fun next => scan next more := by
  rw [scan, asciiBytes, List.map_append, List.foldlM_append]
  rfl

theorem scan_cons (guard : Guard) (c : Char) (text : List Char) :
    scan guard (c :: text) =
      (guard.step (UInt8.ofNat c.toNat)).bind fun next => scan next text := by
  rw [scan, asciiBytes, List.map_cons, List.foldlM_cons]
  rfl

/-- The guard outside quotes, with this many brackets open. -/
abbrev outside (open_ : Int) : Guard := { depth := open_ }

/-- The guard inside quotes. -/
abbrev inside (open_ : Int) : Guard := { depth := open_, quoted := true }

/-- ASCII characters are told apart by their bytes. -/
theorem byte_ne {c d : Char} (hc : c.toNat < 128) (hd : d.toNat < 128) (hne : c ≠ d) :
    UInt8.ofNat c.toNat ≠ UInt8.ofNat d.toNat := by
  intro heq
  have hnat := congrArg UInt8.toNat heq
  rw [toNat_ofNat_byte (by omega), toNat_ofNat_byte (by omega)] at hnat
  exact hne (Char.toNat_inj.mp hnat)

/-- Inside quotes, anything but a quote or a backslash is passed over. -/
theorem step_inside {c : Char} (hc : c.toNat < 128) (hquote : c ≠ '"') (hslash : c ≠ '\\')
    (open_ : Int) : (inside open_).step (UInt8.ofNat c.toNat) = some (inside open_) := by
  have hquote' : UInt8.ofNat c.toNat ≠ 34 := byte_ne (d := '"') hc (by decide) hquote
  have hslash' : UInt8.ofNat c.toNat ≠ 92 := byte_ne (d := '\\') hc (by decide) hslash
  simp [Guard.step, hquote', hslash']

/-- Outside quotes, anything but a quote or a bracket is passed over. -/
theorem step_outside {c : Char} (hc : c.toNat < 128)
    (hplain : c ≠ '"' ∧ c ≠ '[' ∧ c ≠ '\x7b' ∧ c ≠ ']' ∧ c ≠ '\x7d') (open_ : Int) :
    (outside open_).step (UInt8.ofNat c.toNat) = some (outside open_) := by
  obtain ⟨hquote, hleft, hbrace, hright, hend⟩ := hplain
  have hquote' : UInt8.ofNat c.toNat ≠ 34 := byte_ne (d := '"') hc (by decide) hquote
  have hleft' : UInt8.ofNat c.toNat ≠ 91 := byte_ne (d := '[') hc (by decide) hleft
  have hbrace' : UInt8.ofNat c.toNat ≠ 123 := byte_ne (d := '\x7b') hc (by decide) hbrace
  have hright' : UInt8.ofNat c.toNat ≠ 93 := byte_ne (d := ']') hc (by decide) hright
  have hend' : UInt8.ofNat c.toNat ≠ 125 := byte_ne (d := '\x7d') hc (by decide) hend
  simp [Guard.step, hquote', hleft', hbrace', hright', hend']

theorem digitChar_plain {n : Nat} (h : n < 16) :
    Nat.digitChar n ≠ '"' ∧ Nat.digitChar n ≠ '\\' := by
  have hall : ∀ i : Fin 16, Nat.digitChar i ≠ '"' ∧ Nat.digitChar i ≠ '\\' := by decide
  exact hall ⟨n, h⟩

/-- A digit inside quotes. -/
theorem scan_digit {n : Nat} (h : n < 16) (open_ : Int) (text : List Char) :
    scan (inside open_) (Nat.digitChar n :: text) = scan (inside open_) text := by
  rw [scan_cons, step_inside (digitChar_lt h) (digitChar_plain h).1 (digitChar_plain h).2,
    Option.bind_some]

/-- A unit inside quotes: the backslash covers the letter, the digits go as they are. -/
theorem scan_unitText {unit : Nat} (h : unit < 0x10000) (open_ : Int) (text : List Char) :
    scan (inside open_) (unitText unit ++ text) = scan (inside open_) text := by
  have hmark : ∀ more, scan (inside open_) ('\\' :: 'u' :: more) = scan (inside open_) more :=
    fun _ => rfl
  simp only [unitText, List.cons_append, List.nil_append, hmark]
  rw [scan_digit (by omega), scan_digit (by omega), scan_digit (by omega), scan_digit (by omega)]

/-- An escape leaves the guard inside quotes. -/
theorem scan_escapeAscii (c : Char) (open_ : Int) (text : List Char) :
    scan (inside open_) (escapeAscii c ++ text) = scan (inside open_) text := by
  rcases escapeAscii_cases c with ⟨mark, hmem, hescape⟩ | ⟨hquote, hslash, -, hhigh, hescape⟩ |
    ⟨hunit, hescape⟩ | ⟨hlow, hhigh, hescape⟩ <;> rw [hescape]
  · have hscan : ∀ p ∈ shortEscapes,
        scan (inside open_) (['\\', p.2] ++ text) = scan (inside open_) text := by
      simp only [shortEscapes, List.forall_mem_cons]
      exact ⟨rfl, rfl, rfl, rfl, rfl, rfl, rfl, fun _ hnil => absurd hnil List.not_mem_nil⟩
    exact hscan _ hmem
  · rw [List.singleton_append, scan_cons, step_inside (by omega) hquote hslash, Option.bind_some]
  · exact scan_unitText hunit open_ text
  · rw [List.append_assoc, scan_unitText (by omega), scan_unitText (by omega)]

/-- A text ends with the quote that closes it. -/
theorem scan_quotedWith (value : Name) (open_ : Int) (text : List Char) :
    scan (inside open_) (quotedWith escapeAscii value ++ text) = scan (outside open_) text := by
  induction value with
  | nil => rfl
  | cons c value ih => rw [quotedWith, List.append_assoc, scan_escapeAscii, ih]

/-- Characters that are no quotes and no brackets are passed over. -/
theorem scan_plain {plain : List Char} (h : ∀ c ∈ plain, c.isDigit = true ∨ c = '-') (open_ : Int)
    (text : List Char) : scan (outside open_) (plain ++ text) = scan (outside open_) text := by
  induction plain with
  | nil => rfl
  | cons c plain ih =>
      have hc : c.toNat < 128 ∧
          c ≠ '"' ∧ c ≠ '[' ∧ c ≠ '\x7b' ∧ c ≠ ']' ∧ c ≠ '\x7d' := by
        rcases h c List.mem_cons_self with hdigit | rfl
        · refine ⟨Nat.lt_of_le_of_lt (Char.isDigit_iff_toNat.mp hdigit).2 (by decide), ?_⟩
          refine ⟨?_, ?_, ?_, ?_, ?_⟩ <;> rintro rfl <;> cases hdigit
        · decide
      rw [List.cons_append, scan_cons, step_outside hc.1 hc.2, Option.bind_some]
      exact ih fun d hd => h d (List.mem_cons_of_mem _ hd)

/-- A bracket that opens, where one more may be open. -/
theorem step_open {open_ : Int} (h : open_ + 1 ≤ maxDepth) {c : Char} (hc : c = '[' ∨ c = '\x7b') :
    (outside open_).step (UInt8.ofNat c.toNat) = some (outside (open_ + 1)) := by
  have hmax : ¬ (maxDepth : Int) < open_ + 1 := by omega
  rcases hc with rfl | rfl <;> simp [Guard.step, hmax]

/-- A bracket that closes. -/
theorem scan_end (open_ : Int) {c : Char} (hc : c = ']' ∨ c = '\x7d') (text : List Char) :
    scan (outside open_) (c :: text) = scan (outside (open_ - 1)) text := by
  rcases hc with rfl | rfl <;> rfl

/-- The bracket that closes the one just opened. -/
theorem scan_close (open_ : Int) {c : Char} (hc : c = ']' ∨ c = '\x7d') (text : List Char) :
    scan (outside (open_ + 1)) (c :: text) = scan (outside open_) text := by
  rw [scan_end (open_ + 1) hc, Int.add_sub_cancel]

/-- A quote that begins a text. -/
theorem scan_quote (open_ : Int) (text : List Char) :
    scan (outside open_) ('"' :: text) = scan (inside open_) text := rfl

/-- A mark between values. -/
theorem scan_mark {c : Char} (hc : c = ',' ∨ c = ':') (open_ : Int) (text : List Char) :
    scan (outside open_) (c :: text) = scan (outside open_) text := by
  rcases hc with rfl | rfl <;> rfl

mutual

/-- **The guard passes over a value** that has room for its levels. -/
theorem guard_dumps : ∀ (value : Json) (open_ : Int) (text : List Char),
    every noFloat value = true → open_ + depth value ≤ maxDepth →
      scan (outside open_) (dumpsWith escapeAscii value ++ text) = scan (outside open_) text
  | .null, _, _, _, _ | .bool true, _, _, _, _ | .bool false, _, _, _, _ => rfl
  | .int value, open_, text, _, _ => scan_plain (fun _ => mem_intText) open_ text
  | .float _, _, _, h, _ => by cases h
  | .str value, open_, text, _, _ => scan_quotedWith value open_ text
  | .arr [], open_, text, _, hroom => by
      have hroom' : open_ + 1 ≤ maxDepth := by simpa [depth, depthItems] using hroom
      rw [dumpsWith, show "[]".toList ++ text = '[' :: ']' :: text from rfl, scan_cons,
        step_open hroom' (.inl rfl), Option.bind_some]
      exact scan_close open_ (.inl rfl) text
  | .arr (item :: items), open_, text, h, hroom => by
      simp only [every, everyItem, Bool.and_eq_true] at h
      simp only [depth, depthItems] at hroom
      rw [dumpsWith, List.cons_append, List.append_assoc, scan_cons,
        step_open (by omega) (.inl rfl), Option.bind_some,
        guard_dumps item (open_ + 1) _ h.2.1 (by omega),
        guard_dumpsItems items (open_ + 1) text h.2.2 (by omega)]
      simp
  | .obj [], open_, text, _, hroom => by
      have hroom' : open_ + 1 ≤ maxDepth := by simpa [depth, depthFields] using hroom
      rw [dumpsWith, show "\x7b\x7d".toList ++ text = '\x7b' :: '\x7d' :: text from rfl, scan_cons,
        step_open hroom' (.inr rfl), Option.bind_some]
      exact scan_close open_ (.inr rfl) text
  | .obj ((key, value) :: fields), open_, text, h, hroom => by
      simp only [every, everyField, Bool.and_eq_true] at h
      simp only [depth, depthFields] at hroom
      rw [dumpsWith, List.cons_append, List.cons_append, List.append_assoc, List.cons_append,
        List.append_assoc, scan_cons, step_open (by omega) (.inr rfl), Option.bind_some]
      rw [scan_quote, scan_quotedWith, scan_mark (by decide),
        guard_dumps value (open_ + 1) _ h.2.1 (by omega),
        guard_dumpsFields fields (open_ + 1) text h.2.2 (by omega)]
      simp

theorem guard_dumpsItems : ∀ (items : List Json) (open_ : Int) (text : List Char),
    everyItem noFloat items = true → open_ + depthItems items ≤ maxDepth →
      scan (outside open_) (dumpsItemsWith escapeAscii items ++ text) =
        scan (outside (open_ - 1)) text
  | [], open_, text, _, _ => scan_end open_ (.inl rfl) text
  | item :: items, open_, text, h, hroom => by
      simp only [everyItem, Bool.and_eq_true] at h
      simp only [depthItems] at hroom
      rw [dumpsItemsWith, List.cons_append, List.append_assoc, scan_mark (by decide),
        guard_dumps item open_ _ h.1 (by omega), guard_dumpsItems items open_ text h.2 (by omega)]

theorem guard_dumpsFields : ∀ (fields : List (Name × Json)) (open_ : Int) (text : List Char),
    everyField noFloat fields = true → open_ + depthFields fields ≤ maxDepth →
      scan (outside open_) (dumpsFieldsWith escapeAscii fields ++ text) =
        scan (outside (open_ - 1)) text
  | [], open_, text, _, _ => scan_end open_ (.inr rfl) text
  | (key, value) :: fields, open_, text, h, hroom => by
      simp only [everyField, Bool.and_eq_true] at h
      simp only [depthFields] at hroom
      rw [dumpsFieldsWith, List.cons_append, List.cons_append, List.append_assoc, List.cons_append,
        List.append_assoc, scan_mark (by decide), scan_quote, scan_quotedWith,
        scan_mark (by decide), guard_dumps value open_ _ h.1 (by omega),
        guard_dumpsFields fields open_ text h.2 (by omega)]

end

end MaskGateway.Proofs.Runtime.Snapshot
