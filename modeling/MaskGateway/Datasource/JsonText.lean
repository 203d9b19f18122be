import MaskGateway.Datasource.Catalog
import MaskGateway.Lib.Utf8

/-!
# `MaskGateway.Datasource.JsonText`: the bytes of a JSON document

`canonical_json` of `datasource/crypto.py` and `_safe_json_loads` of `datasource/store.py`, on bytes:
the writer of `json.dumps` with sorted keys, no blanks and no escapes above ASCII, and the reader of
`json.loads` that refuses `NaN`, `Infinity` and a key that occurs twice.

Doubles are a parameter (`Floats`): what `repr(float(text))` makes of a number with a fraction or an
exponent. A lone surrogate is no character here; the code reads one, and then fails to encode it.
-/

set_option autoImplicit false

namespace MaskGateway.Datasource

open Lib

/-! ### Numbers -/

/-- The integer part of a number. -/
def scanInt : List Char → Option (List Char × List Char)
  | '0' :: rest => some (['0'], rest)
  | text =>
      match text.takeWhile Char.isDigit with
      | [] => none
      | digits => some (digits, text.dropWhile Char.isDigit)

/-- The fraction, if there is one. -/
def scanFrac : List Char → List Char × List Char
  | '.' :: rest =>
      match rest.takeWhile Char.isDigit with
      | [] => ([], '.' :: rest)
      | digits => ('.' :: digits, rest.dropWhile Char.isDigit)
  | text => ([], text)

/-- A sign, if there is one. -/
def scanSign : List Char → List Char × List Char
  | '+' :: rest => (['+'], rest)
  | '-' :: rest => (['-'], rest)
  | text => ([], text)

/-- The digits of an exponent and what goes before them. -/
def scanPower (mark : Char) (rest : List Char) : List Char × List Char :=
  match (scanSign rest).2.takeWhile Char.isDigit with
  | [] => ([], mark :: rest)
  | digits => (mark :: (scanSign rest).1 ++ digits, (scanSign rest).2.dropWhile Char.isDigit)

/-- The exponent, if there is one. -/
def scanExp : List Char → List Char × List Char
  | 'e' :: rest => scanPower 'e' rest
  | 'E' :: rest => scanPower 'E' rest
  | text => ([], text)

/-- The minus sign, if there is one. -/
def scanMinus : List Char → List Char × List Char
  | '-' :: rest => (['-'], rest)
  | text => ([], text)

/-- The parts of a number. -/
structure Number where
  minus : List Char
  whole : List Char
  frac : List Char
  exp : List Char

/-- Whether a number is an integer. -/
def Number.isInt (number : Number) : Bool := number.frac.isEmpty && number.exp.isEmpty

/-- The value of an integer. -/
def Number.value (number : Number) : Int :=
  if number.minus.isEmpty then (Nat.ofDigitChars 10 number.whole 0 : Int)
  else -(Nat.ofDigitChars 10 number.whole 0 : Int)

/-- A number at the front of a text: `NUMBER_RE`. -/
def scanNumber (text : List Char) : Option (Number × List Char) :=
  match scanInt (scanMinus text).2 with
  | none => none
  | some (whole, rest) =>
      some (⟨(scanMinus text).1, whole, (scanFrac rest).1, (scanExp (scanFrac rest).2).1⟩,
        (scanExp (scanFrac rest).2).2)

/-- The texts of the doubles that are no numbers of JSON. -/
def notFinite : List Name := ["inf".toList, "-inf".toList, "nan".toList]

/-- Doubles: `repr(float(text))`, for the text of a number with a fraction or an exponent. -/
structure Floats where
  repr : Number → Name
  /-- The text of a finite double is such a number too, and it reads back as the same double. -/
  repr_reads : ∀ text number rest, scanNumber text = some (number, rest) → number.isInt = false →
    repr number ∈ notFinite ∨ ∃ again, scanNumber (repr number) = some (again, []) ∧
      again.isInt = false ∧ repr again = repr number

/-! ### Writing -/

/-- `ESCAPE_DCT`. -/
def escape (c : Char) : List Char :=
  if c = '"' then ['\\', '"']
  else if c = '\\' then ['\\', '\\']
  else if c = '\n' then ['\\', 'n']
  else if c = '\r' then ['\\', 'r']
  else if c = '\t' then ['\\', 't']
  else if c = '\x0c' then ['\\', 'f']
  else if c = '\x08' then ['\\', 'b']
  else if c.toNat < 32 then
    ['\\', 'u', '0', '0', Nat.digitChar (c.toNat / 16), Nat.digitChar (c.toNat % 16)]
  else [c]

/-- A text with its escapes and the quote that ends it. -/
def quoted : Name → List Char
  | [] => ['"']
  | c :: text => escape c ++ quoted text

/-- The text of an integer. -/
def intText (value : Int) : List Char :=
  if value < 0 then '-' :: Nat.toDigits 10 value.natAbs else Nat.toDigits 10 value.natAbs

mutual

/-- `json.dumps`, with the keys in the order they have. -/
def dumps : Json → List Char
  | .null => "null".toList
  | .bool true => "true".toList
  | .bool false => "false".toList
  | .int value => intText value
  | .float repr => repr
  | .str value => '"' :: quoted value
  | .arr [] => "[]".toList
  | .arr (item :: items) => '[' :: (dumps item ++ dumpsItems items)
  | .obj [] => "{}".toList
  | .obj ((key, value) :: fields) =>
      '{' :: '"' :: (quoted key ++ ':' :: (dumps value ++ dumpsFields fields))

/-- The items after the first, and the bracket. -/
def dumpsItems : List Json → List Char
  | [] => [']']
  | item :: items => ',' :: (dumps item ++ dumpsItems items)

/-- The fields after the first, and the brace. -/
def dumpsFields : List (Name × Json) → List Char
  | [] => ['}']
  | (key, value) :: fields =>
      ',' :: '"' :: (quoted key ++ ':' :: (dumps value ++ dumpsFields fields))

end

/-! ### Writing with other escapes -/

section

variable (escape : Char → List Char)

/-- `quoted`, with any way to escape a character. -/
def quotedWith : Name → List Char
  | [] => ['"']
  | c :: text => escape c ++ quotedWith text

mutual

/-- `dumps`, with any way to escape a character. -/
def dumpsWith : Json → List Char
  | .null => "null".toList
  | .bool true => "true".toList
  | .bool false => "false".toList
  | .int value => intText value
  | .float repr => repr
  | .str value => '"' :: quotedWith escape value
  | .arr [] => "[]".toList
  | .arr (item :: items) => '[' :: (dumpsWith item ++ dumpsItemsWith items)
  | .obj [] => "{}".toList
  | .obj ((key, value) :: fields) =>
      '{' :: '"' :: (quotedWith escape key ++ ':' :: (dumpsWith value ++ dumpsFieldsWith fields))

/-- The items after the first, and the bracket. -/
def dumpsItemsWith : List Json → List Char
  | [] => [']']
  | item :: items => ',' :: (dumpsWith item ++ dumpsItemsWith items)

/-- The fields after the first, and the brace. -/
def dumpsFieldsWith : List (Name × Json) → List Char
  | [] => ['}']
  | (key, value) :: fields =>
      ',' :: '"' :: (quotedWith escape key ++ ':' :: (dumpsWith value ++ dumpsFieldsWith fields))

end

end

/-! ### Keys in their order -/

mutual

/-- `sort_keys`. -/
def Json.sorted : Json → Json
  | .arr items => .arr (Json.sortedItems items)
  | .obj fields => .obj ((Json.sortedFields fields).insertionSort fun a b => a.1 ≤ b.1)
  | value => value

/-- The items, each with its keys sorted. -/
def Json.sortedItems : List Json → List Json
  | [] => []
  | item :: items => item.sorted :: Json.sortedItems items

/-- The fields in their order, each with its keys sorted. -/
def Json.sortedFields : List (Name × Json) → List (Name × Json)
  | [] => []
  | (key, value) :: fields => (key, value.sorted) :: Json.sortedFields fields

end

mutual

/-- Whether `allow_nan=False` lets a value through. -/
def Json.finite : Json → Bool
  | .float repr => !(notFinite.contains repr)
  | .arr items => Json.finiteItems items
  | .obj fields => Json.finiteFields fields
  | _ => true

/-- The same for items. -/
def Json.finiteItems : List Json → Bool
  | [] => true
  | item :: items => item.finite && Json.finiteItems items

/-- The same for fields. -/
def Json.finiteFields : List (Name × Json) → Bool
  | [] => true
  | (_, value) :: fields => value.finite && Json.finiteFields fields

end

/-- The four digits of a `\u` escape. -/
def hexUnit (a b c d : Char) : Option Nat := do
  let a ← hexDigit a
  let b ← hexDigit b
  let c ← hexDigit c
  let d ← hexDigit d
  return ((a * 16 + b) * 16 + c) * 16 + d

/-- The character of an escape, after the backslash. -/
def readEscape : List Char → Option (Char × List Char)
  | '"' :: rest => some ('"', rest)
  | '\\' :: rest => some ('\\', rest)
  | '/' :: rest => some ('/', rest)
  | 'n' :: rest => some ('\n', rest)
  | 'r' :: rest => some ('\r', rest)
  | 't' :: rest => some ('\t', rest)
  | 'f' :: rest => some ('\x0c', rest)
  | 'b' :: rest => some ('\x08', rest)
  | 'u' :: a :: b :: c :: d :: rest => do
      let unit ← hexUnit a b c d
      if 0xD800 ≤ unit ∧ unit < 0xDC00 then
        -- the first half of a pair
        match rest with
        | '\\' :: 'u' :: e :: f :: g :: h :: rest => do
            let low ← hexUnit e f g h
            if 0xDC00 ≤ low ∧ low < 0xE000 then
              some (Char.ofNat (0x10000 + (unit - 0xD800) * 1024 + (low - 0xDC00)), rest)
            else none
        | _ => none
      else if 0xDC00 ≤ unit ∧ unit < 0xE000 then none
      else some (Char.ofNat unit, rest)
  | _ => none

/-- A text after its first quote. The first argument is at least the length of what is read. -/
def readQuoted : Nat → List Char → Option (Name × List Char)
  | 0, _ => none
  | _ + 1, [] => none
  | _ + 1, '"' :: rest => some ([], rest)
  | fuel + 1, '\\' :: rest => do
      let (c, rest) ← readEscape rest
      let (text, rest) ← readQuoted fuel rest
      return (c :: text, rest)
  | fuel + 1, c :: rest =>
      if c.toNat < 32 then none
      else do
        let (text, rest) ← readQuoted fuel rest
        return (c :: text, rest)

/-- White space of JSON. -/
def isBlank (c : Char) : Bool := c == ' ' || c == '\t' || c == '\n' || c == '\r'

/-- What goes on after white space. -/
def skip (text : List Char) : List Char := text.dropWhile isBlank

/-- The value of a number. -/
def numberValue (floats : Floats) (number : Number) : Json :=
  if number.isInt then .int number.value else .float (floats.repr number)

/-- A number at the front of a text. -/
def readNumber (floats : Floats) (text : List Char) : Option (Json × List Char) :=
  (scanNumber text).map fun scanned => (numberValue floats scanned.1, scanned.2)

/-- `reject_duplicate`. -/
def rejectDuplicate (fields : List (Name × Json)) : Option Json :=
  if (fields.map Prod.fst).Nodup then some (.obj fields) else none

mutual

/-- A value at the front of a text. The first argument is at least the length of what is read. -/
def readValue (floats : Floats) : Nat → List Char → Option (Json × List Char)
  | 0, _ => none
  | _ + 1, 'n' :: 'u' :: 'l' :: 'l' :: rest => some (.null, rest)
  | _ + 1, 't' :: 'r' :: 'u' :: 'e' :: rest => some (.bool true, rest)
  | _ + 1, 'f' :: 'a' :: 'l' :: 's' :: 'e' :: rest => some (.bool false, rest)
  | fuel + 1, '"' :: rest => do
      let (text, rest) ← readQuoted fuel rest
      return (.str text, rest)
  | fuel + 1, '[' :: rest =>
      match skip rest with
      | ']' :: rest => some (.arr [], rest)
      | _ => do
          let (items, rest) ← readItems floats fuel (skip rest)
          return (.arr items, rest)
  | fuel + 1, '{' :: rest =>
      match skip rest with
      | '}' :: rest => some (.obj [], rest)
      | _ => do
          let (fields, rest) ← readFields floats fuel (skip rest)
          let value ← rejectDuplicate fields
          return (value, rest)
  | _ + 1, text => readNumber floats text

/-- The items of an array, up to its bracket. -/
def readItems (floats : Floats) : Nat → List Char → Option (List Json × List Char)
  | 0, _ => none
  | fuel + 1, text => do
      let (item, rest) ← readValue floats fuel text
      match skip rest with
      | ',' :: rest => do
          let (items, rest) ← readItems floats fuel (skip rest)
          return (item :: items, rest)
      | ']' :: rest => some ([item], rest)
      | _ => none

/-- The fields of an object, up to its brace. -/
def readFields (floats : Floats) : Nat → List Char → Option (List (Name × Json) × List Char)
  | 0, _ => none
  | fuel + 1, '"' :: rest => do
      let (key, rest) ← readQuoted fuel rest
      match skip rest with
      | ':' :: rest => do
          let (value, rest) ← readValue floats fuel (skip rest)
          match skip rest with
          | ',' :: rest => do
              let (fields, rest) ← readFields floats fuel (skip rest)
              return ((key, value) :: fields, rest)
          | '}' :: rest => some ([(key, value)], rest)
          | _ => none
      | _ => none
  | _ + 1, _ => none

end

/-- `json.loads` of a text. -/
def readText (floats : Floats) (text : List Char) : Option Json := do
  let (value, rest) ← readValue floats (text.length + 1) (skip text)
  if skip rest = [] then some value else none

end MaskGateway.Datasource
