import Mathlib

/-!
# `MaskGateway.Lib.Texts`: texts as lists of characters

Names, keys and messages are lists of characters, and the code looks them up in lists. Every such
lookup compares with `==`; that this is equality is found here, once for all of them.
-/

set_option autoImplicit false

namespace MaskGateway.Lib

/-- Texts that compare equal are equal. -/
instance lawfulBEqText : LawfulBEq (List Char) := List.instLawfulBEq

end MaskGateway.Lib
