/-!
# Decimal numerals
-/

namespace Checkout

/-- The digit a character stands for. -/
def digit? (char : Char) : Option Nat :=
  if '0' ≤ char ∧ char ≤ '9' then some (char.toNat - '0'.toNat) else none

/-- Continues a decimal numeral whose digits so far have the value `value`. -/
def decimalFrom? (value : Nat) : List Char → Option Nat
  | [] => some value
  | char :: rest => (digit? char).bind fun digit => decimalFrom? (value * 10 + digit) rest

/-- The value of a numeral of one or more decimal digits. -/
def decimal? : List Char → Option Nat
  | [] => none
  | chars => decimalFrom? 0 chars

/-- An unsigned number below `bound`; a plus sign may stand in front. -/
def unsigned? (bound : Nat) (text : String) : Option Nat :=
  let digits := match text.toList with
    | '+' :: rest => rest
    | chars => chars
  (decimal? digits).filter (· < bound)

/-- A numeral of at least `width` digits, filled with zeros in front. -/
def padded (width value : Nat) : String :=
  let digits := Nat.toDigits 10 value
  String.ofList (List.replicate (width - digits.length) '0' ++ digits)

/-- One hexadecimal digit. -/
def hexDigit? (char : Char) : Option Nat :=
  if '0' ≤ char ∧ char ≤ '9' then some (char.toNat - '0'.toNat)
  else if 'a' ≤ char ∧ char ≤ 'f' then some (char.toNat - 'a'.toNat + 10)
  else if 'A' ≤ char ∧ char ≤ 'F' then some (char.toNat - 'A'.toNat + 10)
  else none

/-- Continues a hexadecimal numeral whose digits so far have the value `value`. -/
def hexFrom? (value : Nat) : List Char → Option Nat
  | [] => some value
  | char :: rest => (hexDigit? char).bind fun digit => hexFrom? (value * 16 + digit) rest

end Checkout
