import Checkout.Data
import Checkout.Text.Digits
import Checkout.Timestamp.Basic

/-!
# Numbers and dates in TOML

Digits may be grouped by single underscores. Integers have 64 bits and may be written in hexadecimal,
octal or binary form; a number too large for a double is refused. Dates and times become a record of
one member, their text.
-/

namespace Checkout.Toml

/-- The digits in front, without the underscores that group them. -/
def digits? (isDigit : Char → Bool) (chars : List Char) : Option (List Char × List Char) :=
  let (run, rest) := chars.span fun char => isDigit char || char = '_'
  let groups := pieces run
  if groups.any List.isEmpty then none else some (groups.flatten, rest)
where
  /-- The groups of a run of digits. -/
  pieces : List Char → List (List Char)
    | [] => [[]]
    | char :: rest =>
        if char = '_' then [] :: pieces rest
        else match pieces rest with
          | [] => [[char]]
          | group :: groups => (char :: group) :: groups

/-- The value of digits of a base. -/
def valueInBase (base : Nat) (digits : List Char) : Nat :=
  digits.foldl (fun value char => value * base + (hexDigit? char).getD 0) 0

/-- An integer, if 64 bits can hold it. -/
def integer? (value : Int) : Option Data :=
  if Int64.minValue.toInt ≤ value ∧ value ≤ Int64.maxValue.toInt then some (.integer value) else none

/-- The least number that a double cannot come near. -/
def doubleLimit : Nat := (Nat.pow 2 54 - 1) * Nat.pow 2 970

/-- Whether a number of the form `mantissa * 10 ^ exponent` is too large for a double. The decimal
length of the number decides unless it is near the limit. -/
def overflows (mantissa : Nat) (exponent : Int) : Bool :=
  let size : Int := (Nat.toDigits 10 mantissa).length + exponent
  if mantissa = 0 ∨ size < 300 then false
  else if 320 < size then true
  else if 0 ≤ exponent then decide (doubleLimit ≤ mantissa * Nat.pow 10 exponent.toNat)
  else decide (doubleLimit * Nat.pow 10 (-exponent).toNat ≤ mantissa)

/-- A sign, if there is one. -/
def sign : List Char → Option Char × List Char
  | '+' :: rest => (some '+', rest)
  | '-' :: rest => (some '-', rest)
  | rest => (none, rest)

/-- A literal with its sign in front. -/
def signed (mark : Option Char) (literal : String) : String :=
  String.ofList mark.toList ++ literal

/-- The digits of a fraction, if there is one. -/
def fraction? : List Char → Option (List Char × List Char)
  | '.' :: rest => digits? Char.isDigit rest
  | rest => some ([], rest)

/-- An exponent, if there is one. -/
def exponent? : List Char → Option (Option Int × List Char)
  | letter :: rest =>
      if letter = 'e' ∨ letter = 'E' then do
        let (minus, rest) := sign rest
        let (digits, rest) ← digits? Char.isDigit rest
        let magnitude : Int := valueInBase 10 digits
        return (some (if minus = some '-' then -magnitude else magnitude), rest)
      else some (none, letter :: rest)
  | [] => some (none, [])

/-- A number in decimal form behind its sign. -/
def decimalNumber? (mark : Option Char) (chars : List Char) : Option (Data × List Char) := do
  let negative := mark = some '-'
  let (whole, afterWhole) ← digits? Char.isDigit chars
  if whole.head? = some '0' ∧ whole ≠ ['0'] then none
  let (fraction, afterFraction) ← fraction? afterWhole
  let (exponent, rest) ← exponent? afterFraction
  if fraction = [] ∧ exponent = none then
    let magnitude : Int := valueInBase 10 whole
    return (← integer? (if negative then -magnitude else magnitude), rest)
  else
    let mantissa := valueInBase 10 (whole ++ fraction)
    let scale := exponent.getD 0 - (fraction.length : Int)
    if !negative ∧ overflows mantissa scale then none
    else
      let literal := String.ofList (chars.take (chars.length - rest.length))
      return (.decimal (signed mark literal), rest)

/-- An integer in a base other than ten, behind the mark of its base. -/
def basedNumber? (base : Nat) (chars : List Char) : Option (Data × List Char) := do
  let isDigit (char : Char) : Bool := (hexDigit? char).any (· < base)
  let (digits, rest) ← digits? isDigit chars
  return (← integer? (valueInBase base digits), rest)

/-- A number, and what follows it. -/
def number? (chars : List Char) : Option (Data × List Char) :=
  match chars with
  | '0' :: 'x' :: rest => basedNumber? 16 rest
  | '0' :: 'o' :: rest => basedNumber? 8 rest
  | '0' :: 'b' :: rest => basedNumber? 2 rest
  | _ =>
      let (mark, rest) := sign chars
      match rest with
      | 'i' :: 'n' :: 'f' :: rest => some (.decimal (signed mark "inf"), rest)
      | 'n' :: 'a' :: 'n' :: rest => some (.decimal (signed mark "nan"), rest)
      | rest => decimalNumber? mark rest

/-! ## Dates and times -/

/-- A number of exactly `width` digits within bounds. -/
def fixed? (width low high : Nat) (chars : List Char) : Option (Nat × List Char) := do
  let digits := (chars.take width).takeWhile Char.isDigit
  if digits.length < width then none
  let value := valueInBase 10 digits
  if low ≤ value ∧ value ≤ high then some (value, chars.drop width) else none

/-- A character that has to be there. -/
def mark? (mark : Char) : List Char → Option (List Char)
  | char :: rest => if char = mark then some rest else none
  | [] => none

/-- Skips a date. -/
def skipDate? (chars : List Char) : Option (List Char) := do
  let (year, rest) ← fixed? 4 0 9999 chars
  let (month, rest) ← fixed? 2 1 12 (← mark? '-' rest)
  let (_, rest) ← fixed? 2 1 (daysInMonth year month) (← mark? '-' rest)
  return rest

/-- Skips the fraction of a second, if there is one. -/
def skipFraction : List Char → List Char
  | '.' :: rest =>
      match rest.span Char.isDigit with
      | ([], _) => '.' :: rest
      | (_, rest) => rest
  | rest => rest

/-- Skips a time of day. -/
def skipTime? (chars : List Char) : Option (List Char) := do
  let (_, rest) ← fixed? 2 0 23 chars
  let (_, rest) ← fixed? 2 0 59 (← mark? ':' rest)
  let (_, rest) ← fixed? 2 0 60 (← mark? ':' rest)
  return skipFraction rest

/-- Skips the distance from UTC, if there is one. -/
def skipZone (chars : List Char) : List Char :=
  match chars with
  | 'Z' :: rest => rest
  | 'z' :: rest => rest
  | '+' :: rest => (distance? rest).getD chars
  | '-' :: rest => (distance? rest).getD chars
  | _ => chars
where
  /-- Hours and minutes. -/
  distance? (chars : List Char) : Option (List Char) := do
    let (_, rest) ← fixed? 2 0 23 chars
    let (_, rest) ← fixed? 2 0 59 (← mark? ':' rest)
    return rest

/-- Skips a date, a time, or a date with a time. -/
def skipMoment? (chars : List Char) : Option (List Char) :=
  match skipDate? chars with
  | none => skipTime? chars
  | some rest =>
      match rest with
      | delimiter :: behind =>
          if delimiter = 'T' ∨ delimiter = 't' ∨ delimiter = ' ' then
            some (((skipTime? behind).map skipZone).getD rest)
          else some rest
      | [] => some []

/-- A date or a time, and what follows it. -/
def moment? (chars : List Char) : Option (Data × List Char) :=
  (skipMoment? chars).map fun rest =>
    (.record [("date", .text (String.ofList (chars.take (chars.length - rest.length))))], rest)

end Checkout.Toml
