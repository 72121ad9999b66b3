import Checkout.Text.Blank
import Checkout.Timestamp.Basic

/-!
# Reading points in time

A lenient form of RFC 3339: blanks may stand in front of each number and separator, the date and the
time may be separated by a space or a small letter, the zone may be `UTC` or have blanks for its
colon, and a year may carry a sign and more digits.
-/

namespace Checkout.Timestamp

/-- A number of one to `width` digits after blanks. -/
def number? (width : Nat) (chars : List Char) : Option (Nat × List Char) :=
  let chars := dropBlank chars
  let digits := (chars.take width).takeWhile Char.isDigit
  (decimal? digits).map fun value => (value, chars.drop digits.length)

/-- A number of one to `width` digits within bounds. -/
def numberWithin? (width low high : Nat) (chars : List Char) : Option (Nat × List Char) :=
  (number? width chars).filter fun (value, _) => low ≤ value && value ≤ high

/-- A separator after blanks. -/
def separator? (separator : Char) (chars : List Char) : Option (List Char) :=
  match dropBlank chars with
  | char :: rest => if char = separator then some rest else none
  | [] => none

/-- A year: up to four digits, or a sign and any number of digits. -/
def year? (chars : List Char) : Option (Int × List Char) :=
  match dropBlank chars with
  | '-' :: rest => signed? (-1) rest
  | '+' :: rest => signed? 1 rest
  | rest => (number? 4 rest).map fun (value, rest) => ((value : Int), rest)
where
  /-- The digits after a sign stand directly behind it. -/
  signed? (sign : Int) (chars : List Char) : Option (Int × List Char) :=
    let digits := chars.takeWhile Char.isDigit
    (decimal? digits).map fun value => (sign * value, chars.drop digits.length)

/-- The fraction of a second; digits beyond the ninth are dropped. -/
def fraction? : List Char → Option (Nat × List Char)
  | '.' :: rest =>
      let digits := rest.takeWhile Char.isDigit
      let kept := digits.take 9
      (decimal? kept).map fun value => (value * Nat.pow 10 (9 - kept.length), rest.drop digits.length)
  | rest => some (0, rest)

/-- Two digits side by side. -/
def twoDigits? : List Char → Option (Nat × List Char)
  | tens :: ones :: rest => (decimal? [tens, ones]).map (·, rest)
  | _ => none

/-- The distance of a zone from UTC in minutes. -/
def zone? (chars : List Char) : Option (Int × List Char) :=
  match dropBlank chars with
  | 'Z' :: rest => some (0, rest)
  | 'z' :: rest => some (0, rest)
  | '+' :: rest => distance? 1 rest
  | '-' :: rest => distance? (-1) rest
  | '\u2212' :: rest => distance? (-1) rest
  | u :: t :: c :: rest =>
      if [u, t, c].map Char.toUpper = ['U', 'T', 'C'] then some (0, rest) else none
  | _ => none
where
  /-- Hours and minutes; a clock is less than a day away from UTC. -/
  distance? (sign : Int) (chars : List Char) : Option (Int × List Char) := do
    let (hours, rest) ← twoDigits? chars
    let rest := rest.dropWhile fun char => char = ':' || isBlank char
    let (minutes, rest) ← twoDigits? rest
    if 59 < minutes ∨ 23 < hours then none
    return (sign * (hours * 60 + minutes : Nat), rest)

/-- The point in time that a text names. -/
def parse? (text : String) : Option Timestamp := do
  let (year, rest) ← year? text.toList
  let (month, rest) ← numberWithin? 2 1 12 (← separator? '-' rest)
  let (day, rest) ← numberWithin? 2 1 31 (← separator? '-' rest)
  let rest ← match rest with
    | 'T' :: rest => some rest
    | 't' :: rest => some rest
    | ' ' :: rest => some rest
    | _ => none
  let (hour, rest) ← numberWithin? 2 0 23 rest
  let (minute, rest) ← numberWithin? 2 0 59 (← separator? ':' rest)
  let (second, rest) ← numberWithin? 2 0 60 (← separator? ':' rest)
  let (nanosecond, rest) ← fraction? rest
  let (offset, rest) ← zone? rest
  let date : CalendarDate := { year, month, day }
  if dropBlank rest ≠ [] ∨ !date.valid then none
  fromZone? offset { date, hour, minute, second, nanosecond }

example : (parse? "1969-12-31T23:59:59+02:00").map render = some "1969-12-31T21:59:59Z" := by decide

end Checkout.Timestamp
