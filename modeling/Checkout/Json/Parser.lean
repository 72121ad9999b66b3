import Checkout.Data
import Checkout.Text.Digits
import Checkout.Text.OsText

/-!
# Reading JSON

The grammar of RFC 8259. A text that is read must denote Unicode text: an escaped surrogate without
its partner is refused. A number without fraction and exponent is an integer, except `-0`, which only
a fractional number can be.

Whoever reads a record may pass over the members that are not known. These have to follow the grammar,
but their texts need not denote anything: surrogates may stand alone there, and bytes need not be
UTF-8.
-/

namespace Checkout.Json

/-- Skips the blanks of the grammar. -/
def skipBlank (chars : List Char) : List Char :=
  chars.dropWhile fun char => char = ' ' || char = '\n' || char = '\r' || char = '\t'

/-- The character of a short escape. -/
def shortEscape? : Char → Option Char
  | '"' => some '"'
  | '\\' => some '\\'
  | '/' => some '/'
  | 'b' => some '\x08'
  | 'f' => some '\x0c'
  | 'n' => some '\n'
  | 'r' => some '\r'
  | 't' => some '\t'
  | _ => none

/-- The code point of two surrogates. -/
def joinSurrogates (high low : Nat) : Nat :=
  0x10000 + (high - 0xD800) * 0x400 + (low - 0xDC00)

/-- The rest of a text after its opening quote: its characters, and what follows its closing quote. -/
def textBody : List Char → Option (List Char × List Char)
  | [] => none
  | '"' :: rest => some ([], rest)
  | '\\' :: 'u' :: a :: b :: c :: d :: rest => do
      let unit ← hexFrom? 0 [a, b, c, d]
      if 0xD800 ≤ unit ∧ unit < 0xDC00 then
        match rest with
        | '\\' :: 'u' :: e :: f :: g :: h :: rest => do
            let low ← hexFrom? 0 [e, f, g, h]
            if 0xDC00 ≤ low ∧ low < 0xE000 then
              let (text, rest) ← textBody rest
              return (Char.ofNat (joinSurrogates unit low) :: text, rest)
            else none
        | _ => none
      else if 0xDC00 ≤ unit ∧ unit < 0xE000 then none
      else
        let (text, rest) ← textBody rest
        return (Char.ofNat unit :: text, rest)
  | '\\' :: letter :: rest => do
      let char ← shortEscape? letter
      let (text, rest) ← textBody rest
      return (char :: text, rest)
  | char :: rest =>
      if char = '\\' ∨ char.toNat < 0x20 then none
      else do
        let (text, rest) ← textBody rest
        return (char :: text, rest)

/-- Passes over the rest of a text after its opening quote. If something is `garbled`, a NUL stands for
bytes that are not UTF-8. -/
def skipText (garbled : Bool) : List Char → Option (List Char)
  | [] => none
  | '"' :: rest => some rest
  | '\\' :: 'u' :: a :: b :: c :: d :: rest =>
      if (hexFrom? 0 [a, b, c, d]).isSome then skipText garbled rest else none
  | '\\' :: letter :: rest =>
      if (shortEscape? letter).isSome then skipText garbled rest else none
  | char :: rest =>
      if char = '\\' ∨ (char.toNat < 0x20 ∧ ¬(garbled ∧ char = '\x00')) then none
      else skipText garbled rest

/-- What is read of a value. -/
inductive Reader where
  /-- The value as it is. -/
  | all
  /-- Nothing, see `skipText` for `garbled`; the value is only passed over. -/
  | skip (garbled : Bool)
  /-- Of a record the members called `names`; any other value as it is. -/
  | known (names : List String) (garbled : Bool)

namespace Reader

/-- Reads the rest of a text after its opening quote: its characters, if they matter, and what follows its
closing quote. -/
def text : Reader → List Char → Option (List Char × List Char)
  | skip garbled => fun chars => (skipText garbled chars).map fun rest => ([], rest)
  | all | known _ _ => textBody

/-- What is read of the items of a list. -/
def item : Reader → Reader
  | skip garbled => skip garbled
  | all | known _ _ => all

/-- What is read of the member of a record. -/
def member (name : String) : Reader → Reader
  | all => all
  | skip garbled => skip garbled
  | known names garbled => if name ∈ names then all else skip garbled

end Reader

/-- The digits in front. -/
def digitsFirst (chars : List Char) : List Char × List Char :=
  chars.span Char.isDigit

/-- The fraction of a number, if there is one. -/
def fraction? : List Char → Option (List Char × List Char)
  | '.' :: rest =>
      match digitsFirst rest with
      | ([], _) => none
      | (digits, rest) => some ('.' :: digits, rest)
  | rest => some ([], rest)

/-- The exponent of a number, if there is one. -/
def exponent? : List Char → Option (List Char × List Char)
  | letter :: rest =>
      if letter = 'e' ∨ letter = 'E' then
        let (sign, rest) := match rest with
          | '+' :: rest => (['+'], rest)
          | '-' :: rest => (['-'], rest)
          | rest => ([], rest)
        match digitsFirst rest with
        | ([], _) => none
        | (digits, rest) => some (letter :: sign ++ digits, rest)
      else some ([], letter :: rest)
  | [] => some ([], [])

/-- A number without its sign. -/
def unsignedNumber? (negative : Bool) (chars : List Char) : Option (Data × List Char) := do
  let (digits, rest) := digitsFirst chars
  if digits = [] ∨ (digits.head? = some '0' ∧ digits ≠ ['0']) then none
  let (fraction, rest) ← fraction? rest
  let (exponent, rest) ← exponent? rest
  let sign := if negative then ['-'] else []
  if fraction = [] ∧ exponent = [] ∧ (negative → digits ≠ ['0']) then
    let magnitude ← decimal? digits
    return (.integer (if negative then -(magnitude : Int) else magnitude), rest)
  else
    return (.decimal (String.ofList (sign ++ digits ++ fraction ++ exponent)), rest)

mutual

/-- A value and what follows it, nested at most `fuel` deep and wide. -/
def value? (reader : Reader) : Nat → List Char → Option (Data × List Char)
  | 0, _ => none
  | fuel + 1, chars =>
      match skipBlank chars with
      | 'n' :: 'u' :: 'l' :: 'l' :: rest => some (.null, rest)
      | 't' :: 'r' :: 'u' :: 'e' :: rest => some (.flag true, rest)
      | 'f' :: 'a' :: 'l' :: 's' :: 'e' :: rest => some (.flag false, rest)
      | '"' :: rest => (reader.text rest).map fun (text, rest) => (.text (String.ofList text), rest)
      | '[' :: rest =>
          match skipBlank rest with
          | ']' :: rest => some (.list [], rest)
          | rest => (items? reader.item fuel rest).map fun (items, rest) => (.list items, rest)
      | '\x7b' :: rest =>
          match skipBlank rest with
          | '\x7d' :: rest => some (.record [], rest)
          | rest => (members? reader fuel rest).map fun (members, rest) => (.record members, rest)
      | '-' :: rest => unsignedNumber? true rest
      | rest => unsignedNumber? false rest

/-- One or more items up to the closing bracket. -/
def items? (reader : Reader) : Nat → List Char → Option (List Data × List Char)
  | 0, _ => none
  | fuel + 1, chars => do
      let (item, rest) ← value? reader fuel chars
      match skipBlank rest with
      | ']' :: rest => return ([item], rest)
      | ',' :: rest => do
          let (items, rest) ← items? reader fuel rest
          return (item :: items, rest)
      | _ => none

/-- One or more members up to the closing brace. -/
def members? (reader : Reader) : Nat → List Char → Option (List (String × Data) × List Char)
  | 0, _ => none
  | fuel + 1, chars =>
      match skipBlank chars with
      | '"' :: rest => do
          let (name, rest) ← reader.text rest
          match skipBlank rest with
          | ':' :: rest => do
              let (value, rest) ← value? (reader.member (String.ofList name)) fuel rest
              let member := (String.ofList name, value)
              match skipBlank rest with
              | '\x7d' :: rest => return ([member], rest)
              | ',' :: rest => do
                  let (members, rest) ← members? reader fuel rest
                  return (member :: members, rest)
              | _ => none
          | _ => none
      | _ => none

end

/-- What is read of a whole document. A character opens at most two levels of the grammar, so twice the
length of the document bounds the recursion. -/
def document? (reader : Reader) (chars : List Char) : Option Data :=
  (value? reader (2 * chars.length + 2) chars).bind fun (value, rest) =>
    if skipBlank rest = [] then some value else none

/-- The value a document denotes. -/
def parse? (document : String) : Option Data :=
  document? .all document.toList

/-- The characters of a document, in which a NUL stands for bytes that are not UTF-8. A NUL that is one
becomes another character that must not occur anywhere. -/
def garbledChars (document : OsText) : List Char :=
  document.readings.map fun
    | .ok char => if char = '\x00' then '\x01' else char
    | .error _ => '\x00'

/-- The value a document denotes, for a reader of records that knows the members called `names`. -/
def parseKnown? (names : List String) (document : OsText) : Option Data :=
  match document.text? with
  | some text => document? (.known names false) text.toList
  | none => document? (.known names true) (garbledChars document)

end Checkout.Json
