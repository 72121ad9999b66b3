import Checkout.Toml.Scalar
import Checkout.Toml.Text
import Checkout.Toml.Tree

/-!
# Keys and values in TOML

Arrays may go on over lines and hold comments, and may end in a comma; inline tables stay on one line.
Keys and values are nested less than eighty deep.
-/

namespace Checkout.Toml

/-- How deep values may be nested, and how many parts a dotted key may have: less than this. -/
def nestingLimit : Nat := 80

/-- Skips blanks, line ends and comments. A comment has to end with its line. -/
def skipLines : Bool → List Char → Option (List Char)
  | _, '\n' :: rest => skipLines false rest
  | _, '\r' :: '\n' :: rest => skipLines false rest
  | true, char :: rest => if isPlain char then skipLines true rest else none
  | true, [] => none
  | false, '#' :: rest => skipLines true rest
  | false, ' ' :: rest => skipLines false rest
  | false, '\t' :: rest => skipLines false rest
  | false, rest => some rest

/-- Whether a character may stand in a key without quotes. -/
def isBare (char : Char) : Bool :=
  char.isAlphanum || char = '-' || char = '_'

/-- One part of a key. -/
def keyPart? (chars : List Char) : Option (String × List Char) :=
  match chars with
  | '"' :: _ => lineText? chars
  | '\'' :: _ => lineText? chars
  | _ =>
      match chars.span isBare with
      | ([], _) => none
      | (name, rest) => some (String.ofList name, rest)

/-- At most `bound` parts of a dotted key; blanks around them do not count. -/
def keyParts? : Nat → List Char → Option (List String × List Char)
  | 0, _ => none
  | bound + 1, chars => do
      let (part, rest) ← keyPart? (skipBlank chars)
      match skipBlank rest with
      | '.' :: rest => do
          let (parts, rest) ← keyParts? bound rest
          return (part :: parts, rest)
      | rest => return ([part], rest)

/-- A dotted key, and what follows it. -/
def key? (chars : List Char) : Option (List String × List Char) :=
  keyParts? (nestingLimit - 1) chars

mutual

/-- A value inside of `depth` others, and what follows it. -/
def value? : Nat → Nat → List Char → Option (Data × List Char)
  | 0, _, _ => none
  | fuel + 1, depth, chars =>
      match chars with
      | '"' :: _ => (text? chars).map fun (text, rest) => (.text text, rest)
      | '\'' :: _ => (text? chars).map fun (text, rest) => (.text text, rest)
      | 't' :: 'r' :: 'u' :: 'e' :: rest => some (.flag true, rest)
      | 'f' :: 'a' :: 'l' :: 's' :: 'e' :: rest => some (.flag false, rest)
      | '[' :: rest => do
          if nestingLimit ≤ depth + 1 then none
          let (items, rest) ← items? fuel (depth + 1) rest
          return (.list items, rest)
      | '\x7b' :: rest => do
          if nestingLimit ≤ depth + 1 then none
          let (members, rest) ← match skipBlank rest with
            | '\x7d' :: rest => some ([], rest)
            | rest => members? fuel (depth + 1) rest
          return (← inlineTable? members, rest)
      | _ => moment? chars <|> number? chars

/-- The items of an array up to its closing bracket. -/
def items? : Nat → Nat → List Char → Option (List Data × List Char)
  | 0, _, _ => none
  | fuel + 1, depth, chars => do
      match ← skipLines false chars with
      | ']' :: rest => return ([], rest)
      | rest => do
          let (item, rest) ← value? fuel depth rest
          match ← skipLines false rest with
          | ']' :: rest => return ([item], rest)
          | ',' :: rest => do
              let (items, rest) ← items? fuel depth rest
              return (item :: items, rest)
          | _ => none

/-- One or more members of an inline table up to its closing brace. -/
def members? : Nat → Nat → List Char → Option (List (List String × Data) × List Char)
  | 0, _, _ => none
  | fuel + 1, depth, chars => do
      let (key, rest) ← key? chars
      let (value, rest) ← value? fuel depth (skipBlank (← mark? '=' rest))
      match skipBlank rest with
      | '\x7d' :: rest => return ([(key, value)], rest)
      | ',' :: rest => do
          let (members, rest) ← members? fuel depth rest
          return ((key, value) :: members, rest)
      | _ => none

end

end Checkout.Toml
