import Checkout.Data

/-!
# Writing TOML

Tables are written for people: a header, a line for each member, a blank line between tables. A text
is written in the form that needs the fewest escapes: between double quotes if it needs none, else as
a literal text, else the same over several lines; only where nothing else is left are characters
escaped. An array of two or more items has a line for each.
-/

namespace Checkout.Toml

/-- The length of the longest run of a character. -/
def longestRun (mark : Char) (chars : List Char) : Nat :=
  go 0 chars
where
  /-- The longest run, if the one that goes on has `current` characters already. -/
  go (current : Nat) : List Char → Nat
    | [] => current
    | char :: rest => if char = mark then go (current + 1) rest else max current (go 0 rest)

/-- Whether a character can only be written as an escape. -/
def needsEscape (char : Char) : Bool :=
  (char.toNat < 0x20 && char ≠ '\t' && char ≠ '\n') || char.toNat = 0x7F

/-- The escape of a character that has no letter of its own. -/
def controlEscape (char : Char) : List Char :=
  let digits := (Nat.toDigits 16 char.toNat).map Char.toUpper
  ['\\', 'u'] ++ List.replicate (4 - digits.length) '0' ++ digits

/-- The characters of a text in basic form, after `quotes` quotes side by side. Up to `bearable` of
them may stay as they are, and over several lines so does a line feed. -/
def escapeBasic (lines : Bool) (bearable : Nat) : Nat → List Char → List Char
  | _, [] => []
  | quotes, char :: rest =>
      if char = '"' then
        if quotes < bearable then '"' :: escapeBasic lines bearable (quotes + 1) rest
        else '\\' :: '"' :: escapeBasic lines bearable 0 rest
      else
        let written :=
          if char = '\x08' then ['\\', 'b']
          else if char = '\t' then ['\\', 't']
          else if char = '\n' then (if lines then ['\n'] else ['\\', 'n'])
          else if char = '\x0c' then ['\\', 'f']
          else if char = '\r' then ['\\', 'r']
          else if char = '\\' then ['\\', '\\']
          else if needsEscape char then controlEscape char
          else [char]
        written ++ escapeBasic lines bearable 0 rest

/-- A text on one line, with escapes. -/
def basic (chars : List Char) : List Char :=
  ['"'] ++ escapeBasic false 0 0 chars ++ ['"']

/-- The line end that keeps the line feeds of a text together. -/
def opening (chars : List Char) : List Char :=
  if chars.contains '\n' then ['\n'] else []

/-- A text over several lines, with escapes. -/
def basicLines (chars : List Char) : List Char :=
  ['"', '"', '"'] ++ opening chars ++ escapeBasic true 2 0 chars ++ ['"', '"', '"']

/-- A text on one line, as it is. -/
def literal (chars : List Char) : List Char :=
  ['\''] ++ chars ++ ['\'']

/-- A text over several lines, as it is. -/
def literalLines (chars : List Char) : List Char :=
  ['\'', '\'', '\''] ++ opening chars ++ chars ++ ['\'', '\'', '\'']

/-- A text in the form that suits it best. -/
def renderText (text : String) : String :=
  let chars := text.toList
  let controls := chars.any needsEscape
  let backslashes := chars.contains '\\'
  let lineFeeds := chars.contains '\n'
  let doubles := longestRun '"' chars
  let singles := longestRun '\'' chars
  String.ofList
    (if !controls && !backslashes && doubles = 0 && !lineFeeds then basic chars
    else if !controls && singles = 0 && !lineFeeds then literal chars
    else if !controls && !backslashes && doubles ≤ 2 then basicLines chars
    else if !controls && singles ≤ 2 then literalLines chars
    else if lineFeeds then basicLines chars
    else basic chars)

/-- A value that is no list and no record; those have no form on one line here. -/
def renderScalar : Data → String
  | .flag value => if value then "true" else "false"
  | .integer value => toString value
  | .decimal literal => literal
  | .text value => renderText value
  | _ => ""

/-- A value behind its key. -/
def renderValue : Data → String
  | .list [] => "[]"
  | .list [item] => "[" ++ renderScalar item ++ "]"
  | .list items =>
      "[\n" ++ String.join (items.map fun item => "    " ++ renderScalar item ++ ",\n") ++ "]"
  | value => renderScalar value

/-- A table under its header. -/
def renderTable (name : String) (members : List (String × Data)) : String :=
  "[" ++ name ++ "]\n" ++
    String.join (members.map fun (key, value) => key ++ " = " ++ renderValue value ++ "\n")

/-- A document of tables of scalars and lists of scalars, whose names need no quotes. -/
def render (tables : List (String × List (String × Data))) : String :=
  String.intercalate "\n" (tables.map fun (name, members) => renderTable name members)

end Checkout.Toml
