import Checkout.Data

/-!
# Writing JSON

Documents are written for people: one item or member a line, indented by two spaces a level. Empty
lists and records stay on one line. In a text only quotes, backslashes and control characters are
escaped.
-/

namespace Checkout.Json

/-- The escape of a control character that has no letter of its own. -/
def controlEscape (char : Char) : List Char :=
  let digits := Nat.toDigits 16 char.toNat
  ['\\', 'u'] ++ List.replicate (4 - digits.length) '0' ++ digits

/-- One character of a text. -/
def escape (char : Char) : List Char :=
  if char = '"' then ['\\', '"']
  else if char = '\\' then ['\\', '\\']
  else if char = '\x08' then ['\\', 'b']
  else if char = '\x0c' then ['\\', 'f']
  else if char = '\n' then ['\\', 'n']
  else if char = '\r' then ['\\', 'r']
  else if char = '\t' then ['\\', 't']
  else if char.toNat < 0x20 then controlEscape char
  else [char]

/-- A text between double quotes. -/
def quote (text : String) : String :=
  String.ofList ('"' :: text.toList.flatMap escape ++ ['"'])

/-- The start of a line, `level` levels deep. -/
def lineStart (level : Nat) : String :=
  String.ofList ('\n' :: List.replicate (2 * level) ' ')

/-- Parts between brackets, each on a line of its own. -/
def block (level : Nat) (opening closing : String) : List String → String
  | [] => opening ++ closing
  | parts =>
      opening ++ lineStart (level + 1) ++ String.intercalate ("," ++ lineStart (level + 1)) parts ++
        lineStart level ++ closing

mutual

/-- A value, `level` levels deep. -/
def renderAt (level : Nat) : Data → String
  | .null => "null"
  | .flag value => if value then "true" else "false"
  | .integer value => toString value
  | .decimal literal => literal
  | .text value => quote value
  | .list items => block level "[" "]" (renderItems (level + 1) items)
  | .record members => block level "\x7b" "\x7d" (renderMembers (level + 1) members)

/-- The items of a list. -/
def renderItems (level : Nat) : List Data → List String
  | [] => []
  | item :: rest => renderAt level item :: renderItems level rest

/-- The members of a record. -/
def renderMembers (level : Nat) : List (String × Data) → List String
  | [] => []
  | (name, value) :: rest =>
      (quote name ++ ": " ++ renderAt level value) :: renderMembers level rest

end

/-- A document. -/
def render (value : Data) : String :=
  renderAt 0 value

end Checkout.Json
