import Checkout.Text.OsText

/-!
# Arguments as they are written

An argument is a word, an option or the mark `--` behind which every argument is a word. A long option
starts with two hyphens and may have a value joined to it by an equals sign; a short one starts with
one hyphen, and several letters may share it. A single hyphen is a word. None of this needs an argument
to be UTF-8.
-/

namespace Checkout.CommandLine

/-- What an argument looks like. -/
inductive Token where
  /-- The mark behind which every argument is a word. -/
  | escape
  /-- A long option, with the value joined to it. -/
  | long (name : OsText) (value : Option OsText)
  /-- The letters of short options. -/
  | short (letters : OsText)
  /-- Anything else. -/
  | word (text : OsText)
  deriving DecidableEq, Repr

/-- The byte of a hyphen. -/
def hyphen : UInt8 := 45

/-- The byte of an equals sign. -/
def equals : UInt8 := 61

namespace Token

/-- A long option behind its hyphens. -/
def longOption (bytes : List UInt8) : Token :=
  let name : OsText := ⟨bytes.takeWhile (· ≠ equals)⟩
  match bytes.dropWhile (· ≠ equals) with
  | [] => .long name none
  | _ :: value => .long name (some ⟨value⟩)

/-- What an argument looks like. -/
def ofArgument (argument : OsText) : Token :=
  match argument.bytes with
  | [45, 45] => .escape
  | 45 :: 45 :: bytes => longOption bytes
  | [45] => .word argument
  | 45 :: letters => .short ⟨letters⟩
  | _ => .word argument

/-- The argument that an option without a joined value takes as its value, if it can be one. -/
def asValue? (argument : OsText) : Option OsText :=
  match ofArgument argument with
  | .word text => some text
  | _ => none

end Token

/-- Whether an argument starts with a hyphen. -/
def isHyphenated (argument : OsText) : Bool :=
  argument.bytes.head? = some hyphen

end Checkout.CommandLine
