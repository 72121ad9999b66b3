import Checkout.Text.Visible

/-!
# Quoted text

A text between double quotes in which every character that cannot be seen is written as an escape:
the usual short ones, else the code point in hexadecimal between braces.
-/

namespace Checkout

/-- One character inside quotes. -/
def escapeQuoted (char : Char) : List Char :=
  if char = '\x00' then ['\\', '0']
  else if char = '\t' then ['\\', 't']
  else if char = '\n' then ['\\', 'n']
  else if char = '\r' then ['\\', 'r']
  else if char = '"' then ['\\', '"']
  else if char = '\\' then ['\\', '\\']
  else if isVisible char then [char]
  else ['\\', 'u', '\x7b'] ++ Nat.toDigits 16 char.toNat ++ ['\x7d']

/-- The text between double quotes. -/
def quoted (text : String) : String :=
  String.ofList ('"' :: text.toList.flatMap escapeQuoted ++ ['"'])

end Checkout
