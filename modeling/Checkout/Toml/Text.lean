import Checkout.Text.Digits

/-!
# Texts in TOML

A basic text stands between double quotes and knows escapes; a literal text stands between single
quotes and does not. Between three quotes either may go on over several lines. A line end counts as a
line feed, and the one directly behind the opening quotes does not count at all.
-/

namespace Checkout.Toml

/-- Whether a character may stand for itself in a text or a comment. -/
def isPlain (char : Char) : Bool :=
  char = '\t' || (0x20 ≤ char.toNat && char.toNat ≠ 0x7F)

/-- Skips the blanks within a line. -/
def skipBlank (chars : List Char) : List Char :=
  chars.dropWhile fun char => char = ' ' || char = '\t'

/-- Skips a line end, if there is one. -/
def skipLineEnd : List Char → List Char
  | '\n' :: rest => rest
  | '\r' :: '\n' :: rest => rest
  | rest => rest

/-- Whether only blanks stand in front of the end of the line. -/
def endsLine (chars : List Char) : Bool :=
  match skipBlank chars with
  | '\n' :: _ => true
  | '\r' :: '\n' :: _ => true
  | _ => false

/-- The character of a short escape. -/
def shortEscape? : Char → Option Char
  | 'b' => some '\x08'
  | 't' => some '\t'
  | 'n' => some '\n'
  | 'f' => some '\x0c'
  | 'r' => some '\r'
  | '"' => some '"'
  | '\\' => some '\\'
  | _ => none

/-- The character with a code point in hexadecimal. -/
def codePoint? (digits : List Char) : Option Char := do
  let code ← hexFrom? 0 digits
  if code.isValidChar then some (Char.ofNat code) else none

/-- A character in front of the characters of a text. -/
def consChar (char : Char) : List Char × List Char → List Char × List Char
  | (text, rest) => (char :: text, rest)

/--
A basic text after its opening quotes: its characters, and what follows its closing quotes. With
`skipping`, blanks and line ends are dropped, as they are behind an escaped line end. One or two quotes
may stand directly in front of the closing three.
-/
def basicBody (lines : Bool) : Bool → List Char → Option (List Char × List Char)
  | _, [] => none
  | _, '"' :: rest =>
      if !lines then some ([], rest)
      else match rest with
        | '"' :: '"' :: '"' :: '"' :: rest => some (['"', '"'], rest)
        | '"' :: '"' :: '"' :: rest => some (['"'], rest)
        | '"' :: '"' :: rest => some ([], rest)
        | rest => (basicBody lines false rest).map (consChar '"')
  | _, '\\' :: rest =>
      if lines ∧ endsLine rest then basicBody lines true rest
      else match rest with
        | 'u' :: a :: b :: c :: d :: rest => do
            let char ← codePoint? [a, b, c, d]
            (basicBody lines false rest).map (consChar char)
        | 'U' :: a :: b :: c :: d :: e :: f :: g :: h :: rest => do
            let char ← codePoint? [a, b, c, d, e, f, g, h]
            (basicBody lines false rest).map (consChar char)
        | letter :: rest => do
            let char ← shortEscape? letter
            (basicBody lines false rest).map (consChar char)
        | [] => none
  | skipping, '\r' :: '\n' :: rest =>
      if !lines then none
      else if skipping then basicBody lines true rest
      else (basicBody lines false rest).map (consChar '\n')
  | skipping, char :: rest =>
      if skipping ∧ (char = ' ' ∨ char = '\t' ∨ char = '\n') then basicBody lines true rest
      else if isPlain char ∨ (lines ∧ char = '\n') then
        (basicBody lines false rest).map (consChar char)
      else none

/-- A literal text after its opening quotes: its characters, and what follows its closing quotes. -/
def literalBody (lines : Bool) : List Char → Option (List Char × List Char)
  | [] => none
  | '\'' :: rest =>
      if !lines then some ([], rest)
      else match rest with
        | '\'' :: '\'' :: '\'' :: '\'' :: rest => some (['\'', '\''], rest)
        | '\'' :: '\'' :: '\'' :: rest => some (['\''], rest)
        | '\'' :: '\'' :: rest => some ([], rest)
        | rest => (literalBody lines rest).map (consChar '\'')
  | '\r' :: '\n' :: rest =>
      if lines then (literalBody lines rest).map (consChar '\n') else none
  | char :: rest =>
      if isPlain char ∨ (lines ∧ char = '\n') then (literalBody lines rest).map (consChar char)
      else none

/-- A text on one line, and what follows it. -/
def lineText? : List Char → Option (String × List Char)
  | '"' :: rest => (basicBody false false rest).map fun (text, rest) => (String.ofList text, rest)
  | '\'' :: rest => (literalBody false rest).map fun (text, rest) => (String.ofList text, rest)
  | _ => none

/-- A text, and what follows it. -/
def text? : List Char → Option (String × List Char)
  | '"' :: '"' :: '"' :: rest =>
      (basicBody true false (skipLineEnd rest)).map fun (text, rest) => (String.ofList text, rest)
  | '\'' :: '\'' :: '\'' :: rest =>
      (literalBody true (skipLineEnd rest)).map fun (text, rest) => (String.ofList text, rest)
  | rest => lineText? rest

end Checkout.Toml
