/-!
# Blank characters

The white space of Unicode, which user-supplied names may carry at either end.
-/

namespace Checkout

/-- White space in the sense of the Unicode property `White_Space`. -/
def isBlank (char : Char) : Bool :=
  let code := char.toNat
  (9 ≤ code && code ≤ 13) || code == 0x20 || code == 0x85 || code == 0xA0 || code == 0x1680 ||
    (0x2000 ≤ code && code ≤ 0x200A) || code == 0x2028 || code == 0x2029 || code == 0x202F ||
    code == 0x205F || code == 0x3000

/-- The characters from the first one that is not blank. -/
def dropBlank (chars : List Char) : List Char :=
  chars.dropWhile isBlank

/-- The text without blank characters at its ends. -/
def trimBlank (text : String) : String :=
  String.ofList (dropBlank (dropBlank text.toList).reverse).reverse

/-- The text without any `char` at its end. -/
def trimEnd (char : Char) (text : String) : String :=
  String.ofList (text.toList.reverse.dropWhile (· == char)).reverse

end Checkout
