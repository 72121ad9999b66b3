/-!
# Keywords without regard to letter case

Names of kinds, depths and failures are recognised in any letter case. A keyword is ASCII, so only
the letters whose lower-case form is ASCII matter: `A` to `Z` and U+212A KELVIN SIGN. Every other
character has a lower-case form with a character outside ASCII and can be left as it is.
-/

namespace Checkout

/-- The lower-case form of a letter, as far as it can occur in a keyword. -/
def foldCase (char : Char) : Char :=
  if char.toNat = 0x212A then 'k' else char.toLower

/-- The form in which a text is compared with keywords. -/
def keyword (text : String) : String :=
  String.ofList (text.toList.map foldCase)

example : keyword "Svn.Simple" = "svn.simple" := by decide

end Checkout
