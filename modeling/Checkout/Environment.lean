import Checkout.Text.Blank
import Checkout.Text.OsText

/-!
# Environment variables
-/

namespace Checkout

/-- The environment of a process. -/
structure Environment where
  /-- The variables with their values. -/
  entries : List (String × OsText)
  /-- The home directory that the system knows for the account. -/
  accountHome : Option OsText := none
  deriving DecidableEq, Repr, Inhabited

namespace Environment

/-- The value of a variable. -/
def get? (environment : Environment) (name : String) : Option OsText :=
  environment.entries.lookup name

/-- The value of a variable, unless it is empty. -/
def nonempty? (environment : Environment) (name : String) : Option OsText :=
  (environment.get? name).filter (· ≠ "")

/-- The value of a variable, unless it is not UTF-8. -/
def text? (environment : Environment) (name : String) : Option String :=
  (environment.get? name).bind OsText.text?

/-- The environment without a variable. -/
def unset (environment : Environment) (name : String) : Environment :=
  { environment with entries := environment.entries.filter fun entry => entry.1 ≠ name }

/-- The environment with a variable set. -/
def set (environment : Environment) (name : String) (value : OsText) : Environment :=
  { environment with entries := (name, value) :: (environment.unset name).entries }

/-- The user's name: the first of `USER` and `USERNAME` that is not blank, without outer blanks. -/
def userName? (environment : Environment) : Option String :=
  (["USER", "USERNAME"].filterMap fun name => (environment.text? name).map trimBlank).find? (· ≠ "")

/-- The user's home directory: what `HOME` names, else what the system knows. -/
def home? (environment : Environment) : Option OsText :=
  environment.nonempty? "HOME" <|> environment.accountHome

end Environment

end Checkout
