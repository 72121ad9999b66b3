import Checkout.Error

/-!
# Depths

How far below a directory its locks reach.
-/

namespace Checkout

/-- How far an operation descends. -/
inductive Depth where
  /-- The directory itself. -/
  | empty
  /-- The directory and its files, which its own lock covers. -/
  | files
  /-- The directory and its child directories. -/
  | immediates
  /-- The directory and everything below it. -/
  | infinity
  deriving DecidableEq, Repr, Inhabited

namespace Depth

/-- Every depth. -/
def all : List Depth := [.empty, .files, .immediates, .infinity]

/-- The name of a depth. -/
def name : Depth → String
  | .empty => "empty"
  | .files => "files"
  | .immediates => "immediates"
  | .infinity => "infinity"

/-- The depth at which child directories are locked, if they are. -/
def child? : Depth → Option Depth
  | .empty | .files => none
  | .immediates => some .empty
  | .infinity => some .infinity

/-- The depth with exactly this name. -/
def ofName? (name : String) : Option Depth :=
  all.find? fun depth => depth.name = name

/-- The depth a user means, or why there is none. -/
def parse (text : String) : Except Error Depth :=
  match keyword text with
  | "empty" => .ok .empty
  | "files" => .ok .files
  | "immediates" => .ok .immediates
  | "infinity" | "infinite" => .ok .infinity
  | _ => .error (.invalidArgument ("Invalid depth '" ++ text ++
      "'. Expected: empty, files, immediates, infinity"))

end Depth

end Checkout
