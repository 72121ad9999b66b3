/-!
# Plain data

The values that a document can spell, whichever notation it is written in. Records keep their
members in order, and may name a member twice; a reader of a record decides what that means.
-/

namespace Checkout

/-- A value without behaviour. -/
inductive Data where
  /-- No value. -/
  | null
  /-- A truth value. -/
  | flag (value : Bool)
  /-- A number written without fraction and exponent. -/
  | integer (value : Int)
  /-- Any other number, as it is written. -/
  | decimal (literal : String)
  /-- A text. -/
  | text (value : String)
  /-- Values in order. -/
  | list (items : List Data)
  /-- Named values in order. -/
  | record (members : List (String × Data))
  deriving Inhabited

namespace Data

/-- The member called `name`: absent, or present once. A repeated member is refused. -/
def memberOnce? (name : String) (members : List (String × Data)) : Option (Option Data) :=
  match members.filter (fun member => member.1 = name) with
  | [] => some none
  | [member] => some (some member.2)
  | _ => none

/--
The values of the fields called `names`, absent ones as `none`. A record gives them by name, whatever
else it holds; a list gives them in the order of `names`, and with `exact` must not hold more.
-/
def fields? (names : List String) (exact : Bool) : Data → Option (List (Option Data))
  | .record members => names.mapM fun name => memberOnce? name members
  | .list items =>
      if exact && names.length < items.length then none
      else some ((List.range names.length).map fun index => items[index]?)
  | _ => none

/-- A truth value. -/
def flag? : Data → Option Bool
  | .flag value => some value
  | _ => none

/-- A text. -/
def text? : Data → Option String
  | .text value => some value
  | _ => none

/-- A whole number from zero to below `bound`. -/
def natural? (bound : Nat) : Data → Option Nat
  | .integer value => if 0 ≤ value ∧ value < bound then some value.toNat else none
  | _ => none

/-- A list of texts. -/
def texts? : Data → Option (List String)
  | .list items => items.mapM text?
  | _ => none

/-- A value that may be missing: left out, or null. -/
def optional? (read : Data → Option α) : Option Data → Option (Option α)
  | none => some none
  | some .null => some none
  | some value => (read value).map some

/-- A value that has a default when it is left out. -/
def withDefault? (default : α) (read : Data → Option α) : Option Data → Option α
  | none => some default
  | some value => read value

/-- A value that has to be there. -/
def required? (read : Data → Option α) (field : Option Data) : Option α :=
  field.bind read

/-- A choice among named alternatives: its name, or a record of the name and nothing. -/
def choice? (find : String → Option α) : Data → Option α
  | .text name => find name
  | .record [(name, .null)] => find name
  | _ => none

/-- The member of a text that may be missing. -/
def optionalMember (name : String) (value : Option String) : List (String × Data) :=
  (value.map fun text => (name, Data.text text)).toList

end Data

end Checkout
