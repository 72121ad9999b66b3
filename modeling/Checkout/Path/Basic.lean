import Checkout.Text.OsText

/-!
# Paths as they are written

A path keeps the text its author wrote, which need not be UTF-8. Its meaning is a list of components:
repeated slashes, a trailing slash and a `.` that is not in front do not count, while `..` does, since only a
file system can tell what it leads to. Paths are compared component by component, so `a/z` comes before
`a-b`.
-/

namespace Checkout

/-- A path as written. -/
structure Path where
  text : OsText
  deriving DecidableEq, Repr, Inhabited

/-- One step of a path. -/
inductive Component where
  /-- The slash in front of an absolute path. -/
  | root
  /-- A `.` in front of a relative path. -/
  | here
  /-- A `..`. -/
  | up
  /-- The name of an entry. -/
  | name (text : OsText)
  deriving DecidableEq, Repr, Inhabited

/-- Pieces of a list between occurrences of `mark`. -/
def pieces [DecidableEq α] (mark : α) : List α → List (List α)
  | [] => [[]]
  | item :: rest =>
      if item = mark then [] :: pieces mark rest
      else match pieces mark rest with
        | [] => [[item]]
        | first :: others => (item :: first) :: others

namespace Component

/-- The place of a component among components of other forms. -/
def rank : Component → Nat
  | .root => 0
  | .here => 1
  | .up => 2
  | .name _ => 3

/-- The order of components: by form, names by their bytes. -/
def order : Component → Component → Ordering
  | .name left, .name right => compare left right
  | left, right => compare left.rank right.rank

end Component

namespace Path

/-- The path as it is shown to people. -/
def shown (path : Path) : String :=
  path.text.shown

/-- The pieces between slashes. -/
def segments (path : Path) : List OsText :=
  (pieces OsText.slash path.text.bytes).map OsText.mk

/-- Whether the path starts at the root. -/
def isAbsolute (path : Path) : Bool :=
  path.text.bytes.head? = some OsText.slash

/-- The pieces between slashes behind the root. -/
def body (path : Path) : List OsText :=
  if path.isAbsolute then path.segments.drop 1 else path.segments

/-- The component of a piece that is not in front of a relative path. -/
def component? (segment : OsText) : Option Component :=
  if segment = "" ∨ segment = "." then none
  else if segment = ".." then some .up
  else some (.name segment)

/-- The meaning of a path. -/
def components (path : Path) : List Component :=
  if path.isAbsolute then .root :: path.body.filterMap component?
  else if path.body.head? = some ("." : OsText) then .here :: path.body.filterMap component?
  else path.body.filterMap component?

/-- Whether two paths have the same meaning. -/
def same (left right : Path) : Bool :=
  left.components = right.components

/-- The order of paths: by their components. -/
def order (left right : Path) : Ordering :=
  List.compareLex Component.order left.components right.components

/-- Whether `path` lies at or below `top`. -/
def isUnder (path top : Path) : Bool :=
  top.components.isPrefixOf path.components

/-- Drops, from the back, the pieces that have no component. -/
def dropIdle (absolute : Bool) : List OsText → List OsText
  | [] => []
  | segment :: rest =>
      if segment = "" ∨ (segment = "." ∧ (absolute ∨ rest ≠ [])) then dropIdle absolute rest
      else segment :: rest

/-- The path up to and including the last of some reversed pieces. -/
def rebuild (absolute : Bool) (reversed : List OsText) : Path :=
  ⟨(if absolute then "/" else "") ++ OsText.intercalate "/" reversed.reverse⟩

/-- The path without its last component; there is none of the root and of the empty path. -/
def parent? (path : Path) : Option Path :=
  match dropIdle path.isAbsolute path.body.reverse with
  | [] => none
  | _ :: rest => some (rebuild path.isAbsolute (dropIdle path.isAbsolute rest))

/-- The last component, if it is a name. -/
def name? (path : Path) : Option OsText :=
  match path.components.getLast? with
  | some (.name text) => some text
  | _ => none

/-- The path and everything above it, upwards. -/
def ancestors (path : Path) : List Path :=
  upFrom (path.body.length + 1) path
where
  /-- At most `bound` paths, upwards. -/
  upFrom : Nat → Path → List Path
    | 0, _ => []
    | bound + 1, path => path :: match path.parent? with
      | none => []
      | some parent => upFrom bound parent

/-- `rest` seen from `base`. -/
def join (base : Path) (rest : OsText) : Path :=
  if rest.bytes.head? = some OsText.slash then ⟨rest⟩
  else if base.text = "" ∨ base.text.bytes.getLast? = some OsText.slash then ⟨base.text ++ rest⟩
  else ⟨base.text ++ "/" ++ rest⟩

example : parent? ⟨"/a/./b//"⟩ = some ⟨"/a"⟩ := by decide
example : parent? ⟨"./a"⟩ = some ⟨"."⟩ := by decide
example : (⟨"a/z"⟩ : Path).order ⟨"a-b"⟩ = .lt := by decide

end Path

end Checkout
