import Checkout.Data

/-!
# Tables under construction

A TOML document fills its tables bit by bit, and whether a table may be extended depends on how it
came to be. A table that a header defined is closed; one that only lies on the way of a longer header
may still be defined by a header of its own; one that dotted keys created may be extended by dotted
keys. Arrays and inline tables are values and closed.
-/

namespace Checkout.Toml

/-- How a table came to be. -/
inductive Origin where
  /-- By a header that names it. -/
  | defined
  /-- On the way of a longer header. -/
  | passed
  /-- By a dotted key. -/
  | dotted
  deriving DecidableEq, Repr

/-- What a key stands for. -/
inductive Tree where
  /-- A value. -/
  | value (data : Data)
  /-- A table. -/
  | table (origin : Origin) (entries : List (String × Tree))
  /-- The tables of an array of tables. -/
  | tables (items : List (List (String × Tree)))

/-- The entries of a table. -/
abbrev Entries := List (String × Tree)

namespace Entries

/-- The entries with a key standing for something, in place of what it stood for. -/
def put (key : String) (tree : Tree) : Entries → Entries
  | [] => [(key, tree)]
  | (other, old) :: rest =>
      if other = key then (key, tree) :: rest else (other, old) :: put key tree rest

/-- An array of tables with its last table changed. -/
def changeLast (change : Entries → Option Entries) (items : List Entries) : Option Tree :=
  match items.reverse with
  | [] => none
  | last :: others => (change last).map fun changed => .tables ((changed :: others).reverse)

/-- The entries with a value under a dotted key, which must be new. -/
def assign (value : Data) : List String → Entries → Option Entries
  | [], _ => none
  | [key], entries =>
      match entries.lookup key with
      | none => some (entries.put key (.value value))
      | some _ => none
  | key :: rest, entries =>
      match entries.lookup key with
      | none => do
          let inner ← assign value rest []
          return entries.put key (.table .dotted inner)
      | some (.table origin inner) =>
          if origin = .defined ∨ (rest.length = 1 ∧ origin ≠ .dotted) then none
          else do
            let inner ← assign value rest inner
            return entries.put key (.table origin inner)
      | some (.tables items) =>
          if rest.length = 1 then none
          else (changeLast (assign value rest) items).map fun tree => entries.put key tree
      | some (.value _) => none

/-- The entries with a change made where a header leads. -/
def changeAt (change : Option Tree → Option Tree) : List String → Entries → Option Entries
  | [], _ => none
  | [key], entries => (change (entries.lookup key)).map fun tree => entries.put key tree
  | key :: rest, entries =>
      match entries.lookup key with
      | none => do
          let inner ← changeAt change rest []
          return entries.put key (.table .passed inner)
      | some (.table origin inner) => do
          let inner ← changeAt change rest inner
          return entries.put key (.table origin inner)
      | some (.tables items) =>
          (changeLast (changeAt change rest) items).map fun tree => entries.put key tree
      | some (.value _) => none

/-- What stands where a header leads. -/
def find? : List String → Entries → Option Tree
  | [], _ => none
  | [key], entries => entries.lookup key
  | key :: rest, entries =>
      match entries.lookup key with
      | some (.table _ inner) => find? rest inner
      | some (.tables items) => (items.getLast?).bind (find? rest)
      | _ => none

end Entries

mutual

/-- The finished value. -/
def Tree.data : Tree → Data
  | .value data => data
  | .table _ entries => .record (entriesData entries)
  | .tables items => .list (itemsData items)

/-- The members of a finished table. -/
def entriesData : List (String × Tree) → List (String × Data)
  | [] => []
  | (key, tree) :: rest => (key, tree.data) :: entriesData rest

/-- The items of a finished array of tables. -/
def itemsData : List (List (String × Tree)) → List Data
  | [] => []
  | entries :: rest => .record (entriesData entries) :: itemsData rest

end

/-- The finished table of an inline table with some values under dotted keys. -/
def inlineTable? (members : List (List String × Data)) : Option Data := do
  let entries ← members.foldlM (fun entries (path, value) => Entries.assign value path entries) []
  return .record (entriesData entries)

end Checkout.Toml
