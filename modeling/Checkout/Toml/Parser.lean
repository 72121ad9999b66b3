import Checkout.Toml.Value

/-!
# Reading TOML

A document is a list of statements, one a line: a header opens a table, a key with a value adds to the
table that is open. The tables of a document are built from its statements in order.
-/

namespace Checkout.Toml

/-- What a line of a document says. -/
inductive Statement where
  /-- A value under a dotted key. -/
  | assign (key : List String) (value : Data)
  /-- The header of a table. -/
  | table (key : List String)
  /-- The header of one more table in an array of tables. -/
  | element (key : List String)

/-- Skips the rest of a line, which may hold nothing but a comment. -/
def skipRest : Bool → List Char → Option (List Char)
  | _, '\n' :: rest => some rest
  | _, '\r' :: '\n' :: rest => some rest
  | _, [] => some []
  | true, char :: rest => if isPlain char then skipRest true rest else none
  | false, '#' :: rest => skipRest true rest
  | false, ' ' :: rest => skipRest false rest
  | false, '\t' :: rest => skipRest false rest
  | false, _ => none

/-- A statement, and what follows it on its line. -/
def statement? (chars : List Char) : Option (Statement × List Char) :=
  match chars with
  | '[' :: '[' :: rest => do
      let (key, rest) ← key? rest
      return (.element key, ← mark? ']' (← mark? ']' rest))
  | '[' :: rest => do
      let (key, rest) ← key? rest
      return (.table key, ← mark? ']' rest)
  | _ => do
      let (key, rest) ← key? chars
      let rest := skipBlank (← mark? '=' rest)
      let (value, rest) ← value? (2 * rest.length + 2) 0 rest
      return (.assign key value, rest)

/-- The statements of at most `lines` lines. -/
def statements? : Nat → List Char → Option (List Statement)
  | _, [] => some []
  | 0, _ => none
  | lines + 1, chars =>
      match skipRest false chars with
      | some rest => statements? lines rest
      | none => do
          let (statement, rest) ← statement? (skipBlank chars)
          let rest ← skipRest false rest
          return statement :: (← statements? lines rest)

/-- A document of which some statements have been read. -/
structure Draft where
  /-- The tables that are finished. -/
  root : Entries := []
  /-- The header of the open table, and whether it is one of an array of tables. -/
  header : Option (List String × Bool) := none
  /-- The entries of the open table. -/
  entries : Entries := []

namespace Draft

/-- The tables of the draft, with the open one among them. -/
def finish? (draft : Draft) : Option Entries :=
  match draft.header with
  | none => some draft.entries
  | some (key, false) =>
      draft.root.changeAt (fun
        | none => some (.table .defined draft.entries)
        | some (.table .passed _) => some (.table .defined draft.entries)
        | some _ => none) key
  | some (key, true) =>
      draft.root.changeAt (fun
        | none => some (.tables [draft.entries])
        | some (.tables items) => some (.tables (items ++ [draft.entries]))
        | some _ => none) key

/-- The draft after one more statement. A table that a header merely passed keeps its entries when a
header of its own opens it. -/
def extend? (draft : Draft) : Statement → Option Draft
  | .assign key value => do
      return { draft with entries := ← draft.entries.assign value key }
  | .table key => do
      let root ← draft.finish?
      let entries := match root.find? key with
        | some (.table .passed entries) => entries
        | _ => []
      return { root, header := some (key, false), entries }
  | .element key => do
      return { root := ← draft.finish?, header := some (key, true) }

end Draft

/-- The value a document denotes. A mark of its byte order in front does not count. -/
def parse? (document : String) : Option Data := do
  let chars := match document.toList with
    | '\ufeff' :: rest => rest
    | chars => chars
  let statements ← statements? (chars.length + 1) chars
  let draft ← statements.foldlM Draft.extend? {}
  return .record (entriesData (← draft.finish?))

end Checkout.Toml
