import Checkout.Proofs.Toml.Value
import Checkout.Toml.Parser

/-!
# Documents of TOML read as they were written

A document of tables whose names need no quotes, with flags, natural numbers, texts and lists of them as
values, is read back as a record of records. `Reads` follows the reader line by line, whatever bound it has on
lines; building the tables then adds one entry for each statement.
-/

namespace Checkout.Toml

/-! ## Keys -/

def IsBareName (name : String) : Prop :=
  name.toList ≠ [] ∧ name.toList.all isBare = true

instance (name : String) : Decidable (IsBareName name) :=
  inferInstanceAs (Decidable (_ ∧ _))

section Keys

variable {name : String} {mark : Char} {value : Data}

/-- The first characters of lines that say something. -/
def StartsLine (char : Char) : Prop :=
  isBare char = true ∨ char = '['

theorem IsBareName.all_bare (bare : IsBareName name) : ∀ char ∈ name.toList, isBare char = true :=
  List.all_eq_true.mp bare.2

theorem IsBareName.exists_cons (bare : IsBareName name) :
    ∃ first more, name.toList = first :: more ∧ isBare first = true := by
  rcases shape : name.toList with _ | ⟨first, more⟩
  · exact absurd shape bare.1
  · exact ⟨first, more, rfl, bare.all_bare first (shape ▸ List.mem_cons_self)⟩

theorem StartsLine.ne {first other : Char} (starts : StartsLine first) (unlike : ¬StartsLine other) :
    first ≠ other := by
  rintro rfl
  exact unlike starts

theorem StartsLine.skipBlank {first : Char} (starts : StartsLine first) (more : List Char) :
    skipBlank (first :: more) = first :: more := by
  have blank : first ≠ ' ' := starts.ne (by simp [StartsLine, isBare])
  have tab : first ≠ '\t' := starts.ne (by simp [StartsLine, isBare])
  simp [Toml.skipBlank, blank, tab]

theorem StartsLine.skipRest {first : Char} (starts : StartsLine first) (more : List Char) :
    skipRest false (first :: more) = none := by
  have blank : first ≠ ' ' := starts.ne (by simp [StartsLine, isBare])
  have tab : first ≠ '\t' := starts.ne (by simp [StartsLine, isBare])
  have feed : first ≠ '\n' := starts.ne (by simp [StartsLine, isBare])
  have carriage : first ≠ '\r' := starts.ne (by simp [StartsLine, isBare])
  have comment : first ≠ '#' := starts.ne (by simp [StartsLine, isBare])
  simp [Toml.skipRest, blank, tab, feed, carriage, comment]

theorem keyPart?_name (bare : IsBareName name) (stops : isBare mark = false) (rest : List Char) :
    keyPart? (name.toList ++ mark :: rest) = some (name, mark :: rest) := by
  rcases bare.exists_cons with ⟨first, more, shape, isFirst⟩
  have first_ne {other : Char} : isBare other = false → first ≠ other := ne_of_isIn isFirst
  have run := span_run bare.all_bare stops rest
  rw [shape, List.cons_append] at run ⊢
  have same : String.ofList (first :: more) = name := by rw [← shape, String.ofList_toList]
  rw [keyPart?, run]
  · simp [same]
  · intro tail same
    exact first_ne (by decide) (List.cons.inj same).1
  · intro tail same
    exact first_ne (by decide) (List.cons.inj same).1

/-- A key of one name, with what stands behind the blanks that follow it. -/
theorem key?_name (bare : IsBareName name) (stops : isBare mark = false) {rest behind : List Char}
    {next : Char} (skipped : skipBlank (mark :: rest) = next :: behind) (last : next ≠ '.') :
    key? (name.toList ++ mark :: rest) = some ([name], next :: behind) := by
  have front : skipBlank (name.toList ++ mark :: rest) = name.toList ++ mark :: rest := by
    rcases bare.exists_cons with ⟨first, more, shape, isFirst⟩
    rw [shape, List.cons_append]
    exact StartsLine.skipBlank (.inl isFirst) _
  change keyParts? (78 + 1) _ = _
  rw [keyParts?, front, keyPart?_name bare stops]
  simp [skipped, last]

/-! ## Statements -/

theorem statement?_header (bare : IsBareName name) (rest : List Char) :
    statement? ('[' :: (name.toList ++ ']' :: rest)) = some (.table [name], rest) := by
  have bracket : skipBlank (']' :: rest) = ']' :: rest := rfl
  have read := key?_name bare (by decide) bracket (by decide)
  rcases bare.exists_cons with ⟨first, more, shape, isFirst⟩
  have single : first ≠ '[' := ne_of_isIn isFirst (by decide)
  rw [shape, List.cons_append] at read ⊢
  simp [statement?, single, read, mark?]

theorem statement?_member (bare : IsBareName name) (plain : IsPlainValue value) (rest : List Char) :
    statement? (name.toList ++ ' ' :: '=' :: ' ' :: ((renderValue value).toList ++ '\n' :: rest)) =
      some (.assign [name] value, '\n' :: rest) := by
  have equals : skipBlank (' ' :: '=' :: ' ' :: ((renderValue value).toList ++ '\n' :: rest)) =
      '=' :: ' ' :: ((renderValue value).toList ++ '\n' :: rest) := rfl
  have read := key?_name bare (by decide) equals (by decide)
  have start : skipBlank (' ' :: ((renderValue value).toList ++ '\n' :: rest)) =
      (renderValue value).toList ++ '\n' :: rest := plain.skipBlank_renderValue _
  have enough : (renderValue value).toList.length ≤
      2 * ((renderValue value).toList ++ '\n' :: rest).length + 2 := by
    rw [List.length_append]
    omega
  have written := value?_renderValue plain enough rest
  rcases bare.exists_cons with ⟨first, more, shape, isFirst⟩
  have single : first ≠ '[' := ne_of_isIn isFirst (by decide)
  rw [shape, List.cons_append] at read ⊢
  rw [List.length_append, List.length_cons] at written
  simp [statement?, single, read, mark?, start, written]

end Keys

/-! ## Lines -/

/-- The statements of some lines, whatever bound on lines they are read with, if it is large enough. -/
def Reads (chars : List Char) (statements : List Statement) : Prop :=
  ∀ lines, chars.length ≤ lines → statements? lines chars = some statements

def tableStatements (table : String × List (String × Data)) : List Statement :=
  .table [table.1] :: table.2.map fun member => .assign [member.1] member.2

def memberLine (member : String × Data) : List Char :=
  member.1.toList ++ ' ' :: '=' :: ' ' :: (renderValue member.2).toList

section Lines

variable {rest : List Char} {statements : List Statement} {name : String}
  {members : List (String × Data)}

theorem reads_nil : Reads [] [] := by
  intro lines _
  cases lines <;> rfl

theorem Reads.blank (behind : Reads rest statements) : Reads ('\n' :: rest) statements := by
  intro lines enough
  obtain ⟨lines, rfl⟩ : ∃ more, lines = more + 1 := Nat.exists_eq_add_of_le' (Nat.le_of_add_left_le enough)
  exact behind lines (Nat.le_of_succ_le_succ enough)

theorem Reads.line (behind : Reads rest statements) {line : List Char} {statement : Statement}
    (starts : ∃ first more, line = first :: more ∧ StartsLine first)
    (read : statement? (line ++ '\n' :: rest) = some (statement, '\n' :: rest)) :
    Reads (line ++ '\n' :: rest) (statement :: statements) := by
  intro lines enough
  rcases starts with ⟨first, more, rfl, starts⟩
  simp only [List.cons_append, List.length_cons, List.length_append] at enough
  obtain ⟨lines, rfl⟩ : ∃ more, lines = more + 1 := Nat.exists_eq_add_of_le' (by omega)
  have others := behind lines (by omega)
  rw [List.cons_append] at read ⊢
  simp [statements?, starts.skipRest, starts.skipBlank, read, skipRest, others]

theorem Reads.memberLines (behind : Reads rest statements)
    (bare : ∀ member ∈ members, IsBareName member.1) (plain : ∀ member ∈ members, IsPlainValue member.2) :
    Reads (members.flatMap (fun member => memberLine member ++ ['\n']) ++ rest)
      (members.map (fun member => .assign [member.1] member.2) ++ statements) := by
  induction members with
  | nil => exact behind
  | cons member members ih =>
      rw [List.forall_mem_cons] at bare plain
      rcases bare with ⟨memberBare, bare⟩
      rcases plain with ⟨memberPlain, plain⟩
      have others := ih bare plain
      rw [List.flatMap_cons, List.append_assoc, List.append_assoc, List.singleton_append]
      refine others.line ?_ ?_
      · rcases memberBare.exists_cons with ⟨first, more, shape, isFirst⟩
        exact ⟨first, _, by rw [memberLine, shape, List.cons_append], .inl isFirst⟩
      · rw [memberLine, List.append_assoc]
        exact statement?_member memberBare memberPlain _

theorem toList_renderTable (name : String) (members : List (String × Data)) :
    (renderTable name members).toList =
      '[' :: name.toList ++ [']'] ++ '\n' :: members.flatMap fun member => memberLine member ++ ['\n'] := by
  simp [renderTable, List.flatMap_map, memberLine]

/-- What is asked of a table to be read back: names without quotes, each once, and plain values. -/
structure IsPlainTable (members : List (String × Data)) : Prop where
  bare : ∀ member ∈ members, IsBareName member.1
  plain : ∀ member ∈ members, IsPlainValue member.2
  distinct : (members.map Prod.fst).Nodup

theorem Reads.table (behind : Reads rest statements) (bare : IsBareName name)
    (plain : IsPlainTable members) :
    Reads ((renderTable name members).toList ++ rest) (tableStatements (name, members) ++ statements) := by
  rw [toList_renderTable, List.append_assoc, List.cons_append]
  refine (behind.memberLines plain.bare plain.plain).line ⟨'[', _, rfl, .inr rfl⟩ ?_
  rw [List.cons_append, List.append_assoc]
  exact statement?_header bare _

theorem reads_render {tables : List (String × List (String × Data))}
    (bare : ∀ table ∈ tables, IsBareName table.1) (plain : ∀ table ∈ tables, IsPlainTable table.2) :
    Reads (render tables).toList (tables.flatMap tableStatements) := by
  induction tables with
  | nil => exact reads_nil
  | cons table tables ih =>
      rw [List.forall_mem_cons] at bare plain
      rcases bare with ⟨tableBare, bare⟩
      rcases plain with ⟨tablePlain, plain⟩
      have others := ih bare plain
      rw [List.flatMap_cons]
      -- A blank line stands between two tables, but not behind the last one.
      rcases tables with _ | ⟨next, tables⟩
      · have shape : (render [table]).toList = (renderTable table.1 table.2).toList ++ [] := by
          simp [render]
        rw [shape]
        exact reads_nil.table tableBare tablePlain
      · have shape : (render (table :: next :: tables)).toList =
            (renderTable table.1 table.2).toList ++ '\n' :: (render (next :: tables)).toList := by
          simp [render]
        rw [shape]
        exact others.blank.table tableBare tablePlain

end Lines

/-! ## Tables -/

namespace Entries

variable {entries : Entries} {key : String} {tree : Tree}

theorem lookup_eq_none (absent : key ∉ entries.map Prod.fst) : entries.lookup key = none := by
  rw [List.lookup_eq_none_iff]
  intro entry entry_mem
  rw [bne_iff_ne]
  rintro rfl
  exact absent (List.mem_map_of_mem entry_mem)

theorem put_eq_append (absent : key ∉ entries.map Prod.fst) :
    entries.put key tree = entries ++ [(key, tree)] := by
  induction entries with
  | nil => rfl
  | cons entry entries ih =>
      rw [List.map_cons, List.mem_cons, not_or] at absent
      rw [put, if_neg (Ne.symm absent.1), ih absent.2, List.cons_append]

/-- What is new stays so when an entry of another key is added. -/
theorem notMem_append {α : Type} {others : List (String × α)}
    (new : ∀ other ∈ others, other.1 ∉ entries.map Prod.fst) (apart : key ∉ others.map Prod.fst) :
    ∀ other ∈ others, other.1 ∉ (entries ++ [(key, tree)]).map Prod.fst := by
  intro other other_mem
  simp only [List.map_append, List.map_cons, List.map_nil, List.mem_append, List.mem_singleton, not_or]
  refine ⟨new other other_mem, ?_⟩
  rintro rfl
  exact apart (List.mem_map_of_mem other_mem)

end Entries

def valueEntries (members : List (String × Data)) : Entries :=
  members.map fun member => (member.1, .value member.2)

/-- The entry of a table of values that a header defined. -/
def tableEntry (table : String × List (String × Data)) : String × Tree :=
  (table.1, .table .defined (valueEntries table.2))

theorem foldlM_assign {members : List (String × Data)} {draft : Draft}
    (distinct : (members.map Prod.fst).Nodup)
    (new : ∀ member ∈ members, member.1 ∉ draft.entries.map Prod.fst) :
    (members.map fun member => .assign [member.1] member.2).foldlM Draft.extend? draft =
      some { draft with entries := draft.entries ++ valueEntries members } := by
  induction members generalizing draft with
  | nil => simp [valueEntries]
  | cons member members ih =>
      rw [List.map_cons, List.nodup_cons] at distinct
      rw [List.forall_mem_cons] at new
      rcases new with ⟨absent, new⟩
      have extended : draft.extend? (.assign [member.1] member.2) =
          some { draft with entries := draft.entries ++ [(member.1, .value member.2)] } := by
        simp [Draft.extend?, Entries.assign, Entries.lookup_eq_none absent, Entries.put_eq_append absent]
      rw [List.map_cons, List.foldlM_cons, extended]
      refine (ih distinct.2 (Entries.notMem_append new distinct.1)).trans ?_
      simp [valueEntries]

/-- A table is added to the finished ones, whichever was open before. -/
theorem foldlM_tableStatements {table : String × List (String × Data)} {draft : Draft} {root : Entries}
    (finished : draft.finish? = some root) (new : table.1 ∉ root.map Prod.fst)
    (distinct : (table.2.map Prod.fst).Nodup) :
    ∃ extended, (tableStatements table).foldlM Draft.extend? draft = some extended ∧
      extended.finish? = some (root ++ [tableEntry table]) := by
  -- The header closes the table that was open, and the entries of its own start empty.
  have opened : draft.extend? (.table [table.1]) =
      some { root, header := some ([table.1], false), entries := [] } := by
    simp [Draft.extend?, finished, Entries.find?, Entries.lookup_eq_none new]
  refine ⟨{ root, header := some ([table.1], false), entries := valueEntries table.2 }, ?_, ?_⟩
  · rw [tableStatements, List.foldlM_cons, opened]
    exact foldlM_assign distinct (by simp)
  · simp [Draft.finish?, Entries.changeAt, Entries.lookup_eq_none new, Entries.put_eq_append new, tableEntry]

theorem foldlM_render {tables : List (String × List (String × Data))} {draft : Draft} {root : Entries}
    (finished : draft.finish? = some root) (new : ∀ table ∈ tables, table.1 ∉ root.map Prod.fst)
    (distinct : (tables.map Prod.fst).Nodup)
    (plain : ∀ table ∈ tables, (table.2.map Prod.fst).Nodup) :
    ∃ extended, (tables.flatMap tableStatements).foldlM Draft.extend? draft = some extended ∧
      extended.finish? = some (root ++ tables.map tableEntry) := by
  induction tables generalizing draft root with
  | nil => exact ⟨draft, rfl, by simpa using finished⟩
  | cons table tables ih =>
      rw [List.map_cons, List.nodup_cons] at distinct
      rw [List.forall_mem_cons] at new plain
      obtain ⟨middle, opened, finishedMiddle⟩ := foldlM_tableStatements finished new.1 plain.1
      have newMiddle : ∀ other ∈ tables, other.1 ∉ (root ++ [tableEntry table]).map Prod.fst :=
        Entries.notMem_append new.2 distinct.1
      obtain ⟨extended, folded, finishedExtended⟩ := ih finishedMiddle newMiddle distinct.2 plain.2
      refine ⟨extended, ?_, ?_⟩
      · rw [List.flatMap_cons, List.foldlM_append, opened]
        exact folded
      · simpa using finishedExtended

theorem entriesData_valueEntries (members : List (String × Data)) :
    entriesData (valueEntries members) = members := by
  induction members with
  | nil => rfl
  | cons member members ih =>
      rw [valueEntries, List.map_cons, entriesData, ← valueEntries, ih]
      rfl

theorem entriesData_tableEntry (tables : List (String × List (String × Data))) :
    entriesData (tables.map tableEntry) = tables.map fun table => (table.1, .record table.2) := by
  induction tables with
  | nil => rfl
  | cons table tables ih =>
      rw [List.map_cons, tableEntry, entriesData, Tree.data, entriesData_valueEntries, ih, List.map_cons]

theorem render_ne_cons (tables : List (String × List (String × Data))) {mark : Char} (other : mark ≠ '[')
    (rest : List Char) : (render tables).toList ≠ mark :: rest := by
  intro marked
  rcases tables with _ | ⟨table, _ | ⟨next, tables⟩⟩
  · simp [render] at marked
  · simp [render, renderTable, Ne.symm other] at marked
  · simp [render, renderTable, Ne.symm other] at marked

/-- A document is read as it was written. -/
theorem parse?_render {tables : List (String × List (String × Data))}
    (bare : ∀ table ∈ tables, IsBareName table.1) (distinct : (tables.map Prod.fst).Nodup)
    (plain : ∀ table ∈ tables, IsPlainTable table.2) :
    parse? (render tables) = some (.record (tables.map fun table => (table.1, .record table.2))) := by
  have read : statements? ((render tables).toList.length + 1) (render tables).toList =
      some (tables.flatMap tableStatements) := reads_render bare plain _ (Nat.le_succ _)
  have empty : ({} : Draft).finish? = some [] := rfl
  obtain ⟨draft, folded, finished⟩ := foldlM_render empty (by simp) distinct
    (fun table table_mem => (plain table table_mem).distinct)
  rw [parse?]
  split
  · rename_i rest marked
    exact absurd marked (render_ne_cons tables (by decide) rest)
  · rw [read]
    simp [folded, finished, entriesData_tableEntry]

end Checkout.Toml
