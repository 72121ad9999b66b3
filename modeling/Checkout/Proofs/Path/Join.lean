import Checkout.FileSystem.Canonical
import Checkout.WorkingCopy.Area

/-!
# Names and joins

A path reads as the list of the names between its slashes. Joining a proper name to a path appends it to
the names and, if the path is absolute, to the components, so a child directory lies under its parent.
-/

namespace Checkout

/-- A name that an entry of a directory can have. -/
structure ProperName (name : OsText) : Prop where
  nonempty : name ≠ ""
  notHere : name ≠ "."
  notUp : name ≠ ".."
  noSlash : OsText.slash ∉ name.bytes

instance (name : OsText) : Decidable (ProperName name) :=
  decidable_of_iff (name ≠ "" ∧ name ≠ "." ∧ name ≠ ".." ∧ OsText.slash ∉ name.bytes)
    ⟨fun ⟨nonempty, notHere, notUp, noSlash⟩ => ⟨nonempty, notHere, notUp, noSlash⟩,
      fun proper => ⟨proper.nonempty, proper.notHere, proper.notUp, proper.noSlash⟩⟩

theorem properName_directoryName : ProperName Area.directoryName := by
  decide

theorem properName_lock : ProperName "lock" := by
  decide

theorem properName_entries : ProperName "entries" := by
  decide

theorem ProperName.bytes_ne_nil {name : OsText} (proper : ProperName name) :
    name.bytes ≠ [] := by
  simpa using proper.nonempty

theorem ProperName.head?_ne {name : OsText} (proper : ProperName name) :
    name.bytes.head? ≠ some OsText.slash := by
  intro isSlash
  exact proper.noSlash (List.mem_of_head? isSlash)

/-! ## Pieces -/

theorem pieces_ne_nil [DecidableEq α] (mark : α) (items : List α) : pieces mark items ≠ [] := by
  induction items with
  | nil => simp [pieces]
  | cons item rest ih =>
      simp only [pieces]
      split
      · simp
      · split <;> simp

theorem pieces_append [DecidableEq α] (mark : α) (front back : List α) :
    pieces mark (front ++ mark :: back) = pieces mark front ++ pieces mark back := by
  induction front with
  | nil => simp [pieces]
  | cons item rest ih =>
      simp only [List.cons_append, pieces, ih]
      split
      · rfl
      · cases pieces_rest : pieces mark rest with
        | nil => exact absurd pieces_rest (pieces_ne_nil mark rest)
        | cons first others => rfl

theorem pieces_of_not_mem [DecidableEq α] {mark : α} {items : List α} (free : mark ∉ items) :
    pieces mark items = [items] := by
  induction items with
  | nil => rfl
  | cons item rest ih =>
      simp only [List.mem_cons, not_or] at free
      simp [pieces, Ne.symm free.1, ih free.2]

theorem pieces_slash_name {name : OsText} (proper : ProperName name) :
    pieces OsText.slash name.bytes = [name.bytes] :=
  pieces_of_not_mem proper.noSlash

/-- A text that ends in a mark has an empty last piece. -/
theorem pieces_eq_of_getLast? [DecidableEq α] {mark : α} {items : List α}
    (ends : items.getLast? = some mark) :
    pieces mark items = pieces mark items.dropLast ++ [[]] := by
  obtain ⟨front, rfl⟩ := List.getLast?_eq_some_iff.mp ends
  rw [List.dropLast_concat, pieces_append]
  rfl

namespace Path

/-! ## Joining a name -/

/-- The names between the slashes of a path. -/
def names (path : Path) : List OsText :=
  ((pieces OsText.slash path.text.bytes).filter (· ≠ [])).map OsText.mk

theorem steps_eq (path : Path) :
    FileSystem.steps path.text =
      if path.text.bytes.getLast? = some OsText.slash then path.names ++ [("." : OsText)] else path.names := rfl

theorem text_join {base : Path} {name : OsText} (proper : ProperName name) :
    (base.join name).text.bytes =
      if base.text = "" ∨ base.text.bytes.getLast? = some OsText.slash then
        base.text.bytes ++ name.bytes
      else base.text.bytes ++ OsText.slash :: name.bytes := by
  simp only [join, if_neg proper.head?_ne]
  split <;> simp

/-- The pieces of a join: the empty piece behind a trailing slash gives way to the new name. -/
theorem pieces_join {base : Path} {name : OsText} (proper : ProperName name) :
    pieces OsText.slash (base.join name).text.bytes =
      (if base.text = "" then []
        else if base.text.bytes.getLast? = some OsText.slash then pieces OsText.slash base.text.bytes.dropLast
        else pieces OsText.slash base.text.bytes) ++ [name.bytes] := by
  rw [text_join proper]
  by_cases empty : base.text = ""
  · simp [empty, pieces_slash_name proper]
  · by_cases slash : base.text.bytes.getLast? = some OsText.slash
    · obtain ⟨front, shape⟩ := List.getLast?_eq_some_iff.mp slash
      simp only [empty, slash, or_true, if_true, if_false]
      rw [shape, List.append_assoc, List.singleton_append, pieces_append, List.dropLast_concat,
        pieces_slash_name proper]
    · simp only [empty, slash, or_self, if_false]
      rw [pieces_append, pieces_slash_name proper]

theorem names_join (base : Path) {name : OsText} (proper : ProperName name) :
    (base.join name).names = base.names ++ [name] := by
  have kept : (if base.text = "" then []
      else if base.text.bytes.getLast? = some OsText.slash then pieces OsText.slash base.text.bytes.dropLast
      else pieces OsText.slash base.text.bytes).filter (· ≠ []) =
        (pieces OsText.slash base.text.bytes).filter (· ≠ []) := by
    by_cases empty : base.text = ""
    · simp [empty, pieces]
    · by_cases slash : base.text.bytes.getLast? = some OsText.slash
      · simp [empty, slash, pieces_eq_of_getLast? slash]
      · simp [empty, slash]
  rw [names, pieces_join proper, List.filter_append, kept]
  simp [names, proper.bytes_ne_nil]

/-- No slash follows the name of a join. -/
theorem getLast?_text_join (base : Path) {name : OsText} (proper : ProperName name) :
    (base.join name).text.bytes.getLast? ≠ some OsText.slash := by
  have last : (base.join name).text.bytes.getLast? = name.bytes.getLast? := by
    rw [text_join proper]
    obtain ⟨front, character, shape⟩ :=
      (List.eq_nil_or_concat name.bytes).resolve_left proper.bytes_ne_nil
    rw [List.concat_eq_append] at shape
    split
    · simp [shape]
    · rw [shape, ← List.cons_append, ← List.append_assoc, List.getLast?_concat,
        List.getLast?_concat]
  rw [last]
  intro isSlash
  exact proper.noSlash (List.mem_of_getLast? isSlash)

theorem steps_join (base : Path) {name : OsText} (proper : ProperName name) :
    FileSystem.steps (base.join name).text = base.names ++ [name] := by
  rw [steps_eq, if_neg (getLast?_text_join base proper), names_join base proper]

theorem head?_join {base : Path} {name : OsText} (proper : ProperName name)
    (absolute : base.isAbsolute = true) :
    (base.join name).text.bytes.head? = some OsText.slash := by
  have base_head : base.text.bytes.head? = some OsText.slash := by simpa [isAbsolute] using absolute
  obtain ⟨rest, shape⟩ := List.head?_eq_some_iff.mp base_head
  rw [text_join proper]
  split <;> simp [shape]

theorem isAbsolute_join {base : Path} {name : OsText} (proper : ProperName name)
    (absolute : base.isAbsolute = true) : (base.join name).isAbsolute = true := by
  simpa [isAbsolute] using head?_join proper absolute

/-- What is seen from an absolute path is absolute, be it a name or not. -/
theorem isAbsolute_join_of_isAbsolute {base : Path} (rest : OsText) (absolute : base.isAbsolute = true) :
    (base.join rest).isAbsolute = true := by
  have base_head : base.text.bytes.head? = some OsText.slash := by simpa [isAbsolute] using absolute
  obtain ⟨behind, shape⟩ := List.head?_eq_some_iff.mp base_head
  rw [join]
  split
  · simpa [isAbsolute]
  · split <;> simp [isAbsolute, shape]

/-- The last component of a join with an absolute path is the name. -/
theorem components_join {base : Path} {name : OsText} (proper : ProperName name)
    (absolute : base.isAbsolute = true) :
    (base.join name).components = base.components ++ [.name name] := by
  have named : [name].filterMap component? = [.name name] := by
    simp [component?, proper.nonempty, proper.notHere, proper.notUp]
  have base_head : base.text.bytes.head? = some OsText.slash := by simpa [isAbsolute] using absolute
  obtain ⟨rest, shape⟩ := List.head?_eq_some_iff.mp base_head
  have nonempty : base.text ≠ "" := by
    intro empty
    simp [empty] at shape
  simp only [components, absolute, isAbsolute_join proper absolute, if_true, body, segments,
    pieces_join proper, if_neg nonempty, List.cons_append]
  congr 1
  by_cases slash : base.text.bytes.getLast? = some OsText.slash
  · rw [if_pos slash, pieces_eq_of_getLast? slash]
    cases shorter : base.text.bytes.dropLast with
    | nil => simpa [pieces, component?] using named
    | cons first others =>
        have first_eq : first = OsText.slash := by
          have heads := congrArg List.head? shorter
          rw [List.head?_dropLast] at heads
          simp only [shape, List.head?_cons] at heads
          grind
        simpa [pieces, first_eq, component?] using named
  · rw [if_neg slash, shape]
    simpa [pieces] using named

theorem join_inj {base : Path} {name other : OsText} (proper : ProperName name)
    (otherProper : ProperName other) (absolute : base.isAbsolute = true)
    (same : base.join name = base.join other) : name = other := by
  have components_eq := congrArg components same
  rw [components_join proper absolute, components_join otherProper absolute] at components_eq
  simpa using components_eq

theorem isUnder_join {base : Path} {name : OsText} (proper : ProperName name)
    (absolute : base.isAbsolute = true) : (base.join name).isUnder base = true := by
  simp [isUnder, components_join proper absolute]

theorem isUnder_refl (path : Path) : path.isUnder path = true := by
  simp [isUnder]

theorem isUnder_trans {path middle top : Path} (lower : path.isUnder middle = true)
    (upper : middle.isUnder top = true) : path.isUnder top = true := by
  simp only [isUnder, List.isPrefixOf_iff_prefix] at *
  exact upper.trans lower

end Path

end Checkout
