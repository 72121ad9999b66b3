import Checkout.Proofs.WorkingCopy.Versioned

/-!
# The paths above a path

An absolute path means the root and the steps behind it, and the path above it means all of them but the
last. So what a path lies under is the path itself or what the path above it lies under.
-/

namespace Checkout

namespace Path

variable {path parent top : Path}

/-! ## The parts of an absolute path -/

theorem filterMap_dropIdle (reversed : List OsText) :
    (dropIdle true reversed).filterMap component? = reversed.filterMap component? := by
  induction reversed with
  | nil => rfl
  | cons segment rest ih =>
      rw [dropIdle]
      split
      · rename_i idle
        have nothing : component? segment = none := by
          rw [component?, if_pos (by simpa using idle)]
        rw [ih, List.filterMap_cons_none nothing]
      · rfl

/-- Behind the idle pieces comes one that has a component. -/
theorem component?_of_dropIdle {reversed rest : List OsText} {segment : OsText}
    (shape : dropIdle true reversed = segment :: rest) : ∃ step, component? segment = some step := by
  induction reversed with
  | nil => simp [dropIdle] at shape
  | cons first others ih =>
      rw [dropIdle] at shape
      split at shape
      · exact ih shape
      · rename_i busy
        obtain ⟨rfl, -⟩ := List.cons.inj shape
        rw [component?, if_neg (by simpa using busy)]
        split <;> exact ⟨_, rfl⟩

theorem components_of_isAbsolute (absolute : path.isAbsolute = true) :
    path.components = .root :: (path.body.reverse.filterMap component?).reverse := by
  rw [List.filterMap_reverse, List.reverse_reverse, components, if_pos absolute]

theorem isAbsolute_of_components {rest : List Component} (components_eq : path.components = .root :: rest) :
    path.isAbsolute = true := by
  have noRoot (segments : List OsText) : Component.root ∉ segments.filterMap component? := by
    intro listed
    obtain ⟨segment, -, is_root⟩ := List.mem_filterMap.mp listed
    rw [component?] at is_root
    split_ifs at is_root <;> simp at is_root
  by_contra relative
  rw [components, if_neg relative] at components_eq
  split at components_eq
  · simp at components_eq
  · exact noRoot path.body (by rw [components_eq]; exact List.mem_cons_self)

theorem components_rebuild {reversed : List OsText}
    (free : ∀ segment ∈ reversed, OsText.slash ∉ segment.bytes) :
    (rebuild true reversed).components = .root :: (reversed.filterMap component?).reverse := by
  have absolute : (rebuild true reversed).isAbsolute = true := by simp [rebuild, isAbsolute]
  rw [components_of_isAbsolute absolute]
  rcases eq_or_ne reversed [] with rfl | nonempty
  · rfl
  · rw [body_rebuild nonempty free, List.reverse_reverse]

/-! ## Going up by components -/

/-- The path above is the path without its last step. -/
theorem components_parent? (absolute : path.isAbsolute = true) (above : path.parent? = some parent) :
    ∃ last, path.components = parent.components ++ [last] := by
  rw [parent?, absolute] at above
  cases shape : dropIdle true path.body.reverse with
  | nil => simp [shape] at above
  | cons last rest =>
      simp only [shape, Option.some.injEq] at above
      subst above
      have free : ∀ segment ∈ dropIdle true rest, OsText.slash ∉ segment.bytes := by
        intro segment segment_mem
        have kept : segment ∈ dropIdle true path.body.reverse := by
          rw [shape]
          exact List.mem_cons_of_mem _ ((dropIdle_sublist true rest).subset segment_mem)
        exact noSlash_of_mem_body (List.mem_reverse.mp ((dropIdle_sublist true _).subset kept))
      obtain ⟨step, step_eq⟩ := component?_of_dropIdle shape
      refine ⟨step, ?_⟩
      rw [components_of_isAbsolute absolute, components_rebuild free, filterMap_dropIdle,
        ← filterMap_dropIdle path.body.reverse, shape, List.filterMap_cons_some step_eq,
        List.reverse_cons, List.cons_append]

/-- Nothing is above the root alone. -/
theorem components_of_parent?_eq_none (absolute : path.isAbsolute = true) (none : path.parent? = none) :
    path.components = [.root] := by
  rw [parent?, absolute] at none
  cases shape : dropIdle true path.body.reverse with
  | nil =>
      rw [components_of_isAbsolute absolute, ← filterMap_dropIdle, shape]
      rfl
  | cons last rest => simp [shape] at none

/-- What is above a path is the path or is above its parent. -/
theorem isUnder_iff_of_parent? (absolute : path.isAbsolute = true) (above : path.parent? = some parent) :
    path.isUnder top = true ↔ top.same path = true ∨ parent.isUnder top = true := by
  obtain ⟨last, components_eq⟩ := components_parent? absolute above
  simp only [isUnder, same, List.isPrefixOf_iff_prefix, decide_eq_true_eq, components_eq]
  exact List.prefix_concat_iff

theorem isUnder_iff_of_parent?_eq_none (absolute : path.isAbsolute = true) (none : path.parent? = none)
    (nonempty : top.components ≠ []) : path.isUnder top = true ↔ top.same path = true := by
  rw [isUnder, same, List.isPrefixOf_iff_prefix, decide_eq_true_eq,
    components_of_parent?_eq_none absolute none]
  constructor
  · intro isPrefix
    apply isPrefix.eq_of_length_le
    exact List.length_pos_iff.mpr nonempty
  · intro same
    simp only [same, List.prefix_refl]

/-- What holds of the root and goes down from parents to children holds of every absolute path. -/
theorem ancestors_induction {motive : (path : Path) → path.isAbsolute = true → Prop}
    (root : ∀ path absolute, path.parent? = none → motive path absolute)
    (child : ∀ path parent absolute parentAbsolute, path.parent? = some parent →
      motive parent parentAbsolute → motive path absolute)
    (path : Path) (absolute : path.isAbsolute = true) : motive path absolute := by
  induction high : path.height using Nat.strongRecOn generalizing path with
  | ind height ih =>
      cases above : path.parent? with
      | none => exact root path absolute above
      | some parent =>
          have lower := height_parent? absolute above
          exact child path parent absolute (isAbsolute_parent? absolute above) above
            (ih parent.height (by omega) parent (isAbsolute_parent? absolute above) rfl)

/-- A path lies under every path above it. -/
theorem isUnder_of_mem_ancestors {ancestor : Path} (absolute : path.isAbsolute = true)
    (above : ancestor ∈ path.ancestors) : path.isUnder ancestor = true := by
  induction path, absolute using ancestors_induction with
  | root path absolute none =>
      rw [ancestors_eq absolute, none, List.mem_singleton] at above
      rw [above]
      exact isUnder_refl path
  | child path parent absolute parentAbsolute parent_eq ih =>
      rw [ancestors_eq absolute, parent_eq] at above
      rcases List.mem_cons.mp above with rfl | higher
      · exact isUnder_refl ancestor
      · exact (isUnder_iff_of_parent? absolute parent_eq).mpr (Or.inr (ih higher))

end Path

end Checkout
