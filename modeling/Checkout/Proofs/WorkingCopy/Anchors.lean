import Checkout.Proofs.FileSystem.Parents

/-!
# Anchors of paths

The top of a working copy is its own anchor; any other path is meant as an entry of the directory above it.
-/

namespace Checkout

namespace FileSystem

variable {files : FileSystem} {path real anchor : Path} {name : OsText}

/--
The path is that of the top of a working copy: a versioned directory, and the directory above it, if it is
versioned too, records a URL that does not lead here. Names stand in URLs as they are shown.
-/
structure IsTop (files : FileSystem) (path : Path) : Prop where
  versioned : files.isVersioned path = true
  switched : ∀ parent name, path.parent? = some parent → path.name? = some name →
    files.isVersioned parent = true →
      ∃ own above, files.entries path = .ok own ∧ files.entries parent = .ok above ∧
        own.url ≠ above.url ++ "/" ++ name.shown

theorem isTop_iff {top : Bool} (versioned : files.isVersioned path = true)
    (found : files.isTop path = .ok top) : top = true ↔ files.IsTop path := by
  simp only [isTop, bind, Except.bind] at found
  split at found
  · simp at found
  · rename_i own own_eq
    split at found
    · rename_i parent name parent_eq name_eq
      cases above_versioned : files.isVersioned parent with
      | false =>
          simp only [above_versioned, Bool.not_false, if_true, pure, Except.pure, Except.ok.injEq]
            at found
          refine iff_of_true found.symm ⟨versioned, ?_⟩
          intro other last other_eq last_eq other_versioned
          rw [parent_eq, Option.some.injEq] at other_eq
          rw [← other_eq, above_versioned] at other_versioned
          simp at other_versioned
      | true =>
          simp only [above_versioned, Bool.not_true, Bool.false_eq_true, if_false] at found
          split at found
          · simp at found
          · rename_i above above_eq
            simp only [pure, Except.pure, Except.ok.injEq] at found
            rw [← found, decide_eq_true_eq]
            constructor
            · intro differs
              refine ⟨versioned, ?_⟩
              intro other last other_eq last_eq _
              rw [parent_eq, Option.some.injEq] at other_eq
              rw [name_eq, Option.some.injEq] at last_eq
              subst other_eq last_eq
              exact ⟨own, above, own_eq, above_eq, differs⟩
            · intro top
              obtain ⟨own', above', own_eq', above_eq', differs⟩ :=
                top.switched parent name parent_eq name_eq above_versioned
              rw [own_eq, Except.ok.injEq] at own_eq'
              rw [above_eq, Except.ok.injEq] at above_eq'
              rwa [own_eq', above_eq']
    · rename_i missing
      simp only [pure, Except.pure, Except.ok.injEq] at found
      refine iff_of_true found.symm ⟨versioned, ?_⟩
      intro parent name parent_eq name_eq
      exact absurd name_eq (missing parent name parent_eq)

theorem anchor_eq (canonical : files.canonical path = .ok real) :
    files.anchor path =
      match if files.isVersioned real then files.isTop real else .ok false with
      | .error error => .error error
      | .ok true => .ok (real, none)
      | .ok false =>
          match real.parent?, real.name? with
          | some parent, some name => .ok (parent, some name.shown)
          | _, _ => .ok (real, none) := by
  simp only [anchor, canonical, bind, Except.bind]
  cases files.isVersioned real with
  | false => rfl
  | true =>
      simp only [if_true]
      cases files.isTop real with
      | error error => rfl
      | ok top => cases top <;> rfl

theorem canonical_of_anchor {target : Option String} (found : files.anchor path = .ok (anchor, target)) :
    ∃ real, files.canonical path = .ok real := by
  cases canonical : files.canonical path with
  | error error => simp [FileSystem.anchor, canonical, bind, Except.bind] at found
  | ok real => exact ⟨real, rfl⟩

/-- Whether a path is its own anchor is whether it is the top of a working copy. -/
theorem isTop_of_anchored {top : Bool}
    (found : (if files.isVersioned real then files.isTop real else .ok false) = .ok top) :
    top = true ↔ files.IsTop real := by
  cases versioned : files.isVersioned real with
  | true =>
      rw [versioned, if_pos rfl] at found
      exact isTop_iff versioned found
  | false =>
      rw [versioned, if_neg Bool.false_ne_true, Except.ok.injEq] at found
      refine iff_of_false (by simp [← found]) ?_
      intro top
      rw [top.versioned] at versioned
      simp at versioned

/-- An anchor with a target is the directory above the canonical path, and the target is its last name as
it is shown. -/
theorem anchor_some {target : String} (canonical : files.canonical path = .ok real)
    (found : files.anchor path = .ok (anchor, some target)) :
    real.parent? = some anchor ∧ (∃ name, real.name? = some name ∧ name.shown = target) ∧
      ¬files.IsTop real := by
  rw [anchor_eq canonical] at found
  split at found
  · simp at found
  · simp at found
  · rename_i top_eq
    split at found
    · rename_i parent other above named
      simp only [Except.ok.injEq, Prod.mk.injEq, Option.some.injEq] at found
      obtain ⟨rfl, rfl⟩ := found
      refine ⟨above, ⟨other, named, rfl⟩, ?_⟩
      rw [← isTop_of_anchored top_eq]
      exact Bool.false_ne_true
    · simp at found

/-- A path without a target is its own anchor. It is the top of a working copy, if it is versioned. -/
theorem anchor_none (canonical : files.canonical path = .ok real)
    (found : files.anchor path = .ok (anchor, none)) :
    anchor = real ∧ (files.isVersioned real = true → files.IsTop real) := by
  rw [anchor_eq canonical] at found
  split at found
  · simp at found
  · rename_i top_eq
    simp only [Except.ok.injEq, Prod.mk.injEq, and_true] at found
    exact ⟨found.symm, fun _ => (isTop_of_anchored top_eq).mp rfl⟩
  · split at found
    · simp at found
    · rename_i missing
      simp only [Except.ok.injEq, Prod.mk.injEq, and_true] at found
      refine ⟨found.symm, fun versioned => ⟨versioned, ?_⟩⟩
      intro parent name parent_eq name_eq
      exact absurd name_eq (missing parent name parent_eq)

end FileSystem

end Checkout
