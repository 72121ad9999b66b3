import Checkout.Sorting
import Mathlib.Data.List.Basic
import Mathlib.Order.Basic

/-!
# Items of sorted lists
-/

namespace Checkout

variable {α : Type}

theorem insertSorted_perm (order : α → α → Ordering) (item : α) (items : List α) :
    (insertSorted order item items).Perm (item :: items) := by
  induction items with
  | nil => exact List.Perm.refl _
  | cons first rest ih =>
      simp only [insertSorted]
      split
      · exact (ih.cons first).trans (List.Perm.swap item first rest)
      · exact List.Perm.refl _

theorem sorted_perm (order : α → α → Ordering) (items : List α) :
    (sorted order items).Perm items := by
  induction items with
  | nil => exact List.Perm.refl _
  | cons first rest ih => exact (insertSorted_perm order first _).trans (ih.cons first)

theorem insertSorted_pairwise {order : α → α → Ordering} [Std.TransCmp order] (item : α)
    {items : List α} (inOrder : items.Pairwise fun left right => (order left right).isLE) :
    (insertSorted order item items).Pairwise fun left right => (order left right).isLE := by
  induction items with
  | nil => simp [insertSorted]
  | cons first rest ih =>
      rw [List.pairwise_cons] at inOrder
      rw [insertSorted]
      split
      · rename_i after
        rw [List.pairwise_cons]
        refine ⟨?_, ih inOrder.2⟩
        intro other other_mem
        rcases (mem_insertSorted order item other rest).mp other_mem with rfl | later
        · rw [Std.OrientedCmp.gt_iff_lt] at after
          rw [after]
          rfl
        · exact inOrder.1 other later
      · rename_i notAfter
        have first_le : (order item first).isLE = true := by
          cases compared : order item first with
          | lt => rfl
          | eq => rfl
          | gt => exact absurd compared notAfter
        rw [List.pairwise_cons, List.pairwise_cons]
        refine ⟨?_, inOrder⟩
        intro other other_mem
        rcases List.mem_cons.mp other_mem with rfl | later
        · exact first_le
        · exact Std.TransCmp.isLE_trans first_le (inOrder.1 other later)

/-- An item that is not there yet keeps a strictly sorted list strictly sorted. -/
theorem insertSorted_strict {order : α → α → Ordering} [Std.TransCmp order] {item : α}
    {items : List α} (inOrder : items.Pairwise fun left right => order left right = .lt)
    (new : ∀ other ∈ items, order item other ≠ .eq) :
    (insertSorted order item items).Pairwise fun left right => order left right = .lt := by
  induction items with
  | nil => simp [insertSorted]
  | cons first rest ih =>
      rw [List.pairwise_cons] at inOrder
      rw [insertSorted]
      split
      · rename_i after
        rw [List.pairwise_cons]
        refine ⟨?_, ih inOrder.2 fun other later => new other (List.mem_cons_of_mem _ later)⟩
        intro other other_mem
        rcases (mem_insertSorted order item other rest).mp other_mem with rfl | later
        · exact Std.OrientedCmp.gt_iff_lt.mp after
        · exact inOrder.1 other later
      · rename_i notAfter
        have first_lt : order item first = .lt := by
          cases compared : order item first with
          | lt => rfl
          | eq => exact absurd compared (new first List.mem_cons_self)
          | gt => exact absurd compared notAfter
        rw [List.pairwise_cons, List.pairwise_cons]
        refine ⟨?_, inOrder⟩
        intro other other_mem
        rcases List.mem_cons.mp other_mem with rfl | later
        · exact first_lt
        · exact Std.TransCmp.lt_trans first_lt (inOrder.1 other later)

/-- Strictly sorted lists with the same items are the same list. -/
theorem eq_of_strict (order : α → α → Ordering) [Std.TransCmp order] {left right : List α}
    (leftOrder : left.Pairwise fun first second => order first second = .lt)
    (rightOrder : right.Pairwise fun first second => order first second = .lt)
    (same : ∀ item, item ∈ left ↔ item ∈ right) : left = right := by
  have distinct {items : List α}
      (inOrder : items.Pairwise fun first second => order first second = .lt) : items.Nodup := by
    refine inOrder.imp ?_
    rintro first second less rfl
    have self : order first first = .eq := Std.ReflCmp.compare_self
    simp [self] at less
  refine List.Perm.eq_of_pairwise ?_ leftOrder rightOrder
    ((List.perm_ext_iff_of_nodup (distinct leftOrder) (distinct rightOrder)).mpr same)
  intro first second _ _ less greater
  rw [Std.OrientedCmp.gt_iff_lt.mpr less] at greater
  simp at greater

theorem sorted_pairwise {order : α → α → Ordering} [Std.TransCmp order] (items : List α) :
    (sorted order items).Pairwise fun left right => (order left right).isLE := by
  induction items with
  | nil => exact List.Pairwise.nil
  | cons first rest ih => exact insertSorted_pairwise first ih

end Checkout
