/-!
# Sorted lists
-/

namespace Checkout

/-- A sorted list with an item more, in front of the first item that it does not come after. -/
def insertSorted (order : α → α → Ordering) (item : α) : List α → List α
  | [] => [item]
  | first :: rest =>
      if order item first = .gt then first :: insertSorted order item rest else item :: first :: rest

/-- The items of a list in order. -/
def sorted (order : α → α → Ordering) (items : List α) : List α :=
  items.foldr (insertSorted order) []

theorem mem_insertSorted (order : α → α → Ordering) (item other : α) (items : List α) :
    other ∈ insertSorted order item items ↔ other = item ∨ other ∈ items := by
  induction items with
  | nil => simp [insertSorted]
  | cons first rest ih => grind [insertSorted]

@[simp]
theorem mem_sorted (order : α → α → Ordering) (other : α) (items : List α) :
    other ∈ sorted order items ↔ other ∈ items := by
  induction items with
  | nil => simp [sorted]
  | cons first rest ih =>
      have unfolded : sorted order (first :: rest) = insertSorted order first (sorted order rest) := rfl
      simp [unfolded, mem_insertSorted, ih]

end Checkout
