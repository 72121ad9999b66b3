import Checkout.Proofs.Path.Join
import Checkout.Proofs.Sorting
import Mathlib.Order.Basic

/-!
# The order of paths

Paths are in a total order in which a directory comes before what is below it, and in which everything
below one directory comes before everything below the next one beside it.
-/

namespace Checkout

namespace Component

/-- The name in a component, if it is one. -/
def nameText : Component → OsText
  | .name text => text
  | _ => ""

theorem order_eq :
    order = compareLex (compareOn rank) (compareOn nameText) := by
  funext left right
  cases left <;> cases right <;> rfl

instance : Std.TransCmp order := by
  rw [order_eq]
  infer_instance

instance : Std.LawfulEqCmp order where
  eq_of_compare := by
    intro left right same
    cases left <;> cases right <;> simp_all [order, rank]

end Component

theorem compareLex_append (common left right : List Component) :
    List.compareLex Component.order (common ++ left) (common ++ right) =
      List.compareLex Component.order left right := by
  induction common with
  | nil => rfl
  | cons shared common ih =>
      have self : shared.order shared = .eq := Std.ReflCmp.compare_self
      rw [List.cons_append, List.cons_append, List.compareLex_cons_cons, self]
      exact ih

namespace Path

theorem order_eq (left right : Path) :
    left.order right = List.compareLex Component.order left.components right.components := rfl

instance : Std.TransCmp order where
  eq_swap := by
    intro left right
    simp only [order_eq]
    exact Std.OrientedCmp.eq_swap
  isLE_trans := by
    intro left middle right first second
    simp only [order_eq] at first second ⊢
    exact Std.TransCmp.isLE_trans first second

variable {left right lower path : Path}

theorem same_of_order_eq (equal : left.order right = .eq) : left.components = right.components :=
  Std.LawfulEqCmp.eq_of_compare equal

theorem order_congr_left (same : left.components = right.components) (path : Path) :
    left.order path = right.order path := by
  rw [order_eq, order_eq, same]

theorem not_order_self (path : Path) : path.order path ≠ .lt := by
  have self : path.order path = .eq := Std.ReflCmp.compare_self
  simp [self]

/-- A directory comes before what is below it. -/
theorem order_join {name : OsText} (proper : ProperName name) (absolute : path.isAbsolute = true) :
    path.order (path.join name) = .lt := by
  have split : path.components = path.components ++ [] := (List.append_nil _).symm
  rw [order_eq, components_join proper absolute, split, List.append_assoc, compareLex_append]
  rfl

/-- A directory does not come after what is at or below it. -/
theorem order_isLE_of_isUnder {lower upper : Path} (under : lower.isUnder upper = true) :
    (upper.order lower).isLE = true := by
  rw [isUnder, List.isPrefixOf_iff_prefix] at under
  obtain ⟨rest, split⟩ := under
  have upper_eq : upper.components = upper.components ++ [] := (List.append_nil _).symm
  rw [order_eq, ← split, upper_eq, List.append_assoc, compareLex_append]
  cases rest <;> rfl

/-- A directory that another one comes before also comes before what is below it. -/
theorem order_lt_of_isUnder (less : left.order right = .lt) (under : lower.isUnder right = true) :
    left.order lower = .lt :=
  Std.TransCmp.lt_of_lt_of_isLE less (order_isLE_of_isUnder under)

/-- At the first component in which the paths differ, the left one comes first. -/
def Diverges (left right : Path) : Prop :=
  ∃ common first rest second others, left.components = common ++ first :: rest ∧
    right.components = common ++ second :: others ∧ first.order second = .lt

theorem Diverges.order_lt (diverges : Diverges left right) : left.order right = .lt := by
  obtain ⟨common, first, rest, second, others, left_eq, right_eq, less⟩ := diverges
  rw [order_eq, left_eq, right_eq, compareLex_append, List.compareLex_cons_cons, less]
  rfl

theorem Diverges.under_left (diverges : Diverges left right) (under : lower.isUnder left = true) :
    Diverges lower right := by
  obtain ⟨common, first, rest, second, others, left_eq, right_eq, less⟩ := diverges
  rw [isUnder, List.isPrefixOf_iff_prefix] at under
  obtain ⟨more, lower_eq⟩ := under
  refine ⟨common, first, rest ++ more, second, others, ?_, right_eq, less⟩
  rw [← lower_eq, left_eq, List.append_assoc, List.cons_append]

/-- Directories beside each other are in the order of their names. -/
theorem order_join_join {name other : OsText} (proper : ProperName name)
    (otherProper : ProperName other) (absolute : path.isAbsolute = true) :
    (path.join name).order (path.join other) = compare name other := by
  rw [order_eq, components_join proper absolute, components_join otherProper absolute,
    compareLex_append, List.compareLex_cons_cons, List.compareLex_nil_nil]
  cases compared : compare name other <;> simp [Component.order, compared]

/-- Two directories beside each other diverge at their names. -/
theorem diverges_join {name other : OsText} (proper : ProperName name) (otherProper : ProperName other)
    (absolute : path.isAbsolute = true) (less : (path.join name).order (path.join other) = .lt) :
    Diverges (path.join name) (path.join other) := by
  rw [order_join_join proper otherProper absolute] at less
  exact ⟨path.components, .name name, [], .name other, [], components_join proper absolute,
    components_join otherProper absolute, less⟩

end Path

end Checkout
