import Checkout.Proofs.FileSystem.Canonical
import Checkout.Proofs.Path.Order

/-!
# Child directories

The versioned children of a directory are entries of it, so they lie under it, and everything below one of
them comes before the next.
-/

namespace Checkout

namespace FileSystem

variable {files : FileSystem} {path child : Path} {children : List Path}

theorem mem_listing {directory : Location} {name : OsText} {node : Node} :
    (name, node) ∈ files.listing directory ↔ (directory ++ [name], node) ∈ files.nodes := by
  simp only [listing, List.mem_filterMap]
  constructor
  · rintro ⟨⟨location, other⟩, entry_mem, found⟩
    simp only at found
    split at found
    · rename_i last last_eq
      split at found
      · rename_i inside
        simp only [Option.some.injEq, Prod.mk.injEq] at found
        obtain ⟨rfl, rfl⟩ := found
        obtain ⟨front, rfl⟩ := List.getLast?_eq_some_iff.mp last_eq
        rw [List.dropLast_concat] at inside
        rw [← inside]
        exact entry_mem
      · simp at found
    · simp at found
  · intro entry_mem
    refine ⟨_, entry_mem, ?_⟩
    simp

/-- A versioned child of a path is a directory that the path leads to the parent of. -/
theorem mem_versionedChildren (listed : files.versionedChildren path = .ok children) :
    child ∈ children ↔ ∃ location name, files.entry true path = .ok (location, .directory) ∧
      (location ++ [name], .directory) ∈ files.nodes ∧ name ≠ Area.directoryName ∧
      child = path.join name ∧ files.isVersioned child = true := by
  simp only [versionedChildren, list, bind, Except.bind] at listed
  rcases found : files.entry true path with failure | ⟨location, node⟩
  · simp [found] at listed
  · cases node with
    | file identity => simp [found] at listed
    | link target => simp [found] at listed
    | directory =>
        simp only [found, Except.ok.injEq] at listed
        rw [← listed, mem_sorted, List.mem_filterMap]
        constructor
        · rintro ⟨⟨name, node⟩, entry_mem, chosen⟩
          simp only at chosen
          split at chosen
          · simp at chosen
          · rename_i fit
            rw [not_or, not_not] at fit
            split at chosen
            · rename_i versioned
              rw [Option.some.injEq] at chosen
              obtain ⟨ordinary, rfl⟩ := fit
              refine ⟨location, name, rfl, mem_listing.mp entry_mem, ordinary, chosen.symm, ?_⟩
              rw [← chosen]
              exact versioned
            · simp at chosen
        · rintro ⟨other, name, same, entry_mem, ordinary, rfl, versioned⟩
          simp only [Except.ok.injEq, Prod.mk.injEq, and_true] at same
          subst same
          exact ⟨(name, .directory), mem_listing.mpr entry_mem, by simp [ordinary, versioned]⟩

theorem WellFormed.child_eq_join (wellFormed : files.WellFormed)
    (listed : files.versionedChildren path = .ok children) (child_mem : child ∈ children) :
    ∃ name, ProperName name ∧ child = path.join name := by
  obtain ⟨location, name, -, entry_mem, -, rfl, -⟩ := (mem_versionedChildren listed).mp child_mem
  exact ⟨name, wellFormed.proper _ entry_mem name (by simp), rfl⟩

theorem versionedChildren_of_entry {location : Location}
    (found : files.entry true path = .ok (location, .directory)) :
    ∃ children, files.versionedChildren path = .ok children := by
  simp only [versionedChildren, list, bind, Except.bind, found]
  exact ⟨_, rfl⟩

theorem location_of_listed {directory : Location} {entry : Location × Node} {named : OsText × Node}
    (found : (match entry.1.getLast? with
      | some name => if entry.1.dropLast = directory then some (name, entry.2) else none
      | none => none) = some named) : entry.1 = directory ++ [named.1] := by
  split at found
  · rename_i name last
    split at found
    · rename_i inside
      rw [Option.some.injEq] at found
      obtain ⟨front, front_eq⟩ := List.getLast?_eq_some_iff.mp last
      rw [front_eq, List.dropLast_concat] at inside
      rw [front_eq, inside, ← found]
    · simp at found
  · simp at found

theorem WellFormed.listing_pairwise (wellFormed : files.WellFormed) (directory : Location) :
    (files.listing directory).Pairwise fun left right => left.1 ≠ right.1 := by
  rw [listing, List.pairwise_filterMap]
  refine (List.pairwise_map.mp wellFormed.distinct).imp ?_
  intro left right apart first first_eq second second_eq same
  apply apart
  rw [location_of_listed first_eq, location_of_listed second_eq, same]

theorem WellFormed.children_pairwise (wellFormed : files.WellFormed)
    (absolute : path.isAbsolute = true) (listed : files.versionedChildren path = .ok children) :
    children.Pairwise fun left right => left.components ≠ right.components := by
  simp only [versionedChildren, list, bind, Except.bind] at listed
  rcases found : files.entry true path with failure | ⟨location, node⟩
  · simp [found] at listed
  · cases node with
    | file identity => simp [found] at listed
    | link target => simp [found] at listed
    | directory =>
        simp only [found, Except.ok.injEq] at listed
        rw [← listed]
        refine (sorted_perm Path.order _).symm.pairwise ?_ (fun differ => differ.symm)
        rw [List.pairwise_filterMap]
        refine (wellFormed.listing_pairwise location).imp_of_mem ?_
        rintro ⟨name, node⟩ ⟨other, otherNode⟩ name_mem other_mem apart left left_eq right right_eq
        have proper : ProperName name :=
          wellFormed.proper _ (mem_listing.mp name_mem) name (by simp)
        have otherProper : ProperName other :=
          wellFormed.proper _ (mem_listing.mp other_mem) other (by simp)
        have join_of_some {name : OsText} {node : Node} {child : Path}
            (chosen : (if name = Area.directoryName ∨ node ≠ .directory then none
              else if files.isVersioned (path.join name) then some (path.join name)
              else none) = some child) : child = path.join name := by
          split at chosen
          · simp at chosen
          · split at chosen
            · exact (Option.some.inj chosen).symm
            · simp at chosen
        rw [join_of_some left_eq, join_of_some right_eq, Path.components_join proper absolute,
          Path.components_join otherProper absolute]
        simpa using apart

/-- The children of a directory are in order, and the subtrees below them too. -/
theorem WellFormed.diverges_children (wellFormed : files.WellFormed)
    (absolute : path.isAbsolute = true) (listed : files.versionedChildren path = .ok children) :
    children.Pairwise Path.Diverges := by
  have apart := wellFormed.children_pairwise absolute listed
  have inOrder : children.Pairwise fun left right => (left.order right).isLE := by
    simp only [versionedChildren] at listed
    split at listed
    · simp at listed
    · rw [Except.ok.injEq] at listed
      rw [← listed]
      exact sorted_pairwise _
  refine (apart.and inOrder).imp_of_mem ?_
  rintro left right left_mem right_mem ⟨differ, le⟩
  have less : left.order right = .lt := by
    cases compared : left.order right with
    | lt => rfl
    | eq => exact absurd (Path.same_of_order_eq compared) differ
    | gt => simp [compared] at le
  obtain ⟨name, proper, rfl⟩ := wellFormed.child_eq_join listed left_mem
  obtain ⟨other, otherProper, rfl⟩ := wellFormed.child_eq_join listed right_mem
  exact Path.diverges_join proper otherProper absolute less

end FileSystem

end Checkout
