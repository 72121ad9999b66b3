import Checkout.Proofs.WorkingCopy.Preorder

/-!
# What a working copy consists of

The directories that can be reached from a root, each from the one above it, are those of its unlimited
pre-order. There each of them comes just once, so there are no more of them than there are entries.
-/

namespace Checkout

namespace FileSystem

variable {files : FileSystem} {root directory : Path} {top location : Location} {name : OsText}
  {depth childDepth : Depth} {names : List OsText} {trees visited : List (Depth × Path)}

/-- What versioned child directories, links not counted, lead to from a root. -/
inductive Reachable (files : FileSystem) (root : Path) : Path → Prop where
  | root : Reachable files root root
  | child {directory : Path} {location : Location} {name : OsText}
      (above : Reachable files root directory)
      (found : files.entry true directory = .ok (location, .directory))
      (inside : files.node? (location ++ [name]) = some .directory)
      (ordinary : name ≠ Area.directoryName)
      (versioned : files.isVersioned (directory.join name) = true) :
      Reachable files root (directory.join name)

theorem Within.exists_subdirectories (within : files.Within root top directory location)
    (wellFormed : files.WellFormed) : ∃ names, files.Subdirectories directory names := by
  obtain ⟨listed, listed_eq⟩ := versionedChildren_of_entry within.found
  obtain ⟨names, children, -⟩ := wellFormed.subdirectories within.absolute listed_eq
  exact ⟨names, children⟩

theorem Reachable.within (reachable : files.Reachable root directory) (wellFormed : files.WellFormed)
    (whole : files.Within root top root top) :
    ∃ location, files.Within root top directory location := by
  induction reachable with
  | root => exact ⟨top, whole⟩
  | @child directory location name above found inside ordinary versioned ih =>
      obtain ⟨reached, within⟩ := ih
      obtain ⟨names, children⟩ := within.exists_subdirectories wellFormed
      exact ⟨_, within.child wellFormed children
        ((children.mem_iff name).mpr ⟨location, found, inside, ordinary, versioned⟩)⟩

/-! ## The directories in the pre-order -/

theorem InPreorder.mem_of_mem_trees (preorder : files.InPreorder trees visited) :
    ∀ tree ∈ trees, tree ∈ visited := by
  induction preorder with
  | done => simp
  | leaf last further ih =>
      intro tree tree_mem
      rcases List.mem_cons.mp tree_mem with rfl | later
      · exact List.mem_cons_self
      · exact List.mem_cons_of_mem _ (ih tree later)
  | branch deeper children further ih =>
      intro tree tree_mem
      rcases List.mem_cons.mp tree_mem with rfl | later
      · exact List.mem_cons_self
      · exact List.mem_cons_of_mem _ (ih tree (List.mem_append_right _ later))

/-- With a directory its children are visited, as far as its depth reaches. -/
theorem InPreorder.mem_child (preorder : files.InPreorder trees visited)
    (visited_mem : (depth, directory) ∈ visited) (deeper : depth.child? = some childDepth)
    (children : files.Subdirectories directory names) (name_mem : name ∈ names) :
    (childDepth, directory.join name) ∈ visited := by
  induction preorder with
  | done => simp at visited_mem
  | leaf last further ih =>
      rcases List.mem_cons.mp visited_mem with here | later
      · obtain ⟨rfl, -⟩ := Prod.mk.inj here
        simp [last] at deeper
      · exact List.mem_cons_of_mem _ (ih later)
  | branch deeper' children' further ih =>
      rcases List.mem_cons.mp visited_mem with here | later
      · obtain ⟨rfl, rfl⟩ := Prod.mk.inj here
        rw [deeper, Option.some.injEq] at deeper'
        obtain rfl := children.unique children'
        refine List.mem_cons_of_mem _ (further.mem_of_mem_trees _ (List.mem_append_left _ ?_))
        rw [← deeper']
        exact List.mem_map_of_mem name_mem
      · exact List.mem_cons_of_mem _ (ih later)

/-- Trees without a limit in a working copy. -/
def Endless (files : FileSystem) (root : Path) (trees : List (Depth × Path)) : Prop :=
  ∀ tree ∈ trees, tree.1 = .infinity ∧ files.Reachable root tree.2

theorem Endless.head (endless : files.Endless root ((depth, directory) :: trees)) :
    depth = .infinity ∧ files.Reachable root directory :=
  endless _ List.mem_cons_self

theorem Endless.not_last (endless : files.Endless root ((depth, directory) :: trees)) :
    depth.child? ≠ none := by
  rw [endless.head.1]
  simp [Depth.child?]

theorem Endless.children (endless : files.Endless root ((depth, directory) :: trees))
    (children : files.Subdirectories directory names) (deeper : depth.child? = some childDepth) :
    files.Endless root ((names.map fun name => (childDepth, directory.join name)) ++ trees) := by
  obtain ⟨depth_eq, reachable⟩ := endless.head
  rw [depth_eq] at deeper
  intro tree tree_mem
  rcases List.mem_append.mp tree_mem with new | old
  · obtain ⟨name, name_mem, rfl⟩ := List.mem_map.mp new
    obtain ⟨location, found, inside, ordinary, versioned⟩ := (children.mem_iff name).mp name_mem
    exact ⟨(Option.some.inj deeper).symm, reachable.child found inside ordinary versioned⟩
  · exact endless tree (List.mem_cons_of_mem _ old)

theorem InPreorder.endless (preorder : files.InPreorder trees visited)
    (endless : files.Endless root trees) : files.Endless root visited := by
  induction preorder with
  | done => exact endless
  | leaf last further ih => exact absurd last endless.not_last
  | branch deeper children further ih =>
      intro tree tree_mem
      rcases List.mem_cons.mp tree_mem with rfl | later
      · exact endless _ List.mem_cons_self
      · exact ih (endless.children children deeper) tree later

/-- The unlimited pre-order of a working copy consists of what can be reached from its root. -/
theorem InPreorder.mem_iff_reachable (preorder : files.InPreorder [(.infinity, root)] visited)
    (wellFormed : files.WellFormed) (whole : files.Within root top root top) :
    (.infinity, directory) ∈ visited ↔ files.Reachable root directory := by
  constructor
  · intro visited_mem
    have endless : files.Endless root [(.infinity, root)] := by
      intro tree tree_mem
      rw [List.mem_singleton.mp tree_mem]
      exact ⟨rfl, .root⟩
    exact (preorder.endless endless _ visited_mem).2
  · intro reachable
    induction reachable with
    | root => exact preorder.mem_of_mem_trees _ List.mem_cons_self
    | @child directory location name above found inside ordinary versioned ih =>
        obtain ⟨reached, within⟩ := above.within wellFormed whole
        obtain ⟨names, children⟩ := within.exists_subdirectories wellFormed
        exact preorder.mem_child ih rfl children
          ((children.mem_iff name).mpr ⟨location, found, inside, ordinary, versioned⟩)

/-! ## How many there are -/

/-- The directories of a tree lie at different places. -/
theorem InPreorder.apart (preorder : files.InPreorder [(depth, root)] visited)
    (wellFormed : files.WellFormed) (whole : files.Within root top root top) :
    visited.Pairwise fun left right => ∀ {location : Location},
      files.Within root top left.2 location → ¬files.Within root top right.2 location := by
  have inOrder := preorder.inOrder wellFormed (by simpa using whole.absolute)
    (List.pairwise_singleton _ _)
  rw [List.pairwise_map] at inOrder
  refine inOrder.imp ?_
  intro left right less location leftWithin rightWithin
  rw [Path.order_congr_left (leftWithin.components_eq rightWithin)] at less
  exact Path.not_order_self _ less

theorem InPreorder.length_le (preorder : files.InPreorder [(depth, root)] visited)
    (wellFormed : files.WellFormed) (whole : files.Within root top root top) :
    visited.length ≤ files.nodes.length + 1 := by
  have within : ∀ tree ∈ visited, ∃ location, files.Within root top tree.2 location :=
    preorder.within wellFormed (by simpa using ⟨top, whole⟩)
  choose! place placed using within
  have distinct : (visited.map place).Nodup := by
    rw [List.Nodup, List.pairwise_map]
    refine (preorder.apart wellFormed whole).imp_of_mem ?_
    intro left right left_mem right_mem apart same
    have rightWithin := placed right right_mem
    rw [← same] at rightWithin
    exact apart (placed left left_mem) rightWithin
  have entries : visited.map place ⊆ [] :: files.nodes.map Prod.fst := by
    intro location location_mem
    obtain ⟨tree, tree_mem, rfl⟩ := List.mem_map.mp location_mem
    have inside := (placed tree tree_mem).inside wellFormed
    rcases eq_or_ne (place tree) [] with isRoot | nonroot
    · rw [isRoot]
      exact List.mem_cons_self
    · exact List.mem_cons_of_mem _ (List.mem_map_of_mem (mem_of_node? nonroot inside))
  simpa using distinct.length_le_of_subset entries

end FileSystem

end Checkout
