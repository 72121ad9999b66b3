import Checkout.Lock.Depth
import Checkout.Proofs.FileSystem.Joining
import Checkout.Proofs.WorkingCopy.Reach
import Mathlib.Data.List.Nodup

/-!
# Trees of versioned directories in pre-order

The versioned directories of a directory, sorted by name, are the children of a tree. Its pre-order is unique,
exists because the file system has only so many directories above each other, and is the order of the paths,
which compares them name by name.
-/

namespace Checkout

namespace FileSystem

variable {files : FileSystem} {directory : Path} {names : List OsText} {location top : Location}

/-! ## Children -/

/-- The names, in order, of the versioned directories in a directory. Neither links nor the administrative
directory count. -/
structure Subdirectories (files : FileSystem) (directory : Path) (names : List OsText) : Prop where
  inOrder : names.Pairwise fun left right => compare left right = .lt
  mem_iff : ∀ name, name ∈ names ↔ ∃ location,
    files.entry true directory = .ok (location, .directory) ∧
      files.node? (location ++ [name]) = some .directory ∧ name ≠ Area.directoryName ∧
      files.isVersioned (directory.join name) = true

theorem Subdirectories.unique {others : List OsText} (children : files.Subdirectories directory names)
    (again : files.Subdirectories directory others) : names = others :=
  eq_of_strict compare children.inOrder again.inOrder fun name =>
    (children.mem_iff name).trans (again.mem_iff name).symm

theorem Subdirectories.properName (wellFormed : files.WellFormed)
    (children : files.Subdirectories directory names) {name : OsText} (name_mem : name ∈ names) :
    ProperName name := by
  obtain ⟨location, -, inside, -⟩ := (children.mem_iff name).mp name_mem
  exact wellFormed.proper_of_node? inside name (by simp)

theorem exists_names {children : List Path}
    (joined : ∀ child ∈ children, ∃ name, ProperName name ∧ child = directory.join name) :
    ∃ names : List OsText, children = names.map directory.join ∧ ∀ name ∈ names, ProperName name := by
  induction children with
  | nil => exact ⟨[], rfl, by simp⟩
  | cons child rest ih =>
      obtain ⟨name, proper, rfl⟩ := joined child List.mem_cons_self
      obtain ⟨names, rfl, allProper⟩ :=
        ih fun other other_mem => joined other (List.mem_cons_of_mem _ other_mem)
      exact ⟨name :: names, rfl, by simpa using ⟨proper, allProper⟩⟩

/-- What listing a directory finds are its children. -/
theorem WellFormed.subdirectories {children : List Path} (wellFormed : files.WellFormed)
    (absolute : directory.isAbsolute = true)
    (listed : files.versionedChildren directory = .ok children) :
    ∃ names, files.Subdirectories directory names ∧ children = names.map directory.join := by
  obtain ⟨names, rfl, proper⟩ :=
    exists_names fun child child_mem => wellFormed.child_eq_join listed child_mem
  refine ⟨names, ⟨?_, ?_⟩, rfl⟩
  · have diverge := wellFormed.diverges_children absolute listed
    rw [List.pairwise_map] at diverge
    refine diverge.imp_of_mem ?_
    intro left right left_mem right_mem apart
    rw [← Path.order_join_join (proper left left_mem) (proper right right_mem) absolute]
    exact apart.order_lt
  · intro name
    constructor
    · intro name_mem
      obtain ⟨location, other, found, entry_mem, ordinary, same, versioned⟩ :=
        (mem_versionedChildren listed).mp (List.mem_map_of_mem name_mem)
      have otherProper := wellFormed.proper _ entry_mem other (by simp)
      obtain rfl := Path.join_inj (proper name name_mem) otherProper absolute same
      exact ⟨location, found, wellFormed.node?_of_mem entry_mem, ordinary, versioned⟩
    · rintro ⟨location, found, inside, ordinary, versioned⟩
      have child_mem := (mem_versionedChildren listed).mpr
        ⟨location, name, found, mem_of_node? (by simp) inside, ordinary, rfl, versioned⟩
      obtain ⟨other, other_mem, same⟩ := List.mem_map.mp child_mem
      have nameProper := wellFormed.proper_of_node? inside name (by simp)
      obtain rfl := Path.join_inj (proper other other_mem) nameProper absolute same
      exact other_mem

theorem Subdirectories.listed (wellFormed : files.WellFormed) (absolute : directory.isAbsolute = true)
    (children : files.Subdirectories directory names)
    (found : files.entry true directory = .ok (location, .directory)) :
    files.versionedChildren directory = .ok (names.map directory.join) := by
  obtain ⟨listed, listed_eq⟩ := versionedChildren_of_entry found
  obtain ⟨others, again, rfl⟩ := wellFormed.subdirectories absolute listed_eq
  rw [listed_eq, again.unique children]

theorem Subdirectories.diverges (wellFormed : files.WellFormed) (absolute : directory.isAbsolute = true)
    (children : files.Subdirectories directory names) :
    (names.map directory.join).Pairwise Path.Diverges := by
  rw [List.pairwise_map]
  refine children.inOrder.imp_of_mem ?_
  intro left right left_mem right_mem less
  have leftProper := children.properName wellFormed left_mem
  have rightProper := children.properName wellFormed right_mem
  apply Path.diverges_join leftProper rightProper absolute
  rw [Path.order_join_join leftProper rightProper absolute, less]

/-! ## Directories of a tree -/

/-- A path goes on from the root of a tree, by names, to a versioned directory of the tree. -/
structure Within (files : FileSystem) (root : Path) (top : Location) (directory : Path)
    (location : Location) : Prop where
  absolute : directory.isAbsolute = true
  found : files.entry true directory = .ok (location, .directory)
  versioned : files.isVersioned directory = true
  below : ∃ names, location = top ++ names ∧
    directory.components = root.components ++ names.map Component.name

variable {root : Path}

theorem Within.child (within : files.Within root top directory location)
    (wellFormed : files.WellFormed) (children : files.Subdirectories directory names) {name : OsText}
    (name_mem : name ∈ names) : files.Within root top (directory.join name) (location ++ [name]) := by
  have proper := children.properName wellFormed name_mem
  obtain ⟨here, found, inside, -, versioned⟩ := (children.mem_iff name).mp name_mem
  rw [within.found, Except.ok.injEq, Prod.mk.injEq] at found
  obtain ⟨rfl, -⟩ := found
  have absolute := Path.isAbsolute_join proper within.absolute
  obtain ⟨reached, reached_eq⟩ := entry_of_isVersioned absolute versioned
  have reached_here : reached = location ++ [name] :=
    location_of_resolve_join within.absolute proper within.found (by simp [inside])
      (entry_eq_ok.mp reached_eq)
  subst reached_here
  obtain ⟨way, location_eq, components_eq⟩ := within.below
  refine ⟨absolute, reached_eq, versioned, way ++ [name], ?_, ?_⟩
  · rw [location_eq, List.append_assoc]
  · rw [Path.components_join proper within.absolute, components_eq, List.map_append, List.append_assoc]
    rfl

theorem Within.inside (within : files.Within root top directory location)
    (wellFormed : files.WellFormed) : files.node? location = some .directory :=
  resolve_sound wellFormed (entry_eq_ok.mp within.found)

theorem Within.components_eq {other : Path} (within : files.Within root top directory location)
    (again : files.Within root top other location) : directory.components = other.components := by
  obtain ⟨way, rfl, components_eq⟩ := within.below
  obtain ⟨way', location_eq, components_eq'⟩ := again.below
  obtain rfl := List.append_cancel_left location_eq
  rw [components_eq, components_eq']

theorem WellFormed.length_le (wellFormed : files.WellFormed)
    (inside : files.node? location = some .directory) : location.length ≤ files.nodes.length := by
  -- every directory on the way is an entry of its own
  let above := (List.range location.length).map fun depth => location.take (depth + 1)
  have distinct : above.Nodup := by
    refine List.Nodup.map_on ?_ List.nodup_range
    intro depth depth_mem other other_mem same
    have lengths := congrArg List.length same
    rw [List.mem_range] at depth_mem other_mem
    simp only [List.length_take] at lengths
    omega
  have entries : above ⊆ files.nodes.map Prod.fst := by
    intro front front_mem
    obtain ⟨depth, depth_mem, rfl⟩ := List.mem_map.mp front_mem
    rw [List.mem_range] at depth_mem
    have nonroot : location.take (depth + 1) ≠ [] := by
      rw [ne_eq, List.take_eq_nil_iff]
      rintro (none | empty)
      · omega
      · simp [empty] at depth_mem
    have isEntry : files.node? (location.take (depth + 1)) = some .directory := by
      rcases eq_or_ne (location.drop (depth + 1)) [] with last | below
      · rw [List.take_of_length_le (List.drop_eq_nil_iff.mp last)]
        exact inside
      · rw [← List.take_append_drop (depth + 1) location] at inside
        exact wellFormed.prefix_directory inside below
    exact List.mem_map_of_mem (mem_of_node? nonroot isEntry)
  have bound := distinct.length_le_of_subset entries
  simpa [above] using bound

/-! ## Pre-order -/

/--
The directories of some trees in pre-order, each with the depth it has in its tree. The first directory is the
root of the first tree; then come the trees of its children, as far as its depth reaches, and the other trees.
-/
inductive InPreorder (files : FileSystem) : List (Depth × Path) → List (Depth × Path) → Prop where
  | done : InPreorder files [] []
  | leaf {depth : Depth} {directory : Path} {trees visited : List (Depth × Path)}
      (last : depth.child? = none) (further : InPreorder files trees visited) :
      InPreorder files ((depth, directory) :: trees) ((depth, directory) :: visited)
  | branch {depth childDepth : Depth} {directory : Path} {names : List OsText}
      {trees visited : List (Depth × Path)} (deeper : depth.child? = some childDepth)
      (children : files.Subdirectories directory names)
      (further : InPreorder files
        ((names.map fun name => (childDepth, directory.join name)) ++ trees) visited) :
      InPreorder files ((depth, directory) :: trees) ((depth, directory) :: visited)

variable {trees others visited more : List (Depth × Path)}

theorem InPreorder.unique (preorder : files.InPreorder trees visited)
    (again : files.InPreorder trees more) : visited = more := by
  induction preorder generalizing more with
  | done =>
      cases again
      rfl
  | leaf last further ih =>
      cases again with
      | leaf _ further' => rw [ih further']
      | branch deeper _ _ => simp [last] at deeper
  | branch deeper children further ih =>
      cases again with
      | leaf last _ => simp [last] at deeper
      | branch deeper' children' further' =>
          rw [deeper, Option.some.injEq] at deeper'
          subst deeper'
          obtain rfl := children.unique children'
          rw [ih further']

theorem InPreorder.append (first : files.InPreorder trees visited)
    (second : files.InPreorder others more) : files.InPreorder (trees ++ others) (visited ++ more) := by
  induction first with
  | done => exact second
  | leaf last further ih => exact .leaf last ih
  | branch deeper children further ih =>
      rw [List.append_assoc] at ih
      exact .branch deeper children ih

theorem InPreorder.of_each (each : ∀ tree ∈ trees, ∃ visited, files.InPreorder [tree] visited) :
    ∃ visited, files.InPreorder trees visited := by
  induction trees with
  | nil => exact ⟨[], .done⟩
  | cons tree rest ih =>
      obtain ⟨front, first⟩ := each tree List.mem_cons_self
      obtain ⟨back, others⟩ := ih fun other other_mem => each other (List.mem_cons_of_mem _ other_mem)
      exact ⟨front ++ back, first.append others⟩

/-- A tree has a pre-order: below a directory there are only as many levels as there are entries left. -/
theorem WellFormed.exists_inPreorder (wellFormed : files.WellFormed) (levels : Nat) (depth : Depth)
    (within : files.Within root top directory location)
    (enough : files.nodes.length < location.length + levels) :
    ∃ visited, files.InPreorder [(depth, directory)] visited := by
  induction levels generalizing depth directory location with
  | zero =>
      have bound := wellFormed.length_le (within.inside wellFormed)
      omega
  | succ levels ih =>
      cases deeper : depth.child? with
      | none => exact ⟨_, .leaf deeper .done⟩
      | some childDepth =>
          obtain ⟨listed, listed_eq⟩ := versionedChildren_of_entry within.found
          obtain ⟨names, children, -⟩ := wellFormed.subdirectories within.absolute listed_eq
          have below : ∃ visited, files.InPreorder
              (names.map fun name => (childDepth, directory.join name)) visited := by
            apply InPreorder.of_each
            intro tree tree_mem
            obtain ⟨name, name_mem, rfl⟩ := List.mem_map.mp tree_mem
            apply ih childDepth (within.child wellFormed children name_mem)
            rw [List.length_append, List.length_singleton]
            omega
          obtain ⟨visited, preorder⟩ := below
          exact ⟨_, .branch deeper children (by simpa using preorder)⟩

theorem InPreorder.within (preorder : files.InPreorder trees visited) (wellFormed : files.WellFormed)
    (roots : ∀ tree ∈ trees, ∃ location, files.Within root top tree.2 location) :
    ∀ tree ∈ visited, ∃ location, files.Within root top tree.2 location := by
  induction preorder with
  | done => simp
  | leaf last further ih =>
      intro tree tree_mem
      rcases List.mem_cons.mp tree_mem with rfl | later
      · exact roots _ List.mem_cons_self
      · exact ih (fun other other_mem => roots other (List.mem_cons_of_mem _ other_mem)) tree later
  | branch deeper children further ih =>
      intro tree tree_mem
      obtain ⟨location, within⟩ := roots _ List.mem_cons_self
      rcases List.mem_cons.mp tree_mem with rfl | later
      · exact ⟨location, within⟩
      · refine ih ?_ tree later
        intro other other_mem
        rcases List.mem_append.mp other_mem with new | old
        · obtain ⟨name, name_mem, rfl⟩ := List.mem_map.mp new
          exact ⟨_, within.child wellFormed children name_mem⟩
        · exact roots other (List.mem_cons_of_mem _ old)

/-- A directory in front of the roots of some trees is in front of all directories in the trees. -/
theorem strict_cons {depth : Depth}
    (inOrder : (visited.map Prod.snd).Pairwise fun left right => left.order right = .lt)
    (under : ∀ tree ∈ visited, ∃ root ∈ trees, tree.2.isUnder root.2 = true)
    (front : ∀ root ∈ trees, directory.order root.2 = .lt) :
    (((depth, directory) :: visited).map Prod.snd).Pairwise fun left right =>
      left.order right = .lt := by
  rw [List.map_cons, List.pairwise_cons]
  refine ⟨?_, inOrder⟩
  intro other other_mem
  obtain ⟨tree, tree_mem, rfl⟩ := List.mem_map.mp other_mem
  obtain ⟨root, root_mem, below⟩ := under tree tree_mem
  exact Path.order_lt_of_isUnder (front root root_mem) below

section Roots

theorem mem_children_append {childDepth : Depth} {root : Depth × Path}
    (root_mem : root ∈ (names.map fun name => (childDepth, directory.join name)) ++ trees) :
    (∃ name ∈ names, root.2 = directory.join name) ∨ root ∈ trees := by
  refine (List.mem_append.mp root_mem).imp_left ?_
  intro new
  obtain ⟨name, name_mem, rfl⟩ := List.mem_map.mp new
  exact ⟨name, name_mem, rfl⟩

variable (wellFormed : files.WellFormed) (children : files.Subdirectories directory names)
  (own : directory.isAbsolute = true)

include wellFormed children own

theorem Subdirectories.isAbsolute_roots (childDepth : Depth)
    (absolute : ∀ tree ∈ trees, tree.2.isAbsolute = true) :
    ∀ root ∈ (names.map fun name => (childDepth, directory.join name)) ++ trees,
      root.2.isAbsolute = true := by
  intro root root_mem
  rcases mem_children_append root_mem with ⟨name, name_mem, root_eq⟩ | old
  · rw [root_eq]
    exact Path.isAbsolute_join (children.properName wellFormed name_mem) own
  · exact absolute root old

/-- The children take the place of a directory, and lie apart from other trees as it did. -/
theorem Subdirectories.diverges_roots (childDepth : Depth)
    (apart : (directory :: trees.map Prod.snd).Pairwise Path.Diverges) :
    (((names.map fun name => (childDepth, directory.join name)) ++ trees).map Prod.snd).Pairwise
      Path.Diverges := by
  rw [List.pairwise_cons] at apart
  rw [List.map_append, List.map_map, List.pairwise_append]
  refine ⟨children.diverges wellFormed own, apart.2, ?_⟩
  intro child child_mem other other_mem
  obtain ⟨name, name_mem, rfl⟩ := List.mem_map.mp child_mem
  have proper := children.properName wellFormed name_mem
  exact (apart.1 other other_mem).under_left (Path.isUnder_join proper own)

end Roots

theorem InPreorder.isUnder (preorder : files.InPreorder trees visited) (wellFormed : files.WellFormed)
    (absolute : ∀ tree ∈ trees, tree.2.isAbsolute = true) :
    ∀ tree ∈ visited, ∃ root ∈ trees, tree.2.isUnder root.2 = true := by
  induction preorder with
  | done => simp
  | @leaf depth directory trees visited last further ih =>
      intro tree tree_mem
      rcases List.mem_cons.mp tree_mem with rfl | later
      · exact ⟨_, List.mem_cons_self, Path.isUnder_refl directory⟩
      · obtain ⟨root, root_mem, below⟩ :=
          ih (fun root root_mem => absolute root (List.mem_cons_of_mem _ root_mem)) tree later
        exact ⟨root, List.mem_cons_of_mem _ root_mem, below⟩
  | @branch depth childDepth directory names trees visited deeper children further ih =>
      have own : directory.isAbsolute = true := absolute _ List.mem_cons_self
      intro tree tree_mem
      rcases List.mem_cons.mp tree_mem with rfl | later
      · exact ⟨_, List.mem_cons_self, Path.isUnder_refl directory⟩
      · have roots := children.isAbsolute_roots wellFormed own childDepth fun root root_mem =>
          absolute root (List.mem_cons_of_mem _ root_mem)
        obtain ⟨root, root_mem, below⟩ := ih roots tree later
        rcases mem_children_append root_mem with ⟨name, name_mem, root_eq⟩ | old
        · rw [root_eq] at below
          have proper := children.properName wellFormed name_mem
          exact ⟨_, List.mem_cons_self, Path.isUnder_trans below (Path.isUnder_join proper own)⟩
        · exact ⟨root, List.mem_cons_of_mem _ old, below⟩

/-- The pre-order of trees beside each other is the order of their paths. -/
theorem InPreorder.inOrder (preorder : files.InPreorder trees visited) (wellFormed : files.WellFormed)
    (absolute : ∀ tree ∈ trees, tree.2.isAbsolute = true)
    (apart : (trees.map Prod.snd).Pairwise Path.Diverges) :
    (visited.map Prod.snd).Pairwise fun left right => left.order right = .lt := by
  induction preorder with
  | done => exact List.Pairwise.nil
  | @leaf depth directory trees visited last further ih =>
      have others := fun tree tree_mem => absolute tree (List.mem_cons_of_mem _ tree_mem)
      rw [List.map_cons, List.pairwise_cons] at apart
      refine strict_cons (ih others apart.2) (further.isUnder wellFormed others) ?_
      exact fun root root_mem => (apart.1 root.2 (List.mem_map_of_mem root_mem)).order_lt
  | @branch depth childDepth directory names trees visited deeper children further ih =>
      have own : directory.isAbsolute = true := absolute _ List.mem_cons_self
      have roots := children.isAbsolute_roots wellFormed own childDepth fun tree tree_mem =>
        absolute tree (List.mem_cons_of_mem _ tree_mem)
      have rootsApart := children.diverges_roots wellFormed own childDepth apart
      refine strict_cons (ih roots rootsApart) (further.isUnder wellFormed roots) ?_
      intro root root_mem
      rcases mem_children_append root_mem with ⟨name, name_mem, root_eq⟩ | old
      · rw [root_eq]
        exact Path.order_join (children.properName wellFormed name_mem) own
      · rw [List.map_cons, List.pairwise_cons] at apart
        exact (apart.1 root.2 (List.mem_map_of_mem old)).order_lt

end FileSystem

end Checkout
