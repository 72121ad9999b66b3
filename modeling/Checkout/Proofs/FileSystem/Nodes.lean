import Checkout.Lock.File
import Checkout.Proofs.Path.Join
import Mathlib.Data.List.Induction

/-!
# Entries after a change

Which entry is at which location after a file was created or a name was taken away, and the well-formed
file systems: every entry lies in a directory, its names are proper, and no two entries share a location.
-/

namespace Checkout

namespace FileSystem

variable {files : FileSystem} {location other : Location} {node : Node} {identity : Nat}

@[simp]
theorem node?_nil (files : FileSystem) : files.node? [] = some .directory := by
  simp [node?]

theorem node?_eq (nonroot : location ≠ []) :
    files.node? location = (files.nodes.find? fun entry => entry.1 = location).map Prod.snd := by
  simp [node?, nonroot]

theorem find?_filter_ne (nodes : List (Location × Node)) (apart : other ≠ location) :
    (nodes.filter fun entry => entry.1 ≠ location).find? (fun entry => entry.1 = other) =
      nodes.find? fun entry => entry.1 = other := by
  rw [List.find?_filter]
  congr 1
  funext entry
  by_cases here : entry.1 = other
  · simp [here, apart]
  · simp [here]

theorem node?_put_self (nonroot : location ≠ []) :
    (files.put location node).node? location = some node := by
  rw [node?_eq nonroot, put, List.find?_append]
  have cleared : (files.nodes.filter fun entry => entry.1 ≠ location).find?
      (fun entry => entry.1 = location) = none := by
    rw [List.find?_eq_none]
    intro entry entry_mem
    simpa using (List.mem_filter.mp entry_mem).2
  rw [cleared]
  simp

theorem node?_put_of_ne (apart : other ≠ location) :
    (files.put location node).node? other = files.node? other := by
  by_cases root : other = []
  · simp [root]
  · rw [node?_eq root, node?_eq root, put, List.find?_append, find?_filter_ne _ apart]
    simp [Ne.symm apart]

theorem node?_erase_self (nonroot : location ≠ []) :
    (files.erase location).node? location = none := by
  rw [node?_eq nonroot, erase, Option.map_eq_none_iff, List.find?_eq_none]
  intro entry entry_mem
  simpa using (List.mem_filter.mp entry_mem).2

theorem node?_erase_of_ne (apart : other ≠ location) :
    (files.erase location).node? other = files.node? other := by
  by_cases root : other = []
  · simp [root]
  · rw [node?_eq root, node?_eq root, erase, find?_filter_ne _ apart]

@[simp]
theorem node?_hold (files : FileSystem) (identity : Nat) (location : Location) :
    (files.hold identity).node? location = files.node? location := rfl

@[simp]
theorem node?_unhold (files : FileSystem) (identity : Nat) (location : Location) :
    (files.unhold identity).node? location = files.node? location := rfl

theorem node?_putFile_self {bytes : ByteArray} (nonroot : location ≠ []) :
    (files.putFile location bytes).node? location = some (.file files.nextFile) := by
  change (files.put location (.file files.nextFile)).node? location = _
  exact node?_put_self nonroot

theorem node?_putFile_of_ne {bytes : ByteArray} (apart : other ≠ location) :
    (files.putFile location bytes).node? other = files.node? other := by
  change (files.put location (.file files.nextFile)).node? other = _
  exact node?_put_of_ne apart

/-! ## Well-formed file systems -/

/-- What holds of the entries of any real file system. -/
structure WellFormed (files : FileSystem) : Prop where
  distinct : (files.nodes.map Prod.fst).Nodup
  nonroot : ∀ entry ∈ files.nodes, entry.1 ≠ []
  proper : ∀ entry ∈ files.nodes, ∀ name ∈ entry.1, ProperName name
  /-- Every entry lies in a directory. -/
  parent : ∀ entry ∈ files.nodes, files.node? entry.1.dropLast = some .directory
  known : ∀ location identity, (location, .file identity) ∈ files.nodes → identity < files.nextFile
  heldKnown : ∀ identity ∈ files.held, identity < files.nextFile
  currentProper : ∀ name ∈ files.current, ProperName name

/-- Whether a file at the node, if it is one, has an identity below a bound. -/
def IdentityBelow (bound : Nat) : Node → Prop
  | .file identity => identity < bound
  | _ => True

instance (bound : Nat) : (node : Node) → Decidable (IdentityBelow bound node)
  | .file identity => inferInstanceAs (Decidable (identity < bound))
  | .directory => inferInstanceAs (Decidable True)
  | .link _ => inferInstanceAs (Decidable True)

theorem wellFormed_iff :
    files.WellFormed ↔ (files.nodes.map Prod.fst).Nodup ∧
      (∀ entry ∈ files.nodes, entry.1 ≠ [] ∧ (∀ name ∈ entry.1, ProperName name) ∧
        files.node? entry.1.dropLast = some .directory ∧ IdentityBelow files.nextFile entry.2) ∧
      (∀ identity ∈ files.held, identity < files.nextFile) ∧
      ∀ name ∈ files.current, ProperName name := by
  constructor
  · intro wellFormed
    refine ⟨wellFormed.distinct, ?_, wellFormed.heldKnown, wellFormed.currentProper⟩
    rintro ⟨location, node⟩ entry_mem
    refine ⟨wellFormed.nonroot _ entry_mem, wellFormed.proper _ entry_mem,
      wellFormed.parent _ entry_mem, ?_⟩
    cases node with
    | file identity => exact wellFormed.known location identity entry_mem
    | directory => trivial
    | link target => trivial
  · rintro ⟨distinct, entries, heldKnown, currentProper⟩
    exact ⟨distinct, fun entry entry_mem => (entries entry entry_mem).1,
      fun entry entry_mem => (entries entry entry_mem).2.1,
      fun entry entry_mem => (entries entry entry_mem).2.2.1,
      fun _ _ entry_mem => (entries _ entry_mem).2.2.2, heldKnown, currentProper⟩

instance (files : FileSystem) : Decidable files.WellFormed :=
  decidable_of_iff _ wellFormed_iff.symm

theorem mem_of_node? (nonroot : location ≠ []) (found : files.node? location = some node) :
    (location, node) ∈ files.nodes := by
  rw [node?_eq nonroot, Option.map_eq_some_iff] at found
  obtain ⟨entry, entry_found, rfl⟩ := found
  have at_location : entry.1 = location := by simpa using List.find?_some entry_found
  rw [← at_location]
  exact List.mem_of_find?_eq_some entry_found

theorem WellFormed.node?_of_mem (wellFormed : files.WellFormed)
    (entry_mem : (location, node) ∈ files.nodes) : files.node? location = some node := by
  have nonroot : location ≠ [] := wellFormed.nonroot _ entry_mem
  rw [node?_eq nonroot]
  have distinct := wellFormed.distinct
  generalize files.nodes = nodes at distinct entry_mem
  induction nodes with
  | nil => simp at entry_mem
  | cons first rest ih =>
      rw [List.map_cons, List.nodup_cons] at distinct
      rcases List.mem_cons.mp entry_mem with rfl | later
      · simp
      · have apart : first.1 ≠ location := by
          intro same
          exact distinct.1 (List.mem_map.mpr ⟨_, later, same.symm⟩)
        rw [List.find?_cons_of_neg (by simpa using apart)]
        exact ih distinct.2 later

theorem WellFormed.proper_of_node? (wellFormed : files.WellFormed)
    (found : files.node? location = some node) : ∀ name ∈ location, ProperName name := by
  by_cases root : location = []
  · simp [root]
  · exact wellFormed.proper _ (mem_of_node? root found)

theorem WellFormed.known_of_node? (wellFormed : files.WellFormed)
    (found : files.node? location = some (.file identity)) : identity < files.nextFile := by
  by_cases root : location = []
  · simp [root] at found
  · exact wellFormed.known _ _ (mem_of_node? root found)

/-- What leads to an entry is a chain of directories. -/
theorem WellFormed.prefix_directory (wellFormed : files.WellFormed) {front back : Location}
    (found : files.node? (front ++ back) = some node) (below : back ≠ []) :
    files.node? front = some .directory := by
  induction back using List.reverseRecOn generalizing node with
  | nil => exact absurd rfl below
  | append_singleton middle last ih =>
      have nonroot : front ++ (middle ++ [last]) ≠ [] := by simp
      have above := wellFormed.parent _ (mem_of_node? nonroot found)
      rw [← List.append_assoc, List.dropLast_concat] at above
      by_cases direct : middle = []
      · simpa [direct] using above
      · exact ih above direct

/-- A directory stays well-formed when a file is created in it. -/
theorem WellFormed.putFile (wellFormed : files.WellFormed) {directory : Location} {name : OsText}
    (bytes : ByteArray) (inside : files.node? directory = some .directory)
    (vacant : files.node? (directory ++ [name]) = none) (proper : ProperName name) :
    (files.putFile (directory ++ [name]) bytes).WellFormed := by
  have nonroot : directory ++ [name] ≠ [] := by simp
  have nodes_eq : (files.putFile (directory ++ [name]) bytes).nodes =
      files.nodes.filter (fun entry => entry.1 ≠ directory ++ [name]) ++
        [(directory ++ [name], .file files.nextFile)] := rfl
  have nextFile_eq : (files.putFile (directory ++ [name]) bytes).nextFile = files.nextFile + 1 := rfl
  have mem {entry : Location × Node}
      (entry_mem : entry ∈ (files.putFile (directory ++ [name]) bytes).nodes) :
      entry ∈ files.nodes ∨ entry = (directory ++ [name], .file files.nextFile) := by
    rw [nodes_eq, List.mem_append, List.mem_singleton] at entry_mem
    rcases entry_mem with old | new
    · exact Or.inl (List.mem_filter.mp old).1
    · exact Or.inr new
  have still {location : Location} (found : files.node? location = some .directory) :
      (files.putFile (directory ++ [name]) bytes).node? location = some .directory := by
    rw [node?_putFile_of_ne, found]
    rintro rfl
    simp [vacant] at found
  refine ⟨?_, ?_, ?_, ?_, ?_, ?_, wellFormed.currentProper⟩
  · rw [nodes_eq, List.map_append, List.nodup_append]
    refine ⟨wellFormed.distinct.sublist (List.filter_sublist.map _), by simp, ?_⟩
    intro location location_mem other other_mem
    obtain ⟨entry, entry_mem, rfl⟩ := List.mem_map.mp location_mem
    have apart : entry.1 ≠ directory ++ [name] := by simpa using (List.mem_filter.mp entry_mem).2
    simp only [List.map_cons, List.map_nil, List.mem_singleton] at other_mem
    rw [other_mem]
    exact apart
  · intro entry entry_mem
    rcases mem entry_mem with old | rfl
    · exact wellFormed.nonroot entry old
    · exact nonroot
  · intro entry entry_mem other other_mem
    rcases mem entry_mem with old | rfl
    · exact wellFormed.proper entry old other other_mem
    · rcases List.mem_append.mp other_mem with above | here
      · exact wellFormed.proper_of_node? inside other above
      · rw [List.mem_singleton.mp here]
        exact proper
  · intro entry entry_mem
    rcases mem entry_mem with old | rfl
    · exact still (wellFormed.parent entry old)
    · simpa using still inside
  · intro location identity entry_mem
    rw [nextFile_eq]
    rcases mem entry_mem with old | new
    · have := wellFormed.known location identity old
      omega
    · simp only [Prod.mk.injEq, Node.file.injEq] at new
      omega
  · intro identity held
    rw [nextFile_eq]
    have := wellFormed.heldKnown identity held
    omega

/-- Taking the name of something other than a directory away leaves no entry without its directory. -/
theorem WellFormed.erase (wellFormed : files.WellFormed)
    (leaf : files.node? location ≠ some .directory) : (files.erase location).WellFormed := by
  have mem {entry : Location × Node} (entry_mem : entry ∈ (files.erase location).nodes) :
      entry ∈ files.nodes := (List.mem_filter.mp entry_mem).1
  refine ⟨?_, ?_, ?_, ?_, ?_, wellFormed.heldKnown, wellFormed.currentProper⟩
  · exact wellFormed.distinct.sublist (List.filter_sublist.map _)
  · intro entry entry_mem
    exact wellFormed.nonroot entry (mem entry_mem)
  · intro entry entry_mem
    exact wellFormed.proper entry (mem entry_mem)
  · intro entry entry_mem
    have above := wellFormed.parent entry (mem entry_mem)
    rw [node?_erase_of_ne, above]
    rintro rfl
    exact leaf above
  · intro location identity entry_mem
    exact wellFormed.known location identity (mem entry_mem)

theorem WellFormed.hold (wellFormed : files.WellFormed) (known : identity < files.nextFile) :
    (files.hold identity).WellFormed := by
  refine ⟨wellFormed.distinct, wellFormed.nonroot, wellFormed.proper, wellFormed.parent,
    wellFormed.known, ?_, wellFormed.currentProper⟩
  intro other held
  rcases List.mem_cons.mp held with rfl | older
  · exact known
  · exact wellFormed.heldKnown other older

theorem WellFormed.unhold (wellFormed : files.WellFormed) (identity : Nat) :
    (files.unhold identity).WellFormed := by
  refine ⟨wellFormed.distinct, wellFormed.nonroot, wellFormed.proper, wellFormed.parent,
    wellFormed.known, ?_, wellFormed.currentProper⟩
  intro other held
  exact wellFormed.heldKnown other (List.mem_filter.mp held).1

end FileSystem

end Checkout
