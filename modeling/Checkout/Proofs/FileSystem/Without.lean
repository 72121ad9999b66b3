import Checkout.Proofs.FileSystem.Parents
import Checkout.Proofs.WorkingCopy.Reach

/-!
# Files taken away

When several files are taken away, what led to one of them leads nowhere and everything else is as before. In
particular the canonical form of a path stays the same, if it led to a directory.
-/

namespace Checkout

namespace FileSystem

variable {files other : FileSystem} {gone : List Location} {path root : Path} {location : Location}
  {node : Node}

/-- The files without the entries at some locations. -/
def without (files : FileSystem) (gone : List Location) : FileSystem :=
  { files with nodes := files.nodes.filter fun entry => entry.1 ∉ gone }

@[simp]
theorem without_nil (files : FileSystem) : files.without [] = files := by
  simp [without]

theorem without_without (files : FileSystem) (gone more : List Location) :
    (files.without gone).without more = files.without (gone ++ more) := by
  simp [without, List.filter_filter, Bool.and_comm]

theorem without_singleton (files : FileSystem) (location : Location) :
    files.without [location] = files.erase location := by
  simp [without, erase]

@[simp]
theorem held_without (files : FileSystem) (gone : List Location) :
    (files.without gone).held = files.held := rfl

theorem node?_without_of_notMem (outside : location ∉ gone) :
    (files.without gone).node? location = files.node? location := by
  by_cases root : location = []
  · simp [root]
  · rw [node?_eq root, node?_eq root, without, List.find?_filter]
    congr 2
    funext entry
    by_cases here : entry.1 = location
    · simp [here, outside]
    · simp [here]

theorem node?_without_of_mem (nonroot : location ≠ []) (inside : location ∈ gone) :
    (files.without gone).node? location = none := by
  rw [node?_eq nonroot, Option.map_eq_none_iff, List.find?_eq_none]
  intro entry entry_mem here
  have kept := (List.mem_filter.mp entry_mem).2
  rw [decide_eq_true_eq] at here kept
  exact kept (here ▸ inside)

/-- There is a file at each of some locations. -/
def AreFiles (files : FileSystem) (gone : List Location) : Prop :=
  ∀ location ∈ gone, ∃ identity, files.node? location = some (.file identity)

theorem AreFiles.nonroot (areFiles : files.AreFiles gone) (inside : location ∈ gone) :
    location ≠ [] := by
  rintro rfl
  obtain ⟨identity, isFile⟩ := areFiles [] inside
  simp at isFile

theorem AreFiles.agreeOutside (areFiles : files.AreFiles gone) :
    AgreeOutside files (files.without gone) {location | location ∈ gone} := by
  refine ⟨sameTree_of_leaves rfl ?_, fun _ outside => (node?_without_of_notMem outside).symm⟩
  intro location
  by_cases inside : location ∈ gone
  · obtain ⟨identity, isFile⟩ := areFiles location inside
    right
    simp [skeleton?, isFile, node?_without_of_mem (areFiles.nonroot inside) inside]
  · exact Or.inl (node?_without_of_notMem inside).symm

theorem WellFormed.without (wellFormed : files.WellFormed) (areFiles : files.AreFiles gone) :
    (files.without gone).WellFormed := by
  have mem {entry : Location × Node} (entry_mem : entry ∈ (files.without gone).nodes) :
      entry ∈ files.nodes := (List.mem_filter.mp entry_mem).1
  refine ⟨?_, fun entry entry_mem => wellFormed.nonroot entry (mem entry_mem),
    fun entry entry_mem => wellFormed.proper entry (mem entry_mem), ?_,
    fun location identity entry_mem => wellFormed.known location identity (mem entry_mem),
    wellFormed.heldKnown, wellFormed.currentProper⟩
  · exact wellFormed.distinct.sublist (List.filter_sublist.map _)
  · intro entry entry_mem
    exact areFiles.agreeOutside.sameTree.directory_iff.mp (wellFormed.parent entry (mem entry_mem))

/-- What led somewhere else still does. -/
theorem WellFormed.entry_without (wellFormed : files.WellFormed) (areFiles : files.AreFiles gone) :
    (files.without gone).entry true path = .ok (location, node) ↔
      files.entry true path = .ok (location, node) ∧ location ∉ gone := by
  have agree := areFiles.agreeOutside
  have otherWellFormed := wellFormed.without areFiles
  constructor
  · intro found
    have inside := resolve_sound otherWellFormed (entry_eq_ok.mp found)
    have outside : location ∉ gone := by
      intro listed
      rw [Spot.Sound, node?_without_of_mem (areFiles.nonroot listed) listed] at inside
      simp at inside
    obtain ⟨spot, resolved, location_eq⟩ := resolve_location agree.symm.sameTree (entry_eq_ok.mp found)
    rw [Spot.Sound, node?_without_of_notMem outside] at inside
    exact ⟨found_of_node? wellFormed resolved location_eq inside, outside⟩
  · rintro ⟨found, outside⟩
    have inside := resolve_sound wellFormed (entry_eq_ok.mp found)
    obtain ⟨spot, resolved, location_eq⟩ := resolve_location agree.sameTree (entry_eq_ok.mp found)
    rw [Spot.Sound, ← node?_without_of_notMem outside] at inside
    exact found_of_node? otherWellFormed resolved location_eq inside

theorem WellFormed.isVersioned_without (wellFormed : files.WellFormed) (areFiles : files.AreFiles gone) :
    (files.without gone).isVersioned path = true ↔ ∃ location identity,
      files.entry true (Area.entriesFile path) = .ok (location, .file identity) ∧ location ∉ gone := by
  simp only [isVersioned, isFile_iff, wellFormed.entry_without areFiles]

theorem isDirectory_iff :
    files.isDirectory path = true ↔ ∃ location, files.entry true path = .ok (location, .directory) := by
  rw [isDirectory]
  split
  · rename_i location found
    simp [found]
  · rename_i other
    simp only [Bool.false_eq_true, false_iff, not_exists]
    exact other

theorem AreFiles.isDirectory_without (areFiles : files.AreFiles gone) (path : Path) :
    (files.without gone).isDirectory path = files.isDirectory path := by
  have same := areFiles.agreeOutside.sameTree
  rw [Bool.eq_iff_iff, isDirectory_iff, isDirectory_iff]
  exact exists_congr fun location => ⟨entry_congr same.symm, entry_congr same⟩

theorem WellFormed.realPath_without_eq_none (wellFormed : files.WellFormed)
    (areFiles : files.AreFiles gone) (nowhere : files.realPath? path = none) :
    (files.without gone).realPath? path = none := by
  cases real_eq : (files.without gone).realPath? path with
  | none => rfl
  | some real =>
      obtain ⟨location, node, found, -⟩ := exists_entry_of_realPath real_eq
      rw [realPath_of_entry ((wellFormed.entry_without areFiles).mp found).1] at nowhere
      simp at nowhere

/-! ## Canonical forms -/

theorem walkSteps_notLink {enter : Location → List OsText → Except IoFailure Spot}
    (enterNotLink : ∀ directory names location target,
      enter directory names ≠ .ok (.found location (.link target)))
    (directory : Location) (names : List OsText) (target : OsText) :
    walkSteps files true enter directory names ≠ .ok (.found location (.link target)) := by
  induction names generalizing directory with
  | nil => simp [walkSteps]
  | cons step rest ih =>
      rw [walkSteps]
      split
      · exact ih directory
      · split
        · exact ih directory.dropLast
        · split
          · simp
          · simp only
            split
            · split <;> simp
            · exact ih _
            · split <;> simp
            · simp only [Bool.not_true, Bool.false_eq_true, and_false, if_false]
              split
              · simp
              · exact enterNotLink _ _ _ _

/-- A walk that follows links does not end at one. -/
theorem walk_notLink (links : Nat) (directory : Location) (names : List OsText) (target : OsText) :
    walk files true links directory names ≠ .ok (.found location (.link target)) := by
  induction links generalizing directory names location target with
  | zero => exact walkSteps_notLink (by simp) directory names target
  | succ links ih => exact walkSteps_notLink (fun _ _ _ _ => ih _ _ _) directory names target

theorem entry_notLink {target : OsText} : files.entry true path ≠ .ok (location, .link target) := by
  intro found
  exact walk_notLink maxLinks _ _ target (resolve_eq_ok.mp (entry_eq_ok.mp found)).2

/-- If the real path of what was found leads to a directory, then a directory was found. -/
theorem WellFormed.directory_of_entry_path (wellFormed : files.WellFormed) {front : Location}
    (reached : files.entry true path = .ok (location, node))
    (found : files.entry true location.path = .ok (front, .directory)) : node = .directory := by
  have inside : files.node? location = some node := resolve_sound wellFormed (entry_eq_ok.mp reached)
  have notLink : ∀ target, node ≠ .link target := by
    rintro target rfl
    exact entry_notLink reached
  obtain rfl := location_of_entry_path wellFormed inside notLink found
  have isDirectory : files.node? front = some .directory :=
    resolve_sound wellFormed (entry_eq_ok.mp found)
  rw [inside, Option.some.injEq] at isDirectory
  exact isDirectory

/-- What lies on the way to a directory is a directory. -/
theorem entry_front {reached : Location} {names : List OsText}
    (proper : ∀ name ∈ location ++ names, ProperName name)
    (found : files.entry true (Location.path (location ++ names)) = .ok (reached, .directory)) :
    ∃ front, files.entry true location.path = .ok (front, .directory) := by
  induction names using List.reverseRecOn generalizing reached with
  | nil => exact ⟨reached, by rwa [List.append_nil] at found⟩
  | append_singleton names name ih =>
      rw [← List.append_assoc] at found proper
      rw [← Location.join_path proper] at found
      obtain ⟨middle, _, middle_found, -⟩ := walk_of_resolve_join (Location.isAbsolute_path _)
        (proper name (by simp)) (entry_eq_ok.mp found)
      exact ih (fun name name_mem => proper name (List.mem_append_left _ name_mem)) middle_found

theorem WellFormed.canonicalFrom_without (wellFormed : files.WellFormed) (areFiles : files.AreFiles gone)
    {fallback existing : Path} {bound : Nat} {missing : List OsText}
    (proper : ∀ name ∈ missing, ProperName name)
    (found : files.entry true (canonicalFrom files fallback bound existing missing) =
      .ok (location, .directory)) :
    canonicalFrom (files.without gone) fallback bound existing missing =
      canonicalFrom files fallback bound existing missing := by
  induction bound generalizing existing missing with
  | zero => rfl
  | succ bound ih =>
      rw [canonicalFrom] at found
      rw [canonicalFrom, canonicalFrom]
      cases real_eq : files.realPath? existing with
      | some real =>
          -- what was found is on the way to a directory, so it is a directory itself
          obtain ⟨reached, node, reached_eq, rfl⟩ := exists_entry_of_realPath real_eq
          have inside : files.node? reached = some node :=
            resolve_sound wellFormed (entry_eq_ok.mp reached_eq)
          have all_proper : ∀ name ∈ reached ++ missing, ProperName name := by
            intro name name_mem
            rcases List.mem_append.mp name_mem with above | below
            · exact wellFormed.proper_of_node? inside name above
            · exact proper name below
          simp only [real_eq, Location.foldl_join_path all_proper] at found
          obtain ⟨front, front_found⟩ := entry_front all_proper found
          obtain rfl := wellFormed.directory_of_entry_path reached_eq front_found
          rw [realPath_of_entry (entry_congr areFiles.agreeOutside.sameTree reached_eq)]
      | none =>
          simp only [real_eq] at found
          simp only [wellFormed.realPath_without_eq_none areFiles real_eq]
          cases above : existing.parent? with
          | none => rfl
          | some parent =>
              cases named : existing.name? with
              | none => rfl
              | some name =>
                  simp only [above, named] at found
                  apply ih _ found
                  intro other other_mem
                  rcases List.mem_cons.mp other_mem with rfl | older
                  · exact Path.properName_of_name? named
                  · exact proper other older

/-- A path that means a directory means the same directory when files are gone. -/
theorem WellFormed.canonical_without (wellFormed : files.WellFormed) (areFiles : files.AreFiles gone)
    (canonical : files.canonical path = .ok root)
    (found : files.entry true root = .ok (location, .directory)) :
    (files.without gone).canonical path = .ok root := by
  have sameTree := areFiles.agreeOutside.sameTree
  simp only [FileSystem.canonical] at canonical
  cases real_eq : files.realPath? path with
  | some real =>
      simp only [real_eq, Except.ok.injEq] at canonical
      obtain ⟨reached, node, reached_eq, rfl⟩ := exists_entry_of_realPath real_eq
      rw [← canonical] at found
      obtain rfl := wellFormed.directory_of_entry_path reached_eq found
      rw [canonical_of_entry (entry_congr sameTree reached_eq), canonical]
  | none =>
      simp only [real_eq] at canonical
      have current : ((files.without gone).node? (files.without gone).current = some .directory) ↔
          files.node? files.current = some .directory := sameTree.directory_iff.symm
      rw [FileSystem.canonical, wellFormed.realPath_without_eq_none areFiles real_eq]
      simp only [ne_eq, current]
      split at canonical
      · simp at canonical
      · rename_i startable
        rw [Except.ok.injEq] at canonical
        rw [if_neg startable]
        have absolute_eq : (files.without gone).absolute path = files.absolute path := rfl
        simp only [absolute_eq]
        rw [wellFormed.canonicalFrom_without areFiles (by simp) (by rwa [canonical]), canonical]

end FileSystem

end Checkout
