import Checkout.Proofs.WorkingCopy.Preorder

/-!
# Areas without links

Below a directory, links may stand anywhere but at the administrative directories and in them. Then the
record and the lock file of a directory of a tree stand where the tree says, and lock files that come and go
change neither which directories are versioned nor which are the children of others.
-/

namespace Checkout

namespace FileSystem

variable {files other before now : FileSystem} {root directory path : Path} {top location : Location}
  {spot : Spot}

/-! ## The area of one directory -/

theorem entry_area_of_join (absolute : path.isAbsolute = true)
    (found : files.entry true path = .ok (location, .directory))
    (area : ∀ target, files.node? (location ++ [Area.directoryName]) ≠ some (.link target))
    {name : OsText} (proper : ProperName name)
    (resolved : files.resolve true ((Area.directory path).join name) = .ok spot) :
    files.entry true (Area.directory path) = .ok (location ++ [Area.directoryName], .directory) := by
  have areaAbsolute : (Area.directory path).isAbsolute = true :=
    Path.isAbsolute_join properName_directoryName absolute
  obtain ⟨reached, links, reached_eq, -⟩ := walk_of_resolve_join areaAbsolute proper resolved
  have location_eq := location_of_resolve_join absolute properName_directoryName found area
    (entry_eq_ok.mp reached_eq)
  rw [reached_eq, ← location_eq]
  rfl

/-- Neither the administrative directory of a versioned directory nor the lock file in it is a link. -/
structure PlainArea (files : FileSystem) (directory : Path) (location : Location) : Prop where
  absolute : directory.isAbsolute = true
  found : files.entry true directory = .ok (location, .directory)
  versioned : files.isVersioned directory = true
  area : ∀ target, files.node? (location ++ [Area.directoryName]) ≠ some (.link target)
  lockFile : ∀ target, files.node? (location ++ [Area.directoryName, "lock"]) ≠ some (.link target)

section Area

variable (plain : files.PlainArea directory location)

include plain

theorem PlainArea.entry_area :
    files.entry true (Area.directory directory) =
      .ok (location ++ [Area.directoryName], .directory) := by
  obtain ⟨_, _, record⟩ := isFile_iff.mp plain.versioned
  exact entry_area_of_join plain.absolute plain.found plain.area properName_entries (entry_eq_ok.mp record)

theorem PlainArea.isPlace_lockFile :
    files.IsPlace (Area.lockFile directory) (location ++ [Area.directoryName, "lock"]) := by
  obtain ⟨place, named⟩ := isPlace_of_isVersioned plain.absolute plain.versioned
  have areaAbsolute : (Area.directory directory).isAbsolute = true :=
    Path.isAbsolute_join properName_directoryName plain.absolute
  have place_eq := isPlace_join areaAbsolute properName_lock plain.entry_area named
  rw [List.append_assoc] at place_eq
  subst place_eq
  exact named

theorem PlainArea.not_namesLink_lockFile : ¬files.NamesLink (Area.lockFile directory) := by
  rintro ⟨place, target, named, isLink⟩
  rw [named.unique plain.isPlace_lockFile] at isLink
  exact plain.lockFile target isLink

theorem PlainArea.entry_lockFile :
    files.entry true (Area.lockFile directory) =
      match files.node? (location ++ [Area.directoryName, "lock"]) with
      | some node => .ok (location ++ [Area.directoryName, "lock"], node)
      | none => .error .notFound := by
  have noLink := plain.not_namesLink_lockFile
  obtain ⟨area, name, placed, place_eq⟩ := plain.isPlace_lockFile
  rw [place_eq]
  obtain ⟨-, -, slash, names⟩ := place_ok placed
  have notLink : ∀ target, files.node? (area ++ [name]) ≠ some (.link target) :=
    fun target isLink => noLink ⟨_, target, ⟨area, name, placed, rfl⟩, isLink⟩
  have resolved := (names name rfl).resolve_eq (by simpa using slash) notLink
  simp only [entry, bind, Except.bind, resolved]
  cases files.node? (area ++ [name]) <;> rfl

end Area

/-! ## Areas below a directory -/

/-- Below a directory no link is an administrative directory or stands in one, and no lock file has a
further name. -/
structure PlainAreas (files : FileSystem) (top : Location) : Prop where
  area : ∀ rest target, files.node? (top ++ rest ++ [Area.directoryName]) ≠ some (.link target)
  content : ∀ rest name target,
    files.node? (top ++ rest ++ [Area.directoryName, name]) ≠ some (.link target)
  unshared : ∀ rest location identity,
    files.node? (top ++ rest ++ [Area.directoryName, "lock"]) = some (.file identity) →
      files.node? location = some (.file identity) →
        location = top ++ rest ++ [Area.directoryName, "lock"]

/-- It is enough that no link lies in an administrative directory and no file has two names. -/
theorem plainAreas_of_nodes
    (noLink : ∀ location target, (location, Node.link target) ∈ files.nodes →
      Area.directoryName ∉ location)
    (unshared : ∀ location other identity, (location, Node.file identity) ∈ files.nodes →
      (other, Node.file identity) ∈ files.nodes → other = location) : files.PlainAreas top := by
  have apart {location : Location} {target : OsText} (area_mem : Area.directoryName ∈ location) :
      files.node? location ≠ some (.link target) :=
    fun isLink => noLink _ _ (mem_of_node? (List.ne_nil_of_mem area_mem) isLink) area_mem
  refine ⟨fun rest target => apart (by simp), fun rest name target => apart (by simp), ?_⟩
  intro rest location identity lockFile isFile
  have nonroot : location ≠ [] := by
    rintro rfl
    simp at isFile
  exact unshared _ _ _ (mem_of_node? (by simp) lockFile) (mem_of_node? nonroot isFile)

theorem Within.plainArea (within : files.Within root top directory location)
    (plain : files.PlainAreas top) : files.PlainArea directory location := by
  obtain ⟨names, rfl, -⟩ := within.below
  exact ⟨within.absolute, within.found, within.versioned, plain.area names, plain.content names "lock"⟩

/-- What an administrative directory has under a name, if anything, stands in it. -/
theorem PlainAreas.location_content (plain : files.PlainAreas top) (absolute : path.isAbsolute = true)
    {rest : Location} {name : OsText} (found : files.entry true path = .ok (top ++ rest, .directory))
    (proper : ProperName name)
    (resolved : files.resolve true ((Area.directory path).join name) = .ok spot) :
    spot.location = top ++ rest ++ [Area.directoryName, name] := by
  have areaAbsolute : (Area.directory path).isAbsolute = true :=
    Path.isAbsolute_join properName_directoryName absolute
  have notLink := plain.content rest name
  have shape : top ++ rest ++ [Area.directoryName, name] =
      top ++ rest ++ [Area.directoryName] ++ [name] := by simp
  rw [shape] at notLink ⊢
  exact location_of_resolve_join areaAbsolute proper
    (entry_area_of_join absolute found (plain.area rest) proper resolved) notLink resolved

/-! ## Lock files that come and go -/

/-- Where lock files may stand. -/
def lockPlaces : Set Location :=
  {location | location.getLast? = some ("lock" : OsText)}

theorem mem_lockPlaces_of_isPlace {place : Location}
    (named : files.IsPlace (Area.lockFile directory) place) : place ∈ lockPlaces := by
  obtain ⟨area, name, placed, rfl⟩ := named
  have last := ((place_ok placed).2.2.2 name rfl).last
  rw [Area.lockFile, Path.names_join _ properName_lock, List.getLast?_concat] at last
  change (area ++ [name]).getLast? = some ("lock" : OsText)
  rw [List.getLast?_concat, last]

/-- No record of a directory below the top stands where lock files may stand. -/
theorem PlainAreas.recordOutside (plain : files.PlainAreas top) (absolute : path.isAbsolute = true)
    (inside : ∀ location, files.entry true path = .ok (location, .directory) →
      ∃ rest, location = top ++ rest) : files.RecordOutside lockPlaces path := by
  intro spot resolved
  have areaAbsolute : (Area.directory path).isAbsolute = true :=
    Path.isAbsolute_join properName_directoryName absolute
  obtain ⟨area, _, area_found, -⟩ := walk_of_resolve_join areaAbsolute properName_entries resolved
  obtain ⟨location, _, found, -⟩ :=
    walk_of_resolve_join absolute properName_directoryName (entry_eq_ok.mp area_found)
  obtain ⟨rest, rfl⟩ := inside location found
  rw [plain.location_content absolute found properName_entries resolved]
  simp [lockPlaces]

theorem Within.recordOutside (within : files.Within root top directory location)
    (plain : files.PlainAreas top) : files.RecordOutside lockPlaces directory := by
  apply plain.recordOutside within.absolute
  intro reached reached_eq
  obtain ⟨names, location_eq, -⟩ := within.below
  rw [within.found, Except.ok.injEq, Prod.mk.injEq] at reached_eq
  exact ⟨names, by rw [← reached_eq.1, location_eq]⟩

/-- The children of a directory of a tree stay the same while lock files come and go. -/
theorem Subdirectories.congr {names : List OsText} (children : files.Subdirectories directory names)
    (within : files.Within root top directory location) (plain : files.PlainAreas top)
    (agree : AgreeOutside files other lockPlaces) (wellFormed : files.WellFormed)
    (otherWellFormed : other.WellFormed) : other.Subdirectories directory names := by
  refine ⟨children.inOrder, ?_⟩
  intro name
  rw [children.mem_iff name]
  apply exists_congr
  intro reached
  have same_entry : files.entry true directory = .ok (reached, .directory) ↔
      other.entry true directory = .ok (reached, .directory) :=
    ⟨entry_congr agree.sameTree, entry_congr agree.symm.sameTree⟩
  rw [← same_entry, ← agree.sameTree.directory_iff]
  apply and_congr_right
  intro found
  apply and_congr_right
  intro isDirectory
  apply and_congr_right
  intro _
  have proper := wellFormed.proper_of_node? isDirectory name (by simp)
  have record : files.RecordOutside lockPlaces (directory.join name) := by
    apply plain.recordOutside (Path.isAbsolute_join proper within.absolute)
    intro child child_found
    have child_eq := location_of_resolve_join within.absolute proper found (by simp [isDirectory])
      (entry_eq_ok.mp child_found)
    obtain ⟨way, location_eq, -⟩ := within.below
    rw [within.found, Except.ok.injEq, Prod.mk.injEq] at found
    refine ⟨way ++ [name], ?_⟩
    rw [← List.append_assoc, ← location_eq, found.1]
    exact child_eq
  rw [agree.isVersioned_eq wellFormed otherWellFormed record]

/-- Where only lock files are borrowed, and none is gone, the files agree elsewhere. -/
theorem Borrowed.agreeOutside_lockPlaces {mine : List FileLock} (borrowed : Borrowed before now mine ∅)
    (named : ∀ lock ∈ mine, ∃ directory, lock.path = Area.lockFile directory) :
    AgreeOutside before now lockPlaces := by
  refine ⟨borrowed.sameTree, ?_⟩
  intro location outside
  rcases borrowed.elsewhere location with same | ⟨lock, lock_mem, place⟩ | ⟨-, -, path, path_mem, -⟩
  · exact same.symm
  · obtain ⟨directory, path_eq⟩ := named lock lock_mem
    rw [path_eq] at place
    exact absurd (mem_lockPlaces_of_isPlace place) outside
  · exact absurd path_mem (Set.notMem_empty path)

/-! ## Lock files of others -/

section Apart

variable {mine : List FileLock} {place : Location} (borrowed : Borrowed before now mine ∅)
  (apart : ∀ lock ∈ mine, ¬before.IsPlace lock.path place)

include borrowed apart

theorem Borrowed.node?_apart : now.node? place = before.node? place := by
  rcases borrowed.elsewhere place with same | ⟨lock, lock_mem, named⟩ | ⟨-, -, path, path_mem, -⟩
  · exact same
  · exact absurd named (apart lock lock_mem)
  · exact absurd path_mem (Set.notMem_empty path)

/-- A file with no further name is held by whom it was held. -/
theorem Borrowed.held_apart (wellFormed : before.WellFormed) {identity : Nat}
    (isFile : before.node? place = some (.file identity))
    (unshared : ∀ other, before.node? other = some (.file identity) → other = place) :
    identity ∈ now.held ↔ identity ∈ before.held := by
  rw [borrowed.held identity, or_iff_right]
  intro mine_held
  obtain ⟨lock, lock_mem, rfl⟩ := List.mem_map.mp mine_held
  obtain ⟨-, location, named, -, was⟩ := borrowed.taken lock lock_mem
  -- a borrowed file was there, and has no other name, or is newer than all that were
  rcases was with found | ⟨fresh, -⟩
  · rw [unshared location found] at named
    exact apart lock lock_mem named
  · have known := wellFormed.known_of_node? isFile
    omega

end Apart

end FileSystem

end Checkout
