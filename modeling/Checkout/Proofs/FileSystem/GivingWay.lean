import Checkout.Proofs.FileSystem.Walks

/-!
# Entries that give way

A lock file may be a link. Its path opens the file that the link leads to, but removes the link. So while lock
files are opened and removed, links go as well as files, and what led through such a link leads to its place.
Everything else is found where it was.
-/

namespace Checkout

namespace FileSystem

variable {files before now after : FileSystem} {paths : Set Path} {path : Path} {directory location : Location}
  {names rest : List OsText} {step target : OsText} {links : Nat} {spot other : Spot}

/-- To open a file by its path, or to remove it, touches the place of the path and where the path leads. Directories
are left alone. -/
structure Touches (files : FileSystem) (path : Path) (location : Location) : Prop where
  notDirectory : files.node? location ≠ some .directory
  meant : files.IsPlace path location ∨ ∃ spot, files.LeadsTo path spot ∧ spot.location = location

/-- What was at a location has given way to a file made since, or to nothing. -/
structure GivesWay (before now : FileSystem) (path : Path) (location : Location) : Prop where
  touched : before.Touches path location
  since : ∀ node, now.node? location = some node →
    ∃ identity, before.nextFile ≤ identity ∧ node = .file identity
  /-- A link led to something that is touched as well. -/
  through : ∀ directory name target, location = directory ++ [name] →
    before.node? location = some (.link target) →
      ∃ links spot, Walks before links directory [name] spot ∧ before.Touches path spot.location

/-- Entries have given way only where some paths touch them. -/
structure AgreeUpTo (before now : FileSystem) (paths : Set Path) : Prop where
  current : before.current = now.current
  elsewhere : ∀ location, now.node? location = before.node? location ∨
    ∃ path ∈ paths, GivesWay before now path location

/-- Both spots are touched by the same one of some paths. -/
def TouchedAlike (files : FileSystem) (paths : Set Path) (spot other : Spot) : Prop :=
  ∃ path ∈ paths, files.Touches path spot.location ∧ files.Touches path other.location

theorem AgreeUpTo.refl (files : FileSystem) (paths : Set Path) : AgreeUpTo files files paths :=
  ⟨rfl, fun _ => .inl rfl⟩

/-- More entries give way. -/
theorem AgreeUpTo.further (agree : AgreeUpTo before now paths) (current : now.current = after.current)
    (changes : ∀ location, after.node? location = now.node? location ∨
      ∃ path ∈ paths, GivesWay before after path location) : AgreeUpTo before after paths := by
  refine ⟨agree.current.trans current, ?_⟩
  intro location
  rcases changes location with same | gives
  · rcases agree.elsewhere location with was | ⟨path, path_mem, touched, since, through⟩
    · exact .inl (same.trans was)
    · exact .inr ⟨path, path_mem, touched, same ▸ since, through⟩
  · exact .inr gives

/-! ## Entries that stay -/

theorem GivesWay.notDirectory (gives : GivesWay before now path location) :
    now.node? location ≠ some .directory := by
  intro isDirectory
  obtain ⟨_, -, impossible⟩ := gives.since _ isDirectory
  simp at impossible

theorem GivesWay.notLink (gives : GivesWay before now path location) (target : OsText) :
    now.node? location ≠ some (.link target) := by
  intro isLink
  obtain ⟨_, -, impossible⟩ := gives.since _ isLink
  simp at impossible

theorem AgreeUpTo.directory_iff (agree : AgreeUpTo before now paths) :
    before.node? location = some .directory ↔ now.node? location = some .directory := by
  rcases agree.elsewhere location with same | ⟨path, -, gives⟩
  · rw [same]
  · exact iff_of_false gives.touched.notDirectory gives.notDirectory

theorem AgreeUpTo.link_before (agree : AgreeUpTo before now paths)
    (isLink : now.node? location = some (.link target)) : before.node? location = some (.link target) := by
  rcases agree.elsewhere location with same | ⟨path, -, gives⟩
  · rw [← same, isLink]
  · exact absurd isLink (gives.notLink target)

/-! ## Walks -/

/-- What has given way is the last step of a walk. -/
theorem GivesWay.walks_now (gives : GivesWay before now path (directory ++ [step])) (links : Nat)
    (isStep : IsStep step) :
    ∃ spot, Walks now links directory [step] spot ∧ before.Touches path spot.location := by
  obtain ⟨spot, walks, location_eq⟩ := Walks.leaf links isStep gives.notDirectory gives.notLink
  exact ⟨spot, walks, location_eq ▸ gives.touched⟩

theorem GivesWay.walks_before (gives : GivesWay before now path (directory ++ [step])) (isStep : IsStep step) :
    ∃ links spot, Walks before links directory [step] spot ∧ before.Touches path spot.location := by
  by_cases linked : ∃ target, before.node? (directory ++ [step]) = some (.link target)
  · obtain ⟨target, isLink⟩ := linked
    exact gives.through directory step target rfl isLink
  · obtain ⟨spot, walks, location_eq⟩ := Walks.leaf 0 isStep gives.touched.notDirectory (not_exists.mp linked)
    exact ⟨0, spot, walks, location_eq ▸ gives.touched⟩

/-- A walk through a link that has given way ended where the link led. -/
theorem GivesWay.last_of_link (gives : GivesWay before now path (directory ++ [step]))
    (wellFormed : before.WellFormed) (isLink : before.node? (directory ++ [step]) = some (.link target))
    (walks : Walks before links directory (step :: rest) spot) :
    rest = [] ∧ before.Touches path spot.location := by
  obtain ⟨more, other, another, touched⟩ := gives.through directory step target rfl isLink
  by_cases last : rest = []
  · subst last
    rw [walks.unique another]
    exact ⟨rfl, touched⟩
  · exfalso
    have inside : before.node? directory = some .directory :=
      wellFormed.prefix_directory isLink (List.cons_ne_nil step [])
    have proper : ProperName step := wellFormed.proper_of_node? isLink step (by simp)
    have isName : AreSteps [step] := by
      intro name name_mem
      rw [List.mem_singleton.mp name_mem]
      exact ⟨proper.nonempty, proper.noSlash⟩
    have split : walk before true links directory ([step] ++ rest) = .ok spot := walk_eq_ok_iff.mpr walks
    obtain ⟨middle, reached⟩ := walk_front last split
    obtain rfl := another.unique (walk_eq_ok_iff.mp reached)
    have isDirectory : before.node? middle = some .directory := another.sound wellFormed inside isName
    exact touched.notDirectory isDirectory

/-- Where a walk led before, it leads now, unless both ends are touched. -/
theorem AgreeUpTo.walks_now (agree : AgreeUpTo before now paths) (wellFormed : before.WellFormed)
    (walks : Walks before links directory names spot) :
    ∃ other, Walks now links directory names other ∧
      (other = spot ∨ before.TouchedAlike paths spot other) := by
  induction walks with
  | arrived links directory => exact ⟨_, .arrived links directory, .inl rfl⟩
  | here _ ih =>
      obtain ⟨other, further, alike⟩ := ih
      exact ⟨other, .here further, alike⟩
  | up _ ih =>
      obtain ⟨other, further, alike⟩ := ih
      exact ⟨other, .up further, alike⟩
  | down isStep entry _ ih =>
      obtain ⟨other, further, alike⟩ := ih
      exact ⟨other, .down isStep (agree.directory_iff.mp entry) further, alike⟩
  | vacant links isStep entry =>
      rcases agree.elsewhere _ with same | ⟨path, path_mem, gives⟩
      · exact ⟨_, .vacant links isStep (same.trans entry), .inl rfl⟩
      · obtain ⟨other, ends, touched⟩ := gives.walks_now links isStep
        exact ⟨other, ends, .inr ⟨path, path_mem, gives.touched, touched⟩⟩
  | file links isStep entry =>
      rcases agree.elsewhere _ with same | ⟨path, path_mem, gives⟩
      · exact ⟨_, .file links isStep (same.trans entry), .inl rfl⟩
      · obtain ⟨other, ends, touched⟩ := gives.walks_now links isStep
        exact ⟨other, ends, .inr ⟨path, path_mem, gives.touched, touched⟩⟩
  | @link links directory step target rest spot isStep entry nonempty further ih =>
      rcases agree.elsewhere (directory ++ [step]) with same | ⟨path, path_mem, gives⟩
      · obtain ⟨other, further, alike⟩ := ih
        exact ⟨other, .link isStep (same.trans entry) nonempty further, alike⟩
      · obtain ⟨rfl, wasTouched⟩ := gives.last_of_link wellFormed entry (.link isStep entry nonempty further)
        obtain ⟨other, ends, touched⟩ := gives.walks_now (links + 1) isStep
        exact ⟨other, ends, .inr ⟨path, path_mem, wasTouched, touched⟩⟩

/-- Where a walk leads now, it led before, unless both ends are touched. In that case it may have led through
more links. -/
theorem AgreeUpTo.walks_before (agree : AgreeUpTo before now paths)
    (walks : Walks now links directory names spot) :
    ∃ more other, Walks before more directory names other ∧
      (more = links ∧ other = spot ∨ before.TouchedAlike paths other spot) := by
  induction walks with
  | arrived links directory => exact ⟨links, _, .arrived links directory, .inl ⟨rfl, rfl⟩⟩
  | here _ ih =>
      obtain ⟨more, other, further, alike⟩ := ih
      exact ⟨more, other, .here further, alike⟩
  | up _ ih =>
      obtain ⟨more, other, further, alike⟩ := ih
      exact ⟨more, other, .up further, alike⟩
  | down isStep entry _ ih =>
      obtain ⟨more, other, further, alike⟩ := ih
      exact ⟨more, other, .down isStep (agree.directory_iff.mpr entry) further, alike⟩
  | vacant links isStep entry =>
      rcases agree.elsewhere _ with same | ⟨path, path_mem, gives⟩
      · exact ⟨links, _, .vacant links isStep (same.symm.trans entry), .inl ⟨rfl, rfl⟩⟩
      · obtain ⟨more, other, began, touched⟩ := gives.walks_before isStep
        exact ⟨more, other, began, .inr ⟨path, path_mem, touched, gives.touched⟩⟩
  | file links isStep entry =>
      rcases agree.elsewhere _ with same | ⟨path, path_mem, gives⟩
      · exact ⟨links, _, .file links isStep (same.symm.trans entry), .inl ⟨rfl, rfl⟩⟩
      · obtain ⟨more, other, began, touched⟩ := gives.walks_before isStep
        exact ⟨more, other, began, .inr ⟨path, path_mem, touched, gives.touched⟩⟩
  | link isStep entry nonempty _ ih =>
      obtain ⟨more, other, further, alike⟩ := ih
      refine ⟨more + 1, other, .link isStep (agree.link_before entry) nonempty further, ?_⟩
      exact alike.imp_left fun ⟨more_eq, other_eq⟩ => ⟨congrArg (· + 1) more_eq, other_eq⟩

/-! ## Paths -/

theorem AgreeUpTo.usable_iff (agree : AgreeUpTo before now paths) : Usable before path ↔ Usable now path := by
  constructor
  · rintro ⟨callable, startable⟩
    exact ⟨callable, agree.current ▸ startable.imp_right agree.directory_iff.mp⟩
  · rintro ⟨callable, startable⟩
    exact ⟨callable, agree.current ▸ startable.imp_right agree.directory_iff.mpr⟩

theorem AgreeUpTo.origin_eq (agree : AgreeUpTo before now paths) (path : Path) :
    before.origin path = now.origin path := by
  rw [origin, origin, agree.current]

theorem AgreeUpTo.resolve_now (agree : AgreeUpTo before now paths) (wellFormed : before.WellFormed)
    (resolved : before.resolve true path = .ok spot) :
    ∃ other, now.resolve true path = .ok other ∧ (other = spot ∨ before.TouchedAlike paths spot other) := by
  obtain ⟨usable, walks⟩ := resolve_eq_ok_iff.mp resolved
  obtain ⟨other, ends, alike⟩ := agree.walks_now wellFormed walks
  rw [agree.origin_eq] at ends
  exact ⟨other, resolve_eq_ok_iff.mpr ⟨agree.usable_iff.mp usable, ends⟩, alike⟩

theorem AgreeUpTo.resolve_before (agree : AgreeUpTo before now paths)
    (resolved : now.resolve true path = .ok spot) :
    before.resolve true path = .ok spot ∨
      ∃ other, before.LeadsTo path other ∧ before.TouchedAlike paths other spot := by
  obtain ⟨usable, walks⟩ := resolve_eq_ok_iff.mp resolved
  obtain ⟨more, other, began, alike⟩ := agree.walks_before walks
  rw [← agree.origin_eq] at began
  have wasUsable := agree.usable_iff.mpr usable
  rcases alike with ⟨rfl, rfl⟩ | alike
  · exact .inl (resolve_eq_ok_iff.mpr ⟨wasUsable, began⟩)
  · exact .inr ⟨other, ⟨wasUsable, more, began⟩, alike⟩

/-- What led to a directory still does. -/
theorem AgreeUpTo.walk_directory (agree : AgreeUpTo before now paths) (wellFormed : before.WellFormed)
    (inside : before.node? directory = some .directory) (areSteps : AreSteps names)
    (walked : walk before true links directory names = .ok (.found location .directory)) :
    walk now true links directory names = .ok (.found location .directory) := by
  have isDirectory : before.node? location = some .directory := walk_sound wellFormed inside areSteps walked
  obtain ⟨other, ends, rfl | ⟨path, -, touched, -⟩⟩ := agree.walks_now wellFormed (walk_eq_ok_iff.mp walked)
  · exact walk_eq_ok_iff.mpr ends
  · exact absurd isDirectory touched.notDirectory

theorem AgreeUpTo.entry_directory (agree : AgreeUpTo before now paths) (wellFormed : before.WellFormed)
    (found : before.entry true path = .ok (location, .directory)) :
    now.entry true path = .ok (location, .directory) := by
  obtain ⟨usable, walked⟩ := resolve_eq_ok.mp (entry_eq_ok.mp found)
  have still := agree.walk_directory wellFormed usable.origin_directory (areSteps_steps path.text) walked
  rw [agree.origin_eq] at still
  exact entry_eq_ok.mpr (resolve_eq_ok.mpr ⟨agree.usable_iff.mp usable, still⟩)

theorem AgreeUpTo.place (agree : AgreeUpTo before now paths) (wellFormed : before.WellFormed) {place : Place}
    (placed : before.place path = .ok place) : now.place path = .ok place := by
  obtain ⟨usable, reached, -, -⟩ := place_ok placed
  have areSteps : AreSteps path.names.dropLast :=
    fun step step_mem => areSteps_names path step (List.dropLast_subset _ step_mem)
  have still := agree.walk_directory wellFormed usable.origin_directory areSteps reached
  rw [agree.origin_eq] at still
  exact place_of_reached placed (agree.usable_iff.mp usable) still

end FileSystem

end Checkout
