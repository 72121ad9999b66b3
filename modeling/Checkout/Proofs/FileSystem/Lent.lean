import Checkout.Proofs.FileSystem.GivingWay

/-!
# Lock files of one's own

Some paths each have a lock file of their own, be it behind a link. Whoever locks such files and removes them
changes no more than what the paths touch, so a lock can be had exactly as long as nobody has taken it.
-/

namespace Checkout

namespace FileSystem

variable {files before now after : FileSystem} {paths : Set Path} {path other : Path}
  {directory location elsewhere : Location} {name : OsText} {identity : Nat} {spot : Spot}

/-- Some paths each have a file of their own that nobody has locked, or a place for it. -/
structure Separate (files : FileSystem) (paths : Set Path) : Prop where
  wellFormed : files.WellFormed
  placed : ∀ path ∈ paths, ∃ location, files.IsPlace path location
  /-- No two paths touch one location, or one file under two names. -/
  unshared : ∀ path ∈ paths, ∀ other ∈ paths, ∀ location elsewhere, files.Touches path location →
    files.Touches other elsewhere →
    (location = elsewhere ∨ ∃ identity, files.node? location = some (.file identity) ∧
      files.node? elsewhere = some (.file identity)) → path = other
  unlocked : ∀ path ∈ paths, ∀ location identity, files.Touches path location →
    files.node? location = some (.file identity) → identity ∉ files.held

/-- A lock was taken on a file that its path touches. Before, the path led to a file or to a vacant place, be it
through more links than may be followed. -/
structure Stands (before now : FileSystem) (paths : Set Path) (lock : FileLock) : Prop where
  path_mem : lock.path ∈ paths
  leads : ∃ spot, before.LeadsTo lock.path spot ∧ before.Touches lock.path spot.location
  stands : ∃ location, before.Touches lock.path location ∧ now.node? location = some (.file lock.identity)

/-- The files while the locks `mine` are held, as compared with the files before any lock was taken by one of
the paths. -/
structure Lent (before now : FileSystem) (mine : List FileLock) (paths : Set Path) : Prop where
  wellFormed : now.WellFormed
  nextFile : before.nextFile ≤ now.nextFile
  agree : AgreeUpTo before now paths
  /-- A file made since has one name. -/
  single : ∀ identity location elsewhere, before.nextFile ≤ identity →
    now.node? location = some (.file identity) → now.node? elsewhere = some (.file identity) →
      location = elsewhere
  distinct : (mine.map FileLock.path).Nodup
  taken : ∀ lock ∈ mine, Stands before now paths lock
  held : ∀ identity, identity ∈ now.held ↔
    identity ∈ mine.map FileLock.identity ∨ identity ∈ before.held

/-! ## Opening -/

theorem openFile_of_place (placed : files.place path = .ok ⟨directory, some name, false⟩) :
    openFile path files = match files.resolve true path with
      | .error failure => .error failure files
      | .ok (.found _ (.file identity)) => .ok identity files
      | .ok (.found _ _) => .error .isDirectory files
      | .ok (.vacant directory name) =>
          .ok files.nextFile (files.putFile (directory ++ [name]) ByteArray.empty) := by
  rcases resolved : files.resolve true path with failure | ⟨location, node⟩ | ⟨directory, name⟩
  · simp [openFile, placed, resolved]
  · cases node <;> simp [openFile, placed, resolved]
  · simp [openFile, placed, resolved]

/-- No file can be opened by a path exactly if the path leads nowhere or to a directory. -/
theorem openFile_error_iff (placed : files.place path = .ok ⟨directory, some name, false⟩) :
    (∃ failure, openFile path files = .error failure files) ↔
      ∀ spot, files.resolve true path = .ok spot → ∃ location, spot = .found location .directory := by
  rw [openFile_of_place placed]
  cases resolved : files.resolve true path with
  | error failure => simp
  | ok spot =>
      rcases spot with ⟨location, node⟩ | ⟨directory, name⟩
      · cases node with
        | directory => simp
        | file identity => simp
        | link target => exact absurd rfl ((resolve_eq_ok_iff.mp resolved).2.ne_link location target)
      · simp

theorem AgreeUpTo.openFile_error (agree : AgreeUpTo before now paths) (wellFormed : before.WellFormed)
    (nowWellFormed : now.WellFormed) (place : before.IsPlace path location) {failure : IoFailure}
    (refused : openFile path now = .error failure now) :
    ∃ failure, openFile path before = .error failure before := by
  obtain ⟨directory, name, placed, rfl⟩ := place
  have refusals := (openFile_error_iff (agree.place wellFormed placed)).mp ⟨failure, refused⟩
  apply (openFile_error_iff placed).mpr
  intro spot resolved
  obtain ⟨other, stillResolved, alike⟩ := agree.resolve_now wellFormed resolved
  obtain ⟨reached, rfl⟩ := refusals other stillResolved
  rcases alike with rfl | ⟨path, -, -, touched⟩
  · exact ⟨reached, rfl⟩
  · have isDirectory : now.node? reached = some .directory := resolve_sound nowWellFormed stillResolved
    exact absurd (agree.directory_iff.mpr isDirectory) touched.notDirectory

/-- Unlinking changes nothing, or takes the name at the place of the path away. -/
theorem stateAfter_unlink_of_place (placed : files.place path = .ok ⟨directory, some name, false⟩) :
    stateAfter (unlink path) files = files ∨
      files.node? (directory ++ [name]) ≠ some .directory ∧
        stateAfter (unlink path) files = files.erase (directory ++ [name]) := by
  cases entry : files.node? (directory ++ [name]) with
  | none => simp [stateAfter, unlink, placed, Place.location, entry]
  | some node => cases node <;> simp [stateAfter, unlink, placed, Place.location, entry]

/-! ## Who holds what -/

namespace Lent

variable {mine rest : List FileLock} {lock : FileLock}

theorem start (separate : Separate before paths) : Lent before before [] paths where
  wellFormed := separate.wellFormed
  nextFile := Nat.le_refl _
  agree := AgreeUpTo.refl before paths
  single := by
    intro identity location elsewhere fresh isFile
    exact absurd (separate.wellFormed.known_of_node? isFile) (Nat.not_lt.mpr fresh)
  distinct := List.nodup_nil
  taken := by simp
  held := by simp

theorem perm {others : List FileLock} (lent : Lent before now mine paths) (reordered : mine.Perm others) :
    Lent before now others paths where
  wellFormed := lent.wellFormed
  nextFile := lent.nextFile
  agree := lent.agree
  single := lent.single
  distinct := (reordered.map _).nodup_iff.mp lent.distinct
  taken := fun lock lock_mem => lent.taken lock (reordered.mem_iff.mpr lock_mem)
  held := by
    intro identity
    rw [lent.held, (reordered.map _).mem_iff]

/-- What is at a location is a file made since, or it was there before. -/
theorem node?_before (lent : Lent before now mine paths) (isFile : now.node? location = some (.file identity)) :
    before.nextFile ≤ identity ∨ before.node? location = some (.file identity) := by
  rcases lent.agree.elsewhere location with same | ⟨path, -, gives⟩
  · exact .inr (same ▸ isFile)
  · obtain ⟨other, fresh, same⟩ := gives.since _ isFile
    rw [Node.file.injEq] at same
    exact .inl (same ▸ fresh)

/-- A file belongs to one path. -/
theorem owner (lent : Lent before now mine paths) (separate : Separate before paths) (path_mem : path ∈ paths)
    (other_mem : other ∈ paths) (touched : before.Touches path location)
    (otherTouched : before.Touches other elsewhere) (here : now.node? location = some (.file identity))
    (there : now.node? elsewhere = some (.file identity)) : path = other := by
  apply separate.unshared path path_mem other other_mem location elsewhere touched otherTouched
  rcases lent.node?_before here with fresh | was
  · exact .inl (lent.single identity location elsewhere fresh here there)
  · rcases lent.node?_before there with fresh | alsoWas
    · exact .inl (lent.single identity location elsewhere fresh here there)
    · exact .inr ⟨identity, was, alsoWas⟩

theorem notHeld_before (lent : Lent before now mine paths) (separate : Separate before paths)
    (path_mem : path ∈ paths) (touched : before.Touches path location)
    (here : now.node? location = some (.file identity)) : identity ∉ before.held := by
  rcases lent.node?_before here with fresh | was
  · exact fun held => absurd (separate.wellFormed.heldKnown identity held) (Nat.not_lt.mpr fresh)
  · exact separate.unlocked path path_mem location identity touched was

/-- A file that a path touches is held by whoever has taken the lock of the path. -/
theorem holder (lent : Lent before now mine paths) (separate : Separate before paths)
    (path_mem : path ∈ paths) (touched : before.Touches path location)
    (here : now.node? location = some (.file identity)) (held : identity ∈ now.held) :
    ∃ lock ∈ mine, lock.path = path := by
  rcases (lent.held identity).mp held with taken | older
  · obtain ⟨lock, lock_mem, rfl⟩ := List.mem_map.mp taken
    obtain ⟨lock_path_mem, -, elsewhere, lockTouched, there⟩ := lent.taken lock lock_mem
    exact ⟨lock, lock_mem, lent.owner separate lock_path_mem path_mem lockTouched touched there here⟩
  · exact absurd older (lent.notHeld_before separate path_mem touched here)

/-- A path that leads to a file or to a vacant place leads to what it touches. -/
theorem touches_of_resolve (lent : Lent before now mine paths) (separate : Separate before paths)
    (path_mem : path ∈ paths) (resolved : now.resolve true path = .ok spot)
    (leaf : now.node? spot.location ≠ some .directory) :
    before.Touches path spot.location ∧
      ∃ spot, before.LeadsTo path spot ∧ before.Touches path spot.location := by
  rcases lent.agree.resolve_before resolved with was | ⟨other, leads, toucher, toucher_mem, wasTouched, touched⟩
  · have leads := leadsTo_of_resolve was
    have touches : before.Touches path spot.location :=
      ⟨fun isDirectory => leaf (lent.agree.directory_iff.mp isDirectory), .inr ⟨spot, leads, rfl⟩⟩
    exact ⟨touches, spot, leads, touches⟩
  · have touches : before.Touches path other.location := ⟨wasTouched.notDirectory, .inr ⟨other, leads, rfl⟩⟩
    obtain rfl := separate.unshared path path_mem toucher toucher_mem _ _ touches wasTouched (.inl rfl)
    exact ⟨touched, other, leads, touches⟩

/-! ## Taking locks -/

theorem hold (lent : Lent before now mine paths) (fresh : ∀ lock ∈ mine, lock.path ≠ path)
    (here : now.node? location = some (.file identity))
    (stands : Stands before now paths ⟨identity, path⟩) :
    Lent before (now.hold identity) (⟨identity, path⟩ :: mine) paths where
  wellFormed := lent.wellFormed.hold (lent.wellFormed.known_of_node? here)
  nextFile := lent.nextFile
  agree := lent.agree.further rfl fun _ => .inl rfl
  single := lent.single
  distinct := by
    rw [List.map_cons, List.nodup_cons]
    refine ⟨?_, lent.distinct⟩
    intro listed
    obtain ⟨lock, lock_mem, path_eq⟩ := List.mem_map.mp listed
    exact fresh lock lock_mem path_eq
  taken := by
    intro lock lock_mem
    rcases List.mem_cons.mp lock_mem with rfl | older
    · exact ⟨stands.path_mem, stands.leads, stands.stands⟩
    · obtain ⟨path_mem, leads, stands⟩ := lent.taken lock older
      exact ⟨path_mem, leads, stands⟩
  held := by
    intro other
    rw [List.map_cons, List.mem_cons, or_assoc, ← lent.held]
    exact List.mem_cons

/-- Creating a file that a path touches. -/
theorem create (lent : Lent before now mine paths) (separate : Separate before paths) (path_mem : path ∈ paths)
    (touched : before.Touches path (directory ++ [name])) (inside : now.node? directory = some .directory)
    (vacant : now.node? (directory ++ [name]) = none) (proper : ProperName name) :
    Lent before (now.putFile (directory ++ [name]) ByteArray.empty) mine paths := by
  have here : (now.putFile (directory ++ [name]) ByteArray.empty).node? (directory ++ [name]) =
      some (.file now.nextFile) := node?_putFile_self (by simp)
  have still {location : Location} (apart : location ≠ directory ++ [name]) :
      (now.putFile (directory ++ [name]) ByteArray.empty).node? location = now.node? location :=
    node?_putFile_of_ne apart
  refine ⟨lent.wellFormed.putFile ByteArray.empty inside vacant proper, lent.nextFile.trans (Nat.le_succ _),
    lent.agree.further rfl ?_, ?_, lent.distinct, ?_, lent.held⟩
  · intro location
    rcases eq_or_ne location (directory ++ [name]) with rfl | apart
    · refine .inr ⟨path, path_mem, touched, ?_, ?_⟩
      · intro node node_eq
        rw [here, Option.some.injEq] at node_eq
        exact ⟨now.nextFile, lent.nextFile, node_eq.symm⟩
      · intro above last target same isLink
        rcases lent.agree.elsewhere (directory ++ [name]) with kept | ⟨other, other_mem, gives⟩
        · rw [← kept, vacant] at isLink
          simp at isLink
        · obtain rfl := separate.unshared path path_mem other other_mem _ _ touched gives.touched (.inl rfl)
          exact gives.through above last target same isLink
    · exact .inl (still apart)
  · intro identity location elsewhere fresh isFile alsoFile
    have unknown {location : Location} : now.node? location ≠ some (.file now.nextFile) :=
      fun isFile => Nat.lt_irrefl _ (lent.wellFormed.known_of_node? isFile)
    rcases eq_or_ne location (directory ++ [name]) with rfl | apart
    · rcases eq_or_ne elsewhere (directory ++ [name]) with rfl | otherApart
      · rfl
      · rw [here] at isFile
        rw [still otherApart, ← isFile] at alsoFile
        exact absurd alsoFile unknown
    · rw [still apart] at isFile
      rcases eq_or_ne elsewhere (directory ++ [name]) with rfl | otherApart
      · rw [here] at alsoFile
        rw [← alsoFile] at isFile
        exact absurd isFile unknown
      · rw [still otherApart] at alsoFile
        exact lent.single identity location elsewhere fresh isFile alsoFile
  · intro lock lock_mem
    obtain ⟨lock_path_mem, leads, location, lockTouched, isFile⟩ := lent.taken lock lock_mem
    refine ⟨lock_path_mem, leads, location, lockTouched, ?_⟩
    rw [still, isFile]
    rintro rfl
    simp [vacant] at isFile

/-- Locking a file that nobody has locked fails only if it could not have been opened before, and then changes
nothing. -/
theorem tryAcquire (lent : Lent before now mine paths) (separate : Separate before paths)
    (path_mem : path ∈ paths) (fresh : ∀ lock ∈ mine, lock.path ≠ path) :
    ((∃ failure, FileLock.tryAcquire path now = .error (.io failure) now) ∧
        ∃ failure, openFile path before = .error failure before) ∨
      ∃ lock after, FileLock.tryAcquire path now = .ok (some lock) after ∧ lock.path = path ∧
        Lent before after (lock :: mine) paths := by
  obtain ⟨_, place⟩ := separate.placed path path_mem
  have fails {failure : IoFailure} (refused : openFile path now = .error failure now) :
      (∃ failure, FileLock.tryAcquire path now = .error (.io failure) now) ∧
        ∃ failure, openFile path before = .error failure before :=
    ⟨⟨failure, by simp [FileLock.tryAcquire_apply, refused]⟩,
      lent.agree.openFile_error separate.wellFormed lent.wellFormed place refused⟩
  obtain ⟨_, _, placed, -⟩ := place
  have opened := openFile_of_place (lent.agree.place separate.wellFormed placed)
  cases resolved : now.resolve true path with
  | error failure =>
      rw [resolved] at opened
      exact .inl (fails opened)
  | ok spot =>
      have sound := resolve_sound lent.wellFormed resolved
      rw [resolved] at opened
      rcases spot with ⟨location, node⟩ | ⟨directory, name⟩
      · have isNode : now.node? location = some node := sound
        cases node with
        | directory => exact .inl (fails opened)
        | link target => exact absurd rfl ((resolve_eq_ok_iff.mp resolved).2.ne_link location target)
        | file identity =>
            obtain ⟨touched, leads⟩ := lent.touches_of_resolve separate path_mem resolved
              (by simp [Spot.location, isNode])
            have free : identity ∉ now.held := by
              intro held
              obtain ⟨lock, lock_mem, path_eq⟩ := lent.holder separate path_mem touched isNode held
              exact fresh lock lock_mem path_eq
            refine .inr ⟨⟨identity, path⟩, now.hold identity, ?_, rfl, ?_⟩
            · simp [FileLock.tryAcquire_apply, opened, isHeld, free]
            · exact lent.hold fresh isNode ⟨path_mem, leads, location, touched, isNode⟩
      · obtain ⟨inside, vacant, proper⟩ := sound
        obtain ⟨touched, leads⟩ := lent.touches_of_resolve separate path_mem resolved
          (by simp [Spot.location, vacant])
        have created := lent.create separate path_mem touched inside vacant proper
        have here : (now.putFile (directory ++ [name]) ByteArray.empty).node? (directory ++ [name]) =
            some (.file now.nextFile) := node?_putFile_self (by simp)
        have free : now.nextFile ∉ now.held :=
          fun held => Nat.lt_irrefl _ (lent.wellFormed.heldKnown _ held)
        have taken := created.hold fresh here ⟨path_mem, leads, _, touched, here⟩
        refine .inr ⟨⟨now.nextFile, path⟩, _, ?_, rfl, taken⟩
        simpa [FileLock.tryAcquire_apply, opened, isHeld, putFile, setBytes, put] using free

/-! ## Giving locks back -/

theorem unhold (lent : Lent before now (lock :: rest) paths) (separate : Separate before paths) :
    Lent before (now.unhold lock.identity) rest paths := by
  obtain ⟨path_mem, -, location, touched, here⟩ := lent.taken lock List.mem_cons_self
  have distinct := lent.distinct
  rw [List.map_cons, List.nodup_cons] at distinct
  refine ⟨lent.wellFormed.unhold _, lent.nextFile, lent.agree.further rfl fun _ => .inl rfl, lent.single,
    distinct.2, ?_, ?_⟩
  · intro other other_mem
    obtain ⟨other_path_mem, leads, stands⟩ := lent.taken other (List.mem_cons_of_mem _ other_mem)
    exact ⟨other_path_mem, leads, stands⟩
  · intro identity
    have was := lent.held identity
    rw [List.map_cons, List.mem_cons] at was
    simp only [FileSystem.unhold, List.mem_filter, was, decide_eq_true_eq]
    constructor
    · rintro ⟨(rfl | mine) | older, apart⟩
      · exact absurd rfl apart
      · exact .inl mine
      · exact .inr older
    · rintro (mine | older)
      · refine ⟨.inl (.inr mine), ?_⟩
        rintro rfl
        obtain ⟨other, other_mem, same⟩ := List.mem_map.mp mine
        obtain ⟨other_path_mem, -, elsewhere, otherTouched, there⟩ :=
          lent.taken other (List.mem_cons_of_mem _ other_mem)
        rw [same] at there
        have path_eq := lent.owner separate path_mem other_path_mem touched otherTouched here there
        exact distinct.1 (path_eq ▸ List.mem_map_of_mem other_mem)
      · refine ⟨.inr older, ?_⟩
        rintro rfl
        exact lent.notHeld_before separate path_mem touched here older

/-- Taking the name of a lock file away. -/
theorem erase (lent : Lent before now mine paths) (separate : Separate before paths) (path_mem : path ∈ paths)
    (placed : before.place path = .ok ⟨directory, some name, false⟩)
    (notDirectory : now.node? (directory ++ [name]) ≠ some .directory)
    (leads : ∃ spot, before.LeadsTo path spot ∧ before.Touches path spot.location)
    (fresh : ∀ lock ∈ mine, lock.path ≠ path) : Lent before (now.erase (directory ++ [name])) mine paths := by
  have nonroot : directory ++ [name] ≠ [] := by simp
  have touched : before.Touches path (directory ++ [name]) :=
    ⟨fun isDirectory => notDirectory (lent.agree.directory_iff.mp isDirectory),
      .inl ⟨directory, name, placed, rfl⟩⟩
  have kept {location : Location} {node : Node}
      (found : (now.erase (directory ++ [name])).node? location = some node) :
      now.node? location = some node := by
    rcases eq_or_ne location (directory ++ [name]) with rfl | apart
    · rw [node?_erase_self nonroot] at found
      simp at found
    · rwa [node?_erase_of_ne apart] at found
  refine ⟨lent.wellFormed.erase notDirectory, lent.nextFile, lent.agree.further rfl ?_, ?_, lent.distinct, ?_,
    lent.held⟩
  · intro location
    rcases eq_or_ne location (directory ++ [name]) with rfl | apart
    · refine .inr ⟨path, path_mem, touched, ?_, ?_⟩
      · intro node found
        rw [node?_erase_self nonroot] at found
        simp at found
      · intro above last target same isLink
        obtain ⟨rfl, last_eq⟩ := List.append_inj' same rfl
        obtain rfl := List.singleton_inj.mp last_eq
        obtain ⟨-, -, slash, named⟩ := place_ok placed
        obtain ⟨spot, leads, spotTouched⟩ := leads
        obtain ⟨links, walks⟩ := (named name rfl).walks_last (by simpa using slash) leads
        exact ⟨links, spot, walks, spotTouched⟩
    · exact .inl (node?_erase_of_ne apart)
  · intro identity location elsewhere fresh isFile alsoFile
    exact lent.single identity location elsewhere fresh (kept isFile) (kept alsoFile)
  · intro lock lock_mem
    obtain ⟨lock_path_mem, lockLeads, location, lockTouched, isFile⟩ := lent.taken lock lock_mem
    refine ⟨lock_path_mem, lockLeads, location, lockTouched, ?_⟩
    rw [node?_erase_of_ne, isFile]
    rintro rfl
    exact fresh lock lock_mem
      (separate.unshared _ lock_path_mem path path_mem _ _ lockTouched touched (.inl rfl))

/-- Giving a lock back removes its file, or the link that led to it. -/
theorem remove (lent : Lent before now (lock :: rest) paths) (separate : Separate before paths) :
    Lent before (stateAfter lock.remove now) rest paths := by
  obtain ⟨path_mem, leads, -⟩ := lent.taken lock List.mem_cons_self
  obtain ⟨_, directory, name, placed, -⟩ := separate.placed lock.path path_mem
  have unheld := lent.unhold separate
  have fresh : ∀ other ∈ rest, other.path ≠ lock.path := by
    intro other other_mem path_eq
    have distinct := lent.distinct
    rw [List.map_cons, List.nodup_cons] at distinct
    exact distinct.1 (path_eq ▸ List.mem_map_of_mem other_mem)
  rw [FileLock.stateAfter_remove]
  rcases stateAfter_unlink_of_place (lent.agree.place separate.wellFormed placed) with
    unchanged | ⟨notDirectory, erased⟩
  · rw [unchanged]
    exact unheld
  · rw [erased]
    exact unheld.erase separate path_mem placed notDirectory leads fresh

end Lent

end FileSystem

end Checkout
