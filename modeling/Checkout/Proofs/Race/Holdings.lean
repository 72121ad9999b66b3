import Checkout.Proofs.FileSystem.Parents
import Checkout.Proofs.Lock.Lending
import Checkout.Proofs.Race.Basic
import Mathlib.Algebra.BigOperators.Group.Finset.Basic
import Mathlib.Algebra.Order.BigOperators.Group.Multiset

/-!
# What racing calls hold

The claims in the process are those from before the race and one for each lock that a call holds, and no files
are held but the lock files of these locks. No two locks are on the same directory. So a directory in reach is
refused to a call only because one of the calls has locked it.
-/

namespace Checkout

open FileSystem (Lent Separate)

/-- Directories in reach of a canonical path have canonical paths. -/
theorem Reach.exists_location {files : FileSystem} {depth : Depth} {directory reached : Path}
    (reach : Reach files depth directory reached) (wellFormed : files.WellFormed)
    (canonical : ∃ location : Location, directory = location.path ∧ ∀ name ∈ location, ProperName name) :
    ∃ location : Location, reached = location.path ∧ ∀ name ∈ location, ProperName name := by
  induction reach with
  | here => exact canonical
  | inside deeper listed child_mem further ih =>
      obtain ⟨location, rfl, proper⟩ := canonical
      obtain ⟨name, nameProper, rfl⟩ := wellFormed.child_eq_join listed child_mem
      have allProper : ∀ other ∈ location ++ [name], ProperName other := by
        intro other other_mem
        rcases List.mem_append.mp other_mem with above | last
        · exact proper other above
        · exact List.mem_singleton.mp last ▸ nameProper
      exact ih ⟨location ++ [name], Location.join_path allProper, allProper⟩

namespace Race

variable {σ ι : Type} [DecidableEq ι] {calls : ι → Call} {before after : World σ} {race : Race σ ι}
  {call other : ι} {phase : Phase} {directory : Path} {files : FileSystem}

/-! ## Directories in reach -/

omit [DecidableEq ι] in
theorem InReach.isAbsolute (inReach : InReach calls files directory) (wellFormed : files.WellFormed) :
    directory.isAbsolute = true := by
  obtain ⟨call, location, -, reach⟩ := inReach
  exact reach.isAbsolute wellFormed location.isAbsolute_path

omit [DecidableEq ι] in
theorem InReach.isVersioned (inReach : InReach calls before.files directory)
    (ready : Ready calls before) : before.files.isVersioned directory = true := by
  obtain ⟨call, location, found, reach⟩ := inReach
  obtain ⟨other, otherFound, versioned⟩ := ready.roots call
  rw [found, Except.ok.injEq, Prod.mk.injEq] at otherFound
  obtain ⟨rfl, -⟩ := otherFound
  exact reach.isVersioned versioned

omit [DecidableEq ι] in
/-- There is one path for each directory in reach. -/
theorem InReach.eq_of_same {other : Path} (inReach : InReach calls files directory)
    (otherInReach : InReach calls files other) (wellFormed : files.WellFormed)
    (same : directory.same other = true) : directory = other := by
  have canonical {directory : Path} (inReach : InReach calls files directory) :
      ∃ location : Location, directory = location.path ∧ ∀ name ∈ location, ProperName name := by
    obtain ⟨call, top, found, reach⟩ := inReach
    have isDirectory : files.node? top = some .directory :=
      FileSystem.resolve_sound wellFormed (FileSystem.entry_eq_ok.mp found)
    exact reach.exists_location wellFormed ⟨top, rfl, wellFormed.proper_of_node? isDirectory⟩
  obtain ⟨location, rfl, proper⟩ := canonical inReach
  obtain ⟨elsewhere, rfl, otherProper⟩ := canonical otherInReach
  have components_eq : location.path.components = elsewhere.path.components := by
    simpa [Path.same] using same
  rw [Location.components_path proper, Location.components_path otherProper, List.cons.injEq] at components_eq
  rw [(List.map_inj_right fun _ _ => Component.name.inj).mp components_eq.2]

omit [DecidableEq ι] in
theorem InReach.lockFile_mem (inReach : InReach calls files directory) :
    Area.lockFile directory ∈ lockFiles calls files :=
  ⟨directory, inReach, rfl⟩

omit [DecidableEq ι] in
theorem Ready.separate (ready : Ready calls before) : Separate before.files (lockFiles calls before.files) where
  wellFormed := ready.wellFormed
  placed := by
    rintro _ ⟨directory, inReach, rfl⟩
    exact FileSystem.isPlace_of_isVersioned (inReach.isAbsolute ready.wellFormed) (inReach.isVersioned ready)
  unshared := by
    rintro _ ⟨directory, inReach, rfl⟩ _ ⟨other, otherInReach, rfl⟩ location elsewhere touched otherTouched
      shared
    have same := ready.unshared directory other location elsewhere inReach otherInReach touched otherTouched shared
    rw [inReach.eq_of_same otherInReach ready.wellFormed same]
  unlocked := by
    rintro _ ⟨directory, inReach, rfl⟩ location identity touched isFile
    exact ready.unlocked directory location identity inReach touched isFile

/-- The lock file of a directory in reach cannot be opened. -/
def Obstructed (calls : ι → Call) (files : FileSystem) (directory : Path) : Prop :=
  InReach calls files directory ∧
    ∃ failure, FileSystem.openFile (Area.lockFile directory) files = .error failure files

/-! ## Holdings -/

variable [Fintype ι]

/-- `locks` are the locks that the calls hold, the one taken last first. -/
structure Holds (calls : ι → Call) (before : World σ) (race : Race σ ι) (locks : List AreaLock) :
    Prop where
  locks_eq : (locks : Multiset AreaLock) = ∑ call, ((race.phase call).taken : Multiset AreaLock)
  ledger : Descent.Ledger before.claims ⟨race.world, [], locks⟩
  lent : Lent before.files race.world.files (AreaLock.fileLocks locks) (lockFiles calls before.files)
  inReach : ∀ lock ∈ locks, InReach calls before.files lock.path

omit [DecidableEq ι] in
theorem holds_start (ready : Ready calls before) : Holds calls before (start before) [] where
  locks_eq := by simp [start, Phase.taken]
  ledger := Descent.Ledger.start before []
  lent := Lent.start ready.separate
  inReach := by simp

/-- The locks of all calls are those of one and those of the others. -/
theorem sum_taken (race : Race σ ι) (call : ι) :
    ∑ call, ((race.phase call).taken : Multiset AreaLock) =
      (race.phase call).taken + ∑ other ∈ Finset.univ.erase call, ((race.phase other).taken :
        Multiset AreaLock) :=
  (Finset.add_sum_erase _ _ (Finset.mem_univ call)).symm

theorem sum_taken_advance (race : Race σ ι) (call : ι) (after : World σ) (phase : Phase) :
    ∑ other, (((race.advance call after phase).phase other).taken : Multiset AreaLock) =
      phase.taken + ∑ other ∈ Finset.univ.erase call, ((race.phase other).taken :
        Multiset AreaLock) := by
  rw [sum_taken _ call, phase_advance_self]
  congr 1
  refine Finset.sum_congr rfl ?_
  intro other other_mem
  rw [phase_advance_of_ne (Finset.ne_of_mem_erase other_mem)]

namespace Holds

variable {locks : List AreaLock} {lock rival : AreaLock}

omit [DecidableEq ι] in
theorem mem_iff (holds : Holds calls before race locks) :
    lock ∈ locks ↔ ∃ call, lock ∈ (race.phase call).taken := by
  rw [← Multiset.mem_coe, holds.locks_eq, Multiset.mem_sum]
  simp

/-- No two calls hold locks on the same directory. -/
theorem apart (holds : Holds calls before race locks) (differ : call ≠ other)
    (lock_mem : lock ∈ (race.phase call).taken) (rival_mem : rival ∈ (race.phase other).taken) :
    lock.key ≠ rival.key := by
  have distinct : ((locks : Multiset AreaLock).map AreaLock.key).Nodup := holds.ledger.distinct
  rw [holds.locks_eq, sum_taken race call, Multiset.map_add, Multiset.nodup_add] at distinct
  have rival_elsewhere : rival ∈ ∑ other ∈ Finset.univ.erase call,
      ((race.phase other).taken : Multiset AreaLock) := by
    rw [Multiset.mem_sum]
    exact ⟨other, Finset.mem_erase.mpr ⟨differ.symm, Finset.mem_univ other⟩, rival_mem⟩
  intro same
  exact Multiset.disjoint_left.mp distinct.2.2 (Multiset.mem_map_of_mem AreaLock.key lock_mem)
    (same ▸ Multiset.mem_map_of_mem AreaLock.key rival_elsewhere)

omit [DecidableEq ι] in
theorem isClaimed_iff (holds : Holds calls before race locks) (directory : Path) :
    race.world.isClaimed directory = true ↔
      (∃ lock ∈ locks, lock.path.same directory = true) ∨ before.isClaimed directory = true := by
  have claims_eq : race.world.claims = locks.map AreaLock.key ++ before.claims := holds.ledger.claims_eq
  simp only [World.isClaimed_iff, claims_eq, List.mem_append, List.mem_map, AreaLock.key, Path.same,
    decide_eq_true_eq]

omit [DecidableEq ι] in
/-- The lock file of a directory that nobody has claimed is free. -/
theorem fresh_of_unclaimed (holds : Holds calls before race locks) (ready : Ready calls before)
    (inReach : InReach calls before.files directory) (unclaimed : race.world.isClaimed directory = false) :
    ∀ file ∈ AreaLock.fileLocks locks, file.path ≠ Area.lockFile directory := by
  intro file file_mem path_eq
  obtain ⟨lock, lock_mem, lock_eq⟩ := AreaLock.path_of_mem_fileLocks holds.ledger.sound file_mem
  have same := Area.components_of_lockFile_eq
    ((holds.inReach lock lock_mem).isAbsolute ready.wellFormed) (inReach.isAbsolute ready.wellFormed)
    (lock_eq.symm.trans path_eq)
  have claimed := (holds.isClaimed_iff directory).mpr (.inl ⟨lock, lock_mem, by simpa [Path.same] using same⟩)
  simp [unclaimed] at claimed

omit [DecidableEq ι] in
theorem isVersioned (holds : Holds calls before race locks) (ready : Ready calls before)
    (inReach : InReach calls before.files directory) :
    race.world.files.isVersioned directory = true := by
  rw [holds.lent.agree.isVersioned_eq ready.wellFormed (ready.records directory inReach)]
  exact inReach.isVersioned ready

omit [DecidableEq ι] in
/-- What led to a directory before the race leads to it at every moment. -/
theorem entry_directory (holds : Holds calls before race locks) (ready : Ready calls before) {path : Path}
    {location : Location} (found : before.files.entry true path = .ok (location, .directory)) :
    race.world.files.entry true path = .ok (location, .directory) :=
  holds.lent.agree.entry_directory ready.wellFormed found

/-! ### Steps -/

/-- A call goes on without taking a lock or giving one back. -/
theorem keep (holds : Holds calls before race locks) (claims_eq : after.claims = race.world.claims)
    (files_eq : after.files = race.world.files) (taken_eq : phase.taken = (race.phase call).taken) :
    Holds calls before (race.advance call after phase) locks where
  locks_eq := by rw [holds.locks_eq, sum_taken_advance, sum_taken race call, taken_eq]
  ledger := by
    obtain ⟨was, distinct, fresh, sound, allOpen⟩ := holds.ledger
    exact ⟨claims_eq.trans was, distinct, fresh, sound, allOpen⟩
  lent := by
    rw [world_advance, files_eq]
    exact holds.lent
  inReach := holds.inReach

/-- A call takes one more lock. -/
theorem acquire {write : Bool} {depth : Depth} (holds : Holds calls before race locks)
    (ready : Ready calls before) (call : ι) (phase : Phase) (inReach : InReach calls before.files directory)
    (acquired : AreaLock.acquire directory write depth race.world = .ok lock after)
    (taken_eq : phase.taken = lock :: (race.phase call).taken) :
    Holds calls before (race.advance call after phase) (lock :: locks) := by
  obtain ⟨-, held, locked, lock_eq⟩ := AreaLock.acquire_ok acquired
  have unclaimed : race.world.isClaimed directory = false := by
    rw [Bool.eq_false_iff, ne_eq, World.isClaimed_iff]
    exact (DirectoryLock.acquire_ok locked).1
  have further := AreaLock.lent_acquire holds.lent ready.separate inReach.lockFile_mem
    (holds.fresh_of_unclaimed ready inReach unclaimed) acquired
  refine ⟨?_, ?_, ?_, ?_⟩
  · rw [sum_taken_advance, taken_eq, ← Multiset.cons_coe, holds.locks_eq, sum_taken race call,
      ← Multiset.cons_coe, Multiset.cons_add]
  · have polled : AreaLock.poll none race.world = .ok () race.world := rfl
    exact holds.ledger.acquire polled acquired
  · rw [← AreaLock.fileLocks_append] at further
    exact further
  · intro other other_mem
    rcases List.mem_cons.mp other_mem with rfl | older
    · rw [lock_eq]
      exact inReach
    · exact holds.inReach other older

/-- A call gives one of its locks back. -/
theorem release (holds : Holds calls before race locks) (ready : Ready calls before)
    (lock_mem : lock ∈ (race.phase call).taken)
    (taken_eq : phase.taken = (race.phase call).taken.erase lock) :
    Holds calls before (race.advance call (stateAfter lock.release race.world) phase)
      (locks.erase lock) := by
  have listed : lock ∈ locks := holds.mem_iff.mpr ⟨call, lock_mem⟩
  refine ⟨?_, holds.ledger.release listed, ?_, ?_⟩
  · rw [sum_taken_advance, taken_eq, ← Multiset.coe_erase, holds.locks_eq, sum_taken race call,
      ← Multiset.coe_erase, Multiset.erase_add_left_pos _ (Multiset.mem_coe.mpr lock_mem)]
  · have reordered : (AreaLock.fileLocks locks).Perm
        (AreaLock.fileLocks [lock] ++ AreaLock.fileLocks (locks.erase lock)) := by
      rw [← AreaLock.fileLocks_append]
      exact (List.perm_cons_erase listed).filterMap _
    exact AreaLock.lent_release (holds.lent.perm reordered) ready.separate
  · exact fun other other_mem => holds.inReach other (List.mem_of_mem_erase other_mem)

/-! ### Refusals -/

omit [DecidableEq ι] in
/-- A directory in reach is refused because a call has locked it, or because its lock file could never be
opened. -/
theorem refused {write : Bool} {depth : Depth} {error : Error}
    (holds : Holds calls before race locks) (ready : Ready calls before)
    (inReach : InReach calls before.files directory)
    (refused : AreaLock.acquire directory write depth race.world = .error error after) :
    after.files = race.world.files ∧
      (error = .alreadyLocked directory ∧ (∃ lock ∈ locks, lock.path.same directory = true) ∨
        (∃ failure, error = .io failure) ∧ Obstructed calls before.files directory) := by
  obtain ⟨files_eq, reason⟩ := AreaLock.lent_refused holds.lent ready.separate inReach.lockFile_mem
    (holds.fresh_of_unclaimed ready inReach) (holds.isVersioned ready inReach) refused
  refine ⟨files_eq, ?_⟩
  rcases reason with ⟨error_eq, claimed⟩ | ⟨failed, unopenable⟩
  · rcases (holds.isClaimed_iff directory).mp claimed with taken | older
    · exact .inl ⟨error_eq, taken⟩
    · simp [ready.unclaimed directory inReach] at older
  · exact .inr ⟨failed, inReach, unopenable⟩

end Holds

end Race

end Checkout
