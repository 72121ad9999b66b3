import Checkout.Proofs.Lock.Custody
import Checkout.Proofs.Lock.Records

/-!
# Custody in hierarchies

What is kept of the files, with the lock files of the open locks of a hierarchy, is kept by every operation
on the hierarchy, whether or not it fails. An operation that opens locks leaves nothing but files of live
locks where it has locked a file, even if it has given the lock back.
-/

namespace Checkout

variable {σ : Type} {used : Set Path} {keeps : FileSystem → Multiset FileLock → Prop}
  {others : Multiset FileLock}

open Relation (ReflTransGen)
open FileSystem (Custody Guarded Attends)

namespace Descent

variable {cancel : Option (Cancellation σ)} {write : Bool} {descends : Descent σ → Prop}
  {only : Descent σ}

/-- The lock files that some descents come to, to lock them. -/
def lockFilesOf (cancel : Option (Cancellation σ)) (write : Bool) (descends : Descent σ → Prop) :
    Set Path :=
  {path | ∃ start, descends start ∧ path ∈ start.lockFiles cancel write}

/-- The lock files that some descents lock. -/
def lockedFilesOf (cancel : Option (Cancellation σ)) (write : Bool) (descends : Descent σ → Prop) :
    Set Path :=
  {path | ∃ start, descends start ∧ path ∈ start.lockedFiles cancel write}

theorem lockFilesOf_eq (only_iff : ∀ start, descends start ↔ start = only) :
    lockFilesOf cancel write descends = only.lockFiles cancel write := by
  ext path
  simp [lockFilesOf, only_iff]

theorem lockedFilesOf_eq (only_iff : ∀ start, descends start ↔ start = only) :
    lockedFilesOf cancel write descends = only.lockedFiles cancel write := by
  ext path
  simp [lockedFilesOf, only_iff]

theorem lockFilesOf_mono {more : Descent σ → Prop} (sub : ∀ start, descends start → more start) :
    lockFilesOf cancel write descends ⊆ lockFilesOf cancel write more := by
  rintro path ⟨start, down, listed⟩
  exact ⟨start, sub start down, listed⟩

theorem attends_of_not_descends {files : FileSystem} {live : Multiset FileLock}
    (nowhere : ∀ start, ¬descends start) : Attends files live (lockedFilesOf cancel write descends) := by
  rintro path ⟨start, down, -⟩
  exact absurd down (nowhere start)

end Descent

namespace Hierarchy

open Descent (lockFilesOf lockedFilesOf)

variable {cancel : Option (Cancellation σ)} {write : Bool} {depth : Depth} {path root : Path}
  {world after : World σ} {hierarchy : Hierarchy} {error : Error}
  {claims : Multiset (List Component)}

/-- The files are kept, with the lock files of the open locks. -/
def KeptIn (keeps : FileSystem → Multiset FileLock → Prop) (others : Multiset FileLock)
    (state : World σ × Hierarchy) : Prop :=
  keeps state.1.files (AreaLock.live state.2.openLocks + others)

/-! ## Opening -/

theorem descendsAt_iff (canonical : world.files.canonical path = .ok root) (start : Descent σ) :
    DescendsAt world depth path start ↔ start = Descent.whole world depth root := by
  simp [DescendsAt, canonical]

theorem kept_openAt (custody : Custody used keeps) (kept : keeps world.files others)
    (inUse : lockFilesOf cancel write (DescendsAt world depth path) ⊆ used)
    (opened : openAt cancel write depth path world = .ok hierarchy after) :
    KeptIn (fun files live => keeps files live ∧
      Attends files live (lockedFilesOf cancel write (DescendsAt world depth path))) others
        (after, hierarchy) := by
  rcases openAt_ok opened with ⟨root, locks, canonical, ran, rfl⟩
  have ledger := Descent.ledger_lockTree ran
  have entered : (insertAll ⟨root, []⟩ locks).openLocks.Perm (locks ++ []) := by
    apply openLocks_insertAll
    · simpa using ledger.allOpen
    · simpa using ledger.distinct
    · simp [openLocks]
  rw [List.append_nil] at entered
  rw [Descent.lockFilesOf_eq (descendsAt_iff canonical)] at inUse
  rw [KeptIn, AreaLock.live_perm entered, Descent.lockedFilesOf_eq (descendsAt_iff canonical)]
  exact Descent.kept_lockTree custody kept inUse ran

theorem kept_openAt_error (custody : Custody used keeps) (kept : keeps world.files others)
    (inUse : lockFilesOf cancel write (DescendsAt world depth path) ⊆ used)
    (refused : openAt cancel write depth path world = .error error after) :
    keeps after.files others ∧
      Attends after.files others (lockedFilesOf cancel write (DescendsAt world depth path)) := by
  rcases openAt_error refused with ⟨rfl, nowhere⟩ | ⟨root, canonical, ran⟩
  · refine ⟨kept, Descent.attends_of_not_descends ?_⟩
    rintro start ⟨root, canonical, -⟩
    exact nowhere root canonical
  · rw [Descent.lockFilesOf_eq (descendsAt_iff canonical)] at inUse
    rw [Descent.lockedFilesOf_eq (descendsAt_iff canonical)]
    exact Descent.kept_lockTree_error custody kept inUse ran

/-- A descent that is made to open a hierarchy for a path or a directory above it. -/
def ProbeDescends (world : World σ) (depth : Depth) (path : Path) (start : Descent σ) : Prop :=
  ∃ depth' directory, probeTarget world.files depth path = some (depth', directory) ∧
    DescendsAt world depth' directory start

theorem probeDescends_eq {depth' : Depth} {directory : Path}
    (target : probeTarget world.files depth path = some (depth', directory)) :
    ProbeDescends world depth path = DescendsAt world depth' directory := by
  funext start
  simp [ProbeDescends, target]

theorem kept_probeOpen (custody : Custody used keeps) (kept : keeps world.files others)
    (inUse : lockFilesOf cancel write (ProbeDescends world depth path) ⊆ used)
    (opened : probeOpen cancel write depth path world = .ok hierarchy after) :
    KeptIn (fun files live => keeps files live ∧
      Attends files live (lockedFilesOf cancel write (ProbeDescends world depth path))) others
        (after, hierarchy) := by
  rcases probeOpen_apply cancel write depth path world with
    ⟨-, error, refused⟩ | ⟨depth', directory, target, same⟩
  · simp [refused] at opened
  · rw [same] at opened
    rw [probeDescends_eq target] at inUse ⊢
    exact kept_openAt custody kept inUse opened

theorem kept_probeOpen_error (custody : Custody used keeps) (kept : keeps world.files others)
    (inUse : lockFilesOf cancel write (ProbeDescends world depth path) ⊆ used)
    (refused : probeOpen cancel write depth path world = .error error after) :
    keeps after.files others ∧
      Attends after.files others (lockedFilesOf cancel write (ProbeDescends world depth path)) := by
  rcases probeOpen_apply cancel write depth path world with
    ⟨nowhere, other, same⟩ | ⟨depth', directory, target, same⟩
  · rw [same, EStateM.Result.error.injEq] at refused
    rw [← refused.2]
    refine ⟨kept, Descent.attends_of_not_descends ?_⟩
    rintro start ⟨depth', directory, target, -⟩
    simp [nowhere] at target
  · rw [same] at refused
    rw [probeDescends_eq target] at inUse ⊢
    exact kept_openAt_error custody kept inUse refused

/-! ## Opening further locks -/

theorem descendsBelow_iff {real : Path} (canonical : world.files.canonical path = .ok real)
    (accepts : hierarchy.Accepts world.files real) (start : Descent σ) :
    DescendsBelow world hierarchy depth path start ↔ start = Descent.whole world depth real := by
  simp [DescendsBelow, canonical, accepts]

theorem kept_openChild (custody : Custody used keeps) (accounts : Accounts claims (world, hierarchy))
    (kept : KeptIn keeps others (world, hierarchy))
    (inUse : lockFilesOf cancel write (DescendsBelow world hierarchy depth path) ⊆ used) :
    KeptIn (fun files live => keeps files live ∧
      Attends files live (lockedFilesOf cancel write (DescendsBelow world hierarchy depth path))) others
        (stateAfter (openChild cancel write depth path) (world, hierarchy)) := by
  rcases stateAfter_openChild cancel write depth path world hierarchy with
    ⟨unchanged, nowhere⟩ | ⟨real, error, failed, canonical, accepts, ran, same⟩ |
      ⟨real, locks, locked, canonical, accepts, ran, same⟩
  · rw [unchanged]
    refine ⟨kept, Descent.attends_of_not_descends ?_⟩
    rintro start ⟨real, canonical, accepts, -⟩
    exact nowhere real canonical accepts
  · rw [Descent.lockFilesOf_eq (descendsBelow_iff canonical accepts)] at inUse
    rw [same, Descent.lockedFilesOf_eq (descendsBelow_iff canonical accepts)]
    exact Descent.kept_lockTree_error custody kept inUse ran
  · have entered := accounts.openLocks_insertAll (Descent.ledger_lockTree ran)
    rw [Descent.lockFilesOf_eq (descendsBelow_iff canonical accepts)] at inUse
    rw [same, KeptIn, AreaLock.live_perm entered, AreaLock.live_append, add_assoc,
      Descent.lockedFilesOf_eq (descendsBelow_iff canonical accepts)]
    exact Descent.kept_lockTree custody kept inUse ran

/-- A descent that is made to open a lock for a path or a directory above it. -/
def TryDescends (world : World σ) (hierarchy : Hierarchy) (depth : Depth) (path : Path)
    (start : Descent σ) : Prop :=
  ∃ depth' directory, childTarget world.files depth path = some (depth', directory) ∧
    hierarchy.isLocked world.files directory = false ∧
    DescendsBelow world hierarchy depth' directory start

theorem tryDescends_eq {depth' : Depth} {directory : Path}
    (target : childTarget world.files depth path = some (depth', directory))
    (unlocked : hierarchy.isLocked world.files directory = false) :
    TryDescends world hierarchy depth path = DescendsBelow world hierarchy depth' directory := by
  funext start
  simp [TryDescends, target, unlocked]

theorem kept_probeTry (custody : Custody used keeps) (accounts : Accounts claims (world, hierarchy))
    (kept : KeptIn keeps others (world, hierarchy))
    (inUse : lockFilesOf cancel write (TryDescends world hierarchy depth path) ⊆ used) :
    KeptIn (fun files live => keeps files live ∧
      Attends files live (lockedFilesOf cancel write (TryDescends world hierarchy depth path))) others
        (stateAfter (probeTry cancel write depth path) (world, hierarchy)) := by
  rcases probeTry_apply cancel write depth path world hierarchy with
    ⟨unchanged, nowhere⟩ | ⟨depth', directory, target, unlocked, same⟩
  · rw [unchanged]
    refine ⟨kept, Descent.attends_of_not_descends ?_⟩
    rintro start ⟨depth', directory, target, unlocked, -⟩
    rw [nowhere depth' directory target] at unlocked
    simp at unlocked
  · rw [tryDescends_eq target unlocked] at inUse ⊢
    rw [stateAfter, same]
    exact kept_openChild custody accounts kept inUse

/-! ## Closing -/

theorem kept_closeLock (custody : Custody used keeps) (kept : KeptIn keeps others (world, hierarchy))
    (path : Path) : KeptIn keeps others (stateAfter (closeLock path) (world, hierarchy)) := by
  rw [stateAfter_closeLock]
  split
  · exact kept
  · rename_i real canonical
    split
    · rw [KeptIn, AreaLock.live_perm (hierarchy.openLocks_parted real), AreaLock.live_append,
        add_assoc] at kept
      exact AreaLock.kept_giveBack custody kept
    · exact kept

theorem kept_close (custody : Custody used keeps) (kept : KeptIn keeps others (world, hierarchy)) :
    KeptIn keeps others (stateAfter close (world, hierarchy)) := by
  rw [stateAfter_close]
  exact kept_closeLock custody kept hierarchy.root

/-- When a hierarchy is dropped its lock files are given back. -/
theorem kept_drop (custody : Custody used keeps) (kept : KeptIn keeps others (world, hierarchy)) :
    keeps (stateAfter hierarchy.drop world).files others := by
  rw [stateAfter_drop]
  rw [KeptIn, AreaLock.live_perm (List.reverse_perm _).symm] at kept
  exact AreaLock.kept_giveBack custody kept

/-- A lock that is closed is among those that a closing gives back. -/
theorem parted_closeLock {lock : AreaLock} (lock_mem : lock ∈ hierarchy.openLocks)
    (closed : lock ∉ (stateAfter (closeLock path) (world, hierarchy)).2.openLocks) :
    ∃ front, hierarchy.openLocks.Perm
      (lock :: (front ++ (stateAfter (closeLock path) (world, hierarchy)).2.openLocks)) := by
  rw [stateAfter_closeLock] at closed ⊢
  split at closed
  · exact absurd lock_mem closed
  · rename_i real canonical
    split at closed
    · rename_i found
      have parted := hierarchy.openLocks_parted real
      rcases List.mem_append.mp (parted.mem_iff.mp lock_mem) with under | left
      · rcases List.append_of_mem under with ⟨front, back, split⟩
        rw [split] at parted
        refine ⟨front ++ back, ?_⟩
        simp only [found, if_true]
        refine parted.trans ((List.perm_middle.append_right _).trans ?_)
        simp
      · exact absurd left closed
    · exact absurd lock_mem closed

/-- The lock file of a lock that is closed is gone. -/
theorem vacant_closeLock {lock : AreaLock} {held : DirectoryLock} {file : FileLock}
    (guarded : Guarded used world.files (AreaLock.live hierarchy.openLocks + others))
    (lock_mem : lock ∈ hierarchy.openLocks) (held_eq : lock.held = some held)
    (file_eq : held.file = some file)
    (closed : lock ∉ (stateAfter (closeLock path) (world, hierarchy)).2.openLocks) :
    (stateAfter (closeLock path) (world, hierarchy)).1.files.Vacant file.path := by
  rcases parted_closeLock lock_mem closed with ⟨front, parted⟩
  apply AreaLock.vacant_of_givenBack guarded parted held_eq file_eq
  intro keeps custody kept
  exact kept_closeLock custody kept path

theorem vacant_drop {lock : AreaLock} {held : DirectoryLock} {file : FileLock}
    (guarded : Guarded used world.files (AreaLock.live hierarchy.openLocks + others))
    (lock_mem : lock ∈ hierarchy.openLocks) (held_eq : lock.held = some held)
    (file_eq : held.file = some file) :
    (stateAfter hierarchy.drop world).files.Vacant file.path := by
  rcases List.append_of_mem lock_mem with ⟨front, back, split⟩
  have parted : hierarchy.openLocks.Perm (lock :: ((front ++ back) ++ [])) := by
    rw [split, List.append_nil]
    exact List.perm_middle
  apply AreaLock.vacant_of_givenBack guarded parted held_eq file_eq
  intro keeps custody kept
  rw [AreaLock.live_nil, zero_add]
  exact kept_drop custody kept

end Hierarchy

namespace Anchored

open Hierarchy (KeptIn)
open Descent (lockFilesOf lockFilesOf_mono)

variable {cancel : Option (Cancellation σ)} {write : Bool} {depth : Depth} {path : Path}
  {anchored : Anchored} {world after : World σ} {error : Error}

theorem kept_openAnchor (custody : Custody used keeps) (distinct : world.claims.Nodup)
    (kept : keeps world.files others)
    (inUse : lockFilesOf cancel write (Descends cancel write depth path world) ⊆ used)
    (opened : openAnchor cancel write depth path world = .ok anchored after) :
    KeptIn keeps others (after, anchored.hierarchy) := by
  rcases openAnchor_ok opened with
    ⟨anchor, found, ran⟩ |
      ⟨anchor, target, hierarchy, middle, found, ran, ⟨versioned, child⟩ | ⟨rfl, same⟩⟩
  · exact (Hierarchy.kept_openAt custody kept ((lockFilesOf_mono (descends_top found)).trans inUse)
      ran).1
  · have keptRoot := (Hierarchy.kept_openAt custody kept
      ((lockFilesOf_mono (descends_anchor found)).trans inUse) ran).1
    have keptBelow := (Hierarchy.kept_openChild custody (Hierarchy.accounts_openAt distinct ran)
      keptRoot ((lockFilesOf_mono (descends_target found ran versioned)).trans inUse)).1
    rw [child] at keptBelow
    exact keptBelow
  · rw [same]
    exact (Hierarchy.kept_openAt custody kept
      ((lockFilesOf_mono (descends_anchor found)).trans inUse) ran).1

theorem kept_openAnchor_error (custody : Custody used keeps) (distinct : world.claims.Nodup)
    (kept : keeps world.files others)
    (inUse : lockFilesOf cancel write (Descends cancel write depth path world) ⊆ used)
    (refused : openAnchor cancel write depth path world = .error error after) :
    keeps after.files others := by
  rcases openAnchor_error refused with
    rfl | ⟨anchor, found, ran⟩ | ⟨anchor, target, found, ran⟩ |
      ⟨anchor, target, hierarchy, middle, state, found, ran, versioned, child, rfl⟩
  · exact kept
  · exact (Hierarchy.kept_openAt_error custody kept
      ((lockFilesOf_mono (descends_top found)).trans inUse) ran).1
  · exact (Hierarchy.kept_openAt_error custody kept
      ((lockFilesOf_mono (descends_anchor found)).trans inUse) ran).1
  · have keptRoot := (Hierarchy.kept_openAt custody kept
      ((lockFilesOf_mono (descends_anchor found)).trans inUse) ran).1
    have keptBelow := (Hierarchy.kept_openChild custody (Hierarchy.accounts_openAt distinct ran)
      keptRoot ((lockFilesOf_mono (descends_target found ran versioned)).trans inUse)).1
    rw [stateAfter_of_error child] at keptBelow
    exact Hierarchy.kept_drop custody (Hierarchy.kept_close custody keptBelow)

end Anchored

/-! ## The lock files of the locks on record -/

namespace AreaLock

variable {written more : Set Path}

/-- A lock for writing has its lock file among some. -/
def FiledIn (written : Set Path) (lock : AreaLock) : Prop :=
  lock.write = true → Area.lockFile lock.path ∈ written

theorem FiledIn.mono (sub : written ⊆ more) (lock : AreaLock) (filed : lock.FiledIn written) :
    lock.FiledIn more :=
  fun writes => sub (filed writes)

theorem FiledIn.closed (lock : AreaLock) (filed : lock.FiledIn written) :
    lock.closed.FiledIn written :=
  filed

end AreaLock

namespace Descent

variable {cancel : Option (Cancellation σ)} {write : Bool} {start next : Descent σ}

/-- The lock file of each lock taken for writing is one that the descent locks. -/
theorem filed_taken (untaken : start.taken = []) (down : ReflTransGen (Step cancel write) start next) :
    ∀ lock ∈ next.taken, lock.FiledIn (start.lockedFiles cancel write) := by
  induction down with
  | refl => simp [untaken]
  | tail above step ih =>
      cases step with
      | skip exhausted => exact ih
      | claim task more polled acquired listed =>
          intro lock lock_mem
          rcases List.mem_cons.mp lock_mem with rfl | older
          · rcases AreaLock.acquire_ok acquired with ⟨-, held, -, rfl⟩
            intro writing
            exact ⟨writing, task.directory,
              ⟨_, _, _, task, _, _, _, above, more, rfl, polled, acquired⟩, rfl⟩
          · exact ih lock older

theorem filed_lockTree {depth : Depth} {directory : Path} {world after : World σ}
    {locks : List AreaLock}
    (ran : AreaLock.lockTree cancel write depth directory world = .ok locks after) :
    ∀ lock ∈ locks, lock.FiledIn ((whole world depth directory).lockedFiles cancel write) := by
  intro lock lock_mem
  exact filed_taken rfl (lockTree_ok ran) lock (List.mem_reverse.mpr lock_mem)

end Descent

namespace Hierarchy

open Descent (lockedFilesOf)

variable {cancel : Option (Cancellation σ)} {write : Bool} {depth : Depth} {path : Path}
  {world after : World σ} {hierarchy : Hierarchy} {written : Set Path}

theorem filed_openAt (opened : openAt cancel write depth path world = .ok hierarchy after) :
    hierarchy.Records
      (AreaLock.FiledIn (lockedFilesOf cancel write (DescendsAt world depth path))) := by
  rcases openAt_ok opened with ⟨root, locks, canonical, ran, rfl⟩
  rw [Descent.lockedFilesOf_eq (descendsAt_iff canonical)]
  apply Records.insertAll
  · simp [Records]
  · exact Descent.filed_lockTree ran

theorem filed_probeOpen (opened : probeOpen cancel write depth path world = .ok hierarchy after) :
    hierarchy.Records
      (AreaLock.FiledIn (lockedFilesOf cancel write (ProbeDescends world depth path))) := by
  rcases probeOpen_apply cancel write depth path world with
    ⟨-, error, refused⟩ | ⟨depth', directory, target, same⟩
  · simp [refused] at opened
  · rw [same] at opened
    rw [probeDescends_eq target]
    exact filed_openAt opened

theorem filed_openChild (records : hierarchy.Records (AreaLock.FiledIn written))
    (cancel : Option (Cancellation σ)) (write : Bool) (depth : Depth) (path : Path)
    (world : World σ) :
    (stateAfter (openChild cancel write depth path) (world, hierarchy)).2.Records
      (AreaLock.FiledIn
        (written ∪ lockedFilesOf cancel write (DescendsBelow world hierarchy depth path))) := by
  have older := records.mono (AreaLock.FiledIn.mono (Set.subset_union_left
    (t := lockedFilesOf cancel write (DescendsBelow world hierarchy depth path))))
  rcases stateAfter_openChild cancel write depth path world hierarchy with
    ⟨unchanged, -⟩ | ⟨real, error, failed, -, -, ran, same⟩ |
      ⟨real, locks, locked, canonical, accepts, ran, same⟩
  · rw [unchanged]
    exact older
  · rw [same]
    exact older
  · rw [same]
    apply older.insertAll
    rw [Descent.lockedFilesOf_eq (descendsBelow_iff canonical accepts)]
    intro lock lock_mem
    exact (Descent.filed_lockTree ran lock lock_mem).mono Set.subset_union_right

theorem filed_probeTry (records : hierarchy.Records (AreaLock.FiledIn written))
    (cancel : Option (Cancellation σ)) (write : Bool) (depth : Depth) (path : Path)
    (world : World σ) :
    (stateAfter (probeTry cancel write depth path) (world, hierarchy)).2.Records
      (AreaLock.FiledIn
        (written ∪ lockedFilesOf cancel write (TryDescends world hierarchy depth path))) := by
  rcases probeTry_apply cancel write depth path world hierarchy with
    ⟨unchanged, -⟩ | ⟨depth', directory, target, unlocked, same⟩
  · rw [unchanged]
    exact records.mono (AreaLock.FiledIn.mono Set.subset_union_left)
  · rw [stateAfter, same, tryDescends_eq target unlocked]
    exact filed_openChild records cancel write depth' directory world

end Hierarchy

end Checkout
