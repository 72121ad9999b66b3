import Checkout.Proofs.Lock.Keeping
import Checkout.Proofs.Process.Exclusive

/-!
# Lock files of a process

The live locks on files that come with the holders of a process, and the lock files that its operations
come to. What is kept when single locks on files are taken and given back is kept by every operation of a
process, with the locks of the holders that it makes, uses or drops.
-/

namespace Checkout

variable {σ : Type} {used : Set Path} {keeps : FileSystem → Multiset FileLock → Prop}
  {others : Multiset FileLock}

open FileSystem (Custody Attends)
open Hierarchy (KeptIn)

/-! ## Creations -/

namespace Holder

/-- The live locks on files that come with a holder. -/
def fileLocks : Holder → Multiset FileLock
  | .hierarchy opened => AreaLock.live opened.openLocks
  | .anchored opened => AreaLock.live opened.hierarchy.openLocks
  | .directory lock => lock.fileLocks

/-- What is marked as locked for writing has its own lock file. -/
def Proper : Holder → Prop
  | .hierarchy opened => opened.Records AreaLock.Marked
  | .anchored opened => opened.hierarchy.Records AreaLock.Marked
  | .directory lock => lock.IsFor lock.directory

theorem fileLocks_eq {holder : Holder} {hierarchy : Hierarchy} (inside : holder.hierarchy? = some hierarchy) :
    holder.fileLocks = AreaLock.live hierarchy.openLocks := by
  cases holder with
  | hierarchy opened => rw [← Option.some.inj inside, fileLocks]
  | anchored opened => rw [← Option.some.inj inside, fileLocks]
  | directory lock => simp [hierarchy?] at inside

theorem Proper.records {holder : Holder} {hierarchy : Hierarchy} (proper : holder.Proper)
    (inside : holder.hierarchy? = some hierarchy) : hierarchy.Records AreaLock.Marked := by
  cases holder with
  | hierarchy opened => exact Option.some.inj inside ▸ proper
  | anchored opened => exact Option.some.inj inside ▸ proper
  | directory lock => simp [hierarchy?] at inside

end Holder

namespace Creation

variable {creation : Creation σ} {world after : World σ} {holder : Holder}

/-- The lock files that an operation comes to when it makes a holder. -/
def lockFiles (world : World σ) : Creation σ → Set Path
  | openAt cancel write depth path =>
      Descent.lockFilesOf cancel write (Hierarchy.DescendsAt world depth path)
  | probeOpen cancel write depth path =>
      Descent.lockFilesOf cancel write (Hierarchy.ProbeDescends world depth path)
  | openAnchor cancel write depth path =>
      Descent.lockFilesOf cancel write (Anchored.Descends cancel write depth path world)
  | lockDirectory directory write => {path | write = true ∧ path = Area.lockFile directory}

theorem kept_ok (custody : Custody used keeps) (distinct : world.claims.Nodup)
    (kept : keeps world.files others) (inUse : creation.lockFiles world ⊆ used)
    (ran : creation.run world = .ok holder after) : keeps after.files (holder.fileLocks + others) := by
  cases creation with
  | openAt cancel write depth path =>
      rcases Action.map_eq_ok.mp ran with ⟨hierarchy, opened, rfl⟩
      exact (Hierarchy.kept_openAt custody kept inUse opened).1
  | probeOpen cancel write depth path =>
      rcases Action.map_eq_ok.mp ran with ⟨hierarchy, opened, rfl⟩
      exact (Hierarchy.kept_probeOpen custody kept inUse opened).1
  | openAnchor cancel write depth path =>
      rcases Action.map_eq_ok.mp ran with ⟨anchored, opened, rfl⟩
      exact Anchored.kept_openAnchor custody distinct kept inUse opened
  | lockDirectory directory write =>
      rcases Action.map_eq_ok.mp ran with ⟨lock, acquired, rfl⟩
      exact (DirectoryLock.kept_acquire custody kept (fun writing => inUse ⟨writing, rfl⟩) acquired).1

theorem kept_error {error : Error} (custody : Custody used keeps) (distinct : world.claims.Nodup)
    (kept : keeps world.files others) (inUse : creation.lockFiles world ⊆ used)
    (ran : creation.run world = .error error after) : keeps after.files others := by
  cases creation with
  | openAt cancel write depth path =>
      exact (Hierarchy.kept_openAt_error custody kept inUse (Action.map_eq_error.mp ran)).1
  | probeOpen cancel write depth path =>
      exact (Hierarchy.kept_probeOpen_error custody kept inUse (Action.map_eq_error.mp ran)).1
  | openAnchor cancel write depth path =>
      exact Anchored.kept_openAnchor_error custody distinct kept inUse (Action.map_eq_error.mp ran)
  | lockDirectory directory write =>
      rw [DirectoryLock.files_acquire_error custody kept (fun writing => inUse ⟨writing, rfl⟩)
        (Action.map_eq_error.mp ran)]
      exact kept

theorem proper (ran : creation.run world = .ok holder after) : holder.Proper := by
  have inherent := AreaLock.inherent_marked σ
  cases creation with
  | openAt cancel write depth path =>
      rcases Action.map_eq_ok.mp ran with ⟨hierarchy, opened, rfl⟩
      exact Hierarchy.Records.openAt inherent opened
  | probeOpen cancel write depth path =>
      rcases Action.map_eq_ok.mp ran with ⟨hierarchy, opened, rfl⟩
      exact Hierarchy.Records.probeOpen inherent opened
  | openAnchor cancel write depth path =>
      rcases Action.map_eq_ok.mp ran with ⟨anchored, opened, rfl⟩
      exact Hierarchy.Records.openAnchor inherent opened
  | lockDirectory directory write =>
      rcases Action.map_eq_ok.mp ran with ⟨lock, acquired, rfl⟩
      rcases DirectoryLock.acquire_ok acquired with ⟨-, isFor, -⟩
      rw [Holder.Proper, isFor.directory_eq]
      exact isFor

end Creation

/-! ## Operations -/

namespace Operation

variable {world : World σ} {hierarchy : Hierarchy}

/-- The lock files that an operation on a hierarchy comes to, to lock them. -/
def lockFiles (world : World σ) (hierarchy : Hierarchy) : Operation σ → Set Path
  | openChild cancel write depth path =>
      Descent.lockFilesOf cancel write (Hierarchy.DescendsBelow world hierarchy depth path)
  | probeTry cancel write depth path =>
      Descent.lockFilesOf cancel write (Hierarchy.TryDescends world hierarchy depth path)
  | closeLock _ => ∅
  | close => ∅

/-- The lock files that an operation on a hierarchy locks, even if it gives the locks back. -/
def lockedFiles (world : World σ) (hierarchy : Hierarchy) : Operation σ → Set Path
  | openChild cancel write depth path =>
      Descent.lockedFilesOf cancel write (Hierarchy.DescendsBelow world hierarchy depth path)
  | probeTry cancel write depth path =>
      Descent.lockedFilesOf cancel write (Hierarchy.TryDescends world hierarchy depth path)
  | closeLock _ => ∅
  | close => ∅

theorem kept (operation : Operation σ) {claims : Multiset (List Component)}
    (custody : Custody used keeps) (accounts : Hierarchy.Accounts claims (world, hierarchy))
    (kept : KeptIn keeps others (world, hierarchy))
    (inUse : operation.lockFiles world hierarchy ⊆ used) :
    KeptIn (fun files live => keeps files live ∧ Attends files live (operation.lockedFiles world hierarchy))
      others (stateAfter operation.run (world, hierarchy)) := by
  cases operation with
  | openChild cancel write depth path =>
      rw [run, stateAfter_discard]
      exact Hierarchy.kept_openChild custody accounts kept inUse
  | probeTry cancel write depth path =>
      rw [run, stateAfter_discard]
      exact Hierarchy.kept_probeTry custody accounts kept inUse
  | closeLock path =>
      refine ⟨Hierarchy.kept_closeLock custody kept path, ?_⟩
      rintro _ ⟨⟩
  | close =>
      refine ⟨Hierarchy.kept_close custody kept, ?_⟩
      rintro _ ⟨⟩

theorem records {property : AreaLock → Prop} (inherent : AreaLock.Inherent σ property)
    (operation : Operation σ) (records : hierarchy.Records property) (world : World σ) :
    (stateAfter operation.run (world, hierarchy)).2.Records property := by
  cases operation with
  | openChild cancel write depth path =>
      rw [run, stateAfter_discard]
      exact records.openChild inherent cancel write depth path world
  | probeTry cancel write depth path =>
      rw [run, stateAfter_discard]
      exact records.probeTry inherent cancel write depth path world
  | closeLock path => exact records.closeLock inherent.closed path world
  | close => exact records.close inherent.closed world

theorem filed {written : Set Path} (operation : Operation σ)
    (records : hierarchy.Records (AreaLock.FiledIn written)) (world : World σ) :
    (stateAfter operation.run (world, hierarchy)).2.Records
      (AreaLock.FiledIn (written ∪ operation.lockedFiles world hierarchy)) := by
  cases operation with
  | openChild cancel write depth path =>
      rw [run, stateAfter_discard]
      exact Hierarchy.filed_openChild records cancel write depth path world
  | probeTry cancel write depth path =>
      rw [run, stateAfter_discard]
      exact Hierarchy.filed_probeTry records cancel write depth path world
  | closeLock path =>
      rw [lockedFiles, Set.union_empty]
      exact records.closeLock AreaLock.FiledIn.closed path world
  | close =>
      rw [lockedFiles, Set.union_empty]
      exact records.close AreaLock.FiledIn.closed world

end Operation

/-! ## Giving back -/

theorem Holder.kept_drop (custody : Custody used keeps) {world : World σ} (holder : Holder)
    (kept : keeps world.files (holder.fileLocks + others)) :
    keeps (stateAfter holder.drop world).files others := by
  cases holder with
  | hierarchy opened => exact Hierarchy.kept_drop custody kept
  | anchored opened => exact Hierarchy.kept_drop custody kept
  | directory lock =>
      rw [drop, DirectoryLock.stateAfter_drop]
      exact DirectoryLock.kept_release custody kept

/-- When the body of an operation has ended, the lock files of its hierarchy are given back. -/
theorem Session.kept_closeAfter (custody : Custody used keeps) {world : World σ} {hierarchy : Hierarchy}
    (kept : KeptIn keeps others (world, hierarchy)) :
    keeps (closeAfter hierarchy world).2.files others := by
  have closed : KeptIn keeps others (closedFirst hierarchy world) := by
    rw [closedFirst]
    split
    · exact Hierarchy.kept_close custody kept
    · exact kept
  rw [snd_closeAfter]
  exact Hierarchy.kept_drop custody closed

/-! ## Cleaning up -/

namespace Cleanup

/-- The lock files that cleaning comes to, on its way through the pending directories. -/
def pendingLockFiles : Nat → List Path → World σ → Set Path
  | 0, _, _ => ∅
  | _, [], _ => ∅
  | bound + 1, directory :: pending, world =>
      let after := stateAfter (cleanDirectory directory) world
      insert (Area.lockFile directory) (match after.files.versionedChildren directory with
        | .ok children => pendingLockFiles bound (children ++ pending) after
        | .error _ => ∅)

/-- The lock files that cleaning a working copy comes to. -/
def lockFiles (path : Path) (world : World σ) : Set Path :=
  match world.files.canonical path with
  | .ok real =>
      if world.files.isVersioned real then
        pendingLockFiles (world.files.nodes.length + 1) [real] world
      else ∅
  | .error _ => ∅

variable {world : World σ} {live : Multiset FileLock}

theorem kept_cleanDirectory (custody : Custody used keeps) (kept : keeps world.files live)
    {directory : Path} (path_mem : Area.lockFile directory ∈ used) :
    keeps (stateAfter (cleanDirectory directory) world).files live := by
  simp only [stateAfter, cleanDirectory, Action.bind_apply, Action.get_apply, Action.ite_apply]
  by_cases stale : (world.files.leadsSomewhere (Area.lockFile directory) &&
      !world.isClaimed directory) = true
  · rw [if_pos stale]
    have removed := custody.removeStale kept path_mem
    cases ran : FileLock.removeStale (Area.lockFile directory) world.files with
    | ok _ files =>
        rw [stateAfter_of_ok ran] at removed
        simpa [Action.ofFiles, ran] using removed
    | error _ files =>
        rw [stateAfter_of_error ran] at removed
        simpa [Action.ofFiles, ran] using removed
  · rw [if_neg stale]
    exact kept

theorem kept_cleanPending (custody : Custody used keeps) (bound : Nat) (pending : List Path)
    (kept : keeps world.files live) (inUse : pendingLockFiles bound pending world ⊆ used) :
    keeps (stateAfter (cleanPending bound pending) world).files live := by
  induction bound generalizing pending world with
  | zero => exact kept
  | succ bound ih =>
      cases pending with
      | nil => exact kept
      | cons directory pending =>
          rw [pendingLockFiles, Set.insert_subset_iff] at inUse
          have first := kept_cleanDirectory custody kept inUse.1
          cases cleaned : cleanDirectory directory world with
          | error error after =>
              rw [stateAfter_of_error cleaned] at first
              simpa [cleanPending, stateAfter, cleaned] using first
          | ok stale after =>
              rw [stateAfter_of_ok cleaned] at first inUse
              cases listed : after.files.versionedChildren directory with
              | error error =>
                  simpa [cleanPending, stateAfter, cleaned, Action.ofLook, listed] using first
              | ok children =>
                  rw [listed] at inUse
                  have rest := ih (children ++ pending) first inUse.2
                  cases ran : cleanPending bound (children ++ pending) after with
                  | error error last =>
                      rw [stateAfter_of_error ran] at rest
                      simpa [cleanPending, stateAfter, cleaned, Action.ofLook, listed, ran] using rest
                  | ok found last =>
                      rw [stateAfter_of_ok ran] at rest
                      simpa [cleanPending, stateAfter, cleaned, Action.ofLook, listed, ran] using rest

/-- Cleaning up gives no live lock back. -/
theorem kept_clean (custody : Custody used keeps) (path : Path) (kept : keeps world.files live)
    (inUse : lockFiles path world ⊆ used) : keeps (stateAfter (clean path) world).files live := by
  cases canonical : world.files.canonical path with
  | error error => simpa [clean, stateAfter, Action.ofOutcome, canonical] using kept
  | ok real =>
      by_cases versioned : world.files.isVersioned real = true
      · simp only [lockFiles, canonical, versioned, if_true] at inUse
        have cleaned := kept_cleanPending custody _ [real] kept inUse
        simpa [clean, stateAfter, Action.ofOutcome, canonical, versioned] using cleaned
      · simpa [clean, stateAfter, Action.ofOutcome, canonical, versioned] using kept

end Cleanup

theorem Process.noLink_singleCopy (path : Path) : ¬singleCopy.files.NamesLink path := by
  rintro ⟨location, target, place, isLink⟩
  rw [FileSystem.node?_eq place.nonroot, Option.map_eq_some_iff] at isLink
  rcases isLink with ⟨entry, found, linked⟩
  have listed := List.mem_of_find?_eq_some found
  simp only [singleCopy, List.mem_cons, List.not_mem_nil, or_false] at listed
  rcases listed with rfl | rfl | rfl <;> simp at linked

end Checkout
