import Checkout.Proofs.Lock.Hierarchy

/-!
# What is on record

A property that every new lock has, and that a lock keeps when it is closed, holds of every lock that is ever
on record in a hierarchy. One such property is that a lock is marked as a lock for writing exactly if it comes
with a lock file.
-/

namespace Checkout

variable {σ : Type} {property : AreaLock → Prop}

/-- A property that new locks have, and that closing does not take away. -/
structure AreaLock.Inherent (σ : Type) (property : AreaLock → Prop) : Prop where
  acquired : ∀ {path : Path} {write : Bool} {depth : Depth} {world after : World σ} {lock : AreaLock},
    AreaLock.acquire path write depth world = .ok lock after → property lock
  closed : ∀ lock : AreaLock, property lock → property lock.closed

namespace Descent

variable {cancel : Option (Cancellation σ)} {write : Bool}

open Relation (ReflTransGen)

theorem all_taken (inherent : AreaLock.Inherent σ property) {start next : Descent σ}
    (before : ∀ lock ∈ start.taken, property lock)
    (down : ReflTransGen (Step cancel write) start next) : ∀ lock ∈ next.taken, property lock := by
  induction down with
  | refl => exact before
  | tail _ step ih =>
      cases step with
      | skip exhausted => exact ih
      | claim task more polled acquired listed =>
          intro lock lock_mem
          rcases List.mem_cons.mp lock_mem with rfl | older
          · exact inherent.acquired acquired
          · exact ih lock older

theorem all_lockTree (inherent : AreaLock.Inherent σ property) {depth : Depth} {directory : Path}
    {world after : World σ} {locks : List AreaLock}
    (ran : AreaLock.lockTree cancel write depth directory world = .ok locks after) :
    ∀ lock ∈ locks, property lock := by
  intro lock lock_mem
  apply all_taken inherent _ (lockTree_ok ran) lock (List.mem_reverse.mpr lock_mem)
  simp

end Descent

namespace Hierarchy

variable {cancel : Option (Cancellation σ)} {write : Bool} {depth : Depth} {path : Path}
  {world after : World σ} {hierarchy : Hierarchy}

/-- Every lock on record has the property. -/
def Records (property : AreaLock → Prop) (hierarchy : Hierarchy) : Prop :=
  ∀ lock ∈ hierarchy.locks, property lock

namespace Records

theorem insertAll {locks : List AreaLock} (records : hierarchy.Records property)
    (all : ∀ lock ∈ locks, property lock) : (hierarchy.insertAll locks).Records property := by
  intro lock recorded
  rcases mem_of_mem_insertAll recorded with new | ⟨old, -⟩
  · exact all lock new
  · exact records lock old

theorem openAt (inherent : AreaLock.Inherent σ property)
    (opened : openAt cancel write depth path world = .ok hierarchy after) :
    hierarchy.Records property := by
  rcases openAt_ok opened with ⟨root, locks, -, ran, rfl⟩
  have empty : Records property ⟨root, []⟩ := by simp [Records]
  exact empty.insertAll (Descent.all_lockTree inherent ran)

theorem probeOpen (inherent : AreaLock.Inherent σ property)
    (opened : probeOpen cancel write depth path world = .ok hierarchy after) :
    hierarchy.Records property := by
  rcases probeOpen_apply cancel write depth path world with
    ⟨-, error, refused⟩ | ⟨depth', directory, -, same⟩
  · simp [refused] at opened
  · rw [same] at opened
    exact openAt inherent opened

theorem openChild (records : hierarchy.Records property) (inherent : AreaLock.Inherent σ property)
    (cancel : Option (Cancellation σ)) (write : Bool) (depth : Depth) (path : Path)
    (world : World σ) : (stateAfter (Hierarchy.openChild cancel write depth path)
      (world, hierarchy)).2.Records property := by
  rcases stateAfter_openChild cancel write depth path world hierarchy with
    ⟨unchanged, -⟩ | ⟨real, error, failed, -, -, ran, same⟩ | ⟨real, locks, locked, -, -, ran, same⟩
  · rw [unchanged]
    exact records
  · rw [same]
    exact records
  · rw [same]
    exact records.insertAll (Descent.all_lockTree inherent ran)

theorem probeTry (records : hierarchy.Records property) (inherent : AreaLock.Inherent σ property)
    (cancel : Option (Cancellation σ)) (write : Bool) (depth : Depth) (path : Path)
    (world : World σ) : (stateAfter (Hierarchy.probeTry cancel write depth path)
      (world, hierarchy)).2.Records property := by
  rcases probeTry_apply cancel write depth path world hierarchy with
    ⟨unchanged, -⟩ | ⟨depth', directory, -, -, same⟩
  · rw [unchanged]
    exact records
  · rw [stateAfter, same]
    exact records.openChild inherent cancel write depth' directory world

theorem closeLock (records : hierarchy.Records property)
    (closed : ∀ lock, property lock → property lock.closed) (path : Path) (world : World σ) :
    (stateAfter (Hierarchy.closeLock path) (world, hierarchy)).2.Records property := by
  rw [stateAfter_closeLock]
  split
  · exact records
  · split
    · intro lock recorded
      rcases List.mem_map.mp recorded with ⟨older, older_mem, rfl⟩
      split
      · exact closed older (records older older_mem)
      · exact records older older_mem
    · exact records

theorem close (records : hierarchy.Records property)
    (closed : ∀ lock, property lock → property lock.closed) (world : World σ) :
    (stateAfter Hierarchy.close (world, hierarchy)).2.Records property := by
  rw [stateAfter_close]
  exact records.closeLock closed hierarchy.root world

theorem mono {more : AreaLock → Prop} (records : hierarchy.Records property)
    (weaker : ∀ lock, property lock → more lock) : hierarchy.Records more :=
  fun lock recorded => weaker lock (records lock recorded)

theorem openAnchor (inherent : AreaLock.Inherent σ property) {anchored : Anchored}
    (opened : Anchored.openAnchor cancel write depth path world = .ok anchored after) :
    anchored.hierarchy.Records property := by
  rcases Anchored.openAnchor_ok opened with
    ⟨anchor, -, ran⟩ | ⟨anchor, target, hierarchy, middle, -, ran, ⟨-, child⟩ | ⟨rfl, same⟩⟩
  · exact openAt inherent ran
  · have records := (openAt inherent ran).openChild inherent cancel write depth
      (anchor.join target) middle
    rw [child] at records
    exact records
  · rw [same]
    exact openAt inherent ran

end Records

end Hierarchy

/-! ## Locks for writing -/

theorem DirectoryLock.isWrite_acquire {directory : Path} {write : Bool} {world after : World σ}
    {lock : DirectoryLock} (acquired : acquire directory write world = .ok lock after) :
    lock.isWrite = write := by
  rw [acquire_apply] at acquired
  split at acquired
  · simp at acquired
  · split at acquired
    · rename_i writing
      split at acquired
      · rw [EStateM.Result.ok.injEq] at acquired
        rw [← acquired.1, writing]
        rfl
      · simp at acquired
      · simp at acquired
    · rename_i reading
      rw [EStateM.Result.ok.injEq] at acquired
      have off : write = false := by simpa using reading
      rw [← acquired.1, off]
      rfl

namespace AreaLock

/-- An open lock is marked as a lock for writing exactly if it has a lock file. -/
def Marked (lock : AreaLock) : Prop :=
  ∀ held, lock.held = some held → held.isWrite = lock.write

theorem inherent_marked (σ : Type) : Inherent σ Marked where
  acquired := by
    intro path write depth world after lock acquired
    rcases acquire_ok acquired with ⟨-, held, locked, rfl⟩
    intro other same
    rw [Option.some.injEq] at same
    rw [← same]
    exact DirectoryLock.isWrite_acquire locked
  closed := by
    intro lock marked held same
    simp [closed] at same

end AreaLock

end Checkout
