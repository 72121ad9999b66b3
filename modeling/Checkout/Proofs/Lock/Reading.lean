import Checkout.Proofs.Lock.InOrder

/-!
# Opening hierarchies for reading

To lock a directory for reading leaves the files alone. So whatever is locked for reading is locked in pre-order,
and nothing about the lock files matters.
-/

namespace Checkout

variable {σ : Type}

open Relation (ReflTransGen)

namespace AreaLock

theorem files_acquire_reading {directory : Path} {depth : Depth} {world after : World σ}
    {lock : AreaLock} (acquired : acquire directory false depth world = .ok lock after) :
    after.files = world.files := by
  obtain ⟨-, held, claimed, -⟩ := acquire_ok acquired
  rw [DirectoryLock.acquire_apply] at claimed
  split at claimed
  · simp at claimed
  · simp only [Bool.false_eq_true, if_false, EStateM.Result.ok.injEq] at claimed
    rw [← claimed.2]
    rfl

end AreaLock

namespace Descent

variable {files : FileSystem} {root : Path} {top : Location} {depth : Depth}
  {visited : List (Depth × Path)} {cancel : Option (Cancellation σ)} {here later : Descent σ}
  {world after : World σ} {locks : List AreaLock}

/-- A descent for reading has locked the front of a pre-order, and the rest is ahead. -/
structure ReadsOn (files : FileSystem) (root : Path) (top : Location) (visited : List (Depth × Path))
    (here : Descent σ) : Prop where
  files_eq : here.world.files = files
  ahead : ∃ rest, visited = (here.taken.map AreaLock.tree).reverse ++ rest ∧
    files.InPreorder (here.pending.map Task.tree) rest
  enough : ∀ task ∈ here.pending, ∃ location, files.Within root top task.directory location ∧
    files.nodes.length < location.length + task.levels

theorem ReadsOn.step (wellFormed : files.WellFormed) (reads : ReadsOn files root top visited here)
    (step : Step cancel false here later) : ReadsOn files root top visited later := by
  cases step with
  | skip exhausted =>
      obtain ⟨location, within, enough⟩ := reads.enough _ List.mem_cons_self
      have bound := wellFormed.length_le (within.inside wellFormed)
      omega
  | @claim _ asked locked task pending children taken lock more polled acquired listed =>
      obtain ⟨location, within, enough⟩ := reads.enough _ List.mem_cons_self
      obtain ⟨rest, visited_eq, preorder⟩ := reads.ahead
      have files_eq : locked.files = files :=
        (AreaLock.files_acquire_reading acquired).trans
          ((AreaLock.files_poll polled).trans reads.files_eq)
      obtain ⟨children', further, listed', rfl, inside, deep⟩ :=
        below_of_inPreorder wellFormed within enough preorder fun _ children =>
          children.listed wellFormed within.absolute within.found
      rw [files_eq, listed', Except.ok.injEq] at listed
      subst listed
      have lock_eq : lock.tree = task.tree := by
        obtain ⟨-, held, -, rfl⟩ := AreaLock.acquire_ok acquired
        rfl
      refine ⟨files_eq, ⟨further, ?_, ?_⟩, ?_⟩
      · rw [visited_eq, List.map_cons, List.reverse_cons, lock_eq, List.append_assoc]
        rfl
      · rw [List.map_append]
        exact inside
      · intro other other_mem
        rcases List.mem_append.mp other_mem with new | old
        · exact deep other new
        · exact reads.enough other (List.mem_cons_of_mem _ old)

/-- A tree that was locked for reading was locked in pre-order. -/
theorem trees_of_lockTree_reading (wellFormed : world.files.WellFormed)
    (whole : world.files.Within root top root top)
    (preorder : world.files.InPreorder [(depth, root)] visited)
    (ran : AreaLock.lockTree cancel false depth root world = .ok locks after) :
    locks.map AreaLock.tree = visited := by
  have start : ReadsOn world.files root top visited
      ⟨world, [Task.whole world.files depth root], []⟩ := by
    refine ⟨rfl, ⟨visited, rfl, preorder⟩, ?_⟩
    intro task task_mem
    rw [List.mem_singleton.mp task_mem]
    exact ⟨top, whole, by simp only [Task.whole]; omega⟩
  have reads : ReadsOn world.files root top visited ⟨after, [], locks.reverse⟩ := by
    have down := lockTree_ok ran
    generalize (⟨after, [], locks.reverse⟩ : Descent σ) = last at down ⊢
    induction down with
    | refl => exact start
    | tail _ step ih => exact ih.step wellFormed step
  obtain ⟨rest, visited_eq, preorder⟩ := reads.ahead
  cases preorder
  rw [visited_eq, List.map_reverse, List.reverse_reverse, List.append_nil]

end Descent

namespace Hierarchy

variable {root path : Path} {top : Location} {depth : Depth} {visited : List (Depth × Path)}
  {cancel : Option (Cancellation σ)} {world after : World σ} {hierarchy : Hierarchy}

/-- A hierarchy that was opened for reading lists the directories of its tree in pre-order. -/
theorem lockedPaths_openAt_reading (wellFormed : world.files.WellFormed)
    (canonical : world.files.canonical path = .ok root)
    (whole : world.files.Within root top root top)
    (preorder : world.files.InPreorder [(depth, root)] visited)
    (ran : openAt cancel false depth path world = .ok hierarchy after) :
    hierarchy.lockedPaths = visited.map Prod.snd := by
  rw [openAt_of_canonical cancel false depth canonical] at ran
  cases locked : AreaLock.lockTree cancel false depth root world with
  | error error failed => simp [locked] at ran
  | ok locks last =>
      simp only [locked, EStateM.Result.ok.injEq] at ran
      obtain ⟨rfl, rfl⟩ := ran
      have trees := Descent.trees_of_lockTree_reading wellFormed whole preorder locked
      have paths : locks.map AreaLock.path = visited.map Prod.snd := by
        rw [← trees, List.map_map]
        rfl
      have inOrder := preorder.inOrder wellFormed (by simpa using whole.absolute)
        (List.pairwise_singleton _ _)
      rw [← paths, List.pairwise_map] at inOrder
      have allOpen : locks.filter AreaLock.isOpen = locks :=
        List.filter_eq_self.mpr (by simpa using (Descent.ledger_lockTree locked).allOpen)
      rw [lockedPaths, openLocks, locks_insertAll_of_strict root inOrder, allOpen, paths]

end Hierarchy

end Checkout
