import Checkout.Proofs.Lock.Claims
import Mathlib.Logic.Relation

/-!
# Locking a tree one directory at a time

Locking a tree keeps a list of directories that are still to be locked. Each step locks the first of
them and puts its child directories in its place; a step that fails ends the descent, and what was taken
is given back, the last lock first. `follows_lockTree` says that locking a tree does what these steps do.
-/

namespace Checkout

variable {σ : Type}

open Relation (ReflTransGen)

/-- A directory that is still to be locked, with what is below it. -/
structure Task where
  /-- How many levels of directories may still be entered. -/
  levels : Nat
  depth : Depth
  directory : Path

/-- The directories to be locked next below a directory that has just been locked. -/
def Task.below (files : FileSystem) (task : Task) : Except Error (List Task) :=
  match task.depth.child? with
  | none => .ok []
  | some childDepth =>
      match files.versionedChildren task.directory with
      | .ok children => .ok (children.map fun child => ⟨task.levels - 1, childDepth, child⟩)
      | .error error => .error error

/-- The task of locking a whole tree. -/
def Task.whole (files : FileSystem) (depth : Depth) (directory : Path) : Task :=
  ⟨files.nodes.length + 1, depth, directory⟩

/-- Where the locking of a tree has got to. -/
structure Descent (σ : Type) where
  world : World σ
  /-- The directories that are still to be locked, in order. -/
  pending : List Task
  /-- The locks taken so far, the last one first. -/
  taken : List AreaLock

namespace Descent

variable {cancel : Option (Cancellation σ)} {write : Bool}

/-- One step down: the next directory is locked. -/
inductive Step (cancel : Option (Cancellation σ)) (write : Bool) : Descent σ → Descent σ → Prop where
  /-- No more levels may be entered. -/
  | skip {world : World σ} {task : Task} {pending : List Task} {taken : List AreaLock}
      (exhausted : task.levels = 0) :
      Step cancel write ⟨world, task :: pending, taken⟩ ⟨world, pending, taken⟩
  | claim {world asked locked : World σ} (task : Task) {pending children : List Task}
      {taken : List AreaLock} {lock : AreaLock} (more : 0 < task.levels)
      (polled : AreaLock.poll cancel world = .ok () asked)
      (acquired : AreaLock.acquire task.directory write task.depth asked = .ok lock locked)
      (listed : task.below locked.files = .ok children) :
      Step cancel write ⟨world, task :: pending, taken⟩
        ⟨locked, children ++ pending, lock :: taken⟩

/-- A step that ends the descent in an error. -/
inductive Fails (cancel : Option (Cancellation σ)) (write : Bool) :
    Descent σ → Error → Descent σ → Prop where
  | cancelled {world asked : World σ} (task : Task) {pending : List Task}
      {taken : List AreaLock} {error : Error} (more : 0 < task.levels)
      (polled : AreaLock.poll cancel world = .error error asked) :
      Fails cancel write ⟨world, task :: pending, taken⟩ error ⟨asked, task :: pending, taken⟩
  | refused {world asked unlocked : World σ} (task : Task) {pending : List Task}
      {taken : List AreaLock} {error : Error} (more : 0 < task.levels)
      (polled : AreaLock.poll cancel world = .ok () asked)
      (refused : AreaLock.acquire task.directory write task.depth asked = .error error unlocked) :
      Fails cancel write ⟨world, task :: pending, taken⟩ error
        ⟨unlocked, task :: pending, taken⟩
  | unlisted {world asked locked : World σ} (task : Task) {pending : List Task}
      {taken : List AreaLock} {lock : AreaLock} {error : Error} (more : 0 < task.levels)
      (polled : AreaLock.poll cancel world = .ok () asked)
      (acquired : AreaLock.acquire task.directory write task.depth asked = .ok lock locked)
      (unlisted : task.below locked.files = .error error) :
      Fails cancel write ⟨world, task :: pending, taken⟩ error
        ⟨locked, task :: pending, lock :: taken⟩

/--
An action that does what a descent through `tasks` does: when it succeeds it returns the locks taken on
the way, and when it fails the locks taken on the way have been given back, the last one first.
-/
structure Follows (cancel : Option (Cancellation σ)) (write : Bool) (tasks : List Task)
    (action : Action σ (List AreaLock)) : Prop where
  completes : ∀ {world after : World σ} {locks : List AreaLock},
    action world = .ok locks after → ∀ pending taken,
      ReflTransGen (Step cancel write) ⟨world, tasks ++ pending, taken⟩
        ⟨after, pending, locks.reverse ++ taken⟩
  fails : ∀ {world after : World σ} {error : Error},
    action world = .error error after → ∀ pending taken,
      ∃ reached failed mine,
        ReflTransGen (Step cancel write) ⟨world, tasks ++ pending, taken⟩ reached ∧
          Fails cancel write reached error failed ∧
          failed.taken = mine ++ taken ∧ after = AreaLock.giveBack mine failed.world

theorem orGiveBack_ok {action : Action σ α} {locks : List AreaLock} {world after : World σ}
    {value : α} (ran : AreaLock.orGiveBack locks action world = .ok value after) :
    action world = .ok value after := by
  cases inner : action world with
  | ok _ _ => simpa [AreaLock.orGiveBack, Action.outcome, inner] using ran
  | error error failed =>
      obtain ⟨failure, gave⟩ := AreaLock.releaseAll_apply locks.reverse failed
      simp [AreaLock.orGiveBack, Action.outcome, inner, gave] at ran

theorem orGiveBack_error {action : Action σ α} {locks : List AreaLock} {world after : World σ}
    {error : Error} (ran : AreaLock.orGiveBack locks action world = .error error after) :
    ∃ failed, action world = .error error failed ∧
      after = AreaLock.giveBack locks.reverse failed := by
  cases inner : action world with
  | ok _ _ => simp [AreaLock.orGiveBack, Action.outcome, inner] at ran
  | error innerError failed =>
      obtain ⟨failure, gave⟩ := AreaLock.releaseAll_apply locks.reverse failed
      simp [AreaLock.orGiveBack, Action.outcome, inner, gave] at ran
      obtain ⟨rfl, rfl⟩ := ran
      exact ⟨failed, rfl, rfl⟩

/-- An action followed by another one that gives the first one's locks back if it fails. -/
theorem Follows.append {front back : List Task} {first others : Action σ (List AreaLock)}
    (followsFirst : Follows cancel write front first)
    (followsOthers : Follows cancel write back others) :
    Follows cancel write (front ++ back) (do
      let taken ← first
      let more ← AreaLock.orGiveBack taken others
      return taken ++ more) where
  completes := by
    intro world after locks ran pending taken
    cases ranFirst : first world with
    | error error failed => simp [ranFirst] at ran
    | ok mine middle =>
        simp only [Action.bind_apply, ranFirst] at ran
        cases ranOthers : AreaLock.orGiveBack mine others middle with
        | error error failed => simp [ranOthers] at ran
        | ok more last =>
            simp only [ranOthers, Action.pure_apply, EStateM.Result.ok.injEq] at ran
            obtain ⟨rfl, rfl⟩ := ran
            have down := followsFirst.completes ranFirst (back ++ pending) taken
            have further := followsOthers.completes (orGiveBack_ok ranOthers) pending
              (mine.reverse ++ taken)
            simpa using down.trans further
  fails := by
    intro world after error ran pending taken
    cases ranFirst : first world with
    | error firstError failed =>
        simp only [Action.bind_apply, ranFirst, EStateM.Result.error.injEq] at ran
        obtain ⟨rfl, rfl⟩ := ran
        simpa using followsFirst.fails ranFirst (back ++ pending) taken
    | ok mine middle =>
        simp only [Action.bind_apply, ranFirst] at ran
        cases ranOthers : AreaLock.orGiveBack mine others middle with
        | ok more last => simp [ranOthers] at ran
        | error othersError failed =>
            simp only [ranOthers, EStateM.Result.error.injEq] at ran
            obtain ⟨rfl, rfl⟩ := ran
            obtain ⟨inner, ranInner, rfl⟩ := orGiveBack_error ranOthers
            obtain ⟨reached, stopped, below, further, stops, taken_eq, rfl⟩ :=
              followsOthers.fails ranInner pending (mine.reverse ++ taken)
            have down := followsFirst.completes ranFirst (back ++ pending) taken
            refine ⟨reached, stopped, below ++ mine.reverse, ?_, stops, ?_, ?_⟩
            · simpa using down.trans further
            · simp [taken_eq]
            · rw [AreaLock.giveBack_append]

theorem Follows.done : Follows cancel write [] (pure []) where
  completes := by
    intro world after locks ran pending taken
    simp only [Action.pure_apply, EStateM.Result.ok.injEq] at ran
    obtain ⟨rfl, rfl⟩ := ran
    exact ReflTransGen.refl
  fails := by
    intro world after error ran
    simp at ran

/-- Locking several trees one after another descends through all of them. -/
theorem follows_lockEach {lockOne : Path → Action σ (List AreaLock)} {task : Path → Task}
    (followsOne : ∀ directory, Follows cancel write [task directory] (lockOne directory))
    (directories : List Path) :
    Follows cancel write (directories.map task) (AreaLock.lockEach lockOne directories) := by
  induction directories with
  | nil => exact Follows.done
  | cons directory rest ih => exact (followsOne directory).append ih

/-- What is locked below a directory that has just been locked follows a descent through its tasks. -/
theorem lockBelow_completes (task : Task) {locked after : World σ} {lock : AreaLock}
    {childDepth : Depth} {below : List AreaLock} {lockOne : Path → Action σ (List AreaLock)}
    (depth_eq : task.depth.child? = some childDepth)
    (followsOne : ∀ child, Follows cancel write [⟨task.levels - 1, childDepth, child⟩] (lockOne child))
    (ran : AreaLock.orGiveBack [lock] (do
      let children ← Action.ofLook fun world => world.files.versionedChildren task.directory
      AreaLock.lockEach lockOne children) locked = .ok below after) :
    ∃ children, task.below locked.files = .ok children ∧ ∀ pending taken,
      ReflTransGen (Step cancel write) ⟨locked, children ++ pending, taken⟩
        ⟨after, pending, below.reverse ++ taken⟩ := by
  have inner := orGiveBack_ok ran
  cases listed : locked.files.versionedChildren task.directory with
  | error error => simp [Action.ofLook, listed] at inner
  | ok children =>
      simp only [Action.bind_apply, Action.ofLook, listed] at inner
      refine ⟨children.map fun child => ⟨task.levels - 1, childDepth, child⟩, ?_, ?_⟩
      · simp [Task.below, depth_eq, listed]
      · exact (follows_lockEach followsOne children).completes inner

/-- If locking what is below a directory fails, the lock on the directory is given back as well. -/
theorem lockBelow_fails (task : Task) {world asked locked after : World σ} {lock : AreaLock}
    {childDepth : Depth} {error : Error} {lockOne : Path → Action σ (List AreaLock)}
    (more : 0 < task.levels) (polled : AreaLock.poll cancel world = .ok () asked)
    (acquired : AreaLock.acquire task.directory write task.depth asked = .ok lock locked)
    (depth_eq : task.depth.child? = some childDepth)
    (followsOne : ∀ child, Follows cancel write [⟨task.levels - 1, childDepth, child⟩] (lockOne child))
    (ran : AreaLock.orGiveBack [lock] (do
      let children ← Action.ofLook fun world => world.files.versionedChildren task.directory
      AreaLock.lockEach lockOne children) locked = .error error after)
    (pending : List Task) (taken : List AreaLock) :
    ∃ reached failed mine,
      ReflTransGen (Step cancel write) ⟨world, task :: pending, taken⟩ reached ∧
        Fails cancel write reached error failed ∧
        failed.taken = mine ++ taken ∧ after = AreaLock.giveBack mine failed.world := by
  obtain ⟨unlocked, inner, rfl⟩ := orGiveBack_error ran
  cases listed : locked.files.versionedChildren task.directory with
  | error listError =>
      simp only [Action.bind_apply, Action.ofLook, listed, EStateM.Result.error.injEq] at inner
      obtain ⟨rfl, rfl⟩ := inner
      refine ⟨_, _, [lock], ReflTransGen.refl, Fails.unlisted task more polled acquired ?_, rfl, rfl⟩
      simp [Task.below, depth_eq, listed]
  | ok children =>
      simp only [Action.bind_apply, Action.ofLook, listed] at inner
      obtain ⟨reached, failed, mine, down, stops, taken_eq, rfl⟩ :=
        (follows_lockEach followsOne children).fails inner pending (lock :: taken)
      have first : Step cancel write ⟨world, task :: pending, taken⟩
          ⟨locked, children.map (fun child => ⟨task.levels - 1, childDepth, child⟩) ++ pending,
            lock :: taken⟩ := by
        apply Step.claim task more polled acquired
        simp [Task.below, depth_eq, listed]
      refine ⟨reached, failed, mine ++ [lock], ReflTransGen.head first down, stops, ?_, ?_⟩
      · simp [taken_eq]
      · rw [AreaLock.giveBack_append]
        rfl

/-- Locking a tree that has a level left asks the caller, locks the directory, and then what is below. -/
theorem lockLevels_completes {levels : Nat}
    (followsBelow : ∀ depth child, Follows cancel write [⟨levels, depth, child⟩]
      (AreaLock.lockLevels cancel write levels depth child))
    {depth : Depth} {directory : Path} {world after : World σ} {locks : List AreaLock}
    (ran : AreaLock.lockLevels cancel write (levels + 1) depth directory world = .ok locks after)
    (pending : List Task) (taken : List AreaLock) :
    ReflTransGen (Step cancel write) ⟨world, ⟨levels + 1, depth, directory⟩ :: pending, taken⟩
      ⟨after, pending, locks.reverse ++ taken⟩ := by
  simp only [AreaLock.lockLevels, Action.bind_apply] at ran
  cases polled : AreaLock.poll cancel world with
  | error error asked => simp [polled] at ran
  | ok _ asked =>
      simp only [polled] at ran
      cases acquired : AreaLock.acquire directory write depth asked with
      | error error unlocked => simp [acquired] at ran
      | ok lock locked =>
          simp only [acquired] at ran
          cases depth_eq : depth.child? with
          | none =>
              simp only [depth_eq, Action.pure_apply, EStateM.Result.ok.injEq] at ran
              obtain ⟨rfl, rfl⟩ := ran
              have listed : Task.below locked.files ⟨levels + 1, depth, directory⟩ = .ok [] := by
                simp [Task.below, depth_eq]
              exact ReflTransGen.single (Step.claim ⟨levels + 1, depth, directory⟩
                (Nat.succ_pos levels) polled acquired listed)
          | some childDepth =>
              simp only [depth_eq, Action.bind_apply] at ran
              split at ran
              · rename_i below last ranBelow
                simp only [Action.pure_apply, EStateM.Result.ok.injEq] at ran
                obtain ⟨rfl, rfl⟩ := ran
                obtain ⟨children, listed, down⟩ :=
                  lockBelow_completes ⟨levels + 1, depth, directory⟩ depth_eq
                    (followsBelow childDepth) ranBelow
                have first : Step cancel write
                    ⟨world, ⟨levels + 1, depth, directory⟩ :: pending, taken⟩
                    ⟨locked, children ++ pending, lock :: taken⟩ :=
                  Step.claim ⟨levels + 1, depth, directory⟩
                    (Nat.succ_pos levels) polled acquired listed
                rw [List.reverse_cons, List.append_assoc]
                exact ReflTransGen.head first (down pending (lock :: taken))
              · simp at ran

theorem lockLevels_fails {levels : Nat}
    (followsBelow : ∀ depth child, Follows cancel write [⟨levels, depth, child⟩]
      (AreaLock.lockLevels cancel write levels depth child))
    {depth : Depth} {directory : Path} {world after : World σ} {error : Error}
    (ran : AreaLock.lockLevels cancel write (levels + 1) depth directory world =
      .error error after)
    (pending : List Task) (taken : List AreaLock) :
    ∃ reached failed mine,
      ReflTransGen (Step cancel write)
          ⟨world, ⟨levels + 1, depth, directory⟩ :: pending, taken⟩ reached ∧
        Fails cancel write reached error failed ∧
        failed.taken = mine ++ taken ∧ after = AreaLock.giveBack mine failed.world := by
  simp only [AreaLock.lockLevels, Action.bind_apply] at ran
  cases polled : AreaLock.poll cancel world with
  | error pollError asked =>
      simp only [polled, EStateM.Result.error.injEq] at ran
      obtain ⟨rfl, rfl⟩ := ran
      refine ⟨_, _, [], ReflTransGen.refl,
        Fails.cancelled ⟨levels + 1, depth, directory⟩ (Nat.succ_pos levels) polled,
        ?_, ?_⟩
      · rfl
      · rfl
  | ok _ asked =>
      simp only [polled] at ran
      cases acquired : AreaLock.acquire directory write depth asked with
      | error lockError unlocked =>
          simp only [acquired, EStateM.Result.error.injEq] at ran
          obtain ⟨rfl, rfl⟩ := ran
          refine ⟨_, _, [], ReflTransGen.refl,
            Fails.refused ⟨levels + 1, depth, directory⟩
              (Nat.succ_pos levels) polled acquired, ?_, ?_⟩
          · rfl
          · rfl
      | ok lock locked =>
          simp only [acquired] at ran
          cases depth_eq : depth.child? with
          | none => simp [depth_eq] at ran
          | some childDepth =>
              simp only [depth_eq, Action.bind_apply] at ran
              split at ran
              · simp at ran
              · rename_i belowError failed ranBelow
                simp only [EStateM.Result.error.injEq] at ran
                obtain ⟨rfl, rfl⟩ := ran
                exact lockBelow_fails ⟨levels + 1, depth, directory⟩
                  (Nat.succ_pos levels) polled acquired depth_eq (followsBelow childDepth)
                  ranBelow pending taken

/-- Locking a tree a number of levels deep descends through it. -/
theorem follows_lockLevels (levels : Nat) (depth : Depth) (directory : Path) :
    Follows cancel write [⟨levels, depth, directory⟩]
      (AreaLock.lockLevels cancel write levels depth directory) := by
  induction levels generalizing depth directory with
  | zero =>
      refine ⟨?_, ?_⟩
      · intro world after locks ran pending taken
        simp only [AreaLock.lockLevels, Action.pure_apply, EStateM.Result.ok.injEq] at ran
        obtain ⟨rfl, rfl⟩ := ran
        exact ReflTransGen.single (Step.skip rfl)
      · intro world after error ran
        simp [AreaLock.lockLevels] at ran
  | succ levels ih =>
      refine ⟨?_, ?_⟩
      · intro world after locks ran pending taken
        exact lockLevels_completes ih ran pending taken
      · intro world after error ran pending taken
        exact lockLevels_fails ih ran pending taken

/-- A tree that was locked was locked by a descent that had nothing left to lock. -/
theorem lockTree_ok {depth : Depth} {directory : Path} {world after : World σ}
    {locks : List AreaLock}
    (ran : AreaLock.lockTree cancel write depth directory world = .ok locks after) :
    ReflTransGen (Step cancel write) ⟨world, [Task.whole world.files depth directory], []⟩
      ⟨after, [], locks.reverse⟩ := by
  simp only [AreaLock.lockTree, Action.bind_apply, Action.get_apply] at ran
  have down := (follows_lockLevels _ depth directory).completes ran [] []
  rw [List.append_nil, List.append_nil] at down
  exact down

/-- A tree that was locked has a lock on the directory at its top, which is versioned. -/
theorem lockTree_top {depth : Depth} {directory : Path} {world after : World σ}
    {locks : List AreaLock}
    (ran : AreaLock.lockTree cancel write depth directory world = .ok locks after) :
    ∃ asked locked lock, AreaLock.poll cancel world = .ok () asked ∧
      AreaLock.acquire directory write depth asked = .ok lock locked ∧ lock ∈ locks := by
  simp only [AreaLock.lockTree, AreaLock.lockLevels, Action.bind_apply, Action.get_apply] at ran
  cases polled : AreaLock.poll cancel world with
  | error error asked => simp [polled] at ran
  | ok _ asked =>
      simp only [polled] at ran
      cases acquired : AreaLock.acquire directory write depth asked with
      | error error unlocked => simp [acquired] at ran
      | ok lock locked =>
          refine ⟨asked, locked, lock, rfl, acquired, ?_⟩
          simp only [acquired] at ran
          cases depth_eq : depth.child? with
          | none =>
              simp only [depth_eq, Action.pure_apply, EStateM.Result.ok.injEq] at ran
              rw [← ran.1]
              exact List.mem_cons_self
          | some childDepth =>
              simp only [depth_eq, Action.bind_apply] at ran
              split at ran
              · simp only [Action.pure_apply, EStateM.Result.ok.injEq] at ran
                rw [← ran.1]
                exact List.mem_cons_self
              · simp at ran

/-- When a tree cannot be locked, all locks taken by the descent were given back, the last one first. -/
theorem lockTree_error {depth : Depth} {directory : Path} {world after : World σ} {error : Error}
    (ran : AreaLock.lockTree cancel write depth directory world = .error error after) :
    ∃ reached failed,
      ReflTransGen (Step cancel write) ⟨world, [Task.whole world.files depth directory], []⟩ reached ∧
        Fails cancel write reached error failed ∧
        after = AreaLock.giveBack failed.taken failed.world := by
  simp only [AreaLock.lockTree, Action.bind_apply, Action.get_apply] at ran
  obtain ⟨reached, failed, mine, down, stops, taken_eq, rfl⟩ :=
    (follows_lockLevels _ depth directory).fails ran [] []
  rw [List.append_nil] at down taken_eq
  exact ⟨reached, failed, down, stops, by rw [taken_eq]⟩

end Descent

end Checkout
