import Checkout.Proofs.Lock.Closing
import Checkout.Proofs.Lock.Obstacles
import Checkout.Proofs.Lock.Records

/-!
# The trail of a descent

A descent locks the directories of a tree in pre-order: what it has locked is the front of the pre-order,
and what it has yet to lock are the roots of the trees that make up the rest. Before each directory the caller
was asked once, and none of the directories locked so far had an obstacle when the descent began. So a descent
ends at the first directory that has one.
-/

namespace Checkout

variable {σ : Type}

open Relation (ReflTransGen)
open FileSystem (AgreeOutside Borrowed)
open Cancellation (callerAfter callsOff)

/-! ## Surveys -/

/-- The tree of a directory that is locked. -/
def AreaLock.tree (lock : AreaLock) : Depth × Path :=
  (lock.depth, lock.path)

/-- The tree of a directory that is still to be locked. -/
def Task.tree (task : Task) : Depth × Path :=
  (task.depth, task.directory)

/-- The directories of a tree in pre-order, in a file system whose administrative directories are plain. -/
structure Survey (files : FileSystem) (root : Path) (top : Location) (depth : Depth)
    (visited : List (Depth × Path)) : Prop where
  wellFormed : files.WellFormed
  plain : files.PlainAreas top
  whole : files.Within root top root top
  preorder : files.InPreorder [(depth, root)] visited

section Surveys

variable {files now : FileSystem} {root : Path} {top location : Location} {depth : Depth}
  {visited rest trees : List (Depth × Path)}

theorem exists_survey (wellFormed : files.WellFormed) (depth : Depth) (absolute : root.isAbsolute = true)
    (versioned : files.isVersioned root = true)
    (plain : ∀ top, files.entry true root = .ok (top, .directory) → files.PlainAreas top) :
    ∃ top visited, Survey files root top depth visited := by
  obtain ⟨top, found⟩ := FileSystem.entry_of_isVersioned absolute versioned
  have whole : files.Within root top root top := ⟨absolute, found, versioned, [], by simp, by simp⟩
  obtain ⟨visited, preorder⟩ :=
    wellFormed.exists_inPreorder (files.nodes.length + 1) depth whole (by omega)
  exact ⟨top, visited, wellFormed, plain top found, whole, preorder⟩

theorem Survey.within (survey : Survey files root top depth visited) {tree : Depth × Path}
    (tree_mem : tree ∈ visited) : ∃ location, files.Within root top tree.2 location := by
  refine survey.preorder.within survey.wellFormed ?_ tree tree_mem
  intro only only_mem
  rw [List.mem_singleton.mp only_mem]
  exact ⟨top, survey.whole⟩

theorem Survey.inOrder (survey : Survey files root top depth visited) :
    (visited.map Prod.snd).Pairwise fun left right => left.order right = .lt := by
  refine survey.preorder.inOrder survey.wellFormed ?_ (List.pairwise_singleton _ _)
  intro only only_mem
  rw [List.mem_singleton.mp only_mem]
  exact survey.whole.absolute

/-- Once the directory of a task is locked, the tasks below it take its place in front of the others, if its
children are those that there were. -/
theorem below_of_inPreorder (wellFormed : files.WellFormed) {task : Task}
    (within : files.Within root top task.directory location)
    (enough : files.nodes.length < location.length + task.levels)
    (preorder : files.InPreorder (task.tree :: trees) rest)
    (listed : ∀ names, files.Subdirectories task.directory names →
      now.versionedChildren task.directory = .ok (names.map task.directory.join)) :
    ∃ children further, task.below now = .ok children ∧ rest = task.tree :: further ∧
      files.InPreorder (children.map Task.tree ++ trees) further ∧
      ∀ child ∈ children, ∃ location, files.Within root top child.directory location ∧
        files.nodes.length < location.length + child.levels := by
  rw [Task.tree] at preorder
  cases preorder with
  | @leaf _ _ _ further last preorder =>
      exact ⟨[], further, by rw [Task.below, last], rfl, preorder, by simp⟩
  | @branch _ childDepth _ names _ further deeper children preorder =>
      refine ⟨names.map fun name => ⟨task.levels - 1, childDepth, task.directory.join name⟩, further,
        ?_, rfl, ?_, ?_⟩
      · rw [Task.below, deeper]
        simp only [listed names children, List.map_map]
        rfl
      · rw [List.map_map]
        exact preorder
      · intro child child_mem
        obtain ⟨name, name_mem, rfl⟩ := List.mem_map.mp child_mem
        have bound := wellFormed.length_le (within.inside wellFormed)
        refine ⟨_, within.child wellFormed children name_mem, ?_⟩
        rw [List.length_append, List.length_singleton]
        simp only
        omega

/-- In a plain tree the children are those that there were, when lock files have come and gone. -/
theorem Survey.below (survey : Survey files root top depth visited) {task : Task}
    (within : files.Within root top task.directory location)
    (enough : files.nodes.length < location.length + task.levels)
    (preorder : files.InPreorder (task.tree :: trees) rest)
    (agree : AgreeOutside files now FileSystem.lockPlaces) (nowWellFormed : now.WellFormed) :
    ∃ children further, task.below now = .ok children ∧ rest = task.tree :: further ∧
      files.InPreorder (children.map Task.tree ++ trees) further ∧
      ∀ child ∈ children, ∃ location, files.Within root top child.directory location ∧
        files.nodes.length < location.length + child.levels :=
  below_of_inPreorder survey.wellFormed within enough preorder fun _ children =>
    (children.congr within survey.plain agree survey.wellFormed nowWellFormed).listed
      nowWellFormed within.absolute (FileSystem.entry_congr agree.sameTree within.found)

end Surveys

namespace Descent

/-! ## Where a descent stops -/

section Stops

variable (world : World σ) (cancel : Option (Cancellation σ)) (write : Bool)
  (visited : List (Depth × Path))

/-- None of the first few directories stops an attempt to lock them. -/
def ClearUpTo (count : Nat) : Prop :=
  ∀ asked < count, ∀ tree, visited[asked]? = some tree →
    world.stop? cancel write asked tree.2 = none

/-- The directory with this number is the first one that stops an attempt to lock them all. -/
structure StopsAt (asked : Nat) (error : Error) : Prop where
  stopped : ∃ tree, visited[asked]? = some tree ∧
    world.stop? cancel write asked tree.2 = some error
  clear : ClearUpTo world cancel write visited asked

variable {world cancel write visited}

theorem StopsAt.unique {asked other : Nat} {error otherError : Error}
    (stops : StopsAt world cancel write visited asked error)
    (again : StopsAt world cancel write visited other otherError) :
    asked = other ∧ error = otherError := by
  obtain ⟨⟨tree, found, stopped⟩, clear⟩ := stops
  obtain ⟨⟨tree', found', stopped'⟩, clear'⟩ := again
  rcases Nat.lt_trichotomy asked other with before | rfl | after
  · rw [clear' asked before tree found] at stopped
    simp at stopped
  · rw [found, Option.some.injEq] at found'
    rw [found', stopped', Option.some.injEq] at stopped
    exact ⟨rfl, stopped.symm⟩
  · rw [clear other after tree' found'] at stopped'
    simp at stopped'

theorem StopsAt.not_clear {asked : Nat} {error : Error}
    (stops : StopsAt world cancel write visited asked error) :
    ¬ClearUpTo world cancel write visited visited.length := by
  intro clear
  obtain ⟨tree, found, stopped⟩ := stops.stopped
  obtain ⟨inside, -⟩ := List.getElem?_eq_some_iff.mp found
  rw [clear asked inside tree found] at stopped
  simp at stopped

end Stops

/-! ## What a descent has done -/

variable {world : World σ} {cancel : Option (Cancellation σ)} {write : Bool} {root : Path}
  {top : Location} {depth : Depth} {visited : List (Depth × Path)} {here later failed : Descent σ}
  {error : Error}

/-- What a descent into a tree has done so far, by the pre-order of the tree. -/
structure Trail (world : World σ) (cancel : Option (Cancellation σ)) (write : Bool) (root : Path)
    (top : Location) (visited : List (Depth × Path)) (descent : Descent σ) : Prop where
  ledger : Ledger world.claims descent
  borrowed : Borrowed world.files descent.world.files (AreaLock.fileLocks descent.taken) ∅
  ahead : ∃ rest, visited = (descent.taken.map AreaLock.tree).reverse ++ rest ∧
    world.files.InPreorder (descent.pending.map Task.tree) rest
  /-- So no task runs out of levels. -/
  enough : ∀ task ∈ descent.pending, ∃ location,
    world.files.Within root top task.directory location ∧
      world.files.nodes.length < location.length + task.levels
  caller : descent.world.caller = callerAfter cancel world.caller descent.taken.length
  clear : ClearUpTo world cancel write visited descent.taken.length
  marked : ∀ lock ∈ descent.taken, lock.write = write ∧ lock.Marked

theorem Trail.start (survey : Survey world.files root top depth visited) :
    Trail world cancel write root top visited (whole world depth root) where
  ledger := Ledger.start world _
  borrowed := Borrowed.start survey.wellFormed ∅
  ahead := ⟨visited, rfl, survey.preorder⟩
  enough := by
    intro task task_mem
    rw [List.mem_singleton.mp task_mem]
    exact ⟨top, survey.whole, by simp only [Task.whole]; omega⟩
  caller := rfl
  clear := fun asked before => absurd before (Nat.not_lt_zero asked)
  marked := by simp [whole]

section Head

variable {current asked locked : World σ} {task : Task} {pending children : List Task}
  {taken : List AreaLock} {lock : AreaLock}

theorem Trail.next (survey : Survey world.files root top depth visited)
    (trail : Trail world cancel write root top visited ⟨current, task :: pending, taken⟩) :
    ∃ rest, visited = (taken.map AreaLock.tree).reverse ++ task.tree :: rest ∧
      world.files.InPreorder (task.tree :: pending.map Task.tree) (task.tree :: rest) := by
  obtain ⟨rest, visited_eq, preorder⟩ := trail.ahead
  obtain ⟨location, within, enough⟩ := trail.enough task List.mem_cons_self
  have same : AgreeOutside world.files world.files FileSystem.lockPlaces :=
    ⟨FileSystem.SameTree.refl _, fun _ _ => rfl⟩
  obtain ⟨-, further, -, rfl, -⟩ := survey.below within enough preorder same survey.wellFormed
  exact ⟨further, visited_eq, preorder⟩

theorem Trail.getElem?_next (survey : Survey world.files root top depth visited)
    (trail : Trail world cancel write root top visited ⟨current, task :: pending, taken⟩) :
    visited[taken.length]? = some task.tree := by
  obtain ⟨rest, visited_eq, -⟩ := trail.next survey
  rw [visited_eq, List.getElem?_append_right (by simp)]
  simp

theorem Trail.behind (survey : Survey world.files root top depth visited)
    (trail : Trail world cancel write root top visited ⟨current, task :: pending, taken⟩)
    (lock_mem : lock ∈ taken) : lock.path.order task.directory = .lt := by
  obtain ⟨rest, visited_eq, -⟩ := trail.next survey
  have inOrder := survey.inOrder
  rw [visited_eq, List.map_append, List.pairwise_append] at inOrder
  refine inOrder.2.2 lock.path ?_ task.directory ?_
  · exact List.mem_map.mpr ⟨lock.tree, List.mem_reverse.mpr (List.mem_map_of_mem lock_mem), rfl⟩
  · exact List.mem_cons_self

theorem Trail.mem_visited
    (trail : Trail world cancel write root top visited ⟨current, pending, taken⟩)
    (lock_mem : lock ∈ taken) : lock.tree ∈ visited := by
  obtain ⟨rest, visited_eq, -⟩ := trail.ahead
  rw [visited_eq]
  exact List.mem_append_left _ (List.mem_reverse.mpr (List.mem_map_of_mem lock_mem))

/-- The next directory can be tried as before the descent, since only others have been locked. -/
theorem Trail.attempt (survey : Survey world.files root top depth visited)
    (trail : Trail world cancel write root top visited ⟨current, task :: pending, taken⟩)
    (files_eq : asked.files = current.files) (claims_eq : asked.claims = current.claims) :
    ∃ location, AreaLock.Attempt world asked root top task.directory location (AreaLock.fileLocks taken) ∧
      world.files.nodes.length < location.length + task.levels := by
  obtain ⟨location, within, enough⟩ := trail.enough task List.mem_cons_self
  have different {lock : AreaLock} (lock_mem : lock ∈ taken) :
      lock.path.components ≠ task.directory.components := by
    intro same
    have before := trail.behind survey lock_mem
    rw [Path.order_congr_left same] at before
    exact Path.not_order_self _ before
  refine ⟨location, ⟨survey.wellFormed, survey.plain, within, ?_, ?_, ?_, ?_⟩, enough⟩
  · rw [files_eq]
    exact trail.borrowed
  · intro file file_mem
    obtain ⟨lock, -, path_eq⟩ := AreaLock.path_of_mem_fileLocks trail.ledger.sound file_mem
    exact ⟨lock.path, path_eq⟩
  -- the lock file of another directory of the tree has another place
  · intro file file_mem place
    obtain ⟨lock, lock_mem, path_eq⟩ := AreaLock.path_of_mem_fileLocks trail.ledger.sound file_mem
    obtain ⟨other, otherWithin⟩ := survey.within (trail.mem_visited lock_mem)
    rw [path_eq] at place
    have location_eq := List.append_cancel_right
      (place.unique (otherWithin.plainArea survey.plain).isPlace_lockFile)
    rw [← location_eq] at otherWithin
    exact different lock_mem (otherWithin.components_eq within)
  · have ledger_eq : current.claims = taken.map AreaLock.key ++ world.claims := trail.ledger.claims_eq
    rw [Bool.eq_iff_iff, World.isClaimed_iff, World.isClaimed_iff, claims_eq, ledger_eq,
      List.mem_append, or_iff_right]
    intro listed
    obtain ⟨lock, lock_mem, same⟩ := List.mem_map.mp listed
    exact different lock_mem same

/-- When the caller has been asked, trying to lock the next directory fails exactly if it was stopped. -/
theorem Trail.verdict (survey : Survey world.files root top depth visited)
    (trail : Trail world cancel write root top visited ⟨current, task :: pending, taken⟩)
    (polled : AreaLock.poll cancel current = .ok () asked) :
    match world.stop? cancel write taken.length task.directory with
    | none => ∃ lock after, AreaLock.acquire task.directory write task.depth asked = .ok lock after
    | some error => ∃ after,
        AreaLock.acquire task.directory write task.depth asked = .error error after := by
  obtain ⟨goesOn, asked_eq⟩ := AreaLock.poll_eq_ok polled
  have caller_eq : current.caller = callerAfter cancel world.caller taken.length := trail.caller
  obtain ⟨location, attempt, -⟩ :=
    trail.attempt survey (AreaLock.files_poll polled) (by rw [asked_eq])
  rw [caller_eq] at goesOn
  rw [World.stop?, callsOff, goesOn]
  exact attempt.acquire task.depth

theorem Trail.stop?_of_acquired (survey : Survey world.files root top depth visited)
    (trail : Trail world cancel write root top visited ⟨current, task :: pending, taken⟩)
    (polled : AreaLock.poll cancel current = .ok () asked)
    (acquired : AreaLock.acquire task.directory write task.depth asked = .ok lock locked) :
    world.stop? cancel write taken.length task.directory = none := by
  have verdict := trail.verdict survey polled
  cases stop : world.stop? cancel write taken.length task.directory with
  | none => rfl
  | some error =>
      rw [stop] at verdict
      obtain ⟨after, refused⟩ := verdict
      simp [acquired] at refused

theorem Trail.stop?_of_refused (survey : Survey world.files root top depth visited)
    (trail : Trail world cancel write root top visited ⟨current, task :: pending, taken⟩)
    (polled : AreaLock.poll cancel current = .ok () asked)
    (refused : AreaLock.acquire task.directory write task.depth asked = .error error locked) :
    world.stop? cancel write taken.length task.directory = some error := by
  have verdict := trail.verdict survey polled
  cases stop : world.stop? cancel write taken.length task.directory with
  | none =>
      rw [stop] at verdict
      obtain ⟨lock, after, acquired⟩ := verdict
      simp [refused] at acquired
  | some other =>
      rw [stop] at verdict
      obtain ⟨after, refused'⟩ := verdict
      rw [refused, EStateM.Result.error.injEq] at refused'
      rw [refused'.1]

theorem Trail.caller_tried
    (trail : Trail world cancel write root top visited ⟨current, task :: pending, taken⟩)
    (polled : AreaLock.poll cancel current = .ok () asked) :
    (stateAfter (AreaLock.acquire task.directory write task.depth) asked).caller =
      callerAfter cancel world.caller (taken.length + 1) := by
  have caller_eq : current.caller = callerAfter cancel world.caller taken.length := trail.caller
  obtain ⟨-, asked_eq⟩ := AreaLock.poll_eq_ok polled
  rw [AreaLock.caller_acquire, asked_eq, callerAfter, ← caller_eq]

theorem Trail.claim (survey : Survey world.files root top depth visited)
    (trail : Trail world cancel write root top visited ⟨current, task :: pending, taken⟩)
    (polled : AreaLock.poll cancel current = .ok () asked)
    (acquired : AreaLock.acquire task.directory write task.depth asked = .ok lock locked) :
    ∃ children, task.below locked.files = .ok children ∧
      Trail world cancel write root top visited ⟨locked, children ++ pending, lock :: taken⟩ := by
  obtain ⟨-, asked_eq⟩ := AreaLock.poll_eq_ok polled
  obtain ⟨location, attempt, enough⟩ :=
    trail.attempt survey (AreaLock.files_poll polled) (by rw [asked_eq])
  have ledger (pending : List Task) : Ledger world.claims ⟨locked, pending, lock :: taken⟩ :=
    trail.ledger.acquire polled acquired
  have lock_eq : lock.tree = task.tree ∧ lock.write = write := by
    obtain ⟨-, held, -, rfl⟩ := AreaLock.acquire_ok acquired
    exact ⟨rfl, rfl⟩
  have borrowed : Borrowed world.files locked.files (AreaLock.fileLocks (lock :: taken)) ∅ := by
    have noLink := (attempt.within.plainArea survey.plain).not_namesLink_lockFile
    have further := AreaLock.borrowed_acquire attempt.borrowed noLink acquired
    rw [← AreaLock.fileLocks_append] at further
    exact further
  have agree : AgreeOutside world.files locked.files FileSystem.lockPlaces := by
    apply borrowed.agreeOutside_lockPlaces
    intro file file_mem
    obtain ⟨other, -, path_eq⟩ := AreaLock.path_of_mem_fileLocks (ledger []).sound file_mem
    exact ⟨other.path, path_eq⟩
  -- only lock files have changed, so the children are those that there were in the beginning
  obtain ⟨rest, visited_eq, preorder⟩ := trail.next survey
  obtain ⟨children, further, listed, rest_eq, inside, deep⟩ :=
    survey.below attempt.within enough preorder agree borrowed.wellFormed
  obtain rfl : rest = further := List.tail_eq_of_cons_eq rest_eq
  refine ⟨children, listed, ⟨ledger _, borrowed, ⟨rest, ?_, ?_⟩, ?_, ?_, ?_, ?_⟩⟩
  · rw [visited_eq, List.map_cons, List.reverse_cons, lock_eq.1, List.append_assoc]
    rfl
  · rw [List.map_append]
    exact inside
  · intro other other_mem
    rcases List.mem_append.mp other_mem with new | old
    · exact deep other new
    · exact trail.enough other (List.mem_cons_of_mem _ old)
  · have tried := trail.caller_tried polled
    rw [stateAfter_of_ok acquired] at tried
    exact tried
  · intro count before tree found
    rcases Nat.lt_succ_iff_lt_or_eq.mp before with earlier | rfl
    · exact trail.clear count earlier tree found
    · rw [trail.getElem?_next survey, Option.some.injEq] at found
      rw [← found]
      exact trail.stop?_of_acquired survey polled acquired
  · intro other other_mem
    rcases List.mem_cons.mp other_mem with rfl | older
    · exact ⟨lock_eq.2, (AreaLock.inherent_marked σ).acquired acquired⟩
    · exact trail.marked other older

end Head

theorem Trail.step (survey : Survey world.files root top depth visited)
    (trail : Trail world cancel write root top visited here) (step : Step cancel write here later) :
    Trail world cancel write root top visited later := by
  cases step with
  | skip exhausted =>
      -- a task without levels would lie deeper than there are entries
      obtain ⟨location, within, enough⟩ := trail.enough _ List.mem_cons_self
      have bound := survey.wellFormed.length_le (within.inside survey.wellFormed)
      omega
  | claim task more polled acquired listed =>
      obtain ⟨children, listed', further⟩ := trail.claim survey polled acquired
      rw [listed, Except.ok.injEq] at listed'
      rw [listed']
      exact further

/-- Every descent into a tree follows the pre-order of the tree. -/
theorem Trail.steps (survey : Survey world.files root top depth visited)
    (trail : Trail world cancel write root top visited here)
    (down : ReflTransGen (Step cancel write) here later) :
    Trail world cancel write root top visited later := by
  induction down with
  | refl => exact trail
  | tail _ step ih => exact ih.step survey step

/-- A descent ends in an error at the first directory that stops it. -/
theorem Trail.fails (survey : Survey world.files root top depth visited)
    (trail : Trail world cancel write root top visited here)
    (fails : Fails cancel write here error failed) :
    StopsAt world cancel write visited here.taken.length error ∧ failed.taken = here.taken ∧
      failed.world.caller = callerAfter cancel world.caller (here.taken.length + 1) ∧
      failed.world.files = here.world.files := by
  cases fails with
  | @cancelled current asked task pending taken error more polled =>
      obtain ⟨stops, rfl, rfl⟩ := AreaLock.poll_eq_error polled
      have caller_eq : current.caller = callerAfter cancel world.caller taken.length := trail.caller
      rw [caller_eq] at stops
      refine ⟨⟨⟨_, trail.getElem?_next survey, ?_⟩, trail.clear⟩, rfl, ?_, rfl⟩
      · rw [World.stop?, callsOff, if_pos stops]
      · rw [callerAfter, ← caller_eq]
  | @refused current asked unlocked task pending taken error more polled refused =>
      obtain ⟨-, asked_eq⟩ := AreaLock.poll_eq_ok polled
      have files_eq : asked.files = current.files := AreaLock.files_poll polled
      obtain ⟨location, attempt, -⟩ := trail.attempt survey files_eq (by rw [asked_eq])
      refine ⟨⟨⟨_, trail.getElem?_next survey, trail.stop?_of_refused survey polled refused⟩,
        trail.clear⟩, rfl, ?_, ?_⟩
      · have tried := trail.caller_tried polled
        rw [stateAfter_of_error refused] at tried
        exact tried
      · have noLink := (attempt.within.plainArea survey.plain).not_namesLink_lockFile
        rw [AreaLock.files_acquire_error attempt.borrowed noLink refused]
        exact files_eq
  | unlisted task more polled acquired unlisted =>
      obtain ⟨children, listed, -⟩ := trail.claim survey polled acquired
      simp [listed] at unlisted

/-! ## What locking a tree comes to -/

variable {after : World σ} {locks : List AreaLock}

/-- A tree was locked: in pre-order, with all lock files held, and with the caller asked once for each. -/
structure Locked (world : World σ) (cancel : Option (Cancellation σ)) (write : Bool)
    (visited : List (Depth × Path)) (locks : List AreaLock) (after : World σ) : Prop where
  trees : locks.map AreaLock.tree = visited
  held : ∀ lock ∈ locks, lock.write = write ∧ ∃ held, lock.held = some held ∧
    held.IsFor lock.path ∧ held.isWrite = write
  claims : after.claims = (visited.map fun tree => tree.2.components).reverse ++ world.claims
  files : Borrowed world.files after.files (AreaLock.fileLocks locks) ∅
  caller : after.caller = callerAfter cancel world.caller visited.length

/-- Locking a tree failed after the caller was asked a number of times, and nothing is left of it. Lock files
that nobody held may be gone, but only those of directories that were locked. -/
structure Unlocked (world : World σ) (cancel : Option (Cancellation σ))
    (visited : List (Depth × Path)) (asked : Nat) (after : World σ) : Prop where
  claims : after.claims = world.claims
  files : Borrowed world.files after.files []
    {path | ∃ tree ∈ visited.take asked, path = Area.lockFile tree.2}
  caller : after.caller = callerAfter cancel world.caller (asked + 1)

theorem clear_of_lockTree (survey : Survey world.files root top depth visited)
    (ran : AreaLock.lockTree cancel write depth root world = .ok locks after) :
    ClearUpTo world cancel write visited visited.length ∧
      Locked world cancel write visited locks after := by
  have trail := (Trail.start survey).steps survey (lockTree_ok ran)
  obtain ⟨rest, visited_eq, preorder⟩ := trail.ahead
  cases preorder
  have trees : locks.map AreaLock.tree = visited := by
    rw [visited_eq, List.map_reverse, List.reverse_reverse, List.append_nil]
  have count : locks.reverse.length = visited.length := by
    rw [← trees, List.length_reverse, List.length_map]
  have clear := trail.clear
  have caller := trail.caller
  rw [count] at clear caller
  refine ⟨clear, trees, ?_, ?_, ?_, caller⟩
  · intro lock lock_mem
    have taken := List.mem_reverse.mpr lock_mem
    obtain ⟨write_eq, marked⟩ := trail.marked lock taken
    obtain ⟨held, held_eq⟩ := Option.isSome_iff_exists.mp (trail.ledger.allOpen lock taken)
    exact ⟨write_eq, held, held_eq, trail.ledger.sound lock taken held held_eq,
      (marked held held_eq).trans write_eq⟩
  · have keys : locks.map AreaLock.key = visited.map fun tree => tree.2.components := by
      rw [← trees, List.map_map]
      rfl
    rw [trail.ledger.claims_eq, List.map_reverse, keys]
  · exact trail.borrowed.perm ((List.reverse_perm locks).filterMap _)

theorem stopsAt_of_lockTree (survey : Survey world.files root top depth visited)
    (ran : AreaLock.lockTree cancel write depth root world = .error error after) :
    ∃ asked, StopsAt world cancel write visited asked error ∧
      Unlocked world cancel visited asked after := by
  have claims := claims_lockTree_error ran
  obtain ⟨reached, failed, down, fails, rfl⟩ := lockTree_error ran
  have trail := (Trail.start survey).steps survey down
  obtain ⟨stops, taken_eq, caller, files_eq⟩ := trail.fails survey fails
  refine ⟨_, stops, claims, ?_, ?_⟩
  · rw [taken_eq]
    apply AreaLock.borrowed_giveBack
    · rw [files_eq, List.append_nil]
      exact trail.borrowed.mono (Set.empty_subset _)
    · intro file file_mem
      obtain ⟨lock, lock_mem, path_eq⟩ := AreaLock.path_of_mem_fileLocks trail.ledger.sound file_mem
      obtain ⟨rest, visited_eq, -⟩ := trail.ahead
      refine ⟨lock.tree, ?_, path_eq⟩
      rw [visited_eq, List.take_left' (by simp)]
      exact List.mem_reverse.mpr (List.mem_map_of_mem lock_mem)
  · rw [AreaLock.caller_giveBack]
    exact caller

/-- Locking a tree goes on until the first directory that stops it. -/
theorem lockTree_of_stopsAt {asked : Nat} (survey : Survey world.files root top depth visited)
    (stops : StopsAt world cancel write visited asked error) :
    ∃ after, AreaLock.lockTree cancel write depth root world = .error error after ∧
      Unlocked world cancel visited asked after := by
  cases ran : AreaLock.lockTree cancel write depth root world with
  | ok locks after => exact absurd (clear_of_lockTree survey ran).1 stops.not_clear
  | error other after =>
      obtain ⟨asked', stops', unlocked⟩ := stopsAt_of_lockTree survey ran
      obtain ⟨rfl, rfl⟩ := stops.unique stops'
      exact ⟨after, rfl, unlocked⟩

theorem lockTree_of_clear (survey : Survey world.files root top depth visited)
    (clear : ClearUpTo world cancel write visited visited.length) :
    ∃ locks after, AreaLock.lockTree cancel write depth root world = .ok locks after ∧
      Locked world cancel write visited locks after := by
  cases ran : AreaLock.lockTree cancel write depth root world with
  | ok locks after => exact ⟨locks, after, rfl, (clear_of_lockTree survey ran).2⟩
  | error error after =>
      obtain ⟨asked, stops, -⟩ := stopsAt_of_lockTree survey ran
      exact absurd clear stops.not_clear

end Descent

end Checkout
