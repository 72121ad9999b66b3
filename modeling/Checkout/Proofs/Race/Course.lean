import Checkout.Proofs.Race.Holdings

/-!
# The course of a race

Every call goes through its directories in one order that all calls share: what it has locked comes
before what it has yet to lock, and before the directory that stopped it. So a call is stopped only by one
that has come further, which goes on, or is stopped at a later directory, or succeeds.
-/

namespace Checkout

open FileSystem (AgreeUpTo)

/-- The tasks below a directory are for its versioned children. -/
theorem Task.below_ok {files : FileSystem} {task : Task} {children : List Task}
    (listed : task.below files = .ok children) :
    children = [] ∨ ∃ childDepth directories, task.depth.child? = some childDepth ∧
      files.versionedChildren task.directory = .ok directories ∧
      children = directories.map fun child => ⟨task.levels - 1, childDepth, child⟩ := by
  rw [Task.below] at listed
  split at listed
  · exact Or.inl (Except.ok.inj listed).symm
  · rename_i childDepth depth_eq
    split at listed
    · rename_i directories directories_eq
      exact Or.inr ⟨childDepth, directories, depth_eq, directories_eq, (Except.ok.inj listed).symm⟩
    · simp at listed

namespace Phase

/-- What a call has yet to lock. -/
def pending : Phase → List Task
  | descending pending _ => pending
  | _ => []

/-- The directories a call has yet to lock, or the one that stopped it. -/
def ahead : Phase → List Path
  | descending pending _ => pending.map Task.directory
  | failing _ stop _ => [stop]
  | _ => []

/-- The call has come further than a call that was stopped at a directory. -/
def Outdoes (stop : Path) : Phase → Prop
  | waiting => False
  | descending _ taken => ∃ lock ∈ taken, lock.path.same stop = true
  | failing _ further _ => stop.order further = .lt
  | opened _ => True

variable {σ ι : Type} {calls : ι → Call} {before : World σ} {files : FileSystem} {phase : Phase}
  {task : Task} {pending children : List Task} {taken kept : List AreaLock} {lock : AreaLock}
  {error : Error} {stop : Path}

/-- A call goes through directories in reach in the order of paths. -/
structure Orderly (calls : ι → Call) (files : FileSystem) (phase : Phase) : Prop where
  within : ∀ task ∈ phase.pending, ∀ directory, Reach files task.depth task.directory directory →
    Race.InReach calls files directory
  apart : phase.ahead.Pairwise Path.Diverges
  behind : ∀ lock ∈ phase.taken, ∀ directory ∈ phase.ahead, lock.path.order directory = .lt

theorem Orderly.inReach (orderly : (descending (task :: pending) taken).Orderly calls files) :
    Race.InReach calls files task.directory :=
  orderly.within task List.mem_cons_self _ (Reach.here _ _)

theorem Orderly.skip (orderly : (descending (task :: pending) taken).Orderly calls files) :
    (descending pending taken).Orderly calls files where
  within := fun other other_mem => orderly.within other (List.mem_cons_of_mem _ other_mem)
  apart := (List.pairwise_cons.mp orderly.apart).2
  behind := fun lock lock_mem directory ahead =>
    orderly.behind lock lock_mem directory (List.mem_cons_of_mem _ ahead)

theorem Orderly.refused (orderly : (descending (task :: pending) taken).Orderly calls files) :
    (failing error task.directory taken).Orderly calls files where
  within := by simp [Phase.pending]
  apart := List.pairwise_singleton _ _
  behind := by
    intro lock lock_mem directory ahead
    rw [List.mem_singleton.mp ahead]
    exact orderly.behind lock lock_mem _ List.mem_cons_self

theorem Orderly.gaveBack (orderly : (failing error stop (lock :: taken)).Orderly calls files) :
    (failing error stop taken).Orderly calls files where
  within := by simp [Phase.pending]
  apart := List.pairwise_singleton _ _
  behind := fun other other_mem => orderly.behind other (List.mem_cons_of_mem _ other_mem)

theorem orderly_opened (calls : ι → Call) (files : FileSystem) (taken : List AreaLock) :
    (opened taken).Orderly calls files where
  within := by simp [Phase.pending]
  apart := List.Pairwise.nil
  behind := by simp [ahead]

/-- Locking a directory puts its children ahead, which come after it and before all else. -/
theorem Orderly.claim {now : FileSystem} (ready : Race.Ready calls before)
    (agree : AgreeUpTo before.files now (Race.lockFiles calls before.files))
    (wellFormed : now.WellFormed)
    (orderly : (descending (task :: pending) taken).Orderly calls before.files)
    (path_eq : lock.path = task.directory) (listed : task.below now = .ok children) :
    (descending (children ++ pending) (lock :: taken)).Orderly calls before.files := by
  have absolute := orderly.inReach.isAbsolute ready.wellFormed
  have rest := List.pairwise_cons.mp orderly.apart
  have under : ∀ child ∈ children, child.directory.isUnder task.directory = true ∧
      task.directory.order child.directory = .lt := by
    intro child child_mem
    rcases Task.below_ok listed with rfl | ⟨childDepth, directories, -, found, rfl⟩
    · simp at child_mem
    · obtain ⟨directory, directory_mem, rfl⟩ := List.mem_map.mp child_mem
      obtain ⟨name, proper, rfl⟩ := wellFormed.child_eq_join found directory_mem
      exact ⟨Path.isUnder_join proper absolute, Path.order_join proper absolute⟩
  have apartChildren : (children.map Task.directory).Pairwise Path.Diverges := by
    rcases Task.below_ok listed with rfl | ⟨childDepth, directories, -, found, rfl⟩
    · exact List.Pairwise.nil
    · rw [List.map_map]
      exact (List.map_id directories).symm ▸ wellFormed.diverges_children absolute found
  refine ⟨?_, ?_, ?_⟩
  · intro child child_mem directory reach
    rcases List.mem_append.mp child_mem with new | older
    · rcases Task.below_ok listed with rfl | ⟨childDepth, directories, deeper, found, rfl⟩
      · simp at new
      · obtain ⟨top, top_mem, rfl⟩ := List.mem_map.mp new
        obtain ⟨location, inside⟩ :=
          FileSystem.entry_of_isVersioned absolute (orderly.inReach.isVersioned ready)
        obtain ⟨known, known_eq, top_known⟩ := agree.mem_versionedChildren ready.wellFormed wellFormed inside
          (fun name => ready.childRecords task.directory location name orderly.inReach inside) found top_mem
        exact orderly.within task List.mem_cons_self directory
          (Reach.inside deeper known_eq top_known reach)
    · exact orderly.within child (List.mem_cons_of_mem _ older) directory reach
  · change ((children ++ pending).map Task.directory).Pairwise Path.Diverges
    rw [List.map_append, List.pairwise_append]
    refine ⟨apartChildren, rest.2, ?_⟩
    intro directory directory_mem other other_mem
    obtain ⟨child, child_mem, rfl⟩ := List.mem_map.mp directory_mem
    exact (rest.1 other other_mem).under_left (under child child_mem).1
  · intro other other_mem directory directory_mem
    have later : task.directory.order directory = .lt := by
      change directory ∈ (children ++ pending).map Task.directory at directory_mem
      rw [List.map_append, List.mem_append] at directory_mem
      rcases directory_mem with new | older
      · obtain ⟨child, child_mem, rfl⟩ := List.mem_map.mp new
        exact (under child child_mem).2
      · exact (rest.1 directory older).order_lt
    rcases List.mem_cons.mp other_mem with rfl | older
    · rw [path_eq]
      exact later
    · exact Std.TransCmp.lt_trans (orderly.behind other older _ List.mem_cons_self) later

/-- A call that has locked the directory that stopped another call has come further. -/
theorem Orderly.outdoes (orderly : phase.Orderly calls files) (lock_mem : lock ∈ phase.taken)
    (same : lock.path.same stop = true) : phase.Outdoes stop := by
  have components_eq : lock.path.components = stop.components := by simpa [Path.same] using same
  cases phase with
  | waiting => simp [Phase.taken] at lock_mem
  | descending pending taken => exact ⟨lock, lock_mem, same⟩
  | failing error further taken =>
      rw [Outdoes, ← Path.order_congr_left components_eq]
      exact orderly.behind lock lock_mem further List.mem_cons_self
  | opened taken => trivial

end Phase

namespace Race

variable {σ ι : Type} [DecidableEq ι] [Fintype ι] {calls : ι → Call} {before after : World σ}
  {race next : Race σ ι} {call : ι} {phase : Phase} {error : Error} {stop : Path}

/-- A call was stopped because another one has come further, or because a lock file cannot be opened. -/
def Explained (calls : ι → Call) (files : FileSystem) (race : Race σ ι) (error : Error)
    (stop : Path) : Prop :=
  error = .alreadyLocked stop ∧ (∃ rival, (race.phase rival).Outdoes stop) ∨
    (∃ failure, error = .io failure) ∧ Obstructed calls files stop

/-- What is true at every moment of a race. -/
structure Course (calls : ι → Call) (before : World σ) (race : Race σ ι) : Prop where
  holds : ∃ locks, Holds calls before race locks
  orderly : ∀ call, (race.phase call).Orderly calls before.files
  explained : ∀ call error stop taken, race.phase call = .failing error stop taken →
    Explained calls before.files race error stop

omit [DecidableEq ι] in
theorem course_start (ready : Ready calls before) : Course calls before (start before) where
  holds := ⟨[], holds_start ready⟩
  orderly := by
    intro call
    exact ⟨by simp [start, Phase.pending], List.Pairwise.nil, by simp [start, Phase.taken]⟩
  explained := by simp [start]

namespace Course

/-- One call goes on, and stays ahead of the calls it has outdone. -/
theorem advance (course : Course calls before race) {locks : List AreaLock}
    (holds : Holds calls before (race.advance call after phase) locks)
    (orderly : phase.Orderly calls before.files)
    (stays : ∀ stop, (race.phase call).Outdoes stop → phase.Outdoes stop)
    (explained : ∀ error stop taken, phase = .failing error stop taken →
      Explained calls before.files race error stop) :
    Course calls before (race.advance call after phase) := by
  have still {error : Error} {stop : Path} (was : Explained calls before.files race error stop) :
      Explained calls before.files (race.advance call after phase) error stop := by
    rcases was with ⟨rfl, rival, outdoes⟩ | obstructed
    · refine Or.inl ⟨rfl, rival, ?_⟩
      rcases eq_or_ne rival call with rfl | apart
      · rw [phase_advance_self]
        exact stays stop outdoes
      · rw [phase_advance_of_ne apart]
        exact outdoes
    · exact Or.inr obstructed
  refine ⟨⟨locks, holds⟩, ?_, ?_⟩
  · intro other
    rcases eq_or_ne other call with rfl | apart
    · rw [phase_advance_self]
      exact orderly
    · rw [phase_advance_of_ne apart]
      exact course.orderly other
  · intro other error stop taken phase_eq
    rcases eq_or_ne other call with rfl | apart
    · rw [phase_advance_self] at phase_eq
      exact still (explained error stop taken phase_eq)
    · rw [phase_advance_of_ne apart] at phase_eq
      exact still (course.explained other error stop taken phase_eq)

omit [DecidableEq ι] in
/-- The directories below one in reach can be listed. -/
theorem listed {locks : List AreaLock} {task : Task} (ready : Ready calls before)
    (holds : Holds calls before race locks)
    (inReach : InReach calls before.files task.directory) :
    ∃ children, task.below race.world.files = .ok children := by
  rw [Task.below]
  split
  · exact ⟨_, rfl⟩
  · obtain ⟨location, found⟩ := FileSystem.entry_of_isVersioned (inReach.isAbsolute ready.wellFormed)
      (holds.isVersioned ready inReach)
    obtain ⟨directories, directories_eq⟩ := FileSystem.versionedChildren_of_entry found
    rw [directories_eq]
    exact ⟨_, rfl⟩

/-- A call locks the next directory. -/
theorem claim {write : Bool} {task : Task} {pending children : List Task} {taken : List AreaLock}
    {lock : AreaLock} (course : Course calls before race) (ready : Ready calls before)
    (phase_eq : race.phase call = .descending (task :: pending) taken)
    (acquired : AreaLock.acquire task.directory write task.depth race.world = .ok lock after)
    (listed : task.below after.files = .ok children) :
    Course calls before
      (race.advance call after (.descending (children ++ pending) (lock :: taken))) := by
  obtain ⟨locks, holds⟩ := course.holds
  have orderly := course.orderly call
  rw [phase_eq] at orderly
  obtain ⟨-, held, -, lock_eq⟩ := AreaLock.acquire_ok acquired
  have further := holds.acquire ready call (.descending (children ++ pending) (lock :: taken))
    orderly.inReach acquired (by rw [phase_eq]; rfl)
  refine course.advance further ?_ ?_ (by simp)
  · exact orderly.claim ready further.lent.agree further.lent.wellFormed (by rw [lock_eq]) listed
  · intro stop outdoes
    rw [phase_eq] at outdoes
    obtain ⟨other, other_mem, same⟩ := outdoes
    exact ⟨other, List.mem_cons_of_mem _ other_mem, same⟩

/-- A call fails only because the next directory is refused to it. -/
theorem refused_of_fails {write : Bool} {pending : List Task} {taken : List AreaLock}
    {failed : Descent σ} (course : Course calls before race) (ready : Ready calls before)
    (phase_eq : race.phase call = .descending pending taken)
    (fails : Descent.Fails none write ⟨race.world, pending, taken⟩ error failed) :
    ∃ task rest, pending = task :: rest ∧ failed.pending = pending ∧ failed.taken = taken ∧
      AreaLock.acquire task.directory write task.depth race.world = .error error failed.world := by
  cases fails with
  | cancelled task more polled => simp [AreaLock.poll] at polled
  | @refused _ asked unlocked task rest _ _ more polled refused =>
      obtain rfl : race.world = asked := by simpa [AreaLock.poll] using polled
      exact ⟨task, rest, rfl, rfl, rfl, refused⟩
  | @unlisted _ asked locked task rest _ lock _ more polled acquired unlisted =>
      obtain rfl : race.world = asked := by simpa [AreaLock.poll] using polled
      obtain ⟨locks, holds⟩ := course.holds
      have orderly := course.orderly call
      rw [phase_eq] at orderly
      have further := holds.acquire ready call (.descending rest (lock :: taken)) orderly.inReach
        acquired (by rw [phase_eq]; rfl)
      obtain ⟨children, listed⟩ := listed ready further orderly.inReach
      rw [world_advance, unlisted] at listed
      simp at listed

/-- A call is refused the next directory. -/
theorem refuse {write : Bool} {task : Task} {pending : List Task} {taken : List AreaLock}
    (course : Course calls before race) (ready : Ready calls before)
    (phase_eq : race.phase call = .descending (task :: pending) taken)
    (refused : AreaLock.acquire task.directory write task.depth race.world = .error error after) :
    Course calls before (race.advance call after (.failing error task.directory taken)) := by
  obtain ⟨locks, holds⟩ := course.holds
  have orderly := course.orderly call
  rw [phase_eq] at orderly
  obtain ⟨files_eq, reason⟩ := holds.refused ready orderly.inReach refused
  have claims_eq := AreaLock.acquire_error refused
  refine course.advance (holds.keep claims_eq files_eq (by rw [phase_eq]; rfl)) orderly.refused ?_ ?_
  · intro stop outdoes
    rw [phase_eq] at outdoes
    obtain ⟨lock, lock_mem, same⟩ := outdoes
    exact orderly.refused.outdoes lock_mem same
  · intro failure stop others same
    rw [Phase.failing.injEq] at same
    obtain ⟨rfl, rfl, rfl⟩ := same
    rcases reason with ⟨error_eq, lock, lock_mem, same⟩ | obstructed
    · obtain ⟨rival, taken_mem⟩ := holds.mem_iff.mp lock_mem
      exact Or.inl ⟨error_eq, rival, (course.orderly rival).outdoes taken_mem same⟩
    · exact Or.inr obstructed

theorem step (course : Course calls before race) (ready : Ready calls before)
    (step : Step calls race next) : Course calls before next := by
  obtain ⟨locks, holds⟩ := course.holds
  cases step with
  | @started root call waiting canonical =>
      refine course.advance (holds.keep rfl rfl (by rw [waiting]; rfl)) ?_
        (by simp [waiting, Phase.Outdoes]) (by simp)
      obtain ⟨location, found, -⟩ := ready.roots call
      rw [FileSystem.canonical_of_entry (holds.entry_directory ready found), Except.ok.injEq] at canonical
      refine ⟨?_, List.pairwise_singleton _ _, by simp [Phase.taken]⟩
      intro task task_mem directory reach
      obtain rfl := List.mem_singleton.mp task_mem
      rw [← canonical] at reach
      exact ⟨call, location, found, reach⟩
  | @descended pending taken last call phase_eq step =>
      cases step with
      | skip exhausted =>
          have orderly := course.orderly call
          rw [phase_eq] at orderly
          refine course.advance (holds.keep rfl rfl (by rw [phase_eq]; rfl)) orderly.skip ?_ (by simp)
          intro stop outdoes
          rw [phase_eq] at outdoes
          exact outdoes
      | @claim _ asked locked task pending children taken lock more polled acquired listed =>
          obtain rfl : race.world = asked := by simpa [AreaLock.poll] using polled
          exact course.claim ready phase_eq acquired listed
  | @refused pending rest taken error failed task call phase_eq fails stopped =>
      obtain ⟨next, others, rfl, pending_eq, taken_eq, refused⟩ :=
        course.refused_of_fails ready phase_eq fails
      rw [stopped, List.cons.injEq] at pending_eq
      obtain ⟨rfl, -⟩ := pending_eq
      rw [taken_eq]
      exact course.refuse ready phase_eq refused
  | @gaveBack error stop lock taken call phase_eq =>
      have orderly := course.orderly call
      rw [phase_eq] at orderly
      have listed : lock ∈ (race.phase call).taken := by
        rw [phase_eq]
        exact List.mem_cons_self
      refine course.advance (holds.release ready listed ?_) orderly.gaveBack ?_ ?_
      · rw [phase_eq]
        exact (List.erase_cons_head lock taken).symm
      · intro other outdoes
        rw [phase_eq] at outdoes
        exact outdoes
      · intro otherError other others same
        rw [Phase.failing.injEq] at same
        obtain ⟨rfl, rfl, rfl⟩ := same
        exact course.explained call _ _ _ phase_eq
  | @finished taken call phase_eq =>
      refine course.advance (holds.keep rfl rfl (by rw [phase_eq]; rfl))
        (Phase.orderly_opened _ _ _) ?_ (by simp)
      exact fun _ _ => trivial
  | @closed taken lock call phase_eq lock_mem =>
      refine course.advance (holds.release ready (by rw [phase_eq]; exact lock_mem) (by rw [phase_eq]; rfl))
        (Phase.orderly_opened _ _ _) ?_ (by simp)
      exact fun _ _ => trivial

theorem steps (ready : Ready calls before)
    (run : Relation.ReflTransGen (Step calls) (start before) race) : Course calls before race := by
  induction run with
  | refl => exact course_start ready
  | tail _ step ih => exact ih.step ready step

end Course

end Race

end Checkout
