import Checkout.Proofs.FileSystem.LessLocked
import Checkout.Proofs.Lock.Custody
import Checkout.Proofs.Lock.Probes
import Checkout.Proofs.Lock.Requests

/-!
# Locking the same tree with fewer locks

A tree that was locked while another directory was locked can be locked without that, and the same locks are
opened. The two descents go in step: in the one with more locks the caller has been asked once more.
-/

namespace Checkout

variable {σ : Type}

open Relation (ReflTransGen)
open Cancellation (reply)

theorem FileSystem.RecordOutside.congr {files other : FileSystem} {places : Set Location} {path : Path}
    (record : files.RecordOutside places path) (same : FileSystem.SameTree files other) :
    other.RecordOutside places path := by
  intro spot resolved
  obtain ⟨before, resolved', location_eq⟩ := FileSystem.resolve_location same.symm resolved
  rw [← location_eq]
  exact record before resolved'

/-! ## Worlds -/

/-- One world has fewer locks than another, in which the caller has been asked once more and went on. -/
structure World.LessLocked (cancel : Option (Cancellation σ)) (known : Nat) (extra : Set Location)
    (here there : World σ) : Prop where
  files : FileSystem.LessLocked known extra here.files there.files
  claims : here.claims ⊆ there.claims
  caller : reply cancel here.caller = (false, there.caller)

variable {cancel : Option (Cancellation σ)} {write : Bool} {known : Nat} {extra : Set Location}
  {here there asked locked : World σ} {path : Path} {depth : Depth} {lock : AreaLock}

theorem World.LessLocked.poll (less : World.LessLocked cancel known extra here there)
    (polled : AreaLock.poll cancel there = .ok () asked) :
    ∃ first, AreaLock.poll cancel here = .ok () first ∧ first.files = here.files ∧
      World.LessLocked cancel known extra first asked := by
  obtain ⟨goesOn, rfl⟩ := AreaLock.poll_eq_ok polled
  refine ⟨{ here with caller := there.caller }, ?_, rfl, less.files, less.claims, ?_⟩
  · rw [AreaLock.poll_eq, less.caller]
    rfl
  · exact Prod.ext goesOn rfl

theorem World.LessLocked.acquire (less : World.LessLocked cancel known extra here there)
    (record : here.files.RecordOutside extra path)
    (acquired : AreaLock.acquire path write depth there = .ok lock locked) :
    ∃ first last, AreaLock.acquire path write depth here = .ok first last ∧
      first.terms = lock.terms ∧ World.LessLocked cancel known extra last locked := by
  obtain ⟨versioned, held, claimed, rfl⟩ := AreaLock.acquire_ok acquired
  rw [← less.files.isVersioned_eq record] at versioned
  rw [DirectoryLock.acquire_apply] at claimed
  split at claimed
  · simp at claimed
  · rename_i taken
    have free : here.isClaimed path = false := by
      rw [World.isClaimed_iff] at taken
      rw [Bool.eq_false_iff, ne_eq, World.isClaimed_iff]
      exact fun listed => taken (less.claims listed)
    have claims : path.components :: here.claims ⊆ path.components :: there.claims :=
      List.cons_subset_cons _ less.claims
    rw [AreaLock.acquire_apply, if_pos versioned, DirectoryLock.acquire_apply, free]
    split at claimed
    · rename_i writing
      split at claimed
      · rename_i file files tried
        obtain ⟨first, last, tried', further⟩ := less.files.tryAcquire tried
        rw [EStateM.Result.ok.injEq] at claimed
        obtain ⟨rfl, rfl⟩ := claimed
        simp only [writing, tried', Bool.false_eq_true, if_false, if_true]
        exact ⟨_, _, rfl, rfl, further, claims, less.caller⟩
      · simp at claimed
      · simp at claimed
    · rename_i reading
      rw [EStateM.Result.ok.injEq] at claimed
      obtain ⟨rfl, rfl⟩ := claimed
      simp only [reading, Bool.false_eq_true, if_false]
      exact ⟨_, _, rfl, rfl, less.files, claims, less.caller⟩

/-! ## Descents -/

/-- Two tasks for one directory, the first of which may not enter more levels. -/
structure Task.Shorter (first second : Task) : Prop where
  directory_eq : first.directory = second.directory
  depth_eq : first.depth = second.depth
  levels_le : first.levels ≤ second.levels

/-- A task for a directory of a tree that was asked for, with levels for all there are below it. -/
structure Task.Deep (before : FileSystem) (request : TreeRequest) (task : Task) (location : Location) :
    Prop where
  absolute : task.directory.isAbsolute = true
  reaches : request.Reaches task.depth task.directory
  found : before.entry true task.directory = .ok (location, .directory)
  enough : before.nodes.length < location.length + task.levels

theorem Task.Deep.length_le {before : FileSystem} {request : TreeRequest} {task : Task}
    {location : Location} (deep : task.Deep before request location) (wellFormed : before.WellFormed) :
    location.length ≤ before.nodes.length :=
  wellFormed.length_le (FileSystem.resolve_sound wellFormed (FileSystem.entry_eq_ok.mp deep.found))

namespace Descent

variable {before files other : FileSystem} {request : TreeRequest} {task : Task} {location : Location}
  {children : List Task} {first second later : Descent σ}

/-- The tasks below a directory are the same with fewer locks. -/
theorem below_lessLocked (wellFormed : before.WellFormed) (sameTree : FileSystem.SameTree before files)
    (records : ∀ depth directory, request.Reaches depth directory →
      before.RecordOutside extra directory)
    (less : FileSystem.LessLocked known extra files other) {longer : Task}
    (shorter : task.Shorter longer) (deep : task.Deep before request location)
    (listed : longer.below other = .ok children) :
    ∃ shorts, task.below files = .ok shorts ∧ List.Forall₂ Task.Shorter shorts children ∧
      ∀ child ∈ shorts, ∃ location, child.Deep before request location := by
  have bound := deep.length_le wellFormed
  have enough := deep.enough
  rw [Task.below, ← shorter.depth_eq] at listed
  rw [Task.below]
  split at listed
  · rename_i last
    rw [Except.ok.injEq] at listed
    subst listed
    exact ⟨[], rfl, .nil, by simp⟩
  · rename_i childDepth deeper
    split at listed
    · rename_i directories found
      rw [Except.ok.injEq] at listed
      subst listed
      rw [← shorter.directory_eq] at found
      have reaches (name : OsText) (proper : ProperName name) :
          request.Reaches childDepth (task.directory.join name) :=
        deep.reaches.child deeper proper deep.absolute
      have found' := less.versionedChildren deep.absolute
        (fun name proper => (records _ _ (reaches name proper)).congr sameTree) found
      refine ⟨directories.map fun child => ⟨task.levels - 1, childDepth, child⟩, ?_, ?_, ?_⟩
      · simp only [found']
      · rw [List.forall₂_map_left_iff, List.forall₂_map_right_iff, List.forall₂_same]
        exact fun child _ => ⟨rfl, rfl, Nat.sub_le_sub_right shorter.levels_le 1⟩
      · intro child child_mem
        obtain ⟨directory, directory_mem, rfl⟩ := List.mem_map.mp child_mem
        obtain ⟨reached, name, reached_eq, entry_mem, -, rfl, versioned⟩ :=
          (FileSystem.mem_versionedChildren found').mp directory_mem
        have inside := less.wellFormed.node?_of_mem entry_mem
        have proper := less.wellFormed.proper_of_node? inside name (by simp)
        have absolute := Path.isAbsolute_join proper deep.absolute
        obtain ⟨place, place_eq⟩ := FileSystem.entry_of_isVersioned absolute versioned
        have here : place = reached ++ [name] :=
          FileSystem.location_of_resolve_join deep.absolute proper reached_eq (by simp [inside])
            (FileSystem.entry_eq_ok.mp place_eq)
        have same := deep.found.symm.trans (FileSystem.entry_congr sameTree.symm reached_eq)
        rw [Except.ok.injEq, Prod.mk.injEq] at same
        refine ⟨place, absolute, reaches name proper, FileSystem.entry_congr sameTree.symm place_eq, ?_⟩
        rw [here, ← same.1, List.length_append, List.length_singleton]
        simp only
        omega
    · simp at listed

/-- Two descents into one tree, the first of them with fewer locks. -/
structure LessLocked (before : FileSystem) (request : TreeRequest) (cancel : Option (Cancellation σ))
    (known : Nat) (extra : Set Location) (first second : Descent σ) : Prop where
  world : World.LessLocked cancel known extra first.world second.world
  sameTree : FileSystem.SameTree before first.world.files
  taken : first.taken.map AreaLock.terms = second.taken.map AreaLock.terms
  pending : List.Forall₂ Task.Shorter first.pending second.pending
  deep : ∀ task ∈ first.pending, ∃ location, task.Deep before request location

theorem LessLocked.step (wellFormed : before.WellFormed)
    (records : ∀ depth directory, request.Reaches depth directory →
      before.RecordOutside extra directory)
    (less : LessLocked before request cancel known extra first second)
    (step : Step cancel write second later) :
    ∃ next, Step cancel write first next ∧
      LessLocked before request cancel known extra next later := by
  obtain ⟨here, pending, taken⟩ := first
  cases step with
  | skip exhausted =>
      -- the first task has levels left, and the second one no fewer
      obtain ⟨task, rest, shorter, -, rfl⟩ := List.forall₂_cons_right_iff.mp less.pending
      obtain ⟨location, deep⟩ := less.deep task List.mem_cons_self
      have bound := deep.length_le wellFormed
      have enough := deep.enough
      have levels_le := shorter.levels_le
      omega
  | claim longer more polled acquired listed =>
      obtain ⟨task, rest, shorter, others, rfl⟩ := List.forall₂_cons_right_iff.mp less.pending
      obtain ⟨location, deep⟩ := less.deep task List.mem_cons_self
      have bound := deep.length_le wellFormed
      have enough := deep.enough
      obtain ⟨asked, polled', files_eq, lessAsked⟩ := less.world.poll polled
      have sameAsked : FileSystem.SameTree before asked.files := files_eq ▸ less.sameTree
      rw [← shorter.directory_eq, ← shorter.depth_eq] at acquired
      obtain ⟨lock, last, acquired', terms_eq, lessLast⟩ :=
        lessAsked.acquire ((records _ _ deep.reaches).congr sameAsked) acquired
      have sameLast : FileSystem.SameTree before last.files :=
        sameAsked.trans (AreaLock.sameTree_acquire lessAsked.files.wellFormed acquired')
      obtain ⟨children, listed', shorts, deeper⟩ :=
        below_lessLocked wellFormed sameLast records lessLast.files shorter deep listed
      refine ⟨_, .claim task (by omega) polled' acquired' listed', lessLast, sameLast, ?_, ?_, ?_⟩
      · rw [List.map_cons, List.map_cons, terms_eq, less.taken]
      · exact List.rel_append shorts others
      · intro other other_mem
        rcases List.mem_append.mp other_mem with new | old
        · exact deeper other new
        · exact less.deep other (List.mem_cons_of_mem _ old)

theorem LessLocked.steps (wellFormed : before.WellFormed)
    (records : ∀ depth directory, request.Reaches depth directory →
      before.RecordOutside extra directory)
    (less : LessLocked before request cancel known extra first second)
    (down : ReflTransGen (Step cancel write) second later) :
    ∃ next, ReflTransGen (Step cancel write) first next ∧
      LessLocked before request cancel known extra next later := by
  induction down with
  | refl => exact ⟨first, .refl, less⟩
  | tail _ step ih =>
      obtain ⟨middle, down, lessMiddle⟩ := ih
      obtain ⟨next, further, lessNext⟩ := lessMiddle.step wellFormed records step
      exact ⟨next, down.tail further, lessNext⟩

/-- A descent that has nothing left to lock is the one by which the tree is locked. -/
theorem lockTree_of_descent {world after : World σ} {taken : List AreaLock}
    (down : ReflTransGen (Step cancel write) ⟨world, [Task.whole world.files depth real], []⟩
      ⟨after, [], taken⟩) :
    AreaLock.lockTree cancel write depth real world = .ok taken.reverse after := by
  have oneWay : Relator.RightUnique (Step cancel write) := fun _ _ _ step another => step.unique another
  have ended {next : Descent σ} (further : ReflTransGen (Step cancel write) ⟨after, [], taken⟩ next) :
      next = ⟨after, [], taken⟩ := by
    rcases further.cases_head with rfl | ⟨middle, step, -⟩
    · rfl
    · cases step
  cases ran : AreaLock.lockTree cancel write depth real world with
  | ok locks last =>
      have again := lockTree_ok ran
      have same : (⟨last, [], locks.reverse⟩ : Descent σ) = ⟨after, [], taken⟩ := by
        rcases ReflTransGen.total_of_right_unique oneWay down again with further | further
        · exact ended further
        · rcases further.cases_head with same | ⟨middle, step, -⟩
          · exact same
          · cases step
      rw [Descent.mk.injEq] at same
      rw [same.1, ← same.2.2, List.reverse_reverse]
  | error error failed =>
      obtain ⟨reached, stopped, again, fails, -⟩ := lockTree_error ran
      rcases ReflTransGen.total_of_right_unique oneWay down again with further | further
      · rw [ended further] at fails
        cases fails
      · rcases further.cases_head with rfl | ⟨middle, step, -⟩
        · cases fails
        · exact absurd step fails.not_step

/-- A tree that was locked with more locks is locked with fewer ones, by the same locks. -/
theorem lockTree_lessLocked {after : World σ} {locks : List AreaLock}
    (less : World.LessLocked cancel known extra here there)
    (fewer : here.files.nodes.length ≤ there.files.nodes.length)
    (records : ∀ depth directory, request.Reaches depth directory →
      here.files.RecordOutside extra directory)
    (absolute : request.directory.isAbsolute = true)
    (found : here.files.entry true request.directory = .ok (location, .directory))
    (ran : AreaLock.lockTree cancel write request.depth request.directory there = .ok locks after) :
    ∃ firsts last,
      AreaLock.lockTree cancel write request.depth request.directory here = .ok firsts last ∧
      firsts.map AreaLock.terms = locks.map AreaLock.terms := by
  have start : LessLocked here.files request cancel known extra
      ⟨here, [Task.whole here.files request.depth request.directory], []⟩
      ⟨there, [Task.whole there.files request.depth request.directory], []⟩ := by
    refine ⟨less, .refl _, rfl, .cons ⟨rfl, rfl, Nat.succ_le_succ fewer⟩ .nil, ?_⟩
    intro task task_mem
    rw [List.mem_singleton.mp task_mem]
    exact ⟨location, absolute, request.reaches_top, found, by simp only [Task.whole]; omega⟩
  obtain ⟨⟨last, pending, taken⟩, down, lessLast⟩ :=
    start.steps less.files.wellFormed records (lockTree_ok ran)
  obtain rfl : pending = [] := List.forall₂_nil_right_iff.mp lessLast.pending
  refine ⟨taken.reverse, last, lockTree_of_descent down, ?_⟩
  have terms_eq : taken.map AreaLock.terms = locks.reverse.map AreaLock.terms := lessLast.taken
  rw [List.map_reverse, terms_eq, List.map_reverse, List.reverse_reverse]

end Descent

end Checkout
