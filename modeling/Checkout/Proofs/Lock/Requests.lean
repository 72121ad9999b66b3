import Checkout.Proofs.Lock.Opening

/-!
# What locks were asked for

An operation that opens locks asks for one tree, or for two if it locks an anchor and a target in it. Each
lock that is taken has been asked for: it is for a directory some levels below the top of a tree, with the
depth that the tree has there.
-/

namespace Checkout

variable {σ : Type}

open Relation (ReflTransGen)

/-- The depth that a tree has some levels below its top. -/
def Depth.below (depth : Depth) : Nat → Option Depth
  | 0 => some depth
  | levels + 1 => (depth.below levels).bind Depth.child?

/-- A tree that an operation is asked to lock. -/
structure TreeRequest where
  write : Bool
  depth : Depth
  directory : Path

namespace TreeRequest

/-- The tree has a directory, with a depth. -/
def Reaches (request : TreeRequest) (depth : Depth) (directory : Path) : Prop :=
  ∃ rest, directory.components = request.directory.components ++ rest ∧
    request.depth.below rest.length = some depth

/-- The lock is one of the tree. -/
structure Grants (request : TreeRequest) (lock : AreaLock) : Prop where
  write_eq : lock.write = request.write
  reaches : request.Reaches lock.depth lock.path

theorem reaches_top (request : TreeRequest) : request.Reaches request.depth request.directory :=
  ⟨[], by simp, rfl⟩

theorem Reaches.child {request : TreeRequest} {depth childDepth : Depth} {directory : Path} {name : OsText}
    (reaches : request.Reaches depth directory) (deeper : depth.child? = some childDepth)
    (proper : ProperName name) (absolute : directory.isAbsolute = true) :
    request.Reaches childDepth (directory.join name) := by
  obtain ⟨rest, components_eq, below⟩ := reaches
  refine ⟨rest ++ [.name name], ?_, ?_⟩
  · rw [Path.components_join proper absolute, components_eq, List.append_assoc]
  · rw [List.length_append, List.length_singleton, Depth.below, below]
    exact deeper

/-- The request for the tree at the canonical form of a path. -/
def ofPath (files : FileSystem) (write : Bool) (depth : Depth) (path : Path) : List TreeRequest :=
  match files.canonical path with
  | .ok real => [⟨write, depth, real⟩]
  | .error _ => []

theorem ofPath_eq {files : FileSystem} {path real : Path} (write : Bool) (depth : Depth)
    (canonical : files.canonical path = .ok real) :
    ofPath files write depth path = [⟨write, depth, real⟩] := by
  simp [ofPath, canonical]

end TreeRequest

namespace Descent

variable {cancel : Option (Cancellation σ)} {request : TreeRequest}

/-- A descent that has come to directories of a tree only. -/
structure Asked (request : TreeRequest) (descent : Descent σ) : Prop where
  wellFormed : descent.world.files.WellFormed
  pending : ∀ task ∈ descent.pending,
    task.directory.isAbsolute = true ∧ request.Reaches task.depth task.directory
  taken : ∀ lock ∈ descent.taken, request.Grants lock

theorem below_reaches {files : FileSystem} {task child : Task} {children : List Task}
    (wellFormed : files.WellFormed) (absolute : task.directory.isAbsolute = true)
    (reaches : request.Reaches task.depth task.directory) (listed : task.below files = .ok children)
    (child_mem : child ∈ children) :
    child.directory.isAbsolute = true ∧ request.Reaches child.depth child.directory := by
  simp only [Task.below] at listed
  split at listed
  · rw [Except.ok.injEq] at listed
    simp [← listed] at child_mem
  · rename_i childDepth deeper
    split at listed
    · rename_i directories found
      rw [Except.ok.injEq] at listed
      rw [← listed] at child_mem
      obtain ⟨directory, directory_mem, rfl⟩ := List.mem_map.mp child_mem
      obtain ⟨name, proper, rfl⟩ := wellFormed.child_eq_join found directory_mem
      exact ⟨Path.isAbsolute_join proper absolute, reaches.child deeper proper absolute⟩
    · simp at listed

theorem Asked.step {here next : Descent σ} (asked : Asked request here)
    (step : Step cancel request.write here next) : Asked request next := by
  cases step with
  | skip exhausted =>
      exact ⟨asked.wellFormed,
        fun task task_mem => asked.pending task (List.mem_cons_of_mem _ task_mem), asked.taken⟩
  | claim task more polled acquired listed =>
      have wellFormed := AreaLock.keepsFiles_acquire.ok
        (AreaLock.keepsFiles_poll.ok asked.wellFormed polled) acquired
      obtain ⟨absolute, reaches⟩ := asked.pending task List.mem_cons_self
      refine ⟨wellFormed, ?_, ?_⟩
      · intro other other_mem
        rcases List.mem_append.mp other_mem with new | old
        · exact below_reaches wellFormed absolute reaches listed new
        · exact asked.pending other (List.mem_cons_of_mem _ old)
      · intro other other_mem
        rcases List.mem_cons.mp other_mem with rfl | older
        · obtain ⟨-, held, -, rfl⟩ := AreaLock.acquire_ok acquired
          exact ⟨rfl, reaches⟩
        · exact asked.taken other older

theorem Asked.steps {here next : Descent σ} (asked : Asked request here)
    (down : ReflTransGen (Step cancel request.write) here next) : Asked request next := by
  induction down with
  | refl => exact asked
  | tail _ step ih => exact ih.step step

theorem grants_lockTree {write : Bool} {depth : Depth} {directory : Path} {world after : World σ}
    {locks : List AreaLock} (wellFormed : world.files.WellFormed)
    (absolute : directory.isAbsolute = true)
    (ran : AreaLock.lockTree cancel write depth directory world = .ok locks after) :
    ∀ lock ∈ locks, TreeRequest.Grants ⟨write, depth, directory⟩ lock := by
  have start : Asked ⟨write, depth, directory⟩
      ⟨world, [Task.whole world.files depth directory], []⟩ := by
    refine ⟨wellFormed, ?_, by simp⟩
    intro task task_mem
    rw [List.mem_singleton.mp task_mem]
    exact ⟨absolute, TreeRequest.reaches_top ⟨write, depth, directory⟩⟩
  intro lock lock_mem
  exact (start.steps (lockTree_ok ran)).taken lock (List.mem_reverse.mpr lock_mem)

end Descent

/-! ## Locks that are entered -/

/-- Locks that were asked for have been taken: they are open, and each has made a claim of its own. -/
structure Entered (requests : List TreeRequest) (before after : List (List Component))
    (locks : List AreaLock) : Prop where
  claims_iff : ∀ key, key ∈ after ↔ key ∈ locks.map AreaLock.key ∨ key ∈ before
  fresh : ∀ lock ∈ locks, lock.key ∉ before
  distinct : (locks.map AreaLock.key).Nodup
  sound : ∀ lock ∈ locks, lock.Sound
  allOpen : ∀ lock ∈ locks, lock.isOpen = true
  granted : ∀ lock ∈ locks, ∃ request ∈ requests, request.Grants lock

theorem Entered.append {requests others : List TreeRequest} {before middle after : List (List Component)}
    {locks more : List AreaLock} (first : Entered requests before middle locks)
    (second : Entered others middle after more) :
    Entered (requests ++ others) before after (locks ++ more) := by
  refine ⟨?_, ?_, ?_, ?_, ?_, ?_⟩
  · intro key
    rw [second.claims_iff, first.claims_iff, List.map_append, List.mem_append, or_left_comm, or_assoc]
  · intro lock lock_mem old
    rcases List.mem_append.mp lock_mem with early | late
    · exact first.fresh lock early old
    · exact second.fresh lock late ((first.claims_iff _).mpr (Or.inr old))
  · rw [List.map_append, List.nodup_append]
    refine ⟨first.distinct, second.distinct, ?_⟩
    rintro key early other late rfl
    obtain ⟨lock, lock_mem, rfl⟩ := List.mem_map.mp late
    exact second.fresh lock lock_mem ((first.claims_iff _).mpr (Or.inl early))
  · intro lock lock_mem
    rcases List.mem_append.mp lock_mem with early | late
    · exact first.sound lock early
    · exact second.sound lock late
  · intro lock lock_mem
    rcases List.mem_append.mp lock_mem with early | late
    · exact first.allOpen lock early
    · exact second.allOpen lock late
  · intro lock lock_mem
    rcases List.mem_append.mp lock_mem with early | late
    · obtain ⟨request, request_mem, grants⟩ := first.granted lock early
      exact ⟨request, List.mem_append_left _ request_mem, grants⟩
    · obtain ⟨request, request_mem, grants⟩ := second.granted lock late
      exact ⟨request, List.mem_append_right _ request_mem, grants⟩

variable {cancel : Option (Cancellation σ)} {write : Bool} {depth : Depth} {path directory : Path}
  {world after : World σ} {locks : List AreaLock}

theorem entered_lockTree (wellFormed : world.files.WellFormed)
    (absolute : directory.isAbsolute = true)
    (ran : AreaLock.lockTree cancel write depth directory world = .ok locks after) :
    Entered [⟨write, depth, directory⟩] world.claims after.claims locks := by
  have ledger := Descent.ledger_lockTree ran
  have claims_eq : after.claims = (locks.map AreaLock.key).reverse ++ world.claims := by
    simpa using ledger.claims_eq
  refine ⟨?_, ?_, by simpa using ledger.distinct, ?_, ?_, ?_⟩
  · intro key
    rw [claims_eq, List.mem_append, List.mem_reverse]
  · exact fun lock lock_mem => ledger.fresh lock (List.mem_reverse.mpr lock_mem)
  · exact fun lock lock_mem => ledger.sound lock (List.mem_reverse.mpr lock_mem)
  · exact fun lock lock_mem => ledger.allOpen lock (List.mem_reverse.mpr lock_mem)
  · intro lock lock_mem
    exact ⟨_, List.mem_singleton_self _, Descent.grants_lockTree wellFormed absolute ran lock lock_mem⟩

/-- A new hierarchy has entered the locks that were asked for, among them one on its root. -/
structure Founded (requests : List TreeRequest) (before after : List (List Component))
    (hierarchy : Hierarchy) (locks : List AreaLock) : Prop where
  entered : Entered requests before after locks
  hierarchy_eq : hierarchy = Hierarchy.insertAll ⟨hierarchy.root, []⟩ locks
  top : ∃ lock ∈ locks, lock.path = hierarchy.root

theorem founded_openAt {hierarchy : Hierarchy} (wellFormed : world.files.WellFormed)
    (opened : Hierarchy.openAt cancel write depth path world = .ok hierarchy after) :
    ∃ locks, Founded (TreeRequest.ofPath world.files write depth path) world.claims after.claims
      hierarchy locks := by
  obtain ⟨root, locks, canonical, ran, rfl⟩ := Hierarchy.openAt_ok opened
  obtain ⟨asked, locked, lock, -, acquired, lock_mem⟩ := Descent.lockTree_top ran
  obtain ⟨-, held, -, lock_eq⟩ := AreaLock.acquire_ok acquired
  refine ⟨locks, ?_, by rw [Hierarchy.root_insertAll], lock, lock_mem, ?_⟩
  · rw [TreeRequest.ofPath_eq write depth canonical]
    exact entered_lockTree wellFormed (FileSystem.isAbsolute_canonical canonical) ran
  · rw [Hierarchy.root_insertAll, lock_eq]

end Checkout
