import Checkout.Proofs.Lock.Closing
import Checkout.Proofs.Process.Exclusive

/-!
# The life of a hierarchy

A hierarchy is opened, and then operations use it one after another, in the world as each of them finds it.
Opening enters locks that are open, the root's among them; an operation enters further ones or closes some,
and never strikes out a record. So the locks on record tell of the whole life: a directory is on record if
and only if a lock for it was opened at some time.
-/

namespace Checkout

variable {σ : Type}

namespace Hierarchy

variable {hierarchy now : Hierarchy} {earlier : List Hierarchy} {directory : Path}

/-! ## Steps -/

/-- The locks of a tree are entered: they are open, and one is for the root. -/
inductive Begins : Hierarchy → Prop where
  | entered {root : Path} {locks : List AreaLock} (allOpen : ∀ lock ∈ locks, lock.isOpen = true)
      (top : ∃ lock ∈ locks, lock.path = root) : Begins (insertAll ⟨root, []⟩ locks)

/-- What an operation does to the record. -/
inductive Changes (hierarchy : Hierarchy) : Hierarchy → Prop where
  | nothing : Changes hierarchy hierarchy
  | entered {locks : List AreaLock} (allOpen : ∀ lock ∈ locks, lock.isOpen = true) :
      Changes hierarchy (hierarchy.insertAll locks)
  | closed (directory : Path) : Changes hierarchy (hierarchy.closedUnder directory)

section

variable {cancel : Option (Cancellation σ)} {write : Bool} {depth : Depth} {path : Path}
  {world after : World σ}

theorem allOpen_lockTree {locks : List AreaLock}
    (ran : AreaLock.lockTree cancel write depth path world = .ok locks after) :
    ∀ lock ∈ locks, lock.isOpen = true :=
  fun lock lock_mem => (Descent.ledger_lockTree ran).allOpen lock (List.mem_reverse.mpr lock_mem)

theorem begins_openAt (opened : openAt cancel write depth path world = .ok hierarchy after) :
    hierarchy.Begins := by
  obtain ⟨root, locks, -, ran, rfl⟩ := openAt_ok opened
  obtain ⟨asked, locked, lock, -, acquired, lock_mem⟩ := Descent.lockTree_top ran
  obtain ⟨-, held, -, rfl⟩ := AreaLock.acquire_ok acquired
  exact .entered (allOpen_lockTree ran) ⟨_, lock_mem, rfl⟩

theorem begins_probeOpen (opened : probeOpen cancel write depth path world = .ok hierarchy after) :
    hierarchy.Begins := by
  rcases probeOpen_apply cancel write depth path world with
    ⟨-, error, refused⟩ | ⟨depth', other, -, same⟩
  · rw [refused] at opened
    simp at opened
  · rw [same] at opened
    exact begins_openAt opened

theorem changes_openChild (cancel : Option (Cancellation σ)) (write : Bool) (depth : Depth)
    (path : Path) (world : World σ) (hierarchy : Hierarchy) :
    hierarchy.Changes (stateAfter (openChild cancel write depth path) (world, hierarchy)).2 := by
  rcases stateAfter_openChild cancel write depth path world hierarchy with
    ⟨unchanged, -⟩ | ⟨real, error, failed, -, -, -, same⟩ | ⟨real, locks, last, -, -, ran, same⟩
  · rw [unchanged]
    exact .nothing
  · rw [same]
    exact .nothing
  · rw [same]
    exact .entered (allOpen_lockTree ran)

theorem changes_probeTry (cancel : Option (Cancellation σ)) (write : Bool) (depth : Depth)
    (path : Path) (world : World σ) (hierarchy : Hierarchy) :
    hierarchy.Changes (stateAfter (probeTry cancel write depth path) (world, hierarchy)).2 := by
  rcases probeTry_apply cancel write depth path world hierarchy with
    ⟨unchanged, -⟩ | ⟨depth', directory, -, -, same⟩
  · rw [unchanged]
    exact .nothing
  · rw [stateAfter, same]
    exact changes_openChild cancel write depth' directory world hierarchy

theorem changes_closeLock (path : Path) (world : World σ) (hierarchy : Hierarchy) :
    hierarchy.Changes (stateAfter (closeLock path) (world, hierarchy)).2 := by
  rw [stateAfter_closeLock]
  split
  · exact .nothing
  · split
    · exact .closed _
    · exact .nothing

end

end Hierarchy

namespace Anchored

open Hierarchy

variable {cancel : Option (Cancellation σ)} {write : Bool} {depth : Depth} {path : Path}
  {world after : World σ}

theorem begins_openAnchor {anchored : Anchored}
    (opened : openAnchor cancel write depth path world = .ok anchored after) :
    anchored.hierarchy.Begins := by
  rcases openAnchor_ok opened with
    ⟨anchor, -, ran⟩ | ⟨anchor, target, hierarchy, middle, -, ran, ⟨-, child⟩ | ⟨rfl, same⟩⟩
  · exact begins_openAt ran
  · rcases stateAfter_openChild cancel write depth (anchor.join target) middle hierarchy with
      ⟨unchanged, -⟩ | ⟨real, error, failed, -, -, -, same⟩ |
        ⟨real, more, last, -, -, further, same⟩
    · rw [child, Prod.mk.injEq] at unchanged
      rw [unchanged.2]
      exact begins_openAt ran
    · rw [child, Prod.mk.injEq] at same
      rw [same.2]
      exact begins_openAt ran
    · rw [child, Prod.mk.injEq] at same
      obtain ⟨allOpen, lock, lock_mem, top⟩ := begins_openAt ran
      -- the locks of the anchor and those of its target are entered one after another
      rename_i root locks
      have joined : anchored.hierarchy = insertAll ⟨root, []⟩ (locks ++ more) := by
        rw [same.2, insertAll, insertAll, insertAll, List.foldl_append]
      rw [joined]
      refine .entered ?_ ⟨lock, List.mem_append_left _ lock_mem, top⟩
      intro other other_mem
      rcases List.mem_append.mp other_mem with anchorOwn | targetOwn
      · exact allOpen other anchorOwn
      · exact allOpen_lockTree further other targetOwn
  · rw [same]
    exact begins_openAt ran

end Anchored

theorem Creation.begins {creation : Creation σ} {world after : World σ} {holder : Holder}
    {hierarchy : Hierarchy} (ran : creation.run world = .ok holder after)
    (inside : holder.hierarchy? = some hierarchy) : hierarchy.Begins := by
  cases creation with
  | openAt cancel write depth path =>
      obtain ⟨made, opened, rfl⟩ := Action.map_eq_ok.mp ran
      obtain rfl := Option.some.inj inside
      exact Hierarchy.begins_openAt opened
  | probeOpen cancel write depth path =>
      obtain ⟨made, opened, rfl⟩ := Action.map_eq_ok.mp ran
      obtain rfl := Option.some.inj inside
      exact Hierarchy.begins_probeOpen opened
  | openAnchor cancel write depth path =>
      obtain ⟨made, opened, rfl⟩ := Action.map_eq_ok.mp ran
      obtain rfl := Option.some.inj inside
      exact Anchored.begins_openAnchor opened
  | lockDirectory directory write =>
      obtain ⟨made, acquired, rfl⟩ := Action.map_eq_ok.mp ran
      simp [Holder.hierarchy?] at inside

theorem Operation.changes (operation : Operation σ) (world : World σ) (hierarchy : Hierarchy) :
    hierarchy.Changes (stateAfter operation.run (world, hierarchy)).2 := by
  cases operation with
  | openChild cancel write depth path =>
      rw [run, stateAfter_discard]
      exact Hierarchy.changes_openChild cancel write depth path world hierarchy
  | probeTry cancel write depth path =>
      rw [run, stateAfter_discard]
      exact Hierarchy.changes_probeTry cancel write depth path world hierarchy
  | closeLock path => exact Hierarchy.changes_closeLock path world hierarchy
  | close =>
      rw [run, Hierarchy.stateAfter_close]
      exact Hierarchy.changes_closeLock hierarchy.root world hierarchy

/-! ## Lives -/

namespace Hierarchy

variable {hierarchy now : Hierarchy} {earlier : List Hierarchy} {directory : Path}

/-- The versions of a hierarchy, the latest one first. -/
inductive Life (σ : Type) : List Hierarchy → Prop where
  | opened {world after : World σ} {holder : Holder} {hierarchy : Hierarchy} (creation : Creation σ)
      (ran : creation.run world = .ok holder after)
      (inside : holder.hierarchy? = some hierarchy) : Life σ [hierarchy]
  | used {world after : World σ} {hierarchy now : Hierarchy} {earlier : List Hierarchy}
      (before : Life σ (hierarchy :: earlier)) (operation : Operation σ)
      (ran : stateAfter operation.run (world, hierarchy) = (after, now)) :
      Life σ (now :: hierarchy :: earlier)

/-- A lock for the directory is open in some version. -/
def EverOpened (versions : List Hierarchy) (directory : Path) : Prop :=
  ∃ version ∈ versions, ∃ lock ∈ version.openLocks, lock.path.same directory = true

theorem everOpened_cons :
    EverOpened (now :: earlier) directory ↔
      (∃ lock ∈ now.openLocks, lock.path.same directory = true) ∨ EverOpened earlier directory := by
  simp [EverOpened]

/-- What holds of every hierarchy that begins, and is kept by every change, holds at the end of every life. -/
theorem Life.invariant (property : Hierarchy → Prop) (life : Life σ (now :: earlier))
    (begins : ∀ hierarchy : Hierarchy, hierarchy.Begins → property hierarchy)
    (changes : ∀ before after : Hierarchy, before.Changes after → property before → property after) :
    property now := by
  generalize versions_eq : now :: earlier = versions at life
  induction life generalizing now earlier with
  | opened creation ran inside =>
      obtain rfl := (List.cons.inj versions_eq).1
      exact begins now (Creation.begins ran inside)
  | @used world after hierarchy last older before operation ran ih =>
      obtain rfl := (List.cons.inj versions_eq).1
      have changed := operation.changes world hierarchy
      rw [ran] at changed
      exact changes hierarchy now changed (ih rfl)

theorem find?_isSome_iff :
    (hierarchy.find? directory).isSome = true ↔
      ∃ lock ∈ hierarchy.locks, lock.path.same directory = true := by
  simp [find?]

/-- Records stay when locks are entered, if only as records of the new locks. -/
theorem isSome_find?_insertAll {locks : List AreaLock}
    (recorded : (hierarchy.find? directory).isSome = true) :
    ((hierarchy.insertAll locks).find? directory).isSome = true := by
  induction locks generalizing hierarchy with
  | nil => exact recorded
  | cons lock rest ih =>
      apply @ih (hierarchy.insert lock)
      obtain ⟨old, old_mem, same⟩ := find?_isSome_iff.mp recorded
      by_cases replaced : old.path.same lock.path = true
      · refine find?_isSome_iff.mpr ⟨lock, mem_insert.mpr (Or.inl rfl), ?_⟩
        simp only [Path.same, decide_eq_true_eq] at same replaced ⊢
        rw [← replaced, same]
      · rw [Bool.not_eq_true] at replaced
        exact find?_isSome_iff.mpr ⟨old, mem_insert.mpr (Or.inr ⟨old_mem, replaced⟩), same⟩

theorem isSome_find?_of_mem {locks : List AreaLock} {lock : AreaLock} (lock_mem : lock ∈ locks) :
    ((hierarchy.insertAll locks).find? lock.path).isSome = true := by
  induction locks generalizing hierarchy with
  | nil => simp at lock_mem
  | cons first rest ih =>
      rcases List.mem_cons.mp lock_mem with rfl | later
      · apply @isSome_find?_insertAll (hierarchy.insert lock)
        exact find?_isSome_iff.mpr ⟨lock, mem_insert.mpr (Or.inl rfl), by simp [Path.same]⟩
      · exact ih later

theorem find?_closedUnder (hierarchy : Hierarchy) (path directory : Path) :
    ((hierarchy.closedUnder path).find? directory).isSome = (hierarchy.find? directory).isSome := by
  have recorded_iff (other : Hierarchy) : (other.find? directory).isSome = true ↔
      ∃ path ∈ other.locks.map AreaLock.path, path.same directory = true := by
    rw [find?_isSome_iff]
    simp
  rw [Bool.eq_iff_iff, recorded_iff, recorded_iff, paths_closedUnder]

theorem Changes.keeps_record (changes : hierarchy.Changes now)
    (recorded : (hierarchy.find? directory).isSome = true) :
    (now.find? directory).isSome = true := by
  cases changes with
  | nothing => exact recorded
  | entered allOpen => exact isSome_find?_insertAll recorded
  | closed path => rwa [find?_closedUnder]

theorem Changes.opens_record (changes : hierarchy.Changes now)
    (recorded : (now.find? directory).isSome = true) :
    (hierarchy.find? directory).isSome = true ∨
      ∃ lock ∈ now.openLocks, lock.path.same directory = true := by
  cases changes with
  | nothing => exact Or.inl recorded
  | entered allOpen =>
      obtain ⟨lock, lock_mem, same⟩ := find?_isSome_iff.mp recorded
      rcases mem_of_mem_insertAll lock_mem with new | ⟨old, -⟩
      · exact Or.inr ⟨lock, mem_openLocks.mpr ⟨lock_mem, allOpen lock new⟩, same⟩
      · exact Or.inl (find?_isSome_iff.mpr ⟨lock, old, same⟩)
  | closed path =>
      rw [find?_closedUnder] at recorded
      exact Or.inl recorded

/-- A directory is on record if and only if a lock for it was opened at some time. -/
theorem Life.find?_isSome_iff (life : Life σ (now :: earlier)) :
    (now.find? directory).isSome = true ↔ EverOpened (now :: earlier) directory := by
  generalize versions_eq : now :: earlier = versions at life
  induction life generalizing now earlier with
  | opened creation ran inside =>
      obtain ⟨rfl, rfl⟩ := List.cons.inj versions_eq
      constructor
      · intro recorded
        obtain ⟨allOpen, -⟩ := Creation.begins ran inside
        obtain ⟨lock, lock_mem, same⟩ := Hierarchy.find?_isSome_iff.mp recorded
        refine ⟨_, List.mem_cons_self, lock, mem_openLocks.mpr ⟨lock_mem, ?_⟩, same⟩
        rcases mem_of_mem_insertAll lock_mem with new | ⟨old, -⟩
        · exact allOpen lock new
        · simp at old
      · rintro ⟨version, version_mem, lock, lock_mem, same⟩
        obtain rfl := List.mem_singleton.mp version_mem
        exact Hierarchy.find?_isSome_iff.mpr ⟨lock, (mem_openLocks.mp lock_mem).1, same⟩
  | @used world after hierarchy last older before operation ran ih =>
      obtain ⟨rfl, rfl⟩ := List.cons.inj versions_eq
      have changes := operation.changes world hierarchy
      rw [ran] at changes
      rw [everOpened_cons, ← ih rfl]
      constructor
      · exact fun recorded => (changes.opens_record recorded).symm
      · rintro (⟨lock, lock_mem, same⟩ | recorded)
        · exact Hierarchy.find?_isSome_iff.mpr ⟨lock, (mem_openLocks.mp lock_mem).1, same⟩
        · exact changes.keeps_record recorded

theorem Life.sorted (life : Life σ (now :: earlier)) : now.Sorted := by
  refine life.invariant Sorted ?_ ?_
  · rintro hierarchy ⟨-, -⟩
    have empty (root : Path) : (⟨root, []⟩ : Hierarchy).Sorted := List.Pairwise.nil
    exact (empty _).insertAll _
  · intro before after changes inOrder
    cases changes with
    | nothing => exact inOrder
    | entered allOpen => exact inOrder.insertAll _
    | closed path => exact inOrder.closedUnder path

theorem Life.root_recorded (life : Life σ (now :: earlier)) :
    (now.find? now.root).isSome = true := by
  refine life.invariant (fun hierarchy => (hierarchy.find? hierarchy.root).isSome = true) ?_ ?_
  · rintro hierarchy ⟨-, lock, lock_mem, rfl⟩
    rw [root_insertAll]
    exact isSome_find?_of_mem lock_mem
  · intro before after changes recorded
    have root_eq : after.root = before.root := by
      cases changes with
      | nothing => rfl
      | entered allOpen => exact root_insertAll _ _
      | closed path => rfl
    rw [root_eq]
    exact changes.keeps_record recorded

end Hierarchy

namespace Process

variable {possible : FileSystem → Prop} {world after : World σ} {holders : Multiset Holder}

/-- Each hierarchy of a process is at some point of a life. -/
def Lived (process : Process σ) : Prop :=
  ∀ holder ∈ process.holders, ∀ hierarchy, holder.hierarchy? = some hierarchy →
    ∃ earlier, Hierarchy.Life σ (hierarchy :: earlier)

theorem Lived.replace {old new : Holder} (lived : Lived ⟨world, old ::ₘ holders⟩)
    (life : ∀ hierarchy, new.hierarchy? = some hierarchy →
      ∃ earlier, Hierarchy.Life σ (hierarchy :: earlier)) :
    Lived ⟨after, new ::ₘ holders⟩ := by
  intro holder live
  rcases Multiset.mem_cons.mp live with rfl | rest
  · exact life
  · exact lived holder (Multiset.mem_cons_of_mem rest)

theorem Lived.without {holder : Holder} (lived : Lived ⟨world, holder ::ₘ holders⟩) :
    Lived ⟨after, holders⟩ :=
  fun other rest => lived other (Multiset.mem_cons_of_mem rest)

theorem Lived.step {before now : Process σ} (lived : Lived before)
    (step : Step possible before now) : Lived now := by
  cases step with
  | outside files environment caller possibleFiles => exact lived
  | created creation ran =>
      intro holder live hierarchy inside
      rcases Multiset.mem_cons.mp live with rfl | rest
      · exact ⟨[], .opened creation ran inside⟩
      · exact lived holder rest hierarchy inside
  | refused creation ran => exact lived
  | used operation ran =>
      apply lived.replace
      intro hierarchy inside
      obtain ⟨earlier, life⟩ := lived _ (Multiset.mem_cons_self _ _) _ rfl
      exact Option.some.inj inside ▸ ⟨_, life.used operation ran⟩
  | usedAnchored operation ran =>
      apply lived.replace
      intro hierarchy inside
      obtain ⟨earlier, life⟩ := lived _ (Multiset.mem_cons_self _ _) _ rfl
      exact Option.some.inj inside ▸ ⟨_, life.used operation ran⟩
  | intoHierarchy =>
      apply lived.replace
      intro hierarchy inside
      exact lived _ (Multiset.mem_cons_self _ _) hierarchy inside
  | dropped => exact lived.without
  | released => exact lived.without
  | cleaned path => exact lived

/-- Whatever a process runs, each of its hierarchies has a life behind it. -/
theorem Lived.run {start last : Process σ} (lived : Lived start)
    (run : Run possible start last) : Lived last := by
  induction run with
  | refl => exact lived
  | step before step ih => exact (ih lived).step step
  | locked before ran inside left ihBefore ihInside =>
      have opened := (ihBefore lived).step (.created (.probeOpen _ _ _ _)
        (Action.map_eq_ok.mpr ⟨_, ran, rfl⟩) : Step possible _ _)
      exact (ihInside opened).without
  | lockedRefused before ran left ihBefore => exact ihBefore lived

end Process

end Checkout
