import Checkout.Proofs.Lock.Ledger
import Checkout.Proofs.Sorting

/-!
# What operations on a hierarchy come to

The operations on a hierarchy change the world only by locking a tree and by giving locks back, and the
record only by entering the locks of a tree and by marking locks under a path as closed.
-/

namespace Checkout

variable {σ : Type}

namespace Hierarchy

/-! ## Records -/

theorem mem_insert {hierarchy : Hierarchy} {lock other : AreaLock} :
    other ∈ (hierarchy.insert lock).locks ↔
      other = lock ∨ other ∈ hierarchy.locks ∧ other.path.same lock.path = false := by
  simp [insert, mem_insertSorted]

/-- Entering an open lock for a directory that has no open lock yet adds it to the open locks. -/
theorem openLocks_insert {hierarchy : Hierarchy} {lock : AreaLock} (isOpen : lock.isOpen = true)
    (free : ∀ other ∈ hierarchy.openLocks, other.key ≠ lock.key) :
    (hierarchy.insert lock).openLocks.Perm (lock :: hierarchy.openLocks) := by
  have entered := (insertSorted_perm (fun left right => left.path.order right.path) lock
    (hierarchy.locks.filter fun other => !other.path.same lock.path)).filter AreaLock.isOpen
  rw [List.filter_cons_of_pos isOpen, List.filter_filter] at entered
  have kept : (hierarchy.locks.filter fun other =>
      other.isOpen && !other.path.same lock.path) = hierarchy.openLocks := by
    apply List.filter_congr
    intro other other_mem
    cases other_open : other.isOpen with
    | false => rfl
    | true =>
        have differs := free other (List.mem_filter.mpr ⟨other_mem, other_open⟩)
        simpa [Path.same, AreaLock.key] using differs
  rw [kept] at entered
  exact entered

theorem openLocks_insertAll {hierarchy : Hierarchy} {locks : List AreaLock}
    (allOpen : ∀ lock ∈ locks, lock.isOpen = true) (distinct : (locks.map AreaLock.key).Nodup)
    (free : ∀ other ∈ hierarchy.openLocks, other.key ∉ locks.map AreaLock.key) :
    (hierarchy.insertAll locks).openLocks.Perm (locks ++ hierarchy.openLocks) := by
  induction locks generalizing hierarchy with
  | nil => exact List.Perm.refl _
  | cons lock rest ih =>
      rw [List.map_cons, List.nodup_cons] at distinct
      have first : (hierarchy.insert lock).openLocks.Perm (lock :: hierarchy.openLocks) := by
        apply openLocks_insert (allOpen lock List.mem_cons_self)
        intro other other_mem same
        exact free other other_mem (by simp [same])
      have further := @ih (hierarchy.insert lock)
        (fun other mem => allOpen other (List.mem_cons_of_mem _ mem)) distinct.2 (by
          intro other other_mem
          rcases List.mem_cons.mp (first.subset other_mem) with rfl | older
          · exact distinct.1
          · intro later
            exact free other older (List.mem_cons_of_mem _ later))
      exact further.trans ((first.append_left rest).trans List.perm_middle)

theorem mem_of_mem_insertAll {hierarchy : Hierarchy} {locks : List AreaLock} {other : AreaLock}
    (recorded : other ∈ (hierarchy.insertAll locks).locks) :
    other ∈ locks ∨ other ∈ hierarchy.locks ∧ other.key ∉ locks.map AreaLock.key := by
  induction locks generalizing hierarchy with
  | nil => exact Or.inr ⟨recorded, by simp⟩
  | cons lock rest ih =>
      rcases ih recorded with later | ⟨earlier, free⟩
      · exact Or.inl (List.mem_cons_of_mem _ later)
      · rcases mem_insert.mp earlier with rfl | ⟨kept, differs⟩
        · exact Or.inl List.mem_cons_self
        · right
          rw [List.map_cons, List.mem_cons, not_or]
          exact ⟨kept, by simpa [Path.same, AreaLock.key] using differs, free⟩

/-- A lock stays on record unless a lock for the same directory takes its place. -/
theorem mem_insertAll_of_mem {hierarchy : Hierarchy} {locks : List AreaLock} {other : AreaLock}
    (recorded : other ∈ hierarchy.locks) (free : other.key ∉ locks.map AreaLock.key) :
    other ∈ (hierarchy.insertAll locks).locks := by
  induction locks generalizing hierarchy with
  | nil => exact recorded
  | cons lock rest ih =>
      rw [List.map_cons, List.mem_cons, not_or] at free
      apply ih _ free.2
      refine mem_insert.mpr (Or.inr ⟨recorded, ?_⟩)
      simpa [Path.same, AreaLock.key] using free.1

theorem mem_insertAll {hierarchy : Hierarchy} {locks : List AreaLock} {lock : AreaLock}
    (distinct : (locks.map AreaLock.key).Nodup) (lock_mem : lock ∈ locks) :
    lock ∈ (hierarchy.insertAll locks).locks := by
  induction locks generalizing hierarchy with
  | nil => simp at lock_mem
  | cons first rest ih =>
      rw [List.map_cons, List.nodup_cons] at distinct
      rcases List.mem_cons.mp lock_mem with rfl | later
      · have entered : lock ∈ (hierarchy.insert lock).locks := mem_insert.mpr (Or.inl rfl)
        exact @mem_insertAll_of_mem (hierarchy.insert lock) rest lock entered distinct.1
      · exact ih distinct.2 later

theorem find?_eq_some {hierarchy : Hierarchy} {path : Path} {lock : AreaLock}
    (found : hierarchy.find? path = some lock) :
    lock ∈ hierarchy.locks ∧ lock.path.same path = true :=
  ⟨List.mem_of_find?_eq_some found,
    List.find?_some (p := fun lock : AreaLock => lock.path.same path) found⟩

/-- The locks that were entered last are found. -/
theorem find?_insertAll (hierarchy : Hierarchy) {locks : List AreaLock} {lock : AreaLock}
    {path : Path} (distinct : (locks.map AreaLock.key).Nodup) (lock_mem : lock ∈ locks)
    (same : lock.path.same path = true) :
    ∃ found ∈ locks, (hierarchy.insertAll locks).find? path = some found := by
  have present : ((hierarchy.insertAll locks).find? path).isSome = true := by
    rw [find?, List.find?_isSome]
    exact ⟨lock, mem_insertAll distinct lock_mem, same⟩
  obtain ⟨found, found_eq⟩ := Option.isSome_iff_exists.mp present
  obtain ⟨recorded, found_same⟩ := find?_eq_some found_eq
  rcases mem_of_mem_insertAll recorded with new | ⟨-, free⟩
  · exact ⟨found, new, found_eq⟩
  · have key_eq : found.key = lock.key := by
      simp only [Path.same, decide_eq_true_eq] at same found_same
      rw [AreaLock.key, AreaLock.key, same, found_same]
    exact absurd (key_eq ▸ List.mem_map_of_mem lock_mem) free

theorem root_insertAll (hierarchy : Hierarchy) (locks : List AreaLock) :
    (hierarchy.insertAll locks).root = hierarchy.root := by
  induction locks generalizing hierarchy with
  | nil => rfl
  | cons lock rest ih => exact ih (hierarchy.insert lock)

/-! ## Opening -/

theorem openAt_ok {cancel : Option (Cancellation σ)} {write : Bool} {depth : Depth} {path : Path}
    {world after : World σ} {hierarchy : Hierarchy}
    (opened : openAt cancel write depth path world = .ok hierarchy after) :
    ∃ root locks, world.files.canonical path = .ok root ∧
      AreaLock.lockTree cancel write depth root world = .ok locks after ∧
      hierarchy = insertAll { root, locks := [] } locks := by
  simp only [openAt, Action.bind_apply, Action.ofLook] at opened
  cases canonical : world.files.canonical path with
  | error error => simp [canonical] at opened
  | ok root =>
      simp only [canonical] at opened
      cases ran : AreaLock.lockTree cancel write depth root world with
      | error error failed => simp [ran] at opened
      | ok locks locked =>
          simp only [ran, Action.pure_apply, EStateM.Result.ok.injEq] at opened
          obtain ⟨rfl, rfl⟩ := opened
          exact ⟨root, locks, rfl, ran, rfl⟩

theorem openAt_error {cancel : Option (Cancellation σ)} {write : Bool} {depth : Depth}
    {path : Path} {world after : World σ} {error : Error}
    (refused : openAt cancel write depth path world = .error error after) :
    (after = world ∧ ∀ root, world.files.canonical path ≠ .ok root) ∨
      ∃ root, world.files.canonical path = .ok root ∧
        AreaLock.lockTree cancel write depth root world = .error error after := by
  simp only [openAt, Action.bind_apply, Action.ofLook] at refused
  cases canonical : world.files.canonical path with
  | error error =>
      simp only [canonical, EStateM.Result.error.injEq] at refused
      exact Or.inl ⟨refused.2.symm, by simp⟩
  | ok root =>
      simp only [canonical] at refused
      cases ran : AreaLock.lockTree cancel write depth root world with
      | error error failed =>
          simp only [ran, EStateM.Result.error.injEq] at refused
          obtain ⟨rfl, rfl⟩ := refused
          exact Or.inr ⟨root, rfl, ran⟩
      | ok locks locked => simp [ran] at refused

/-- The directory that is opened for a path, with the depth it is opened at. -/
def probeTarget (files : FileSystem) (depth : Depth) (path : Path) : Option (Depth × Path) :=
  match files.canonical path with
  | .error _ => none
  | .ok real =>
      if files.isVersioned real then some (depth, real)
      else (real.parent?.bind files.nearestVersioned?).map fun directory =>
        (if files.isDirectory real then depth else .empty, directory)

theorem probeOpen_apply (cancel : Option (Cancellation σ)) (write : Bool) (depth : Depth)
    (path : Path) (world : World σ) :
    (probeTarget world.files depth path = none ∧
        ∃ error, probeOpen cancel write depth path world = .error error world) ∨
      ∃ depth' directory, probeTarget world.files depth path = some (depth', directory) ∧
        probeOpen cancel write depth path world = openAt cancel write depth' directory world := by
  cases canonical : world.files.canonical path with
  | error error =>
      refine Or.inl ⟨by simp [probeTarget, canonical], error, ?_⟩
      simp [probeOpen, Action.ofOutcome, canonical]
  | ok real =>
      by_cases versioned : world.files.isVersioned real = true
      · refine Or.inr ⟨depth, real, ?_⟩
        simp [probeOpen, probeTarget, Action.ofOutcome, canonical, versioned]
      · cases above : real.parent?.bind world.files.nearestVersioned? with
        | none =>
            refine Or.inl ⟨by simp [probeTarget, canonical, versioned, above], .notWorkingCopy real, ?_⟩
            simp [probeOpen, Action.ofOutcome, canonical, versioned, above]
        | some directory =>
            refine Or.inr ⟨if world.files.isDirectory real then depth else .empty, directory, ?_⟩
            simp [probeOpen, probeTarget, Action.ofOutcome, canonical, versioned, above]

/-- What opening a child comes to. -/
theorem openChild_apply (cancel : Option (Cancellation σ)) (write : Bool) (depth : Depth)
    (path : Path) (world : World σ) (hierarchy : Hierarchy) :
    openChild cancel write depth path (world, hierarchy) =
      match world.files.canonical path with
      | .error error => .error error (world, hierarchy)
      | .ok real =>
          if !real.isUnder hierarchy.root then
            .error (.invalidArgument ("'" ++ real.shown ++ "' is outside the hierarchy rooted at '" ++
              hierarchy.root.shown ++ "'")) (world, hierarchy)
          else if !hierarchy.isRootOpen then .error (.alreadyClosed hierarchy.root) (world, hierarchy)
          else if hierarchy.isLocked world.files real then .error (.alreadyLocked real) (world, hierarchy)
          else match AreaLock.lockTree cancel write depth real world with
            | .error error after => .error error (after, hierarchy)
            | .ok locks after =>
                match (hierarchy.insertAll locks).retrieve after.files real with
                | .ok lock => .ok lock (after, hierarchy.insertAll locks)
                | .error error => .error error (after, hierarchy.insertAll locks) := by
  cases canonical : world.files.canonical path with
  | error error => simp [openChild, HierarchyAction.ofLook, canonical]
  | ok real =>
      by_cases under : real.isUnder hierarchy.root = true
      · by_cases rootOpen : hierarchy.isRootOpen = true
        · by_cases locked : hierarchy.isLocked world.files real = true
          · simp [openChild, HierarchyAction.ofLook, canonical, under, rootOpen, locked]
          · cases ran : AreaLock.lockTree cancel write depth real world with
            | error error after =>
                simp [openChild, HierarchyAction.ofLook, HierarchyAction.ofAction, canonical, under,
                  rootOpen, locked, ran]
            | ok locks after =>
                cases found : (hierarchy.insertAll locks).retrieve after.files real <;>
                  simp [openChild, HierarchyAction.ofLook, HierarchyAction.ofAction,
                    HierarchyAction.update, canonical, under, rootOpen, locked, ran, found]
        · simp [openChild, HierarchyAction.ofLook, canonical, under, rootOpen]
      · simp [openChild, HierarchyAction.ofLook, canonical, under]

/-- Further locks may be opened at a canonical path. -/
structure Accepts (files : FileSystem) (hierarchy : Hierarchy) (real : Path) : Prop where
  under : real.isUnder hierarchy.root = true
  rootOpen : hierarchy.isRootOpen = true
  unlocked : hierarchy.isLocked files real = false

theorem openChild_ok {cancel : Option (Cancellation σ)} {write : Bool} {depth : Depth} {path : Path}
    {world : World σ} {hierarchy : Hierarchy} {lock : AreaLock} {state : World σ × Hierarchy}
    (opened : openChild cancel write depth path (world, hierarchy) = .ok lock state) :
    ∃ real locks after, world.files.canonical path = .ok real ∧ hierarchy.Accepts world.files real ∧
      AreaLock.lockTree cancel write depth real world = .ok locks after ∧
      state = (after, hierarchy.insertAll locks) := by
  rw [openChild_apply] at opened
  cases canonical : world.files.canonical path with
  | error error => simp [canonical] at opened
  | ok real =>
      simp only [canonical] at opened
      split at opened
      · simp at opened
      · rename_i under
        split at opened
        · simp at opened
        · rename_i rootOpen
          split at opened
          · simp at opened
          · rename_i unlocked
            split at opened
            · simp at opened
            · rename_i locks after ran
              refine ⟨real, locks, after, rfl, ⟨by simpa using under, by simpa using rootOpen,
                by simpa using unlocked⟩, ran, ?_⟩
              split at opened
              · rw [EStateM.Result.ok.injEq] at opened
                exact opened.2.symm
              · simp at opened

/-- Opening a child changes nothing, or fails to lock a tree, or enters the locks of a tree. -/
theorem stateAfter_openChild (cancel : Option (Cancellation σ)) (write : Bool) (depth : Depth)
    (path : Path) (world : World σ) (hierarchy : Hierarchy) :
    (stateAfter (openChild cancel write depth path) (world, hierarchy) = (world, hierarchy) ∧
        ∀ real, world.files.canonical path = .ok real → ¬hierarchy.Accepts world.files real) ∨
      (∃ real error after,
        world.files.canonical path = .ok real ∧ hierarchy.Accepts world.files real ∧
        AreaLock.lockTree cancel write depth real world = .error error after ∧
        stateAfter (openChild cancel write depth path) (world, hierarchy) = (after, hierarchy)) ∨
      ∃ real locks after,
        world.files.canonical path = .ok real ∧ hierarchy.Accepts world.files real ∧
        AreaLock.lockTree cancel write depth real world = .ok locks after ∧
        stateAfter (openChild cancel write depth path) (world, hierarchy) =
          (after, hierarchy.insertAll locks) := by
  rw [stateAfter, openChild_apply]
  cases canonical : world.files.canonical path with
  | error error => exact Or.inl ⟨rfl, by simp⟩
  | ok real =>
      by_cases accepts : hierarchy.Accepts world.files real
      · right
        cases ran : AreaLock.lockTree cancel write depth real world with
        | error error after =>
            refine Or.inl ⟨real, error, after, rfl, accepts, ran, ?_⟩
            simp [accepts.under, accepts.rootOpen, accepts.unlocked, ran]
        | ok locks after =>
            refine Or.inr ⟨real, locks, after, rfl, accepts, ran, ?_⟩
            cases found : (hierarchy.insertAll locks).retrieve after.files real <;>
              simp [accepts.under, accepts.rootOpen, accepts.unlocked, ran, found]
      · left
        refine ⟨?_, fun other same => Except.ok.inj same ▸ accepts⟩
        cases under : real.isUnder hierarchy.root with
        | false => simp [under]
        | true =>
            cases rootOpen : hierarchy.isRootOpen with
            | false => simp [under]
            | true =>
                cases locked : hierarchy.isLocked world.files real with
                | true => simp [under, locked]
                | false => exact absurd ⟨under, rootOpen, locked⟩ accepts

/-- The directory to be locked for a path in a hierarchy, with the depth to lock it at. -/
def childTarget (files : FileSystem) (depth : Depth) (path : Path) : Option (Depth × Path) :=
  match files.canonical path with
  | .error _ => none
  | .ok real => (files.nearestVersioned? real).map fun directory =>
      (if directory.same real then depth else .empty, directory)

theorem probeTry_apply (cancel : Option (Cancellation σ)) (write : Bool) (depth : Depth)
    (path : Path) (world : World σ) (hierarchy : Hierarchy) :
    (stateAfter (probeTry cancel write depth path) (world, hierarchy) = (world, hierarchy) ∧
        ∀ depth' directory, childTarget world.files depth path = some (depth', directory) →
          hierarchy.isLocked world.files directory = true) ∨
      ∃ depth' directory, childTarget world.files depth path = some (depth', directory) ∧
        hierarchy.isLocked world.files directory = false ∧
        probeTry cancel write depth path (world, hierarchy) =
          openChild cancel write depth' directory (world, hierarchy) := by
  cases canonical : world.files.canonical path with
  | error error => simp [stateAfter, probeTry, HierarchyAction.ofLook, childTarget, canonical]
  | ok real =>
      cases nearest : world.files.nearestVersioned? real with
      | none => simp [stateAfter, probeTry, HierarchyAction.ofLook, childTarget, canonical, nearest]
      | some directory =>
          cases locked : hierarchy.isLocked world.files directory with
          | true =>
              left
              refine ⟨?_, by simp [childTarget, canonical, nearest, locked]⟩
              cases found : hierarchy.retrieve world.files directory <;>
                simp [stateAfter, probeTry, HierarchyAction.ofLook, canonical, nearest, locked, found]
          | false =>
              right
              refine ⟨if directory.same real then depth else .empty, directory, ?_, locked, ?_⟩
              · simp [childTarget, canonical, nearest]
              · simp [probeTry, HierarchyAction.ofLook, canonical, nearest, locked]

/-! ## Closing -/

/-- The open locks at or below a path. -/
def openUnder (hierarchy : Hierarchy) (path : Path) : List AreaLock :=
  hierarchy.openLocks.filter fun lock => lock.path.isUnder path

/-- The hierarchy with every lock at or below a path closed. -/
def closedUnder (hierarchy : Hierarchy) (path : Path) : Hierarchy :=
  { hierarchy with
    locks := hierarchy.locks.map fun lock => if lock.path.isUnder path then lock.closed else lock }

@[simp]
theorem root_closedUnder (hierarchy : Hierarchy) (path : Path) :
    (hierarchy.closedUnder path).root = hierarchy.root := rfl

@[simp]
theorem paths_closedUnder (hierarchy : Hierarchy) (path : Path) :
    (hierarchy.closedUnder path).locks.map AreaLock.path = hierarchy.locks.map AreaLock.path := by
  rw [closedUnder, List.map_map]
  apply List.map_congr_left
  intro lock _
  rw [Function.comp_apply]
  split <;> rfl

/-- The locks that stay open are the open locks elsewhere. -/
theorem openLocks_closedUnder (hierarchy : Hierarchy) (path : Path) :
    (hierarchy.closedUnder path).openLocks =
      hierarchy.openLocks.filter fun lock => !lock.path.isUnder path := by
  obtain ⟨root, locks⟩ := hierarchy
  simp only [closedUnder, openLocks]
  induction locks with
  | nil => rfl
  | cons lock rest ih =>
      rw [List.map_cons]
      by_cases under : lock.path.isUnder path = true
      · rw [if_pos under, List.filter_cons_of_neg (by simp [AreaLock.isOpen, AreaLock.closed]), ih]
        by_cases isOpen : lock.isOpen = true
        · rw [List.filter_cons_of_pos isOpen, List.filter_cons_of_neg (by simp [under])]
        · rw [List.filter_cons_of_neg isOpen]
      · rw [if_neg under]
        by_cases isOpen : lock.isOpen = true
        · rw [List.filter_cons_of_pos isOpen, List.filter_cons_of_pos isOpen,
            List.filter_cons_of_pos (by simp [under]), ih]
        · rw [List.filter_cons_of_neg isOpen, List.filter_cons_of_neg isOpen, ih]

/-- Closing the locks under a path parts the open locks. -/
theorem openLocks_parted (hierarchy : Hierarchy) (path : Path) :
    hierarchy.openLocks.Perm
      ((hierarchy.openUnder path).reverse ++ (hierarchy.closedUnder path).openLocks) := by
  rw [openLocks_closedUnder]
  exact (List.filter_append_perm (fun lock => lock.path.isUnder path)
    hierarchy.openLocks).symm.trans ((List.reverse_perm _).symm.append_right _)

/-- Closing a lock gives back every open lock at or below its directory, the last one first. -/
theorem stateAfter_closeLock (path : Path) (world : World σ) (hierarchy : Hierarchy) :
    stateAfter (closeLock path) (world, hierarchy) =
      match world.files.canonical path with
      | .error _ => (world, hierarchy)
      | .ok real =>
          if (hierarchy.find? real).isSome then
            (AreaLock.giveBack (hierarchy.openUnder real).reverse world, hierarchy.closedUnder real)
          else (world, hierarchy) := by
  cases canonical : world.files.canonical path with
  | error error => simp [stateAfter, closeLock, HierarchyAction.ofLook, canonical]
  | ok real =>
      cases found : hierarchy.find? real with
      | none => simp [stateAfter, closeLock, HierarchyAction.ofLook, canonical, found]
      | some lock =>
          obtain ⟨failure, gave⟩ :=
            AreaLock.releaseAll_apply (hierarchy.openUnder real).reverse world
          rw [openUnder] at gave
          cases isOpen : lock.isOpen <;> cases failure <;>
            simp [stateAfter, closeLock, HierarchyAction.ofLook, HierarchyAction.ofAction,
              HierarchyAction.update, canonical, found, gave, isOpen, openUnder, closedUnder]

theorem stateAfter_close (world : World σ) (hierarchy : Hierarchy) :
    stateAfter close (world, hierarchy) =
      stateAfter (closeLock hierarchy.root) (world, hierarchy) := by
  simp [stateAfter, close]

theorem stateAfter_drop (hierarchy : Hierarchy) (world : World σ) :
    stateAfter hierarchy.drop world = AreaLock.giveBack hierarchy.openLocks.reverse world := by
  obtain ⟨failure, gave⟩ := AreaLock.releaseAll_apply hierarchy.openLocks.reverse world
  simp [stateAfter, drop, gave]

end Hierarchy

/-! ## Anchors -/

namespace Anchored

open Hierarchy

variable {cancel : Option (Cancellation σ)} {write : Bool} {depth : Depth} {path : Path}
  {world after : World σ}

theorem openTarget_ok {anchor : Path} {target : String} {hierarchy : Hierarchy} {lock : AreaLock}
    {state : World σ × Hierarchy}
    (child : openChild cancel write depth (anchor.join target) (world, hierarchy) =
      .ok lock state) :
    openTarget cancel write depth anchor target hierarchy world =
      .ok { hierarchy := state.2, target := some target } state.1 := by
  unfold openTarget
  rw [child]

/-- A hierarchy whose target cannot be locked is closed and dropped. -/
theorem openTarget_error {anchor : Path} {target : String} {hierarchy : Hierarchy} {error : Error}
    {state : World σ × Hierarchy}
    (child : openChild cancel write depth (anchor.join target) (world, hierarchy) =
      .error error state) :
    openTarget cancel write depth anchor target hierarchy world =
      .error error (stateAfter (stateAfter close state).2.drop (stateAfter close state).1) := by
  unfold openTarget
  rw [child]
  simp only
  cases closing : close state with
  | ok _ closed =>
      rw [stateAfter_of_ok closing]
      cases dropping : closed.2.drop closed.1 <;> simp only [dropping, stateAfter]
  | error _ closed =>
      rw [stateAfter_of_error closing]
      cases dropping : closed.2.drop closed.1 <;> simp only [dropping, stateAfter]

/-- What opening an anchor comes to. -/
theorem openAnchor_apply (cancel : Option (Cancellation σ)) (write : Bool) (depth : Depth)
    (path : Path) (world : World σ) :
    openAnchor cancel write depth path world =
      match world.files.anchor path with
      | .error error => .error error world
      | .ok (anchor, none) =>
          match openAt cancel write depth anchor world with
          | .error error after => .error error after
          | .ok hierarchy after => .ok { hierarchy, target := none } after
      | .ok (anchor, some target) =>
          match openAt cancel write .empty anchor world with
          | .error error after => .error error after
          | .ok hierarchy after =>
              if after.files.isVersioned (anchor.join target) then
                openTarget cancel write depth anchor target hierarchy after
              else .ok { hierarchy, target := some target } after := by
  rcases found : world.files.anchor path with error | ⟨anchor, target⟩
  · simp [openAnchor, Action.ofLook, found]
  · cases target with
    | none =>
        cases ran : openAt cancel write depth anchor world <;>
          simp [openAnchor, Action.ofLook, found, ran]
    | some target =>
        cases ran : openAt cancel write .empty anchor world with
        | error error after => simp [openAnchor, Action.ofLook, found, ran]
        | ok hierarchy after =>
            simp only [openAnchor, Action.bind_apply, Action.ofLook, Action.get_apply, found, ran]
            cases after.files.isVersioned (anchor.join target) <;> rfl

/-- The top of a working copy is opened like any hierarchy. -/
theorem openAnchor_top {anchored : Anchored} {anchor : Path}
    (found : world.files.anchor path = .ok (anchor, none))
    (opened : openAnchor cancel write depth path world = .ok anchored after) :
    anchored.target = none ∧
      openAt cancel write depth anchor world = .ok anchored.hierarchy after := by
  simp only [openAnchor_apply, found] at opened
  split at opened
  · simp at opened
  · rename_i hierarchy last ran
    rw [EStateM.Result.ok.injEq] at opened
    rcases opened with ⟨rfl, rfl⟩
    exact ⟨rfl, ran⟩

/-- Any other anchor is opened alone, and then its target if that is versioned by now. -/
theorem openAnchor_entry {anchored : Anchored} {anchor : Path} {target : String}
    (found : world.files.anchor path = .ok (anchor, some target))
    (opened : openAnchor cancel write depth path world = .ok anchored after) :
    anchored.target = some target ∧ ∃ hierarchy middle,
      openAt cancel write .empty anchor world = .ok hierarchy middle ∧
      ((middle.files.isVersioned (anchor.join target) = true ∧
        ∃ lock, openChild cancel write depth (anchor.join target) (middle, hierarchy) =
          .ok lock (after, anchored.hierarchy)) ∨
        (middle.files.isVersioned (anchor.join target) = false ∧ after = middle ∧
          anchored.hierarchy = hierarchy)) := by
  simp only [openAnchor_apply, found] at opened
  split at opened
  · simp at opened
  · rename_i hierarchy middle ran
    split at opened
    · rename_i versioned
      cases child : openChild cancel write depth (anchor.join target) (middle, hierarchy) with
      | error error state =>
          rw [openTarget_error child] at opened
          simp at opened
      | ok lock state =>
          rw [openTarget_ok child, EStateM.Result.ok.injEq] at opened
          rcases opened with ⟨rfl, rfl⟩
          exact ⟨rfl, hierarchy, middle, ran, Or.inl ⟨versioned, lock, child⟩⟩
    · rename_i unversioned
      rw [EStateM.Result.ok.injEq] at opened
      rcases opened with ⟨rfl, rfl⟩
      exact ⟨rfl, hierarchy, middle, ran, Or.inr ⟨by simpa using unversioned, rfl, rfl⟩⟩

/-- How an anchor comes to be open: alone, or with its target. -/
theorem openAnchor_ok {anchored : Anchored}
    (opened : openAnchor cancel write depth path world = .ok anchored after) :
    (∃ anchor, world.files.anchor path = .ok (anchor, none) ∧
      openAt cancel write depth anchor world = .ok anchored.hierarchy after) ∨
    ∃ anchor target hierarchy middle, world.files.anchor path = .ok (anchor, some target) ∧
      openAt cancel write .empty anchor world = .ok hierarchy middle ∧
      ((middle.files.isVersioned (anchor.join target) = true ∧
        stateAfter (openChild cancel write depth (anchor.join target)) (middle, hierarchy) =
          (after, anchored.hierarchy)) ∨
        (after = middle ∧ anchored.hierarchy = hierarchy)) := by
  rcases found : world.files.anchor path with error | ⟨anchor, _ | target⟩
  · simp [openAnchor_apply, found] at opened
  · exact Or.inl ⟨anchor, rfl, (openAnchor_top found opened).2⟩
  · obtain ⟨-, hierarchy, middle, ran, ⟨versioned, lock, child⟩ | ⟨-, same⟩⟩ :=
      openAnchor_entry found opened
    · exact Or.inr ⟨anchor, target, hierarchy, middle, rfl, ran,
        Or.inl ⟨versioned, stateAfter_of_ok child⟩⟩
    · exact Or.inr ⟨anchor, target, hierarchy, middle, rfl, ran, Or.inr same⟩

/-- How opening an anchor fails: before it locks anything, while it locks the anchor, or behind that, when
the target cannot be locked. Then the anchor is closed and dropped. -/
theorem openAnchor_error {error : Error}
    (refused : openAnchor cancel write depth path world = .error error after) :
    after = world ∨
    (∃ anchor, world.files.anchor path = .ok (anchor, none) ∧
      openAt cancel write depth anchor world = .error error after) ∨
    (∃ anchor target, world.files.anchor path = .ok (anchor, some target) ∧
      openAt cancel write .empty anchor world = .error error after) ∨
    ∃ anchor target hierarchy middle state, world.files.anchor path = .ok (anchor, some target) ∧
      openAt cancel write .empty anchor world = .ok hierarchy middle ∧
      middle.files.isVersioned (anchor.join target) = true ∧
      openChild cancel write depth (anchor.join target) (middle, hierarchy) = .error error state ∧
      after = stateAfter (stateAfter close state).2.drop (stateAfter close state).1 := by
  rw [openAnchor_apply] at refused
  split at refused
  · rw [EStateM.Result.error.injEq] at refused
    exact Or.inl refused.2.symm
  · rename_i anchor found
    right; left
    split at refused
    · rename_i ran
      rw [EStateM.Result.error.injEq] at refused
      rcases refused with ⟨rfl, rfl⟩
      exact ⟨anchor, found, ran⟩
    · simp at refused
  · rename_i anchor target found
    right; right
    split at refused
    · rename_i ran
      rw [EStateM.Result.error.injEq] at refused
      rcases refused with ⟨rfl, rfl⟩
      exact Or.inl ⟨anchor, target, found, ran⟩
    · rename_i hierarchy middle ran
      right
      split at refused
      · rename_i versioned
        cases child : openChild cancel write depth (anchor.join target) (middle, hierarchy) with
        | ok lock state =>
            rw [openTarget_ok child] at refused
            simp at refused
        | error failure state =>
            rw [openTarget_error child, EStateM.Result.error.injEq] at refused
            rcases refused with ⟨rfl, rfl⟩
            exact ⟨anchor, target, hierarchy, middle, state, found, ran, versioned, child, rfl⟩
      · simp at refused

end Anchored

end Checkout
