import Checkout.Proofs.Lock.Borrowing
import Checkout.Proofs.Lock.Rooted
import Checkout.Proofs.WorkingCopy.Versioned

/-!
# Openings that fail

An operation that fails to open locks leaves the claims, the hierarchy and the files as they were, but
for stale lock files. There is one exception: a child is found again under its canonical path after it was
locked, and a path that leads nowhere, because it goes through too many links, can have a canonical form
that is not canonical itself. Then the operation reports an error and keeps what it locked.
-/

namespace Checkout

variable {σ : Type}

open FileSystem (Borrowed)

namespace Hierarchy

variable {cancel : Option (Cancellation σ)} {write : Bool} {depth : Depth} {path : Path}
  {world after : World σ} {hierarchy left : Hierarchy} {error : Error}

/-- How opening a child fails: before it locks anything, while it locks a tree, or behind that, when the
lock cannot be found. -/
theorem openChild_error
    (refused : openChild cancel write depth path (world, hierarchy) = .error error (after, left)) :
    (after = world ∧ left = hierarchy) ∨
      ∃ real, world.files.canonical path = .ok real ∧ hierarchy.Accepts world.files real ∧
        ((left = hierarchy ∧ AreaLock.lockTree cancel write depth real world = .error error after) ∨
          ∃ locks, AreaLock.lockTree cancel write depth real world = .ok locks after ∧
            left = hierarchy.insertAll locks ∧ left.retrieve after.files real = .error error) := by
  rw [openChild_apply] at refused
  cases canonical : world.files.canonical path with
  | error failure =>
      simp only [canonical, EStateM.Result.error.injEq, Prod.mk.injEq] at refused
      exact Or.inl ⟨refused.2.1.symm, refused.2.2.symm⟩
  | ok real =>
      simp only [canonical] at refused
      split at refused
      · simp only [EStateM.Result.error.injEq, Prod.mk.injEq] at refused
        exact Or.inl ⟨refused.2.1.symm, refused.2.2.symm⟩
      · rename_i under
        split at refused
        · simp only [EStateM.Result.error.injEq, Prod.mk.injEq] at refused
          exact Or.inl ⟨refused.2.1.symm, refused.2.2.symm⟩
        · rename_i rootOpen
          split at refused
          · simp only [EStateM.Result.error.injEq, Prod.mk.injEq] at refused
            exact Or.inl ⟨refused.2.1.symm, refused.2.2.symm⟩
          · rename_i unlocked
            right
            refine ⟨real, rfl, ⟨by simpa using under, by simpa using rootOpen,
              by simpa using unlocked⟩, ?_⟩
            split at refused
            · rename_i ran
              simp only [EStateM.Result.error.injEq, Prod.mk.injEq] at refused
              obtain ⟨rfl, rfl, rfl⟩ := refused
              exact Or.inl ⟨rfl, ran⟩
            · rename_i locks locked ran
              split at refused
              · simp at refused
              · rename_i failed
                simp only [EStateM.Result.error.injEq, Prod.mk.injEq] at refused
                obtain ⟨rfl, rfl, rfl⟩ := refused
                exact Or.inr ⟨locks, ran, rfl, failed⟩

/-- The lock on the top of a tree that was locked is found, unless the canonical form of its path is
another path by now. -/
theorem moved_of_retrieve_error {real : Path} {locks : List AreaLock}
    (ran : AreaLock.lockTree cancel write depth real world = .ok locks after)
    (failed : (hierarchy.insertAll locks).retrieve after.files real = .error error) {again : Path}
    (canonical : after.files.canonical real = .ok again) : again.same real = false := by
  by_contra same
  rw [Bool.not_eq_false] at same
  have ledger := Descent.ledger_lockTree ran
  obtain ⟨asked, locked, lock, -, acquired, lock_mem⟩ := Descent.lockTree_top ran
  obtain ⟨-, held, -, rfl⟩ := AreaLock.acquire_ok acquired
  have found_same : real.same again = true := by
    simpa [Path.same, eq_comm] using same
  obtain ⟨found, found_mem, found_eq⟩ := hierarchy.find?_insertAll
    (by simpa using ledger.distinct) lock_mem found_same
  have isOpen : found.isOpen = true := ledger.allOpen found (List.mem_reverse.mpr found_mem)
  simp [retrieve, canonical, found_eq, isOpen, bind, Except.bind, pure, Except.pure] at failed

/-- A tree that was locked has a new claim. -/
theorem isClaimed_lockTree {real : Path} {locks : List AreaLock}
    (ran : AreaLock.lockTree cancel write depth real world = .ok locks after) :
    after.isClaimed real = true ∧ world.isClaimed real = false := by
  have ledger := Descent.ledger_lockTree ran
  obtain ⟨asked, locked, lock, -, acquired, lock_mem⟩ := Descent.lockTree_top ran
  obtain ⟨-, held, -, lock_eq⟩ := AreaLock.acquire_ok acquired
  have key_eq : lock.key = real.components := by rw [lock_eq, AreaLock.key]
  have listed := List.mem_reverse.mpr lock_mem
  have claimed : lock.key ∈ after.claims := by
    have claims_eq := ledger.claims_eq
    simp only at claims_eq
    rw [claims_eq]
    exact List.mem_append_left _ (List.mem_map_of_mem listed)
  have fresh := ledger.fresh lock listed
  rw [key_eq] at claimed fresh
  exact ⟨(World.isClaimed_iff after real).mpr claimed,
    Bool.eq_false_iff.mpr fun was => fresh ((World.isClaimed_iff world real).mp was)⟩

theorem isVersioned_lockTree {real : Path} {locks : List AreaLock}
    (ran : AreaLock.lockTree cancel write depth real world = .ok locks after) :
    world.files.isVersioned real = true := by
  obtain ⟨asked, locked, lock, polled, acquired, -⟩ := Descent.lockTree_top ran
  rw [← AreaLock.files_poll polled]
  exact (AreaLock.acquire_ok acquired).1

/-- A child is opened at a canonical form that is not canonical itself. -/
structure Drifts (cancel : Option (Cancellation σ)) (write : Bool) (depth : Depth) (path : Path)
    (world : World σ) (hierarchy : Hierarchy) (real : Path) : Prop where
  canonical : world.files.canonical path = .ok real
  moved : ∀ again, world.files.canonical real = .ok again → again.same real = false
  accepts : hierarchy.Accepts world.files real
  locks : ∃ locks after, AreaLock.lockTree cancel write depth real world = .ok locks after

/-- A child that drifts keeps its claim. -/
theorem Drifts.isClaimed {real : Path} (drifts : Drifts cancel write depth path world hierarchy real)
    (refused : openChild cancel write depth path (world, hierarchy) = .error error (after, left)) :
    after.isClaimed real = true ∧ world.isClaimed real = false := by
  obtain ⟨locks, locked, ran⟩ := drifts.locks
  have state_eq : (stateAfter (openChild cancel write depth path) (world, hierarchy)).1 = locked := by
    rw [stateAfter, openChild_apply, drifts.canonical]
    simp only [drifts.accepts.under, drifts.accepts.rootOpen, drifts.accepts.unlocked, ran,
      Bool.not_true, Bool.false_eq_true, if_false]
    cases (hierarchy.insertAll locks).retrieve locked.files real <;> rfl
  rw [stateAfter_of_error refused] at state_eq
  subst state_eq
  exact isClaimed_lockTree ran

/-- When opening a child fails without a drift, nothing is left of it but for stale lock files. -/
theorem openChild_undone (wellFormed : world.files.WellFormed)
    (refused : openChild cancel write depth path (world, hierarchy) = .error error (after, left)) :
    (∃ real, Drifts cancel write depth path world hierarchy real) ∨
      left = hierarchy ∧ after.claims = world.claims ∧
        ∀ gone, (∀ start, DescendsBelow world hierarchy depth path start →
          start.Covered cancel write world.files gone) →
            Borrowed world.files after.files [] gone := by
  rcases openChild_error refused with
    ⟨rfl, rfl⟩ | ⟨real, canonical, accepts, ⟨rfl, ran⟩ | ⟨locks, ran, rfl, failed⟩⟩
  · exact Or.inr ⟨rfl, rfl, fun gone _ => Borrowed.start wellFormed gone⟩
  · refine Or.inr ⟨rfl, Descent.claims_lockTree_error ran, ?_⟩
    intro gone covered
    exact Descent.borrowed_lockTree_error (Borrowed.start wellFormed gone)
      (covered _ ⟨real, canonical, accepts, rfl⟩) ran
  · refine Or.inl ⟨real, canonical, ?_, accepts, locks, after, ran⟩
    intro again steady
    apply moved_of_retrieve_error ran failed
    rw [FileSystem.canonical_congr (FileSystem.isAbsolute_canonical canonical)
      (isVersioned_lockTree ran) (Descent.sameTree_lockTree wellFormed ran)]
    exact steady

/-- The nearest versioned directory does not drift. -/
theorem not_drifts_of_isVersioned {real : Path} (wellFormed : world.files.WellFormed)
    (absolute : path.isAbsolute = true) (versioned : world.files.isVersioned path = true) :
    ¬Drifts cancel write depth path world hierarchy real := by
  intro drifts
  obtain ⟨locks, locked, ran⟩ := drifts.locks
  have same := drifts.moved real (FileSystem.canonical_canonical wellFormed absolute versioned
    drifts.canonical (isVersioned_lockTree ran))
  simp [Path.same] at same

theorem childTarget_eq_some {depth' : Depth} {directory : Path}
    (target : childTarget world.files depth path = some (depth', directory)) :
    directory.isAbsolute = true ∧ world.files.isVersioned directory = true := by
  simp only [childTarget] at target
  split at target
  · simp at target
  · rename_i real canonical
    obtain ⟨nearest, nearest_eq, same⟩ := Option.map_eq_some_iff.mp target
    simp only [Prod.mk.injEq] at same
    rw [← same.2]
    exact FileSystem.nearestVersioned?_eq_some (FileSystem.isAbsolute_canonical canonical) nearest_eq

theorem probeTry_undone (wellFormed : world.files.WellFormed)
    (refused : probeTry cancel write depth path (world, hierarchy) = .error error (after, left)) :
    left = hierarchy ∧ after.claims = world.claims ∧
      ∀ gone, (∀ depth' directory start,
        childTarget world.files depth path = some (depth', directory) →
        hierarchy.isLocked world.files directory = false →
        DescendsBelow world hierarchy depth' directory start →
          start.Covered cancel write world.files gone) → Borrowed world.files after.files [] gone := by
  rcases probeTry_apply cancel write depth path world hierarchy with
    ⟨unchanged, -⟩ | ⟨depth', directory, target, unlocked, same⟩
  · rw [stateAfter_of_error refused, Prod.mk.injEq] at unchanged
    obtain ⟨rfl, rfl⟩ := unchanged
    exact ⟨rfl, rfl, fun gone _ => Borrowed.start wellFormed gone⟩
  · rw [same] at refused
    obtain ⟨absolute, versioned⟩ := childTarget_eq_some target
    rcases openChild_undone wellFormed refused with ⟨real, drifts⟩ | ⟨left_eq, claims_eq, files⟩
    · exact absurd drifts (not_drifts_of_isVersioned wellFormed absolute versioned)
    · refine ⟨left_eq, claims_eq, ?_⟩
      intro gone covered
      exact files gone (fun start => covered depth' directory start target unlocked)

theorem borrowed_probeOpen_error {gone : Set Path} (wellFormed : world.files.WellFormed)
    (covered : ∀ depth' directory start,
      probeTarget world.files depth path = some (depth', directory) →
      DescendsAt world depth' directory start → start.Covered cancel write world.files gone)
    (refused : probeOpen cancel write depth path world = .error error after) :
    Borrowed world.files after.files [] gone := by
  rcases probeOpen_apply cancel write depth path world with
    ⟨-, other, same⟩ | ⟨depth', directory, target, same⟩
  · rw [same, EStateM.Result.error.injEq] at refused
    rw [← refused.2]
    exact Borrowed.start wellFormed gone
  · rw [same] at refused
    exact borrowed_openAt_error wellFormed
      (fun start => covered depth' directory start target) refused

end Hierarchy

namespace Anchored

variable {cancel : Option (Cancellation σ)} {write : Bool} {depth : Depth} {path anchor : Path}
  {target : String} {hierarchy : Hierarchy} {world middle after : World σ} {error : Error}

/-- A descent that opening an anchor makes. -/
def Descends (cancel : Option (Cancellation σ)) (write : Bool) (depth : Depth) (path : Path)
    (world : World σ) (start : Descent σ) : Prop :=
  match world.files.anchor path with
  | .error _ => False
  | .ok (anchor, none) => Hierarchy.DescendsAt world depth anchor start
  | .ok (anchor, some target) => Hierarchy.DescendsAt world .empty anchor start ∨
      ∃ hierarchy middle, Hierarchy.openAt cancel write .empty anchor world = .ok hierarchy middle ∧
        middle.files.isVersioned (anchor.join target) = true ∧
        Hierarchy.DescendsBelow middle hierarchy depth (anchor.join target) start

theorem descends_top (found : world.files.anchor path = .ok (anchor, none)) (start : Descent σ)
    (down : Hierarchy.DescendsAt world depth anchor start) :
    Descends cancel write depth path world start := by
  simpa only [Descends, found] using down

theorem descends_anchor (found : world.files.anchor path = .ok (anchor, some target))
    (start : Descent σ) (down : Hierarchy.DescendsAt world .empty anchor start) :
    Descends cancel write depth path world start := by
  simp only [Descends, found]
  exact Or.inl down

theorem descends_target (found : world.files.anchor path = .ok (anchor, some target))
    (opened : Hierarchy.openAt cancel write .empty anchor world = .ok hierarchy middle)
    (versioned : middle.files.isVersioned (anchor.join target) = true) (start : Descent σ)
    (down : Hierarchy.DescendsBelow middle hierarchy depth (anchor.join target) start) :
    Descends cancel write depth path world start := by
  simp only [Descends, found]
  exact Or.inr ⟨hierarchy, middle, opened, versioned, down⟩

theorem borrowed_openAnchor_error {gone : Set Path} (wellFormed : world.files.WellFormed)
    (distinct : world.claims.Nodup)
    (covered : ∀ start, Descends cancel write depth path world start →
      start.Covered cancel write world.files gone)
    (refused : openAnchor cancel write depth path world = .error error after) :
    Borrowed world.files after.files [] gone := by
  rcases openAnchor_error refused with
    rfl | ⟨anchor, found, ran⟩ | ⟨anchor, target, found, ran⟩ |
      ⟨anchor, target, hierarchy, middle, state, found, ran, versioned, child, rfl⟩
  · exact Borrowed.start wellFormed gone
  · apply Hierarchy.borrowed_openAt_error wellFormed _ ran
    intro start down
    exact covered start (descends_top found start down)
  · apply Hierarchy.borrowed_openAt_error wellFormed _ ran
    intro start down
    exact covered start (descends_anchor found start down)
  · have accounts := Hierarchy.accounts_openAt distinct ran
    rcases Hierarchy.borrowed_openAt wellFormed
      (fun start down => covered start (descends_anchor found start down)) ran with
        ⟨borrowed, returned⟩
    have opened := Hierarchy.borrows_openChild accounts borrowed returned
      (fun start down => covered start (descends_target found ran versioned start down))
    have openedAccounts := accounts.openChild cancel write depth (anchor.join target)
    rw [stateAfter_of_error child] at opened openedAccounts
    exact (opened.close openedAccounts).drop openedAccounts.close

end Anchored

/-! ## Openings -/

/-- The operations that open locks. -/
inductive OpeningKind where
  | openAt
  | probeOpen
  | openAnchor
  | openChild
  | probeTry
  deriving DecidableEq, Repr

/-- A call of an operation that opens locks. -/
structure Opening (σ : Type) where
  kind : OpeningKind
  cancel : Option (Cancellation σ)
  write : Bool
  depth : Depth
  path : Path

namespace Opening

/-- Runs the operation, on a hierarchy if it is one that opens further locks. -/
def run (opening : Opening σ) : HierarchyAction σ Unit :=
  match opening.kind with
  | .openAt => discard (HierarchyAction.ofAction
      (Hierarchy.openAt opening.cancel opening.write opening.depth opening.path))
  | .probeOpen => discard (HierarchyAction.ofAction
      (Hierarchy.probeOpen opening.cancel opening.write opening.depth opening.path))
  | .openAnchor => discard (HierarchyAction.ofAction
      (Anchored.openAnchor opening.cancel opening.write opening.depth opening.path))
  | .openChild => discard
      (Hierarchy.openChild opening.cancel opening.write opening.depth opening.path)
  | .probeTry => discard
      (Hierarchy.probeTry opening.cancel opening.write opening.depth opening.path)

/-- A descent that the operation makes. -/
def Descends (opening : Opening σ) (state : World σ × Hierarchy) (start : Descent σ) : Prop :=
  match opening.kind with
  | .openAt => Hierarchy.DescendsAt state.1 opening.depth opening.path start
  | .probeOpen => ∃ depth directory,
      Hierarchy.probeTarget state.1.files opening.depth opening.path = some (depth, directory) ∧
        Hierarchy.DescendsAt state.1 depth directory start
  | .openAnchor => Anchored.Descends opening.cancel opening.write opening.depth opening.path
      state.1 start
  | .openChild => Hierarchy.DescendsBelow state.1 state.2 opening.depth opening.path start
  | .probeTry => ∃ depth directory,
      Hierarchy.childTarget state.1.files opening.depth opening.path = some (depth, directory) ∧
        state.2.isLocked state.1.files directory = false ∧
        Hierarchy.DescendsBelow state.1 state.2 depth directory start

/-- The operation comes to a directory, to lock it. -/
def Visits (opening : Opening σ) (state : World σ × Hierarchy) (directory : Path) : Prop :=
  ∃ start, opening.Descends state start ∧
    start.Visits opening.cancel opening.write directory

/-- The operation locks a directory, whatever comes of it later. -/
def Locks (opening : Opening σ) (state : World σ × Hierarchy) (directory : Path) : Prop :=
  ∃ start, opening.Descends state start ∧
    start.Locks opening.cancel opening.write directory

/-- The operation opens a child at a canonical form that is not canonical itself. -/
def Drifts (opening : Opening σ) (state : World σ × Hierarchy) : Prop :=
  opening.kind = .openChild ∧ ∃ real, Hierarchy.Drifts opening.cancel opening.write opening.depth
    opening.path state.1 state.2 real

variable {opening : Opening σ} {world after : World σ} {hierarchy left : Hierarchy} {error : Error}

/-- What a failed operation leaves, as far as claims and the hierarchy go. -/
structure Undone (world after : World σ) (hierarchy left : Hierarchy) : Prop where
  hierarchy_eq : left = hierarchy
  isClaimed_eq : ∀ directory, after.isClaimed directory = world.isClaimed directory

/-- What a failed operation leaves of the files: stale lock files of the directories in `locked` may be
gone, and nothing else has changed. -/
structure FilesUndone (before after : FileSystem) (locked : Set Path) : Prop where
  nodes : ∀ location, after.node? location = before.node? location ∨
    after.node? location = none ∧ before.IsStale location ∧
      ∃ directory ∈ locked, before.IsPlace (Area.lockFile directory) location
  held : ∀ identity, identity ∈ after.held ↔ identity ∈ before.held

theorem filesUndone_of_borrowed {before after : FileSystem} {locked : Set Path}
    (borrowed : Borrowed before after [] (Area.lockFile '' locked)) :
    FilesUndone before after locked := by
  refine ⟨?_, ?_⟩
  · intro location
    rcases borrowed.elsewhere location with same | ⟨lock, lock_mem, -⟩ |
      ⟨missing, stale, _, ⟨directory, directory_mem, rfl⟩, place⟩
    · exact Or.inl same
    · simp at lock_mem
    · exact Or.inr ⟨missing, stale, directory, directory_mem, place⟩
  · intro identity
    simpa using borrowed.held identity

theorem ofAction_error {α : Type} {action : Action σ α}
    (refused : discard (HierarchyAction.ofAction action) (world, hierarchy) =
      .error error (after, left)) :
    left = hierarchy ∧ action world = .error error after := by
  cases ran : action world with
  | ok value last => simp [HierarchyAction.ofAction, ran] at refused
  | error failure last =>
      simp [HierarchyAction.ofAction, ran] at refused
      obtain ⟨rfl, rfl, rfl⟩ := refused
      exact ⟨rfl, rfl⟩

theorem discard_error {α : Type} {action : HierarchyAction σ α}
    (refused : discard action (world, hierarchy) = .error error (after, left)) :
    action (world, hierarchy) = .error error (after, left) := by
  cases ran : action (world, hierarchy) with
  | ok value last => simp [ran] at refused
  | error failure last => simpa [ran] using refused

/-- What a failed operation that does not drift leaves of the claims, the hierarchy and the files. -/
theorem restores_of_not_drifts (wellFormed : world.files.WellFormed) (distinct : world.claims.Nodup)
    (refused : opening.run (world, hierarchy) = .error error (after, left))
    (steady : ¬opening.Drifts (world, hierarchy)) :
    left = hierarchy ∧ (∀ key, key ∈ after.claims ↔ key ∈ world.claims) ∧
      ∀ gone, (∀ start, opening.Descends (world, hierarchy) start →
        start.Covered opening.cancel opening.write world.files gone) →
          Borrowed world.files after.files [] gone := by
  obtain ⟨kind, cancel, write, depth, path⟩ := opening
  cases kind with
  | openAt =>
      obtain ⟨rfl, ran⟩ := ofAction_error refused
      refine ⟨rfl, by simp [Hierarchy.claims_openAt_error ran], ?_⟩
      intro gone covered
      exact Hierarchy.borrowed_openAt_error wellFormed covered ran
  | probeOpen =>
      obtain ⟨rfl, ran⟩ := ofAction_error refused
      refine ⟨rfl, by simp [Hierarchy.claims_probeOpen_error ran], ?_⟩
      intro gone covered
      apply Hierarchy.borrowed_probeOpen_error wellFormed _ ran
      intro depth' directory start target descends
      exact covered start ⟨depth', directory, target, descends⟩
  | openAnchor =>
      obtain ⟨rfl, ran⟩ := ofAction_error refused
      have claims_eq := (Anchored.claims_openAnchor_error distinct ran).1
      refine ⟨rfl, ?_, ?_⟩
      · intro key
        rw [← Multiset.mem_coe, claims_eq, Multiset.mem_coe]
      · intro gone covered
        exact Anchored.borrowed_openAnchor_error wellFormed distinct covered ran
  | openChild =>
      rcases Hierarchy.openChild_undone wellFormed (discard_error refused) with
        ⟨real, drifts⟩ | ⟨left_eq, claims_eq, files⟩
      · exact absurd ⟨rfl, real, drifts⟩ steady
      · exact ⟨left_eq, by simp [claims_eq], files⟩
  | probeTry =>
      obtain ⟨left_eq, claims_eq, files⟩ :=
        Hierarchy.probeTry_undone wellFormed (discard_error refused)
      refine ⟨left_eq, by simp [claims_eq], ?_⟩
      intro gone covered
      apply files gone
      intro depth' directory start target unlocked descends
      exact covered start ⟨depth', directory, target, unlocked, descends⟩

/--
A failed operation leaves the claims and the hierarchy as they were if and only if it does not drift. Then
it leaves the files as they were too, but for stale lock files of directories it had locked, if none of the
lock files it comes to is a link.
-/
theorem failure_undone_iff (wellFormed : world.files.WellFormed) (distinct : world.claims.Nodup)
    (refused : opening.run (world, hierarchy) = .error error (after, left)) :
    (Undone world after hierarchy left ↔ ¬opening.Drifts (world, hierarchy)) ∧
      (¬opening.Drifts (world, hierarchy) →
        (∀ directory, opening.Visits (world, hierarchy) directory →
          ¬world.files.NamesLink (Area.lockFile directory)) →
        FilesUndone world.files after.files
          {directory | opening.Locks (world, hierarchy) directory}) := by
  refine ⟨⟨?_, ?_⟩, ?_⟩
  · rintro undone ⟨isChild, real, drifts⟩
    obtain ⟨kind, cancel, write, depth, path⟩ := opening
    obtain rfl : kind = .openChild := isChild
    obtain ⟨now, was⟩ := drifts.isClaimed (discard_error refused)
    rw [undone.isClaimed_eq, was] at now
    exact absurd now Bool.false_ne_true
  · intro steady
    obtain ⟨left_eq, claims_iff, -⟩ := restores_of_not_drifts wellFormed distinct refused steady
    refine ⟨left_eq, ?_⟩
    intro directory
    rw [Bool.eq_iff_iff, World.isClaimed_iff, World.isClaimed_iff]
    exact claims_iff directory.components
  · intro steady noLink
    obtain ⟨-, -, files⟩ := restores_of_not_drifts wellFormed distinct refused steady
    apply filesUndone_of_borrowed
    apply files
    intro start descends
    refine ⟨?_, ?_⟩
    · intro directory visits
      exact noLink directory ⟨start, descends, visits⟩
    · intro directory locks
      exact ⟨directory, ⟨start, descends, locks⟩, rfl⟩

/-- A working copy with links: `t` leads back to the top and `s` to a versioned directory. The top is
locked. -/
def linkedCopy : World Unit where
  files := {
    nodes := [(["wc"], .directory), (["wc", ".svn"], .directory),
      (["wc", ".svn", "entries"], .file 0), (["wc", "sub"], .directory),
      (["wc", "sub", ".svn"], .directory), (["wc", "sub", ".svn", "entries"], .file 1),
      (["wc", "s"], .link "sub"), (["wc", "t"], .link ".")]
    contents := []
    nextFile := 2
    held := []
    current := [] }
  claims := [[.root, .name "wc"]]
  environment := default
  caller := ()

/-- The hierarchy that has locked the top. -/
def linkedHierarchy : Hierarchy where
  root := ⟨"/wc"⟩
  locks := [⟨⟨"/wc"⟩, false, .empty, some ⟨⟨"/wc"⟩, none⟩⟩]

/-- Opening a child through one link more than a path may lead through. -/
def linkedOpening : Opening Unit where
  kind := .openChild
  cancel := none
  write := true
  depth := .empty
  path := ⟨"/wc/" ++ String.join (List.replicate FileSystem.maxLinks "t/") ++ "s"⟩

theorem wellFormed_linkedCopy : linkedCopy.files.WellFormed := by decide +kernel

/-- A child behind too many links is locked, and the lock is kept when the operation fails. -/
theorem failure_undone_iff_of_linked_child :
    ∃ after left error, linkedOpening.run (linkedCopy, linkedHierarchy) = .error error (after, left) ∧
      ¬Undone linkedCopy after linkedHierarchy left := by
  obtain ⟨error, refused⟩ := error_of_not_yields linkedOpening.run (linkedCopy, linkedHierarchy)
    (by decide +kernel)
  rcases last_eq : stateAfter linkedOpening.run (linkedCopy, linkedHierarchy) with ⟨after, left⟩
  rw [last_eq] at refused
  refine ⟨after, left, error, refused, ?_⟩
  intro undone
  apply (failure_undone_iff wellFormed_linkedCopy (by decide) refused).1.mp undone
  obtain ⟨locks, locked, -⟩ := ok_of_yields
    (AreaLock.lockTree none true .empty ⟨"/wc/s"⟩) linkedCopy (fun _ => true) (by decide +kernel)
  refine ⟨rfl, ⟨"/wc/s"⟩, by decide +kernel, ?_, ⟨by decide +kernel, by decide, by decide +kernel⟩,
    locks, _, locked⟩
  intro again canonical
  have steady : linkedCopy.files.canonical ⟨"/wc/s"⟩ = .ok ⟨"/wc/sub"⟩ := by decide +kernel
  rw [steady, Except.ok.injEq] at canonical
  rw [← canonical]
  decide +kernel

end Opening

end Checkout
