import Checkout.Proofs.Process.Basic

/-!
# Exclusive claims

Whatever a process runs, each claimed directory has exactly one live holder, and what a holder has open
is claimed. The invariant is that the claims are those of the holders, each once. One lemma for each
kind of operation says that it is kept, and `Exclusive.run` that every run keeps it.
-/

namespace Checkout

variable {σ : Type}

theorem stateAfter_discard {ε τ α : Type} (action : EStateM ε τ α) (state : τ) :
    stateAfter (discard action) state = stateAfter action state := by
  simp only [stateAfter, Action.discard_apply]
  cases action state <;> rfl

/-! ## Single operations -/

/-- The records of a holder are those of locks on their own directories. -/
def Holder.Sound (holder : Holder) : Prop :=
  ∀ hierarchy, holder.hierarchy? = some hierarchy → ∀ lock ∈ hierarchy.locks, lock.Sound

theorem Holder.claimed_eq {holder : Holder} {hierarchy : Hierarchy}
    (inside : holder.hierarchy? = some hierarchy) : holder.claimed = hierarchy.claimed := by
  cases holder with
  | hierarchy opened => rw [← Option.some.inj inside, claimed]
  | anchored opened => rw [← Option.some.inj inside, claimed]
  | directory lock => simp [hierarchy?] at inside

/-- A new holder claims what it holds, and nothing else changes hands. -/
theorem Creation.claims_ok {creation : Creation σ} {world after : World σ} {holder : Holder}
    (distinct : world.claims.Nodup) (ran : creation.run world = .ok holder after) :
    (after.claims : Multiset (List Component)) = holder.claimed + world.claims ∧
      after.claims.Nodup ∧ holder.Sound := by
  have of_accounts {opened : Hierarchy} (accounts : Hierarchy.Accounts world.claims (after, opened))
      (claimed : holder.claimed = opened.claimed) (inside : holder.hierarchy? = some opened) :
      (after.claims : Multiset (List Component)) = holder.claimed + world.claims ∧
        after.claims.Nodup ∧ holder.Sound := by
    refine ⟨by rw [claimed]; exact accounts.claims_eq, accounts.distinct, ?_⟩
    intro other same
    rw [inside, Option.some.injEq] at same
    exact same ▸ accounts.sound
  cases creation with
  | openAt cancel write depth path =>
      obtain ⟨hierarchy, opened, rfl⟩ := Action.map_eq_ok.mp ran
      exact of_accounts (Hierarchy.accounts_openAt distinct opened) rfl rfl
  | probeOpen cancel write depth path =>
      obtain ⟨hierarchy, opened, rfl⟩ := Action.map_eq_ok.mp ran
      exact of_accounts (Hierarchy.accounts_probeOpen distinct opened) rfl rfl
  | openAnchor cancel write depth path =>
      obtain ⟨anchored, opened, rfl⟩ := Action.map_eq_ok.mp ran
      exact of_accounts (Anchored.accounts_openAnchor distinct opened) rfl rfl
  | lockDirectory directory write =>
      obtain ⟨lock, acquired, rfl⟩ := Action.map_eq_ok.mp ran
      obtain ⟨unclaimed, isFor, claims_eq⟩ := DirectoryLock.acquire_ok acquired
      refine ⟨?_, ?_, ?_⟩
      · simp [claims_eq, Holder.claimed, isFor.directory_eq]
      · rw [claims_eq]
        exact List.nodup_cons.mpr ⟨unclaimed, distinct⟩
      · intro hierarchy same
        simp [Holder.hierarchy?] at same

/-- An operation that makes no holder leaves the claims as they were. -/
theorem Creation.claims_error {creation : Creation σ} {world after : World σ} {error : Error}
    (distinct : world.claims.Nodup) (ran : creation.run world = .error error after) :
    (after.claims : Multiset (List Component)) = world.claims ∧ after.claims.Nodup := by
  have unchanged {failed : World σ} (same : failed.claims = world.claims) :
      (failed.claims : Multiset (List Component)) = world.claims ∧ failed.claims.Nodup :=
    ⟨by rw [same], by rw [same]; exact distinct⟩
  cases creation with
  | openAt cancel write depth path =>
      exact unchanged (Hierarchy.claims_openAt_error (Action.map_eq_error.mp ran))
  | probeOpen cancel write depth path =>
      exact unchanged (Hierarchy.claims_probeOpen_error (Action.map_eq_error.mp ran))
  | openAnchor cancel write depth path =>
      exact Anchored.claims_openAnchor_error distinct (Action.map_eq_error.mp ran)
  | lockDirectory directory write =>
      exact unchanged (DirectoryLock.acquire_error (Action.map_eq_error.mp ran))

theorem Operation.accounts (operation : Operation σ) {others : Multiset (List Component)}
    {world : World σ} {hierarchy : Hierarchy}
    (accounts : Hierarchy.Accounts others (world, hierarchy)) :
    Hierarchy.Accounts others (stateAfter operation.run (world, hierarchy)) := by
  cases operation with
  | openChild cancel write depth path =>
      rw [run, stateAfter_discard]
      exact accounts.openChild cancel write depth path
  | probeTry cancel write depth path =>
      rw [run, stateAfter_discard]
      exact accounts.probeTry cancel write depth path
  | closeLock path => exact accounts.closeLock path
  | close => exact accounts.close

theorem DirectoryLock.stateAfter_drop (lock : DirectoryLock) (world : World σ) :
    stateAfter lock.drop world = stateAfter lock.release world := by
  cases released : lock.release world <;>
    simp [drop, Action.ignoringErrors, Action.outcome, stateAfter, released]

theorem DirectoryLock.claims_release (lock : DirectoryLock) (world : World σ) :
    (stateAfter lock.release world).claims =
      world.claims.filter (· ≠ lock.directory.components) := by
  rw [stateAfter_release]
  rfl

namespace Cleanup

theorem claims_cleanDirectory (directory : Path) (world : World σ) :
    (stateAfter (cleanDirectory directory) world).claims = world.claims := by
  simp only [stateAfter, cleanDirectory, Action.bind_apply, Action.get_apply, Action.ite_apply]
  by_cases stale : (world.files.leadsSomewhere (Area.lockFile directory) &&
      !world.isClaimed directory) = true
  · rw [if_pos stale]
    cases removed : FileLock.removeStale (Area.lockFile directory) world.files <;>
      simp [Action.ofFiles, removed]
  · rw [if_neg stale]
    rfl

theorem claims_cleanPending (bound : Nat) (pending : List Path) (world : World σ) :
    (stateAfter (cleanPending bound pending) world).claims = world.claims := by
  induction bound generalizing pending world with
  | zero => rfl
  | succ bound ih =>
      cases pending with
      | nil => rfl
      | cons directory pending =>
          have first := claims_cleanDirectory directory world
          cases cleaned : cleanDirectory directory world with
          | error error after =>
              rw [stateAfter_of_error cleaned] at first
              simpa [cleanPending, stateAfter, cleaned] using first
          | ok stale after =>
              rw [stateAfter_of_ok cleaned] at first
              cases listed : after.files.versionedChildren directory with
              | error error =>
                  simpa [cleanPending, stateAfter, cleaned, Action.ofLook, listed] using first
              | ok children =>
                  have others := ih (children ++ pending) after
                  cases rest : cleanPending bound (children ++ pending) after with
                  | error error last =>
                      rw [stateAfter_of_error rest] at others
                      simpa [cleanPending, stateAfter, cleaned, Action.ofLook, listed, rest]
                        using others.trans first
                  | ok found last =>
                      rw [stateAfter_of_ok rest] at others
                      simpa [cleanPending, stateAfter, cleaned, Action.ofLook, listed, rest]
                        using others.trans first

/-- Cleaning up touches no claim. -/
theorem claims_clean (path : Path) (world : World σ) :
    (stateAfter (clean path) world).claims = world.claims := by
  cases canonical : world.files.canonical path with
  | error error => simp [clean, stateAfter, Action.ofOutcome, canonical]
  | ok real =>
      by_cases versioned : world.files.isVersioned real = true
      · have cleaned := claims_cleanPending (world.files.nodes.length + 1) [real] world
        simpa [clean, stateAfter, Action.ofOutcome, canonical, versioned] using cleaned
      · simp [clean, stateAfter, Action.ofOutcome, canonical, versioned]

end Cleanup

namespace Session

/-- The hierarchy that the body of an operation has left, and the world, before the hierarchy is dropped. -/
def closedFirst (hierarchy : Hierarchy) (world : World σ) : World σ × Hierarchy :=
  if hierarchy.isRootOpen then stateAfter Hierarchy.close (world, hierarchy) else (world, hierarchy)

/-- After the body of an operation its hierarchy is dropped, and closed before that if its root is open. -/
theorem snd_closeAfter (hierarchy : Hierarchy) (world : World σ) :
    (closeAfter hierarchy world).2 =
      stateAfter (closedFirst hierarchy world).2.drop (closedFirst hierarchy world).1 := by
  cases rootOpen : hierarchy.isRootOpen with
  | false =>
      simp only [closeAfter, closedFirst, rootOpen, Bool.false_eq_true, if_false]
      cases gave : hierarchy.drop world <;> simp [stateAfter, gave]
  | true =>
      simp only [closeAfter, closedFirst, rootOpen, if_true]
      cases closing : Hierarchy.close (world, hierarchy) with
      | ok _ state =>
          rw [stateAfter_of_ok closing]
          cases gave : state.2.drop state.1 <;> simp [stateAfter, gave]
      | error error state =>
          rw [stateAfter_of_error closing]
          cases gave : state.2.drop state.1 <;> simp [stateAfter, gave]

/-- After the body of an operation no claim of its hierarchy is left. -/
theorem claims_closeAfter {others : Multiset (List Component)} {world : World σ}
    {hierarchy : Hierarchy} (accounts : Hierarchy.Accounts others (world, hierarchy)) :
    ((closeAfter hierarchy world).2.claims : Multiset (List Component)) = others ∧
      (closeAfter hierarchy world).2.claims.Nodup := by
  have kept : Hierarchy.Accounts others (closedFirst hierarchy world) := by
    rw [closedFirst]
    split
    · exact accounts.close
    · exact accounts
  rw [snd_closeAfter]
  exact kept.claims_drop

/-- The world that an operation with locks leaves is the one in which the body's hierarchy is closed. -/
theorem stateAfter_withLocked {α : Type} {path : Path} {write : Bool} {depth : Depth}
    {body : LockedAction σ α} {world opened : World σ} {session : Session σ}
    {hierarchy : Hierarchy}
    (ran : Hierarchy.probeOpen session.hooks.cancel write depth path world =
      .ok hierarchy opened) :
    (stateAfter (withLocked path write depth body) (world, session)).1 =
      (closeAfter (stateAfter body (opened, session, hierarchy)).2.2
        (stateAfter body (opened, session, hierarchy)).1).2 := by
  cases inside : body (opened, session, hierarchy) with
  | ok value state =>
      rw [stateAfter_of_ok inside]
      cases closed : closeAfter state.2.2 state.1 with
      | mk failure last =>
          cases failure <;> simp [stateAfter, withLocked, ran, inside, closed]
  | error error state =>
      rw [stateAfter_of_error inside]
      simp [stateAfter, withLocked, ran, inside]

theorem stateAfter_withLocked_refused {α : Type} {path : Path} {write : Bool} {depth : Depth}
    {body : LockedAction σ α} {world failed : World σ} {session : Session σ} {error : Error}
    (ran : Hierarchy.probeOpen session.hooks.cancel write depth path world =
      .error error failed) :
    (stateAfter (withLocked path write depth body) (world, session)).1 = failed := by
  simp [stateAfter, withLocked, ran]

end Session

/-! ## Runs -/

namespace Process

/-- The claims of a process are those of its holders, each once. -/
structure Exclusive (process : Process σ) : Prop where
  claims_eq : (process.world.claims : Multiset (List Component)) = process.claimed
  distinct : process.world.claims.Nodup
  sound : ∀ holder ∈ process.holders, holder.Sound

variable {possible : FileSystem → Prop} {world after : World σ} {holders : Multiset Holder}

theorem claimed_cons (world : World σ) (holder : Holder) (holders : Multiset Holder) :
    (⟨world, holder ::ₘ holders⟩ : Process σ).claimed =
      holder.claimed + holders.bind Holder.claimed :=
  Multiset.cons_bind _ _ _

theorem Exclusive.start (free : world.claims = []) : Exclusive ⟨world, 0⟩ :=
  ⟨by simp [claimed, free], by simp [free], by simp⟩

/-- In an exclusive process each hierarchy accounts for its share of the claims. -/
theorem Exclusive.accounts {holder : Holder} {hierarchy : Hierarchy}
    (exclusive : Exclusive ⟨world, holder ::ₘ holders⟩)
    (inside : holder.hierarchy? = some hierarchy) (claimed : holder.claimed = hierarchy.claimed) :
    Hierarchy.Accounts (holders.bind Holder.claimed) (world, hierarchy) where
  claims_eq := by
    rw [← claimed, ← claimed_cons world]
    exact exclusive.claims_eq
  distinct := exclusive.distinct
  sound := exclusive.sound holder (Multiset.mem_cons_self _ _) hierarchy inside

theorem Exclusive.of_accounts {old holder : Holder} {hierarchy : Hierarchy}
    (exclusive : Exclusive ⟨world, old ::ₘ holders⟩)
    (accounts : Hierarchy.Accounts (holders.bind Holder.claimed) (after, hierarchy))
    (inside : holder.hierarchy? = some hierarchy) (claimed : holder.claimed = hierarchy.claimed) :
    Exclusive ⟨after, holder ::ₘ holders⟩ where
  claims_eq := by
    rw [claimed_cons, claimed]
    exact accounts.claims_eq
  distinct := accounts.distinct
  sound := by
    intro other other_mem
    rcases Multiset.mem_cons.mp other_mem with rfl | rest
    · intro same same_eq
      rw [inside, Option.some.injEq] at same_eq
      exact same_eq ▸ accounts.sound
    · exact exclusive.sound other (Multiset.mem_cons_of_mem rest)

/-- A holder is gone, and so are its claims. -/
theorem Exclusive.without {holder : Holder} (exclusive : Exclusive ⟨world, holder ::ₘ holders⟩)
    (claims_eq : (after.claims : Multiset (List Component)) = holders.bind Holder.claimed)
    (distinct : after.claims.Nodup) : Exclusive ⟨after, holders⟩ where
  claims_eq := claims_eq
  distinct := distinct
  sound := fun other rest => exclusive.sound other (Multiset.mem_cons_of_mem rest)

theorem Exclusive.release {lock : DirectoryLock}
    (exclusive : Exclusive ⟨world, .directory lock ::ₘ holders⟩) :
    Exclusive ⟨stateAfter lock.release world, holders⟩ := by
  have claims_eq := DirectoryLock.claims_release lock world
  have split := exclusive.claims_eq
  rw [claimed_cons] at split
  apply exclusive.without
  · have filtered : world.claims.filter (· ≠ lock.directory.components) =
        world.claims.filter (· ∉ [lock.directory.components]) := by simp
    rw [claims_eq, filtered]
    apply Hierarchy.claims_without exclusive.distinct split
    simp [Holder.claimed]
  · rw [claims_eq]
    exact exclusive.distinct.filter _

theorem Exclusive.drop {holder : Holder} (exclusive : Exclusive ⟨world, holder ::ₘ holders⟩) :
    Exclusive ⟨stateAfter holder.drop world, holders⟩ := by
  cases holder with
  | hierarchy hierarchy =>
      have inside : (Holder.hierarchy hierarchy).hierarchy? = some hierarchy := rfl
      have given := (exclusive.accounts inside rfl).claims_drop
      exact exclusive.without given.1 given.2
  | anchored anchored =>
      have inside : (Holder.anchored anchored).hierarchy? = some anchored.hierarchy := rfl
      have given := (exclusive.accounts inside rfl).claims_drop
      exact exclusive.without given.1 given.2
  | directory lock =>
      rw [Holder.drop, DirectoryLock.stateAfter_drop]
      exact exclusive.release

/-- Every operation keeps the claims exclusive. -/
theorem Exclusive.step {before now : Process σ} (exclusive : Exclusive before)
    (step : Step possible before now) : Exclusive now := by
  cases step with
  | outside files environment caller possibleFiles =>
      exact ⟨exclusive.claims_eq, exclusive.distinct, exclusive.sound⟩
  | created creation ran =>
      obtain ⟨claims_eq, distinct, sound⟩ := Creation.claims_ok exclusive.distinct ran
      refine ⟨?_, distinct, ?_⟩
      · rw [claimed_cons, claims_eq, exclusive.claims_eq]
        rfl
      · intro holder holder_mem
        rcases Multiset.mem_cons.mp holder_mem with rfl | rest
        · exact sound
        · exact exclusive.sound holder rest
  | refused creation ran =>
      obtain ⟨claims_eq, distinct⟩ := Creation.claims_error exclusive.distinct ran
      exact ⟨claims_eq.trans exclusive.claims_eq, distinct, exclusive.sound⟩
  | used operation ran =>
      have kept := operation.accounts (exclusive.accounts rfl rfl)
      rw [ran] at kept
      exact exclusive.of_accounts kept rfl rfl
  | usedAnchored operation ran =>
      have kept := operation.accounts (exclusive.accounts rfl rfl)
      rw [ran] at kept
      exact exclusive.of_accounts kept rfl rfl
  | intoHierarchy => exact exclusive.of_accounts (exclusive.accounts rfl rfl) rfl rfl
  | dropped => exact exclusive.drop
  | released => exact exclusive.release
  | cleaned path =>
      have claims_eq := Cleanup.claims_clean path (σ := σ)
      refine ⟨?_, ?_, exclusive.sound⟩
      · simp only [claims_eq]
        exact exclusive.claims_eq
      · simp only [claims_eq]
        exact exclusive.distinct

/-- Every run keeps the claims exclusive. -/
theorem Exclusive.run {start last : Process σ} (exclusive : Exclusive start)
    (run : Run possible start last) : Exclusive last := by
  induction run with
  | refl => exact exclusive
  | step before step ih => exact (ih exclusive).step step
  | locked before ran inside left ihBefore ihInside =>
      have here := ihBefore exclusive
      have opened := here.step (.created (.probeOpen _ _ _ _)
        (Action.map_eq_ok.mpr ⟨_, ran, rfl⟩) : Step possible _ _)
      have ended := ihInside opened
      rw [Session.stateAfter_withLocked ran] at left
      have given := Session.claims_closeAfter (ended.accounts rfl rfl)
      rw [left] at given
      exact ended.without given.1 given.2
  | lockedRefused before ran left ihBefore =>
      rw [Session.stateAfter_withLocked_refused ran] at left
      subst left
      exact (ihBefore exclusive).step (.refused (.probeOpen _ _ _ _)
        (Action.map_eq_error.mpr ran) : Step possible _ _)

/-- A hierarchy of an exclusive process accounts for its share, whatever kind of holder it is in. -/
theorem Exclusive.accounts_of_mem {process : Process σ} (exclusive : Exclusive process)
    {holder : Holder} (live : holder ∈ process.holders) {hierarchy : Hierarchy}
    (inside : holder.hierarchy? = some hierarchy) :
    ∃ others, Hierarchy.Accounts others (process.world, hierarchy) := by
  obtain ⟨world, holders⟩ := process
  obtain ⟨rest, rfl⟩ := Multiset.exists_cons_of_mem live
  exact ⟨rest.bind Holder.claimed, exclusive.accounts inside (Holder.claimed_eq inside)⟩

/--
In every state that a process reaches from one without claims, a directory is claimed if and only if
exactly one live holder has it, and no directory is held twice. Each open lock of a hierarchy holds the
directory that it is on record for, and only a closed lock ever loses its place on record to a new one.
-/
theorem claimed_iff_held_once {start : World σ} {process : Process σ}
    (run : Run possible ⟨start, 0⟩ process) (free : start.claims = []) :
    (∀ directory : List Component,
      directory ∈ process.world.claims ↔ process.claimed.count directory = 1) ∧
    process.claimed.Nodup ∧
    ∀ holder ∈ process.holders, ∀ hierarchy, holder.hierarchy? = some hierarchy →
      ∀ lock ∈ hierarchy.locks,
        (∀ held, lock.held = some held → held.directory = lock.path) ∧
        ∀ cancel write depth path,
          (lock ∉ (stateAfter (Hierarchy.openChild cancel write depth path)
            (process.world, hierarchy)).2.locks → lock.isOpen = false) ∧
          (lock ∉ (stateAfter (Hierarchy.probeTry cancel write depth path)
            (process.world, hierarchy)).2.locks → lock.isOpen = false) := by
  have unheld : Exclusive (⟨start, 0⟩ : Process σ) :=
    ⟨by simp [claimed, free], by simp [free], by simp⟩
  have exclusive := unheld.run run
  have distinct : process.claimed.Nodup := by
    rw [← exclusive.claims_eq]
    exact exclusive.distinct
  refine ⟨?_, distinct, ?_⟩
  · intro directory
    rw [← Multiset.mem_coe, exclusive.claims_eq]
    constructor
    · exact Multiset.count_eq_one_of_mem distinct
    · intro once
      exact Multiset.count_pos.mp (by omega)
  · intro holder live hierarchy inside lock recorded
    obtain ⟨others, accounts⟩ := exclusive.accounts_of_mem live inside
    refine ⟨?_, ?_⟩
    · intro held held_eq
      exact (accounts.sound lock recorded held held_eq).directory_eq
    · intro cancel write depth path
      exact ⟨accounts.closed_of_openChild recorded, accounts.closed_of_probeTry recorded⟩

/-- A world with one versioned directory, which nobody has locked. -/
def singleCopy : World Unit where
  files := {
    nodes := [(["wc"], .directory), (["wc", ".svn"], .directory),
      (["wc", ".svn", "entries"], .file 0)]
    contents := []
    nextFile := 1
    held := []
    current := [] }
  claims := []
  environment := default
  caller := ()

/-- A hierarchy is opened, somebody else then fails to lock its root, and the claim is still one. -/
theorem claimed_iff_held_once_of_contention :
    ∃ process : Process Unit, Run (fun _ => True) ⟨singleCopy, 0⟩ process ∧ singleCopy.claims = [] ∧
      process.claimed.count [.root, .name "wc"] = 1 := by
  let opening : Creation Unit := .openAt none true .infinity ⟨"/wc"⟩
  let contending : Creation Unit := .lockDirectory ⟨"/wc"⟩ false
  obtain ⟨holder, opened, -⟩ := ok_of_yields opening.run singleCopy (fun _ => true)
    (by decide +kernel)
  obtain ⟨error, refused⟩ := error_of_not_yields contending.run
    (stateAfter opening.run singleCopy) (by decide +kernel)
  have run : Run (fun _ => True) ⟨singleCopy, 0⟩
      ⟨stateAfter contending.run (stateAfter opening.run singleCopy), holder ::ₘ 0⟩ :=
    ((Run.refl _).step (.created opening opened)).step (.refused contending refused)
  refine ⟨_, run, rfl, ?_⟩
  apply ((claimed_iff_held_once run rfl).1 [.root, .name "wc"]).mp
  change _ ∈ (stateAfter contending.run (stateAfter opening.run singleCopy)).claims
  decide +kernel

end Process

end Checkout
