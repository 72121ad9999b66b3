import Checkout.Proofs.Lock.Rooted
import Checkout.Proofs.Process.Exclusive

/-!
# Closing a hierarchy of a process

Whatever a process runs and whatever happens to the files meanwhile, the hierarchies it holds are
rooted. Closing one looks its root up in the file system as it is then. That releases everything if the
root is still where it was, and leaves at least the root's lock open otherwise.
-/

namespace Checkout

variable {σ : Type}

theorem Creation.keepsFiles (creation : Creation σ) : KeepsFiles creation.run := by
  cases creation with
  | openAt cancel write depth path => exact Hierarchy.keepsFiles_openAt.map
  | probeOpen cancel write depth path => exact Hierarchy.keepsFiles_probeOpen.map
  | openAnchor cancel write depth path => exact Anchored.keepsFiles_openAnchor.map
  | lockDirectory directory write => exact (DirectoryLock.keepsFiles_acquire directory).map

theorem Creation.rooted {creation : Creation σ} {world after : World σ} {holder : Holder}
    {hierarchy : Hierarchy} (wellFormed : world.files.WellFormed)
    (ran : creation.run world = .ok holder after) (inside : holder.hierarchy? = some hierarchy) :
    hierarchy.Rooted := by
  cases creation with
  | openAt cancel write depth path =>
      obtain ⟨made, opened, rfl⟩ := Action.map_eq_ok.mp ran
      obtain rfl := Option.some.inj inside
      exact Hierarchy.rooted_openAt wellFormed opened
  | probeOpen cancel write depth path =>
      obtain ⟨made, opened, rfl⟩ := Action.map_eq_ok.mp ran
      obtain rfl := Option.some.inj inside
      exact Hierarchy.rooted_probeOpen wellFormed opened
  | openAnchor cancel write depth path =>
      obtain ⟨made, opened, rfl⟩ := Action.map_eq_ok.mp ran
      obtain rfl := Option.some.inj inside
      exact Anchored.rooted_openAnchor wellFormed opened
  | lockDirectory directory write =>
      obtain ⟨made, acquired, rfl⟩ := Action.map_eq_ok.mp ran
      simp [Holder.hierarchy?] at inside

theorem Operation.keepsFiles (operation : Operation σ) : KeepsFilesWith operation.run := by
  cases operation with
  | openChild cancel write depth path => exact Hierarchy.keepsFiles_openChild.discard
  | probeTry cancel write depth path => exact Hierarchy.keepsFiles_probeTry.discard
  | closeLock path => exact Hierarchy.keepsFiles_closeLock path
  | close => exact Hierarchy.keepsFiles_close

theorem Operation.rooted (operation : Operation σ) {world : World σ} {hierarchy : Hierarchy}
    (rooted : hierarchy.Rooted) (wellFormed : world.files.WellFormed) :
    (stateAfter operation.run (world, hierarchy)).2.Rooted := by
  cases operation with
  | openChild cancel write depth path =>
      rw [run, stateAfter_discard]
      exact rooted.openChild wellFormed cancel write depth path
  | probeTry cancel write depth path =>
      rw [run, stateAfter_discard]
      exact rooted.probeTry wellFormed cancel write depth path
  | closeLock path => exact rooted.closeLock path
  | close => exact rooted.close

theorem Holder.keepsFiles_drop (holder : Holder) : KeepsFiles (σ := σ) holder.drop := by
  cases holder with
  | hierarchy hierarchy => exact hierarchy.keepsFiles_drop
  | anchored anchored => exact anchored.hierarchy.keepsFiles_drop
  | directory lock =>
      exact Action.preserves_ignoringErrors (DirectoryLock.keepsFiles_release lock)

theorem Session.wellFormed_closeAfter {world : World σ} (wellFormed : world.files.WellFormed)
    (hierarchy : Hierarchy) : (closeAfter hierarchy world).2.files.WellFormed := by
  have closed : (closedFirst hierarchy world).1.files.WellFormed := by
    rw [closedFirst]
    split
    · exact Hierarchy.keepsFiles_close (world, hierarchy) wellFormed
    · exact wellFormed
  rw [snd_closeAfter]
  exact (closedFirst hierarchy world).2.keepsFiles_drop _ closed

namespace Process

/-- The files are well-formed, and every hierarchy has its locks under its root. -/
structure Settled (process : Process σ) : Prop where
  wellFormed : process.world.files.WellFormed
  rooted : ∀ holder ∈ process.holders, ∀ hierarchy, holder.hierarchy? = some hierarchy →
    hierarchy.Rooted

variable {world after : World σ} {holders : Multiset Holder}

theorem Settled.replace {old new : Holder} (settled : Settled ⟨world, old ::ₘ holders⟩)
    (wellFormed : after.files.WellFormed)
    (rooted : ∀ hierarchy, new.hierarchy? = some hierarchy → hierarchy.Rooted) :
    Settled ⟨after, new ::ₘ holders⟩ := by
  refine ⟨wellFormed, ?_⟩
  intro holder live
  rcases Multiset.mem_cons.mp live with rfl | rest
  · exact rooted
  · exact settled.rooted holder (Multiset.mem_cons_of_mem rest)

theorem Settled.without {holder : Holder} (settled : Settled ⟨world, holder ::ₘ holders⟩)
    (wellFormed : after.files.WellFormed) : Settled ⟨after, holders⟩ :=
  ⟨wellFormed, fun other rest => settled.rooted other (Multiset.mem_cons_of_mem rest)⟩

theorem Settled.step {before now : Process σ} (settled : Settled before)
    (step : Step FileSystem.WellFormed before now) : Settled now := by
  cases step with
  | outside files environment caller possibleFiles => exact ⟨possibleFiles, settled.rooted⟩
  | created creation ran =>
      refine ⟨creation.keepsFiles.ok settled.wellFormed ran, ?_⟩
      intro holder live hierarchy inside
      rcases Multiset.mem_cons.mp live with rfl | rest
      · exact Creation.rooted settled.wellFormed ran inside
      · exact settled.rooted holder rest hierarchy inside
  | refused creation ran =>
      exact ⟨creation.keepsFiles.error settled.wellFormed ran, settled.rooted⟩
  | used operation ran =>
      rename_i world after holders before now
      have before_rooted := settled.rooted _ (Multiset.mem_cons_self _ _) before rfl
      have kept := operation.keepsFiles (world, before) settled.wellFormed
      have rooted := operation.rooted before_rooted settled.wellFormed
      rw [ran] at kept rooted
      apply settled.replace kept
      intro hierarchy inside
      exact Option.some.inj inside ▸ rooted
  | usedAnchored operation ran =>
      rename_i world after holders before now target
      have before_rooted := settled.rooted _ (Multiset.mem_cons_self _ _) before rfl
      have kept := operation.keepsFiles (world, before) settled.wellFormed
      have rooted := operation.rooted before_rooted settled.wellFormed
      rw [ran] at kept rooted
      apply settled.replace kept
      intro hierarchy inside
      exact Option.some.inj inside ▸ rooted
  | intoHierarchy =>
      apply settled.replace settled.wellFormed
      intro hierarchy inside
      exact settled.rooted _ (Multiset.mem_cons_self _ _) hierarchy inside
  | dropped =>
      rename_i holder
      exact settled.without (holder.keepsFiles_drop _ settled.wellFormed)
  | released =>
      exact settled.without (DirectoryLock.keepsFiles_release _ _ settled.wellFormed)
  | cleaned path => exact ⟨Cleanup.keepsFiles_clean path _ settled.wellFormed, settled.rooted⟩

theorem Settled.run {start last : Process σ} (settled : Settled start)
    (run : Run FileSystem.WellFormed start last) : Settled last := by
  induction run with
  | refl => exact settled
  | step before step ih => exact (ih settled).step step
  | locked before ran inside left ihBefore ihInside =>
      have opened := (ihBefore settled).step
        (.created (.probeOpen _ _ _ _) (Action.map_eq_ok.mpr ⟨_, ran, rfl⟩))
      have ended := ihInside opened
      rw [Session.stateAfter_withLocked ran] at left
      subst left
      exact ended.without (Session.wellFormed_closeAfter ended.wellFormed _)
  | lockedRefused before ran left ihBefore =>
      rw [Session.stateAfter_withLocked_refused ran] at left
      subst left
      exact (ihBefore settled).step
        (.refused (.probeOpen _ _ _ _) (Action.map_eq_error.mpr ran))

/--
Closing a hierarchy whose root is open leaves none of its locks open and none of the directories they
held claimed, if and only if the canonical form of the root is still the root in the file system as it
has become.
-/
theorem close_releases_all_iff {start : World σ} {process : Process σ}
    (wellFormed : start.files.WellFormed) (free : start.claims = [])
    (run : Run FileSystem.WellFormed ⟨start, 0⟩ process) {holder : Holder}
    (live : holder ∈ process.holders) {hierarchy : Hierarchy}
    (inside : holder.hierarchy? = some hierarchy) (rootOpen : hierarchy.isRootOpen = true) :
    ((stateAfter Hierarchy.close (process.world, hierarchy)).2.openLocks = [] ∧
      ∀ lock ∈ hierarchy.openLocks,
        lock.key ∉ (stateAfter Hierarchy.close (process.world, hierarchy)).1.claims) ↔
    ∃ real, process.world.files.canonical hierarchy.root = .ok real ∧
      real.same hierarchy.root = true := by
  have unheld : Exclusive (⟨start, 0⟩ : Process σ) :=
    ⟨by simp [claimed, free], by simp [free], by simp⟩
  obtain ⟨others, accounts⟩ := (unheld.run run).accounts_of_mem live inside
  have settled : Settled (⟨start, 0⟩ : Process σ) := ⟨wellFormed, by simp⟩
  have rooted := (settled.run run).rooted holder live hierarchy inside
  constructor
  · rintro ⟨allClosed, -⟩
    by_contra moved
    refine rooted.root_stays_open rootOpen ?_ allClosed
    intro real canonical
    cases same : real.same hierarchy.root with
    | false => rfl
    | true => exact absurd ⟨real, canonical, same⟩ moved
  · rintro ⟨real, canonical, same⟩
    exact rooted.close_all accounts rootOpen canonical same

theorem wellFormed_singleCopy : singleCopy.files.WellFormed := by decide +kernel

/-- The files after the working copy was removed and its name given to a link to another directory. -/
def movedCopy : FileSystem where
  nodes := [(["other"], .directory), (["wc"], .link "other")]
  contents := []
  nextFile := 2
  held := [1]
  current := []

theorem wellFormed_movedCopy : movedCopy.WellFormed := by decide +kernel

/-- A root that became a link to another directory is not found, and its hierarchy stays locked. -/
theorem close_releases_all_iff_of_moved_root :
    ∃ (process : Process Unit) (hierarchy : Hierarchy),
      Run FileSystem.WellFormed ⟨singleCopy, 0⟩ process ∧ process.world.files = movedCopy ∧
      .hierarchy hierarchy ∈ process.holders ∧ hierarchy.isRootOpen = true ∧
      ¬((stateAfter Hierarchy.close (process.world, hierarchy)).2.openLocks = [] ∧
        ∀ lock ∈ hierarchy.openLocks,
          lock.key ∉ (stateAfter Hierarchy.close (process.world, hierarchy)).1.claims) := by
  obtain ⟨hierarchy, opened, checked⟩ := ok_of_yields
    (Hierarchy.openAt none true .infinity ⟨"/wc"⟩) singleCopy
    (fun made => made.root = ⟨"/wc"⟩ && made.isRootOpen) (by decide +kernel)
  rw [Bool.and_eq_true, decide_eq_true_eq] at checked
  let locked := stateAfter (Hierarchy.openAt none true .infinity ⟨"/wc"⟩) singleCopy
  have run : Run FileSystem.WellFormed ⟨singleCopy, 0⟩
      ⟨{ locked with files := movedCopy }, .hierarchy hierarchy ::ₘ 0⟩ :=
    ((Run.refl _).step (.created (.openAt none true .infinity ⟨"/wc"⟩)
      (Action.map_eq_ok.mpr ⟨hierarchy, opened, rfl⟩))).step
        (.outside movedCopy locked.environment locked.caller wellFormed_movedCopy)
  have live : Holder.hierarchy hierarchy ∈ (Holder.hierarchy hierarchy ::ₘ 0 : Multiset Holder) :=
    Multiset.mem_cons_self _ _
  refine ⟨_, hierarchy, run, rfl, live, checked.2, ?_⟩
  intro released
  obtain ⟨real, canonical, same⟩ :=
    (close_releases_all_iff wellFormed_singleCopy rfl run live rfl checked.2).mp released
  have moved : movedCopy.canonical ⟨"/wc"⟩ = .ok ⟨"/other"⟩ := by decide +kernel
  rw [checked.1] at canonical same
  rw [moved, Except.ok.injEq] at canonical
  subst canonical
  exact absurd same (by decide +kernel)

end Process

end Checkout
