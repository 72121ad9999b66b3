import Checkout.Proofs.Process.Closing
import Checkout.Proofs.Process.LockFiles

/-!
# Operations that run with locks

An operation that runs a body with a hierarchy open gives back whatever is locked through the hierarchy, by
itself or by the body, however the body ends. If nothing but locks changes the files meanwhile, and no lock
file is a link, then no lock file is left of what was locked for writing either. The body may call further
operations of this kind; all their hierarchies are in its scope.
-/

namespace Checkout

variable {σ : Type} {α : Type}

open Relation (ReflTransGen)
open FileSystem (Guarded Attends Custody custody_guarded)
open Hierarchy (probeOpen ProbeDescends KeptIn)
open Descent (lockFilesOf lockedFilesOf)

/-! ## What happens in the body -/

/-- The world while the body of an operation runs, the hierarchies of the operation and of those nested in it,
and the lock files that were locked through any of them. -/
structure Scope (σ : Type) where
  world : World σ
  opened : Multiset Hierarchy
  written : Set Path

namespace Scope

/-- What a body does that changes no files itself, and locks only through the hierarchies in its scope. -/
inductive Step (used : Set Path) : Scope σ → Scope σ → Prop where
  | aside {world : World σ} {opened : Multiset Hierarchy} {written : Set Path}
      (environment : Environment) (caller : σ) :
      Step used ⟨world, opened, written⟩ ⟨{ world with environment, caller }, opened, written⟩
  | operated {world after : World σ} {opened : Multiset Hierarchy} {written : Set Path}
      {before now : Hierarchy} (operation : Operation σ)
      (inUse : operation.lockFiles world before ⊆ used)
      (ran : stateAfter operation.run (world, before) = (after, now)) :
      Step used ⟨world, before ::ₘ opened, written⟩
        ⟨after, now ::ₘ opened, written ∪ operation.lockedFiles world before⟩
  /-- A nested operation opens its hierarchy, and its body begins. -/
  | entered {world after : World σ} {opened : Multiset Hierarchy} {written : Set Path}
      {hierarchy : Hierarchy} (cancel : Option (Cancellation σ)) (write : Bool) (depth : Depth)
      (path : Path) (inUse : lockFilesOf cancel write (ProbeDescends world depth path) ⊆ used)
      (ran : probeOpen cancel write depth path world = .ok hierarchy after) :
      Step used ⟨world, opened, written⟩ ⟨after, hierarchy ::ₘ opened,
        written ∪ lockedFilesOf cancel write (ProbeDescends world depth path)⟩
  | refused {world after : World σ} {opened : Multiset Hierarchy} {written : Set Path} {error : Error}
      (cancel : Option (Cancellation σ)) (write : Bool) (depth : Depth) (path : Path)
      (inUse : lockFilesOf cancel write (ProbeDescends world depth path) ⊆ used)
      (ran : probeOpen cancel write depth path world = .error error after) :
      Step used ⟨world, opened, written⟩
        ⟨after, opened, written ∪ lockedFilesOf cancel write (ProbeDescends world depth path)⟩
  /-- The body of a nested operation has ended. -/
  | ended {world : World σ} {opened : Multiset Hierarchy} {written : Set Path} {hierarchy : Hierarchy} :
      Step used ⟨world, hierarchy ::ₘ opened, written⟩
        ⟨(Session.closeAfter hierarchy world).2, opened, written⟩

/-- The live locks on files that come with the hierarchies. -/
def live (scope : Scope σ) : Multiset FileLock :=
  scope.opened.bind fun hierarchy => AreaLock.live hierarchy.openLocks

/-- The process that the scope is part of, with the holders from elsewhere. -/
def process (scope : Scope σ) (others : Multiset Holder) : Process σ :=
  ⟨scope.world, scope.opened.map Holder.hierarchy + others⟩

/-- The claims are those of the holders, nothing but files of live locks is where a file was locked, and files
were locked for all locks on record that are for writing. -/
structure Kept (used : Set Path) (others : Multiset Holder) (scope : Scope σ) : Prop where
  exclusive : (scope.process others).Exclusive
  files : Guarded used scope.world.files scope.live ∧
    Attends scope.world.files scope.live scope.written
  filed : ∀ hierarchy ∈ scope.opened, hierarchy.Records (AreaLock.FiledIn scope.written)

variable {used : Set Path} {others : Multiset Holder} {before now : Scope σ} {world : World σ}
  {opened : Multiset Hierarchy} {hierarchy : Hierarchy} {written : Set Path}

theorem live_cons (world : World σ) (hierarchy : Hierarchy) (opened : Multiset Hierarchy)
    (written : Set Path) : (⟨world, hierarchy ::ₘ opened, written⟩ : Scope σ).live =
      AreaLock.live hierarchy.openLocks + opened.bind fun other => AreaLock.live other.openLocks :=
  Multiset.cons_bind _ _ _

theorem process_cons (world : World σ) (hierarchy : Hierarchy) (opened : Multiset Hierarchy)
    (written : Set Path) : (⟨world, hierarchy ::ₘ opened, written⟩ : Scope σ).process others =
      ⟨world, .hierarchy hierarchy ::ₘ (opened.map Holder.hierarchy + others)⟩ := by
  rw [process, Multiset.map_cons, Multiset.cons_add]

/-- The scope of an operation begins when it has opened its hierarchy. -/
theorem Kept.start {after : World σ} {cancel : Option (Cancellation σ)} {write : Bool} {depth : Depth}
    {path : Path} (exclusive : Process.Exclusive ⟨world, others⟩)
    (wellFormed : world.files.WellFormed) (noLink : ∀ lockFile ∈ used, ¬world.files.NamesLink lockFile)
    (ran : probeOpen cancel write depth path world = .ok hierarchy after)
    (inUse : lockFilesOf cancel write (ProbeDescends world depth path) ⊆ used) :
    Kept used others
      ⟨after, {hierarchy}, lockedFilesOf cancel write (ProbeDescends world depth path)⟩ where
  exclusive := by
    have step : Process.Step (fun _ => True) ⟨world, others⟩ ⟨after, .hierarchy hierarchy ::ₘ others⟩ :=
      .created (.probeOpen cancel write depth path) (Action.map_eq_ok.mpr ⟨hierarchy, ran, rfl⟩)
    rw [process, Multiset.map_singleton, Multiset.singleton_add]
    exact exclusive.step step
  files := by
    have unlocked := Guarded.start wellFormed noLink
    have keptIn := Hierarchy.kept_probeOpen (custody_guarded used) unlocked inUse ran
    rw [KeptIn, add_zero] at keptIn
    rw [live, Multiset.singleton_bind]
    exact keptIn
  filed := by simpa using Hierarchy.filed_probeOpen ran

/-- In a kept scope each hierarchy accounts for its share of the claims. -/
theorem Kept.accounts (kept : Kept used others ⟨world, hierarchy ::ₘ opened, written⟩) :
    Hierarchy.Accounts ((opened.map Holder.hierarchy + others).bind Holder.claimed)
      (world, hierarchy) := by
  have exclusive := kept.exclusive
  rw [process_cons] at exclusive
  exact exclusive.accounts rfl rfl

theorem Kept.keptIn (kept : Kept used others ⟨world, hierarchy ::ₘ opened, written⟩) :
    KeptIn (fun files live => Guarded used files live ∧ Attends files live written)
      (opened.bind fun other => AreaLock.live other.openLocks) (world, hierarchy) := by
  have files := kept.files
  rw [live_cons] at files
  exact files

theorem exclusive_step (kept : Kept used others before) (step : Step used before now) :
    (now.process others).Exclusive := by
  have exclusive := kept.exclusive
  have taken {here there : Process σ} (step : Process.Step (fun _ => True) here there)
      (exclusive : here.Exclusive) : there.Exclusive := exclusive.step step
  cases step with
  | aside environment caller => exact ⟨exclusive.claims_eq, exclusive.distinct, exclusive.sound⟩
  | operated operation inUse ran =>
      rw [process_cons] at exclusive ⊢
      exact taken (.used operation ran) exclusive
  | entered cancel write depth path inUse ran =>
      rw [process_cons]
      exact taken (.created (.probeOpen cancel write depth path)
        (Action.map_eq_ok.mpr ⟨_, ran, rfl⟩)) exclusive
  | refused cancel write depth path inUse ran =>
      exact taken (.refused (.probeOpen cancel write depth path)
        (Action.map_eq_error.mpr ran)) exclusive
  | ended =>
      have given := Session.claims_closeAfter kept.accounts
      rw [process_cons] at exclusive
      exact exclusive.without given.1 given.2

theorem files_step (kept : Kept used others before) (step : Step used before now) :
    Guarded used now.world.files now.live ∧ Attends now.world.files now.live now.written := by
  have custody := (custody_guarded used).attending before.written
  have files := kept.files
  cases step with
  | aside environment caller => exact files
  | operated operation inUse ran =>
      have keptIn := operation.kept custody kept.accounts kept.keptIn inUse
      rw [ran] at keptIn
      rcases keptIn with ⟨⟨guarded, attends⟩, further⟩
      rw [live_cons]
      exact ⟨guarded, attends.union further⟩
  | entered cancel write depth path inUse ran =>
      rcases Hierarchy.kept_probeOpen custody files inUse ran with ⟨⟨guarded, attends⟩, further⟩
      rw [live_cons]
      exact ⟨guarded, attends.union further⟩
  | refused cancel write depth path inUse ran =>
      rcases Hierarchy.kept_probeOpen_error custody files inUse ran with ⟨⟨guarded, attends⟩, further⟩
      exact ⟨guarded, attends.union further⟩
  | ended => exact Session.kept_closeAfter custody kept.keptIn

theorem filed_mono {more : Set Path} (sub : written ⊆ more)
    (filed : ∀ hierarchy ∈ opened, hierarchy.Records (AreaLock.FiledIn written)) :
    ∀ hierarchy ∈ opened, hierarchy.Records (AreaLock.FiledIn more) :=
  fun hierarchy listed => (filed hierarchy listed).mono (AreaLock.FiledIn.mono sub)

theorem filed_step (kept : Kept used others before) (step : Step used before now) :
    ∀ hierarchy ∈ now.opened, hierarchy.Records (AreaLock.FiledIn now.written) := by
  have filed := kept.filed
  cases step with
  | aside environment caller => exact filed
  | @operated world after opened written before now operation inUse ran =>
      rw [Multiset.forall_mem_cons] at filed ⊢
      have records := operation.filed filed.1 world
      rw [ran] at records
      exact ⟨records, filed_mono Set.subset_union_left filed.2⟩
  | entered cancel write depth path inUse ran =>
      rw [Multiset.forall_mem_cons]
      exact ⟨(Hierarchy.filed_probeOpen ran).mono (AreaLock.FiledIn.mono Set.subset_union_right),
        filed_mono Set.subset_union_left filed⟩
  | refused cancel write depth path inUse ran => exact filed_mono Set.subset_union_left filed
  | ended => exact (Multiset.forall_mem_cons.mp filed).2

theorem Kept.run (kept : Kept used others before) (run : ReflTransGen (Step used) before now) :
    Kept used others now := by
  induction run with
  | refl => exact kept
  | tail _ step ih => exact ⟨exclusive_step ih step, files_step ih step, filed_step ih step⟩

end Scope

/-! ## What is left behind -/

namespace Session

variable {path : Path} {write : Bool} {depth : Depth} {body : LockedAction σ α}
  {world opened left : World σ} {session leftSession : Session σ} {hierarchy leftHierarchy : Hierarchy}
  {error : Error} {value : α}

theorem withLocked_refused
    (ran : probeOpen session.hooks.cancel write depth path world = .error error left) :
    withLocked path write depth body (world, session) = .error error (left, session) := by
  simp [withLocked, ran]

/-- An error of the body is the error of the operation. -/
theorem withLocked_of_error
    (ran : probeOpen session.hooks.cancel write depth path world = .ok hierarchy opened)
    (inside : body (opened, session, hierarchy) = .error error (left, leftSession, leftHierarchy)) :
    withLocked path write depth body (world, session) =
      .error error ((closeAfter leftHierarchy left).2, leftSession) := by
  simp [withLocked, ran, inside]

/-- An error of closing is one of the operation if the body has succeeded. -/
theorem withLocked_of_unclosed {closed : World σ × Hierarchy}
    (ran : probeOpen session.hooks.cancel write depth path world = .ok hierarchy opened)
    (inside : body (opened, session, hierarchy) = .ok value (left, leftSession, leftHierarchy))
    (rootOpen : leftHierarchy.isRootOpen = true)
    (closing : Hierarchy.close (left, leftHierarchy) = .error error closed) :
    withLocked path write depth body (world, session) =
      .error error ((closeAfter leftHierarchy left).2, leftSession) := by
  have failure : (closeAfter leftHierarchy left).1 = some error := by
    simp only [closeAfter, rootOpen, if_true, closing]
    cases closed.2.drop closed.1 <;> rfl
  cases after : closeAfter leftHierarchy left with
  | mk problem last =>
      rw [after] at failure
      subst failure
      simp [withLocked, ran, inside, after]

theorem withLocked_of_closed
    (ran : probeOpen session.hooks.cancel write depth path world = .ok hierarchy opened)
    (inside : body (opened, session, hierarchy) = .ok value (left, leftSession, leftHierarchy))
    (closes : leftHierarchy.isRootOpen = true →
      ∃ closed, Hierarchy.close (left, leftHierarchy) = .ok () closed) :
    withLocked path write depth body (world, session) =
      .ok value ((closeAfter leftHierarchy left).2, leftSession) := by
  have success : (closeAfter leftHierarchy left).1 = none := by
    cases rootOpen : leftHierarchy.isRootOpen with
    | false =>
        simp only [closeAfter, rootOpen, Bool.false_eq_true, if_false]
        cases leftHierarchy.drop left <;> rfl
    | true =>
        rcases closes rootOpen with ⟨closed, closing⟩
        simp only [closeAfter, rootOpen, if_true, closing]
        cases closed.2.drop closed.1 <;> rfl
  cases after : closeAfter leftHierarchy left with
  | mk problem last =>
      rw [after] at success
      subst success
      simp [withLocked, ran, inside, after]

/-- No lock file is left of what was locked in the scope of an operation. -/
theorem vacant_closeAfter {used written : Set Path} {holders : Multiset Holder}
    (exclusive : Process.Exclusive ⟨world, holders⟩) (wellFormed : world.files.WellFormed)
    (noLink : ∀ path ∈ used, ¬world.files.NamesLink path) {cancel : Option (Cancellation σ)}
    (ran : probeOpen cancel write depth path world = .ok hierarchy opened)
    (inUse : lockFilesOf cancel write (ProbeDescends world depth path) ⊆ used)
    (inside : ReflTransGen (Scope.Step used)
      ⟨opened, {hierarchy}, lockedFilesOf cancel write (ProbeDescends world depth path)⟩
      ⟨left, {leftHierarchy}, written⟩) :
    leftHierarchy.Records (AreaLock.FiledIn written) ∧
      ∀ lockFile ∈ written, (closeAfter leftHierarchy left).2.files.Vacant lockFile := by
  have ending := (Scope.Kept.start exclusive wellFormed noLink ran inUse).run inside
  have nothing := kept_closeAfter ((custody_guarded used).attending written) ending.keptIn
  refine ⟨ending.filed leftHierarchy (Multiset.mem_singleton_self _), ?_⟩
  intro lockFile lockFile_mem
  exact (nothing.2 lockFile lockFile_mem).vacant

/--
An operation with locks that cannot open its hierarchy reports the error, whatever its body is, and leaves the
claims as they were. Otherwise the error of the body comes before an error of closing, and that before the value
of the body. What is claimed in the end is what the other holders have, as the body has left them; and if the
body itself changed no files and has locked only in its scope, nothing is left at any of the lock files that were
locked for writing there, unless one of them was a link.
-/
theorem withLocked_gives_back {start : World σ} {holders : Multiset Holder}
    (wellFormed : start.files.WellFormed) (free : start.claims = [])
    (reached : Process.Run FileSystem.WellFormed ⟨start, 0⟩ ⟨world, holders⟩) (session : Session σ)
    (path : Path) (write : Bool) (depth : Depth) (body : LockedAction σ α) :
    (∀ error failed, probeOpen session.hooks.cancel write depth path world = .error error failed →
      withLocked path write depth body (world, session) = .error error (failed, session) ∧
      failed.claims = world.claims) ∧
    ∀ hierarchy opened left leftSession leftHierarchy,
      probeOpen session.hooks.cancel write depth path world = .ok hierarchy opened →
      stateAfter body (opened, session, hierarchy) = (left, leftSession, leftHierarchy) →
      ∃ last : World σ,
        (∀ error state, body (opened, session, hierarchy) = .error error state →
          withLocked path write depth body (world, session) = .error error (last, leftSession)) ∧
        (∀ value state, body (opened, session, hierarchy) = .ok value state →
          (∀ error closed, leftHierarchy.isRootOpen = true →
            Hierarchy.close (left, leftHierarchy) = .error error closed →
            withLocked path write depth body (world, session) = .error error (last, leftSession)) ∧
          ((leftHierarchy.isRootOpen = true →
              ∃ closed, Hierarchy.close (left, leftHierarchy) = .ok () closed) →
            withLocked path write depth body (world, session) = .ok value (last, leftSession))) ∧
        (∀ others, Process.Run FileSystem.WellFormed ⟨opened, .hierarchy hierarchy ::ₘ holders⟩
            ⟨left, .hierarchy leftHierarchy ::ₘ others⟩ →
          (left.claims : Multiset (List Component)) =
            leftHierarchy.claimed + others.bind Holder.claimed ∧
          (last.claims : Multiset (List Component)) = others.bind Holder.claimed ∧
          ∀ directory ∈ leftHierarchy.claimed, directory ∉ last.claims) ∧
        ∀ used written, (∀ lockFile ∈ used, ¬world.files.NamesLink lockFile) →
          lockFilesOf session.hooks.cancel write (ProbeDescends world depth path) ⊆ used →
          ReflTransGen (Scope.Step used)
            ⟨opened, {hierarchy},
              lockedFilesOf session.hooks.cancel write (ProbeDescends world depth path)⟩
            ⟨left, {leftHierarchy}, written⟩ →
          (∀ lock ∈ leftHierarchy.locks, lock.write = true → Area.lockFile lock.path ∈ written) ∧
          ∀ lockFile ∈ written, last.files.Vacant lockFile := by
  have exclusive := (Process.Exclusive.start free).run reached
  have settled : Process.Settled (⟨start, 0⟩ : Process σ) := ⟨wellFormed, by simp⟩
  constructor
  · intro error failed ran
    exact ⟨withLocked_refused ran, Hierarchy.claims_probeOpen_error ran⟩
  · intro hierarchy opened left leftSession leftHierarchy ran inside
    refine ⟨(closeAfter leftHierarchy left).2, ?_, ?_, ?_, ?_⟩
    · intro error state failed
      rw [stateAfter_of_error failed] at inside
      exact withLocked_of_error ran (inside ▸ failed)
    · intro value state ended
      rw [stateAfter_of_ok ended] at inside
      rw [inside] at ended
      refine ⟨?_, withLocked_of_closed ran ended⟩
      intro error closed rootOpen closing
      exact withLocked_of_unclosed ran ended rootOpen closing
    · intro others run
      have step : Process.Step FileSystem.WellFormed ⟨world, holders⟩
          ⟨opened, .hierarchy hierarchy ::ₘ holders⟩ :=
        .created (.probeOpen _ _ _ _) (Action.map_eq_ok.mpr ⟨hierarchy, ran, rfl⟩)
      have accounts := ((exclusive.step step).run run).accounts rfl rfl
      have given := claims_closeAfter accounts
      refine ⟨accounts.claims_eq, given.1, ?_⟩
      intro directory own foreign
      have distinct : (left.claims : Multiset (List Component)).Nodup := accounts.distinct
      rw [accounts.claims_eq, Multiset.nodup_add] at distinct
      rw [← Multiset.mem_coe, given.1] at foreign
      exact Multiset.disjoint_left.mp distinct.2.2 own foreign
    · intro used written noLink inUse run
      exact vacant_closeAfter exclusive (settled.run reached).wellFormed noLink ran inUse run

/-- A body that works on its hierarchy only. -/
def onHierarchy (action : HierarchyAction σ α) : LockedAction σ α := fun (world, session, hierarchy) =>
  match action (world, hierarchy) with
  | .ok value (world, hierarchy) => .ok value (world, session, hierarchy)
  | .error error (world, hierarchy) => .error error (world, session, hierarchy)

theorem stateAfter_onHierarchy (action : HierarchyAction σ α) (world : World σ) (session : Session σ)
    (hierarchy : Hierarchy) : stateAfter (onHierarchy action) (world, session, hierarchy) =
      ((stateAfter action (world, hierarchy)).1, session, (stateAfter action (world, hierarchy)).2) := by
  cases ran : action (world, hierarchy) <;> simp [stateAfter, onHierarchy, ran]

/-- A body may close the hierarchy itself. -/
theorem withLocked_gives_back_of_closed_root : ∃ last : World Unit,
    withLocked ⟨"/wc"⟩ true .infinity (onHierarchy Hierarchy.close) (Process.singleCopy, {}) =
      .ok () (last, {}) ∧ last.claims = [] ∧ last.files.Vacant ⟨"/wc/.svn/lock"⟩ := by
  let opening : Action Unit Hierarchy := probeOpen none true .infinity ⟨"/wc"⟩
  rcases ok_of_yields opening Process.singleCopy
    (fun made => made.locks.any fun lock => lock.path = ⟨"/wc"⟩ && lock.write)
    (by decide +kernel) with ⟨hierarchy, opened, checked⟩
  rcases List.any_eq_true.mp checked with ⟨lock, recorded, described⟩
  rw [Bool.and_eq_true, decide_eq_true_eq] at described
  let locked := stateAfter opening Process.singleCopy
  let left := stateAfter Hierarchy.close (locked, hierarchy)
  let written := lockedFilesOf none true (ProbeDescends Process.singleCopy .infinity ⟨"/wc"⟩)
  have outside : Process.Run FileSystem.WellFormed ⟨locked, .hierarchy hierarchy ::ₘ 0⟩
      ⟨left.1, .hierarchy left.2 ::ₘ 0⟩ := (Process.Run.refl _).step (.used .close rfl)
  have inside : ReflTransGen (Scope.Step Set.univ) ⟨locked, {hierarchy}, written⟩
      ⟨left.1, {left.2}, written ∪ ∅⟩ := .single (.operated .close (Set.empty_subset _) rfl)
  rcases (withLocked_gives_back Process.wellFormed_singleCopy rfl (.refl _) {} ⟨"/wc"⟩ true .infinity
    (onHierarchy Hierarchy.close)).2 hierarchy locked left.1 {} left.2 opened
      (stateAfter_onHierarchy _ _ _ _) with ⟨last, failed, ended, given, vacant⟩
  have result : withLocked ⟨"/wc"⟩ true .infinity (onHierarchy Hierarchy.close)
      (Process.singleCopy, {}) = .ok () (last, {}) := by
    rcases ok_of_yields
      (withLocked ⟨"/wc"⟩ true .infinity (onHierarchy (σ := Unit) Hierarchy.close))
      (Process.singleCopy, {}) (fun _ => true) (by decide +kernel) with ⟨value, succeeded, -⟩
    cases ran : onHierarchy Hierarchy.close (locked, ({} : Session Unit), hierarchy) with
    | error error state => simp [failed error state ran] at succeeded
    | ok value state =>
        rcases ended value state ran with ⟨unclosed, closed⟩
        apply closed
        intro rootOpen
        cases closing : Hierarchy.close (left.1, left.2) with
        | ok _ after => exact ⟨after, rfl⟩
        | error error after => simp [unclosed error after rootOpen closing] at succeeded
  refine ⟨last, result, ?_, ?_⟩
  · exact Multiset.coe_eq_zero _ |>.mp (given 0 outside).2.1
  · have lockFile_mem : Area.lockFile lock.path ∈ written ∪ ∅ :=
      Or.inl (Hierarchy.filed_probeOpen opened lock recorded described.2)
    have there : Area.lockFile lock.path = ⟨"/wc/.svn/lock"⟩ := by
      rw [described.1]
      decide +kernel
    rw [there] at lockFile_mem
    exact (vacant Set.univ _ (fun path _ => Process.noLink_singleCopy path) (Set.subset_univ _)
      inside).2 _ lockFile_mem

/-- A working copy in which the lock file of one directory is a link to that of another. -/
def linkedCopy : World Unit where
  files := {
    nodes := [(["wc"], .directory), (["wc", ".svn"], .directory),
      (["wc", ".svn", "entries"], .file 0), (["wc", "a"], .directory),
      (["wc", "a", ".svn"], .directory), (["wc", "a", ".svn", "entries"], .file 1),
      (["wc", "a", ".svn", "lock"], .link "../../b/.svn/lock"), (["wc", "b"], .directory),
      (["wc", "b", ".svn"], .directory), (["wc", "b", ".svn", "entries"], .file 2)]
    contents := []
    nextFile := 3
    held := []
    current := [] }
  claims := []
  environment := default
  caller := ()

/-- Locks a directory of the working copy and gives it back, and then locks the one with the link. -/
def lockBoth : HierarchyAction Unit Unit := do
  discard (Hierarchy.openChild none true .empty ⟨"/wc/b"⟩)
  Hierarchy.closeLock ⟨"/wc/b"⟩
  discard (Hierarchy.openChild none true .empty ⟨"/wc/a"⟩)

/-- A file that was locked through a link is left behind, because the link is removed in its place. -/
theorem withLocked_leaves_linked_file :
    let operation := withLocked ⟨"/wc"⟩ true .empty (onHierarchy lockBoth)
    let last := (stateAfter operation (linkedCopy, {})).1
    yields operation (linkedCopy, {}) (fun _ => true) = true ∧
      linkedCopy.files.isFile ⟨"/wc/b/.svn/lock"⟩ = false ∧
      last.files.isFile ⟨"/wc/b/.svn/lock"⟩ = true ∧ last.files.held = [] ∧ last.claims = [] := by
  decide +kernel

end Session

end Checkout
