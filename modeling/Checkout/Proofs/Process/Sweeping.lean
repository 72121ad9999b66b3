import Checkout.Proofs.Process.Closing
import Checkout.Proofs.Process.Life
import Checkout.Proofs.Race.Outcome

/-!
# Closing a lock of a process

To close a lock sweeps its directory: everything that the hierarchy has open there is given back, the deepest
first, and nothing else is touched. The directory of a lock that had been closed before may have a new holder
by then, and stays claimed by it. To drop a hierarchy is a sweep of its root.
-/

namespace Checkout

variable {σ : Type}

namespace Hierarchy

variable {hierarchy now : Hierarchy} {world after : World σ} {others : Multiset Holder}

/-- What the sweep of a directory does, where `others` are the other holders of the process. -/
structure Sweeps (others : Multiset Holder) (directory : Path) (world : World σ)
    (hierarchy : Hierarchy) (after : World σ) (now : Hierarchy) : Prop where
  /-- The open locks at and below the directory are given back, one after another. -/
  gives_back : after = AreaLock.giveBack (hierarchy.closingOrder directory) world
  reversed : (hierarchy.closingOrder directory).map AreaLock.path =
    (hierarchy.lockedPaths.filter fun path => path.isUnder directory).reverse
  deepest_first : (hierarchy.closingOrder directory).Pairwise fun earlier later =>
    later.path.isUnder earlier.path = false
  /-- They are marked as closed, and the other records are as they were. -/
  root_eq : now.root = hierarchy.root
  locks_eq : now.locks = hierarchy.locks.map fun lock =>
    if lock.path.isUnder directory then lock.closed else lock
  unclaimed : ∀ lock ∈ hierarchy.closingOrder directory, lock.key ∉ after.claims
  /-- A directory in reach is claimed afterwards only by another holder. -/
  claimed_iff : ∀ lock ∈ hierarchy.locks, lock.path.isUnder directory = true →
    (lock.key ∈ after.claims ↔ ∃ other ∈ others, lock.key ∈ other.claimed)
  still_claimed : ∀ lock ∈ hierarchy.openLocks, lock.path.isUnder directory = false →
    lock ∈ now.openLocks ∧ lock.key ∈ after.claims
  others_claimed : ∀ other ∈ others, ∀ key ∈ other.claimed, key ∈ after.claims
  /-- Only the files of the locks that are given back are let go of. -/
  held_iff : ∀ identity, identity ∈ after.files.held ↔ identity ∈ world.files.held ∧
    ∀ file ∈ AreaLock.fileLocks (hierarchy.closingOrder directory), identity ≠ file.identity
  /-- An entry goes only if it is the lock file of a lock at the time when that is given back. -/
  node_gone : ∀ location, after.files.node? location = world.files.node? location ∨
    after.files.node? location = none ∧
      ∃ front lock back, hierarchy.closingOrder directory = front ++ lock :: back ∧
        (AreaLock.giveBack front world).files.IsPlace (Area.lockFile lock.path) location

/-- What closing the lock of a directory reports, with the state that it leaves. -/
inductive Reports (directory : Path) (world : World σ) (hierarchy : Hierarchy)
    (state : World σ × Hierarchy) : EStateM.Result Error (World σ × Hierarchy) Unit → Prop where
  | alreadyClosed (wasClosed : (hierarchy.find? directory).any AreaLock.isOpen = false) :
      Reports directory world hierarchy state (.error (.alreadyClosed directory) state)
  | failed {error : Error} (wasOpen : (hierarchy.find? directory).any AreaLock.isOpen = true)
      (first : AreaLock.FirstFailure (hierarchy.closingOrder directory) world error) :
      Reports directory world hierarchy state (.error error state)
  | done (wasOpen : (hierarchy.find? directory).any AreaLock.isOpen = true)
      (allRemoved : ∀ error,
        ¬AreaLock.FirstFailure (hierarchy.closingOrder directory) world error) :
      Reports directory world hierarchy state (.ok () state)

theorem Reports.eq_of_ok {directory : Path} {state last : World σ × Hierarchy}
    (reports : Reports directory world hierarchy state (.ok () last)) : last = state := by
  cases reports
  rfl

theorem allOpen_closingOrder (hierarchy : Hierarchy) (directory : Path) :
    ∀ lock ∈ hierarchy.closingOrder directory, lock.isOpen = true :=
  fun _ lock_mem => (mem_closingOrder.mp lock_mem).2.1

theorem sweeps_closedUnder (inOrder : hierarchy.Sorted)
    (accounts : Accounts (others.bind Holder.claimed) (world, hierarchy)) (directory : Path) :
    Sweeps others directory world hierarchy
      (AreaLock.giveBack (hierarchy.closingOrder directory) world)
      (hierarchy.closedUnder directory) := by
  have swept := accounts.closedUnder directory
  have sound : ∀ lock ∈ hierarchy.closingOrder directory, lock.Sound :=
    fun lock lock_mem => accounts.sound lock (mem_closingOrder.mp lock_mem).1
  have others_iff (key : List Component) :
      key ∈ others.bind Holder.claimed ↔ ∃ other ∈ others, key ∈ other.claimed :=
    Multiset.mem_bind
  refine ⟨rfl, paths_closingOrder hierarchy directory, inOrder.deepest_first directory, rfl, rfl,
    ?_, ?_, ?_, ?_, AreaLock.held_giveBack _ world, ?_⟩
  · intro lock lock_mem
    rw [AreaLock.claims_giveBack _ sound (hierarchy.allOpen_closingOrder directory)]
    simpa using fun _ => ⟨lock, lock_mem, rfl⟩
  · intro lock lock_mem under
    rw [← others_iff, ← Multiset.mem_coe, closingOrder, swept.claims_eq, Multiset.mem_add]
    refine or_iff_right ?_
    -- what the hierarchy has open now lies elsewhere
    intro mine
    obtain ⟨other, other_mem, same⟩ := mem_claimed.mp mine
    have same_path : other.path.same lock.path = true := by simpa [Path.same, AreaLock.key] using same
    rw [openLocks_closedUnder, List.mem_filter, Path.isUnder_congr same_path, under] at other_mem
    simp at other_mem
  · intro lock lock_mem apart
    have kept : lock ∈ (hierarchy.closedUnder directory).openLocks := by
      rw [openLocks_closedUnder]
      exact List.mem_filter.mpr ⟨lock_mem, by simp [apart]⟩
    exact ⟨kept, swept.key_mem kept⟩
  · intro other other_mem key key_mem
    rw [← Multiset.mem_coe, closingOrder, swept.claims_eq]
    exact Multiset.mem_add.mpr (Or.inr ((others_iff key).mpr ⟨other, other_mem, key_mem⟩))
  · intro location
    refine (AreaLock.node?_giveBack _ world location).imp_right ?_
    rintro ⟨gone, front, lock, back, file, split, file_eq, place⟩
    obtain ⟨held, held_eq, file_eq⟩ := Option.bind_eq_some_iff.mp file_eq
    have lock_sound := sound lock (by rw [split]; simp)
    rw [(lock_sound held held_eq).file_path file file_eq] at place
    exact ⟨gone, front, lock, back, split, place⟩

theorem closeLock_reports {path real : Path} (canonical : world.files.canonical path = .ok real)
    (recorded : (hierarchy.find? real).isSome = true) :
    Reports real world hierarchy
      (AreaLock.giveBack (hierarchy.closingOrder real) world, hierarchy.closedUnder real)
      (closeLock path (world, hierarchy)) := by
  obtain ⟨lock, found⟩ := Option.isSome_iff_exists.mp recorded
  obtain ⟨failure, ran, first⟩ :=
    AreaLock.releaseAll_eq (hierarchy.allOpen_closingOrder real) world
  rw [closeLock_apply]
  simp only [canonical, found, ran]
  cases isOpen : lock.isOpen with
  | false => exact .alreadyClosed (by simp [found, isOpen])
  | true =>
      cases failure with
      | none => exact .done (by simp [found, isOpen]) (by simpa using first)
      | some error => exact .failed (by simp [found, isOpen]) ((first error).mp rfl)

/-- Dropping a hierarchy leaves the world that closing its root does, if that is where it was. -/
theorem Rooted.stateAfter_drop_eq (rooted : hierarchy.Rooted)
    (recorded : (hierarchy.find? hierarchy.root).isSome = true) {top : Path}
    (canonical : world.files.canonical hierarchy.root = .ok top)
    (same : top.same hierarchy.root = true) :
    stateAfter hierarchy.drop world =
      (stateAfter (Hierarchy.closeLock hierarchy.root) (world, hierarchy)).1 := by
  have root_eq : hierarchy.root.components = top.components := by
    simpa [Path.same, eq_comm] using same
  have found : (hierarchy.find? top).isSome = true := by
    simpa only [find?, Path.same, root_eq] using recorded
  have everything : hierarchy.openUnder top = hierarchy.openLocks := by
    apply List.filter_eq_self.mpr
    intro lock lock_mem
    have under := rooted.under lock (mem_openLocks.mp lock_mem).1
    simpa only [Path.isUnder, root_eq] using under
  rw [stateAfter_drop, stateAfter_closeLock]
  simp only [canonical, found, if_true, everything]

end Hierarchy

namespace Process

open Hierarchy

variable {world : World σ} {others : Multiset Holder}

/--
Closing the lock for a path fails, and changes nothing, if no lock for it was ever opened in the hierarchy.
Otherwise it sweeps the directory, and reports that the lock was closed already, or else the first lock
file that it could not remove. Dropping the hierarchy leaves the world that closing its root does, as long as
the root is still where it was.
-/
theorem closeLock_sweeps {start : World σ} {holder : Holder} {hierarchy : Hierarchy}
    {path real : Path} (wellFormed : start.files.WellFormed) (free : start.claims = [])
    (run : Run FileSystem.WellFormed ⟨start, 0⟩ ⟨world, holder ::ₘ others⟩)
    (inside : holder.hierarchy? = some hierarchy)
    (canonical : world.files.canonical path = .ok real) :
    (∃ earlier, Life σ (hierarchy :: earlier)) ∧
    (∀ earlier, Life σ (hierarchy :: earlier) →
      (¬EverOpened (hierarchy :: earlier) real →
        closeLock path (world, hierarchy) = .error (.noLock real) (world, hierarchy)) ∧
      (EverOpened (hierarchy :: earlier) real → ∃ after now,
        Sweeps others real world hierarchy after now ∧
        Reports real world hierarchy (after, now) (closeLock path (world, hierarchy)))) ∧
    ∀ top, world.files.canonical hierarchy.root = .ok top → top.same hierarchy.root = true →
      stateAfter hierarchy.drop world =
        (stateAfter (closeLock hierarchy.root) (world, hierarchy)).1 := by
  have live : holder ∈ holder ::ₘ others := Multiset.mem_cons_self holder others
  have unheld : Lived (⟨start, 0⟩ : Process σ) := by simp [Lived]
  obtain ⟨known, life⟩ := (unheld.run run) holder live hierarchy inside
  have settled : Settled (⟨start, 0⟩ : Process σ) := ⟨wellFormed, by simp⟩
  have rooted := (settled.run run).rooted holder live hierarchy inside
  have accounts := ((Exclusive.start free).run run).accounts inside (Holder.claimed_eq inside)
  refine ⟨⟨known, life⟩, ?_, fun top => rooted.stateAfter_drop_eq life.root_recorded⟩
  intro earlier other_life
  rw [← other_life.find?_isSome_iff]
  refine ⟨?_, ?_⟩
  · intro unknown
    rw [closeLock_apply]
    simp only [canonical, Option.not_isSome_iff_eq_none.mp unknown]
  · intro recorded
    exact ⟨_, _, sweeps_closedUnder other_life.sorted accounts real,
      closeLock_reports canonical recorded⟩

/-- The locks on a working copy and on the directory in it. -/
def bothLocked : Hierarchy where
  root := ⟨"/wc"⟩
  locks := [⟨⟨"/wc"⟩, false, .infinity, some ⟨⟨"/wc"⟩, none⟩⟩,
    ⟨⟨"/wc/sub"⟩, false, .infinity, some ⟨⟨"/wc/sub"⟩, none⟩⟩]

/-- The world in which a working copy was locked, and the lock on the directory in it was closed. -/
def topLocked : World Unit :=
  (stateAfter (closeLock ⟨"/wc/sub"⟩)
    (stateAfter (openAt none false .infinity ⟨"/wc"⟩) Race.nestedCopy, bothLocked)).1

/-- The world in which the directory was locked again, by itself. -/
def lockedApart : World Unit :=
  stateAfter (openAt none false .empty ⟨"/wc/sub"⟩) topLocked

theorem run_lockedApart : ∃ other : Hierarchy,
    Run FileSystem.WellFormed ⟨Race.nestedCopy, 0⟩
      ⟨lockedApart, .hierarchy (bothLocked.closedUnder ⟨"/wc/sub"⟩) ::ₘ .hierarchy other ::ₘ 0⟩ := by
  obtain ⟨first, opened, first_eq⟩ := ok_of_yields
    (openAt none false .infinity ⟨"/wc"⟩) Race.nestedCopy (· = bothLocked) (by decide +kernel)
  obtain ⟨other, reopened, -⟩ := ok_of_yields
    (openAt none false .empty ⟨"/wc/sub"⟩) topLocked (fun _ => true) (by decide +kernel)
  obtain rfl := of_decide_eq_true first_eq
  have closed : stateAfter (Operation.closeLock ⟨"/wc/sub"⟩).run
      (stateAfter (openAt none false .infinity ⟨"/wc"⟩) Race.nestedCopy, bothLocked) =
        (topLocked, bothLocked.closedUnder ⟨"/wc/sub"⟩) :=
    Prod.ext rfl (by decide +kernel)
  refine ⟨other, ?_⟩
  rw [Multiset.cons_swap]
  exact (((Run.refl _).step (.created (.openAt none false .infinity ⟨"/wc"⟩)
    (Action.map_eq_ok.mpr ⟨_, opened, rfl⟩))).step (.used (.closeLock ⟨"/wc/sub"⟩) closed)).step
      (.created (.openAt none false .empty ⟨"/wc/sub"⟩)
        (Action.map_eq_ok.mpr ⟨_, reopened, rfl⟩))

/-- The claim of a lock that was closed before stays with the hierarchy that has locked the directory since. -/
theorem closed_before_stays_claimed :
    ∃ (world : World Unit) (holders : Multiset Holder) (hierarchy : Hierarchy) (path real : Path),
      Run FileSystem.WellFormed ⟨Race.nestedCopy, 0⟩ ⟨world, .hierarchy hierarchy ::ₘ holders⟩ ∧
      world.files.canonical path = .ok real ∧
      (∃ after, closeLock path (world, hierarchy) = .ok () after) ∧
      ¬∀ lock ∈ (stateAfter (closeLock path) (world, hierarchy)).2.locks,
        lock.path.isUnder real = true →
          lock.isOpen = false ∧
            lock.key ∉ (stateAfter (closeLock path) (world, hierarchy)).1.claims := by
  obtain ⟨other, run⟩ := run_lockedApart
  refine ⟨lockedApart, _, _, ⟨"/wc"⟩, ⟨"/wc"⟩, run, by decide +kernel, ?_, by decide +kernel⟩
  obtain ⟨_, ran, -⟩ := ok_of_yields (closeLock ⟨"/wc"⟩)
    (lockedApart, bothLocked.closedUnder ⟨"/wc/sub"⟩) (fun _ => true) (by decide +kernel)
  exact ⟨_, ran⟩

/-- The lock on the directory in a working copy, for writing. -/
def subLocked : Hierarchy where
  root := ⟨"/wc/sub"⟩
  locks := [⟨⟨"/wc/sub"⟩, true, .empty, some ⟨⟨"/wc/sub"⟩, some ⟨2, ⟨"/wc/sub/.svn/lock"⟩⟩⟩⟩]

/-- The lock on the working copy, for writing. -/
def wholeLocked : Hierarchy where
  root := ⟨"/wc"⟩
  locks := [⟨⟨"/wc"⟩, true, .empty, some ⟨⟨"/wc"⟩, some ⟨3, ⟨"/wc/.svn/lock"⟩⟩⟩⟩]

/-- The world in which both locks were taken. -/
def bothWritten : World Unit :=
  stateAfter (openAt none true .empty ⟨"/wc"⟩)
    (stateAfter (openAt none true .empty ⟨"/wc/sub"⟩) Race.nestedCopy)

/-- The files after a link to the area of the working copy has taken the place of the other area. -/
def sharedArea : FileSystem :=
  let place : Location := ["wc", "sub", ".svn"]
  { bothWritten.files with
    nodes := (place, .link "../.svn") ::
      bothWritten.files.nodes.filter fun entry => !place.isPrefixOf entry.1 }

/-- To close a lock can remove the lock file of an open lock that lies elsewhere, in another hierarchy. -/
theorem closed_removes_lock_file_elsewhere :
    ∃ (world : World Unit) (hierarchy other : Hierarchy) (lock : AreaLock) (path real : Path),
      Run FileSystem.WellFormed ⟨Race.nestedCopy, 0⟩
        ⟨world, .hierarchy hierarchy ::ₘ .hierarchy other ::ₘ 0⟩ ∧
      world.files.canonical path = .ok real ∧
      (∃ after, closeLock path (world, hierarchy) = .ok () after) ∧
      lock ∈ other.openLocks ∧ lock.path.isUnder real = false ∧
      world.files.isFile (Area.lockFile lock.path) = true ∧
      (stateAfter (closeLock path) (world, hierarchy)).1.files.isFile (Area.lockFile lock.path) =
        false := by
  obtain ⟨first, opened, first_eq⟩ := ok_of_yields (openAt none true .empty ⟨"/wc/sub"⟩)
    Race.nestedCopy (· = subLocked) (by decide +kernel)
  obtain ⟨second, openedWhole, second_eq⟩ := ok_of_yields (openAt none true .empty ⟨"/wc"⟩)
    (stateAfter (openAt none true .empty ⟨"/wc/sub"⟩) Race.nestedCopy) (· = wholeLocked)
    (by decide +kernel)
  obtain rfl := of_decide_eq_true first_eq
  obtain rfl := of_decide_eq_true second_eq
  obtain ⟨_, ran, -⟩ := ok_of_yields (closeLock ⟨"/wc/sub"⟩)
    ({ bothWritten with files := sharedArea }, subLocked) (fun _ => true) (by decide +kernel)
  have wellFormed : sharedArea.WellFormed := by decide +kernel
  refine ⟨{ bothWritten with files := sharedArea }, subLocked, wholeLocked,
    ⟨⟨"/wc"⟩, true, .empty, some ⟨⟨"/wc"⟩, some ⟨3, ⟨"/wc/.svn/lock"⟩⟩⟩⟩, ⟨"/wc/sub"⟩, ⟨"/wc/sub"⟩, ?_,
    by decide +kernel, ⟨_, ran⟩, by decide +kernel, by decide +kernel, by decide +kernel,
    by decide +kernel⟩
  rw [Multiset.cons_swap]
  exact (((Run.refl _).step (.created (.openAt none true .empty ⟨"/wc/sub"⟩)
    (Action.map_eq_ok.mpr ⟨_, opened, rfl⟩))).step (.created (.openAt none true .empty ⟨"/wc"⟩)
      (Action.map_eq_ok.mpr ⟨_, openedWhole, rfl⟩))).step
        (.outside sharedArea bothWritten.environment bothWritten.caller wellFormed)

/-- The lock on the working copy is closed, and the other hierarchy keeps its claim. -/
theorem closeLock_sweeps_lockedApart : ∃ (other : Hierarchy) (earlier : List Hierarchy)
    (after : World Unit) (now : Hierarchy),
    Run FileSystem.WellFormed ⟨Race.nestedCopy, 0⟩
      ⟨lockedApart, .hierarchy (bothLocked.closedUnder ⟨"/wc/sub"⟩) ::ₘ .hierarchy other ::ₘ 0⟩ ∧
    Life Unit (bothLocked.closedUnder ⟨"/wc/sub"⟩ :: earlier) ∧
    Sweeps (.hierarchy other ::ₘ 0) ⟨"/wc"⟩ lockedApart (bothLocked.closedUnder ⟨"/wc/sub"⟩)
      after now ∧
    closeLock ⟨"/wc"⟩ (lockedApart, bothLocked.closedUnder ⟨"/wc/sub"⟩) = .ok () (after, now) := by
  obtain ⟨other, run⟩ := run_lockedApart
  have canonical : lockedApart.files.canonical ⟨"/wc"⟩ = .ok ⟨"/wc"⟩ := by decide +kernel
  have recorded : ((bothLocked.closedUnder ⟨"/wc/sub"⟩).find? ⟨"/wc"⟩).isSome = true := by
    decide +kernel
  obtain ⟨_, ran, -⟩ := ok_of_yields (closeLock ⟨"/wc"⟩)
    (lockedApart, bothLocked.closedUnder ⟨"/wc/sub"⟩) (fun _ => true) (by decide +kernel)
  obtain ⟨⟨earlier, life⟩, closing, -⟩ :=
    closeLock_sweeps Race.wellFormed_nestedCopy rfl run rfl canonical
  obtain ⟨after, now, sweeps, reports⟩ :=
    (closing earlier life).2 (life.find?_isSome_iff.mp recorded)
  rw [ran] at reports
  refine ⟨other, earlier, after, now, run, life, sweeps, ?_⟩
  rw [ran, reports.eq_of_ok]

end Process

end Checkout
