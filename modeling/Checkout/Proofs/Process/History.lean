import Checkout.Proofs.Lock.Lookups
import Checkout.Proofs.Lock.Probes
import Checkout.Proofs.Process.Deeds

/-!
# What lookups tell of the history of a hierarchy

A hierarchy is opened and then used, while others may change the files and make claims of their own. What each
call has opened and closed shows in the claims before and after it. All that is left of the calls is the record
of the hierarchy, and it tells what a reader of all of them would say: whether a lock for a directory was ever
opened, whether the last one has been closed, and what it was opened for.
-/

namespace Checkout

variable {σ : Type}

open Relation (ReflTransGen)

/-- A call: the trees that it asked for, and the claims before and after it. -/
structure Deed where
  requests : List TreeRequest
  before : List (List Component)
  after : List (List Component)

namespace Deed

/-- The call has claimed a directory. -/
def Opens (deed : Deed) (directory : Path) : Prop :=
  directory.components ∉ deed.before ∧ directory.components ∈ deed.after

/-- The call has given the claim on a directory back. -/
def Closes (deed : Deed) (directory : Path) : Prop :=
  directory.components ∈ deed.before ∧ directory.components ∉ deed.after

end Deed

/-- The latest of some calls, the latest one first, that opened a directory, with those since. -/
structure LastOpening (deeds : List Deed) (directory : Path) (opening : Deed) (since : List Deed) :
    Prop where
  split : ∃ earlier, deeds = since ++ opening :: earlier
  opens : opening.Opens directory
  none_since : ∀ deed ∈ since, ¬deed.Opens directory

section

variable {deeds since : List Deed} {deed opening : Deed} {directory : Path}

theorem LastOpening.cons (opened : LastOpening deeds directory opening since)
    (quiet : ¬deed.Opens directory) : LastOpening (deed :: deeds) directory opening (deed :: since) := by
  obtain ⟨earlier, split⟩ := opened.split
  refine ⟨⟨earlier, by rw [split]; rfl⟩, opened.opens, ?_⟩
  intro other other_mem
  rcases List.mem_cons.mp other_mem with rfl | later
  · exact quiet
  · exact opened.none_since other later

theorem LastOpening.now (opens : deed.Opens directory) :
    LastOpening (deed :: deeds) directory deed [] :=
  ⟨⟨deeds, rfl⟩, opens, by simp⟩

theorem LastOpening.mem (opened : LastOpening deeds directory opening since) : opening ∈ deeds := by
  obtain ⟨earlier, split⟩ := opened.split
  rw [split]
  simp

theorem LastOpening.unique {other : Deed} {later : List Deed}
    (opened : LastOpening deeds directory opening since)
    (again : LastOpening deeds directory other later) : opening = other ∧ since = later := by
  obtain ⟨earlier, split⟩ := opened.split
  obtain ⟨older, split'⟩ := again.split
  rw [split] at split'
  rcases List.append_eq_append_iff.mp split' with ⟨between, later_eq, rest⟩ | ⟨between, since_eq, rest⟩
  · cases between with
    | nil =>
        rw [List.append_nil] at later_eq
        exact ⟨(List.cons.inj rest).1, later_eq.symm⟩
    | cons first between =>
        -- otherwise the earlier one of the two openings would come after the later one
        obtain ⟨rfl, -⟩ := List.cons.inj rest
        exact absurd opened.opens (again.none_since opening (by rw [later_eq]; simp))
  · cases between with
    | nil =>
        rw [List.append_nil] at since_eq
        exact ⟨(List.cons.inj rest).1.symm, since_eq⟩
    | cons first between =>
        obtain ⟨rfl, -⟩ := List.cons.inj rest
        exact absurd again.opens (opened.none_since other (by rw [since_eq]; simp))

end

namespace Hierarchy

variable {deeds : List Deed} {deed : Deed} {hierarchy : Hierarchy} {directory : Path} {lock : AreaLock}
  {world after : World σ} {locks : List AreaLock} {requests : List TreeRequest}
  {before now : List (List Component)}

/-! ## The record of a directory -/

/-- What is on record for a directory after some calls. -/
inductive Recorded (deeds : List Deed) (directory : Path) : Option AreaLock → Prop where
  | never (unopened : ∀ deed ∈ deeds, ¬deed.Opens directory) : Recorded deeds directory none
  | last {opening : Deed} {since : List Deed} {lock : AreaLock} {request : TreeRequest}
      (opened : LastOpening deeds directory opening since)
      (open_iff : lock.isOpen = true ↔ ∀ deed ∈ since, ¬deed.Closes directory)
      (asked : request ∈ opening.requests) (grants : request.Grants lock) :
      Recorded deeds directory (some lock)

theorem Recorded.quiet {record : Option AreaLock} (recorded : Recorded deeds directory record)
    (notOpened : ¬deed.Opens directory) (notClosed : ¬deed.Closes directory) :
    Recorded (deed :: deeds) directory record := by
  cases recorded with
  | never unopened => exact .never (List.forall_mem_cons.mpr ⟨notOpened, unopened⟩)
  | last opened open_iff asked grants =>
      refine .last (opened.cons notOpened) ?_ asked grants
      rw [List.forall_mem_cons, open_iff]
      exact (and_iff_right notClosed).symm

theorem Recorded.opened {request : TreeRequest} (opens : deed.Opens directory)
    (isOpen : lock.isOpen = true) (asked : request ∈ deed.requests) (grants : request.Grants lock) :
    Recorded (deed :: deeds) directory (some lock) :=
  .last (LastOpening.now opens) (by simp [isOpen]) asked grants

theorem Recorded.closed (recorded : Recorded deeds directory (some lock))
    (closes : deed.Closes directory) : Recorded (deed :: deeds) directory (some lock.closed) := by
  have notOpened : ¬deed.Opens directory := fun opens => opens.1 closes.1
  cases recorded with
  | last opened open_iff asked grants =>
      refine .last (opened.cons notOpened) ?_ asked ⟨grants.write_eq, grants.reaches⟩
      simpa [AreaLock.isOpen, AreaLock.closed] using fun quiet => absurd closes quiet

/-! ## What every call keeps -/

/-- The hierarchy is faithful to the calls so far: its records are those they have left, its open locks are
claimed, and none of them is left when the root is closed. -/
structure Faithful (deeds : List Deed) (claims : List (List Component)) (hierarchy : Hierarchy) :
    Prop where
  inOrder : hierarchy.Sorted
  sound : ∀ lock ∈ hierarchy.locks, lock.Sound
  claimed : ∀ lock ∈ hierarchy.openLocks, lock.key ∈ claims
  led : hierarchy.isRootOpen = false → hierarchy.openLocks = []
  recorded : ∀ directory, Recorded deeds directory (hierarchy.find? directory)

/-- A call that makes and gives back no claims. -/
theorem Faithful.nothing (faithful : Faithful deeds before hierarchy) (same : now = before) :
    Faithful (⟨requests, before, now⟩ :: deeds) now hierarchy := by
  subst same
  refine ⟨faithful.inOrder, faithful.sound, faithful.claimed, faithful.led, ?_⟩
  intro directory
  exact (faithful.recorded directory).quiet (fun opens => opens.1 opens.2)
    (fun closes => closes.2 closes.1)

/-- Locks that are entered leave the root open if it was, or if one of them is for it. -/
theorem Sorted.isRootOpen_insertAll (inOrder : hierarchy.Sorted)
    (entered : Entered requests before now locks)
    (top : hierarchy.isRootOpen = true ∨ ∃ lock ∈ locks, lock.path = hierarchy.root) :
    (hierarchy.insertAll locks).isRootOpen = true := by
  rw [isRootOpen, rootLock?, root_insertAll]
  by_cases new : hierarchy.root.components ∈ locks.map AreaLock.key
  · obtain ⟨lock, lock_mem, key_eq⟩ := List.mem_map.mp new
    rw [inOrder.find?_insertAll_of_mem entered.distinct lock_mem (same_iff_key.mpr key_eq)]
    exact entered.allOpen lock lock_mem
  · rw [inOrder.find?_insertAll_of_not_mem new]
    rcases top with rootOpen | ⟨lock, lock_mem, path_eq⟩
    · exact rootOpen
    · exact absurd (List.mem_map.mpr ⟨lock, lock_mem, by rw [AreaLock.key, path_eq]⟩) new

/-- A call that enters locks. -/
theorem Faithful.insertAll (faithful : Faithful deeds before hierarchy)
    (entered : Entered requests before now locks)
    (top : hierarchy.isRootOpen = true ∨ ∃ lock ∈ locks, lock.path = hierarchy.root) :
    Faithful (⟨requests, before, now⟩ :: deeds) now (hierarchy.insertAll locks) := by
  refine ⟨faithful.inOrder.insertAll locks, ?_, ?_, ?_, ?_⟩
  · intro lock recorded
    rcases mem_of_mem_insertAll recorded with new | ⟨old, -⟩
    · exact entered.sound lock new
    · exact faithful.sound lock old
  · intro lock lock_mem
    obtain ⟨recorded, isOpen⟩ := mem_openLocks.mp lock_mem
    rw [entered.claims_iff]
    rcases mem_of_mem_insertAll recorded with new | ⟨old, -⟩
    · exact Or.inl (List.mem_map_of_mem new)
    · exact Or.inr (faithful.claimed lock (mem_openLocks.mpr ⟨old, isOpen⟩))
  · intro rootClosed
    rw [faithful.inOrder.isRootOpen_insertAll entered top] at rootClosed
    exact Bool.noConfusion rootClosed
  · intro directory
    by_cases new : directory.components ∈ locks.map AreaLock.key
    · obtain ⟨lock, lock_mem, key_eq⟩ := List.mem_map.mp new
      obtain ⟨request, asked, grants⟩ := entered.granted lock lock_mem
      rw [faithful.inOrder.find?_insertAll_of_mem entered.distinct lock_mem
        (same_iff_key.mpr key_eq)]
      refine Recorded.opened ⟨?_, (entered.claims_iff _).mpr (Or.inl new)⟩
        (entered.allOpen lock lock_mem) asked grants
      exact key_eq ▸ entered.fresh lock lock_mem
    · rw [faithful.inOrder.find?_insertAll_of_not_mem new]
      refine (faithful.recorded directory).quiet ?_ ?_
      · rintro ⟨unclaimed, claimed⟩
        rcases (entered.claims_iff _).mp claimed with fresh | old
        · exact new fresh
        · exact unclaimed old
      · rintro ⟨claimed, unclaimed⟩
        exact unclaimed ((entered.claims_iff _).mpr (Or.inr claimed))

section

variable (faithful : Faithful deeds world.claims hierarchy) (top : Path)

include faithful

theorem Faithful.claims_giveBack :
    (AreaLock.giveBack (hierarchy.openUnder top).reverse world).claims =
      world.claims.filter (· ∉ (hierarchy.openUnder top).map AreaLock.key) := by
  have opened : ∀ lock ∈ (hierarchy.openUnder top).reverse, lock ∈ hierarchy.openLocks :=
    fun lock lock_mem => (List.mem_filter.mp (List.mem_reverse.mp lock_mem)).1
  rw [AreaLock.claims_giveBack]
  · simp
  · exact fun lock lock_mem => faithful.sound lock (mem_openLocks.mp (opened lock lock_mem)).1
  · exact fun lock lock_mem => (mem_openLocks.mp (opened lock lock_mem)).2

/-- The call closes the directories of the locks that it gives back. -/
theorem Faithful.closes_iff (requests : List TreeRequest) (directory : Path) :
    Deed.Closes
        ⟨requests, world.claims,
          (AreaLock.giveBack (hierarchy.openUnder top).reverse world).claims⟩ directory ↔
      ∃ lock, hierarchy.find? directory = some lock ∧ lock.isOpen = true ∧
        lock.path.isUnder top = true := by
  rw [Deed.Closes, faithful.claims_giveBack]
  constructor
  · rintro ⟨claimed, unclaimed⟩
    have given : directory.components ∈ (hierarchy.openUnder top).map AreaLock.key := by
      by_contra kept
      exact unclaimed (List.mem_filter.mpr ⟨claimed, by simpa using kept⟩)
    obtain ⟨lock, lock_mem, key_eq⟩ := List.mem_map.mp given
    obtain ⟨opened, under⟩ := List.mem_filter.mp lock_mem
    obtain ⟨recorded, isOpen⟩ := mem_openLocks.mp opened
    exact ⟨lock, faithful.inOrder.find?_eq_some_iff.mpr ⟨recorded, same_iff_key.mpr key_eq⟩, isOpen,
      under⟩
  · rintro ⟨lock, found, isOpen, under⟩
    obtain ⟨recorded, same⟩ := find?_eq_some found
    have opened := mem_openLocks.mpr ⟨recorded, isOpen⟩
    rw [← same_iff_key.mp same]
    refine ⟨faithful.claimed lock opened, ?_⟩
    intro kept
    have given : lock.key ∈ (hierarchy.openUnder top).map AreaLock.key :=
      List.mem_map_of_mem (List.mem_filter.mpr ⟨opened, under⟩)
    exact of_decide_eq_true (List.mem_filter.mp kept).2 given

/-- When the root is closed, everything below it is closed as well. -/
theorem Faithful.led_closedUnder (rooted : hierarchy.Rooted)
    (rootClosed : (hierarchy.closedUnder top).isRootOpen = false) :
    (hierarchy.closedUnder top).openLocks = [] := by
  rw [openLocks_closedUnder]
  cases under : hierarchy.root.isUnder top with
  | true =>
      rw [List.filter_eq_nil_iff]
      intro lock lock_mem
      simp [Path.isUnder_trans (rooted.under lock (mem_openLocks.mp lock_mem).1) under]
  | false =>
      have root_eq : (hierarchy.closedUnder top).isRootOpen = hierarchy.isRootOpen := by
        rw [isRootOpen, isRootOpen, rootLock?, rootLock?, root_closedUnder, find?_closedUnder_eq]
        cases found : hierarchy.find? hierarchy.root with
        | none => rfl
        | some lock => simp [Path.isUnder_congr (find?_eq_some found).2, under]
      rw [faithful.led (root_eq.symm.trans rootClosed)]
      rfl

/-- A call that gives back what is open at and below a directory. -/
theorem Faithful.closedUnder (rooted : hierarchy.Rooted) :
    Faithful
      (⟨requests, world.claims,
        (AreaLock.giveBack (hierarchy.openUnder top).reverse world).claims⟩ :: deeds)
      (AreaLock.giveBack (hierarchy.openUnder top).reverse world).claims
      (hierarchy.closedUnder top) := by
  refine ⟨faithful.inOrder.closedUnder top, ?_, ?_, faithful.led_closedUnder top rooted, ?_⟩
  · intro lock recorded
    obtain ⟨older, older_mem, rfl⟩ := List.mem_map.mp recorded
    split
    · exact older.sound_closed
    · exact faithful.sound older older_mem
  · intro lock lock_mem
    rw [openLocks_closedUnder] at lock_mem
    obtain ⟨opened, apart⟩ := List.mem_filter.mp lock_mem
    rw [faithful.claims_giveBack, List.mem_filter]
    refine ⟨faithful.claimed lock opened, ?_⟩
    rw [decide_eq_true_eq, List.mem_map]
    rintro ⟨other, other_mem, key_eq⟩
    have under := (List.mem_filter.mp other_mem).2
    rw [Path.isUnder_congr (same_iff_key.mpr key_eq)] at under
    simp [under] at apart
  · intro directory
    have notOpened : ¬Deed.Opens ⟨requests, world.claims,
        (AreaLock.giveBack (hierarchy.openUnder top).reverse world).claims⟩ directory := by
      rw [Deed.Opens, faithful.claims_giveBack]
      exact fun opens => opens.1 (List.mem_filter.mp opens.2).1
    have recorded := faithful.recorded directory
    have closes_iff := faithful.closes_iff top requests directory
    rw [find?_closedUnder_eq]
    cases found : hierarchy.find? directory with
    | none =>
        rw [found] at recorded closes_iff
        exact recorded.quiet notOpened (by simp [closes_iff])
    | some lock =>
        rw [found] at recorded closes_iff
        simp only [Option.some.injEq, exists_eq_left'] at closes_iff
        rw [Option.map_some]
        by_cases closes : lock.isOpen = true ∧ lock.path.isUnder top = true
        · rw [if_pos closes.2]
          exact recorded.closed (closes_iff.mpr closes)
        · have same : (if lock.path.isUnder top then lock.closed else lock) = lock := by
            split
            · rename_i under
              have wasClosed : lock.held = none := by
                simpa [AreaLock.isOpen, under] using closes
              rw [AreaLock.closed, ← wasClosed]
            · rfl
          rw [same]
          exact recorded.quiet notOpened (fun doing => closes (closes_iff.mp doing))

end

end Hierarchy

/-! ## Moments -/

/-- A moment in the history of a hierarchy. -/
structure Moment (σ : Type) where
  /-- The calls so far, the latest one first. -/
  deeds : List Deed
  world : World σ
  hierarchy : Hierarchy

namespace Moment

open Hierarchy

/-- The moment after an operation was called, which may have failed. -/
def use (moment : Moment σ) (operation : Operation σ) : Moment σ :=
  let state := stateAfter operation.run (moment.world, moment.hierarchy)
  ⟨⟨operation.requests moment.world.files, moment.world.claims, state.1.claims⟩ :: moment.deeds,
    state.1, state.2⟩

/-- What can happen next. -/
inductive Next : Moment σ → Moment σ → Prop where
  | used (moment : Moment σ) (operation : Operation σ) : Next moment (moment.use operation)
  /-- Others change what they like, except for the claims of the hierarchy. -/
  | outside (moment : Moment σ) (world : World σ) (wellFormed : world.files.WellFormed)
      (kept : ∀ lock ∈ moment.hierarchy.openLocks, lock.key ∈ world.claims) :
      Next moment { moment with world }

/-- The moments to which a new hierarchy can come. -/
inductive Reached : Moment σ → Prop where
  | founded {world after : World σ} {holder : Holder} {hierarchy : Hierarchy} (creation : Creation σ)
      (wellFormed : world.files.WellFormed) (ran : creation.run world = .ok holder after)
      (inside : holder.hierarchy? = some hierarchy) :
      Reached ⟨[⟨creation.requests world.files, world.claims, after.claims⟩], after, hierarchy⟩
  | next {moment later : Moment σ} (reached : Reached moment) (next : Next moment later) :
      Reached later

/-- What holds at every moment. -/
structure Sound (moment : Moment σ) : Prop where
  wellFormed : moment.world.files.WellFormed
  rooted : moment.hierarchy.Rooted
  faithful : Faithful moment.deeds moment.world.claims moment.hierarchy

variable {moment later : Moment σ} {path real : Path}

theorem Sound.use (sound : moment.Sound) (operation : Operation σ) : (moment.use operation).Sound := by
  refine ⟨operation.keepsFiles _ sound.wellFormed, operation.rooted sound.rooted sound.wellFormed, ?_⟩
  have effect := operation.effect sound.wellFormed moment.hierarchy
  simp only [Moment.use]
  generalize stateAfter operation.run (moment.world, moment.hierarchy) = state at effect ⊢
  cases effect with
  | opens opens =>
      cases opens with
      | nothing claims_eq => exact sound.faithful.nothing claims_eq
      | entered rootOpen entered => exact sound.faithful.insertAll entered (Or.inl rootOpen)
  | closes directory => exact sound.faithful.closedUnder directory sound.rooted

theorem Sound.next (sound : moment.Sound) (next : Next moment later) : later.Sound := by
  cases next with
  | used operation => exact sound.use operation
  | outside world wellFormed kept =>
      have faithful := sound.faithful
      exact ⟨wellFormed, sound.rooted, faithful.inOrder, faithful.sound, kept, faithful.led,
        faithful.recorded⟩

theorem Reached.sound (reached : moment.Reached) : moment.Sound := by
  induction reached with
  | @founded world after holder hierarchy creation wellFormed ran inside =>
      refine ⟨creation.keepsFiles.ok wellFormed ran, Creation.rooted wellFormed ran inside, ?_⟩
      obtain ⟨locks, founded⟩ := Creation.founded wellFormed ran inside
      have nothing : Faithful [] world.claims ⟨hierarchy.root, []⟩ :=
        ⟨List.Pairwise.nil, by simp, by simp [openLocks], fun _ => rfl,
          fun directory => .never (by simp)⟩
      have faithful := nothing.insertAll founded.entered (Or.inr founded.top)
      rw [← founded.hierarchy_eq] at faithful
      exact faithful
  | next reached next ih => exact ih.next next

/-! ### Closed hierarchies -/

/-- Where no lock is open, no call opens one. -/
theorem Sound.use_closed (sound : moment.Sound) (closed : moment.hierarchy.openLocks = [])
    (operation : Operation σ) :
    (moment.use operation).hierarchy.openLocks = [] ∧ ∃ deed,
      (moment.use operation).deeds = deed :: moment.deeds ∧
        ∀ directory, ¬deed.Opens directory := by
  have effect := operation.effect sound.wellFormed moment.hierarchy
  simp only [Moment.use]
  generalize stateAfter operation.run (moment.world, moment.hierarchy) = state at effect ⊢
  cases effect with
  | opens opens =>
      cases opens with
      | nothing claims_eq =>
          refine ⟨closed, _, rfl, ?_⟩
          rintro directory ⟨unclaimed, claimed⟩
          rw [claims_eq] at claimed
          exact unclaimed claimed
      | entered rootOpen entered =>
          obtain ⟨lock, lock_mem, -⟩ := exists_of_isRootOpen rootOpen
          rw [closed] at lock_mem
          simp at lock_mem
  | closes top =>
      refine ⟨by rw [openLocks_closedUnder, closed]; rfl, _, rfl, ?_⟩
      rintro directory ⟨unclaimed, claimed⟩
      simp only [sound.faithful.claims_giveBack top] at claimed
      exact unclaimed (List.mem_filter.mp claimed).1

/-- A hierarchy without open locks never has one again. -/
theorem Sound.closed_for_good (sound : moment.Sound) (closed : moment.hierarchy.openLocks = [])
    (onwards : ReflTransGen Next moment later) :
    later.hierarchy.openLocks = [] ∧ ∃ more, later.deeds = more ++ moment.deeds ∧
      ∀ deed ∈ more, ∀ directory, ¬deed.Opens directory := by
  have kept : later.Sound ∧ later.hierarchy.openLocks = [] ∧
      ∃ more, later.deeds = more ++ moment.deeds ∧
        ∀ deed ∈ more, ∀ directory, ¬deed.Opens directory := by
    induction onwards with
    | refl => exact ⟨sound, closed, [], rfl, by simp⟩
    | tail _ next ih =>
        obtain ⟨soundBefore, closedBefore, more, deeds_eq, unopened⟩ := ih
        refine ⟨soundBefore.next next, ?_⟩
        cases next with
        | used operation =>
            obtain ⟨closedNow, deed, now_eq, opensNothing⟩ :=
              soundBefore.use_closed closedBefore operation
            refine ⟨closedNow, deed :: more, by rw [now_eq, deeds_eq]; rfl, ?_⟩
            exact List.forall_mem_cons.mpr ⟨opensNothing, unopened⟩
        | outside world wellFormed untouched => exact ⟨closedBefore, more, deeds_eq, unopened⟩
  exact kept.2

/-! ### Lookups -/

/-- What the lookups for a path, with its canonical form, tell at a moment. -/
structure Tells (moment : Moment σ) (path real : Path) : Prop where
  under : ∀ lock ∈ moment.hierarchy.locks, lock.path.isUnder moment.hierarchy.root = true
  /-- Once the root is closed nothing is open, and no later call opens anything. -/
  closed_for_good : moment.hierarchy.isRootOpen = false →
    ∀ later, ReflTransGen Next moment later → later.hierarchy.openLocks = [] ∧
      ∃ more, later.deeds = more ++ moment.deeds ∧
        ∀ deed ∈ more, ∀ directory, ¬deed.Opens directory
  /-- There is no lock if none was ever opened. -/
  noLock_iff :
    moment.hierarchy.retrieve moment.world.files path = .error (.noLock real) ↔
      ∀ deed ∈ moment.deeds, ¬deed.Opens real
  /-- The lock is closed already if the last one that was opened has been closed since. -/
  alreadyClosed_iff :
    moment.hierarchy.retrieve moment.world.files path = .error (.alreadyClosed real) ↔
      ∃ opening since, LastOpening moment.deeds real opening since ∧
        ∃ deed ∈ since, deed.Closes real
  retrieved_iff :
    (∃ lock, moment.hierarchy.retrieve moment.world.files path = .ok lock) ↔
      ∃ opening since, LastOpening moment.deeds real opening since ∧
        ∀ deed ∈ since, ¬deed.Closes real
  /-- What is retrieved is an open lock, as the last call that opened one was asked for it. -/
  retrieved : ∀ lock, moment.hierarchy.retrieve moment.world.files path = .ok lock →
    lock ∈ moment.hierarchy.openLocks ∧ lock.path.same real = true ∧
      ∃ opening since, LastOpening moment.deeds real opening since ∧
        ∃ request ∈ opening.requests, request.Grants lock
  probed_iff :
    (∃ lock, moment.hierarchy.probeRetrieve moment.world.files path = .ok lock) ↔
      moment.hierarchy.isRootOpen = true ∧ real.isUnder moment.hierarchy.root = true
  /-- The directory of the lock that a probe retrieves is the longest prefix of the path. -/
  nearest : ∀ lock, moment.hierarchy.probeRetrieve moment.world.files path = .ok lock →
    moment.hierarchy.IsNearest real lock

/-- What a reader of the calls would answer for a directory. -/
inductive Told (deeds : List Deed) (real : Path) : Except Error AreaLock → Prop where
  | never (unopened : ∀ deed ∈ deeds, ¬deed.Opens real) : Told deeds real (.error (.noLock real))
  | closed {opening : Deed} {since : List Deed} (opened : LastOpening deeds real opening since)
      (closing : ∃ deed ∈ since, deed.Closes real) : Told deeds real (.error (.alreadyClosed real))
  | kept {opening : Deed} {since : List Deed} {lock : AreaLock} {request : TreeRequest}
      (opened : LastOpening deeds real opening since) (unclosed : ∀ deed ∈ since, ¬deed.Closes real)
      (asked : request ∈ opening.requests) (grants : request.Grants lock) :
      Told deeds real (.ok lock)

section

variable {deeds : List Deed} {answer : Except Error AreaLock}

theorem Told.noLock_iff (told : Told deeds real answer) :
    answer = .error (.noLock real) ↔ ∀ deed ∈ deeds, ¬deed.Opens real := by
  cases told with
  | never unopened => exact iff_of_true rfl unopened
  | closed opened closing =>
      exact iff_of_false (by simp) fun unopened => unopened _ opened.mem opened.opens
  | kept opened unclosed asked grants =>
      exact iff_of_false (by simp) fun unopened => unopened _ opened.mem opened.opens

theorem Told.alreadyClosed_iff (told : Told deeds real answer) :
    answer = .error (.alreadyClosed real) ↔
      ∃ opening since, LastOpening deeds real opening since ∧ ∃ deed ∈ since, deed.Closes real := by
  cases told with
  | never unopened =>
      refine iff_of_false (by simp) ?_
      rintro ⟨opening, since, opened, -⟩
      exact unopened opening opened.mem opened.opens
  | closed opened closing => exact iff_of_true rfl ⟨_, _, opened, closing⟩
  | kept opened unclosed asked grants =>
      refine iff_of_false (by simp) ?_
      rintro ⟨opening, since, again, deed, deed_mem, closes⟩
      obtain ⟨-, rfl⟩ := opened.unique again
      exact unclosed deed deed_mem closes

theorem Told.ok_iff (told : Told deeds real answer) :
    (∃ lock, answer = .ok lock) ↔
      ∃ opening since, LastOpening deeds real opening since ∧ ∀ deed ∈ since, ¬deed.Closes real := by
  cases told with
  | never unopened =>
      refine iff_of_false (by simp) ?_
      rintro ⟨opening, since, opened, -⟩
      exact unopened opening opened.mem opened.opens
  | closed opened closing =>
      refine iff_of_false (by simp) ?_
      rintro ⟨opening, since, again, unclosed⟩
      obtain ⟨-, rfl⟩ := opened.unique again
      obtain ⟨deed, deed_mem, closes⟩ := closing
      exact unclosed deed deed_mem closes
  | kept opened unclosed asked grants => exact iff_of_true ⟨_, rfl⟩ ⟨_, _, opened, unclosed⟩

theorem Told.granted {lock : AreaLock} (told : Told deeds real (.ok lock)) :
    ∃ opening since, LastOpening deeds real opening since ∧
      ∃ request ∈ opening.requests, request.Grants lock := by
  cases told with
  | kept opened unclosed asked grants => exact ⟨_, _, opened, _, asked, grants⟩

end

theorem Sound.told (sound : moment.Sound) (canonical : moment.world.files.canonical path = .ok real) :
    Told moment.deeds real (moment.hierarchy.retrieve moment.world.files path) := by
  have recorded := sound.faithful.recorded real
  rw [retrieve_eq canonical]
  cases found : moment.hierarchy.find? real with
  | none =>
      rw [found] at recorded
      cases recorded with
      | never unopened => exact .never unopened
  | some lock =>
      rw [found] at recorded
      cases recorded with
      | last opened open_iff asked grants =>
          by_cases isOpen : lock.isOpen = true
          · simp only [isOpen, if_true]
            exact .kept opened (open_iff.mp isOpen) asked grants
          · simp only [if_neg isOpen]
            exact .closed opened (by simpa using (not_congr open_iff).mp isOpen)

/-- At every moment the lookups in a hierarchy tell of its whole history. -/
theorem Reached.tells_history (reached : moment.Reached)
    (canonical : moment.world.files.canonical path = .ok real) : moment.Tells path real := by
  have sound := reached.sound
  have rooted := sound.rooted
  have faithful := sound.faithful
  have told := sound.told canonical
  refine ⟨rooted.under, ?_, told.noLock_iff, told.alreadyClosed_iff, told.ok_iff, ?_, ?_, ?_⟩
  · intro rootClosed later onwards
    exact sound.closed_for_good (faithful.led rootClosed) onwards
  · intro lock retrieved
    rw [retrieved] at told
    exact ⟨(retrieve_ok canonical retrieved).1, (retrieve_ok canonical retrieved).2, told.granted⟩
  · constructor
    · rintro ⟨lock, probed⟩
      have nearest := (rooted.probeRetrieve_eq_ok_iff faithful.inOrder canonical).mp probed
      refine ⟨?_, rooted.isUnder_root nearest.isOpen nearest.above⟩
      by_contra rootClosed
      have isOpen := nearest.isOpen
      rw [faithful.led (Bool.eq_false_iff.mpr rootClosed)] at isOpen
      simp at isOpen
    · rintro ⟨rootOpen, under⟩
      obtain ⟨lock, nearest⟩ := rooted.exists_isNearest faithful.inOrder
        (FileSystem.isAbsolute_canonical canonical) rootOpen under
      exact ⟨lock, (rooted.probeRetrieve_eq_ok_iff faithful.inOrder canonical).mpr nearest⟩
  · intro lock probed
    exact (rooted.probeRetrieve_eq_ok_iff faithful.inOrder canonical).mp probed

/-- A call that opens `sub` and the directory in it. -/
def openSub : Creation Unit :=
  .openAt none false .infinity ⟨"/wc/sub"⟩

/-- The hierarchy has been opened. -/
def subLocked : Moment Unit where
  deeds := [⟨openSub.requests plainCopy.files, plainCopy.claims,
    (stateAfter openSub.run plainCopy).claims⟩]
  world := stateAfter openSub.run plainCopy
  hierarchy := ⟨⟨"/wc/sub"⟩, [⟨⟨"/wc/sub"⟩, false, .infinity, some ⟨⟨"/wc/sub"⟩, none⟩⟩,
    ⟨⟨"/wc/sub/inner"⟩, false, .infinity, some ⟨⟨"/wc/sub/inner"⟩, none⟩⟩]⟩

theorem reached_subLocked : subLocked.Reached := by
  obtain ⟨holder, ran, inside⟩ := ok_of_yields openSub.run plainCopy
    (fun holder => holder.hierarchy? = some subLocked.hierarchy) (by decide +kernel)
  exact .founded openSub wellFormed_plainCopy ran (of_decide_eq_true inside)

/-- The lock on the directory in it is closed, and opened anew for writing. -/
def innerReopened : Moment Unit :=
  (subLocked.use (.closeLock ⟨"/wc/sub/inner"⟩)).use (.openChild none true .empty ⟨"/wc/sub/inner"⟩)

/-- The lock that was opened last is retrieved, with what it was opened for. -/
theorem tells_history_of_innerReopened :
    innerReopened.Reached ∧
    innerReopened.world.files.canonical ⟨"/wc/sub/inner"⟩ = .ok ⟨"/wc/sub/inner"⟩ ∧
    innerReopened.Tells ⟨"/wc/sub/inner"⟩ ⟨"/wc/sub/inner"⟩ ∧
    ∃ lock, innerReopened.hierarchy.retrieve innerReopened.world.files ⟨"/wc/sub/inner"⟩ = .ok lock ∧
      lock.terms = (⟨"/wc/sub/inner"⟩, true, .empty) := by
  have reached : innerReopened.Reached :=
    (reached_subLocked.next (.used _ _)).next (.used _ _)
  have canonical : innerReopened.world.files.canonical ⟨"/wc/sub/inner"⟩ = .ok ⟨"/wc/sub/inner"⟩ := by
    decide +kernel
  have terms : ∃ lock,
      innerReopened.hierarchy.retrieve innerReopened.world.files ⟨"/wc/sub/inner"⟩ = .ok lock ∧
        lock.terms = (⟨"/wc/sub/inner"⟩, true, .empty) :=
    ⟨⟨⟨"/wc/sub/inner"⟩, true, .empty,
      some ⟨⟨"/wc/sub/inner"⟩, some ⟨3, ⟨"/wc/sub/inner/.svn/lock"⟩⟩⟩⟩, by decide +kernel, rfl⟩
  exact ⟨reached, canonical, reached.tells_history canonical, terms⟩

end Moment

end Checkout
