import Checkout.Proofs.Race.Alone
import Checkout.Proofs.Race.Course
import Mathlib.Data.Fintype.EquivFin
import Mathlib.Order.WellFounded

/-!
# The outcome of a race

At every moment each directory is claimed by at most one call. When all calls have ended, one of them has
opened its hierarchy, because a call that was stopped the furthest was stopped by one that succeeded.
-/

namespace Checkout

open Relation (ReflTransGen)

namespace Race

variable {σ ι : Type} [DecidableEq ι] [Fintype ι] {calls : ι → Call} {before : World σ}
  {race : Race σ ι} {call : ι}

/-- A call that has not ended can go on. -/
theorem exists_step (ready : Ready calls before) (run : ReflTransGen (Step calls) (start before) race)
    (going : ¬(race.phase call).Ended) : ∃ after phase, Step calls race (race.advance call after phase) := by
  have course := Course.steps ready run
  obtain ⟨locks, holds⟩ := course.holds
  cases phase_eq : race.phase call with
  | waiting =>
      obtain ⟨location, found, -⟩ := ready.roots call
      exact ⟨_, _, Step.started call phase_eq
        (FileSystem.canonical_of_entry (holds.entry_directory ready found))⟩
  | descending pending taken =>
      cases pending with
      | nil => exact ⟨_, _, Step.finished call phase_eq⟩
      | cons task rest =>
          rcases Nat.eq_zero_or_pos task.levels with exhausted | more
          · exact ⟨_, _, Step.descended call phase_eq (Descent.Step.skip exhausted)⟩
          have polled : AreaLock.poll none race.world = .ok () race.world := rfl
          cases acquired : AreaLock.acquire task.directory (calls call).write task.depth race.world with
          | error error after =>
              exact ⟨_, _, Step.refused call phase_eq (Descent.Fails.refused task more polled acquired) rfl⟩
          | ok lock after =>
              cases listed : task.below after.files with
              | ok children =>
                  exact ⟨_, _, Step.descended call phase_eq
                    (Descent.Step.claim task more polled acquired listed)⟩
              | error error =>
                  exact ⟨_, _, Step.refused call phase_eq
                    (Descent.Fails.unlisted task more polled acquired listed) rfl⟩
  | failing error stop taken =>
      cases taken with
      | nil => exact absurd (phase_eq ▸ rfl : (race.phase call).Ended) going
      | cons lock rest => exact ⟨_, _, Step.gaveBack call phase_eq⟩
  | opened taken => exact absurd (phase_eq ▸ trivial : (race.phase call).Ended) going

omit [DecidableEq ι] [Fintype ι] in
/-- One call was stopped before another one was. -/
def Trails (race : Race σ ι) (call rival : ι) : Prop :=
  ∃ error stop taken failure further others, race.phase call = .failing error stop taken ∧
    race.phase rival = .failing failure further others ∧ stop.order further = .lt

omit [DecidableEq ι] [Fintype ι] in
theorem Trails.trans {first second third : ι} (earlier : race.Trails first second)
    (later : race.Trails second third) : race.Trails first third := by
  obtain ⟨error, stop, taken, _, middle, _, first_eq, second_eq, less⟩ := earlier
  obtain ⟨_, _, _, failure, further, others, second_eq', third_eq, less'⟩ := later
  rw [second_eq, Phase.failing.injEq] at second_eq'
  rw [← second_eq'.2.1] at less'
  exact ⟨error, stop, taken, failure, further, others, first_eq, third_eq,
    Std.TransCmp.lt_trans less less'⟩

omit [DecidableEq ι] [Fintype ι] in
theorem not_trails_self (race : Race σ ι) (call : ι) : ¬race.Trails call call := by
  rintro ⟨error, stop, taken, failure, further, others, here, there, less⟩
  rw [here, Phase.failing.injEq] at there
  rw [← there.2.1] at less
  exact Path.not_order_self stop less

omit [DecidableEq ι] [Fintype ι] in
/-- Some call was stopped no earlier than any other one. -/
theorem exists_not_trails [Finite ι] [Nonempty ι] (race : Race σ ι) :
    ∃ call, ∀ rival, ¬race.Trails call rival := by
  let Behind (rival call : ι) : Prop := race.Trails call rival
  have transitive : IsTrans ι Behind := ⟨fun _ _ _ first second => second.trans first⟩
  have irreflexive : Std.Irrefl Behind := ⟨not_trails_self race⟩
  have wellFounded : WellFounded Behind := Finite.wellFounded_of_trans_of_irrefl Behind
  obtain ⟨call, -, furthest⟩ := wellFounded.has_min Set.univ Set.univ_nonempty
  exact ⟨call, fun rival => furthest rival (Set.mem_univ rival)⟩

omit [DecidableEq ι] in
/-- A call that ended without a hierarchy was stopped before another one, unless its lock file could not be
opened or a call succeeded. -/
theorem Course.succeeded_or_trails (course : Course calls before race)
    (ended : ∀ call, (race.phase call).Ended) (call : ι) :
    (∃ call, (race.phase call).Succeeded) ∨
      (∃ failure stop, race.phase call = .failing (.io failure) stop [] ∧
          Obstructed calls before.files stop) ∨
        ∃ rival, race.Trails call rival := by
  have callEnded := ended call
  cases phase_eq : race.phase call with
  | waiting => simp [phase_eq, Phase.Ended] at callEnded
  | descending pending taken => simp [phase_eq, Phase.Ended] at callEnded
  | opened taken => exact Or.inl ⟨call, phase_eq ▸ trivial⟩
  | failing error stop taken =>
      obtain rfl : taken = [] := by simpa [phase_eq, Phase.Ended] using callEnded
      rcases course.explained call error stop [] phase_eq with
        ⟨-, rival, outdoes⟩ | ⟨⟨failure, rfl⟩, obstructed⟩
      · have rivalEnded := ended rival
        cases rival_eq : race.phase rival with
        | waiting => simp [rival_eq, Phase.Ended] at rivalEnded
        | descending pending taken => simp [rival_eq, Phase.Ended] at rivalEnded
        | opened taken => exact Or.inl ⟨rival, rival_eq ▸ trivial⟩
        | failing failure further others =>
            rw [rival_eq] at outdoes
            exact Or.inr (Or.inr ⟨rival, error, stop, [], failure, further, others, phase_eq, rival_eq,
              outdoes⟩)
      · exact Or.inr (Or.inl ⟨failure, stop, rfl, obstructed⟩)

/--
The claims are those from before the race and those of the locks that the calls hold. No two calls hold a
lock on the same directory, and what two calls have opened has no directory in common. A call fails only
because a directory is locked already, unless it comes to a lock file that cannot be opened. And when all calls
have ended, one of them has opened its hierarchy, unless one has failed for such a lock file.
-/
theorem exclusive_and_won [Nonempty ι] (ready : Ready calls before)
    (run : ReflTransGen (Step calls) (start before) race) :
    (∀ directory, race.world.isClaimed directory = true ↔
      (∃ call, ∃ lock ∈ (race.phase call).taken, lock.path.same directory = true) ∨
        before.isClaimed directory = true) ∧
    (∀ call rival, ∀ lock ∈ (race.phase call).taken, ∀ other ∈ (race.phase rival).taken,
      lock.path.same other.path = true → call = rival ∧ lock = other) ∧
    (∀ call rival taken others, call ≠ rival → race.phase call = .opened taken →
      race.phase rival = .opened others →
        (taken.map AreaLock.key).Disjoint (others.map AreaLock.key)) ∧
    (∀ call error stop taken, race.phase call = .failing error stop taken →
      error = .alreadyLocked stop ∨
        (∃ failure, error = .io failure) ∧ Obstructed calls before.files stop) ∧
    ((∀ call, (race.phase call).Ended) →
      (∃ call, (race.phase call).Succeeded) ∨
        ∃ call failure stop, race.phase call = .failing (.io failure) stop [] ∧
          Obstructed calls before.files stop) := by
  have course := Course.steps ready run
  obtain ⟨locks, holds⟩ := course.holds
  refine ⟨?_, ?_, ?_, ?_, ?_⟩
  · intro directory
    rw [holds.isClaimed_iff directory]
    refine or_congr_left ⟨?_, ?_⟩
    · rintro ⟨lock, lock_mem, same⟩
      obtain ⟨call, taken⟩ := holds.mem_iff.mp lock_mem
      exact ⟨call, lock, taken, same⟩
    · rintro ⟨call, lock, taken, same⟩
      exact ⟨lock, holds.mem_iff.mpr ⟨call, taken⟩, same⟩
  · intro call rival lock lock_mem other other_mem same
    have key_eq : lock.key = other.key := by simpa [Path.same, AreaLock.key] using same
    refine ⟨?_, ?_⟩
    · by_contra apart
      exact holds.apart apart lock_mem other_mem key_eq
    · exact List.inj_on_of_nodup_map holds.ledger.distinct (holds.mem_iff.mpr ⟨call, lock_mem⟩)
        (holds.mem_iff.mpr ⟨rival, other_mem⟩) key_eq
  · intro call rival taken others apart call_eq rival_eq key key_mem other_mem
    obtain ⟨lock, lock_mem, rfl⟩ := List.mem_map.mp key_mem
    obtain ⟨other, listed, same⟩ := List.mem_map.mp other_mem
    exact holds.apart apart (by rw [call_eq]; exact lock_mem) (by rw [rival_eq]; exact listed) same.symm
  · intro call error stop taken phase_eq
    exact (course.explained call error stop taken phase_eq).imp_left And.left
  · intro ended
    obtain ⟨call, furthest⟩ := exists_not_trails race
    rcases course.succeeded_or_trails ended call with won | obstructed | ⟨rival, trails⟩
    · exact Or.inl won
    · exact Or.inr ⟨call, obstructed⟩
    · exact absurd trails (furthest rival)

/-- A working copy with one versioned directory in another one. -/
def nestedCopy : World Unit where
  files := {
    nodes := [(["wc"], .directory), (["wc", ".svn"], .directory),
      (["wc", ".svn", "entries"], .file 0), (["wc", "sub"], .directory),
      (["wc", "sub", ".svn"], .directory), (["wc", "sub", ".svn", "entries"], .file 1)]
    contents := []
    nextFile := 2
    held := []
    current := [] }
  claims := []
  environment := default
  caller := ()

/-- A call for the whole working copy, and a call for the directory in it. -/
def nestedCalls : Bool → Call
  | false => ⟨⟨"/wc"⟩, true, .infinity⟩
  | true => ⟨⟨"/wc/sub"⟩, false, .infinity⟩

theorem wellFormed_nestedCopy : nestedCopy.files.WellFormed := by decide +kernel

theorem reach_nestedCopy {depth : Depth} {directory reached : Path}
    (reach : Reach nestedCopy.files depth directory reached)
    (known : directory = ⟨"/wc"⟩ ∨ directory = ⟨"/wc/sub"⟩) :
    reached = ⟨"/wc"⟩ ∨ reached = ⟨"/wc/sub"⟩ := by
  have top : nestedCopy.files.versionedChildren ⟨"/wc"⟩ = .ok [⟨"/wc/sub"⟩] := by decide +kernel
  have sub : nestedCopy.files.versionedChildren ⟨"/wc/sub"⟩ = .ok [] := by decide +kernel
  induction reach with
  | here => exact known
  | inside deeper listed child_mem further ih =>
      apply ih
      rcases known with rfl | rfl
      · rw [top, Except.ok.injEq] at listed
        rw [← listed] at child_mem
        exact Or.inr (List.mem_singleton.mp child_mem)
      · rw [sub, Except.ok.injEq] at listed
        rw [← listed] at child_mem
        simp at child_mem

theorem inReach_nestedCopy {directory : Path}
    (inReach : InReach nestedCalls nestedCopy.files directory) :
    directory = ⟨"/wc"⟩ ∨ directory = ⟨"/wc/sub"⟩ := by
  obtain ⟨call, location, found, reach⟩ := inReach
  apply reach_nestedCopy reach
  cases call with
  | false =>
      have entry : nestedCopy.files.entry true ⟨"/wc"⟩ = .ok (["wc"], .directory) := by decide +kernel
      rw [nestedCalls, entry, Except.ok.injEq, Prod.mk.injEq] at found
      rw [← found.1]
      exact Or.inl rfl
  | true =>
      have entry : nestedCopy.files.entry true ⟨"/wc/sub"⟩ = .ok (["wc", "sub"], .directory) := by
        decide +kernel
      rw [nestedCalls, entry, Except.ok.injEq, Prod.mk.injEq] at found
      rw [← found.1]
      exact Or.inr rfl

/-- The place of the lock file of each directory. -/
def nestedPlace (directory : Path) : Location :=
  if directory = ⟨"/wc"⟩ then ["wc", ".svn", "lock"] else ["wc", "sub", ".svn", "lock"]

theorem resolve_nestedCopy {directory : Path} (known : directory = ⟨"/wc"⟩ ∨ directory = ⟨"/wc/sub"⟩) :
    ∃ area, nestedPlace directory = area ++ [("lock" : OsText)] ∧
      nestedCopy.files.place (Area.lockFile directory) = .ok ⟨area, some "lock", false⟩ ∧
      nestedCopy.files.resolve true (Area.lockFile directory) = .ok (.vacant area "lock") := by
  rcases known with rfl | rfl
  · exact ⟨["wc", ".svn"], rfl, by decide +kernel, by decide +kernel⟩
  · exact ⟨["wc", "sub", ".svn"], rfl, by decide +kernel, by decide +kernel⟩

theorem touched_nestedCopy {directory : Path} {location : Location}
    (known : directory = ⟨"/wc"⟩ ∨ directory = ⟨"/wc/sub"⟩)
    (touched : nestedCopy.files.Touches (Area.lockFile directory) location) :
    location = nestedPlace directory := by
  obtain ⟨area, place_eq, placed, resolved⟩ := resolve_nestedCopy known
  rw [place_eq]
  rcases touched.meant with place | ⟨spot, leads, rfl⟩
  · exact place.unique ⟨area, "lock", placed, rfl⟩
  · rw [leads.unique (FileSystem.leadsTo_of_resolve resolved)]
    rfl

theorem vacant_nestedCopy {directory : Path} {location : Location}
    (inReach : InReach nestedCalls nestedCopy.files directory)
    (touched : nestedCopy.files.Touches (Area.lockFile directory) location) :
    nestedCopy.files.node? location = none := by
  have known := inReach_nestedCopy inReach
  rw [touched_nestedCopy known touched]
  rcases known with rfl | rfl <;> decide +kernel

theorem openFile_nestedCopy {directory : Path} (inReach : InReach nestedCalls nestedCopy.files directory) :
    ¬∃ failure, FileSystem.openFile (Area.lockFile directory) nestedCopy.files =
      .error failure nestedCopy.files := by
  obtain ⟨area, -, placed, resolved⟩ := resolve_nestedCopy (inReach_nestedCopy inReach)
  rw [FileSystem.openFile_error_iff placed]
  intro refusals
  obtain ⟨location, impossible⟩ := refusals _ resolved
  simp at impossible

/-- No lock file is where a record is, as nothing is where a lock file would be. -/
theorem recordUntouched_nestedCopy {path : Path}
    (settled : ∀ directory name,
      ¬nestedCopy.files.LeadsTo (Area.entriesFile path) (.vacant directory name)) :
    nestedCopy.files.RecordUntouched (lockFiles nestedCalls nestedCopy.files) path := by
  rintro (⟨location, node⟩ | ⟨directory, name⟩) leads
  · rintro _ ⟨directory, inReach, rfl⟩ touched
    have isNode : nestedCopy.files.node? location = some node := leads.sound wellFormed_nestedCopy
    have vacant : nestedCopy.files.node? location = none := vacant_nestedCopy inReach touched
    simp [vacant] at isNode
  · exact absurd leads (settled directory name)

theorem ready_nestedCopy : Ready nestedCalls nestedCopy where
  wellFormed := wellFormed_nestedCopy
  roots := by
    rintro (_ | _)
    · exact ⟨["wc"], by decide +kernel, by decide +kernel⟩
    · exact ⟨["wc", "sub"], by decide +kernel, by decide +kernel⟩
  unclaimed := fun _ _ => rfl
  unlocked := by simp [nestedCopy]
  unshared := by
    intro directory other location elsewhere inReach otherReach touched otherTouched shared
    have vacant := vacant_nestedCopy inReach touched
    rcases shared with rfl | ⟨identity, isFile, -⟩
    · have known := inReach_nestedCopy inReach
      have otherKnown := inReach_nestedCopy otherReach
      rw [touched_nestedCopy known touched] at otherTouched
      have same := touched_nestedCopy otherKnown otherTouched
      rcases known with rfl | rfl <;> rcases otherKnown with rfl | rfl
      · rfl
      · exact absurd same (by decide)
      · exact absurd same (by decide)
      · rfl
    · simp [vacant] at isFile
  records := by
    intro directory inReach
    apply recordUntouched_nestedCopy
    rcases inReach_nestedCopy inReach with rfl | rfl
    · have found : nestedCopy.files.resolve true (Area.entriesFile ⟨"/wc"⟩) =
          .ok (.found ["wc", ".svn", "entries"] (.file 0)) := by decide +kernel
      exact FileSystem.not_leadsTo_vacant found
    · have found : nestedCopy.files.resolve true (Area.entriesFile ⟨"/wc/sub"⟩) =
          .ok (.found ["wc", "sub", ".svn", "entries"] (.file 1)) := by decide +kernel
      exact FileSystem.not_leadsTo_vacant found
  childRecords := by
    intro directory location name inReach found isDirectory
    apply recordUntouched_nestedCopy
    have listed := FileSystem.mem_of_node? (by simp) isDirectory
    rcases inReach_nestedCopy inReach with rfl | rfl
    · have top : nestedCopy.files.entry true ⟨"/wc"⟩ = .ok (["wc"], .directory) := by decide +kernel
      rw [top, Except.ok.injEq, Prod.mk.injEq] at found
      obtain ⟨rfl, -⟩ := found
      obtain rfl | rfl : name = ".svn" ∨ name = "sub" := by simpa [nestedCopy] using listed
      · have failed : nestedCopy.files.resolve true
            (Area.entriesFile (Path.join ⟨"/wc"⟩ ".svn")) = .error .notFound := by decide +kernel
        exact fun _ _ => FileSystem.not_leadsTo failed (by decide)
      · have record : nestedCopy.files.resolve true
            (Area.entriesFile (Path.join ⟨"/wc"⟩ "sub")) =
              .ok (.found ["wc", "sub", ".svn", "entries"] (.file 1)) := by decide +kernel
        exact FileSystem.not_leadsTo_vacant record
    · have sub : nestedCopy.files.entry true ⟨"/wc/sub"⟩ = .ok (["wc", "sub"], .directory) := by
        decide +kernel
      rw [sub, Except.ok.injEq, Prod.mk.injEq] at found
      obtain ⟨rfl, -⟩ := found
      obtain rfl : name = ".svn" := by simpa [nestedCopy] using listed
      have failed : nestedCopy.files.resolve true
          (Area.entriesFile (Path.join ⟨"/wc/sub"⟩ ".svn")) = .error .notFound := by decide +kernel
      exact fun _ _ => FileSystem.not_leadsTo failed (by decide)

theorem canonical_nestedCopy :
    (stateAfter (nestedCalls false).opening nestedCopy).files.canonical ⟨"/wc/sub"⟩ =
      .ok ⟨"/wc/sub"⟩ := by
  decide +kernel

/-- When one call opens its hierarchy and then the other one fails, both have ended. -/
theorem ended_of_opening {calls : Bool → Call} {before middle after : World σ}
    {hierarchy : Hierarchy} {error : Error} {real : Path}
    (opened : (calls false).opening before = .ok hierarchy middle)
    (refused : (calls true).opening middle = .error error after)
    (canonical : middle.files.canonical (calls true).path = .ok real) :
    ∃ race, ReflTransGen (Step calls) (start before) race ∧ ∀ call, (race.phase call).Ended := by
  have start_waits : (start before : Race σ Bool).phase false = .waiting := rfl
  obtain ⟨root, taken, first, -⟩ := opened_of_opening start_waits opened
  have waits : ((start before : Race σ Bool).advance false middle (.opened taken)).phase true =
      .waiting := phase_advance_of_ne (by decide) _ _ _
  rcases failed_of_opening waits refused with ⟨stop, second⟩ | ⟨astray, -⟩
  · refine ⟨_, first.trans second, ?_⟩
    rintro (_ | _)
    · rw [phase_advance_of_ne (by decide), phase_advance_self]
      trivial
    · rw [phase_advance_self]
      rfl
  · rw [world_advance, canonical] at astray
    simp at astray

/-- One call opens the whole working copy, and the other one is refused the directory in it. -/
theorem exclusive_and_won_of_nested_calls :
    ∃ race, ReflTransGen (Step nestedCalls) (start nestedCopy) race ∧
      (∀ call, (race.phase call).Ended) ∧ ∃ call, (race.phase call).Succeeded := by
  obtain ⟨hierarchy, opened, -⟩ := ok_of_yields (nestedCalls false).opening nestedCopy
    (fun _ => true) (by decide +kernel)
  obtain ⟨error, refused⟩ := error_of_not_yields (nestedCalls true).opening
    (stateAfter (nestedCalls false).opening nestedCopy) (by decide +kernel)
  obtain ⟨race, run, ended⟩ := ended_of_opening opened refused canonical_nestedCopy
  obtain ⟨-, -, -, -, won⟩ := exclusive_and_won ready_nestedCopy run
  refine ⟨race, run, ended, ?_⟩
  rcases won ended with succeeded | ⟨_, _, stop, -, inReach, unopenable⟩
  · exact succeeded
  · exact absurd unopenable (openFile_nestedCopy inReach)

end Race

end Checkout
