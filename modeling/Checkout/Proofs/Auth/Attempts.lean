import Checkout.Proofs.Auth.Unattended

/-!
# Attempts of a prompt

Where somebody can be asked, the callback of a prompt is called until it fails, fills in a record of
another kind or completes its record, or until it has been called as often as it may. The rules below
look at the attempts by their numbers. What the callback is told and handed in an attempt depends on
the number only, so an earlier record reaches a later attempt only if the callback itself keeps it.
-/

namespace Checkout

variable {σ : Type}

namespace PromptSource

section Rules

variable (source : PromptSource σ) (realm : String) (parameters : Parameters) (caller : σ)

/-- What the callback is told after a number of failed attempts. -/
def told (failed : Nat) : PromptContext where
  kind := source.kind
  realm := realm
  priorFailures := failed
  maySave := !parameters.flag ParameterKey.noAuthCache
  username := parameters.text? ParameterKey.username
  failures := parameters.failures ParameterKey.serverFailures

/-- The record the callback is handed in every attempt. -/
def blank : Credential :=
  .empty source.kind (!parameters.flag ParameterKey.noAuthCache)

def ask (failed : Nat) : StateM σ (Except Error Credential) :=
  source.prompt (source.told realm parameters failed) (source.blank parameters)

/-- The caller after a number of attempts. -/
def callerAfter : Nat → σ
  | 0 => caller
  | failed + 1 => (source.ask realm parameters failed (callerAfter failed)).2

/-- What comes back from the callback in the attempt after a number of failed ones. -/
def reply (failed : Nat) : Except Error Credential :=
  (source.ask realm parameters failed (source.callerAfter realm parameters caller failed)).1

/-- The record is of the right kind, but something is missing in it. -/
inductive FallsShort : Except Error Credential → Prop where
  | incomplete {record : Credential} (kind_eq : record.kind = source.kind)
      (lacking : record.isComplete = false) : FallsShort (.ok record)

/-- A reply decides what comes of the attempts. -/
inductive Decides : Except Error Credential → Except Error (Option Credential) → Prop where
  | refused (error : Error) : Decides (.error error) (.error error)
  /-- The kind of a record counts before its completeness. -/
  | otherKind {record : Credential} (differs : record.kind ≠ source.kind) :
      Decides (.ok record) (.error (.invalidArgument ("prompt for " ++ source.kind.name ++
        " returned a " ++ record.kind.name ++ " credential")))
  | completed {record : Credential} (kind_eq : record.kind = source.kind)
      (complete : record.isComplete = true) :
      Decides (.ok record) (.ok (some
        (if parameters.flag ParameterKey.noAuthCache then record.withMaySave false else record)))

/-- How often the callback may be called: once more than it may be repeated, but no more often than
32 bits can count. -/
def allowance : Nat :=
  min (source.retryLimit.toNat + 1) 4294967295

def AllFallShort (count : Nat) : Prop :=
  ∀ failed < count, source.FallsShort (source.reply realm parameters caller failed)

/-- The callback has been called a number of times, and the attempts come to an outcome. -/
inductive EndsAfter : Nat → Except Error (Option Credential) → Prop where
  | decided {failed : Nat} {outcome : Except Error (Option Credential)}
      (allowed : failed < source.allowance)
      (before : source.AllFallShort realm parameters caller failed)
      (decides : source.Decides parameters (source.reply realm parameters caller failed) outcome) :
      EndsAfter (failed + 1) outcome
  | gaveUp (all : source.AllFallShort realm parameters caller source.allowance) :
      EndsAfter source.allowance (.error (.promptExhausted source.kind realm source.allowance))

/-- The call of the callback after a number of failed attempts, where the prompt has a position in a
chain. -/
def call (position failed : Nat) : ProviderCall :=
  .prompt position (source.told realm parameters failed) (source.blank parameters)

end Rules

variable {source : PromptSource σ} {realm : String} {parameters : Parameters} {caller : σ}

/-! ## One way to end -/

theorem Decides.not_fallsShort {reply : Except Error Credential}
    {outcome : Except Error (Option Credential)} (decides : source.Decides parameters reply outcome) :
    ¬source.FallsShort reply := by
  intro short
  cases short with
  | incomplete kind_eq lacking =>
      cases decides with
      | otherKind differs => exact differs kind_eq
      | completed _ complete => simp [complete] at lacking

theorem Decides.unique {reply : Except Error Credential}
    {first second : Except Error (Option Credential)} (one : source.Decides parameters reply first)
    (other : source.Decides parameters reply second) : first = second := by
  cases one with
  | refused error => cases other; rfl
  | otherKind differs =>
      cases other with
      | otherKind _ => rfl
      | completed kind_eq _ => exact absurd kind_eq differs
  | completed kind_eq complete =>
      cases other with
      | otherKind differs => exact absurd kind_eq differs
      | completed _ _ => rfl

/-- An attempt that falls short is followed by another one, unless it was the last one allowed. -/
theorem EndsAfter.lt_of_allFallShort {count later : Nat} {outcome : Except Error (Option Credential)}
    (ends : source.EndsAfter realm parameters caller count outcome) (allowed : later < source.allowance)
    (short : source.AllFallShort realm parameters caller later) : later < count := by
  cases ends with
  | decided _ _ decides =>
      by_contra behind
      exact decides.not_fallsShort (short _ (by omega))
  | gaveUp _ => exact allowed

theorem EndsAfter.unique {count other : Nat} {first second : Except Error (Option Credential)}
    (one : source.EndsAfter realm parameters caller count first)
    (another : source.EndsAfter realm parameters caller other second) :
    count = other ∧ first = second := by
  cases one with
  | @decided failed _ allowed before decides =>
      cases another with
      | @decided later _ allowed_later before_later decides_later =>
          have ahead := (EndsAfter.decided allowed before decides).lt_of_allFallShort
            allowed_later before_later
          have behind := (EndsAfter.decided allowed_later before_later decides_later).lt_of_allFallShort
            allowed before
          obtain rfl : failed = later := by omega
          exact ⟨rfl, decides.unique decides_later⟩
      | gaveUp all => exact absurd (all failed allowed) decides.not_fallsShort
  | gaveUp all =>
      cases another with
      | decided allowed _ decides => exact absurd (all _ allowed) decides.not_fallsShort
      | gaveUp _ => exact ⟨rfl, rfl⟩

/-! ## Making the attempts -/

theorem AllFallShort.succ {failed : Nat}
    (before : source.AllFallShort realm parameters caller failed)
    (short : source.FallsShort (source.reply realm parameters caller failed)) :
    source.AllFallShort realm parameters caller (failed + 1) := by
  intro earlier bound
  rcases Nat.lt_succ_iff_lt_or_eq.mp bound with bound | rfl
  · exact before earlier bound
  · exact short

theorem ask_eq (source : PromptSource σ) (realm : String) (parameters : Parameters) (failed : Nat) :
    source.ask realm parameters failed =
      source.prompt (source.context realm parameters failed)
        (.empty source.kind parameters.maySave) := rfl

theorem attempt_succ_of_complete {failed remaining : Nat} {record : Credential} {last : σ}
    (asked : source.ask realm parameters failed caller = (.ok record, last))
    (kind_eq : record.kind = source.kind) (complete : record.isComplete = true) :
    source.attempt realm parameters failed (remaining + 1) caller =
      (.ok (some (record.restrict parameters)), last) := by
  rw [attempt_succ, ← ask_eq, asked]
  simp only [kind_eq, complete, ne_eq, not_true_eq_false, if_false, if_true]

theorem attempt_succ_of_incomplete {failed remaining : Nat} {record : Credential} {last : σ}
    (asked : source.ask realm parameters failed caller = (.ok record, last))
    (kind_eq : record.kind = source.kind) (lacking : record.isComplete = false) :
    source.attempt realm parameters failed (remaining + 1) caller =
      source.attempt realm parameters (failed + 1) remaining last := by
  rw [attempt_succ, ← ask_eq, asked]
  simp only [kind_eq, lacking, ne_eq, not_true_eq_false, if_false, Bool.false_eq_true]

/-- A reply decides, or it leaves the decision to the later attempts. -/
theorem attempt_succ_ask (source : PromptSource σ) (realm : String) (parameters : Parameters)
    (failed remaining : Nat) (caller : σ) :
    (∃ outcome, source.Decides parameters (source.ask realm parameters failed caller).1 outcome ∧
      source.attempt realm parameters failed (remaining + 1) caller =
        (outcome, (source.ask realm parameters failed caller).2)) ∨
    (source.FallsShort (source.ask realm parameters failed caller).1 ∧
      source.attempt realm parameters failed (remaining + 1) caller =
        source.attempt realm parameters (failed + 1) remaining
          (source.ask realm parameters failed caller).2) := by
  rw [attempt_succ, ← ask_eq]
  rcases source.ask realm parameters failed caller with ⟨_ | record, last⟩
  · exact .inl ⟨_, .refused _, rfl⟩
  · dsimp only
    split_ifs with differs complete
    · exact .inl ⟨_, .otherKind differs, rfl⟩
    · refine .inl ⟨_, .completed (not_not.mp differs) complete, ?_⟩
      simp only [Credential.restrict, Parameters.maySave, Bool.not_eq_true']
      split_ifs <;> simp_all
    · exact .inr ⟨.incomplete (not_not.mp differs) (by simpa using complete), rfl⟩

/-- From where every attempt so far fell short, the later ones end by the rules. -/
theorem attempt_ends {failed remaining : Nat} (left : failed + remaining = source.allowance)
    (before : source.AllFallShort realm parameters caller failed) :
    ∃ count outcome, source.EndsAfter realm parameters caller count outcome ∧
      source.attempt realm parameters failed remaining
          (source.callerAfter realm parameters caller failed) =
        (outcome, source.callerAfter realm parameters caller count) := by
  induction remaining generalizing failed with
  | zero =>
      obtain rfl : failed = source.allowance := left
      exact ⟨_, _, .gaveUp before, rfl⟩
  | succ remaining ih =>
      rcases source.attempt_succ_ask realm parameters failed remaining
        (source.callerAfter realm parameters caller failed) with
        ⟨outcome, decides, ended⟩ | ⟨short, goes_on⟩
      · exact ⟨failed + 1, outcome, .decided (by omega) before decides, ended⟩
      · rcases ih (by omega) (before.succ short) with ⟨count, outcome, ends, ended⟩
        exact ⟨count, outcome, ends, goes_on.trans ended⟩

/-! ## Recording the calls -/

theorem ask_recorded (source : PromptSource σ) (position failed : Nat) (caller : σ)
    (calls : List ProviderCall) :
    (source.recorded position).ask realm parameters failed (caller, calls) =
      ((source.ask realm parameters failed caller).1, (source.ask realm parameters failed caller).2,
        calls ++ [source.call realm parameters position failed]) := rfl

theorem callerAfter_recorded (source : PromptSource σ) (position : Nat) (caller : σ)
    (calls : List ProviderCall) (count : Nat) :
    (source.recorded position).callerAfter realm parameters (caller, calls) count =
      (source.callerAfter realm parameters caller count,
        calls ++ (List.range count).map (source.call realm parameters position)) := by
  induction count with
  | zero => rw [List.range_zero, List.map_nil, List.append_nil]; rfl
  | succ failed ih =>
      rw [callerAfter, ih, ask_recorded, List.range_succ, List.map_append, List.append_assoc]
      rfl

theorem reply_recorded (source : PromptSource σ) (position : Nat) (caller : σ)
    (calls : List ProviderCall) :
    (source.recorded position).reply realm parameters (caller, calls) =
      source.reply realm parameters caller := by
  funext failed
  rw [reply, callerAfter_recorded, ask_recorded, reply]

theorem FallsShort.recorded {reply : Except Error Credential} {position : Nat}
    (short : (source.recorded position).FallsShort reply) : source.FallsShort reply := by
  cases short with
  | incomplete kind_eq lacking => exact .incomplete kind_eq lacking

theorem AllFallShort.recorded {position count : Nat} {calls : List ProviderCall}
    (all : (source.recorded position).AllFallShort realm parameters (caller, calls) count) :
    source.AllFallShort realm parameters caller count := by
  rw [AllFallShort, reply_recorded] at all
  exact fun failed bound => (all failed bound).recorded

theorem EndsAfter.recorded {position count : Nat} {calls : List ProviderCall}
    {outcome : Except Error (Option Credential)}
    (ends : (source.recorded position).EndsAfter realm parameters (caller, calls) count outcome) :
    source.EndsAfter realm parameters caller count outcome := by
  cases ends with
  | decided allowed before decides =>
      rw [reply_recorded] at decides
      refine .decided allowed before.recorded ?_
      generalize source.reply realm parameters caller _ = reply at decides
      cases decides with
      | refused error => exact .refused error
      | otherKind differs => exact .otherKind differs
      | completed kind_eq complete => exact .completed kind_eq complete
  | gaveUp all => exact .gaveUp all.recorded

/-! ## The outcome -/

theorem produce_of_attended
    (attended : parameters.get? ParameterKey.nonInteractive ≠ some (.flag true)) :
    source.produce realm parameters caller =
      source.attempt realm parameters 0 source.allowance caller := by
  simp only [produce, Parameters.flag, attended, decide_false, Bool.false_eq_true, if_false]
  rfl

theorem produce_ends
    (attended : parameters.get? ParameterKey.nonInteractive ≠ some (.flag true))
    (source : PromptSource σ) (realm : String) (caller : σ) :
    ∃ count outcome, source.EndsAfter realm parameters caller count outcome ∧
      source.produce realm parameters caller =
        (outcome, source.callerAfter realm parameters caller count) := by
  rw [produce_of_attended attended]
  exact attempt_ends (Nat.zero_add _) fun _ none => absurd none (Nat.not_lt_zero _)

theorem produce_of_endsAfter
    (attended : parameters.get? ParameterKey.nonInteractive ≠ some (.flag true)) {count : Nat}
    {outcome : Except Error (Option Credential)}
    (ends : source.EndsAfter realm parameters caller count outcome) :
    source.produce realm parameters caller =
      (outcome, source.callerAfter realm parameters caller count) := by
  rcases produce_ends attended source realm caller with ⟨_, _, other, produced⟩
  obtain ⟨rfl, rfl⟩ := ends.unique other
  exact produced

/-- A complete record behind attempts that fall short is handed out. -/
theorem produce_of_complete
    (attended : parameters.get? ParameterKey.nonInteractive ≠ some (.flag true)) {failed : Nat}
    (allowed : failed < source.allowance) (before : source.AllFallShort realm parameters caller failed)
    {record : Credential} {last : σ}
    (asked : source.ask realm parameters failed (source.callerAfter realm parameters caller failed) =
      (.ok record, last))
    (kind_eq : record.kind = source.kind) (complete : record.isComplete = true)
    (saved : record.maySave = !parameters.flag ParameterKey.noAuthCache) :
    source.produce realm parameters caller = (.ok (some record), last) := by
  have reply : source.reply realm parameters caller failed = .ok record := congrArg Prod.fst asked
  have after : source.callerAfter realm parameters caller (failed + 1) = last := congrArg Prod.snd asked
  have same : (if parameters.flag ParameterKey.noAuthCache then record.withMaySave false else record) =
      record := by
    split_ifs with forbidden
    · cases record <;> simp_all [Credential.maySave, Credential.withMaySave]
    · rfl
  have decides : source.Decides parameters (source.reply realm parameters caller failed)
      (.ok (some record)) := by
    have completed : source.Decides parameters (.ok record) _ := .completed kind_eq complete
    rwa [same, ← reply] at completed
  rw [produce_of_endsAfter attended (.decided allowed before decides), after]

/--
Where somebody can be asked, the attempts of a prompt end in the one way that the rules allow. The
callback is called as often as they say, told how many attempts have failed before and else the same in
every attempt, and handed a blank record each time.
-/
theorem produce_by_attempts
    (attended : parameters.get? ParameterKey.nonInteractive ≠ some (.flag true))
    (source : PromptSource σ) (realm : String) (caller : σ) (position : Nat)
    (calls : List ProviderCall) :
    ∃ count outcome,
      source.produce realm parameters caller =
        (outcome, source.callerAfter realm parameters caller count) ∧
      (source.recorded position).produce realm parameters (caller, calls) =
        (outcome, source.callerAfter realm parameters caller count,
          calls ++ (List.range count).map (source.call realm parameters position)) ∧
      source.EndsAfter realm parameters caller count outcome ∧
      ∀ other another, source.EndsAfter realm parameters caller other another →
        other = count ∧ another = outcome := by
  rcases produce_ends attended source realm caller with ⟨count, outcome, ends, produced⟩
  rcases produce_ends attended (source.recorded position) realm (caller, calls) with
    ⟨noted, again, ends_noted, produced_noted⟩
  obtain ⟨rfl, rfl⟩ := ends_noted.recorded.unique ends
  rw [callerAfter_recorded] at produced_noted
  exact ⟨noted, again, produced, produced_noted, ends, fun _ _ found => found.unique ends⟩

/-- A callback that replies by a script, whatever it is told and handed. -/
def scriptedPrompt : Prompt (List (Except Error Credential)) :=
  fun _ _ script => (script.headD (.error .cancelled), script.tail)

/-- The first reply lacks the name, the second one has it and must not be remembered, and the third one
is not asked for. -/
theorem produce_by_attempts_of_script :
    let source : PromptSource _ := ⟨.username, 4294967295, scriptedPrompt⟩
    let parameters := Parameters.empty.set ParameterKey.noAuthCache (.flag true)
    let script := [.ok (.username "" true), .ok (.username "alice" true), .error .cancelled]
    parameters.get? ParameterKey.nonInteractive ≠ some (.flag true) ∧
    source.EndsAfter "realm" parameters script 2 (.ok (some (.username "alice" false))) ∧
    (source.recorded 0).produce "realm" parameters (script, []) =
      (.ok (some (.username "alice" false)), [.error .cancelled],
        [source.call "realm" parameters 0 0, source.call "realm" parameters 0 1]) := by
  intro source parameters script
  have attended : parameters.get? ParameterKey.nonInteractive ≠ some (.flag true) := by decide
  rcases produce_by_attempts attended source "realm" script 0 [] with
    ⟨count, outcome, -, recorded, ends, -⟩
  have run : (source.recorded 0).produce "realm" parameters (script, []) =
      (.ok (some (.username "alice" false)), [.error .cancelled],
        [source.call "realm" parameters 0 0, source.call "realm" parameters 0 1]) := by
    rw [produce_of_attended attended]
    rfl
  rw [recorded, List.nil_append, Prod.mk.injEq, Prod.mk.injEq] at run
  obtain ⟨rfl, -, called⟩ := run
  have twice : count = 2 := by simpa using congrArg List.length called
  subst twice
  exact ⟨attended, ends, recorded⟩

end PromptSource

end Checkout
