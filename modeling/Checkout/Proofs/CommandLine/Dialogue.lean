import Checkout.Proofs.CommandLine.Naming
import Checkout.Proofs.CommandLine.Secrets

/-!
# Asking for a credential

Where the settings have no credential to offer, the command that resolves one asks for it on the console. Each
attempt reads one line of standard input, and the first line that is an answer ends the attempts. The rules of
the dialogue say which line that is, what is read behind it, and what has been written by then.
-/

namespace Checkout.CommandLine

namespace Console

/-! ## The rules -/

/-- What stands between two attempts. -/
def retryNotice : String := "Authentication failed, try again.\n"

def attemptText (realm : String) (offer : Option String) : String :=
  "Authentication realm: " ++ realm ++ "\n" ++ question "Username" offer

/-- What a number of attempts write: each that fails and is followed by another one is followed by the notice. -/
def attemptsText (realm : String) (offer : Option String) (attempts : Nat) : String :=
  String.intercalate retryNotice (List.replicate attempts (attemptText realm offer))

/-- The answer to an attempt is the line of its number. An empty line stands for the name that is offered, if
one is. -/
def IsAnswer (offer : Option String) (input : List String) (attempt : Nat) (answer : String) : Prop :=
  ∃ line, input[attempt]? = some line ∧
    answer = if trimLineEnd line = "" then offer.getD "" else trimLineEnd line

/-- No attempt has an answer that is not empty. -/
def IsSilent (offer : Option String) (input : List String) (attempts : Nat) : Prop :=
  ∀ attempt < attempts, ∀ answer, IsAnswer offer input attempt answer → answer = ""

/-- The first answer that is not empty. -/
structure IsFirstAnswer (offer : Option String) (input : List String) (attempt : Nat) (user : String) :
    Prop where
  answers : IsAnswer offer input attempt user
  nonempty : user ≠ ""
  before : IsSilent offer input attempt

/-- The credential that comes of asking, what has been written by then, and which lines are left. -/
inductive Dialogue (realm : String) (offer : Option String) (maySave : Bool) (limit : Nat)
    (input : List String) : CredentialKind → Option Credential → String → List String → Prop where
  | name {attempt : Nat} {user : String} (allowed : attempt ≤ limit)
      (first : IsFirstAnswer offer input attempt user) :
      Dialogue realm offer maySave limit input .username (some (.username user maySave))
        (attemptsText realm offer (attempt + 1)) (input.drop (attempt + 1))
  /-- The line behind the name, if there is one, is the password. -/
  | pair {attempt : Nat} {user : String} (allowed : attempt ≤ limit)
      (first : IsFirstAnswer offer input attempt user) :
      Dialogue realm offer maySave limit input .simple
        (some (.simple user ((input[attempt + 1]?.map trimLineEnd).getD "") maySave))
        (attemptsText realm offer (attempt + 1) ++ question ("Password for '" ++ user ++ "'") none)
        (input.drop (attempt + 2))
  | unanswered {kind : CredentialKind} (silent : IsSilent offer input (limit + 1)) :
      Dialogue realm offer maySave limit input kind none
        (attemptsText realm offer (limit + 1)) (input.drop (limit + 1))

theorem attemptsText_succ (realm : String) (offer : Option String) (failed : Nat) :
    attemptsText realm offer (failed + 1) =
      attemptsText realm offer failed ++ (if 0 < failed then retryNotice else "") ++
        attemptText realm offer := by
  cases failed with
  | zero =>
      rw [attemptsText, attemptsText, List.replicate_one, List.replicate_zero, String.intercalate_singleton,
        String.intercalate_nil, if_neg (Nat.lt_irrefl 0), String.append_empty, String.empty_append]
  | succ failed =>
      have asked : List.replicate (failed + 1) (attemptText realm offer) ≠ [] := List.cons_ne_nil _ _
      have last : [attemptText realm offer] ≠ [] := List.cons_ne_nil _ _
      rw [if_pos failed.succ_pos, attemptsText, List.replicate_succ',
        String.intercalate_append_of_ne_nil asked last, String.intercalate_singleton, attemptsText]

/-- What a number of attempts put on standard error. -/
def attemptsPassages (kind : CredentialKind) (realm : String) (offer : Option String) : Nat → List Passage
  | 0 => []
  | failed + 1 =>
      attemptsPassages kind realm offer failed ++
        (if 0 < failed then [.event (.leftEmpty kind realm (failed - 1)), .text retryNotice] else []) ++
        [.text ("Authentication realm: " ++ realm ++ "\n"), .text (question "Username" offer)]

theorem ownText_attemptsPassages (kind : CredentialKind) (realm : String) (offer : Option String)
    (attempts : Nat) :
    ownText (attemptsPassages kind realm offer attempts) = attemptsText realm offer attempts := by
  induction attempts with
  | zero => rw [attemptsPassages, ownText_nil, attemptsText, List.replicate_zero, String.intercalate_nil]
  | succ failed ih =>
      have noticed : ownText (if 0 < failed then [.event (.leftEmpty kind realm (failed - 1)), .text retryNotice]
          else []) = if 0 < failed then retryNotice else "" := by
        by_cases earlier : 0 < failed
        · rw [if_pos earlier, if_pos earlier, ownText_event, ownText_singleton]
        · rw [if_neg earlier, if_neg earlier, ownText_nil]
      rw [attemptsPassages, attemptsText_succ, ownText_append, ownText_append, ih, noticed, ownText_text,
        ownText_singleton]
      rfl

/-- What an attempt puts on standard error behind the earlier ones. -/
theorem attemptsPassages_append_heading (context : PromptContext) :
    attemptsPassages context.kind context.realm context.username context.priorFailures ++ heading context ++
        [.text (question "Username" context.username)] =
      attemptsPassages context.kind context.realm context.username (context.priorFailures + 1) := by
  simp only [attemptsPassages, heading, retryNotice, List.append_assoc, List.singleton_append]

/-! ## Answers -/

section Answers

variable {offer : Option String} {input : List String} {attempt : Nat} {user : String}

theorem answer?_eq_some_iff (visible : offer ≠ some "") :
    answer? offer input[attempt]? = some user ↔ IsAnswer offer input attempt user ∧ user ≠ "" := by
  rw [answer?, Option.bind_eq_some_iff]
  constructor
  · rintro ⟨line, read, answered⟩
    refine ⟨⟨line, read, ?_⟩, ?_⟩
    · split_ifs at answered ⊢ with blank
      · rw [answered]
        rfl
      · exact (Option.some.inj answered).symm
    · rintro rfl
      split_ifs at answered with blank
      · exact visible answered
      · exact blank (Option.some.inj answered)
  · rintro ⟨⟨line, read, rfl⟩, nonempty⟩
    refine ⟨line, read, ?_⟩
    split_ifs at nonempty ⊢ with blank
    · cases offer with
      | none => exact absurd rfl nonempty
      | some offered => rfl
    · rfl

theorem answer?_eq_none_iff (visible : offer ≠ some "") :
    answer? offer input[attempt]? = none ↔ ∀ answer, IsAnswer offer input attempt answer → answer = "" := by
  rw [Option.eq_none_iff_forall_ne_some]
  constructor
  · intro silent answer answers
    by_contra nonempty
    exact silent answer ((answer?_eq_some_iff visible).mpr ⟨answers, nonempty⟩)
  · intro silent user answered
    obtain ⟨answers, nonempty⟩ := (answer?_eq_some_iff visible).mp answered
    exact nonempty (silent user answers)

theorem IsFirstAnswer.not_isSilent {limit : Nat} (first : IsFirstAnswer offer input attempt user)
    (allowed : attempt ≤ limit) : ¬IsSilent offer input (limit + 1) := fun silent =>
  first.nonempty (silent attempt (Nat.lt_succ_of_le allowed) user first.answers)

theorem IsFirstAnswer.unique {later : Nat} {other : String} (first : IsFirstAnswer offer input attempt user)
    (second : IsFirstAnswer offer input later other) : attempt = later ∧ user = other := by
  obtain earlier | rfl | earlier := Nat.lt_trichotomy attempt later
  · exact absurd (second.before attempt earlier user first.answers) first.nonempty
  · obtain ⟨line, read, rfl⟩ := first.answers
    obtain ⟨same, read_same, rfl⟩ := second.answers
    obtain rfl := Option.some.inj (read.symm.trans read_same)
    exact ⟨rfl, rfl⟩
  · exact absurd (first.before later earlier other second.answers) second.nonempty

/-- Some attempt has the first answer, or none has one. -/
theorem exists_first_or_isSilent (offer : Option String) (input : List String) (attempts : Nat) :
    (∃ attempt < attempts, ∃ user, IsFirstAnswer offer input attempt user) ∨
      IsSilent offer input attempts := by
  induction attempts with
  | zero => exact .inr fun attempt none => absurd none (Nat.not_lt_zero attempt)
  | succ attempts ih =>
      rcases ih with ⟨attempt, bound, user, first⟩ | silent
      · exact .inl ⟨attempt, Nat.lt_succ_of_lt bound, user, first⟩
      · by_cases answered : ∃ user, IsAnswer offer input attempts user ∧ user ≠ ""
        · obtain ⟨user, answers, nonempty⟩ := answered
          exact .inl ⟨attempts, Nat.lt_succ_self attempts, user, answers, nonempty, silent⟩
        · refine .inr fun attempt bound answer answers => ?_
          rcases Nat.lt_succ_iff_lt_or_eq.mp bound with earlier | rfl
          · exact silent attempt earlier answer answers
          · by_contra nonempty
            exact answered ⟨answer, answers, nonempty⟩

/-- A line that is read as a password is taken as it is. -/
theorem getD_answer?_none (line? : Option String) :
    (answer? none line?).getD "" = (line?.map trimLineEnd).getD "" := by
  cases line? with
  | none => rfl
  | some line =>
      simp only [answer?, Option.bind_some, Option.map_some, Option.getD_some]
      split_ifs with blank
      · exact blank.symm
      · rfl

theorem lines_iterate_behind (count : Nat) (text : String) :
    lines (behind^[count] text) = (lines text).drop count := by
  induction count with
  | zero => rfl
  | succ count ih => rw [Function.iterate_succ_apply', lines_behind, ih, List.tail_drop]

end Answers

namespace Dialogue

variable {realm transcript another : String} {offer : Option String} {maySave : Bool} {limit : Nat}
  {input left rest : List String} {kind : CredentialKind} {credential? other? : Option Credential}
  {credential : Credential}

/-- A dialogue brings a credential exactly if one of its attempts has an answer that is not empty. -/
theorem isSome_iff (dialogue : Dialogue realm offer maySave limit input kind credential? transcript left) :
    credential?.isSome = true ↔ ∃ attempt ≤ limit, ∃ user, user ≠ "" ∧ IsAnswer offer input attempt user := by
  cases dialogue with
  | @name attempt user allowed first | @pair attempt user allowed first =>
      exact ⟨fun _ => ⟨attempt, allowed, user, first.nonempty, first.answers⟩, fun _ => rfl⟩
  | unanswered silent =>
      refine ⟨fun granted => absurd granted Bool.false_ne_true, ?_⟩
      rintro ⟨attempt, allowed, user, nonempty, answers⟩
      exact absurd (silent attempt (Nat.lt_succ_of_le allowed) user answers) nonempty

theorem usable (dialogue : Dialogue realm offer maySave limit input kind (some credential) transcript left) :
    credential.kind = kind ∧ credential.isComplete = true := by
  cases dialogue with
  | name _ first | pair _ first => exact ⟨rfl, decide_eq_true first.nonempty⟩

theorem maySave_eq
    (dialogue : Dialogue realm offer maySave limit input kind (some credential) transcript left) :
    credential.maySave = maySave := by
  cases dialogue <;> rfl

theorem exists_user
    (dialogue : Dialogue realm offer maySave limit input kind (some credential) transcript left) :
    ∃ user, credential.user? = some user ∧ user ≠ "" := by
  cases dialogue with
  | name _ first | pair _ first => exact ⟨_, rfl, first.nonempty⟩

/-- The rules allow one dialogue only. -/
theorem unique (one : Dialogue realm offer maySave limit input kind credential? transcript left)
    (two : Dialogue realm offer maySave limit input kind other? another rest) :
    credential? = other? ∧ transcript = another ∧ left = rest := by
  cases one with
  | name allowed first =>
      cases two with
      | name _ second =>
          obtain ⟨rfl, rfl⟩ := first.unique second
          exact ⟨rfl, rfl, rfl⟩
      | unanswered silent => exact absurd silent (first.not_isSilent allowed)
  | pair allowed first =>
      cases two with
      | pair _ second =>
          obtain ⟨rfl, rfl⟩ := first.unique second
          exact ⟨rfl, rfl, rfl⟩
      | unanswered silent => exact absurd silent (first.not_isSilent allowed)
  | unanswered silent =>
      cases two with
      | name allowed first | pair allowed first => exact absurd silent (first.not_isSilent allowed)
      | unanswered _ => exact ⟨rfl, rfl, rfl⟩

end Dialogue

/-! ## Attempts on the console -/

/-- The source that asks on the console. -/
def asking (kind : CredentialKind) (limit : BitVec 32) : PromptSource Console :=
  ⟨kind, limit, prompt⟩

/-- Somebody can be asked for a credential of a kind, and is offered a name. -/
structure CanAsk (kind : CredentialKind) (parameters : Parameters) (offer : Option String) : Prop where
  supported : kind = .simple ∨ kind = .username
  attended : parameters.get? ParameterKey.nonInteractive ≠ some (.flag true)
  offered : parameters.text? ParameterKey.username = offer
  visible : offer ≠ some ""

namespace CanAsk

variable {kind : CredentialKind} {parameters : Parameters} {offer : Option String} {text user : String}

theorem username_told (canAsk : CanAsk kind parameters offer) (limit : BitVec 32) (realm : String)
    (failed : Nat) : ((asking kind limit).told realm parameters failed).username = offer :=
  canAsk.offered

theorem attemptsPassages_told (canAsk : CanAsk kind parameters offer) (limit : BitVec 32) (realm : String)
    (failed : Nat) :
    attemptsPassages kind realm offer failed ++ heading ((asking kind limit).told realm parameters failed) ++
        [.text (question "Username" offer)] = attemptsPassages kind realm offer (failed + 1) := by
  have written := attemptsPassages_append_heading ((asking kind limit).told realm parameters failed)
  rwa [canAsk.username_told limit realm failed] at written

theorem ask_unanswered (canAsk : CanAsk kind parameters offer) (limit : BitVec 32) (realm : String)
    (failed : Nat) (err : List Passage) (silent : answer? offer (lines text).head? = none) :
    (asking kind limit).ask realm parameters failed
        (showing text (err ++ attemptsPassages kind realm offer failed)) =
      (.ok ((asking kind limit).blank parameters),
        showing (behind text) (err ++ attemptsPassages kind realm offer (failed + 1))) := by
  rw [← canAsk.attemptsPassages_told limit, ← List.append_assoc, ← List.append_assoc]
  rcases canAsk.supported with rfl | rfl
  · refine (prompt_simple ((asking .simple limit).told realm parameters failed) _ _ _ text _).trans ?_
    rw [canAsk.username_told, silent]
    rfl
  · refine (prompt_username ((asking .username limit).told realm parameters failed) _ _ text _).trans ?_
    rw [canAsk.username_told, silent]
    rfl

theorem ask_username (canAsk : CanAsk .username parameters offer) (limit : BitVec 32) (realm : String)
    (failed : Nat) (err : List Passage) (answered : answer? offer (lines text).head? = some user) :
    (asking .username limit).ask realm parameters failed
        (showing text (err ++ attemptsPassages .username realm offer failed)) =
      (.ok (.username user parameters.maySave),
        showing (behind text) (err ++ attemptsPassages .username realm offer (failed + 1))) := by
  rw [← canAsk.attemptsPassages_told limit, ← List.append_assoc, ← List.append_assoc]
  refine (prompt_username ((asking .username limit).told realm parameters failed) _ _ text _).trans ?_
  rw [canAsk.username_told, answered]
  rfl

theorem ask_simple (canAsk : CanAsk .simple parameters offer) (limit : BitVec 32) (realm : String)
    (failed : Nat) (err : List Passage) (answered : answer? offer (lines text).head? = some user) :
    (asking .simple limit).ask realm parameters failed
        (showing text (err ++ attemptsPassages .simple realm offer failed)) =
      (.ok (.simple user (((lines text)[1]?.map trimLineEnd).getD "") parameters.maySave),
        showing (behind (behind text)) (err ++ (attemptsPassages .simple realm offer (failed + 1) ++
          [.text (question ("Password for '" ++ user ++ "'") none)]))) := by
  rw [← canAsk.attemptsPassages_told limit, ← List.append_assoc, ← List.append_assoc, ← List.append_assoc]
  refine (prompt_simple ((asking .simple limit).told realm parameters failed) _ _ _ text _).trans ?_
  rw [canAsk.username_told, answered, ← getD_answer?_none, List.head?_tail]
  rfl

/-! The callback is called again and again as long as no line is an answer, and each call reads a line. -/

theorem answer?_iterate (canAsk : CanAsk kind parameters offer) {attempts failed : Nat}
    (silent : IsSilent offer (lines text) attempts) (bound : failed < attempts) :
    answer? offer (lines (behind^[failed] text)).head? = none := by
  rw [lines_iterate_behind, List.head?_drop]
  exact (answer?_eq_none_iff canAsk.visible).mpr (silent failed bound)

theorem callerAfter (canAsk : CanAsk kind parameters offer) (limit : BitVec 32) (realm : String)
    (err : List Passage) {attempts : Nat} (silent : IsSilent offer (lines text) attempts) :
    (asking kind limit).callerAfter realm parameters (showing text err) attempts =
      showing (behind^[attempts] text) (err ++ attemptsPassages kind realm offer attempts) := by
  induction attempts with
  | zero =>
      rw [attemptsPassages, List.append_nil]
      rfl
  | succ attempts ih =>
      have unanswered := canAsk.answer?_iterate silent attempts.lt_succ_self
      rw [PromptSource.callerAfter, ih fun attempt bound => silent attempt (Nat.lt_succ_of_lt bound),
        canAsk.ask_unanswered limit realm attempts err unanswered, Function.iterate_succ_apply']

theorem allFallShort (canAsk : CanAsk kind parameters offer) (limit : BitVec 32) (realm : String)
    (err : List Passage) {attempts : Nat} (silent : IsSilent offer (lines text) attempts) :
    (asking kind limit).AllFallShort realm parameters (showing text err) attempts := by
  intro failed bound
  have before : IsSilent offer (lines text) failed := fun attempt earlier => silent attempt (earlier.trans bound)
  rw [PromptSource.reply, canAsk.callerAfter limit realm err before,
    canAsk.ask_unanswered limit realm failed err (canAsk.answer?_iterate silent bound)]
  rcases canAsk.supported with rfl | rfl <;> exact .incomplete rfl rfl

/-- The attempts of a prompt on the console end as the dialogue does. -/
theorem produce_asking (canAsk : CanAsk kind parameters offer) {limit : BitVec 32}
    (bounded : limit.toNat ≤ 10) (realm text : String) :
    ∃ credential? passages left,
      Dialogue realm offer parameters.maySave limit.toNat (lines text) kind credential? (ownText passages)
        (lines left) ∧
      ∀ err, (asking kind limit).produce realm parameters (showing text err) =
        (match credential? with
          | some credential => .ok (some credential)
          | none => .error (.promptExhausted kind realm (limit.toNat + 1)), showing left (err ++ passages)) := by
  have allowance : (asking kind limit).allowance = limit.toNat + 1 := by
    simp only [PromptSource.allowance, asking]
    omega
  rcases exists_first_or_isSilent offer (lines text) (limit.toNat + 1) with
    ⟨attempt, allowed, user, first⟩ | silent
  · have short := fun err => canAsk.allFallShort limit realm err first.before
    have caller := fun err => canAsk.callerAfter limit realm err first.before
    have named : decide (user ≠ "") = true := decide_eq_true first.nonempty
    have answered : answer? offer (lines (behind^[attempt] text)).head? = some user := by
      rw [lines_iterate_behind, List.head?_drop]
      exact (answer?_eq_some_iff canAsk.visible).mpr ⟨first.answers, first.nonempty⟩
    have bound : attempt < (asking kind limit).allowance := allowance ▸ allowed
    rcases canAsk.supported with rfl | rfl
    · have asked := fun err => canAsk.ask_simple limit realm attempt err answered
      simp only [← caller, lines_iterate_behind, List.getElem?_drop] at asked
      refine ⟨some _, _, behind (behind (behind^[attempt] text)), ?_, fun err =>
        PromptSource.produce_of_complete canAsk.attended bound (short err) (asked err) rfl named rfl⟩
      rw [ownText_append, ownText_attemptsPassages, ownText_singleton, lines_behind, lines_behind,
        lines_iterate_behind, List.tail_drop, List.tail_drop]
      exact .pair (Nat.le_of_lt_succ allowed) first
    · have asked := fun err => canAsk.ask_username limit realm attempt err answered
      simp only [← caller] at asked
      refine ⟨some _, _, behind (behind^[attempt] text), ?_, fun err =>
        PromptSource.produce_of_complete canAsk.attended bound (short err) (asked err) rfl named rfl⟩
      rw [ownText_attemptsPassages, lines_behind, lines_iterate_behind, List.tail_drop]
      exact .name (Nat.le_of_lt_succ allowed) first
  · refine ⟨none, attemptsPassages kind realm offer (limit.toNat + 1), behind^[limit.toNat + 1] text, ?_,
      fun err => ?_⟩
    · rw [ownText_attemptsPassages, lines_iterate_behind]
      exact .unanswered silent
    · have ends := PromptSource.EndsAfter.gaveUp (allowance ▸ canAsk.allFallShort limit realm err silent)
      rw [PromptSource.produce_of_endsAfter canAsk.attended ends, allowance,
        canAsk.callerAfter limit realm err silent]
      rfl

end CanAsk

end Console

/-! ## The command -/

section Resolving

variable {settings : Settings} {environment : Environment} {kind : CredentialKind}

/-- Where the standard provider has nothing, the prompt decides. -/
theorem askChain_authRegistry (trusted : CertificateFailures) (supported : kind = .simple ∨ kind = .username)
    (attended : settings.session.nonInteractive = false) (lacking : settings.offered? environment kind = none)
    (realm : String) (console : Console) :
    let registry := authRegistry settings trusted kind
    let prompting := Provider.prompting kind settings.session.retryLimit Console.prompt
    let produced := (Console.asking kind settings.session.retryLimit).produce realm registry.parameters console
    askChain environment realm registry.parameters registry.providers console =
      (Answer.ofOutcome (produced.1.map prompting.usable), produced.2) := by
  intro registry prompting produced
  have limit : (if kind = .serverTrust then 0 else settings.session.retryLimit) =
      settings.session.retryLimit := by rcases supported with rfl | rfl <;> rfl
  have providers : registry.providers = [.standard kind, prompting] := by
    simp only [registry, prompting, authRegistry, attended, limit, Bool.false_eq_true, if_false]
  have standard : (Provider.standard kind).produce environment realm registry.parameters console =
      (.ok none, console) := by
    rw [← lacking]
    exact settings.produce_standard trusted environment kind realm console
  have behind : prompting.produce environment realm registry.parameters console =
      (produced.1.map prompting.usable, produced.2) :=
    Provider.produce_apply prompting environment realm registry.parameters console
  have alone : askChain environment realm registry.parameters [prompting] console = _ :=
    askChain_singleton prompting registry.parameters console
  rw [behind] at alone
  rw [providers, askChain_cons_produce, standard]
  exact alone

/-- The registry of the command comes to what the dialogue comes to. -/
theorem resolve_dialogue (trusted : CertificateFailures) (supported : kind = .simple ∨ kind = .username)
    (attended : settings.session.nonInteractive = false) (visible : settings.auth.username ≠ some "")
    (bounded : settings.session.retryLimit.toNat ≤ 10) (lacking : settings.offered? environment kind = none)
    (realm text : String) :
    ∃ credential? passages left,
      Console.Dialogue realm settings.auth.username (!settings.auth.noAuthCache)
        settings.session.retryLimit.toNat (lines text) kind credential? (ownText passages) (lines left) ∧
      ∀ err, (authRegistry settings trusted kind).resolve environment kind realm (.showing text err) =
        (match credential? with
          | some credential =>
              (.ok credential, (authRegistry settings trusted kind).keep realm credential)
          | none => (.error (.noCredential kind realm), authRegistry settings trusted kind),
          .showing left (err ++ passages)) := by
  have canAsk : Console.CanAsk kind (authRegistry settings trusted kind).parameters settings.auth.username :=
    { supported
      visible
      offered := settings.text?_registry_username trusted
      attended := by simp [authRegistry, settings.get?_registry_nonInteractive, attended] }
  have allowed : (authRegistry settings trusted kind).parameters.maySave = !settings.auth.noAuthCache :=
    settings.maySave_registry trusted
  obtain ⟨credential?, passages, left, dialogue, produced⟩ := canAsk.produce_asking bounded realm text
  rw [allowed] at dialogue
  refine ⟨credential?, passages, left, dialogue, fun err => ?_⟩
  rw [resolve_authRegistry, askChain_authRegistry trusted supported attended lacking, produced]
  cases credential? with
  | none => rfl
  | some credential =>
      obtain ⟨kind_eq, complete⟩ := dialogue.usable
      have usable : (Provider.prompting kind settings.session.retryLimit Console.prompt).usable
          (some credential) = some credential := by
        rw [Provider.usable, Option.filter_some, if_pos]
        simp [Provider.prompting, kind_eq, complete]
      simp only [Except.map, usable]
      rfl

end Resolving

/-- The result of the command that resolves a credential, where it has asked for it. -/
def askedResult (realm : String) (kind : CredentialKind) (user : String) (cached : Bool) : Result where
  data := .ok (.record
    [("realm", .text realm), ("kind", .text kind.name), ("username", .text user), ("cached", .flag cached),
      ("providers", .integer 2)])
  human := {
    header := "svnctx auth: credential resolved"
    summary := [("realm", realm), ("kind", kind.name), ("username", user)]
    warnings := if cached then [] else ["credential not cached (auth.no_auth_cache)"] }

/-- What standard output holds of the user whose credential has been asked for. -/
inductive TellsUser (realm : String) (kind : CredentialKind) (user : String) (cached : Bool) :
    Bool → Bool → String → Prop where
  | json {quiet : Bool} {out : String} (named : Report.member? out "command" = some (.text "auth"))
      (succeeded : Report.member? out "status" = some (.text "success"))
      (content : Report.member? out "data" = some (.record
        [("realm", .text realm), ("kind", .text kind.name), ("username", .text user), ("cached", .flag cached),
          ("providers", .integer 2)])) :
      TellsUser realm kind user cached true quiet out
  | quiet : TellsUser realm kind user cached false true ""
  | lines : TellsUser realm kind user cached false false
      (String.intercalate "\n" (["svnctx auth: credential resolved", "", "Summary:",
          HumanReport.summaryLine ("realm", realm), "- kind: " ++ kind.name, "- username: " ++ user] ++
        if cached then [] else ["", "Warnings:", "- credential not cached (auth.no_auth_cache)"]) ++ "\n")

theorem tellsUser_success {realm user : String} {kind : CredentialKind} (nonempty : user ≠ "")
    (cached json quiet : Bool) :
    let result := askedResult realm kind user cached
    ∃ out, Report.success ⟨json, quiet⟩ "auth" result.data (some result.human) = .ok out ∧
      TellsUser realm kind user cached json quiet out := by
  intro result
  cases json with
  | true =>
      have exact : Json.Exact (.record [("realm", .text realm), ("kind", .text kind.name),
          ("username", .text user), ("cached", .flag cached), ("providers", .integer 2)]) := by
        refine .record ?_
        simp [Json.Exact.text, Json.Exact.flag, Json.Exact.integer]
      obtain ⟨out, reported, named, succeeded, content⟩ := Report.member?_success exact quiet (some result.human)
      exact ⟨out, reported, .json named succeeded content⟩
  | false =>
      cases quiet with
      | true => exact ⟨"", rfl, .quiet⟩
      | false =>
          have kind_line : HumanReport.summaryLine ("kind", kind.name) = "- kind: " ++ kind.name := by
            cases kind <;> decide
          have user_line : HumanReport.summaryLine ("username", user) = "- username: " ++ user :=
            if_neg nonempty
          have told : result.human.lines = ["svnctx auth: credential resolved", "", "Summary:",
              HumanReport.summaryLine ("realm", realm), "- kind: " ++ kind.name, "- username: " ++ user] ++
            if cached then [] else ["", "Warnings:", "- credential not cached (auth.no_auth_cache)"] := by
            rw [← kind_line, ← user_line]
            cases cached <;> rfl
          refine ⟨_, rfl, ?_⟩
          rw [HumanReport.text, told]
          exact .lines

theorem authResult_of_dialogue {settings : Settings} (trusted : CertificateFailures) {kind : CredentialKind}
    (attended : settings.session.nonInteractive = false) {realm transcript : String} {offer : Option String}
    {limit : Nat} {input left : List String} {credential : Credential}
    (dialogue : Console.Dialogue realm offer (!settings.auth.noAuthCache) limit input kind (some credential)
      transcript left) :
    ∃ user, credential.user? = some user ∧ user ≠ "" ∧
      authResult realm kind ((authRegistry settings trusted kind).keep realm credential) credential =
        askedResult realm kind user (!settings.auth.noAuthCache) := by
  have cached : (((authRegistry settings trusted kind).keep realm credential).parameters.remembered? kind
      realm).isSome = !settings.auth.noAuthCache := by
    have allowed : (authRegistry settings trusted kind).parameters.maySave = !settings.auth.noAuthCache :=
      settings.maySave_registry trusted
    rw [isSome_remembered?_keep, remembered?_authRegistry, allowed, dialogue.usable.1, dialogue.maySave_eq]
    simp
  have providers : ((authRegistry settings trusted kind).keep realm credential).providers.length = 2 := by
    rw [providers_keep]
    simp [authRegistry, attended]
  obtain ⟨user, named, nonempty⟩ := dialogue.exists_user
  refine ⟨user, named, nonempty, ?_⟩
  simp only [authResult, askedResult, cached, providers, named]
  rfl

section Command

variable {environment : Environment} {arguments : List OsText} {invocation : Invocation} {program : OsText}
  {name realm keyword : String} {kind : CredentialKind} {files : FileSystem} {settings : Settings}
  {telling : Telling} {now : Timestamp} {world last : World Console}

theorem textual_of_settingsOf (loaded : settingsOf environment files invocation = .ok settings) :
    settings.auth.Textual := by
  rw [settingsOf] at loaded
  split at loaded
  · exact Settings.textual_of_load loaded
  · obtain rfl := Except.ok.inj loaded
    intro file given
    cases given

theorem run_showing (named : inferredName program arguments = .ok name)
    (request : Request.ofArguments environment arguments = .run invocation) (text : String) :
    run telling now environment program arguments text.toUTF8.data.toList files =
      runInvocation telling now name invocation ⟨files, [], environment, .showing text []⟩ := by
  simp only [run, named, request]
  rfl

/-- Settings that offer no credential of a kind have none for the command. -/
theorem offered?_eq_none (loaded : settingsOf environment files invocation = .ok settings)
    (lacking : ∀ credential, credential.kind = kind → ¬settings.Offers environment credential) :
    (invocation.adjust settings).offered? environment kind = none := by
  have acceptable := acceptable_of_settingsOf loaded
  rw [Option.eq_none_iff_forall_ne_some]
  intro credential offered
  obtain ⟨kind_eq, offers⟩ :=
    (Settings.offered?_eq_some_iff acceptable (textual_of_settingsOf loaded)).mp offered
  exact lacking credential kind_eq offers

/-- The command comes to what its registry comes to, and puts nothing but events around what that puts on
standard error. -/
theorem runCommand_of_resolve (now : Timestamp) (command : invocation.command = .auth realm keyword)
    (loaded : settingsOf environment files invocation = .ok settings)
    (meant : CredentialKind.ofKeyword? keyword = some kind) (supported : kind = .simple ∨ kind = .username)
    {trusted : CertificateFailures} (adjusted : (invocation.adjust settings).auth.trusted = .ok trusted)
    {input left : String} {passages : List Passage} {outcome : Except Error Credential}
    {registry : Registry Console}
    (resolved : ∀ err, (authRegistry (invocation.adjust settings) trusted kind).resolve environment kind realm
      (.showing input err) = ((outcome, registry), .showing left (err ++ passages))) :
    ∃ err, ownText err = ownText passages ∧
      let last : World Console := ⟨files, [], environment, .showing left err⟩
      runCommand now invocation ⟨files, [], environment, .showing input []⟩ =
        match outcome with
        | .ok credential => .ok (authResult realm kind registry credential) last
        | .error error => .error error last := by
  have parsed : CredentialKind.parse keyword = .ok kind := by rw [CredentialKind.parse, meant]
  have admitted : ¬(kind ≠ .simple ∧ kind ≠ .username) := by tauto
  have ran := (runCommand_auth now ⟨files, [], environment, .showing input []⟩ command loaded).trans
    (runAuth_apply _ _ _ _)
  simp only [parsed, if_neg admitted, adjusted, Console.after_showing, resolved, List.nil_append] at ran
  refine ⟨(readingEvents environment files invocation).map .event ++
    (openingEvents (invocation.adjust settings) trusted environment kind realm).map .event ++ passages ++
      (closingEvents (invocation.adjust settings) environment kind realm outcome).map .event, ?_, ?_⟩
  · simp only [ownText_append, ownText_events, String.empty_append, String.append_empty]
  · rw [ran]
    cases outcome <;> rfl

theorem runInvocation_of_ok (command : invocation.command = .auth realm keyword) {result : Result} {out : String}
    (ran : runCommand now invocation world = .ok result last)
    (reported : Report.success ⟨invocation.json, invocation.quiet⟩ "auth" result.data (some result.human) =
      .ok out) :
    runInvocation telling now name invocation world = ⟨out, last.caller.err, 0, last.files⟩ := by
  have label : invocation.command.name.text = "auth" := by
    rw [command]
    rfl
  have executed : execute now invocation world = .ok out last := by
    rw [execute, Action.bind_apply, ran, label]
    exact congrArg (fun outcome => Action.ofOutcome outcome last) reported
  simp only [runInvocation, executed, command, Console.after_nil]

theorem runInvocation_of_error (command : invocation.command = .auth realm keyword) {error : Error}
    {report : Output} (ran : runCommand now invocation world = .error error last)
    (reported : Report.failure name error invocation.json = .ok report) :
    runInvocation telling now name invocation world =
      ⟨report.out, last.caller.err ++ [.text report.err], error.exitCode, last.files⟩ := by
  have executed : execute now invocation world = .error error last := by
    rw [execute, Action.bind_apply, ran]
  simp only [runInvocation, executed, command, Console.after_nil, reported]

/--
Where the settings have no credential to offer and somebody can be asked, the command that resolves a credential
asks on the console by the rules of the dialogue. It succeeds exactly if one of its attempts has an answer that
is not empty, and then it reports the user of the first one; else it fails for want of a credential.
-/
theorem auth_takes_first_answer
    (named : inferredName program arguments = .ok name)
    (request : Request.ofArguments environment arguments = .run invocation)
    (command : invocation.command = .auth realm keyword)
    (loaded : settingsOf environment files invocation = .ok settings)
    (meant : CredentialKind.ofKeyword? keyword = some kind)
    (supported : kind = .simple ∨ kind = .username)
    (attended : (invocation.adjust settings).session.nonInteractive = false)
    (lacking : ∀ credential, credential.kind = kind → ¬settings.Offers environment credential)
    (telling : Telling) (now : Timestamp) (input : String) :
    let limit := settings.session.retryLimit.toNat
    let offer := settings.auth.username
    let maySave := !settings.auth.noAuthCache
    let exit := run telling now environment program arguments input.toUTF8.data.toList files
    let showing (text : String) (err : List Passage) : World Console :=
      ⟨files, [], environment, .showing text err⟩
    (exit.code = 0 ↔
      ∃ attempt ≤ limit, ∃ user, user ≠ "" ∧ Console.IsAnswer offer (lines input) attempt user) ∧
    exit.files = files ∧
    ∃ session credential? passages left,
      authSession (invocation.adjust settings) kind = .ok session ∧
      Console.Dialogue realm offer maySave limit (lines input) kind credential? (ownText passages) (lines left) ∧
      match credential? with
      | some credential =>
          (∀ err, ∃ after, Session.resolve kind realm (showing input err, session) =
            .ok credential (showing left (err ++ passages), after)) ∧
          exit.code = 0 ∧ ownText exit.err = ownText passages ∧
          ∃ user, credential.user? = some user ∧
            TellsUser realm kind user maySave invocation.json invocation.quiet exit.out
      | none =>
          (∀ err, Session.resolve kind realm (showing input err, session) =
            .error (.noCredential kind realm) (showing left (err ++ passages), session)) ∧
          exit.code = 4 ∧ ∃ report, Report.TellsError "auth" (.noCredential kind realm) invocation.json report ∧
            exit.out = report.out ∧ ownText exit.err = ownText passages ++ report.err := by
  intro limit offer maySave exit showing
  have acceptable := acceptable_of_settingsOf loaded
  have visible : offer ≠ some "" := fun empty => acceptable.username_ne_empty empty rfl
  obtain ⟨trusted, adjusted⟩ := acceptable.trusted_eq_ok
  obtain ⟨credential?, passages, left, dialogue, resolved⟩ := resolve_dialogue trusted supported attended
    visible acceptable.retryLimit (offered?_eq_none loaded lacking) realm input
  obtain rfl : name = "auth" := by
    rw [eq_name_of_inferredName request named, command]
    rfl
  have started : exit = runInvocation telling now "auth" invocation (showing input []) :=
    run_showing named request input
  let registry := authRegistry (invocation.adjust settings) trusted kind
  have fresh : authSession (invocation.adjust settings) kind = .ok { registry } := by
    rw [authSession_eq, show (invocation.adjust settings).auth.trusted = .ok trusted from adjusted]
    rfl
  have some_iff := dialogue.isSome_iff
  cases credential? with
  | some credential =>
      obtain ⟨user, user_eq, nonempty, reported⟩ := authResult_of_dialogue trusted attended dialogue
      obtain ⟨out, told, tells⟩ := tellsUser_success nonempty maySave invocation.json invocation.quiet
      obtain ⟨err, ownText_err, ran⟩ := runCommand_of_resolve now command loaded meant supported adjusted resolved
      simp only [reported] at ran
      have ended := started.trans (runInvocation_of_ok command ran told)
      have granted (err : List Passage) : Session.resolve kind realm (showing input err, { registry }) =
          .ok credential (showing left (err ++ passages), { registry := registry.keep realm credential }) := by
        simp only [Session.resolve, showing, registry, resolved]
      have code : exit.code = 0 := by rw [ended]
      refine ⟨⟨fun _ => some_iff.mp rfl, fun _ => code⟩, by rw [ended], _, some credential, passages, left, fresh,
        dialogue, fun err => ⟨_, granted err⟩, code, by rw [ended]; exact ownText_err, user, user_eq, ?_⟩
      rw [ended]
      exact tells
  | none =>
      have refused (err : List Passage) : Session.resolve kind realm (showing input err, { registry }) =
          .error (.noCredential kind realm) (showing left (err ++ passages), { registry }) := by
        simp only [Session.resolve, showing, registry, resolved]
      obtain ⟨err, ownText_err, ran⟩ := runCommand_of_resolve now command loaded meant supported adjusted resolved
      cases reported : Report.failure "auth" (.noCredential kind realm) invocation.json with
      | error panic => cases (Report.failure_eq_error_iff.mp reported).2
      | ok report =>
          have ended := started.trans (runInvocation_of_error command ran reported)
          have code : exit.code = 4 := by rw [ended]; rfl
          have told : ownText exit.err = ownText passages ++ report.err := by
            rw [ended, ownText_append, ownText_singleton]
            exact congrArg (· ++ report.err) ownText_err
          refine ⟨⟨fun zero => ?_, fun answered => ?_⟩, by rw [ended], _, none, passages, left, fresh, dialogue,
            refused, code, report, Report.tellsError_failure reported, by rw [ended], told⟩
          · exact absurd (code.symm.trans zero) (by decide)
          · exact absurd (some_iff.mpr answered) Bool.false_ne_true

/-- Settings with a password and no name. -/
def halfSet : Settings where
  auth := { password := some "open", noAuthCache := true }

def halfSetHome : FileSystem := homeWith "[auth]\npassword = \"open\"\nno_auth_cache = true\n"

def askedArguments : List OsText := ["--json", "--config", "svn.toml", "auth", "realm"]

def askedInvocation : Invocation := ⟨.auth "realm" "simple", some ⟨"svn.toml"⟩, false, true, false⟩

/-- A name in the last attempt there is, an empty password behind it, and another line. -/
def lateInput : String := "\n\r\nalice\r\n\nmore\n"

def lateTranscript : String :=
  Console.attemptsText "realm" none 3 ++ Console.question "Password for 'alice'" none

/-- The name of the third line and the password of the fourth one are taken, and the fifth one is left. -/
theorem auth_takes_first_answer_of_last_attempt :
    inferredName "svnctx" askedArguments = .ok "auth" ∧
      Request.ofArguments default askedArguments = .run askedInvocation ∧
      askedInvocation.command = .auth "realm" "simple" ∧
      settingsOf default halfSetHome askedInvocation = .ok halfSet ∧
      CredentialKind.ofKeyword? "simple" = some .simple ∧
      (askedInvocation.adjust halfSet).session.nonInteractive = false ∧
      (∀ credential, credential.kind = .simple → ¬halfSet.Offers default credential) ∧
      let exit := run untold default default "svnctx" askedArguments lateInput.toUTF8.data.toList halfSetHome
      let showing (text : String) (err : List Passage) : World Console :=
        ⟨halfSetHome, [], default, .showing text err⟩
      exit.code = 0 ∧ ownText exit.err = lateTranscript ∧
      TellsUser "realm" .simple "alice" false true false exit.out ∧
      ∃ session passages left, lines left = ["more\n"] ∧ ownText passages = lateTranscript ∧
        authSession (askedInvocation.adjust halfSet) .simple = .ok session ∧
        ∀ err, ∃ after, Session.resolve .simple "realm" (showing lateInput err, session) =
          .ok (.simple "alice" "" false) (showing left (err ++ passages), after) := by
  have named : inferredName "svnctx" askedArguments = .ok "auth" := by decide +kernel
  have request : Request.ofArguments default askedArguments = .run askedInvocation := by decide +kernel
  have loaded : settingsOf default halfSetHome askedInvocation = .ok halfSet := by decide +kernel
  have meant : CredentialKind.ofKeyword? "simple" = some .simple := by decide +kernel
  have lacking (credential : Credential) (kind_eq : credential.kind = .simple) :
      ¬halfSet.Offers default credential := by
    intro offers
    cases offers with
    | simple user_set => cases user_set
    | username | systemUser | serverTrust | clientCertificate | clientPassphrase => cases kind_eq
  have input : lines lateInput = ["\n", "\r\n", "alice\r\n", "\n", "more\n"] := by decide +kernel
  have first : Console.IsFirstAnswer none (lines lateInput) 2 "alice" := by
    rw [input]
    refine ⟨⟨_, rfl, by decide +kernel⟩, by decide, ?_⟩
    rintro (_ | _ | attempt) bound answer ⟨line, read, rfl⟩
    · cases read
      decide +kernel
    · cases read
      decide +kernel
    · omega
  have expected : Console.Dialogue "realm" none false 2 (lines lateInput) .simple
      (some (.simple "alice" "" false)) lateTranscript ["more\n"] := by
    have pair : Console.Dialogue "realm" none false 2 (lines lateInput) .simple _ _ _ :=
      .pair (Nat.le_refl 2) first
    have label : "Password for '" ++ "alice" ++ "'" = "Password for 'alice'" := by decide +kernel
    have password : Console.trimLineEnd "\n" = "" := by decide +kernel
    simp only [label, input, List.getElem?_cons_succ, List.getElem?_cons_zero, Option.map_some, password] at pair
    rw [input]
    exact pair
  obtain ⟨-, -, session, credential?, passages, left, fresh, dialogue, ended⟩ :=
    auth_takes_first_answer named request rfl loaded meant (.inl rfl) rfl lacking untold default lateInput
  obtain ⟨rfl, written, rest⟩ := dialogue.unique expected
  obtain ⟨granted, code, err, user, user_eq, tells⟩ := ended
  obtain rfl := Option.some.inj user_eq
  exact ⟨named, request, rfl, loaded, meant, rfl, lacking, code, err.trans written, tells, session, passages,
    left, rest, written, fresh, granted⟩

end Command

end Checkout.CommandLine
