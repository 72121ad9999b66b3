import Checkout.Proofs.Auth.Attempts
import Checkout.Proofs.CommandLine.Lines
import Checkout.Proofs.CommandLine.Resolving

/-!
# Secrets stay secret

The command that resolves a credential writes nothing that depends on a password. Two runs are compared
whose settings differ in the texts of their passwords only, and whose inputs differ in the line only that is
read as a password. Side by side they ask the same questions and resolve credentials that are the same but
for their passwords, and of those credentials only the rest is reported.
-/

namespace Checkout

/-! ## Without passwords -/

/-- The record without its password. -/
def Credential.withoutPassword : Credential → Credential
  | .simple user _ maySave => .simple user "" maySave
  | credential => credential

/-- The settings with their passwords blanked out; whether they are there can still be seen. -/
def Settings.withoutSecrets (settings : Settings) : Settings :=
  { settings with auth := { settings.auth with
      password := settings.auth.password.map fun _ => ""
      clientPassphrase := settings.auth.clientPassphrase.map fun _ => "" } }

/-- The parameters differ in their passwords at most. -/
structure Parameters.Alike (left right : Parameters) : Prop where
  others : ∀ key, key ≠ ParameterKey.password → key ≠ ParameterKey.clientPassphrase →
    left.get? key = right.get? key
  password : (left.text? ParameterKey.password).isSome = (right.text? ParameterKey.password).isSome

namespace Credential

variable (credential : Credential)

theorem withoutPassword_simple (user password : String) (maySave : Bool) :
    (simple user password maySave).withoutPassword = .simple user "" maySave := rfl

@[simp]
theorem kind_withoutPassword : credential.withoutPassword.kind = credential.kind := by
  cases credential <;> rfl

@[simp]
theorem maySave_withoutPassword : credential.withoutPassword.maySave = credential.maySave := by
  cases credential <;> rfl

@[simp]
theorem isComplete_withoutPassword : credential.withoutPassword.isComplete = credential.isComplete := by
  cases credential <;> rfl

@[simp]
theorem user?_withoutPassword : credential.withoutPassword.user? = credential.user? := by
  cases credential <;> rfl

theorem restrict_withoutPassword (parameters : Parameters) :
    (credential.restrict parameters).withoutPassword =
      credential.withoutPassword.restrict parameters := by
  simp only [restrict, apply_ite withoutPassword]
  congr 1
  cases credential <;> rfl

end Credential

theorem Provider.usable_withoutPassword {σ : Type} (provider : Provider σ) (produced : Option Credential) :
    (provider.usable produced).map Credential.withoutPassword =
      provider.usable (produced.map Credential.withoutPassword) := by
  cases produced with
  | none => rfl
  | some credential =>
      simp only [usable, Option.map_some, Option.filter_some, Credential.kind_withoutPassword,
        Credential.isComplete_withoutPassword]
      split_ifs <;> rfl

namespace Parameters.Alike

variable {left right : Parameters}

theorem maySave (alike : left.Alike right) : left.maySave = right.maySave := by
  rw [Parameters.maySave, Parameters.maySave, flag, flag,
    alike.others ParameterKey.noAuthCache (by decide) (by decide)]

theorem username (alike : left.Alike right) :
    left.text? ParameterKey.username = right.text? ParameterKey.username := by
  rw [text?, text?, alike.others ParameterKey.username (by decide) (by decide)]

theorem serverFailures (alike : left.Alike right) :
    left.failures ParameterKey.serverFailures = right.failures ParameterKey.serverFailures := by
  rw [failures, failures, alike.others ParameterKey.serverFailures (by decide) (by decide)]

theorem restrict (alike : left.Alike right) : Credential.restrict left = Credential.restrict right := by
  funext credential
  rw [Credential.restrict, Credential.restrict, alike.maySave]

theorem context (alike : left.Alike right) {σ : Type} (source : PromptSource σ) (realm : String)
    (failed : Nat) : source.context realm left failed = source.context realm right failed := by
  rw [PromptSource.context, PromptSource.context, alike.maySave, alike.username, alike.serverFailures]

/-- A prompt is told nothing of passwords. -/
theorem attempt (alike : left.Alike right) {σ : Type} (source : PromptSource σ) (realm : String)
    (failed remaining : Nat) :
    source.attempt realm left failed remaining = source.attempt realm right failed remaining := by
  induction remaining generalizing failed with
  | zero => rfl
  | succ remaining ih =>
      funext caller
      simp only [PromptSource.attempt_succ, alike.context, alike.maySave, alike.restrict, ih]

theorem produce (alike : left.Alike right) {σ : Type} (source : PromptSource σ) (realm : String) :
    source.produce realm left = source.produce realm right := by
  rw [PromptSource.produce, PromptSource.produce, flag, flag,
    alike.others ParameterKey.nonInteractive (by decide) (by decide), alike.attempt]

end Parameters.Alike

namespace Settings

variable {left right : Settings}

theorem parameter?_withoutSecrets (settings : Settings) (trusted : CertificateFailures) {key : String}
    (apart : key ≠ ParameterKey.password) (distinct : key ≠ ParameterKey.clientPassphrase) :
    settings.withoutSecrets.parameter? trusted key = settings.parameter? trusted key := by
  simp only [parameter?, if_neg apart, if_neg distinct]
  rfl

theorem isSome_password (same : left.withoutSecrets = right.withoutSecrets) :
    left.auth.password.isSome = right.auth.password.isSome := by
  have blanked : left.withoutSecrets.auth.password = right.withoutSecrets.auth.password := by rw [same]
  simpa [withoutSecrets] using congrArg Option.isSome blanked

theorem parameters_alike (same : left.withoutSecrets = right.withoutSecrets)
    (trusted : CertificateFailures) :
    (Parameters.empty.merge (left.parametersTrusting trusted)).Alike
      (Parameters.empty.merge (right.parametersTrusting trusted)) where
  others key apart distinct := by
    rw [get?_registry, get?_registry, ← left.parameter?_withoutSecrets trusted apart distinct, same,
      right.parameter?_withoutSecrets trusted apart distinct]
  password := by
    rw [text?_registry_password, text?_registry_password, isSome_password same]

end Settings

namespace CommandLine

/-! ## The line with the password -/

/-- The lines are the same, except perhaps for one. -/
def AgreeExcept (line? : Option Nat) (left right : List String) : Prop :=
  ∀ index, line? ≠ some index → left[index]? = right[index]?

/-- The number of the line that is read as a password in a number of attempts: the one behind the first
line that names a user. A blank line names one only if there is one to offer. -/
def secretLine? (offer : Option String) (attempts : Nat) (lines : List String) : Option Nat :=
  ((lines.take attempts).findIdx? fun line =>
    offer.isSome || Console.trimLineEnd line ≠ "").map (· + 1)

theorem secretLine?_succ (offer : Option String) (attempts : Nat) (lines : List String) :
    secretLine? offer (attempts + 1) lines =
      match Console.answer? offer lines.head? with
      | some _ => some 1
      | none => (secretLine? offer attempts lines.tail).map (· + 1) := by
  cases lines with
  | nil => simp [secretLine?, Console.answer?]
  | cons line rest =>
      simp only [secretLine?, List.take_succ_cons, List.findIdx?_cons, List.head?_cons, List.tail_cons,
        Console.answer?, Option.bind_some]
      by_cases blank : Console.trimLineEnd line = ""
      · cases offer <;> simp [blank]
      · simp [blank]

namespace AgreeExcept

variable {line? : Option Nat} {left right : List String}

theorem head (agree : AgreeExcept line? left right) (later : line? ≠ some 0) :
    left.head? = right.head? := by
  rw [List.head?_eq_getElem?, List.head?_eq_getElem?]
  exact agree 0 later

theorem tail (agree : AgreeExcept (line?.map (· + 1)) left right) :
    AgreeExcept line? left.tail right.tail := by
  intro index apart
  rw [List.getElem?_tail, List.getElem?_tail]
  exact agree (index + 1) (by simpa using apart)

end AgreeExcept

namespace Console

/-- An answer names someone, if nobody without a name is offered. -/
theorem ne_empty_of_answer? {offer line? : Option String} {answer : String} (visible : offer ≠ some "")
    (answered : answer? offer line? = some answer) : answer ≠ "" := by
  rintro rfl
  rcases Option.bind_eq_some_iff.mp answered with ⟨line, -, answered⟩
  split_ifs at answered with blank
  · exact visible answered
  · exact blank (Option.some.inj answered)

/-- Attempts at a record of user name and password, on inputs that differ in the password at most. -/
theorem attempt_simple (limit : BitVec 32) (realm : String) {parameters : Parameters}
    (visible : parameters.text? ParameterKey.username ≠ some "") (failed remaining : Nat)
    (left right : String) (err : List Passage)
    (agree : AgreeExcept
      (secretLine? (parameters.text? ParameterKey.username) remaining (lines left))
      (lines left) (lines right)) :
    let source : PromptSource Console := ⟨.simple, limit, prompt⟩
    let first := source.attempt realm parameters failed remaining (showing left err)
    let second := source.attempt realm parameters failed remaining (showing right err)
    first.1.map (Option.map Credential.withoutPassword) =
      second.1.map (Option.map Credential.withoutPassword) ∧ first.2.err = second.2.err := by
  intro source
  induction remaining generalizing failed left right err with
  | zero => exact ⟨rfl, rfl⟩
  | succ remaining ih =>
      rw [secretLine?_succ] at agree
      have heads : (lines left).head? = (lines right).head? := by
        refine agree.head ?_
        split <;> simp
      have offer : (source.context realm parameters failed).username =
        parameters.text? ParameterKey.username := rfl
      have asked (text : String) := prompt_simple (source.context realm parameters failed) "" ""
        parameters.maySave text err
      simp only [offer] at asked
      have asked_left := asked left
      have asked_right := asked right
      rw [← heads] at asked_right
      cases answered : answer? (parameters.text? ParameterKey.username) (lines left).head? with
      | none =>
          rw [answered] at agree asked_left asked_right
          have tails := agree.tail
          rw [← lines_behind, ← lines_behind] at tails
          rw [source.attempt_succ_of_incomplete asked_left rfl rfl,
            source.attempt_succ_of_incomplete asked_right rfl rfl]
          exact ih (failed + 1) (behind left) (behind right) _ tails
      | some user =>
          rw [answered] at asked_left asked_right
          have named : decide (user ≠ "") = true := decide_eq_true (ne_empty_of_answer? visible answered)
          rw [source.attempt_succ_of_complete asked_left rfl named,
            source.attempt_succ_of_complete asked_right rfl named]
          simp only [Except.map, Option.map_some, Credential.restrict_withoutPassword,
            Credential.withoutPassword_simple, err_showing, and_self]

/-- The line behind the first one that names a user is read as the password of that user; without such a
line the attempts are used up. -/
theorem password_of_secretLine (limit : BitVec 32) (realm : String) {parameters : Parameters}
    (visible : parameters.text? ParameterKey.username ≠ some "") (failed remaining : Nat)
    (text : String) (err : List Passage) :
    let source : PromptSource Console := ⟨.simple, limit, prompt⟩
    let offer := parameters.text? ParameterKey.username
    let outcome := (source.attempt realm parameters failed remaining (showing text err)).1
    (∃ index user, secretLine? offer remaining (lines text) = some (index + 1) ∧
      answer? offer (lines text)[index]? = some user ∧
      outcome = .ok (some ((Credential.simple user ((answer? none (lines text)[index + 1]?).getD "")
        parameters.maySave).restrict parameters))) ∨
    (secretLine? offer remaining (lines text) = none ∧
      outcome = .error (.promptExhausted .simple realm (failed + remaining))) := by
  intro source offer
  induction remaining generalizing failed text err with
  | zero => exact .inr ⟨by simp [secretLine?], rfl⟩
  | succ remaining ih =>
      have asked := prompt_simple (source.context realm parameters failed) "" "" parameters.maySave text err
      rw [show (source.context realm parameters failed).username = offer from rfl] at asked
      rw [secretLine?_succ]
      cases answered : answer? offer (lines text).head? with
      | none =>
          rw [answered] at asked
          rw [source.attempt_succ_of_incomplete asked rfl rfl]
          rcases ih (failed + 1) (behind text) _ with
            ⟨index, user, found, named, outcome⟩ | ⟨none, outcome⟩
          · rw [lines_behind] at found named outcome
            refine .inl ⟨index + 1, user, by simp [found], ?_, ?_⟩
            · rw [← List.getElem?_tail]
              exact named
            · rw [outcome, List.getElem?_tail]
          · rw [lines_behind] at none
            refine .inr ⟨by simp [none], ?_⟩
            rw [outcome, Nat.add_right_comm, Nat.add_assoc]
      | some user =>
          rw [answered] at asked
          have named : decide (user ≠ "") = true := decide_eq_true (ne_empty_of_answer? visible answered)
          refine .inl ⟨0, user, rfl, by rw [← List.head?_eq_getElem?]; exact answered, ?_⟩
          rw [source.attempt_succ_of_complete asked rfl named, List.head?_eq_getElem?,
            List.getElem?_tail]

end Console

theorem AgreeExcept.eq_of_none {left right : String} (agree : AgreeExcept none (lines left) (lines right)) :
    left = right := by
  have same : lines left = lines right := List.ext_getElem? fun index => agree index (by simp)
  have unpacked : linesOf left.toList = linesOf right.toList :=
    List.map_injective_iff.mpr (fun _ _ => String.ofList_injective) same
  rw [← String.toList_inj, ← flatten_linesOf left.toList, ← flatten_linesOf right.toList, unpacked]

/-! ## Side by side -/

/-- The answer without the password of its credential. -/
def withoutPassword : Answer → Answer
  | .grant credential => .grant credential.withoutPassword
  | answer => answer

theorem withoutPassword_ofOutcome (outcome : Except Error (Option Credential)) :
    withoutPassword (Answer.ofOutcome outcome) =
      Answer.ofOutcome (outcome.map (Option.map Credential.withoutPassword)) := by
  rcases outcome with error | _ | credential
  · cases error <;> rfl
  · rfl
  · rfl

section Resolving

variable {left right : Settings} {trusted : CertificateFailures} {environment : Environment}
  {realm : String} {kind : CredentialKind}

/-- The number of the line that is read as a password, if one is: a user name and a password are in demand,
the settings lack one of them, and somebody can be asked. -/
def passwordLine? (settings : Settings) (kind : CredentialKind) (lines : List String) : Option Nat :=
  if kind = .simple ∧ (settings.auth.username = none ∨ settings.auth.password = none) ∧
      settings.session.nonInteractive = false then
    secretLine? settings.auth.username (settings.session.retryLimit.toNat + 1) lines
  else none

theorem map_usable_withoutPassword {σ : Type} (provider : Provider σ)
    (outcome : Except Error (Option Credential)) :
    (outcome.map provider.usable).map (Option.map Credential.withoutPassword) =
      (outcome.map (Option.map Credential.withoutPassword)).map provider.usable := by
  cases outcome with
  | error error => rfl
  | ok produced => exact congrArg Except.ok (provider.usable_withoutPassword produced)

/-- A prompt on the console, on inputs that differ in the line of the password at most. -/
theorem produce_prompting_alike (environment : Environment) (realm : String) {limit : BitVec 32}
    (bounded : limit.toNat ≤ 10) {parameters : Parameters} (supported : kind = .simple ∨ kind = .username)
    (visible : parameters.text? ParameterKey.username ≠ some "") {first second : String}
    (err : List Passage) (agree : AgreeExcept (if kind = .simple then
      secretLine? (parameters.text? ParameterKey.username) (limit.toNat + 1) (lines first) else none)
      (lines first) (lines second)) :
    let asked := (Provider.prompting kind limit Console.prompt).produce environment realm parameters
    (asked (.showing first err)).1.map (Option.map Credential.withoutPassword) =
        (asked (.showing second err)).1.map (Option.map Credential.withoutPassword) ∧
      (asked (.showing first err)).2.err = (asked (.showing second err)).2.err := by
  intro asked
  rcases supported with rfl | rfl
  · rw [if_pos rfl] at agree
    have raw (text : String) : (Provider.prompting .simple limit Console.prompt).raw environment realm
        parameters (.showing text err) = (⟨.simple, limit, Console.prompt⟩ : PromptSource Console).produce
          realm parameters (.showing text err) := rfl
    have attempts : (⟨.simple, limit, Console.prompt⟩ : PromptSource Console).attempts =
        limit.toNat + 1 := by
      have size : UInt32.size = 4294967296 := rfl
      simp only [PromptSource.attempts]
      omega
    have alike := Console.attempt_simple limit realm visible 0 _ first second err agree
    simp only [asked, Provider.produce_apply, map_usable_withoutPassword, raw, PromptSource.produce,
      attempts]
    split_ifs
    · exact ⟨rfl, rfl⟩
    · exact ⟨congrArg (Except.map _) alike.1, alike.2⟩
  · obtain rfl : first = second := agree.eq_of_none
    exact ⟨rfl, rfl⟩

theorem produce_prompting_congr {σ : Type} {left right : Parameters} (alike : left.Alike right)
    (limit : BitVec 32) (prompt : Prompt σ) :
    (Provider.prompting kind limit prompt).produce environment realm left =
      (Provider.prompting kind limit prompt).produce environment realm right := by
  have raw (parameters : Parameters) :
      (Provider.prompting kind limit prompt).raw environment realm parameters =
        (⟨kind, limit, prompt⟩ : PromptSource σ).produce realm parameters := rfl
  funext caller
  rw [Provider.produce_apply, Provider.produce_apply, raw, raw, alike.produce]

/-- What two settings offer that differ in the texts of passwords differs in its password at most. -/
theorem offered?_alike (same : left.withoutSecrets = right.withoutSecrets)
    (supported : kind = .simple ∨ kind = .username) (environment : Environment) :
    (left.offered? environment kind).map Credential.withoutPassword =
      (right.offered? environment kind).map Credential.withoutPassword := by
  have username : left.auth.username = right.auth.username := congrArg (·.auth.username) same
  have cache : left.auth.noAuthCache = right.auth.noAuthCache := congrArg (·.auth.noAuthCache) same
  have password := Settings.isSome_password same
  rcases supported with rfl | rfl
  · simp only [Settings.offered?, Settings.found?, username, cache]
    cases right.auth.username with
    | none => rfl
    | some user =>
        cases mine : left.auth.password <;> cases yours : right.auth.password <;>
          simp only [mine, yours] at password
        · rfl
        · cases password
        · cases password
        · by_cases named : user = "" <;>
            simp [Option.filter_some, named, Credential.isComplete, Credential.withMaySave,
              Credential.withoutPassword]
  · simp only [Settings.offered?, Settings.found?, username, cache]

theorem isSome_offered? (same : left.withoutSecrets = right.withoutSecrets)
    (supported : kind = .simple ∨ kind = .username) (environment : Environment) :
    (left.offered? environment kind).isSome = (right.offered? environment kind).isSome := by
  simpa using congrArg Option.isSome (offered?_alike same supported environment)

/-- Settings that offer no user name with a password lack one of them. -/
theorem lacks_of_offered?_eq_none (visible : left.auth.username ≠ some "")
    (nothing : left.offered? environment .simple = none) :
    left.auth.username = none ∨ left.auth.password = none := by
  cases user_set : left.auth.username with
  | none => exact .inl rfl
  | some user =>
      cases password_set : left.auth.password with
      | none => exact .inr rfl
      | some password =>
          have named : user ≠ "" := by
            rintro rfl
            exact visible user_set
          simp [Settings.offered?, Settings.found?, user_set, password_set, Credential.isComplete,
            named] at nothing

theorem askChain_alike (trusted : CertificateFailures) (environment : Environment) (realm : String)
    (same : left.withoutSecrets = right.withoutSecrets)
    (supported : kind = .simple ∨ kind = .username) (visible : left.auth.username ≠ some "")
    (bounded : left.session.retryLimit.toNat ≤ 10) {first second : String} (err : List Passage)
    (agree : AgreeExcept (passwordLine? left kind (lines first)) (lines first) (lines second)) :
    let one := askChain environment realm (authRegistry left trusted kind).parameters
      (authRegistry left trusted kind).providers (.showing first err)
    let other := askChain environment realm (authRegistry right trusted kind).parameters
      (authRegistry right trusted kind).providers (.showing second err)
    withoutPassword one.1 = withoutPassword other.1 ∧ one.2.err = other.2.err := by
  have alike := Settings.parameters_alike same trusted
  have username := left.text?_registry_username trusted
  have session : right.session = left.session := (congrArg (·.session) same).symm
  have matching := offered?_alike same supported environment
  simp only [authRegistry, askChain_cons_produce, session, Settings.produce_standard]
  cases mine : left.offered? environment kind with
  | some credential =>
      obtain ⟨twin, yours, twins⟩ := Option.map_eq_some_iff.mp (matching.symm.trans (congrArg _ mine))
      rw [yours]
      exact ⟨congrArg Answer.grant twins.symm, rfl⟩
  | none =>
      have yours : right.offered? environment kind = none :=
        Option.map_eq_none_iff.mp (matching.symm.trans (congrArg _ mine))
      rw [yours]
      cases silent : left.session.nonInteractive with
      | true => exact ⟨rfl, rfl⟩
      | false =>
          have limit : (if kind = .serverTrust then 0 else left.session.retryLimit) =
              left.session.retryLimit := by rcases supported with rfl | rfl <;> rfl
          have line : passwordLine? left kind (lines first) = if kind = .simple then
              secretLine? left.auth.username (left.session.retryLimit.toNat + 1) (lines first)
              else none := by
            by_cases pair : kind = .simple
            · subst pair
              rw [passwordLine?, if_pos ⟨rfl, lacks_of_offered?_eq_none visible mine, silent⟩, if_pos rfl]
            · rw [passwordLine?, if_neg (fun asked => pair asked.1), if_neg pair]
          rw [line, ← username] at agree
          have asked := produce_prompting_alike environment realm bounded supported
            (username ▸ visible) err agree
          have pass : Answer.ofOutcome (.ok none) = .pass := rfl
          simp only [limit, Bool.false_eq_true, if_false, pass, askChain_singleton,
            withoutPassword_ofOutcome]
          rw [← produce_prompting_congr alike]
          exact ⟨congrArg Answer.ofOutcome asked.1, asked.2⟩

theorem openingEvents_alike (trusted : CertificateFailures) (realm : String)
    (same : left.withoutSecrets = right.withoutSecrets) (supported : kind = .simple ∨ kind = .username)
    (environment : Environment) :
    openingEvents left trusted environment kind realm = openingEvents right trusted environment kind realm := by
  have session : right.session = left.session := (congrArg (·.session) same).symm
  simp only [openingEvents, eventsBefore, authRegistry, session, isSome_offered? same supported]

/-- What is told behind tells nothing of the credential, only whether there is one. -/
theorem closingEvents_alike (realm : String) (same : left.withoutSecrets = right.withoutSecrets)
    (supported : kind = .simple ∨ kind = .username) (environment : Environment)
    {outcome other : Except Error Credential}
    (matching : outcome.map Credential.withoutPassword = other.map Credential.withoutPassword) :
    closingEvents left environment kind realm outcome = closingEvents right environment kind realm other := by
  have session : right.session = left.session := (congrArg (·.session) same).symm
  have behind : eventsBehind left kind realm outcome = eventsBehind right kind realm other := by
    cases outcome with
    | ok credential =>
        cases other with
        | ok twin => rfl
        | error error => cases matching
    | error error =>
        cases other with
        | ok twin => cases matching
        | error error =>
            cases matching
            simp only [eventsBehind, session]
  rw [closingEvents, closingEvents, isSome_offered? same supported, behind]

theorem providers_keep {σ : Type} (registry : Registry σ) (credential : Credential) :
    (registry.keep realm credential).providers = registry.providers := by
  rw [Registry.keep]
  split_ifs <;> rfl

theorem isSome_remembered?_keep {σ : Type} (registry : Registry σ) (credential : Credential) :
    ((registry.keep realm credential).parameters.remembered? kind realm).isSome =
      ((credential.maySave && registry.parameters.maySave &&
        decide (ParameterKey.remembered kind realm = ParameterKey.remembered credential.kind realm)) ||
        (registry.parameters.remembered? kind realm).isSome) := by
  rw [Registry.keep]
  split_ifs with kept
  · simp only [Parameters.remember, Parameters.remembered?, Parameters.get?_set, kept, Bool.true_and]
    split_ifs with found <;> simp [found]
  · rw [Bool.not_eq_true] at kept
    rw [kept, Bool.false_and, Bool.false_or]

theorem authResult_alike (trusted : CertificateFailures) (realm : String) (kind : CredentialKind)
    (same : left.withoutSecrets = right.withoutSecrets) {credential twin : Credential}
    (matching : credential.withoutPassword = twin.withoutPassword) :
    authResult realm kind ((authRegistry left trusted kind).keep realm credential) credential =
      authResult realm kind ((authRegistry right trusted kind).keep realm twin) twin := by
  have user : credential.user? = twin.user? := by
    rw [← Credential.user?_withoutPassword, matching, Credential.user?_withoutPassword]
  have maySave : credential.maySave = twin.maySave := by
    rw [← Credential.maySave_withoutPassword, matching, Credential.maySave_withoutPassword]
  have kinds : credential.kind = twin.kind := by
    rw [← Credential.kind_withoutPassword, matching, Credential.kind_withoutPassword]
  have session : right.session = left.session := (congrArg (·.session) same).symm
  have providers : ((authRegistry left trusted kind).keep realm credential).providers =
      ((authRegistry right trusted kind).keep realm twin).providers := by
    rw [providers_keep, providers_keep, authRegistry, authRegistry, session]
  have allowed : (authRegistry left trusted kind).parameters.maySave =
      (authRegistry right trusted kind).parameters.maySave :=
    (Settings.parameters_alike same trusted).maySave
  have cached :
      (((authRegistry left trusted kind).keep realm credential).parameters.remembered? kind realm).isSome =
        (((authRegistry right trusted kind).keep realm twin).parameters.remembered? kind realm).isSome := by
    rw [isSome_remembered?_keep, isSome_remembered?_keep, remembered?_authRegistry, remembered?_authRegistry,
      maySave, kinds, allowed]
  simp only [authResult, user, cached, providers]

theorem Console.err_after_congr {one other : Console} {events others : List Event} (errs : one.err = other.err)
    (same : events = others) : (one.after events).err = (other.after others).err := by
  simp only [Console.after, errs, same]

/-- What can be noticed of how a part of a run ends: its result or its error, and what has gone to standard
error before. -/
def noticed {α : Type} : EStateM.Result Error (World Console) α → Except Error α × List Passage
  | .ok result world => (.ok result, world.caller.err)
  | .error error world => (.error error, world.caller.err)

/-- A step that only turns the result into another one keeps what can be noticed. -/
theorem noticed_bind {α β : Type} (step : α → Except Error β) {action other : Action Console α}
    {world another : World Console} (same : noticed (action world) = noticed (other another)) :
    noticed ((action >>= fun result => Action.ofOutcome (step result)) world) =
      noticed ((other >>= fun result => Action.ofOutcome (step result)) another) := by
  rw [Action.bind_apply, Action.bind_apply]
  cases ran : action world <;> cases ran_other : other another <;> rw [ran, ran_other] at same
  case ok.ok result last _ _ =>
      obtain ⟨result_eq, err_eq⟩ := Prod.mk.inj same
      cases result_eq
      have ended (last : World Console) :
          noticed (Action.ofOutcome (step result) last) = (step result, last.caller.err) := by
        cases step result <;> rfl
      exact (ended last).trans ((congrArg _ err_eq).trans (ended _).symm)
  case error.error =>
      obtain ⟨error_eq, err_eq⟩ := Prod.mk.inj same
      cases error_eq
      exact Prod.ext rfl err_eq
  all_goals cases (Prod.mk.inj same).1

theorem noticed_execute {now later : Timestamp} {invocation : Invocation} {world other : World Console}
    (same : noticed (runCommand now invocation world) = noticed (runCommand later invocation other)) :
    noticed (execute now invocation world) = noticed (execute later invocation other) :=
  noticed_bind _ same

/-- What a process shows of a command that resolves a credential is what can be noticed of it. -/
theorem runInvocation_congr {telling : Telling} {now later : Timestamp} {name realm keyword : String}
    {invocation : Invocation} {world other : World Console}
    (command : invocation.command = .auth realm keyword)
    (same : noticed (execute now invocation world) = noticed (execute later invocation other)) :
    let exit := runInvocation telling now name invocation world
    let exitOther := runInvocation telling later name invocation other
    exit.out = exitOther.out ∧ exit.code = exitOther.code ∧ exit.err = exitOther.err := by
  simp only [runInvocation, command, Console.after_nil]
  cases ran : execute now invocation world <;> cases ran_other : execute later invocation other <;>
    rw [ran, ran_other] at same
  case ok.ok =>
      obtain ⟨out_eq, err_eq⟩ := Prod.mk.inj same
      exact ⟨Except.ok.inj out_eq, rfl, err_eq⟩
  case error.error error last other_error end_other =>
      obtain ⟨error_eq, err_eq⟩ := Prod.mk.inj same
      cases error_eq
      have err_eq : last.caller.err = end_other.caller.err := err_eq
      simp only [err_eq]
      cases Report.failure name error invocation.json <;> exact ⟨rfl, rfl, rfl⟩
  all_goals cases (Prod.mk.inj same).1

theorem noticed_runAuth (same : left.withoutSecrets = right.withoutSecrets)
    (visible : left.auth.username ≠ some "") (bounded : left.session.retryLimit.toNat ≤ 10)
    {keyword first second : String} {files others : FileSystem} (err : List Passage)
    (agree : AgreeExcept
      ((CredentialKind.ofKeyword? keyword).bind fun kind => passwordLine? left kind (lines first))
      (lines first) (lines second)) :
    noticed (runAuth left realm keyword ⟨files, [], environment, .showing first err⟩) =
      noticed (runAuth right realm keyword ⟨others, [], environment, .showing second err⟩) := by
  have trusts : right.auth.trusted = left.auth.trusted := by
    have names : left.auth.trustedFailures = right.auth.trustedFailures :=
      congrArg (·.auth.trustedFailures) same
    rw [AuthSettings.trusted, AuthSettings.trusted, names]
  rw [runAuth_apply, runAuth_apply, trusts]
  cases parsed : CredentialKind.parse keyword with
  | error error => rfl
  | ok kind =>
      by_cases unsupported : kind ≠ .simple ∧ kind ≠ .username
      · simp only [if_pos unsupported]
        rfl
      · have supported : kind = .simple ∨ kind = .username := by tauto
        have meant : CredentialKind.ofKeyword? keyword = some kind := by
          rw [CredentialKind.parse] at parsed
          split at parsed <;> simp_all
        rw [meant, Option.bind_some] at agree
        simp only [if_neg unsupported]
        cases left.auth.trusted with
        | error error => rfl
        | ok trusted =>
            have opening := openingEvents_alike trusted realm same supported environment
            have alike := askChain_alike trusted environment realm same supported visible bounded
              (err ++ (openingEvents left trusted environment kind realm).map .event) agree
            simp only [resolve_authRegistry, Console.after_showing, ← opening]
            revert alike
            rcases askChain environment realm (authRegistry left trusted kind).parameters
              (authRegistry left trusted kind).providers (.showing first _) with ⟨answer, last⟩
            rcases askChain environment realm (authRegistry right trusted kind).parameters
              (authRegistry right trusted kind).providers (.showing second _) with ⟨other, end_other⟩
            rintro ⟨matching, errs⟩
            -- Answers that match are of the same sort, and only a grant carries a credential.
            cases answer <;> cases other <;> simp only [withoutPassword, reduceCtorEq] at matching
            case grant.grant credential twin =>
              have twins := Answer.grant.inj matching
              have closing : closingEvents left environment kind realm (.ok credential) =
                  closingEvents right environment kind realm (.ok twin) :=
                closingEvents_alike realm same supported environment (congrArg Except.ok twins)
              exact Prod.ext (congrArg Except.ok (authResult_alike trusted realm kind same twins))
                (Console.err_after_congr errs closing)
            case pass.pass =>
              have closing : closingEvents left environment kind realm (.error (.noCredential kind realm)) =
                  closingEvents right environment kind realm (.error (.noCredential kind realm)) :=
                closingEvents_alike realm same supported environment rfl
              exact Prod.ext rfl (Console.err_after_congr errs closing)
            case failed.failed error _ =>
              cases matching
              have closing : closingEvents left environment kind realm (.error error) =
                  closingEvents right environment kind realm (.error error) :=
                closingEvents_alike realm same supported environment rfl
              exact Prod.ext rfl (Console.err_after_congr errs closing)

end Resolving

/-! ## The command -/

theorem acceptable_of_settingsOf {environment : Environment} {files : FileSystem} {invocation : Invocation}
    {settings : Settings} (loaded : settingsOf environment files invocation = .ok settings) :
    settings.Acceptable := by
  have acceptable_default : ({} : Settings).Acceptable := ({} : Settings).check_eq_ok_iff.mp (by decide)
  rw [settingsOf] at loaded
  split at loaded
  · exact Settings.acceptable_of_load loaded
  · exact Except.ok.inj loaded ▸ acceptable_default

/-- What is told when the settings are read. -/
def readingEvents (environment : Environment) (files : FileSystem) (invocation : Invocation) : List Event :=
  ((settingsFile? environment files invocation).map .loadedSettings).toList

theorem runCommand_auth (now : Timestamp) (world : World Console) {invocation : Invocation}
    {realm keyword : String} {settings : Settings} (command : invocation.command = .auth realm keyword)
    (loaded : settingsOf world.environment world.files invocation = .ok settings) :
    runCommand now invocation world = runAuth (invocation.adjust settings) realm keyword
      { world with caller := world.caller.after (readingEvents world.environment world.files invocation) } := by
  have read : loadSettings invocation world = .ok settings { world with
      caller := world.caller.after (readingEvents world.environment world.files invocation) } := by
    simp only [loadSettings, Action.bind_apply, Action.get_apply, loaded, Action.ofOutcome, Action.pure_apply,
      readingEvents]
    cases settingsFile? world.environment world.files invocation with
    | none =>
        simp only [Option.map_none, Option.toList_none, Console.after_nil]
        rfl
    | some file => rfl
  simp only [runCommand, command, Action.bind_apply, read]

theorem filter_eq_of_isSome {α : Type} {value : Option α} {keep other : α → Bool}
    (present : (value.filter keep).isSome = (value.filter other).isSome) :
    value.filter keep = value.filter other := by
  cases value with
  | none => rfl
  | some content => simp_all [Option.filter_some, apply_ite Option.isSome]

theorem defaultFile?_eq {environment : Environment} {files others : FileSystem}
    (present : (Settings.defaultFile? environment files).isSome =
      (Settings.defaultFile? environment others).isSome) :
    Settings.defaultFile? environment files = Settings.defaultFile? environment others := by
  unfold Settings.defaultFile? at present ⊢
  cases named : environment.nonempty? "SVNCTX_CONFIG" with
  | some file => rfl
  | none =>
      rw [named] at present
      exact filter_eq_of_isSome present

/-- Two runs that both find a file with settings find the same one. -/
theorem settingsFile?_eq {environment : Environment} {files others : FileSystem} {invocation : Invocation}
    (present : (settingsFile? environment files invocation).isSome =
      (settingsFile? environment others invocation).isSome) :
    settingsFile? environment files invocation = settingsFile? environment others invocation := by
  simp only [settingsFile?, Option.orElse_eq_orElse, Option.orElse_eq_or] at present ⊢
  cases named : invocation.settingsFile with
  | some file => rw [Option.some_or, Option.some_or]
  | none =>
      rw [named, Option.none_or, Option.none_or] at present
      rw [Option.none_or, Option.none_or, defaultFile?_eq present]

/-- Where no event is told, neither the time nor the name of the session matters. -/
theorem stderr_of_untold {libraries : Libraries} {environment : Environment} {passages : List Passage}
    (untold : ∀ event, .event event ∈ passages → libraries.admits environment event = false)
    (one other : Surroundings) :
    stderr libraries environment one passages = stderr libraries environment other passages := by
  rw [stderr, stderr]
  congr 1
  refine List.map_congr_left fun ⟨passage, index⟩ placed => ?_
  have listed : passage ∈ passages := List.fst_mem_of_mem_zipIdx placed
  cases passage with
  | text | panic => rfl
  | event event => simp only [untold event listed, Bool.false_eq_true, if_false]

/-! ## The program -/

variable {environment : Environment} {arguments : List OsText} {invocation : Invocation}
  {realm keyword : String} {files others : FileSystem} {settings changed : Settings}
  {input another : String}

/--
Two runs of the command that resolves a credential, with the same arguments and environment, write the same to
standard output, exit with the same code, and put the same texts and the same events on standard error in the
same order, if their settings differ in the texts of passwords at most, and their inputs in the line at most
that is read as a password. Only in the lines of events that the environment asks for can standard error
differ at all, and there only in the time and in the random name of the session.
-/
theorem auth_keeps_secrets
    (request : Request.ofArguments environment arguments = .run invocation)
    (command : invocation.command = .auth realm keyword)
    (loaded : settingsOf environment files invocation = .ok settings)
    (loaded_changed : settingsOf environment others invocation = .ok changed)
    (present : (settingsFile? environment files invocation).isSome =
      (settingsFile? environment others invocation).isSome)
    (same : settings.withoutSecrets = changed.withoutSecrets)
    (agree : ∀ index, (CredentialKind.ofKeyword? keyword).bind (fun kind =>
        passwordLine? (invocation.adjust settings) kind (lines input)) ≠ some index →
      (lines input)[index]? = (lines another)[index]?)
    (telling : Telling) (now later : Timestamp) (program : OsText) :
    let exit := run telling now environment program arguments input.toUTF8.data.toList files
    let exitOther := run telling later environment program arguments another.toUTF8.data.toList others
    exit.out = exitOther.out ∧ exit.code = exitOther.code ∧ exit.err = exitOther.err ∧
      ∀ libraries, (∀ event, .event event ∈ exit.err → libraries.admits environment event = false) →
        ∀ surroundings surroundingsOther, stderr libraries environment surroundings exit.err =
          stderr libraries environment surroundingsOther exitOther.err := by
  intro exit exitOther
  have acceptable := acceptable_of_settingsOf loaded
  have adjusted : (invocation.adjust settings).withoutSecrets =
      (invocation.adjust changed).withoutSecrets := congrArg invocation.adjust same
  have visible : (invocation.adjust settings).auth.username ≠ some "" :=
    fun empty => acceptable.username_ne_empty empty rfl
  have bounded : (invocation.adjust settings).session.retryLimit.toNat ≤ 10 := acceptable.retryLimit
  suffices alike : exit.out = exitOther.out ∧ exit.code = exitOther.code ∧ exit.err = exitOther.err by
    refine ⟨alike.1, alike.2.1, alike.2.2, fun libraries untold surroundings surroundingsOther => ?_⟩
    rw [← alike.2.2, stderr_of_untold untold surroundings surroundingsOther]
  cases named : inferredName program arguments with
  | error panic => simp only [exit, exitOther, run, named, Exit.panicked, and_self]
  | ok name =>
      have reading : readingEvents environment others invocation =
          readingEvents environment files invocation := by
        rw [readingEvents, readingEvents, settingsFile?_eq present]
      have alike : noticed (runCommand now invocation ⟨files, [], environment, .showing input []⟩) =
          noticed (runCommand later invocation ⟨others, [], environment, .showing another []⟩) := by
        rw [runCommand_auth now ⟨files, [], environment, .showing input []⟩ command loaded,
          runCommand_auth later ⟨others, [], environment, .showing another []⟩ command loaded_changed]
        simp only [reading, Console.after_showing]
        exact noticed_runAuth adjusted visible bounded _ agree
      simp only [exit, exitOther, run, named, request]
      exact runInvocation_congr command (noticed_execute alike)

/-- A directory with a settings file. -/
def homeWith (document : String) : FileSystem where
  nodes := [(["home"], .directory), (["home", "svn.toml"], .file 0)]
  contents := [(0, document.toUTF8)]
  nextFile := 1
  held := []
  current := ["home"]

/-- A process that tells of nothing beside what its command tells. -/
def untold : Telling := fun _ _ => []

/-- The settings have different passwords but no name, so the first line is no answer, the second one is a
name, and the third one is its password. -/
theorem auth_keeps_secrets_of_passwords :
    let arguments : List OsText := ["--json", "--config", "svn.toml", "auth", "realm"]
    let invocation : Invocation := ⟨.auth "realm" "simple", some ⟨"svn.toml"⟩, false, true, false⟩
    let settings : Settings := { auth := { password := some "open" } }
    let changed : Settings := { auth := { password := some "sesame" } }
    let home := homeWith "[auth]\npassword = \"open\"\n"
    let homeOther := homeWith "[auth]\npassword = \"sesame\"\n"
    let exit := run untold default default "svnctx" arguments "\nalice\nsecret\n".toUTF8.data.toList home
    let exitOther := run untold default default "svnctx" arguments "\nalice\n\n".toUTF8.data.toList homeOther
    Request.ofArguments default arguments = .run invocation ∧
      invocation.command = .auth "realm" "simple" ∧
      settingsOf default home invocation = .ok settings ∧
      settingsOf default homeOther invocation = .ok changed ∧
      (settingsFile? default home invocation).isSome = (settingsFile? default homeOther invocation).isSome ∧
      settings.withoutSecrets = changed.withoutSecrets ∧
      passwordLine? (invocation.adjust settings) .simple (lines "\nalice\nsecret\n") = some 2 ∧
      exit.out = exitOther.out ∧ exit.code = exitOther.code ∧ exit.err = exitOther.err ∧
      ∀ libraries surroundings surroundingsOther,
        stderr libraries default surroundings exit.err =
          stderr libraries default surroundingsOther exitOther.err := by
  intro arguments invocation settings changed home homeOther exit exitOther
  have request : Request.ofArguments default arguments = .run invocation := by decide +kernel
  have loaded : settingsOf default home invocation = .ok settings := by decide +kernel
  have loaded_changed : settingsOf default homeOther invocation = .ok changed := by decide +kernel
  have present : (settingsFile? default home invocation).isSome =
    (settingsFile? default homeOther invocation).isSome := by decide +kernel
  have meant : CredentialKind.ofKeyword? "simple" = some .simple := by decide +kernel
  have line : passwordLine? (invocation.adjust settings) .simple (lines "\nalice\nsecret\n") = some 2 := by
    decide +kernel
  have mine : lines "\nalice\nsecret\n" = ["\n", "alice\n", "secret\n"] := by decide +kernel
  have yours : lines "\nalice\n\n" = ["\n", "alice\n", "\n"] := by decide +kernel
  have agree (index : Nat) (apart : (CredentialKind.ofKeyword? "simple").bind (fun kind =>
      passwordLine? (invocation.adjust settings) kind (lines "\nalice\nsecret\n")) ≠ some index) :
      (lines "\nalice\nsecret\n")[index]? = (lines "\nalice\n\n")[index]? := by
    rw [meant, Option.bind_some, line] at apart
    rw [mine, yours]
    match index with
    | 0 | 1 => rfl
    | 2 => exact absurd rfl apart
    | _ + 3 => rfl
  obtain ⟨out, code, err, silent⟩ := auth_keeps_secrets request rfl loaded loaded_changed present rfl agree
    untold default default "svnctx"
  have unasked : eventFilter? default = none := by decide +kernel
  refine ⟨request, rfl, loaded, loaded_changed, present, rfl, line, out, code, err, fun libraries => ?_⟩
  exact silent libraries fun event _ => by rw [Libraries.admits, unasked]; rfl

/-- Libraries that know one filter, and start the line of an event with the time. -/
def plainLibraries : Libraries where
  admits? filter := if filter = "debug" then some fun event => event.level ≠ .trace else none
  line time session event :=
    let values := event.fields.map fun (name, value) => " " ++ name ++ "=" ++ match value with
      | .shown text => text
      | .text text => quoted text
      | .number value => toString value
      | .flag value => toString value
      | .session => session
    time.render ++ " DEBUG " ++ event.source ++ ": " ++ event.message ++ String.join values ++ "\n"
  panicText _ := ""

/-- Where the environment asks for events, a run that is repeated with the same settings and the same input does
not put the same on standard error: each line carries the time, and some the random name of the session. -/
theorem auth_traces_differ :
    let environment : Environment := { entries := [("RUST_LOG", "debug")] }
    let arguments : List OsText := ["--config", "svn.toml", "auth", "realm", "--kind", "username"]
    let home := homeWith "[auth]\nusername = \"alice\"\n"
    let exit := run untold default environment "svnctx" arguments [] home
    let first : Surroundings := ⟨fun _ => ⟨⟨2024, 5, 1⟩, 12, 0, 0, 0⟩, "9b2d4a1e-6f1f-4c38-8d9e-2b7f0c5a1d33"⟩
    let second : Surroundings := ⟨fun _ => ⟨⟨2024, 5, 1⟩, 12, 0, 1, 0⟩, "47c0e8f2-0a6b-4e5d-9c13-d8a4b6e7f905"⟩
    exit.code = 0 ∧ stderr plainLibraries environment first exit.err ≠
      stderr plainLibraries environment second exit.err := by
  decide +kernel

end CommandLine

end Checkout
