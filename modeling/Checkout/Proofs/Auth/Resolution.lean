import Checkout.Auth.Registry

/-!
# How a registry resolves

The rules by which a registry comes by a credential, and the proof that it keeps to them. A remembered
credential is handed out without asking anyone. Otherwise the providers of its kind run in the order of
their registration, in the parameters as they are, and the first one that is not passed over decides. The
rules say in which state each provider runs and in which state it leaves the caller, so what does not run
cannot be noticed.
-/

namespace Checkout

variable {σ : Type}

/-- What the source of a provider comes up with, whether or not the provider can use it. -/
def Provider.raw (provider : Provider σ) (environment : Environment) (realm : String)
    (parameters : Parameters) : StateM σ (Except Error (Option Credential)) :=
  match provider.source with
  | .static source => fun caller =>
      let (produced, caller) := source.produce environment realm parameters caller
      (.ok produced, caller)
  | .prompt source => source.produce realm parameters

/-- What a provider of a kind comes up with does not count, and the next provider is asked. -/
inductive PassedOver (kind : CredentialKind) : Except Error (Option Credential) → Prop where
  | nothing : PassedOver kind (.ok none)
  | otherKind {credential : Credential} (differs : credential.kind ≠ kind) :
      PassedOver kind (.ok (some credential))
  | incomplete {credential : Credential} (lacking : credential.isComplete = false) :
      PassedOver kind (.ok (some credential))
  | gaveUp (asked : CredentialKind) (realm : String) (attempts : Nat) :
      PassedOver kind (.error (.promptExhausted asked realm attempts))

/-- A provider of a kind has a credential that it can use. -/
structure Usable (kind : CredentialKind) (credential : Credential) : Prop where
  kind_eq : credential.kind = kind
  complete : credential.isComplete = true

section Chain

variable (environment : Environment) (realm : String) (parameters : Parameters)

/-- Providers run one after another, each once and where the one before has left the caller, and all of
them are passed over. -/
inductive AllPassed : σ → List (Provider σ) → σ → Prop where
  | nil (caller : σ) : AllPassed caller [] caller
  | cons {caller middle last : σ} {provider : Provider σ} {rest : List (Provider σ)}
      {outcome : Except Error (Option Credential)}
      (ran : provider.raw environment realm parameters caller = (outcome, middle))
      (passed : PassedOver provider.kind outcome) (others : AllPassed middle rest last) :
      AllPassed caller (provider :: rest) last

end Chain

/-- The providers of a kind are asked for a credential. -/
inductive ChainRuns (environment : Environment) (kind : CredentialKind) (realm : String)
    (registry : Registry σ) (caller : σ) : Except Error Credential → σ → Prop where
  /-- The first provider that is not passed over has a credential; those behind it do not run. -/
  | granted {passed rest : List (Provider σ)} {provider : Provider σ} {middle last : σ}
      {credential : Credential}
      (chain : registry.providers.filter (fun provider => provider.kind = kind) =
        passed ++ provider :: rest)
      (before : AllPassed environment realm registry.parameters caller passed middle)
      (ran : provider.raw environment realm registry.parameters middle =
        (.ok (some credential), last))
      (usable : Usable kind credential) :
      ChainRuns environment kind realm registry caller (.ok credential) last
  /-- The first provider that is not passed over fails. -/
  | failed {passed rest : List (Provider σ)} {provider : Provider σ} {middle last : σ} {error : Error}
      (chain : registry.providers.filter (fun provider => provider.kind = kind) =
        passed ++ provider :: rest)
      (before : AllPassed environment realm registry.parameters caller passed middle)
      (ran : provider.raw environment realm registry.parameters middle = (.error error, last))
      (serious : ¬PassedOver kind (.error error)) :
      ChainRuns environment kind realm registry caller (.error error) last
  /-- Every provider is passed over. -/
  | exhausted {last : σ}
      (all : AllPassed environment realm registry.parameters caller
        (registry.providers.filter fun provider => provider.kind = kind) last) :
      ChainRuns environment kind realm registry caller (.error (.noCredential kind realm)) last

/-- The rules of a registry: a remembered credential, or else what the chain of providers comes to. -/
def Resolves (environment : Environment) (kind : CredentialKind) (realm : String)
    (registry : Registry σ) (caller : σ) (outcome : Except Error Credential) (last : σ) : Prop :=
  match registry.parameters.remembered? kind realm with
  | some credential => outcome = .ok credential ∧ last = caller
  | none => ChainRuns environment kind realm registry caller outcome last

/-! ## Asking one provider -/

namespace Provider

variable (provider : Provider σ) (environment : Environment) (realm : String)
  (parameters : Parameters) (caller : σ)

theorem produce_apply :
    provider.produce environment realm parameters caller =
      ((provider.raw environment realm parameters caller).1.map provider.usable,
        (provider.raw environment realm parameters caller).2) := by
  cases source_eq : provider.source with
  | static source => simp only [produce, raw, source_eq]; rfl
  | prompt source => simp only [produce, raw, source_eq]; rfl

variable {provider}

theorem usable_eq_some {produced : Option Credential} {credential : Credential} :
    provider.usable produced = some credential ↔
      produced = some credential ∧ Usable provider.kind credential := by
  rw [usable, Option.filter_eq_some_iff]
  refine and_congr_right fun _ => ?_
  rw [Bool.and_eq_true, decide_eq_true_eq]
  exact ⟨fun both => ⟨both.1, both.2⟩, fun usable => ⟨usable.kind_eq, usable.complete⟩⟩

theorem usable_eq_none {produced : Option Credential} :
    provider.usable produced = none ↔ PassedOver provider.kind (.ok produced) := by
  cases produced with
  | none => exact ⟨fun _ => .nothing, fun _ => rfl⟩
  | some credential =>
      simp only [usable, Option.filter_eq_none_iff, Option.some.injEq, forall_eq',
        Bool.and_eq_true, decide_eq_true_eq, not_and, Bool.not_eq_true]
      constructor
      · intro unusable
        by_cases same : credential.kind = provider.kind
        · exact .incomplete (unusable same)
        · exact .otherKind same
      · intro passed same
        cases passed with
        | otherKind differs => exact absurd same differs
        | incomplete lacking => exact lacking

end Provider

namespace Answer

variable {provider : Provider σ} {outcome : Except Error (Option Credential)}

theorem ofOutcome_eq_pass :
    ofOutcome (outcome.map provider.usable) = .pass ↔ PassedOver provider.kind outcome := by
  cases outcome with
  | ok produced =>
      rw [← Provider.usable_eq_none]
      cases usable : provider.usable produced <;> simp [ofOutcome, Except.map, usable]
  | error error =>
      constructor
      · intro passed
        cases error <;> first | exact .gaveUp _ _ _ | simp [ofOutcome, Except.map] at passed
      · intro passed
        cases passed
        rfl

theorem ofOutcome_eq_grant {credential : Credential} :
    ofOutcome (outcome.map provider.usable) = .grant credential ↔
      outcome = .ok (some credential) ∧ Usable provider.kind credential := by
  cases outcome with
  | ok produced =>
      rw [Except.ok.injEq, ← Provider.usable_eq_some]
      cases usable : provider.usable produced <;> simp [ofOutcome, Except.map, usable]
  | error error => cases error <;> simp [ofOutcome, Except.map]

theorem ofOutcome_eq_failed {error : Error} :
    ofOutcome (outcome.map provider.usable) = .failed error ↔
      outcome = .error error ∧ ¬PassedOver provider.kind (.error error) := by
  cases outcome with
  | ok produced => cases usable : provider.usable produced <;> simp [ofOutcome, Except.map, usable]
  | error other =>
      rw [← ofOutcome_eq_pass, Except.error.injEq]
      constructor
      · intro failed
        cases other <;> simp [ofOutcome, Except.map] at failed <;> subst failed <;>
          simp [ofOutcome, Except.map]
      · rintro ⟨rfl, serious⟩
        cases other <;> simp [ofOutcome, Except.map] at serious ⊢

end Answer

/-! ## Asking a chain -/

section Chain

variable {environment : Environment} {realm : String} {parameters : Parameters}
  {provider : Provider σ} {chain : List (Provider σ)} {caller last : σ}

theorem askChain_cons (environment : Environment) (realm : String) (parameters : Parameters)
    (provider : Provider σ) (rest : List (Provider σ)) (caller : σ) :
    askChain environment realm parameters (provider :: rest) caller =
      match Answer.ofOutcome
          ((provider.raw environment realm parameters caller).1.map provider.usable) with
      | .pass => askChain environment realm parameters rest
          (provider.raw environment realm parameters caller).2
      | answer => (answer, (provider.raw environment realm parameters caller).2) := by
  simp only [askChain, bind, StateT.bind, Provider.produce_apply]
  cases Answer.ofOutcome
    ((provider.raw environment realm parameters caller).1.map provider.usable) <;> rfl

theorem askChain_eq_pass :
    askChain environment realm parameters chain caller = (.pass, last) ↔
      AllPassed environment realm parameters caller chain last := by
  induction chain generalizing caller with
  | nil =>
      constructor
      · intro asked
        cases asked
        exact .nil _
      · intro passed
        cases passed
        rfl
  | cons provider rest ih =>
      rw [askChain_cons]
      constructor
      · intro asked
        split at asked
        · rename_i passed
          exact .cons rfl (Answer.ofOutcome_eq_pass.mp passed) (ih.mp asked)
        · rename_i serious
          exact absurd (congrArg Prod.fst asked) serious
      · intro passed
        cases passed with
        | cons ran passed others =>
            rw [ran, Answer.ofOutcome_eq_pass.mpr passed]
            exact ih.mpr others

/-- A chain stops at the first provider that is not passed over. -/
theorem askChain_eq_of_ne_pass {answer : Answer} (serious : answer ≠ .pass) :
    askChain environment realm parameters chain caller = (answer, last) ↔
      ∃ passed provider rest middle outcome, chain = passed ++ provider :: rest ∧
        AllPassed environment realm parameters caller passed middle ∧
        provider.raw environment realm parameters middle = (outcome, last) ∧
        Answer.ofOutcome (outcome.map provider.usable) = answer := by
  induction chain generalizing caller with
  | nil =>
      constructor
      · intro asked
        exact absurd (congrArg Prod.fst asked).symm serious
      · rintro ⟨passed, provider, rest, middle, outcome, impossible, -⟩
        simp at impossible
  | cons first others ih =>
      rw [askChain_cons]
      constructor
      · intro asked
        split at asked
        · rename_i first_passed
          rcases ih.mp asked with ⟨passed, provider, rest, middle, outcome, rfl, before, ran, eq⟩
          exact ⟨first :: passed, provider, rest, middle, outcome, rfl,
            .cons rfl (Answer.ofOutcome_eq_pass.mp first_passed) before, ran, eq⟩
        · rw [Prod.mk.injEq] at asked
          exact ⟨[], first, others, caller, _, rfl, .nil caller, Prod.ext rfl asked.2, asked.1⟩
      · rintro ⟨passed, provider, rest, middle, outcome, shape, before, ran, eq⟩
        cases before with
        | nil =>
            rw [List.nil_append, List.cons.injEq] at shape
            rcases shape with ⟨rfl, rfl⟩
            rw [ran, eq]
            cases answer with
            | pass => exact absurd rfl serious
            | grant credential => rfl
            | failed error => rfl
        | cons first_ran first_passed before =>
            rw [List.cons_append, List.cons.injEq] at shape
            rcases shape with ⟨rfl, rfl⟩
            rw [first_ran, Answer.ofOutcome_eq_pass.mpr first_passed]
            exact ih.mpr ⟨_, provider, rest, middle, outcome, rfl, before, ran, eq⟩

end Chain

/-! ## Resolving -/

namespace Registry

variable (registry : Registry σ) (environment : Environment) (kind : CredentialKind)
  (realm : String) (caller : σ)

/-- The providers of a kind. -/
def chain : List (Provider σ) :=
  registry.providers.filter fun provider => provider.kind = kind

/-- What resolving comes to. -/
theorem resolve_apply :
    registry.resolve environment kind realm caller =
      match registry.parameters.remembered? kind realm with
      | some credential => ((.ok credential, registry), caller)
      | none =>
          match askChain environment realm registry.parameters (registry.chain kind) caller with
          | (.grant credential, last) => ((.ok credential, registry.keep realm credential), last)
          | (.pass, last) => ((.error (.noCredential kind realm), registry), last)
          | (.failed error, last) => ((.error error, registry), last) := by
  cases remembered : registry.parameters.remembered? kind realm with
  | some credential => simp only [resolve, remembered]; rfl
  | none =>
      simp only [resolve, remembered, bind, StateT.bind, chain]
      generalize askChain environment realm registry.parameters
        (registry.providers.filter fun provider => provider.kind = kind) caller = asked
      rcases asked with ⟨answer, last⟩
      cases answer <;> rfl

variable {registry environment kind realm caller}

theorem kind_of_mem_chain {provider : Provider σ} (asked : provider ∈ registry.chain kind) :
    provider.kind = kind := by
  simpa [chain] using (List.mem_filter.mp asked).2

theorem kind_of_chain_eq {passed rest : List (Provider σ)} {provider : Provider σ}
    (shape : registry.chain kind = passed ++ provider :: rest) : provider.kind = kind := by
  have asked : provider ∈ registry.chain kind := by
    rw [shape]
    exact List.mem_append_right _ List.mem_cons_self
  exact kind_of_mem_chain asked

/-- What the chain of providers comes to, in the order of the rules. -/
theorem chainRuns_iff {outcome : Except Error Credential} {last : σ} :
    ChainRuns environment kind realm registry caller outcome last ↔
      match askChain environment realm registry.parameters (registry.chain kind) caller with
      | (.grant credential, left) => outcome = .ok credential ∧ last = left
      | (.pass, left) => outcome = .error (.noCredential kind realm) ∧ last = left
      | (.failed error, left) => outcome = .error error ∧ last = left := by
  rcases asked : askChain environment realm registry.parameters (registry.chain kind) caller with
    ⟨answer, left⟩
  constructor
  · intro runs
    cases runs with
    | granted shape before ran usable =>
        have kind_eq := kind_of_chain_eq shape
        have granted := (askChain_eq_of_ne_pass (by simp)).mpr ⟨_, _, _, _, _, shape, before, ran,
          Answer.ofOutcome_eq_grant.mpr ⟨rfl, kind_eq ▸ usable⟩⟩
        rw [← chain, asked, Prod.mk.injEq] at granted
        rcases granted with ⟨rfl, rfl⟩
        exact ⟨rfl, rfl⟩
    | failed shape before ran serious =>
        have kind_eq := kind_of_chain_eq shape
        have failed := (askChain_eq_of_ne_pass (by simp)).mpr ⟨_, _, _, _, _, shape, before, ran,
          Answer.ofOutcome_eq_failed.mpr ⟨rfl, kind_eq ▸ serious⟩⟩
        rw [← chain, asked, Prod.mk.injEq] at failed
        rcases failed with ⟨rfl, rfl⟩
        exact ⟨rfl, rfl⟩
    | exhausted all =>
        have passed := askChain_eq_pass.mpr all
        rw [← chain, asked, Prod.mk.injEq] at passed
        rcases passed with ⟨rfl, rfl⟩
        exact ⟨rfl, rfl⟩
  · intro decided
    cases answer with
    | pass =>
        rcases decided with ⟨rfl, rfl⟩
        exact .exhausted (askChain_eq_pass.mp asked)
    | grant credential =>
        rcases decided with ⟨rfl, rfl⟩
        rcases (askChain_eq_of_ne_pass (by simp)).mp asked with
          ⟨passed, provider, rest, middle, outcome, shape, before, ran, granted⟩
        rcases Answer.ofOutcome_eq_grant.mp granted with ⟨rfl, usable⟩
        exact .granted shape before ran (kind_of_chain_eq shape ▸ usable)
    | failed error =>
        rcases decided with ⟨rfl, rfl⟩
        rcases (askChain_eq_of_ne_pass (by simp)).mp asked with
          ⟨passed, provider, rest, middle, outcome, shape, before, ran, failed⟩
        rcases Answer.ofOutcome_eq_failed.mp failed with ⟨rfl, serious⟩
        exact .failed shape before ran (kind_of_chain_eq shape ▸ serious)

/-- A registry comes to what its rules say. -/
theorem resolves_iff {outcome : Except Error Credential} {last : σ} :
    Resolves environment kind realm registry caller outcome last ↔
      (registry.resolve environment kind realm caller).1.1 = outcome ∧
        (registry.resolve environment kind realm caller).2 = last := by
  rw [Resolves, resolve_apply]
  cases registry.parameters.remembered? kind realm with
  | some credential => exact and_congr eq_comm eq_comm
  | none =>
      rw [chainRuns_iff]
      rcases askChain environment realm registry.parameters (registry.chain kind) caller with
        ⟨answer, left⟩
      cases answer <;> exact and_congr eq_comm eq_comm

/-- A credential that is handed out is remembered from now on: it was not before, and neither the record
nor the parameters forbid it. -/
def Stores (registry : Registry σ) (kind : CredentialKind) (realm : String)
    (credential : Credential) : Prop :=
  registry.parameters.remembered? kind realm = none ∧ credential.maySave = true ∧
    registry.parameters.get? ParameterKey.noAuthCache ≠ some (.flag true)

instance (credential : Credential) : Decidable (registry.Stores kind realm credential) :=
  inferInstanceAs (Decidable (_ ∧ _ ∧ _))

/-- The parameters with a credential remembered for a kind and realm. -/
def parametersWith (registry : Registry σ) (kind : CredentialKind) (realm : String)
    (credential : Credential) : Parameters :=
  registry.parameters.set (ParameterKey.remembered kind realm) (.credential credential)

theorem keep_eq (registry : Registry σ) (realm : String) (credential : Credential) :
    registry.keep realm credential =
      if credential.maySave = true ∧
          registry.parameters.get? ParameterKey.noAuthCache ≠ some (.flag true) then
        { registry with parameters := registry.parametersWith credential.kind realm credential }
      else registry := by
  by_cases allowed : credential.maySave = true ∧
      registry.parameters.get? ParameterKey.noAuthCache ≠ some (.flag true)
  · rw [if_pos allowed]
    simp [keep, Parameters.maySave, Parameters.flag, allowed.1, allowed.2]
    rfl
  · rw [if_neg allowed, keep, if_neg]
    simpa [Parameters.maySave, Parameters.flag] using allowed

/-- A credential that the chain grants is of the kind in demand. -/
theorem kind_of_askChain {credential : Credential} {last : σ}
    (granted : askChain environment realm registry.parameters (registry.chain kind) caller =
      (.grant credential, last)) : credential.kind = kind := by
  have runs : ChainRuns environment kind realm registry caller (.ok credential) last := by
    rw [chainRuns_iff, granted]
    exact ⟨rfl, rfl⟩
  cases runs with
  | granted _ _ _ usable => exact usable.kind_eq

/-- After it was asked, a registry remembers the credential it handed out, or is what it was. -/
theorem registry_resolve (registry : Registry σ) (environment : Environment) (kind : CredentialKind)
    (realm : String) (caller : σ) :
    (registry.resolve environment kind realm caller).1.2 =
      match (registry.resolve environment kind realm caller).1.1 with
      | .ok credential =>
          if registry.Stores kind realm credential then
            { registry with parameters := registry.parametersWith kind realm credential }
          else registry
      | .error _ => registry := by
  rw [resolve_apply]
  cases remembered : registry.parameters.remembered? kind realm with
  | some credential => simp [Stores, remembered]
  | none =>
      rcases asked : askChain environment realm registry.parameters (registry.chain kind) caller with
        ⟨answer, left⟩
      cases answer with
      | pass => rfl
      | failed error => rfl
      | grant credential =>
          simp only [keep_eq, Stores, remembered, true_and, kind_of_askChain asked]

/--
A registry resolves by its rules, which leave no choice. The chain of providers stays what it is, and so
do the parameters, except that a credential that is handed out and may be remembered is remembered.
-/
theorem resolve_follows_rules (registry : Registry σ) (environment : Environment)
    (kind : CredentialKind) (realm : String) (caller : σ) :
    ∃ outcome after last,
      registry.resolve environment kind realm caller = ((outcome, after), last) ∧
      (∀ outcome' last', Resolves environment kind realm registry caller outcome' last' ↔
        outcome' = outcome ∧ last' = last) ∧
      after.providers = registry.providers ∧ after.version = registry.version ∧
      (∀ credential, outcome = .ok credential → registry.Stores kind realm credential →
        after.parameters = registry.parametersWith kind realm credential) ∧
      ((∀ credential, outcome = .ok credential → ¬registry.Stores kind realm credential) →
        after.parameters = registry.parameters) := by
  have after_eq := registry_resolve registry environment kind realm caller
  rcases resolved : registry.resolve environment kind realm caller with ⟨⟨outcome, after⟩, last⟩
  simp only [resolved] at after_eq
  refine ⟨outcome, after, last, rfl, ?_, ?_, ?_, ?_, ?_⟩
  · intro outcome' last'
    rw [resolves_iff, resolved]
    exact and_congr eq_comm eq_comm
  · rw [after_eq]
    split
    · split <;> rfl
    · rfl
  · rw [after_eq]
    split
    · split <;> rfl
    · rfl
  · rintro credential rfl stores
    rw [after_eq]
    simp only [if_pos stores]
  · intro forbidden
    rw [after_eq]
    cases outcome with
    | ok credential => simp only [if_neg (forbidden credential rfl)]
    | error error => rfl

end Registry

end Checkout
