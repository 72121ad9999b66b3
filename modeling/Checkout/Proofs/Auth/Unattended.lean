import Checkout.Proofs.Auth.Provenance

/-!
# Registries with nobody to ask

Where nobody can be asked, a registry is as good as the one without its prompts: over any run of requests
both give the same replies, remember the same credentials and call the same callbacks in the same order. To
speak of calls, a registry is compared with its recorded twin, whose callbacks note each call behind what
they keep for the caller. The providers of the twin know their positions in the chain, so a call tells which
provider made it even after prompts were taken out.
-/

namespace Checkout

variable {σ : Type}

/-! ## Requests -/

/-- What is asked of a registry while its chain and its settings stay as they are. -/
inductive Request where
  | resolve (environment : Environment) (kind : CredentialKind) (realm : String)
  | forget (kind : CredentialKind) (realm : String)

inductive Reply where
  | resolved (outcome : Except Error Credential)
  | forgotten (known : Bool)

namespace Registry

/-- The reply to a request, and the registry afterwards. -/
def answer (registry : Registry σ) (caller : σ) : Request → (Reply × Registry σ) × σ
  | .resolve environment kind realm =>
      let resolved := registry.resolve environment kind realm caller
      ((.resolved resolved.1.1, resolved.1.2), resolved.2)
  | .forget kind realm =>
      let forgotten := registry.forget kind realm
      ((.forgotten forgotten.1, forgotten.2), caller)

def answers (registry : Registry σ) (caller : σ) : List Request → (List Reply × Registry σ) × σ
  | [] => (([], registry), caller)
  | request :: rest =>
      let first := registry.answer caller request
      let others := first.1.2.answers first.2 rest
      ((first.1.1 :: others.1.1, others.1.2), others.2)

def IsUnattended (registry : Registry σ) : Prop :=
  registry.parameters.get? ParameterKey.nonInteractive = some (.flag true)

def withoutPrompts (registry : Registry σ) : Registry σ :=
  { registry with providers := registry.providers.filter fun provider => !provider.isInteractive }

variable {registry : Registry σ}

/-- Requests change no parameter but the remembered credentials. -/
theorem get?_answer {key : String} (free : ¬ParameterKey.IsReserved key) (registry : Registry σ)
    (caller : σ) (request : Request) :
    (registry.answer caller request).1.2.parameters.get? key = registry.parameters.get? key := by
  cases request with
  | resolve environment kind realm =>
      simp only [answer]
      rw [registry_resolve]
      split
      · split_ifs
        · rw [parametersWith, Parameters.get?_set, if_neg (ne_remembered_of_not_isReserved free)]
        · rfl
      · rfl
  | forget kind realm =>
      simp only [answer, forget]
      rw [Parameters.get?_erase, if_neg (ne_remembered_of_not_isReserved free)]

theorem IsUnattended.answer (unattended : registry.IsUnattended) (caller : σ) (request : Request) :
    (registry.answer caller request).1.2.IsUnattended := by
  rw [IsUnattended, get?_answer (ParameterKey.not_isReserved_of_mem_wellKnown (by decide))]
  exact unattended

end Registry

/-! ## Without prompts -/

section Chain

variable {environment : Environment} {realm : String} {parameters : Parameters} {caller : σ}

/-- Where nobody can be asked, a prompt has nothing and its callback is not called. -/
theorem Provider.produce_of_isInteractive
    (unattended : parameters.get? ParameterKey.nonInteractive = some (.flag true))
    {provider : Provider σ} (interactive : provider.isInteractive = true) :
    provider.produce environment realm parameters caller = (.ok none, caller) := by
  cases source_eq : provider.source with
  | static source => simp [isInteractive, source_eq] at interactive
  | prompt source =>
      simp only [produce, source_eq, PromptSource.produce, Parameters.flag, unattended, decide_true,
        if_true]
      rfl

theorem askChain_cons_produce (environment : Environment) (realm : String) (parameters : Parameters)
    (provider : Provider σ) (rest : List (Provider σ)) (caller : σ) :
    askChain environment realm parameters (provider :: rest) caller =
      match Answer.ofOutcome (provider.produce environment realm parameters caller).1 with
      | .pass => askChain environment realm parameters rest
          (provider.produce environment realm parameters caller).2
      | answer => (answer, (provider.produce environment realm parameters caller).2) := by
  have produced := provider.produce_apply environment realm parameters caller
  simp only [produced]
  exact askChain_cons environment realm parameters provider rest caller

theorem askChain_singleton (provider : Provider σ) (parameters : Parameters) (caller : σ) :
    askChain environment realm parameters [provider] caller =
      (Answer.ofOutcome (provider.produce environment realm parameters caller).1,
        (provider.produce environment realm parameters caller).2) := by
  rw [askChain_cons_produce]
  cases Answer.ofOutcome (provider.produce environment realm parameters caller).1 <;> rfl

theorem askChain_cons_of_isInteractive
    (unattended : parameters.get? ParameterKey.nonInteractive = some (.flag true))
    {provider : Provider σ} (interactive : provider.isInteractive = true)
    (rest : List (Provider σ)) :
    askChain environment realm parameters (provider :: rest) caller =
      askChain environment realm parameters rest caller := by
  rw [askChain_cons_produce, Provider.produce_of_isInteractive unattended interactive]
  rfl

theorem askChain_withoutPrompts
    (unattended : parameters.get? ParameterKey.nonInteractive = some (.flag true))
    (chain : List (Provider σ)) :
    askChain environment realm parameters
        (chain.filter fun provider => !provider.isInteractive) caller =
      askChain environment realm parameters chain caller := by
  induction chain generalizing caller with
  | nil => rfl
  | cons provider rest ih =>
      cases interactive : provider.isInteractive with
      | true =>
          rw [askChain_cons_of_isInteractive unattended interactive,
            List.filter_cons_of_neg (by simp [interactive]), ih]
      | false =>
          rw [List.filter_cons_of_pos (by simp [interactive]), askChain_cons_produce,
            askChain_cons_produce, ih]

end Chain

namespace Registry

variable {registry : Registry σ}

theorem chain_withoutPrompts (registry : Registry σ) (kind : CredentialKind) :
    registry.withoutPrompts.chain kind =
      (registry.chain kind).filter fun provider => !provider.isInteractive := by
  rw [chain, chain, withoutPrompts, List.filter_filter, List.filter_filter]
  congr 1
  funext provider
  rw [Bool.and_comm]

theorem keep_withoutPrompts (registry : Registry σ) (realm : String) (credential : Credential) :
    registry.withoutPrompts.keep realm credential = (registry.keep realm credential).withoutPrompts := by
  rw [keep, keep, apply_ite withoutPrompts]
  rfl

/-- A request to the registry without its prompts comes to the same. -/
theorem answer_withoutPrompts (unattended : registry.IsUnattended) (caller : σ) (request : Request) :
    registry.withoutPrompts.answer caller request =
      (((registry.answer caller request).1.1,
        (registry.answer caller request).1.2.withoutPrompts), (registry.answer caller request).2) := by
  cases request with
  | resolve environment kind realm =>
      have same : registry.withoutPrompts.parameters = registry.parameters := rfl
      simp only [answer, resolve_apply, same, chain_withoutPrompts,
        askChain_withoutPrompts unattended, keep_withoutPrompts]
      cases registry.parameters.remembered? kind realm with
      | some credential => rfl
      | none =>
          rcases askChain environment realm registry.parameters (registry.chain kind) caller with
            ⟨answer, last⟩
          cases answer <;> rfl
  | forget kind realm => rfl

theorem answers_withoutPrompts (unattended : registry.IsUnattended) (caller : σ)
    (requests : List Request) :
    registry.withoutPrompts.answers caller requests =
      (((registry.answers caller requests).1.1,
        (registry.answers caller requests).1.2.withoutPrompts),
        (registry.answers caller requests).2) := by
  induction requests generalizing registry caller with
  | nil => rfl
  | cons request rest ih =>
      simp only [answers, answer_withoutPrompts unattended, ih (unattended.answer caller request)]

end Registry

/-! ## Recording calls -/

/-- A call of a callback of the provider at a position of the chain. -/
inductive ProviderCall where
  | custom (position : Nat) (realm : String) (parameters : Parameters)
  | prompt (position : Nat) (context : PromptContext) (record : Credential)

def ProviderCall.isPrompt : ProviderCall → Bool
  | .custom _ _ _ => false
  | .prompt _ _ _ => true

def StaticSource.recorded (position : Nat) : StaticSource σ → StaticSource (σ × List ProviderCall)
  | .simple => .simple
  | .username => .username
  | .trustedFailures => .trustedFailures
  | .clientCertificate => .clientCertificate
  | .clientPassphrase => .clientPassphrase
  | .custom function => .custom fun realm parameters (caller, calls) =>
      ((function realm parameters caller).1,
        (function realm parameters caller).2, calls ++ [.custom position realm parameters])

def PromptSource.recorded (position : Nat) (source : PromptSource σ) :
    PromptSource (σ × List ProviderCall) where
  kind := source.kind
  retryLimit := source.retryLimit
  prompt := fun context record (caller, calls) =>
    ((source.prompt context record caller).1,
      (source.prompt context record caller).2, calls ++ [.prompt position context record])

def Provider.recorded (position : Nat) (provider : Provider σ) : Provider (σ × List ProviderCall) where
  kind := provider.kind
  source := match provider.source with
    | .static source => .static (source.recorded position)
    | .prompt source => .prompt (source.recorded position)

/-- The registry whose providers note the calls of their callbacks. -/
def Registry.recorded (registry : Registry σ) : Registry (σ × List ProviderCall) where
  providers := registry.providers.zipIdx.map fun (provider, position) => provider.recorded position
  parameters := registry.parameters
  version := registry.version

example :
    let asking : Prompt Unit := fun _ _ => pure (.error .cancelled)
    let registry : Registry Unit := { providers := [.prompting .username 0 asking] }
    (registry.recorded.answers ((), []) [.resolve default .username "realm"]).2.2.map ProviderCall.isPrompt =
      [true] := by
  rfl

section Chain

variable (environment : Environment) (realm : String) (parameters : Parameters) (caller : σ)

theorem StaticSource.derive_recorded (source : StaticSource σ) (position : Nat) (calls : List ProviderCall) :
    ∃ more : List ProviderCall, (∀ call ∈ more, call.isPrompt = false) ∧
      (source.recorded position).derive environment realm parameters (caller, calls) =
        ((source.derive environment realm parameters caller).1,
          (source.derive environment realm parameters caller).2, calls ++ more) := by
  cases source with
  | custom function =>
      exact ⟨[.custom position realm parameters], by simp [ProviderCall.isPrompt], rfl⟩
  | _ => exact ⟨[], by simp, by rw [List.append_nil]; rfl⟩

/-- Where nobody can be asked, a provider notes no call of a prompt, and does the same otherwise. -/
theorem Provider.produce_recorded
    (unattended : parameters.get? ParameterKey.nonInteractive = some (.flag true))
    (provider : Provider σ) (position : Nat) (calls : List ProviderCall) :
    ∃ more : List ProviderCall, (∀ call ∈ more, call.isPrompt = false) ∧
      (provider.recorded position).produce environment realm parameters (caller, calls) =
        ((provider.produce environment realm parameters caller).1,
          (provider.produce environment realm parameters caller).2, calls ++ more) := by
  cases source_eq : provider.source with
  | static source =>
      rcases source.derive_recorded environment realm parameters caller position calls with
        ⟨more, silent, derived⟩
      refine ⟨more, silent, ?_⟩
      simp only [produce, recorded, source_eq, bind, StateT.bind, StaticSource.produce_apply, derived]
      rfl
  | prompt source =>
      refine ⟨[], by simp, ?_⟩
      rw [produce_of_isInteractive unattended (by simp [isInteractive, recorded, source_eq]),
        produce_of_isInteractive unattended (by simp [isInteractive, source_eq]), List.append_nil]

theorem askChain_recorded
    (unattended : parameters.get? ParameterKey.nonInteractive = some (.flag true))
    (chain : List (Provider σ × Nat)) (calls : List ProviderCall) :
    ∃ more : List ProviderCall, (∀ call ∈ more, call.isPrompt = false) ∧
      askChain environment realm parameters
          (chain.map fun (provider, position) => provider.recorded position) (caller, calls) =
        ((askChain environment realm parameters (chain.map Prod.fst) caller).1,
          (askChain environment realm parameters (chain.map Prod.fst) caller).2, calls ++ more) := by
  induction chain generalizing caller calls with
  | nil => exact ⟨[], by simp, by rw [List.append_nil]; rfl⟩
  | cons first rest ih =>
      rcases first with ⟨provider, position⟩
      rcases provider.produce_recorded environment realm parameters caller unattended position calls with
        ⟨noted, silent, produced⟩
      simp only [List.map_cons, askChain_cons_produce, produced]
      -- Only a link that has nothing lets the rest of the chain note its calls behind its own.
      cases Answer.ofOutcome (provider.produce environment realm parameters caller).1 with
      | pass =>
          rcases ih (provider.produce environment realm parameters caller).2 (calls ++ noted) with
            ⟨later, silent_later, asked⟩
          refine ⟨noted ++ later, List.forall_mem_append.mpr ⟨silent, silent_later⟩, ?_⟩
          rw [← List.append_assoc]
          exact asked
      | grant credential => exact ⟨noted, silent, rfl⟩
      | failed error => exact ⟨noted, silent, rfl⟩

end Chain

namespace Registry

variable {registry : Registry σ}

/-- The providers of a kind with their positions in the whole chain. -/
def placedChain (registry : Registry σ) (kind : CredentialKind) : List (Provider σ × Nat) :=
  registry.providers.zipIdx.filter fun (provider, _) => provider.kind = kind

theorem chain_recorded (registry : Registry σ) (kind : CredentialKind) :
    registry.recorded.chain kind =
      (registry.placedChain kind).map fun (provider, position) => provider.recorded position := by
  rw [chain, recorded, placedChain, List.filter_map]
  rfl

theorem map_fst_placedChain (registry : Registry σ) (kind : CredentialKind) :
    (registry.placedChain kind).map Prod.fst = registry.chain kind := by
  have places : registry.providers.zipIdx.map Prod.fst = registry.providers :=
    List.zipIdx_map_fst 0 registry.providers
  calc (registry.placedChain kind).map Prod.fst
      = (registry.providers.zipIdx.map Prod.fst).filter fun provider => provider.kind = kind := by
        rw [List.filter_map]
        rfl
    _ = registry.chain kind := by rw [places, chain]

theorem keep_recorded (registry : Registry σ) (realm : String) (credential : Credential) :
    registry.recorded.keep realm credential = (registry.keep realm credential).recorded := by
  rw [keep, keep, apply_ite recorded]
  rfl

/-- Where nobody can be asked, the recorded registry notes no call of a prompt, and does the same
otherwise. -/
theorem answer_recorded (unattended : registry.IsUnattended) (caller : σ) (calls : List ProviderCall)
    (request : Request) :
    ∃ more : List ProviderCall, (∀ call ∈ more, call.isPrompt = false) ∧
      registry.recorded.answer (caller, calls) request =
        (((registry.answer caller request).1.1, (registry.answer caller request).1.2.recorded),
          (registry.answer caller request).2, calls ++ more) := by
  cases request with
  | resolve environment kind realm =>
      have same : registry.recorded.parameters = registry.parameters := rfl
      rcases askChain_recorded environment realm registry.parameters caller unattended
        (registry.placedChain kind) calls with ⟨more, silent, asked⟩
      rw [← chain_recorded, map_fst_placedChain] at asked
      simp only [answer, resolve_apply, same, asked, keep_recorded]
      cases registry.parameters.remembered? kind realm with
      | some credential => exact ⟨[], by simp, by rw [List.append_nil]⟩
      | none =>
          refine ⟨more, silent, ?_⟩
          rcases askChain environment realm registry.parameters (registry.chain kind) caller with
            ⟨answer, last⟩
          cases answer <;> rfl
  | forget kind realm => exact ⟨[], by simp, by rw [List.append_nil]; rfl⟩

theorem answers_recorded (unattended : registry.IsUnattended) (caller : σ) (calls : List ProviderCall)
    (requests : List Request) :
    ∃ more : List ProviderCall, (∀ call ∈ more, call.isPrompt = false) ∧
      registry.recorded.answers (caller, calls) requests =
        (((registry.answers caller requests).1.1, (registry.answers caller requests).1.2.recorded),
          (registry.answers caller requests).2, calls ++ more) := by
  induction requests generalizing registry caller calls with
  | nil => exact ⟨[], by simp, by rw [List.append_nil]; rfl⟩
  | cons request rest ih =>
      rcases answer_recorded unattended caller calls request with ⟨noted, silent, answered⟩
      rcases ih (unattended.answer caller request) (registry.answer caller request).2
        (calls ++ noted) with ⟨later, silent_later, others⟩
      refine ⟨noted ++ later, List.forall_mem_append.mpr ⟨silent, silent_later⟩, ?_⟩
      simp only [answers, answered, others, List.append_assoc]

/--
Where nobody can be asked, requests to a registry call no prompt. The registry without its prompts gives the
same replies, remembers the same credentials, leaves the caller the same and makes the same calls.
-/
theorem unattended_as_without_prompts (unattended : registry.IsUnattended) (caller : σ)
    (requests : List Request) :
    ∃ replies after last calls,
      registry.answers caller requests = ((replies, after), last) ∧
      registry.withoutPrompts.answers caller requests = ((replies, after.withoutPrompts), last) ∧
      registry.recorded.answers (caller, []) requests = ((replies, after.recorded), last, calls) ∧
      registry.recorded.withoutPrompts.answers (caller, []) requests =
        ((replies, after.recorded.withoutPrompts), last, calls) ∧
      ∀ call ∈ calls, call.isPrompt = false := by
  rcases answers_recorded unattended caller [] requests with ⟨calls, silent, recorded⟩
  have same := answers_withoutPrompts unattended caller requests
  have still : registry.recorded.IsUnattended := unattended
  have noted := answers_withoutPrompts still (caller, []) requests
  rw [recorded] at noted
  exact ⟨_, _, _, calls, rfl, same, recorded, noted, silent⟩

def refusingPrompt : Prompt Nat :=
  fun _ _ => pure (.error .cancelled)

/-- A prompt stands in front of a provider that counts how often it is asked. -/
def mixedRegistry : Registry Nat where
  providers := [.prompting .username 2 refusingPrompt, countingProvider]
  parameters := Parameters.empty.set ParameterKey.nonInteractive (.flag true)

/-- The prompt would fail, but it is not called; the other provider is, until its credential is
remembered. -/
theorem unattended_as_without_prompts_of_refusing_prompt :
    ∃ after : Registry (Nat × List ProviderCall),
      mixedRegistry.IsUnattended ∧
      mixedRegistry.recorded.answers (0, [])
          [.resolve default .username "realm", .resolve default .username "realm"] =
        (([.resolved (.ok (.username "realm" true)), .resolved (.ok (.username "realm" true))], after),
          1, [.custom 1 "realm" mixedRegistry.parameters]) ∧
      mixedRegistry.recorded.withoutPrompts.answers (0, [])
          [.resolve default .username "realm", .resolve default .username "realm"] =
        (([.resolved (.ok (.username "realm" true)), .resolved (.ok (.username "realm" true))],
          after.withoutPrompts), 1, [.custom 1 "realm" mixedRegistry.parameters]) := by
  have unattended : mixedRegistry.IsUnattended := rfl
  rcases unattended_as_without_prompts unattended 0
    [.resolve default .username "realm", .resolve default .username "realm"] with
    ⟨replies, after, last, calls, -, -, recorded, same, -⟩
  have run : mixedRegistry.recorded.answers (0, [])
      [.resolve default .username "realm", .resolve default .username "realm"] =
        (([.resolved (.ok (.username "realm" true)), .resolved (.ok (.username "realm" true))],
          (mixedRegistry.recorded.answers (0, []) [.resolve default .username "realm",
            .resolve default .username "realm"]).1.2),
          1, [.custom 1 "realm" mixedRegistry.parameters]) := rfl
  rw [recorded] at run
  simp only [Prod.mk.injEq] at run
  rcases run with ⟨⟨rfl, -⟩, rfl, rfl⟩
  exact ⟨after.recorded, unattended, recorded, same⟩

end Registry

end Checkout
