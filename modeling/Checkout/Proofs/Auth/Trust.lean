import Checkout.Proofs.Auth.Provenance

/-!
# Decisions to trust a server

Without a prompt, a server is trusted if all failures of its certificate are among the ones that the
parameters trust. The decision accepts exactly the failures that were in question when it was made. A
remembered decision is handed out whatever is in question by then, until it is forgotten.
-/

namespace Checkout

variable {σ : Type}

/-- The decision to trust a server in spite of the failures in question, all of which are trusted. -/
structure DecidesToTrust (parameters : Parameters) (credential : Credential) : Prop where
  accepted : ∃ maySave,
    credential = .serverTrust (some (parameters.failures ParameterKey.serverFailures)) maySave
  trusted : (parameters.failures ParameterKey.trustedFailures).contains
    (parameters.failures ParameterKey.serverFailures) = true

theorem decidesToTrust_of_askChain {environment : Environment} {realm : String}
    {parameters : Parameters} {caller last : σ} {credential : Credential}
    (granted : askChain environment realm parameters [.standard .serverTrust] caller =
      (.grant credential, last)) : DecidesToTrust parameters credential := by
  rcases (askChain_eq_of_ne_pass (by simp)).mp granted with
    ⟨passed, provider, rest, middle, outcome, shape, -, ran, answer⟩
  have standard : provider = .standard .serverTrust := by
    have asked : provider ∈ passed ++ provider :: rest := by simp
    rw [← shape] at asked
    exact List.mem_singleton.mp asked
  subst standard
  rcases Answer.ofOutcome_eq_grant.mp answer with ⟨rfl, -⟩
  simp only [Provider.raw, Provider.standard, StaticSource.produce_apply, StaticSource.derive] at ran
  rcases Option.map_eq_some_iff.mp (Except.ok.inj (congrArg Prod.fst ran)) with
    ⟨record, decided, restricted⟩
  split_ifs at decided with trusted
  · cases decided
    refine ⟨?_, trusted⟩
    rw [← restricted, Credential.restrict]
    split_ifs
    · exact ⟨true, rfl⟩
    · exact ⟨false, rfl⟩
  · cases decided

namespace Registry

variable {registry : Registry σ} {environment : Environment} {kind : CredentialKind} {realm : String}
  {caller : σ} {credential : Credential}

/-- A registry that has only the standard provider to ask for trust hands out its decisions. -/
theorem decidesToTrust_of_resolve (alone : registry.chain .serverTrust = [.standard .serverTrust])
    (fresh : registry.parameters.remembered? .serverTrust realm = none)
    (granted : (registry.resolve environment .serverTrust realm caller).1.1 = .ok credential) :
    DecidesToTrust registry.parameters credential := by
  simp only [resolve_apply, fresh, alone] at granted
  split at granted
  · rename_i handed last asked
    cases granted
    exact decidesToTrust_of_askChain asked
  · cases granted
  · cases granted

/-! ## Challenges to a session -/

/-- The operation sets the failures in question or the trusted ones, or it resolves or forgets. -/
inductive Operation.OnChallenges : Operation σ → Prop where
  | question (failures : CertificateFailures) :
      OnChallenges (.setParameter ParameterKey.serverFailures (.failures failures))
  | accept (failures : CertificateFailures) :
      OnChallenges (.setParameter ParameterKey.trustedFailures (.failures failures))
  | resolve (environment : Environment) (kind : CredentialKind) (realm : String) :
      OnChallenges (.resolve environment kind realm)
  | forget (kind : CredentialKind) (realm : String) : OnChallenges (.forget kind realm)

theorem Operation.OnChallenges.sparesReserved {operation : Operation σ}
    (challenges : operation.OnChallenges) : operation.SparesReserved := by
  cases challenges with
  | question failures => exact ParameterKey.not_isReserved_of_mem_wellKnown (by decide)
  | accept failures => exact ParameterKey.not_isReserved_of_mem_wellKnown (by decide)
  | resolve environment kind realm => trivial
  | forget kind realm => trivial

theorem providers_resolve (registry : Registry σ) (environment : Environment) (kind : CredentialKind)
    (realm : String) (caller : σ) :
    (registry.resolve environment kind realm caller).1.2.providers = registry.providers := by
  rw [registry_resolve]
  split
  · split_ifs <;> rfl
  · rfl

theorem Operation.OnChallenges.providers_apply {operation : Operation σ}
    (challenges : operation.OnChallenges) (state : Registry σ × σ) :
    (operation.apply state).1.providers = state.1.providers := by
  cases challenges with
  | question failures => rfl
  | accept failures => rfl
  | resolve environment kind realm =>
      exact providers_resolve state.1 environment kind realm state.2
  | forget kind realm => rfl

theorem chain_foldl {operations : List (Operation σ)}
    (challenges : ∀ operation ∈ operations, operation.OnChallenges) (state : Registry σ × σ) :
    (operations.foldl Operation.apply state).1.chain kind = state.1.chain kind := by
  induction operations generalizing state with
  | nil => rfl
  | cons operation rest ih =>
      rw [List.foldl_cons, ih fun other other_mem => challenges other (List.mem_cons_of_mem _ other_mem)]
      rw [chain, (challenges operation List.mem_cons_self).providers_apply, chain]

/--
A session starts with nothing remembered and the standard provider alone to ask for trust. When it trusts a
server after any challenges, and has no decision for it remembered, the decision accepts exactly the failures
now in question, and all of them are trusted. A remembered decision accepts exactly the failures that were in
question when it was made; they were trusted then, and it has been remembered ever since.
-/
theorem trust_covers_failures_when_decided
    (alone : registry.chain .serverTrust = [.standard .serverTrust])
    (unknown : ∀ realm, registry.parameters.remembered? .serverTrust realm = none)
    {operations : List (Operation σ)}
    (challenges : ∀ operation ∈ operations, operation.OnChallenges)
    (resolved : ((operations.foldl Operation.apply (registry, caller)).1.resolve environment
      .serverTrust realm (operations.foldl Operation.apply (registry, caller)).2).1.1 =
        .ok credential) :
    let now := (operations.foldl Operation.apply (registry, caller)).1.parameters
    (now.remembered? .serverTrust realm = none ∧ DecidesToTrust now credential) ∨
      (now.remembered? .serverTrust realm = some credential ∧
        ∃ earlier decision later, operations = earlier ++ decision :: later ∧
          DecidesToTrust (earlier.foldl Operation.apply (registry, caller)).1.parameters credential ∧
          ∀ part rest, later = part ++ rest →
            ((earlier ++ decision :: part).foldl Operation.apply
              (registry, caller)).1.parameters.remembered? .serverTrust realm = some credential) := by
  intro now
  cases remembered : now.remembered? .serverTrust realm with
  | none =>
      left
      refine ⟨rfl, decidesToTrust_of_resolve ?_ remembered resolved⟩
      rw [chain_foldl challenges, alone]
  | some decided =>
      right
      rw [resolve_of_remembered remembered] at resolved
      cases resolved
      have during := storedDuring_of_remembered
        (fun operation operation_mem => (challenges operation operation_mem).sparesReserved)
        (unknown realm) remembered
      -- The chain has stayed the standard one up to the operation that decided.
      cases during with
      | intro earlier later environment fresh allowed granted marked since =>
          refine ⟨rfl, earlier, _, later, rfl, decidesToTrust_of_resolve ?_ fresh granted, since⟩
          rw [chain_foldl fun operation operation_mem => challenges operation (by simp [operation_mem]),
            alone]

/-- A session that trusts expired certificates. -/
def trustingExpired : Registry Unit where
  providers := [.standard .serverTrust]
  parameters := Parameters.empty.set ParameterKey.trustedFailures (.failures .expired)

/-- An expired certificate is in question, and then one whose issuer is unknown as well. -/
def worseningChallenges : List (Operation Unit) :=
  [.setParameter ParameterKey.serverFailures (.failures .expired),
    .resolve default .serverTrust "realm",
    .setParameter ParameterKey.serverFailures (.failures (.union .expired .unknownIssuer))]

theorem onChallenges_worseningChallenges :
    ∀ operation ∈ worseningChallenges, operation.OnChallenges := by
  intro operation operation_mem
  simp only [worseningChallenges, List.mem_cons, List.not_mem_nil, or_false] at operation_mem
  rcases operation_mem with rfl | rfl | rfl
  · exact .question _
  · exact .resolve _ _ _
  · exact .question _

/-- The decision on the first certificate is remembered when the second one is in question. -/
theorem trust_covers_failures_when_decided_of_worsening :
    ∃ earlier decision later, worseningChallenges = earlier ++ decision :: later ∧
      DecidesToTrust (earlier.foldl Operation.apply (trustingExpired, ())).1.parameters
        (.serverTrust (some .expired) true) := by
  have resolved : ((worseningChallenges.foldl Operation.apply (trustingExpired, ())).1.resolve default
      .serverTrust "realm" ()).1.1 = .ok (.serverTrust (some .expired) true) := by
    decide
  rcases trust_covers_failures_when_decided rfl (fun _ => rfl) onChallenges_worseningChallenges
    resolved with ⟨fresh, -⟩ | ⟨-, earlier, decision, later, shape, decides, -⟩
  · exact absurd fresh (by decide)
  · exact ⟨earlier, decision, later, shape, decides⟩

/-- A remembered decision trusts a server whose certificate has a failure that nobody accepted. -/
theorem trust_outlives_its_challenge :
    ¬∀ (registry : Registry Unit) (operations : List (Operation Unit)) (realm : String)
        (credential : Credential),
      registry.chain .serverTrust = [.standard .serverTrust] →
      (∀ realm, registry.parameters.remembered? .serverTrust realm = none) →
      (∀ operation ∈ operations, operation.OnChallenges) →
      ((operations.foldl Operation.apply (registry, ())).1.resolve default .serverTrust realm
        (operations.foldl Operation.apply (registry, ())).2).1.1 = .ok credential →
      ∃ accepted maySave, credential = .serverTrust (some accepted) maySave ∧
        accepted.contains ((operations.foldl Operation.apply (registry, ())).1.parameters.failures
          ParameterKey.serverFailures) = true := by
  intro covers
  rcases covers trustingExpired worseningChallenges "realm" (.serverTrust (some .expired) true) rfl
    (fun _ => rfl) onChallenges_worseningChallenges (by decide) with
    ⟨accepted, maySave, same, contained⟩
  cases same
  exact absurd contained (by decide)

end Registry

end Checkout
