import Checkout.CommandLine.Program
import Checkout.Proofs.Action
import Checkout.Proofs.Settings.Offered

/-!
# Resolving a credential on the command line

What the command that resolves a credential makes of its settings: a registry with the standard provider
of the kind in demand and, where somebody can be asked, a prompt behind it. The report tells what the
registry comes to.
-/

namespace Checkout.CommandLine

/-- The registry the command asks. -/
def authRegistry (settings : Settings) (trusted : CertificateFailures) (kind : CredentialKind) :
    Registry Console where
  providers := .standard kind ::
    if settings.session.nonInteractive then []
    else [.prompting kind (if kind = .serverTrust then 0 else settings.session.retryLimit) Console.prompt]
  parameters := Parameters.empty.merge (settings.parametersTrusting trusted)
  version := if settings.session.nonInteractive then 1 else 2

/-- What the command reports of a credential, with the registry that handed it out. -/
def authResult (realm : String) (kind : CredentialKind) (registry : Registry Console)
    (credential : Credential) : Result :=
  let cached := (registry.parameters.remembered? kind realm).isSome
  let user := credential.user?
  { data := .ok (.record
      [("realm", .text realm), ("kind", .text kind.name), ("username", (user.map .text).getD .null),
        ("cached", .flag cached), ("providers", .integer registry.providers.length)])
    human := {
      header := "svnctx auth: credential resolved"
      summary := [("realm", realm), ("kind", kind.name)] ++
        (user.map fun user => ("username", user)).toList
      warnings := if cached then [] else ["credential not cached (auth.no_auth_cache)"] } }

section Registry

variable (settings : Settings) (trusted : CertificateFailures) (kind : CredentialKind)

theorem chain_authRegistry :
    (authRegistry settings trusted kind).chain kind = (authRegistry settings trusted kind).providers := by
  rw [Registry.chain, List.filter_eq_self]
  intro provider listed
  rcases List.mem_cons.mp listed with rfl | behind
  · exact decide_eq_true rfl
  · split at behind
    · cases behind
    · rw [List.mem_singleton.mp behind]
      exact decide_eq_true rfl

theorem remembered?_authRegistry (realm : String) :
    (authRegistry settings trusted kind).parameters.remembered? kind realm = none :=
  settings.remembered?_registry trusted kind realm

/-- Nothing is remembered when the command starts, so it asks the providers. -/
theorem resolve_authRegistry (environment : Environment) (realm : String) (console : Console) :
    (authRegistry settings trusted kind).resolve environment kind realm console =
      match askChain environment realm (authRegistry settings trusted kind).parameters
        (authRegistry settings trusted kind).providers console with
      | (.grant credential, last) =>
          ((.ok credential, (authRegistry settings trusted kind).keep realm credential), last)
      | (.pass, last) =>
          ((.error (.noCredential kind realm), authRegistry settings trusted kind), last)
      | (.failed error, last) => ((.error error, authRegistry settings trusted kind), last) := by
  rw [Registry.resolve_apply, remembered?_authRegistry, chain_authRegistry]
  rcases askChain environment realm (authRegistry settings trusted kind).parameters
    (authRegistry settings trusted kind).providers console with ⟨answer, last⟩
  cases answer <;> rfl

end Registry

theorem authSession_eq (settings : Settings) (kind : CredentialKind) :
    authSession settings kind = settings.auth.trusted.map fun trusted =>
      { registry := authRegistry settings trusted kind } := by
  rw [authSession, Session.ofSettings_eq, Settings.parameters_eq]
  cases settings.auth.trusted with
  | error error => rfl
  | ok trusted =>
      simp only [authRegistry]
      cases settings.session.nonInteractive <;> rfl

/-! ## What is told on the way -/

/-- What has been told by the time the providers are asked. -/
def openingEvents (settings : Settings) (trusted : CertificateFailures) (environment : Environment)
    (kind : CredentialKind) (realm : String) : List Event :=
  .sessionCreated :: eventsBefore { registry := authRegistry settings trusted kind } kind realm
    (settings.offered? environment kind).isSome

/-- What is told when the providers have been asked. -/
def closingEvents (settings : Settings) (environment : Environment) (kind : CredentialKind) (realm : String)
    (outcome : Except Error Credential) : List Event :=
  if (settings.offered? environment kind).isSome then [] else eventsBehind settings kind realm outcome

theorem tell_apply (events : List Event) (world : World Console) :
    tell events world = .ok ⟨⟩ { world with caller := world.caller.after events } := rfl

theorem Console.after_nil (console : Console) : console.after [] = console := by
  simp [Console.after]

theorem Console.after_append (console : Console) (first second : List Event) :
    (console.after first).after second = console.after (first ++ second) := by
  simp [Console.after]

theorem isOffered_authRegistry (settings : Settings) (trusted : CertificateFailures) (kind : CredentialKind)
    (realm : String) (world : World Console) :
    isOffered { registry := authRegistry settings trusted kind } kind realm world =
      (settings.offered? world.environment kind).isSome := by
  have produced : (Provider.standard kind).produce world.environment realm
      (authRegistry settings trusted kind).parameters world.caller =
        (.ok (settings.offered? world.environment kind), world.caller) :=
    settings.produce_standard trusted world.environment kind realm world.caller
  rw [isOffered, produced]
  cases settings.offered? world.environment kind <;> rfl

theorem resolveTold_apply (settings : Settings) (trusted : CertificateFailures) {kind : CredentialKind}
    {realm : String} {world : World Console} {outcome : Except Error Credential}
    {registry : Registry Console} {last : Console}
    (answered : (authRegistry settings trusted kind).resolve world.environment kind realm
      (world.caller.after (eventsBefore { registry := authRegistry settings trusted kind } kind realm
        (settings.offered? world.environment kind).isSome)) = ((outcome, registry), last)) :
    resolveTold settings { registry := authRegistry settings trusted kind } kind realm world =
      let after := { world with
        caller := last.after (closingEvents settings world.environment kind realm outcome) }
      match outcome with
      | .ok credential => .ok (credential, { registry }) after
      | .error error => .error error after := by
  simp only [resolveTold, Action.bind_apply, Action.get_apply, isOffered_authRegistry, tell_apply, Action.outcome,
    SessionAction.runWith, Session.resolve, answered]
  cases outcome with
  | error error | ok credential =>
      simp only [closingEvents]
      split
      · rw [Console.after_nil]
        rfl
      · rfl

theorem runAuth_apply (settings : Settings) (realm text : String) (world : World Console) :
    runAuth settings realm text world =
      match CredentialKind.parse text with
      | .error error => .error error world
      | .ok kind =>
          if kind ≠ .simple ∧ kind ≠ .username then
            .error (.invalidArgument
              ("auth supports simple and username credentials, not " ++ kind.name)) world
          else match settings.auth.trusted with
            | .error error => .error error { world with caller := world.caller.after [.sessionCreated] }
            | .ok trusted =>
                match (authRegistry settings trusted kind).resolve world.environment kind realm
                  (world.caller.after (openingEvents settings trusted world.environment kind realm)) with
                | ((.error error, _), caller) =>
                    .error error { world with
                      caller := caller.after
                        (closingEvents settings world.environment kind realm (.error error)) }
                | ((.ok credential, registry), caller) =>
                    .ok (authResult realm kind registry credential) { world with
                      caller := caller.after
                        (closingEvents settings world.environment kind realm (.ok credential)) } := by
  cases parsed : CredentialKind.parse text with
  | error error => simp [runAuth, Action.ofOutcome, parsed]
  | ok kind =>
      by_cases unsupported : kind ≠ .simple ∧ kind ≠ .username
      · simp [runAuth, Action.ofOutcome, parsed, unsupported]
      · simp only [runAuth, Action.ofOutcome, parsed, Action.bind_apply, Action.pure_apply, if_neg unsupported,
          authSession_eq]
        cases settings.auth.trusted with
        | error error => rfl
        | ok trusted =>
            rcases answered : (authRegistry settings trusted kind).resolve world.environment kind realm
              (world.caller.after (openingEvents settings trusted world.environment kind realm)) with
              ⟨⟨outcome, registry⟩, last⟩
            let begun : World Console := { world with caller := world.caller.after [.sessionCreated] }
            have resumed : (authRegistry settings trusted kind).resolve begun.environment kind realm
                (begun.caller.after (eventsBefore { registry := authRegistry settings trusted kind } kind realm
                  (settings.offered? begun.environment kind).isSome)) = ((outcome, registry), last) := by
              rw [← answered, openingEvents, ← List.singleton_append, ← Console.after_append]
            have told := resolveTold_apply settings trusted resumed
            dsimp only [begun] at told
            simp only [Except.map, Action.pure_apply, tell_apply, told, answered]
            cases outcome <;> rfl

end Checkout.CommandLine
