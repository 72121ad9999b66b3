import Checkout.Proofs.Auth.Remembered
import Checkout.Proofs.Settings.Acceptable

/-!
# The parameters of a new session

What a session that was started from settings has under each key: what the settings say, and nothing under
the keys they are silent about.
-/

namespace Checkout

namespace Parameters

theorem get?_merge (parameters others : Parameters) (key : String) :
    (parameters.merge others).get? key = (others.get? key).or (parameters.get? key) := by
  rcases others with ⟨entries⟩
  induction entries with
  | nil => rfl
  | cons entry rest ih =>
      rcases entry with ⟨name, value⟩
      have merged : parameters.merge ⟨(name, value) :: rest⟩ =
          (parameters.merge ⟨rest⟩).set name value := rfl
      have listed : get? ⟨(name, value) :: rest⟩ key =
          if key = name then some value else get? ⟨rest⟩ key := by
        simp only [get?, List.lookup_cons]
        by_cases same : key = name
        · simp [same]
        · rw [beq_false_of_ne same, if_neg same]
      rw [merged, get?_set, ih, listed]
      split_ifs <;> rfl

/-- The parameters with a text under a key, if there is one. -/
def setText (key : String) (value : Option String) (parameters : Parameters) : Parameters :=
  match value with
  | some text => parameters.set key (.text text)
  | none => parameters

/-- The parameters with a switch on, if it is. -/
def setFlag (key : String) (value : Bool) (parameters : Parameters) : Parameters :=
  if value then parameters.set key (.flag true) else parameters

theorem get?_setText (key other : String) (value : Option String) (parameters : Parameters) :
    (parameters.setText key value).get? other =
      if other = key then (value.map .text).or (parameters.get? other) else parameters.get? other := by
  cases value <;> simp [setText]

theorem get?_setFlag (key other : String) (value : Bool) (parameters : Parameters) :
    (parameters.setFlag key value).get? other =
      if other = key ∧ value then some (.flag true) else parameters.get? other := by
  cases value <;> simp [setFlag]

end Parameters

namespace Settings

variable (settings : Settings)

/-- The parameters that say what the settings say, apart from the failures they trust. -/
def plainParameters : Parameters :=
  Parameters.empty
    |>.setText ParameterKey.username settings.auth.username
    |>.setText ParameterKey.password settings.auth.password
    |>.setFlag ParameterKey.noAuthCache settings.auth.noAuthCache
    |>.setFlag ParameterKey.nonInteractive settings.session.nonInteractive
    |>.setText ParameterKey.clientCertificate (settings.auth.clientCertificate.map Path.shown)
    |>.setText ParameterKey.clientPassphrase settings.auth.clientPassphrase

/-- What settings say under a key, with the failures they trust. -/
def parameter? (trusted : CertificateFailures) (key : String) : Option Parameter :=
  if key = ParameterKey.username then settings.auth.username.map .text
  else if key = ParameterKey.password then settings.auth.password.map .text
  else if key = ParameterKey.noAuthCache then
    if settings.auth.noAuthCache then some (.flag true) else none
  else if key = ParameterKey.nonInteractive then
    if settings.session.nonInteractive then some (.flag true) else none
  else if key = ParameterKey.clientCertificate then
    settings.auth.clientCertificate.map (.text ∘ Path.shown)
  else if key = ParameterKey.clientPassphrase then settings.auth.clientPassphrase.map .text
  else if key = ParameterKey.trustedFailures then
    if trusted.isEmpty = false then some (.failures trusted) else none
  else none

/-- The parameters that say what the settings say, with the failures they trust. -/
def parametersTrusting (trusted : CertificateFailures) : Parameters :=
  if trusted.isEmpty then settings.plainParameters
  else settings.plainParameters.set ParameterKey.trustedFailures (.failures trusted)

theorem parameters_eq :
    settings.parameters = settings.auth.trusted.map settings.parametersTrusting := by
  have unfolded : settings.parameters =
      (settings.auth.trusted >>= fun trusted => pure (settings.parametersTrusting trusted)) := rfl
  rw [unfolded]
  cases settings.auth.trusted <;> rfl

theorem get?_parametersTrusting (trusted : CertificateFailures) (key : String) :
    (settings.parametersTrusting trusted).get? key = settings.parameter? trusted key := by
  have listed : (settings.parametersTrusting trusted).get? key =
      if key = ParameterKey.trustedFailures ∧ trusted.isEmpty = false then some (.failures trusted)
      else settings.plainParameters.get? key := by
    rw [parametersTrusting]
    cases trusted.isEmpty <;> simp
  have nothing : Parameters.empty.get? key = none := rfl
  simp only [listed, plainParameters, Parameters.get?_setText, Parameters.get?_setFlag, nothing,
    parameter?]
  by_cases named : key ∈ ParameterKey.wellKnown
  · simp only [ParameterKey.wellKnown, List.mem_cons, List.not_mem_nil, or_false] at named
    rcases named with rfl | rfl | rfl | rfl | rfl | rfl | rfl | rfl <;>
      simp [ParameterKey.username, ParameterKey.password, ParameterKey.noAuthCache,
        ParameterKey.nonInteractive, ParameterKey.serverFailures, ParameterKey.trustedFailures,
        ParameterKey.clientCertificate, ParameterKey.clientPassphrase]
  · simp only [ParameterKey.wellKnown, List.mem_cons, List.not_mem_nil, or_false, not_or] at named
    simp [named]

theorem parameter?_of_unknown (trusted : CertificateFailures) {key : String}
    (unknown : key ∉ ParameterKey.wellKnown) : settings.parameter? trusted key = none := by
  simp only [ParameterKey.wellKnown, List.mem_cons, List.not_mem_nil, or_false, not_or] at unknown
  simp [parameter?, unknown]

end Settings

variable {σ : Type}

/-- A session that was started from settings has no provider and has remembered nothing. -/
theorem Session.ofSettings_eq (settings : Settings) :
    (Session.ofSettings settings : Except Error (Session σ)) =
      settings.parameters.map fun parameters =>
        { registry := { parameters := Parameters.empty.merge parameters } } := by
  rw [Session.ofSettings]
  cases settings.parameters <;> rfl

namespace Settings

variable (settings : Settings) (trusted : CertificateFailures)

theorem get?_registry (key : String) :
    (Parameters.empty.merge (settings.parametersTrusting trusted)).get? key =
      settings.parameter? trusted key := by
  rw [Parameters.get?_merge, get?_parametersTrusting]
  exact Option.or_none

theorem text?_registry {key : String} {value : Option String}
    (given : settings.parameter? trusted key = value.map .text) :
    (Parameters.empty.merge (settings.parametersTrusting trusted)).text? key = value := by
  rw [Parameters.text?, get?_registry, given]
  cases value <;> rfl

theorem text?_registry_username :
    (Parameters.empty.merge (settings.parametersTrusting trusted)).text? ParameterKey.username =
      settings.auth.username :=
  settings.text?_registry trusted (by rw [parameter?, if_pos rfl])

theorem text?_registry_password :
    (Parameters.empty.merge (settings.parametersTrusting trusted)).text? ParameterKey.password =
      settings.auth.password :=
  settings.text?_registry trusted (by rw [parameter?, if_neg (by decide), if_pos rfl])

theorem text?_registry_clientCertificate :
    (Parameters.empty.merge (settings.parametersTrusting trusted)).text? ParameterKey.clientCertificate =
      settings.auth.clientCertificate.map Path.shown := by
  apply settings.text?_registry trusted
  rw [parameter?, if_neg (by decide), if_neg (by decide), if_neg (by decide), if_neg (by decide), if_pos rfl,
    Option.map_map]

theorem text?_registry_clientPassphrase :
    (Parameters.empty.merge (settings.parametersTrusting trusted)).text? ParameterKey.clientPassphrase =
      settings.auth.clientPassphrase := by
  apply settings.text?_registry trusted
  rw [parameter?, if_neg (by decide), if_neg (by decide), if_neg (by decide), if_neg (by decide),
    if_neg (by decide), if_pos rfl]

/-- A session that was started from settings knows of no certificate. -/
theorem failures_registry_serverFailures :
    (Parameters.empty.merge (settings.parametersTrusting trusted)).failures ParameterKey.serverFailures =
      .empty := by
  rw [Parameters.failures, get?_registry]
  rfl

theorem maySave_registry :
    (Parameters.empty.merge (settings.parametersTrusting trusted)).maySave = !settings.auth.noAuthCache := by
  rw [Parameters.maySave, Parameters.flag, get?_registry, parameter?, if_neg (by decide), if_neg (by decide),
    if_pos rfl]
  cases settings.auth.noAuthCache <;> rfl

theorem get?_registry_nonInteractive :
    (Parameters.empty.merge (settings.parametersTrusting trusted)).get? ParameterKey.nonInteractive =
      if settings.session.nonInteractive then some (.flag true) else none := by
  rw [get?_registry, parameter?, if_neg (by decide), if_neg (by decide), if_neg (by decide), if_pos rfl]

theorem remembered?_registry (kind : CredentialKind) (realm : String) :
    (Parameters.empty.merge (settings.parametersTrusting trusted)).remembered? kind realm = none := by
  have unknown : ParameterKey.remembered kind realm ∉ ParameterKey.wellKnown := fun known =>
    ParameterKey.not_isReserved_of_mem_wellKnown known (ParameterKey.isReserved_remembered kind realm)
  rw [Parameters.remembered?, get?_registry, settings.parameter?_of_unknown trusted unknown]

end Settings

end Checkout
