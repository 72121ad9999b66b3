import Checkout.Proofs.Auth.Unattended
import Checkout.Proofs.Settings.Parameters
import Checkout.Proofs.Settings.Saved

/-!
# The credentials that settings offer

A new session that asks nobody but the standard provider of a kind answers with what the settings say, or fails
for want of a credential. A user name need not be set, where the environment knows the user; a password may be
empty but not missing, and a passphrase must not be empty.
-/

namespace Checkout

/-- Whether something of a text can be seen. -/
def Shows (text : String) : Prop :=
  ∃ char ∈ text.toList, isBlank char = false

theorem trimBlank_ne_empty_iff {text : String} : trimBlank text ≠ "" ↔ Shows text := by
  rw [Shows, ne_eq, trimBlank_eq_empty_iff]
  push Not
  simp only [Bool.not_eq_true]

theorem CertificateFailures.contains_empty (whole : CertificateFailures) : whole.contains .empty = true := by
  simp [contains, empty]

namespace Environment

/-- The name that the environment has for the user. -/
inductive NamesUser (environment : Environment) : String → Prop where
  | user {value : String} (set : environment.text? "USER" = some value) (shows : Shows value) :
      NamesUser environment (trimBlank value)
  /-- The second variable counts if the first one is missing, no text, or blank. -/
  | username {value : String} (hidden : ∀ other, environment.text? "USER" = some other → ¬Shows other)
      (set : environment.text? "USERNAME" = some value) (shows : Shows value) :
      NamesUser environment (trimBlank value)

variable {environment : Environment} {user : String}

/-- What a variable has to show, without outer blanks. -/
def shown? (environment : Environment) (name : String) : Option String :=
  ((environment.text? name).map trimBlank).filter (· ≠ "")

theorem shown?_eq_some_iff {name : String} : environment.shown? name = some user ↔
    ∃ value, environment.text? name = some value ∧ Shows value ∧ trimBlank value = user := by
  rw [shown?, Option.filter_eq_some_iff, Option.map_eq_some_iff, decide_eq_true_eq]
  constructor
  · rintro ⟨⟨value, set, rfl⟩, nonempty⟩
    exact ⟨value, set, trimBlank_ne_empty_iff.mp nonempty, rfl⟩
  · rintro ⟨value, set, shows, rfl⟩
    exact ⟨⟨value, set, rfl⟩, trimBlank_ne_empty_iff.mpr shows⟩

theorem shown?_eq_none_iff {name : String} : environment.shown? name = none ↔
    ∀ value, environment.text? name = some value → ¬Shows value := by
  rw [Option.eq_none_iff_forall_ne_some]
  constructor
  · intro hidden value set shows
    exact hidden (trimBlank value) (shown?_eq_some_iff.mpr ⟨value, set, shows, rfl⟩)
  · intro hidden user shown
    obtain ⟨value, set, shows, -⟩ := shown?_eq_some_iff.mp shown
    exact hidden value set shows

theorem userName?_eq : environment.userName? = (environment.shown? "USER").or (environment.shown? "USERNAME") := by
  simp only [userName?, shown?, List.filterMap_cons, List.filterMap_nil]
  cases (environment.text? "USER").map trimBlank <;> cases (environment.text? "USERNAME").map trimBlank <;>
    grind

theorem userName?_eq_some_iff : environment.userName? = some user ↔ environment.NamesUser user := by
  rw [userName?_eq, Option.or_eq_some_iff, shown?_eq_some_iff, shown?_eq_some_iff, shown?_eq_none_iff]
  constructor
  · rintro (⟨value, set, shows, rfl⟩ | ⟨hidden, value, set, shows, rfl⟩)
    · exact .user set shows
    · exact .username hidden set shows
  · rintro (⟨set, shows⟩ | ⟨hidden, set, shows⟩)
    · exact .inl ⟨_, set, shows, rfl⟩
    · exact .inr ⟨hidden, _, set, shows, rfl⟩

theorem NamesUser.ne_empty (named : environment.NamesUser user) : user ≠ "" := by
  cases named with
  | user _ shows | username _ _ shows => exact trimBlank_ne_empty_iff.mpr shows

end Environment

namespace Settings

/-- The credentials that settings offer in an environment. -/
inductive Offers (settings : Settings) (environment : Environment) : Credential → Prop where
  | simple {user password : String} (user_set : settings.auth.username = some user)
      (password_set : settings.auth.password = some password) :
      Offers settings environment (.simple user password !settings.auth.noAuthCache)
  | username {user : String} (user_set : settings.auth.username = some user) :
      Offers settings environment (.username user !settings.auth.noAuthCache)
  | systemUser {user : String} (unset : settings.auth.username = none) (named : environment.NamesUser user) :
      Offers settings environment (.username user !settings.auth.noAuthCache)
  /-- A certificate that nothing is known to be wrong with is trusted. -/
  | serverTrust : Offers settings environment (.serverTrust (some .empty) !settings.auth.noAuthCache)
  | clientCertificate {file : Path} (file_set : settings.auth.clientCertificate = some file) :
      Offers settings environment (.clientCertificate file !settings.auth.noAuthCache)
  | clientPassphrase {password : String} (password_set : settings.auth.clientPassphrase = some password)
      (nonempty : password ≠ "") :
      Offers settings environment (.clientPassphrase password !settings.auth.noAuthCache)

/-- What the standard provider of a kind finds in the settings and the environment. -/
def found? (settings : Settings) (environment : Environment) : CredentialKind → Option Credential
  | .simple => do
      let user ← settings.auth.username
      let password ← settings.auth.password
      return .simple user password true
  | .username => do
      let user ← settings.auth.username <|> environment.userName?
      return .username user true
  | .serverTrust => some (.serverTrust (some .empty) true)
  | .clientCertificate => do
      let file ← settings.auth.clientCertificate
      return .clientCertificate ⟨file.shown⟩ true
  | .clientPassphrase => do
      let password ← settings.auth.clientPassphrase
      return .clientPassphrase password true

/-- The credential of a kind that settings offer: what is found, if nothing is missing in it. -/
def offered? (settings : Settings) (environment : Environment) (kind : CredentialKind) : Option Credential :=
  ((settings.found? environment kind).filter Credential.isComplete).map
    (Credential.withMaySave !settings.auth.noAuthCache)

variable {settings : Settings} {environment : Environment} {kind : CredentialKind} {credential : Credential}

theorem kind_of_found? (found : settings.found? environment kind = some credential) :
    credential.kind = kind ∧ credential.maySave = true := by
  cases kind with
  | simple =>
      obtain ⟨_, -, found⟩ := Option.bind_eq_some_iff.mp found
      obtain ⟨_, -, found⟩ := Option.bind_eq_some_iff.mp found
      cases found
      exact ⟨rfl, rfl⟩
  | serverTrust =>
      cases found
      exact ⟨rfl, rfl⟩
  | username | clientCertificate | clientPassphrase =>
      obtain ⟨_, -, found⟩ := Option.bind_eq_some_iff.mp found
      cases found
      exact ⟨rfl, rfl⟩

theorem Acceptable.username_ne_empty (acceptable : settings.Acceptable) {user : String}
    (user_set : settings.auth.username = some user) : user ≠ "" := by
  rintro rfl
  obtain ⟨char, char_mem, -⟩ := acceptable.auth.username "" user_set
  simp at char_mem

theorem Acceptable.trusted_eq_ok (acceptable : settings.Acceptable) :
    ∃ trusted, settings.auth.trusted = .ok trusted := by
  rcases settings.auth.trusted_cases with ⟨folded, -⟩ | ⟨name, name_mem, -, unknown⟩
  · exact folded
  · exact absurd (acceptable.auth.trusted name name_mem) unknown

theorem shown_clientCertificate (textual : settings.auth.Textual) {file : Path}
    (file_set : settings.auth.clientCertificate = some file) : (⟨file.shown⟩ : Path) = file := by
  obtain ⟨text, rfl⟩ := textual file file_set
  exact congrArg (fun name => Path.mk (OsText.ofString name)) (OsText.shown_ofString text)

theorem offered?_eq_some_iff (acceptable : settings.Acceptable) (textual : settings.auth.Textual) :
    settings.offered? environment kind = some credential ↔
      credential.kind = kind ∧ settings.Offers environment credential := by
  rw [offered?, Option.map_eq_some_iff]
  constructor
  · rintro ⟨record, offered, rfl⟩
    obtain ⟨found, complete⟩ := Option.filter_eq_some_iff.mp offered
    refine ⟨by rw [Credential.kind_withMaySave, (kind_of_found? found).1], ?_⟩
    cases kind with
    | simple =>
        obtain ⟨user, user_set, found⟩ := Option.bind_eq_some_iff.mp found
        obtain ⟨password, password_set, found⟩ := Option.bind_eq_some_iff.mp found
        cases found
        exact .simple user_set password_set
    | username =>
        obtain ⟨user, named, found⟩ := Option.bind_eq_some_iff.mp found
        cases found
        rw [Option.orElse_eq_orElse, Option.orElse_eq_or] at named
        rcases Option.or_eq_some_iff.mp named with user_set | ⟨unset, named⟩
        · exact .username user_set
        · exact .systemUser unset (Environment.userName?_eq_some_iff.mp named)
    | serverTrust =>
        cases found
        exact .serverTrust
    | clientCertificate =>
        obtain ⟨file, file_set, found⟩ := Option.bind_eq_some_iff.mp found
        cases found
        rw [shown_clientCertificate textual file_set]
        exact .clientCertificate file_set
    | clientPassphrase =>
        obtain ⟨password, password_set, found⟩ := Option.bind_eq_some_iff.mp found
        cases found
        exact .clientPassphrase password_set (of_decide_eq_true complete)
  · rintro ⟨rfl, offers⟩
    cases offers with
    | @simple user password user_set password_set =>
        refine ⟨.simple user password true, ?_, rfl⟩
        have named := acceptable.username_ne_empty user_set
        simp [found?, Credential.kind, Credential.isComplete, user_set, password_set, named]
    | @username user user_set =>
        refine ⟨.username user true, ?_, rfl⟩
        have named := acceptable.username_ne_empty user_set
        simp [found?, Credential.kind, Credential.isComplete, user_set, named]
    | @systemUser user unset named =>
        refine ⟨.username user true, ?_, rfl⟩
        have found := Environment.userName?_eq_some_iff.mpr named
        simp [found?, Credential.kind, Credential.isComplete, unset, found, named.ne_empty]
    | serverTrust => exact ⟨.serverTrust (some .empty) true, rfl, rfl⟩
    | @clientCertificate file file_set =>
        refine ⟨.clientCertificate file true, ?_, rfl⟩
        have named := acceptable.auth.certificate file file_set
        have same := shown_clientCertificate textual file_set
        simp [found?, Credential.kind, Credential.isComplete, file_set, named, same]
    | @clientPassphrase password password_set nonempty =>
        refine ⟨.clientPassphrase password true, ?_, rfl⟩
        simp [found?, Credential.kind, Credential.isComplete, password_set, nonempty]

section Standard

variable {σ : Type}

theorem restrict_registry (settings : Settings) (trusted : CertificateFailures) {credential : Credential}
    (saved : credential.maySave = true) :
    credential.restrict (Parameters.empty.merge (settings.parametersTrusting trusted)) =
      credential.withMaySave !settings.auth.noAuthCache := by
  rw [Credential.restrict, maySave_registry]
  cases settings.auth.noAuthCache <;> cases credential <;> simp_all [Credential.maySave, Credential.withMaySave]

/-- A static source that asks nobody has what it derives, if that is usable. -/
theorem produce_of_derive {parameters : Parameters} {realm : String} {source : StaticSource σ}
    {made : Option Credential} (derived : source.derive environment realm parameters = pure made)
    (kind : CredentialKind) (caller : σ) :
    Provider.produce ⟨kind, .static source⟩ environment realm parameters caller =
      (.ok (Provider.usable (σ := σ) ⟨kind, .static source⟩ (made.map (Credential.restrict parameters))),
        caller) := by
  simp only [Provider.produce, StaticSource.produce, derived]
  rfl

theorem usable_found? (settings : Settings) (trusted : CertificateFailures) (environment : Environment)
    (provider : Provider σ) :
    provider.usable ((settings.found? environment provider.kind).map
        (Credential.restrict (Parameters.empty.merge (settings.parametersTrusting trusted)))) =
      settings.offered? environment provider.kind := by
  rw [offered?]
  cases found : settings.found? environment provider.kind with
  | none => rfl
  | some credential =>
      obtain ⟨kind_eq, saved⟩ := kind_of_found? found
      rw [Option.map_some, restrict_registry settings trusted saved, Provider.usable, Option.filter_some,
        Option.filter_some]
      simp only [Credential.kind_withMaySave, Credential.isComplete_withMaySave, kind_eq, decide_true,
        Bool.true_and]
      split <;> rfl

/-- The standard provider of a kind has what the settings offer. -/
theorem produce_standard (settings : Settings) (trusted : CertificateFailures) (environment : Environment)
    (kind : CredentialKind) (realm : String) (caller : σ) :
    (Provider.standard kind).produce environment realm
        (Parameters.empty.merge (settings.parametersTrusting trusted)) caller =
      (.ok (settings.offered? environment kind), caller) := by
  suffices made : (Provider.standard kind).produce environment realm
      (Parameters.empty.merge (settings.parametersTrusting trusted)) caller =
        (.ok ((Provider.standard (σ := σ) kind).usable ((settings.found? environment kind).map
          (Credential.restrict (Parameters.empty.merge (settings.parametersTrusting trusted))))), caller) by
    rw [made]
    exact congrArg (fun made => (Except.ok made, caller))
      (settings.usable_found? trusted environment (Provider.standard kind))
  cases kind with
  | simple =>
      refine (produce_of_derive rfl .simple caller).trans ?_
      rw [text?_registry_username, text?_registry_password]
      rfl
  | username =>
      refine (produce_of_derive rfl .username caller).trans ?_
      rw [text?_registry_username]
      rfl
  | serverTrust =>
      refine (produce_of_derive rfl .serverTrust caller).trans ?_
      rw [failures_registry_serverFailures, if_pos (CertificateFailures.contains_empty _)]
      rfl
  | clientCertificate =>
      refine (produce_of_derive rfl .clientCertificate caller).trans ?_
      rw [text?_registry_clientCertificate, found?]
      cases settings.auth.clientCertificate <;> rfl
  | clientPassphrase =>
      refine (produce_of_derive rfl .clientPassphrase caller).trans ?_
      rw [text?_registry_clientPassphrase]
      rfl

/-- A session that was started from the settings. -/
def freshSession (settings : Settings) (trusted : CertificateFailures) : Session σ where
  registry := { parameters := Parameters.empty.merge (settings.parametersTrusting trusted) }

theorem Acceptable.ofSettings_eq (acceptable : settings.Acceptable) :
    ∃ trusted, (Session.ofSettings settings : Except Error (Session σ)) = .ok (settings.freshSession trusted) := by
  obtain ⟨trusted, folded⟩ := acceptable.trusted_eq_ok
  refine ⟨trusted, ?_⟩
  rw [Session.ofSettings_eq, parameters_eq, folded]
  rfl

variable (settings) (trusted : CertificateFailures) (kind : CredentialKind) (realm : String) (world : World σ)

/-- A session that asks nobody but the standard provider answers with what the settings offer. -/
theorem resolve_freshSession :
    let asked := (settings.freshSession trusted : Session σ).register (.standard kind)
    Session.resolve kind realm (world, asked) =
      match settings.offered? world.environment kind with
      | some credential =>
          .ok credential (world, { asked with registry := asked.registry.keep realm credential })
      | none => .error (.noCredential kind realm) (world, asked) := by
  intro asked
  have alone : asked.registry.chain kind = [.standard kind] := by
    simp [asked, Registry.chain, Session.register, Registry.register, freshSession, Provider.standard]
  have nothing : asked.registry.parameters.remembered? kind realm = none :=
    settings.remembered?_registry trusted kind realm
  have produced : (Provider.standard kind).produce world.environment realm asked.registry.parameters
      world.caller = (.ok (settings.offered? world.environment kind), world.caller) :=
    produce_standard settings trusted world.environment kind realm world.caller
  simp only [Session.resolve, Registry.resolve_apply, nothing, alone, askChain_singleton, produced]
  cases settings.offered? world.environment kind <;> rfl

/-- What was offered is remembered, unless that is forbidden. -/
theorem remembered?_keep_freshSession {credential : Credential}
    (offered : settings.offered? world.environment kind = some credential) :
    let asked := (settings.freshSession trusted : Session σ).register (.standard kind)
    (asked.registry.keep realm credential).parameters.remembered? kind realm =
      if settings.auth.noAuthCache then none else some credential := by
  intro asked
  obtain ⟨record, found, rfl⟩ := Option.map_eq_some_iff.mp offered
  have kind_eq := (kind_of_found? (Option.filter_eq_some_iff.mp found).1).1
  have allowed : asked.registry.parameters.maySave = !settings.auth.noAuthCache :=
    settings.maySave_registry trusted
  rw [Registry.keep, Credential.maySave_withMaySave, allowed]
  cases settings.auth.noAuthCache with
  | true => exact settings.remembered?_registry trusted kind realm
  | false =>
      have same_kind : (record.withMaySave true).kind = kind := by rw [Credential.kind_withMaySave, kind_eq]
      rw [← same_kind]
      exact Parameters.remembered?_set_self _ _ _ _

end Standard

variable {σ : Type}

/--
Settings that were loaded from a file offer their credentials to a new session that asks nobody but the standard
provider of a kind: the session resolves exactly the credential of that kind which the settings offer in the
environment, and where they offer none it fails for want of a credential. A credential is remembered afterwards
unless the settings forbid it; nothing else changes.
-/
theorem resolves_offered {files : FileSystem} {path : Path} (loaded : load files path = .ok settings)
    (kind : CredentialKind) (realm : String) (world : World σ) :
    ∃ session : Session σ, Session.ofSettings settings = .ok session ∧
      let asked := session.register (.standard kind)
      (∀ credential, (∃ after, Session.resolve kind realm (world, asked) = .ok credential after) ↔
        credential.kind = kind ∧ settings.Offers world.environment credential) ∧
      ((∀ credential, credential.kind = kind → ¬settings.Offers world.environment credential) →
        Session.resolve kind realm (world, asked) = .error (.noCredential kind realm) (world, asked)) ∧
      ∀ credential after, Session.resolve kind realm (world, asked) = .ok credential after →
        after.1 = world ∧ after.2.registry.parameters.remembered? kind realm =
          if settings.auth.noAuthCache then none else some credential := by
  have acceptable := acceptable_of_load loaded
  have textual := textual_of_load loaded
  obtain ⟨trusted, started⟩ := acceptable.ofSettings_eq (σ := σ)
  have resolved := settings.resolve_freshSession trusted kind realm world
  refine ⟨_, started, ?_⟩
  cases offered : settings.offered? world.environment kind with
  | none =>
      have nothing (credential : Credential) (kind_eq : credential.kind = kind) :
          ¬settings.Offers world.environment credential := by
        intro offers
        have some_offered := (offered?_eq_some_iff acceptable textual).mpr ⟨kind_eq, offers⟩
        rw [offered] at some_offered
        cases some_offered
      rw [offered] at resolved
      refine ⟨fun credential => ⟨?_, ?_⟩, fun _ => resolved, ?_⟩
      · rintro ⟨after, granted⟩
        cases resolved.symm.trans granted
      · rintro ⟨kind_eq, offers⟩
        exact absurd offers (nothing credential kind_eq)
      · intro credential after granted
        cases resolved.symm.trans granted
  | some made =>
      have offers := (offered?_eq_some_iff acceptable textual).mp offered
      rw [offered] at resolved
      refine ⟨fun credential => ⟨?_, ?_⟩, ?_, ?_⟩
      · rintro ⟨after, granted⟩
        cases resolved.symm.trans granted
        exact offers
      · intro also
        have same := (offered?_eq_some_iff acceptable textual).mpr also
        rw [offered] at same
        cases same
        exact ⟨_, resolved⟩
      · intro nothing
        exact absurd offers.2 (nothing made offers.1)
      · intro credential after granted
        cases resolved.symm.trans granted
        exact ⟨rfl, settings.remembered?_keep_freshSession trusted kind realm world offered⟩

/-- Settings without a user name, whose secrets are empty. -/
def nameless : Settings where
  auth := { password := some "", noAuthCache := true, clientPassphrase := some "" }

/-- A home with a file of these settings, where the first variable for the user's name is blank. -/
def namelessHome : World Unit where
  files := stateAfter (nameless.save ⟨"svn.toml"⟩) bareHome
  claims := []
  environment := { entries := [("USER", " \t"), ("USERNAME", " alice\n")] }
  caller := ()

/-- The user's name comes from the environment and is not remembered; an empty passphrase is no credential. -/
theorem resolves_offered_of_nameless :
    load namelessHome.files ⟨"svn.toml"⟩ = .ok nameless ∧
      (∃ (session : Session Unit) (after : World Unit × Session Unit),
        Session.resolve .username "realm" (namelessHome, session.register (.standard .username)) =
            .ok (.username "alice" false) after ∧
          after.2.registry.parameters.remembered? .username "realm" = none) ∧
      ∃ session : Session Unit,
        Session.resolve .clientPassphrase "realm" (namelessHome, session.register (.standard .clientPassphrase)) =
          .error (.noCredential .clientPassphrase "realm")
            (namelessHome, session.register (.standard .clientPassphrase)) := by
  have loaded : load namelessHome.files ⟨"svn.toml"⟩ = .ok nameless := by decide +kernel
  have trimmed : trimBlank " alice\n" = "alice" := by decide +kernel
  have named : namelessHome.environment.NamesUser "alice" := by
    rw [← trimmed]
    have blank : namelessHome.environment.text? "USER" = some " \t" := by decide +kernel
    refine .username ?_ (by decide +kernel) ⟨'a', by decide +kernel, by decide⟩
    rintro other set ⟨char, char_mem, visible⟩
    obtain rfl := Option.some.inj (blank.symm.trans set)
    simp at char_mem
    rcases char_mem with rfl | rfl <;> cases visible
  refine ⟨loaded, ?_, ?_⟩
  · obtain ⟨session, -, granted, -, kept⟩ := resolves_offered loaded .username "realm" namelessHome
    obtain ⟨after, resolved⟩ := (granted (.username "alice" false)).mpr ⟨rfl, .systemUser rfl named⟩
    exact ⟨session, after, resolved, (kept _ _ resolved).2⟩
  · obtain ⟨session, -, -, refused, -⟩ := resolves_offered loaded .clientPassphrase "realm" namelessHome
    refine ⟨session, refused ?_⟩
    rintro credential kind_eq offers
    cases offers with
    | clientPassphrase password_set nonempty =>
        cases password_set
        exact nonempty rfl
    | simple | username | systemUser | serverTrust | clientCertificate => cases kind_eq

end Settings

end Checkout
