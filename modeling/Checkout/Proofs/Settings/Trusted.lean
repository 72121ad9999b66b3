import Checkout.Proofs.Auth.Trust
import Checkout.Proofs.Settings.Parameters
import Checkout.Proofs.Settings.Saved

/-!
# The failures that settings trust

Settings trust failures by name. A new session that asks nobody but the standard provider accepts a
certificate if and only if each failure in question is named, in whatever order, spelling and number the names
are given; so a failure without a name is never accepted.
-/

namespace Checkout

/-! ## Failures bit by bit -/

namespace CertificateFailures

variable {whole part failure : CertificateFailures} {name : String} {names : List String} {bit : Nat}

/-- One of some names is a spelling of the name of the failure with this bit. -/
def NamesBit (names : List String) (bit : Nat) : Prop :=
  ∃ known, (known, ⟨BitVec.twoPow 32 bit⟩) ∈ named ∧ ∃ name ∈ names, IsSpellingOf name known

theorem contains_iff : whole.contains part = true ↔
    ∀ bit, part.mask.getLsbD bit = true → whole.mask.getLsbD bit = true := by
  rw [contains, decide_eq_true_eq]
  constructor
  · intro within bit set
    rw [← within, BitVec.getLsbD_and, Bool.and_eq_true] at set
    exact set.1
  · intro each
    apply BitVec.eq_of_getLsbD_eq
    intro bit _
    rw [BitVec.getLsbD_and, Bool.and_eq_right_iff_imp]
    exact each bit

/-- Every failure with a name is a single bit. -/
theorem named_table : ∀ entry ∈ named, ∃ bit < 32, entry.2.mask = BitVec.twoPow 32 bit := by
  decide

theorem getLsbD_named {known : String} (entry_mem : (known, failure) ∈ named) :
    failure.mask.getLsbD bit = true ↔ failure = ⟨BitVec.twoPow 32 bit⟩ := by
  obtain ⟨place, within, mask_eq⟩ := named_table _ entry_mem
  rcases failure with ⟨mask⟩
  obtain rfl : mask = BitVec.twoPow 32 place := mask_eq
  rw [CertificateFailures.mk.injEq, BitVec.getLsbD_twoPow, Bool.and_eq_true, decide_eq_true_eq,
    decide_eq_true_eq]
  constructor
  · rintro ⟨-, rfl⟩
    rfl
  · intro same
    refine ⟨within, ?_⟩
    have set : (BitVec.twoPow 32 bit).getLsbD place = true := by
      rw [← same, BitVec.getLsbD_twoPow]
      simp [within]
    rw [BitVec.getLsbD_twoPow, Bool.and_eq_true, decide_eq_true_eq, decide_eq_true_eq] at set
    exact set.2.symm

theorem namesBit_cons_of_ofName? (found : ofName? name = some failure) :
    NamesBit (name :: names) bit ↔ failure.mask.getLsbD bit = true ∨ NamesBit names bit := by
  obtain ⟨known, entry_mem, isSpelling⟩ := ofName?_eq_some_iff.mp found
  rw [getLsbD_named entry_mem]
  constructor
  · rintro ⟨other, other_mem, written, written_mem, otherSpelling⟩
    rcases List.mem_cons.mp written_mem with rfl | later
    · left
      -- a name is a spelling of one known name only
      have again := ofName?_eq_some_iff.mpr ⟨other, other_mem, otherSpelling⟩
      rw [found, Option.some.injEq] at again
      exact again
    · exact .inr ⟨other, other_mem, written, later, otherSpelling⟩
  · rintro (rfl | ⟨other, other_mem, written, written_mem, otherSpelling⟩)
    · exact ⟨known, entry_mem, name, List.mem_cons_self, isSpelling⟩
    · exact ⟨other, other_mem, written, List.mem_cons_of_mem _ written_mem, otherSpelling⟩

theorem namesBit_congr {others : List String} (same : ∀ name, name ∈ others ↔ name ∈ names) :
    NamesBit others bit ↔ NamesBit names bit := by
  simp only [NamesBit, same]

end CertificateFailures

namespace AuthSettings

open CertificateFailures

/-- The trusted failures are the named ones. -/
theorem getLsbD_trusted {settings : AuthSettings} {trusted : CertificateFailures} {bit : Nat}
    (folded : settings.trusted = .ok trusted) :
    trusted.mask.getLsbD bit = true ↔ NamesBit settings.trustedFailures bit := by
  rw [AuthSettings.trusted] at folded
  suffices from_start : trusted.mask.getLsbD bit = true ↔
      CertificateFailures.empty.mask.getLsbD bit = true ∨ NamesBit settings.trustedFailures bit by
    simpa [CertificateFailures.empty] using from_start
  generalize CertificateFailures.empty = start at folded ⊢
  generalize settings.trustedFailures = names at folded ⊢
  induction names generalizing start with
  | nil =>
      cases folded
      simp [NamesBit]
  | cons name names ih =>
      rw [List.foldlM_cons] at folded
      cases found : ofName? name with
      | none => simp [found, bind, Except.bind] at folded
      | some failure =>
          simp only [found] at folded
          rw [ih _ folded, union, BitVec.getLsbD_or, Bool.or_eq_true, namesBit_cons_of_ofName? found,
            or_assoc]

end AuthSettings

/-! ## The standard provider alone -/

variable {σ : Type}

/-- Where one static provider alone is asked, it has a usable credential or there is none. -/
theorem Registry.resolve_of_static {registry : Registry σ} {environment : Environment}
    {kind : CredentialKind} {realm : String} {caller : σ} {source : StaticSource σ}
    (alone : registry.chain kind = [⟨kind, .static source⟩])
    (fresh : registry.parameters.remembered? kind realm = none) :
    (registry.resolve environment kind realm caller).1.1 =
      match Provider.usable ⟨kind, .static source⟩
          (source.produce environment realm registry.parameters caller).1 with
      | some credential => .ok credential
      | none => .error (.noCredential kind realm) := by
  rw [resolve_apply, fresh, alone, askChain_cons]
  simp only [Provider.raw, Except.map]
  rcases source.produce environment realm registry.parameters caller with ⟨produced, last⟩
  cases usable : Provider.usable ⟨kind, .static source⟩ produced <;> simp only [usable] <;> rfl

/-- The registry of a session when a certificate with some failures is in question, and nobody but the
standard provider is there to trust it. -/
def Session.facing (session : Session σ) (failures : CertificateFailures) : Registry σ :=
  (session.register (.standard .serverTrust)).registry.setParameter ParameterKey.serverFailures
    (.failures failures)

namespace Settings

variable {settings : Settings} {environment : Environment} {realm : String} {caller : σ}
  {failures : CertificateFailures}

/-- The answer of a new session with the settings to a certificate with some failures. -/
def answerTo (settings : Settings) (environment : Environment) (realm : String) (caller : σ)
    (failures : CertificateFailures) : Except Error Credential := do
  let session : Session σ ← Session.ofSettings settings
  ((session.facing failures).resolve environment .serverTrust realm caller).1.1

theorem failures_of_get? {parameters : Parameters} {key : String} {trusted : CertificateFailures}
    (listed : parameters.get? key =
      if trusted.isEmpty = false then some (.failures trusted) else none) :
    parameters.failures key = trusted := by
  rw [Parameters.failures, listed]
  by_cases nothing : trusted.isEmpty = false
  · rw [if_pos nothing]
  · rw [if_neg nothing]
    rcases trusted with ⟨mask⟩
    have zero : mask = 0 := by simpa [CertificateFailures.isEmpty] using nothing
    rw [zero]
    rfl

section Facing

variable {trusted : CertificateFailures} {session : Session σ}
  (listed : session.registry = { parameters := Parameters.empty.merge (settings.parametersTrusting trusted) })
include listed

theorem get?_facing (failures : CertificateFailures) (key : String) :
    (session.facing failures).parameters.get? key =
      if key = ParameterKey.serverFailures then some (.failures failures)
      else settings.parameter? trusted key := by
  rw [Session.facing, Registry.setParameter, Parameters.get?_set, ← get?_registry]
  simp only [Session.register, Registry.register, listed]

theorem chain_facing (failures : CertificateFailures) :
    (session.facing failures).chain .serverTrust = [⟨.serverTrust, .static .trustedFailures⟩] := by
  simp only [Registry.chain, Session.facing, Registry.setParameter, Session.register, Registry.register, listed]
  rfl

theorem remembered?_facing (failures : CertificateFailures) (realm : String) :
    (session.facing failures).parameters.remembered? .serverTrust realm = none := by
  have unknown : ParameterKey.remembered .serverTrust realm ∉ ParameterKey.wellKnown := by
    intro known
    exact ParameterKey.not_isReserved_of_mem_wellKnown known
      (ParameterKey.isReserved_remembered .serverTrust realm)
  rw [Parameters.remembered?, get?_facing listed, if_neg, parameter?_of_unknown settings trusted unknown]
  intro same
  rw [same] at unknown
  exact unknown (by decide)

theorem serverFailures_facing (failures : CertificateFailures) :
    (session.facing failures).parameters.failures ParameterKey.serverFailures = failures := by
  rw [Parameters.failures, get?_facing listed, if_pos rfl]

theorem trustedFailures_facing (failures : CertificateFailures) :
    (session.facing failures).parameters.failures ParameterKey.trustedFailures = trusted := by
  apply failures_of_get?
  rw [get?_facing listed, if_neg (by decide), parameter?]
  simp only [if_neg (show ParameterKey.trustedFailures ≠ ParameterKey.username by decide),
    if_neg (show ParameterKey.trustedFailures ≠ ParameterKey.password by decide),
    if_neg (show ParameterKey.trustedFailures ≠ ParameterKey.noAuthCache by decide),
    if_neg (show ParameterKey.trustedFailures ≠ ParameterKey.nonInteractive by decide),
    if_neg (show ParameterKey.trustedFailures ≠ ParameterKey.clientCertificate by decide),
    if_neg (show ParameterKey.trustedFailures ≠ ParameterKey.clientPassphrase by decide), if_true]

theorem maySave_facing (failures : CertificateFailures) :
    (session.facing failures).parameters.maySave = !settings.auth.noAuthCache := by
  rw [Parameters.maySave, Parameters.flag, get?_facing listed, if_neg (by decide), parameter?,
    if_neg (by decide), if_neg (by decide), if_pos rfl]
  cases settings.auth.noAuthCache <;> rfl

end Facing

/-- The answer is the trust in exactly these failures if each of them is trusted. -/
theorem answerTo_eq {trusted : CertificateFailures} (folded : settings.auth.trusted = .ok trusted) :
    settings.answerTo environment realm caller failures =
      if trusted.contains failures then .ok (.serverTrust (some failures) !settings.auth.noAuthCache)
      else .error (.noCredential .serverTrust realm) := by
  obtain ⟨session, started, listed⟩ : ∃ session : Session σ, Session.ofSettings settings = .ok session ∧
      session.registry = { parameters := Parameters.empty.merge (settings.parametersTrusting trusted) } := by
    rw [Session.ofSettings_eq, parameters_eq, folded]
    exact ⟨_, rfl, rfl⟩
  have answered (credential : Option Credential) :
      (pure credential : StateM σ (Option Credential)) caller = (credential, caller) := rfl
  rw [answerTo, started]
  change ((session.facing failures).resolve environment .serverTrust realm caller).1.1 = _
  rw [Registry.resolve_of_static (chain_facing listed failures) (remembered?_facing listed failures realm),
    StaticSource.produce_apply, StaticSource.derive, serverFailures_facing listed,
    trustedFailures_facing listed]
  split_ifs with covered
  · simp only [answered, Option.map_some, Credential.restrict, maySave_facing listed]
    cases settings.auth.noAuthCache <;> rfl
  · rfl

/--
Settings that were loaded from a file trust a server by the names they list: a new session that asks nobody but
the standard provider has a credential exactly when every failure in question is the one bit of a known
failure whose name is listed in some spelling. The credential accepts exactly the failures in question. The
order and the number of the names do not matter, and a failure without a name is never trusted.
-/
theorem trusts_named_failures {files : FileSystem} {path : Path} (loaded : load files path = .ok settings)
    (environment : Environment) (realm : String) (caller : σ) (failures : CertificateFailures) :
    let answer := settings.answerTo environment realm caller failures
    ((∃ credential, answer = .ok credential) ↔ ∀ bit, failures.mask.getLsbD bit = true →
      CertificateFailures.NamesBit settings.auth.trustedFailures bit) ∧
    (∀ credential, answer = .ok credential →
      ∃ maySave, credential = .serverTrust (some failures) maySave) ∧
    (∀ error, answer = .error error → error = .noCredential .serverTrust realm) ∧
    (∀ names, (∀ name, name ∈ names ↔ name ∈ settings.auth.trustedFailures) →
      { settings with auth := { settings.auth with trustedFailures := names } }.answerTo environment realm
        caller failures = answer) ∧
    ((∃ bit, failures.mask.getLsbD bit = true ∧
      ∀ entry ∈ CertificateFailures.named, entry.2.mask.getLsbD bit = false) →
        answer = .error (.noCredential .serverTrust realm)) := by
  intro answer
  have known := (acceptable_of_load loaded).auth.trusted
  -- whichever names are listed, the answer depends on the bits that they name
  have by_names (names : List String) (all_known : ∀ name ∈ names, CertificateFailures.IsKnown name) :
      ∃ trusted : CertificateFailures,
        (trusted.contains failures = true ↔ ∀ bit, failures.mask.getLsbD bit = true →
          CertificateFailures.NamesBit names bit) ∧
        { settings with auth := { settings.auth with trustedFailures := names } }.answerTo environment realm
          caller failures =
            if trusted.contains failures then .ok (.serverTrust (some failures) !settings.auth.noAuthCache)
            else .error (.noCredential .serverTrust realm) := by
    rcases AuthSettings.trusted_cases { settings.auth with trustedFailures := names } with
      ⟨⟨trusted, folded⟩, -⟩ | ⟨name, name_mem, -, unknown⟩
    · refine ⟨trusted, ?_, answerTo_eq folded⟩
      rw [CertificateFailures.contains_iff]
      simp only [AuthSettings.getLsbD_trusted folded]
    · exact absurd (all_known name name_mem) unknown
  obtain ⟨trusted, covers, answer_eq⟩ := by_names settings.auth.trustedFailures known
  change answer = _ at answer_eq
  refine ⟨?_, ?_, ?_, ?_, ?_⟩
  · rw [← covers, answer_eq]
    split_ifs with covered <;> simp [covered]
  · intro credential granted
    rw [answer_eq] at granted
    split_ifs at granted
    exact ⟨_, (Except.ok.inj granted).symm⟩
  · intro error refused
    rw [answer_eq] at refused
    split_ifs at refused
    exact (Except.error.inj refused).symm
  · intro names same
    obtain ⟨others, othersCover, other_eq⟩ :=
      by_names names fun name name_mem => known name ((same name).mp name_mem)
    have agree : others.contains failures = trusted.contains failures := by
      rw [Bool.eq_iff_iff, othersCover, covers]
      simp only [CertificateFailures.namesBit_congr same]
    rw [other_eq, answer_eq, agree]
  · rintro ⟨bit, set, unnamed⟩
    have uncovered : ¬trusted.contains failures = true := by
      intro covered
      obtain ⟨known, entry_mem, -⟩ := covers.mp covered bit set
      have clear := unnamed _ entry_mem
      rw [← Bool.not_eq_true, CertificateFailures.getLsbD_named entry_mem] at clear
      exact clear rfl
    rw [answer_eq, if_neg uncovered]

/-- A home with a file of awkward settings. -/
def awkwardHome : FileSystem :=
  stateAfter (awkward.save ⟨"svn.toml"⟩) bareHome

/-- Awkward settings trust a certificate that has expired and whose issuer is unknown, but no failure besides
these. -/
theorem trusts_named_failures_of_awkward :
    load awkwardHome ⟨"svn.toml"⟩ = .ok awkward ∧
      (∀ bit, (CertificateFailures.expired.union .unknownIssuer).mask.getLsbD bit = true →
        CertificateFailures.NamesBit awkward.auth.trustedFailures bit) ∧
      awkward.answerTo default "realm" () (CertificateFailures.expired.union ⟨0x10⟩) =
        .error (.noCredential .serverTrust "realm") := by
  have loaded : load awkwardHome ⟨"svn.toml"⟩ = .ok awkward := by decide +kernel
  refine ⟨loaded, ?_, ?_⟩
  · have granted : awkward.answerTo default "realm" () (CertificateFailures.expired.union .unknownIssuer) =
        .ok (.serverTrust (some ⟨0xA⟩) true) := by
      decide +kernel
    exact (trusts_named_failures loaded default "realm" () _).1.mp ⟨_, granted⟩
  · obtain ⟨-, -, -, -, unnamed⟩ :=
      trusts_named_failures loaded default "realm" () (CertificateFailures.expired.union ⟨0x10⟩)
    exact unnamed ⟨4, by decide, by decide⟩

end Settings

end Checkout
