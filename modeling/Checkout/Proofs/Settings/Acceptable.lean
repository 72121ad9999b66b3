import Checkout.Proofs.Credential.Names
import Checkout.Session

/-!
# Acceptable settings

What is asked of settings, said without the order in which it is checked: `check` accepts them if and only if
they are acceptable. From acceptable settings a session can always be started.
-/

namespace Checkout

namespace AuthSettings

variable (settings : AuthSettings)

/-- What is asked of the settings of authentication. -/
structure Acceptable : Prop where
  /-- A user name shows something. -/
  username : ∀ username, settings.username = some username →
    ∃ char ∈ username.toList, isBlank char = false
  /-- A client certificate is in a file. -/
  certificate : ∀ file, settings.clientCertificate = some file → file.text ≠ ""
  /-- Every trusted failure is known. -/
  trusted : ∀ name ∈ settings.trustedFailures, CertificateFailures.IsKnown name

/-- The failures of some names are put together, or one of the names is refused. -/
theorem trusted_cases :
    (∃ mask, settings.trusted = .ok mask) ∧
        (∀ name ∈ settings.trustedFailures, CertificateFailures.IsKnown name) ∨
      ∃ name ∈ settings.trustedFailures, settings.trusted = .error (unknownFailure name) ∧
        ¬CertificateFailures.IsKnown name := by
  rw [trusted]
  generalize CertificateFailures.empty = mask
  induction settings.trustedFailures generalizing mask with
  | nil => exact .inl ⟨⟨mask, rfl⟩, by simp⟩
  | cons name names ih =>
      rw [List.foldlM_cons]
      cases found : CertificateFailures.ofName? name with
      | none =>
          exact .inr ⟨name, List.mem_cons_self, rfl, CertificateFailures.ofName?_eq_none_iff.mp found⟩
      | some failure =>
          have known : CertificateFailures.IsKnown name := by
            by_contra unknown
            rw [CertificateFailures.ofName?_eq_none_iff.mpr unknown] at found
            contradiction
          rcases ih (mask.union failure) with ⟨folded, others⟩ | ⟨other, other_mem, refused, unknown⟩
          · exact .inl ⟨folded, List.forall_mem_cons.mpr ⟨known, others⟩⟩
          · exact .inr ⟨other, List.mem_cons_of_mem _ other_mem, refused, unknown⟩

open Classical in
/-- A guard on a value that may be missing stops what follows if the value is there and unfit. -/
theorem guard_eq {α : Type} (value : Option α) (unfit : α → Prop) [DecidablePred unfit] (error : Error)
    (rest : Except Error Unit) :
    (do
      if let some item := value then
        if unfit item then
          throw error
      rest) = if ∃ item, value = some item ∧ unfit item then .error error else rest := by
  cases value with
  | none => simp
  | some item =>
      by_cases refused : unfit item
      · rw [if_pos ⟨item, rfl, refused⟩]
        simp only [if_pos refused]
        rfl
      · have fit : ¬∃ other, some item = some other ∧ unfit other := by simpa using refused
        rw [if_neg fit]
        simp only [if_neg refused]

open Classical in
theorem check_eq : settings.check =
    if ∃ username, settings.username = some username ∧ trimBlank username = "" then
      .error (.invalidSettings "auth.username cannot be empty")
    else if ∃ file, settings.clientCertificate = some file ∧ file.text = "" then
      .error (.invalidSettings "auth.ssl_client_cert_file cannot be empty")
    else discard settings.trusted := by
  rw [← guard_eq, ← guard_eq, check]
  cases settings.username <;> cases settings.clientCertificate <;> rfl

/-- Settings are accepted if and only if they are acceptable; otherwise they are refused as settings. -/
theorem check_cases :
    settings.check = .ok () ∧ settings.Acceptable ∨
      ∃ message, settings.check = .error (.invalidSettings message) ∧ ¬settings.Acceptable := by
  rw [check_eq]
  -- Each guard that stops names the part of `Acceptable` that fails.
  split_ifs with blank unnamed
  · obtain ⟨username, isSet, empty⟩ := blank
    refine .inr ⟨_, rfl, fun acceptable => ?_⟩
    obtain ⟨char, char_mem, visible⟩ := acceptable.username _ isSet
    rw [(trimBlank_eq_empty_iff username).mp empty char char_mem] at visible
    contradiction
  · obtain ⟨file, isSet, empty⟩ := unnamed
    exact .inr ⟨_, rfl, fun acceptable => acceptable.certificate _ isSet empty⟩
  · rcases settings.trusted_cases with ⟨⟨mask, folded⟩, known⟩ | ⟨name, name_mem, refused, unknown⟩
    · refine .inl ⟨by rw [folded]; rfl, ?_, ?_, known⟩
      · intro username isSet
        by_contra hidden
        push Not at hidden
        exact blank ⟨username, isSet, (trimBlank_eq_empty_iff username).mpr (by simpa using hidden)⟩
      · intro file isSet empty
        exact unnamed ⟨file, isSet, empty⟩
    · exact .inr ⟨_, by rw [refused]; rfl, fun acceptable => unknown (acceptable.trusted name name_mem)⟩

end AuthSettings

namespace Settings

variable (settings : Settings)

/-- What is asked of settings. -/
structure Acceptable : Prop where
  auth : settings.auth.Acceptable
  /-- A prompt is not repeated without end. -/
  retryLimit : settings.session.retryLimit.toNat ≤ 10

theorem check_cases :
    settings.check = .ok () ∧ settings.Acceptable ∨
      ∃ message, settings.check = .error (.invalidSettings message) ∧ ¬settings.Acceptable := by
  simp only [check, bind, Except.bind]
  rcases settings.auth.check_cases with ⟨accepted, auth⟩ | ⟨message, refused, unfit⟩
  · rw [accepted]
    by_cases long : SessionSettings.maxRetryLimit < settings.session.retryLimit.toNat
    · refine .inr ⟨_, by simp only [SessionSettings.check, if_pos long]; rfl, fun acceptable => ?_⟩
      exact absurd acceptable.retryLimit (Nat.not_le.mpr long)
    · exact .inl ⟨by simp only [SessionSettings.check, if_neg long], auth, Nat.not_lt.mp long⟩
  · rw [refused]
    exact .inr ⟨message, rfl, fun acceptable => unfit acceptable.auth⟩

theorem check_eq_ok_iff : settings.check = .ok () ↔ settings.Acceptable := by
  rcases settings.check_cases with ⟨accepted, acceptable⟩ | ⟨message, refused, unfit⟩
  · exact iff_of_true accepted acceptable
  · exact iff_of_false (by simp [refused]) unfit

variable {settings : Settings}

theorem Acceptable.exists_parameters (acceptable : settings.Acceptable) :
    ∃ parameters, settings.parameters = .ok parameters := by
  rcases settings.auth.trusted_cases with ⟨⟨mask, folded⟩, -⟩ | ⟨name, name_mem, -, unknown⟩
  · simp only [parameters, folded]
    exact ⟨_, rfl⟩
  · exact absurd (acceptable.auth.trusted name name_mem) unknown

theorem Acceptable.exists_session (acceptable : settings.Acceptable) (σ : Type) :
    ∃ session : Session σ, Session.ofSettings settings = .ok session := by
  obtain ⟨parameters, found⟩ := acceptable.exists_parameters
  rw [Session.ofSettings, found]
  exact ⟨_, rfl⟩

end Settings

end Checkout
