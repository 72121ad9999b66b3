import Checkout.Proofs.Auth.Resolution
import Mathlib.Data.List.Basic

/-!
# Remembered credentials

Credentials share one map with the parameters, each under a key made of its kind and realm. No other kind
and realm has the same key, whatever the realm is, and a key that is not reserved never is one. So a
credential that is remembered stays so whatever is done for other kinds and realms, until it is forgotten.
-/

namespace Checkout

variable {σ : Type}

namespace ParameterKey

/-- The key belongs to the registry, which keeps remembered credentials under such keys. -/
def IsReserved (key : String) : Prop :=
  ∃ rest, key = reserved ++ rest

theorem isReserved_remembered (kind : CredentialKind) (realm : String) :
    IsReserved (remembered kind realm) :=
  ⟨kind.name ++ ":" ++ realm, by simp [remembered, String.append_assoc]⟩

/-- The keys with a meaning to providers are not reserved. -/
theorem not_isReserved_of_mem_wellKnown {key : String} (known : key ∈ wellKnown) :
    ¬IsReserved key := by
  have unlike : ∀ key ∈ wellKnown, reserved.toList.isPrefixOf key.toList = false := by decide
  rintro ⟨rest, rfl⟩
  have starts : reserved.toList.isPrefixOf (reserved ++ rest).toList = true := by
    rw [List.isPrefixOf_iff_prefix, String.toList_append]
    exact List.prefix_append _ _
  rw [unlike _ known] at starts
  exact Bool.false_ne_true starts

theorem toList_remembered (kind : CredentialKind) (realm : String) :
    (remembered kind realm).toList =
      reserved.toList ++ (kind.name.toList ++ ':' :: realm.toList) := by
  simp [remembered]

theorem colon_notMem_name (kind : CredentialKind) : ':' ∉ kind.name.toList := by
  cases kind <;> decide

theorem kind_eq_of_name_eq {kind other : CredentialKind} (same : kind.name = other.name) :
    kind = other := by
  cases kind <;> cases other <;> first | rfl | exact absurd same (by decide)

theorem append_colon_inj {front other back rest : List Char} (free : ':' ∉ front)
    (otherFree : ':' ∉ other) (same : front ++ ':' :: back = other ++ ':' :: rest) :
    front = other ∧ back = rest := by
  induction front generalizing other with
  | nil =>
      cases other with
      | nil => exact ⟨rfl, (List.cons.inj same).2⟩
      | cons char chars =>
          have first := (List.cons.inj same).1
          exact absurd (first ▸ List.mem_cons_self) otherFree
  | cons char chars ih =>
      cases other with
      | nil =>
          have first := (List.cons.inj same).1
          exact absurd (first ▸ List.mem_cons_self) free
      | cons char' chars' =>
          rcases List.cons.inj same with ⟨rfl, later⟩
          rw [List.mem_cons, not_or] at free otherFree
          rcases ih free.2 otherFree.2 later with ⟨rfl, rfl⟩
          exact ⟨rfl, rfl⟩

/-- The name of a kind has no colon, so the first colon behind the reserved part of a key ends it. -/
theorem remembered_inj {kind other : CredentialKind} {realm elsewhere : String} :
    remembered kind realm = remembered other elsewhere ↔ kind = other ∧ realm = elsewhere := by
  constructor
  · intro same
    have lists := congrArg String.toList same
    rw [toList_remembered, toList_remembered, List.append_cancel_left_eq] at lists
    rcases append_colon_inj (colon_notMem_name kind) (colon_notMem_name other) lists with
      ⟨names, realms⟩
    exact ⟨kind_eq_of_name_eq (String.toList_injective names), String.toList_injective realms⟩
  · rintro ⟨rfl, rfl⟩
    rfl

end ParameterKey

/-! ## What is remembered -/

namespace Parameters

variable {parameters others : Parameters} {kind other : CredentialKind} {realm elsewhere key : String}

/-- What is remembered depends on what is under the key for the kind and realm. -/
theorem remembered?_congr {left right : Parameters}
    (same : left.get? (ParameterKey.remembered kind realm) =
      right.get? (ParameterKey.remembered kind realm)) :
    left.remembered? kind realm = right.remembered? kind realm := by
  rw [remembered?, remembered?, same]

theorem remembered?_set_self (parameters : Parameters) (kind : CredentialKind) (realm : String)
    (credential : Credential) :
    (parameters.set (ParameterKey.remembered kind realm) (.credential credential)).remembered?
      kind realm = some credential := by
  simp [remembered?]

theorem remembered?_set_of_ne {value : Parameter}
    (apart : key ≠ ParameterKey.remembered kind realm) :
    (parameters.set key value).remembered? kind realm = parameters.remembered? kind realm := by
  apply remembered?_congr
  rw [get?_set, if_neg apart.symm]

theorem remembered?_erase_of_ne (apart : key ≠ ParameterKey.remembered kind realm) :
    (parameters.erase key).remembered? kind realm = parameters.remembered? kind realm := by
  apply remembered?_congr
  rw [get?_erase, if_neg apart.symm]

theorem remembered?_merge_of_ne
    (apart : ∀ entry ∈ others.entries, entry.1 ≠ ParameterKey.remembered kind realm) :
    (parameters.merge others).remembered? kind realm = parameters.remembered? kind realm := by
  rcases others with ⟨entries⟩
  simp only [merge] at apart ⊢
  induction entries with
  | nil => rfl
  | cons entry rest ih =>
      rw [List.foldr_cons, remembered?_set_of_ne (apart entry List.mem_cons_self)]
      exact ih fun later later_mem => apart later (List.mem_cons_of_mem _ later_mem)

theorem erase_erase (parameters : Parameters) (key : String) :
    (parameters.erase key).erase key = parameters.erase key := by
  simp [erase]

end Parameters

namespace Registry

/-! ## Operations -/

/-- An operation on a registry. -/
inductive Operation (σ : Type) where
  | register (provider : Provider σ)
  | resolve (environment : Environment) (kind : CredentialKind) (realm : String)
  | forget (kind : CredentialKind) (realm : String)
  | setParameter (key : String) (value : Parameter)
  | updateParameters (parameters : Parameters)
  /-- The caller changes what its callbacks keep. -/
  | aside (change : σ → σ)

namespace Operation

/-- The registry and what the caller's callbacks keep, after an operation. -/
def apply (state : Registry σ × σ) : Operation σ → Registry σ × σ
  | register provider => (state.1.register provider, state.2)
  | resolve environment kind realm =>
      let ((_, registry), caller) := state.1.resolve environment kind realm state.2
      (registry, caller)
  | forget kind realm => ((state.1.forget kind realm).2, state.2)
  | setParameter key value => (state.1.setParameter key value, state.2)
  | updateParameters parameters => (state.1.updateParameters parameters, state.2)
  | aside change => (state.1, change state.2)

/-- The operation forgets nothing for a kind and realm, and sets no reserved parameter. -/
def Spares (kind : CredentialKind) (realm : String) : Operation σ → Prop
  | forget other elsewhere => (other, elsewhere) ≠ (kind, realm)
  | setParameter key _ => ¬ParameterKey.IsReserved key
  | updateParameters parameters =>
      ∀ entry ∈ parameters.entries, ¬ParameterKey.IsReserved entry.1
  | register _ | resolve _ _ _ | aside _ => True

end Operation

variable {registry : Registry σ} {environment : Environment} {kind other : CredentialKind}
  {realm elsewhere : String} {caller : σ} {credential : Credential}

theorem ne_remembered_of_not_isReserved {key : String} (free : ¬ParameterKey.IsReserved key) :
    key ≠ ParameterKey.remembered kind realm := by
  rintro rfl
  exact free (ParameterKey.isReserved_remembered kind realm)

/-- Parameters that are not reserved change nothing that is remembered. -/
theorem remembered?_setParameter {key : String} (free : ¬ParameterKey.IsReserved key)
    (registry : Registry σ) (value : Parameter) :
    (registry.setParameter key value).parameters.remembered? kind realm =
      registry.parameters.remembered? kind realm :=
  Parameters.remembered?_set_of_ne (ne_remembered_of_not_isReserved free)

theorem remembered?_updateParameters {parameters : Parameters}
    (free : ∀ entry ∈ parameters.entries, ¬ParameterKey.IsReserved entry.1)
    (registry : Registry σ) :
    (registry.updateParameters parameters).parameters.remembered? kind realm =
      registry.parameters.remembered? kind realm := by
  apply Parameters.remembered?_merge_of_ne
  intro entry entry_mem
  exact ne_remembered_of_not_isReserved (free entry entry_mem)

/-- Resolving for another kind or realm leaves what is remembered alone. -/
theorem remembered?_resolve_of_ne (registry : Registry σ) (environment : Environment) (caller : σ)
    (apart : (other, elsewhere) ≠ (kind, realm)) :
    (registry.resolve environment other elsewhere caller).1.2.parameters.remembered? kind realm =
      registry.parameters.remembered? kind realm := by
  rw [registry_resolve]
  split
  · split
    · apply Parameters.remembered?_set_of_ne
      intro same
      rw [ParameterKey.remembered_inj] at same
      exact apart (Prod.ext same.1 same.2)
    · rfl
  · rfl

theorem resolves_resolve (registry : Registry σ) (environment : Environment) (kind : CredentialKind)
    (realm : String) (caller : σ) :
    Resolves environment kind realm registry caller
      (registry.resolve environment kind realm caller).1.1
      (registry.resolve environment kind realm caller).2 :=
  resolves_iff.mpr ⟨rfl, rfl⟩

/-- What is remembered is handed out, and nothing changes. -/
theorem resolve_of_remembered (remembered : registry.parameters.remembered? kind realm =
    some credential) (environment : Environment) (caller : σ) :
    registry.resolve environment kind realm caller = ((.ok credential, registry), caller) := by
  rw [resolve_apply, remembered]

/-- If something is remembered after a credential was handed out, it is that credential. -/
theorem remembered?_of_resolved {after : Registry σ} {last : σ}
    (resolved : registry.resolve environment kind realm caller = ((.ok credential, after), last))
    (stored : (after.parameters.remembered? kind realm).isSome = true) :
    after.parameters.remembered? kind realm = some credential := by
  cases remembered : registry.parameters.remembered? kind realm with
  | some earlier =>
      rw [resolve_of_remembered remembered] at resolved
      cases resolved
      exact remembered
  | none =>
      have after_eq := registry_resolve registry environment kind realm caller
      simp only [resolved] at after_eq
      split at after_eq
      · rw [after_eq]
        exact Parameters.remembered?_set_self registry.parameters kind realm credential
      · rw [after_eq, remembered] at stored
        exact absurd stored Bool.false_ne_true

theorem remembered?_forget_self (registry : Registry σ) (kind : CredentialKind) (realm : String) :
    (registry.forget kind realm).2.parameters.remembered? kind realm = none := by
  simp [forget, Parameters.remembered?]

/-- Forgetting for another kind or realm leaves what is remembered alone. -/
theorem remembered?_forget_of_ne (registry : Registry σ) (apart : (other, elsewhere) ≠ (kind, realm)) :
    (registry.forget other elsewhere).2.parameters.remembered? kind realm =
      registry.parameters.remembered? kind realm := by
  apply Parameters.remembered?_erase_of_ne
  intro same
  rw [ParameterKey.remembered_inj] at same
  exact apart (Prod.ext same.1 same.2)

/-- An operation that spares a remembered credential leaves it remembered. -/
theorem Operation.Spares.remembered? {operation : Operation σ} (spares : operation.Spares kind realm)
    {state : Registry σ × σ} (remembered : state.1.parameters.remembered? kind realm = some credential) :
    (operation.apply state).1.parameters.remembered? kind realm = some credential := by
  cases operation with
  | register provider => exact remembered
  | aside change => exact remembered
  | resolve environment other elsewhere =>
      by_cases same : (other, elsewhere) = (kind, realm)
      · cases same
        simp only [apply, resolve_of_remembered remembered]
        exact remembered
      · rw [← remembered]
        exact remembered?_resolve_of_ne state.1 environment state.2 same
  | forget other elsewhere =>
      rw [← remembered]
      exact remembered?_forget_of_ne state.1 spares
  | setParameter key value =>
      rw [← remembered]
      exact remembered?_setParameter spares state.1 value
  | updateParameters parameters =>
      rw [← remembered]
      exact remembered?_updateParameters spares state.1

/-- So does any series of such operations. -/
theorem remembered?_foldl {operations : List (Operation σ)}
    (spare : ∀ operation ∈ operations, operation.Spares kind realm) {state : Registry σ × σ}
    (remembered : state.1.parameters.remembered? kind realm = some credential) :
    (operations.foldl Operation.apply state).1.parameters.remembered? kind realm =
      some credential := by
  induction operations generalizing state with
  | nil => exact remembered
  | cons operation rest ih =>
      rw [List.foldl_cons]
      apply ih
      · intro later later_mem
        exact spare later (List.mem_cons_of_mem _ later_mem)
      · exact (spare operation List.mem_cons_self).remembered? remembered

/-! ## Forgetting -/

/-- What was remembered is forgotten once, and the chain of providers is asked again. -/
theorem forget_of_remembered (remembered : registry.parameters.remembered? kind realm =
    some credential) :
    (registry.forget kind realm).1 = true ∧
      (registry.forget kind realm).2.forget kind realm = (false, (registry.forget kind realm).2) ∧
      (registry.forget kind realm).2.parameters.remembered? kind realm = none := by
  refine ⟨?_, ?_, ?_⟩
  · rw [Parameters.remembered?] at remembered
    split at remembered
    · rename_i found
      simp [forget, found]
    · simp at remembered
  · simp [forget, Parameters.erase_erase]
  · exact remembered?_forget_self registry kind realm

/--
A credential that was handed out and remembered is handed out again, and nobody is asked for it, after any
operations that do not forget it and set no reserved parameter. It can be forgotten once; then the
providers are asked again. What is done for one kind and realm never changes what is remembered for another.
-/
theorem remembered_until_forgotten {after : Registry σ} {last : σ}
    (resolved : registry.resolve environment kind realm caller = ((.ok credential, after), last))
    (stored : (after.parameters.remembered? kind realm).isSome = true)
    {operations : List (Operation σ)}
    (spare : ∀ operation ∈ operations, operation.Spares kind realm) :
    (∃ now forgotten : Registry σ,
      now = (operations.foldl Operation.apply (after, last)).1 ∧
      (∀ environment caller,
        now.resolve environment kind realm caller = ((.ok credential, now), caller)) ∧
      now.forget kind realm = (true, forgotten) ∧
      forgotten.forget kind realm = (false, forgotten) ∧
      ∀ environment caller, ChainRuns environment kind realm forgotten caller
        (forgotten.resolve environment kind realm caller).1.1
        (forgotten.resolve environment kind realm caller).2) ∧
    ∀ (registry : Registry σ) (kind other : CredentialKind) (realm elsewhere : String),
      (other, elsewhere) ≠ (kind, realm) →
      (∀ environment caller,
        (registry.resolve environment other elsewhere caller).1.2.parameters.remembered? kind realm =
          registry.parameters.remembered? kind realm) ∧
      (registry.forget other elsewhere).2.parameters.remembered? kind realm =
        registry.parameters.remembered? kind realm := by
  constructor
  · have kept : (after, last).1.parameters.remembered? kind realm = some credential :=
      remembered?_of_resolved resolved stored
    have remembered := remembered?_foldl spare kept
    rcases forget_of_remembered remembered with ⟨told, again, gone⟩
    refine ⟨_, _, rfl, ?_, Prod.ext told rfl, again, ?_⟩
    · intro environment caller
      exact resolve_of_remembered remembered environment caller
    · intro environment caller
      have resolves := resolves_resolve
        ((operations.foldl Operation.apply (after, last)).1.forget kind realm).2
        environment kind realm caller
      rw [Resolves, gone] at resolves
      exact resolves
  · intro registry kind other realm elsewhere apart
    refine ⟨?_, remembered?_forget_of_ne registry apart⟩
    intro environment caller
    exact remembered?_resolve_of_ne registry environment caller apart

/-- A provider that counts how often it is asked. -/
def countingProvider : Provider Nat where
  kind := .username
  source := .static (.custom fun realm _ calls => (some (.username realm true), calls + 1))

/-- The realm `a:b` is another one than `a`, and switching remembering off forgets nothing. -/
theorem remembered_until_forgotten_of_colon :
    ∃ (after now : Registry Nat),
      ({ providers := [countingProvider] } : Registry Nat).resolve default .username "a:b" 0 =
        ((.ok (.username "a:b" true), after), 1) ∧
      now = ([Operation.setParameter ParameterKey.noAuthCache (.flag true),
        .forget .username "a"].foldl Operation.apply (after, 1)).1 ∧
      now.resolve default .username "a:b" 1 = ((.ok (.username "a:b" true), now), 1) := by
  let registry : Registry Nat := { providers := [countingProvider] }
  have resolved : registry.resolve default .username "a:b" 0 =
      ((.ok (.username "a:b" true), (registry.resolve default .username "a:b" 0).1.2), 1) := rfl
  have spare : ∀ operation ∈ ([.setParameter ParameterKey.noAuthCache (.flag true),
      .forget .username "a"] : List (Operation Nat)), operation.Spares .username "a:b" := by
    intro operation operation_mem
    simp only [List.mem_cons, List.not_mem_nil, or_false] at operation_mem
    rcases operation_mem with rfl | rfl
    · exact ParameterKey.not_isReserved_of_mem_wellKnown (by decide)
    · exact fun same => absurd (congrArg Prod.snd same) (by decide)
  rcases (remembered_until_forgotten resolved rfl spare).1 with ⟨now, forgotten, rfl, again, -⟩
  exact ⟨_, _, resolved, rfl, again default 1⟩

end Registry

end Checkout
