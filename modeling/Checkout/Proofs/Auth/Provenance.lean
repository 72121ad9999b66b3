import Checkout.Proofs.Auth.Remembered
import Mathlib.Data.List.Induction

/-!
# Where credentials come from

Callbacks may come up with any record at all: of another kind, half empty, or marked for remembering where
that is forbidden. Whatever they do, a registry hands out complete records of the kind in demand only, and
what it remembers was granted when remembering was allowed. The step lemma says which operation can make a
credential a remembered one; the rest follows from it by induction on the operations.
-/

namespace Checkout

variable {σ : Type}

/-! ## What sources produce -/

section Sources

variable {environment : Environment} {realm : String} {parameters : Parameters} {caller last : σ}
  {credential : Credential}

theorem Credential.maySave_restrict (forbidden : parameters.maySave = false)
    (credential : Credential) : (credential.restrict parameters).maySave = false := by
  rw [restrict, if_neg (by simp [forbidden]), maySave_withMaySave]

theorem PromptSource.attempt_succ (source : PromptSource σ) (realm : String) (parameters : Parameters)
    (failed remaining : Nat) (caller : σ) :
    source.attempt realm parameters failed (remaining + 1) caller =
      match source.prompt (source.context realm parameters failed)
          (.empty source.kind parameters.maySave) caller with
      | (.error error, left) => (.error error, left)
      | (.ok credential, left) =>
          if credential.kind ≠ source.kind then
            (.error (.invalidArgument ("prompt for " ++ source.kind.name ++ " returned a " ++
              credential.kind.name ++ " credential")), left)
          else if credential.isComplete then
            (.ok (some (credential.restrict parameters)), left)
          else source.attempt realm parameters (failed + 1) remaining left := by
  simp only [attempt, bind, StateT.bind]
  rcases source.prompt (source.context realm parameters failed)
    (.empty source.kind parameters.maySave) caller with ⟨_ | credential, left⟩
  · rfl
  · by_cases kinds : credential.kind = source.kind
    · cases complete : credential.isComplete
      · simp only [kinds, complete, ne_eq, not_true_eq_false, if_false, Bool.false_eq_true]
      · simp only [kinds, complete, ne_eq, not_true_eq_false, if_false, if_true]
        rfl
    · simp only [kinds, ne_eq, not_false_eq_true, if_true]
      rfl

/-- A prompt's credential went through the parameters' say on remembering, whatever record the callback
returned. -/
theorem PromptSource.restricted_of_attempt {source : PromptSource σ} {failed remaining : Nat}
    (asked : source.attempt realm parameters failed remaining caller =
      (.ok (some credential), last)) :
    ∃ record : Credential, credential = record.restrict parameters := by
  induction remaining generalizing failed caller with
  | zero =>
      have outcome := congrArg Prod.fst asked
      cases outcome
  | succ remaining ih =>
      rw [attempt_succ] at asked
      split at asked
      · cases asked
      · rename_i record left _
        split_ifs at asked
        · cases asked
        · cases asked
          exact ⟨record, rfl⟩
        · exact ih asked

theorem StaticSource.produce_apply (source : StaticSource σ) (environment : Environment)
    (realm : String) (parameters : Parameters) (caller : σ) :
    source.produce environment realm parameters caller =
      ((source.derive environment realm parameters caller).1.map (Credential.restrict parameters),
        (source.derive environment realm parameters caller).2) :=
  rfl

theorem Provider.restricted_of_raw {provider : Provider σ}
    (ran : provider.raw environment realm parameters caller = (.ok (some credential), last)) :
    ∃ record : Credential, credential = record.restrict parameters := by
  cases source_eq : provider.source with
  | static source =>
      simp only [raw, source_eq, StaticSource.produce_apply] at ran
      rcases Option.map_eq_some_iff.mp (Except.ok.inj (congrArg Prod.fst ran)) with
        ⟨record, -, restricted⟩
      exact ⟨record, restricted.symm⟩
  | prompt source =>
      simp only [raw, source_eq, PromptSource.produce] at ran
      split at ran
      · cases ran
      · exact PromptSource.restricted_of_attempt ran

end Sources

namespace Registry

variable {registry : Registry σ} {environment : Environment} {kind : CredentialKind} {realm : String}
  {caller : σ} {credential : Credential}

/-- A credential that was not remembered is a usable one of the kind in demand, and not to be remembered
where the parameters forbid it. -/
theorem granted_of_resolve (fresh : registry.parameters.remembered? kind realm = none)
    (granted : (registry.resolve environment kind realm caller).1.1 = .ok credential) :
    Usable kind credential ∧
      (registry.parameters.maySave = false → credential.maySave = false) := by
  have resolves := resolves_resolve registry environment kind realm caller
  rw [Resolves, fresh, granted] at resolves
  cases resolves with
  | granted chain before ran usable =>
      rcases Provider.restricted_of_raw ran with ⟨record, rfl⟩
      exact ⟨usable, fun forbidden => Credential.maySave_restrict forbidden record⟩

theorem Stores.allowed (stores : registry.Stores kind realm credential) :
    registry.parameters.maySave = true := by
  simpa [Parameters.maySave, Parameters.flag] using stores.2.2

/-! ## What is remembered after an operation -/

def Operation.SparesReserved : Operation σ → Prop
  | setParameter key _ => ¬ParameterKey.IsReserved key
  | updateParameters parameters =>
      ∀ entry ∈ parameters.entries, ¬ParameterKey.IsReserved entry.1
  | register _ | resolve _ _ _ | forget _ _ | aside _ => True

theorem Operation.apply_resolve (state : Registry σ × σ) (environment : Environment)
    (kind : CredentialKind) (realm : String) :
    (resolve environment kind realm).apply state =
      ((state.1.resolve environment kind realm state.2).1.2,
        (state.1.resolve environment kind realm state.2).2) :=
  rfl

/-- A credential that is remembered after an operation was remembered before, or the operation handed it
out when it might be remembered. -/
theorem Operation.SparesReserved.remembered?_apply {operation : Operation σ}
    (spares : operation.SparesReserved) {state : Registry σ × σ}
    (remembered : (operation.apply state).1.parameters.remembered? kind realm = some credential) :
    state.1.parameters.remembered? kind realm = some credential ∨
      ∃ environment, operation = .resolve environment kind realm ∧
        (state.1.resolve environment kind realm state.2).1.1 = .ok credential ∧
        state.1.Stores kind realm credential := by
  cases operation with
  | register provider => exact .inl remembered
  | aside change => exact .inl remembered
  | resolve environment other elsewhere =>
      by_cases same : (other, elsewhere) = (kind, realm)
      · cases same
        rw [apply_resolve, registry_resolve] at remembered
        split at remembered
        · rename_i handed outcome
          split_ifs at remembered with stores
          · rw [parametersWith, Parameters.remembered?_set_self] at remembered
            cases remembered
            exact .inr ⟨environment, rfl, outcome, stores⟩
          · exact .inl remembered
        · exact .inl remembered
      · left
        rw [← remembered]
        exact (remembered?_resolve_of_ne state.1 environment state.2 same).symm
  | forget other elsewhere =>
      by_cases same : (other, elsewhere) = (kind, realm)
      · cases same
        rw [apply, remembered?_forget_self] at remembered
        cases remembered
      · left
        rw [← remembered]
        exact (remembered?_forget_of_ne state.1 same).symm
  | setParameter key value =>
      left
      rw [← remembered]
      exact (remembered?_setParameter spares state.1 value).symm
  | updateParameters parameters =>
      left
      rw [← remembered]
      exact (remembered?_updateParameters spares state.1).symm

/-! ## What is remembered after a run -/

/--
One of some operations on a state handed a credential out and stored it: nothing was remembered before it,
remembering was allowed, and the credential has been remembered ever since.
-/
inductive StoredDuring (start : Registry σ × σ) (kind : CredentialKind) (realm : String)
    (credential : Credential) : List (Operation σ) → Prop where
  | intro (earlier later : List (Operation σ)) (environment : Environment)
      (fresh : (earlier.foldl Operation.apply start).1.parameters.remembered? kind realm = none)
      (allowed : (earlier.foldl Operation.apply start).1.parameters.maySave = true)
      (granted : ((earlier.foldl Operation.apply start).1.resolve environment kind realm
        (earlier.foldl Operation.apply start).2).1.1 = .ok credential)
      (marked : credential.maySave = true)
      (since : ∀ part rest, later = part ++ rest →
        ((earlier ++ .resolve environment kind realm :: part).foldl Operation.apply
          start).1.parameters.remembered? kind realm = some credential) :
      StoredDuring start kind realm credential (earlier ++ .resolve environment kind realm :: later)

/-- A credential that comes to be remembered in the course of some operations was stored by one of them. -/
theorem storedDuring_of_remembered {start : Registry σ × σ} {operations : List (Operation σ)}
    (spare : ∀ operation ∈ operations, operation.SparesReserved)
    (unknown : start.1.parameters.remembered? kind realm = none)
    (remembered : (operations.foldl Operation.apply start).1.parameters.remembered? kind realm =
      some credential) :
    StoredDuring start kind realm credential operations := by
  -- The operations grow at their end: the last one stored the credential, or found it remembered.
  induction operations using List.reverseRecOn with
  | nil => simp [unknown] at remembered
  | append_singleton front operation ih =>
      have spares : operation.SparesReserved := spare operation (by simp)
      have now := remembered
      rw [List.foldl_append, List.foldl_cons, List.foldl_nil] at now
      rcases spares.remembered?_apply now with before | ⟨environment, rfl, granted, stores⟩
      · rcases ih (fun other other_mem => spare other (by simp [other_mem])) before with
          ⟨earlier, later, environment, fresh, allowed, granted, marked, since⟩
        rw [List.append_assoc, List.cons_append] at remembered ⊢
        refine .intro earlier (later ++ [operation]) environment fresh allowed granted marked ?_
        intro part rest parts
        rcases List.eq_nil_or_concat rest with rfl | ⟨rest, last, rfl⟩
        · -- Nothing came after: it is remembered by what was assumed of the whole run.
          rw [List.append_nil] at parts
          rw [← parts]
          exact remembered
        · rw [List.concat_eq_append, ← List.append_assoc] at parts
          exact since part rest (List.append_inj_left' parts rfl)
      · refine .intro front [] environment stores.1 stores.allowed granted stores.2.1 ?_
        intro part rest parts
        rw [(List.append_eq_nil_iff.mp parts.symm).1]
        exact remembered

theorem remembered?_empty (kind : CredentialKind) (realm : String) :
    Parameters.empty.remembered? kind realm = none :=
  rfl

/--
However a new registry has been used, short of setting reserved parameters, and whatever its callbacks do:
every credential that it remembers is a complete one of its kind, marked for remembering, and was stored
when remembering was allowed; every credential that it hands out is a complete one of the kind in demand;
and one that it does not have remembered, while remembering is forbidden, is marked accordingly and leaves
the registry as it is.
-/
theorem credentials_accounted_for {operations : List (Operation σ)}
    (spare : ∀ operation ∈ operations, operation.SparesReserved) (caller : σ) :
    let state := operations.foldl Operation.apply (({} : Registry σ), caller)
    (∀ kind realm credential, state.1.parameters.remembered? kind realm = some credential →
      credential.kind = kind ∧ credential.isComplete = true ∧ credential.maySave = true ∧
        StoredDuring ({}, caller) kind realm credential operations) ∧
    (∀ environment kind realm credential,
      (state.1.resolve environment kind realm state.2).1.1 = .ok credential →
      credential.kind = kind ∧ credential.isComplete = true) ∧
    ∀ environment kind realm credential,
      state.1.parameters.get? ParameterKey.noAuthCache = some (.flag true) →
      state.1.parameters.remembered? kind realm = none →
      (state.1.resolve environment kind realm state.2).1.1 = .ok credential →
      credential.maySave = false ∧
        (state.1.resolve environment kind realm state.2).1.2 = state.1 := by
  intro state
  have stored : ∀ kind realm credential,
      state.1.parameters.remembered? kind realm = some credential →
      credential.kind = kind ∧ credential.isComplete = true ∧ credential.maySave = true ∧
        StoredDuring ({}, caller) kind realm credential operations := by
    intro kind realm credential remembered
    have during := storedDuring_of_remembered spare (remembered?_empty kind realm) remembered
    cases during with
    | intro earlier later environment fresh allowed granted marked since =>
        have usable := (granted_of_resolve fresh granted).1
        exact ⟨usable.kind_eq, usable.complete, marked,
          .intro earlier later environment fresh allowed granted marked since⟩
  refine ⟨stored, ?_, ?_⟩
  · intro environment kind realm credential granted
    cases remembered : state.1.parameters.remembered? kind realm with
    | some earlier =>
        rw [resolve_of_remembered remembered] at granted
        cases granted
        have known := stored kind realm credential remembered
        exact ⟨known.1, known.2.1⟩
    | none =>
        have usable := (granted_of_resolve remembered granted).1
        exact ⟨usable.kind_eq, usable.complete⟩
  · intro environment kind realm credential forbidden fresh granted
    have unmarked : credential.maySave = false := by
      apply (granted_of_resolve fresh granted).2
      simp [Parameters.maySave, Parameters.flag, forbidden]
    refine ⟨unmarked, ?_⟩
    rw [registry_resolve, granted]
    exact if_neg fun stores => stores.2.2 forbidden

/-- A prompt that returns a record of its own, marked for remembering, in place of the one it is given. -/
def replacingPrompt : Prompt Unit :=
  fun _ _ => pure (.ok (.simple "user" "" true))

/-- Remembering is forbidden before the first credential is in demand. -/
def guardedStart : List (Operation Unit) :=
  [.register (.prompting .simple 0 replacingPrompt),
    .setParameter ParameterKey.noAuthCache (.flag true)]

/-- A record that replaces the given one is not remembered either. -/
theorem credentials_accounted_for_of_replaced_record :
    ∃ registry : Registry Unit,
      registry = (guardedStart.foldl Operation.apply ({}, ())).1 ∧
      registry.resolve default .simple "realm" () =
        ((.ok (.simple "user" "" false), registry), ()) := by
  have spare : ∀ operation ∈ guardedStart, operation.SparesReserved := by
    intro operation operation_mem
    simp only [guardedStart, List.mem_cons, List.not_mem_nil, or_false] at operation_mem
    rcases operation_mem with rfl | rfl
    · trivial
    · exact ParameterKey.not_isReserved_of_mem_wellKnown (by decide)
  have kept := (credentials_accounted_for spare ()).2.2 default .simple "realm"
    (.simple "user" "" false) rfl rfl rfl
  exact ⟨_, rfl, Prod.ext (Prod.ext rfl kept.2) rfl⟩

end Registry

end Checkout
