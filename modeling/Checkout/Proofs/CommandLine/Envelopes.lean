import Checkout.Proofs.Json.Document
import Checkout.Report

/-!
# What reports hold

A report in JSON is a line with a record around the result or the error. Whoever reads it finds in it what the
command has put there: its name, whether it has succeeded, and its result or its error.
-/

namespace Checkout

theorem Error.exact_data_of_path {path : Path} {data : Data} (written : path.data = .ok data) :
    Json.Exact data := by
  rw [Path.data] at written
  split at written
  · cases written
    exact .text _
  · cases written

theorem EngineError.exact_data (failure : EngineError) : Json.Exact failure.data := by
  have exact_getD {α : Type} (value : Option α) {write : α → Data}
      (each : ∀ content, Json.Exact (write content)) :
      Json.Exact ((value.map write).getD .null) := by
    cases value with
    | none => exact .null
    | some content => exact each content
  refine .record ?_
  simp only [List.mem_cons, List.not_mem_nil, or_false]
  rintro member (rfl | rfl | rfl | rfl | rfl)
  · exact .integer _
  · exact exact_getD _ fun _ => .text _
  · exact exact_getD _ fun _ => .text _
  · exact exact_getD _ fun _ => .integer _
  · exact .text _

theorem Error.exact_details {error : Error} {details : Data} (told : error.details = .ok (some details)) :
    Json.Exact details := by
  cases error with
  | notWorkingCopy path | noLock path | alreadyClosed path | alreadyLocked path =>
      simp only [Error.details] at told
      split at told
      · rename_i written
        cases told
        exact .record (by simpa using exact_data_of_path written)
      · cases told
  | noCredential kind realm | promptExhausted kind realm attempts =>
      cases told
      refine .record ?_
      simp [Json.Exact.text, Json.Exact.integer]
  | engine failure =>
      cases told
      exact failure.exact_data
  | _ => cases told

namespace Report

/-- What a report in JSON has under a name. -/
def member? (out name : String) : Option Data :=
  match Json.parse? out with
  | some (.record members) => members.lookup name
  | _ => none

variable {command : String} {error : Error} {output : Output}

/-- An error in an envelope is a record with its text. -/
theorem exists_members {content : String × Data} (written : errorMember error = .ok content) :
    ∃ members, content = ("error", .record members) ∧ Json.Exact (.record members) ∧
      members.lookup "message" = some (.text error.message) := by
  cases told : error.details with
  | error panic => simp [errorMember, told] at written
  | ok details =>
      simp only [errorMember, told] at written
      cases written
      refine ⟨_, rfl, .record ?_, rfl⟩
      cases details with
      | none => simp [Json.Exact.text, Json.Exact.integer]
      | some details => simp [Json.Exact.text, Json.Exact.integer, Error.exact_details told]

theorem exact_envelope {status : String} {content : String × Data} (exact : Json.Exact content.2)
    (warnings nextSteps : List String) :
    Json.Exact (envelope command status content warnings nextSteps) := by
  have exact_texts (name : String) (texts : List String) :
      ∀ member ∈ textsMember name texts, Json.Exact member.2 := by
    cases texts with
    | nil => simp [textsMember]
    | cons text others =>
        simp only [textsMember, List.mem_singleton, forall_eq]
        refine .list fun item item_mem => ?_
        obtain ⟨text, -, rfl⟩ := List.mem_map.mp item_mem
        exact .text text
  refine .record fun member member_mem => ?_
  rw [List.mem_append, List.mem_append] at member_mem
  rcases member_mem with (own | warning) | step
  · simp only [List.mem_cons, List.not_mem_nil, or_false] at own
    rcases own with rfl | rfl | rfl | rfl
    · exact .text _
    · exact .text _
    · exact .text _
    · exact exact
  · exact exact_texts _ _ member warning
  · exact exact_texts _ _ member step

/-- Whoever reads an envelope finds the name of the command, the status and the content. -/
theorem member?_envelope (command status : String) {name : String} {data : Data} (exact : Json.Exact data)
    (apart : name ∉ ["schema_version", "command", "status"]) (warnings nextSteps : List String) :
    let out := Json.render (envelope command status (name, data) warnings nextSteps) ++ "\n"
    member? out "command" = some (.text command) ∧ member? out "status" = some (.text status) ∧
      member? out name = some data := by
  intro out
  have read : Json.parse? out = some (envelope command status (name, data) warnings nextSteps) :=
    (exact_envelope exact warnings nextSteps).parse?_render_feed
  simp only [List.mem_cons, List.not_mem_nil, or_false, not_or] at apart
  simp only [member?, read, envelope]
  refine ⟨rfl, rfl, ?_⟩
  simp [List.lookup_cons, beq_false_of_ne apart.1, beq_false_of_ne apart.2.1, beq_false_of_ne apart.2.2]

/-- An error as it is told: in an envelope on standard output, or in lines on standard error. -/
inductive TellsError (command : String) (error : Error) : Bool → Output → Prop
  | json {out : String} {members : List (String × Data)}
      (named : member? out "command" = some (.text command))
      (failed : member? out "status" = some (.text "error"))
      (content : member? out "error" = some (.record members))
      (message : members.lookup "message" = some (.text error.message)) :
      TellsError command error true { out }
  | lines (hint : String) :
      TellsError command error false { err := "error: " ++ error.message ++ "\n" ++ hint }

/-- An error is told in the form that is asked for, unless a program stops at its details. -/
theorem tellsError_failure {json : Bool} (reported : failure command error json = .ok output) :
    TellsError command error json output := by
  cases json with
  | false =>
      cases reported
      exact .lines _
  | true =>
      cases written : errorMember error with
      | error panic => simp [failure, written] at reported
      | ok content =>
          obtain ⟨members, rfl, exact, message⟩ := exists_members written
          have apart : "error" ∉ ["schema_version", "command", "status"] := by decide
          obtain ⟨named, failed, content⟩ := member?_envelope command "error" exact apart [] (nextSteps error)
          rw [failure, written] at reported
          cases reported
          exact .json named failed content message

theorem failure_eq_error_iff {json : Bool} {panic : Panic} :
    failure command error json = .error panic ↔ json = true ∧ error.details = .error panic := by
  cases json with
  | false => simp [failure, pure, Except.pure]
  | true => cases told : error.details <;> simp [failure, errorMember, told]

/-- The report of a result in JSON holds the result. -/
theorem member?_success {data : Data} (exact : Json.Exact data) (quiet : Bool) (human : Option HumanReport) :
    ∃ out, success ⟨true, quiet⟩ command (.ok data) human = .ok out ∧
      member? out "command" = some (.text command) ∧ member? out "status" = some (.text "success") ∧
      member? out "data" = some data :=
  ⟨_, rfl, member?_envelope command "success" exact (by decide) _ _⟩

end Report

end Checkout
