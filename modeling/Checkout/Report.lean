import Checkout.Error
import Checkout.Json.Printer

/-!
# Reports

A command ends in a report: of its result or of an error, as JSON for programs or as text for people.
-/

namespace Checkout

/-- What a command says to people about its result. -/
structure HumanReport where
  /-- The first line. -/
  header : String
  /-- Keys with their values; a value may be empty. -/
  summary : List (String × String) := []
  details : List String := []
  warnings : List String := []
  nextSteps : List String := []
  deriving DecidableEq, Repr

/-- How a command reports. -/
structure ReportOptions where
  /-- In JSON. -/
  json : Bool
  /-- Without a report of success for people. -/
  quiet : Bool
  deriving DecidableEq, Repr

/-- What is written to the two output streams. -/
structure Output where
  /-- To standard output. -/
  out : String := ""
  /-- To standard error. -/
  err : String := ""
  deriving DecidableEq, Repr

namespace HumanReport

/-- A line of the summary. -/
def summaryLine : String × String → String
  | (key, value) => if value = "" then "- " ++ key else "- " ++ key ++ ": " ++ value

/-- A titled section; an empty one is left out. -/
def sectionLines (title : String) : List String → List String
  | [] => []
  | lines => ["", title ++ ":"] ++ lines

/-- The lines of the text. -/
def lines (report : HumanReport) : List String :=
  let items (texts : List String) := texts.map fun text => "- " ++ text
  [report.header] ++ sectionLines "Summary" (report.summary.map summaryLine) ++
    sectionLines "Details" (items report.details) ++
    sectionLines "Warnings" (items report.warnings) ++
    sectionLines "Next steps" (items report.nextSteps)

/-- The text. -/
def text (report : HumanReport) : String :=
  String.intercalate "\n" report.lines

end HumanReport

namespace Report

/-- The version of the JSON form. -/
def schemaVersion : String := "svnctx.v1"

/-- Texts as a member of a record; none are left out. -/
def textsMember (name : String) : List String → List (String × Data)
  | [] => []
  | texts => [(name, .list (texts.map .text))]

/-- The record around a result or an error. -/
def envelope (command status : String) (content : String × Data) (warnings nextSteps : List String) :
    Data :=
  .record
    ([("schema_version", .text schemaVersion), ("command", .text command), ("status", .text status),
        content] ++
      textsMember "warnings" warnings ++ textsMember "next_steps" nextSteps)

/-- What standard output gets of a result. A result that cannot be written as JSON is only an error
where JSON is asked for. -/
def success (options : ReportOptions) (command : String) (data : Except Error Data)
    (human : Option HumanReport) : Except Error String :=
  if options.json then do
    let warnings := (human.map HumanReport.warnings).getD []
    let nextSteps := (human.map HumanReport.nextSteps).getD []
    return Json.render (envelope command "success" ("data", ← data) warnings nextSteps) ++ "\n"
  else if options.quiet then return ""
  else match human with
    | some report => return report.text ++ "\n"
    | none => return ""

/-- The name of a kind of error, which follows the exit code. -/
def errorKind (error : Error) : String :=
  match error.exitCode with
  | 2 => "user_error"
  | 3 => "lock_blocked"
  | 130 => "cancelled"
  | _ => "operation_failed"

/-- What to do about an error. -/
def nextSteps : Error → List String
  | .notWorkingCopy path => ["svnctx init " ++ path.shown ++ " --url <url>"]
  | .alreadyLocked path => ["svnctx locked " ++ path.shown]
  | .noCredential _ _ | .promptExhausted _ _ _ =>
      ["set auth.username in svnctx.toml or drop --non-interactive"]
  | .invalidSettings _ => ["fix svnctx.toml then retry"]
  | _ => []

/-- The error as a member of the record around it. -/
def errorMember (error : Error) : Except Panic (String × Data) := do
  let details ← error.details
  return ("error", .record
    ([("message", .text error.message), ("code", .integer error.exitCode),
        ("kind", .text (errorKind error))] ++
      (details.map fun details => ("details", details)).toList))

/-- Reports an error. -/
def failure (command : String) (error : Error) (json : Bool) : Except Panic Output := do
  let steps := nextSteps error
  if json then
    let envelope := envelope command "error" (← errorMember error) [] steps
    return { out := Json.render envelope ++ "\n" }
  else
    return { err := "error: " ++ error.message ++ "\n" ++
        String.join ((steps.take 1).map fun hint => "hint: " ++ hint ++ "\n") }

end Report

end Checkout
