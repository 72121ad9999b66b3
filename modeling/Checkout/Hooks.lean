import Checkout.Error

/-!
# Hooks of an operation

A caller can supply the log message of a commit, listen to what happens, and call an operation off.
Each hook is optional: without it there is no message, nobody listens, and nothing is called off.
-/

namespace Checkout

variable {σ : Type}

/-- A path about to be committed. -/
structure CommitItem where
  path : Path
  url : Option String
  revision : Option Nat
  deriving DecidableEq, Repr

/-- What kind of thing a path is. -/
inductive NodeKind where
  | none
  | file
  | directory
  | unknown
  deriving DecidableEq, Repr

/-- What happened to a path. -/
inductive NotifyAction where
  | add
  | copy
  | delete
  | restore
  | revert
  | failedRevert
  | resolved
  | skip
  | updateDelete
  | updateAdd
  | updateUpdate
  | updateCompleted
  | updateExternal
  | statusCompleted
  | statusExternal
  | commitModified
  | commitAdded
  | commitDeleted
  | commitReplaced
  | commitPostfixTextDelta
  | blameRevision
  | locked
  | unlocked
  | failedLock
  | failedUnlock
  deriving DecidableEq, Repr

/-- The name of a kind of node in documents. -/
def NodeKind.label : NodeKind → String
  | .none => "none"
  | .file => "file"
  | .directory => "dir"
  | .unknown => "unknown"

namespace NotifyAction

/-- Every action with its name in documents. -/
def labels : List (NotifyAction × String) :=
  [(.add, "add"), (.copy, "copy"), (.delete, "delete"), (.restore, "restore"),
    (.revert, "revert"), (.failedRevert, "failed_revert"), (.resolved, "resolved"),
    (.skip, "skip"), (.updateDelete, "update_delete"), (.updateAdd, "update_add"),
    (.updateUpdate, "update_update"), (.updateCompleted, "update_completed"),
    (.updateExternal, "update_external"), (.statusCompleted, "status_completed"),
    (.statusExternal, "status_external"), (.commitModified, "commit_modified"),
    (.commitAdded, "commit_added"), (.commitDeleted, "commit_deleted"),
    (.commitReplaced, "commit_replaced"), (.commitPostfixTextDelta, "commit_postfix_txdelta"),
    (.blameRevision, "blame_revision"), (.locked, "locked"), (.unlocked, "unlocked"),
    (.failedLock, "failed_lock"), (.failedUnlock, "failed_unlock")]

/-- The name of an action in documents. -/
def label (action : NotifyAction) : String :=
  ((labels.find? fun entry => entry.1 = action).map Prod.snd).getD ""

end NotifyAction

/-- Something that happened to a path. -/
structure Notification where
  path : Path
  action : NotifyAction
  kind : NodeKind := .unknown
  revision : Option Nat := none
  error : Option String := none
  deriving DecidableEq, Repr

namespace Notification

/-- Whether a path was added. -/
def isAdd (event : Notification) : Bool := event.action = .add

/-- Whether an added path was committed. -/
def isCommitAdded (event : Notification) : Bool := event.action = .commitAdded

/-- Whether a deleted path was committed. -/
def isCommitDeleted (event : Notification) : Bool := event.action = .commitDeleted

/-- Whether the text of a committed path was sent. -/
def isCommitPostfixTextDelta (event : Notification) : Bool :=
  event.action = .commitPostfixTextDelta

/-- Whether a path was locked. -/
def isLocked (event : Notification) : Bool := event.action = .locked

/-- Whether a path was unlocked. -/
def isUnlocked (event : Notification) : Bool := event.action = .unlocked

/-- Whether an update or a status run came to its end. -/
def isCompleted (event : Notification) : Bool :=
  event.action = .updateCompleted || event.action = .statusCompleted

/-- The event as data; the error is left out when there is none. -/
def data (event : Notification) : Except Error Data := do
  return .record
    ([("path", ← event.path.data), ("action", .text event.action.label),
      ("kind", .text event.kind.label),
      ("revision", (event.revision.map fun revision => .integer revision).getD .null)] ++
      (event.error.map fun error => ("error", .text error)).toList)

end Notification

/-- The item as data. -/
def CommitItem.data (item : CommitItem) : Except Error Data := do
  return .record
    [("path", ← item.path.data), ("url", (item.url.map .text).getD .null),
      ("revision", (item.revision.map fun revision => .integer revision).getD .null)]

/-- A question whether to go on; the answer true calls the operation off. -/
abbrev Cancellation (σ : Type) := StateM σ Bool

/-- The hooks of a session. -/
structure Hooks (σ : Type) where
  logMessage : Option (List CommitItem → StateM σ (Except Error (Option String))) := none
  notify : Option (Notification → StateM σ Unit) := none
  cancel : Option (Cancellation σ) := none

namespace Hooks

/-- The log message for some items. -/
def messageFor (hooks : Hooks σ) (items : List CommitItem) :
    StateM σ (Except Error (Option String)) :=
  match hooks.logMessage with
  | some handler => handler items
  | none => pure (.ok none)

/-- Tells the listener what happened. -/
def tell (hooks : Hooks σ) (event : Notification) : StateM σ Unit :=
  match hooks.notify with
  | some handler => handler event
  | none => pure ()

/-- Whether the caller calls the operation off. -/
def isCancelled (hooks : Hooks σ) : StateM σ Bool :=
  match hooks.cancel with
  | some handler => handler
  | none => pure false

/-- Fails if the caller calls the operation off. -/
def checkCancelled (hooks : Hooks σ) : StateM σ (Except Error Unit) := do
  return if ← hooks.isCancelled then .error .cancelled else .ok ()

/-- A description of which hooks there are. -/
def describe (hooks : Hooks σ) : String :=
  Credential.describeFields "CallbackSlots"
    [("log_message", Credential.describeFlag hooks.logMessage.isSome),
      ("notify", Credential.describeFlag hooks.notify.isSome),
      ("cancel", Credential.describeFlag hooks.cancel.isSome)]

end Hooks

end Checkout
