import Checkout.Proofs.Lock.Accounts
import Checkout.Session
import Checkout.WorkingCopy.Cleanup
import Mathlib.Data.Multiset.Bind

/-!
# A process and its holders

A process runs operations one after another. What holds locks between two operations is a live value:
a hierarchy, an anchored hierarchy, or the lock on one directory. Each operation makes such a value,
works on one, or drops one; anything else may change at any time, the files included.
-/

namespace Checkout

variable {σ : Type}

/-- A live value that holds locks. -/
inductive Holder where
  | hierarchy (hierarchy : Hierarchy)
  | anchored (anchored : Anchored)
  | directory (lock : DirectoryLock)

namespace Holder

/-- The hierarchy in a holder. -/
def hierarchy? : Holder → Option Hierarchy
  | .hierarchy opened => some opened
  | .anchored opened => some opened.hierarchy
  | .directory _ => none

/-- The directories that a holder claims; those of a hierarchy are the ones with an open lock. -/
def claimed : Holder → Multiset (List Component)
  | .hierarchy opened => opened.claimed
  | .anchored opened => opened.hierarchy.claimed
  | .directory lock => {lock.directory.components}

/-- What happens when a holder is dropped. -/
def drop : Holder → Action σ Unit
  | .hierarchy opened => opened.drop
  | .anchored opened => opened.hierarchy.drop
  | .directory lock => lock.drop

end Holder

/-- The operations that make a holder. -/
inductive Creation (σ : Type) where
  | openAt (cancel : Option (Cancellation σ)) (write : Bool) (depth : Depth) (path : Path)
  | probeOpen (cancel : Option (Cancellation σ)) (write : Bool) (depth : Depth) (path : Path)
  | openAnchor (cancel : Option (Cancellation σ)) (write : Bool) (depth : Depth) (path : Path)
  | lockDirectory (directory : Path) (write : Bool)

/-- Runs the operation. -/
def Creation.run : Creation σ → Action σ Holder
  | openAt cancel write depth path =>
      Holder.hierarchy <$> Hierarchy.openAt cancel write depth path
  | probeOpen cancel write depth path =>
      Holder.hierarchy <$> Hierarchy.probeOpen cancel write depth path
  | openAnchor cancel write depth path =>
      Holder.anchored <$> Anchored.openAnchor cancel write depth path
  | lockDirectory directory write =>
      Holder.directory <$> DirectoryLock.acquire directory write

/-- The operations on a hierarchy. -/
inductive Operation (σ : Type) where
  | openChild (cancel : Option (Cancellation σ)) (write : Bool) (depth : Depth) (path : Path)
  | probeTry (cancel : Option (Cancellation σ)) (write : Bool) (depth : Depth) (path : Path)
  | closeLock (path : Path)
  | close

/-- Runs the operation. -/
def Operation.run : Operation σ → HierarchyAction σ Unit
  | openChild cancel write depth path => discard (Hierarchy.openChild cancel write depth path)
  | probeTry cancel write depth path => discard (Hierarchy.probeTry cancel write depth path)
  | closeLock path => Hierarchy.closeLock path
  | close => Hierarchy.close

/-- The world of a process, and its live holders in no order. -/
structure Process (σ : Type) where
  world : World σ
  holders : Multiset Holder

namespace Process

/-- The directories that the holders claim. -/
def claimed (process : Process σ) : Multiset (List Component) :=
  process.holders.bind Holder.claimed

/-- One operation of a process, or a change from outside to files that satisfy `possible`. -/
inductive Step (possible : FileSystem → Prop) : Process σ → Process σ → Prop where
  /-- Other processes and the caller change what they like, except for the claims of this process. -/
  | outside {world : World σ} {holders : Multiset Holder} (files : FileSystem)
      (environment : Environment) (caller : σ) (possibleFiles : possible files) :
      Step possible ⟨world, holders⟩ ⟨{ world with files, environment, caller }, holders⟩
  | created {world after : World σ} {holders : Multiset Holder} {holder : Holder}
      (creation : Creation σ) (ran : creation.run world = .ok holder after) :
      Step possible ⟨world, holders⟩ ⟨after, holder ::ₘ holders⟩
  | refused {world after : World σ} {holders : Multiset Holder} {error : Error}
      (creation : Creation σ) (ran : creation.run world = .error error after) :
      Step possible ⟨world, holders⟩ ⟨after, holders⟩
  /-- An operation on a hierarchy, which may fail. -/
  | used {world after : World σ} {holders : Multiset Holder} {before now : Hierarchy}
      (operation : Operation σ) (ran : stateAfter operation.run (world, before) = (after, now)) :
      Step possible ⟨world, .hierarchy before ::ₘ holders⟩ ⟨after, .hierarchy now ::ₘ holders⟩
  | usedAnchored {world after : World σ} {holders : Multiset Holder} {before now : Hierarchy}
      {target : Option String} (operation : Operation σ)
      (ran : stateAfter operation.run (world, before) = (after, now)) :
      Step possible ⟨world, .anchored ⟨before, target⟩ ::ₘ holders⟩
        ⟨after, .anchored ⟨now, target⟩ ::ₘ holders⟩
  | intoHierarchy {world : World σ} {holders : Multiset Holder} {anchored : Anchored} :
      Step possible ⟨world, .anchored anchored ::ₘ holders⟩
        ⟨world, .hierarchy anchored.hierarchy ::ₘ holders⟩
  | dropped {world : World σ} {holders : Multiset Holder} {holder : Holder} :
      Step possible ⟨world, holder ::ₘ holders⟩ ⟨stateAfter holder.drop world, holders⟩
  /-- The lock on a directory is given back, by a call that reports an error. -/
  | released {world : World σ} {holders : Multiset Holder} {lock : DirectoryLock} :
      Step possible ⟨world, .directory lock ::ₘ holders⟩ ⟨stateAfter lock.release world, holders⟩
  | cleaned {world : World σ} {holders : Multiset Holder} (path : Path) :
      Step possible ⟨world, holders⟩ ⟨stateAfter (Cleanup.clean path) world, holders⟩

/--
A run of a process. The body of `Session.withLocked` is itself a run, in which the hierarchy is one
more holder that the body hands back at its end.
-/
inductive Run (possible : FileSystem → Prop) : Process σ → Process σ → Prop where
  | refl (process : Process σ) : Run possible process process
  | step {start middle last : Process σ} (before : Run possible start middle)
      (step : Step possible middle last) : Run possible start last
  | locked {α : Type} {start : Process σ} {world opened last : World σ}
      {holders others : Multiset Holder} {session : Session σ} {path : Path} {write : Bool}
      {depth : Depth} {body : LockedAction σ α} {hierarchy : Hierarchy}
      (before : Run possible start ⟨world, holders⟩)
      (ran : Hierarchy.probeOpen session.hooks.cancel write depth path world =
        .ok hierarchy opened)
      (inside : Run possible ⟨opened, .hierarchy hierarchy ::ₘ holders⟩
        ⟨(stateAfter body (opened, session, hierarchy)).1,
          .hierarchy (stateAfter body (opened, session, hierarchy)).2.2 ::ₘ others⟩)
      (left : (stateAfter (Session.withLocked path write depth body) (world, session)).1 = last) :
      Run possible start ⟨last, others⟩
  | lockedRefused {α : Type} {start : Process σ} {world failed last : World σ}
      {holders : Multiset Holder} {session : Session σ} {path : Path} {write : Bool}
      {depth : Depth} {body : LockedAction σ α} {error : Error}
      (before : Run possible start ⟨world, holders⟩)
      (ran : Hierarchy.probeOpen session.hooks.cancel write depth path world =
        .error error failed)
      (left : (stateAfter (Session.withLocked path write depth body) (world, session)).1 = last) :
      Run possible start ⟨last, holders⟩

end Process

end Checkout
