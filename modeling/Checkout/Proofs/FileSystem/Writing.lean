import Checkout.Proofs.Action
import Checkout.Proofs.FileSystem.LockFile

/-!
# Files read back

A file that was written holds what was written. Where the path led to a file it still does, and where it led
to a vacant place it now leads to the file created there: a walk only ever looks at entries that exist, apart
from its last step.
-/

namespace Checkout

/-- What a path leads to when the place it led to, if it was vacant, has got a file. -/
def Spot.filled (identity : Nat) : Spot → Spot
  | .found location node => .found location node
  | .vacant directory name => .found (directory ++ [name]) (.file identity)

namespace FileSystem

variable {files other : FileSystem} {enter enter' : Location → List OsText → Except IoFailure Spot}
  {directory inner : Location} {names : List OsText} {name : OsText} {spot : Spot} {identity : Nat}
  {path : Path}

/-- Every entry of one state is one of the other, too. -/
def Extends (files other : FileSystem) : Prop :=
  ∀ location node, files.node? location = some node → other.node? location = some node

theorem walkSteps_vacant
    (enterVacant : ∀ directory names, enter directory names = .ok (.vacant inner name) →
      files.node? (inner ++ [name]) = none)
    (walked : walkSteps files true enter directory names = .ok (.vacant inner name)) :
    files.node? (inner ++ [name]) = none := by
  induction names generalizing directory with
  | nil => simp [walkSteps] at walked
  | cons step rest ih =>
      rw [walkSteps] at walked
      split at walked
      · exact ih walked
      · split at walked
        · exact ih walked
        · split at walked
          · simp at walked
          · simp only at walked
            split at walked
            · rename_i vacant
              split at walked
              · rw [Except.ok.injEq, Spot.vacant.injEq] at walked
                rw [← walked.1, ← walked.2]
                exact vacant
              · simp at walked
            · exact ih walked
            · split at walked <;> simp at walked
            · rw [if_neg (by simp)] at walked
              split at walked
              · simp at walked
              · exact enterVacant _ _ walked

/-- Where a walk ends at a vacant place, there is no entry. -/
theorem walk_vacant {links : Nat}
    (walked : walk files true links directory names = .ok (.vacant inner name)) :
    files.node? (inner ++ [name]) = none := by
  induction links generalizing directory names with
  | zero => exact walkSteps_vacant (fun _ _ entered => by simp at entered) walked
  | succ links ih => exact walkSteps_vacant (fun _ _ entered => ih entered) walked

theorem walkSteps_filled (extended : Extends files other)
    (filled : ∀ inner name, spot = .vacant inner name →
      other.node? (inner ++ [name]) = some (.file identity))
    (enterFilled : ∀ directory names, enter directory names = .ok spot →
      enter' directory names = .ok (spot.filled identity))
    (walked : walkSteps files true enter directory names = .ok spot) :
    walkSteps other true enter' directory names = .ok (spot.filled identity) := by
  induction names generalizing directory with
  | nil =>
      simp only [walkSteps, Except.ok.injEq] at walked ⊢
      rw [← walked]
      rfl
  | cons step rest ih =>
      rw [walkSteps] at walked ⊢
      by_cases here : step = "."
      · rw [if_pos here] at walked ⊢
        exact ih walked
      rw [if_neg here] at walked ⊢
      by_cases up : step = ".."
      · rw [if_pos up] at walked ⊢
        exact ih walked
      rw [if_neg up] at walked ⊢
      by_cases long : maxName < step.bytes.length
      · rw [if_pos long] at walked
        simp at walked
      rw [if_neg long] at walked ⊢
      cases entry : files.node? (directory ++ [step]) with
      | none =>
          -- Only the last step may meet nothing, and there the file has been put.
          simp only [entry] at walked
          split at walked
          · rename_i last
            rw [Except.ok.injEq] at walked
            subst last walked
            simp only [filled _ _ rfl, if_true]
            rfl
          · simp at walked
      | some node =>
          simp only [extended _ _ entry]
          simp only [entry] at walked
          cases node with
          | directory => exact ih walked
          | file other =>
              simp only at walked ⊢
              split at walked
              · rename_i last
                rw [Except.ok.injEq] at walked
                rw [if_pos last, ← walked]
                rfl
              · simp at walked
          | link target =>
              simp only at walked ⊢
              rw [if_neg (by simp)] at walked ⊢
              by_cases empty : target = ""
              · rw [if_pos empty] at walked
                simp at walked
              rw [if_neg empty] at walked ⊢
              exact enterFilled _ _ walked

theorem walk_filled {links : Nat} (extended : Extends files other)
    (filled : ∀ inner name, spot = .vacant inner name →
      other.node? (inner ++ [name]) = some (.file identity))
    (walked : walk files true links directory names = .ok spot) :
    walk other true links directory names = .ok (spot.filled identity) := by
  induction links generalizing directory names with
  | zero => exact walkSteps_filled extended filled (fun _ _ entered => by simp at entered) walked
  | succ links ih => exact walkSteps_filled extended filled (fun _ _ entered => ih entered) walked

/-- A path leads on to what it led to when entries are added, and to a file that filled its vacant place. -/
theorem resolve_filled (extended : Extends files other) (current : other.current = files.current)
    (filled : ∀ inner name, spot = .vacant inner name →
      other.node? (inner ++ [name]) = some (.file identity))
    (resolved : files.resolve true path = .ok spot) :
    other.resolve true path = .ok (spot.filled identity) := by
  obtain ⟨usable, walked⟩ := resolve_eq_ok.mp resolved
  have startable : Usable other path := by
    refine ⟨usable.callable, usable.startable.imp_right ?_⟩
    rw [current]
    exact extended _ _
  have origin_eq : other.origin path = files.origin path := by rw [origin, origin, current]
  rw [resolve_eq_ok, origin_eq]
  exact ⟨startable, walk_filled extended filled walked⟩

theorem extends_putFile {location : Location} (vacant : files.node? location = none) (bytes : ByteArray) :
    Extends files (files.putFile location bytes) := by
  intro other node found
  rw [node?_putFile_of_ne, found]
  rintro rfl
  simp [vacant] at found

theorem bytes_setBytes_self (files : FileSystem) (identity : Nat) (bytes : ByteArray) :
    (files.setBytes identity bytes).bytes identity = bytes := by
  simp [FileSystem.bytes, setBytes]

/-- A file that was opened for writing was there, or it was created where the path led. -/
theorem openFile_eq_ok {opened : FileSystem} (openedFile : openFile path files = .ok identity opened) :
    (∃ location, files.resolve true path = .ok (.found location (.file identity)) ∧ opened = files) ∨
    ∃ directory name, files.resolve true path = .ok (.vacant directory name) ∧
      identity = files.nextFile ∧ opened = files.putFile (directory ++ [name]) ByteArray.empty := by
  simp only [openFile] at openedFile
  split at openedFile
  · simp at openedFile
  · split at openedFile
    · simp at openedFile
    · split at openedFile
      · simp at openedFile
      · rename_i location reached resolved
        simp only [EStateM.Result.ok.injEq] at openedFile
        obtain ⟨rfl, rfl⟩ := openedFile
        exact .inl ⟨location, resolved, rfl⟩
      · simp at openedFile
      · rename_i directory name resolved
        simp only [EStateM.Result.ok.injEq] at openedFile
        exact .inr ⟨directory, name, resolved, openedFile.1.symm, openedFile.2.symm⟩

/-- A file that was written is read back. -/
theorem read_writeFile {after : FileSystem} {bytes : ByteArray}
    (written : writeFile path bytes files = .ok () after) : after.read path = .ok bytes := by
  obtain ⟨identity, opened, openedFile, rfl⟩ : ∃ identity opened,
      openFile path files = .ok identity opened ∧ opened.setBytes identity bytes = after := by
    simp only [writeFile, Action.bind_apply, Action.modify_apply] at written
    split at written
    · rename_i identity opened openedFile
      rw [EStateM.Result.ok.injEq] at written
      exact ⟨identity, opened, openedFile, written.2⟩
    · simp at written
  have found : ∃ location,
      (opened.setBytes identity bytes).resolve true path = .ok (.found location (.file identity)) := by
    rcases openFile_eq_ok openedFile with
      ⟨location, resolved, rfl⟩ | ⟨directory, name, resolved, rfl, rfl⟩
    · have extended : Extends opened (opened.setBytes identity bytes) := fun _ _ there => there
      have occupied : ∀ inner name, Spot.found location (.file identity) = .vacant inner name →
          (opened.setBytes identity bytes).node? (inner ++ [name]) = some (.file identity) := by simp
      exact ⟨location, resolve_filled extended rfl occupied resolved⟩
    · have vacant := walk_vacant (resolve_eq_ok.mp resolved).2
      have extended : Extends files
          ((files.putFile (directory ++ [name]) ByteArray.empty).setBytes files.nextFile bytes) :=
        extends_putFile vacant ByteArray.empty
      refine ⟨directory ++ [name], resolve_filled extended rfl ?_ resolved⟩
      intro inner other same
      rw [Spot.vacant.injEq] at same
      rw [← same.1, ← same.2]
      exact node?_put_self (by simp)
  obtain ⟨location, resolved⟩ := found
  have entered := entry_eq_ok.mpr resolved
  rw [read, entered]
  simp [bind, Except.bind, bytes_setBytes_self]

end FileSystem

end Checkout
