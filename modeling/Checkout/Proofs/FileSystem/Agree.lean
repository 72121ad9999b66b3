import Checkout.Proofs.FileSystem.Borrowed

/-!
# States that agree outside some places

When only files come and go, and only at certain places, a path leads to the same location as before, and
to the same entry unless the location is one of the places.
-/

namespace Checkout

/-- The location of a spot. -/
def Spot.location : Spot → Location
  | .found location _ => location
  | .vacant directory name => directory ++ [name]

namespace FileSystem

variable {files other : FileSystem} {places : Set Location} {path : Path} {spot : Spot}
  {enter enter' : Location → List OsText → Except IoFailure Spot} {directory : Location}
  {names : List OsText} {links : Nat}

/-- Only files come and go, and only at some places. -/
structure AgreeOutside (files other : FileSystem) (places : Set Location) : Prop where
  sameTree : SameTree files other
  elsewhere : ∀ location, location ∉ places → files.node? location = other.node? location

theorem AgreeOutside.symm (agree : AgreeOutside files other places) :
    AgreeOutside other files places :=
  ⟨agree.sameTree.symm, fun location outside => (agree.elsewhere location outside).symm⟩

/-- A last step that meets neither a directory nor a link ends at its own place. -/
theorem walkSteps_leaf {step : OsText} (notHere : step ≠ ".") (notUp : step ≠ "..")
    (short : ¬maxName < step.bytes.length)
    (notDirectory : files.node? (directory ++ [step]) ≠ some .directory)
    (notLink : ∀ target, files.node? (directory ++ [step]) ≠ some (.link target)) :
    ∃ spot, walkSteps files true enter directory [step] = .ok spot ∧
      spot.location = directory ++ [step] := by
  rw [walkSteps, if_neg notHere, if_neg notUp, if_neg short]
  cases entry : files.node? (directory ++ [step]) with
  | none => exact ⟨.vacant directory step, by simp [entry], rfl⟩
  | some node =>
      cases node with
      | directory => exact absurd entry notDirectory
      | file identity => exact ⟨.found _ (.file identity), by simp [entry], rfl⟩
      | link target => exact absurd entry (notLink target)

theorem walkSteps_location (same : SameTree files other)
    (enterSame : ∀ directory names spot, enter directory names = .ok spot →
      ∃ spot', enter' directory names = .ok spot' ∧ spot'.location = spot.location)
    (walked : walkSteps files true enter directory names = .ok spot) :
    ∃ spot', walkSteps other true enter' directory names = .ok spot' ∧
      spot'.location = spot.location := by
  induction names generalizing directory with
  | nil => exact ⟨spot, walked, rfl⟩
  | cons step rest ih =>
      rw [walkSteps] at walked
      by_cases here : step = "."
      · rw [if_pos here] at walked
        rw [walkSteps, if_pos here]
        exact ih walked
      rw [if_neg here] at walked
      by_cases up : step = ".."
      · rw [if_pos up] at walked
        rw [walkSteps, if_neg here, if_pos up]
        exact ih walked
      rw [if_neg up] at walked
      by_cases long : maxName < step.bytes.length
      · rw [if_pos long] at walked
        simp at walked
      rw [if_neg long] at walked
      cases entry : files.node? (directory ++ [step]) with
      | none =>
          simp only [entry] at walked
          split at walked
          · rename_i last
            rw [Except.ok.injEq] at walked
            subst last walked
            apply walkSteps_leaf here up long
            · simp [← same.directory_iff, entry]
            · simp [← same.link_iff, entry]
          · simp at walked
      | some node =>
          cases node with
          | directory =>
              simp only [entry] at walked
              rw [walkSteps, if_neg here, if_neg up, if_neg long]
              simp only [same.directory_iff.mp entry]
              exact ih walked
          | file identity =>
              simp only [entry] at walked
              split at walked
              · rename_i last
                rw [Except.ok.injEq] at walked
                subst last walked
                apply walkSteps_leaf here up long
                · simp [← same.directory_iff, entry]
                · simp [← same.link_iff, entry]
              · simp at walked
          | link target =>
              simp only [entry] at walked
              rw [walkSteps, if_neg here, if_neg up, if_neg long]
              simp only [same.link_iff.mp entry]
              rw [if_neg (by simp)] at walked ⊢
              by_cases empty : target = ""
              · rw [if_pos empty] at walked
                simp at walked
              rw [if_neg empty] at walked ⊢
              exact enterSame _ _ _ walked

/-- A walk leads to the same location when files come and go. -/
theorem walk_location (same : SameTree files other)
    (walked : walk files true links directory names = .ok spot) :
    ∃ spot', walk other true links directory names = .ok spot' ∧
      spot'.location = spot.location := by
  induction links generalizing directory names spot with
  | zero => exact walkSteps_location same (fun _ _ _ entered => by simp at entered) walked
  | succ links ih => exact walkSteps_location same (fun _ _ _ entered => ih entered) walked

/-- A path leads to the same location when files come and go. -/
theorem resolve_location (same : SameTree files other) (resolved : files.resolve true path = .ok spot) :
    ∃ spot', other.resolve true path = .ok spot' ∧ spot'.location = spot.location := by
  obtain ⟨usable, walked⟩ := resolve_eq_ok.mp resolved
  obtain ⟨spot', walked', location_eq⟩ := walk_location same walked
  rw [same.origin] at walked'
  exact ⟨spot', resolve_eq_ok.mpr ⟨same.usable usable, walked'⟩, location_eq⟩

/-- What a path leads to is what is at the location. -/
theorem found_of_node? {location : Location} {node : Node} (wellFormed : files.WellFormed)
    (resolved : files.resolve true path = .ok spot) (location_eq : spot.location = location)
    (inside : files.node? location = some node) : files.entry true path = .ok (location, node) := by
  have sound := resolve_sound wellFormed resolved
  rw [entry_eq_ok, resolved, Except.ok.injEq]
  rcases spot with ⟨reached, other⟩ | ⟨directory, name⟩
  · obtain rfl : reached = location := location_eq
    have node_eq : files.node? reached = some other := sound
    rw [inside, Option.some.injEq] at node_eq
    rw [node_eq]
  · obtain rfl : directory ++ [name] = location := location_eq
    have vacant : files.node? (directory ++ [name]) = none := sound.2.1
    simp [vacant] at inside

/-- A path that leads to a file outside the places still does. -/
theorem AgreeOutside.entry_file (agree : AgreeOutside files other places)
    (wellFormed : files.WellFormed) (otherWellFormed : other.WellFormed) {location : Location}
    {identity : Nat} (found : files.entry true path = .ok (location, .file identity))
    (outside : location ∉ places) : other.entry true path = .ok (location, .file identity) := by
  have resolved := entry_eq_ok.mp found
  have isFile : files.node? location = some (.file identity) := resolve_sound wellFormed resolved
  rw [agree.elsewhere location outside] at isFile
  obtain ⟨spot', resolved', location_eq⟩ := resolve_location agree.sameTree resolved
  exact found_of_node? otherWellFormed resolved' location_eq isFile

end FileSystem

end Checkout
