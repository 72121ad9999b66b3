import Checkout.Proofs.FileSystem.Agree

/-!
# Walks as a relation

Which spots a walk with so many links to go can end at, step by step. What a walk ends at does not depend on
how many links were left, so one can say what a path leads to through any number of links.
-/

namespace Checkout

namespace FileSystem

variable {files : FileSystem} {path : Path} {directory location : Location} {names rest : List OsText}
  {step name : OsText} {links more : Nat} {spot other : Spot}

/-- A name that is looked up in a directory. -/
structure IsStep (step : OsText) : Prop where
  notHere : step ≠ "."
  notUp : step ≠ ".."
  short : ¬maxName < step.bytes.length

/-- A walk that may follow so many links goes by these names from a directory to a spot. -/
inductive Walks (files : FileSystem) : Nat → Location → List OsText → Spot → Prop where
  | arrived (links : Nat) (directory : Location) :
      Walks files links directory [] (.found directory .directory)
  | here {links : Nat} {directory : Location} {rest : List OsText} {spot : Spot}
      (further : Walks files links directory rest spot) : Walks files links directory ("." :: rest) spot
  | up {links : Nat} {directory : Location} {rest : List OsText} {spot : Spot}
      (further : Walks files links directory.dropLast rest spot) :
      Walks files links directory (".." :: rest) spot
  | down {links : Nat} {directory : Location} {step : OsText} {rest : List OsText} {spot : Spot}
      (isStep : IsStep step) (entry : files.node? (directory ++ [step]) = some .directory)
      (further : Walks files links (directory ++ [step]) rest spot) :
      Walks files links directory (step :: rest) spot
  | vacant (links : Nat) {directory : Location} {step : OsText} (isStep : IsStep step)
      (entry : files.node? (directory ++ [step]) = none) :
      Walks files links directory [step] (.vacant directory step)
  | file (links : Nat) {directory : Location} {step : OsText} {identity : Nat} (isStep : IsStep step)
      (entry : files.node? (directory ++ [step]) = some (.file identity)) :
      Walks files links directory [step] (.found (directory ++ [step]) (.file identity))
  | link {links : Nat} {directory : Location} {step target : OsText} {rest : List OsText} {spot : Spot}
      (isStep : IsStep step) (entry : files.node? (directory ++ [step]) = some (.link target))
      (nonempty : target ≠ "")
      (further : Walks files links (start directory target) (steps target ++ rest) spot) :
      Walks files (links + 1) directory (step :: rest) spot

/-- What a step on the way comes to. -/
theorem walkSteps_isStep {enter : Location → List OsText → Except IoFailure Spot} (isStep : IsStep step) :
    walkSteps files true enter directory (step :: rest) =
      match files.node? (directory ++ [step]) with
      | none => if rest = [] then .ok (.vacant directory step) else .error .notFound
      | some .directory => walkSteps files true enter (directory ++ [step]) rest
      | some (.file identity) =>
          if rest = [] then .ok (.found (directory ++ [step]) (.file identity)) else .error .notDirectory
      | some (.link target) =>
          if target = "" then .error .notFound
          else enter (start directory target) (steps target ++ rest) := by
  rw [walkSteps, if_neg isStep.notHere, if_neg isStep.notUp, if_neg isStep.short]
  simp only
  cases entry : files.node? (directory ++ [step]) with
  | none => rfl
  | some node => cases node <;> simp

theorem walkSteps_of_walks {enter : Location → List OsText → Except IoFailure Spot}
    (entered : ∀ fewer directory names, links = fewer + 1 → Walks files fewer directory names spot →
      enter directory names = .ok spot)
    (walks : Walks files links directory names spot) :
    walkSteps files true enter directory names = .ok spot := by
  induction walks with
  | arrived => rfl
  | here _ ih => simpa [walkSteps] using ih entered
  | up _ ih => simpa [walkSteps] using ih entered
  | down isStep entry _ ih => simpa [walkSteps_isStep isStep, entry] using ih entered
  | vacant _ isStep entry => simp [walkSteps_isStep isStep, entry]
  | file _ isStep entry => simp [walkSteps_isStep isStep, entry]
  | link isStep entry nonempty further =>
      simpa [walkSteps_isStep isStep, entry, nonempty] using entered _ _ _ rfl further

theorem walks_of_walkSteps {enter : Location → List OsText → Except IoFailure Spot}
    (entered : ∀ directory names, enter directory names = .ok spot →
      ∃ fewer, links = fewer + 1 ∧ Walks files fewer directory names spot)
    (walked : walkSteps files true enter directory names = .ok spot) :
    Walks files links directory names spot := by
  induction names generalizing directory with
  | nil =>
      rw [walkSteps, Except.ok.injEq] at walked
      rw [← walked]
      exact .arrived links directory
  | cons step rest ih =>
      by_cases here : step = "."
      · subst here
        exact .here (ih (by simpa [walkSteps] using walked))
      by_cases up : step = ".."
      · subst up
        exact .up (ih (by simpa [walkSteps] using walked))
      by_cases long : maxName < step.bytes.length
      · simp [walkSteps, here, up, long] at walked
      have isStep : IsStep step := ⟨here, up, long⟩
      rw [walkSteps_isStep isStep] at walked
      cases entry : files.node? (directory ++ [step]) with
      | none =>
          simp only [entry] at walked
          split at walked
          · rename_i last
            rw [Except.ok.injEq] at walked
            subst last walked
            exact .vacant links isStep entry
          · simp at walked
      | some node =>
          cases node with
          | directory =>
              simp only [entry] at walked
              exact .down isStep entry (ih walked)
          | file identity =>
              simp only [entry] at walked
              split at walked
              · rename_i last
                rw [Except.ok.injEq] at walked
                subst last walked
                exact .file links isStep entry
              · simp at walked
          | link target =>
              simp only [entry] at walked
              split at walked
              · simp at walked
              · rename_i nonempty
                obtain ⟨fewer, rfl, further⟩ := entered _ _ walked
                exact .link isStep entry nonempty further

theorem walk_eq_ok_iff :
    walk files true links directory names = .ok spot ↔ Walks files links directory names spot := by
  induction links generalizing directory names with
  | zero =>
      constructor
      · exact walks_of_walkSteps (fun _ _ entered => by simp at entered)
      · exact walkSteps_of_walks (fun _ _ _ impossible => by simp at impossible)
  | succ links ih =>
      constructor
      · exact walks_of_walkSteps (fun _ _ entered => ⟨links, rfl, ih.mp entered⟩)
      · refine walkSteps_of_walks ?_
        rintro fewer directory names same further
        rw [Nat.succ_inj] at same
        exact ih.mpr (same ▸ further)

namespace Walks

theorem mono (walks : Walks files links directory names spot) (le : links ≤ more) :
    Walks files more directory names spot := by
  have walked := walk_eq_ok_iff.mpr walks
  rcases walk_fewer files le true directory names with stopped | same
  · simp [stopped] at walked
  · exact walk_eq_ok_iff.mp (same ▸ walked)

theorem unique (walks : Walks files links directory names spot)
    (another : Walks files more directory names other) : spot = other := by
  have here := walk_eq_ok_iff.mpr (walks.mono (Nat.le_max_left links more))
  rw [walk_eq_ok_iff.mpr (another.mono (Nat.le_max_right links more)), Except.ok.injEq] at here
  exact here.symm

theorem sound (walks : Walks files links directory names spot) (wellFormed : files.WellFormed)
    (inside : files.node? directory = some .directory) (steps : AreSteps names) : spot.Sound files :=
  walk_sound wellFormed inside steps (walk_eq_ok_iff.mpr walks)

/-- A last name that is neither a directory nor a link is its own spot. -/
theorem leaf (links : Nat) (isStep : IsStep step)
    (notDirectory : files.node? (directory ++ [step]) ≠ some .directory)
    (notLink : ∀ target, files.node? (directory ++ [step]) ≠ some (.link target)) :
    ∃ spot, Walks files links directory [step] spot ∧ spot.location = directory ++ [step] := by
  cases entry : files.node? (directory ++ [step]) with
  | none => exact ⟨_, .vacant links isStep entry, rfl⟩
  | some node =>
      cases node with
      | directory => exact absurd entry notDirectory
      | file identity => exact ⟨_, .file links isStep entry, rfl⟩
      | link target => exact absurd entry (notLink target)

/-- No walk ends at a link. -/
theorem ne_link (walks : Walks files links directory names spot) (location : Location) (target : OsText) :
    spot ≠ .found location (.link target) := by
  induction walks with
  | arrived => simp
  | here _ ih => exact ih
  | up _ ih => exact ih
  | down _ _ _ ih => exact ih
  | vacant => simp
  | file => simp
  | link _ _ _ _ ih => exact ih

end Walks

/-! ## Through any number of links -/

/-- A path leads to a spot, through any number of links. -/
def LeadsTo (files : FileSystem) (path : Path) (spot : Spot) : Prop :=
  Usable files path ∧ ∃ links, Walks files links (files.origin path) (steps path.text) spot

theorem resolve_eq_ok_iff : files.resolve true path = .ok spot ↔
    Usable files path ∧ Walks files maxLinks (files.origin path) (steps path.text) spot := by
  rw [resolve_eq_ok, walk_eq_ok_iff]

theorem LeadsTo.unique (leads : files.LeadsTo path spot) (another : files.LeadsTo path other) : spot = other := by
  obtain ⟨-, _, walks⟩ := leads
  obtain ⟨-, _, others⟩ := another
  exact walks.unique others

theorem LeadsTo.sound (leads : files.LeadsTo path spot) (wellFormed : files.WellFormed) : spot.Sound files := by
  obtain ⟨usable, _, walks⟩ := leads
  exact walks.sound wellFormed usable.origin_directory (areSteps_steps path.text)

theorem leadsTo_of_resolve (resolved : files.resolve true path = .ok spot) : files.LeadsTo path spot := by
  obtain ⟨usable, walks⟩ := resolve_eq_ok_iff.mp resolved
  exact ⟨usable, maxLinks, walks⟩

theorem not_leadsTo_vacant {node : Node} (resolved : files.resolve true path = .ok (.found location node))
    (directory : Location) (name : OsText) : ¬files.LeadsTo path (.vacant directory name) := by
  intro leads
  have same := leads.unique (leadsTo_of_resolve resolved)
  simp at same

theorem Usable.resolve_eq (usable : Usable files path) : files.resolve true path =
    walk files true maxLinks (files.origin path) (steps path.text) := by
  have startable : ¬(path.text.bytes.head? ≠ some OsText.slash ∧ files.node? files.current ≠ some .directory) := by
    rw [not_and_or, not_not, not_not]
    exact usable.startable
  simp only [resolve, bind, Except.bind, usable.callable, if_neg startable]
  rfl

/-- A path that leads nowhere leads nowhere through more links, unless there were too many. -/
theorem not_leadsTo {failure : IoFailure} (resolved : files.resolve true path = .error failure)
    (enough : failure ≠ .tooManyLinks) : ¬files.LeadsTo path spot := by
  rintro ⟨usable, links, walks⟩
  have walked := walk_eq_ok_iff.mpr (walks.mono (Nat.le_max_right maxLinks links))
  rw [usable.resolve_eq] at resolved
  rcases walk_fewer files (Nat.le_max_left maxLinks links) true (files.origin path) (steps path.text) with
    stopped | same
  · rw [stopped, Except.error.injEq] at resolved
    exact enough resolved.symm
  · rw [← same, resolved] at walked
    simp at walked

/-- What a path leads to is what its last name leads to in the directory of its place. -/
theorem NamesPlace.walks_last (named : NamesPlace files path directory name)
    (noSlash : path.text.bytes.getLast? ≠ some OsText.slash) (leads : files.LeadsTo path spot) :
    ∃ links, Walks files links directory [name] spot := by
  obtain ⟨-, links, walks⟩ := leads
  have reached := (walk_eq_ok_iff.mp named.reached).mono (Nat.le_max_left maxLinks links)
  obtain ⟨fewer, -, further⟩ := walk_append (walk_eq_ok_iff.mpr reached)
  have whole := walk_eq_ok_iff.mpr (walks.mono (Nat.le_max_right maxLinks links))
  rw [Path.steps_eq, if_neg noSlash, named.names_eq, further] at whole
  exact ⟨fewer, walk_eq_ok_iff.mp whole⟩

end FileSystem

end Checkout
