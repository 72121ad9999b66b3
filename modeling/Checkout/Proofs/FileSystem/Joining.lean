import Checkout.Proofs.FileSystem.Agree
import Checkout.Proofs.WorkingCopy.Versioned

/-!
# One name further

A path with a name joined to it leads on from where the path leads: to what has that name there, unless that
is a link.
-/

namespace Checkout

namespace FileSystem

variable {files : FileSystem} {base : Path} {name : OsText} {location : Location} {spot : Spot}

/-- What leads to a directory leads there by its names alone. -/
theorem walk_names_of_entry {path : Path} (found : files.entry true path = .ok (location, .directory)) :
    walk files true maxLinks (files.origin path) path.names = .ok (.found location .directory) := by
  obtain ⟨-, walked⟩ := resolve_eq_ok.mp (entry_eq_ok.mp found)
  rw [Path.steps_eq] at walked
  split at walked
  · obtain ⟨middle, reached⟩ := walk_front (List.cons_ne_nil _ _) walked
    obtain ⟨fewer, -, further⟩ := walk_append reached
    rw [further, walk_here, Except.ok.injEq, Spot.found.injEq] at walked
    rw [reached, walked.1]
  · exact walked

theorem walk_name {links : Nat} (proper : ProperName name)
    (notLink : ∀ target, files.node? (location ++ [name]) ≠ some (.link target))
    (walked : walk files true links location [name] = .ok spot) :
    spot.location = location ++ [name] := by
  -- the links left do not matter, as none is followed
  have by_steps (enter : Location → List OsText → Except IoFailure Spot)
      (walked : walkSteps files true enter location [name] = .ok spot) :
      spot.location = location ++ [name] := by
    rw [walkSteps, if_neg proper.notHere, if_neg proper.notUp] at walked
    split at walked
    · simp at walked
    · cases entry : files.node? (location ++ [name]) with
      | none =>
          simp only [entry, if_true, Except.ok.injEq] at walked
          rw [← walked]
          rfl
      | some node =>
          cases node with
          | directory =>
              simp only [entry, walkSteps, Except.ok.injEq] at walked
              rw [← walked]
              rfl
          | file identity =>
              simp only [entry, if_true, Except.ok.injEq] at walked
              rw [← walked]
              rfl
          | link target => exact absurd entry (notLink target)
  cases links with
  | zero => exact by_steps _ walked
  | succ links => exact by_steps _ walked

/-- A name joined to a path is looked up where the path leads. -/
theorem walk_of_resolve_join (absolute : base.isAbsolute = true) (proper : ProperName name)
    (resolved : files.resolve true (base.join name) = .ok spot) :
    ∃ location links, files.entry true base = .ok (location, .directory) ∧
      walk files true links location [name] = .ok spot := by
  obtain ⟨usable, walked⟩ := resolve_eq_ok.mp resolved
  have head : base.text.bytes.head? = some OsText.slash := by simpa [Path.isAbsolute] using absolute
  rw [files.origin_join proper absolute, Path.steps_join base proper] at walked
  obtain ⟨location, reached⟩ := walk_front (List.cons_ne_nil _ _) walked
  obtain ⟨fewer, -, further⟩ := walk_append reached
  rw [further] at walked
  have callable := callText_of_join proper (nonempty_text absolute) usable.callable
  refine ⟨location, fewer, entry_eq_ok.mpr (resolve_eq_ok.mpr ⟨⟨callable, Or.inl head⟩, ?_⟩), walked⟩
  rw [Path.steps_eq]
  split
  · obtain ⟨links, -, here⟩ := walk_append reached
    rw [here, walk_here]
  · exact reached

theorem location_of_resolve_join (absolute : base.isAbsolute = true) (proper : ProperName name)
    (found : files.entry true base = .ok (location, .directory))
    (notLink : ∀ target, files.node? (location ++ [name]) ≠ some (.link target))
    (resolved : files.resolve true (base.join name) = .ok spot) :
    spot.location = location ++ [name] := by
  obtain ⟨reached, links, reached_eq, walked⟩ := walk_of_resolve_join absolute proper resolved
  rw [found, Except.ok.injEq, Prod.mk.injEq] at reached_eq
  obtain ⟨rfl, -⟩ := reached_eq
  exact walk_name proper notLink walked

theorem isPlace_join {place : Location} (absolute : base.isAbsolute = true) (proper : ProperName name)
    (found : files.entry true base = .ok (location, .directory))
    (named : files.IsPlace (base.join name) place) : place = location ++ [name] := by
  obtain ⟨directory, last, placed, rfl⟩ := named
  obtain ⟨-, reached, -, names⟩ := place_ok placed
  have last_eq := (names last rfl).last
  rw [files.origin_join proper absolute, Path.names_join base proper, List.dropLast_concat,
    walk_names_of_entry found, Except.ok.injEq, Spot.found.injEq] at reached
  rw [Path.names_join base proper, List.getLast?_concat, Option.some.injEq] at last_eq
  rw [reached.1, last_eq]

end FileSystem

end Checkout
