import Checkout.Proofs.Action
import Checkout.Proofs.FileSystem.Walk

/-!
# Opening, locking and removing a file

What opening a file for its lock and removing it again do to the entries. Both act at the place that the
path names, unless there is a link; the file system stays well-formed, and a file that is opened, or
created, is locked only if nobody holds it.
-/

namespace Checkout

namespace FileSystem

variable {files : FileSystem} {followLast : Bool} {path : Path} {spot : Spot}

/-! ## Resolving -/

/-- A path can be handed to a system call, and there is a directory to start from. -/
structure Usable (files : FileSystem) (path : Path) : Prop where
  callable : callText path = .ok path.text
  startable : path.text.bytes.head? = some OsText.slash ∨ files.node? files.current = some .directory

theorem callText_ok {text : OsText} (callable : callText path = .ok text) : text = path.text := by
  simp only [callText] at callable
  split at callable
  · simp at callable
  · split at callable
    · simp at callable
    · split at callable
      · simp at callable
      · rw [Except.ok.injEq] at callable
        exact callable.symm

/-- Where the steps of a path start. -/
def origin (files : FileSystem) (path : Path) : Location :=
  start files.current path.text

theorem Usable.origin_directory (usable : Usable files path) :
    files.node? (files.origin path) = some .directory := by
  simp only [origin, start]
  split
  · exact node?_nil files
  · rename_i relative
    exact usable.startable.resolve_left relative

theorem resolve_eq_ok :
    files.resolve followLast path = .ok spot ↔
      Usable files path ∧
        walk files followLast maxLinks (files.origin path) (steps path.text) = .ok spot := by
  simp only [resolve, bind, Except.bind]
  cases called : callText path with
  | error failure =>
      simp only [reduceCtorEq, false_iff, not_and]
      intro usable
      rw [usable.callable] at called
      simp at called
  | ok text =>
      obtain rfl := callText_ok called
      by_cases startable : path.text.bytes.head? ≠ some OsText.slash ∧
          files.node? files.current ≠ some .directory
      · simp only [if_pos startable]
        constructor
        · intro impossible
          simp [throw, throwThe, MonadExceptOf.throw] at impossible
        · rintro ⟨usable, -⟩
          rcases usable.startable with isRoot | inside
          · exact absurd isRoot startable.1
          · exact absurd inside startable.2
      · simp only [if_neg startable]
        have usable : Usable files path := by
          refine ⟨called, ?_⟩
          by_contra neither
          rw [not_or] at neither
          exact startable neither
        constructor
        · intro walked
          exact ⟨usable, walked⟩
        · intro both
          exact both.2

theorem resolve_sound (wellFormed : files.WellFormed)
    (resolved : files.resolve followLast path = .ok spot) : spot.Sound files := by
  obtain ⟨usable, walked⟩ := resolve_eq_ok.mp resolved
  exact walk_sound wellFormed usable.origin_directory (areSteps_steps path.text) walked

theorem entry_eq_ok {location : Location} {node : Node} :
    files.entry followLast path = .ok (location, node) ↔
      files.resolve followLast path = .ok (.found location node) := by
  simp only [entry, bind, Except.bind]
  cases files.resolve followLast path with
  | error failure => simp
  | ok spot => cases spot <;> simp

/-! ## Places -/

/-- The place of an entry that a path names, with its name. -/
structure NamesPlace (files : FileSystem) (path : Path) (directory : Location) (name : OsText) :
    Prop where
  usable : Usable files path
  reached : walk files true maxLinks (files.origin path) path.names.dropLast =
    .ok (.found directory .directory)
  last : path.names.getLast? = some name
  notHere : name ≠ "."
  notUp : name ≠ ".."
  short : ¬maxName < name.bytes.length

/-- What finding the place of a path comes to. -/
theorem place_apply (files : FileSystem) (path : Path) :
    files.place path =
      match callText path with
      | .error failure => .error failure
      | .ok _ =>
          if path.text.bytes.head? ≠ some OsText.slash ∧ files.node? files.current ≠ some .directory then
            .error .notFound
          else match walk files true maxLinks (files.origin path) path.names.dropLast with
            | .error failure => .error failure
            | .ok (.vacant _ _) => .error .notFound
            | .ok (.found directory .directory) =>
                match path.names.getLast? with
                | none => .ok ⟨directory, none, path.text.bytes.getLast? = some OsText.slash⟩
                | some last =>
                    if last = "." ∨ last = ".." then
                      .ok ⟨directory, none, path.text.bytes.getLast? = some OsText.slash⟩
                    else if maxName < last.bytes.length then .error .nameTooLong
                    else .ok ⟨directory, some last, path.text.bytes.getLast? = some OsText.slash⟩
            | .ok (.found _ _) => .error .notDirectory := by
  simp only [FileSystem.place, bind, Except.bind]
  cases called : callText path with
  | error failure => rfl
  | ok text =>
      obtain rfl := callText_ok called
      by_cases startable : path.text.bytes.head? ≠ some OsText.slash ∧
          files.node? files.current ≠ some .directory
      · simp only [if_pos startable]
        rfl
      · simp only [if_neg startable]
        have names_eq : ((pieces OsText.slash path.text.bytes).filter (· ≠ [])).map OsText.mk =
          path.names := rfl
        have origin_eq : start files.current path.text = files.origin path := rfl
        simp only [names_eq, origin_eq]
        cases walk files true maxLinks (files.origin path) path.names.dropLast with
        | error failure => rfl
        | ok spot =>
            rcases spot with ⟨directory, node⟩ | ⟨directory, name⟩
            · cases node with
              | directory =>
                  cases path.names.getLast? with
                  | none => rfl
                  | some last =>
                      by_cases dots : last = "." ∨ last = ".."
                      · simp only [if_pos dots]
                        rfl
                      · by_cases long : maxName < last.bytes.length
                        · simp only [if_neg dots, if_pos long]
                          rfl
                        · simp only [if_neg dots, if_neg long]
                          rfl
              | file identity => rfl
              | link target => rfl
            · rfl

theorem place_ok {place : Place} (placed : files.place path = .ok place) :
    Usable files path ∧
      walk files true maxLinks (files.origin path) path.names.dropLast =
        .ok (.found place.directory .directory) ∧
      place.trailingSlash = decide (path.text.bytes.getLast? = some OsText.slash) ∧
      ∀ name, place.name? = some name → NamesPlace files path place.directory name := by
  rw [place_apply] at placed
  cases called : callText path with
  | error failure => simp [called] at placed
  | ok text =>
      obtain rfl := callText_ok called
      simp only [called] at placed
      split at placed
      · simp at placed
      · rename_i startable
        have usable : Usable files path := by
          refine ⟨called, ?_⟩
          by_contra neither
          rw [not_or] at neither
          exact startable neither
        split at placed
        · simp at placed
        · simp at placed
        · rename_i directory reached
          split at placed
          · rw [Except.ok.injEq] at placed
            subst placed
            exact ⟨usable, reached, rfl, by simp⟩
          · rename_i last last_eq
            split at placed
            · rw [Except.ok.injEq] at placed
              subst placed
              exact ⟨usable, reached, rfl, by simp⟩
            · rename_i dots
              rw [not_or] at dots
              split at placed
              · simp at placed
              · rename_i short
                rw [Except.ok.injEq] at placed
                subst placed
                refine ⟨usable, reached, rfl, ?_⟩
                intro name same
                rw [Option.some.injEq] at same
                subst same
                exact ⟨usable, reached, last_eq, dots.1, dots.2, short⟩
        · simp at placed

theorem Usable.place_apply (usable : Usable files path) {directory : Location}
    (reached : walk files true maxLinks (files.origin path) path.names.dropLast =
      .ok (.found directory .directory)) :
    files.place path = match path.names.getLast? with
      | none => .ok ⟨directory, none, path.text.bytes.getLast? = some OsText.slash⟩
      | some last =>
          if last = "." ∨ last = ".." then
            .ok ⟨directory, none, path.text.bytes.getLast? = some OsText.slash⟩
          else if maxName < last.bytes.length then .error .nameTooLong
          else .ok ⟨directory, some last, path.text.bytes.getLast? = some OsText.slash⟩ := by
  have startable : ¬(path.text.bytes.head? ≠ some OsText.slash ∧
      files.node? files.current ≠ some .directory) := by
    rw [not_and_or, not_not, not_not]
    exact usable.startable
  rw [FileSystem.place_apply]
  cases path.names.getLast? <;> simp only [usable.callable, if_neg startable, reached]

/-- A place depends only on the directory that the names above it lead to. -/
theorem place_of_reached {other : FileSystem} {place : Place} (placed : files.place path = .ok place)
    (usable : Usable other path)
    (reached : walk other true maxLinks (other.origin path) path.names.dropLast =
      .ok (.found place.directory .directory)) : other.place path = .ok place := by
  obtain ⟨usableHere, reachedHere, -, -⟩ := place_ok placed
  rw [usableHere.place_apply reachedHere] at placed
  rw [usable.place_apply reached, placed]

theorem SameTree.usable {other : FileSystem} (same : SameTree files other)
    (usable : Usable files path) : Usable other path := by
  refine ⟨usable.callable, ?_⟩
  rcases usable.startable with isRoot | inside
  · exact Or.inl isRoot
  · rw [← same.current]
    exact Or.inr (same.directory_iff.mp inside)

theorem SameTree.origin {other : FileSystem} (same : SameTree files other) (path : Path) :
    files.origin path = other.origin path := by
  rw [FileSystem.origin, FileSystem.origin, same.current]

/-- The place of a path stays where it is when files come and go. -/
theorem place_congr {other : FileSystem} (same : SameTree files other) {place : Place}
    (placed : files.place path = .ok place) : other.place path = .ok place := by
  obtain ⟨usable, reached, -, -⟩ := place_ok placed
  rw [same.origin] at reached
  exact place_of_reached placed (same.usable usable) (walk_directory_congr same reached)

namespace NamesPlace

variable {directory : Location} {name : OsText}

theorem names_eq (names : NamesPlace files path directory name) :
    path.names = path.names.dropLast ++ [name] := by
  obtain ⟨front, shape⟩ := List.getLast?_eq_some_iff.mp names.last
  rw [shape, List.dropLast_concat]

theorem proper (names : NamesPlace files path directory name) : ProperName name := by
  have step := areSteps_names path name (List.mem_of_getLast? names.last)
  exact ⟨step.1, names.notHere, names.notUp, step.2⟩

theorem inside (names : NamesPlace files path directory name) (wellFormed : files.WellFormed) :
    files.node? directory = some .directory := by
  have steps : AreSteps path.names.dropLast := by
    intro step step_mem
    exact areSteps_names path step (List.dropLast_subset _ step_mem)
  exact walk_sound wellFormed names.usable.origin_directory steps names.reached

/-- A path leads to its own place, unless there is a link. -/
theorem resolve_eq (names : NamesPlace files path directory name)
    (noSlash : path.text.bytes.getLast? ≠ some OsText.slash)
    (noLink : ∀ target, files.node? (directory ++ [name]) ≠ some (.link target)) :
    files.resolve true path = .ok (match files.node? (directory ++ [name]) with
      | none => .vacant directory name
      | some node => .found (directory ++ [name]) node) := by
  rw [resolve_eq_ok]
  refine ⟨names.usable, ?_⟩
  obtain ⟨fewer, -, further⟩ := walk_append names.reached
  rw [Path.steps_eq, if_neg noSlash, names.names_eq, further]
  have last : walk files true fewer directory [name] = .ok (match files.node? (directory ++ [name]) with
      | none => .vacant directory name
      | some node => .found (directory ++ [name]) node) := by
    cases fewer <;> simp only [walk, walkSteps, if_neg names.notHere, if_neg names.notUp,
        if_neg names.short] <;>
      cases entry : files.node? (directory ++ [name]) with
      | none => rfl
      | some node =>
          cases node with
          | directory => rfl
          | file identity => rfl
          | link target => exact absurd entry (noLink target)
  exact last

end NamesPlace

/-! ## Opening -/

/-- Opening a file finds it or creates it; a failed attempt changes nothing. -/
theorem openFile_cases (wellFormed : files.WellFormed) (path : Path) :
    (∃ failure, openFile path files = .error failure files) ∨
    (∃ location identity, files.node? location = some (.file identity) ∧
      openFile path files = .ok identity files) ∨
    ∃ directory name, files.node? directory = some .directory ∧
      files.node? (directory ++ [name]) = none ∧ ProperName name ∧
      openFile path files = .ok files.nextFile (files.putFile (directory ++ [name]) ByteArray.empty) := by
  cases placed : files.place path with
  | error failure => exact Or.inl ⟨failure, by simp [openFile, placed]⟩
  | ok place =>
      by_cases unfit : place.name? = none ∨ place.trailingSlash = true
      · exact Or.inl ⟨.isDirectory, by simp only [openFile, placed, if_pos unfit]⟩
      · cases resolved : files.resolve true path with
        | error failure =>
            exact Or.inl ⟨failure, by simp only [openFile, placed, if_neg unfit, resolved]⟩
        | ok spot =>
            have sound := resolve_sound wellFormed resolved
            rcases spot with ⟨location, node⟩ | ⟨directory, name⟩
            · cases node with
              | file identity =>
                  refine Or.inr (Or.inl ⟨location, identity, sound, ?_⟩)
                  simp only [openFile, placed, if_neg unfit, resolved]
              | directory =>
                  exact Or.inl ⟨.isDirectory,
                    by simp only [openFile, placed, if_neg unfit, resolved]⟩
              | link target =>
                  exact Or.inl ⟨.isDirectory,
                    by simp only [openFile, placed, if_neg unfit, resolved]⟩
            · refine Or.inr (Or.inr ⟨directory, name, sound.1, sound.2.1, sound.2.2, ?_⟩)
              simp only [openFile, placed, if_neg unfit, resolved]

/-- Opening a file at its own place. -/
theorem openFile_eq {directory : Location} {name : OsText}
    (placed : files.place path = .ok ⟨directory, some name, false⟩)
    (noLink : ∀ target, files.node? (directory ++ [name]) ≠ some (.link target)) :
    openFile path files = match files.node? (directory ++ [name]) with
      | none => .ok files.nextFile (files.putFile (directory ++ [name]) ByteArray.empty)
      | some (.file identity) => .ok identity files
      | some _ => .error .isDirectory files := by
  obtain ⟨-, -, slash, names⟩ := place_ok placed
  have resolved := (names name rfl).resolve_eq (by simpa using slash) noLink
  simp only [openFile, placed, reduceCtorEq, or_self, if_false, resolved, Bool.false_eq_true]
  cases files.node? (directory ++ [name]) with
  | none => rfl
  | some node => cases node <;> rfl

end FileSystem

namespace FileLock

variable {files : FileSystem} {path : Path}

/-- What locking a file comes to: it is opened, and held if nobody holds it. -/
theorem tryAcquire_apply (path : Path) (files : FileSystem) :
    tryAcquire path files = match FileSystem.openFile path files with
      | .error failure after => .error (.io failure) after
      | .ok identity after =>
          if after.isHeld identity then .ok none after
          else .ok (some { identity, path }) (after.hold identity) := by
  cases opened : FileSystem.openFile path files with
  | error failure after => simp [tryAcquire, FileChange.run, opened]
  | ok identity after =>
      cases held : after.isHeld identity <;> simp [tryAcquire, FileChange.run, opened, held]

theorem path_tryAcquire {lock : FileLock} {after : FileSystem}
    (acquired : tryAcquire path files = .ok (some lock) after) : lock.path = path := by
  rw [tryAcquire_apply] at acquired
  split at acquired
  · simp at acquired
  · split at acquired
    · simp at acquired
    · simp only [EStateM.Result.ok.injEq, Option.some.injEq] at acquired
      rw [← acquired.1]

theorem wellFormed_tryAcquire (wellFormed : files.WellFormed) (path : Path) :
    (stateAfter (tryAcquire path) files).WellFormed := by
  rcases FileSystem.openFile_cases wellFormed path with
    ⟨failure, opened⟩ | ⟨location, identity, found, opened⟩ |
      ⟨directory, name, inside, vacant, proper, opened⟩
  · simpa [stateAfter, tryAcquire_apply, opened] using wellFormed
  · cases held : files.isHeld identity
    · simpa [stateAfter, tryAcquire_apply, opened, held] using
        wellFormed.hold (wellFormed.known_of_node? found)
    · simpa [stateAfter, tryAcquire_apply, opened, held] using wellFormed
  · have created := wellFormed.putFile ByteArray.empty inside vacant proper
    cases held : (files.putFile (directory ++ [name]) ByteArray.empty).isHeld files.nextFile
    · have known : files.nextFile <
          (files.putFile (directory ++ [name]) ByteArray.empty).nextFile := Nat.lt_succ_self _
      simpa [stateAfter, tryAcquire_apply, opened, held] using created.hold known
    · simpa [stateAfter, tryAcquire_apply, opened, held] using created

/-- Locking a file creates no more than a file. -/
theorem sameTree_tryAcquire (wellFormed : files.WellFormed) (path : Path) :
    FileSystem.SameTree files (stateAfter (tryAcquire path) files) := by
  rcases FileSystem.openFile_cases wellFormed path with
    ⟨failure, opened⟩ | ⟨location, identity, found, opened⟩ |
      ⟨directory, name, inside, vacant, proper, opened⟩
  · simpa [stateAfter, tryAcquire_apply, opened] using FileSystem.SameTree.refl files
  · cases held : files.isHeld identity
    · simpa [stateAfter, tryAcquire_apply, opened, held] using FileSystem.sameTree_hold files identity
    · simpa [stateAfter, tryAcquire_apply, opened, held] using FileSystem.SameTree.refl files
  · have created := FileSystem.sameTree_putFile ByteArray.empty vacant
    cases held : (files.putFile (directory ++ [name]) ByteArray.empty).isHeld files.nextFile
    · simpa [stateAfter, tryAcquire_apply, opened, held] using
        created.trans (FileSystem.sameTree_hold _ files.nextFile)
    · simpa [stateAfter, tryAcquire_apply, opened, held] using created

/-- Removing a locked file takes the name at its place away, unless nothing or a directory has it. -/
theorem stateAfter_remove (lock : FileLock) (files : FileSystem) :
    stateAfter lock.remove files = (stateAfter (FileSystem.unlink lock.path) files).unhold
      lock.identity := by
  cases unlinked : FileSystem.unlink lock.path files with
  | ok _ after => simp [stateAfter, remove, unlinked]
  | error failure after =>
      by_cases gone : failure = .notFound <;> simp [stateAfter, remove, unlinked, gone]

end FileLock

namespace FileSystem

variable {files : FileSystem} {path : Path}

/-- Unlinking changes nothing, or takes the name of a file or link away. -/
theorem stateAfter_unlink (path : Path) (files : FileSystem) :
    stateAfter (unlink path) files = files ∨
      ∃ location, files.node? location ≠ some .directory ∧
        stateAfter (unlink path) files = files.erase location := by
  cases placed : files.place path with
  | error failure => simp [stateAfter, unlink, placed]
  | ok place =>
      by_cases unnamed : place.name? = none
      · simp [stateAfter, unlink, placed, unnamed]
      · cases entry : files.node? place.location with
        | none => simp [stateAfter, unlink, placed, unnamed, entry]
        | some node =>
            cases node with
            | directory => simp [stateAfter, unlink, placed, unnamed, entry]
            | file identity =>
                cases slash : place.trailingSlash
                · right
                  refine ⟨place.location, by simp [entry], ?_⟩
                  simp [stateAfter, unlink, placed, unnamed, entry, slash]
                · simp [stateAfter, unlink, placed, unnamed, entry, slash]
            | link target =>
                cases slash : place.trailingSlash
                · right
                  refine ⟨place.location, by simp [entry], ?_⟩
                  simp [stateAfter, unlink, placed, unnamed, entry, slash]
                · simp [stateAfter, unlink, placed, unnamed, entry, slash]

theorem wellFormed_unlink (wellFormed : files.WellFormed) (path : Path) :
    (stateAfter (unlink path) files).WellFormed := by
  rcases stateAfter_unlink path files with unchanged | ⟨location, leaf, erased⟩
  · rw [unchanged]
    exact wellFormed
  · rw [erased]
    exact wellFormed.erase leaf

end FileSystem

namespace FileLock

variable {files : FileSystem}

theorem wellFormed_remove (wellFormed : files.WellFormed) (lock : FileLock) :
    (stateAfter lock.remove files).WellFormed := by
  rw [stateAfter_remove]
  exact (FileSystem.wellFormed_unlink wellFormed lock.path).unhold lock.identity

theorem wellFormed_removeStale (wellFormed : files.WellFormed) (path : Path) :
    (stateAfter (removeStale path) files).WellFormed := by
  cases found : files.entry true path with
  | error failure =>
      by_cases gone : failure = .notFound <;>
        simpa [stateAfter, removeStale, found, gone] using wellFormed
  | ok entry =>
      obtain ⟨location, node⟩ := entry
      cases node with
      | directory => simpa [stateAfter, removeStale, found] using wellFormed
      | link target => simpa [stateAfter, removeStale, found] using wellFormed
      | file identity =>
          cases held : files.isHeld identity with
          | true => simpa [stateAfter, removeStale, found, held] using wellFormed
          | false =>
              have isFile := FileSystem.resolve_sound wellFormed (FileSystem.entry_eq_ok.mp found)
              have locked := wellFormed.hold (wellFormed.known_of_node? isFile)
              have removed := wellFormed_remove locked { identity, path }
              cases gone : remove { identity, path } (files.hold identity) with
              | ok _ after =>
                  rw [stateAfter_of_ok gone] at removed
                  simpa [stateAfter, removeStale, found, held, gone] using removed
              | error error after =>
                  rw [stateAfter_of_error gone] at removed
                  simpa [stateAfter, removeStale, found, held, gone] using removed

end FileLock

end Checkout
