import Checkout.Proofs.FileSystem.Parents
import Checkout.Proofs.WorkingCopy.Preorder

/-!
# States with fewer locks

One state has fewer files and fewer of them are held than in another one, which is otherwise like it. A file
that can be locked in the state with more locks can be locked in the other, and they stay alike. The same
directories are versioned, unless a record is one of the files that one state does not have.
-/

namespace Checkout

namespace FileSystem

variable {files other after : FileSystem} {known identity : Nat} {extra : Set Location} {path : Path}
  {location : Location} {lock : FileLock}

/-! ## Opening through links -/

theorem openFile_ok (opened : openFile path files = .ok identity after) :
    ∃ place, files.place path = .ok place ∧ ¬(place.name? = none ∨ place.trailingSlash = true) ∧
      ((∃ location, files.resolve true path = .ok (.found location (.file identity)) ∧ after = files) ∨
        ∃ directory name, files.resolve true path = .ok (.vacant directory name) ∧
          identity = files.nextFile ∧ after = files.putFile (directory ++ [name]) ByteArray.empty) := by
  rw [openFile] at opened
  cases placed : files.place path with
  | error failure => simp [placed] at opened
  | ok place =>
      by_cases unfit : place.name? = none ∨ place.trailingSlash = true
      · simp only [placed, if_pos unfit] at opened
        simp at opened
      · simp only [placed, if_neg unfit] at opened
        refine ⟨place, rfl, unfit, ?_⟩
        cases resolved : files.resolve true path with
        | error failure => simp [resolved] at opened
        | ok spot =>
            rcases spot with ⟨location, node⟩ | ⟨directory, name⟩
            · cases node with
              | file reached =>
                  simp only [resolved, EStateM.Result.ok.injEq] at opened
                  obtain ⟨rfl, rfl⟩ := opened
                  exact Or.inl ⟨location, rfl, rfl⟩
              | directory => simp [resolved] at opened
              | link target => simp [resolved] at opened
            · simp only [resolved, EStateM.Result.ok.injEq] at opened
              obtain ⟨rfl, rfl⟩ := opened
              exact Or.inr ⟨directory, name, rfl, rfl, rfl⟩

theorem openFile_of_found {place : Place} (placed : files.place path = .ok place)
    (fit : ¬(place.name? = none ∨ place.trailingSlash = true))
    (resolved : files.resolve true path = .ok (.found location (.file identity))) :
    openFile path files = .ok identity files := by
  simp only [openFile, placed, if_neg fit, resolved]

theorem openFile_of_vacant {place : Place} {directory : Location} {name : OsText}
    (placed : files.place path = .ok place) (fit : ¬(place.name? = none ∨ place.trailingSlash = true))
    (resolved : files.resolve true path = .ok (.vacant directory name)) :
    openFile path files =
      .ok files.nextFile (files.putFile (directory ++ [name]) ByteArray.empty) := by
  simp only [openFile, placed, if_neg fit, resolved]

/-- Two spots at one location, neither of which is an entry, are the same. -/
theorem resolve_vacant (wellFormed : files.WellFormed) {spot : Spot} {directory : Location}
    {name : OsText} (resolved : files.resolve true path = .ok spot)
    (location_eq : spot.location = directory ++ [name])
    (vacant : files.node? (directory ++ [name]) = none) :
    files.resolve true path = .ok (.vacant directory name) := by
  have sound := resolve_sound wellFormed resolved
  rw [resolved, Except.ok.injEq]
  rcases spot with ⟨reached, node⟩ | ⟨inner, last⟩
  · obtain rfl : reached = directory ++ [name] := location_eq
    rw [Spot.Sound, vacant] at sound
    simp at sound
  · have split : inner ++ [last] = directory ++ [name] := location_eq
    obtain ⟨rfl, same⟩ := List.append_inj' split rfl
    rw [List.cons.inj same |>.1]

/-! ## The relation -/

/-- Some file has its name at a location. -/
def HasFile (files : FileSystem) (location : Location) : Prop :=
  ∃ identity, files.node? location = some (.file identity)

/--
One state has fewer locks than another. The files stand at the same locations, but for some `extra` ones, where
only the other state has files, and holds them. Known files are the same in both states; newer ones are held.
-/
structure LessLocked (known : Nat) (extra : Set Location) (files other : FileSystem) : Prop where
  sameTree : SameTree files other
  wellFormed : files.WellFormed
  otherWellFormed : other.WellFormed
  known_le : known ≤ files.nextFile
  known_le_other : known ≤ other.nextFile
  elsewhere : ∀ location, location ∉ extra → (files.HasFile location ↔ other.HasFile location)
  extraHeld : ∀ location ∈ extra, ∃ identity ∈ other.held, other.node? location = some (.file identity)
  paired : ∀ location first second, files.node? location = some (.file first) →
    other.node? location = some (.file second) →
      (first = second ∧ first < known ∧ (first ∈ files.held → first ∈ other.held)) ∨
        (known ≤ first ∧ known ≤ second ∧ first ∈ files.held ∧ second ∈ other.held)

section Relation

variable (less : LessLocked known extra files other)

include less

/-- A file that nobody holds in the other state is a known file, which nobody holds in this one. -/
theorem LessLocked.free (isFile : other.node? location = some (.file identity))
    (free : identity ∉ other.held) :
    files.node? location = some (.file identity) ∧ identity < known ∧ identity ∉ files.held := by
  have outside : location ∉ extra := by
    intro inside
    obtain ⟨again, held, isFile'⟩ := less.extraHeld location inside
    rw [isFile, Option.some.injEq, Node.file.injEq] at isFile'
    exact free (isFile' ▸ held)
  obtain ⟨first, first_eq⟩ := (less.elsewhere location outside).mpr ⟨identity, isFile⟩
  rcases less.paired location first identity first_eq isFile with
    ⟨rfl, isKnown, held⟩ | ⟨-, -, -, held⟩
  · exact ⟨first_eq, isKnown, fun here => free (held here)⟩
  · exact absurd held free

theorem LessLocked.vacant (vacant : other.node? location = none) : files.node? location = none := by
  have outside : location ∉ extra := by
    intro inside
    obtain ⟨again, -, isFile⟩ := less.extraHeld location inside
    simp [vacant] at isFile
  cases here : files.node? location with
  | none => rfl
  | some node =>
      cases node with
      | directory => simp [less.sameTree.directory_iff.mp here] at vacant
      | link target => simp [less.sameTree.link_iff.mp here] at vacant
      | file first =>
          obtain ⟨second, isFile⟩ := (less.elsewhere location outside).mp ⟨first, here⟩
          simp [vacant] at isFile

/-- The states stay alike when a known file is held in both. -/
theorem LessLocked.hold (isKnown : identity < known) :
    LessLocked known extra (files.hold identity) (other.hold identity) := by
  have sameTree := (sameTree_hold files identity).symm.trans
    (less.sameTree.trans (sameTree_hold other identity))
  refine ⟨sameTree, less.wellFormed.hold (isKnown.trans_le less.known_le),
    less.otherWellFormed.hold (isKnown.trans_le less.known_le_other), less.known_le,
    less.known_le_other, less.elsewhere, ?_, ?_⟩
  · intro location inside
    obtain ⟨again, held, isFile⟩ := less.extraHeld location inside
    exact ⟨again, List.mem_cons_of_mem _ held, isFile⟩
  · intro location first second first_eq second_eq
    rcases less.paired location first second first_eq second_eq with
      ⟨same, isKnown, held⟩ | ⟨new, newer, held, otherHeld⟩
    · refine Or.inl ⟨same, isKnown, ?_⟩
      intro here
      rcases List.mem_cons.mp here with rfl | older
      · exact List.mem_cons_self
      · exact List.mem_cons_of_mem _ (held older)
    · exact Or.inr ⟨new, newer, List.mem_cons_of_mem _ held, List.mem_cons_of_mem _ otherHeld⟩

/-- The states stay alike when a file is created in both, and held. -/
theorem LessLocked.create {directory : Location} {name : OsText}
    (inside : files.node? directory = some .directory) (proper : ProperName name)
    (vacant : files.node? (directory ++ [name]) = none)
    (otherVacant : other.node? (directory ++ [name]) = none) :
    LessLocked known extra
      ((files.putFile (directory ++ [name]) ByteArray.empty).hold files.nextFile)
      ((other.putFile (directory ++ [name]) ByteArray.empty).hold other.nextFile) := by
  have nonroot : directory ++ [name] ≠ [] := by simp
  have created := less.wellFormed.putFile ByteArray.empty inside vacant proper
  have otherCreated := less.otherWellFormed.putFile ByteArray.empty
    (less.sameTree.directory_iff.mp inside) otherVacant proper
  have same := (sameTree_putFile ByteArray.empty vacant).trans (sameTree_hold _ files.nextFile)
  have otherSame :=
    (sameTree_putFile ByteArray.empty otherVacant).trans (sameTree_hold _ other.nextFile)
  have sameTree := same.symm.trans (less.sameTree.trans otherSame)
  refine ⟨sameTree, created.hold (Nat.lt_succ_self _), otherCreated.hold (Nat.lt_succ_self _),
    less.known_le.trans (Nat.le_succ _), less.known_le_other.trans (Nat.le_succ _), ?_, ?_, ?_⟩
  · intro location outside
    rcases eq_or_ne location (directory ++ [name]) with rfl | apart
    · simp [HasFile, node?_putFile_self nonroot]
    · simpa [HasFile, node?_putFile_of_ne apart] using less.elsewhere location outside
  · intro location listed
    obtain ⟨again, held, isFile⟩ := less.extraHeld location listed
    refine ⟨again, List.mem_cons_of_mem _ held, ?_⟩
    rw [node?_hold, node?_putFile_of_ne, isFile]
    rintro rfl
    simp [otherVacant] at isFile
  · intro location first second first_eq second_eq
    rw [node?_hold] at first_eq second_eq
    rcases eq_or_ne location (directory ++ [name]) with rfl | apart
    · rw [node?_putFile_self nonroot, Option.some.injEq, Node.file.injEq] at first_eq second_eq
      subst first_eq second_eq
      exact Or.inr ⟨less.known_le, less.known_le_other, List.mem_cons_self, List.mem_cons_self⟩
    · rw [node?_putFile_of_ne apart] at first_eq second_eq
      rcases less.paired location first second first_eq second_eq with
        ⟨same, isKnown, held⟩ | ⟨new, newer, held, otherHeld⟩
      · refine Or.inl ⟨same, isKnown, ?_⟩
        intro here
        rcases List.mem_cons.mp here with rfl | older
        · exact absurd isKnown (Nat.not_lt.mpr less.known_le)
        · exact List.mem_cons_of_mem _ (held older)
      · exact Or.inr ⟨new, newer, List.mem_cons_of_mem _ held, List.mem_cons_of_mem _ otherHeld⟩

/-- What can be locked where more is locked can be locked where less is. -/
theorem LessLocked.tryAcquire (ran : FileLock.tryAcquire path other = .ok (some lock) after) :
    ∃ first last, FileLock.tryAcquire path files = .ok (some first) last ∧
      LessLocked known extra last after := by
  rw [FileLock.tryAcquire_apply] at ran
  split at ran
  · simp at ran
  · rename_i identity opened_files opened
    split at ran
    · simp at ran
    · rename_i free
      rw [EStateM.Result.ok.injEq] at ran
      obtain ⟨-, rfl⟩ := ran
      obtain ⟨place, placed, fit, outcome⟩ := openFile_ok opened
      have placed' := place_congr less.sameTree.symm placed
      rcases outcome with ⟨location, resolved, rfl⟩ | ⟨directory, name, resolved, rfl, rfl⟩
      · have isFile := resolve_sound less.otherWellFormed resolved
        obtain ⟨here, isKnown, free'⟩ := less.free isFile (by simpa [isHeld] using free)
        obtain ⟨spot, resolved', location_eq⟩ := resolve_location less.sameTree.symm resolved
        have found := found_of_node? less.wellFormed resolved' location_eq here
        refine ⟨⟨identity, path⟩, files.hold identity, ?_, less.hold isKnown⟩
        rw [FileLock.tryAcquire_apply, openFile_of_found placed' fit (entry_eq_ok.mp found)]
        simp [isHeld, free']
      · obtain ⟨inside, otherVacant, proper⟩ := resolve_sound less.otherWellFormed resolved
        have vacant := less.vacant otherVacant
        obtain ⟨spot, resolved', location_eq⟩ := resolve_location less.sameTree.symm resolved
        have resolved' := resolve_vacant less.wellFormed resolved' location_eq vacant
        refine ⟨⟨files.nextFile, path⟩, _, ?_,
          less.create (less.sameTree.directory_iff.mpr inside) proper vacant otherVacant⟩
        rw [FileLock.tryAcquire_apply, openFile_of_vacant placed' fit resolved']
        have fresh : files.nextFile ∉ files.held :=
          fun held => Nat.lt_irrefl _ (less.wellFormed.heldKnown _ held)
        simp [isHeld, putFile, setBytes, put, fresh]

/-! ## What is versioned -/

theorem LessLocked.isVersioned_eq (record : files.RecordOutside extra path) :
    files.isVersioned path = other.isVersioned path := by
  rw [Bool.eq_iff_iff, isVersioned, isVersioned, isFile_iff, isFile_iff]
  constructor
  · rintro ⟨location, first, found⟩
    have isFile : files.node? location = some (.file first) :=
      resolve_sound less.wellFormed (entry_eq_ok.mp found)
    obtain ⟨second, isFile'⟩ :=
      (less.elsewhere location (record _ (entry_eq_ok.mp found))).mp ⟨first, isFile⟩
    obtain ⟨spot, resolved, location_eq⟩ := resolve_location less.sameTree (entry_eq_ok.mp found)
    exact ⟨location, second, found_of_node? less.otherWellFormed resolved location_eq isFile'⟩
  · rintro ⟨location, second, found⟩
    have isFile : other.node? location = some (.file second) :=
      resolve_sound less.otherWellFormed (entry_eq_ok.mp found)
    obtain ⟨spot, resolved, location_eq⟩ := resolve_location less.sameTree.symm (entry_eq_ok.mp found)
    have outside := record spot resolved
    rw [location_eq] at outside
    obtain ⟨first, isFile'⟩ := (less.elsewhere location outside).mpr ⟨second, isFile⟩
    exact ⟨location, first, found_of_node? less.wellFormed resolved location_eq isFile'⟩

/-- Where the children of a directory have their records elsewhere, they are the same in both states. -/
theorem LessLocked.versionedChildren (absolute : path.isAbsolute = true)
    (records : ∀ name, ProperName name → files.RecordOutside extra (path.join name))
    {children : List Path} (listed : other.versionedChildren path = .ok children) :
    files.versionedChildren path = .ok children := by
  obtain ⟨names, subdirectories, rfl⟩ := less.otherWellFormed.subdirectories absolute listed
  have found : ∃ location, other.entry true path = .ok (location, .directory) := by
    simp only [FileSystem.versionedChildren, list, bind, Except.bind] at listed
    rcases reached : other.entry true path with failure | ⟨location, node⟩
    · simp [reached] at listed
    · cases node <;> simp [reached] at listed ⊢
  obtain ⟨location, found⟩ := found
  have same : files.Subdirectories path names := by
    refine ⟨subdirectories.inOrder, ?_⟩
    intro name
    rw [subdirectories.mem_iff name]
    apply exists_congr
    intro location
    rw [less.sameTree.directory_iff]
    have same_entry : other.entry true path = .ok (location, .directory) ↔
        files.entry true path = .ok (location, .directory) :=
      ⟨entry_congr less.sameTree.symm, entry_congr less.sameTree⟩
    rw [same_entry]
    apply and_congr_right
    intro _
    apply and_congr_right
    intro inside
    have proper := less.otherWellFormed.proper_of_node? inside name (by simp)
    rw [less.isVersioned_eq (records name proper)]
  exact same.listed less.wellFormed absolute (entry_congr less.sameTree.symm found)

/-- The canonical path of an entry of a directory stays canonical, unless it leads to a file that was not
there. -/
theorem LessLocked.canonical {front : Location} {name : OsText}
    (proper : ∀ other ∈ front ++ [name], ProperName other)
    (above : files.entry true front.path = .ok (front, .directory))
    (canonical : files.canonical (Location.path (front ++ [name])) =
      .ok (Location.path (front ++ [name]))) :
    other.canonical (Location.path (front ++ [name])) = .ok (Location.path (front ++ [name])) ∨
      ∃ spot, files.resolve true (Location.path (front ++ [name])) = .ok spot ∧
        spot.location ∈ extra ∧
        other.canonical (Location.path (front ++ [name])) = .ok spot.location.path := by
  cases real_eq : other.realPath? (Location.path (front ++ [name])) with
  | none => exact Or.inl (canonical_of_missing proper (entry_congr less.sameTree above) real_eq)
  | some real =>
      obtain ⟨location, node, found, rfl⟩ := exists_entry_of_realPath real_eq
      have inside := resolve_sound less.otherWellFormed (entry_eq_ok.mp found)
      obtain ⟨spot, resolved, location_eq⟩ :=
        resolve_location less.sameTree.symm (entry_eq_ok.mp found)
      by_cases listed : location ∈ extra
      · refine Or.inr ⟨spot, resolved, location_eq ▸ listed, ?_⟩
        rw [canonical_of_entry found, location_eq]
        rfl
      · -- what stands there now stood there before
        left
        have before : ∃ former, files.node? location = some former := by
          cases here : files.node? location with
          | some former => exact ⟨former, rfl⟩
          | none =>
              cases node with
              | directory => simp [less.sameTree.directory_iff.mpr inside] at here
              | link target => simp [less.sameTree.link_iff.mpr inside] at here
              | file identity =>
                  obtain ⟨first, first_eq⟩ := (less.elsewhere location listed).mpr ⟨identity, inside⟩
                  simp [here] at first_eq
        obtain ⟨former, former_eq⟩ := before
        have found' := found_of_node? less.wellFormed resolved location_eq former_eq
        rw [canonical_of_entry found'] at canonical
        exact (canonical_of_entry found).trans canonical

end Relation

/-! ## One lock -/

/-- To open the file at a path creates it at a location. -/
def Creates (files : FileSystem) (path : Path) (location : Location) : Prop :=
  ∃ directory name, files.resolve true path = .ok (.vacant directory name) ∧
    location = directory ++ [name]

theorem not_creates_of_found {node : Node} {other : Location}
    (resolved : files.resolve true path = .ok (.found location node)) : ¬files.Creates path other := by
  rintro ⟨directory, name, resolved', -⟩
  simp [resolved] at resolved'

theorem lessLocked_refl (wellFormed : files.WellFormed) :
    LessLocked files.nextFile ∅ files files := by
  refine ⟨.refl files, wellFormed, wellFormed, le_rfl, le_rfl, fun _ _ => Iff.rfl, by simp, ?_⟩
  intro location first second first_eq second_eq
  rw [first_eq, Option.some.injEq, Node.file.injEq] at second_eq
  subst second_eq
  exact Or.inl ⟨rfl, wellFormed.known_of_node? first_eq, id⟩

/-- A file that is there is locked. -/
theorem lessLocked_hold (wellFormed : files.WellFormed) (known : identity < files.nextFile) :
    LessLocked files.nextFile ∅ files (files.hold identity) := by
  have same := lessLocked_refl wellFormed
  refine ⟨sameTree_hold files identity, wellFormed, wellFormed.hold known, le_rfl, le_rfl,
    same.elsewhere, by simp, ?_⟩
  intro location first second first_eq second_eq
  rcases same.paired location first second first_eq second_eq with
    ⟨same, isKnown, -⟩ | ⟨new, -⟩
  · exact Or.inl ⟨same, isKnown, fun held => List.mem_cons_of_mem _ (same ▸ held)⟩
  · exact absurd (wellFormed.known_of_node? first_eq) (Nat.not_lt.mpr new)

/-- A file is created and locked. -/
theorem lessLocked_create (wellFormed : files.WellFormed) {directory : Location} {name : OsText}
    (inside : files.node? directory = some .directory) (proper : ProperName name)
    (vacant : files.node? (directory ++ [name]) = none) :
    LessLocked files.nextFile {directory ++ [name]} files
      ((files.putFile (directory ++ [name]) ByteArray.empty).hold files.nextFile) := by
  have same := lessLocked_refl wellFormed
  have nonroot : directory ++ [name] ≠ [] := by simp
  have created := wellFormed.putFile ByteArray.empty inside vacant proper
  refine ⟨(sameTree_putFile ByteArray.empty vacant).trans (sameTree_hold _ _), wellFormed,
    created.hold (Nat.lt_succ_self _), le_rfl, Nat.le_succ _, ?_, ?_, ?_⟩
  · intro location apart
    simp [HasFile, node?_putFile_of_ne apart]
  · rintro location rfl
    exact ⟨files.nextFile, List.mem_cons_self, by rw [node?_hold, node?_putFile_self nonroot]⟩
  · intro location first second first_eq second_eq
    have apart : location ≠ directory ++ [name] := by
      rintro rfl
      simp [vacant] at first_eq
    rw [node?_hold, node?_putFile_of_ne apart] at second_eq
    rcases same.paired location first second first_eq second_eq with
      ⟨same, isKnown, -⟩ | ⟨new, -⟩
    · exact Or.inl ⟨same, isKnown, fun held => List.mem_cons_of_mem _ (same ▸ held)⟩
    · exact absurd (wellFormed.known_of_node? first_eq) (Nat.not_lt.mpr new)

theorem length_le_putFile (bytes : ByteArray) (nonroot : location ≠ [])
    (vacant : files.node? location = none) :
    files.nodes.length ≤ (files.putFile location bytes).nodes.length := by
  have kept : files.nodes.filter (fun entry => entry.1 ≠ location) = files.nodes := by
    apply List.filter_eq_self.mpr
    intro entry entry_mem
    rw [decide_eq_true_eq]
    rintro rfl
    rw [node?, if_neg nonroot] at vacant
    simp only [Option.map_eq_none_iff, List.find?_eq_none, decide_eq_true_eq] at vacant
    exact vacant entry entry_mem rfl
  simp only [putFile, setBytes, put, kept, List.length_append]
  omega

/-- Before a file is locked there is less locked than afterwards. -/
theorem lessLocked_tryAcquire (wellFormed : files.WellFormed)
    (ran : FileLock.tryAcquire path files = .ok (some lock) after) :
    LessLocked files.nextFile {location | files.Creates path location} files after ∧
      files.nodes.length ≤ after.nodes.length := by
  rw [FileLock.tryAcquire_apply] at ran
  split at ran
  · simp at ran
  · rename_i identity opened_files opened
    split at ran
    · simp at ran
    · rw [EStateM.Result.ok.injEq] at ran
      obtain ⟨-, rfl⟩ := ran
      obtain ⟨place, -, -, ⟨location, resolved, rfl⟩ | ⟨directory, name, resolved, rfl, rfl⟩⟩ :=
        openFile_ok opened
      · have nowhere : {location | opened_files.Creates path location} = ∅ :=
          Set.eq_empty_of_forall_notMem fun _ => not_creates_of_found resolved
        rw [nowhere]
        exact ⟨lessLocked_hold wellFormed (wellFormed.known_of_node? (resolve_sound wellFormed resolved)),
          le_rfl⟩
      · obtain ⟨inside, vacant, proper⟩ := resolve_sound wellFormed resolved
        have there : {location | files.Creates path location} = {directory ++ [name]} := by
          ext location
          constructor
          · rintro ⟨above, last, resolved', rfl⟩
            simp only [resolved, Except.ok.injEq, Spot.vacant.injEq] at resolved'
            obtain ⟨rfl, rfl⟩ := resolved'
            rfl
          · rintro rfl
            exact ⟨directory, name, resolved, rfl⟩
        rw [there]
        exact ⟨lessLocked_create wellFormed inside proper vacant,
          length_le_putFile ByteArray.empty (by simp) vacant⟩

end FileSystem

end Checkout
