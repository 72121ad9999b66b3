import Checkout.Proofs.FileSystem.Agree
import Checkout.Proofs.WorkingCopy.Versioned
import Mathlib.Data.Multiset.MapFold
import Mathlib.Data.Multiset.UnionInter

/-!
# Live locks on files

A lock on a file is live until it is given back. While none of the paths in use names a link, taking locks
and giving them back keeps each live lock on a file of its own, which stands at the path of the lock. If
nobody else holds a file in use, what can be seen of a file tells exactly whether a live lock is on it.
-/

namespace Checkout

namespace FileSystem

variable {used : Set Path} {files after : FileSystem} {live : Multiset FileLock} {lock : FileLock}
  {path : Path} {location : Location} {identity : Nat}

/-- The path names the file with this identity. -/
def NamesFile (files : FileSystem) (path : Path) (identity : Nat) : Prop :=
  ∃ location, files.IsPlace path location ∧ files.node? location = some (.file identity)

theorem NamesFile.unique {other : Nat} (here : files.NamesFile path identity)
    (there : files.NamesFile path other) : identity = other := by
  rcases here with ⟨location, place, isFile⟩
  rcases there with ⟨another, anotherPlace, alsoFile⟩
  rw [place.unique anotherPlace, alsoFile, Option.some.injEq, Node.file.injEq] at isFile
  exact isFile.symm

theorem NamesLink.congr (same : SameTree files after) (linked : files.NamesLink path) :
    after.NamesLink path := by
  rcases linked with ⟨location, target, place, isLink⟩
  exact ⟨location, target, place.congr same, same.link_iff.mp isLink⟩

theorem sameTree_unhold (files : FileSystem) (identity : Nat) :
    SameTree files (files.unhold identity) :=
  ⟨rfl, fun _ => rfl⟩

/-- No path in use names a link, and each live lock holds a file of its own at its own path. -/
structure Guarded (used : Set Path) (files : FileSystem) (live : Multiset FileLock) : Prop where
  wellFormed : files.WellFormed
  noLink : ∀ path ∈ used, ¬files.NamesLink path
  distinct : (live.map FileLock.identity).Nodup
  inUse : ∀ lock ∈ live, lock.path ∈ used
  placed : ∀ lock ∈ live, files.NamesFile lock.path lock.identity
  held : ∀ lock ∈ live, lock.identity ∈ files.held

namespace Guarded

theorem start (wellFormed : files.WellFormed) (noLink : ∀ path ∈ used, ¬files.NamesLink path) :
    Guarded used files 0 :=
  ⟨wellFormed, noLink, by simp, by simp, by simp, by simp⟩

theorem took (guarded : Guarded used files live) (path_mem : lock.path ∈ used)
    (took : Took files after lock location) : Guarded used after (lock ::ₘ live) := by
  have same := took.sameTree
  have apart : ∀ other ∈ live, other.identity ≠ lock.identity := by
    intro other other_mem equal
    exact took.free (equal ▸ guarded.held other other_mem)
  refine ⟨took.wellFormed, ?_, ?_, ?_, ?_, ?_⟩
  · intro path path_mem linked
    exact guarded.noLink path path_mem (linked.congr same.symm)
  · rw [Multiset.map_cons, Multiset.nodup_cons]
    refine ⟨?_, guarded.distinct⟩
    intro listed
    rcases Multiset.mem_map.mp listed with ⟨other, other_mem, equal⟩
    exact apart other other_mem equal
  · intro other other_mem
    rcases Multiset.mem_cons.mp other_mem with rfl | older
    · exact path_mem
    · exact guarded.inUse other older
  · intro other other_mem
    rcases Multiset.mem_cons.mp other_mem with rfl | older
    · exact ⟨location, took.place.congr same, took.here⟩
    · rcases guarded.placed other older with ⟨elsewhere, place, isFile⟩
      refine ⟨elsewhere, place.congr same, ?_⟩
      rw [took.elsewhere, isFile]
      rintro rfl
      rcases took.was with found | ⟨-, vacant⟩
      · rw [found, Option.some.injEq, Node.file.injEq] at isFile
        exact apart other older isFile.symm
      · simp [vacant] at isFile
  · intro other other_mem
    rw [took.held, List.mem_cons]
    rcases Multiset.mem_cons.mp other_mem with rfl | older
    · exact Or.inl rfl
    · exact Or.inr (guarded.held other older)

theorem apart_of_cons (guarded : Guarded used files (lock ::ₘ live)) :
    ∀ other ∈ live, other.identity ≠ lock.identity := by
  intro other other_mem equal
  have distinct := guarded.distinct
  rw [Multiset.map_cons, Multiset.nodup_cons] at distinct
  exact distinct.1 (Multiset.mem_map.mpr ⟨other, other_mem, equal⟩)

/-- The rest of the locks stay live in a state where their files are still held. -/
theorem without (guarded : Guarded used files (lock ::ₘ live)) (wellFormed : after.WellFormed)
    (same : SameTree files after)
    (kept : ∀ other ∈ live, ∀ location, files.node? location = some (.file other.identity) →
      after.node? location = some (.file other.identity))
    (held : ∀ other ∈ live, other.identity ∈ after.held) : Guarded used after live := by
  have distinct := guarded.distinct
  rw [Multiset.map_cons, Multiset.nodup_cons] at distinct
  refine ⟨wellFormed, ?_, distinct.2, ?_, ?_, held⟩
  · intro path path_mem linked
    exact guarded.noLink path path_mem (linked.congr same.symm)
  · intro other other_mem
    exact guarded.inUse other (Multiset.mem_cons_of_mem other_mem)
  · intro other other_mem
    rcases guarded.placed other (Multiset.mem_cons_of_mem other_mem) with ⟨location, place, isFile⟩
    exact ⟨location, place.congr same, kept other other_mem location isFile⟩

theorem gave (guarded : Guarded used files (lock ::ₘ live)) (gave : Gave files after lock location) :
    Guarded used after live := by
  apply guarded.without gave.wellFormed gave.sameTree
  · intro other other_mem elsewhere isFile
    rw [gave.elsewhere, isFile]
    rintro rfl
    rw [gave.was, Option.some.injEq, Node.file.injEq] at isFile
    exact guarded.apart_of_cons other other_mem isFile.symm
  · intro other other_mem
    rw [gave.held]
    exact ⟨guarded.held other (Multiset.mem_cons_of_mem other_mem),
      guarded.apart_of_cons other other_mem⟩

/-- A lock that is dropped leaves its file behind. -/
theorem drop (guarded : Guarded used files (lock ::ₘ live)) :
    Guarded used (files.unhold lock.identity) live := by
  apply guarded.without (guarded.wellFormed.unhold _) (sameTree_unhold files lock.identity)
  · intro other other_mem location isFile
    exact isFile
  · intro other other_mem
    simp only [unhold, List.mem_filter, decide_eq_true_eq]
    exact ⟨guarded.held other (Multiset.mem_cons_of_mem other_mem),
      guarded.apart_of_cons other other_mem⟩

theorem exists_gave (guarded : Guarded used files (lock ::ₘ live)) :
    ∃ location, Gave files (stateAfter lock.remove files) lock location := by
  rcases guarded.placed lock (Multiset.mem_cons_self _ _) with ⟨location, place, isFile⟩
  exact ⟨location, gave_remove guarded.wellFormed place isFile⟩

end Guarded

/-! ## Files that nobody else holds -/

/-- Whoever holds a file in use does so by a live lock. -/
def Owned (used : Set Path) (files : FileSystem) (live : Multiset FileLock) : Prop :=
  ∀ path ∈ used, ∀ identity, files.NamesFile path identity → identity ∈ files.held →
    ∃ lock ∈ live, lock.identity = identity

namespace Owned

theorem took (owned : Owned used files live) (took : Took files after lock location) :
    Owned used after (lock ::ₘ live) := by
  rintro path path_mem identity ⟨elsewhere, place, isFile⟩ held
  rcases eq_or_ne elsewhere location with rfl | apart
  · rw [took.here, Option.some.injEq, Node.file.injEq] at isFile
    exact ⟨lock, Multiset.mem_cons_self _ _, isFile⟩
  · rw [took.elsewhere elsewhere apart] at isFile
    rw [took.held, List.mem_cons] at held
    rcases held with rfl | older
    · exact ⟨lock, Multiset.mem_cons_self _ _, rfl⟩
    · rcases owned path path_mem identity ⟨elsewhere, place.congr took.sameTree.symm, isFile⟩ older with
        ⟨other, other_mem, equal⟩
      exact ⟨other, Multiset.mem_cons_of_mem other_mem, equal⟩

/-- Files stay owned when one lock less holds one file less. -/
theorem without (owned : Owned used files (lock ::ₘ live)) (same : SameTree files after)
    (kept : ∀ location identity, after.node? location = some (.file identity) →
      files.node? location = some (.file identity))
    (held : ∀ identity, identity ∈ after.held → identity ∈ files.held ∧ identity ≠ lock.identity) :
    Owned used after live := by
  rintro path path_mem identity ⟨location, place, isFile⟩ stillHeld
  rcases held identity stillHeld with ⟨wasHeld, apart⟩
  rcases owned path path_mem identity
    ⟨location, place.congr same.symm, kept location identity isFile⟩ wasHeld with
      ⟨other, other_mem, equal⟩
  rcases Multiset.mem_cons.mp other_mem with rfl | rest
  · exact absurd equal.symm apart
  · exact ⟨other, rest, equal⟩

theorem gave (owned : Owned used files (lock ::ₘ live)) (gave : Gave files after lock location) :
    Owned used after live := by
  apply owned.without gave.sameTree
  · intro elsewhere identity isFile
    rw [← gave.elsewhere, isFile]
    rintro rfl
    simp [gave.here] at isFile
  · intro identity held
    exact (gave.held identity).mp held

theorem drop (owned : Owned used files (lock ::ₘ live)) :
    Owned used (files.unhold lock.identity) live := by
  apply owned.without (sameTree_unhold files lock.identity)
  · intro location identity isFile
    exact isFile
  · intro identity held
    simpa [unhold] using held

end Owned

/-! ## Changes elsewhere -/

/-- A change of the files that leaves those in use alone, and the locks on them. -/
structure Untouched (used : Set Path) (files after : FileSystem) : Prop where
  entries : ∀ path ∈ used, ∀ node,
    (∃ location, files.IsPlace path location ∧ files.node? location = some node) ↔
      ∃ location, after.IsPlace path location ∧ after.node? location = some node
  held : ∀ path ∈ used, ∀ identity, files.NamesFile path identity →
    (identity ∈ files.held ↔ identity ∈ after.held)

theorem Guarded.elsewhere (guarded : Guarded used files live) (wellFormed : after.WellFormed)
    (untouched : Untouched used files after) : Guarded used after live := by
  refine ⟨wellFormed, ?_, guarded.distinct, guarded.inUse, ?_, ?_⟩
  · rintro path path_mem ⟨location, target, place, isLink⟩
    rcases (untouched.entries path path_mem _).mpr ⟨location, place, isLink⟩ with
      ⟨before, beforePlace, wasLink⟩
    exact guarded.noLink path path_mem ⟨before, target, beforePlace, wasLink⟩
  · intro lock lock_mem
    exact (untouched.entries lock.path (guarded.inUse lock lock_mem) _).mp
      (guarded.placed lock lock_mem)
  · intro lock lock_mem
    exact (untouched.held lock.path (guarded.inUse lock lock_mem) lock.identity
      (guarded.placed lock lock_mem)).mp (guarded.held lock lock_mem)

theorem Owned.elsewhere (owned : Owned used files live) (untouched : Untouched used files after) :
    Owned used after live := by
  intro path path_mem identity named held
  have namedBefore : files.NamesFile path identity := (untouched.entries path path_mem _).mpr named
  exact owned path path_mem identity namedBefore
    ((untouched.held path path_mem identity namedBefore).mpr held)

/-! ## Files that go with their locks -/

/-- The path names a place where nothing is. -/
def Vacant (files : FileSystem) (path : Path) : Prop :=
  ∃ location, files.IsPlace path location ∧ files.node? location = none

/-- Nothing is at the place of the path but the file of a live lock. -/
def Attended (files : FileSystem) (live : Multiset FileLock) (path : Path) : Prop :=
  ∃ location, files.IsPlace path location ∧ ∀ node, files.node? location = some node →
    ∃ lock ∈ live, files.IsPlace lock.path location ∧ node = .file lock.identity

namespace Attended

theorem of_took (took : Took files after lock location) :
    Attended after (lock ::ₘ live) lock.path := by
  refine ⟨location, took.place.congr took.sameTree, ?_⟩
  intro node here
  rw [took.here, Option.some.injEq] at here
  exact ⟨lock, Multiset.mem_cons_self _ _, took.place.congr took.sameTree, here.symm⟩

theorem took (attended : Attended files live path) (took : Took files after lock location) :
    Attended after (lock ::ₘ live) path := by
  rcases attended with ⟨elsewhere, place, tended⟩
  rcases eq_or_ne elsewhere location with rfl | apart
  · have own : Attended after (lock ::ₘ live) lock.path := of_took took
    rcases own with ⟨_, lockPlace, tended⟩
    rw [lockPlace.unique (took.place.congr took.sameTree)] at tended
    exact ⟨elsewhere, place.congr took.sameTree, tended⟩
  · refine ⟨elsewhere, place.congr took.sameTree, ?_⟩
    intro node here
    rw [took.elsewhere elsewhere apart] at here
    rcases tended node here with ⟨other, other_mem, otherPlace, isFile⟩
    exact ⟨other, Multiset.mem_cons_of_mem other_mem, otherPlace.congr took.sameTree, isFile⟩

theorem gave (attended : Attended files (lock ::ₘ live) path)
    (gave : Gave files after lock location) : Attended after live path := by
  rcases attended with ⟨elsewhere, place, tended⟩
  refine ⟨elsewhere, place.congr gave.sameTree, ?_⟩
  intro node here
  have apart : elsewhere ≠ location := by
    rintro rfl
    simp [gave.here] at here
  rw [gave.elsewhere elsewhere apart] at here
  rcases tended node here with ⟨other, other_mem, otherPlace, isFile⟩
  rcases Multiset.mem_cons.mp other_mem with rfl | rest
  · exact absurd (otherPlace.unique gave.place) apart
  · exact ⟨other, rest, otherPlace.congr gave.sameTree, isFile⟩

/-- Where no lock is live any more, the file is gone. -/
theorem vacant (attended : Attended files 0 path) : files.Vacant path := by
  rcases attended with ⟨location, place, tended⟩
  refine ⟨location, place, ?_⟩
  cases here : files.node? location with
  | none => rfl
  | some node =>
      rcases tended node here with ⟨lock, lock_mem, -⟩
      simp at lock_mem

end Attended

/-! ## Custody -/

/-- What is kept when locks on files in use are taken and given back. -/
structure Custody (used : Set Path) (keeps : FileSystem → Multiset FileLock → Prop) : Prop where
  guarded : ∀ {files live}, keeps files live → Guarded used files live
  took : ∀ {files after live lock location}, keeps files live → lock.path ∈ used →
    Took files after lock location → keeps after (lock ::ₘ live)
  gave : ∀ {files after live lock location}, keeps files (lock ::ₘ live) →
    Gave files after lock location → keeps after live

theorem custody_owned (used : Set Path) :
    Custody used fun files live => Guarded used files live ∧ Owned used files live where
  guarded := And.left
  took := fun kept path_mem took => ⟨kept.1.took path_mem took, kept.2.took took⟩
  gave := fun kept gave => ⟨kept.1.gave gave, kept.2.gave gave⟩

theorem custody_guarded (used : Set Path) : Custody used (Guarded used) where
  guarded := id
  took := fun guarded path_mem took => guarded.took path_mem took
  gave := fun guarded gave => guarded.gave gave

/-- Nothing but files of live locks is at the places of some paths. -/
def Attends (files : FileSystem) (live : Multiset FileLock) (paths : Set Path) : Prop :=
  ∀ path ∈ paths, files.Attended live path

theorem Attends.union {paths more : Set Path} (attends : Attends files live paths)
    (further : Attends files live more) : Attends files live (paths ∪ more) := by
  rintro path (old | new)
  · exact attends path old
  · exact further path new

theorem Custody.attending {keeps : FileSystem → Multiset FileLock → Prop} (custody : Custody used keeps)
    (paths : Set Path) : Custody used fun files live => keeps files live ∧ Attends files live paths where
  guarded := fun kept => custody.guarded kept.1
  took := fun kept path_mem took =>
    ⟨custody.took kept.1 path_mem took, fun path listed => (kept.2 path listed).took took⟩
  gave := fun kept gave =>
    ⟨custody.gave kept.1 gave, fun path listed => (kept.2 path listed).gave gave⟩

theorem Custody.since {keeps : FileSystem → Multiset FileLock → Prop} (custody : Custody used keeps)
    (before : FileSystem) : Custody used fun files live => keeps files live ∧ SameTree before files where
  guarded := fun kept => custody.guarded kept.1
  took := fun kept path_mem took =>
    ⟨custody.took kept.1 path_mem took, kept.2.trans took.sameTree⟩
  gave := fun kept gave => ⟨custody.gave kept.1 gave, kept.2.trans gave.sameTree⟩

theorem Custody.remove {keeps : FileSystem → Multiset FileLock → Prop} (custody : Custody used keeps)
    (kept : keeps files (lock ::ₘ live)) : keeps (stateAfter lock.remove files) live := by
  rcases (custody.guarded kept).exists_gave with ⟨location, gave⟩
  exact custody.gave kept gave

theorem Guarded.attended (guarded : Guarded used files live) (lock_mem : lock ∈ live) :
    files.Attended live lock.path := by
  rcases guarded.placed lock lock_mem with ⟨location, place, isFile⟩
  refine ⟨location, place, ?_⟩
  intro node here
  rw [isFile, Option.some.injEq] at here
  exact ⟨lock, lock_mem, place, here.symm⟩

/-- Whatever gives a lock back and keeps what is in custody removes the file of the lock. -/
theorem Guarded.vacant_of_kept {rest : Multiset FileLock} (guarded : Guarded used files (lock ::ₘ live))
    (sub : rest ⊆ live) (gives : ∀ keeps : FileSystem → Multiset FileLock → Prop,
      Custody used keeps → keeps files (lock ::ₘ live) → keeps after rest) : after.Vacant lock.path := by
  have attended := guarded.attended (Multiset.mem_cons_self lock live)
  rcases gives _ (((custody_guarded used).since files).attending {lock.path})
    ⟨⟨guarded, SameTree.refl files⟩, by rintro _ rfl; exact attended⟩ with ⟨⟨-, same⟩, attends⟩
  rcases attends lock.path rfl with ⟨location, place, tended⟩
  refine ⟨location, place, ?_⟩
  cases here : after.node? location with
  | none => rfl
  | some node =>
      rcases tended node here with ⟨other, other_mem, otherPlace, -⟩
      have older := sub other_mem
      -- Two locks at one place would be on one file.
      rcases guarded.placed lock (Multiset.mem_cons_self _ _) with ⟨first, firstPlace, isFile⟩
      rcases guarded.placed other (Multiset.mem_cons_of_mem older) with ⟨second, secondPlace, alsoFile⟩
      rw [(firstPlace.congr same).unique place] at isFile
      rw [(secondPlace.congr same).unique otherPlace, isFile, Option.some.injEq, Node.file.injEq]
        at alsoFile
      exact absurd alsoFile.symm (guarded.apart_of_cons other older)

/-! ## What can be seen of a file -/

theorem named_of_walk {links : Nat} {directory : Location} {step : OsText}
    (walked : walk files true links directory [step] = .ok (.found location (.file identity))) :
    step ≠ "." ∧ step ≠ ".." ∧ ¬maxName < step.bytes.length := by
  refine ⟨?_, ?_, ?_⟩
  · rintro rfl
    simp [walk_here] at walked
  · rintro rfl
    cases links <;> simp [walk, walkSteps] at walked
  · intro long
    cases links <;> simp only [walk, walkSteps, if_pos long] at walked <;>
      split at walked <;> try split at walked
    all_goals simp at walked

theorem NamesPlace.place_eq {directory : Location} {name : OsText}
    (names : NamesPlace files path directory name) (noSlash : path.text.bytes.getLast? ≠ some OsText.slash) :
    files.place path = .ok ⟨directory, some name, false⟩ := by
  have startable : ¬(path.text.bytes.head? ≠ some OsText.slash ∧
      files.node? files.current ≠ some .directory) := by
    rw [not_and_or, not_not, not_not]
    exact names.usable.startable
  have dots : ¬(name = "." ∨ name = "..") := by
    rw [not_or]
    exact ⟨names.notHere, names.notUp⟩
  rw [place_apply, names.usable.callable]
  simp only [if_neg startable, names.reached, names.last, if_neg dots, if_neg names.short,
    decide_eq_false noSlash]

/-- A path that leads to a file names it, unless it names a link. -/
theorem isPlace_of_entry (noLink : ¬files.NamesLink path)
    (found : files.entry true path = .ok (location, .file identity)) :
    files.IsPlace path location := by
  have resolved := entry_eq_ok.mp found
  rcases resolve_eq_ok.mp resolved with ⟨usable, walked⟩
  rw [Path.steps_eq] at walked
  split at walked
  · rcases walk_front (List.cons_ne_nil _ _) walked with ⟨middle, reached⟩
    rcases walk_append reached with ⟨fewer, -, further⟩
    rw [further, walk_here] at walked
    simp at walked
  · rename_i noSlash
    rcases List.eq_nil_or_concat path.names with empty | ⟨front, last, shape⟩
    · rw [empty] at walked
      simp [maxLinks, walk, walkSteps] at walked
    · rw [shape, List.concat_eq_append] at walked
      rcases walk_front (List.cons_ne_nil _ _) walked with ⟨middle, reached⟩
      rcases walk_append reached with ⟨fewer, -, further⟩
      rw [further] at walked
      rcases named_of_walk walked with ⟨notHere, notUp, short⟩
      have names : NamesPlace files path middle last :=
        ⟨usable, by rw [shape, List.concat_eq_append, List.dropLast_concat]; exact reached,
          by rw [shape, List.concat_eq_append, List.getLast?_concat], notHere, notUp, short⟩
      have place : files.IsPlace path (middle ++ [last]) :=
        ⟨middle, last, names.place_eq noSlash, rfl⟩
      have notLink : ∀ target, files.node? (middle ++ [last]) ≠ some (.link target) := by
        intro target isLink
        exact noLink ⟨_, target, place, isLink⟩
      rw [names.resolve_eq noSlash notLink, Except.ok.injEq] at resolved
      cases here : files.node? (middle ++ [last]) with
      | none => simp [here] at resolved
      | some node =>
          simp only [here, Spot.found.injEq] at resolved
          exact resolved.1 ▸ place

/-- What a path without a link leads to, if that is a file, is the file it names. -/
theorem entry_file_iff (wellFormed : files.WellFormed) (noLink : ¬files.NamesLink path) :
    (∃ location, files.entry true path = .ok (location, .file identity)) ↔
      files.NamesFile path identity := by
  constructor
  · rintro ⟨location, found⟩
    exact ⟨location, isPlace_of_entry noLink found,
      resolve_sound wellFormed (entry_eq_ok.mp found)⟩
  · rintro ⟨location, ⟨directory, name, placed, rfl⟩, isFile⟩
    rcases place_ok placed with ⟨-, -, slash, names⟩
    have notLink : ∀ target, files.node? (directory ++ [name]) ≠ some (.link target) := by simp [isFile]
    have resolved := (names name rfl).resolve_eq (by simpa using slash) notLink
    rw [isFile] at resolved
    exact ⟨_, entry_eq_ok.mpr resolved⟩

end FileSystem

end Checkout
