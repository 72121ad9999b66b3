import Checkout.Proofs.FileSystem.Borrowed
import Checkout.Proofs.FileSystem.Canonical

/-!
# Versioned directories

A path that is versioned leads to a directory. So its canonical form is the path of that directory, and
stays what it is while files come and go; and a canonical path that is versioned is its own canonical form.
-/

namespace Checkout

namespace Path

/-- A join goes on where the path ends, whatever is joined to it. -/
theorem text_join_eq_append (base : Path) :
    ∃ slash, ∀ name, ProperName name → (base.join name).text = base.text ++ (slash ++ name) := by
  by_cases idle : base.text = "" ∨ base.text.bytes.getLast? = some OsText.slash
  · refine ⟨"", ?_⟩
    intro name proper
    simp only [join, if_neg proper.head?_ne, if_pos idle, OsText.empty_append]
  · refine ⟨"/", ?_⟩
    intro name proper
    simp only [join, if_neg proper.head?_ne, if_neg idle, OsText.append_assoc]

theorem isAbsolute_parent? {path parent : Path} (absolute : path.isAbsolute = true)
    (above : path.parent? = some parent) : parent.isAbsolute = true := by
  simp only [parent?, absolute] at above
  split at above
  · simp at above
  · rw [Option.some.injEq] at above
    rw [← above]
    simp [rebuild, isAbsolute]

theorem isAbsolute_ancestors {path ancestor : Path} (absolute : path.isAbsolute = true)
    (above : ancestor ∈ path.ancestors) : ancestor.isAbsolute = true := by
  have up (bound : Nat) (path : Path) (absolute : path.isAbsolute = true)
      (above : ancestor ∈ ancestors.upFrom bound path) : ancestor.isAbsolute = true := by
    induction bound generalizing path with
    | zero => simp [ancestors.upFrom] at above
    | succ bound ih =>
        rw [ancestors.upFrom] at above
        rcases List.mem_cons.mp above with rfl | higher
        · exact absolute
        · split at higher
          · simp at higher
          · rename_i parent parent_eq
            exact ih parent (isAbsolute_parent? absolute parent_eq) higher
  exact up _ path absolute above

/-! ### Going up -/

theorem dropIdle_sublist (absolute : Bool) (reversed : List OsText) :
    (dropIdle absolute reversed).Sublist reversed := by
  induction reversed with
  | nil => exact List.Sublist.refl _
  | cons segment rest ih =>
      rw [dropIdle]
      split
      · exact ih.cons segment
      · exact List.Sublist.refl _

/-- How many pieces are left of a path before nothing is above it. -/
def height (path : Path) : Nat :=
  (dropIdle path.isAbsolute path.body.reverse).length

theorem height_le (path : Path) : path.height ≤ path.body.length := by
  have bound := (dropIdle_sublist path.isAbsolute path.body.reverse).length_le
  rwa [List.length_reverse] at bound

theorem body_rebuild {reversed : List OsText} (nonempty : reversed ≠ [])
    (free : ∀ segment ∈ reversed, OsText.slash ∉ segment.bytes) :
    (rebuild true reversed).body = reversed.reverse := by
  have absolute : (rebuild true reversed).isAbsolute = true := by simp [rebuild, isAbsolute]
  have text_eq : (rebuild true reversed).text.bytes =
      OsText.slash :: (OsText.intercalate "/" reversed.reverse).bytes := by simp [rebuild]
  rw [body, if_pos absolute, segments, text_eq, pieces, if_pos rfl,
    pieces_intercalate (by simpa using nonempty)
      (fun segment segment_mem => free segment (List.mem_reverse.mp segment_mem))]
  simp [Function.comp_def]

/-- The parent of a path is one piece shorter, or more if there are idle ones. -/
theorem height_parent? {path parent : Path} (absolute : path.isAbsolute = true)
    (above : path.parent? = some parent) : parent.height < path.height := by
  rw [parent?, absolute] at above
  rw [height, height, isAbsolute_parent? absolute (by rw [parent?, absolute]; exact above), absolute]
  cases pieces_eq : dropIdle true path.body.reverse with
  | nil => simp [pieces_eq] at above
  | cons last rest =>
      simp only [pieces_eq, Option.some.injEq] at above
      rw [← above, List.length_cons, Nat.lt_succ_iff]
      have kept := dropIdle_sublist true rest
      rcases eq_or_ne (dropIdle true rest) [] with none | some
      · rw [none]
        exact Nat.zero_le _
      · have free : ∀ segment ∈ dropIdle true rest, OsText.slash ∉ segment.bytes := by
          intro segment segment_mem
          have body_mem : segment ∈ path.body := by
            rw [← List.mem_reverse]
            apply (dropIdle_sublist true _).subset
            rw [pieces_eq]
            exact List.mem_cons_of_mem _ (kept.subset segment_mem)
          exact noSlash_of_mem_body body_mem
        rw [body_rebuild some free, List.reverse_reverse]
        exact ((dropIdle_sublist true _).trans kept).length_le

theorem upFrom_congr {path : Path} {bound other : Nat} (absolute : path.isAbsolute = true)
    (enough : path.height < bound) (otherEnough : path.height < other) :
    ancestors.upFrom bound path = ancestors.upFrom other path := by
  induction bound generalizing path other with
  | zero => omega
  | succ bound ih =>
      obtain ⟨other, rfl⟩ := Nat.exists_eq_succ_of_ne_zero (Nat.ne_zero_of_lt otherEnough)
      rw [ancestors.upFrom, ancestors.upFrom]
      cases above : path.parent? with
      | none => rfl
      | some parent =>
          have shorter := height_parent? absolute above
          have further : ancestors.upFrom bound parent = ancestors.upFrom other parent :=
            ih (isAbsolute_parent? absolute above) (by omega) (by omega)
          simp only
          rw [further]

/-- Above a path are its parent and what is above that. -/
theorem ancestors_eq {path : Path} (absolute : path.isAbsolute = true) :
    path.ancestors = path :: match path.parent? with
      | none => []
      | some parent => parent.ancestors := by
  rw [ancestors, ancestors.upFrom]
  cases above : path.parent? with
  | none => rfl
  | some parent =>
      have shorter := height_parent? absolute above
      have bound := path.height_le
      have parentBound := parent.height_le
      have further : ancestors.upFrom path.body.length parent = parent.ancestors :=
        upFrom_congr (isAbsolute_parent? absolute above) (by omega) (by omega)
      simp only
      rw [further]

end Path

namespace FileSystem

variable {files other : FileSystem} {path real : Path} {location : Location}

theorem callText_of_join {base : Path} {name : OsText} (proper : ProperName name)
    (nonempty : base.text ≠ "") {text : OsText} (callable : callText (base.join name) = .ok text) :
    callText base = .ok base.text := by
  obtain ⟨slash, text_eq⟩ := base.text_join_eq_append
  simp only [callText, text_eq name proper] at callable ⊢
  split at callable
  · simp at callable
  · rename_i noNul
    split at callable
    · simp at callable
    · split at callable
      · simp at callable
      · rename_i short
        rw [OsText.bytes_append, List.length_append] at short
        rw [if_neg, if_neg nonempty, if_neg (by omega)]
        intro hasNul
        apply noNul
        simp only [OsText.bytes_append, List.contains_eq_mem, List.mem_append, decide_eq_true_eq]
          at hasNul ⊢
        exact Or.inl hasNul

theorem nonempty_text (absolute : path.isAbsolute = true) : path.text ≠ "" := by
  intro empty
  simp [Path.isAbsolute, empty] at absolute

/-- A call that can take the path of a record can take the path of the lock file beside it. -/
theorem callText_join_lock {base : Path} (absolute : base.isAbsolute = true) {text : OsText}
    (callable : callText (base.join "entries") = .ok text) :
    callText (base.join "lock") = .ok (base.join "lock").text := by
  have lock_nonempty := nonempty_text (Path.isAbsolute_join properName_lock absolute)
  obtain ⟨slash, text_eq⟩ := base.text_join_eq_append
  rw [text_eq "lock" properName_lock] at lock_nonempty
  simp only [callText, text_eq "entries" properName_entries] at callable
  simp only [callText, text_eq "lock" properName_lock]
  have lock_size : ("lock" : OsText).bytes.length = 4 := by decide
  have entries_size : ("entries" : OsText).bytes.length = 7 := by decide
  split at callable
  · simp at callable
  · rename_i noNul
    split at callable
    · simp at callable
    · split at callable
      · simp at callable
      · rename_i short
        simp only [OsText.bytes_append, List.length_append, entries_size] at short
        rw [if_neg, if_neg lock_nonempty, if_neg]
        · simp only [OsText.bytes_append, List.length_append, lock_size]
          omega
        · intro hasNul
          apply noNul
          simp only [OsText.bytes_append, List.contains_eq_mem, List.mem_append, decide_eq_true_eq]
            at hasNul ⊢
          rcases hasNul with inBase | inSlash | inName
          · exact Or.inl inBase
          · exact Or.inr (Or.inl inSlash)
          · exact absurd inName (by decide)

theorem walk_here (files : FileSystem) (links : Nat) (location : Location) :
    walk files true links location ["."] = .ok (.found location .directory) := by
  cases links <;> simp [walk, walkSteps]

theorem isFile_iff : files.isFile path = true ↔
    ∃ location identity, files.entry true path = .ok (location, .file identity) := by
  simp only [isFile]
  split
  · rename_i location identity found
    simp [found]
  · rename_i notFile
    simp only [Bool.false_eq_true, false_iff, not_exists]
    exact notFile

/-- A name joined to an absolute path is looked up from where the path is. -/
theorem origin_join {base : Path} {name : OsText} (files : FileSystem) (proper : ProperName name)
    (absolute : base.isAbsolute = true) : files.origin (base.join name) = files.origin base := by
  have head : base.text.bytes.head? = some OsText.slash := by simpa [Path.isAbsolute] using absolute
  rw [origin, origin, start, start, if_pos head, if_pos (Path.head?_join proper absolute)]

/-- The way to the record of a versioned path leads through its administrative directory. -/
theorem walk_of_isVersioned (absolute : path.isAbsolute = true)
    (versioned : files.isVersioned path = true) :
    callText (Area.entriesFile path) = .ok (Area.entriesFile path).text ∧ ∃ location,
      walk files true maxLinks (files.origin path) (path.names ++ [Area.directoryName]) =
        .ok (.found location .directory) := by
  obtain ⟨_, _, found⟩ := isFile_iff.mp versioned
  obtain ⟨usable, walked⟩ := resolve_eq_ok.mp (entry_eq_ok.mp found)
  have origin_eq : files.origin (Area.entriesFile path) = files.origin path :=
    (files.origin_join properName_entries
      (Path.isAbsolute_join properName_directoryName absolute)).trans
        (files.origin_join properName_directoryName absolute)
  have steps_eq : steps (Area.entriesFile path).text =
      (path.names ++ [Area.directoryName]) ++ [("entries" : OsText)] := by
    rw [Area.entriesFile, Path.steps_join _ properName_entries, Area.directory,
      Path.names_join _ properName_directoryName]
  rw [origin_eq, steps_eq] at walked
  exact ⟨usable.callable, walk_front (List.cons_ne_nil _ _) walked⟩

/-- A versioned path leads to a directory. -/
theorem entry_of_isVersioned (absolute : path.isAbsolute = true)
    (versioned : files.isVersioned path = true) :
    ∃ location, files.entry true path = .ok (location, .directory) := by
  obtain ⟨entriesCallable, _, walked⟩ := walk_of_isVersioned absolute versioned
  have head : path.text.bytes.head? = some OsText.slash := by simpa [Path.isAbsolute] using absolute
  have directory_nonempty : (Area.directory path).text ≠ "" :=
    nonempty_text (Path.isAbsolute_join properName_directoryName absolute)
  have callable := callText_of_join properName_directoryName (nonempty_text absolute)
    (callText_of_join properName_entries directory_nonempty entriesCallable)
  obtain ⟨location, reached⟩ := walk_front (List.cons_ne_nil _ _) walked
  refine ⟨location, entry_eq_ok.mpr (resolve_eq_ok.mpr ⟨⟨callable, Or.inl head⟩, ?_⟩)⟩
  rw [Path.steps_eq]
  split
  · obtain ⟨fewer, -, further⟩ := walk_append reached
    rw [further, walk_here]
  · exact reached

/-- There is a place for the lock file of a versioned path. -/
theorem isPlace_of_isVersioned (absolute : path.isAbsolute = true)
    (versioned : files.isVersioned path = true) :
    ∃ location, files.IsPlace (Area.lockFile path) location := by
  obtain ⟨entriesCallable, location, walked⟩ := walk_of_isVersioned absolute versioned
  have areaAbsolute : (Area.directory path).isAbsolute = true :=
    Path.isAbsolute_join properName_directoryName absolute
  have lockHead : (Area.lockFile path).text.bytes.head? = some OsText.slash :=
    Path.head?_join properName_lock areaAbsolute
  have origin_eq : files.origin (Area.lockFile path) = files.origin path :=
    (files.origin_join properName_lock areaAbsolute).trans
      (files.origin_join properName_directoryName absolute)
  have callable : callText (Area.lockFile path) = .ok (Area.lockFile path).text :=
    callText_join_lock areaAbsolute entriesCallable
  have names_eq : (Area.lockFile path).names = (path.names ++ [Area.directoryName]) ++ [("lock" : OsText)] := by
    rw [Area.lockFile, Path.names_join _ properName_lock, Area.directory,
      Path.names_join _ properName_directoryName]
  have noSlash : (Area.lockFile path).text.bytes.getLast? ≠ some OsText.slash :=
    Path.getLast?_text_join _ properName_lock
  have placed : files.place (Area.lockFile path) = .ok ⟨location, some ("lock" : OsText), false⟩ := by
    rw [place_apply, callable]
    simp only [lockHead, ne_eq, not_true_eq_false, false_and, if_false, names_eq, origin_eq,
      List.dropLast_concat, walked, List.getLast?_concat, decide_eq_false noSlash]
    rfl
  exact ⟨_, location, "lock", placed, rfl⟩

/-- The canonical form of a versioned path stays what it is when files come and go. -/
theorem canonical_congr (absolute : path.isAbsolute = true)
    (versioned : files.isVersioned path = true) (same : SameTree files other) :
    other.canonical path = files.canonical path := by
  obtain ⟨location, found⟩ := entry_of_isVersioned absolute versioned
  rw [canonical_of_entry found, canonical_of_entry (entry_congr same found)]

/-- The canonical form of a versioned path is canonical, if it is versioned too. -/
theorem canonical_canonical (wellFormed : files.WellFormed) (absolute : path.isAbsolute = true)
    (versioned : files.isVersioned path = true) (canonical : files.canonical path = .ok real)
    (versionedReal : files.isVersioned real = true) : files.canonical real = .ok real := by
  obtain ⟨location, found⟩ := entry_of_isVersioned absolute versioned
  rw [canonical_of_entry found, Except.ok.injEq] at canonical
  subst canonical
  obtain ⟨reached, foundReal⟩ := entry_of_isVersioned location.isAbsolute_path versionedReal
  have inside := resolve_sound wellFormed (entry_eq_ok.mp found)
  rw [canonical_of_entry foundReal, entry_path wellFormed inside foundReal]

/-- The nearest versioned directory is the path itself, or the one for the path above. -/
theorem nearestVersioned?_eq (absolute : path.isAbsolute = true) :
    files.nearestVersioned? path =
      if files.isVersioned path then some path else path.parent?.bind files.nearestVersioned? := by
  rw [nearestVersioned?, Path.ancestors_eq absolute, List.find?_cons]
  cases files.isVersioned path with
  | true => rfl
  | false => cases path.parent? <;> rfl

theorem nearestVersioned?_eq_some {directory : Path} (absolute : path.isAbsolute = true)
    (nearest : files.nearestVersioned? path = some directory) :
    directory.isAbsolute = true ∧ files.isVersioned directory = true :=
  ⟨Path.isAbsolute_ancestors absolute (List.mem_of_find?_eq_some nearest),
    List.find?_some nearest⟩

end FileSystem

end Checkout
