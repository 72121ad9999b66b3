import Checkout.Proofs.FileSystem.Footing
import Checkout.Proofs.FileSystem.Writing

/-!
# Directories made, files put in place

Making the directories of a path ends with a directory there, and making them again changes nothing. A file that
is put in the place a path names is read back through this path, if the way to the place does not lead through
what was there before.
-/

namespace Checkout

/-! ## Texts of paths -/

theorem intercalate_pieces [DecidableEq α] (mark : α) (items : List α) :
    [mark].intercalate (pieces mark items) = items := by
  induction items with
  | nil => rfl
  | cons item rest ih =>
      rw [pieces]
      split
      · rename_i same
        cases shape : pieces mark rest with
        | nil => exact absurd shape (pieces_ne_nil mark rest)
        | cons first others =>
            rw [shape] at ih
            rw [List.intercalate_cons_cons, ih, same]
            rfl
      · split
        · rename_i none
          exact absurd none (pieces_ne_nil mark rest)
        · rename_i first others shape
          rw [shape] at ih
          cases others with
          | nil => simpa using ih
          | cons second others =>
              rw [List.intercalate_cons_cons] at ih ⊢
              simpa using ih

namespace Path

variable {path base : Path} {name : OsText}

theorem intercalate_segments (path : Path) : OsText.intercalate "/" path.segments = path.text := by
  have texts : path.segments.map OsText.bytes = pieces OsText.slash path.text.bytes := by
    rw [segments, List.map_map]
    exact List.map_id _
  rw [OsText.intercalate, texts]
  exact congrArg OsText.mk (intercalate_pieces OsText.slash path.text.bytes)

/-- Behind the slash of an absolute path stand its pieces. -/
theorem text_eq_of_isAbsolute (absolute : path.isAbsolute = true) :
    path.text = "/" ++ OsText.intercalate "/" path.body := by
  obtain ⟨rest, shape⟩ := List.head?_eq_some_iff.mp
    (show path.text.bytes.head? = some OsText.slash by simpa [isAbsolute] using absolute)
  have segments_eq : path.segments = ("" : OsText) :: path.body := by
    rw [body, if_pos absolute, segments, shape, pieces, if_pos rfl, List.map_cons, List.drop_one,
      List.tail_cons, OsText.mk_nil]
  have nonempty : path.body ≠ [] := by
    rw [body, if_pos absolute, segments, shape, pieces, if_pos rfl]
    simpa using pieces_ne_nil OsText.slash rest
  have text_eq := path.intercalate_segments
  rw [segments_eq] at text_eq
  obtain ⟨first, others, body_eq⟩ := List.exists_cons_of_ne_nil nonempty
  rw [← text_eq, body_eq, OsText.intercalate_cons_cons, OsText.empty_append]

theorem rebuild_body (path : Path) : rebuild path.isAbsolute path.body.reverse = path := by
  rw [rebuild, List.reverse_reverse]
  by_cases absolute : path.isAbsolute = true
  · rw [if_pos absolute, ← text_eq_of_isAbsolute absolute]
  · rw [if_neg absolute, body, if_neg absolute, intercalate_segments, OsText.empty_append]

theorem text_join_ne_empty (base : Path) (proper : ProperName name) : (base.join name).text ≠ "" := by
  intro empty
  have text_eq : (base.join name).text.bytes = _ := text_join proper
  rw [empty] at text_eq
  split at text_eq <;> simp [proper.nonempty] at text_eq

theorem isAbsolute_join_eq (nonempty : base.text ≠ "") (proper : ProperName name) :
    (base.join name).isAbsolute = base.isAbsolute := by
  have base_ne : base.text.bytes ≠ [] := by simpa using nonempty
  rw [isAbsolute, isAbsolute, text_join proper]
  split <;> rw [List.head?_append_of_ne_nil _ base_ne]

theorem body_join (nonempty : base.text ≠ "") (noSlash : base.text.bytes.getLast? ≠ some OsText.slash)
    (proper : ProperName name) : (base.join name).body = base.body ++ [name] := by
  have segments_eq : (base.join name).segments = base.segments ++ [name] := by
    rw [segments, pieces_join proper, if_neg nonempty, if_neg noSlash, List.map_append, segments]
    simp
  have some_segments : 1 ≤ base.segments.length := by
    rw [segments, List.length_map]
    exact List.length_pos_iff.mpr (pieces_ne_nil OsText.slash _)
  rw [body, body, isAbsolute_join_eq nonempty proper, segments_eq]
  split
  · rw [List.drop_append_of_le_length some_segments]
  · rfl

theorem getLast?_body_join (base : Path) (proper : ProperName name) :
    (base.join name).body.getLast? = some name := by
  have last : (base.join name).segments.getLast? = some name := by
    rw [segments, pieces_join proper, List.map_append, List.map_singleton, List.getLast?_concat]
  rw [body]
  split
  · rename_i absolute
    obtain ⟨rest, shape⟩ := List.head?_eq_some_iff.mp
      (show (base.join name).text.bytes.head? = some OsText.slash by simpa [isAbsolute] using absolute)
    have more : 1 < (base.join name).segments.length := by
      rw [segments, shape, pieces, if_pos rfl, List.map_cons, List.length_cons, List.length_map]
      have := List.length_pos_iff.mpr (pieces_ne_nil OsText.slash rest)
      omega
    rw [List.getLast?_drop, if_neg (by omega), last]
  · exact last

/-- Above a name joined to a name is what the last name was joined to. -/
theorem parent?_join_join {last : OsText} (proper : ProperName name) (lastProper : ProperName last) :
    ((base.join name).join last).parent? = some (base.join name) := by
  have noSlash := getLast?_text_join base proper
  have nonempty := text_join_ne_empty base proper
  have idle_free {other : OsText} (proper : ProperName other) (absolute : Bool) (rest : List OsText) :
      dropIdle absolute (other :: rest) = other :: rest := by
    rw [dropIdle, if_neg (by simp [proper.nonempty, proper.notHere])]
  obtain ⟨front, body_eq⟩ := List.getLast?_eq_some_iff.mp (getLast?_body_join base proper)
  rw [parent?, body_join nonempty noSlash lastProper, List.reverse_append, List.reverse_singleton,
    List.singleton_append, idle_free lastProper, isAbsolute_join_eq nonempty lastProper]
  simp only
  rw [body_eq, List.reverse_append, List.reverse_singleton, List.singleton_append, idle_free proper,
    ← List.singleton_append, ← List.reverse_singleton, ← List.reverse_append, ← body_eq, rebuild_body]

end Path

namespace FileSystem

variable {files made after : FileSystem} {path : Path} {location : Location} {place : Place}
  {bytes : ByteArray}

/-! ## Directories -/

theorem createDirectory_eq_ok :
    createDirectory path files = .ok () made ↔ ∃ place, files.place path = .ok place ∧
      place.name? ≠ none ∧ files.node? place.location = none ∧
      made = files.put place.location .directory := by
  rw [createDirectory]
  cases files.place path with
  | error failure => simp
  | ok place =>
      simp only [Except.ok.injEq, exists_eq_left']
      split
      · rename_i taken
        simp only [reduceCtorEq, false_iff]
        tauto
      · rename_i free
        rw [not_or, not_not] at free
        simp [free, eq_comm]

theorem extends_put {node : Node} (vacant : files.node? location = none) :
    Extends files (files.put location node) := by
  intro other node found
  rw [node?_put_of_ne, found]
  rintro rfl
  simp [vacant] at found

theorem Extends.walk_found {other : FileSystem} {links : Nat} {directory : Location} {names : List OsText}
    {node : Node} (extended : Extends files other)
    (walked : walk files true links directory names = .ok (.found location node)) :
    walk other true links directory names = .ok (.found location node) := by
  have filled : walk other true links directory names = .ok (Spot.filled 0 (.found location node)) :=
    walk_filled extended (by simp) walked
  exact filled

/-- A directory that was created is where its path leads. -/
theorem entry_createDirectory (created : createDirectory path files = .ok () made) :
    ∃ location, made.entry true path = .ok (location, .directory) := by
  obtain ⟨place, placed, named, vacant, rfl⟩ := createDirectory_eq_ok.mp created
  obtain ⟨name, name_eq⟩ := Option.ne_none_iff_exists'.mp named
  obtain ⟨usable, reached, -, names⟩ := place_ok placed
  have names := names name name_eq
  have location_eq : place.location = place.directory ++ [name] := by simp [Place.location, name_eq]
  have extended : Extends files (files.put place.location .directory) := extends_put vacant
  have usable : Usable (files.put place.location .directory) path :=
    ⟨usable.callable, usable.startable.imp_right (extended _ _)⟩
  have reached := extended.walk_found reached
  obtain ⟨fewer, -, further⟩ := walk_append reached
  have inside : (files.put place.location .directory).node? (place.directory ++ [name]) = some .directory := by
    rw [location_eq]
    exact node?_put_self (by simp)
  have last (dots : List OsText) (areDots : dots = [] ∨ dots = [("." : OsText)]) :
      walk (files.put place.location .directory) true fewer place.directory (name :: dots) =
        .ok (.found place.location .directory) := by
    obtain ⟨enter, walk_eq⟩ := walk_eq_walkSteps (files.put place.location .directory) true fewer
    rw [walk_eq, walkSteps, if_neg names.notHere, if_neg names.notUp, if_neg names.short]
    simp only [inside]
    rcases areDots with rfl | rfl <;> simp [walkSteps, location_eq]
  have origin_eq : (files.put place.location .directory).origin path = files.origin path := rfl
  refine ⟨place.location, entry_eq_ok.mpr (resolve_eq_ok.mpr ⟨usable, ?_⟩)⟩
  rw [origin_eq, Path.steps_eq, names.names_eq]
  split
  · rw [List.append_assoc, further]
    exact last _ (.inr rfl)
  · rw [further]
    exact last _ (.inl rfl)

/-- A path that leads to a directory names a place that is taken, or none that could be. -/
theorem place_of_entry (found : files.entry true path = .ok (location, .directory)) :
    ∃ place, files.place path = .ok place ∧
      (place.name? = none ∨ files.node? place.location ≠ none) := by
  obtain ⟨usable, -⟩ := resolve_eq_ok.mp (entry_eq_ok.mp found)
  have walked := walk_names_of_entry found
  rcases List.eq_nil_or_concat path.names with none | ⟨front, last, names_eq⟩
  · rw [none] at walked
    have reached : walk files true maxLinks (files.origin path) path.names.dropLast =
        .ok (.found location .directory) := by rwa [none]
    exact ⟨_, by rw [usable.place_apply reached, none]; rfl, .inl rfl⟩
  · rw [List.concat_eq_append] at names_eq
    rw [names_eq] at walked
    obtain ⟨middle, reached⟩ := walk_front (List.cons_ne_nil _ _) walked
    obtain ⟨fewer, -, further⟩ := walk_append reached
    rw [further] at walked
    have placed := usable.place_apply (by rwa [names_eq, List.dropLast_concat])
    simp only [names_eq, List.getLast?_concat] at placed
    by_cases dots : last = "." ∨ last = ".."
    · exact ⟨_, by rw [placed, if_pos dots], .inl rfl⟩
    · obtain ⟨enter, walk_eq⟩ := walk_eq_walkSteps files true fewer
      rw [not_or] at dots
      rw [walk_eq, walkSteps, if_neg dots.1, if_neg dots.2] at walked
      split at walked
      · simp at walked
      · rename_i short
        refine ⟨_, by rw [placed, if_neg (by tauto), if_neg short], .inr ?_⟩
        intro vacant
        have vacant : files.node? (middle ++ [last]) = none := vacant
        simp [vacant] at walked

theorem createDirectory_of_entry (found : files.entry true path = .ok (location, .directory)) :
    createDirectory path files = .error .alreadyExists files := by
  obtain ⟨place, placed, taken⟩ := place_of_entry found
  simp only [createDirectory, placed, if_pos taken]

/-- Where there is a directory, nothing has to be made. -/
theorem createDirectories_of_entry (found : files.entry true path = .ok (location, .directory)) :
    createDirectories path files = .ok () files := by
  rw [createDirectories, Path.ancestors, Path.ancestors.upFrom, createChain]
  split
  · rfl
  · simp only [createDirectory_of_entry found, isDirectory_iff.mpr ⟨location, found⟩]
    simp

/-- Once the directories of a path are made, there is a directory. -/
theorem entry_createDirectories (nonempty : path.components ≠ [])
    (created : createDirectories path files = .ok () made) :
    ∃ location, made.entry true path = .ok (location, .directory) := by
  simp only [createDirectories, Path.ancestors, Path.ancestors.upFrom, createChain, if_neg nonempty] at created
  split at created
  · rename_i fresh
    obtain ⟨-, rfl⟩ := EStateM.Result.ok.inj created
    exact entry_createDirectory fresh
  · rename_i failure unmade failed
    split at created
    · split at created
      · simp at created
      · split at created
        · rename_i fresh
          obtain ⟨-, rfl⟩ := EStateM.Result.ok.inj created
          exact entry_createDirectory fresh
        · split at created
          · rename_i there
            obtain ⟨-, rfl⟩ := EStateM.Result.ok.inj created
            exact isDirectory_iff.mp there.2
          · simp at created
    · split at created
      · rename_i there
        obtain ⟨-, rfl⟩ := EStateM.Result.ok.inj created
        exact isDirectory_iff.mp there.2
      · simp at created

/-! ## Files -/

theorem replaceFile_eq_ok :
    replaceFile path bytes files = .ok () after ↔ ∃ place, files.place path = .ok place ∧
      place.name? ≠ none ∧ place.trailingSlash = false ∧
      files.node? place.location ≠ some .directory ∧ after = files.putFile place.location bytes := by
  rw [replaceFile]
  cases files.place path with
  | error failure => simp
  | ok place =>
      simp only [Except.ok.injEq, exists_eq_left']
      by_cases unnamed : place.name? = none
      · simp [unnamed]
      by_cases slash : place.trailingSlash = true
      · simp [unnamed, slash]
      by_cases taken : files.node? place.location = some .directory
      · simp [unnamed, slash, taken]
      · simp [unnamed, slash, taken, eq_comm]

/-- A place in which a file was put is told from an empty one by its file alone. -/
theorem sameTree_erase_putFile (files : FileSystem) (nonroot : location ≠ []) (bytes : ByteArray) :
    SameTree (files.erase location) (files.putFile location bytes) := by
  refine sameTree_of_leaves rfl ?_
  intro other
  rcases eq_or_ne other location with rfl | apart
  · right
    simp [skeleton?, node?_erase_self nonroot, node?_putFile_self nonroot]
  · left
    rw [node?_erase_of_ne apart, node?_putFile_of_ne apart]

theorem Place.location_ne_nil (named : place.name? ≠ none) : place.location ≠ [] := by
  obtain ⟨name, name_eq⟩ := Option.ne_none_iff_exists'.mp named
  simp [Place.location, name_eq]

/-- A file put in its place is read back if the way to the place goes on without what was there before. -/
theorem read_putFile (named : place.name? ≠ none)
    (noSlash : place.trailingSlash = false)
    (kept : (files.erase place.location).place path = .ok place) (bytes : ByteArray) :
    (files.putFile place.location bytes).read path = .ok bytes := by
  have nonroot := Place.location_ne_nil named
  obtain ⟨name, name_eq⟩ := Option.ne_none_iff_exists'.mp named
  have location_eq : place.location = place.directory ++ [name] := by simp [Place.location, name_eq]
  obtain ⟨-, -, slash_eq, names⟩ := place_ok (place_congr (sameTree_erase_putFile files nonroot bytes) kept)
  have slash : path.text.bytes.getLast? ≠ some OsText.slash := by
    rw [noSlash] at slash_eq
    simpa using slash_eq
  have inside : (files.putFile place.location bytes).node? (place.directory ++ [name]) =
      some (.file files.nextFile) := by
    rw [← location_eq]
    exact node?_putFile_self nonroot
  have resolved := (names name name_eq).resolve_eq slash (by simp [inside])
  simp only [inside] at resolved
  rw [read, entry_eq_ok.mpr resolved]
  simp [bind, Except.bind, putFile, FileSystem.bytes, setBytes]

/-- If anything is read where a file was put in its place, the way there goes on without what was there before. -/
theorem place_erase_of_entry {node : Node} {other : Location} (placed : files.place path = .ok place)
    (named : place.name? ≠ none) (noSlash : place.trailingSlash = false)
    (found : (files.putFile place.location bytes).entry true path = .ok (other, node)) :
    (files.erase place.location).place path = .ok place := by
  have nonroot := Place.location_ne_nil named
  have same := (sameTree_erase_putFile files nonroot bytes).symm
  obtain ⟨name, name_eq⟩ := Option.ne_none_iff_exists'.mp named
  obtain ⟨-, reached, slash_eq, names⟩ := place_ok placed
  obtain ⟨usable, walked⟩ := resolve_eq_ok.mp (entry_eq_ok.mp found)
  have slash : path.text.bytes.getLast? ≠ some OsText.slash := by
    rw [noSlash] at slash_eq
    simpa using slash_eq
  rw [Path.steps_eq, if_neg slash, (names name name_eq).names_eq] at walked
  obtain ⟨middle, front⟩ := walk_front (List.cons_ne_nil _ _) walked
  rw [same.origin] at front
  have front := walk_directory_congr same front
  -- What leads somewhere without the entry leads there with it, so the directory is still the same.
  have extended : Extends (files.erase place.location) files := by
    intro other node there
    rcases eq_or_ne other place.location with rfl | apart
    · simp [node?_erase_self nonroot] at there
    · rwa [node?_erase_of_ne apart] at there
  have origin_eq : (files.erase place.location).origin path = files.origin path := rfl
  have middle_eq := extended.walk_found front
  rw [origin_eq, reached, Except.ok.injEq, Spot.found.injEq] at middle_eq
  rw [← middle_eq.1] at front
  exact place_of_reached placed (same.usable usable) front

end FileSystem

end Checkout
