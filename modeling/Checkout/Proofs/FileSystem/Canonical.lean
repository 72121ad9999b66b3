import Checkout.Proofs.FileSystem.LockFile

/-!
# Canonical paths

Canonical paths are absolute, and the path of a directory is its own canonical form.
-/

namespace Checkout

/-! ## Absolute paths -/

theorem Location.text_path (location : Location) :
    location.path.text.bytes = OsText.slash :: (OsText.intercalate "/" location).bytes := by
  simp [Location.path]

theorem Location.isAbsolute_path (location : Location) : location.path.isAbsolute = true := by
  simp [Path.isAbsolute, location.text_path]

theorem pieces_intercalate {names : List OsText} (nonempty : names ≠ [])
    (free : ∀ name ∈ names, OsText.slash ∉ name.bytes) :
    pieces OsText.slash (OsText.intercalate "/" names).bytes = names.map OsText.bytes := by
  induction names with
  | nil => exact absurd rfl nonempty
  | cons first rest ih =>
      have alone := pieces_of_not_mem (free first List.mem_cons_self)
      cases rest with
      | nil => simpa using alone
      | cons second others =>
          have further := ih (List.cons_ne_nil _ _)
            (fun name name_mem => free name (List.mem_cons_of_mem _ name_mem))
          rw [OsText.intercalate_cons_cons, OsText.bytes_append, OsText.bytes_append]
          change pieces OsText.slash ((first.bytes ++ [OsText.slash]) ++ _) = _
          rw [List.append_assoc, List.singleton_append, pieces_append, alone, further]
          rfl

theorem Location.pieces_path {location : Location} (nonempty : location ≠ [])
    (proper : ∀ name ∈ location, ProperName name) :
    pieces OsText.slash location.path.text.bytes = [] :: location.map OsText.bytes := by
  rw [Location.text_path, pieces, if_pos rfl,
    pieces_intercalate nonempty fun name name_mem => (proper name name_mem).noSlash]

/-- The path of a location goes through its names. -/
theorem Location.names_path {location : Location} (nonempty : location ≠ [])
    (proper : ∀ name ∈ location, ProperName name) : location.path.names = location := by
  have kept : (location.map OsText.bytes).filter (· ≠ []) = location.map OsText.bytes := by
    apply List.filter_eq_self.mpr
    intro piece piece_mem
    obtain ⟨name, name_mem, rfl⟩ := List.mem_map.mp piece_mem
    simpa using (proper name name_mem).bytes_ne_nil
  rw [Path.names, Location.pieces_path nonempty proper, List.filter_cons_of_neg (by simp), kept,
    List.map_map]
  simp [Function.comp_def]

/-- No slash follows the last name. -/
theorem Location.getLast?_path {location : Location} (nonempty : location ≠ [])
    (proper : ∀ name ∈ location, ProperName name) :
    location.path.text.bytes.getLast? ≠ some OsText.slash := by
  intro slash
  -- an empty piece would follow the slash, but the last piece is a name
  have split := pieces_eq_of_getLast? slash
  rw [Location.pieces_path nonempty proper] at split
  obtain ⟨front, name, rfl⟩ := (List.eq_nil_or_concat location).resolve_left nonempty
  rw [List.concat_eq_append] at proper split
  have last := congrArg List.getLast? split
  rw [List.map_append, ← List.cons_append, List.map_singleton, List.getLast?_concat,
    List.getLast?_concat, Option.some.injEq] at last
  exact (proper name (by simp)).bytes_ne_nil last

theorem Location.steps_path {location : Location} (nonempty : location ≠ [])
    (proper : ∀ name ∈ location, ProperName name) :
    FileSystem.steps location.path.text = location := by
  rw [Path.steps_eq, if_neg (Location.getLast?_path nonempty proper),
    Location.names_path nonempty proper]

namespace Path

theorem properName_of_segment {path : Path} {segment name : OsText}
    (segment_mem : segment ∈ path.segments) (named : component? segment = some (.name name)) :
    ProperName name := by
  obtain ⟨piece, piece_mem, rfl⟩ := List.mem_map.mp segment_mem
  simp only [component?] at named
  split at named
  · simp at named
  · rename_i idle
    split at named
    · simp at named
    · rename_i notUp
      rw [Option.some.injEq, Component.name.injEq] at named
      subst named
      rw [not_or] at idle
      refine ⟨idle.1, idle.2, notUp, ?_⟩
      exact notMem_of_mem_pieces piece_mem

theorem mem_segments_of_body {path : Path} {segment : OsText} (segment_mem : segment ∈ path.body) :
    segment ∈ path.segments := by
  simp only [body] at segment_mem
  split at segment_mem
  · exact List.mem_of_mem_drop segment_mem
  · exact segment_mem

theorem noSlash_of_mem_body {path : Path} {segment : OsText}
    (segment_mem : segment ∈ path.body) : OsText.slash ∉ segment.bytes := by
  obtain ⟨piece, piece_mem, rfl⟩ := List.mem_map.mp (mem_segments_of_body segment_mem)
  exact notMem_of_mem_pieces piece_mem

/-- The names among the components of a path are proper. -/
theorem properName_of_component {path : Path} {name : OsText}
    (component_mem : Component.name name ∈ path.components) : ProperName name := by
  have of_body (mem : Component.name name ∈ path.body.filterMap component?) : ProperName name := by
    obtain ⟨segment, segment_mem, named⟩ := List.mem_filterMap.mp mem
    exact properName_of_segment (mem_segments_of_body segment_mem) named
  simp only [components] at component_mem
  split at component_mem
  · rcases List.mem_cons.mp component_mem with isRoot | later
    · simp at isRoot
    · exact of_body later
  · split at component_mem
    · rcases List.mem_cons.mp component_mem with isHere | later
      · simp at isHere
      · exact of_body later
    · exact of_body component_mem

theorem properName_of_name? {path : Path} {name : OsText} (named : path.name? = some name) :
    ProperName name := by
  simp only [name?] at named
  split at named
  · rename_i text last
    rw [Option.some.injEq] at named
    subst named
    exact properName_of_component (List.mem_of_getLast? last)
  · simp at named

theorem isAbsolute_foldl_join {base : Path} {names : List OsText} (absolute : base.isAbsolute = true)
    (proper : ∀ name ∈ names, ProperName name) : (names.foldl join base).isAbsolute = true := by
  induction names generalizing base with
  | nil => exact absolute
  | cons name rest ih =>
      exact ih (isAbsolute_join (proper name List.mem_cons_self) absolute)
        (fun other other_mem => proper other (List.mem_cons_of_mem _ other_mem))

end Path

namespace FileSystem

variable {files : FileSystem} {path real : Path}

theorem isAbsolute_realPath (found : files.realPath? path = some real) : real.isAbsolute = true := by
  simp only [realPath?] at found
  split at found
  · rw [Option.some.injEq] at found
    rw [← found]
    exact Location.isAbsolute_path _
  · simp at found

theorem isAbsolute_absolute (files : FileSystem) (path : Path) :
    (files.absolute path).isAbsolute = true := by
  simp only [absolute]
  split
  · assumption
  · rename_i relative
    have notSlash : path.text.bytes.head? ≠ some OsText.slash := by simpa [Path.isAbsolute] using relative
    have base := Location.text_path files.current
    simp only [Path.join, if_neg notSlash]
    split <;> simp [Path.isAbsolute, base]

theorem isAbsolute_canonicalFrom {fallback existing : Path} {missing : List OsText}
    (fallbackAbsolute : fallback.isAbsolute = true) (proper : ∀ name ∈ missing, ProperName name)
    (bound : Nat) :
    (canonicalFrom files fallback bound existing missing).isAbsolute = true := by
  induction bound generalizing existing missing with
  | zero => exact fallbackAbsolute
  | succ bound ih =>
      simp only [canonicalFrom]
      split
      · rename_i found
        exact Path.isAbsolute_foldl_join (isAbsolute_realPath found) proper
      · split
        · rename_i parent name _ named
          apply ih
          intro other other_mem
          rcases List.mem_cons.mp other_mem with rfl | older
          · exact Path.properName_of_name? named
          · exact proper other older
        · exact fallbackAbsolute

/-- A canonical path is absolute, whether or not anything is there. -/
theorem isAbsolute_canonical (canonical : files.canonical path = .ok real) :
    real.isAbsolute = true := by
  simp only [FileSystem.canonical] at canonical
  split at canonical
  · rename_i found
    rw [Except.ok.injEq] at canonical
    subst canonical
    exact isAbsolute_realPath found
  · split at canonical
    · simp at canonical
    · rw [Except.ok.injEq] at canonical
      subst canonical
      exact isAbsolute_canonicalFrom (files.isAbsolute_absolute path) (by simp) _

/-- The canonical form of a path that leads to an entry is the path of its location. -/
theorem canonical_of_entry {location : Location} {node : Node}
    (found : files.entry true path = .ok (location, node)) :
    files.canonical path = .ok location.path := by
  simp [FileSystem.canonical, realPath?, found]

/-! ## Stable forms -/

variable {other : FileSystem} {location : Location}

/-- What leads to a directory still does when files come and go. -/
theorem entry_congr (same : SameTree files other)
    (found : files.entry true path = .ok (location, .directory)) :
    other.entry true path = .ok (location, .directory) := by
  obtain ⟨usable, walked⟩ := resolve_eq_ok.mp (entry_eq_ok.mp found)
  have walked' := walk_directory_congr same walked
  rw [same.origin] at walked'
  exact entry_eq_ok.mpr (resolve_eq_ok.mpr ⟨same.usable usable, walked'⟩)

/-- The path of a directory leads to it, if it leads anywhere. -/
theorem entry_path (wellFormed : files.WellFormed) (inside : files.node? location = some .directory)
    {reached : Location} {node : Node}
    (found : files.entry true location.path = .ok (reached, node)) : reached = location := by
  have proper := wellFormed.proper_of_node? inside
  obtain ⟨-, walked⟩ := resolve_eq_ok.mp (entry_eq_ok.mp found)
  have top : files.origin location.path = [] := by
    simp [origin, FileSystem.start, Location.text_path]
  rw [top] at walked
  rcases eq_or_ne location [] with rfl | nonempty
  · have steps_eq : steps (Location.path []).text = [("." : OsText)] := by decide
    rw [steps_eq, maxLinks, walk] at walked
    simp only [walkSteps, if_true, Except.ok.injEq, Spot.found.injEq] at walked
    exact walked.1.symm
  · rw [Location.steps_path nonempty proper] at walked
    have ended := walk_directories (by
      intro front isPrefix
      obtain ⟨back, rfl⟩ := isPrefix
      rw [List.nil_append]
      rcases eq_or_ne back [] with rfl | below
      · simpa using inside
      · exact wellFormed.prefix_directory inside below) proper walked
    rw [Spot.found.injEq] at ended
    exact ended.1

end FileSystem

end Checkout
