import Checkout.Proofs.FileSystem.Joining
import Checkout.Proofs.Path.Ancestors

/-!
# Canonical paths and the directories above them

The path of a location goes down by one name at a time. What has been made canonical stays as it is, and the
directory above a canonical path is canonical too.
-/

namespace Checkout

/-! ## Paths of locations -/

theorem intercalate_concat (mark : OsText) {names : List OsText} (nonempty : names ≠ []) (name : OsText) :
    OsText.intercalate mark (names ++ [name]) = OsText.intercalate mark names ++ mark ++ name := by
  induction names with
  | nil => exact absurd rfl nonempty
  | cons first rest ih =>
      cases rest with
      | nil =>
          simp only [List.cons_append, List.nil_append, OsText.intercalate_cons_cons,
            OsText.intercalate_singleton]
      | cons second others =>
          have further := ih (List.cons_ne_nil _ _)
          rw [List.cons_append] at further
          rw [List.cons_append, List.cons_append, OsText.intercalate_cons_cons, further,
            OsText.intercalate_cons_cons]
          simp only [OsText.append_assoc]

namespace Location

variable {location front : Location} {name : OsText}

theorem path_eq_rebuild (location : Location) : location.path = Path.rebuild true location.reverse := by
  simp [Location.path, Path.rebuild]

theorem dropIdle_reverse (proper : ∀ name ∈ location, ProperName name) :
    Path.dropIdle true location.reverse = location.reverse := by
  rcases List.eq_nil_or_concat location with rfl | ⟨front, name, rfl⟩
  · rfl
  · have last := proper name (by simp)
    rw [List.concat_eq_append, List.reverse_concat, Path.dropIdle,
      if_neg (by simp [last.nonempty, last.notHere])]

theorem body_path (nonempty : location ≠ []) (proper : ∀ name ∈ location, ProperName name) :
    location.path.body = location := by
  rw [path_eq_rebuild, Path.body_rebuild (by simpa using nonempty), List.reverse_reverse]
  intro name name_mem
  exact (proper name (List.mem_reverse.mp name_mem)).noSlash

theorem parent?_path (proper : ∀ other ∈ front ++ [name], ProperName other) :
    (Location.path (front ++ [name])).parent? = some front.path := by
  have front_proper : ∀ other ∈ front, ProperName other :=
    fun other other_mem => proper other (List.mem_append_left _ other_mem)
  rw [Path.parent?, Location.isAbsolute_path, body_path (by simp) proper, dropIdle_reverse proper,
    List.reverse_concat]
  simp only [dropIdle_reverse front_proper, path_eq_rebuild front]

theorem parent?_path_nil : (Location.path []).parent? = none := by
  decide

theorem join_path (proper : ∀ other ∈ front ++ [name], ProperName other) :
    front.path.join name = Location.path (front ++ [name]) := by
  have notSlash : name.bytes.head? ≠ some OsText.slash := (proper name (by simp)).head?_ne
  rcases eq_or_ne front [] with rfl | nonempty
  · rw [Path.join, if_neg notSlash, if_pos (Or.inr (by decide)), List.nil_append, Location.path,
      Location.path, OsText.intercalate_singleton]
    rfl
  · have noSlash := Location.getLast?_path nonempty
      fun other other_mem => proper other (List.mem_append_left _ other_mem)
    have text_ne := FileSystem.nonempty_text front.isAbsolute_path
    rw [Path.join, if_neg notSlash, if_neg (by simp [text_ne, noSlash]), Location.path, Location.path,
      intercalate_concat "/" nonempty]
    simp only [OsText.append_assoc]

theorem foldl_join_path {names : List OsText} (proper : ∀ other ∈ location ++ names, ProperName other) :
    names.foldl Path.join location.path = Location.path (location ++ names) := by
  induction names generalizing location with
  | nil => simp
  | cons name rest ih =>
      rw [List.foldl_cons, join_path, ih, List.append_assoc]
      · rfl
      · simpa using proper
      · intro other other_mem
        apply proper
        rw [List.append_cons]
        exact List.mem_append_left _ other_mem

theorem components_path (proper : ∀ other ∈ location, ProperName other) :
    location.path.components = .root :: location.map Component.name := by
  induction location using List.reverseRecOn with
  | nil => decide
  | append_singleton front name ih =>
      rw [← join_path proper, Path.components_join (proper name (by simp)) (Location.isAbsolute_path front),
        ih fun other other_mem => proper other (List.mem_append_left _ other_mem), List.map_append]
      rfl

theorem path_inj {other : Location} (proper : ∀ name ∈ location, ProperName name)
    (otherProper : ∀ name ∈ other, ProperName name) (same : location.path = other.path) :
    location = other := by
  have components_eq := congrArg Path.components same
  rw [components_path proper, components_path otherProper, List.cons.injEq] at components_eq
  exact (List.map_inj_right fun _ _ => Component.name.inj).mp components_eq.2

theorem name?_path (proper : ∀ other ∈ front ++ [name], ProperName other) :
    (Location.path (front ++ [name])).name? = some name := by
  rw [Path.name?, components_path proper, List.map_append, ← List.cons_append, List.map_singleton,
    List.getLast?_concat]

end Location

namespace FileSystem

variable {files : FileSystem} {path real parent : Path} {location : Location}

/-! ## What is canonical stays canonical -/

theorem entry_root (files : FileSystem) : files.entry true (Location.path []) = .ok ([], .directory) := by
  have callable : callText (Location.path []) = .ok (Location.path []).text := by decide
  have steps_eq : steps (Location.path []).text = [("." : OsText)] := by decide
  rw [entry_eq_ok, resolve_eq_ok, origin, steps_eq]
  exact ⟨⟨callable, Or.inl (by decide)⟩, walk_here files maxLinks _⟩

/-- The path of an entry that is not a link leads to it, if it leads anywhere. -/
theorem location_of_entry_path (wellFormed : files.WellFormed) {node other : Node} {reached : Location}
    (inside : files.node? location = some node) (notLink : ∀ target, node ≠ .link target)
    (found : files.entry true location.path = .ok (reached, other)) : reached = location := by
  have proper := wellFormed.proper_of_node? inside
  rcases List.eq_nil_or_concat location with rfl | ⟨front, name, rfl⟩
  · rw [entry_root, Except.ok.injEq, Prod.mk.injEq] at found
    exact found.1.symm
  · rw [List.concat_eq_append] at *
    have above := wellFormed.prefix_directory inside (List.cons_ne_nil _ _)
    rw [← Location.join_path proper] at found
    obtain ⟨middle, _, middle_found, -⟩ :=
      walk_of_resolve_join (Location.isAbsolute_path front) (proper name (by simp)) (entry_eq_ok.mp found)
    obtain rfl := entry_path wellFormed above middle_found
    refine location_of_resolve_join middle.isAbsolute_path (proper name (by simp)) middle_found ?_
      (entry_eq_ok.mp found)
    intro target isLink
    rw [inside, Option.some.injEq] at isLink
    exact notLink target isLink

theorem realPath_of_entry {node : Node} (found : files.entry true path = .ok (location, node)) :
    files.realPath? path = some location.path := by
  simp [realPath?, found]

theorem exists_entry_of_realPath (found : files.realPath? path = some real) :
    ∃ location node, files.entry true path = .ok (location, node) ∧ real = location.path := by
  simp only [realPath?] at found
  split at found
  · rename_i location node entry_eq
    exact ⟨location, node, entry_eq, (Option.some.inj found).symm⟩
  · simp at found

/-- However many names are taken off the path of an entry that is not a link, its canonical form is
itself. -/
theorem canonicalFrom_path (wellFormed : files.WellFormed) {node : Node} (fallback : Path)
    {front missing : Location} {bound : Nat} (enough : front.length < bound)
    (inside : files.node? (front ++ missing) = some node) (notLink : ∀ target, node ≠ .link target) :
    canonicalFrom files fallback bound (Location.path front) missing =
      Location.path (front ++ missing) := by
  induction bound generalizing front missing with
  | zero => omega
  | succ bound ih =>
      have proper := wellFormed.proper_of_node? inside
      rw [canonicalFrom]
      cases real_eq : files.realPath? (Location.path front) with
      | some real =>
          obtain ⟨reached, other, found, rfl⟩ := exists_entry_of_realPath real_eq
          have reached_eq : reached = front := by
            rcases eq_or_ne missing [] with rfl | below
            · rw [List.append_nil] at inside
              exact location_of_entry_path wellFormed inside notLink found
            · exact entry_path wellFormed (wellFormed.prefix_directory inside below) found
          rw [reached_eq]
          exact Location.foldl_join_path proper
      | none =>
          rcases List.eq_nil_or_concat front with rfl | ⟨above, name, rfl⟩
          · rw [realPath_of_entry (entry_root files)] at real_eq
            simp at real_eq
          · rw [List.concat_eq_append] at *
            have front_proper : ∀ other ∈ above ++ [name], ProperName other :=
              fun other other_mem => proper other (List.mem_append_left _ other_mem)
            rw [List.append_assoc, List.singleton_append] at inside
            simp only [Location.parent?_path front_proper, Location.name?_path front_proper]
            rw [ih (by simp at enough; omega) inside, List.append_assoc, List.singleton_append]

/-- The path of an entry that is not a link is its own canonical form. -/
theorem canonical_path (wellFormed : files.WellFormed) {node : Node}
    (inside : files.node? location = some node) (notLink : ∀ target, node ≠ .link target) :
    files.canonical location.path = .ok location.path := by
  cases real_eq : files.realPath? location.path with
  | some real =>
      obtain ⟨reached, other, found, rfl⟩ := exists_entry_of_realPath real_eq
      rw [canonical_of_entry found, location_of_entry_path wellFormed inside notLink found]
  | none =>
      have absolute_eq : files.absolute location.path = location.path := by
        rw [absolute, if_pos location.isAbsolute_path]
      have enough : location.length < location.path.body.length + 1 := by
        rcases eq_or_ne location [] with rfl | nonempty
        · simp
        · rw [Location.body_path nonempty (wellFormed.proper_of_node? inside)]
          omega
      have inside' : files.node? (location ++ []) = some node := by rwa [List.append_nil]
      simp only [canonical, real_eq, location.isAbsolute_path, absolute_eq, Bool.not_true,
        Bool.false_eq_true, false_and, if_false]
      rw [canonicalFrom_path wellFormed location.path enough inside' notLink, List.append_nil]

/-! ## Parents of canonical paths -/

/-- Going up from a path ends before its height is used up. -/
theorem canonicalFrom_congr {fallback existing : Path} {missing : List OsText} {bound other : Nat}
    (absolute : existing.isAbsolute = true) (enough : existing.height < bound)
    (otherEnough : existing.height < other) :
    canonicalFrom files fallback bound existing missing =
      canonicalFrom files fallback other existing missing := by
  induction bound generalizing existing missing other with
  | zero => omega
  | succ bound ih =>
      obtain ⟨other, rfl⟩ := Nat.exists_eq_succ_of_ne_zero (Nat.ne_zero_of_lt otherEnough)
      rw [canonicalFrom, canonicalFrom]
      cases files.realPath? existing with
      | some real => rfl
      | none =>
          cases above : existing.parent? with
          | none => rfl
          | some parent =>
              have lower := Path.height_parent? absolute above
              cases existing.name? with
              | none => rfl
              | some name =>
                  exact ih (Path.isAbsolute_parent? absolute above) (by omega) (by omega)

/-- A name behind a path stays behind its canonical form, unless neither is found. -/
theorem canonicalFrom_concat (wellFormed : files.WellFormed) (fallback fallback' : Path) (bound : Nat)
    (existing : Path) {missing : List OsText} {name : OsText}
    (proper : ∀ other ∈ missing ++ [name], ProperName other) :
    (canonicalFrom files fallback bound existing (missing ++ [name]) = fallback ∧
        canonicalFrom files fallback' bound existing missing = fallback') ∨
      ∃ location, (∀ other ∈ location ++ [name], ProperName other) ∧
        canonicalFrom files fallback' bound existing missing = Location.path location ∧
        canonicalFrom files fallback bound existing (missing ++ [name]) =
          Location.path (location ++ [name]) := by
  induction bound generalizing existing missing with
  | zero => exact Or.inl ⟨rfl, rfl⟩
  | succ bound ih =>
      simp only [canonicalFrom]
      cases real_eq : files.realPath? existing with
      | some real =>
          obtain ⟨location, node, found, rfl⟩ := exists_entry_of_realPath real_eq
          have inside : files.node? location = some node :=
            resolve_sound wellFormed (entry_eq_ok.mp found)
          have all_proper : ∀ other ∈ location ++ (missing ++ [name]), ProperName other := by
            intro other other_mem
            rcases List.mem_append.mp other_mem with above | below
            · exact wellFormed.proper_of_node? inside other above
            · exact proper other below
          rw [← List.append_assoc] at all_proper
          refine Or.inr ⟨location ++ missing, all_proper, ?_, ?_⟩
          · exact Location.foldl_join_path fun other other_mem =>
              all_proper other (List.mem_append_left _ other_mem)
          · rw [List.append_assoc] at all_proper ⊢
            exact Location.foldl_join_path all_proper
      | none =>
          cases existing.parent? with
          | none => exact Or.inl ⟨rfl, rfl⟩
          | some parent =>
              cases named : existing.name? with
              | none => exact Or.inl ⟨rfl, rfl⟩
              | some first =>
                  have longer : ∀ other ∈ (first :: missing) ++ [name], ProperName other := by
                    intro other other_mem
                    rcases List.mem_cons.mp other_mem with rfl | later
                    · exact Path.properName_of_name? named
                    · exact proper other later
                  exact ih parent longer

theorem canonical_of_isAbsolute (absolute : path.isAbsolute = true) :
    files.canonical path = .ok (canonicalFrom files path (path.body.length + 1) path []) := by
  rw [canonical, canonicalFrom]
  cases real_eq : files.realPath? path with
  | some real => rfl
  | none => simp [absolute, FileSystem.absolute, canonicalFrom, real_eq]

/-- What is not there in a directory is canonical by its name. -/
theorem canonical_of_missing {front : Location} {name : OsText} {node : Node}
    (proper : ∀ other ∈ front ++ [name], ProperName other)
    (found : files.entry true front.path = .ok (front, node))
    (missing : files.realPath? (Location.path (front ++ [name])) = none) :
    files.canonical (Location.path (front ++ [name])) = .ok (Location.path (front ++ [name])) := by
  have body_eq := Location.body_path (by simp) proper
  rw [canonical_of_isAbsolute (Location.isAbsolute_path _), canonicalFrom, body_eq,
    List.length_append, List.length_singleton]
  simp only [missing, Location.parent?_path proper, Location.name?_path proper, canonicalFrom,
    realPath_of_entry found]
  exact congrArg Except.ok (Location.foldl_join_path proper)

/-- A canonical path that leads to an entry is made of the names of a location. -/
theorem location_of_canonical_found (wellFormed : files.WellFormed) {same top : Path} {name : OsText}
    (canonical : files.canonical real = .ok real) (above : real.parent? = some parent)
    (named : real.name? = some name) (canonicalAbove : files.canonical parent = .ok top)
    (real_eq : files.realPath? real = some same) :
    ∃ front, (∀ other ∈ front ++ [name], ProperName other) ∧
      real = Location.path (front ++ [name]) ∧ top = Location.path front := by
  obtain ⟨location, node, found, rfl⟩ := exists_entry_of_realPath real_eq
  have inside : files.node? location = some node := resolve_sound wellFormed (entry_eq_ok.mp found)
  have proper := wellFormed.proper_of_node? inside
  rw [canonical_of_entry found, Except.ok.injEq] at canonical
  subst canonical
  rcases List.eq_nil_or_concat location with rfl | ⟨front, last, rfl⟩
  · rw [Location.parent?_path_nil] at above
    simp at above
  · rw [List.concat_eq_append] at *
    rw [Location.name?_path proper, Option.some.injEq] at named
    rw [Location.parent?_path proper, Option.some.injEq] at above
    have higher := wellFormed.prefix_directory inside (List.cons_ne_nil _ _)
    rw [← above, canonical_path wellFormed higher (by simp), Except.ok.injEq] at canonicalAbove
    exact ⟨front, named ▸ proper, by rw [named], canonicalAbove.symm⟩

/-- So is one that leads nowhere, if the path above it leads to a directory. -/
theorem location_of_canonical_missing (wellFormed : files.WellFormed) {top : Path} {name : OsText}
    {reached : Location} (canonical : files.canonical real = .ok real)
    (above : real.parent? = some parent) (named : real.name? = some name)
    (canonicalAbove : files.canonical parent = .ok top)
    (found : files.entry true top = .ok (reached, .directory))
    (real_eq : files.realPath? real = none) :
    ∃ front, (∀ other ∈ front ++ [name], ProperName other) ∧
      real = Location.path (front ++ [name]) ∧ top = Location.path front := by
  have absolute := isAbsolute_canonical canonical
  have parentAbsolute := Path.isAbsolute_parent? absolute above
  have lower := Path.height_parent? absolute above
  have realHeight := real.height_le
  have parentHeight := parent.height_le
  rw [canonical_of_isAbsolute absolute, Except.ok.injEq, canonicalFrom] at canonical
  simp only [real_eq, above, named] at canonical
  have proper : ∀ other ∈ [] ++ [name], ProperName other := by
    simpa using Path.properName_of_name? named
  rw [canonicalFrom_congr parentAbsolute (by omega)
    (show parent.height < parent.body.length + 1 by omega)] at canonical
  rw [canonical_of_isAbsolute parentAbsolute, Except.ok.injEq] at canonicalAbove
  rcases canonicalFrom_concat wellFormed real parent (parent.body.length + 1) parent proper with
    ⟨-, fell⟩ | ⟨front, front_proper, higher, joined⟩
  · obtain rfl : parent = top := by rw [← canonicalAbove, fell]
    have inside := resolve_sound wellFormed (entry_eq_ok.mp found)
    rw [canonicalFrom] at canonical
    simp only [realPath_of_entry found] at canonical
    have all_proper : ∀ other ∈ reached ++ [name], ProperName other := by
      intro other other_mem
      rcases List.mem_append.mp other_mem with higher | last
      · exact wellFormed.proper_of_node? inside other higher
      · exact proper other last
    have real_eq : real = Location.path (reached ++ [name]) :=
      canonical.symm.trans (Location.foldl_join_path all_proper)
    rw [real_eq, Location.parent?_path all_proper, Option.some.injEq] at above
    exact ⟨reached, all_proper, real_eq, above.symm⟩
  · exact ⟨front, front_proper, canonical.symm.trans joined, canonicalAbove.symm.trans higher⟩

/-- A canonical path in a versioned directory is the path of a location in that directory. -/
theorem exists_location_of_canonical (wellFormed : files.WellFormed)
    (canonical : files.canonical real = .ok real) {name : OsText} (above : real.parent? = some parent)
    (named : real.name? = some name) {top : Path} (canonicalAbove : files.canonical parent = .ok top)
    (versioned : files.isVersioned top = true) :
    ∃ front, parent = Location.path front ∧ real = Location.path (front ++ [name]) ∧
      (∀ other ∈ front ++ [name], ProperName other) ∧
      files.entry true parent = .ok (front, .directory) := by
  obtain ⟨reached, found⟩ := entry_of_isVersioned (isAbsolute_canonical canonicalAbove) versioned
  have shape : ∃ front, (∀ other ∈ front ++ [name], ProperName other) ∧
      real = Location.path (front ++ [name]) ∧ top = Location.path front := by
    cases real_eq : files.realPath? real with
    | some same => exact location_of_canonical_found wellFormed canonical above named canonicalAbove real_eq
    | none =>
        exact location_of_canonical_missing wellFormed canonical above named canonicalAbove found real_eq
  obtain ⟨front, proper, rfl, rfl⟩ := shape
  rw [Location.parent?_path proper, Option.some.injEq] at above
  subst above
  rw [canonical_of_entry found, Except.ok.injEq] at canonicalAbove
  have front_eq : reached = front := by
    apply Location.path_inj (wellFormed.proper_of_node? (resolve_sound wellFormed
      (entry_eq_ok.mp found))) _ canonicalAbove
    exact fun other other_mem => proper other (List.mem_append_left _ other_mem)
  exact ⟨front, rfl, rfl, proper, front_eq ▸ found⟩

end FileSystem

end Checkout
