import Checkout.Proofs.FileSystem.Footing

/-!
# Canonical forms as keys

A canonical form serves as the key of what a path leads to if making it canonical again gives the same path and no
link is left on its way. Names that were taken off a path and put back can bring a link with them. Limits of the
system apart, this happens to the last name only, where the path says more behind it: a slash or a `.` demands a
directory there, but the link leads to something else.
-/

namespace Checkout

namespace Path

variable {path parent : Path} {name : OsText}

/-- Behind the last component stands a slash or a `.`. -/
def EndsIdly (path : Path) : Prop :=
  path.body.getLast? = some ("" : OsText) ∨
    path.body.getLast? = some ("." : OsText)

theorem names_eq_body (absolute : path.isAbsolute = true) :
    path.names = path.body.filter (· ≠ ("" : OsText)) := by
  obtain ⟨rest, text_eq⟩ := List.head?_eq_some_iff.mp
    (show path.text.bytes.head? = some OsText.slash by simpa [isAbsolute] using absolute)
  rw [names, body, if_pos absolute, segments, text_eq, pieces, if_pos rfl, List.map_cons, List.drop_one,
    List.tail_cons, List.filter_map]
  simp [Function.comp_def]

theorem dropIdle_of_not_endsIdly (busy : ¬path.EndsIdly) :
    dropIdle true path.body.reverse = path.body.reverse := by
  rcases List.eq_nil_or_concat path.body with empty | ⟨front, last, body_eq⟩
  · rw [empty]
    rfl
  · rw [List.concat_eq_append] at body_eq
    rw [EndsIdly, body_eq, List.getLast?_concat, Option.some.injEq, Option.some.injEq] at busy
    rw [body_eq, List.reverse_concat, dropIdle, if_neg (by tauto)]

theorem filter_dropIdle (reversed : List OsText) : ∃ dots, (∀ dot ∈ dots, dot = ("." : OsText)) ∧
    reversed.filter (· ≠ ("" : OsText)) =
      dots ++ (dropIdle true reversed).filter (· ≠ ("" : OsText)) := by
  induction reversed with
  | nil => exact ⟨[], by simp, rfl⟩
  | cons segment rest ih =>
      obtain ⟨dots, areDots, rest_eq⟩ := ih
      rw [dropIdle]
      split
      · rename_i idle
        rcases idle with rfl | ⟨rfl, -⟩
        · exact ⟨dots, areDots, by simpa using rest_eq⟩
        · refine ⟨"." :: dots, by simpa using areDots, ?_⟩
          rw [List.filter_cons_of_pos (by decide), rest_eq, List.cons_append]
      · exact ⟨[], by simp, rfl⟩

theorem names_rebuild {reversed : List OsText} (free : ∀ segment ∈ reversed, OsText.slash ∉ segment.bytes) :
    (rebuild true reversed).names = (reversed.filter (· ≠ ("" : OsText))).reverse := by
  rcases eq_or_ne reversed [] with rfl | nonempty
  · decide
  · have absolute : (rebuild true reversed).isAbsolute = true := by simp [rebuild, isAbsolute]
    rw [names_eq_body absolute, body_rebuild nonempty free, List.filter_reverse]

/-- The names of a path are those of its parent and the last one, but for dots between. -/
theorem names_of_parent? (absolute : path.isAbsolute = true) (above : path.parent? = some parent)
    (named : path.name? = some name) (busy : ¬path.EndsIdly) :
    ∃ dots, (∀ dot ∈ dots, dot = ("." : OsText)) ∧ path.names = parent.names ++ dots ++ [name] := by
  obtain ⟨last, rest, shape, free, rfl⟩ := rebuild_of_parent? absolute above
  obtain ⟨dots, areDots, rest_eq⟩ := filter_dropIdle rest
  have body_eq : path.body = rest.reverse ++ [last] := by
    rw [← List.reverse_cons, ← shape, dropIdle_of_not_endsIdly busy, List.reverse_reverse]
  rw [EndsIdly, body_eq, List.getLast?_concat, Option.some.injEq, Option.some.injEq, not_or] at busy
  have last_eq : last = name := by
    rw [name?, components_of_isAbsolute absolute, body_eq, List.reverse_concat] at named
    have step_eq : component? last = if last = ".." then some .up else some (.name last) := by
      rw [component?, if_neg (by tauto)]
    by_cases isUp : last = ".."
    · rw [if_pos isUp] at step_eq
      rw [List.filterMap_cons_some step_eq, List.reverse_cons, ← List.cons_append,
        List.getLast?_concat] at named
      simp at named
    · rw [if_neg isUp] at step_eq
      rw [List.filterMap_cons_some step_eq, List.reverse_cons, ← List.cons_append,
        List.getLast?_concat] at named
      simpa using named
  subst last_eq
  refine ⟨dots.reverse, by simpa using areDots, ?_⟩
  rw [names_eq_body absolute, body_eq, names_rebuild free, List.filter_append, List.filter_reverse, rest_eq,
    List.reverse_append, List.filter_singleton]
  simp [busy.1]

theorem steps_of_not_endsIdly (absolute : path.isAbsolute = true) (busy : ¬path.EndsIdly) :
    FileSystem.steps path.text = path.names := by
  rw [steps_eq, if_neg]
  intro slash
  apply busy
  left
  have long : 1 < path.segments.length := by
    have shape := pieces_eq_of_getLast? slash
    rw [segments, List.length_map, shape, List.length_append, List.length_singleton]
    have := List.length_pos_iff.mpr (pieces_ne_nil OsText.slash path.text.bytes.dropLast)
    omega
  rw [body, if_pos absolute, List.getLast?_drop, if_neg (by omega), segments, pieces_eq_of_getLast? slash]
  simp

/-- A path above another one ends with a component, unless it is the root. -/
theorem not_endsIdly_of_parent? (absolute : path.isAbsolute = true) (above : path.parent? = some parent) :
    parent = Location.path [] ∨ ¬parent.EndsIdly := by
  obtain ⟨_, rest, -, free, rfl⟩ := rebuild_of_parent? absolute above
  cases busy : dropIdle true rest with
  | nil => exact .inl rfl
  | cons segment others =>
      right
      obtain ⟨step, step_eq⟩ := component?_of_dropIdle busy
      rw [busy] at free
      rw [EndsIdly, body_rebuild (List.cons_ne_nil _ _) free, List.reverse_cons, List.getLast?_concat,
        Option.some.injEq, Option.some.injEq]
      intro idle
      rw [component?, if_pos idle] at step_eq
      simp at step_eq

theorem up_mem_of_ancestor {above : Path} (absolute : path.isAbsolute = true)
    (above_mem : above ∈ path.ancestors) (isUp : above.components.getLast? = some .up) :
    Component.up ∈ path.components := by
  have lies := isUnder_of_mem_ancestors absolute above_mem
  rw [isUnder, List.isPrefixOf_iff_prefix] at lies
  exact lies.subset (List.mem_of_getLast? isUp)

theorem ancestors_of_root (absolute : path.isAbsolute = true) (isRoot : path.components = [.root]) :
    path.ancestors = [path] := by
  rw [ancestors_eq absolute]
  cases above : path.parent? with
  | none => rfl
  | some parent =>
      obtain ⟨last, components_eq⟩ := components_parent? absolute above
      rw [isRoot, components_of_isAbsolute (isAbsolute_parent? absolute above)] at components_eq
      simp at components_eq

end Path

namespace FileSystem

variable {files : FileSystem} {path parent real : Path} {location reached : Location}
  {names : List OsText} {name : OsText} {node : Node}

theorem walk_dots {links : Nat} {dots : List OsText} (areDots : ∀ dot ∈ dots, dot = ("." : OsText))
    (directory : Location) (names : List OsText) :
    walk files true links directory (dots ++ names) = walk files true links directory names := by
  obtain ⟨enter, walk_eq⟩ := walk_eq_walkSteps files true links
  rw [walk_eq]
  induction dots with
  | nil => rfl
  | cons dot rest ih =>
      rw [List.cons_append, walkSteps, if_pos (areDots dot List.mem_cons_self)]
      exact ih fun other other_mem => areDots other (List.mem_cons_of_mem _ other_mem)

/-! ## What can come back behind an entry -/

/-- No limit of the system stops the way to a path or to one above it: what leads nowhere does so because
an entry is missing or is no directory. -/
def WithinLimits (files : FileSystem) (path : Path) : Prop :=
  ∀ above ∈ path.ancestors, ∀ failure, files.entry true above = .error failure →
    failure = .notFound ∨ failure = .notDirectory

theorem WithinLimits.of_parent? (limits : files.WithinLimits path) (absolute : path.isAbsolute = true)
    (above : path.parent? = some parent) : files.WithinLimits parent := by
  intro higher higher_mem
  apply limits
  rw [Path.ancestors_eq absolute, above]
  exact List.mem_cons_of_mem _ higher_mem

theorem callText_of_entry_error {failure : IoFailure} (absolute : path.isAbsolute = true)
    (failed : files.entry true path = .error failure)
    (lookup : failure = .notFound ∨ failure = .notDirectory) : callText path = .ok path.text := by
  rw [entry, resolve, callText] at failed
  rw [callText]
  split_ifs at failed ⊢ with nul empty long
  · rw [← Except.error.inj failed] at lookup
    simp at lookup
  · exact absurd empty (nonempty_text absolute)
  · rw [← Except.error.inj failed] at lookup
    simp at lookup
  · rfl

theorem head?_of_isAbsolute (absolute : path.isAbsolute = true) : path.text.bytes.head? = some OsText.slash := by
  simpa [Path.isAbsolute] using absolute

theorem origin_of_isAbsolute (files : FileSystem) (absolute : path.isAbsolute = true) : files.origin path = [] := by
  rw [origin, start, if_pos (head?_of_isAbsolute absolute)]

/-- What a name in a directory leads to is found from the directory. -/
theorem WellFormed.walk_of_entry_path (wellFormed : files.WellFormed)
    (inside : files.node? location = some .directory) (nameProper : ProperName name)
    (found : files.entry true (Location.path (location ++ [name])) = .ok (reached, node)) :
    walk files true maxLinks location [name] = .ok (.found reached node) := by
  have location_proper := wellFormed.proper_of_node? inside
  have proper : ∀ other ∈ location ++ [name], ProperName other := by
    intro other other_mem
    rcases List.mem_append.mp other_mem with higher | last
    · exact location_proper other higher
    · exact List.mem_singleton.mp last ▸ nameProper
  have chain : ∀ part, part <+: location → files.node? ([] ++ part) = some .directory := by
    rintro part ⟨rest, rfl⟩
    rcases eq_or_ne rest [] with rfl | below
    · simpa using inside
    · exact wellFormed.prefix_directory inside below
  obtain ⟨-, walked⟩ := resolve_eq_ok.mp (entry_eq_ok.mp found)
  obtain ⟨enter, walk_eq⟩ := walk_eq_walkSteps files true maxLinks
  rw [origin_of_isAbsolute files (Location.isAbsolute_path _), Location.steps_path (by simp) proper,
    walk_eq] at walked
  rw [walkSteps_chain chain location_proper walked] at walked
  rw [walk_eq]
  exact walked

/-- A path within limits leads where its steps would lead with all links to go. -/
theorem WithinLimits.entry_of_fewer (limits : files.WithinLimits path) (absolute : path.isAbsolute = true)
    {fewer : Nat} (fewer_le : fewer ≤ maxLinks)
    (walk_eq : walk files true maxLinks (files.origin path) (steps path.text) =
      walk files true fewer location names)
    (walked : walk files true maxLinks location names = .ok (.found reached node)) :
    files.entry true path = .ok (reached, node) := by
  have same_or := walk_fewer files fewer_le true location names
  rw [walked, ← walk_eq] at same_or
  cases entry_eq : files.entry true path with
  | ok entry =>
      obtain ⟨other, otherNode⟩ := entry
      obtain ⟨-, path_walked⟩ := resolve_eq_ok.mp (entry_eq_ok.mp entry_eq)
      rw [path_walked] at same_or
      simpa using same_or
  | error failure =>
      exfalso
      have self_mem : path ∈ path.ancestors := by
        rw [Path.ancestors_eq absolute]
        exact List.mem_cons_self
      have lookup := limits path self_mem failure entry_eq
      have callable := callText_of_entry_error absolute entry_eq lookup
      have head := head?_of_isAbsolute absolute
      rcases same_or with stopped | same
      · have resolved : files.resolve true path = .error .tooManyLinks := by
          simpa [resolve, bind, Except.bind, callable, head, origin] using stopped
        rw [entry, resolved] at entry_eq
        rw [← Except.error.inj entry_eq] at lookup
        simp at lookup
      · rw [entry_eq_ok.mpr (resolve_eq_ok.mpr ⟨⟨callable, .inl head⟩, same⟩)] at entry_eq
        simp at entry_eq

/-- Where a path within limits says no more than a name, it leads to what has this name where its parent
leads. -/
theorem WellFormed.entry_of_name (wellFormed : files.WellFormed) (absolute : path.isAbsolute = true)
    (above : path.parent? = some parent) (named : path.name? = some name) (busy : ¬path.EndsIdly)
    (limits : files.WithinLimits path) (found : files.entry true parent = .ok (location, .directory))
    (deeper : files.entry true (Location.path (location ++ [name])) = .ok (reached, node)) :
    files.entry true path = .ok (reached, node) := by
  have inside : files.node? location = some .directory := resolve_sound wellFormed (entry_eq_ok.mp found)
  have last_walked := wellFormed.walk_of_entry_path inside (Path.properName_of_name? named) deeper
  obtain ⟨dots, areDots, names_eq⟩ := Path.names_of_parent? absolute above named busy
  have parent_walked := walk_names_of_entry found
  rw [origin_of_isAbsolute files (Path.isAbsolute_parent? absolute above)] at parent_walked
  -- behind the parent, the walk may have fewer links to go
  obtain ⟨fewer, fewer_le, further⟩ := walk_append parent_walked
  refine limits.entry_of_fewer absolute fewer_le ?_ last_walked
  rw [origin_of_isAbsolute files absolute, Path.steps_of_not_endsIdly absolute busy, names_eq, List.append_assoc,
    further, walk_dots areDots]

/-- Of the names put back behind an entry, only the last one can lead somewhere, and only where the path
says more behind it. -/
theorem StandsOn.endsIdly (wellFormed : files.WellFormed) (stands : StandsOn files path location names)
    (absolute : path.isAbsolute = true) (limits : files.WithinLimits path) {front : List OsText}
    (nonempty : front ≠ []) (isPrefix : front <+: names)
    (leads : files.leadsSomewhere (Location.path (location ++ front)) = true) :
    names = front ∧ path.EndsIdly := by
  induction stands generalizing front with
  | here found => exact absurd (List.prefix_nil.mp isPrefix) nonempty
  | @above path parent location names name nowhere above named stands ih =>
      have parentAbsolute := Path.isAbsolute_parent? absolute above
      have proper := (StandsOn.above nowhere above named stands).proper wellFormed
      -- the path above ends with its last name, unless it leads to the root
      have stuck {part : List OsText} (part_ne : part ≠ []) (isPart : part <+: names) :
          ¬files.leadsSomewhere (Location.path (location ++ part)) = true := by
        intro part_leads
        obtain ⟨rfl, idle⟩ := ih parentAbsolute (limits.of_parent? absolute above) part_ne isPart part_leads
        obtain rfl := (Path.not_endsIdly_of_parent? absolute above).resolve_right (not_not.mpr idle)
        cases stands with
        | here found => exact part_ne rfl
        | above rootNowhere => simp [realPath?, entry_root] at rootNowhere
      rcases List.prefix_concat_iff.mp isPrefix with rfl | shorter
      · refine ⟨rfl, ?_⟩
        obtain ⟨reached, node, deeper⟩ := leadsSomewhere_iff.mp leads
        rw [← List.append_assoc] at deeper proper
        obtain ⟨front, _, front_found, isDirectory⟩ := entry_prefix proper deeper
        obtain rfl := isDirectory (by simp)
        have names_eq : names = [] := by
          by_contra names_ne
          exact stuck names_ne (List.prefix_refl _) (leadsSomewhere_iff.mpr ⟨_, _, front_found⟩)
        subst names_eq
        by_contra busy
        generalize none_eq : ([] : List OsText) = none at stands
        cases stands with
        | here found =>
            rw [List.append_nil] at front_found deeper
            obtain rfl := wellFormed.directory_of_entry_path found front_found
            have path_found := wellFormed.entry_of_name absolute above named busy limits found deeper
            rw [realPath_of_entry path_found] at nowhere
            simp at nowhere
        | above => simp at none_eq
      · exact absurd leads (stuck nonempty shorter)

/-! ## Keys -/

theorem StandsOn.of_path (proper : ∀ name ∈ location, ProperName name)
    (stands : StandsOn files path reached names) (path_eq : path = location.path) :
    ∃ front node, location = front ++ names ∧ files.entry true front.path = .ok (reached, node) ∧
      ∀ part, part ≠ [] → part <+: names →
        files.leadsSomewhere (Location.path (front ++ part)) = false := by
  induction stands generalizing location with
  | here found =>
      subst path_eq
      exact ⟨location, _, by simp, found, fun part part_ne isPrefix =>
        absurd (List.prefix_nil.mp isPrefix) part_ne⟩
  | @above path parent reached names name nowhere above named stands ih =>
      subst path_eq
      rcases List.eq_nil_or_concat location with rfl | ⟨higher, last, rfl⟩
      · rw [Location.parent?_path_nil] at above
        simp at above
      · rw [List.concat_eq_append] at *
        rw [Location.parent?_path proper, Option.some.injEq] at above
        rw [Location.name?_path proper, Option.some.injEq] at named
        subst named
        obtain ⟨front, node, rfl, found, dead⟩ :=
          ih (fun other other_mem => proper other (List.mem_append_left _ other_mem)) above.symm
        refine ⟨front, node, List.append_assoc .., found, ?_⟩
        intro part part_ne isPrefix
        rcases List.prefix_concat_iff.mp isPrefix with rfl | shorter
        · rw [← List.append_assoc]
          exact realPath_eq_none_iff.mp nowhere
        · exact dead part part_ne shorter

theorem exists_standsOn_path (files : FileSystem) (proper : ∀ name ∈ location, ProperName name) :
    ∃ reached names, StandsOn files location.path reached names := by
  rcases exists_standsOn_or files location.isAbsolute_path with standing | ⟨above, above_mem, -, isUp⟩ | isRoot
  · exact standing
  · have up_mem := Path.up_mem_of_ancestor location.isAbsolute_path above_mem isUp
    simp [Location.components_path proper] at up_mem
  · rw [Location.components_path proper, List.cons.injEq, List.map_eq_nil_iff] at isRoot
    exact ⟨[], [], isRoot.2 ▸ .here (entry_root files)⟩

/-- The path of a location is its own canonical form exactly if there is no link to an entry on its way. -/
theorem WellFormed.canonical_path_iff (wellFormed : files.WellFormed)
    (proper : ∀ name ∈ location, ProperName name) :
    files.canonical location.path = .ok location.path ↔
      ∀ above ∈ location.path.ancestors, ¬files.IsLinkToEntry above := by
  have noLinks_iff : (∀ above ∈ location.path.ancestors, ¬files.IsLinkToEntry above) ↔
      ∀ front, front <+: location → ¬files.IsLinkToEntry (Location.path front) := by
    simp only [Location.mem_ancestors_path proper, forall_exists_index, and_imp]
    exact ⟨fun none front isPrefix => none _ front isPrefix rfl,
      fun none above front isPrefix above_eq => above_eq ▸ none front isPrefix⟩
  rw [noLinks_iff]
  obtain ⟨reached, names, stands⟩ := exists_standsOn_path files proper
  obtain ⟨front, node, rfl, found, dead⟩ := stands.of_path proper rfl
  have height := (Location.path (front ++ names)).height_le
  rw [canonical_of_isAbsolute (Location.isAbsolute_path _), stands.canonicalFrom_eq wellFormed
    (Location.isAbsolute_path _) (by omega) (by simp), List.append_nil, Except.ok.injEq]
  constructor
  · intro same part isPrefix
    obtain rfl : reached = front :=
      List.append_cancel_right (Location.path_inj (stands.proper wellFormed) proper same)
    rcases List.prefix_or_prefix_of_prefix isPrefix (List.prefix_append reached names) with higher | ⟨lower, rfl⟩
    · exact wellFormed.notLink_above_entry found higher
    · rcases eq_or_ne lower [] with rfl | lower_ne
      · exact wellFormed.notLink_above_entry found (by simp)
      · rintro ⟨-, leads⟩
        rw [dead lower lower_ne ((List.prefix_append_right_inj reached).mp isPrefix)] at leads
        simp at leads
  · intro noLinks
    rw [wellFormed.location_of_entry (fun name name_mem => proper name (List.mem_append_left _ name_mem))
      (fun part isPrefix => noLinks part (isPrefix.trans (List.prefix_append _ _))) found]

/-- A path that can serve as the key of what it leads to: it is absolute, has no `.` or `..` in it and no
link to an entry on its way, and is its own canonical form. -/
structure IsKey (files : FileSystem) (path : Path) : Prop where
  absolute : path.isAbsolute = true
  notHere : Component.here ∉ path.components
  notUp : Component.up ∉ path.components
  noLinks : ∀ above ∈ path.ancestors, ¬files.IsLinkToEntry above
  fixed : files.canonical path = .ok path

theorem here_notMem (absolute : path.isAbsolute = true) : Component.here ∉ path.components := by
  intro isHere
  rw [Path.components_of_isAbsolute absolute, List.mem_cons] at isHere
  rcases isHere with isRoot | later
  · simp at isRoot
  · rcases Path.mem_tail_components absolute (by rwa [Path.components_of_isAbsolute absolute]) with
      isUp | ⟨name, isName⟩ <;> simp_all

/-- A canonical form is the path of the location a path leads to or stands on, or the path made absolute. -/
theorem canonical_cases (wellFormed : files.WellFormed) (canonical : files.canonical path = .ok real) :
    (∃ location node, files.entry true path = .ok (location, node) ∧ real = location.path) ∨
      files.realPath? path = none ∧
        ((∃ location names, StandsOn files (files.absolute path) location names ∧
            real = Location.path (location ++ names)) ∨
          (∀ location names, ¬StandsOn files (files.absolute path) location names) ∧
            real = files.absolute path) := by
  cases real_eq : files.realPath? path with
  | some found =>
      obtain ⟨location, node, entry_eq, rfl⟩ := exists_entry_of_realPath real_eq
      rw [canonical_of_entry entry_eq, Except.ok.injEq] at canonical
      exact .inl ⟨location, node, entry_eq, canonical.symm⟩
  | none =>
      right
      refine ⟨rfl, ?_⟩
      simp only [FileSystem.canonical, real_eq] at canonical
      split at canonical
      · simp at canonical
      · rw [Except.ok.injEq] at canonical
        by_cases standing : ∃ location names, StandsOn files (files.absolute path) location names
        · obtain ⟨location, names, stands⟩ := standing
          have height := (files.absolute path).height_le
          rw [stands.canonicalFrom_eq wellFormed (files.isAbsolute_absolute path) (by omega) (by simp),
            List.append_nil] at canonical
          exact .inl ⟨location, names, stands, canonical.symm⟩
        · push Not at standing
          rw [canonicalFrom_of_not_standsOn standing] at canonical
          exact .inr ⟨standing, canonical.symm⟩

/-- What is found or stood on is the path of a location. -/
theorem canonical_of_notUp (wellFormed : files.WellFormed) (canonical : files.canonical path = .ok real) :
    (∃ location, (∀ name ∈ location, ProperName name) ∧ real = Location.path location) ∨
      real = files.absolute path ∧ files.canonical real = .ok real ∧ files.leadsSomewhere real = false ∧
        ((∃ above ∈ real.ancestors, files.leadsSomewhere above = false ∧
          above.components.getLast? = some .up) ∨ real.components = [.root]) := by
  rcases canonical_cases wellFormed canonical with
    ⟨location, node, found, rfl⟩ | ⟨-, ⟨location, names, stands, rfl⟩ | ⟨baseless, rfl⟩⟩
  · exact .inl ⟨location, wellFormed.proper_of_node? (resolve_sound wellFormed (entry_eq_ok.mp found)), rfl⟩
  · exact .inl ⟨_, stands.proper wellFormed, rfl⟩
  · have absolute := files.isAbsolute_absolute path
    refine .inr ⟨rfl, ?_, ?_, ?_⟩
    · rw [canonical_of_isAbsolute absolute, canonicalFrom_of_not_standsOn baseless]
    · rw [← realPath_eq_none_iff]
      cases real_eq : files.realPath? (files.absolute path) with
      | none => rfl
      | some found =>
          obtain ⟨location, node, entry_eq, -⟩ := exists_entry_of_realPath real_eq
          exact absurd (.here entry_eq) (baseless location [])
    · refine (exists_standsOn_or files absolute).resolve_left ?_
      rintro ⟨location, names, stands⟩
      exact baseless location names stands

theorem link_at_end (wellFormed : files.WellFormed) (canonical : files.canonical path = .ok real)
    (limits : files.WithinLimits (files.absolute path)) (notUp : Component.up ∉ real.components)
    {above : Path} (above_mem : above ∈ real.ancestors) (isLink : files.IsLinkToEntry above) :
    above = real ∧ files.leadsSomewhere path = false ∧ (files.absolute path).EndsIdly := by
  have absolute := files.isAbsolute_absolute path
  rcases canonical_cases wellFormed canonical with
    ⟨location, node, found, rfl⟩ | ⟨nowhere, ⟨location, names, stands, rfl⟩ | ⟨baseless, rfl⟩⟩
  · have proper := wellFormed.proper_of_node? (resolve_sound wellFormed (entry_eq_ok.mp found))
    obtain ⟨front, isPrefix, rfl⟩ := (Location.mem_ancestors_path proper).mp above_mem
    exact absurd isLink (wellFormed.notLink_above_entry found isPrefix)
  · obtain ⟨front, isPrefix, rfl⟩ := (Location.mem_ancestors_path (stands.proper wellFormed)).mp above_mem
    obtain ⟨base, node, found⟩ := stands.exists_entry
    rcases List.prefix_or_prefix_of_prefix isPrefix (List.prefix_append location names) with
      higher | ⟨lower, rfl⟩
    · exact absurd isLink (wellFormed.notLink_above_entry found higher)
    · rcases eq_or_ne lower [] with rfl | lower_ne
      · exact absurd isLink (wellFormed.notLink_above_entry found (by simp))
      · obtain ⟨rfl, idle⟩ := stands.endsIdly wellFormed absolute limits lower_ne
          ((List.prefix_append_right_inj location).mp isPrefix) isLink.2
        exact ⟨rfl, realPath_eq_none_iff.mp nowhere, idle⟩
  · rcases canonical_of_notUp wellFormed canonical with
      ⟨location, proper, real_eq⟩ | ⟨-, -, dead, ⟨higher, higher_mem, -, isUp⟩ | isRoot⟩
    · obtain ⟨reached, names, stands⟩ := exists_standsOn_path files proper
      exact absurd (real_eq ▸ stands) (baseless reached names)
    · exact absurd (Path.up_mem_of_ancestor absolute higher_mem isUp) notUp
    · rw [Path.ancestors_of_root absolute isRoot, List.mem_singleton] at above_mem
      have leads := isLink.2
      rw [above_mem, dead] at leads
      simp at leads

/--
A canonical form is a key unless it keeps a `..` or has a link to an entry on its way. A `..` is kept where
something above it is missing; then the path is left as it was. Limits of the system apart, the only link on
the way is the path itself, and the path that was made canonical leads nowhere because more than the name of
the link is written there.
-/
theorem canonical_isKey_iff (wellFormed : files.WellFormed) (canonical : files.canonical path = .ok real) :
    real.isAbsolute = true ∧ Component.here ∉ real.components ∧
      (Component.up ∈ real.components → real = files.absolute path ∧
        ∃ above ∈ real.ancestors, files.leadsSomewhere above = false ∧
          above.components.getLast? = some .up) ∧
      (files.canonical real = .ok real ↔
        Component.up ∈ real.components ∨ ∀ above ∈ real.ancestors, ¬files.IsLinkToEntry above) ∧
      (files.IsKey real ↔
        Component.up ∉ real.components ∧ ∀ above ∈ real.ancestors, ¬files.IsLinkToEntry above) ∧
      (files.WithinLimits (files.absolute path) → Component.up ∉ real.components →
        ∀ above ∈ real.ancestors, files.IsLinkToEntry above →
          above = real ∧ files.leadsSomewhere path = false ∧ (files.absolute path).EndsIdly) := by
  have absolute := isAbsolute_canonical canonical
  have kept : Component.up ∈ real.components → real = files.absolute path ∧
      ∃ above ∈ real.ancestors, files.leadsSomewhere above = false ∧
        above.components.getLast? = some .up := by
    intro isUp
    rcases canonical_of_notUp wellFormed canonical with ⟨location, proper, rfl⟩ | ⟨real_eq, -, -, above | isRoot⟩
    · simp [Location.components_path proper] at isUp
    · exact ⟨real_eq, above⟩
    · simp [isRoot] at isUp
  have fixed_iff : files.canonical real = .ok real ↔
      Component.up ∈ real.components ∨ ∀ above ∈ real.ancestors, ¬files.IsLinkToEntry above := by
    rcases canonical_of_notUp wellFormed canonical with
      ⟨location, proper, rfl⟩ | ⟨-, fixed, nowhere, ⟨above, above_mem, -, isUp⟩ | isRoot⟩
    · rw [wellFormed.canonical_path_iff proper, Location.components_path proper]
      simp
    · exact iff_of_true fixed (.inl (Path.up_mem_of_ancestor absolute above_mem isUp))
    · refine iff_of_true fixed (.inr ?_)
      rintro above above_mem ⟨-, leads⟩
      rw [Path.ancestors_of_root absolute isRoot, List.mem_singleton] at above_mem
      rw [above_mem, nowhere] at leads
      simp at leads
  refine ⟨absolute, here_notMem absolute, kept, fixed_iff, ?_, ?_⟩
  · constructor
    · intro isKey
      exact ⟨isKey.notUp, isKey.noLinks⟩
    · rintro ⟨notUp, noLinks⟩
      exact ⟨absolute, here_notMem absolute, notUp, noLinks, fixed_iff.mpr (.inr noLinks)⟩
  · exact fun limits notUp _ => link_at_end wellFormed canonical limits notUp

/-- A home with a file in it and a link to the file. -/
def linkedHome : FileSystem where
  nodes := [(["home"], .directory), (["home", "f"], .file 0), (["home", "l"], .link "f")]
  contents := []
  nextFile := 1
  held := []
  current := []

theorem wellFormed_linkedHome : linkedHome.WellFormed := by decide +kernel

theorem withinLimits_linkedHome : linkedHome.WithinLimits ⟨"/home/l/"⟩ := by
  have ancestors_eq : Path.ancestors ⟨"/home/l/"⟩ = [⟨"/home/l/"⟩, ⟨"/home"⟩, ⟨"/"⟩] := by decide +kernel
  have stopped : linkedHome.entry true ⟨"/home/l/"⟩ = .error .notDirectory := by decide +kernel
  have home : linkedHome.entry true ⟨"/home"⟩ = .ok (["home"], .directory) := by decide +kernel
  have root : linkedHome.entry true ⟨"/"⟩ = .ok ([], .directory) := by decide +kernel
  intro above above_mem failure failed
  rw [ancestors_eq] at above_mem
  simp only [List.mem_cons, List.not_mem_nil, or_false] at above_mem
  rcases above_mem with rfl | rfl | rfl
  · exact .inr (Except.error.inj (stopped.symm.trans failed)).symm
  · simp [home] at failed
  · simp [root] at failed

/-- Behind a slash, the link is kept by its name, although it leads to the file. -/
theorem canonical_isKey_iff_of_linkedHome :
    linkedHome.canonical ⟨"/home/l/"⟩ = .ok ⟨"/home/l"⟩ ∧
      linkedHome.canonical ⟨"/home/l"⟩ = .ok ⟨"/home/f"⟩ ∧
      linkedHome.IsLinkToEntry ⟨"/home/l"⟩ ∧ ¬linkedHome.IsKey ⟨"/home/l"⟩ ∧
      (⟨"/home/l/"⟩ : Path).EndsIdly := by
  have canonical : linkedHome.canonical ⟨"/home/l/"⟩ = .ok ⟨"/home/l"⟩ := by decide +kernel
  have isLink : linkedHome.IsLinkToEntry ⟨"/home/l"⟩ :=
    ⟨⟨["home", "l"], "f", by decide +kernel⟩, by decide +kernel⟩
  obtain ⟨-, -, -, -, isKey_iff, atEnd⟩ := canonical_isKey_iff wellFormed_linkedHome canonical
  have self_mem : (⟨"/home/l"⟩ : Path) ∈ Path.ancestors ⟨"/home/l"⟩ := by decide +kernel
  refine ⟨canonical, by decide +kernel, isLink, ?_, ?_⟩
  · intro isKey
    exact (isKey_iff.mp isKey).2 _ self_mem isLink
  · have absolute_eq : linkedHome.absolute ⟨"/home/l/"⟩ = ⟨"/home/l/"⟩ := by decide
    rw [absolute_eq] at atEnd
    exact (atEnd withinLimits_linkedHome (by decide +kernel) _ self_mem isLink).2.2

end FileSystem

end Checkout
