import Checkout.Proofs.FileSystem.Without

/-!
# What a path stands on

A path that leads nowhere stands on the nearest entry above it, as long as only names have to be taken off. Its
canonical form is the path of that entry with the names put back. What is canonical in this way is kept as it is
exactly when no link to an entry is on its way.
-/

namespace Checkout

namespace Location

variable {location : Location}

/-- Above the path of a location are the paths of what the location starts with. -/
theorem mem_ancestors_path {above : Path} (proper : ∀ name ∈ location, ProperName name) :
    above ∈ location.path.ancestors ↔ ∃ front, front <+: location ∧ above = Location.path front := by
  induction location using List.reverseRecOn with
  | nil =>
      rw [Path.ancestors_eq (isAbsolute_path _), parent?_path_nil, List.mem_singleton]
      simp [List.prefix_nil]
  | append_singleton front name ih =>
      rw [Path.ancestors_eq (isAbsolute_path _), parent?_path proper, List.mem_cons,
        ih fun other other_mem => proper other (List.mem_append_left _ other_mem)]
      simp only [List.prefix_concat_iff]
      constructor
      · rintro (rfl | ⟨higher, isPrefix, rfl⟩)
        · exact ⟨_, .inl rfl, rfl⟩
        · exact ⟨higher, .inr isPrefix, rfl⟩
      · rintro ⟨higher, rfl | isPrefix, rfl⟩
        · exact .inl rfl
        · exact .inr ⟨higher, isPrefix, rfl⟩

end Location

namespace Path

variable {path parent : Path}

/-- Behind the root of an absolute path come names and `..` only. -/
theorem mem_tail_components {component : Component} (absolute : path.isAbsolute = true)
    (later : component ∈ path.components.tail) : component = .up ∨ ∃ name, component = .name name := by
  rw [components_of_isAbsolute absolute, List.tail_cons, List.mem_reverse] at later
  obtain ⟨segment, -, component_eq⟩ := List.mem_filterMap.mp later
  rw [component?] at component_eq
  split_ifs at component_eq
  · exact .inl (Option.some.inj component_eq).symm
  · exact .inr ⟨segment, (Option.some.inj component_eq).symm⟩

theorem last_of_parent? {last : Component} (absolute : path.isAbsolute = true)
    (parentAbsolute : parent.isAbsolute = true)
    (components_eq : path.components = parent.components ++ [last]) :
    last = .up ∨ ∃ name, last = .name name := by
  apply mem_tail_components absolute
  rw [components_eq, components_of_isAbsolute parentAbsolute]
  simp

/-- The path above a path is made of the pieces before the last one that is not idle. -/
theorem rebuild_of_parent? (absolute : path.isAbsolute = true) (above : path.parent? = some parent) :
    ∃ last rest, dropIdle true path.body.reverse = last :: rest ∧
      (∀ segment ∈ dropIdle true rest, OsText.slash ∉ segment.bytes) ∧
      parent = rebuild true (dropIdle true rest) := by
  rw [parent?, absolute] at above
  split at above
  · simp at above
  · rename_i last rest shape
    refine ⟨last, rest, shape, ?_, (Option.some.inj above).symm⟩
    intro segment segment_mem
    have kept := (dropIdle_sublist true path.body.reverse).subset
      (shape ▸ List.mem_cons_of_mem _ ((dropIdle_sublist true rest).subset segment_mem))
    exact noSlash_of_mem_body (List.mem_reverse.mp kept)

/-- The path above a path has no idle pieces at its end, so only `/` means the root there. -/
theorem eq_root_of_parent? (absolute : path.isAbsolute = true) (above : path.parent? = some parent)
    (isRoot : parent.components = [.root]) : parent = Location.path [] := by
  obtain ⟨_, rest, -, free, rfl⟩ := rebuild_of_parent? absolute above
  cases busy : dropIdle true rest with
  | nil => rfl
  | cons segment others =>
      obtain ⟨step, step_eq⟩ := component?_of_dropIdle busy
      rw [components_rebuild free, busy, List.filterMap_cons_some step_eq] at isRoot
      simp at isRoot

end Path

namespace FileSystem

variable {files : FileSystem} {path parent real : Path} {location reached : Location}
  {names : List OsText} {node : Node}

/-! ## Chains of directories -/

section Chains

variable {followLast followLast' : Bool} {enter enter' : Location → List OsText → Except IoFailure Spot}
  {directory : Location} {front back : List OsText} {spot : Spot}

theorem walk_eq_walkSteps (files : FileSystem) (followLast : Bool) (links : Nat) :
    ∃ enter, walk files followLast links = walkSteps files followLast enter := by
  cases links with
  | zero => exact ⟨_, rfl⟩
  | succ links => exact ⟨_, rfl⟩

/-- A chain of directories is passed in the same way whatever is done with links. -/
theorem walkSteps_chain (chain : ∀ part, part <+: front →
      files.node? (directory ++ part) = some .directory)
    (proper : ∀ name ∈ front, ProperName name)
    (walked : walkSteps files followLast enter directory (front ++ back) = .ok spot) :
    walkSteps files followLast' enter' directory (front ++ back) =
      walkSteps files followLast' enter' (directory ++ front) back := by
  induction front generalizing directory with
  | nil => simp
  | cons step rest ih =>
      have stepProper := proper step List.mem_cons_self
      have deeper := chain [step] (by simp)
      rw [List.cons_append, walkSteps, if_neg stepProper.notHere, if_neg stepProper.notUp] at walked ⊢
      by_cases long : maxName < step.bytes.length
      · rw [if_pos long] at walked
        simp at walked
      · rw [if_neg long] at walked ⊢
        simp only [deeper] at walked ⊢
        have further := @ih (directory ++ [step]) (by
          intro part isPrefix
          rw [List.append_assoc]
          exact chain (step :: part) (List.cons_prefix_cons.mpr ⟨rfl, isPrefix⟩))
          (fun name name_mem => proper name (List.mem_cons_of_mem _ name_mem)) walked
        rw [further, List.append_assoc]
        rfl

/-- The steps to an entry go down a chain of directories. -/
theorem WellFormed.chain (wellFormed : files.WellFormed) {name : OsText}
    (inside : files.node? (location ++ [name]) = some node) :
    ∀ part, part <+: location → files.node? ([] ++ part) = some .directory := by
  rintro part ⟨rest, rfl⟩
  rw [List.append_assoc] at inside
  exact wellFormed.prefix_directory inside (by simp)

theorem walk_path (files : FileSystem) (proper : ∀ name ∈ location, ProperName name) (nonempty : location ≠ []) :
    files.origin location.path = [] ∧ steps location.path.text = location := by
  refine ⟨?_, Location.steps_path nonempty proper⟩
  simp [origin, FileSystem.start, Location.text_path]

end Chains

/-! ## Links at the end of a path -/

/-- A path names a link, and the link leads to an entry. -/
def IsLinkToEntry (files : FileSystem) (path : Path) : Prop :=
  (∃ location target, files.entry false path = .ok (location, .link target)) ∧
    files.leadsSomewhere path = true

theorem leadsSomewhere_iff :
    files.leadsSomewhere path = true ↔ ∃ location node, files.entry true path = .ok (location, node) := by
  rw [leadsSomewhere]
  rcases files.entry true path with failure | ⟨location, node⟩ <;> simp

theorem realPath_eq_none_iff : files.realPath? path = none ↔ files.leadsSomewhere path = false := by
  rw [realPath?, leadsSomewhere]
  cases files.entry true path <;> simp

/-- Looking at the path of an entry, without following it, finds the entry. -/
theorem WellFormed.node_of_entry_false (wellFormed : files.WellFormed)
    (inside : files.node? location = some node) {other : Node}
    (found : files.entry false location.path = .ok (reached, other)) : other = node := by
  have proper := wellFormed.proper_of_node? inside
  obtain ⟨-, walked⟩ := resolve_eq_ok.mp (entry_eq_ok.mp found)
  rcases List.eq_nil_or_concat location with rfl | ⟨front, name, rfl⟩
  · have steps_eq : steps (Location.path []).text = [("." : OsText)] := by decide
    have here (origin : Location) : walk files false maxLinks origin ["."] =
        .ok (.found origin .directory) := by
      simp [maxLinks, walk, walkSteps]
    rw [steps_eq, here, Except.ok.injEq, Spot.found.injEq] at walked
    rw [node?_nil, Option.some.injEq] at inside
    rw [← walked.2, inside]
  · rw [List.concat_eq_append] at *
    have front_proper : ∀ other ∈ front, ProperName other :=
      fun other other_mem => proper other (List.mem_append_left _ other_mem)
    obtain ⟨origin_eq, steps_eq⟩ := walk_path files proper (by simp)
    obtain ⟨enter, walk_eq⟩ := walk_eq_walkSteps files false maxLinks
    rw [origin_eq, steps_eq, walk_eq] at walked
    rw [walkSteps_chain (wellFormed.chain inside) front_proper walked, List.nil_append, walkSteps,
      if_neg (proper name (by simp)).notHere, if_neg (proper name (by simp)).notUp] at walked
    split at walked
    · simp at walked
    · simp only [inside] at walked
      cases node with
      | directory => simpa [walkSteps, eq_comm] using (Spot.found.inj (Except.ok.inj walked)).2
      | file identity => simpa [eq_comm] using (Spot.found.inj (Except.ok.inj walked)).2
      | link target => simpa [eq_comm] using (Spot.found.inj (Except.ok.inj walked)).2

/-- What a link is at, the path of the link names without following it. -/
theorem WellFormed.isLinkToEntry (wellFormed : files.WellFormed) {target : OsText}
    (inside : files.node? location = some (.link target))
    (found : files.entry true location.path = .ok (reached, node)) :
    files.IsLinkToEntry location.path := by
  refine ⟨⟨location, target, ?_⟩, leadsSomewhere_iff.mpr ⟨_, _, found⟩⟩
  have proper := wellFormed.proper_of_node? inside
  rcases List.eq_nil_or_concat location with rfl | ⟨front, name, rfl⟩
  · simp at inside
  · rw [List.concat_eq_append] at *
    have front_proper : ∀ other ∈ front, ProperName other :=
      fun other other_mem => proper other (List.mem_append_left _ other_mem)
    obtain ⟨usable, walked⟩ := resolve_eq_ok.mp (entry_eq_ok.mp found)
    refine entry_eq_ok.mpr (resolve_eq_ok.mpr ⟨usable, ?_⟩)
    obtain ⟨origin_eq, steps_eq⟩ := walk_path files proper (by simp)
    obtain ⟨enter, walk_eq⟩ := walk_eq_walkSteps files true maxLinks
    obtain ⟨enter', walk_eq'⟩ := walk_eq_walkSteps files false maxLinks
    rw [origin_eq, steps_eq, walk_eq] at walked
    rw [origin_eq, steps_eq, walk_eq', walkSteps_chain (wellFormed.chain inside) front_proper walked]
    rw [walkSteps_chain (wellFormed.chain inside) front_proper walked] at walked
    have nameProper := proper name (by simp)
    rw [walkSteps, if_neg nameProper.notHere, if_neg nameProper.notUp] at walked ⊢
    split at walked
    · simp at walked
    · rename_i short
      rw [if_neg short]
      simp [inside]

/-- On the way to an entry that a path leads to without a detour, there is no link to an entry. -/
theorem WellFormed.not_isLinkToEntry (wellFormed : files.WellFormed)
    (inside : files.node? location = some node) (notLink : ∀ target, node ≠ .link target)
    {front : Location} (isPrefix : front <+: location) : ¬files.IsLinkToEntry front.path := by
  rintro ⟨⟨reached, target, found⟩, -⟩
  obtain ⟨back, rfl⟩ := isPrefix
  rcases eq_or_ne back [] with rfl | below
  · rw [List.append_nil] at inside
    exact notLink target (wellFormed.node_of_entry_false inside found).symm
  · have above := wellFormed.prefix_directory inside below
    cases wellFormed.node_of_entry_false above found

/-- No link to an entry is on the way to what a path leads to. -/
theorem WellFormed.notLink_above_entry (wellFormed : files.WellFormed) {front : Location}
    (found : files.entry true path = .ok (location, node)) (isPrefix : front <+: location) :
    ¬files.IsLinkToEntry front.path :=
  wellFormed.not_isLinkToEntry (resolve_sound wellFormed (entry_eq_ok.mp found))
    (fun _ isLink => entry_notLink (isLink ▸ found)) isPrefix

theorem entry_prefix {back : List OsText} (proper : ∀ name ∈ location ++ back, ProperName name)
    (found : files.entry true (Location.path (location ++ back)) = .ok (reached, node)) :
    ∃ front node, files.entry true location.path = .ok (front, node) ∧
      (back ≠ [] → node = .directory) := by
  rcases List.eq_nil_or_concat back with rfl | ⟨middle, name, rfl⟩
  · rw [List.append_nil] at found
    exact ⟨_, _, found, fun nonempty => absurd rfl nonempty⟩
  · rw [List.concat_eq_append, ← List.append_assoc] at proper found
    rw [← Location.join_path proper] at found
    obtain ⟨inner, _, inner_found, -⟩ := walk_of_resolve_join (Location.isAbsolute_path _)
      (proper name (by simp)) (entry_eq_ok.mp found)
    obtain ⟨front, front_found⟩ :=
      entry_front (fun other other_mem => proper other (List.mem_append_left _ other_mem)) inner_found
    exact ⟨front, _, front_found, fun _ => rfl⟩

/-- Without a link to an entry on the way, the path of a location leads to the location, if anywhere. -/
theorem WellFormed.location_of_entry (wellFormed : files.WellFormed)
    (proper : ∀ name ∈ location, ProperName name)
    (noLinks : ∀ front, front <+: location → ¬files.IsLinkToEntry (Location.path front))
    (found : files.entry true location.path = .ok (reached, node)) : reached = location := by
  induction location using List.reverseRecOn generalizing reached node with
  | nil =>
      rw [entry_root, Except.ok.injEq, Prod.mk.injEq] at found
      exact found.1.symm
  | append_singleton front name ih =>
      have front_proper : ∀ other ∈ front, ProperName other :=
        fun other other_mem => proper other (List.mem_append_left _ other_mem)
      obtain ⟨middle, inner, middle_found, isDirectory⟩ := entry_prefix proper found
      obtain rfl := isDirectory (by simp)
      obtain rfl := ih front_proper
        (fun part isPrefix => noLinks part (isPrefix.trans (List.prefix_append _ _))) middle_found
      have resolved := entry_eq_ok.mp found
      rw [← Location.join_path proper] at resolved
      refine location_of_resolve_join middle.isAbsolute_path (proper name (by simp)) middle_found ?_ resolved
      intro target isLink
      exact noLinks _ (List.prefix_refl _) (wellFormed.isLinkToEntry isLink found)

/-! ## Standing on an entry -/

/-- Going up from a path, past paths that lead nowhere, the first one that leads to an entry leads to
`location`; `names` have been taken off on the way. -/
inductive StandsOn (files : FileSystem) : Path → Location → List OsText → Prop where
  | here {path : Path} {location : Location} {node : Node}
      (found : files.entry true path = .ok (location, node)) : StandsOn files path location []
  | above {path parent : Path} {location : Location} {names : List OsText} {name : OsText}
      (nowhere : files.realPath? path = none) (parent_eq : path.parent? = some parent)
      (named : path.name? = some name) (stands : StandsOn files parent location names) :
      StandsOn files path location (names ++ [name])

theorem StandsOn.proper (wellFormed : files.WellFormed) (stands : StandsOn files path location names) :
    ∀ name ∈ location ++ names, ProperName name := by
  induction stands with
  | here found =>
      rw [List.append_nil]
      exact wellFormed.proper_of_node? (resolve_sound wellFormed (entry_eq_ok.mp found))
  | above _ _ named _ ih =>
      intro other other_mem
      rw [← List.append_assoc, List.mem_append, List.mem_singleton] at other_mem
      rcases other_mem with higher | rfl
      · exact ih other higher
      · exact Path.properName_of_name? named

theorem StandsOn.exists_entry (stands : StandsOn files path location names) :
    ∃ above node, files.entry true above = .ok (location, node) := by
  induction stands with
  | here found => exact ⟨_, _, found⟩
  | above _ _ _ _ ih => exact ih

/-- A path that stands on an entry has its path, with the names taken off, as canonical form. -/
theorem StandsOn.canonicalFrom_eq (wellFormed : files.WellFormed)
    (stands : StandsOn files path location names) (absolute : path.isAbsolute = true) {fallback : Path}
    {bound : Nat} {missing : List OsText} (enough : path.height < bound)
    (proper : ∀ name ∈ missing, ProperName name) :
    canonicalFrom files fallback bound path missing = Location.path (location ++ names ++ missing) := by
  induction stands generalizing bound missing with
  | here found =>
      obtain ⟨bound, rfl⟩ := Nat.exists_eq_succ_of_ne_zero (Nat.ne_zero_of_lt enough)
      have inside := resolve_sound wellFormed (entry_eq_ok.mp found)
      rw [canonicalFrom, realPath_of_entry found, List.append_nil]
      refine Location.foldl_join_path ?_
      intro other other_mem
      rcases List.mem_append.mp other_mem with higher | lower
      · exact wellFormed.proper_of_node? inside other higher
      · exact proper other lower
  | @above path parent location names name nowhere parent_eq named stands ih =>
      obtain ⟨bound, rfl⟩ := Nat.exists_eq_succ_of_ne_zero (Nat.ne_zero_of_lt enough)
      have lower := Path.height_parent? absolute parent_eq
      rw [canonicalFrom, nowhere]
      simp only [parent_eq, named]
      rw [ih (Path.isAbsolute_parent? absolute parent_eq) (by omega)
        (List.forall_mem_cons.mpr ⟨Path.properName_of_name? named, proper⟩)]
      simp

/-- A path that stands on nothing is left as it is. -/
theorem canonicalFrom_of_not_standsOn
    (baseless : ∀ location names, ¬StandsOn files path location names) (fallback : Path) (bound : Nat)
    (missing : List OsText) : canonicalFrom files fallback bound path missing = fallback := by
  induction bound generalizing path missing with
  | zero => rfl
  | succ bound ih =>
      rw [canonicalFrom]
      cases real_eq : files.realPath? path with
      | some real =>
          obtain ⟨location, node, found, -⟩ := exists_entry_of_realPath real_eq
          exact absurd (.here found) (baseless location [])
      | none =>
          cases parent_eq : path.parent? with
          | none => rfl
          | some parent =>
              cases named : path.name? with
              | none => rfl
              | some name =>
                  exact ih (fun location names stands =>
                    baseless location _ (.above real_eq parent_eq named stands)) _

/-- Going up by names ends at an entry or at a `..` that leads nowhere, unless there is nothing but the
root. -/
theorem exists_standsOn_or (files : FileSystem) (absolute : path.isAbsolute = true) :
    (∃ location names, StandsOn files path location names) ∨
      (∃ above ∈ path.ancestors, files.leadsSomewhere above = false ∧
        above.components.getLast? = some .up) ∨
      path.components = [.root] := by
  induction path, absolute using Path.ancestors_induction with
  | root path absolute none => exact .inr (.inr (Path.components_of_parent?_eq_none absolute none))
  | child path parent absolute parentAbsolute parent_eq ih =>
      obtain ⟨last, components_eq⟩ := Path.components_parent? absolute parent_eq
      have ancestors_eq : path.ancestors = path :: parent.ancestors := by
        rw [Path.ancestors_eq absolute, parent_eq]
      rw [ancestors_eq]
      cases real_eq : files.realPath? path with
      | some real =>
          obtain ⟨location, node, found, -⟩ := exists_entry_of_realPath real_eq
          exact .inl ⟨location, [], .here found⟩
      | none =>
          rcases Path.last_of_parent? absolute parentAbsolute components_eq with rfl | ⟨name, rfl⟩
          · refine .inr (.inl ⟨path, List.mem_cons_self, realPath_eq_none_iff.mp real_eq, ?_⟩)
            rw [components_eq, List.getLast?_concat]
          · have named : path.name? = some name := by
              rw [Path.name?, components_eq, List.getLast?_concat]
            rcases ih with ⟨location, names, stands⟩ | ⟨above, above_mem, isUp⟩ | isRoot
            · exact .inl ⟨location, _, .above real_eq parent_eq named stands⟩
            · exact .inr (.inl ⟨above, List.mem_cons_of_mem _ above_mem, isUp⟩)
            · obtain rfl := Path.eq_root_of_parent? absolute parent_eq isRoot
              exact .inl ⟨[], _, .above real_eq parent_eq named (.here (entry_root files))⟩

end FileSystem

end Checkout
