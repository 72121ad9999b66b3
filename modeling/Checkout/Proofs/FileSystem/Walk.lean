import Checkout.Proofs.FileSystem.Nodes

/-!
# Walks

A walk that leads to a directory looks at directories and links only, so it does not notice files that
come and go. The walk along a long path is the walk along its front and then, from the directory reached
there, the walk along the rest.
-/

namespace Checkout

/-! ## Steps -/

theorem notMem_of_mem_pieces [DecidableEq α] {mark : α} {items piece : List α}
    (piece_mem : piece ∈ pieces mark items) : mark ∉ piece := by
  induction items generalizing piece with
  | nil =>
      simp only [pieces, List.mem_singleton] at piece_mem
      simp [piece_mem]
  | cons item rest ih =>
      simp only [pieces] at piece_mem
      split at piece_mem
      · rcases List.mem_cons.mp piece_mem with rfl | later
        · simp
        · exact ih later
      · rename_i item_ne
        split at piece_mem
        · rename_i empty
          exact absurd empty (pieces_ne_nil mark rest)
        · rename_i first others shape
          rcases List.mem_cons.mp piece_mem with rfl | later
          · rw [List.mem_cons, not_or]
            exact ⟨fun same => item_ne same.symm, ih (by rw [shape]; exact List.mem_cons_self)⟩
          · exact ih (by rw [shape]; exact List.mem_cons_of_mem _ later)

/-- Steps of a path: they are not empty and have no slash, but may be `.` or `..`. -/
def AreSteps (names : List OsText) : Prop :=
  ∀ name ∈ names, name ≠ "" ∧ OsText.slash ∉ name.bytes

theorem AreSteps.append {front back : List OsText} (first : AreSteps front)
    (second : AreSteps back) : AreSteps (front ++ back) := by
  intro name name_mem
  rcases List.mem_append.mp name_mem with left | right
  · exact first name left
  · exact second name right

theorem AreSteps.tail {step : OsText} {rest : List OsText} (steps : AreSteps (step :: rest)) :
    AreSteps rest :=
  fun name name_mem => steps name (List.mem_cons_of_mem _ name_mem)

theorem AreSteps.properName {step : OsText} {rest : List OsText} (steps : AreSteps (step :: rest))
    (notHere : step ≠ ".") (notUp : step ≠ "..") : ProperName step :=
  ⟨(steps step List.mem_cons_self).1, notHere, notUp, (steps step List.mem_cons_self).2⟩

theorem areSteps_names (path : Path) : AreSteps path.names := by
  intro name name_mem
  obtain ⟨piece, piece_mem, rfl⟩ := List.mem_map.mp name_mem
  obtain ⟨is_piece, nonempty⟩ := List.mem_filter.mp piece_mem
  refine ⟨?_, ?_⟩
  · intro empty
    have none : piece = [] := congrArg OsText.bytes empty
    simp [none] at nonempty
  · exact notMem_of_mem_pieces is_piece

theorem areSteps_steps (text : OsText) : AreSteps (FileSystem.steps text) := by
  have named := areSteps_names ⟨text⟩
  rw [Path.steps_eq ⟨text⟩]
  split
  · refine named.append ?_
    intro name name_mem
    rw [List.mem_singleton.mp name_mem]
    decide
  · exact named

/-- What is said of a spot is true of the file system. -/
def Spot.Sound (files : FileSystem) : Spot → Prop
  | .found location node => files.node? location = some node
  | .vacant directory name =>
      files.node? directory = some .directory ∧ files.node? (directory ++ [name]) = none ∧
        ProperName name

namespace FileSystem

variable {files other : FileSystem} {enter enter' : Location → List OsText → Except IoFailure Spot}
  {followLast : Bool} {directory location : Location} {names : List OsText} {spot : Spot}

/-! ## Where walks end -/

/-- Every directory but the root lies in a directory. -/
theorem WellFormed.dropLast_directory (wellFormed : files.WellFormed)
    (inside : files.node? directory = some .directory) :
    files.node? directory.dropLast = some .directory := by
  by_cases root : directory = []
  · simp [root]
  · exact wellFormed.parent _ (mem_of_node? root inside)

theorem walkSteps_sound (wellFormed : files.WellFormed)
    (enterSound : ∀ directory names spot, files.node? directory = some .directory →
      AreSteps names → enter directory names = .ok spot → Spot.Sound files spot)
    (inside : files.node? directory = some .directory) (steps : AreSteps names)
    (walked : walkSteps files followLast enter directory names = .ok spot) :
    Spot.Sound files spot := by
  induction names generalizing directory with
  | nil =>
      simp only [walkSteps, Except.ok.injEq] at walked
      rw [← walked]
      exact inside
  | cons step rest ih =>
      rw [walkSteps] at walked
      split at walked
      · exact ih inside steps.tail walked
      · rename_i notHere
        split at walked
        · exact ih (wellFormed.dropLast_directory inside) steps.tail walked
        · rename_i notUp
          split at walked
          · simp at walked
          · simp only at walked
            split at walked
            · rename_i vacant
              split at walked
              · rw [Except.ok.injEq] at walked
                rw [← walked]
                exact ⟨inside, vacant, steps.properName notHere notUp⟩
              · simp at walked
            · rename_i deeper
              exact ih deeper steps.tail walked
            · rename_i identity isFile
              split at walked
              · rw [Except.ok.injEq] at walked
                rw [← walked]
                exact isFile
              · simp at walked
            · rename_i target isLink
              split at walked
              · rw [Except.ok.injEq] at walked
                rw [← walked]
                exact isLink
              · split at walked
                · simp at walked
                · refine enterSound _ _ _ ?_ ((areSteps_steps target).append steps.tail) walked
                  simp only [start]
                  split
                  · exact node?_nil files
                  · exact inside

/-- A walk that starts in a directory ends where the file system says it does. -/
theorem walk_sound (wellFormed : files.WellFormed) {links : Nat}
    (inside : files.node? directory = some .directory) (steps : AreSteps names)
    (walked : walk files followLast links directory names = .ok spot) : Spot.Sound files spot := by
  induction links generalizing directory names spot with
  | zero =>
      refine walkSteps_sound wellFormed ?_ inside steps walked
      intro _ _ _ _ _ entered
      simp at entered
  | succ links ih =>
      refine walkSteps_sound wellFormed ?_ inside steps walked
      intro _ _ _ inner innerSteps entered
      exact ih inner innerSteps entered

/-! ## What walks look at -/

/-- The entry at a location unless it is a file. -/
def skeleton? (files : FileSystem) (location : Location) : Option Node :=
  match files.node? location with
  | some (.file _) => none
  | other => other

/-- Two states with the same directories and links. -/
structure SameTree (files other : FileSystem) : Prop where
  current : files.current = other.current
  skeleton : ∀ location, files.skeleton? location = other.skeleton? location

theorem SameTree.refl (files : FileSystem) : SameTree files files :=
  ⟨rfl, fun _ => rfl⟩

theorem SameTree.symm (same : SameTree files other) : SameTree other files :=
  ⟨same.current.symm, fun location => (same.skeleton location).symm⟩

theorem SameTree.trans {third : FileSystem} (first : SameTree files other)
    (second : SameTree other third) : SameTree files third :=
  ⟨first.current.trans second.current, fun location =>
    (first.skeleton location).trans (second.skeleton location)⟩

theorem skeleton?_eq_directory :
    files.skeleton? location = some .directory ↔ files.node? location = some .directory := by
  simp only [skeleton?]
  split
  · rename_i isFile
    simp [isFile]
  · rfl

theorem skeleton?_eq_link {target : OsText} :
    files.skeleton? location = some (.link target) ↔ files.node? location = some (.link target) := by
  simp only [skeleton?]
  split
  · rename_i isFile
    simp [isFile]
  · rfl

theorem SameTree.directory_iff (same : SameTree files other) :
    files.node? location = some .directory ↔ other.node? location = some .directory := by
  rw [← skeleton?_eq_directory, same.skeleton, skeleton?_eq_directory]

theorem SameTree.link_iff (same : SameTree files other) {target : OsText} :
    files.node? location = some (.link target) ↔ other.node? location = some (.link target) := by
  rw [← skeleton?_eq_link, same.skeleton, skeleton?_eq_link]

/-- Where there is neither a directory nor a link, a file may come or go. -/
theorem sameTree_of_leaves (current : files.current = other.current)
    (agree : ∀ location, files.node? location = other.node? location ∨
      files.skeleton? location = none ∧ other.skeleton? location = none) :
    SameTree files other := by
  refine ⟨current, ?_⟩
  intro location
  rcases agree location with same | ⟨here, there⟩
  · simp only [skeleton?, same]
  · rw [here, there]

theorem sameTree_hold (files : FileSystem) (identity : Nat) :
    SameTree files (files.hold identity) :=
  ⟨rfl, fun _ => rfl⟩

theorem sameTree_putFile (bytes : ByteArray) {directory : Location} {name : OsText}
    (vacant : files.node? (directory ++ [name]) = none) :
    SameTree files (files.putFile (directory ++ [name]) bytes) := by
  refine sameTree_of_leaves rfl ?_
  intro location
  rcases eq_or_ne location (directory ++ [name]) with rfl | apart
  · right
    simp [skeleton?, vacant, node?_putFile_self (show directory ++ [name] ≠ [] by simp)]
  · exact Or.inl (node?_putFile_of_ne apart).symm

theorem walkSteps_directory_congr (same : SameTree files other)
    (enterSame : ∀ directory names, enter directory names = .ok (.found location .directory) →
      enter' directory names = .ok (.found location .directory))
    (walked : walkSteps files followLast enter directory names = .ok (.found location .directory)) :
    walkSteps other followLast enter' directory names = .ok (.found location .directory) := by
  induction names generalizing directory with
  | nil => exact walked
  | cons step rest ih =>
      rw [walkSteps] at walked ⊢
      by_cases here : step = "."
      · rw [if_pos here] at walked ⊢
        exact ih walked
      rw [if_neg here] at walked ⊢
      by_cases up : step = ".."
      · rw [if_pos up] at walked ⊢
        exact ih walked
      rw [if_neg up] at walked ⊢
      by_cases long : maxName < step.bytes.length
      · rw [if_pos long] at walked
        simp at walked
      rw [if_neg long] at walked ⊢
      cases entry : files.node? (directory ++ [step]) with
      | none =>
          simp only [entry] at walked
          split at walked <;> simp at walked
      | some node =>
          cases node with
          | directory =>
              simp only [entry] at walked
              simp only [same.directory_iff.mp entry]
              exact ih walked
          | file identity =>
              simp only [entry] at walked
              split at walked <;> simp at walked
          | link target =>
              simp only [entry] at walked
              simp only [same.link_iff.mp entry]
              by_cases last : rest = [] ∧ (!followLast) = true
              · rw [if_pos last] at walked
                simp at walked
              rw [if_neg last] at walked ⊢
              by_cases empty : target = ""
              · rw [if_pos empty] at walked
                simp at walked
              rw [if_neg empty] at walked ⊢
              exact enterSame _ _ walked

/-- A walk that leads to a directory does not notice files that come and go. -/
theorem walk_directory_congr (same : SameTree files other) {links : Nat}
    (walked : walk files followLast links directory names = .ok (.found location .directory)) :
    walk other followLast links directory names = .ok (.found location .directory) := by
  induction links generalizing directory names with
  | zero => exact walkSteps_directory_congr same (fun _ _ entered => by simp at entered) walked
  | succ links ih => exact walkSteps_directory_congr same (fun _ _ entered => ih entered) walked

/-- A walk down a chain of directories ends at its end. -/
theorem walkSteps_directories (chain : ∀ front, front <+: names →
      files.node? (directory ++ front) = some .directory)
    (proper : ∀ name ∈ names, ProperName name)
    (walked : walkSteps files followLast enter directory names = .ok spot) :
    spot = .found (directory ++ names) .directory := by
  induction names generalizing directory with
  | nil => simpa [walkSteps, eq_comm] using walked
  | cons step rest ih =>
      have stepProper := proper step List.mem_cons_self
      have deeper := chain [step] (by simp)
      rw [walkSteps, if_neg stepProper.notHere, if_neg stepProper.notUp] at walked
      split at walked
      · simp at walked
      · simp only [deeper] at walked
        have further := @ih (directory ++ [step]) (by
          intro front isPrefix
          rw [List.append_assoc]
          exact chain (step :: front) (List.cons_prefix_cons.mpr ⟨rfl, isPrefix⟩))
          (fun name name_mem => proper name (List.mem_cons_of_mem _ name_mem)) walked
        rw [further, List.append_assoc]
        rfl

theorem walk_directories {links : Nat} (chain : ∀ front, front <+: names →
      files.node? (directory ++ front) = some .directory)
    (proper : ∀ name ∈ names, ProperName name)
    (walked : walk files followLast links directory names = .ok spot) :
    spot = .found (directory ++ names) .directory := by
  cases links with
  | zero => exact walkSteps_directories chain proper walked
  | succ links => exact walkSteps_directories chain proper walked

/-! ## Walks in two parts -/

theorem walkSteps_append (files : FileSystem)
    (enter : Location → List OsText → Except IoFailure Spot) (directory : Location)
    (front : List OsText) :
    (∃ middle, walkSteps files true enter directory front = .ok (.found middle .directory) ∧
      ∀ back, walkSteps files true enter directory (front ++ back) =
        walkSteps files true enter middle back) ∨
    (∃ inner steps, walkSteps files true enter directory front = enter inner steps ∧
      ∀ back, walkSteps files true enter directory (front ++ back) = enter inner (steps ++ back)) ∨
    (∀ location, walkSteps files true enter directory front ≠ .ok (.found location .directory)) ∧
      ∀ back, back ≠ [] → ∀ spot,
        walkSteps files true enter directory (front ++ back) ≠ .ok spot := by
  induction front generalizing directory with
  | nil => exact Or.inl ⟨directory, rfl, fun _ => rfl⟩
  | cons step rest ih =>
      simp only [walkSteps, List.cons_append]
      by_cases here : step = "."
      · simp only [if_pos here]
        exact ih directory
      simp only [if_neg here]
      by_cases up : step = ".."
      · simp only [if_pos up]
        exact ih directory.dropLast
      simp only [if_neg up]
      by_cases long : maxName < step.bytes.length
      · simp [if_pos long]
      simp only [if_neg long]
      cases entry : files.node? (directory ++ [step]) with
      | none =>
          refine Or.inr (Or.inr ⟨?_, ?_⟩)
          · intro location
            simp only
            split <;> simp
          · intro back nonempty spot
            simp [nonempty]
      | some node =>
          cases node with
          | directory => exact ih (directory ++ [step])
          | file identity =>
              refine Or.inr (Or.inr ⟨?_, ?_⟩)
              · intro location
                simp only
                split <;> simp
              · intro back nonempty spot
                simp [nonempty]
          | link target =>
              by_cases empty : target = ""
              · simp [empty]
              · refine Or.inr (Or.inl ⟨start directory target, steps target ++ rest, ?_, ?_⟩)
                · simp [empty]
                · intro back
                  simp [empty]

/-- The walk along a path whose front leads to a directory goes on from there. -/
theorem walk_append {links : Nat} {front : List OsText} {middle : Location}
    (walked : walk files true links directory front = .ok (.found middle .directory)) :
    ∃ fewer, fewer ≤ links ∧ ∀ back,
      walk files true links directory (front ++ back) = walk files true fewer middle back := by
  induction links generalizing directory front with
  | zero =>
      rcases walkSteps_append files (fun _ _ => .error .tooManyLinks) directory front with
        ⟨inner, reached, rest⟩ | ⟨inner, steps, entered, rest⟩ | ⟨never, -⟩
      · rw [walk, reached, Except.ok.injEq, Spot.found.injEq] at walked
        obtain ⟨rfl, -⟩ := walked
        exact ⟨0, Nat.le_refl 0, rest⟩
      · rw [walk, entered] at walked
        simp at walked
      · exact absurd walked (never middle)
  | succ links ih =>
      rcases walkSteps_append files (walk files true links) directory front with
        ⟨inner, reached, rest⟩ | ⟨inner, steps, entered, rest⟩ | ⟨never, -⟩
      · rw [walk, reached, Except.ok.injEq, Spot.found.injEq] at walked
        obtain ⟨rfl, -⟩ := walked
        exact ⟨links + 1, Nat.le_refl _, rest⟩
      · rw [walk, entered] at walked
        obtain ⟨fewer, fewer_le, further⟩ := ih walked
        refine ⟨fewer, Nat.le_succ_of_le fewer_le, ?_⟩
        intro back
        rw [walk, rest back, further back]
      · exact absurd walked (never middle)

/-- A walk that leads somewhere leads to a directory first, unless it is at its last step. -/
theorem walk_front {links : Nat} {front back : List OsText} (nonempty : back ≠ [])
    (walked : walk files true links directory (front ++ back) = .ok spot) :
    ∃ middle, walk files true links directory front = .ok (.found middle .directory) := by
  induction links generalizing directory front with
  | zero =>
      rcases walkSteps_append files (fun _ _ => .error .tooManyLinks) directory front with
        ⟨inner, reached, rest⟩ | ⟨inner, steps, entered, rest⟩ | ⟨-, never⟩
      · exact ⟨inner, reached⟩
      · rw [walk, rest back] at walked
        simp at walked
      · exact absurd walked (never back nonempty spot)
  | succ links ih =>
      rcases walkSteps_append files (walk files true links) directory front with
        ⟨inner, reached, rest⟩ | ⟨inner, steps, entered, rest⟩ | ⟨-, never⟩
      · exact ⟨inner, reached⟩
      · rw [walk, rest back] at walked
        rw [walk, entered]
        exact ih walked
      · exact absurd walked (never back nonempty spot)

/-! ## Fewer links -/

theorem walkSteps_fewer {enter enter' : Location → List OsText → Except IoFailure Spot}
    (same : ∀ directory names, enter directory names = .error .tooManyLinks ∨
      enter directory names = enter' directory names) (followLast : Bool) (directory : Location)
    (names : List OsText) :
    walkSteps files followLast enter directory names = .error .tooManyLinks ∨
      walkSteps files followLast enter directory names =
        walkSteps files followLast enter' directory names := by
  induction names generalizing directory with
  | nil => exact .inr rfl
  | cons step rest ih =>
      simp only [walkSteps]
      split
      · exact ih directory
      · split
        · exact ih directory.dropLast
        · split
          · exact .inr rfl
          · split
            · exact .inr rfl
            · exact ih _
            · exact .inr rfl
            · split
              · exact .inr rfl
              · split
                · exact .inr rfl
                · exact same _ _

/-- With fewer links to go, a walk ends in the same way or for want of links. -/
theorem walk_fewer (files : FileSystem) {fewer links : Nat} (le : fewer ≤ links) (followLast : Bool)
    (directory : Location) (names : List OsText) :
    walk files followLast fewer directory names = .error .tooManyLinks ∨
      walk files followLast fewer directory names = walk files followLast links directory names := by
  induction fewer generalizing links directory names with
  | zero =>
      cases links with
      | zero => exact .inr rfl
      | succ links => exact walkSteps_fewer (fun _ _ => .inl rfl) followLast directory names
  | succ fewer ih =>
      obtain ⟨links, rfl⟩ := Nat.exists_eq_succ_of_ne_zero (Nat.ne_zero_of_lt le)
      exact walkSteps_fewer (ih (Nat.le_of_succ_le_succ le)) followLast directory names

end FileSystem

end Checkout
