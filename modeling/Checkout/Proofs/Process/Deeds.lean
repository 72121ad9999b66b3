import Checkout.Proofs.Lock.Requests
import Checkout.Proofs.Process.Closing
import Checkout.Proofs.WorkingCopy.Anchors

/-!
# What operations open and close

An operation that opens locks enters the locks of the trees it asks for, or nothing. An operation that closes
locks gives back what is open at and below one directory.
-/

namespace Checkout

variable {σ : Type}

/-! ## What operations ask for -/

namespace Creation

/-- The trees that the operation asks for. -/
def requests (files : FileSystem) : Creation σ → List TreeRequest
  | openAt _ write depth path => TreeRequest.ofPath files write depth path
  | probeOpen _ write depth path =>
      match Hierarchy.probeTarget files depth path with
      | some (depth, directory) => TreeRequest.ofPath files write depth directory
      | none => []
  | openAnchor _ write depth path =>
      match files.anchor path with
      | .ok (anchor, none) => TreeRequest.ofPath files write depth anchor
      | .ok (anchor, some target) =>
          TreeRequest.ofPath files write .empty anchor ++
            TreeRequest.ofPath files write depth (anchor.join target)
      | .error _ => []
  | lockDirectory _ _ => []

end Creation

namespace Operation

/-- The trees that the operation asks for. -/
def requests (files : FileSystem) : Operation σ → List TreeRequest
  | openChild _ write depth path => TreeRequest.ofPath files write depth path
  | probeTry _ write depth path =>
      match Hierarchy.childTarget files depth path with
      | some (depth, directory) => TreeRequest.ofPath files write depth directory
      | none => []
  | closeLock _ => []
  | close => []

end Operation

variable {cancel : Option (Cancellation σ)} {write : Bool} {depth : Depth} {path : Path}
  {world after : World σ} {hierarchy : Hierarchy}

theorem sameTree_openAt (wellFormed : world.files.WellFormed)
    (opened : Hierarchy.openAt cancel write depth path world = .ok hierarchy after) :
    FileSystem.SameTree world.files after.files := by
  obtain ⟨root, locks, -, ran, rfl⟩ := Hierarchy.openAt_ok opened
  exact Descent.sameTree_lockTree wellFormed ran

theorem Entered.mono {requests others : List TreeRequest} {before after : List (List Component)}
    {locks : List AreaLock} (entered : Entered requests before after locks)
    (more : requests ⊆ others) : Entered others before after locks := by
  refine ⟨entered.claims_iff, entered.fresh, entered.distinct, entered.sound, entered.allOpen, ?_⟩
  intro lock lock_mem
  obtain ⟨request, request_mem, grants⟩ := entered.granted lock lock_mem
  exact ⟨request, more request_mem, grants⟩

theorem Founded.mono {requests others : List TreeRequest} {before after : List (List Component)}
    {locks : List AreaLock} (founded : Founded requests before after hierarchy locks)
    (more : requests ⊆ others) : Founded others before after hierarchy locks :=
  ⟨founded.entered.mono more, founded.hierarchy_eq, founded.top⟩

/-- What opening a child does to the claims and to the record. -/
inductive OpensInto (requests : List TreeRequest) (world : World σ) (hierarchy : Hierarchy) :
    World σ × Hierarchy → Prop where
  | nothing {after : World σ} (claims_eq : after.claims = world.claims) :
      OpensInto requests world hierarchy (after, hierarchy)
  | entered {after : World σ} {locks : List AreaLock} (rootOpen : hierarchy.isRootOpen = true)
      (entered : Entered requests world.claims after.claims locks) :
      OpensInto requests world hierarchy (after, hierarchy.insertAll locks)

theorem opensInto_openChild (cancel : Option (Cancellation σ)) (write : Bool) (depth : Depth)
    (path : Path) (wellFormed : world.files.WellFormed) (hierarchy : Hierarchy) :
    OpensInto (TreeRequest.ofPath world.files write depth path) world hierarchy
      (stateAfter (Hierarchy.openChild cancel write depth path) (world, hierarchy)) := by
  rcases Hierarchy.stateAfter_openChild cancel write depth path world hierarchy with
    ⟨unchanged, -⟩ | ⟨real, error, failed, -, -, ran, same⟩ |
      ⟨real, locks, last, canonical, accepts, ran, same⟩
  · rw [unchanged]
    exact .nothing rfl
  · rw [same]
    exact .nothing (Descent.claims_lockTree_error ran)
  · rw [same, TreeRequest.ofPath_eq write depth canonical]
    exact .entered accepts.rootOpen
      (entered_lockTree wellFormed (FileSystem.isAbsolute_canonical canonical) ran)

/-- The target of an anchor is an absolute path. -/
theorem isAbsolute_target {files : FileSystem} {anchor : Path} {target : String}
    (found : files.anchor path = .ok (anchor, some target)) :
    (anchor.join target).isAbsolute = true := by
  obtain ⟨real, canonical⟩ := FileSystem.canonical_of_anchor found
  have above := (FileSystem.anchor_some canonical found).1
  exact Path.isAbsolute_join_of_isAbsolute target
    (Path.isAbsolute_parent? (FileSystem.isAbsolute_canonical canonical) above)

theorem founded_openAnchor {anchored : Anchored} (wellFormed : world.files.WellFormed)
    (opened : Anchored.openAnchor cancel write depth path world = .ok anchored after) :
    ∃ locks, Founded ((Creation.openAnchor cancel write depth path).requests world.files) world.claims
      after.claims anchored.hierarchy locks := by
  rcases Anchored.openAnchor_ok opened with
    ⟨anchor, found, ran⟩ | ⟨anchor, target, hierarchy, middle, found, ran, child⟩
  · simp only [Creation.requests, found]
    exact founded_openAt wellFormed ran
  · simp only [Creation.requests, found]
    obtain ⟨locks, founded⟩ := founded_openAt wellFormed ran
    have alone := founded.mono
      (List.subset_append_left _ (TreeRequest.ofPath world.files write depth (anchor.join target)))
    rcases child with ⟨versioned, child⟩ | ⟨rfl, same⟩
    · have opens := opensInto_openChild cancel write depth (anchor.join target)
        (Hierarchy.keepsFiles_openAt.ok wellFormed ran) hierarchy
      rw [child] at opens
      -- the target is where it was before the anchor was locked
      have canonical_eq := FileSystem.canonical_congr (isAbsolute_target found) versioned
        (sameTree_openAt wellFormed ran).symm
      rw [TreeRequest.ofPath, ← canonical_eq, ← TreeRequest.ofPath] at opens
      generalize anchored.hierarchy = last at opens
      cases opens with
      | nothing claims_eq =>
          rw [← claims_eq] at alone
          exact ⟨locks, alone⟩
      | @entered _ more rootOpen entered =>
          obtain ⟨lock, lock_mem, lock_eq⟩ := founded.top
          refine ⟨locks ++ more, founded.entered.append entered, ?_, lock,
            List.mem_append_left _ lock_mem, ?_⟩
          · rw [Hierarchy.root_insertAll, Hierarchy.insertAll, Hierarchy.insertAll, List.foldl_append]
            congr 1
            exact founded.hierarchy_eq
          · rw [Hierarchy.root_insertAll]
            exact lock_eq
    · rw [same]
      exact ⟨locks, alone⟩

theorem Creation.founded {creation : Creation σ} {holder : Holder} (wellFormed : world.files.WellFormed)
    (ran : creation.run world = .ok holder after) (inside : holder.hierarchy? = some hierarchy) :
    ∃ locks, Founded (creation.requests world.files) world.claims after.claims hierarchy locks := by
  cases creation with
  | openAt cancel write depth path =>
      obtain ⟨made, opened, rfl⟩ := Action.map_eq_ok.mp ran
      obtain rfl := Option.some.inj inside
      exact founded_openAt wellFormed opened
  | probeOpen cancel write depth path =>
      obtain ⟨made, opened, rfl⟩ := Action.map_eq_ok.mp ran
      obtain rfl := Option.some.inj inside
      rcases Hierarchy.probeOpen_apply cancel write depth path world with
        ⟨-, error, refused⟩ | ⟨depth', directory, target, same⟩
      · rw [refused] at opened
        simp at opened
      · rw [same] at opened
        simp only [requests, target]
        exact founded_openAt wellFormed opened
  | openAnchor cancel write depth path =>
      obtain ⟨made, opened, rfl⟩ := Action.map_eq_ok.mp ran
      obtain rfl := Option.some.inj inside
      exact founded_openAnchor wellFormed opened
  | lockDirectory directory write =>
      obtain ⟨made, acquired, rfl⟩ := Action.map_eq_ok.mp ran
      simp [Holder.hierarchy?] at inside

/-- What an operation does to the claims and to the record. -/
inductive Operation.Effect (requests : List TreeRequest) (world : World σ) (hierarchy : Hierarchy) :
    World σ × Hierarchy → Prop where
  | opens {state : World σ × Hierarchy} (opens : OpensInto requests world hierarchy state) :
      Effect requests world hierarchy state
  | closes (directory : Path) :
      Effect requests world hierarchy
        (AreaLock.giveBack (hierarchy.openUnder directory).reverse world,
          hierarchy.closedUnder directory)

theorem Operation.effect_closeLock (requests : List TreeRequest) (path : Path) (world : World σ)
    (hierarchy : Hierarchy) :
    Effect requests world hierarchy (stateAfter (Hierarchy.closeLock path) (world, hierarchy)) := by
  rw [Hierarchy.stateAfter_closeLock]
  split
  · exact .opens (.nothing rfl)
  · split
    · exact .closes _
    · exact .opens (.nothing rfl)

theorem Operation.effect (operation : Operation σ) (wellFormed : world.files.WellFormed)
    (hierarchy : Hierarchy) :
    Effect (operation.requests world.files) world hierarchy
      (stateAfter operation.run (world, hierarchy)) := by
  cases operation with
  | openChild cancel write depth path =>
      rw [run, stateAfter_discard]
      exact .opens (opensInto_openChild cancel write depth path wellFormed hierarchy)
  | probeTry cancel write depth path =>
      rw [run, stateAfter_discard]
      rcases Hierarchy.probeTry_apply cancel write depth path world hierarchy with
        ⟨unchanged, -⟩ | ⟨depth', directory, target, -, same⟩
      · rw [unchanged]
        exact .opens (.nothing rfl)
      · rw [stateAfter, same, ← stateAfter]
        simp only [requests, target]
        exact .opens (opensInto_openChild cancel write depth' directory wellFormed hierarchy)
  | closeLock path => exact effect_closeLock _ path world hierarchy
  | close =>
      rw [run, Hierarchy.stateAfter_close]
      exact effect_closeLock _ hierarchy.root world hierarchy

end Checkout
