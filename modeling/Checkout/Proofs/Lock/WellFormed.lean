import Checkout.Proofs.FileSystem.LockFile
import Checkout.Proofs.Lock.Hierarchy
import Checkout.Proofs.Preserves
import Checkout.WorkingCopy.Cleanup

/-!
# Operations keep the file system well-formed

Operations change the files only by opening, locking and removing lock files, each of which keeps the
file system well-formed. So every operation does, and so does every run in which what others do to the
files leaves them well-formed.
-/

namespace Checkout

variable {σ : Type} {α : Type}

/-- The action keeps the files well-formed. -/
def KeepsFiles (action : Action σ α) : Prop :=
  Preserves (fun world : World σ => world.files.WellFormed) action

/-- The operation on a hierarchy keeps the files well-formed. -/
def KeepsFilesWith (action : HierarchyAction σ α) : Prop :=
  Preserves (fun state : World σ × Hierarchy => state.1.files.WellFormed) action

theorem KeepsFiles.ok {action : Action σ α} (kept : KeepsFiles action) {world after : World σ}
    {value : α} (wellFormed : world.files.WellFormed) (ran : action world = .ok value after) :
    after.files.WellFormed := by
  have holds := kept world wellFormed
  rw [stateAfter_of_ok ran] at holds
  exact holds

theorem KeepsFiles.error {action : Action σ α} (kept : KeepsFiles action) {world after : World σ}
    {error : Error} (wellFormed : world.files.WellFormed)
    (ran : action world = .error error after) : after.files.WellFormed := by
  have holds := kept world wellFormed
  rw [stateAfter_of_error ran] at holds
  exact holds

variable {cancel : Option (Cancellation σ)} {write : Bool} {depth : Depth} {path : Path}

namespace DirectoryLock

theorem keepsFiles_claim (directory : Path) :
    KeepsFiles (σ := σ) (modify fun world => world.claim directory) :=
  fun _ holds => holds

theorem keepsFiles_unclaim (directory : Path) :
    KeepsFiles (σ := σ) (modify fun world => world.unclaim directory) :=
  fun _ holds => holds

theorem keepsFiles_tryAcquire (path : Path) :
    KeepsFiles (σ := σ) (Action.ofFiles (FileLock.tryAcquire path)) :=
  Action.preserves_ofFiles FileSystem.WellFormed
    fun _ holds => FileLock.wellFormed_tryAcquire holds path

theorem keepsFiles_acquire (directory : Path) :
    KeepsFiles (σ := σ) (acquire directory write) := by
  unfold acquire
  refine Preserves.get.bind fun world => Preserves.guard ?_
  refine (keepsFiles_claim directory).bind ?_
  intro claimed
  refine Preserves.ite ?_ (Preserves.pure _)
  unfold acquireFile
  refine (Action.preserves_outcome (keepsFiles_tryAcquire _)).bind ?_
  intro tried
  rcases tried with error | file?
  · exact (keepsFiles_unclaim directory).bind fun _ => Preserves.throw error
  · cases file? with
    | none => exact (keepsFiles_unclaim directory).bind fun _ => Preserves.throw _
    | some file => exact Preserves.pure _

theorem keepsFiles_release (lock : DirectoryLock) : KeepsFiles (σ := σ) lock.release := by
  intro world holds
  rw [stateAfter_release]
  cases lock.file with
  | none => exact holds
  | some file => exact FileLock.wellFormed_remove holds file

end DirectoryLock

namespace AreaLock

theorem keepsFiles_poll : KeepsFiles (poll cancel) := by
  cases cancel with
  | none => exact Preserves.pure ()
  | some ask =>
      refine (Action.preserves_ofCaller FileSystem.WellFormed ask).bind ?_
      intro stop
      exact Preserves.ite (Preserves.throw _) (Preserves.pure ())

theorem keepsFiles_acquire : KeepsFiles (σ := σ) (acquire path write depth) := by
  unfold acquire
  refine Preserves.get.bind fun world => Preserves.guard ?_
  exact (DirectoryLock.keepsFiles_acquire path).bind fun _ => Preserves.pure _

theorem keepsFiles_release (lock : AreaLock) : KeepsFiles (σ := σ) lock.release := by
  rw [release]
  split
  · exact DirectoryLock.keepsFiles_release _
  · exact Preserves.throw _

theorem keepsFiles_releaseAll (locks : List AreaLock) : KeepsFiles (σ := σ) (releaseAll locks) := by
  induction locks with
  | nil => exact Preserves.pure none
  | cons lock rest ih =>
      refine (Action.preserves_outcome (keepsFiles_release lock)).bind ?_
      intro released
      cases released with
      | ok _ => exact ih
      | error error => exact ih.bind fun _ => Preserves.pure _

theorem keepsFiles_orGiveBack {action : Action σ α} (kept : KeepsFiles action)
    (locks : List AreaLock) : KeepsFiles (orGiveBack locks action) := by
  refine (Action.preserves_outcome kept).bind ?_
  intro outcome
  cases outcome with
  | ok value => exact Preserves.pure value
  | error error => exact (keepsFiles_releaseAll _).bind fun _ => Preserves.throw error

theorem keepsFiles_lockEach {lockOne : Path → Action σ (List AreaLock)}
    (kept : ∀ directory, KeepsFiles (lockOne directory)) (directories : List Path) :
    KeepsFiles (lockEach lockOne directories) := by
  induction directories with
  | nil => exact Preserves.pure []
  | cons directory rest ih =>
      refine (kept directory).bind ?_
      intro first
      exact (keepsFiles_orGiveBack ih first).bind fun _ => Preserves.pure _

theorem keepsFiles_lockLevels (levels : Nat) (depth : Depth) (directory : Path) :
    KeepsFiles (lockLevels cancel write levels depth directory) := by
  induction levels generalizing depth directory with
  | zero => exact Preserves.pure []
  | succ levels ih =>
      refine keepsFiles_poll.bind fun _ => keepsFiles_acquire.bind ?_
      intro lock
      cases depth.child? with
      | none => exact Preserves.pure [lock]
      | some childDepth =>
          refine (keepsFiles_orGiveBack ?_ [lock]).bind fun _ => Preserves.pure _
          exact (Action.preserves_ofLook _).bind fun children =>
            keepsFiles_lockEach (ih childDepth) children

theorem keepsFiles_lockTree : KeepsFiles (lockTree cancel write depth path) :=
  Preserves.get.bind fun _ => keepsFiles_lockLevels _ _ _

end AreaLock

namespace Hierarchy

theorem keepsFiles_openAt : KeepsFiles (openAt cancel write depth path) :=
  (Action.preserves_ofLook _).bind fun _ =>
    AreaLock.keepsFiles_lockTree.bind fun _ => Preserves.pure _

theorem keepsFiles_probeOpen : KeepsFiles (probeOpen cancel write depth path) := by
  intro world holds
  rcases probeOpen_apply cancel write depth path world with ⟨-, error, failed⟩ | ⟨depth', other, -, same⟩
  · rw [stateAfter_of_error failed]
    exact holds
  · rw [stateAfter, same]
    exact keepsFiles_openAt world holds

theorem keepsFiles_drop (hierarchy : Hierarchy) : KeepsFiles (σ := σ) hierarchy.drop :=
  (AreaLock.keepsFiles_releaseAll _).discard

theorem keepsFiles_openChild : KeepsFilesWith (openChild cancel write depth path) := by
  rintro ⟨world, hierarchy⟩ holds
  have locked (real : Path) :
      (stateAfter (AreaLock.lockTree cancel write depth real) world).files.WellFormed :=
    AreaLock.keepsFiles_lockTree world holds
  rcases stateAfter_openChild cancel write depth path world hierarchy with
    ⟨unchanged, -⟩ | ⟨real, error, after, -, -, ran, same⟩ | ⟨real, locks, after, -, -, ran, same⟩
  · rw [unchanged]
    exact holds
  · rw [same, ← stateAfter_of_error ran]
    exact locked real
  · rw [same, ← stateAfter_of_ok ran]
    exact locked real

theorem keepsFiles_probeTry : KeepsFilesWith (probeTry cancel write depth path) := by
  rintro ⟨world, hierarchy⟩ holds
  rcases probeTry_apply cancel write depth path world hierarchy with
    ⟨unchanged, -⟩ | ⟨depth', directory, -, -, same⟩
  · rw [unchanged]
    exact holds
  · rw [stateAfter, same]
    exact keepsFiles_openChild (world, hierarchy) holds

theorem wellFormed_giveBack (locks : List AreaLock) {world : World σ}
    (holds : world.files.WellFormed) : (AreaLock.giveBack locks world).files.WellFormed := by
  rw [← AreaLock.stateAfter_releaseAll]
  exact AreaLock.keepsFiles_releaseAll locks world holds

theorem keepsFiles_closeLock (path : Path) : KeepsFilesWith (σ := σ) (closeLock path) := by
  rintro ⟨world, hierarchy⟩ holds
  rw [stateAfter_closeLock]
  split
  · exact holds
  · split
    · exact wellFormed_giveBack _ holds
    · exact holds

theorem keepsFiles_close : KeepsFilesWith (σ := σ) close := by
  rintro ⟨world, hierarchy⟩ holds
  rw [stateAfter_close]
  exact keepsFiles_closeLock hierarchy.root (world, hierarchy) holds

end Hierarchy

namespace Anchored

theorem keepsFiles_openTarget (anchor : Path) (target : String) (hierarchy : Hierarchy) :
    KeepsFiles (openTarget cancel write depth anchor target hierarchy) := by
  intro world holds
  have opened : (stateAfter (Hierarchy.openChild cancel write depth (anchor.join target))
      (world, hierarchy)).1.files.WellFormed :=
    Hierarchy.keepsFiles_openChild (world, hierarchy) holds
  cases child : Hierarchy.openChild cancel write depth (anchor.join target) (world, hierarchy) with
  | ok lock state =>
      rw [stateAfter_of_ok child] at opened
      rw [stateAfter_of_ok (openTarget_ok child)]
      exact opened
  | error error state =>
      rw [stateAfter_of_error child] at opened
      rw [stateAfter_of_error (openTarget_error child)]
      exact Hierarchy.keepsFiles_drop _ _ (Hierarchy.keepsFiles_close state opened)

theorem keepsFiles_openAnchor : KeepsFiles (openAnchor cancel write depth path) := by
  refine (Action.preserves_ofLook _).bind ?_
  rintro ⟨anchor, target⟩
  cases target with
  | none => exact Hierarchy.keepsFiles_openAt.bind fun _ => Preserves.pure _
  | some target =>
      refine Hierarchy.keepsFiles_openAt.bind fun hierarchy => Preserves.get.bind fun world => ?_
      exact Preserves.ite (keepsFiles_openTarget anchor target hierarchy) (Preserves.pure _)

end Anchored

namespace Cleanup

theorem keepsFiles_cleanDirectory (directory : Path) :
    KeepsFiles (σ := σ) (cleanDirectory directory) := by
  refine Preserves.get.bind fun world => ?_
  exact Preserves.ite
    (Action.preserves_ofFiles FileSystem.WellFormed
      fun _ holds => FileLock.wellFormed_removeStale holds _)
    (Preserves.pure false)

theorem keepsFiles_cleanPending (bound : Nat) (pending : List Path) :
    KeepsFiles (σ := σ) (cleanPending bound pending) := by
  induction bound generalizing pending with
  | zero => exact Preserves.pure []
  | succ bound ih =>
      cases pending with
      | nil => exact Preserves.pure []
      | cons directory pending =>
          refine (keepsFiles_cleanDirectory directory).bind fun stale => ?_
          refine (Action.preserves_ofLook _).bind fun children => ?_
          exact (ih (children ++ pending)).bind fun others => Preserves.pure _

theorem keepsFiles_clean (path : Path) : KeepsFiles (σ := σ) (clean path) := by
  unfold clean
  refine Preserves.get.bind fun world => ?_
  refine (Action.preserves_ofOutcome _).bind fun real => Preserves.guard ?_
  exact keepsFiles_cleanPending _ _

end Cleanup

end Checkout
