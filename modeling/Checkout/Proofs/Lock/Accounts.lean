import Checkout.Proofs.Lock.Hierarchy
import Mathlib.Algebra.Order.Group.Multiset

/-!
# Accounts of a hierarchy

The claims of a process are those of the open locks of a hierarchy, and others. Every operation on the
hierarchy, whether it succeeds or fails, keeps these accounts with the same others: it neither claims a
directory without a lock nor leaves a lock without its claim, and never touches a claim of others.
-/

namespace Checkout

variable {σ : Type}

namespace Hierarchy

/-- The directories claimed by the open locks. -/
def claimed (hierarchy : Hierarchy) : Multiset (List Component) :=
  (hierarchy.openLocks.map AreaLock.key : List (List Component))

/-- The claims are those of the open locks of a hierarchy and `others`, each once. -/
structure Accounts (others : Multiset (List Component)) (state : World σ × Hierarchy) : Prop where
  claims_eq : (state.1.claims : Multiset (List Component)) = state.2.claimed + others
  distinct : state.1.claims.Nodup
  sound : ∀ lock ∈ state.2.locks, lock.Sound

variable {cancel : Option (Cancellation σ)} {write : Bool} {others : Multiset (List Component)}
  {world after : World σ} {hierarchy : Hierarchy}

theorem mem_openLocks {lock : AreaLock} :
    lock ∈ hierarchy.openLocks ↔ lock ∈ hierarchy.locks ∧ lock.isOpen = true :=
  List.mem_filter

theorem mem_claimed {key : List Component} :
    key ∈ hierarchy.claimed ↔ ∃ lock ∈ hierarchy.openLocks, lock.key = key := by
  simp [claimed]

/-- Taking some of the claims away leaves the rest, since no claim is made twice. -/
theorem claims_without {claims : List (List Component)} {gone rest : Multiset (List Component)}
    {keys : List (List Component)} (distinct : claims.Nodup)
    (split : (claims : Multiset (List Component)) = gone + rest)
    (same : ∀ key, key ∈ keys ↔ key ∈ gone) :
    ((claims.filter (· ∉ keys) : List (List Component)) : Multiset (List Component)) = rest := by
  have apart : (gone + rest).Nodup := by rw [← split]; exact distinct
  rw [← Multiset.filter_coe, split, Multiset.filter_add]
  have none_gone : gone.filter (· ∉ keys) = 0 := by
    apply Multiset.filter_eq_nil.mpr
    intro key key_mem
    simpa using (same key).mpr key_mem
  have all_rest : rest.filter (· ∉ keys) = rest := by
    apply Multiset.filter_eq_self.mpr
    intro key key_mem key_gone
    exact Multiset.disjoint_left.mp (Multiset.nodup_add.mp apart).2.2 ((same key).mp key_gone)
      key_mem
  rw [none_gone, all_rest, zero_add]

namespace Accounts

/-- An open lock is claimed. -/
theorem key_mem (accounts : Accounts others (world, hierarchy)) {lock : AreaLock}
    (lock_mem : lock ∈ hierarchy.openLocks) : lock.key ∈ world.claims := by
  rw [← Multiset.mem_coe, accounts.claims_eq]
  exact Multiset.mem_add.mpr (Or.inl (mem_claimed.mpr ⟨lock, lock_mem, rfl⟩))

/-- Giving back every open lock leaves the claims of others. -/
theorem claims_drop (accounts : Accounts others (world, hierarchy)) :
    ((stateAfter hierarchy.drop world).claims : Multiset (List Component)) = others ∧
      (stateAfter hierarchy.drop world).claims.Nodup := by
  rw [stateAfter_drop, AreaLock.claims_giveBack]
  · refine ⟨?_, accounts.distinct.filter _⟩
    apply claims_without accounts.distinct accounts.claims_eq
    simp [claimed]
  · intro lock lock_mem
    exact accounts.sound lock (mem_openLocks.mp (List.mem_reverse.mp lock_mem)).1
  · intro lock lock_mem
    exact (mem_openLocks.mp (List.mem_reverse.mp lock_mem)).2

/-- The locks of a tree are entered besides the locks that are open already. -/
theorem openLocks_insertAll {locks : List AreaLock} (accounts : Accounts others (world, hierarchy))
    (ledger : Descent.Ledger world.claims ⟨after, [], locks.reverse⟩) :
    (hierarchy.insertAll locks).openLocks.Perm (locks ++ hierarchy.openLocks) := by
  have fresh : ∀ lock ∈ locks, lock.key ∉ world.claims := by
    simpa using ledger.fresh
  apply Hierarchy.openLocks_insertAll
  · simpa using ledger.allOpen
  · simpa using ledger.distinct
  · intro other other_mem taken
    obtain ⟨lock, lock_mem, same⟩ := List.mem_map.mp taken
    exact fresh lock lock_mem (same ▸ accounts.key_mem other_mem)

/-- A tree was locked, and its locks are entered. -/
theorem insertAll {locks : List AreaLock} (accounts : Accounts others (world, hierarchy))
    (ledger : Descent.Ledger world.claims ⟨after, [], locks.reverse⟩) :
    Accounts others (after, hierarchy.insertAll locks) := by
  have claims_eq : after.claims = (locks.map AreaLock.key).reverse ++ world.claims := by
    simpa using ledger.claims_eq
  have distinct : (locks.map AreaLock.key).Nodup := by
    simpa using ledger.distinct
  have fresh : ∀ lock ∈ locks, lock.key ∉ world.claims := by
    simpa using ledger.fresh
  have entered := accounts.openLocks_insertAll ledger
  refine ⟨?_, ?_, ?_⟩
  · have keys := Multiset.coe_eq_coe.mpr (entered.map AreaLock.key)
    have reversed := Multiset.coe_eq_coe.mpr (locks.map AreaLock.key).reverse_perm
    simp only [claimed, keys, claims_eq, List.map_append]
    rw [← Multiset.coe_add, ← Multiset.coe_add, reversed, accounts.claims_eq, claimed, add_assoc]
  · simp only [claims_eq]
    refine List.nodup_append.mpr ⟨List.nodup_reverse.mpr distinct, accounts.distinct, ?_⟩
    intro key key_mem other other_mem same
    obtain ⟨lock, lock_mem, lock_key⟩ := List.mem_map.mp (List.mem_reverse.mp key_mem)
    exact fresh lock lock_mem (by rw [lock_key, same]; exact other_mem)
  · intro lock recorded
    rcases mem_of_mem_insertAll recorded with new | ⟨old, -⟩
    · exact ledger.sound lock (List.mem_reverse.mpr new)
    · exact accounts.sound lock old

/-- Locks under a path were given back, and are marked as closed. -/
theorem closedUnder (accounts : Accounts others (world, hierarchy)) (path : Path) :
    Accounts others (AreaLock.giveBack (hierarchy.openUnder path).reverse world,
      hierarchy.closedUnder path) := by
  have claims_eq := AreaLock.claims_giveBack (hierarchy.openUnder path).reverse
    (by
      intro lock lock_mem
      have lock_open := (List.mem_filter.mp (List.mem_reverse.mp lock_mem)).1
      exact accounts.sound lock (mem_openLocks.mp lock_open).1)
    (by
      intro lock lock_mem
      have lock_open := (List.mem_filter.mp (List.mem_reverse.mp lock_mem)).1
      exact (mem_openLocks.mp lock_open).2)
    world
  have split : (world.claims : Multiset (List Component)) =
      ((hierarchy.openUnder path).map AreaLock.key : List (List Component)) +
        ((hierarchy.closedUnder path).claimed + others) := by
    have parted := List.filter_append_perm (fun lock => lock.path.isUnder path) hierarchy.openLocks
    have keys := Multiset.coe_eq_coe.mpr (parted.map AreaLock.key)
    rw [List.map_append, ← Multiset.coe_add] at keys
    rw [accounts.claims_eq, ← add_assoc, claimed, claimed, openLocks_closedUnder, openUnder, keys]
  refine ⟨?_, ?_, ?_⟩
  · simp only [claims_eq]
    apply claims_without accounts.distinct split
    simp
  · simp only [claims_eq]
    exact accounts.distinct.filter _
  · intro lock recorded
    obtain ⟨older, older_mem, rfl⟩ := List.mem_map.mp recorded
    split
    · exact older.sound_closed
    · exact accounts.sound older older_mem

/-! ## Operations -/

theorem closeLock (accounts : Accounts others (world, hierarchy)) (path : Path) :
    Accounts others (stateAfter (Hierarchy.closeLock path) (world, hierarchy)) := by
  rw [stateAfter_closeLock]
  split
  · exact accounts
  · split
    · exact accounts.closedUnder _
    · exact accounts

theorem close (accounts : Accounts others (world, hierarchy)) :
    Accounts others (stateAfter Hierarchy.close (world, hierarchy)) := by
  rw [stateAfter_close]
  exact accounts.closeLock hierarchy.root

theorem openChild (accounts : Accounts others (world, hierarchy))
    (cancel : Option (Cancellation σ)) (write : Bool) (depth : Depth) (path : Path) :
    Accounts others
      (stateAfter (Hierarchy.openChild cancel write depth path) (world, hierarchy)) := by
  rcases stateAfter_openChild cancel write depth path world hierarchy with
    ⟨unchanged, -⟩ | ⟨real, error, failed, -, -, ran, same⟩ | ⟨real, locks, locked, -, -, ran, same⟩
  · rw [unchanged]
    exact accounts
  · have claims_eq := Descent.claims_lockTree_error ran
    rw [same]
    refine ⟨?_, ?_, accounts.sound⟩
    · simpa only [claims_eq] using accounts.claims_eq
    · simpa only [claims_eq] using accounts.distinct
  · rw [same]
    exact accounts.insertAll (Descent.ledger_lockTree ran)

theorem probeTry (accounts : Accounts others (world, hierarchy))
    (cancel : Option (Cancellation σ)) (write : Bool) (depth : Depth) (path : Path) :
    Accounts others
      (stateAfter (Hierarchy.probeTry cancel write depth path) (world, hierarchy)) := by
  rcases probeTry_apply cancel write depth path world hierarchy with
    ⟨unchanged, -⟩ | ⟨depth', directory, -, -, same⟩
  · rw [unchanged]
    exact accounts
  · rw [stateAfter, same]
    exact accounts.openChild cancel write depth' directory

/-- Opening a child puts new locks in the place of closed ones only. -/
theorem closed_of_openChild (accounts : Accounts others (world, hierarchy)) {depth : Depth}
    {path : Path} {lock : AreaLock} (recorded : lock ∈ hierarchy.locks)
    (replaced : lock ∉
      (stateAfter (Hierarchy.openChild cancel write depth path) (world, hierarchy)).2.locks) :
    lock.isOpen = false := by
  rcases stateAfter_openChild cancel write depth path world hierarchy with
    ⟨unchanged, -⟩ | ⟨real, error, failed, -, -, ran, same⟩ | ⟨real, locks, locked, -, -, ran, same⟩
  · rw [unchanged] at replaced
    exact absurd recorded replaced
  · rw [same] at replaced
    exact absurd recorded replaced
  · rw [same] at replaced
    by_contra isOpen
    rw [Bool.not_eq_false] at isOpen
    apply replaced
    apply mem_insertAll_of_mem recorded
    intro taken
    obtain ⟨new, new_mem, same_key⟩ := List.mem_map.mp taken
    apply (Descent.ledger_lockTree ran).fresh new (List.mem_reverse.mpr new_mem)
    rw [same_key]
    exact accounts.key_mem (mem_openLocks.mpr ⟨recorded, isOpen⟩)

theorem closed_of_probeTry (accounts : Accounts others (world, hierarchy)) {depth : Depth}
    {path : Path} {lock : AreaLock} (recorded : lock ∈ hierarchy.locks)
    (replaced : lock ∉
      (stateAfter (Hierarchy.probeTry cancel write depth path) (world, hierarchy)).2.locks) :
    lock.isOpen = false := by
  rcases probeTry_apply cancel write depth path world hierarchy with
    ⟨unchanged, -⟩ | ⟨depth', directory, -, -, same⟩
  · rw [unchanged] at replaced
    exact absurd recorded replaced
  · rw [stateAfter, same] at replaced
    exact accounts.closed_of_openChild recorded replaced

end Accounts

/-! ## New hierarchies -/

variable {depth : Depth} {path : Path} {error : Error}

theorem accounts_openAt (distinct : world.claims.Nodup)
    (opened : openAt cancel write depth path world = .ok hierarchy after) :
    Accounts world.claims (after, hierarchy) := by
  obtain ⟨root, locks, -, ran, rfl⟩ := openAt_ok opened
  have nothing : Accounts world.claims (world, { root, locks := [] }) :=
    ⟨by simp [claimed, openLocks], distinct, by simp⟩
  exact nothing.insertAll (Descent.ledger_lockTree ran)

theorem claims_openAt_error (refused : openAt cancel write depth path world = .error error after) :
    after.claims = world.claims := by
  rcases openAt_error refused with ⟨rfl, -⟩ | ⟨root, -, ran⟩
  · rfl
  · exact Descent.claims_lockTree_error ran

theorem accounts_probeOpen (distinct : world.claims.Nodup)
    (opened : probeOpen cancel write depth path world = .ok hierarchy after) :
    Accounts world.claims (after, hierarchy) := by
  rcases probeOpen_apply cancel write depth path world with ⟨-, error, refused⟩ | ⟨depth', directory, -, same⟩
  · rw [refused] at opened
    simp at opened
  · rw [same] at opened
    exact accounts_openAt distinct opened

theorem claims_probeOpen_error
    (refused : probeOpen cancel write depth path world = .error error after) :
    after.claims = world.claims := by
  rcases probeOpen_apply cancel write depth path world with ⟨-, error', same⟩ | ⟨depth', directory, -, same⟩
  · rw [same] at refused
    simp only [EStateM.Result.error.injEq] at refused
    rw [refused.2]
  · rw [same] at refused
    exact claims_openAt_error refused

end Hierarchy

namespace Anchored

open Hierarchy

variable {cancel : Option (Cancellation σ)} {write : Bool} {depth : Depth} {path : Path}
  {world after : World σ} {error : Error}

theorem accounts_openAnchor {anchored : Anchored} (distinct : world.claims.Nodup)
    (opened : openAnchor cancel write depth path world = .ok anchored after) :
    Accounts world.claims (after, anchored.hierarchy) := by
  rcases openAnchor_ok opened with
    ⟨anchor, -, ran⟩ | ⟨anchor, target, hierarchy, middle, -, ran, ⟨-, child⟩ | ⟨rfl, same⟩⟩
  · exact accounts_openAt distinct ran
  · rw [← child]
    exact (accounts_openAt distinct ran).openChild cancel write depth (anchor.join target)
  · rw [same]
    exact accounts_openAt distinct ran

/-- An anchor that cannot be opened leaves no claim behind. -/
theorem claims_openAnchor_error (distinct : world.claims.Nodup)
    (refused : openAnchor cancel write depth path world = .error error after) :
    (after.claims : Multiset (List Component)) = world.claims ∧ after.claims.Nodup := by
  have unchanged {failed : World σ} (same : failed.claims = world.claims) :
      (failed.claims : Multiset (List Component)) = world.claims ∧ failed.claims.Nodup :=
    ⟨by rw [same], by rw [same]; exact distinct⟩
  rcases openAnchor_error refused with
    rfl | ⟨anchor, -, ran⟩ | ⟨anchor, target, -, ran⟩ |
      ⟨anchor, target, hierarchy, middle, state, -, ran, -, child, rfl⟩
  · exact unchanged rfl
  · exact unchanged (claims_openAt_error ran)
  · exact unchanged (claims_openAt_error ran)
  · have accounts := (accounts_openAt distinct ran).openChild cancel write depth (anchor.join target)
    rw [stateAfter_of_error child] at accounts
    exact accounts.close.claims_drop

end Anchored

end Checkout
