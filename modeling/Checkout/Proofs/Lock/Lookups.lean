import Checkout.Proofs.Lock.Closing
import Checkout.Proofs.Path.Ancestors

/-!
# Looking locks up

A hierarchy has one record for a directory, so what is found for a directory is what was entered for it last.
Going up from a path, the first open lock that is met is the one whose directory is the longest prefix of the
path.
-/

namespace Checkout

namespace Hierarchy

variable {files : FileSystem} {hierarchy : Hierarchy} {path directory real : Path} {lock : AreaLock}

/-! ## The record for a directory -/

theorem Sorted.find?_eq_some_iff (inOrder : hierarchy.Sorted) :
    hierarchy.find? directory = some lock ↔
      lock ∈ hierarchy.locks ∧ lock.path.same directory = true := by
  constructor
  · exact find?_eq_some
  · rintro ⟨recorded, same⟩
    rw [find?, List.find?_eq_some_iff_append]
    obtain ⟨front, back, split⟩ := List.append_of_mem recorded
    refine ⟨same, front, back, split, ?_⟩
    intro other other_mem
    -- records of one directory are not before each other
    have before : other.path.order lock.path = .lt := by
      rw [Sorted, split, List.pairwise_append] at inOrder
      exact inOrder.2.2 other other_mem lock List.mem_cons_self
    by_contra also
    rw [Bool.not_eq_true, Bool.not_eq_false'] at also
    simp only [Path.same, decide_eq_true_eq] at also same
    rw [Path.order_congr_left (also.trans same.symm)] at before
    exact Path.not_order_self _ before

theorem same_iff_key {lock : AreaLock} :
    lock.path.same directory = true ↔ lock.key = directory.components := by
  simp [Path.same, AreaLock.key]

/-- For a directory for which a lock is entered, one of the new locks is found. -/
theorem Sorted.find?_insertAll_of_mem {locks : List AreaLock} (inOrder : hierarchy.Sorted)
    (distinct : (locks.map AreaLock.key).Nodup) (lock_mem : lock ∈ locks)
    (same : lock.path.same directory = true) :
    (hierarchy.insertAll locks).find? directory = some lock :=
  (inOrder.insertAll locks).find?_eq_some_iff.mpr ⟨mem_insertAll distinct lock_mem, same⟩

/-- What is found for another directory stays the same. -/
theorem Sorted.find?_insertAll_of_not_mem {locks : List AreaLock} (inOrder : hierarchy.Sorted)
    (apart : directory.components ∉ locks.map AreaLock.key) :
    (hierarchy.insertAll locks).find? directory = hierarchy.find? directory := by
  rw [Option.ext_iff]
  intro lock
  rw [(inOrder.insertAll locks).find?_eq_some_iff, inOrder.find?_eq_some_iff]
  apply and_congr_left
  intro same
  rw [same_iff_key] at same
  rw [← same] at apart
  constructor
  · intro recorded
    rcases mem_of_mem_insertAll recorded with new | ⟨old, -⟩
    · exact absurd (List.mem_map_of_mem new) apart
    · exact old
  · exact fun recorded => mem_insertAll_of_mem recorded apart

theorem find?_closedUnder_eq (hierarchy : Hierarchy) (top directory : Path) :
    (hierarchy.closedUnder top).find? directory =
      (hierarchy.find? directory).map fun lock =>
        if lock.path.isUnder top then lock.closed else lock := by
  rw [find?, closedUnder, List.find?_map, find?]
  congr 2
  funext lock
  rw [Function.comp_apply]
  split <;> rfl

/-! ## Retrieving -/

theorem retrieve_eq (canonical : files.canonical path = .ok real) :
    hierarchy.retrieve files path =
      match hierarchy.find? real with
      | some lock => if lock.isOpen then .ok lock else .error (.alreadyClosed real)
      | none => .error (.noLock real) := by
  simp only [retrieve, canonical, bind, Except.bind]
  cases hierarchy.find? real with
  | none => rfl
  | some lock => cases lock.isOpen <;> rfl

theorem retrieve_ok (canonical : files.canonical path = .ok real)
    (retrieved : hierarchy.retrieve files path = .ok lock) :
    lock ∈ hierarchy.openLocks ∧ lock.path.same real = true := by
  rw [retrieve_eq canonical] at retrieved
  cases found : hierarchy.find? real with
  | none => simp [found] at retrieved
  | some other =>
      simp only [found] at retrieved
      split at retrieved
      · rename_i isOpen
        obtain rfl := Except.ok.inj retrieved
        obtain ⟨recorded, same⟩ := find?_eq_some found
        exact ⟨mem_openLocks.mpr ⟨recorded, isOpen⟩, same⟩
      · simp at retrieved

/-! ## The nearest open lock -/

theorem Rooted.components_ne_nil (rooted : hierarchy.Rooted) (recorded : lock ∈ hierarchy.locks) :
    lock.path.components ≠ [] := by
  have under := rooted.under lock recorded
  rw [Path.isUnder, List.isPrefixOf_iff_prefix, Path.components_of_isAbsolute rooted.absolute] at under
  intro empty
  simp [empty] at under

/-- The first open lock on the way up from a path, as far as the root. -/
def nearestLock? (hierarchy : Hierarchy) (path : Path) : Option AreaLock :=
  (path.ancestors.takeWhile fun directory => directory.isUnder hierarchy.root).findSome?
    fun directory => (hierarchy.find? directory).filter AreaLock.isOpen

theorem probeRetrieve_eq (canonical : files.canonical path = .ok real) :
    hierarchy.probeRetrieve files path =
      match hierarchy.nearestLock? real with
      | some lock => .ok lock
      | none => .error (.noLock real) := by
  cases found : hierarchy.nearestLock? real <;> rw [nearestLock?] at found <;>
    simp only [probeRetrieve, canonical, bind, Except.bind, found] <;> rfl

theorem nearestLock?_outside (absolute : path.isAbsolute = true)
    (outside : path.isUnder hierarchy.root = false) : hierarchy.nearestLock? path = none := by
  rw [nearestLock?, Path.ancestors_eq absolute, List.takeWhile_cons, if_neg (by simp [outside])]
  rfl

/-- The lock of the path itself comes first, then those on the way up from the path above. -/
theorem nearestLock?_inside (absolute : path.isAbsolute = true)
    (inside : path.isUnder hierarchy.root = true) :
    hierarchy.nearestLock? path =
      ((hierarchy.find? path).filter AreaLock.isOpen).or
        (path.parent?.bind hierarchy.nearestLock?) := by
  rw [nearestLock?, Path.ancestors_eq absolute, List.takeWhile_cons, if_pos inside, List.findSome?_cons]
  cases (hierarchy.find? path).filter AreaLock.isOpen with
  | some lock => rfl
  | none => cases path.parent? <;> rfl

/-- The lock's directory is the longest prefix of the path among those of the open locks. -/
structure IsNearest (hierarchy : Hierarchy) (path : Path) (lock : AreaLock) : Prop where
  isOpen : lock ∈ hierarchy.openLocks
  above : path.isUnder lock.path = true
  longest : ∀ other ∈ hierarchy.openLocks, path.isUnder other.path = true →
    lock.path.isUnder other.path = true

theorem Sorted.openLock_iff (inOrder : hierarchy.Sorted) :
    (hierarchy.find? directory).filter AreaLock.isOpen = some lock ↔
      lock ∈ hierarchy.openLocks ∧ lock.path.same directory = true := by
  rw [Option.filter_eq_some_iff, inOrder.find?_eq_some_iff, mem_openLocks]
  exact and_right_comm

theorem Sorted.no_openLock (inOrder : hierarchy.Sorted)
    (none : (hierarchy.find? directory).filter AreaLock.isOpen = none) :
    ∀ lock ∈ hierarchy.openLocks, lock.path.same directory = false := by
  intro lock lock_mem
  by_contra same
  rw [Bool.not_eq_false] at same
  rw [inOrder.openLock_iff.mpr ⟨lock_mem, same⟩] at none
  simp at none

/-- What `nearestLock?` answers for a path. -/
def NearestAnswer (hierarchy : Hierarchy) (path : Path) : Option AreaLock → Prop
  | some lock => hierarchy.IsNearest path lock
  | none => ∀ lock ∈ hierarchy.openLocks, path.isUnder lock.path = false

/-- Where the path has no lock of its own, the answer is that for a path with the same open locks above. -/
theorem NearestAnswer.congr {other : Path} {answer : Option AreaLock}
    (answers : hierarchy.NearestAnswer other answer)
    (same : ∀ lock ∈ hierarchy.openLocks, path.isUnder lock.path = other.isUnder lock.path) :
    hierarchy.NearestAnswer path answer := by
  cases answer with
  | none => exact fun lock lock_mem => (same lock lock_mem).trans (answers lock lock_mem)
  | some lock =>
      refine ⟨answers.isOpen, (same lock answers.isOpen).trans answers.above, ?_⟩
      intro further further_mem under
      rw [same further further_mem] at under
      exact answers.longest further further_mem under

theorem Rooted.isUnder_root (rooted : hierarchy.Rooted) (lock_mem : lock ∈ hierarchy.openLocks)
    (under : path.isUnder lock.path = true) : path.isUnder hierarchy.root = true :=
  Path.isUnder_trans under (rooted.under lock (mem_openLocks.mp lock_mem).1)

/-- An absolute path is answered right if the path above it is. -/
theorem Rooted.nearestLock?_step (rooted : hierarchy.Rooted) (inOrder : hierarchy.Sorted)
    (absolute : path.isAbsolute = true)
    (higher : ∀ parent, path.parent? = some parent →
      hierarchy.NearestAnswer parent (hierarchy.nearestLock? parent)) :
    hierarchy.NearestAnswer path (hierarchy.nearestLock? path) := by
  cases inside : path.isUnder hierarchy.root with
  | false =>
      rw [nearestLock?_outside absolute inside]
      intro lock lock_mem
      by_contra under
      rw [Bool.not_eq_false] at under
      rw [rooted.isUnder_root lock_mem under] at inside
      exact Bool.noConfusion inside
  | true =>
      rw [nearestLock?_inside absolute inside]
      cases own : (hierarchy.find? path).filter AreaLock.isOpen with
      | some lock =>
          obtain ⟨isOpen, same⟩ := inOrder.openLock_iff.mp own
          refine ⟨isOpen, ?_, ?_⟩
          · rw [← Path.isUnder_congr same]
            exact Path.isUnder_refl _
          · intro other _ under
            rw [Path.isUnder_congr same]
            exact under
      | none =>
          have elsewhere := inOrder.no_openLock own
          rw [Option.none_or]
          cases parent_eq : path.parent? with
          | none =>
              intro lock lock_mem
              have nonempty := rooted.components_ne_nil (mem_openLocks.mp lock_mem).1
              by_contra under
              rw [Bool.not_eq_false,
                Path.isUnder_iff_of_parent?_eq_none absolute parent_eq nonempty,
                elsewhere lock lock_mem] at under
              exact Bool.noConfusion under
          | some parent =>
              apply (higher parent parent_eq).congr
              intro lock lock_mem
              rw [Bool.eq_iff_iff, Path.isUnder_iff_of_parent? absolute parent_eq,
                elsewhere lock lock_mem]
              simp

/-- Going up meets the open lock with the longest prefix of the path, if there is one with a prefix. -/
theorem Rooted.nearestLock?_answer (rooted : hierarchy.Rooted) (inOrder : hierarchy.Sorted)
    (absolute : path.isAbsolute = true) :
    hierarchy.NearestAnswer path (hierarchy.nearestLock? path) := by
  induction path, absolute using Path.ancestors_induction with
  | root path absolute atTop =>
      apply rooted.nearestLock?_step inOrder absolute
      simp [atTop]
  | child path parent absolute parentAbsolute parent_eq ih =>
      apply rooted.nearestLock?_step inOrder absolute
      intro other other_eq
      rw [parent_eq, Option.some.injEq] at other_eq
      rw [← other_eq]
      exact ih

theorem IsNearest.unique {other : AreaLock} (inOrder : hierarchy.Sorted)
    (nearest : hierarchy.IsNearest path lock) (again : hierarchy.IsNearest path other) :
    lock = other := by
  have same := Path.isUnder_antisymm (nearest.longest other again.isOpen again.above)
    (again.longest lock nearest.isOpen nearest.above)
  have own : hierarchy.find? other.path = some lock :=
    inOrder.find?_eq_some_iff.mpr ⟨(mem_openLocks.mp nearest.isOpen).1, same⟩
  have again : hierarchy.find? other.path = some other :=
    inOrder.find?_eq_some_iff.mpr ⟨(mem_openLocks.mp again.isOpen).1, by simp [Path.same]⟩
  rw [own, Option.some.injEq] at again
  exact again

theorem Rooted.nearestLock?_eq_some_iff (rooted : hierarchy.Rooted) (inOrder : hierarchy.Sorted)
    (absolute : path.isAbsolute = true) :
    hierarchy.nearestLock? path = some lock ↔ hierarchy.IsNearest path lock := by
  have answer := rooted.nearestLock?_answer inOrder absolute
  cases found : hierarchy.nearestLock? path with
  | none =>
      rw [found] at answer
      simp only [reduceCtorEq, false_iff]
      intro nearest
      have apart := answer lock nearest.isOpen
      rw [nearest.above] at apart
      exact Bool.noConfusion apart
  | some other =>
      rw [found] at answer
      rw [Option.some.injEq]
      constructor
      · rintro rfl
        exact answer
      · exact fun nearest => IsNearest.unique inOrder answer nearest

/-- The lock that is retrieved for a path is the open one whose directory is the longest prefix. -/
theorem Rooted.probeRetrieve_eq_ok_iff (rooted : hierarchy.Rooted) (inOrder : hierarchy.Sorted)
    (canonical : files.canonical path = .ok real) :
    hierarchy.probeRetrieve files path = .ok lock ↔ hierarchy.IsNearest real lock := by
  rw [probeRetrieve_eq canonical,
    ← rooted.nearestLock?_eq_some_iff inOrder (FileSystem.isAbsolute_canonical canonical)]
  cases hierarchy.nearestLock? real <;> simp

/-- Where the root is open, every path below it has a nearest lock. -/
theorem Rooted.exists_isNearest (rooted : hierarchy.Rooted) (inOrder : hierarchy.Sorted)
    (absolute : path.isAbsolute = true) (rootOpen : hierarchy.isRootOpen = true)
    (inside : path.isUnder hierarchy.root = true) : ∃ lock, hierarchy.IsNearest path lock := by
  have answer := rooted.nearestLock?_answer inOrder absolute
  cases found : hierarchy.nearestLock? path with
  | some lock =>
      rw [found] at answer
      exact ⟨lock, answer⟩
  | none =>
      rw [found] at answer
      obtain ⟨top, top_mem, same⟩ := exists_of_isRootOpen rootOpen
      have apart := answer top top_mem
      simp only [Path.same, decide_eq_true_eq] at same
      simp only [Path.isUnder, same] at apart inside
      rw [inside] at apart
      exact Bool.noConfusion apart

end Hierarchy

end Checkout
