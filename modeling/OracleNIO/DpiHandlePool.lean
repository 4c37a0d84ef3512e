import OracleNIO.RingBuffer

/-!
The pool of handles of ODPI-C (`dpiHandlePool.c`), and the queue of idle handles that it
stands for.
-/

namespace OracleNIO.Dpi

open RingBuffer

/-- A `NULL` in a slot is `none`; the number of slots is that of the cells.  The counters,
of 32 bits in the source, are unbounded: `numUsedSlots` counts every acquisition that finds
no handle, failed ones too, and would need `2 ^ 32` of these to start again at 0. -/
structure HandlePool (Handle : Type) where
  handles : List (Option Handle)
  numUsedSlots : Nat
  acquirePos : Nat
  releasePos : Nat
deriving DecidableEq, Repr

variable {Handle : Type}

namespace HandlePool

def numSlots (pool : HandlePool Handle) : Nat :=
  pool.handles.length

/-- `dpiHandlePool__create`, when its memory could be allocated. -/
def create : HandlePool Handle :=
  ⟨List.replicate 8 none, 0, 0, 0⟩

/-- `dpiHandlePool__acquire`: the handle, which may be `NULL`, or a failure if the memory
for more slots is not `allocated`. -/
def acquire (pool : HandlePool Handle) (allocated : Bool) :
    Option (Option Handle) × HandlePool Handle :=
  if pool.acquirePos ≠ pool.releasePos then
    (some (pool.handles[pool.acquirePos]?).join,
      { pool with
        handles := pool.handles.set pool.acquirePos none
        acquirePos := next pool.numSlots pool.acquirePos })
  else
    let numUsedSlots := pool.numUsedSlots + 1
    if numUsedSlots ≤ pool.numSlots then (some none, { pool with numUsedSlots })
    else if allocated then
      (some none, { pool with handles := pool.handles ++ List.replicate 8 none, numUsedSlots })
    -- the slot stays counted
    else (none, { pool with numUsedSlots })

/-- `dpiHandlePool__release` -/
def release (pool : HandlePool Handle) (handle : Option Handle) : HandlePool Handle :=
  { pool with
    handles := pool.handles.set pool.releasePos handle
    releasePos := next pool.numSlots pool.releasePos }

/-- The handles from the position of the next acquisition to that of the next release. -/
def idle (pool : HandlePool Handle) : List Handle :=
  contents pool.handles pool.acquirePos
    (between pool.numSlots pool.acquirePos pool.releasePos)

/-- The slots hold the idle handles, in the order in which they were released. -/
abbrev Idle (pool : HandlePool Handle) (idle : List Handle) : Prop :=
  Queue pool.handles pool.acquirePos pool.releasePos idle

section Calls

variable {pool : HandlePool Handle} {idle : List Handle} {handle : Handle}

theorem idle_create : (create : HandlePool Handle).Idle [] :=
  queue_nil (Nat.zero_lt_succ 7)

theorem idle_eq (h : pool.Idle idle) : pool.idle = idle := by
  rw [HandlePool.idle, numSlots, h.between_eq]
  exact contents_queue h

theorem acquire_cons (h : pool.Idle (handle :: idle)) (allocated : Bool) :
    ∃ pool', pool.acquire allocated = (some (some handle), pool') ∧ pool'.Idle idle ∧
      pool'.numSlots = pool.numSlots ∧ pool'.numUsedSlots = pool.numUsedSlots := by
  have hne : pool.acquirePos ≠ pool.releasePos := by
    simp [h.front_eq_back_iff]
  rw [acquire, if_pos hne, h.front_cell]
  exact ⟨_, rfl, h.pop, List.length_set, rfl⟩

theorem acquire_nil (h : pool.Idle []) (allocated : Bool) :
    ∃ result pool', pool.acquire allocated = (result, pool') ∧ pool'.Idle [] ∧
      pool'.numUsedSlots = pool.numUsedSlots + 1 ∧
        (result, pool'.numSlots) =
          if pool.numUsedSlots + 1 ≤ pool.numSlots then (some none, pool.numSlots)
          else if allocated then (some none, pool.numSlots + 8)
          else (none, pool.numSlots) := by
  have heq : pool.acquirePos = pool.releasePos := h.front_eq_back_iff.mpr rfl
  rw [acquire, if_neg (by simp [heq])]
  by_cases hfree : pool.numUsedSlots + 1 ≤ pool.numSlots
  · rw [if_pos hfree, if_pos hfree]
    exact ⟨_, _, rfl, h, rfl, rfl⟩
  · rw [if_neg hfree, if_neg hfree]
    cases allocated with
    | false => exact ⟨_, _, rfl, h, rfl, rfl⟩
    | true =>
        refine ⟨_, _, rfl, ?_, rfl, congrArg _ List.length_append⟩
        have hgrown : pool.acquirePos < (pool.handles ++ List.replicate 8 none).length := by
          rw [List.length_append]
          exact Nat.lt_add_right _ h.front_lt
        change Queue _ pool.acquirePos pool.releasePos []
        rw [← heq]
        exact queue_nil hgrown

theorem numSlots_release (pool : HandlePool Handle) (handle : Option Handle) :
    (pool.release handle).numSlots = pool.numSlots :=
  List.length_set

theorem release_idle (h : pool.Idle idle) (handle : Handle) :
    (pool.release (some handle)).Idle
      (if idle.length + 1 < pool.numSlots then idle ++ [handle] else []) := by
  split
  case isTrue hroom => exact h.push hroom handle
  case isFalse hfull =>
      have hlength : idle.length < pool.numSlots := h.length_lt
      have hlast : idle.length + 1 = pool.numSlots := by omega
      have hnext : next pool.numSlots pool.releasePos = pool.acquirePos :=
        h.next_back_of_full hlast
      simp only [Idle, release, hnext]
      apply queue_nil
      rw [List.length_set]
      exact h.front_lt

end Calls

end HandlePool

/-- A first-in first-out queue of idle handles, with the number of slots that are allocated
for it. -/
structure IdleQueue (Handle : Type) where
  idle : List Handle
  numSlots : Nat
  numUsedSlots : Nat

/-- A call on the pool, and whether memory for more slots could be had. -/
inductive PoolOp (Handle : Type) where
  | acquire (allocated : Bool)
  | release (handle : Handle)

namespace IdleQueue

def create : IdleQueue Handle :=
  ⟨[], 8, 0⟩

/-- The handle that has been idle for longest; without one, a slot is set aside for a new
handle. -/
def acquire (queue : IdleQueue Handle) (allocated : Bool) :
    Option (Option Handle) × IdleQueue Handle :=
  match queue.idle with
  | handle :: idle => (some (some handle), { queue with idle })
  | [] =>
      let numUsedSlots := queue.numUsedSlots + 1
      if numUsedSlots ≤ queue.numSlots then (some none, { queue with numUsedSlots })
      else if allocated then
        (some none, { queue with numSlots := queue.numSlots + 8, numUsedSlots })
      else (none, { queue with numUsedSlots })

def release (queue : IdleQueue Handle) (handle : Handle) : IdleQueue Handle :=
  { queue with idle := queue.idle ++ [handle] }

/-- What the acquisitions of a run hand out. -/
def results (queue : IdleQueue Handle) : List (PoolOp Handle) → List (Option (Option Handle))
  | [] => []
  | .acquire allocated :: ops =>
      (queue.acquire allocated).1 :: (queue.acquire allocated).2.results ops
  | .release handle :: ops => (queue.release handle).results ops

/-- Every release leaves a slot free. -/
def LeavesRoom (queue : IdleQueue Handle) : List (PoolOp Handle) → Prop
  | [] => True
  | .acquire allocated :: ops => (queue.acquire allocated).2.LeavesRoom ops
  | .release handle :: ops =>
      queue.idle.length + 1 < queue.numSlots ∧ (queue.release handle).LeavesRoom ops

end IdleQueue

/-- What the acquisitions of a run hand out. -/
def HandlePool.results (pool : HandlePool Handle) :
    List (PoolOp Handle) → List (Option (Option Handle))
  | [] => []
  | .acquire allocated :: ops =>
      (pool.acquire allocated).1 :: (pool.acquire allocated).2.results ops
  | .release handle :: ops => (pool.release (some handle)).results ops

/-- The pool and the queue are in the same state. -/
structure Refines (pool : HandlePool Handle) (queue : IdleQueue Handle) : Prop where
  idle : pool.Idle queue.idle
  numSlots : pool.numSlots = queue.numSlots
  numUsedSlots : pool.numUsedSlots = queue.numUsedSlots

theorem refines_create : Refines (HandlePool.create : HandlePool Handle) .create where
  idle := HandlePool.idle_create
  numSlots := rfl
  numUsedSlots := rfl

variable {pool : HandlePool Handle} {queue : IdleQueue Handle}

theorem Refines.acquire (h : Refines pool queue) (allocated : Bool) :
    (pool.acquire allocated).1 = (queue.acquire allocated).1 ∧
      Refines (pool.acquire allocated).2 (queue.acquire allocated).2 := by
  rcases queue with ⟨idle, numSlots, numUsedSlots⟩
  obtain ⟨hidle, rfl, rfl⟩ := h
  cases idle with
  | cons handle idle =>
      obtain ⟨pool', hacquire, hidle', hsize, hused⟩ := HandlePool.acquire_cons hidle allocated
      rw [hacquire]
      exact ⟨rfl, hidle', hsize, hused⟩
  | nil =>
      obtain ⟨result, pool', hacquire, hidle', hused, hresult⟩ :=
        HandlePool.acquire_nil hidle allocated
      rw [hacquire, IdleQueue.acquire]
      by_cases hfree : pool.numUsedSlots + 1 ≤ pool.numSlots
      · rw [if_pos hfree] at hresult
        obtain ⟨rfl, hsize⟩ := Prod.mk.inj hresult
        simp only [if_pos hfree, true_and]
        exact ⟨hidle', hsize, hused⟩
      · rw [if_neg hfree] at hresult
        cases allocated with
        | true =>
            obtain ⟨rfl, hsize⟩ := Prod.mk.inj hresult
            simp only [if_neg hfree]
            exact ⟨rfl, hidle', hsize, hused⟩
        | false =>
            obtain ⟨rfl, hsize⟩ := Prod.mk.inj hresult
            simp only [if_neg hfree]
            exact ⟨rfl, hidle', hsize, hused⟩

theorem Refines.release (h : Refines pool queue)
    (hroom : queue.idle.length + 1 < queue.numSlots) (handle : Handle) :
    Refines (pool.release (some handle)) (queue.release handle) := by
  have hidle := HandlePool.release_idle h.idle handle
  rw [h.numSlots, if_pos hroom] at hidle
  exact ⟨hidle, (HandlePool.numSlots_release pool _).trans h.numSlots, h.numUsedSlots⟩

/-- The handle in the last free slot makes the pool look empty. -/
theorem Refines.acquire_full (h : Refines pool queue)
    (hfull : ¬ queue.idle.length + 1 < queue.numSlots) (handle : Handle) (allocated : Bool) :
    ((pool.release (some handle)).acquire allocated).1 ≠
      ((queue.release handle).acquire allocated).1 := by
  have hidle := HandlePool.release_idle h.idle handle
  rw [h.numSlots, if_neg hfull] at hidle
  obtain ⟨result, pool', hacquire, _, _, hresult⟩ := HandlePool.acquire_nil hidle allocated
  have hnone : result = some none ∨ result = none := by
    split at hresult
    · exact .inl (Prod.mk.inj hresult).1
    · split at hresult
      · exact .inl (Prod.mk.inj hresult).1
      · exact .inr (Prod.mk.inj hresult).1
  have hsome : ∃ oldest, ((queue.release handle).acquire allocated).1 = some (some oldest) := by
    rw [IdleQueue.release, IdleQueue.acquire]
    cases queue.idle with
    | nil => exact ⟨handle, rfl⟩
    | cons oldest _ => exact ⟨oldest, rfl⟩
  obtain ⟨oldest, holdest⟩ := hsome
  rw [hacquire, holdest]
  rcases hnone with rfl | rfl <;> simp

theorem Refines.results_acquire (h : Refines pool queue) (allocated : Bool) :
    pool.results [.acquire allocated] = queue.results [.acquire allocated] := by
  rw [HandlePool.results, IdleQueue.results, (h.acquire allocated).1]
  rfl

theorem forall_prefix_cons {α : Type*} {P : List α → Prop} (a : α) (l : List α) :
    (∀ before, before <+: a :: l → P before) ↔
      P [] ∧ ∀ before, before <+: l → P (a :: before) := by
  simp only [List.prefix_cons_iff, forall_eq_or_imp, forall_exists_index, and_imp]
  refine and_congr_right fun _ => ⟨fun h before hbefore => h _ before rfl hbefore, ?_⟩
  rintro h _ before rfl hbefore
  exact h before hbefore

theorem Refines.results_iff (h : Refines pool queue) (ops : List (PoolOp Handle)) :
    (∀ before, before <+: ops → ∀ allocated, pool.results (before ++ [.acquire allocated]) =
      queue.results (before ++ [.acquire allocated])) ↔ queue.LeavesRoom ops := by
  induction ops generalizing pool queue with
  | nil =>
      refine ⟨fun _ => trivial, fun _ before hbefore => ?_⟩
      rw [List.prefix_nil.mp hbefore]
      exact h.results_acquire
  | cons op ops ih =>
      rw [forall_prefix_cons]
      cases op with
      | acquire allocated =>
          obtain ⟨hresult, hrefines⟩ := h.acquire allocated
          rw [IdleQueue.LeavesRoom, ← ih hrefines]
          refine (and_iff_right h.results_acquire).trans ?_
          refine forall₃_congr fun before _ allocated' => ?_
          simp only [List.cons_append, HandlePool.results, IdleQueue.results, hresult,
            List.cons.injEq, true_and]
      | release handle =>
          rw [IdleQueue.LeavesRoom]
          by_cases hroom : queue.idle.length + 1 < queue.numSlots
          · rw [and_iff_right hroom, ← ih (h.release hroom handle)]
            exact and_iff_right h.results_acquire
          · refine iff_of_false ?_ fun hleaves => hroom hleaves.1
            rintro ⟨_, hall⟩
            have hsame := hall [] List.nil_prefix true
            exact h.acquire_full hroom handle true (List.cons.inj hsame).1

/-- After every part of a sequence of calls the pool hands out what the queue does, exactly
if each release leaves a slot free. -/
theorem pool_results_iff (ops : List (PoolOp Handle)) :
    (∀ before, before <+: ops → ∀ allocated,
      (HandlePool.create : HandlePool Handle).results (before ++ [.acquire allocated]) =
        IdleQueue.create.results (before ++ [.acquire allocated])) ↔
      IdleQueue.create.LeavesRoom ops :=
  refines_create.results_iff ops

end OracleNIO.Dpi
