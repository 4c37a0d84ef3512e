import OracleNIO.DpiHandlePool
import OracleNIO.LabelledRuns

/-!
The error handles of one environment of ODPI-C: a thread that is inside of a function has
one from the pool, or a new one, and gives it back at the end of the function
(`dpiError__initHandle`, `dpiGen__endPublicFn`).
-/

namespace OracleNIO.PooledHandles

open RingBuffer Dpi LabelledRuns

/-- Handles are named by the order of their creation; `held` are the threads with the
handles of their errors. -/
structure System where
  pool : HandlePool Nat
  created : Nat
  held : List (Nat × Nat)
deriving DecidableEq, Repr

/-- The outcomes of `initHandle` are those of the allocation of slots and of the creation
of a handle. -/
inductive Label where
  | initHandle (thread : Nat) (allocated created : Bool)
  | endPublicFn (thread : Nat)
deriving DecidableEq, Repr

namespace System

/-- No handle has been taken. -/
def init : System :=
  ⟨.create, 0, []⟩

/-- The handle that the thread holds. -/
def handleOf (s : System) (thread : Nat) : Option (Nat × Nat) :=
  s.held.find? fun entry => entry.1 = thread

/-- One call of one thread. -/
def step (s : System) : Label → Option System
  | .initHandle thread allocated created =>
      match s.handleOf thread, s.pool.acquire allocated with
      -- it is called without a handle only
      | some _, _ => none
      | none, (none, pool) => some { s with pool }
      | none, (some (some handle), pool) =>
          some { s with pool, held := (thread, handle) :: s.held }
      | none, (some none, pool) =>
          if created then some ⟨pool, s.created + 1, (thread, s.created) :: s.held⟩
          else some { s with pool }
  | .endPublicFn thread =>
      match s.handleOf thread with
      | some entry =>
          some { s with pool := s.pool.release (some entry.2), held := s.held.erase entry }
      | none => some s

def run : System → List Label → Option System
  | s, [] => some s
  | s, label :: labels => (s.step label).bind fun s' => s'.run labels

/-- The handle exists, but no thread has it and the pool will not hand it out. -/
def Lost (s : System) (handle : Nat) : Prop :=
  handle < s.created ∧ handle ∉ s.held.map Prod.snd ∧ handle ∉ s.pool.idle

instance (s : System) (handle : Nat) : Decidable (s.Lost handle) :=
  inferInstanceAs (Decidable (_ ∧ _))

end System

theorem runs_system : Runs System.step System.run where
  nil _ := rfl
  cons _ _ _ := rfl

/-- Every handle is held by a thread, or idle in the pool, or lost. -/
structure Accounted (s : System) (idle lost : List Nat) : Prop where
  pool : s.pool.Idle idle
  handles : (s.held.map Prod.snd ++ idle ++ lost).Perm (List.range s.created)
  created_le : s.created ≤ s.pool.numSlots
  used : s.created ≤ s.pool.numUsedSlots
  eight_le : 8 ≤ s.pool.numSlots

variable {s s' : System} {idle lost : List Nat} {thread : Nat} {label : Label}
  {labels : List Label}

theorem accounted_init : Accounted .init [] [] where
  pool := HandlePool.idle_create
  handles := .nil
  created_le := Nat.zero_le _
  used := Nat.le_refl _
  eight_le := Nat.le_refl _

namespace Accounted

theorem nodup (h : Accounted s idle lost) : (s.held.map Prod.snd ++ idle ++ lost).Nodup :=
  h.handles.nodup_iff.mpr List.nodup_range

theorem lost_iff (h : Accounted s idle lost) (handle : Nat) :
    s.Lost handle ↔ handle ∈ lost := by
  have hmem : handle < s.created ↔ handle ∈ s.held.map Prod.snd ++ idle ++ lost := by
    rw [h.handles.mem_iff, List.mem_range]
  have hdisjoint := (List.nodup_append.mp h.nodup).2.2
  rw [System.Lost, hmem, HandlePool.idle_eq h.pool]
  constructor
  · rintro ⟨hmem, hheld, hidle⟩
    simpa [hheld, hidle] using hmem
  · intro hlost
    refine ⟨List.mem_append_right _ hlost, ?_, ?_⟩
    · intro hheld
      exact hdisjoint _ (List.mem_append_left _ hheld) _ hlost rfl
    · intro hidle
      exact hdisjoint _ (List.mem_append_right _ hidle) _ hlost rfl

theorem length_eq (h : Accounted s idle lost) :
    s.held.length + idle.length + lost.length = s.created := by
  simpa [Nat.add_assoc] using h.handles.length_eq

theorem lost_iff_lost {s' : System} {idle' : List Nat} (h : Accounted s idle lost)
    (h' : Accounted s' idle' lost) (handle : Nat) : s'.Lost handle ↔ s.Lost handle := by
  rw [h.lost_iff, h'.lost_iff]

end Accounted

/-- Only `thread` is inside of a function; all other handles are idle, and there is one for
each slot. -/
structure Full (s : System) (thread : Nat) : Prop where
  held : ∃ handle, s.held = [(thread, handle)]
  nothing_lost : ∀ handle, ¬ s.Lost handle
  created : s.created = s.pool.numSlots

theorem acquire_slots (h : Accounted s [] lost) (allocated : Bool) :
    ∃ result pool, s.pool.acquire allocated = (result, pool) ∧
      Accounted { s with pool } [] lost ∧ s.created + 1 ≤ pool.numUsedSlots ∧
      (result = none ∨ result = some none ∧ s.created + 1 ≤ pool.numSlots) := by
  obtain ⟨result, pool, hacquire, hidle, hused, hresult⟩ := HandlePool.acquire_nil h.pool allocated
  have hcreated := h.created_le
  have hcounted := h.used
  have height := h.eight_le
  have hsize : s.pool.numSlots ≤ pool.numSlots ∧
      (result = none ∨ result = some none ∧ s.created + 1 ≤ pool.numSlots) := by
    split at hresult
    case isTrue hfree =>
        obtain ⟨rfl, hsize⟩ := Prod.mk.inj hresult
        exact ⟨Nat.le_of_eq hsize.symm, .inr ⟨rfl, by omega⟩⟩
    case isFalse =>
        split at hresult
        case isTrue =>
            obtain ⟨rfl, hsize⟩ := Prod.mk.inj hresult
            exact ⟨by omega, .inr ⟨rfl, by omega⟩⟩
        case isFalse =>
            obtain ⟨rfl, hsize⟩ := Prod.mk.inj hresult
            exact ⟨Nat.le_of_eq hsize.symm, .inl rfl⟩
  refine ⟨result, pool, hacquire, ⟨hidle, h.handles, ?_, ?_, ?_⟩, by omega, hsize.2⟩
  · exact Nat.le_trans hcreated hsize.1
  · change s.created ≤ pool.numUsedSlots
    omega
  · exact Nat.le_trans height hsize.1

theorem accounted_initHandle (h : Accounted s idle lost) {allocated created : Bool}
    (hstep : s.step (.initHandle thread allocated created) = some s') :
    ∃ idle', Accounted s' idle' lost ∧ (s'.created = s.created ∨ idle' = []) := by
  cases hhandle : s.handleOf thread with
  | some _ =>
      rw [System.step, hhandle] at hstep
      cases hstep
  | none =>
      cases idle with
      | cons handle idle =>
          obtain ⟨pool, hacquire, hidle, hsize, hused⟩ :=
            HandlePool.acquire_cons h.pool allocated
          rw [System.step, hhandle, hacquire] at hstep
          cases hstep
          refine ⟨idle, ⟨hidle, ?_, ?_, ?_, ?_⟩, .inl rfl⟩
          · refine List.Perm.trans ?_ h.handles
            simp only [List.map_cons, List.cons_append, List.append_assoc]
            exact List.perm_middle.symm
          · exact hsize ▸ h.created_le
          · exact hused ▸ h.used
          · exact hsize ▸ h.eight_le
      | nil =>
          obtain ⟨result, pool, hacquire, hunchanged, hused, hresult⟩ := acquire_slots h allocated
          rw [System.step, hhandle, hacquire] at hstep
          rcases hresult with rfl | ⟨rfl, hroom⟩
          · cases hstep
            exact ⟨[], hunchanged, .inr rfl⟩
          · cases created with
            | false =>
                cases hstep
                exact ⟨[], hunchanged, .inr rfl⟩
            | true =>
                cases hstep
                refine ⟨[], ⟨hunchanged.pool, ?_, hroom, hused, hunchanged.eight_le⟩, .inr rfl⟩
                rw [List.range_succ]
                simp only [List.map_cons, List.cons_append]
                exact (h.handles.cons _).trans (List.perm_append_singleton _ _).symm

theorem accounted_endPublicFn (h : Accounted s idle lost)
    (hstep : s.step (.endPublicFn thread) = some s') :
    (∃ idle', Accounted s' idle' lost ∧ s'.created = s.created) ∨
      Full s thread ∧ ∃ lost', Accounted s' [] lost' ∧
        ∀ handle, handle ∈ lost' ↔ handle < s.created := by
  cases hhandle : s.handleOf thread with
  | none =>
      rw [System.step, hhandle] at hstep
      cases hstep
      exact .inl ⟨idle, h, rfl⟩
  | some entry =>
      rw [System.step, hhandle] at hstep
      cases hstep
      have hmem : entry ∈ s.held := List.mem_of_find?_eq_some hhandle
      have hperm := List.perm_cons_erase hmem
      have hheld := hperm.length_eq
      have hlength := h.length_eq
      have hcreated := h.created_le
      have hidle := HandlePool.release_idle h.pool entry.2
      have hsize := HandlePool.numSlots_release s.pool (some entry.2)
      have hreleased : s.created ≤ (s.pool.release (some entry.2)).numSlots :=
        hsize.symm ▸ h.created_le
      have height : 8 ≤ (s.pool.release (some entry.2)).numSlots := hsize.symm ▸ h.eight_le
      rw [List.length_cons] at hheld
      have hhandles : ((s.held.erase entry).map Prod.snd ++ (idle ++ [entry.2]) ++ lost).Perm
          (List.range s.created) := by
        refine List.Perm.trans ?_ h.handles
        refine List.Perm.append_right _ ?_
        rw [← List.append_assoc]
        refine (List.perm_append_singleton _ _).trans ?_
        exact (hperm.map Prod.snd).symm.append_right idle
      by_cases hroom : idle.length + 1 < s.pool.numSlots
      · rw [if_pos hroom] at hidle
        exact .inl ⟨_, ⟨hidle, hhandles, hreleased, h.used, height⟩, rfl⟩
      · rw [if_neg hroom] at hidle
        have hempty : lost = [] := List.eq_nil_of_length_eq_zero (by omega)
        have hlast : s.held.erase entry = [] := List.eq_nil_of_length_eq_zero (by omega)
        have hsingle : s.held = [entry] := by
          rw [hlast] at hperm
          exact List.perm_singleton.mp hperm
        have hthread : entry.1 = thread := by
          simpa using List.find?_some hhandle
        subst hempty
        rw [hlast] at hhandles
        refine .inr ⟨⟨⟨entry.2, ?_⟩, ?_, by omega⟩, idle ++ [entry.2], ?_, ?_⟩
        · rw [hsingle, ← hthread]
        · intro handle
          rw [h.lost_iff]
          exact List.not_mem_nil
        · refine ⟨hidle, ?_, hreleased, h.used, height⟩
          simpa [hlast] using hhandles
        · intro handle
          rw [← List.mem_range, ← hhandles.mem_iff]
          simp

theorem accounted_step (h : Accounted s idle lost) (hstep : s.step label = some s') :
    (∃ idle', Accounted s' idle' lost ∧ (s'.created = s.created ∨ idle' = [])) ∨
      (∃ thread, label = .endPublicFn thread ∧ Full s thread) ∧
        ∃ lost', Accounted s' [] lost' ∧ ∀ handle, handle ∈ lost' ↔ handle < s.created := by
  cases label with
  | initHandle thread allocated created => exact .inl (accounted_initHandle h hstep)
  | endPublicFn thread =>
      rcases accounted_endPublicFn h hstep with ⟨idle', h', hcreated⟩ | ⟨hfull, hlost⟩
      · exact .inl ⟨idle', h', .inl hcreated⟩
      · exact .inr ⟨⟨thread, rfl, hfull⟩, hlost⟩

theorem accounted_run (hrun : System.init.run labels = some s) :
    ∃ idle lost, Accounted s idle lost := by
  refine runs_system.invariant (I := fun s => ∃ idle lost, Accounted s idle lost) ?_
    ⟨[], [], accounted_init⟩ hrun
  rintro s s' ⟨idle, lost, h⟩ label hstep
  rcases accounted_step h hstep with ⟨idle', h', _⟩ | ⟨_, lost', h', _⟩
  · exact ⟨idle', lost, h'⟩
  · exact ⟨[], lost', h'⟩

/-- In every reachable state no two threads have the same handle, and no handle of a
thread is idle. -/
theorem handles_exclusive (hrun : System.init.run labels = some s) :
    (s.held.map Prod.snd ++ s.pool.idle).Nodup ∧
      ∀ handle ∈ s.held.map Prod.snd ++ s.pool.idle, handle < s.created := by
  obtain ⟨idle, lost, h⟩ := accounted_run hrun
  rw [HandlePool.idle_eq h.pool]
  refine ⟨(List.nodup_append.mp h.nodup).1, ?_⟩
  intro handle hmem
  rw [← List.mem_range, ← h.handles.mem_iff]
  exact List.mem_append_left _ hmem

/-- One thread waits while another one leaves and comes back. -/
theorem handles_exclusive_two_threads :
    ∃ s, System.init.run [.initHandle 1 true true, .initHandle 2 true true, .endPublicFn 1] =
        some s ∧ s.held.map Prod.snd ++ s.pool.idle = [1, 0] ∧
      (s.held.map Prod.snd ++ s.pool.idle).Nodup ∧
        ∀ handle ∈ s.held.map Prod.snd ++ s.pool.idle, handle < s.created :=
  ⟨_, rfl, by decide, @handles_exclusive _
    [.initHandle 1 true true, .initHandle 2 true true, .endPublicFn 1] rfl⟩

/-- A lost handle stays lost, and no handle is lost after another. -/
theorem lost_iff_of_lost (h : Accounted s idle lost) (hstep : s.step label = some s')
    {handle : Nat} (hlost : s.Lost handle) (other : Nat) : s'.Lost other ↔ s.Lost other := by
  rcases accounted_step h hstep with ⟨idle', h', _⟩ | ⟨⟨_, _, hfull⟩, _⟩
  · exact h.lost_iff_lost h' other
  · exact (hfull.nothing_lost handle hlost).elim

/-- The run lost all handles that existed, in one release. -/
structure LostIn (labels : List Label) (s : System) : Prop where
  at_release : ∃ before after thread s₁, labels = before ++ .endPublicFn thread :: after ∧
    System.init.run before = some s₁ ∧ Full s₁ thread ∧
      ∀ handle, s.Lost handle ↔ handle < s₁.created

/-- Handles are lost at most once in a run: when the last thread that is inside of a
function leaves it and every slot has a handle. -/
theorem lost_once (hrun : System.init.run labels = some s) :
    (∀ handle, ¬ s.Lost handle) ∨ LostIn labels s := by
  induction labels using List.reverseRecOn generalizing s with
  | nil =>
      cases hrun
      refine .inl fun handle => ?_
      rw [accounted_init.lost_iff]
      exact List.not_mem_nil
  | append_singleton labels label ih =>
      obtain ⟨s₁, hlabels, hlabel⟩ := runs_system.concat.mp hrun
      obtain ⟨idle, lost, h⟩ := accounted_run hlabels
      rcases ih hlabels with hnone | ⟨before, after, thread, s₂, rfl, hbefore, hfull, hlost⟩
      · rcases accounted_step h hlabel with ⟨idle', h', _⟩ | ⟨⟨thread, rfl, hfull⟩, lost', h', hall⟩
        · refine .inl fun handle => ?_
          rw [h.lost_iff_lost h']
          exact hnone handle
        · refine .inr ⟨labels, [], thread, s₁, rfl, hlabels, hfull, fun handle => ?_⟩
          rw [h'.lost_iff, hall]
      · have hslots : 0 < s₂.created := by
          obtain ⟨_, _, h₂⟩ := accounted_run hbefore
          have := h₂.eight_le
          have := hfull.created
          omega
        refine .inr ⟨before, after ++ [label], thread, s₂, by simp, hbefore, hfull, ?_⟩
        intro handle
        rw [lost_iff_of_lost h hlabel ((hlost 0).mpr hslots)]
        exact hlost handle

/-- Eight threads are inside of functions at the same time. -/
theorem lost_once_eight :
    ∃ s, System.init.run ((List.range 8).map (.initHandle · true true) ++
        (List.range 8).map .endPublicFn) = some s ∧ s.Lost 0 ∧
      ((∀ handle, ¬ s.Lost handle) ∨ LostIn ((List.range 8).map (.initHandle · true true) ++
        (List.range 8).map .endPublicFn) s) :=
  ⟨_, rfl, by decide, lost_once rfl⟩

/-- While fewer than eight threads are inside of functions, no handle is lost. -/
theorem lost_nothing (hrun : System.init.run labels = some s)
    (hfew : ∀ before after s₁, labels = before ++ after → System.init.run before = some s₁ →
      s₁.held.length < 8) (handle : Nat) : ¬ s.Lost handle := by
  have hinvariant : ∃ idle, Accounted s idle [] ∧ s.created < 8 := by
    refine runs_system.invariant_within (I := fun s => ∃ idle, Accounted s idle [] ∧ s.created < 8)
      (P := fun s => s.held.length < 8) ?_ ⟨[], accounted_init, by decide⟩ hrun hfew
    rintro s s' ⟨idle, h, hcreated⟩ hheld label hstep
    rcases accounted_step h hstep with ⟨idle', h', hidle | rfl⟩ | ⟨⟨_, _, hfull⟩, _⟩
    · exact ⟨idle', h', hidle ▸ hcreated⟩
    · refine ⟨[], h', ?_⟩
      -- a new handle is held by a thread, as all others are
      rw [← h'.length_eq]
      exact hheld
    · have := h.eight_le
      have := hfull.created
      omega
  obtain ⟨idle, h, _⟩ := hinvariant
  rw [h.lost_iff]
  exact List.not_mem_nil

/-- Three threads enter and leave, and one of them comes back. -/
def visits : List Label :=
  [.initHandle 1 true true, .initHandle 2 true true, .endPublicFn 1, .initHandle 3 true true,
    .endPublicFn 2, .initHandle 1 true true, .endPublicFn 3, .endPublicFn 1]

theorem lost_nothing_visits :
    ∃ s, System.init.run visits = some s ∧ s.held = [] ∧ s.created = 2 ∧
      ∀ handle, ¬ s.Lost handle := by
  have hfew : ∀ before after s₁, visits = before ++ after → System.init.run before = some s₁ →
      s₁.held.length < 8 := by
    intro before after s₁ hlabels hbefore
    have htake : ∀ k, k ≤ visits.length → (System.init.run (visits.take k)).all
        (fun s => decide (s.held.length < 8)) = true := by decide
    have hheld := within_of_take htake hlabels hbefore
    exact of_decide_eq_true hheld
  have hrun : ∃ s, System.init.run visits = some s ∧ s.held = [] ∧ s.created = 2 :=
    ⟨_, rfl, rfl, rfl⟩
  obtain ⟨s, hrun, hheld, hcreated⟩ := hrun
  exact ⟨s, hrun, hheld, hcreated, lost_nothing hrun hfew⟩

end OracleNIO.PooledHandles
