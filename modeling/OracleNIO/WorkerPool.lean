import Mathlib.Logic.Function.Basic
import Mathlib.Data.List.Basic

/-!
A pool of threads: tasks wait in a queue, a free thread takes the first one, and a thread
runs one task at a time.
-/

namespace OracleNIO.WorkerPool

variable {τ : Type}

/-- The tasks that wait, those that run, and those that have ended. -/
structure Pool (τ : Type) where
  waiting : List τ
  running : Nat → Option τ
  ended : List τ

namespace Pool

def empty : Pool τ :=
  ⟨[], fun _ => none, []⟩

/-- A task is put into the queue. -/
def submit (p : Pool τ) (t : τ) : Pool τ :=
  { p with waiting := p.waiting ++ [t] }

def set (p : Pool τ) (thread : Nat) (t : Option τ) : Pool τ :=
  { p with running := Function.update p.running thread t }

/-- A free thread takes the task that has waited for longest. -/
def start (size : Nat) (p : Pool τ) (thread : Nat) : Option (Pool τ) :=
  match p.running thread, p.waiting with
  | none, t :: waiting =>
      if thread < size then some { p.set thread (some t) with waiting } else none
  | _, _ => none

/-- The task of the thread ends. -/
def finish (p : Pool τ) (thread : Nat) (t : τ) : Pool τ :=
  { p.set thread none with ended := p.ended ++ [t] }

def setEnded (p : Pool τ) (index : Nat) (t : τ) : Pool τ :=
  { p with ended := p.ended.set index t }

/-- A task in the pool, wherever it is. -/
def Contains (p : Pool τ) (t : τ) : Prop :=
  t ∈ p.waiting ∨ (∃ thread, p.running thread = some t) ∨ t ∈ p.ended

/-- What holds of the tasks that wait, of those that a thread runs, and of those that have
ended. -/
structure Satisfies (W : τ → Prop) (R : Nat → τ → Prop) (E : τ → Prop) (p : Pool τ) : Prop where
  waiting : ∀ t ∈ p.waiting, W t
  running : ∀ thread t, p.running thread = some t → R thread t
  ended : ∀ t ∈ p.ended, E t

section Satisfies

variable {W : τ → Prop} {R R' : Nat → τ → Prop} {E : τ → Prop} {p p' : Pool τ} {thread : Nat}
  {t : τ}

theorem satisfies_empty (W : τ → Prop) (R : Nat → τ → Prop) (E : τ → Prop) :
    (empty : Pool τ).Satisfies W R E :=
  ⟨nofun, nofun, nofun⟩

theorem Satisfies.submit (h : p.Satisfies W R E) (ht : W t) :
    (p.submit t).Satisfies W R E := by
  refine ⟨?_, h.running, h.ended⟩
  intro t' ht'
  rcases List.mem_append.mp ht' with ht' | ht'
  · exact h.waiting t' ht'
  · rwa [List.mem_singleton.mp ht']

theorem Satisfies.set (h : p.Satisfies W R E) (ht : R' thread t)
    (hothers : ∀ i t, i ≠ thread → R i t → R' i t) :
    (p.set thread (some t)).Satisfies W R' E := by
  refine ⟨h.waiting, ?_, h.ended⟩
  intro i t' ht'
  change Function.update p.running thread (some t) i = some t' at ht'
  by_cases hi : i = thread
  · rw [hi, Function.update_self] at ht'
    cases ht'
    rwa [hi]
  · rw [Function.update_of_ne hi] at ht'
    exact hothers i t' hi (h.running i t' ht')

theorem Satisfies.start (h : p.Satisfies W R E) {size : Nat}
    (hstart : p.start size thread = some p') (ht : ∀ t, W t → R thread t) :
    p'.Satisfies W R E := by
  unfold Pool.start at hstart
  split at hstart
  case h_2 => cases hstart
  case h_1 t waiting _ hwaiting =>
      split at hstart
      case isFalse => cases hstart
      case isTrue =>
          cases hstart
          have hfirst : W t := h.waiting t (by simp [hwaiting])
          refine ⟨?_, (h.set (ht t hfirst) fun _ _ _ hR => hR).running, h.ended⟩
          intro t' ht'
          exact h.waiting t' (by simp [hwaiting, ht'])

theorem Satisfies.finish (h : p.Satisfies W R E) (ht : E t) :
    (p.finish thread t).Satisfies W R E := by
  refine ⟨h.waiting, ?_, ?_⟩
  · intro i t' ht'
    change Function.update p.running thread none i = some t' at ht'
    by_cases hi : i = thread
    · rw [hi, Function.update_self] at ht'
      cases ht'
    · rw [Function.update_of_ne hi] at ht'
      exact h.running i t' ht'
  · intro t' ht'
    rcases List.mem_append.mp ht' with ht' | ht'
    · exact h.ended t' ht'
    · rwa [List.mem_singleton.mp ht']

theorem Satisfies.setEnded (h : p.Satisfies W R E) {index : Nat} (ht : E t) :
    (p.setEnded index t).Satisfies W R E := by
  refine ⟨h.waiting, h.running, ?_⟩
  intro t' ht'
  rcases List.mem_or_eq_of_mem_set ht' with ht' | rfl
  · exact h.ended t' ht'
  · exact ht

theorem Satisfies.of_contains {P : τ → Prop} (h : p.Satisfies W R E) (ht : p.Contains t)
    (hW : ∀ t, W t → P t) (hR : ∀ thread t, R thread t → P t) (hE : ∀ t, E t → P t) : P t := by
  rcases ht with ht | ⟨thread, ht⟩ | ht
  · exact hW t (h.waiting t ht)
  · exact hR thread t (h.running thread t ht)
  · exact hE t (h.ended t ht)

end Satisfies

end Pool

end OracleNIO.WorkerPool
