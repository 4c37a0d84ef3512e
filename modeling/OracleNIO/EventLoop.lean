import Mathlib.Logic.Function.Basic
import Mathlib.Data.List.Basic

/-!
An event loop: a queue of jobs that are run in the order in which they were enqueued,
and promises, named by numbers, that are completed on the loop.
-/

namespace OracleNIO.EventLoop

variable {κ ε ω : Type}

/-- A callback on a future: `cascade`, or that of `reduce`. -/
inductive Observer where
  | cascade (promise : Nat)
  | reduce (promise : Nat)
deriving DecidableEq, Repr

/-- The promises with what waits for them.  `remaining` counts the results that a
reduction still waits for; `callbacks` are to be run before the next job. -/
structure Promises (ε : Type) where
  result : Nat → Option (Except ε Unit)
  observers : Nat → List Observer
  remaining : Nat → Nat
  callbacks : List (Observer × Except ε Unit)

namespace Promises

def init : Promises ε := ⟨fun _ => none, fun _ => [], fun _ => 0, []⟩

/-- `succeed` or `fail` -/
def complete (p : Promises ε) (promise : Nat) (r : Except ε Unit) : Promises ε :=
  match p.result promise with
  -- completing it a second time has no effect
  | some _ => p
  | none =>
      { p with
        result := Function.update p.result promise (some r)
        observers := Function.update p.observers promise []
        callbacks := p.callbacks ++ (p.observers promise).map fun observer => (observer, r) }

def processResult (p : Promises ε) (promise : Nat) : Except ε Unit → Promises ε
  | .ok () =>
      let remaining := p.remaining promise - 1
      let p := { p with remaining := Function.update p.remaining promise remaining }
      if remaining = 0 then p.complete promise (.ok ()) else p
  | .error e => p.complete promise (.error e)

/-- The callback is called with the result. -/
def notify (p : Promises ε) (r : Except ε Unit) : Observer → Promises ε
  | .cascade promise => p.complete promise r
  | .reduce promise => p.processResult promise r

/-- A callback is added; where the future has a result it is called at once. -/
def whenComplete (p : Promises ε) (future : Nat) (observer : Observer) : Promises ε :=
  match p.result future with
  | some r => p.notify r observer
  | none =>
      { p with
        observers := Function.update p.observers future (p.observers future ++ [observer]) }

def scan (promise : Nat) : List Nat → Promises ε → Promises ε
  | [], p => p
  | future :: futures, p =>
      match p.result future with
      | some (.error e) => p.processResult promise (.error e)
      | some (.ok ()) => scan promise futures (p.processResult promise (.ok ()))
      | none => scan promise futures (p.whenComplete future (.reduce promise))

def reduce (p : Promises ε) (futures : List Nat) (promise : Nat) : Promises ε :=
  match futures with
  | [] => p.complete promise (.ok ())
  | _ :: _ =>
      scan promise futures
        { p with remaining := Function.update p.remaining promise futures.length }

end Promises

/-- `task` is code of the user: executed as it is, or submitted with a promise for its
result. -/
inductive Job (κ ε : Type) where
  | execute (task : κ)
  | submit (task : κ) (promise : Nat)
  | reduce (futures : List Nat) (promise : Nat)
  | whenComplete (future : Nat) (observer : Observer)
  | complete (promise : Nat) (result : Except ε Unit)

def Job.run (perform : κ → ω → Except ε Unit × ω) :
    Job κ ε → Promises ε × ω → Promises ε × ω
  | .execute task, (p, w) => (p, (perform task w).2)
  | .submit task promise, (p, w) => (p.complete promise (perform task w).1, (perform task w).2)
  | .reduce futures promise, (p, w) => (p.reduce futures promise, w)
  | .whenComplete future observer, (p, w) => (p.whenComplete future observer, w)
  | .complete promise r, (p, w) => (p.complete promise r, w)

/-- The promise that is handed out next, the queue, and the state of the promises. -/
structure Loop (κ ε : Type) where
  next : Nat
  queue : List (Job κ ε)
  promises : Promises ε

namespace Loop

def enqueue (l : Loop κ ε) (job : Job κ ε) : Loop κ ε :=
  { l with queue := l.queue ++ [job] }

/-- What the loop does next; `none` if it is idle. -/
def turn (perform : κ → ω → Except ε Unit × ω) (l : Loop κ ε) (w : ω) :
    Option (Loop κ ε × ω) :=
  match l.promises.callbacks, l.queue with
  | (observer, r) :: callbacks, _ =>
      some ({ l with promises := { l.promises with callbacks }.notify r observer }, w)
  | [], job :: queue =>
      let (promises, w) := job.run perform (l.promises, w)
      some ({ l with queue, promises }, w)
  | [], [] => none

end Loop

/-- The jobs are run in order. -/
def runAll (perform : κ → ω → Except ε Unit × ω) (jobs : List (Job κ ε))
    (s : Promises ε × ω) : Promises ε × ω :=
  jobs.foldl (fun s job => job.run perform s) s

/-- Of the jobs enqueued, those not in the queue any more have been run in order. -/
def Ran (perform : κ → ω → Except ε Unit × ω) (start : Promises ε × ω)
    (enqueued : List (Job κ ε)) (l : Loop κ ε) (w : ω) : Prop :=
  ∃ executed, enqueued = executed ++ l.queue ∧
    runAll perform executed start = (l.promises, w)

section Fifo

variable {perform : κ → ω → Except ε Unit × ω} {start : Promises ε × ω}
  {enqueued : List (Job κ ε)} {l : Loop κ ε} {w : ω}

theorem runAll_append (executed rest : List (Job κ ε)) (s : Promises ε × ω) :
    runAll perform (executed ++ rest) s = runAll perform rest (runAll perform executed s) :=
  List.foldl_append

theorem ran_append (h : Ran perform start enqueued l w) {l' : Loop κ ε}
    {js : List (Job κ ε)} (hqueue : l'.queue = l.queue ++ js)
    (hpromises : l'.promises = l.promises) : Ran perform start (enqueued ++ js) l' w := by
  rcases h with ⟨executed, rfl, hrun⟩
  refine ⟨executed, ?_, ?_⟩
  · rw [hqueue, List.append_assoc]
  · rw [hpromises]
    exact hrun

theorem ran_turn (h : Ran perform start enqueued l w) (hcallbacks : l.promises.callbacks = [])
    {l' : Loop κ ε} {w' : ω} (hturn : l.turn perform w = some (l', w')) :
    Ran perform start enqueued l' w' ∧ l'.next = l.next := by
  rcases h with ⟨executed, rfl, hrun⟩
  unfold Loop.turn at hturn
  rw [hcallbacks] at hturn
  cases hqueue : l.queue with
  | nil =>
      rw [hqueue] at hturn
      cases hturn
  | cons job queue =>
      rw [hqueue] at hturn
      cases hturn
      refine ⟨⟨executed ++ [job], ?_, ?_⟩, rfl⟩
      · rw [List.append_assoc]
        rfl
      · rw [runAll_append, hrun]
        rfl

end Fifo

/-- No callback is due, and none is registered. -/
structure Quiet (p : Promises ε) : Prop where
  callbacks : p.callbacks = []
  observers : ∀ promise, p.observers promise = []

namespace Quiet

variable {p : Promises ε}

theorem complete (hp : Quiet p) (promise : Nat) (r : Except ε Unit) :
    Quiet (p.complete promise r) := by
  unfold Promises.complete
  split
  · exact hp
  · constructor
    · simp [hp.callbacks, hp.observers]
    · intro n
      by_cases hn : n = promise
      · simp [hn]
      · simp [hn, hp.observers n]

theorem result_complete {promise : Nat} (hnone : p.result promise = none)
    (r : Except ε Unit) :
    (p.complete promise r).result = Function.update p.result promise (some r) := by
  unfold Promises.complete
  rw [hnone]

end Quiet

/-- The first error, or success where there is none. -/
def firstError : List (Except ε Unit) → Except ε Unit
  | [] => .ok ()
  | .ok () :: rs => firstError rs
  | .error e :: _ => .error e

theorem firstError_eq_ok {rs : List (Except ε Unit)} :
    firstError rs = .ok () ↔ ∀ r ∈ rs, r = .ok () := by
  induction rs with
  | nil => simp [firstError]
  | cons r rs ih =>
      cases r with
      | ok _ => simpa [firstError] using ih
      | error e => simp [firstError]

theorem scan_complete {promise : Nat} {futures : List Nat} {rs : List (Except ε Unit)}
    {p : Promises ε} (hp : Quiet p) (hnone : p.result promise = none)
    (hresults : futures.map p.result = rs.map some)
    (hremaining : p.remaining promise = futures.length) (hne : futures ≠ []) :
    Quiet (p.scan promise futures) ∧
      (p.scan promise futures).result =
        Function.update p.result promise (some (firstError rs)) := by
  induction futures generalizing rs p with
  | nil => exact absurd rfl hne
  | cons future futures ih =>
      obtain ⟨r, rs, rfl⟩ : ∃ r rs', rs = r :: rs' := by
        cases rs with
        | nil => cases hresults
        | cons r rs => exact ⟨r, rs, rfl⟩
      obtain ⟨hfuture, hrest⟩ := List.cons_eq_cons.mp hresults
      unfold Promises.scan
      rw [hfuture]
      cases r with
      | error e => exact ⟨hp.complete promise _, Quiet.result_complete hnone _⟩
      | ok _ =>
          simp only [Promises.processResult, hremaining, List.length_cons,
            Nat.add_sub_cancel]
          cases futures with
          | nil =>
              cases rs with
              | cons _ _ => cases hrest
              | nil =>
                  rw [if_pos (by rfl)]
                  constructor
                  · change Quiet (Promises.complete _ promise _)
                    apply Quiet.complete
                    exact ⟨hp.callbacks, hp.observers⟩
                  · change (Promises.complete _ promise _).result = _
                    apply Quiet.result_complete
                    exact hnone
          | cons future' futures =>
              rw [if_neg (by simp)]
              change _ ∧ _ = Function.update p.result promise (some (firstError rs))
              exact ih ⟨hp.callbacks, hp.observers⟩ hnone hrest (by simp) (by simp)

/-- A reduction of futures that are all complete takes over their first failure. -/
theorem reduce_complete {promise : Nat} {futures : List Nat} {rs : List (Except ε Unit)}
    {p : Promises ε} (hp : Quiet p) (hnone : p.result promise = none)
    (hresults : futures.map p.result = rs.map some) :
    Quiet (p.reduce futures promise) ∧
      (p.reduce futures promise).result =
        Function.update p.result promise (some (firstError rs)) := by
  cases futures with
  | nil =>
      cases rs with
      | nil => exact ⟨hp.complete promise _, Quiet.result_complete hnone _⟩
      | cons _ _ => cases hresults
  | cons future futures =>
      exact scan_complete ⟨hp.callbacks, hp.observers⟩ hnone hresults (by simp) (by simp)

theorem cascade_complete {future promise : Nat} {r : Except ε Unit} {p : Promises ε}
    (hp : Quiet p) (hfuture : p.result future = some r) (hnone : p.result promise = none) :
    Quiet (p.whenComplete future (.cascade promise)) ∧
      (p.whenComplete future (.cascade promise)).result =
        Function.update p.result promise (some r) := by
  unfold Promises.whenComplete
  rw [hfuture]
  exact ⟨hp.complete promise r, Quiet.result_complete hnone r⟩

/-- The tasks are performed in order. -/
def performAll (perform : κ → ω → Except ε Unit × ω) :
    List κ → ω → List (Except ε Unit) × ω
  | [], w => ([], w)
  | task :: tasks, w =>
      let (r, w) := perform task w
      let (rs, w) := performAll perform tasks w
      (r :: rs, w)

def submitJob (submitted : κ × Nat) : Job κ ε :=
  .submit submitted.1 submitted.2

theorem runAll_submit (perform : κ → ω → Except ε Unit × ω) {submitted : List (κ × Nat)}
    (hnodup : (submitted.map Prod.snd).Nodup) {p : Promises ε} (hp : Quiet p)
    (hnone : ∀ promise ∈ submitted.map Prod.snd, p.result promise = none) (w : ω) :
    ∃ p', runAll perform (submitted.map submitJob) (p, w) =
        (p', (performAll perform (submitted.map Prod.fst) w).2) ∧ Quiet p' ∧
      (submitted.map Prod.snd).map p'.result =
        (performAll perform (submitted.map Prod.fst) w).1.map some ∧
      ∀ promise ∉ submitted.map Prod.snd, p'.result promise = p.result promise := by
  induction submitted generalizing p w with
  | nil => exact ⟨p, rfl, hp, rfl, fun _ _ => rfl⟩
  | cons head submitted ih =>
      rcases head with ⟨task, promise⟩
      simp only [List.map_cons, List.nodup_cons] at hnodup
      simp only [List.map_cons, List.forall_mem_cons] at hnone
      rcases hnodup with ⟨hnew, hnodup⟩
      rcases hnone with ⟨hpromise, hnone⟩
      have hresult := Quiet.result_complete hpromise (perform task w).1
      have hfresh : ∀ n ∈ submitted.map Prod.snd,
          (p.complete promise (perform task w).1).result n = none := by
        intro n hn
        rw [hresult, Function.update_of_ne (ne_of_mem_of_not_mem hn hnew)]
        exact hnone n hn
      obtain ⟨p', hrun, hquiet, hresults, hothers⟩ :=
        ih hnodup (hp.complete promise _) hfresh (perform task w).2
      refine ⟨p', hrun, hquiet, ?_, ?_⟩
      · simp only [List.map_cons, performAll]
        rw [hresults, hothers promise hnew, hresult, Function.update_self]
      · intro n hn
        simp only [List.map_cons, List.mem_cons, not_or] at hn
        rw [hothers n hn.2, hresult, Function.update_of_ne hn.1]

end OracleNIO.EventLoop
