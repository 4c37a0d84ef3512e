import OracleNIO.ClosedHandle
import OracleNIO.ConnectRuns
import OracleNIO.LabelledRuns

/-!
The calls of ODPI-C on one connection that are in progress at the same time, each call with
a step at which it begins and one at which it ends.
-/

namespace OracleNIO.OverlappingCalls

open Interaction Prog SwiftRuntime EventLoop Dpi OracleConnection ClosedHandle ConnectRuns
  LabelledRuns

section Running

variable {rt : Runtime} {numberOfThreads : Nat} {s s' : System}

/-- A free thread starts a task, a thread performs an operation, or a thread comes to the
end of the body of its task. -/
inductive Moves (numberOfThreads : Nat) (s : System) : ClosedHandle.Label → Nat → Prop
  | start {thread} : s.running thread = none → thread < numberOfThreads →
      Moves numberOfThreads s (.start thread) thread
  | perform {thread t e next} : s.running thread = some t → t.task = .call e.op next →
      Moves numberOfThreads s (.pool thread e) thread
  | restart {thread t a} : s.running thread = some t → t.task = .pure a →
      Moves numberOfThreads s (.restart thread) thread
  | finish {thread t a} : s.running thread = some t → t.task = .pure a →
      Moves numberOfThreads s (.finish thread) thread

theorem running_step {label : ClosedHandle.Label}
    (hstep : s.step rt numberOfThreads label = some s') :
    s'.running = s.running ∧ (∀ thread, label ≠ .start thread) ∨
      ∃ thread t, Moves numberOfThreads s label thread ∧
        s'.running = Function.update s.running thread t := by
  cases stepped_of_step hstep with
  | query q =>
      refine .inl ⟨rfl, ?_⟩
      rintro thread ⟨⟩
  | close =>
      refine .inl ⟨rfl, ?_⟩
      rintro thread ⟨⟩
  | start hidle _ hthread => exact .inr ⟨_, _, .start hidle hthread, rfl⟩
  | pool ht htask _ _ =>
      obtain ⟨next, hcall, _⟩ := advance_eq_some htask
      exact .inr ⟨_, _, .perform ht hcall, rfl⟩
  | restart ht => exact .inr ⟨_, _, .restart ht rfl, rfl⟩
  | finish ht => exact .inr ⟨_, none, .finish ht rfl, rfl⟩
  | loop _ =>
      refine .inl ⟨rfl, ?_⟩
      rintro thread ⟨⟩

theorem step_mono {n m : Nat} (hnm : n ≤ m) {label : ClosedHandle.Label}
    (hstep : s.step rt n label = some s') : s.step rt m label = some s' := by
  cases label with
  | start thread =>
      simp only [System.step] at hstep ⊢
      split at hstep
      case h_2 => cases hstep
      case h_1 =>
          split at hstep
          case isFalse => cases hstep
          case isTrue hthread =>
              rw [if_pos (hthread.trans_le hnm)]
              exact hstep
  | _ => exact hstep

end Running

/-- The call works on the connection or on what belongs to it. -/
def onConnection : DpiCall → Bool
  | .contextCreateWithParams .. | .contextDestroy _ | .contextGetError _ | .connCreate .. => false
  | _ => true

/-- The call of ODPI-C, if the operation is one. -/
def call? : Op → Option DpiCall
  | .dpi c => some c
  | _ => none

/-- The pool with the calls that have begun and not ended. -/
structure Calling where
  system : System
  calls : Nat → Option DpiCall

/-- A call begins, or a step of the pool, of which a call that returns is one. -/
inductive Label where
  | begin (thread : Nat)
  | own (label : ClosedHandle.Label)

namespace Calling

/-- No call is under way. -/
def init (connection : OracleConnection) : Calling :=
  ⟨.init connection, fun _ => none⟩

/-- A call begins before it returns. -/
def step (rt : Runtime) (numberOfThreads : Nat) (s : Calling) : Label → Option Calling
  | .begin thread =>
      match s.system.running thread, s.calls thread with
      | some ⟨_, .call (.dpi c) _, _⟩, none =>
          some { s with calls := Function.update s.calls thread (some c) }
      | _, _ => none
  -- a call ends with its reply
  | .own (.pool thread e) =>
      if s.calls thread = call? e.op then
        (s.system.step rt numberOfThreads (.pool thread e)).map fun system =>
          ⟨system, Function.update s.calls thread none⟩
      else none
  | .own label =>
      (s.system.step rt numberOfThreads label).map fun system => { s with system }

def run (rt : Runtime) (numberOfThreads : Nat) : Calling → List Label → Option Calling
  | s, [] => some s
  | s, label :: labels => (s.step rt numberOfThreads label).bind fun s' =>
      s'.run rt numberOfThreads labels

/-- At most one call on the connection or on a statement of it is in progress. -/
def AtMostOne (s : Calling) : Prop :=
  ∀ i j c c', s.calls i = some c → s.calls j = some c' → onConnection c = true →
    onConnection c' = true → i = j

/-- No task is started while a thread runs another one. -/
def Sole (s : Calling) : Label → Prop
  | .own (.start _) => ∀ i, s.system.running i = none
  | _ => True

/-- A run whose tasks do not overlap. -/
inductive SoleRun (rt : Runtime) (numberOfThreads : Nat) : Calling → List Label → Calling → Prop
  | nil {s} : SoleRun rt numberOfThreads s [] s
  | cons {s s₁ s' label labels} : s.Sole label → s.step rt numberOfThreads label = some s₁ →
      SoleRun rt numberOfThreads s₁ labels s' → SoleRun rt numberOfThreads s (label :: labels) s'

end Calling

/-- A call in progress is the next operation of a task, and only one thread runs a task. -/
structure Invariant (s : Calling) : Prop where
  calls : ∀ i c, s.calls i = some c →
    ∃ t next, s.system.running i = some t ∧ t.task = .call (.dpi c) next
  alone : ∀ i j, s.system.running i ≠ none → s.system.running j ≠ none → i = j

theorem Invariant.atMostOne {s : Calling} (h : Invariant s) : s.AtMostOne := by
  intro i j c c' hi hj _ _
  obtain ⟨t, _, ht, _⟩ := h.calls i c hi
  obtain ⟨t', _, ht', _⟩ := h.calls j c' hj
  exact h.alone i j (by simp [ht]) (by simp [ht'])

variable {rt : Runtime} {numberOfThreads : Nat} {s s' : Calling}

theorem step_own {label : ClosedHandle.Label}
    (hstep : s.step rt numberOfThreads (.own label) = some s') :
    s.system.step rt numberOfThreads label = some s'.system ∧
      ∀ i c, s'.calls i = some c → s.calls i = some c ∧ ∀ e, label ≠ .pool i e := by
  cases label with
  | pool thread e =>
      simp only [Calling.step] at hstep
      split at hstep
      case isFalse => cases hstep
      case isTrue =>
          obtain ⟨system, hsystem, rfl⟩ := Option.map_eq_some_iff.mp hstep
          refine ⟨hsystem, ?_⟩
          intro i c hc
          change Function.update s.calls thread none i = some c at hc
          by_cases hi : i = thread
          · rw [hi, Function.update_self] at hc
            cases hc
          · rw [Function.update_of_ne hi] at hc
            refine ⟨hc, ?_⟩
            rintro e' ⟨⟩
            exact hi rfl
  | _ =>
      simp only [Calling.step, Option.map_eq_some_iff] at hstep
      obtain ⟨system, hsystem, rfl⟩ := hstep
      exact ⟨hsystem, fun i c hc => ⟨hc, fun _ => nofun⟩⟩

theorem step_begin {thread : Nat}
    (hstep : s.step rt numberOfThreads (.begin thread) = some s') :
    ∃ t c next, s.system.running thread = some t ∧ t.task = .call (.dpi c) next ∧
      s' = { s with calls := Function.update s.calls thread (some c) } := by
  simp only [Calling.step] at hstep
  split at hstep
  case h_2 => cases hstep
  case h_1 promise c next history ht _ =>
      cases hstep
      exact ⟨_, c, next, ht, rfl, rfl⟩

theorem Invariant.init (connection : OracleConnection) : Invariant (.init connection) where
  calls _ _ := nofun
  alone _ _ hi := absurd rfl hi

theorem invariant_own (h : Invariant s) {label : ClosedHandle.Label} (hsole : s.Sole (.own label))
    (hstep : s.step rt numberOfThreads (.own label) = some s') : Invariant s' := by
  obtain ⟨hsystem, hcalls⟩ := step_own hstep
  obtain ⟨hrunning, _⟩ | ⟨thread, t', hmoves, hrunning⟩ := running_step hsystem
  · constructor
    · intro i c hc
      rw [hrunning]
      exact h.calls i c (hcalls i c hc).1
    · rw [hrunning]
      exact h.alone
  · constructor
    · intro i c hc
      obtain ⟨hc, hlabel⟩ := hcalls i c hc
      obtain ⟨t, next, ht, hcall⟩ := h.calls i c hc
      have hi : i ≠ thread := by
        -- a thread that has begun a call can only end it
        rintro rfl
        cases hmoves with
        | start hnone _ =>
            rw [hnone] at ht
            cases ht
        | perform _ _ => exact hlabel _ rfl
        | restart ht' hpure =>
            cases ht.symm.trans ht'
            cases hcall.symm.trans hpure
        | finish ht' hpure =>
            cases ht.symm.trans ht'
            cases hcall.symm.trans hpure
      rw [hrunning, Function.update_of_ne hi]
      exact ⟨t, next, ht, hcall⟩
    · have halone : ∀ j, s.system.running j ≠ none → thread = j := by
        intro j hj
        cases hmoves with
        | start _ _ => exact absurd (hsole j) hj
        | perform ht _ => exact h.alone thread j (by simp [ht]) hj
        | restart ht _ => exact h.alone thread j (by simp [ht]) hj
        | finish ht _ => exact h.alone thread j (by simp [ht]) hj
      have hthread : ∀ j, s'.system.running j ≠ none → j = thread := by
        intro j hj
        rw [hrunning] at hj
        by_cases hne : j = thread
        · exact hne
        · rw [Function.update_of_ne hne] at hj
          exact (halone j hj).symm
      intro i j hi hj
      rw [hthread i hi, hthread j hj]

theorem invariant_step (h : Invariant s) {label : Label} (hsole : s.Sole label)
    (hstep : s.step rt numberOfThreads label = some s') : Invariant s' := by
  cases label with
  | own label => exact invariant_own h hsole hstep
  | «begin» thread =>
      obtain ⟨t, c, next, ht, hcall, rfl⟩ := step_begin hstep
      refine ⟨?_, h.alone⟩
      intro i c' hc
      change Function.update s.calls thread (some c) i = some c' at hc
      by_cases hi : i = thread
      · rw [hi, Function.update_self] at hc
        cases hc
        exact ⟨t, next, hi ▸ ht, hcall⟩
      · rw [Function.update_of_ne hi] at hc
        exact h.calls i c' hc

theorem invariant_soleRun {labels : List Label} (h : Invariant s)
    (hrun : Calling.SoleRun rt numberOfThreads s labels s') : Invariant s' := by
  induction hrun with
  | nil => exact h
  | cons hsole hstep _ ih => exact ih (invariant_step h hsole hstep)

/-- Tasks run on the threads of the pool. -/
def Bound (numberOfThreads : Nat) (s : Calling) : Prop :=
  ∀ i, s.system.running i ≠ none → i < numberOfThreads

theorem bound_step (h : Bound numberOfThreads s) {label : Label}
    (hstep : s.step rt numberOfThreads label = some s') : Bound numberOfThreads s' := by
  cases label with
  | «begin» thread =>
      obtain ⟨t, c, next, ht, hcall, rfl⟩ := step_begin hstep
      exact h
  | own label =>
      obtain ⟨hrunning, _⟩ | ⟨thread, t', hmoves, hrunning⟩ := running_step (step_own hstep).1
      · unfold Bound
        rw [hrunning]
        exact h
      · intro i hi
        rw [hrunning] at hi
        by_cases hne : i = thread
        · rw [hne]
          cases hmoves with
          | start _ hthread => exact hthread
          | perform ht _ => exact h thread (by simp [ht])
          | restart ht _ => exact h thread (by simp [ht])
          | finish ht _ => exact h thread (by simp [ht])
        · rw [Function.update_of_ne hne] at hi
          exact h i hi

/-- On a single thread the tasks run one after the other. -/
theorem sole_of_le_one (hn : numberOfThreads ≤ 1) (h : Bound numberOfThreads s) {label : Label}
    (hstep : s.step rt numberOfThreads label = some s') : s.Sole label := by
  cases label with
  | «begin» thread => trivial
  | own label =>
      cases label with
      | start thread =>
          intro i
          by_contra hi
          have hbound := h i hi
          obtain ⟨_, hlabel⟩ | ⟨_, _, hmoves, _⟩ := running_step (step_own hstep).1
          · exact hlabel thread rfl
          · cases hmoves with
            | start hnone hthread =>
                obtain rfl : i = thread := by omega
                exact hi hnone
      | _ => trivial

theorem soleRun_of_le_one (hn : numberOfThreads ≤ 1) {labels : List Label}
    (h : Bound numberOfThreads s) (hrun : s.run rt numberOfThreads labels = some s') :
    Calling.SoleRun rt numberOfThreads s labels s' := by
  induction labels generalizing s with
  | nil =>
      cases hrun
      exact .nil
  | cons label labels ih =>
      obtain ⟨s₁, hstep, hrest⟩ := Option.bind_eq_some_iff.mp hrun
      exact .cons (sole_of_le_one hn h hstep) hstep (ih (bound_step h hstep) hrest)

theorem mono_step {n m : Nat} (hnm : n ≤ m) {label : Label}
    (hstep : s.step rt n label = some s') : s.step rt m label = some s' := by
  cases label with
  | «begin» thread => exact hstep
  | own label =>
      cases label with
      | pool thread e =>
          simp only [Calling.step] at hstep ⊢
          split at hstep
          case isFalse => cases hstep
          case isTrue h =>
              rw [if_pos h]
              exact hstep
      | _ =>
          simp only [Calling.step, Option.map_eq_some_iff] at hstep ⊢
          obtain ⟨system, hsystem, rfl⟩ := hstep
          exact ⟨system, step_mono hnm hsystem, rfl⟩

theorem runs_calling (rt : Runtime) (numberOfThreads : Nat) :
    Runs (Calling.step rt numberOfThreads) (Calling.run rt numberOfThreads) :=
  ⟨fun _ => rfl, fun _ _ _ => rfl⟩

theorem mono_run {n m : Nat} (hnm : n ≤ m) {labels : List Label}
    (hrun : s.run rt n labels = some s') : s.run rt m labels = some s' :=
  (runs_calling rt n).mono (runs_calling rt m) (mono_step hnm) hrun

/-- Two closes whose calls are in progress together. -/
def closesTogether : List Label :=
  [.own .close, .own .close, .own (.start 0), .own (.start 1),
    .own (.pool 0 ⟨.readHandle, some ⟨1⟩⟩), .own (.pool 1 ⟨.readHandle, some ⟨1⟩⟩), .begin 0,
    .begin 1]

theorem run_closesTogether (rt : Runtime) :
    ∃ s, (Calling.init connected).run rt 2 closesTogether = some s ∧
      s.calls 0 = some (.connClose (some ⟨1⟩) 0) ∧ s.calls 1 = some (.connClose (some ⟨1⟩) 0) :=
  ⟨_, rfl, rfl, rfl⟩

/-- In every run whose tasks do not overlap at most one call is in progress; and this is so
in all runs exactly if the pool has at most one thread. -/
theorem at_most_one_iff (rt : Runtime) :
    (∀ numberOfThreads connection labels s,
      Calling.SoleRun rt numberOfThreads (.init connection) labels s → s.AtMostOne) ∧
    ∀ numberOfThreads, (∀ connection labels s,
      (Calling.init connection).run rt numberOfThreads labels = some s → s.AtMostOne) ↔
        numberOfThreads ≤ 1 := by
  constructor
  · intro _ connection _ _ hrun
    exact (invariant_soleRun (.init connection) hrun).atMostOne
  · intro numberOfThreads
    constructor
    · intro hall
      by_contra hn
      obtain ⟨s, hrun, hzero, hone⟩ := run_closesTogether rt
      have hsame := hall _ _ s (mono_run (by omega) hrun) 0 1 _ _ hzero hone rfl rfl
      cases hsame
    · intro hn connection labels s hrun
      have hsole := soleRun_of_le_one hn (fun i hi => absurd rfl hi) hrun
      exact (invariant_soleRun (.init connection) hsole).atMostOne

def selectOne : OracleQuery := ⟨"SELECT 1", ⟨[]⟩⟩

def prepareOne : DpiCall := .connPrepareStmt ⟨1⟩ ⟨ByteMemory.utf8 "SELECT 1" ++ [0], 8⟩

/-- Two queries, whose first calls are both under way. -/
def queriesTogether : List Label :=
  [.own (.query selectOne), .own (.query selectOne), .own (.start 0), .own (.start 1),
    .own (.pool 0 ⟨.readHandle, some ⟨1⟩⟩), .begin 0,
    .own (.pool 1 ⟨.readHandle, some ⟨1⟩⟩), .begin 1]

/-- On a pool of two threads two queries prepare their statements at the same time. -/
theorem queries_overlap :
    ∃ s, (Calling.init connected).run asciiRuntime 2 queriesTogether = some s ∧
      ¬ s.AtMostOne := by
  have hrun : ((Calling.init connected).run asciiRuntime 2 queriesTogether).map
      (fun s => (s.calls 0, s.calls 1)) = some (some prepareOne, some prepareOne) := by
    decide +kernel
  obtain ⟨s, hs, hcalls⟩ := Option.map_eq_some_iff.mp hrun
  obtain ⟨hzero, hone⟩ := Prod.mk.inj hcalls
  refine ⟨s, hs, fun h => ?_⟩
  have hsame := h 0 1 _ _ hzero hone rfl rfl
  cases hsame

/-- A `close` whose first call is under way. -/
def closeAlone : List Label :=
  [.own .close, .own (.start 1), .own (.pool 1 ⟨.readHandle, some ⟨1⟩⟩), .begin 1]

theorem closeAlone_at_most_one (rt : Runtime) :
    ∃ s, Calling.SoleRun rt 2 (.init connected) closeAlone s ∧ s.AtMostOne := by
  obtain ⟨s, hrun⟩ : ∃ s, Calling.SoleRun rt 2 (.init connected) closeAlone s :=
    ⟨_, .cons trivial rfl (.cons (fun _ => rfl) rfl
      (.cons trivial rfl (.cons trivial rfl .nil)))⟩
  exact ⟨s, hrun, (at_most_one_iff rt).1 2 connected closeAlone s hrun⟩

/-- `DPI_MODE_CREATE_THREADED`. -/
def modeCreateThreaded : UInt32 := 0x00000001

/-- Whether `dpiEnv__init` makes the environment of a connection threaded. -/
def threaded (commonParams : Option CommonCreateParams) : Bool :=
  (commonParams.getD initCommonCreateParams).createMode &&& modeCreateThreaded ≠ 0

theorem threaded_none : threaded none = false := by decide

/-- A connection is created in an environment that does not lock its mutex. -/
def Unlocked : Op → Prop
  | .dpi (.connCreate _ _ _ _ commonParams _) => threaded commonParams = false
  | _ => True

theorem connect_unlocked {rt : Runtime} {authorizationMode : AuthorizationMode}
    {username password connectionString : String} {clientLibraryDir : Option String}
    {tr : List TaskEvent} {out : Outcome OracleError OracleConnection}
    (hrun : (connect rt authorizationMode username password connectionString
      clientLibraryDir).Runs tr out) : ∀ e ∈ tr, Unlocked e.op := by
  apply forall_mem_connect (P := fun e => Unlocked e.op) authorizationMode hrun
  · exact fun _ _ => trivial
  · exact fun _ _ _ _ _ _ _ _ => threaded_none
  · exact fun _ _ => trivial

end OracleNIO.OverlappingCalls
