import OracleNIO.DpiGlobal
import OracleNIO.LabelledRuns

/-!
The initialization of ODPI-C by whichever of its threads comes first: it is done once, under
the mutex, and what it has made is there for every thread that finds it done.
-/

namespace OracleNIO.GlobalInitialization

open Dpi ObjectStore LabelledRuns

/-! ### The invariant -/

/-- The thread has the mutex there. -/
def Critical : GlobalPoint → Prop
  | .rechecking | .loading | .creatingEnv | .allocatingError | .creatingKey | .marking
  | .releasing => True
  | _ => False

instance : DecidablePred Critical
  | .rechecking | .loading | .creatingEnv | .allocatingError | .creatingKey | .marking
  | .releasing => isTrue trivial
  | .checking | .acquiring | .checkingAgain | .gettingBuffer | .allocatingBuffer
  | .settingBuffer | .running | .leaving => isFalse id

/-- The environment is there, and the error handle and the thread key are of it. -/
def Ready (s : GlobalState) : Prop :=
  ∃ env, s.envHandle = some env ∧ s.errorHandle = some env ∧ s.threadKey = some env ∧
    get s.environments env = some ()

/-- What a thread can rely on at a point. -/
def HoldsAt (s : GlobalState) (t : Nat) : GlobalPoint → Prop
  | .loading | .creatingEnv => s.initialized = false
  | .allocatingError => s.initialized = false ∧ s.live s.envHandle = true
  | .creatingKey =>
      s.initialized = false ∧ s.live s.envHandle = true ∧ s.errorHandle = s.envHandle
  | .marking => s.initialized = false ∧ Ready s
  | .gettingBuffer => s.initialized = true
  | .allocatingBuffer | .settingBuffer => s.initialized = true ∧ s.buffers t = none
  | _ => True

/-- What every reachable state keeps of a thread. -/
structure ThreadSound (s : GlobalState) (t : Nat) (thread : GlobalThread) : Prop where
  point : HoldsAt s t thread.point
  own : thread.ownBuffer = true →
    thread.point = .running ∧ s.initialized = true ∧ (s.buffers t).isSome = true

/-- What every reachable state keeps. -/
structure Sound (s : GlobalState) : Prop where
  mutex_iff : ∀ t, s.mutex = some t ↔ ∃ thread, s.threads t = some thread ∧ Critical thread.point
  ready : s.initialized = true → Ready s
  threads : ∀ t thread, s.threads t = some thread → ThreadSound s t thread
  faulted : s.faulted = false

theorem sound_init : Sound .init where
  mutex_iff := fun t => by simp [GlobalState.init]
  ready := fun h => by cases h
  threads := fun t thread h => by cases h
  faulted := rfl

/-! ### What a step leaves alone -/

/-- What is made by the initialization. -/
structure Shared where
  envHandle : Option Nat
  errorHandle : Option Nat
  threadKey : Option Nat
  environments : Store Unit
  initialized : Bool

/-- The fields that the initialization writes. -/
def shared (s : GlobalState) : Shared :=
  ⟨s.envHandle, s.errorHandle, s.threadKey, s.environments, s.initialized⟩

/-- The handle is that of an environment that has been freed. -/
def Shared.Stale (made : Shared) : Prop :=
  ∃ env, made.envHandle = some env ∧ get made.environments env = none

/-- What there is after the operation of a point has succeeded. -/
def Shared.made (made : Shared) : GlobalPoint → Shared
  | .creatingEnv =>
      { made with
        envHandle := some made.environments.length
        environments := alloc made.environments () }
  | .allocatingError => { made with errorHandle := made.envHandle }
  | .creatingKey => { made with threadKey := made.envHandle }
  | .marking => { made with initialized := true }
  | _ => made

/-- What is left after it has failed. -/
def Shared.dropped (made : Shared) : GlobalPoint → Shared
  | .creatingEnv => { made with envHandle := none }
  | .allocatingError | .creatingKey =>
      { made with
        environments := (made.envHandle.map (free made.environments)).getD made.environments }
  | _ => made

section Fields

variable {s s' : GlobalState} {t t' : Nat} {thread : GlobalThread} {point : GlobalPoint}
  {error : ErrorSource}

@[simp]
theorem shared_report : shared (s.report t thread error) = shared s := by
  unfold GlobalState.report
  split <;> rfl

@[simp]
theorem threads_report : (s.report t thread error).threads = s.threads := by
  unfold GlobalState.report
  split <;> rfl

@[simp]
theorem mutex_report : (s.report t thread error).mutex = s.mutex := by
  unfold GlobalState.report
  split <;> rfl

@[simp]
theorem faulted_report : (s.report t thread error).faulted = s.faulted := by
  unfold GlobalState.report
  split <;> rfl

theorem buffers_report_of_ne (h : t' ≠ t) :
    (s.report t thread error).buffers t' = s.buffers t' := by
  unfold GlobalState.report
  split
  · exact Function.update_of_ne h ..
  · rfl

theorem buffers_report_of_global (h : thread.ownBuffer = false) :
    (s.report t thread error).buffers = s.buffers := by
  simp [GlobalState.report, h]

@[simp]
theorem shared_failAt : shared (s.failAt t thread error point) = shared s := shared_report

@[simp]
theorem threads_failAt : (s.failAt t thread error point).threads = Function.update s.threads t
    (some { thread with errors := thread.errors ++ [error], point }) := by
  change Function.update (s.report t thread error).threads t _ = _
  rw [threads_report]

@[simp]
theorem mutex_failAt : (s.failAt t thread error point).mutex = s.mutex := mutex_report

@[simp]
theorem faulted_failAt : (s.failAt t thread error point).faulted = s.faulted := faulted_report

theorem buffers_failAt_of_ne (h : t' ≠ t) :
    (s.failAt t thread error point).buffers t' = s.buffers t' := buffers_report_of_ne h

theorem Ready.live (h : Ready s) : s.live s.envHandle = true ∧ s.live s.errorHandle = true ∧
    s.live s.threadKey = true := by
  obtain ⟨env, henv, herror, hkey, hget⟩ := h
  simp [GlobalState.live, henv, herror, hkey, hget]

theorem uses_true : s.uses true = s := by
  rw [GlobalState.uses]
  simp

theorem usesKey_of_ready (h : Ready s) : s.usesKey = s := by
  obtain ⟨henv, herror, hkey⟩ := h.live
  rw [GlobalState.usesKey, henv, herror, hkey]
  exact uses_true

theorem ready_congr (h : shared s' = shared s) : Ready s' ↔ Ready s := by
  obtain ⟨henv, herror, hkey, henvs, -⟩ := Shared.mk.inj h
  rw [Ready, Ready, henv, herror, hkey, henvs]

theorem holdsAt_congr (h : shared s' = shared s) (hbuffers : s'.buffers t = s.buffers t) :
    HoldsAt s' t point ↔ HoldsAt s t point := by
  have hready : Ready s' ↔ Ready s := ready_congr h
  obtain ⟨henv, herror, hkey, henvs, hinit⟩ := Shared.mk.inj h
  cases point <;>
    simp only [HoldsAt, GlobalState.live, henv, herror, henvs, hinit, hbuffers, hready]

theorem ThreadSound.congr (h : ThreadSound s t thread) (hshared : shared s' = shared s)
    (hbuffers : s'.buffers t = s.buffers t) : ThreadSound s' t thread := by
  refine ⟨(holdsAt_congr hshared hbuffers).mpr h.point, ?_⟩
  obtain ⟨-, -, -, -, hinit⟩ := Shared.mk.inj hshared
  rw [hinit, hbuffers]
  exact h.own

/-- Before the initialization is done, what a thread without the mutex relies on does not
depend on the shared state. -/
theorem ThreadSound.outside (h : ThreadSound s t thread) (hinit : s.initialized = false)
    (hpoint : ¬ Critical thread.point) : ThreadSound s' t thread := by
  constructor
  · have hholds := h.point
    cases hp : thread.point <;> rw [hp] at hholds hpoint
    case gettingBuffer => exact absurd (hinit.symm.trans hholds) (by simp)
    case allocatingBuffer => exact absurd (hinit.symm.trans hholds.1) (by simp)
    case settingBuffer => exact absurd (hinit.symm.trans hholds.1) (by simp)
    all_goals first
      | exact trivial
      | exact absurd trivial hpoint
  · intro hown
    exact absurd (hinit.symm.trans (h.own hown).2.1) (by simp)

end Fields

section Steps

variable {s s' : GlobalState} {t : Nat} {thread thread' : GlobalThread} {x : Option GlobalThread}

theorem Sound.mutex_of_critical (h : Sound s) (hthread : s.threads t = some thread)
    (hcritical : Critical thread.point) : s.mutex = some t :=
  (h.mutex_iff t).mpr ⟨thread, hthread, hcritical⟩

theorem Sound.critical_of_mutex (h : Sound s) (hmutex : s.mutex = some t)
    (hthread : s.threads t = some thread) : Critical thread.point := by
  obtain ⟨thread', hthread', hcritical⟩ := (h.mutex_iff t).mp hmutex
  rw [hthread] at hthread'
  cases hthread'
  exact hcritical

theorem Sound.mutex_iff_update (h : Sound s) (hthreads : s'.threads = Function.update s.threads t x)
    (hothers : ∀ other, other ≠ t → (s'.mutex = some other ↔ s.mutex = some other))
    (hself : s'.mutex = some t ↔ ∃ thread, x = some thread ∧ Critical thread.point)
    (other : Nat) :
    s'.mutex = some other ↔ ∃ thread, s'.threads other = some thread ∧ Critical thread.point := by
  rw [hthreads]
  by_cases heq : other = t
  · rw [heq, Function.update_self]
    exact hself
  · rw [Function.update_of_ne heq, hothers other heq]
    exact h.mutex_iff other

/-- A step that leaves alone what the initialization makes. -/
theorem Sound.move (h : Sound s) (hthreads : s'.threads = Function.update s.threads t x)
    (hshared : shared s' = shared s)
    (hbuffers : ∀ other, other ≠ t → s'.buffers other = s.buffers other)
    (hothers : ∀ other, other ≠ t → (s'.mutex = some other ↔ s.mutex = some other))
    (hself : s'.mutex = some t ↔ ∃ thread, x = some thread ∧ Critical thread.point)
    (hnew : ∀ thread, x = some thread → ThreadSound s' t thread)
    (hfaulted : s'.faulted = s.faulted) : Sound s' where
  mutex_iff := h.mutex_iff_update hthreads hothers hself
  ready := by
    intro hinit
    obtain ⟨-, -, -, -, heq⟩ := Shared.mk.inj hshared
    exact (ready_congr hshared).mpr (h.ready (heq ▸ hinit))
  threads := by
    intro other thread hthread
    rw [hthreads] at hthread
    by_cases heq : other = t
    · rw [heq, Function.update_self] at hthread
      rw [heq]
      exact hnew thread hthread
    · rw [Function.update_of_ne heq] at hthread
      exact (h.threads other thread hthread).congr hshared (hbuffers other heq)
  faulted := hfaulted.trans h.faulted

/-- A step of the initialization, by the thread that has the mutex. -/
theorem Sound.inside (h : Sound s) (hthread : s.threads t = some thread)
    (hcritical : Critical thread.point) (hinit : s.initialized = false)
    (hthreads : s'.threads = Function.update s.threads t (some thread'))
    (hcritical' : Critical thread'.point) (hmutex : s'.mutex = s.mutex)
    (hready : s'.initialized = true → Ready s') (hnew : ThreadSound s' t thread')
    (hfaulted : s'.faulted = false) : Sound s' where
  mutex_iff := by
    have hself : s.mutex = some t := h.mutex_of_critical hthread hcritical
    refine h.mutex_iff_update hthreads (fun other _ => by rw [hmutex]) ?_
    rw [hmutex]
    exact ⟨fun _ => ⟨thread', rfl, hcritical'⟩, fun _ => hself⟩
  ready := hready
  threads := by
    intro other thread' hthread'
    rw [hthreads] at hthread'
    by_cases heq : other = t
    · rw [heq, Function.update_self] at hthread'
      cases hthread'
      rw [heq]
      exact hnew
    · rw [Function.update_of_ne heq] at hthread'
      refine (h.threads other thread' hthread').outside hinit fun hcritical' => heq ?_
      have hother := h.mutex_of_critical hthread' hcritical'
      rw [h.mutex_of_critical hthread hcritical] at hother
      exact (Option.some.inj hother).symm
  faulted := hfaulted

theorem Sound.goto (h : Sound s) (hthread : s.threads t = some thread) {point : GlobalPoint}
    (hcritical : Critical point ↔ Critical thread.point) (hpoint : HoldsAt s t point)
    (hown : thread.ownBuffer = false) : Sound (s.goto t thread point) := by
  refine h.move rfl rfl (fun _ _ => rfl) (fun _ _ => Iff.rfl) ?_ ?_ rfl
  · rw [show (s.goto t thread point).mutex = s.mutex from rfl, h.mutex_iff t, hthread]
    simp [hcritical]
  · rintro _ ⟨⟩
    refine ⟨(holdsAt_congr rfl rfl).mpr hpoint, fun hfalse => ?_⟩
    rw [hown] at hfalse
    cases hfalse

theorem Sound.failAt (h : Sound s) (hthread : s.threads t = some thread) {error : ErrorSource}
    {point : GlobalPoint} (hcritical : Critical point ↔ Critical thread.point)
    (hpoint : HoldsAt s t point) (hown : thread.ownBuffer = false) :
    Sound (s.failAt t thread error point) := by
  refine h.move threads_failAt shared_failAt (fun _ hne => buffers_failAt_of_ne hne)
    (fun _ _ => by rw [mutex_failAt]) ?_ ?_ faulted_failAt
  · rw [mutex_failAt, h.mutex_iff t, hthread]
    simp [hcritical]
  · rintro _ ⟨⟩
    refine ⟨(holdsAt_congr shared_failAt ?_).mpr hpoint, fun hfalse => ?_⟩
    · exact congrFun (buffers_report_of_global hown) t
    · rw [show thread.ownBuffer = true from hfalse] at hown
      cases hown

theorem Sound.takeBuffer (h : Sound s) (hthread : s.threads t = some thread)
    (hcritical : ¬ Critical thread.point) (hinit : s.initialized = true) (buffer : ErrorBuffer) :
    Sound (s.takeBuffer t thread buffer) := by
  refine h.move rfl rfl (fun _ hne => Function.update_of_ne hne ..) (fun _ _ => Iff.rfl) ?_ ?_ rfl
  · rw [show (s.takeBuffer t thread buffer).mutex = s.mutex from rfl, h.mutex_iff t, hthread]
    exact ⟨fun ⟨_, heq, hc⟩ => absurd (Option.some.inj heq ▸ hc) hcritical,
      fun ⟨_, heq, hc⟩ => (by cases heq; exact False.elim hc)⟩
  · rintro _ ⟨⟩
    refine ⟨trivial, fun _ => ⟨rfl, hinit, ?_⟩⟩
    simp [GlobalState.takeBuffer, GlobalState.setThread]

theorem withoutBuffer_cases (thread : GlobalThread) :
    GlobalState.withoutBuffer thread = .running ∨
      GlobalState.withoutBuffer thread = .leaving := by
  unfold GlobalState.withoutBuffer
  split
  · exact .inl rfl
  · exact .inr rfl

theorem Sound.failOutside (h : Sound s) (hthread : s.threads t = some thread)
    {error : ErrorSource} (hcritical : ¬ Critical thread.point)
    (hown : thread.ownBuffer = false) :
    Sound (s.failAt t thread error (GlobalState.withoutBuffer thread)) := by
  rcases withoutBuffer_cases thread with hpoint | hpoint
  · rw [hpoint]
    exact h.failAt hthread (iff_of_false (by decide) hcritical) trivial hown
  · rw [hpoint]
    exact h.failAt hthread (iff_of_false (by decide) hcritical) trivial hown

theorem Sound.own_eq_false (h : Sound s) (hthread : s.threads t = some thread)
    (hpoint : thread.point ≠ .running) : thread.ownBuffer = false := by
  by_contra hown
  rw [Bool.not_eq_false] at hown
  exact hpoint ((h.threads t thread hthread).own hown).1

theorem Sound.succeed (h : Sound s) (hthread : s.threads t = some thread)
    (hstep : s.succeed t thread = some s') : Sound s' := by
  have hholds := (h.threads t thread hthread).point
  have hown := h.own_eq_false hthread
  unfold GlobalState.succeed at hstep
  cases hpoint : thread.point <;> rw [hpoint] at hstep hholds hown <;> simp only at hstep
  case checking =>
    have hcritical : ¬ Critical thread.point := by
      rw [hpoint]
      decide
    cases hinit : s.initialized with
    | true =>
        simp only [hinit, if_true, Option.some.injEq] at hstep
        subst hstep
        exact h.goto hthread (iff_of_false (by decide) hcritical) hinit (hown (by decide))
    | false =>
        simp only [hinit, Bool.false_eq_true, if_false] at hstep
        cases hcall : thread.call <;> rw [hcall] at hstep <;> cases hstep
        · exact h.goto hthread (iff_of_false (by decide) hcritical) trivial (hown (by decide))
        · exact h.failOutside hthread hcritical (hown (by decide))
        · exact h.failOutside hthread hcritical (hown (by decide))
  case acquiring =>
    split at hstep
    next hfree =>
      cases hstep
      have hnone : s.mutex = none := by simpa using hfree
      refine h.move rfl rfl (fun _ _ => rfl) (fun other hne => ?_) ?_ ?_ rfl
      · rw [hnone]
        exact ⟨fun heq => absurd (Option.some.inj heq).symm hne, fun heq => (by cases heq)⟩
      · exact ⟨fun _ => ⟨_, rfl, trivial⟩, fun _ => rfl⟩
      · rintro _ ⟨⟩
        refine ⟨trivial, fun hfalse => ?_⟩
        cases (hown (by decide)).symm.trans hfalse
    next => cases hstep
  case rechecking =>
    have hcritical : Critical thread.point := by
      rw [hpoint]
      decide
    cases hinit : s.initialized with
    | true =>
        simp only [hinit, if_true, Option.some.injEq] at hstep
        subst hstep
        exact h.goto hthread (iff_of_true trivial hcritical) trivial (hown (by decide))
    | false =>
        simp only [hinit, Bool.false_eq_true, if_false, Option.some.injEq] at hstep
        subst hstep
        exact h.goto hthread (iff_of_true trivial hcritical) hinit (hown (by decide))
  case loading =>
    cases hstep
    exact h.goto hthread (by rw [hpoint]; decide) hholds (hown (by decide))
  case creatingEnv =>
    cases hstep
    refine h.inside hthread (hpoint ▸ trivial) hholds rfl trivial rfl ?_ ⟨⟨hholds, ?_⟩, ?_⟩
      h.faulted
    · intro hinit
      cases hholds.symm.trans hinit
    · simp [GlobalState.live, GlobalState.newEnv, GlobalState.goto, GlobalState.setThread,
        get_alloc_self]
    · intro hfalse
      cases (hown (by decide)).symm.trans hfalse
  case allocatingError =>
    cases hstep
    rw [hholds.2, uses_true]
    refine h.inside hthread (hpoint ▸ trivial) hholds.1 rfl trivial rfl ?_
      ⟨⟨hholds.1, hholds.2, rfl⟩, ?_⟩ h.faulted
    · intro hinit
      cases hholds.1.symm.trans hinit
    · intro hfalse
      cases (hown (by decide)).symm.trans hfalse
  case creatingKey =>
    cases hstep
    obtain ⟨hinit, hlive, herror⟩ := hholds
    rw [herror, hlive, Bool.and_self, uses_true]
    obtain ⟨⟨⟩, hlive⟩ := Option.isSome_iff_exists.mp hlive
    obtain ⟨env, henv, hget⟩ := Option.bind_eq_some_iff.mp hlive
    refine h.inside hthread (hpoint ▸ trivial) hinit rfl trivial rfl ?_
      ⟨⟨hinit, env, henv, herror.trans henv, henv, hget⟩, ?_⟩ h.faulted
    · intro hinit'
      cases hinit.symm.trans hinit'
    · intro hfalse
      cases (hown (by decide)).symm.trans hfalse
  case marking =>
    cases hstep
    refine h.inside hthread (hpoint ▸ trivial) hholds.1 rfl trivial rfl (fun _ => hholds.2)
      ⟨trivial, ?_⟩ h.faulted
    intro hfalse
    cases (hown (by decide)).symm.trans hfalse
  case releasing =>
    cases hstep
    have hmutex : s.mutex = some t := h.mutex_of_critical hthread (hpoint ▸ trivial)
    refine h.move rfl rfl (fun _ _ => rfl) (fun other hne => ?_) ?_ ?_ rfl
    · rw [hmutex]
      exact ⟨fun heq => (by cases heq), fun heq => absurd (Option.some.inj heq).symm hne⟩
    · exact ⟨fun heq => (by cases heq), fun ⟨_, heq, hc⟩ => (by cases heq; exact False.elim hc)⟩
    · rintro _ ⟨⟩
      refine ⟨trivial, fun hfalse => ?_⟩
      cases (hown (by decide)).symm.trans hfalse
  case checkingAgain =>
    have hcritical : ¬ Critical thread.point := by
      rw [hpoint]
      decide
    cases hinit : s.initialized with
    | true =>
        simp only [hinit, if_true, Option.some.injEq] at hstep
        subst hstep
        exact h.goto hthread (iff_of_false (by decide) hcritical) hinit (hown (by decide))
    | false =>
        simp only [hinit, Bool.false_eq_true, if_false, Option.some.injEq] at hstep
        subst hstep
        exact h.goto hthread (iff_of_false (by decide) hcritical) trivial (hown (by decide))
  case gettingBuffer =>
    have hcritical : ¬ Critical thread.point := by
      rw [hpoint]
      decide
    rw [usesKey_of_ready (h.ready hholds)] at hstep
    cases hbuffer : s.buffers t with
    | some buffer =>
        simp only [hbuffer, Option.some.injEq] at hstep
        subst hstep
        exact h.takeBuffer hthread hcritical hholds buffer
    | none =>
        simp only [hbuffer, Option.some.injEq] at hstep
        subst hstep
        exact h.goto hthread (iff_of_false (by decide) hcritical) ⟨hholds, hbuffer⟩
          (hown (by decide))
  case allocatingBuffer =>
    cases hstep
    exact h.goto hthread (by rw [hpoint]; decide) hholds (hown (by decide))
  case settingBuffer =>
    cases hstep
    rw [usesKey_of_ready (h.ready hholds.1)]
    exact h.takeBuffer hthread (by rw [hpoint]; decide) hholds.1 .zero
  case running => cases hstep
  case leaving => cases hstep

theorem Sound.failInside (h : Sound s) (made : GlobalState) (hthread : s.threads t = some thread)
    (hcritical : Critical thread.point) (hinit : s.initialized = false)
    (hown : thread.ownBuffer = false) (hthreads : made.threads = s.threads)
    (hmutex : made.mutex = s.mutex) (hinit' : made.initialized = false)
    (hfaulted : made.faulted = false) (error : ErrorSource) :
    Sound (made.failAt t thread error .releasing) := by
  have hnew : (made.failAt t thread error .releasing).threads = Function.update s.threads t
      (some ⟨thread.call, .releasing, thread.ownBuffer, thread.errors ++ [error]⟩) := by
    rw [threads_failAt, hthreads]
  refine h.inside hthread hcritical hinit hnew trivial (mutex_failAt.trans hmutex) ?_ ?_ ?_
  · intro hfalse
    have hshared : shared (made.failAt t thread error .releasing) = shared made := shared_failAt
    obtain ⟨-, -, -, -, heq⟩ := Shared.mk.inj hshared
    cases hinit'.symm.trans (heq.symm.trans hfalse)
  · refine ⟨trivial, fun hfalse => ?_⟩
    cases hown.symm.trans hfalse
  · rw [faulted_failAt, hfaulted]

theorem faulted_freeEnv (hlive : s.live s.envHandle = true) : s.freeEnv.faulted = s.faulted := by
  rw [GlobalState.freeEnv, hlive, uses_true]

theorem Sound.fail (h : Sound s) (hthread : s.threads t = some thread) {error : ErrorSource}
    (hstep : s.fail t thread error = some s') : Sound s' := by
  have hholds := (h.threads t thread hthread).point
  have hown := h.own_eq_false hthread
  unfold GlobalState.fail at hstep
  split at hstep
  case isFalse => cases hstep
  case isTrue =>
    cases hpoint : thread.point <;> rw [hpoint] at hstep hholds hown <;> simp only at hstep
    case loading =>
      cases hstep
      exact h.failAt hthread (by rw [hpoint]; decide) trivial (hown (by decide))
    case creatingEnv =>
      cases hstep
      exact h.failInside { s with envHandle := none } hthread (hpoint ▸ trivial) hholds
        (hown (by decide)) rfl rfl hholds h.faulted error
    case allocatingError =>
      cases hstep
      obtain ⟨hinit, hlive⟩ := hholds
      rw [hlive, uses_true]
      exact h.failInside s.freeEnv hthread (hpoint ▸ trivial) hinit (hown (by decide)) rfl rfl hinit
        ((faulted_freeEnv hlive).trans h.faulted) error
    case creatingKey =>
      cases hstep
      obtain ⟨hinit, hlive, herror⟩ := hholds
      rw [herror, hlive, Bool.and_self, uses_true]
      exact h.failInside s.freeEnv hthread (hpoint ▸ trivial) hinit (hown (by decide)) rfl rfl hinit
        ((faulted_freeEnv hlive).trans h.faulted) error
    case gettingBuffer =>
      cases hstep
      rw [usesKey_of_ready (h.ready hholds)]
      exact h.failOutside hthread (by rw [hpoint]; decide) (hown (by decide))
    case allocatingBuffer =>
      cases hstep
      exact h.failOutside hthread (by rw [hpoint]; decide) (hown (by decide))
    case settingBuffer =>
      cases hstep
      rw [usesKey_of_ready (h.ready hholds.1)]
      exact h.failOutside hthread (by rw [hpoint]; decide) (hown (by decide))
    all_goals cases hstep

theorem Sound.set (h : Sound s) (hthread : s.threads t = some thread)
    (hpoint : thread.point = .running) (error : ErrorSource) :
    Sound (s.failAt t thread error .running) := by
  have hcritical : ¬ Critical thread.point := by
    rw [hpoint]
    decide
  cases hown : thread.ownBuffer with
  | false => exact h.failAt hthread (iff_of_false (by decide) hcritical) trivial hown
  | true =>
      refine h.move threads_failAt shared_failAt (fun _ hne => buffers_failAt_of_ne hne)
        (fun _ _ => by rw [mutex_failAt]) ?_ ?_ faulted_failAt
      · rw [mutex_failAt, h.mutex_iff t, hthread]
        exact ⟨fun ⟨_, heq, hc⟩ => absurd (Option.some.inj heq ▸ hc) hcritical,
          fun ⟨_, heq, hc⟩ => (by cases heq; exact False.elim hc)⟩
      · rintro _ ⟨⟩
        have hshared : shared (s.failAt t thread error .running) = shared s := shared_failAt
        obtain ⟨-, -, -, -, hinit⟩ := Shared.mk.inj hshared
        refine ⟨trivial, fun _ => ⟨rfl, ?_, ?_⟩⟩
        · rw [hinit]
          exact ((h.threads t thread hthread).own hown).2.1
        · simp [GlobalState.failAt, GlobalState.goto, GlobalState.setThread, GlobalState.report,
            hown]

/-- What a thread does in one step. -/
inductive Stepped (s : GlobalState) (t : Nat) : GlobalAction → GlobalState → Prop
  | start (call : GlobalCall) : s.threads t = none → Stepped s t (.start call) (s.startCall t call)
  | ok {thread : GlobalThread} {s' : GlobalState} : s.threads t = some thread →
      s.succeed t thread = some s' → Stepped s t (.proceed .ok) s'
  | fails {thread : GlobalThread} {error : ErrorSource} {s' : GlobalState} :
      s.threads t = some thread → s.fail t thread error = some s' →
      Stepped s t (.proceed (.fails error)) s'
  | halfway {thread : GlobalThread} (error : ErrorSource) : s.threads t = some thread →
      thread.point = .creatingEnv →
      Stepped s t (.proceed (.halfway error)) (s.newEnv.failAt t thread error .releasing)
  | set {thread : GlobalThread} (error : ErrorSource) : s.threads t = some thread →
      thread.point = .running → Stepped s t (.set error) (s.failAt t thread error .running)
  | finish {thread : GlobalThread} (succeeded : Bool) : s.threads t = some thread →
      thread.point = .running ∨ thread.point = .leaving ∧ succeeded = false →
      Stepped s t (.finish succeeded) (s.finish t thread succeeded)

theorem stepped {action : GlobalAction} (hstep : s.step (t, action) = some s') :
    Stepped s t action s' := by
  simp only [GlobalState.step] at hstep
  split at hstep
  case h_1 hthread =>
    cases hstep
    exact .start _ hthread
  case h_2 hthread => exact .ok hthread hstep
  case h_3 hthread => exact .fails hthread hstep
  case h_4 hthread =>
    obtain ⟨hpoint, heq⟩ := Option.ite_none_right_eq_some.mp hstep
    cases heq
    exact .halfway _ hthread hpoint
  case h_5 hthread =>
    obtain ⟨hpoint, heq⟩ := Option.ite_none_right_eq_some.mp hstep
    cases heq
    exact .set _ hthread hpoint
  case h_6 hthread =>
    obtain ⟨hpoint, heq⟩ := Option.ite_none_right_eq_some.mp hstep
    cases heq
    exact .finish _ hthread hpoint
  case h_7 => cases hstep

theorem Sound.startCall (h : Sound s) (hthread : s.threads t = none) (call : GlobalCall) :
    Sound (s.startCall t call) := by
  refine h.move rfl rfl (fun _ _ => rfl) (fun _ _ => Iff.rfl) ?_ ?_ rfl
  · refine ⟨fun hmutex => ?_, fun ⟨_, heq, hc⟩ => (by cases heq; exact False.elim hc)⟩
    obtain ⟨thread, hsome, -⟩ := (h.mutex_iff t).mp hmutex
    cases hthread.symm.trans hsome
  · rintro _ ⟨⟩
    exact ⟨trivial, fun hfalse => by cases hfalse⟩

theorem Sound.finish (h : Sound s) (hthread : s.threads t = some thread)
    (hcritical : ¬ Critical thread.point) (succeeded : Bool) :
    Sound (s.finish t thread succeeded) := by
  refine h.move rfl rfl (fun _ _ => rfl) (fun _ _ => Iff.rfl) ?_ (fun _ heq => by cases heq) rfl
  exact ⟨fun heq => absurd (h.critical_of_mutex heq hthread) hcritical,
    fun ⟨_, heq, _⟩ => by cases heq⟩

/-- Every step of a thread keeps the invariant, whatever the others are at. -/
theorem Sound.step (h : Sound s) {label : Nat × GlobalAction} (hstep : s.step label = some s') :
    Sound s' := by
  obtain ⟨t, action⟩ := label
  cases stepped hstep with
  | start call hthread => exact h.startCall hthread call
  | ok hthread hsucceed => exact h.succeed hthread hsucceed
  | fails hthread hfail => exact h.fail hthread hfail
  | halfway error hthread hpoint =>
      have hholds := (h.threads t _ hthread).point
      rw [hpoint] at hholds
      exact h.failInside s.newEnv hthread (hpoint ▸ trivial) hholds
        (h.own_eq_false hthread (by rw [hpoint]; decide)) rfl rfl hholds h.faulted error
  | set error hthread hpoint => exact h.set hthread hpoint error
  | finish succeeded hthread hpoint =>
      apply h.finish hthread
      rcases hpoint with hpoint | ⟨hpoint, -⟩
      · rw [hpoint]
        decide
      · rw [hpoint]
        decide

theorem threads_failAt_of_ne {error : ErrorSource} {point : GlobalPoint} {other : Nat}
    (hne : other ≠ t) : (s.failAt t thread error point).threads other = s.threads other := by
  rw [threads_failAt, Function.update_of_ne hne]

theorem threads_succeed_of_ne {other : Nat} (hne : other ≠ t)
    (hstep : s.succeed t thread = some s') : s'.threads other = s.threads other := by
  unfold GlobalState.succeed at hstep
  split at hstep
  case h_1 =>
    split at hstep
    · cases hstep
      exact Function.update_of_ne hne ..
    · split at hstep
      · cases hstep
        exact Function.update_of_ne hne ..
      · cases hstep
        exact threads_failAt_of_ne hne
  case h_2 =>
    obtain ⟨-, heq⟩ := Option.ite_none_right_eq_some.mp hstep
    cases heq
    exact Function.update_of_ne hne ..
  case h_11 =>
    split at hstep
    · cases hstep
      exact Function.update_of_ne hne ..
    · cases hstep
      exact Function.update_of_ne hne ..
  case h_14 => cases hstep
  case h_15 => cases hstep
  all_goals
    cases hstep
    exact Function.update_of_ne hne ..

theorem threads_fail_of_ne {error : ErrorSource} {other : Nat} (hne : other ≠ t)
    (hstep : s.fail t thread error = some s') : s'.threads other = s.threads other := by
  unfold GlobalState.fail at hstep
  obtain ⟨-, hstep⟩ := Option.ite_none_right_eq_some.mp hstep
  split at hstep
  case h_8 => cases hstep
  all_goals
    cases hstep
    exact threads_failAt_of_ne hne

theorem Stepped.threads_of_ne {action : GlobalAction} (h : Stepped s t action s') {other : Nat}
    (hne : other ≠ t) : s'.threads other = s.threads other := by
  cases h with
  | start call _ => exact Function.update_of_ne hne ..
  | ok _ hsucceed => exact threads_succeed_of_ne hne hsucceed
  | fails _ hfail => exact threads_fail_of_ne hne hfail
  | halfway error _ _ => exact threads_failAt_of_ne hne
  | set error _ _ => exact threads_failAt_of_ne hne
  | finish succeeded _ _ => exact Function.update_of_ne hne ..

theorem shared_succeed (hstep : s.succeed t thread = some s') :
    shared s' = (shared s).made thread.point := by
  unfold GlobalState.succeed at hstep
  cases hpoint : thread.point <;> rw [hpoint] at hstep <;> simp only at hstep
  case checking =>
    split at hstep
    · cases hstep
      rfl
    · split at hstep
      · cases hstep
        rfl
      · cases hstep
        exact shared_failAt
  case acquiring =>
    obtain ⟨-, heq⟩ := Option.ite_none_right_eq_some.mp hstep
    cases heq
    rfl
  case gettingBuffer =>
    split at hstep
    · cases hstep
      rfl
    · cases hstep
      rfl
  case running => cases hstep
  case leaving => cases hstep
  all_goals
    cases hstep
    rfl

theorem shared_fail {error : ErrorSource} (hstep : s.fail t thread error = some s') :
    shared s' = (shared s).dropped thread.point := by
  unfold GlobalState.fail at hstep
  obtain ⟨-, hstep⟩ := Option.ite_none_right_eq_some.mp hstep
  split at hstep
  case h_8 => cases hstep
  all_goals
    next hpoint =>
      cases hstep
      rw [hpoint]
      exact shared_failAt

theorem made_of_initialized {point : GlobalPoint} (hinit : s.initialized = true)
    (hholds : HoldsAt s t point) :
    (shared s).made point = shared s ∧ (shared s).dropped point = shared s := by
  have hnot : s.initialized ≠ false := by simp [hinit]
  cases point
  case creatingEnv => exact absurd hholds hnot
  case allocatingError => exact absurd hholds.1 hnot
  case creatingKey => exact absurd hholds.1 hnot
  case marking => exact absurd hholds.1 hnot
  all_goals exact ⟨rfl, rfl⟩

theorem Sound.shared_eq (h : Sound s) (hinit : s.initialized = true) {label : Nat × GlobalAction}
    (hstep : s.step label = some s') : shared s' = shared s := by
  obtain ⟨t, action⟩ := label
  cases stepped hstep with
  | start call _ => rfl
  | ok hthread hsucceed =>
      rw [shared_succeed hsucceed]
      exact (made_of_initialized hinit (h.threads t _ hthread).point).1
  | fails hthread hfail =>
      rw [shared_fail hfail]
      exact (made_of_initialized hinit (h.threads t _ hthread).point).2
  | halfway error hthread hpoint =>
      have hholds := (h.threads t _ hthread).point
      rw [hpoint] at hholds
      cases hinit.symm.trans hholds
  | set error _ _ => exact shared_failAt
  | finish succeeded _ _ => rfl

end Steps

/-! ### Giving back the mutex -/

/-- The most steps that a thread with the mutex takes until it has given it back. -/
def remaining : GlobalPoint → Nat
  | .rechecking => 7
  | .loading => 6
  | .creatingEnv => 5
  | .allocatingError => 4
  | .creatingKey => 3
  | .marking => 2
  | .releasing => 1
  | _ => 0

section Mutex

variable {s s' : GlobalState} {t : Nat} {thread : GlobalThread} {action : GlobalAction}

/-- The mutex is free, or the thread is nearer to giving it back. -/
def Nearer (t : Nat) (point : GlobalPoint) (s : GlobalState) : Prop :=
  s.mutex = none ∨ ∃ thread, s.threads t = some thread ∧ Critical thread.point ∧
    remaining thread.point < remaining point

theorem nearer_failAt {made : GlobalState} {error : ErrorSource} {point : GlobalPoint}
    (hlt : remaining .releasing < remaining point) :
    Nearer t point (made.failAt t thread error .releasing) :=
  .inr ⟨⟨thread.call, .releasing, thread.ownBuffer, thread.errors ++ [error]⟩, by simp, trivial,
    hlt⟩

theorem nearer_goto {made : GlobalState} {point point' : GlobalPoint}
    (hlt : Critical point' ∧ remaining point' < remaining point) :
    Nearer t point (made.goto t thread point') :=
  .inr ⟨{ thread with point := point' }, Function.update_self .., hlt⟩

theorem nearer_succeed (hcritical : Critical thread.point)
    (hstep : s.succeed t thread = some s') : Nearer t thread.point s' := by
  unfold GlobalState.succeed at hstep
  cases hpoint : thread.point <;> rw [hpoint] at hstep hcritical <;> simp only at hstep
  case rechecking =>
    cases hstep
    apply nearer_goto
    split <;> decide
  case releasing =>
    cases hstep
    exact .inl rfl
  case loading =>
    cases hstep
    exact nearer_goto (by decide)
  case creatingEnv =>
    cases hstep
    exact nearer_goto (by decide)
  case allocatingError =>
    cases hstep
    exact nearer_goto (by decide)
  case creatingKey =>
    cases hstep
    exact nearer_goto (by decide)
  case marking =>
    cases hstep
    exact nearer_goto (by decide)
  all_goals exact False.elim hcritical

theorem nearer_fail (hcritical : Critical thread.point) {error : ErrorSource}
    (hstep : s.fail t thread error = some s') : Nearer t thread.point s' := by
  unfold GlobalState.fail at hstep
  obtain ⟨-, hstep⟩ := Option.ite_none_right_eq_some.mp hstep
  cases hpoint : thread.point <;> rw [hpoint] at hstep hcritical <;> simp only at hstep
  case loading =>
    cases hstep
    exact nearer_failAt (by decide)
  case creatingEnv =>
    cases hstep
    exact nearer_failAt (by decide)
  case allocatingError =>
    cases hstep
    exact nearer_failAt (by decide)
  case creatingKey =>
    cases hstep
    exact nearer_failAt (by decide)
  case rechecking => cases hstep
  case marking => cases hstep
  case releasing => cases hstep
  all_goals exact False.elim hcritical

theorem Stepped.nearer (h : Stepped s t action s') (hthread : s.threads t = some thread)
    (hcritical : Critical thread.point) : Nearer t thread.point s' := by
  cases h with
  | start call hnone => cases hthread.symm.trans hnone
  | ok hsome hsucceed =>
      cases hthread.symm.trans hsome
      exact nearer_succeed hcritical hsucceed
  | fails hsome hfail =>
      cases hthread.symm.trans hsome
      exact nearer_fail hcritical hfail
  | halfway error hsome hpoint =>
      cases hthread.symm.trans hsome
      rw [hpoint]
      exact nearer_failAt (by decide)
  | set error hsome hpoint =>
      cases hthread.symm.trans hsome
      rw [hpoint] at hcritical
      exact False.elim hcritical
  | finish succeeded hsome hpoint =>
      cases hthread.symm.trans hsome
      rcases hpoint with hpoint | ⟨hpoint, -⟩
      · rw [hpoint] at hcritical
        exact False.elim hcritical
      · rw [hpoint] at hcritical
        exact False.elim hcritical

theorem succeed_of_critical (s : GlobalState) (t : Nat) (hcritical : Critical thread.point) :
    ∃ s', s.succeed t thread = some s' := by
  unfold GlobalState.succeed
  cases hpoint : thread.point <;> rw [hpoint] at hcritical
  case rechecking => exact ⟨_, rfl⟩
  case loading => exact ⟨_, rfl⟩
  case creatingEnv => exact ⟨_, rfl⟩
  case allocatingError => exact ⟨_, rfl⟩
  case creatingKey => exact ⟨_, rfl⟩
  case marking => exact ⟨_, rfl⟩
  case releasing => exact ⟨_, rfl⟩
  all_goals exact False.elim hcritical

/-- The thread with the mutex frees it with its own steps, whatever the other threads do in
between. -/
theorem exists_released {labels : List (Nat × GlobalAction)} (h : Sound s)
    (hthread : s.threads t = some thread) (hcritical : Critical thread.point)
    (hrun : s.run labels = some s')
    (hcount : remaining thread.point ≤ labels.countP fun label => label.1 = t) :
    ∃ first rest s₁, labels = first ++ rest ∧ s.run first = some s₁ ∧ s₁.mutex = none := by
  induction labels generalizing s thread with
  | nil =>
      have hpos : 0 < remaining thread.point := by
        cases hpoint : thread.point <;> rw [hpoint] at hcritical <;>
          first
            | exact False.elim hcritical
            | exact Nat.zero_lt_succ _
      exact absurd (Nat.lt_of_lt_of_le hpos hcount) (Nat.lt_irrefl 0)
  | cons label labels ih =>
      obtain ⟨next, hstep, hrest⟩ := Option.bind_eq_some_iff.mp hrun
      have hsound := h.step hstep
      have hcons : ∀ {first rest s₁}, labels = first ++ rest → next.run first = some s₁ →
          s₁.mutex = none → ∃ first rest s₁, label :: labels = first ++ rest ∧
            s.run first = some s₁ ∧ s₁.mutex = none := by
        rintro first rest s₁ rfl hfirst hfree
        refine ⟨label :: first, rest, s₁, rfl, ?_, hfree⟩
        rw [GlobalState.run, hstep]
        exact hfirst
      obtain ⟨other, action⟩ := label
      by_cases heq : other = t
      · subst heq
        rcases (stepped hstep).nearer hthread hcritical with
          hfree | ⟨thread', hthread', hcritical', hlt⟩
        · exact hcons (List.nil_append labels).symm rfl hfree
        · rw [List.countP_cons_of_pos (by simp)] at hcount
          obtain ⟨first, rest, s₁, hlabels, hfirst, hfree⟩ :=
            ih hsound hthread' hcritical' hrest (by omega)
          exact hcons hlabels hfirst hfree
      · rw [List.countP_cons_of_neg (by simpa using heq)] at hcount
        have hthread' : next.threads t = some thread :=
          ((stepped hstep).threads_of_ne (Ne.symm heq)).trans hthread
        obtain ⟨first, rest, s₁, hlabels, hfirst, hfree⟩ :=
          ih hsound hthread' hcritical hrest hcount
        exact hcons hlabels hfirst hfree

end Mutex

/-! ### The end of the process -/

section Key

variable {s s' : GlobalState} {t : Nat} {thread : GlobalThread}

/-- There is a thread key once the initialization is done, or about to be. -/
def KeySound (s : GlobalState) : Prop :=
  s.threadKey ≠ none → s.initialized = true ∨
    ∃ t thread, s.threads t = some thread ∧ thread.point = .marking

theorem KeySound.others (h : KeySound s) (hkey : s'.threadKey = s.threadKey)
    (hinit : s'.initialized = s.initialized)
    (hothers : ∀ other, other ≠ t → s'.threads other = s.threads other)
    (hmarking : ∀ thread, s.threads t = some thread → thread.point ≠ .marking) :
    KeySound s' := by
  intro hsome
  rw [hkey] at hsome
  rw [hinit]
  refine (h hsome).imp_right ?_
  rintro ⟨other, thread, hthread, hpoint⟩
  refine ⟨other, thread, ?_, hpoint⟩
  rw [hothers other, hthread]
  rintro rfl
  exact hmarking thread hthread hpoint

theorem key_failAt {error : ErrorSource} {point : GlobalPoint} :
    (s.failAt t thread error point).threadKey = s.threadKey ∧
      (s.failAt t thread error point).initialized = s.initialized := by
  have hshared : shared (s.failAt t thread error point) = shared s := shared_failAt
  obtain ⟨-, -, hkey, -, hinit⟩ := Shared.mk.inj hshared
  exact ⟨hkey, hinit⟩

theorem key_succeed (hkey : thread.point ≠ .creatingKey) (hmarking : thread.point ≠ .marking)
    (hstep : s.succeed t thread = some s') :
    s'.threadKey = s.threadKey ∧ s'.initialized = s.initialized := by
  obtain ⟨-, -, hkey', -, hinit⟩ := Shared.mk.inj (shared_succeed hstep)
  rw [hkey', hinit]
  cases hpoint : thread.point
  case creatingKey => exact absurd hpoint hkey
  case marking => exact absurd hpoint hmarking
  all_goals exact ⟨rfl, rfl⟩

theorem key_fail {error : ErrorSource} (hstep : s.fail t thread error = some s') :
    (s'.threadKey = s.threadKey ∧ s'.initialized = s.initialized) ∧ thread.point ≠ .marking := by
  obtain ⟨-, -, hkey, -, hinit⟩ := Shared.mk.inj (shared_fail hstep)
  constructor
  · rw [hkey, hinit]
    cases thread.point <;> exact ⟨rfl, rfl⟩
  · intro hpoint
    simp [GlobalState.fail, hpoint] at hstep

theorem KeySound.succeed (h : KeySound s) (hthread : s.threads t = some thread)
    (hstep : s.succeed t thread = some s') : KeySound s' := by
  by_cases hmarking : thread.point = .marking
  · unfold GlobalState.succeed at hstep
    rw [hmarking] at hstep
    cases hstep
    exact fun _ => .inl rfl
  · by_cases hkey : thread.point = .creatingKey
    · unfold GlobalState.succeed at hstep
      rw [hkey] at hstep
      cases hstep
      exact fun _ => .inr ⟨t, _, Function.update_self .., rfl⟩
    · obtain ⟨hkey', hinit⟩ := key_succeed hkey hmarking hstep
      refine h.others hkey' hinit (fun other hne => threads_succeed_of_ne hne hstep) ?_
      intro thread' hthread'
      cases hthread.symm.trans hthread'
      exact hmarking

theorem KeySound.step (h : KeySound s) {label : Nat × GlobalAction}
    (hstep : s.step label = some s') : KeySound s' := by
  obtain ⟨t, action⟩ := label
  have hothers : ∀ other, other ≠ t → s'.threads other = s.threads other := fun other hne =>
    (stepped hstep).threads_of_ne hne
  have hpoint : ∀ {thread : GlobalThread}, s.threads t = some thread → thread.point ≠ .marking →
      ∀ thread', s.threads t = some thread' → thread'.point ≠ .marking := by
    intro thread hthread hne thread' hthread'
    cases hthread.symm.trans hthread'
    exact hne
  cases stepped hstep with
  | start call hnone =>
      refine h.others rfl rfl hothers fun thread hthread => ?_
      cases hnone.symm.trans hthread
  | ok hthread hsucceed => exact h.succeed hthread hsucceed
  | fails hthread hfail =>
      obtain ⟨⟨hkey, hinit⟩, hne⟩ := key_fail hfail
      exact h.others hkey hinit hothers (hpoint hthread hne)
  | halfway error hthread hat =>
      exact h.others key_failAt.1 key_failAt.2 hothers (hpoint hthread (by rw [hat]; decide))
  | set error hthread hat =>
      exact h.others key_failAt.1 key_failAt.2 hothers (hpoint hthread (by rw [hat]; decide))
  | finish succeeded hthread hat =>
      refine h.others rfl rfl hothers (hpoint hthread ?_)
      rcases hat with hat | ⟨hat, -⟩
      · rw [hat]
        decide
      · rw [hat]
        decide

theorem destroyKey_spec (s : GlobalState) (hready : s.threadKey ≠ none → Ready s) (t : Nat) :
    (s.destroyKey t).envHandle = s.envHandle ∧ (s.destroyKey t).environments = s.environments ∧
      (s.destroyKey t).initialized = s.initialized ∧ (s.destroyKey t).faulted = s.faulted := by
  unfold GlobalState.destroyKey
  split
  next hsome =>
    rw [usesKey_of_ready (hready fun hnone => by rw [hnone] at hsome; cases hsome)]
    exact ⟨rfl, rfl, rfl, rfl⟩
  next => exact ⟨rfl, rfl, rfl, rfl⟩

theorem destroyEnv_spec (s : GlobalState) :
    s.destroyEnv.initialized = s.initialized ∧ s.destroyEnv.envHandle = none ∧
      (∀ env, s.envHandle = some env → get s.destroyEnv.environments env = none) ∧
      (s.destroyEnv.faulted = true ↔
        s.faulted = true ∨ ∃ env, s.envHandle = some env ∧ get s.environments env = none) := by
  unfold GlobalState.destroyEnv
  cases henv : s.envHandle with
  | none => simp [henv]
  | some env =>
      simp only [Option.isSome_some, if_true, GlobalState.freeEnv, GlobalState.uses,
        GlobalState.live, henv, Option.map_some, Option.getD_some, Option.bind_some]
      refine ⟨trivial, trivial, ?_, ?_⟩
      · rintro _ ⟨⟩
        exact get_free _ _
      · cases hget : get s.environments env <;> simp [hget]

/-- No thread being in the initialization, the end of the process gets the mutex and frees the
environment of the handle, also where that has been freed before. -/
theorem Sound.finalize (h : Sound s) (hkey : KeySound s)
    (hidle : ∀ u thread, s.threads u = some thread → ¬ Critical thread.point) (t : Nat) :
    ∃ s', s.finalize t = some s' ∧ s'.initialized = false ∧ s'.envHandle = none ∧
      (∀ env, s.envHandle = some env → get s'.environments env = none) ∧
      (s'.faulted = true ↔ (shared s).Stale) := by
  have hmutex : s.mutex = none := by
    rw [Option.eq_none_iff_forall_ne_some]
    intro u hheld
    obtain ⟨thread, hthread, hcritical⟩ := (h.mutex_iff u).mp hheld
    exact hidle u thread hthread hcritical
  have hready : s.threadKey ≠ none → Ready { s with initialized := false } := by
    intro hsome
    rcases hkey hsome with hinit | ⟨other, thread, hthread, hpoint⟩
    · exact h.ready hinit
    · exact absurd (hpoint ▸ trivial) (hidle other thread hthread)
  obtain ⟨henv, henvs, hinit, hfaulted⟩ :=
    destroyKey_spec { s with initialized := false } hready t
  obtain ⟨hinit', henv', hfreed, hfaults⟩ :=
    destroyEnv_spec ({ s with initialized := false }.destroyKey t)
  rw [henv, henvs, hfaulted] at hfaults
  rw [henv] at hfreed
  refine ⟨_, by rw [GlobalState.finalize, hmutex]; rfl, hinit'.trans hinit, henv', hfreed, ?_⟩
  rw [hfaults, h.faulted]
  simp [Shared.Stale, shared]

end Key

section Stale

variable {s s' : GlobalState} {t : Nat} {thread : GlobalThread}

/-- A failed initialization frees the environment that it has made. -/
def FreesEnv (s : GlobalState) : Nat × GlobalAction → Prop
  | (t, .proceed (.fails _)) => ∃ thread, s.threads t = some thread ∧
      (thread.point = .allocatingError ∨ thread.point = .creatingKey)
  | _ => False

/-- An initialization asks OCI for an environment, which decides what the handle is. -/
def AsksForEnv (s : GlobalState) : Nat × GlobalAction → Prop
  | (t, .proceed _) => ∃ thread, s.threads t = some thread ∧ thread.point = .creatingEnv
  | _ => False

theorem asksForEnv_iff (hthread : s.threads t = some thread) (outcome : GlobalOutcome) :
    AsksForEnv s (t, .proceed outcome) ↔ thread.point = .creatingEnv := by
  simp [AsksForEnv, hthread]

theorem freesEnv_iff (hthread : s.threads t = some thread) (error : ErrorSource) :
    FreesEnv s (t, .proceed (.fails error)) ↔
      thread.point = .allocatingError ∨ thread.point = .creatingKey := by
  simp [FreesEnv, hthread]

theorem stale_made (made : Shared) (point : GlobalPoint) :
    (made.made point).Stale ↔ made.Stale ∧ point ≠ .creatingEnv := by
  cases point
  case creatingEnv => simp [Shared.made, Shared.Stale, get_alloc_self]
  all_goals simp [Shared.made, Shared.Stale]

theorem stale_dropped (made : Shared) {point : GlobalPoint}
    (henv : point = .allocatingError ∨ point = .creatingKey → made.envHandle.isSome) :
    (made.dropped point).Stale ↔ (point = .allocatingError ∨ point = .creatingKey) ∨
      made.Stale ∧ point ≠ .creatingEnv := by
  have hfreed : made.envHandle.isSome → ∃ env, made.envHandle = some env ∧
      get ((made.envHandle.map (free made.environments)).getD made.environments) env = none := by
    intro hsome
    obtain ⟨env, heq⟩ := Option.isSome_iff_exists.mp hsome
    exact ⟨env, heq, by rw [heq]; exact get_free _ _⟩
  cases point
  case allocatingError => exact iff_of_true (hfreed (henv (.inl rfl))) (.inl (.inl rfl))
  case creatingKey => exact iff_of_true (hfreed (henv (.inr rfl))) (.inl (.inr rfl))
  all_goals simp [Shared.dropped, Shared.Stale]

theorem isSome_of_live {handle : Option Nat} (hlive : s.live handle = true) :
    handle.isSome := by
  cases handle with
  | none => cases hlive
  | some env => rfl

theorem Sound.stale_step (h : Sound s) {label : Nat × GlobalAction}
    (hstep : s.step label = some s') :
    (shared s').Stale ↔ FreesEnv s label ∨ (shared s).Stale ∧ ¬ AsksForEnv s label := by
  obtain ⟨t, action⟩ := label
  cases stepped hstep with
  | start call _ =>
      simp [FreesEnv, AsksForEnv, show shared (s.startCall t call) = shared s from rfl]
  | ok hthread hsucceed =>
      rw [shared_succeed hsucceed, stale_made, asksForEnv_iff hthread]
      simp [FreesEnv]
  | fails hthread hfail =>
      rw [shared_fail hfail, stale_dropped, asksForEnv_iff hthread, freesEnv_iff hthread]
      have hholds := (h.threads t _ hthread).point
      rintro (hpoint | hpoint)
      · rw [hpoint] at hholds
        exact isSome_of_live hholds.2
      · rw [hpoint] at hholds
        exact isSome_of_live hholds.2.1
  | halfway error hthread hpoint =>
      have hmade : ¬ (shared s.newEnv).Stale := by
        rw [show shared s.newEnv = (shared s).made .creatingEnv from rfl, stale_made]
        exact fun hstale => hstale.2 rfl
      rw [shared_failAt, asksForEnv_iff hthread]
      simp [FreesEnv, hmade, hpoint]
  | set error _ _ => simp [FreesEnv, AsksForEnv]
  | finish succeeded _ _ =>
      simp [FreesEnv, AsksForEnv, show ∀ thread, shared (s.finish t thread succeeded) = shared s
        from fun _ => rfl]

end Stale

/-! ### Runs -/

section Runs

variable {s s' : GlobalState} {t t' : Nat} {thread thread' : GlobalThread}
  {before labels : List (Nat × GlobalAction)}

theorem runs_global : Runs GlobalState.step GlobalState.run :=
  ⟨fun _ => rfl, fun _ _ _ => rfl⟩

theorem sound_of_run (hrun : GlobalState.init.run labels = some s) : Sound s :=
  runs_global.invariant (fun h _ hstep => h.step hstep) sound_init hrun

theorem shared_of_run (h : Sound s) (hinit : s.initialized = true)
    (hrun : s.run labels = some s') : shared s' = shared s := by
  have hinvariant : Sound s' ∧ shared s' = shared s := by
    refine runs_global.invariant (I := fun s₁ => Sound s₁ ∧ shared s₁ = shared s) ?_ ⟨h, rfl⟩ hrun
    rintro s₁ s₂ ⟨hsound, hshared⟩ label hstep
    obtain ⟨-, -, -, -, hinit₁⟩ := Shared.mk.inj hshared
    exact ⟨hsound.step hstep,
      (hsound.shared_eq (hinit₁.trans hinit) hstep).trans hshared⟩
  exact hinvariant.2

theorem keySound_of_run (hrun : GlobalState.init.run labels = some s) : KeySound s :=
  runs_global.invariant (fun h _ hstep => h.step hstep)
    (show KeySound .init from fun hsome => absurd rfl hsome) hrun

/-- The first thread creates a context. -/
def created : List (Nat × GlobalAction) :=
  (0, .start (.create "dpiContext_createWithParams")) ::
    List.replicate 13 (0, .proceed .ok) ++ [(0, .finish true)]

/-- OCI is never given a handle that it has not made or has freed, and what the
initialization has made is there from then on, unchanged. -/
theorem initialized_once (hbefore : GlobalState.init.run before = some s)
    (hrun : s.run labels = some s') :
    s.faulted = false ∧
      (s.initialized = true → Ready s ∧ s'.initialized = true ∧ shared s' = shared s) := by
  have h := sound_of_run hbefore
  refine ⟨h.faulted, fun hinit => ?_⟩
  have hshared := shared_of_run h hinit hrun
  obtain ⟨-, -, -, -, hinit'⟩ := Shared.mk.inj hshared
  exact ⟨h.ready hinit, hinit'.trans hinit, hshared⟩

theorem initialized_once_second_thread : ∃ s s', GlobalState.init.run created = some s ∧
    s.run [(1, .start (.create "dpiContext_createWithParams")), (1, .proceed .ok)] = some s' ∧
    s.initialized = true ∧ s.faulted = false ∧
      (s.initialized = true → Ready s ∧ s'.initialized = true ∧ shared s' = shared s) := by
  have hruns : ∃ s s', GlobalState.init.run created = some s ∧
      s.run [(1, .start (.create "dpiContext_createWithParams")), (1, .proceed .ok)] = some s' ∧
      s.initialized = true := ⟨_, _, rfl, rfl, rfl⟩
  obtain ⟨s, s', hbefore, hrun, hinit⟩ := hruns
  exact ⟨s, s', hbefore, hrun, hinit, initialized_once hbefore hrun⟩

/-- A thread that has the mutex is never held up, and it is out of the initialization after
at most seven steps of its own, however they end. -/
theorem mutex_released (hbefore : GlobalState.init.run before = some s)
    (hmutex : s.mutex = some t) :
    (∃ s', s.step (t, .proceed .ok) = some s') ∧
      ∀ labels s', s.run labels = some s' → 7 ≤ labels.countP (fun label => label.1 = t) →
        ∃ first rest s₁, labels = first ++ rest ∧ s.run first = some s₁ ∧ s₁.mutex = none := by
  have h := sound_of_run hbefore
  obtain ⟨thread, hthread, hcritical⟩ := (h.mutex_iff t).mp hmutex
  constructor
  · obtain ⟨s', hsucceed⟩ := succeed_of_critical s t hcritical
    exact ⟨s', by simp only [GlobalState.step, hthread]; exact hsucceed⟩
  · intro labels s' hrun hcount
    refine exists_released h hthread hcritical hrun (Nat.le_trans ?_ hcount)
    cases thread.point <;> decide

theorem mutex_released_loading : ∃ s,
    GlobalState.init.run (created.take 4) = some s ∧ s.mutex = some 0 ∧
      (∃ s', s.step (0, .proceed .ok) = some s') ∧
        ∀ labels s', s.run labels = some s' → 7 ≤ labels.countP (fun label => label.1 = 0) →
          ∃ first rest s₁, labels = first ++ rest ∧ s.run first = some s₁ ∧ s₁.mutex = none := by
  have hrun : ∃ s, GlobalState.init.run (created.take 4) = some s ∧ s.mutex = some 0 :=
    ⟨_, rfl, rfl⟩
  obtain ⟨s, hbefore, hmutex⟩ := hrun
  exact ⟨s, hbefore, hmutex, mutex_released hbefore hmutex⟩

theorem stale_iff (hrun : GlobalState.init.run labels = some s) :
    (shared s).Stale ↔ Since GlobalState.run FreesEnv AsksForEnv .init labels := by
  refine runs_global.since (I := Sound) (R := fun s => (shared s).Stale)
    (fun h _ hstep => h.step hstep) (fun h _ hstep => h.stale_step hstep) sound_init ?_ hrun
  rintro ⟨env, henv, -⟩
  cases henv

/-- The end of the process frees the environment twice exactly where a failed initialization
has freed the environment that it had made, and none has asked for another one since. -/
theorem finalize_faults_iff (hrun : GlobalState.init.run labels = some s)
    (hidle : ∀ u thread, s.threads u = some thread → ¬ Critical thread.point) (t : Nat) :
    ∃ s', s.finalize t = some s' ∧ s'.initialized = false ∧ s'.envHandle = none ∧
      (∀ env, s.envHandle = some env → get s'.environments env = none) ∧
      (s'.faulted = true ↔ Since GlobalState.run FreesEnv AsksForEnv .init labels) := by
  rw [← stale_iff hrun]
  exact (sound_of_run hrun).finalize (keySound_of_run hrun) hidle t

/-- There is no memory for the error handle of the environment. -/
def noErrorHandle : Nat × GlobalAction :=
  (0, .proceed (.fails (noMemory "create global error")))

theorem finalize_faults_iff_no_error_handle : ∃ s s',
    GlobalState.init.run (created.take 6 ++ [noErrorHandle] ++ [(0, .proceed .ok)]) = some s ∧
      s.finalize 0 = some s' ∧ s'.envHandle = none ∧ s'.faulted = true := by
  have hruns : ∃ s₁ s₂ s, GlobalState.init.run (created.take 6) = some s₁ ∧
      GlobalState.init.run (created.take 6 ++ [noErrorHandle]) = some s₂ ∧
      GlobalState.init.run (created.take 6 ++ [noErrorHandle] ++ [(0, .proceed .ok)]) = some s ∧
      (∃ thread, s₁.threads 0 = some thread ∧ thread.point = .allocatingError) ∧
      (∃ thread, s₂.threads 0 = some thread ∧ thread.point = .releasing) ∧ s.mutex = none :=
    ⟨_, _, _, rfl, rfl, rfl, ⟨_, rfl, rfl⟩, ⟨_, rfl, rfl⟩, rfl⟩
  obtain ⟨s₁, s₂, s, hfirst, hsecond, hrun, ⟨thread₁, hthread₁, hat₁⟩, ⟨thread₂, hthread₂, hat₂⟩,
    hmutex⟩ := hruns
  have hidle : ∀ u thread, s.threads u = some thread → ¬ Critical thread.point := by
    intro u thread hthread hcritical
    cases hmutex.symm.trans ((sound_of_run hrun).mutex_of_critical hthread hcritical)
  have hsince : Since GlobalState.run FreesEnv AsksForEnv .init
      (created.take 6 ++ [noErrorHandle] ++ [(0, .proceed .ok)]) := by
    refine (since_concat hsecond).mpr (.inr ⟨?_, ?_⟩)
    · exact (since_concat hfirst).mpr (.inl ⟨thread₁, hthread₁, .inl hat₁⟩)
    · rw [asksForEnv_iff hthread₂, hat₂]
      decide
  obtain ⟨s', hfinalize, -, henv, -, hiff⟩ := finalize_faults_iff hrun hidle 0
  exact ⟨s, s', hrun, hfinalize, henv, hiff.mpr hsince⟩

end Runs

end OracleNIO.GlobalInitialization
