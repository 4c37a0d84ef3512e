import OracleNIO.GlobalInitialization

/-!
The errors that the threads of ODPI-C are told of.  A thread that has found its own buffer
is told of its own errors, whatever the other threads do; before that it is told what is in
the one buffer that all share.
-/

namespace OracleNIO.GlobalErrors

open Dpi LabelledRuns GlobalInitialization

/-- The buffer at the beginning of a call. -/
def begun (call : GlobalCall) (buffer : Option ErrorBuffer) : ErrorBuffer :=
  let buffer := buffer.getD .zero
  (call.fnName.map buffer.start).getD buffer

/-- The buffer after these errors, in order. -/
def recorded (buffer : ErrorBuffer) (errors : List ErrorSource) : ErrorBuffer :=
  errors.foldl ErrorBuffer.record buffer

/-- What the calls of a thread leave in its buffer; the last call comes first. -/
def left (t : Nat) : List GlobalEntry → Option ErrorBuffer
  | [] => none
  | entry :: history =>
      if entry.thread = t ∧ entry.ownBuffer = true then
        some (recorded (begun entry.call (left t history)) entry.errors)
      else left t history

/-- What is in the buffer of the thread, when it is in a call or not. -/
def holding (t : Nat) (history : List GlobalEntry) : Option GlobalThread → Option ErrorBuffer
  | some thread =>
      if thread.ownBuffer = true then
        some (recorded (begun thread.call (left t history)) thread.errors)
      else left t history
  | none => left t history

/-- A call with a buffer of its own has told its caller what this thread has put there. -/
def Told : List GlobalEntry → Prop
  | [] => True
  | entry :: history =>
      (entry.ownBuffer = true → ∀ info, entry.info = some info →
        info = (recorded (begun entry.call (left entry.thread history)) entry.errors).getInfo) ∧
      Told history

/-- What every reachable state keeps of the errors. -/
structure Kept (s : GlobalState) : Prop where
  buffers : ∀ t, s.buffers t = holding t s.history (s.threads t)
  initialized : ∀ entry ∈ s.history, entry.ownBuffer = true → s.initialized = true
  told : Told s.history

section History

variable {t : Nat} {entry : GlobalEntry} {history : List GlobalEntry}

theorem left_filter (t : Nat) (history : List GlobalEntry) :
    left t (history.filter fun entry => entry.thread = t) = left t history := by
  induction history with
  | nil => rfl
  | cons entry history ih =>
      by_cases hthread : entry.thread = t
      · rw [List.filter_cons_of_pos (by simpa using hthread)]
        simp only [left, ih]
      · rw [List.filter_cons_of_neg (by simpa using hthread), ih, left, if_neg]
        exact fun h => hthread h.1

theorem left_of_not_own (h : ∀ entry ∈ history, entry.ownBuffer = false) :
    left t history = none := by
  induction history with
  | nil => rfl
  | cons entry history ih =>
      rw [left, if_neg]
      · exact ih fun entry hentry => h entry (List.mem_cons_of_mem _ hentry)
      · rw [h entry List.mem_cons_self]
        simp

theorem left_cons_of_ne (h : entry.thread ≠ t) : left t (entry :: history) = left t history := by
  rw [left, if_neg fun hand => h hand.1]

theorem told_append {newer : List GlobalEntry} (h : Told (newer ++ history)) : Told history := by
  induction newer with
  | nil => exact h
  | cons entry newer ih => exact ih h.2

theorem recorded_append (buffer : ErrorBuffer) (errors : List ErrorSource) (error : ErrorSource) :
    recorded buffer (errors ++ [error]) = (recorded buffer errors).record error :=
  List.foldl_concat ..

end History

theorem kept_init : Kept .init where
  buffers := fun _ => rfl
  initialized := fun entry hentry => by cases hentry
  told := trivial

section Steps

variable {s s' : GlobalState} {t : Nat} {thread : GlobalThread} {x : Option GlobalThread}

theorem history_failAt (s : GlobalState) (t : Nat) (thread : GlobalThread) (error : ErrorSource)
    (point : GlobalPoint) : (s.failAt t thread error point).history = s.history := by
  change (s.report t thread error).history = s.history
  unfold GlobalState.report
  split <;> rfl

theorem Kept.move (h : Kept s) (hthreads : s'.threads = Function.update s.threads t x)
    (hbuffers : s'.buffers = s.buffers) (hhistory : s'.history = s.history)
    (hinit : s.initialized = true → s'.initialized = true)
    (hholding : holding t s.history x = holding t s.history (s.threads t)) : Kept s' where
  buffers := by
    intro other
    rw [hbuffers, hhistory, hthreads, h.buffers other]
    by_cases heq : other = t
    · rw [heq, Function.update_self, hholding]
    · rw [Function.update_of_ne heq]
  initialized := by
    rw [hhistory]
    exact fun entry hentry hown => hinit (h.initialized entry hentry hown)
  told := hhistory ▸ h.told

theorem Kept.congr (h : Kept s) (hthreads : s'.threads = s.threads)
    (hbuffers : s'.buffers = s.buffers) (hhistory : s'.history = s.history)
    (hinit : s.initialized = true → s'.initialized = true) : Kept s' := by
  refine h.move (t := 0) (x := s.threads 0) ?_ hbuffers hhistory hinit rfl
  rw [hthreads, Function.update_eq_self]

theorem Kept.goto (h : Kept s) (hthread : s.threads t = some thread)
    (hown : thread.ownBuffer = false) {point : GlobalPoint} : Kept (s.goto t thread point) := by
  refine h.move rfl rfl rfl id ?_
  rw [hthread]
  simp [holding, hown]

theorem Kept.failAt (h : Kept s) (hthread : s.threads t = some thread)
    (hown : thread.ownBuffer = false) {error : ErrorSource} {point : GlobalPoint} :
    Kept (s.failAt t thread error point) := by
  refine h.move threads_failAt (buffers_report_of_global hown) (history_failAt ..)
    key_failAt.2.trans ?_
  rw [hthread]
  simp [holding, hown]

theorem Kept.takeBuffer (h : Kept s) (hthread : s.threads t = some thread)
    (hown : thread.ownBuffer = false) {buffer : ErrorBuffer}
    (hbuffer : (s.buffers t).getD .zero = buffer) : Kept (s.takeBuffer t thread buffer) := by
  have hleft : s.buffers t = left t s.history := by
    rw [h.buffers t, hthread]
    simp [holding, hown]
  constructor
  · intro other
    by_cases heq : other = t
    · subst heq
      have hbegun : begun thread.call (left other s.history) =
          (thread.call.fnName.map buffer.start).getD buffer := by
        rw [begun, ← hleft, hbuffer]
      simp [GlobalState.takeBuffer, GlobalState.setThread, holding, recorded, hbegun]
    · have hother := h.buffers other
      simpa [GlobalState.takeBuffer, GlobalState.setThread, Function.update_of_ne heq] using hother
  · exact h.initialized
  · exact h.told

/-- A new key is made while no call has had a buffer of its own. -/
theorem Kept.newKey (h : Kept s) (hsound : Sound s) (hinit : s.initialized = false)
    {thread' : GlobalThread} (hthreads : s'.threads = Function.update s.threads t (some thread'))
    (hown : thread'.ownBuffer = false) (hbuffers : ∀ other, s'.buffers other = none)
    (hhistory : s'.history = s.history) : Kept s' := by
  have hnobody : ∀ entry ∈ s.history, entry.ownBuffer = false := by
    intro entry hentry
    by_contra hentryOwn
    rw [Bool.not_eq_false] at hentryOwn
    cases hinit.symm.trans (h.initialized entry hentry hentryOwn)
  constructor
  · intro other
    rw [hbuffers, hhistory, hthreads]
    have hleft : left other s.history = none := left_of_not_own hnobody
    by_cases heq : other = t
    · simp [heq, holding, hown, left_of_not_own hnobody]
    · rw [Function.update_of_ne heq]
      cases hother : s.threads other with
      | none => exact hleft.symm
      | some thread'' =>
          have hnot : thread''.ownBuffer = false := by
            by_contra hyes
            rw [Bool.not_eq_false] at hyes
            cases hinit.symm.trans ((hsound.threads other _ hother).own hyes).2.1
          simp [holding, hnot, hleft]
  · intro entry hentry hentryOwn
    rw [hhistory] at hentry
    cases (hnobody entry hentry).symm.trans hentryOwn
  · exact hhistory ▸ h.told

theorem Kept.succeed (h : Kept s) (hsound : Sound s) (hthread : s.threads t = some thread)
    (hstep : s.succeed t thread = some s') : Kept s' := by
  have hholds := (hsound.threads t thread hthread).point
  have hown : thread.point ≠ .running → thread.ownBuffer = false := hsound.own_eq_false hthread
  unfold GlobalState.succeed at hstep
  split at hstep
  case h_1 hpoint =>
    replace hown := hown (by rw [hpoint]; decide)
    split at hstep
    · cases hstep
      exact h.goto hthread hown
    · split at hstep
      · cases hstep
        exact h.goto hthread hown
      · cases hstep
        exact h.failAt hthread hown
  case h_2 hpoint =>
    obtain ⟨-, heq⟩ := Option.ite_none_right_eq_some.mp hstep
    cases heq
    refine Kept.goto ?_ ?_ (hown (by rw [hpoint]; decide))
    · exact h.congr rfl rfl rfl id
    · exact hthread
  case h_7 hpoint =>
    cases hstep
    rw [hpoint] at hholds
    replace hown := hown (by rw [hpoint]; decide)
    exact h.newKey hsound hholds.1 rfl hown (fun _ => rfl) rfl
  case h_8 hpoint =>
    cases hstep
    refine Kept.goto ?_ ?_ (hown (by rw [hpoint]; decide))
    · exact h.congr rfl rfl rfl fun _ => rfl
    · exact hthread
  case h_11 hpoint =>
    rw [hpoint] at hholds
    replace hown := hown (by rw [hpoint]; decide)
    rw [usesKey_of_ready (hsound.ready hholds)] at hstep
    split at hstep
    next buffer hbuffer =>
      cases hstep
      exact h.takeBuffer hthread hown (by rw [hbuffer]; rfl)
    next =>
      cases hstep
      exact h.goto hthread hown
  case h_13 hpoint =>
    cases hstep
    rw [hpoint] at hholds
    replace hown := hown (by rw [hpoint]; decide)
    rw [usesKey_of_ready (hsound.ready hholds.1)]
    exact h.takeBuffer hthread hown (by rw [hholds.2]; rfl)
  case h_14 => cases hstep
  case h_15 => cases hstep
  all_goals
    next hpoint =>
      cases hstep
      refine Kept.goto ?_ ?_ (hown (by rw [hpoint]; decide))
      · exact h.congr rfl rfl rfl id
      · exact hthread

theorem Kept.fail (h : Kept s) (hsound : Sound s) (hthread : s.threads t = some thread)
    {error : ErrorSource} (hstep : s.fail t thread error = some s') : Kept s' := by
  have hown : thread.point ≠ .running → thread.ownBuffer = false := hsound.own_eq_false hthread
  unfold GlobalState.fail at hstep
  obtain ⟨-, hstep⟩ := Option.ite_none_right_eq_some.mp hstep
  split at hstep
  case h_2 hpoint =>
    cases hstep
    refine Kept.failAt ?_ ?_ (hown (by rw [hpoint]; decide))
    · exact h.congr rfl rfl rfl id
    · exact hthread
  case h_3 hpoint =>
    cases hstep
    refine Kept.failAt ?_ ?_ (hown (by rw [hpoint]; decide))
    · exact h.congr rfl rfl rfl id
    · exact hthread
  case h_4 hpoint =>
    cases hstep
    refine Kept.failAt ?_ ?_ (hown (by rw [hpoint]; decide))
    · exact h.congr rfl rfl rfl id
    · exact hthread
  case h_5 hpoint =>
    cases hstep
    refine Kept.failAt ?_ ?_ (hown (by rw [hpoint]; decide))
    · exact h.congr rfl rfl rfl id
    · exact hthread
  case h_7 hpoint =>
    cases hstep
    refine Kept.failAt ?_ ?_ (hown (by rw [hpoint]; decide))
    · exact h.congr rfl rfl rfl id
    · exact hthread
  case h_8 => cases hstep
  all_goals
    next hpoint =>
      cases hstep
      exact h.failAt hthread (hown (by rw [hpoint]; decide))

theorem Kept.bufferOf (h : Kept s) (hthread : s.threads t = some thread)
    (hown : thread.ownBuffer = true) :
    s.bufferOf t thread = recorded (begun thread.call (left t s.history)) thread.errors := by
  rw [GlobalState.bufferOf, if_pos hown, h.buffers t, hthread, holding, if_pos hown]
  rfl

theorem Kept.set (h : Kept s) (hthread : s.threads t = some thread) (error : ErrorSource) :
    Kept (s.failAt t thread error .running) := by
  cases hown : thread.ownBuffer with
  | false => exact h.failAt hthread hown
  | true =>
      constructor
      · intro other
        rw [history_failAt, threads_failAt]
        by_cases heq : other = t
        · subst heq
          have hbuffer := h.bufferOf hthread hown
          simp only [Function.update_self, holding, hown, if_true, recorded_append]
          rw [← hbuffer]
          simp [GlobalState.failAt, GlobalState.goto, GlobalState.setThread, GlobalState.report,
            hown]
        · rw [Function.update_of_ne heq, buffers_failAt_of_ne heq]
          exact h.buffers other
      · rw [history_failAt, key_failAt.2]
        exact h.initialized
      · rw [history_failAt]
        exact h.told

theorem Kept.finish (h : Kept s) (hsound : Sound s) (hthread : s.threads t = some thread)
    (succeeded : Bool) : Kept (s.finish t thread succeeded) := by
  constructor
  · intro other
    have hbuffers := h.buffers other
    by_cases heq : other = t
    · subst heq
      rw [hthread] at hbuffers
      simp only [GlobalState.finish, GlobalState.setThread, Function.update_self, holding, left,
        true_and]
      exact hbuffers
    · simp only [GlobalState.finish, GlobalState.setThread, Function.update_of_ne heq]
      rw [hbuffers]
      have hleft : left other (⟨t, thread.call, thread.ownBuffer, thread.errors,
          s.infoFor t thread succeeded⟩ :: s.history) = left other s.history :=
        left_cons_of_ne (Ne.symm heq)
      cases s.threads other with
      | none => exact hleft.symm
      | some thread' => simp only [holding, hleft]
  · intro entry hentry hown
    rcases List.mem_cons.mp hentry with rfl | hentry
    · exact ((hsound.threads t thread hthread).own hown).2.1
    · exact h.initialized entry hentry hown
  · refine ⟨fun hown info hinfo => ?_, h.told⟩
    have hbuffer := h.bufferOf hthread hown
    simp only [GlobalState.infoFor] at hinfo
    split at hinfo
    · cases hinfo
      rw [hbuffer]
    · split at hinfo
      · cases hinfo
      · cases hinfo
        rw [hbuffer]
    · cases hinfo

theorem Kept.step (h : Kept s) (hsound : Sound s) {label : Nat × GlobalAction}
    (hstep : s.step label = some s') : Kept s' := by
  obtain ⟨t, action⟩ := label
  cases stepped hstep with
  | start call hnone =>
      refine h.move rfl rfl rfl id ?_
      rw [hnone]
      rfl
  | ok hthread hsucceed => exact h.succeed hsound hthread hsucceed
  | fails hthread hfail => exact h.fail hsound hthread hfail
  | halfway error hthread hpoint =>
      refine Kept.failAt ?_ ?_ (hsound.own_eq_false hthread (by rw [hpoint]; decide))
      · exact h.congr rfl rfl rfl id
      · exact hthread
  | set error hthread hpoint => exact h.set hthread error
  | finish succeeded hthread hpoint => exact h.finish hsound hthread succeeded

end Steps

section Runs

variable {s : GlobalState} {labels : List (Nat × GlobalAction)}

theorem kept_of_run (hrun : GlobalState.init.run labels = some s) : Kept s := by
  have hinvariant : Sound s ∧ Kept s := by
    refine runs_global.invariant (I := fun s => Sound s ∧ Kept s) ?_ ⟨sound_init, kept_init⟩ hrun
    rintro s₁ s₂ ⟨hsound, hkept⟩ label hstep
    exact ⟨hsound.step hstep, hkept.step hsound hstep⟩
  exact hinvariant.2

/-- A call that has found the buffer of its thread tells what the calls of this thread have
put there; those of the other threads do not matter. -/
theorem own_info (hrun : GlobalState.init.run labels = some s) {newer older : List GlobalEntry}
    {entry : GlobalEntry} {info : ErrorDetails} (hhistory : s.history = newer ++ entry :: older)
    (hown : entry.ownBuffer = true) (hinfo : entry.info = some info) :
    info = (recorded (begun entry.call (left entry.thread
      (older.filter fun other => other.thread = entry.thread))) entry.errors).getInfo := by
  have htold := (kept_of_run hrun).told
  rw [hhistory] at htold
  rw [left_filter]
  exact (told_append htold).1 hown info hinfo

/-- A first error leaves nothing of what was in the buffer before. -/
theorem recorded_start (buffer : ErrorBuffer) (fnName : String) {errors : List ErrorSource}
    (herrors : errors ≠ []) :
    recorded (buffer.start fnName) errors = recorded (ErrorBuffer.zero.start fnName) errors := by
  obtain ⟨error, errors, rfl⟩ := List.exists_cons_of_ne_nil herrors
  have hfirst : (buffer.start fnName).record error =
      (ErrorBuffer.zero.start fnName).record error := by
    cases error with
    | set action errorNum text => rfl
    | errorGet action code text => rfl
    | setFromOCI action encoding code text warning isRecoverable => cases warning <;> rfl
  rw [recorded, recorded, List.foldl_cons, List.foldl_cons, hfirst]

theorem left_append {t : Nat} {between older : List GlobalEntry}
    (h : ∀ entry ∈ between, entry.thread ≠ t) : left t (between ++ older) = left t older := by
  induction between with
  | nil => rfl
  | cons entry between ih =>
      rw [List.cons_append, left_cons_of_ne (h entry List.mem_cons_self)]
      exact ih fun entry hentry => h entry (List.mem_cons_of_mem _ hentry)

/-- The error that a thread asks for is that of its last call, if this has recorded one: its
function, and what it has recorded. -/
theorem last_error (hrun : GlobalState.init.run labels = some s)
    {newer between older : List GlobalEntry} {asked failed : GlobalEntry} {fnName : String}
    {info : ErrorDetails} (hhistory : s.history = newer ++ asked :: (between ++ failed :: older))
    (hasked : asked.call = .getError) (hvalid : asked.errors = [])
    (hown : asked.ownBuffer = true) (hinfo : asked.info = some info)
    (hbetween : ∀ entry ∈ between, entry.thread ≠ asked.thread)
    (hthread : failed.thread = asked.thread) (hfailed : failed.ownBuffer = true)
    (hname : failed.call.fnName = some fnName) (herrors : failed.errors ≠ []) :
    info = (recorded (ErrorBuffer.zero.start fnName) failed.errors).getInfo := by
  have htold := (kept_of_run hrun).told
  rw [hhistory] at htold
  have heq := (told_append htold).1 hown info hinfo
  rw [left_append hbetween, left, if_pos ⟨hthread, hfailed⟩, hasked, hvalid] at heq
  have hbegun : begun failed.call (left asked.thread older) =
      ((left asked.thread older).getD .zero).start fnName := by
    rw [begun, hname]
    rfl
  rw [hbegun, recorded_start _ _ herrors] at heq
  exact heq

end Runs

/-- The first thread asks for the error of its call after the second thread has had one. -/
def asking : List (Nat × GlobalAction) :=
  [(0, .start (.function "dpiStmt_execute")), (0, .proceed .ok), (0, .proceed .ok),
    (1, .start (.function "dpiConn_ping")), (0, .set (noMemory "allocate")),
    (1, .proceed .ok), (1, .proceed .ok), (1, .proceed .ok), (1, .proceed .ok),
    (1, .set (tlsError "ping")), (0, .finish false), (1, .finish false),
    (0, .start .getError), (0, .proceed .ok), (0, .proceed .ok), (0, .finish true)]

theorem last_error_two_threads : ∃ s info, GlobalState.init.run (created ++ asking) = some s ∧
    s.history.head?.bind GlobalEntry.info = some info ∧
    info = (recorded (ErrorBuffer.zero.start "dpiStmt_execute") [noMemory "allocate"]).getInfo := by
  refine ⟨_, _, rfl, rfl, ?_⟩
  exact @last_error _ (created ++ asking) rfl []
    [⟨1, .function "dpiConn_ping", true, [tlsError "ping"], none⟩]
    [⟨0, .create "dpiContext_createWithParams", true, [], none⟩] ⟨0, .getError, true, [], _⟩
    ⟨0, .function "dpiStmt_execute", true, [noMemory "allocate"], none⟩ _ _ rfl rfl rfl rfl rfl
    (by simp) rfl rfl rfl (by simp)

theorem own_info_two_threads : ∃ s info, GlobalState.init.run (created ++ asking) = some s ∧
    s.history.head?.bind GlobalEntry.info = some info ∧
    info = (recorded (begun .getError (left 0 ((s.history.drop 1).filter fun other =>
      other.thread = 0))) []).getInfo := by
  refine ⟨_, _, rfl, rfl, ?_⟩
  exact @own_info _ (created ++ asking) rfl [] _ ⟨0, .getError, true, [], _⟩ _ rfl rfl rfl

-- Before there is a context the threads share one buffer, and a call that fails to create one
-- tells of the error of another thread.
example : (GlobalState.init.run
    [(0, .start (.create "dpiContext_createWithParams")), (0, .proceed .ok), (0, .proceed .ok),
      (0, .proceed .ok), (0, .proceed (.fails (noMemory "load library"))),
      (1, .start (.function "dpiConn_ping")), (1, .proceed .ok),
      (0, .proceed .ok), (0, .proceed .ok), (0, .finish false)]).map
        (fun s => s.history.head?.bind fun entry =>
          entry.info.map fun info => (entry.thread, info.fnName, info.action)) =
    some (some (0, some "dpiConn_ping", some "check context creation")) := by
  decide

end OracleNIO.GlobalErrors
