import OracleNIO.FailingCalls
import OracleNIO.LabelledRuns
import OracleNIO.WorkerPool

/-!
The error that a query fails with and the call that recorded it, for queries that run on
the threads of a pool.
-/

namespace OracleNIO.ErrorAttribution

open Interaction Prog SwiftRuntime ByteMemory Dpi EventLoop OracleConnection StatementCalls
  FailingCalls WorkerPool LabelledRuns

/-- An operation with the error that it has recorded. -/
abbrev Recorded := TaskEvent × Option ErrorInfo

/-- The buffer is cleared at the start of a public function; the text of its message stays. -/
def record (buffer : ErrorInfo) (x : Recorded) : ErrorInfo :=
  if recordsError x.1.op then x.2.getD { buffer with code := 0, messageLength := 0 } else buffer

/-- The error buffer of a thread after these calls. -/
def bufferAfter (buffer : ErrorInfo) (log : List Recorded) : ErrorInfo :=
  log.foldl record buffer

/-- An open connection. -/
structure Session where
  handle : ConnHandle
  context : ContextHandle

/-- The fields are those of the open connection, a call that fails records its error, and
`dpiContext_getError` returns what is in the buffer. -/
def admissible (session : Session) (buffer : ErrorInfo) : Recorded → Bool
  | (⟨.readHandle, reply⟩, _) =>
      let conn : Option ConnHandle := reply
      conn == some session.handle
  | (⟨.readContext, reply⟩, _) =>
      let context : Option ContextHandle := reply
      context == some session.context
  | (⟨.dpi (.contextGetError _), reply⟩, _) =>
      let info : ErrorInfo := reply
      info == buffer
  | (⟨.dpi c, reply⟩, recorded) => c.succeeded reply || recorded.isSome
  | _ => true

/-- Every operation of the log is admissible where it has been performed. -/
def Answered (session : Session) : ErrorInfo → List Recorded → Prop
  | _, [] => True
  | buffer, x :: log =>
      admissible session buffer x = true ∧ Answered session (record buffer x) log

/-- The last call that records an error if it fails. -/
def lastRecorded (log : List Recorded) : Option Recorded :=
  (log.filter fun x => recordsError x.1.op).getLast?

section Log

variable {session : Session} {buffer : ErrorInfo} {log : List Recorded} {x : Recorded}

theorem bufferAfter_snoc : bufferAfter buffer (log ++ [x]) = record (bufferAfter buffer log) x :=
  List.foldl_concat ..

theorem answered_append {rest : List Recorded} : Answered session buffer (log ++ rest) ↔
    Answered session buffer log ∧ Answered session (bufferAfter buffer log) rest := by
  induction log generalizing buffer with
  | nil => simp [Answered, bufferAfter]
  | cons x log ih => simp [Answered, bufferAfter, ih, and_assoc]

theorem answered_snoc (h : Answered session buffer log)
    (hx : admissible session (bufferAfter buffer log) x = true) :
    Answered session buffer (log ++ [x]) :=
  answered_append.mpr ⟨h, hx, trivial⟩

theorem record_unrecorded (hx : recordsError x.1.op = false) : record buffer x = buffer := by
  simp [record, hx]

theorem admissible_failed (hx : admissible session buffer x = true)
    (hop : recordsError x.1.op = true) (hfailed : Failed x.1) : ∃ info, x.2 = some info := by
  rcases x with ⟨⟨op, reply⟩, recorded⟩
  cases op with
  | dpi c =>
      have hcall : admissible session buffer (⟨.dpi c, reply⟩, recorded) =
          (c.succeeded reply || recorded.isSome) := by
        cases c with
        | contextGetError _ => cases hop
        | _ => rfl
      have hstatus : c.succeeded reply = false := hfailed
      rw [hcall, hstatus, Bool.false_or] at hx
      exact Option.isSome_iff_exists.mp hx
  | _ => cases hop

theorem recorded_of_failed (h : Answered session buffer log) (hlast : lastRecorded log = some x)
    (hfailed : Failed x.1) : ∃ info, x.2 = some info := by
  obtain ⟨hmem, hop⟩ := List.mem_filter.mp (List.mem_of_getLast? hlast)
  obtain ⟨before, after, rfl⟩ := List.append_of_mem hmem
  exact admissible_failed (answered_append.mp h).2.1 hop hfailed

theorem lastRecorded_of_unrecorded {before after : List Recorded}
    (hx : recordsError x.1.op = true) (hafter : ∀ y ∈ after, recordsError y.1.op = false) :
    lastRecorded (before ++ x :: after) = some x := by
  have hnone : after.filter (fun x => recordsError x.1.op) = [] := by
    simpa using hafter
  simp [lastRecorded, List.filter_append, hx, hnone]

/-- The error read after a call is the one that the call has recorded. -/
theorem read_recorded (h : Answered session buffer log) {error : OracleError}
    {tr rest : List TaskEvent} (hlog : log.map Prod.fst = tr ++ rest)
    (hread : ErrorRead x.1 error tr) (hrest : ∀ e ∈ rest, recordsError e.op = false)
    (hlast : lastRecorded log = some x) (hfailed : Failed x.1) :
    ∃ info, x.2 = some info ∧ error = .ofErrorInfo info := by
  have hop : recordsError x.1.op = true := by
    have hmem := List.mem_of_getLast? hlast
    exact (List.mem_filter.mp hmem).2
  generalize he : x.1 = e at hread
  cases hread with
  | read done context info =>
      rw [List.append_assoc] at hlog
      obtain ⟨before, _, rfl, rfl, hafter⟩ := List.map_eq_append_iff.mp hlog
      obtain ⟨y, _, rfl, hy, hread⟩ := List.map_eq_cons_iff.mp hafter
      obtain ⟨z, _, rfl, hz, hgot⟩ := List.map_eq_cons_iff.mp hread
      obtain ⟨w, after, rfl, hw, rfl⟩ := List.map_eq_cons_iff.mp hgot
      have hunrecorded : recordsError z.1.op = false ∧ recordsError w.1.op = false := by
        rw [hz, hw]
        exact ⟨rfl, rfl⟩
      have hcall : lastRecorded (before ++ y :: z :: w :: after) = some y := by
        apply lastRecorded_of_unrecorded
        · rw [hy, ← he, hop]
        · rw [List.forall_mem_cons, List.forall_mem_cons]
          exact ⟨hunrecorded.1, hunrecorded.2, fun v hv => hrest v.1 (List.mem_map_of_mem hv)⟩
      cases hcall.symm.trans hlast
      obtain ⟨_, hcalled, _, hreply, _⟩ := answered_append.mp h
      obtain ⟨info', hinfo⟩ := admissible_failed hcalled hop hfailed
      have hbuffer : record (bufferAfter buffer before) x = info' := by
        simp [record, hop, hinfo]
      rw [record_unrecorded hunrecorded.1, hbuffer] at hreply
      refine ⟨info', hinfo, ?_⟩
      rcases w with ⟨_, recorded⟩
      cases hw
      rw [show info = info' from eq_of_beq hreply]
  | noContext done error =>
      rw [List.append_assoc] at hlog
      obtain ⟨before, _, rfl, rfl, hafter⟩ := List.map_eq_append_iff.mp hlog
      obtain ⟨y, _, rfl, _, hread⟩ := List.map_eq_cons_iff.mp hafter
      obtain ⟨⟨_, recorded⟩, after, rfl, rfl, _⟩ := List.map_eq_cons_iff.mp hread
      obtain ⟨_, _, hreply, _⟩ := answered_append.mp h
      have hnone : (none : Option ContextHandle) = some session.context := eq_of_beq hreply
      cases hnone

end Log

section Pool

variable {σ ε : Type}

/-- A call of `query` with what its operations have recorded.  Its system has the event loop
as this query sees it, where the work of all others is `other`. -/
structure Query (σ ε : Type) where
  session : Session
  query : OracleQuery
  onRow : OracleRow → σ → Except ε Unit × σ
  closure : σ
  system : RowDelivery.System σ ε
  log : List Recorded

/-- A query that has been submitted and has done nothing. -/
def Query.init (rt : Runtime) (session : Session) (query : OracleQuery)
    (onRow : OracleRow → σ → Except ε Unit × σ) (closure : σ) : Query σ ε :=
  ⟨session, query, onRow, closure, .init rt query closure, []⟩

/-- The pool with its queries, and the error buffer of each thread. -/
structure System (σ ε : Type) where
  pool : Pool (Query σ ε)
  buffers : Nat → ErrorInfo

/-- What goes on around the operations of the pool task. -/
inductive Turn where
  | restart
  | loop
  | other

def Turn.label : Turn → RowDelivery.Label
  | .restart => .restart
  | .loop => .loop
  | .other => .other

/-- One step, of the application, of a thread or of an event loop. -/
inductive Label (σ ε : Type) where
  | query (session : Session) (query : OracleQuery)
      (onRow : OracleRow → σ → Except ε Unit × σ) (closure : σ)
  | start (thread : Nat)
  | perform (thread : Nat) (e : TaskEvent) (recorded : Option ErrorInfo)
  | turn (thread : Nat) (turn : Turn)
  | finish (thread : Nat)
  | turnEnded (index : Nat) (turn : Turn)

/-- An event loop takes a turn for the query. -/
def Query.turn (rt : Runtime) (q : Query σ ε) (turn : Turn) : Option (Query σ ε) :=
  (q.system.step rt q.onRow turn.label).map fun system => { q with system }

/-- The query performs its next operation on a thread with the buffer. -/
def Query.perform (rt : Runtime) (q : Query σ ε) (buffer : ErrorInfo) (x : Recorded) :
    Option (Query σ ε) :=
  if admissible q.session buffer x then
    (q.system.step rt q.onRow (.pool x.1)).map fun system =>
      { q with system, log := q.log ++ [x] }
  else none

namespace System

def init (buffers : Nat → ErrorInfo) : System σ ε :=
  ⟨.empty, buffers⟩

def step (rt : Runtime) (numberOfThreads : Nat) (s : System σ ε) :
    Label σ ε → Option (System σ ε)
  | .query session query onRow closure =>
      some { s with pool := s.pool.submit (.init rt session query onRow closure) }
  | .start thread => (s.pool.start numberOfThreads thread).map fun pool => { s with pool }
  | .perform thread e recorded =>
      (s.pool.running thread).bind fun q =>
        (q.perform rt (s.buffers thread) (e, recorded)).map fun q =>
          { pool := s.pool.set thread (some q)
            buffers := Function.update s.buffers thread
              (record (s.buffers thread) (e, recorded)) }
  | .turn thread turn =>
      (s.pool.running thread).bind fun q =>
        (q.turn rt turn).map fun q => { s with pool := s.pool.set thread (some q) }
  | .finish thread =>
      match s.pool.running thread with
      | some q =>
          match q.system.task with
          | .pure (.inr ()) => some { s with pool := s.pool.finish thread q }
          | _ => none
      | none => none
  | .turnEnded index turn =>
      (s.pool.ended[index]?).bind fun q =>
        (q.turn rt turn).map fun q => { s with pool := s.pool.setEnded index q }

def run (rt : Runtime) (numberOfThreads : Nat) :
    System σ ε → List (Label σ ε) → Option (System σ ε)
  | s, [] => some s
  | s, label :: labels => (s.step rt numberOfThreads label).bind fun s' =>
      s'.run rt numberOfThreads labels

end System

/-- The log is that of the task, answered by a buffer with some contents at the start. -/
structure Sound (rt : Runtime) (q : Query σ ε) (buffer : ErrorInfo) : Prop where
  delivers : RowDelivery.Invariant rt q.query q.onRow q.closure q.system
  history : q.log.map Prod.fst = q.system.history
  answered : Answered q.session buffer q.log

/-- The buffer of the thread is what the operations of its task have left. -/
def Current (rt : Runtime) (buffers : Nat → ErrorInfo) (thread : Nat) (q : Query σ ε) : Prop :=
  ∃ buffer, Sound rt q buffer ∧ buffers thread = bufferAfter buffer q.log

/-- What every reachable state keeps. -/
def Invariant (rt : Runtime) (s : System σ ε) : Prop :=
  s.pool.Satisfies (fun q => (∀ buffer, Sound rt q buffer) ∧ q.log = []) (Current rt s.buffers)
    fun q => ∃ buffer, Sound rt q buffer

variable {rt : Runtime} {numberOfThreads : Nat} {s s' : System σ ε} {q q' : Query σ ε}
  {buffer : ErrorInfo}

theorem sound_init (rt : Runtime) (session : Session) (query : OracleQuery)
    (onRow : OracleRow → σ → Except ε Unit × σ) (closure : σ) (buffer : ErrorInfo) :
    Sound rt (.init rt session query onRow closure) buffer :=
  ⟨.init rt query onRow closure, rfl, trivial⟩

theorem history_perform {system : RowDelivery.System σ ε} {e : TaskEvent}
    (hstep : q.system.step rt q.onRow (.pool e) = some system) :
    system.history = q.system.history ++ [e] := by
  cases RowDelivery.stepped_of_step hstep with
  | pool _ _ => rfl

theorem history_turn {system : RowDelivery.System σ ε} {turn : Turn}
    (hstep : q.system.step rt q.onRow turn.label = some system) :
    system.history = q.system.history := by
  cases turn with
  | restart =>
      cases RowDelivery.stepped_of_step hstep with
      | restart _ => rfl
  | loop =>
      cases RowDelivery.stepped_of_step hstep with
      | loop _ => rfl
  | other =>
      cases RowDelivery.stepped_of_step hstep with
      | other => rfl

theorem sound_turn (h : Sound rt q buffer) {turn : Turn} (hturn : q.turn rt turn = some q') :
    Sound rt q' buffer ∧ q'.log = q.log := by
  obtain ⟨system, hsystem, rfl⟩ := Option.map_eq_some_iff.mp hturn
  refine ⟨⟨RowDelivery.invariant_step h.delivers hsystem, ?_, h.answered⟩, rfl⟩
  exact h.history.trans (history_turn hsystem).symm

theorem sound_perform (h : Sound rt q buffer) {x : Recorded}
    (hperform : q.perform rt (bufferAfter buffer q.log) x = some q') :
    Sound rt q' buffer ∧ q'.log = q.log ++ [x] := by
  unfold Query.perform at hperform
  split at hperform
  case isFalse => cases hperform
  case isTrue hx =>
      obtain ⟨system, hsystem, rfl⟩ := Option.map_eq_some_iff.mp hperform
      refine ⟨⟨RowDelivery.invariant_step h.delivers hsystem, ?_, answered_snoc h.answered hx⟩,
        rfl⟩
      rw [history_perform hsystem, ← h.history, List.map_append]
      rfl

theorem Invariant.init (rt : Runtime) (buffers : Nat → ErrorInfo) :
    Invariant rt (.init buffers : System σ ε) :=
  Pool.satisfies_empty ..

theorem invariant_step (h : Invariant rt s) {label : Label σ ε}
    (hstep : s.step rt numberOfThreads label = some s') : Invariant rt s' := by
  cases label with
  | query session query onRow closure =>
      cases hstep
      exact h.submit ⟨sound_init rt session query onRow closure, rfl⟩
  | start thread =>
      obtain ⟨pool, hstart, rfl⟩ := Option.map_eq_some_iff.mp hstep
      apply h.start hstart
      rintro q ⟨hsound, hlog⟩
      refine ⟨s.buffers thread, hsound _, ?_⟩
      rw [hlog]
      rfl
  | perform thread e recorded =>
      obtain ⟨q, hq, hstep⟩ := Option.bind_eq_some_iff.mp hstep
      obtain ⟨q', hperform, rfl⟩ := Option.map_eq_some_iff.mp hstep
      obtain ⟨buffer, hsound, hbuffer⟩ := h.running thread q hq
      rw [hbuffer] at hperform
      obtain ⟨hsound', hlog⟩ := sound_perform hsound hperform
      apply h.set
      · refine ⟨buffer, hsound', ?_⟩
        rw [hlog, bufferAfter_snoc, ← hbuffer]
        exact Function.update_self ..
      · rintro i t hi ⟨buffer', hsound', hbuffer'⟩
        refine ⟨buffer', hsound', ?_⟩
        rw [← hbuffer']
        exact Function.update_of_ne hi ..
  | turn thread turn =>
      obtain ⟨q, hq, hstep⟩ := Option.bind_eq_some_iff.mp hstep
      obtain ⟨q', hturn, rfl⟩ := Option.map_eq_some_iff.mp hstep
      obtain ⟨buffer, hsound, hbuffer⟩ := h.running thread q hq
      obtain ⟨hsound', hlog⟩ := sound_turn hsound hturn
      apply h.set
      · exact ⟨buffer, hsound', hlog ▸ hbuffer⟩
      · exact fun _ _ _ hcurrent => hcurrent
  | finish thread =>
      simp only [System.step] at hstep
      split at hstep
      case h_2 => cases hstep
      case h_1 q hq =>
          split at hstep
          case h_2 => cases hstep
          case h_1 =>
              cases hstep
              obtain ⟨buffer, hsound, _⟩ := h.running thread q hq
              exact h.finish ⟨buffer, hsound⟩
  | turnEnded index turn =>
      obtain ⟨q, hq, hstep⟩ := Option.bind_eq_some_iff.mp hstep
      obtain ⟨q', hturn, rfl⟩ := Option.map_eq_some_iff.mp hstep
      obtain ⟨buffer, hsound⟩ := h.ended q (List.mem_of_getElem? hq)
      exact h.setEnded ⟨buffer, (sound_turn hsound hturn).1⟩

theorem runs_system (rt : Runtime) (numberOfThreads : Nat) :
    Runs (System.step rt numberOfThreads : System σ ε → Label σ ε → Option (System σ ε))
      (System.run rt numberOfThreads) :=
  ⟨fun _ => rfl, fun _ _ _ => rfl⟩

theorem invariant_run {labels : List (Label σ ε)} (h : Invariant rt s)
    (hrun : s.run rt numberOfThreads labels = some s') : Invariant rt s' :=
  (runs_system rt numberOfThreads).invariant invariant_step h hrun

theorem lastCall_log {log : List Recorded} {x : Recorded} (h : lastRecorded log = some x) :
    lastCall (log.map Prod.fst) = some x.1 := by
  rw [lastCall, List.filter_map, List.getLast?_map]
  exact congrArg (Option.map Prod.fst) h

theorem Sound.error_eq (h : Sound rt q buffer) {x : Recorded}
    (hlast : lastRecorded q.log = some x) (hfailed : Failed x.1)
    {r : Except (OracleError ⊕ ε) Unit} (hr : q.system.result = some r) :
    ∃ info, x.2 = some info ∧ r = .error (.inl (.ofErrorInfo info)) := by
  obtain ⟨submitted, err, hfinished, _, rfl⟩ := h.delivers.effect.completed r hr
  have hlog := h.history
  have hcall := lastCall_log hlast
  rw [hlog] at hcall
  generalize q.system.history = history at hlog hcall hfinished
  cases hfinished with
  | cascaded all hended =>
      rw [lastCall_append, lastCall_append] at hcall
      exact absurd hfailed ((ended_tells hended).1 x.1 hcall)
  | @failed tr _ e hended =>
      rw [lastCall_append] at hcall
      have hread := ended_tells hended x.1 hcall hfailed
      obtain ⟨info, hinfo, rfl⟩ := read_recorded h.answered hlog hread (by simp [recordsError])
        hlast hfailed
      exact ⟨info, hinfo, rfl⟩

theorem Sound.turns (h : Sound rt q buffer) (htask : q.system.task = .pure (.inr ())) :
    ∃ system r, q.system.run rt q.onRow (List.replicate q.system.loop.queue.length .loop) =
      some system ∧ system.result = some r ∧ Sound rt { q with system } buffer := by
  obtain ⟨system, hrun, _, _, hhistory⟩ := h.delivers.turns
  obtain ⟨system', hrun', hresult⟩ := h.delivers.delivers.completes htask
  cases hrun.symm.trans hrun'
  obtain ⟨r, hr⟩ := Option.isSome_iff_exists.mp hresult
  exact ⟨system, r, hrun, hr, RowDelivery.invariant_run h.delivers hrun,
    h.history.trans hhistory.symm, h.answered⟩

/-- In every state of any number of queries on any threads, a query whose last call has
failed fails with the code and the message that this very call has recorded. -/
theorem error_attributed (rt : Runtime) (numberOfThreads : Nat) (buffers : Nat → ErrorInfo)
    (labels : List (Label σ ε)) {s : System σ ε}
    (hrun : (System.init buffers).run rt numberOfThreads labels = some s) {q : Query σ ε}
    (hq : s.pool.Contains q) {e : TaskEvent} {recorded : Option ErrorInfo}
    (hlast : lastRecorded q.log = some (e, recorded)) (hfailed : Failed e) :
    ∃ info, recorded = some info ∧
      (∀ r, q.system.result = some r →
        r = .error (.inl ⟨.oracleError info.code, String.ofList (decode info.message)⟩)) ∧
      (q.system.task = .pure (.inr ()) → ∃ system,
        q.system.run rt q.onRow (List.replicate q.system.loop.queue.length .loop) =
            some system ∧ system.result =
          some (.error (.inl ⟨.oracleError info.code, String.ofList (decode info.message)⟩))) := by
  have hinvariant := invariant_run (.init rt buffers) hrun
  obtain ⟨buffer, hsound⟩ : ∃ buffer, Sound rt q buffer := by
    apply Pool.Satisfies.of_contains hinvariant hq
    · exact fun q hq => ⟨⟨0, [], 0⟩, hq.1 _⟩
    · rintro thread q ⟨buffer, hsound, _⟩
      exact ⟨buffer, hsound⟩
    · exact fun q hq => hq
  obtain ⟨info, hinfo⟩ := recorded_of_failed hsound.answered hlast hfailed
  have herror : ∀ {q : Query σ ε}, Sound rt q buffer → lastRecorded q.log = some (e, recorded) →
      ∀ r, q.system.result = some r →
        r = .error (.inl ⟨.oracleError info.code, String.ofList (decode info.message)⟩) := by
    intro q hsound hlast r hr
    obtain ⟨info', hinfo', hr'⟩ := hsound.error_eq hlast hfailed hr
    cases hinfo.symm.trans hinfo'
    exact hr'
  refine ⟨info, hinfo, herror hsound hlast, fun htask => ?_⟩
  obtain ⟨system, r, hturns, hr, hsound'⟩ := hsound.turns htask
  exact ⟨system, hturns, hr.trans (congrArg some (herror hsound' hlast r hr))⟩

def invalidIdentifier : ErrorInfo :=
  ⟨904, utf8 "invalid identifier", 18⟩

def noSuchTable : ErrorInfo :=
  ⟨942, utf8 "no such table", 13⟩

/-- Two queries that fail on two threads, each while the other is under way. -/
def twoFailures : List (Label Unit Empty) :=
  [.query ⟨⟨1⟩, ⟨2⟩⟩ ⟨"SELECT a", ⟨[]⟩⟩ (fun _ _ => (.ok (), ())) (),
    .query ⟨⟨11⟩, ⟨12⟩⟩ ⟨"SELECT b", ⟨[]⟩⟩ (fun _ _ => (.ok (), ())) (), .start 0, .start 1,
    .perform 0 ⟨.readHandle, some ⟨1⟩⟩ none, .perform 1 ⟨.readHandle, some ⟨11⟩⟩ none,
    .perform 0 ⟨.dpi (.connPrepareStmt ⟨1⟩ ⟨utf8 "SELECT a" ++ [0], 8⟩), some ⟨3⟩⟩
      none,
    .perform 1 ⟨.dpi (.connPrepareStmt ⟨11⟩ ⟨utf8 "SELECT b" ++ [0], 8⟩), some ⟨13⟩⟩
      none,
    .perform 0 ⟨.dpi (.stmtExecute ⟨3⟩ 0), none⟩ (some invalidIdentifier),
    .perform 1 ⟨.dpi (.stmtExecute ⟨13⟩ 0), none⟩ (some noSuchTable),
    .perform 1 ⟨.readContext, some ⟨12⟩⟩ none, .perform 0 ⟨.readContext, some ⟨2⟩⟩ none,
    .perform 1 ⟨.dpi (.contextGetError (some ⟨12⟩)), noSuchTable⟩ none,
    .perform 0 ⟨.dpi (.contextGetError (some ⟨2⟩)), invalidIdentifier⟩ none,
    .perform 0 ⟨.promiseFail ⟨.oracleError 904, "invalid identifier"⟩, ()⟩ none,
    .turn 0 .loop, .finish 0]

theorem twoFailures_attributed :
    ∃ s q, (System.init fun _ => ⟨0, [], 0⟩).run asciiRuntime 2 twoFailures = some s ∧
      s.pool.Contains q ∧
      q.system.result = some (.error (.inl ⟨.oracleError 904, "invalid identifier"⟩)) := by
  have hrun : ((System.init fun _ => ⟨0, [], 0⟩).run asciiRuntime 2 twoFailures).map
      (fun s => s.pool.ended.map fun q => ((lastRecorded q.log).map fun x =>
        (decide (Failed x.1), x.2), q.system.result.isSome)) =
          some [(some (true, some invalidIdentifier), true)] := by
    decide +kernel
  obtain ⟨s, hs, hended⟩ := Option.map_eq_some_iff.mp hrun
  obtain ⟨q, rest, hq, hquery, _⟩ := List.map_eq_cons_iff.mp hended
  obtain ⟨hlast, hresult⟩ := Prod.mk.inj hquery
  obtain ⟨⟨e, recorded⟩, hlast, hrecorded⟩ := Option.map_eq_some_iff.mp hlast
  obtain ⟨hfailed, rfl⟩ := Prod.mk.inj hrecorded
  obtain ⟨r, hr⟩ := Option.isSome_iff_exists.mp hresult
  have hcontains : s.pool.Contains q := .inr (.inr (by simp [hq]))
  obtain ⟨info, hinfo, herror, _⟩ := error_attributed asciiRuntime 2 _ twoFailures hs hcontains
    hlast (of_decide_eq_true hfailed)
  cases hinfo
  exact ⟨s, q, hs, hcontains, hr.trans (congrArg some (herror r hr))⟩

end Pool

end OracleNIO.ErrorAttribution
