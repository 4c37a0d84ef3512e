import OracleNIO.ClosedHandle
import OracleNIO.ConnectRuns
import OracleNIO.FailingCalls
import OracleNIO.LabelledRuns

/-!
Whether the future of an operation tells of the failures of its calls.
-/

namespace OracleNIO.FailureReports

open Interaction Prog SwiftRuntime EventLoop Dpi OracleConnection StatementCalls FailingCalls
  ConnectRuns LabelledRuns

/-- One call of `close`: what is left of its pool task, the event loop, and the fields of
the connection. -/
structure Closing where
  task : Task Unit
  history : List TaskEvent
  loop : Loop LoopTask (OracleError ⊕ Empty)
  connection : OracleConnection

namespace Closing

/-- A step of the thread that runs `close`, or a turn of the event loop. -/
inductive Label where
  | pool (e : TaskEvent)
  | loop

/-- `close` has been called. -/
def init (connection : OracleConnection) : Closing :=
  ⟨close, [], ⟨1, [], .init⟩, connection⟩

def step (s : Closing) : Label → Option Closing
  | .pool e =>
      match s.task.advance e, enqueueEvent 0 s.loop e with
      | some task, some loop =>
          if ClosedHandle.ReadsFields s.connection e then
            some { s with task, loop, history := s.history ++ [e] }
          else none
      | _, _ => none
  | .loop =>
      match s.loop.turn ClosedHandle.performTask s.connection with
      | some (loop, connection) => some { s with loop, connection }
      | none => none

def run : Closing → List Label → Option Closing
  | s, [] => some s
  | s, label :: labels => (s.step label).bind fun s' => s'.run labels

/-- The result of the future that `close` returns. -/
def result (s : Closing) : Option (Except (OracleError ⊕ Empty) Unit) :=
  s.loop.promises.result 0

end Closing

/-- The calls of `close`, whatever they return. -/
def calling (handle : Option ConnHandle) (closed : Option Unit) (context : Option ContextHandle)
    (destroyed : Option Unit) : List TaskEvent :=
  [⟨.readHandle, handle⟩, ⟨.dpi (.connClose handle 0), closed⟩, ⟨.readContext, context⟩,
    ⟨.dpi (.contextDestroy context), destroyed⟩]

/-- The calls with those that clear the fields. -/
def clearing (calls : List TaskEvent) (cleared : Nat) : List TaskEvent :=
  calls ++ [⟨.submitClear, cleared⟩] ++ [⟨.cascade cleared, ()⟩]

theorem mem_clearing {handle : Option ConnHandle} {closed : Option Unit}
    {context : Option ContextHandle} {destroyed : Option Unit} {cleared : Nat} {e : TaskEvent}
    (he : e ∈ clearing (calling handle closed context destroyed) cleared) :
    e = ⟨.readHandle, handle⟩ ∨ e = ⟨.dpi (.connClose handle 0), closed⟩ ∨
      e = ⟨.readContext, context⟩ ∨ e = ⟨.dpi (.contextDestroy context), destroyed⟩ ∨
        e = ⟨.submitClear, cleared⟩ ∨ e = ⟨.cascade cleared, ()⟩ := by
  simpa only [clearing, calling, List.cons_append, List.nil_append, List.mem_cons,
    List.not_mem_nil, or_false] using he

theorem runs_close {tr : List TaskEvent} {out : Outcome OracleError Unit}
    (hrun : close.Runs tr out) : ∃ handle closed context destroyed cleared,
      tr = clearing (calling handle closed context destroyed) cleared := by
  rcases hrun with ⟨handle, _, rfl, closed, _, rfl, context, _, rfl, destroyed, _, rfl,
    cleared, _, rfl, _, _, rfl, rfl, rfl⟩
  exact ⟨handle, closed, context, destroyed, cleared, rfl⟩

section Closing

open RowDelivery

variable {connection : OracleConnection} {s s' : Closing}

/-- What every reachable state keeps. -/
structure Invariant (connection : OracleConnection) (s : Closing) : Prop where
  follows : ∀ rest out, s.task.Runs rest out → close.Runs (s.history ++ rest) out
  names : ∀ n ∈ futures s.history, n ≠ 0
  next : s.loop.next ≠ 0
  ran : Ran ClosedHandle.performTask (.init, connection) (jobs s.history) s.loop s.connection

theorem Invariant.init (connection : OracleConnection) :
    Invariant connection (.init connection) where
  follows _ _ hrun := hrun
  names := by simp [Closing.init, futures]
  next := Nat.one_ne_zero
  ran := ⟨[], rfl, rfl⟩

/-- The future is completed at the end, when the fields have been cleared. -/
inductive Effect (history : List TaskEvent) :
    Promises (OracleError ⊕ Empty) → OracleConnection → Prop
  | pending {p fields} : Quiet p → p.result 0 = none → Effect history p fields
  | done {p handle closed context destroyed cleared} : Quiet p → p.result 0 = some (.ok ()) →
      history = clearing (calling handle closed context destroyed) cleared →
      Effect history p ⟨none, none⟩

theorem Effect.quiet {history : List TaskEvent} {p : Promises (OracleError ⊕ Empty)}
    {fields : OracleConnection} (h : Effect history p fields) : Quiet p := by
  cases h with
  | pending hquiet _ => exact hquiet
  | done hquiet _ _ => exact hquiet

section Jobs

variable {history : List TaskEvent} {cleared : Nat}
  {executed : List (Job LoopTask (OracleError ⊕ Empty))}
  {p : Promises (OracleError ⊕ Empty)} {fields : OracleConnection}

/-- The promises after the fields have been cleared. -/
def cleared? (cleared : Nat) : Promises (OracleError ⊕ Empty) :=
  (.init : Promises (OracleError ⊕ Empty)).complete cleared (.ok ())

theorem cleared?_result (cleared : Nat) :
    (cleared? cleared).result = Function.update (fun _ => none) cleared (some (.ok ())) :=
  Quiet.result_complete rfl _

theorem cleared?_quiet (cleared : Nat) : Quiet (cleared? cleared) := by
  apply Quiet.complete
  exact ⟨rfl, fun _ => rfl⟩

theorem effect_clear (hcleared : cleared ≠ 0)
    (hexecuted : executed <+: [] ++ [.submit .clear cleared])
    (hrun : runAll ClosedHandle.performTask executed (.init, connection) = (p, fields)) :
    Effect history p fields := by
  rcases List.prefix_concat_iff.mp hexecuted with rfl | hnil
  · cases hrun
    apply Effect.pending (cleared?_quiet cleared)
    rw [cleared?_result, Function.update_of_ne hcleared.symm]
  · cases List.prefix_nil.mp hnil
    cases hrun
    exact .pending ⟨rfl, fun _ => rfl⟩ rfl

theorem effect_cascade (hcleared : cleared ≠ 0) {handle : Option ConnHandle}
    {closed : Option Unit} {context : Option ContextHandle} {destroyed : Option Unit}
    (hhistory : history = clearing (calling handle closed context destroyed) cleared)
    (hexecuted : executed <+:
      [.submit .clear cleared] ++ [.whenComplete cleared (.cascade 0)])
    (hrun : runAll ClosedHandle.performTask executed (.init, connection) = (p, fields)) :
    Effect history p fields := by
  rcases List.prefix_concat_iff.mp hexecuted with rfl | hclear
  · have hdone : (cleared? cleared).result cleared = some (.ok ()) := by
      rw [cleared?_result, Function.update_self]
    have hnone : (cleared? cleared).result 0 = none := by
      rw [cleared?_result, Function.update_of_ne hcleared.symm]
    obtain ⟨hquiet, hresult⟩ := cascade_complete (cleared?_quiet cleared) hdone hnone
    cases hrun
    refine .done hquiet ?_ hhistory
    change ((cleared? cleared).whenComplete cleared (.cascade 0)).result 0 = _
    rw [hresult, Function.update_self]
  · exact effect_clear hcleared hclear hrun

end Jobs

theorem Invariant.history (h : Invariant connection s) :
    ∃ handle closed context destroyed cleared,
      s.history <+: clearing (calling handle closed context destroyed) cleared := by
  have hnil : s.task.Performs [] := by simp [Performs]
  obtain ⟨rest, out, hrest⟩ := hnil.exists_runs reply_nonempty
  obtain ⟨handle, closed, context, destroyed, cleared, hclosing⟩ :=
    runs_close (h.follows rest out hrest)
  exact ⟨handle, closed, context, destroyed, cleared, rest, hclosing⟩

theorem Invariant.effect (h : Invariant connection s) :
    Effect s.history s.loop.promises s.connection := by
  obtain ⟨handle, closed, context, destroyed, cleared, hhistory⟩ := h.history
  obtain ⟨executed, hjobs, hrun⟩ := h.ran
  have hexecuted : executed <+: jobs s.history := hjobs ▸ List.prefix_append _ _
  rcases List.prefix_concat_iff.mp hhistory with hfull | hhistory
  · have hcleared : cleared ≠ 0 := h.names cleared (by rw [hfull]; exact List.mem_singleton_self _)
    refine effect_cascade hcleared hfull ?_ hrun
    rw [hfull] at hexecuted
    exact hexecuted
  · rcases List.prefix_concat_iff.mp hhistory with hsubmitted | hhistory
    · have hcleared : cleared ≠ 0 :=
        h.names cleared (by rw [hsubmitted]; exact List.mem_singleton_self _)
      refine effect_clear hcleared ?_ hrun
      rw [hsubmitted] at hexecuted
      exact hexecuted
    · have hnone : (jobs s.history : List (Job LoopTask (OracleError ⊕ Empty))) <+: [] :=
        hhistory.filterMap (job? 0)
      have hempty : executed <+: [] ++ [.submit .clear 1] :=
        (hexecuted.trans hnone).trans List.nil_prefix
      exact effect_clear Nat.one_ne_zero hempty hrun

theorem invariant_step (h : Invariant connection s) {label : Closing.Label}
    (hstep : s.step label = some s') : Invariant connection s' := by
  cases label with
  | pool e =>
      simp only [Closing.step] at hstep
      split at hstep
      case h_2 => cases hstep
      case h_1 task loop htask hloop =>
          split at hstep
          case isFalse => cases hstep
          case isTrue =>
              cases hstep
              obtain ⟨hqueue, hpromises, hnext⟩ := enqueueEvent_eq_some hloop
              refine ⟨?_, ?_, ?_, ?_⟩
              · intro rest out hrun
                rw [List.append_assoc]
                exact h.follows (e :: rest) out (runs_of_advance htask hrun)
              · rw [futures_snoc]
                intro n hn
                rcases List.mem_append.mp hn with hn | hn
                · exact h.names n hn
                · rcases hnext with ⟨hnew, _⟩ | ⟨hnew, _⟩
                  · rw [hnew] at hn
                    cases hn
                  · rw [hnew] at hn
                    rw [List.mem_singleton.mp hn]
                    exact h.next
              · rcases hnext with ⟨_, hnext⟩ | ⟨_, hnext⟩
                · rw [hnext]
                  exact h.next
                · rw [hnext]
                  exact Nat.succ_ne_zero _
              · rw [jobs_snoc]
                exact ran_append h.ran hqueue hpromises
  | loop =>
      simp only [Closing.step] at hstep
      split at hstep
      case h_2 => cases hstep
      case h_1 loop fields hturn =>
          cases hstep
          obtain ⟨hran, hnext⟩ := ran_turn h.ran h.effect.quiet.callbacks hturn
          exact ⟨h.follows, h.names, hnext ▸ h.next, hran⟩

theorem runs_closing : Runs Closing.step Closing.run :=
  ⟨fun _ => rfl, fun _ _ _ => rfl⟩

theorem invariant_run {labels : List Closing.Label} (h : Invariant connection s)
    (hrun : s.run labels = some s') : Invariant connection s' :=
  runs_closing.invariant invariant_step h hrun

/-- Whatever its calls return, a close that is done has succeeded and cleared the fields. -/
theorem Invariant.succeeded (h : Invariant connection s)
    {r : Except (OracleError ⊕ Empty) Unit} (hr : s.result = some r) :
    r = .ok () ∧ s.connection = ⟨none, none⟩ ∧ ∃ handle closed context destroyed cleared,
      s.history = clearing (calling handle closed context destroyed) cleared := by
  have heffect := h.effect
  generalize s.connection = fields at heffect
  generalize hp : s.loop.promises = p at heffect
  unfold Closing.result at hr
  rw [hp] at hr
  cases heffect with
  | pending _ hnone =>
      rw [hnone] at hr
      cases hr
  | done _ hdone hhistory =>
      rw [hdone] at hr
      exact ⟨(Option.some.inj hr).symm, rfl, _, _, _, _, _, hhistory⟩

theorem close_succeeds {labels : List Closing.Label} {r : Except (OracleError ⊕ Empty) Unit}
    (hrun : (Closing.init connection).run labels = some s) (hr : s.result = some r) :
    r = .ok () ∧ s.connection = ⟨none, none⟩ := by
  obtain ⟨hok, hcleared, _⟩ := (invariant_run (.init connection) hrun).succeeded hr
  exact ⟨hok, hcleared⟩

end Closing

theorem connect_reports {rt : Runtime} {authorizationMode : AuthorizationMode}
    {username password connectionString : String} {clientLibraryDir : Option String}
    {tr : List TaskEvent} {connection : OracleConnection}
    (hrun : (connect rt authorizationMode username password connectionString
      clientLibraryDir).Runs tr (.value connection)) : ∀ e ∈ tr, ¬ Failed e := by
  obtain ⟨first, context, handle, u, p, c, hfirst, rfl, rfl⟩ :=
    runs_connect_value authorizationMode hrun
  rw [List.forall_mem_append, List.forall_mem_cons, List.forall_mem_singleton]
  refine ⟨?_, not_failed_of_succeeded rfl, not_failed_of_succeeded rfl⟩
  cases hfirst with
  | none => exact List.forall_mem_nil _
  | some dir context => exact List.forall_mem_singleton.mpr (not_failed_of_succeeded rfl)

section Query

open RowDelivery

variable {rt : Runtime} {q : OracleQuery} {h : List TaskEvent}
  {submitted : List (OracleRow × Nat)}

theorem finished_reports (hh : Finished rt q h submitted none)
    (hchecks : ∀ e ∈ h, ChecksHandle e) : ∀ e ∈ h, ¬ Failed e := by
  cases hh with
  | cascaded all hended =>
      rw [List.forall_mem_append, List.forall_mem_append] at hchecks ⊢
      exact ⟨⟨(ended_tells hended).2 hchecks.1.1, by simp [Failed]⟩, by simp [Failed]⟩

theorem query_reports {σ ε : Type} {onRow : OracleRow → σ → Except ε Unit × σ} {c₀ : σ}
    {labels : List Label} {s : System σ ε}
    (hrun : (System.init rt q c₀).run rt onRow labels = some s) (hr : s.result = some (.ok ()))
    (hchecks : ∀ e ∈ s.history, ChecksHandle e) : ∀ e ∈ s.history, ¬ Failed e := by
  have hdelivers : Delivers rt q onRow c₀ s :=
    (RowDelivery.invariant_run (RowDelivery.Invariant.init rt q onRow c₀) hrun).delivers
  obtain ⟨submitted, err, hfinished, _, hverdict⟩ := hdelivers.completed _ hr
  obtain ⟨rfl, _⟩ := verdict_eq_ok.mp hverdict.symm
  exact finished_reports hfinished hchecks

end Query

/-- `close` with the fields of the connection that it is called on. -/
inductive Operation where
  | connect (authorizationMode : AuthorizationMode)
      (username password connectionString : String) (clientLibraryDir : Option String)
  | query (q : OracleQuery)
  | close (connection : OracleConnection)

/-- The future of the operation is completed after what it has performed, successfully or
not; after a close also with the fields as they are then. -/
inductive Completes (rt : Runtime) :
    Operation → List TaskEvent → Bool → Option OracleConnection → Prop
  | connected {authorizationMode username password connectionString clientLibraryDir tr
      connection} :
      (OracleConnection.connect rt authorizationMode username password connectionString
        clientLibraryDir).Runs tr (.value connection) →
      Completes rt
        (.connect authorizationMode username password connectionString clientLibraryDir) tr true
        none
  | refused {authorizationMode username password connectionString clientLibraryDir tr error} :
      (OracleConnection.connect rt authorizationMode username password connectionString
        clientLibraryDir).Runs tr (.error error) →
      Completes rt
        (.connect authorizationMode username password connectionString clientLibraryDir) tr false
        none
  | query {σ ε : Type} {q c₀ labels s r} {onRow : OracleRow → σ → Except ε Unit × σ} :
      (RowDelivery.System.init rt q c₀).run rt onRow labels = some s → s.result = some r →
      Completes rt (.query q) s.history r.isOk none
  | close {connection labels s r} : (Closing.init connection).run labels = some s →
      s.result = some r → Completes rt (.close connection) s.history r.isOk (some s.connection)

/-- No failure is swallowed, and a close that fails leaves the fields as they were. -/
def Faithful (operation : Operation) (tr : List TaskEvent) (succeeded : Bool)
    (fields : Option OracleConnection) : Prop :=
  (succeeded = true → ∀ e ∈ tr, ¬ Failed e) ∧
    ∀ connection, operation = .close connection → (∃ e ∈ tr, Failed e) →
      succeeded = false ∧ fields = some connection

variable {rt : Runtime} {operation : Operation} {tr : List TaskEvent} {succeeded : Bool}
  {fields : Option OracleConnection}

/-- The calls of `close` are the only ones whose failures are lost. -/
theorem faithful_iff (hcompletes : Completes rt operation tr succeeded fields)
    (hchecks : ∀ e ∈ tr, ChecksHandle e) :
    Faithful operation tr succeeded fields ↔
      ∀ connection, operation = .close connection → ∀ e ∈ tr, ¬ Failed e := by
  cases hcompletes with
  | connected hrun =>
      exact ⟨fun _ _ => nofun, fun _ => ⟨fun _ => connect_reports hrun, fun _ => nofun⟩⟩
  | refused hrun => exact ⟨fun _ _ => nofun, fun _ => ⟨nofun, fun _ => nofun⟩⟩
  | @query σ ε q c₀ labels s r onRow hrun hr =>
      refine ⟨fun _ _ => nofun, fun _ => ⟨fun hok => ?_, fun _ => nofun⟩⟩
      cases r with
      | ok _ => exact query_reports hrun hr hchecks
      | error e => cases hok
  | @close connection labels s r hrun hr =>
      obtain ⟨rfl, _⟩ := close_succeeds hrun hr
      constructor
      · intro hfaithful _ _
        exact hfaithful.1 rfl
      · intro hall
        refine ⟨fun _ => hall connection rfl, ?_⟩
        rintro _ _ ⟨e, he, hfailed⟩
        exact absurd hfailed (hall connection rfl e he)

/-- A run in which the connection is closed with the status. -/
def closingRun (status : Option Unit) : List Closing.Label :=
  [.pool ⟨.readHandle, some ⟨1⟩⟩, .pool ⟨.dpi (.connClose (some ⟨1⟩) 0), status⟩,
    .pool ⟨.readContext, some ⟨2⟩⟩, .pool ⟨.dpi (.contextDestroy (some ⟨2⟩)), some ()⟩,
    .pool ⟨.submitClear, (1 : Nat)⟩, .pool ⟨.cascade 1, ()⟩, .loop, .loop]

def closedWith (status : Option Unit) : List TaskEvent :=
  clearing (calling (some ⟨1⟩) status (some ⟨2⟩) (some ())) 1

theorem completes_close (rt : Runtime) (status : Option Unit) :
    Completes rt (.close ClosedHandle.connected) (closedWith status) true (some ⟨none, none⟩) := by
  obtain ⟨s, hrun, hhistory, hresult, hfields⟩ : ∃ s,
      (Closing.init ClosedHandle.connected).run (closingRun status) = some s ∧
        s.history = closedWith status ∧ s.result = some (.ok ()) ∧ s.connection = ⟨none, none⟩ :=
    ⟨_, rfl, rfl, rfl, rfl⟩
  have hcompletes : Completes rt _ _ _ _ := .close hrun hresult
  rw [hhistory, hfields] at hcompletes
  exact hcompletes

theorem checks_closedWith (status : Option Unit) : ∀ e ∈ closedWith status, ChecksHandle e := by
  intro e he _ hnil
  have hgiven : onNil e.op = false := by
    rcases mem_clearing he with rfl | rfl | rfl | rfl | rfl | rfl <;> rfl
  rw [hgiven] at hnil
  cases hnil

theorem close_faithful : Faithful (.close ClosedHandle.connected) (closedWith (some ())) true
    (some ⟨none, none⟩) := by
  rw [faithful_iff (completes_close asciiRuntime (some ())) (checks_closedWith (some ()))]
  intro _ _
  simp [closedWith, clearing, calling, Failed, DpiCall.succeeded]

/-- `dpiConn_close` fails, the future succeeds, and the fields are cleared. -/
theorem close_swallows :
    Completes asciiRuntime (.close ClosedHandle.connected) (closedWith none) true
        (some ⟨none, none⟩) ∧
      (∀ e ∈ closedWith none, ChecksHandle e) ∧
      ¬ Faithful (.close ClosedHandle.connected) (closedWith none) true (some ⟨none, none⟩) := by
  refine ⟨completes_close asciiRuntime none, checks_closedWith none, ?_⟩
  rintro ⟨hreported, _⟩
  exact hreported rfl ⟨.dpi (.connClose (some ⟨1⟩) 0), none⟩
    (by simp [closedWith, clearing, calling]) rfl

end OracleNIO.FailureReports
