import OracleNIO.RowDelivery
import OracleNIO.StatementCalls

/-!
What the outcome of a function of the package tells of the failures of the ODPI-C calls
it has made.
-/

namespace OracleNIO.FailingCalls

open Interaction Prog SwiftRuntime Dpi OracleConnection StatementCalls

/-- A call of a public function that clears and sets the error of the thread. -/
def recordsError : Op → Bool
  | .dpi (.contextGetError _) => false
  | .dpi _ => true
  | _ => false

/-- A call that is given a handle that is nil. -/
def onNil : Op → Bool
  | .dpi (.contextDestroy none) | .dpi (.contextGetError none)
  | .dpi (.connCreate none _ _ _ _ _) | .dpi (.connClose none _)
  | .dpi (.connNewVar none _ _ _ _ _ _) | .dpi (.stmtBindByPos _ _ none)
  | .dpi (.varRelease none) => true
  | _ => false

/-- `dpiGen__checkHandle`: a call on a handle that is nil fails, where it has a status. -/
def ChecksHandle (e : TaskEvent) : Prop :=
  recordsError e.op = true → onNil e.op = true → Failed e

/-- The last call that records an error if it fails. -/
def lastCall (tr : List TaskEvent) : Option TaskEvent :=
  (tr.filter fun e => recordsError e.op).getLast?

/-- Right after the call its error has been read, unless the connection has no context. -/
inductive ErrorRead (e : TaskEvent) : OracleError → List TaskEvent → Prop
  | read (tr : List TaskEvent) (context : ContextHandle) (info : ErrorInfo) :
      ErrorRead e (.ofErrorInfo info) (tr ++ [e, ⟨.readContext, some context⟩,
        ⟨.dpi (.contextGetError (some context)), info⟩])
  | noContext (tr : List TaskEvent) (error : OracleError) :
      ErrorRead e error (tr ++ [e, ⟨.readContext, none⟩])

variable {α β : Type}

/-- A returned value tells that no call has failed, and an error after a failing call
has been read right after it. -/
def Tells (tr : List TaskEvent) : Outcome OracleError α → Prop
  | .value _ => (∀ e ∈ lastCall tr, ¬ Failed e) ∧
      ((∀ e ∈ tr, ChecksHandle e) → ∀ e ∈ tr, ¬ Failed e)
  | .error error => ∀ e ∈ lastCall tr, Failed e → ErrorRead e error tr
  | .trap => True

/-- What the program throws is what the last call told. -/
def Reports (p : Task α) : Prop :=
  ∀ tr out, p.Runs tr out → Tells tr out

section Tells

variable {tr rest : List TaskEvent}

theorem lastCall_append :
    lastCall (tr ++ rest) = (lastCall rest).or (lastCall tr) := by
  simp [lastCall, List.filter_append, List.getLast?_append]

theorem ErrorRead.append_left {e : TaskEvent} {error : OracleError}
    (h : ErrorRead e error rest) (tr : List TaskEvent) : ErrorRead e error (tr ++ rest) := by
  cases h with
  | read rest context info =>
      rw [← List.append_assoc]
      exact .read _ context info
  | noContext rest error =>
      rw [← List.append_assoc]
      exact .noContext _ error

theorem tells_append {a : α} {out : Outcome OracleError β} (htr : Tells tr (.value a))
    (hrest : Tells rest out) : Tells (tr ++ rest) out := by
  rcases htr with ⟨hlast, hall⟩
  cases out with
  | value b =>
      rcases hrest with ⟨hlast', hall'⟩
      constructor
      · rw [lastCall_append]
        intro e he
        rcases Option.or_eq_some_iff.mp he with he | ⟨_, he⟩
        · exact hlast' e he
        · exact hlast e he
      · intro hchecks
        rw [List.forall_mem_append] at hchecks ⊢
        exact ⟨hall hchecks.1, hall' hchecks.2⟩
  | error error =>
      intro e he hfailed
      rw [lastCall_append] at he
      rcases Option.or_eq_some_iff.mp he with he | ⟨_, he⟩
      · exact (hrest e he hfailed).append_left tr
      · exact absurd hfailed (hlast e he)
  | trap => trivial

theorem tells_event {e : TaskEvent} (h : ¬ Failed e) : Tells [e] (.value ()) := by
  constructor
  · intro e' he'
    have hmem := List.mem_of_mem_filter (List.mem_of_getLast? he')
    rwa [List.mem_singleton.mp hmem]
  · intro _ e' he'
    rwa [List.mem_singleton.mp he']

end Tells

theorem tells_nil (a : α) : Tells [] (.value a) := by
  simp [Tells, lastCall]

theorem tells_uncalled {tr : List TaskEvent} {error : OracleError} (h : lastCall tr = none) :
    Tells tr (.error error : Outcome OracleError α) := by
  simp [Tells, h]

theorem reports_pure (a : α) : Reports (Prog.pure a) := by
  rintro tr out ⟨rfl, rfl⟩
  exact tells_nil a

theorem reports_ofOutcome (out : Outcome OracleError α) : Reports (Prog.ofOutcome out) := by
  cases out with
  | value a => exact reports_pure a
  | error e =>
      rintro tr out ⟨rfl, rfl⟩
      exact tells_uncalled rfl
  | trap =>
      rintro tr out ⟨rfl, rfl⟩
      trivial

theorem reports_bind {p : Task α} {f : α → Task β} (hp : Reports p)
    (hf : ∀ a, Reports (f a)) : Reports (p >>= f) := by
  intro tr out hrun
  obtain ⟨a, tr₁, tr₂, rfl, hrun₁, hrun₂⟩ | ⟨e, rfl, hrun'⟩ | ⟨rfl, _⟩ := runs_bind hrun
  · exact tells_append (hp tr₁ _ hrun₁) (hf a tr₂ out hrun₂)
  · exact hp tr _ hrun'
  · trivial

theorem reports_perform_bind (op : Op) (hop : ∀ r, ¬ Failed ⟨op, r⟩)
    {f : op.Reply → Task α} (hf : ∀ r, Reports (f r)) : Reports (perform op >>= f) := by
  rintro tr out ⟨r, rest, rfl, hrun⟩
  exact tells_append (tells_event (hop r)) (hf r rest out hrun)

theorem runs_throwLast_bind (e : TaskEvent) {f : α → Task β} {tr : List TaskEvent}
    {out : Outcome OracleError β} (hrun : (throwLast >>= f).Runs tr out) :
    ∃ error, out = .error error ∧ lastCall tr = none ∧ ErrorRead e error (e :: tr) := by
  rcases hrun with ⟨context, rest, rfl, hrun⟩
  cases context with
  | none =>
      rcases hrun with ⟨rfl, rfl⟩
      exact ⟨_, rfl, rfl, .noContext [] _⟩
  | some context =>
      rcases hrun with ⟨info, rest, rfl, rfl, rfl⟩
      exact ⟨_, rfl, rfl, .read [] context info⟩

theorem reports_throwLast : Reports (throwLast : Task α) := by
  rintro tr out ⟨context, rest, rfl, hrun⟩
  cases context with
  | none =>
      rcases hrun with ⟨rfl, rfl⟩
      exact tells_uncalled rfl
  | some context =>
      rcases hrun with ⟨info, rest, rfl, rfl, rfl⟩
      exact tells_uncalled rfl

theorem tells_throwLast {e : TaskEvent} (hop : recordsError e.op = true)
    (before : List TaskEvent) {f : α → Task β} {tr : List TaskEvent}
    {out : Outcome OracleError β} (hrun : (throwLast >>= f).Runs tr out) :
    Tells (before ++ e :: tr) out := by
  obtain ⟨error, rfl, hlast, hread⟩ := runs_throwLast_bind e hrun
  intro e' he' _
  have hcall : lastCall (e :: tr) = some e := by
    rw [← List.singleton_append, lastCall_append, hlast]
    simp [lastCall, hop]
  rw [lastCall_append, hcall] at he'
  cases he'
  exact hread.append_left before

theorem not_failed_of_succeeded {call : DpiCall} {r : call.Reply}
    (h : call.succeeded r = true) : ¬ Failed ⟨.dpi call, r⟩ := by
  intro hfailed
  exact absurd (hfailed.symm.trans h) Bool.false_ne_true

theorem reports_guarded (call : DpiCall) (reply? : call.Reply → Option β) {f : β → Task α}
    (hop : recordsError (.dpi call) = true)
    (hreply : ∀ r b, reply? r = some b → call.succeeded r = true) (hf : ∀ b, Reports (f b)) :
    Reports (dpi call >>= fun r => orThrowLast (reply? r) >>= f) := by
  rintro tr out ⟨r, rest, rfl, hrun⟩
  change (orThrowLast (reply? r) >>= f).Runs rest out at hrun
  cases hr : reply? r with
  | some b =>
      rw [hr] at hrun
      have hevent := tells_event (not_failed_of_succeeded (hreply r b hr))
      exact tells_append hevent (hf b rest out hrun)
  | none =>
      rw [hr] at hrun
      exact tells_throwLast hop [] hrun

theorem orThrowLast_bind_pure (a? : Option α) : orThrowLast a? >>= Prog.pure = orThrowLast a? := by
  cases a? with
  | some a => rfl
  | none =>
      change Prog.call _ _ = Prog.call _ _
      congr 1
      funext context
      cases context with
      | none => rfl
      | some context => rfl

theorem reports_last (call : DpiCall) (reply? : call.Reply → Option α)
    (hop : recordsError (.dpi call) = true)
    (hreply : ∀ r b, reply? r = some b → call.succeeded r = true) :
    Reports (dpi call >>= fun r => orThrowLast (reply? r)) := by
  have h := reports_guarded call reply? hop hreply reports_pure
  simpa only [orThrowLast_bind_pure] using h

theorem reports_collect {ι : Type} {f : ι → Task α} (xs : List ι) (hf : ∀ x, Reports (f x)) :
    Reports (collect f xs) := by
  induction xs with
  | nil => exact reports_pure []
  | cons x xs ih =>
      apply reports_bind (hf x)
      intro a
      apply reports_bind ih
      intro as
      exact reports_pure (a :: as)

theorem reports_init (rt : Runtime) (query : String) :
    Reports (OracleStatement.init rt query) := by
  apply reports_perform_bind .readHandle fun _ h => h
  intro conn
  cases conn with
  | none =>
      rintro tr out ⟨rfl, rfl⟩
      exact tells_uncalled rfl
  | some conn =>
      apply reports_bind (reports_ofOutcome _)
      intro sql
      apply reports_guarded (.connPrepareStmt conn sql) (fun r => r) rfl
      · rintro r b rfl
        rfl
      · intro handle
        exact reports_pure _

variable (statement : OracleStatement)

theorem reports_bindValueByPos (pos : UInt32) (nativeType : NativeType) (data : DpiData)
    (memory : List UInt8) : Reports (statement.bindValueByPos pos nativeType data memory) := by
  apply reports_guarded (.stmtBindValueByPos statement.handle pos nativeType data memory)
    (fun r => r) rfl
  · rintro r b rfl
    rfl
  · intro _
    exact reports_pure statement

/-- A variable that has not been created is bound, which fails. -/
theorem tells_bindNil (newVar : TaskEvent) {pos : UInt32} {tr : List TaskEvent}
    {out : Outcome OracleError OracleStatement} (hrun : (do
      orThrowLast (← dpi (.stmtBindByPos statement.handle pos none))
      return { statement with vars := statement.vars ++ [none] } :
        Task OracleStatement).Runs tr out) : Tells (newVar :: tr) out := by
  rcases hrun with ⟨r, rest, rfl, hrun⟩
  cases r with
  | some _ =>
      rcases hrun with ⟨rfl, rfl⟩
      have hbound : ¬ Failed ⟨.dpi (.stmtBindByPos statement.handle pos none), some ()⟩ :=
        not_failed_of_succeeded rfl
      constructor
      · rw [← List.singleton_append, lastCall_append]
        rintro e ⟨⟩
        exact hbound
      · intro hchecks
        exact absurd (hchecks _ (by simp) rfl rfl) hbound
  | none => exact tells_throwLast rfl [newVar] hrun

theorem reports_bindValue (rt : Runtime) (pos : UInt32) (value : OracleData) :
    Reports (statement.bindValue rt pos value) := by
  have hcall := reports_bindValueByPos statement pos
  cases value with
  | integer v => exact hcall _ _ _
  | float v => exact hcall _ _ _
  | double v => exact hcall _ _ _
  | text v => exact reports_bind (reports_ofOutcome _) fun arg => hcall _ _ _
  | timestamp v =>
      apply reports_perform_bind .now fun _ h => h
      intro now
      exact reports_bind (reports_ofOutcome _) fun timestamp => hcall _ _ _
  | blob v => exact hcall _ _ _
  | null => exact hcall _ _ _
  | raw v =>
      apply reports_perform_bind .readHandle fun _ h => h
      intro conn
      apply reports_bind (reports_ofOutcome _)
      rintro size tr out ⟨var, rest, rfl, hrun⟩
      cases var with
      | some var =>
          exact tells_append (tells_event (not_failed_of_succeeded rfl))
            (reports_throwLast rest out hrun)
      | none => exact tells_bindNil statement _ hrun

theorem reports_bindFrom (rt : Runtime) (i : Nat) (values : List OracleData) :
    Reports (statement.bindFrom rt i values) := by
  induction values generalizing statement i with
  | nil => exact reports_pure statement
  | cons value values ih =>
      apply reports_bind (reports_ofOutcome _)
      intro pos
      apply reports_bind (reports_bindValue statement rt pos value)
      intro bound
      exact ih bound (i + 1)

theorem reports_execute : Reports statement.execute := by
  apply reports_guarded (.stmtExecute statement.handle 0) (fun r => r) rfl
  · rintro r b rfl
    rfl
  · intro _
    exact reports_pure ()

theorem reports_column (i : Nat) : Reports (statement.column i) := by
  apply reports_bind (reports_ofOutcome _)
  intro pos
  apply reports_guarded (.stmtGetQueryInfo statement.handle pos) (fun r => r) rfl
  · rintro r b rfl
    rfl
  · intro queryInfo
    exact reports_ofOutcome _

theorem reports_columns : Reports statement.columns := by
  apply reports_guarded (.stmtGetNumQueryColumns statement.handle) (fun r => r) rfl
  · rintro r b rfl
    rfl
  · intro count
    apply reports_bind (reports_collect _ (reports_column statement))
    intro names
    exact reports_pure _

theorem reports_data (i : Nat) : Reports (statement.data i) := by
  apply reports_bind (reports_ofOutcome _)
  intro pos
  apply reports_guarded (.stmtGetQueryValue statement.handle pos) (fun r => r) rfl
  · rintro r b rfl
    rfl
  · intro value
    apply reports_guarded (.stmtGetQueryInfo statement.handle pos) (fun r => r) rfl
    · rintro r b rfl
      rfl
    · intro queryInfo
      cases value.data with
      | none => exact reports_throwLast
      | some data => exact reports_ofOutcome _

theorem reports_cleanup : Reports statement.cleanup := by
  apply reports_bind
  · apply reports_collect
    intro var
    apply reports_last (.varRelease var) (fun r => r) rfl
    rintro r b rfl
    rfl
  · intro _
    apply reports_last (.stmtRelease statement.handle) (fun r => r) rfl
    rintro r b rfl
    rfl

theorem reports_nextRow (columns : OracleColumnOffsets) :
    Reports (statement.nextRow columns) := by
  apply reports_guarded (.stmtFetch statement.handle) (fun r => r) rfl
  · rintro r b rfl
    rfl
  · intro fetched
    split
    · apply reports_bind (reports_cleanup statement)
      intro _
      exact reports_pure none
    · apply reports_guarded (.stmtGetNumQueryColumns statement.handle) (fun r => r) rfl
      · rintro r b rfl
        rfl
      · intro count
        apply reports_bind (reports_collect _ (reports_data statement))
        intro row
        exact reports_pure _

theorem reports_prepare (rt : Runtime) (q : OracleQuery) : Reports (prepare rt q) := by
  apply reports_bind (reports_init rt q.sql)
  intro statement
  apply reports_bind (reports_bindFrom statement rt 0 q.binds.values)
  intro bound
  apply reports_bind (reports_execute bound)
  intro _
  apply reports_bind (reports_columns bound)
  intro columns
  exact reports_pure (bound, columns)

section Query

open RowDelivery

variable {rt : Runtime} {q : OracleQuery} {h : List TaskEvent}
  {submitted : List (OracleRow × Nat)}

theorem fetched_tells {statement : OracleStatement} {columns : OracleColumnOffsets}
    (hh : Fetched rt q statement columns h submitted) : Tells h (.value ()) := by
  induction hh with
  | start hrun => exact reports_prepare rt q _ _ hrun
  | row callback _ hrun ih =>
      have hfetch := tells_append ih (reports_nextRow statement columns _ _ hrun)
      exact tells_append hfetch (tells_event fun hfailed => hfailed)

/-- The result of a task that has ended. -/
def ending : Option OracleError → Outcome OracleError Unit
  | none => .value ()
  | some e => .error e

theorem ended_tells {err : Option OracleError} (hh : Ended rt q h submitted err) :
    Tells h (ending err) := by
  cases hh with
  | unprepared hrun => exact reports_prepare rt q _ _ hrun
  | failed hfetched hrun =>
      exact tells_append (fetched_tells hfetched) (reports_nextRow _ _ _ _ hrun)
  | done hfetched hrun =>
      exact tells_append (fetched_tells hfetched) (reports_nextRow _ _ _ _ hrun)

end Query

end OracleNIO.FailingCalls
