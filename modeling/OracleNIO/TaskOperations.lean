import OracleNIO.OracleConnection

/-!
The operations that each function performs, under any contract that allows them.  The
handle and the context are used right after they have been read.
-/

namespace OracleNIO.TaskOperations

open Interaction Prog SwiftRuntime Dpi

variable {c : Contract Op Op.Reply} {α β : Type}

/-- The operations of `throwLast` are allowed. -/
structure ErrorOps (c : Contract Op Op.Reply) : Prop where
  readContext : ∀ h, c h .readContext
  getError : ∀ h context,
    c (h ++ [⟨.readContext, some context⟩]) (.dpi (.contextGetError (some context)))

/-- The operations of `OracleStatement.init`, for the text and its argument. -/
structure InitOps (c : Contract Op Op.Reply) (rt : Runtime) (query : String) : Prop where
  error : ErrorOps c
  readHandle : ∀ h, c h .readHandle
  prepareStmt : ∀ h conn sql, stringArgument rt query = .value sql →
    c (h ++ [⟨.readHandle, some conn⟩]) (.dpi (.connPrepareStmt conn sql))

/-- The operations of `bind` are allowed. -/
structure BindOps (c : Contract Op Op.Reply) (stmt : StmtHandle) : Prop where
  error : ErrorOps c
  readHandle : ∀ h, c h .readHandle
  now : ∀ h, c h .now
  newVar : ∀ h conn size,
    c (h ++ [⟨.readHandle, conn⟩]) (.dpi (.connNewVar conn .raw .bytes 0 size true false))
  bindValueByPos : ∀ h pos nativeType data memory,
    c h (.dpi (.stmtBindValueByPos stmt pos nativeType data memory))
  bindByPos : ∀ h pos var, c h (.dpi (.stmtBindByPos stmt pos var))

/-- The operations of a prepared statement are allowed. -/
structure FetchOps (c : Contract Op Op.Reply) (stmt : StmtHandle) : Prop where
  error : ErrorOps c
  execute : ∀ h mode, c h (.dpi (.stmtExecute stmt mode))
  numQueryColumns : ∀ h, c h (.dpi (.stmtGetNumQueryColumns stmt))
  queryInfo : ∀ h pos, c h (.dpi (.stmtGetQueryInfo stmt pos))
  fetch : ∀ h, c h (.dpi (.stmtFetch stmt))
  queryValue : ∀ h pos, c h (.dpi (.stmtGetQueryValue stmt pos))
  varRelease : ∀ h var, c h (.dpi (.varRelease var))
  release : ∀ h, c h (.dpi (.stmtRelease stmt))

/-- The operations on the event loop are allowed. -/
structure LoopOps (c : Contract Op Op.Reply) : Prop where
  submitRow : ∀ h row, c h (.submitRow row)
  andAllSucceed : ∀ h callbacks, c h (.andAllSucceed callbacks)
  cascade : ∀ h future, c h (.cascade future)
  promiseFail : ∀ h error, c h (.promiseFail error)

theorem respects_throwLast {Q : α → Prop} (h : ErrorOps c) :
    (throwLast : Task α).Respects c Q := by
  intro tr
  refine ⟨h.readContext tr, fun context => ?_⟩
  cases context with
  | none => trivial
  | some context => exact ⟨h.getError tr context, fun _ => trivial⟩

theorem respects_orThrowLast (h : ErrorOps c) (reply : Option α) :
    (orThrowLast reply).Respects c fun _ => True := by
  cases reply with
  | none => exact respects_throwLast h
  | some a => exact respects_pure trivial

theorem respects_guarded (h : ErrorOps c) {op : Op} (hop : ∀ tr, c tr op)
    {reply? : op.Reply → Option β} {Q : α → Prop} {f : β → Task α}
    (hf : ∀ b, (f b).Respects c Q) :
    (perform op >>= fun reply => orThrowLast (reply? reply) >>= f).Respects c Q := by
  apply respects_perform_bind hop
  intro reply
  apply respects_bind (respects_orThrowLast h _)
  intro b _
  exact hf b

theorem respects_init {rt : Runtime} {query : String} (h : InitOps c rt query) :
    (OracleStatement.init rt query).Respects c fun _ => True := by
  intro tr
  refine ⟨h.readHandle tr, fun conn => ?_⟩
  cases conn with
  | none => trivial
  | some conn =>
      apply wp_ofOutcome_bind ?_ fun _ _ => trivial
      intro sql hsql
      refine ⟨h.prepareStmt tr conn sql hsql, fun reply => ?_⟩
      exact respects_bind (respects_orThrowLast h.error _) (fun _ _ => respects_pure trivial) _

section Statement

variable {stmt : StmtHandle} {statement : OracleStatement}

theorem respects_bindValueByPos (h : ErrorOps c) {pos : UInt32} {nativeType : NativeType}
    {data : DpiData} {memory : List UInt8}
    (hcall : ∀ tr, c tr
      (.dpi (.stmtBindValueByPos statement.handle pos nativeType data memory))) :
    (statement.bindValueByPos pos nativeType data memory).Respects c
      fun s => s.handle = statement.handle :=
  respects_guarded h hcall fun _ => respects_pure rfl

theorem respects_bindValue (h : BindOps c statement.handle) (rt : Runtime) (pos : UInt32)
    (value : OracleData) :
    (statement.bindValue rt pos value).Respects c fun s => s.handle = statement.handle := by
  have hcall := fun nativeType data memory => respects_bindValueByPos h.error
    fun tr => h.bindValueByPos tr pos nativeType data memory
  cases value with
  | integer v => exact hcall _ _ _
  | float v => exact hcall _ _ _
  | double v => exact hcall _ _ _
  | text v =>
      apply respects_ofOutcome_bind
      intro arg _
      exact hcall _ _ _
  | timestamp v =>
      apply respects_perform_bind h.now
      intro now
      apply respects_ofOutcome_bind
      intro timestamp _
      exact hcall _ _ _
  | blob v => exact hcall _ _ _
  | null => exact hcall _ _ _
  | raw v =>
      intro tr
      refine ⟨h.readHandle tr, fun conn => ?_⟩
      apply wp_ofOutcome_bind ?_ fun _ _ => trivial
      intro size _
      refine ⟨h.newVar tr conn size, fun var => ?_⟩
      cases var with
      | some var => exact respects_throwLast h.error _
      | none =>
          have hbind : (do
              orThrowLast (← dpi (.stmtBindByPos statement.handle pos none))
              return { statement with vars := statement.vars ++ [none] } :
                Task OracleStatement).Respects c fun s => s.handle = statement.handle :=
            respects_guarded h.error (fun tr => h.bindByPos tr pos none)
              fun _ => respects_pure rfl
          exact hbind _

theorem respects_bindFrom (h : BindOps c stmt) (rt : Runtime)
    (hstmt : statement.handle = stmt) (i : Nat) (values : List OracleData) :
    (statement.bindFrom rt i values).Respects c fun s => s.handle = stmt := by
  induction values generalizing statement i with
  | nil => exact respects_pure hstmt
  | cons value values ih =>
      subst hstmt
      apply respects_ofOutcome_bind
      intro pos _
      apply respects_bind (respects_bindValue h rt pos value)
      intro statement' hstatement'
      exact ih hstatement' (i + 1)

theorem respects_execute (h : FetchOps c statement.handle) :
    statement.execute.Respects c fun _ => True :=
  respects_guarded h.error (fun tr => h.execute tr 0) fun _ => respects_pure trivial

theorem respects_column (h : FetchOps c statement.handle) (i : Nat) :
    (statement.column i).Respects c fun _ => True := by
  apply respects_ofOutcome_bind
  intro pos _
  apply respects_guarded h.error fun tr => h.queryInfo tr pos
  intro queryInfo
  exact respects_ofOutcome fun _ _ => trivial

theorem respects_columns (h : FetchOps c statement.handle) :
    statement.columns.Respects c fun _ => True := by
  apply respects_guarded h.error h.numQueryColumns
  intro count
  apply respects_bind (respects_collect fun i _ => respects_column h i)
  intro names _
  exact respects_pure trivial

theorem respects_data (h : FetchOps c statement.handle) (i : Nat) :
    (statement.data i).Respects c fun _ => True := by
  apply respects_ofOutcome_bind
  intro pos _
  apply respects_guarded h.error fun tr => h.queryValue tr pos
  intro value
  apply respects_guarded h.error fun tr => h.queryInfo tr pos
  intro queryInfo
  cases value.data with
  | none => exact respects_throwLast h.error
  | some data => exact respects_ofOutcome fun _ _ => trivial

theorem respects_cleanup (h : FetchOps c statement.handle) :
    statement.cleanup.Respects c fun _ => True := by
  refine respects_bind (respects_collect fun var _ => ?_) fun _ _ => ?_
  · apply respects_perform_bind fun tr => h.varRelease tr var
    intro reply
    exact respects_orThrowLast h.error _
  · apply respects_perform_bind h.release
    intro reply
    exact respects_orThrowLast h.error _

theorem respects_nextRow (h : FetchOps c statement.handle) (columns : OracleColumnOffsets) :
    (statement.nextRow columns).Respects c fun _ => True := by
  apply respects_guarded h.error h.fetch
  intro fetched
  split
  · apply respects_bind (respects_cleanup h)
    intro _ _
    exact respects_pure trivial
  · apply respects_guarded h.error h.numQueryColumns
    intro count
    apply respects_bind (respects_collect fun i _ => respects_data h i)
    intro row _
    exact respects_pure trivial

end Statement

section Query

open OracleConnection

variable {stmt : StmtHandle}

/-- The loop is at the rows of the statement. -/
def InRows (stmt : StmtHandle) : QueryState → Prop
  | .begin _ => False
  | .rows statement _ _ => statement.handle = stmt

theorem respects_prepare {rt : Runtime} {q : OracleQuery} (hi : InitOps c rt q.sql)
    (hb : ∀ stmt, BindOps c stmt) (hf : ∀ stmt, FetchOps c stmt) :
    (prepare rt q).Respects c fun _ => True := by
  apply respects_bind (respects_init hi)
  intro statement _
  apply respects_bind (respects_bindFrom (hb statement.handle) rt rfl 0 q.binds.values)
  intro bound _
  apply respects_bind (respects_execute (hf bound.handle))
  intro _ _
  apply respects_bind (respects_columns (hf bound.handle))
  intro columns _
  exact respects_pure trivial

theorem respects_failPromise (h : LoopOps c) (error : OracleError) {J : QueryState → Prop} :
    (failPromise error).Respects c (Sum.elim J fun _ => True) := by
  apply respects_perform_bind fun tr => h.promiseFail tr error
  intro _
  exact respects_pure trivial

theorem respects_step {statement : OracleStatement} (hf : FetchOps c stmt) (hl : LoopOps c)
    (hstmt : statement.handle = stmt) (columns : OracleColumnOffsets)
    (callbacks : List Nat) :
    (step statement columns callbacks).Respects c (Sum.elim (InRows stmt) fun _ => True) := by
  subst hstmt
  apply respects_bind (respects_nextRow hf columns)
  intro row _
  cases row with
  | some row =>
      apply respects_perform_bind fun tr => hl.submitRow tr row
      intro callback
      exact respects_pure rfl
  | none =>
      apply respects_perform_bind fun tr => hl.andAllSucceed tr callbacks
      intro all
      apply respects_perform_bind fun tr => hl.cascade tr all
      intro _
      exact respects_pure trivial

theorem respects_query_rows (hf : FetchOps c stmt) (hl : LoopOps c) (rt : Runtime)
    (x : QueryState) (hx : InRows stmt x) :
    (query rt x).Respects c (Sum.elim (InRows stmt) fun _ => True) := by
  cases x with
  | «begin» q => exact hx.elim
  | rows statement columns callbacks =>
      apply respects_tryCatch (respects_step hf hl hx columns callbacks)
      intro error
      exact respects_failPromise hl error

end Query

end OracleNIO.TaskOperations
