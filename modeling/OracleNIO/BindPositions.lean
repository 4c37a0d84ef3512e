import OracleNIO.TaskOperations

/-!
The placeholder numbers written by the builder and the positions bound by a run of
the query.
-/

namespace OracleNIO.BindPositions

open Interaction Prog SwiftRuntime ByteMemory Dpi MarkedText TaskOperations

/-- The texts in order, and `:` with its number for every value, when `k` values have
been numbered before. -/
def sqlText : Nat → List Segment → String
  | _, [] => ""
  | k, .literal text :: segments | k, .unescaped text :: segments =>
      text ++ sqlText k segments
  | k, segment :: segments =>
      match segment.data with
      | some _ => ":" ++ toString (k + 1) ++ sqlText (k + 1) segments
      | none => sqlText k segments

/-- The call that binds a value, if it is one. -/
def bindCall? : Op → Option DpiCall
  | .dpi (.stmtBindValueByPos stmt pos nativeType data memory) =>
      some (.stmtBindValueByPos stmt pos nativeType data memory)
  | .dpi (.stmtBindByPos stmt pos var) => some (.stmtBindByPos stmt pos var)
  | _ => none

/-- The bind calls of a run, in order. -/
def bindCalls (tr : List TaskEvent) : List DpiCall :=
  tr.filterMap fun e => bindCall? e.op

/-- What `dpiStmt_bindValueByPos` is given for a value. -/
def Carries (rt : Runtime) : OracleData → NativeType → DpiData → List UInt8 → Prop
  | .integer v, nativeType, data, _ => nativeType = .int64 ∧ data = ⟨false, .asInt64 v⟩
  | .float v, nativeType, data, _ => nativeType = .float ∧ data = ⟨false, .asFloat v⟩
  | .double v, nativeType, data, _ => nativeType = .double ∧ data = ⟨false, .asDouble v⟩
  | .text v, nativeType, data, memory =>
      nativeType = .bytes ∧ memory = utf8 v ++ [0] ∧
        ∃ length, data = ⟨false, .asBytes ⟨some 0, length⟩⟩
  | .timestamp v, nativeType, data, _ =>
      nativeType = .timestamp ∧ ∃ now timestamp,
        OracleStatement.encodeTimestamp rt v (dateComponents rt.timeZone v)
          (rt.timeZone.secondsFromGMT now) = .value timestamp ∧
        data = ⟨false, .asTimestamp timestamp⟩
  | .blob v, nativeType, data, memory =>
      nativeType = .lob ∧ memory = v ∧ data = ⟨false, .asRaw (some 0)⟩
  | .null, nativeType, data, _ => nativeType = .null ∧ data = ⟨true, .zero⟩
  | .raw _, _, _, _ => False

/-- The call binds the value at the position. -/
def CallFor (rt : Runtime) (stmt : StmtHandle) (position : Nat) (value : OracleData) :
    DpiCall → Prop
  | .stmtBindValueByPos stmt' pos nativeType data memory =>
      stmt' = stmt ∧ pos.toNat = position ∧ Carries rt value nativeType data memory
  | .stmtBindByPos stmt' pos _ =>
      stmt' = stmt ∧ pos.toNat = position ∧ ∃ bytes, value = .raw bytes
  | _ => False

/-- The calls bind the first of the values, in order, at the positions that follow
`i`. -/
def InOrder (rt : Runtime) (stmt : StmtHandle) (i : Nat) (values : List OracleData)
    (calls : List DpiCall) : Prop :=
  ∀ k call, calls[k]? = some call →
    ∃ value, values[k]? = some value ∧ CallFor rt stmt (i + k + 1) value call

theorem bindCalls_append (tr₁ tr₂ : List TaskEvent) :
    bindCalls (tr₁ ++ tr₂) = bindCalls tr₁ ++ bindCalls tr₂ :=
  List.filterMap_append

theorem bindCalls_eq_nil {tr : List TaskEvent} (h : ∀ e ∈ tr, bindCall? e.op = none) :
    bindCalls tr = [] :=
  List.filterMap_eq_nil_iff.mpr h

/-- The program makes no bind call. -/
def Quiet {α : Type} (p : Task α) : Prop :=
  p.Respects (.only fun op => bindCall? op = none) fun _ => True

theorem Quiet.bindCalls {α : Type} {p : Task α} (hp : Quiet p) {tr : List TaskEvent}
    {out : Outcome OracleError α} (hrun : p.Runs tr out) : bindCalls tr = [] :=
  bindCalls_eq_nil (respects_runs hp hrun).1

section Run

variable {rt : Runtime} {statement : OracleStatement} {pos : UInt32}

theorem InOrder.cons {stmt : StmtHandle} {i : Nat} {value : OracleData}
    {values : List OracleData} {call : DpiCall} {calls : List DpiCall}
    (hcall : CallFor rt stmt (i + 1) value call)
    (hcalls : InOrder rt stmt (i + 1) values calls) :
    InOrder rt stmt i (value :: values) (call :: calls) := by
  intro k c hc
  cases k with
  | zero =>
      obtain rfl : call = c := by simpa using hc
      exact ⟨value, by simp, hcall⟩
  | succ k =>
      obtain ⟨v, hv, hvc⟩ := hcalls k c (by simpa using hc)
      refine ⟨v, by simpa using hv, ?_⟩
      rwa [show i + (k + 1) + 1 = i + 1 + k + 1 by omega]

theorem InOrder.nil {stmt : StmtHandle} {i : Nat} {values : List OracleData} :
    InOrder rt stmt i values [] := by
  intro k call hcall
  simp at hcall

end Run

open OracleConnection

/-- The statement could not be prepared, so that `bind` was not reached. -/
def NotPrepared (rt : Runtime) (q : OracleQuery) (tr : List TaskEvent) : Prop :=
  bindCalls tr = [] ∧
    ∃ (before after : List TaskEvent) (out : Outcome OracleError OracleStatement),
      tr = before ++ after ∧ (OracleStatement.init rt q.sql).Runs before out ∧
        ∀ statement, out ≠ .value statement

/-- The bind calls are those of one run of `bind` on the values, if it was reached. -/
def BoundOnce (rt : Runtime) (q : OracleQuery) (tr : List TaskEvent) : Prop :=
  NotPrepared rt q tr ∨
    ∃ (statement : OracleStatement) (before during after : List TaskEvent)
      (bound : Outcome OracleError OracleStatement),
        tr = before ++ (during ++ after) ∧ bindCalls before = [] ∧ bindCalls after = [] ∧
          (statement.bind rt q.binds.values).Runs during bound

theorem BoundOnce.append {rt : Runtime} {q : OracleQuery}
    {tr tr' : List TaskEvent} (h : BoundOnce rt q tr) (h' : bindCalls tr' = []) :
    BoundOnce rt q (tr ++ tr') := by
  rcases h with ⟨h, before, after, out, rfl, hinit, hout⟩ |
    ⟨statement, before, during, after, bound, rfl, hbefore, hafter, hbind⟩
  · refine .inl ⟨?_, before, after ++ tr', out, by simp, hinit, hout⟩
    rw [bindCalls_append, h, h']
    rfl
  · refine .inr ⟨statement, before, during, after ++ tr', bound, by simp, hbefore, ?_, hbind⟩
    rw [bindCalls_append, hafter, h']
    rfl

variable {rt : Runtime} {q : OracleQuery}

/-- A query of two values, a number and a nil optional. -/
def twoValues : List Segment :=
  [.literal "SELECT ", .value ⟨some (.integer 7)⟩, .literal ", ", .optional none]

/-- Both values are bound, and no row is found. -/
def twoValuesRun : List TaskEvent :=
  [⟨.readHandle, some ⟨1⟩⟩,
    ⟨.dpi (.connPrepareStmt ⟨1⟩ ⟨utf8 "SELECT :1, :2" ++ [0], 13⟩), some ⟨2⟩⟩,
    ⟨.dpi (.stmtBindValueByPos ⟨2⟩ 1 .int64 ⟨false, .asInt64 7⟩ []), some ()⟩,
    ⟨.dpi (.stmtBindValueByPos ⟨2⟩ 2 .null ⟨true, .zero⟩ []), some ()⟩,
    ⟨.dpi (.stmtExecute ⟨2⟩ 0), some (0 : UInt32)⟩,
    ⟨.dpi (.stmtGetNumQueryColumns ⟨2⟩), some (0 : UInt32)⟩,
    ⟨.dpi (.stmtFetch ⟨2⟩), some ⟨0, 0⟩⟩, ⟨.dpi (.stmtRelease ⟨2⟩), some ()⟩,
    ⟨.andAllSucceed [], (0 : Nat)⟩, ⟨.cascade 0, ()⟩]

theorem twoValues_agree :
    sqlText 0 twoValues = "SELECT :1, :2" ∧
      LoopRuns (query asciiRuntime)
        (.begin (.ofInterpolation (StringInterpolation.init.appendAll twoValues)))
        twoValuesRun (.value ()) ∧
      bindCalls twoValuesRun = [.stmtBindValueByPos ⟨2⟩ 1 .int64 ⟨false, .asInt64 7⟩ [],
        .stmtBindValueByPos ⟨2⟩ 2 .null ⟨true, .zero⟩ []] := by
  have hquery : OracleQuery.ofInterpolation (StringInterpolation.init.appendAll twoValues) =
      ⟨"SELECT :1, :2", ⟨[.integer 7, .null]⟩⟩ := by decide
  have harg : stringArgument asciiRuntime "SELECT :1, :2" =
      .value ⟨utf8 "SELECT :1, :2" ++ [0], 13⟩ := stringArgument_of_lt (by decide)
  have hinit : (OracleStatement.init asciiRuntime "SELECT :1, :2").Runs (twoValuesRun.take 2)
      (.value ⟨⟨2⟩, []⟩) := by
    rw [OracleStatement.init_eq harg]
    exact ⟨_, _, rfl, _, _, rfl, rfl, rfl⟩
  have hsecond : (OracleStatement.bindFrom asciiRuntime ⟨⟨2⟩, []⟩ 1 [.null]).Runs
      ((twoValuesRun.drop 3).take 1) (.value ⟨⟨2⟩, []⟩) :=
    Runs.ofOutcome_bind (uint32_of_lt (by omega)) ⟨_, _, rfl, rfl, rfl⟩
  have hbind : (OracleStatement.bind asciiRuntime ⟨⟨2⟩, []⟩ [.integer 7, .null]).Runs
      ((twoValuesRun.drop 2).take 2) (.value ⟨⟨2⟩, []⟩) :=
    Runs.ofOutcome_bind (uint32_of_lt (by omega)) ⟨_, _, rfl, hsecond⟩
  have hprepare : (prepare asciiRuntime ⟨"SELECT :1, :2", ⟨[.integer 7, .null]⟩⟩).Runs
      (twoValuesRun.take 6) (.value (⟨⟨2⟩, []⟩, ⟨[]⟩)) :=
    hinit.bind (hbind.bind ⟨_, _, rfl, _, _, rfl, rfl, rfl⟩)
  have hrows : (query asciiRuntime (.rows ⟨⟨2⟩, []⟩ ⟨[]⟩ [])).Runs (twoValuesRun.drop 6)
      (.value (.inr ())) := ⟨_, _, rfl, _, _, rfl, _, _, rfl, _, _, rfl, rfl, rfl⟩
  refine ⟨by decide, ?_, rfl⟩
  rw [hquery]
  exact .again (runs_begin hprepare) (.done hrows)

end OracleNIO.BindPositions
