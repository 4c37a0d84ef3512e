import OracleNIO.CallLanguages
import OracleNIO.OracleConnection

/-!
The calls that `OracleStatement` makes on its statement handle and on its variables, as
the words that its functions speak.
-/

namespace OracleNIO.StatementCalls

open Interaction Prog SwiftRuntime ByteMemory Dpi CallLanguages OracleConnection

/-- The call is on a statement or on a variable that is bound to one. -/
def onStatement : Op → Bool
  | .dpi (.connPrepareStmt _ _) | .dpi (.stmtBindValueByPos _ _ _ _ _)
  | .dpi (.stmtBindByPos _ _ _) | .dpi (.stmtExecute _ _) | .dpi (.stmtGetNumQueryColumns _)
  | .dpi (.stmtGetQueryInfo _ _) | .dpi (.stmtFetch _) | .dpi (.stmtGetQueryValue _ _)
  | .dpi (.stmtRelease _) | .dpi (.varRelease _) => true
  | _ => false

/-- The call returned `DPI_FAILURE`. -/
def Failed : TaskEvent → Prop
  | ⟨.dpi c, reply⟩ => c.succeeded reply = false
  | _ => False

instance (e : TaskEvent) : Decidable (Failed e) :=
  match e with
  | ⟨.dpi c, reply⟩ => inferInstanceAs (Decidable (c.succeeded reply = false))
  | ⟨.readHandle, _⟩ | ⟨.readContext, _⟩ | ⟨.now, _⟩ | ⟨.submitRow _, _⟩ | ⟨.submitClear, _⟩
  | ⟨.andAllSucceed _, _⟩ | ⟨.cascade _, _⟩ | ⟨.promiseFail _, _⟩ => isFalse fun h => h

def statementCalls : Observer Op Op.Reply where
  sees := onStatement
  Fails := Failed

/-- The statement is prepared. -/
def PrepareWord (stmt : StmtHandle) (word : List TaskEvent) : Prop :=
  ∃ conn sql, word = [⟨.dpi (.connPrepareStmt conn sql), some stmt⟩]

/-- The position of the column, or of the placeholder, with the index. -/
def position (i : Nat) : UInt32 :=
  UInt32.ofNat (i + 1)

/-- What `dpiStmt_bindValueByPos` is given for a value, but for the fields of a timestamp
and the length of a text. -/
def HandedAs : OracleData → NativeType → DpiData → List UInt8 → Prop
  | .integer v, nativeType, data, _ => nativeType = .int64 ∧ data = ⟨false, .asInt64 v⟩
  | .float v, nativeType, data, _ => nativeType = .float ∧ data = ⟨false, .asFloat v⟩
  | .double v, nativeType, data, _ => nativeType = .double ∧ data = ⟨false, .asDouble v⟩
  | .text v, nativeType, data, memory =>
      nativeType = .bytes ∧ memory = utf8 v ++ [0] ∧
        ∃ length, data = ⟨false, .asBytes ⟨some 0, length⟩⟩
  | .timestamp _, nativeType, data, _ =>
      nativeType = .timestamp ∧ ∃ timestamp, data = ⟨false, .asTimestamp timestamp⟩
  | .blob v, nativeType, data, memory =>
      nativeType = .lob ∧ memory = v ∧ data = ⟨false, .asRaw (some 0)⟩
  | .null, nativeType, data, _ => nativeType = .null ∧ data = ⟨true, .zero⟩
  | .raw _, _, _, _ => False

/-- The call binds the value at the position of the index. -/
def BindsAt (stmt : StmtHandle) (i : Nat) (value : OracleData) : Op → Prop
  | .dpi (.stmtBindValueByPos stmt' pos nativeType data memory) =>
      stmt' = stmt ∧ pos = position i ∧ HandedAs value nativeType data memory
  | .dpi (.stmtBindByPos stmt' pos _) =>
      stmt' = stmt ∧ pos = position i ∧ ∃ bytes, value = .raw bytes
  | _ => False

/-- One call for each of the values, at the positions from that of the index on. -/
def BindWord (stmt : StmtHandle) : Nat → List OracleData → List TaskEvent → Prop
  | _, [], word => word = []
  | i, value :: values, word => ∃ e rest, word = e :: rest ∧ BindsAt stmt i value e.op ∧
      ¬ Failed e ∧ BindWord stmt (i + 1) values rest

/-- The statement is executed. -/
def ExecuteWord (stmt : StmtHandle) (word : List TaskEvent) : Prop :=
  ∃ numColumns, word = [⟨.dpi (.stmtExecute stmt 0), some numColumns⟩]

/-- The columns from the index on are described. -/
def described (stmt : StmtHandle) : Nat → List QueryInfo → List TaskEvent
  | _, [] => []
  | i, info :: infos =>
      ⟨.dpi (.stmtGetQueryInfo stmt (position i)), some info⟩ :: described stmt (i + 1) infos

/-- A column count and a description for each position. -/
def DescribeWord (stmt : StmtHandle) (word : List TaskEvent) : Prop :=
  ∃ (count : UInt32) (infos : List QueryInfo), infos.length = count.toNat ∧
    word = ⟨.dpi (.stmtGetNumQueryColumns stmt), some count⟩ :: described stmt 0 infos

/-- The values from the index on are read, each with its description. -/
def valuesRead (stmt : StmtHandle) : Nat → List (QueryValue × QueryInfo) → List TaskEvent
  | _, [] => []
  | i, (value, info) :: values =>
      ⟨.dpi (.stmtGetQueryValue stmt (position i)), some value⟩ ::
        ⟨.dpi (.stmtGetQueryInfo stmt (position i)), some info⟩ ::
          valuesRead stmt (i + 1) values

/-- A fetch that finds a row, a column count, and for each position a value read and a
description. -/
def RowWord (stmt : StmtHandle) (word : List TaskEvent) : Prop :=
  ∃ (fetched : FetchedRow) (count : UInt32) (values : List (QueryValue × QueryInfo)),
    fetched.found ≠ 0 ∧ values.length = count.toNat ∧
      word = ⟨.dpi (.stmtFetch stmt), some fetched⟩ ::
        ⟨.dpi (.stmtGetNumQueryColumns stmt), some count⟩ :: valuesRead stmt 0 values

/-- A fetch that finds no row, releases of variables, and the release of the statement. -/
def EndWord (stmt : StmtHandle) (word : List TaskEvent) : Prop :=
  ∃ (fetched : FetchedRow) (vars : List (Option VarHandle)), fetched.found = 0 ∧
    word = ⟨.dpi (.stmtFetch stmt), some fetched⟩ ::
      (vars.map fun var => ⟨.dpi (.varRelease var), some ()⟩) ++
        [⟨.dpi (.stmtRelease stmt), some ()⟩]

variable {α β : Type}

theorem aborts_throwLast : Aborts statementCalls (throwLast : Task α) := by
  rintro tr out ⟨context, rest, rfl, hrun⟩
  cases context with
  | none =>
      rcases hrun with ⟨rfl, rfl⟩
      exact ⟨rfl, nofun⟩
  | some context =>
      rcases hrun with ⟨info, rest, rfl, rfl, rfl⟩
      exact ⟨rfl, nofun⟩

theorem aborts_throwLast_bind (f : α → Task β) :
    Aborts statementCalls (throwLast >>= f) := by
  rintro tr out ⟨context, rest, rfl, hrun⟩
  cases context with
  | none =>
      rcases hrun with ⟨rfl, rfl⟩
      exact ⟨rfl, nofun⟩
  | some context =>
      rcases hrun with ⟨info, rest, rfl, rfl, rfl⟩
      exact ⟨rfl, nofun⟩

theorem speaks_checked (op : Op) (reply? : op.Reply → Option β) {f : op.Reply → Task α}
    {V : β → α → List TaskEvent → Prop} (hop : statementCalls.sees op = true)
    (hsome : ∃ r b, reply? r = some b)
    (hf : ∀ r b, reply? r = some b → Speaks statementCalls (V b) (f r))
    (hfails : ∀ r, reply? r = none → Failed ⟨op, r⟩ ∧ Aborts statementCalls (f r)) :
    Speaks statementCalls
      (fun a word => ∃ r b rest, reply? r = some b ∧ V b a rest ∧ word = ⟨op, r⟩ :: rest)
      (perform op >>= f) := by
  have hspeaks : Speaks statementCalls
      (fun a word => ∃ r rest, (∃ b, reply? r = some b) ∧
        (∃ b, reply? r = some b ∧ V b a rest) ∧ word = ⟨op, r⟩ :: rest)
      (perform op >>= f) := by
    refine speaks_seen_bind hop hsome ?_ ?_
    · rintro r ⟨b, hb⟩
      exact (hf r b hb).mono fun a word hword => ⟨b, hb, hword⟩
    · intro r hr
      apply hfails r
      rw [Option.eq_none_iff_forall_ne_some]
      exact fun b hb => hr ⟨b, hb⟩
  refine hspeaks.mono ?_
  rintro a word ⟨r, rest, _, ⟨b, hb, hrest⟩, hword⟩
  exact ⟨r, b, rest, hb, hrest, hword⟩

theorem speaks_guarded (op : Op) (reply? : op.Reply → Option β)
    (hop : statementCalls.sees op = true) (hsome : ∃ r b, reply? r = some b)
    (hfails : ∀ r, reply? r = none → Failed ⟨op, r⟩) {f : β → Task α}
    {V : β → α → List TaskEvent → Prop} (hf : ∀ b, Speaks statementCalls (V b) (f b)) :
    Speaks statementCalls
      (fun a word => ∃ r b rest, reply? r = some b ∧ V b a rest ∧ word = ⟨op, r⟩ :: rest)
      (perform op >>= fun r => orThrowLast (reply? r) >>= f) := by
  refine speaks_checked op reply? hop hsome ?_ ?_
  · intro r b hb
    rw [hb]
    exact hf b
  · intro r hr
    rw [hr]
    exact ⟨hfails r hr, aborts_throwLast_bind f⟩

theorem speaks_init (rt : Runtime) (query : String) :
    Speaks statementCalls (fun statement word => PrepareWord statement.handle word)
      (OracleStatement.init rt query) := by
  have hword : ∃ (statement : OracleStatement) (word : List TaskEvent),
      PrepareWord statement.handle word :=
    ⟨⟨⟨0⟩, []⟩, _, ⟨0⟩, ⟨[], 0⟩, rfl⟩
  refine speaks_unseen_bind rfl ⟨none⟩ fun conn => ?_
  cases conn with
  | none =>
      refine .of_aborts ?_ hword
      rintro tr out ⟨rfl, rfl⟩
      exact ⟨rfl, nofun⟩
  | some conn =>
      refine speaks_ofOutcome_bind hword fun sql _ => ?_
      refine (speaks_guarded (.dpi (.connPrepareStmt conn sql)) (fun r => r) rfl
        ⟨some ⟨0⟩, _, rfl⟩ ?_ fun handle =>
          speaks_return statementCalls (⟨handle, []⟩ : OracleStatement)).mono ?_
      · rintro r rfl
        rfl
      · rintro statement word ⟨r, handle, rest, rfl, ⟨rfl, rfl⟩, rfl⟩
        exact ⟨conn, sql, rfl⟩

/-- Calls that bind the values, for a statement that keeps its handle. -/
def Binds (stmt : StmtHandle) (i : Nat) (values : List OracleData) (statement : OracleStatement)
    (word : List TaskEvent) : Prop :=
  statement.handle = stmt ∧ BindWord stmt i values word

theorem bindWord_singleton {stmt : StmtHandle} {i : Nat} {value : OracleData} {e : TaskEvent}
    (h : BindsAt stmt i value e.op) (hsucceeded : ¬ Failed e) : BindWord stmt i [value] [e] :=
  ⟨e, [], rfl, h, hsucceeded, rfl⟩

theorem exists_bindsAt (stmt : StmtHandle) (i : Nat) (value : OracleData) :
    ∃ e : TaskEvent, BindsAt stmt i value e.op ∧ ¬ Failed e := by
  have hcall : ∀ nativeType data memory, HandedAs value nativeType data memory →
      ∃ e : TaskEvent, BindsAt stmt i value e.op ∧ ¬ Failed e :=
    fun nativeType data memory h =>
      ⟨⟨.dpi (.stmtBindValueByPos stmt (position i) nativeType data memory), some ()⟩,
        ⟨rfl, rfl, h⟩, nofun⟩
  cases value with
  | integer v => exact hcall _ _ [] ⟨rfl, rfl⟩
  | float v => exact hcall _ _ [] ⟨rfl, rfl⟩
  | double v => exact hcall _ _ [] ⟨rfl, rfl⟩
  | text v => exact hcall _ _ _ ⟨rfl, rfl, 0, rfl⟩
  | timestamp v => exact hcall _ _ [] ⟨rfl, ⟨0, 0, 0, 0, 0, 0, 0, 0, 0⟩, rfl⟩
  | blob v => exact hcall _ _ _ ⟨rfl, rfl, rfl⟩
  | null => exact hcall _ _ [] ⟨rfl, rfl⟩
  | raw v =>
      exact ⟨⟨.dpi (.stmtBindByPos stmt (position i) none), some ()⟩, ⟨rfl, rfl, v, rfl⟩, nofun⟩

theorem binds_exists (stmt : StmtHandle) (i : Nat) (values : List OracleData) :
    ∃ statement word, Binds stmt i values statement word := by
  have hword : ∃ word, BindWord stmt i values word := by
    induction values generalizing i with
    | nil => exact ⟨[], rfl⟩
    | cons value values ih =>
        obtain ⟨e, he, hsucceeded⟩ := exists_bindsAt stmt i value
        obtain ⟨rest, hrest⟩ := ih (i + 1)
        exact ⟨e :: rest, e, rest, rfl, he, hsucceeded, hrest⟩
  obtain ⟨word, hword⟩ := hword
  exact ⟨⟨stmt, []⟩, word, rfl, hword⟩

theorem speaks_bindValueByPos (statement : OracleStatement) {i : Nat} {value : OracleData}
    {nativeType : NativeType} {data : DpiData} {memory : List UInt8}
    (h : HandedAs value nativeType data memory) :
    Speaks statementCalls (Binds statement.handle i [value])
      (statement.bindValueByPos (position i) nativeType data memory) := by
  refine (speaks_guarded
    (.dpi (.stmtBindValueByPos statement.handle (position i) nativeType data memory))
    (fun r => r) rfl ⟨some (), _, rfl⟩ ?_ fun _ => speaks_return statementCalls statement).mono ?_
  · rintro r rfl
    rfl
  · rintro _ word ⟨r, b, rest, rfl, ⟨rfl, rfl⟩, rfl⟩
    exact ⟨rfl, bindWord_singleton ⟨rfl, rfl, h⟩ nofun⟩

theorem speaks_bindValue (rt : Runtime) (statement : OracleStatement) (i : Nat)
    (value : OracleData) :
    Speaks statementCalls (Binds statement.handle i [value])
      (statement.bindValue rt (position i) value) := by
  have hexists := binds_exists statement.handle i [value]
  cases value with
  | integer v => exact speaks_bindValueByPos statement ⟨rfl, rfl⟩
  | float v => exact speaks_bindValueByPos statement ⟨rfl, rfl⟩
  | double v => exact speaks_bindValueByPos statement ⟨rfl, rfl⟩
  | text v =>
      refine speaks_ofOutcome_bind hexists fun arg harg => ?_
      obtain ⟨hmemory, _⟩ := stringArgument_value harg
      exact speaks_bindValueByPos statement ⟨rfl, hmemory, arg.length, rfl⟩
  | timestamp v =>
      refine speaks_unseen_bind rfl ⟨(⟨0⟩ : Date)⟩ fun now => ?_
      refine speaks_ofOutcome_bind hexists fun timestamp _ => ?_
      exact speaks_bindValueByPos statement ⟨rfl, timestamp, rfl⟩
  | blob v => exact speaks_bindValueByPos statement ⟨rfl, rfl, rfl⟩
  | null => exact speaks_bindValueByPos statement ⟨rfl, rfl⟩
  | raw v =>
      refine speaks_unseen_bind rfl ⟨none⟩ fun conn => ?_
      refine speaks_ofOutcome_bind hexists fun size _ => ?_
      refine speaks_unseen_bind rfl ⟨none⟩ fun var => ?_
      cases var with
      | some var => exact .of_aborts aborts_throwLast hexists
      | none =>
          refine (speaks_guarded (.dpi (.stmtBindByPos statement.handle (position i) none))
            (fun r => r) rfl ⟨some (), _, rfl⟩ ?_ fun _ => speaks_return statementCalls
              { statement with vars := statement.vars ++ [none] }).mono ?_
          · rintro r rfl
            rfl
          · rintro _ word ⟨r, b, rest, rfl, ⟨rfl, rfl⟩, rfl⟩
            exact ⟨rfl, bindWord_singleton ⟨rfl, rfl, v, rfl⟩ nofun⟩

theorem position_of_uint32 {i : Nat} {pos : UInt32}
    (h : uint32 (i + 1 : Nat) = (.value pos : Outcome OracleError UInt32)) :
    pos = position i := by
  have hpos := toNat_of_uint32 h
  rw [position, ← hpos, UInt32.ofNat_toNat]

theorem speaks_bindFrom (rt : Runtime) (statement : OracleStatement) (i : Nat)
    (values : List OracleData) :
    Speaks statementCalls (Binds statement.handle i values)
      (statement.bindFrom rt i values) := by
  induction values generalizing statement i with
  | nil => exact speaks_pure ⟨rfl, rfl⟩
  | cons value values ih =>
      refine speaks_ofOutcome_bind (binds_exists statement.handle i (value :: values))
        fun pos hpos => ?_
      rw [position_of_uint32 hpos]
      refine (speaks_bind (speaks_bindValue rt statement i value)
        fun bound _ _ => ih bound (i + 1)).mono ?_
      rintro statement' word ⟨bound, first, rest, ⟨hbound, hfirst⟩, ⟨hhandle, hrest⟩, rfl⟩
      rw [hbound] at hhandle hrest
      obtain ⟨e, _, rfl, he, hsucceeded, rfl⟩ := hfirst
      exact ⟨hhandle, e, rest, rfl, he, hsucceeded, hrest⟩

theorem speaks_execute (statement : OracleStatement) :
    Speaks statementCalls (fun _ word => ExecuteWord statement.handle word)
      statement.execute := by
  refine (speaks_guarded (.dpi (.stmtExecute statement.handle 0)) (fun r => r) rfl
    ⟨some 0, _, rfl⟩ ?_ fun _ => speaks_return statementCalls ()).mono ?_
  · rintro r rfl
    rfl
  · rintro _ word ⟨r, numColumns, rest, rfl, ⟨_, rfl⟩, rfl⟩
    exact ⟨numColumns, rfl⟩

theorem columnPosition_value {i : Nat} {pos : UInt32}
    (h : OracleStatement.columnPosition i = .value pos) : pos = position i := by
  by_cases hi : i < 2147483647
  · rw [OracleStatement.columnPosition_of_lt hi] at h
    exact (Outcome.value.inj h).symm
  · rw [OracleStatement.columnPosition_overflow hi] at h
    cases h

theorem speaks_column (statement : OracleStatement) (i : Nat) :
    Speaks statementCalls
      (fun _ word => ∃ info,
        word = [⟨.dpi (.stmtGetQueryInfo statement.handle (position i)), some info⟩] ∧ True)
      (statement.column i) := by
  have info₀ : QueryInfo := ⟨[], some .number, some .double, 0⟩
  refine speaks_ofOutcome_bind ⟨"", _, info₀, rfl, trivial⟩ fun pos hpos => ?_
  rw [columnPosition_value hpos]
  refine (speaks_guarded (.dpi (.stmtGetQueryInfo statement.handle (position i)))
    (fun r => r) rfl ⟨some info₀, _, rfl⟩ ?_
      fun info => speaks_ofOutcome statementCalls _ "").mono ?_
  · rintro r rfl
    rfl
  · rintro name word ⟨r, info, rest, rfl, rfl, rfl⟩
    exact ⟨info, rfl, trivial⟩

theorem runs_column (statement : OracleStatement) {i : Nat} {info : QueryInfo} {name : String}
    (hi : i < 2147483647) (hname : stringOfCString info.name 0 = .value name) :
    (statement.column i).Runs
      [⟨.dpi (.stmtGetQueryInfo statement.handle (position i)), some info⟩] (.value name) := by
  refine Runs.ofOutcome_bind (OracleStatement.columnPosition_of_lt hi) ⟨some info, [], rfl, ?_⟩
  change (ofOutcome (stringOfCString info.name 0)).Runs [] _
  rw [hname]
  exact ⟨rfl, rfl⟩

theorem described_of_collected {stmt : StmtHandle} {N : QueryInfo → String → Prop}
    {k n : Nat} {names : List String} {word : List TaskEvent}
    (h : Collected (fun i name word => ∃ info,
      word = [⟨.dpi (.stmtGetQueryInfo stmt (position i)), some info⟩] ∧ N info name)
        (List.range' k n) names word) :
    ∃ infos, infos.length = n ∧ word = described stmt k infos ∧ List.Forall₂ N infos names := by
  induction n generalizing k names word with
  | zero =>
      cases h
      exact ⟨[], rfl, rfl, .nil⟩
  | succ n ih =>
      cases h with
      | cons hfirst hrest =>
          obtain ⟨info, rfl, hname⟩ := hfirst
          obtain ⟨infos, hlength, rfl, hnames⟩ := ih hrest
          exact ⟨info :: infos, congrArg (· + 1) hlength, rfl, .cons hname hnames⟩

theorem speaks_columns (statement : OracleStatement) :
    Speaks statementCalls (fun _ word => DescribeWord statement.handle word)
      statement.columns := by
  refine (speaks_guarded (.dpi (.stmtGetNumQueryColumns statement.handle))
    (fun r => r) rfl ⟨some 0, _, rfl⟩ ?_ fun count =>
      speaks_bind (speaks_collect (List.range count.toNat)
        fun i _ => speaks_column statement i) fun names _ _ =>
          speaks_return statementCalls (⟨names.zipIdx⟩ : OracleColumnOffsets)).mono ?_
  · rintro r rfl
    rfl
  · rintro _ word ⟨r, count, _, rfl, ⟨names, first, _, hfirst, ⟨_, rfl⟩, rfl⟩, rfl⟩
    rw [List.range_eq_range'] at hfirst
    obtain ⟨infos, hlength, rfl, _⟩ := described_of_collected (N := fun _ _ => True) hfirst
    exact ⟨count, infos, hlength, by rw [List.append_nil]⟩

theorem collected_described (statement : OracleStatement) {k : Nat} {infos : List QueryInfo}
    {names : List String} (hk : k + infos.length ≤ 2147483647)
    (h : List.Forall₂ (fun info name => stringOfCString info.name 0 = .value name) infos names) :
    Collected (fun i name tr => (statement.column i).Runs tr (.value name))
      (List.range' k infos.length) names (described statement.handle k infos) := by
  induction h generalizing k with
  | nil => exact .nil
  | @cons info name infos names hname _ ih =>
      rw [List.length_cons] at hk
      have hfirst : k < 2147483647 := by omega
      have hrest : k + 1 + infos.length ≤ 2147483647 := by omega
      exact .cons (runs_column statement hfirst hname) (ih hrest)

/-- `columns`, when every call of it succeeds. -/
theorem runs_columns (statement : OracleStatement) {count : UInt32} {infos : List QueryInfo}
    {names : List String} (hlength : infos.length = count.toNat)
    (hcount : count.toNat ≤ 2147483647)
    (h : List.Forall₂ (fun info name => stringOfCString info.name 0 = .value name) infos names) :
    statement.columns.Runs (⟨.dpi (.stmtGetNumQueryColumns statement.handle), some count⟩ ::
      described statement.handle 0 infos) (.value ⟨names.zipIdx⟩) := by
  have hcollect := runs_collect (collected_described statement (k := 0) (by omega) h)
  rw [hlength, ← List.range_eq_range'] at hcollect
  exact ⟨some count, _, rfl, hcollect.bind_pure fun names => OracleColumnOffsets.mk names.zipIdx⟩

theorem speaks_data (statement : OracleStatement) (i : Nat) :
    Speaks statementCalls
      (fun _ word => ∃ value info,
        word = [⟨.dpi (.stmtGetQueryValue statement.handle (position i)), some value⟩,
          ⟨.dpi (.stmtGetQueryInfo statement.handle (position i)), some info⟩] ∧ True)
      (statement.data i) := by
  have info₀ : QueryInfo := ⟨[], some .number, some .double, 0⟩
  have value₀ : QueryValue := ⟨.null, none, []⟩
  refine speaks_ofOutcome_bind ⟨.null, _, value₀, info₀, rfl, trivial⟩ fun pos hpos => ?_
  rw [columnPosition_value hpos]
  refine (speaks_guarded (.dpi (.stmtGetQueryValue statement.handle (position i)))
    (fun r => r) rfl ⟨some value₀, _, rfl⟩ ?_ fun value =>
      speaks_guarded (.dpi (.stmtGetQueryInfo statement.handle (position i)))
        (fun r => r) rfl ⟨some info₀, _, rfl⟩ ?_ fun info =>
          show Speaks statementCalls (fun _ word => word = []) _ from ?_).mono ?_
  · rintro r rfl
    rfl
  · rintro r rfl
    rfl
  · cases value.data with
    | none => exact .of_aborts aborts_throwLast ⟨.null, [], rfl⟩
    | some data => exact speaks_ofOutcome statementCalls _ .null
  · rintro data word ⟨r, value, _, rfl, ⟨r', info, _, rfl, rfl, rfl⟩, rfl⟩
    exact ⟨value, info, rfl, trivial⟩

theorem runs_data (statement : OracleStatement) {i : Nat} {value : QueryValue}
    {info : QueryInfo} {raw : DpiData} {data : OracleData} (hi : i < 2147483647)
    (hraw : value.data = some raw)
    (hdata : OracleStatement.columnData value.nativeType info.typeInfo raw value.memory =
      .value data) :
    (statement.data i).Runs
      [⟨.dpi (.stmtGetQueryValue statement.handle (position i)), some value⟩,
        ⟨.dpi (.stmtGetQueryInfo statement.handle (position i)), some info⟩] (.value data) := by
  refine Runs.ofOutcome_bind (OracleStatement.columnPosition_of_lt hi)
    ⟨some value, _, rfl, some info, [], rfl, ?_⟩
  rw [hraw]
  change (ofOutcome (OracleStatement.columnData _ _ raw _)).Runs [] _
  rw [hdata]
  exact ⟨rfl, rfl⟩

theorem valuesRead_of_collected {stmt : StmtHandle}
    {D : QueryValue × QueryInfo → OracleData → Prop} {k n : Nat} {row : List OracleData}
    {word : List TaskEvent}
    (h : Collected (fun i data word => ∃ value info,
      word = [⟨.dpi (.stmtGetQueryValue stmt (position i)), some value⟩,
        ⟨.dpi (.stmtGetQueryInfo stmt (position i)), some info⟩] ∧ D (value, info) data)
        (List.range' k n) row word) :
    ∃ values, values.length = n ∧ word = valuesRead stmt k values ∧
      List.Forall₂ D values row := by
  induction n generalizing k row word with
  | zero =>
      cases h
      exact ⟨[], rfl, rfl, .nil⟩
  | succ n ih =>
      cases h with
      | cons hfirst hrest =>
          obtain ⟨value, info, rfl, hdata⟩ := hfirst
          obtain ⟨values, hlength, rfl, hrow⟩ := ih hrest
          exact ⟨(value, info) :: values, congrArg (· + 1) hlength, rfl, .cons hdata hrow⟩

theorem collected_valuesRead (statement : OracleStatement) {k : Nat}
    {values : List (QueryValue × QueryInfo)} {row : List OracleData}
    (hk : k + values.length ≤ 2147483647)
    (h : List.Forall₂ (fun read data => ∃ raw, read.1.data = some raw ∧
      OracleStatement.columnData read.1.nativeType read.2.typeInfo raw read.1.memory =
        .value data) values row) :
    Collected (fun i data tr => (statement.data i).Runs tr (.value data))
      (List.range' k values.length) row (valuesRead statement.handle k values) := by
  induction h generalizing k with
  | nil => exact .nil
  | @cons read data values row hdata _ ih =>
      obtain ⟨raw, hraw, hdata⟩ := hdata
      rw [List.length_cons] at hk
      have hfirst : k < 2147483647 := by omega
      have hrest : k + 1 + values.length ≤ 2147483647 := by omega
      exact .cons (runs_data statement hfirst hraw hdata) (ih hrest)

/-- `nextRow`, when it finds a row and every call of it succeeds. -/
theorem runs_nextRow (statement : OracleStatement) (columns : OracleColumnOffsets)
    {fetched : FetchedRow} {count : UInt32} {values : List (QueryValue × QueryInfo)}
    {row : List OracleData} (hfound : fetched.found ≠ 0)
    (hlength : values.length = count.toNat) (hcount : count.toNat ≤ 2147483647)
    (h : List.Forall₂ (fun read data => ∃ raw, read.1.data = some raw ∧
      OracleStatement.columnData read.1.nativeType read.2.typeInfo raw read.1.memory =
        .value data) values row) :
    (statement.nextRow columns).Runs (⟨.dpi (.stmtFetch statement.handle), some fetched⟩ ::
      ⟨.dpi (.stmtGetNumQueryColumns statement.handle), some count⟩ ::
        valuesRead statement.handle 0 values) (.value (some ⟨columns, row⟩)) := by
  have hcollect := runs_collect (collected_valuesRead statement (k := 0) (by omega) h)
  rw [hlength, ← List.range_eq_range'] at hcollect
  refine ⟨some fetched, _, rfl, ?_⟩
  change (if fetched.found = 0 then _ else _ : Task _).Runs _ _
  rw [if_neg hfound]
  exact ⟨some count, _, rfl, hcollect.bind_pure fun row => some (OracleRow.mk columns row)⟩

/-- The variables are released, and then the statement. -/
def ReleaseWord (stmt : StmtHandle) (vars : List (Option VarHandle)) : List TaskEvent :=
  (vars.map fun var => ⟨.dpi (.varRelease var), some ()⟩) ++
    [⟨.dpi (.stmtRelease stmt), some ()⟩]

theorem released_of_collected {vars : List (Option VarHandle)} {units : List Unit}
    {word : List TaskEvent}
    (h : Collected (fun var (_ : Unit) word => word = [⟨.dpi (.varRelease var), some ()⟩])
      vars units word) :
    word = vars.map fun var => ⟨.dpi (.varRelease var), some ()⟩ := by
  induction vars generalizing units word with
  | nil =>
      cases h
      rfl
  | cons var vars ih =>
      cases h with
      | cons hfirst hrest => rw [hfirst, ih hrest, List.map_cons, List.singleton_append]

theorem speaks_release (op : Op) (reply? : op.Reply → Option Unit)
    (hop : statementCalls.sees op = true) (hsome : ∃ r, reply? r = some ())
    (hfails : ∀ r, reply? r = none → Failed ⟨op, r⟩) :
    Speaks statementCalls (fun _ word => ∃ r, reply? r = some () ∧ word = [⟨op, r⟩])
      (perform op >>= fun r => orThrowLast (reply? r)) := by
  obtain ⟨r₀, hr₀⟩ := hsome
  refine (speaks_checked op reply? (V := fun _ _ word => word = []) hop ⟨r₀, (), hr₀⟩ ?_ ?_).mono ?_
  · intro r b hb
    rw [hb]
    exact speaks_pure rfl
  · intro r hr
    rw [hr]
    exact ⟨hfails r hr, aborts_throwLast⟩
  · rintro _ word ⟨r, b, rest, hr, rfl, rfl⟩
    exact ⟨r, hr, rfl⟩

theorem speaks_cleanup (statement : OracleStatement) :
    Speaks statementCalls (fun _ word => word = ReleaseWord statement.handle statement.vars)
      statement.cleanup := by
  have hvar : ∀ var, Speaks statementCalls
      (fun (_ : Unit) word => word = [⟨.dpi (.varRelease var), some ()⟩])
      (dpi (.varRelease var) >>= fun r => orThrowLast r) := by
    intro var
    refine (speaks_release (.dpi (.varRelease var)) (fun r => r) rfl ⟨some (), rfl⟩
      ?_).mono ?_
    · rintro r rfl
      rfl
    · rintro _ word ⟨r, rfl, rfl⟩
      rfl
  refine (speaks_bind (speaks_collect _ fun var _ => hvar var) fun _ _ _ =>
    speaks_release (.dpi (.stmtRelease statement.handle)) (fun r => r) rfl
      ⟨some (), rfl⟩ ?_).mono ?_
  · rintro r rfl
    rfl
  · rintro _ word ⟨units, first, rest, hfirst, ⟨r, rfl, rfl⟩, rfl⟩
    rw [released_of_collected hfirst]
    rfl

/-- The word of `nextRow`, by what it returns. -/
def NextWord (stmt : StmtHandle) : Option OracleRow → List TaskEvent → Prop
  | none, word => EndWord stmt word
  | some _, word => RowWord stmt word

theorem speaks_nextRow (statement : OracleStatement) (columns : OracleColumnOffsets) :
    Speaks statementCalls (NextWord statement.handle) (statement.nextRow columns) := by
  have hrest : ∀ fetched : FetchedRow, Speaks statementCalls
      (fun row rest => NextWord statement.handle row
        (⟨.dpi (.stmtFetch statement.handle), some fetched⟩ :: rest))
      (if fetched.found = 0 then do
        statement.cleanup
        return none
      else do
        let count ← orThrowLast (← dpi (.stmtGetNumQueryColumns statement.handle))
        let row ← Prog.collect statement.data (List.range count.toNat)
        return some ⟨columns, row⟩) := by
    intro fetched
    by_cases hfound : fetched.found = 0
    · rw [if_pos hfound]
      refine (speaks_bind (speaks_cleanup statement) fun _ _ _ =>
        speaks_return statementCalls none).mono ?_
      rintro row word ⟨_, first, _, rfl, ⟨rfl, rfl⟩, rfl⟩
      refine ⟨fetched, statement.vars, hfound, ?_⟩
      rw [List.append_nil]
      rfl
    · rw [if_neg hfound]
      refine (speaks_guarded (.dpi (.stmtGetNumQueryColumns statement.handle))
        (fun r => r) rfl ⟨some 0, _, rfl⟩ ?_ fun count =>
          speaks_bind (speaks_collect (List.range count.toNat)
            fun i _ => speaks_data statement i) fun row _ _ =>
              speaks_return statementCalls (some (⟨columns, row⟩ : OracleRow))).mono ?_
      · rintro r rfl
        rfl
      · rintro row word ⟨r, count, _, rfl, ⟨data, first, _, hfirst, ⟨rfl, rfl⟩, rfl⟩, rfl⟩
        rw [List.range_eq_range'] at hfirst
        obtain ⟨values, hlength, rfl, _⟩ :=
          valuesRead_of_collected (D := fun _ _ => True) hfirst
        refine ⟨fetched, count, values, hfound, hlength, ?_⟩
        rw [List.append_nil]
  refine (speaks_guarded (.dpi (.stmtFetch statement.handle)) (fun r => r) rfl
    ⟨some ⟨0, 0⟩, _, rfl⟩ ?_ hrest).mono ?_
  · rintro r rfl
    rfl
  · rintro row word ⟨r, fetched, rest, rfl, hword, rfl⟩
    exact hword

/-- The calls before the rows, for the values that are bound. -/
def PreparedWord (stmt : StmtHandle) (values : List OracleData) (word : List TaskEvent) : Prop :=
  ∃ prepare binds execute describe, PrepareWord stmt prepare ∧ BindWord stmt 0 values binds ∧
    ExecuteWord stmt execute ∧ DescribeWord stmt describe ∧
      word = prepare ++ binds ++ execute ++ describe

theorem speaks_prepare (rt : Runtime) (q : OracleQuery) :
    Speaks statementCalls
      (fun prepared word => PreparedWord prepared.1.handle q.binds.values word)
      (prepare rt q) := by
  refine (speaks_bind (speaks_init rt q.sql) fun statement _ _ =>
    speaks_bind (speaks_bindFrom rt statement 0 q.binds.values) fun bound _ _ =>
      speaks_bind (speaks_execute bound) fun _ _ _ =>
        speaks_bind (speaks_columns bound) fun columns _ _ =>
          speaks_return statementCalls (bound, columns)).mono ?_
  rintro _ word ⟨statement, prepare, _, hprepare, ⟨bound, binds, _, ⟨hbound, hbinds⟩,
    ⟨_, execute, _, hexecute, ⟨columns, describe, _, hdescribe, ⟨rfl, rfl⟩, rfl⟩, rfl⟩, rfl⟩,
    rfl⟩
  rw [← hbound] at hprepare hbinds
  refine ⟨prepare, binds, execute, describe, hprepare, hbinds, hexecute, hdescribe, ?_⟩
  simp only [List.append_nil, List.append_assoc]

end OracleNIO.StatementCalls
