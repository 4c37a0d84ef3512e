import OracleNIO.StatementCalls

/-!
The calls that one query makes on its statement, from `dpiConn_prepareStmt` to
`dpiStmt_release`.
-/

namespace OracleNIO.StatementProtocol

open Interaction Prog SwiftRuntime ByteMemory Dpi CallLanguages OracleConnection StatementCalls

/-- The calls of a query with these values that is not cut short. -/
def Word (stmt : StmtHandle) (values : List OracleData) (word : List TaskEvent) : Prop :=
  ∃ (prepared : List TaskEvent) (rows : List (List TaskEvent)) (last : List TaskEvent),
    PreparedWord stmt values prepared ∧ (∀ row ∈ rows, RowWord stmt row) ∧
    EndWord stmt last ∧ word = prepared ++ (rows.flatten ++ last)

/-- The calls of one turn of the loop, by what it returns. -/
def StepWord (statement : OracleStatement) : QueryState ⊕ Unit → List TaskEvent → Prop
  | .inl (.begin _), _ => False
  | .inl (.rows statement' _ _), word => statement' = statement ∧ RowWord statement.handle word
  | .inr (), word => EndWord statement.handle word

theorem speaks_step (statement : OracleStatement) (columns : OracleColumnOffsets)
    (callbacks : List Nat) :
    Speaks statementCalls (StepWord statement) (step statement columns callbacks) := by
  refine (speaks_bind (V := fun _ first next rest => rest = [] ∧ StepWord statement next first)
    (speaks_nextRow statement columns) fun row word hword => ?_).mono ?_
  · cases row with
    | some row =>
        refine speaks_unseen_bind rfl ⟨(0 : Nat)⟩ fun _ => ?_
        exact speaks_pure ⟨rfl, rfl, hword⟩
    | none =>
        refine speaks_unseen_bind rfl ⟨(0 : Nat)⟩ fun _ => ?_
        refine speaks_unseen_bind rfl ⟨()⟩ fun _ => ?_
        exact speaks_pure ⟨rfl, hword⟩
  · rintro next word ⟨row, first, _, _, ⟨rfl, hstep⟩, rfl⟩
    rw [List.append_nil]
    exact hstep

theorem runs_failPromise {error : OracleError} {tr : List TaskEvent}
    {out : Outcome OracleError (QueryState ⊕ Unit)} (h : (failPromise error).Runs tr out) :
    statementCalls.calls tr = [] ∧ out = .value (.inr ()) := by
  obtain ⟨r, rest, rfl, rfl, rfl⟩ := h
  exact ⟨rfl, rfl⟩

section Rows

variable {rt : Runtime} {statement : OracleStatement} {columns : OracleColumnOffsets}
  {callbacks : List Nat} {tr : List TaskEvent}

theorem endWord_exists (stmt : StmtHandle) : ∃ word, EndWord stmt word :=
  ⟨_, ⟨0, 0⟩, [], rfl, rfl⟩

/-- Calls of the rows that are left and of the end. -/
def RowCalls (stmt : StmtHandle) (calls : List TaskEvent) : Prop :=
  ∃ (rows : List (List TaskEvent)) (last : List TaskEvent),
    (∀ row ∈ rows, RowWord stmt row) ∧ EndWord stmt last ∧
      CutOff statementCalls (rows.flatten ++ last) calls

theorem runs_query_rows {out : Outcome OracleError (QueryState ⊕ Unit)}
    (hrun : (query rt (.rows statement columns callbacks)).Runs tr out) :
    (∃ columns' callbacks', out = .value (.inl (.rows statement columns' callbacks')) ∧
        RowWord statement.handle (statementCalls.calls tr)) ∨
      (∀ y, out ≠ .value (.inl y)) ∧
        RowCalls statement.handle (statementCalls.calls tr) := by
  have hcalls : ∀ next word calls, StepWord statement next word →
      CutOff statementCalls word calls → RowCalls statement.handle calls := by
    intro next word calls hword hcut
    cases next with
    | inl y =>
        cases y with
        | «begin» q => exact hword.elim
        | rows statement' columns' callbacks' =>
            obtain ⟨last, hlast⟩ := endWord_exists statement.handle
            refine ⟨[word], last, by simpa using hword.2, hlast, ?_⟩
            rw [List.flatten_singleton]
            exact hcut.append_right last
    | inr _ => exact ⟨[], word, by simp, hword, hcut⟩
  obtain ⟨next, rfl, hword⟩ | ⟨hout, next, word, hword, hcut⟩ :=
    (speaks_step statement columns callbacks).runs_tryCatch
      (fun e tr out h => (runs_failPromise h).1) hrun
  · cases next with
    | inl y =>
        cases y with
        | «begin» q => exact hword.elim
        | rows statement' columns' callbacks' =>
            obtain ⟨rfl, hrow⟩ := hword
            exact .inl ⟨columns', callbacks', rfl, hrow⟩
    | inr _ => exact .inr ⟨nofun, hcalls _ _ _ hword (cutOff_self _ _)⟩
  · refine .inr ⟨?_, hcalls next word _ hword hcut⟩
    rintro y rfl
    rcases hout with hout | ⟨e, tr', hfail⟩
    · cases hout
    · cases (runs_failPromise hfail).2

theorem rowCalls_of_stop {out : Outcome OracleError (QueryState ⊕ Unit)}
    (hrun : (query rt (.rows statement columns callbacks)).Runs tr out)
    (hout : ∀ y, out ≠ .value (.inl y)) :
    RowCalls statement.handle (statementCalls.calls tr) := by
  obtain ⟨columns', callbacks', rfl, _⟩ | ⟨_, hcalls⟩ := runs_query_rows hrun
  · exact absurd rfl (hout _)
  · exact hcalls

theorem loopRuns_rows {x : QueryState} {out : Outcome OracleError Unit}
    (hrun : LoopRuns (query rt) x tr out) (hx : x = .rows statement columns callbacks) :
    RowCalls statement.handle (statementCalls.calls tr) := by
  induction hrun generalizing columns callbacks with
  | done hrun =>
      subst hx
      exact rowCalls_of_stop hrun (by simp)
  | error hrun =>
      subst hx
      exact rowCalls_of_stop hrun (by simp)
  | trap hrun =>
      subst hx
      exact rowCalls_of_stop hrun (by simp)
  | again hfirst hloop ih =>
      subst hx
      obtain ⟨columns', callbacks', hnext, hrow⟩ | ⟨hout, _⟩ := runs_query_rows hfirst
      · cases hnext
        obtain ⟨rows, last, hrows, hlast, hcut⟩ := ih rfl
        refine ⟨_ :: rows, last, List.forall_mem_cons.mpr ⟨hrow, hrows⟩, hlast, ?_⟩
        rw [calls_append, List.flatten_cons, List.append_assoc]
        exact hcut.append_left _
      · exact absurd rfl (hout _)

end Rows

theorem word_of_prepared {stmt : StmtHandle} {values : List OracleData}
    {prepared calls : List TaskEvent} (hprepared : PreparedWord stmt values prepared)
    (hcalls : RowCalls stmt calls) :
    ∃ word, Word stmt values word ∧ CutOff statementCalls word (prepared ++ calls) := by
  obtain ⟨rows, last, hrows, hlast, hcut⟩ := hcalls
  exact ⟨_, ⟨prepared, rows, last, hprepared, hrows, hlast, rfl⟩, hcut.append_left prepared⟩

/-- At the start the query goes on with the statement it has prepared, or is cut short. -/
theorem runs_query_begin {rt : Runtime} {q : OracleQuery} {tr : List TaskEvent}
    {out : Outcome OracleError (QueryState ⊕ Unit)} (hrun : (query rt (.begin q)).Runs tr out) :
    (∃ statement columns, out = .value (.inl (.rows statement columns [])) ∧
        PreparedWord statement.handle q.binds.values (statementCalls.calls tr)) ∨
      (∀ y, out ≠ .value (.inl y)) ∧ ∃ stmt word, PreparedWord stmt q.binds.values word ∧
        CutOff statementCalls word (statementCalls.calls tr) := by
  obtain ⟨next, rfl, ⟨statement, columns⟩, first, _, hword, ⟨rfl, hnil⟩, hcalls⟩ |
      ⟨hout, next, word, ⟨⟨statement, columns⟩, first, _, hword, ⟨rfl, rfl⟩, rfl⟩, hcut⟩ :=
    (speaks_bind (speaks_prepare rt q) fun prepared _ _ =>
      speaks_return statementCalls
        (.inl (.rows prepared.1 prepared.2 []) : QueryState ⊕ Unit)).runs_tryCatch
      (fun e tr out h => (runs_failPromise h).1) hrun
  · rw [hnil, List.append_nil] at hcalls
    rw [hcalls]
    exact .inl ⟨statement, columns, rfl, hword⟩
  · rw [List.append_nil] at hcut
    refine .inr ⟨?_, statement.handle, first, hword, hcut⟩
    rintro y rfl
    rcases hout with hout | ⟨e, tr', hfail⟩
    · cases hout
    · cases (runs_failPromise hfail).2

theorem loopRuns_begin {rt : Runtime} {q : OracleQuery} {tr : List TaskEvent}
    {out : Outcome OracleError Unit} (hrun : LoopRuns (query rt) (.begin q) tr out) :
    ∃ stmt word, Word stmt q.binds.values word ∧
      CutOff statementCalls word (statementCalls.calls tr) := by
  have hstop : ∀ out', (query rt (.begin q)).Runs tr out' → (∀ y, out' ≠ .value (.inl y)) →
      ∃ stmt word, Word stmt q.binds.values word ∧
        CutOff statementCalls word (statementCalls.calls tr) := by
    intro out' hrun' hout
    obtain ⟨statement, columns, rfl, _⟩ | ⟨_, stmt, first, hfirst, hcut⟩ := runs_query_begin hrun'
    · exact absurd rfl (hout _)
    · obtain ⟨last, hlast⟩ := endWord_exists stmt
      exact ⟨stmt, _, ⟨first, [], last, hfirst, by simp, hlast, rfl⟩, hcut.append_right _⟩
  cases hrun with
  | done hrun => exact hstop _ hrun (by simp)
  | error hrun => exact hstop _ hrun (by simp)
  | trap hrun => exact hstop _ hrun (by simp)
  | again hfirst hloop =>
      obtain ⟨statement, columns, hnext, hword⟩ | ⟨hout, _⟩ := runs_query_begin hfirst
      · cases hnext
        obtain ⟨word, hword, hcut⟩ := word_of_prepared hword (loopRuns_rows hloop rfl)
        rw [calls_append]
        exact ⟨statement.handle, word, hword, hcut⟩
      · exact absurd rfl (hout _)

def isRelease : Op → Bool
  | .dpi (.stmtRelease _) => true
  | _ => false

def readsValue : Op → Bool
  | .dpi (.stmtGetQueryValue _ _) => true
  | _ => false

/-- The position of the column that the call is about. -/
def column? : Op → Option UInt32
  | .dpi (.stmtGetQueryInfo _ pos) => some pos
  | .dpi (.stmtGetQueryValue _ pos) => some pos
  | _ => none

/-- What a fetch found. -/
def fetched? : TaskEvent → Option FetchedRow
  | ⟨.dpi (.stmtFetch _), reply⟩ => (reply : Option FetchedRow)
  | _ => none

/-- The number of columns that a call gave. -/
def counted? : TaskEvent → Option UInt32
  | ⟨.dpi (.stmtGetNumQueryColumns _), reply⟩ => (reply : Option UInt32)
  | _ => none

/-- The last of them in the run. -/
def latest {β : Type} (f : TaskEvent → Option β) (tr : List TaskEvent) : Option β :=
  (tr.filterMap f).getLast?

/-- No call has failed, and the statement has not been released. -/
structure Live (before : List TaskEvent) : Prop where
  succeeded : ∀ e ∈ before, ¬ Failed e
  unreleased : ∀ e ∈ before, isRelease e.op = false

/-- Nothing has failed, the row is there and the column is one of the query. -/
structure Permitted (before : List TaskEvent) (op : Op) : Prop where
  live : Live before
  found : readsValue op = true → ∃ fetched, latest fetched? before = some fetched ∧
    fetched.found ≠ 0
  inRange : ∀ pos, column? op = some pos → ∃ count, latest counted? before = some count ∧
    1 ≤ pos.toNat ∧ pos.toNat ≤ count.toNat

theorem latest_snoc_none {β : Type} {f : TaskEvent → Option β} {before : List TaskEvent}
    {e : TaskEvent} (h : f e = none) : latest f (before ++ [e]) = latest f before := by
  simp [latest, h]

theorem latest_snoc {β : Type} {f : TaskEvent → Option β} {before : List TaskEvent}
    {e : TaskEvent} {b : β} (h : f e = some b) : latest f (before ++ [e]) = some b := by
  simp [latest, h]

theorem live_append {before word : List TaskEvent} (h : Live before)
    (hword : ∀ e ∈ word, ¬ Failed e ∧ isRelease e.op = false) : Live (before ++ word) where
  succeeded := List.forall_mem_append.mpr ⟨h.succeeded, fun e he => (hword e he).1⟩
  unreleased := List.forall_mem_append.mpr ⟨h.unreleased, fun e he => (hword e he).2⟩

/-- A call that passes no column and reads no value. -/
structure Plain (e : TaskEvent) : Prop where
  succeeded : ¬ Failed e
  unreleased : isRelease e.op = false
  readsNothing : readsValue e.op = false
  noColumn : column? e.op = none

theorem plain_call {c : DpiCall} {reply : c.Reply} (hsucceeded : c.succeeded reply = true)
    (hrelease : isRelease (.dpi c) = false) (hvalue : readsValue (.dpi c) = false)
    (hcolumn : column? (.dpi c) = none) : Plain ⟨.dpi c, reply⟩ where
  succeeded := by simp [Failed, hsucceeded]
  unreleased := hrelease
  readsNothing := hvalue
  noColumn := hcolumn

theorem permitted_plain {before : List TaskEvent} {op : Op} (h : Live before)
    (hvalue : readsValue op = false) (hcolumn : column? op = none) : Permitted before op where
  live := h
  found hread := by
    rw [hvalue] at hread
    cases hread
  inRange pos hpos := by
    rw [hcolumn] at hpos
    cases hpos

theorem obeys_plain {before word : List TaskEvent} (h : Live before)
    (hword : ∀ e ∈ word, Plain e) : Obeys Permitted before word := by
  induction word generalizing before with
  | nil => trivial
  | cons e word ih =>
      obtain ⟨he, hrest⟩ := List.forall_mem_cons.mp hword
      refine ⟨permitted_plain h he.readsNothing he.noColumn, ih ?_ hrest⟩
      exact live_append h (by simpa using ⟨he.succeeded, he.unreleased⟩)

/-- The calls are permitted, and leave the statement as it is needed for more. -/
structure Block (before word : List TaskEvent) : Prop where
  obeys : Obeys Permitted before word
  live : Live (before ++ word)

theorem Block.append {before word rest : List TaskEvent} (h : Block before word)
    (hrest : Block (before ++ word) rest) : Block before (word ++ rest) where
  obeys := obeys_append.mpr ⟨h.obeys, hrest.obeys⟩
  live := by
    rw [← List.append_assoc]
    exact hrest.live

theorem block_plain {before word : List TaskEvent} (h : Live before)
    (hword : ∀ e ∈ word, Plain e) : Block before word where
  obeys := obeys_plain h hword
  live := live_append h fun e he => ⟨(hword e he).succeeded, (hword e he).unreleased⟩

theorem block_one {before : List TaskEvent} {e : TaskEvent} (h : Live before)
    (he : Plain e) : Block before [e] :=
  block_plain h (List.forall_mem_singleton.mpr he)

theorem bindsAt_plain {stmt : StmtHandle} {i : Nat} {value : OracleData} {op : Op}
    (h : BindsAt stmt i value op) :
    isRelease op = false ∧ readsValue op = false ∧ column? op = none := by
  unfold BindsAt at h
  split at h
  · exact ⟨rfl, rfl, rfl⟩
  · exact ⟨rfl, rfl, rfl⟩
  · exact h.elim

theorem plain_of_bindWord {stmt : StmtHandle} {i : Nat} {values : List OracleData}
    {word : List TaskEvent} (h : BindWord stmt i values word) : ∀ e ∈ word, Plain e := by
  induction values generalizing i word with
  | nil =>
      obtain rfl : word = [] := h
      simp
  | cons value values ih =>
      obtain ⟨e, rest, rfl, hbind, hsucceeded, hrest⟩ := h
      obtain ⟨hrelease, hvalue, hcolumn⟩ := bindsAt_plain hbind
      exact List.forall_mem_cons.mpr ⟨⟨hsucceeded, hrelease, hvalue, hcolumn⟩, ih hrest⟩

theorem position_toNat {i : Nat} {count : UInt32} (h : i < count.toNat) :
    (position i).toNat = i + 1 := by
  have hlt : count.toNat < 4294967296 := count.toNat_lt
  rw [position, UInt32.toNat_ofNat_of_lt']
  exact Nat.lt_of_le_of_lt h hlt

theorem permitted_column {before : List TaskEvent} {op : Op} {k : Nat} {count : UInt32}
    (h : Live before) (hcolumn : column? op = some (position k))
    (hcount : latest counted? before = some count) (hk : k < count.toNat)
    (hfound : readsValue op = true → ∃ fetched, latest fetched? before = some fetched ∧
      fetched.found ≠ 0) : Permitted before op := by
  refine ⟨h, hfound, fun pos hpos => ⟨count, hcount, ?_⟩⟩
  rw [hcolumn] at hpos
  rw [← Option.some.inj hpos, position_toNat hk]
  omega

theorem block_described {stmt : StmtHandle} {before : List TaskEvent} {k : Nat}
    {infos : List QueryInfo} {count : UInt32} (h : Live before)
    (hcount : latest counted? before = some count) (hk : k + infos.length ≤ count.toNat) :
    Block before (described stmt k infos) := by
  induction infos generalizing before k with
  | nil => exact block_plain h (by simp [described])
  | cons info infos ih =>
      rw [List.length_cons] at hk
      have hinfo : Block before
          [⟨.dpi (.stmtGetQueryInfo stmt (position k)), some info⟩] := by
        refine ⟨⟨?_, trivial⟩, ?_⟩
        · exact permitted_column (k := k) h rfl hcount (by omega) (by simp [readsValue])
        · exact live_append h (by simp [Failed, DpiCall.succeeded, isRelease])
      have hcount' : latest counted? (before ++
          [⟨.dpi (.stmtGetQueryInfo stmt (position k)), some info⟩]) = some count := by
        rw [latest_snoc_none rfl, hcount]
      exact hinfo.append (ih hinfo.live hcount' (by omega))

theorem block_valuesRead {stmt : StmtHandle} {before : List TaskEvent} {k : Nat}
    {values : List (QueryValue × QueryInfo)} {count : UInt32} {fetched : FetchedRow}
    (h : Live before) (hfetched : latest fetched? before = some fetched)
    (hfound : fetched.found ≠ 0) (hcount : latest counted? before = some count)
    (hk : k + values.length ≤ count.toNat) : Block before (valuesRead stmt k values) := by
  induction values generalizing before k with
  | nil => exact block_plain h (by simp [valuesRead])
  | cons value values ih =>
      rcases value with ⟨value, info⟩
      rw [List.length_cons] at hk
      have hread : Block before
          [⟨.dpi (.stmtGetQueryValue stmt (position k)), some value⟩] := by
        refine ⟨⟨?_, trivial⟩, ?_⟩
        · exact permitted_column (k := k) h rfl hcount (by omega)
            fun _ => ⟨fetched, hfetched, hfound⟩
        · exact live_append h (by simp [Failed, DpiCall.succeeded, isRelease])
      have hcount₁ : latest counted? (before ++
          [⟨.dpi (.stmtGetQueryValue stmt (position k)), some value⟩]) = some count := by
        rw [latest_snoc_none rfl, hcount]
      have hinfo : Block (before ++ [⟨.dpi (.stmtGetQueryValue stmt (position k)), some value⟩])
          [⟨.dpi (.stmtGetQueryInfo stmt (position k)), some info⟩] :=
        show Block _ (described stmt k [info]) from
          block_described hread.live hcount₁ (by simp; omega)
      refine hread.append (hinfo.append (ih hinfo.live ?_ ?_ (by omega)))
      · rw [latest_snoc_none rfl, latest_snoc_none rfl, hfetched]
      · rw [latest_snoc_none rfl, hcount₁]

variable {stmt : StmtHandle} {values : List OracleData} {before word : List TaskEvent}

theorem block_described_count (h : Live before) {count : UInt32} {infos : List QueryInfo}
    (hlength : infos.length = count.toNat) :
    Block before (⟨.dpi (.stmtGetNumQueryColumns stmt), some count⟩ ::
      described stmt 0 infos) := by
  have hcount : Block before [⟨.dpi (.stmtGetNumQueryColumns stmt), some count⟩] :=
    block_one h (plain_call rfl rfl rfl rfl)
  exact hcount.append (block_described hcount.live (latest_snoc rfl) (by omega))

theorem block_prepared (hword : PreparedWord stmt values word) : Block [] word := by
  obtain ⟨prepare, binds, execute, describe, ⟨conn, sql, rfl⟩, hbinds, ⟨numColumns, rfl⟩,
    ⟨count, infos, hlength, rfl⟩, rfl⟩ := hword
  have hprepare : Plain ⟨.dpi (.connPrepareStmt conn sql), some stmt⟩ :=
    plain_call rfl rfl rfl rfl
  have hexecute : Plain ⟨.dpi (.stmtExecute stmt 0), some numColumns⟩ :=
    plain_call rfl rfl rfl rfl
  have hplain : Block [] ([⟨.dpi (.connPrepareStmt conn sql), some stmt⟩] ++ binds ++
      [⟨.dpi (.stmtExecute stmt 0), some numColumns⟩]) := by
    refine block_plain ⟨by simp, by simp⟩ ?_
    simp only [List.forall_mem_append, List.forall_mem_singleton]
    exact ⟨⟨hprepare, plain_of_bindWord hbinds⟩, hexecute⟩
  exact hplain.append (block_described_count hplain.live hlength)

theorem block_row (h : Live before) (hword : RowWord stmt word) : Block before word := by
  obtain ⟨fetched, count, values, hfound, hlength, rfl⟩ := hword
  have hfirst : Block before [⟨.dpi (.stmtFetch stmt), some fetched⟩] :=
    block_one h (plain_call rfl rfl rfl rfl)
  have hsecond : Block (before ++ [⟨.dpi (.stmtFetch stmt), some fetched⟩])
      [⟨.dpi (.stmtGetNumQueryColumns stmt), some count⟩] :=
    block_one hfirst.live (plain_call rfl rfl rfl rfl)
  refine hfirst.append (hsecond.append (block_valuesRead hsecond.live ?_ hfound
    (latest_snoc rfl) (by omega)))
  rw [latest_snoc_none rfl]
  exact latest_snoc rfl

theorem block_rows {rows : List (List TaskEvent)} (h : Live before)
    (hrows : ∀ row ∈ rows, RowWord stmt row) : Block before rows.flatten := by
  induction rows generalizing before with
  | nil => exact block_plain h (by simp)
  | cons row rows ih =>
      obtain ⟨hrow, hrows⟩ := List.forall_mem_cons.mp hrows
      have hfirst := block_row h hrow
      exact hfirst.append (ih hfirst.live hrows)

theorem obeys_last (h : Live before) (hword : EndWord stmt word) :
    Obeys Permitted before word := by
  obtain ⟨fetched, vars, _, rfl⟩ := hword
  have hplain : ∀ e ∈ (⟨.dpi (.stmtFetch stmt), some fetched⟩ ::
      vars.map fun var => ⟨.dpi (.varRelease var), some ()⟩ : List TaskEvent), Plain e := by
    refine List.forall_mem_cons.mpr ⟨?_, List.forall_mem_map.mpr fun var _ => ?_⟩
    · exact plain_call rfl rfl rfl rfl
    · exact plain_call rfl rfl rfl rfl
  have hfirst := block_plain h hplain
  exact obeys_append.mpr ⟨hfirst.obeys, permitted_plain hfirst.live rfl rfl, trivial⟩

theorem Word.obeys (hword : Word stmt values word) : Obeys Permitted [] word := by
  obtain ⟨prepared, rows, last, hprepared, hrows, hlast, rfl⟩ := hword
  have hfirst := block_prepared hprepared
  have hmiddle := block_rows hfirst.live hrows
  refine obeys_append.mpr ⟨hfirst.obeys, obeys_append.mpr ⟨hmiddle.obeys, ?_⟩⟩
  exact obeys_last hmiddle.live hlast

theorem query_ends (rt : Runtime) (x : QueryState) :
    ∃ tr out, LoopRuns (query rt) x tr out := by
  cases x with
  | «begin» q =>
      exact ⟨[⟨.readHandle, none⟩, ⟨.promiseFail _, ()⟩], .value (),
        .done ⟨none, _, rfl, (), _, rfl, rfl, rfl⟩⟩
  | rows statement columns callbacks =>
      exact ⟨[⟨.dpi (.stmtFetch statement.handle), none⟩, ⟨.readContext, none⟩,
        ⟨.promiseFail _, ()⟩], .value (),
        .done ⟨none, _, rfl, none, _, rfl, (), _, rfl, rfl, rfl⟩⟩

/-- At any time the calls that a query has made on its statement are those of a word up to
some point, and each was permitted after the ones before it. -/
theorem query_follows_protocol (rt : Runtime) (q : OracleQuery) {tr : List TaskEvent}
    (h : LoopPerforms (query rt) (.begin q) tr) :
    ∃ stmt word, Word stmt q.binds.values word ∧
      CutOff statementCalls word (statementCalls.calls tr) ∧
      ∀ before e after, statementCalls.calls tr = before ++ e :: after →
        Permitted before e.op := by
  obtain ⟨rest, out, hrun⟩ := h.exists_loopRuns reply_nonempty (query_ends rt)
  obtain ⟨stmt, word, hword, hcut⟩ := loopRuns_begin hrun
  rw [calls_append] at hcut
  have hcalls : CutOff statementCalls word (statementCalls.calls tr) :=
    hcut.of_prefix (List.prefix_append _ _)
  refine ⟨stmt, word, hword, hcalls, ?_⟩
  intro before e after heq
  have hobeys := hcalls.obeys hword.obeys
  rw [heq] at hobeys
  exact hobeys.at

/-- A query that binds one value. -/
def selectBound : OracleQuery := ⟨"SELECT :1", ⟨[.integer 7]⟩⟩

/-- A column of integers with the name "A". -/
def boundColumn : QueryInfo := ⟨[65, 0], some .number, some .int64, 0⟩

def boundValue : QueryValue := ⟨.int64, some ⟨false, .asInt64 7⟩, []⟩

/-- One value is bound, and a row of one column is found. -/
def oneRow : List TaskEvent :=
  [⟨.readHandle, some ⟨1⟩⟩,
    ⟨.dpi (.connPrepareStmt ⟨1⟩ ⟨utf8 "SELECT :1" ++ [0], 9⟩), some ⟨2⟩⟩,
    ⟨.dpi (.stmtBindValueByPos ⟨2⟩ 1 .int64 ⟨false, .asInt64 7⟩ []), some ()⟩,
    ⟨.dpi (.stmtExecute ⟨2⟩ 0), some (1 : UInt32)⟩,
    ⟨.dpi (.stmtGetNumQueryColumns ⟨2⟩), some (1 : UInt32)⟩] ++
  described ⟨2⟩ 0 [boundColumn] ++
  ([⟨.dpi (.stmtFetch ⟨2⟩), some ⟨1, 0⟩⟩,
    ⟨.dpi (.stmtGetNumQueryColumns ⟨2⟩), some (1 : UInt32)⟩] ++
  valuesRead ⟨2⟩ 0 [(boundValue, boundColumn)] ++
  [⟨.submitRow ⟨⟨[("A", 0)]⟩, [.integer 7]⟩, (0 : Nat)⟩] ++
  [⟨.dpi (.stmtFetch ⟨2⟩), some ⟨0, 0⟩⟩, ⟨.dpi (.stmtRelease ⟨2⟩), some ()⟩])

theorem performs_oneRow : LoopPerforms (query asciiRuntime) (.begin selectBound) oneRow := by
  have harg : stringArgument asciiRuntime selectBound.sql =
      .value ⟨utf8 "SELECT :1" ++ [0], 9⟩ := stringArgument_of_lt (by decide)
  have hinit : (OracleStatement.init asciiRuntime selectBound.sql).Runs (oneRow.take 2)
      (.value ⟨⟨2⟩, []⟩) := by
    rw [OracleStatement.init_eq harg]
    exact ⟨_, _, rfl, _, _, rfl, rfl, rfl⟩
  have hbind : (OracleStatement.bind asciiRuntime ⟨⟨2⟩, []⟩ [.integer 7]).Runs
      ((oneRow.drop 2).take 1) (.value ⟨⟨2⟩, []⟩) :=
    Runs.ofOutcome_bind (uint32_of_lt (by omega)) ⟨_, _, rfl, rfl, rfl⟩
  have hexecute : (OracleStatement.execute ⟨⟨2⟩, []⟩).Runs ((oneRow.drop 3).take 1)
      (.value ()) := ⟨_, _, rfl, rfl, rfl⟩
  have hcolumns : (OracleStatement.columns ⟨⟨2⟩, []⟩).Runs ((oneRow.drop 4).take 2)
      (.value ⟨[("A", 0)]⟩) :=
    runs_columns ⟨⟨2⟩, []⟩ rfl (by decide) (.cons (by decide) .nil)
  have hrow : (OracleStatement.nextRow ⟨⟨2⟩, []⟩ ⟨[("A", 0)]⟩).Runs ((oneRow.drop 6).take 4)
      (.value (some ⟨⟨[("A", 0)]⟩, [.integer 7]⟩)) :=
    @runs_nextRow ⟨⟨2⟩, []⟩ ⟨[("A", 0)]⟩ ⟨1, 0⟩ 1 [(boundValue, boundColumn)] [.integer 7]
      (by decide) rfl (by decide) (.cons ⟨_, rfl, rfl⟩ .nil)
  have hprepare : (prepare asciiRuntime selectBound).Runs (oneRow.take 6)
      (.value (⟨⟨2⟩, []⟩, ⟨[("A", 0)]⟩)) :=
    hinit.bind (hbind.bind (hexecute.bind
      (hcolumns.bind_pure fun columns => (OracleStatement.mk ⟨2⟩ [], columns))))
  have hsubmit : (step ⟨⟨2⟩, []⟩ ⟨[("A", 0)]⟩ []).Runs ((oneRow.drop 6).take 5)
      (.value (.inl (.rows ⟨⟨2⟩, []⟩ ⟨[("A", 0)]⟩ [0]))) := hrow.bind ⟨_, _, rfl, rfl, rfl⟩
  exact .again (runs_begin hprepare)
    (.again (hsubmit.tryCatch failPromise) (.here ⟨_, rfl, _, rfl, trivial⟩))

theorem query_follows_protocol_oneRow :
    ∃ stmt word, Word stmt [.integer 7] word ∧
      CutOff statementCalls word (statementCalls.calls oneRow) ∧
        ∀ before e after, statementCalls.calls oneRow = before ++ e :: after →
          Permitted before e.op :=
  query_follows_protocol asciiRuntime selectBound performs_oneRow

end OracleNIO.StatementProtocol
