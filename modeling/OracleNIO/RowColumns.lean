import OracleNIO.OracleRow
import OracleNIO.StatementProtocol

/-!
The rows of a statement and the columns that were described for it.
-/

namespace OracleNIO.RowColumns

open Interaction Prog SwiftRuntime Dpi CallLanguages OracleStatement StatementCalls
open StatementProtocol (counted?)

variable {α β : Type}

theorem runs_guarded_value (op : Op) (reply? : op.Reply → Option β) {f : β → Task α}
    {tr : List TaskEvent} {a : α}
    (h : (perform op >>= fun r => orThrowLast (reply? r) >>= f).Runs tr (.value a)) :
    ∃ r b rest, reply? r = some b ∧ tr = ⟨op, r⟩ :: rest ∧ (f b).Runs rest (.value a) := by
  obtain ⟨r, rest, rfl, hrun⟩ := h
  cases hreply : reply? r with
  | some b =>
      change (orThrowLast (reply? r) >>= f).Runs rest (.value a) at hrun
      rw [hreply] at hrun
      exact ⟨r, b, rest, hreply, rfl, hrun⟩
  | none =>
      change (orThrowLast (reply? r) >>= f).Runs rest (.value a) at hrun
      rw [hreply] at hrun
      exact absurd rfl ((aborts_throwLast_bind f rest _ hrun).2 a)

theorem runs_ofOutcome_value {out : Outcome OracleError α} {f : α → Task β}
    {tr : List TaskEvent} {b : β} (h : (ofOutcome out >>= f).Runs tr (.value b)) :
    ∃ a, out = .value a ∧ (f a).Runs tr (.value b) := by
  obtain hvalue | ⟨_, hout, _⟩ := runs_ofOutcome_bind h
  · exact hvalue
  · exact absurd rfl (hout b)

/-- The text of the name that describes a column. -/
def Named (info : QueryInfo) (name : String) : Prop :=
  stringOfCString info.name 0 = .value name

/-- What a value read is decoded to. -/
def Decoded (read : QueryValue × QueryInfo) (data : OracleData) : Prop :=
  ∃ raw, read.1.data = some raw ∧
    columnData read.1.nativeType read.2.typeInfo raw read.1.memory = .value data

theorem runs_ofOutcome {out : Outcome OracleError α} {tr : List TaskEvent} {a : α}
    (h : (ofOutcome out : Task α).Runs tr (.value a)) : tr = [] ∧ out = .value a := by
  cases out with
  | value b =>
      obtain ⟨rfl, hb⟩ := h
      exact ⟨rfl, hb.symm⟩
  | error e => cases h.2
  | trap => cases h.2

theorem runs_column_value {statement : OracleStatement} {i : Nat} {tr : List TaskEvent}
    {name : String} (h : (statement.column i).Runs tr (.value name)) :
    ∃ info, tr = [⟨.dpi (.stmtGetQueryInfo statement.handle (position i)), some info⟩] ∧
      Named info name := by
  obtain ⟨pos, hpos, hcall⟩ := runs_ofOutcome_value h
  obtain ⟨r, info, rest, rfl, rfl, hdecode⟩ :=
    runs_guarded_value (.dpi (.stmtGetQueryInfo statement.handle pos)) (fun r => r) hcall
  obtain ⟨rfl, hname⟩ := runs_ofOutcome hdecode
  rw [columnPosition_value hpos]
  exact ⟨info, rfl, hname⟩

theorem runs_data_value {statement : OracleStatement} {i : Nat} {tr : List TaskEvent}
    {data : OracleData} (h : (statement.data i).Runs tr (.value data)) :
    ∃ value info,
      tr = [⟨.dpi (.stmtGetQueryValue statement.handle (position i)), some value⟩,
        ⟨.dpi (.stmtGetQueryInfo statement.handle (position i)), some info⟩] ∧
      Decoded (value, info) data := by
  obtain ⟨pos, hpos, hread⟩ := runs_ofOutcome_value h
  obtain ⟨r, value, _, rfl, rfl, hdescribe⟩ :=
    runs_guarded_value (.dpi (.stmtGetQueryValue statement.handle pos)) (fun r => r) hread
  obtain ⟨r', info, rest, rfl, rfl, hdecode⟩ :=
    runs_guarded_value (.dpi (.stmtGetQueryInfo statement.handle pos)) (fun r => r) hdescribe
  rw [columnPosition_value hpos]
  cases hdata : value.data with
  | none =>
      rw [hdata] at hdecode
      exact absurd rfl ((aborts_throwLast rest _ hdecode).2 data)
  | some raw =>
      rw [hdata] at hdecode
      obtain ⟨rfl, hdecoded⟩ := runs_ofOutcome hdecode
      exact ⟨value, info, rfl, raw, hdata, hdecoded⟩

theorem runs_columns_value {statement : OracleStatement} {tr : List TaskEvent}
    {offsets : OracleColumnOffsets} (h : statement.columns.Runs tr (.value offsets)) :
    ∃ (count : UInt32) (infos : List QueryInfo) (names : List String),
      infos.length = count.toNat ∧
        tr = ⟨.dpi (.stmtGetNumQueryColumns statement.handle), some count⟩ ::
          described statement.handle 0 infos ∧
        List.Forall₂ Named infos names ∧ offsets = ⟨names.zipIdx⟩ := by
  obtain ⟨r, count, _, rfl, rfl, hcollect⟩ :=
    runs_guarded_value (.dpi (.stmtGetNumQueryColumns statement.handle)) (fun r => r) h
  obtain ⟨names, tr₁, _, rfl, hnames, rfl, hout⟩ | ⟨_, he, _⟩ | ⟨he, _⟩ := runs_bind hcollect
  · cases hout
    have hcollected := (runs_collect_value hnames).mono fun i name word => runs_column_value
    rw [List.range_eq_range'] at hcollected
    obtain ⟨infos, hlength, rfl, hnamed⟩ := described_of_collected hcollected
    exact ⟨count, infos, names, hlength, by rw [List.append_nil], hnamed, rfl⟩
  · cases he
  · cases he

theorem runs_nextRow_some {statement : OracleStatement} {offsets : OracleColumnOffsets}
    {tr : List TaskEvent} {row : OracleRow}
    (h : (statement.nextRow offsets).Runs tr (.value (some row))) :
    ∃ (fetched : FetchedRow) (count : UInt32) (values : List (QueryValue × QueryInfo)),
      fetched.found ≠ 0 ∧ values.length = count.toNat ∧
        tr = ⟨.dpi (.stmtFetch statement.handle), some fetched⟩ ::
          ⟨.dpi (.stmtGetNumQueryColumns statement.handle), some count⟩ ::
            valuesRead statement.handle 0 values ∧
        List.Forall₂ Decoded values row.data ∧ row.columnOffsets = offsets := by
  obtain ⟨r, fetched, _, rfl, rfl, hnext⟩ :=
    runs_guarded_value (.dpi (.stmtFetch statement.handle)) (fun r => r) h
  by_cases hfound : fetched.found = 0
  · rw [if_pos hfound] at hnext
    obtain ⟨_, _, _, rfl, _, _, hout⟩ | ⟨_, he, _⟩ | ⟨he, _⟩ := runs_bind hnext
    · cases hout
    · cases he
    · cases he
  · rw [if_neg hfound] at hnext
    obtain ⟨r', count, _, rfl, rfl, hcollect⟩ :=
      runs_guarded_value (.dpi (.stmtGetNumQueryColumns statement.handle)) (fun r => r) hnext
    obtain ⟨data, tr₁, _, rfl, hdata, rfl, hout⟩ | ⟨_, he, _⟩ | ⟨he, _⟩ := runs_bind hcollect
    · cases hout
      have hcollected := (runs_collect_value hdata).mono fun i data word => runs_data_value
      rw [List.range_eq_range'] at hcollected
      obtain ⟨values, hlength, rfl, hdecoded⟩ := valuesRead_of_collected hcollected
      refine ⟨fetched, count, values, hfound, hlength, ?_, hdecoded, rfl⟩
      rw [List.append_nil]
    · cases he
    · cases he

theorem columnsOf_zipIdx {row : OracleRow} {names : List String} {k : Nat}
    {data : List OracleData} (hdata : row.data.drop k = data)
    (hlength : names.length = data.length) :
    row.columnsOf (names.zipIdx k) = .value (List.zipWith OracleColumn.mk names data) := by
  induction names generalizing k data with
  | nil => rfl
  | cons name names ih =>
      obtain ⟨d, rest, rfl⟩ := List.exists_cons_of_length_eq_add_one hlength.symm
      have hat : row.dataAt k = .value d := by
        have hget : row.data[k]? = some d := by
          rw [← List.head?_drop, hdata, List.head?_cons]
        rw [OracleRow.dataAt, hget]
      have hrest : row.data.drop (k + 1) = rest := by
        rw [← List.tail_drop, hdata, List.tail_cons]
      rw [List.zipIdx_cons, OracleRow.columnsOf, hat]
      change (do
        let columns ← row.columnsOf (names.zipIdx (k + 1))
        return OracleColumn.mk name d :: columns) = _
      rw [ih hrest (Nat.succ.inj hlength)]
      rfl

theorem forall₂_columns {infos : List QueryInfo} {names : List String}
    {values : List (QueryValue × QueryInfo)} {data : List OracleData}
    (hnames : List.Forall₂ Named infos names) (hdata : List.Forall₂ Decoded values data)
    (hlength : infos.length = values.length) :
    List.Forall₂ (fun info column => Named info column.name) infos
        (List.zipWith OracleColumn.mk names data) ∧
      List.Forall₂ (fun value column => Decoded value column.data) values
        (List.zipWith OracleColumn.mk names data) := by
  induction hnames generalizing values data with
  | nil =>
      cases hdata with
      | nil => exact ⟨.nil, .nil⟩
      | cons _ _ => cases hlength
  | cons hname _ ih =>
      cases hdata with
      | nil => cases hlength
      | cons hd hrest =>
          obtain ⟨hinfos, hvalues⟩ := ih hrest (Nat.succ.inj hlength)
          exact ⟨.cons hname hinfos, .cons hd hvalues⟩

/-- A row of the statement, whose columns were described by the calls in `tr₁` and whose
values were read by those in `tr₂`, lines up with its `c` columns. -/
structure LinesUp (statement : OracleStatement) (c : UInt32) (tr₁ tr₂ : List TaskEvent)
    (row : OracleRow) : Prop where
  length : row.data.length = c.toNat
  offsets : ∀ p ∈ row.columnOffsets.offsets, p.2 < c.toNat
  lookupTable : ∀ tables, ∀ p ∈ row.columnOffsets.lookupTable tables, p.2 < c.toNat
  column : ∀ tables name, row.column tables name ≠ .trap
  columns : ∃ infos fetched values columns,
    tr₁ = ⟨.dpi (.stmtGetNumQueryColumns statement.handle), some c⟩ ::
      described statement.handle 0 infos ∧
    tr₂ = ⟨.dpi (.stmtFetch statement.handle), some fetched⟩ ::
      ⟨.dpi (.stmtGetNumQueryColumns statement.handle), some c⟩ ::
        valuesRead statement.handle 0 values ∧
    row.columns = .value columns ∧ columns.length = c.toNat ∧
    List.Forall₂ (fun info column => Named info column.name) infos columns ∧
    List.Forall₂ (fun value column => Decoded value column.data) values columns

theorem dataAt_of_lt {row : OracleRow} {offset : Nat} (h : offset < row.data.length) :
    ∃ data, row.data[offset]? = some data ∧ row.dataAt offset = .value data := by
  obtain ⟨data, hdata⟩ : ∃ data, row.data[offset]? = some data :=
    ⟨_, List.getElem?_eq_getElem h⟩
  refine ⟨data, hdata, ?_⟩
  rw [OracleRow.dataAt, hdata]

/-- A name is looked up by its upper-casing among the names of the columns. -/
theorem column_eq {row : OracleRow} {tables : StringTables} {name : String}
    (h : ∀ p ∈ row.columnOffsets.offsets, p.2 < row.data.length) :
    row.column tables name = .value
      ((MergedTable.lookup tables.normalized row.columnOffsets.offsets
        (tables.uppercased name)).bind fun offset => row.data[offset]?) := by
  unfold OracleRow.column OracleColumnOffsets.lookupTable
  rw [MergedTable.lookup_ofPairs_first]
  cases hlookup : MergedTable.lookup tables.normalized row.columnOffsets.offsets
      (tables.uppercased name) with
  | none => rfl
  | some offset =>
      obtain ⟨p, hp, rfl⟩ := Option.map_eq_some_iff.mp hlookup
      obtain ⟨data, hdata, hat⟩ := dataAt_of_lt (h p (List.mem_of_find?_eq_some hp))
      change (do
        let data ← row.dataAt p.2
        return some data) = _
      rw [hat, Option.bind_some, hdata]
      rfl

theorem named_of_runs {statement : OracleStatement} {offsets : OracleColumnOffsets}
    {row : OracleRow} {c : UInt32} {tr₁ tr₂ : List TaskEvent}
    (hcolumns : statement.columns.Runs tr₁ (.value offsets))
    (hrow : (statement.nextRow offsets).Runs tr₂ (.value (some row)))
    (hcount : ∀ e ∈ tr₁ ++ tr₂, ∀ n, counted? e = some n → n = c) :
    ∃ names : List String, row.columnOffsets = ⟨names.zipIdx⟩ ∧ names.length = row.data.length := by
  obtain ⟨count₁, infos, names, hinfos, rfl, hnamed, rfl⟩ := runs_columns_value hcolumns
  obtain ⟨fetched, count₂, values, _, hvalues, rfl, hdecoded, hoffsets⟩ := runs_nextRow_some hrow
  have hcount₁ : count₁ = c :=
    hcount ⟨.dpi (.stmtGetNumQueryColumns statement.handle), some count₁⟩ (by simp) count₁ rfl
  have hcount₂ : count₂ = c :=
    hcount ⟨.dpi (.stmtGetNumQueryColumns statement.handle), some count₂⟩ (by simp) count₂ rfl
  refine ⟨names, hoffsets, ?_⟩
  rw [← hnamed.length_eq, ← hdecoded.length_eq, hinfos, hvalues, hcount₁, hcount₂]

/-- If ODPI-C gives the same number of columns each time, a row that `nextRow` returns for
the offsets of `columns` lines up with them. -/
theorem row_lines_up {statement : OracleStatement} {offsets : OracleColumnOffsets}
    {row : OracleRow} {c : UInt32} {tr₁ tr₂ : List TaskEvent}
    (hcolumns : statement.columns.Runs tr₁ (.value offsets))
    (hrow : (statement.nextRow offsets).Runs tr₂ (.value (some row)))
    (hcount : ∀ e ∈ tr₁ ++ tr₂, ∀ n, counted? e = some n → n = c) :
    LinesUp statement c tr₁ tr₂ row := by
  obtain ⟨count₁, infos, names, hinfos, rfl, hnamed, rfl⟩ := runs_columns_value hcolumns
  obtain ⟨fetched, count₂, values, _, hvalues, rfl, hdecoded, hoffsets⟩ := runs_nextRow_some hrow
  obtain rfl : count₁ = c :=
    hcount ⟨.dpi (.stmtGetNumQueryColumns statement.handle), some count₁⟩ (by simp) count₁ rfl
  obtain rfl : count₂ = count₁ :=
    hcount ⟨.dpi (.stmtGetNumQueryColumns statement.handle), some count₂⟩ (by simp) count₂ rfl
  have hnames : names.length = count₂.toNat := hnamed.length_eq ▸ hinfos
  have hlength : row.data.length = count₂.toNat := hdecoded.length_eq ▸ hvalues
  have hbelow : ∀ p ∈ row.columnOffsets.offsets, p.2 < count₂.toNat := by
    intro p hp
    rw [hoffsets] at hp
    have hlt := List.snd_lt_of_mem_zipIdx hp
    rwa [Nat.add_zero, hnames] at hlt
  have htable : ∀ tables, ∀ p ∈ row.columnOffsets.lookupTable tables, p.2 < count₂.toNat :=
    fun tables p hp => hbelow p (MergedTable.mem_ofPairs_first hp)
  have hall : row.columns = .value (List.zipWith OracleColumn.mk names row.data) := by
    rw [OracleRow.columns, hoffsets]
    exact columnsOf_zipIdx rfl (hnames.trans hlength.symm)
  obtain ⟨hfst, hsnd⟩ := forall₂_columns hnamed hdecoded (hinfos.trans hvalues.symm)
  refine ⟨hlength, hbelow, htable, fun tables name => ?_, infos, fetched, values, _, rfl, rfl,
    hall, ?_, hfst, hsnd⟩
  · rw [column_eq fun p hp => hlength ▸ hbelow p hp]
    nofun
  · rw [List.length_zipWith, hnames, hlength, Nat.min_self]

/-- A column of integers. -/
def integerColumn (name : List UInt8) : QueryInfo := ⟨name, some .number, some .int64, 0⟩

/-- A column of texts. -/
def textColumn (name : List UInt8) : QueryInfo := ⟨name, some .varchar, some .bytes, 10⟩

/-- A value of such a column. -/
def integerRead (value : Int64) : QueryValue := ⟨.int64, some ⟨false, .asInt64 value⟩, []⟩

/-- A value of such a column, in the memory of the fetch. -/
def textRead (memory : List UInt8) (length : UInt32) : QueryValue :=
  ⟨.bytes, some ⟨false, .asBytes ⟨some 0, length⟩⟩, memory⟩

/-- The calls of `columns` that describe these columns. -/
def describeCalls (count : UInt32) (infos : List QueryInfo) : List TaskEvent :=
  ⟨.dpi (.stmtGetNumQueryColumns ⟨2⟩), some count⟩ :: described ⟨2⟩ 0 infos

/-- The calls of `nextRow` that find a row with these values. -/
def rowCalls (count : UInt32) (values : List (QueryValue × QueryInfo)) : List TaskEvent :=
  ⟨.dpi (.stmtFetch ⟨2⟩), some ⟨1, 0⟩⟩ ::
    ⟨.dpi (.stmtGetNumQueryColumns ⟨2⟩), some count⟩ :: valuesRead ⟨2⟩ 0 values

/-- The columns of a row of an integer and a text. -/
def twoColumns : List QueryInfo := [integerColumn [65, 0], textColumn [66, 0]]

def twoValues : List (QueryValue × QueryInfo) :=
  [(integerRead 7, integerColumn [65, 0]), (textRead [120, 0] 1, textColumn [66, 0])]

def twoRow : OracleRow := ⟨⟨[("A", 0), ("B", 1)]⟩, [.integer 7, .text "x"]⟩

theorem runs_describeTwo :
    (OracleStatement.columns ⟨⟨2⟩, []⟩).Runs (describeCalls 2 twoColumns)
      (.value twoRow.columnOffsets) :=
  runs_columns ⟨⟨2⟩, []⟩ rfl (by decide) (.cons (by decide) (.cons (by decide) .nil))

theorem runs_readTwo :
    (OracleStatement.nextRow ⟨⟨2⟩, []⟩ twoRow.columnOffsets).Runs (rowCalls 2 twoValues)
      (.value (some twoRow)) :=
  @runs_nextRow ⟨⟨2⟩, []⟩ twoRow.columnOffsets ⟨1, 0⟩ 2 twoValues twoRow.data (by decide) rfl
    (by decide) (.cons ⟨_, rfl, rfl⟩ (.cons ⟨_, rfl, by decide⟩ .nil))

theorem counted_two :
    ∀ e ∈ describeCalls 2 twoColumns ++ rowCalls 2 twoValues, ∀ n, counted? e = some n → n = 2 := by
  intro e he n hn
  have hcounted :
      (describeCalls 2 twoColumns ++ rowCalls 2 twoValues).filterMap counted? = [2, 2] := rfl
  have hmem : n ∈ [2, 2] := hcounted ▸ List.mem_filterMap.mpr ⟨e, he, hn⟩
  simpa using hmem

theorem row_lines_up_two :
    LinesUp ⟨⟨2⟩, []⟩ 2 (describeCalls 2 twoColumns) (rowCalls 2 twoValues) twoRow :=
  row_lines_up runs_describeTwo runs_readTwo counted_two

end OracleNIO.RowColumns
