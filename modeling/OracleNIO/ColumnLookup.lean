import OracleNIO.RowColumns

/-!
The columns of a row and what `column(_:)` finds under their names.
-/

namespace OracleNIO.ColumnLookup

open Interaction Prog MergedTable Dpi StatementCalls RowColumns
open StatementProtocol (counted?)

/-- The first column of that very name. -/
def firstNamed (tables : StringTables) (columns : List OracleColumn) (name : String) :
    Option OracleColumn :=
  columns.find? fun c => tables.normalized c.name = tables.normalized name

/-- The names are the same in upper case. -/
def MatchesIgnoringCase (tables : StringTables) (s t : String) : Prop :=
  tables.normalized (tables.uppercased s) = tables.normalized (tables.uppercased t)

instance (tables : StringTables) (s t : String) : Decidable (MatchesIgnoringCase tables s t) :=
  inferInstanceAs (Decidable (_ = _))

/-- The column that a name stands for: the first of that very name, or if there is none
the first of that name in another case. -/
def expected (tables : StringTables) (columns : List OracleColumn) (name : String) :
    Option OracleColumn :=
  (firstNamed tables columns name).or
    (columns.find? fun c => MatchesIgnoringCase tables c.name name)

variable {tables : StringTables} {columns : List OracleColumn} {name : String}

theorem firstNamed_of_mem (tables : StringTables) {c : OracleColumn} (hc : c ∈ columns) :
    ∃ d, firstNamed tables columns c.name = some d := by
  cases hfind : firstNamed tables columns c.name with
  | some d => exact ⟨d, rfl⟩
  | none =>
      have hnot := List.find?_eq_none.mp hfind c hc
      simp at hnot

theorem expected_of_mem {c : OracleColumn} (hc : c ∈ columns) :
    expected tables columns c.name = firstNamed tables columns c.name := by
  obtain ⟨d, hd⟩ := firstNamed_of_mem tables hc
  rw [expected, hd]
  rfl

theorem firstNamed_congr {s t : String} (h : tables.normalized s = tables.normalized t) :
    firstNamed tables columns s = firstNamed tables columns t := by
  rw [firstNamed, firstNamed, h]

theorem lookup_zipIdx {row : OracleRow} {names : List String} {k : Nat}
    {data : List OracleData} (hdata : row.data.drop k = data)
    (hlength : names.length = data.length) (name : String) :
    ((lookup tables.normalized (names.zipIdx k) name).bind fun offset => row.data[offset]?) =
      (firstNamed tables (List.zipWith OracleColumn.mk names data) name).map
        OracleColumn.data := by
  induction names generalizing k data with
  | nil => rfl
  | cons s names ih =>
      obtain ⟨d, rest, rfl⟩ := List.exists_cons_of_length_eq_add_one hlength.symm
      have hget : row.data[k]? = some d := by
        rw [← List.head?_drop, hdata, List.head?_cons]
      have hrest : row.data.drop (k + 1) = rest := by
        rw [← List.tail_drop, hdata, List.tail_cons]
      rw [List.zipIdx_cons, lookup_cons, List.zipWith_cons_cons, firstNamed, List.find?_cons]
      by_cases hs : tables.normalized s = tables.normalized name
      · simp [hs, hget]
      · simp only [hs, if_false, decide_false]
        exact ih hrest (Nat.succ.inj hlength)

/-- `column(_:)` finds the first column that is named by the upper-casing. -/
theorem column_eq_firstNamed (tables : StringTables) {row : OracleRow} {names : List String}
    (hoffsets : row.columnOffsets = ⟨names.zipIdx⟩) (hlength : names.length = row.data.length)
    (name : String) :
    row.column tables name = .value
      ((firstNamed tables (List.zipWith OracleColumn.mk names row.data)
        (tables.uppercased name)).map OracleColumn.data) := by
  rw [column_eq, hoffsets]
  · exact congrArg Outcome.value (lookup_zipIdx rfl hlength _)
  · intro p hp
    rw [hoffsets] at hp
    have hlt := List.snd_lt_of_mem_zipIdx hp
    omega

/-- The lookup law for one column. -/
def FoundByName (tables : StringTables) (row : OracleRow) (columns : List OracleColumn)
    (c : OracleColumn) : Prop :=
  ∃ d, expected tables columns c.name = some d ∧ row.column tables c.name = .value (some d.data)

/-- In a row of a query a column is found by its own name exactly if the name is its own
upper-casing, or the first column named by the upper-casing happens to hold the same data
as the one meant.  A name that no column has in any case finds nothing. -/
theorem column_found_iff {statement : OracleStatement} {offsets : OracleColumnOffsets}
    {row : OracleRow} {count : UInt32} {tr₁ tr₂ : List TaskEvent} (tables : StringTables)
    (hcolumns : statement.columns.Runs tr₁ (.value offsets))
    (hrow : (statement.nextRow offsets).Runs tr₂ (.value (some row)))
    (hcount : ∀ e ∈ tr₁ ++ tr₂, ∀ n, counted? e = some n → n = count) :
    ∃ columns, row.columns = .value columns ∧
      (∀ c ∈ columns, FoundByName tables row columns c ↔
        tables.normalized (tables.uppercased c.name) = tables.normalized c.name ∨
          ∃ d d', firstNamed tables columns (tables.uppercased c.name) = some d ∧
            firstNamed tables columns c.name = some d' ∧ d.data = d'.data) ∧
      ∀ name, (∀ c ∈ columns, ¬ MatchesIgnoringCase tables c.name name) →
        row.column tables name = .value none := by
  obtain ⟨names, hoffsets, hlength⟩ := named_of_runs hcolumns hrow hcount
  have hcolumn := column_eq_firstNamed tables hoffsets hlength
  have hall : row.columns = .value (List.zipWith OracleColumn.mk names row.data) := by
    rw [OracleRow.columns, hoffsets]
    exact columnsOf_zipIdx rfl hlength
  refine ⟨_, hall, ?_, ?_⟩
  · intro c hc
    obtain ⟨d', hd'⟩ := firstNamed_of_mem tables hc
    rw [FoundByName, expected_of_mem hc, hcolumn, hd']
    constructor
    · rintro ⟨_, ⟨⟩, hvalue⟩
      obtain ⟨d, hd, hdata⟩ := Option.map_eq_some_iff.mp (Outcome.value.inj hvalue)
      exact .inr ⟨d, d', hd, rfl, hdata⟩
    · rintro (hsame | ⟨d, _, hd, ⟨⟩, hdata⟩)
      · rw [firstNamed_congr hsame, hd']
        exact ⟨d', rfl, rfl⟩
      · rw [hd, Option.map_some, hdata]
        exact ⟨d', rfl, rfl⟩
  · intro name hname
    rw [hcolumn]
    cases hfind : firstNamed tables (List.zipWith OracleColumn.mk names row.data)
        (tables.uppercased name) with
    | none => rfl
    | some d =>
        have hd : tables.normalized d.name = tables.normalized (tables.uppercased name) := by
          simpa using List.find?_some hfind
        exact absurd (tables.uppercased_of_normalized _ _ hd)
          (hname d (List.mem_of_find?_eq_some hfind))

theorem column_found_two :
    ∃ columns, twoRow.columns = .value columns ∧
      (∀ c ∈ columns, FoundByName asciiTables twoRow columns c ↔
        asciiTables.normalized (asciiTables.uppercased c.name) =
            asciiTables.normalized c.name ∨
          ∃ d d', firstNamed asciiTables columns (asciiTables.uppercased c.name) = some d ∧
            firstNamed asciiTables columns c.name = some d' ∧ d.data = d'.data) ∧
      ∀ name, (∀ c ∈ columns, ¬ MatchesIgnoringCase asciiTables c.name name) →
        twoRow.column asciiTables name = .value none :=
  column_found_iff asciiTables runs_describeTwo runs_readTwo counted_two

/-- A column that is named in lower case is not found by its name. -/
theorem column_not_found_lower :
    (OracleStatement.columns ⟨⟨2⟩, []⟩).Runs (describeCalls 1 [integerColumn [97, 0]])
        (.value ⟨[("a", 0)]⟩) ∧
      (OracleStatement.nextRow ⟨⟨2⟩, []⟩ ⟨[("a", 0)]⟩).Runs
        (rowCalls 1 [(integerRead 7, integerColumn [97, 0])])
        (.value (some ⟨⟨[("a", 0)]⟩, [.integer 7]⟩)) ∧
      OracleRow.columns ⟨⟨[("a", 0)]⟩, [.integer 7]⟩ = .value [⟨"a", .integer 7⟩] ∧
      OracleRow.column asciiTables ⟨⟨[("a", 0)]⟩, [.integer 7]⟩ "a" = .value none ∧
      ¬ FoundByName asciiTables ⟨⟨[("a", 0)]⟩, [.integer 7]⟩ [⟨"a", .integer 7⟩]
        ⟨"a", .integer 7⟩ := by
  have hnone : OracleRow.column asciiTables ⟨⟨[("a", 0)]⟩, [.integer 7]⟩ "a" = .value none := by
    decide
  refine ⟨?_, ?_, rfl, hnone, ?_⟩
  · exact runs_columns ⟨⟨2⟩, []⟩ rfl (by decide) (.cons (by decide) .nil)
  · exact @runs_nextRow ⟨⟨2⟩, []⟩ ⟨[("a", 0)]⟩ ⟨1, 0⟩ 1
      [(integerRead 7, integerColumn [97, 0])] [.integer 7] (by decide) rfl (by decide)
      (.cons ⟨_, rfl, rfl⟩ .nil)
  · rintro ⟨d, _, hvalue⟩
    cases hnone.symm.trans hvalue

end OracleNIO.ColumnLookup
