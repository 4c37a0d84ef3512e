import OracleNIO.FetchedRows

/-!
NULL in fetched rows: the values that the package returns for them.
-/

namespace OracleNIO.NullColumns

open Interaction Prog SwiftRuntime Dpi FetchedRows OracleStatement

/-- No Oracle type has the native type that is decoded as NULL. -/
theorem nativeType_ne_null {info : QueryInfo} {var : DpiVar} (h : QueryVar info var) :
    var.nativeType ≠ .null := by
  intro hnull
  have hconverts := h.converts
  rw [hnull] at hconverts
  cases hconverts with
  | inl hdefault =>
      generalize var.type = type at hdefault
      cases type <;> cases hdefault
  | inr hvalid =>
      generalize var.type = type at hvalid
      cases type <;> cases hvalid

theorem dataType_eq_null {nativeType : NativeType} {typeInfo : DataTypeInfo}
    (h : dataType nativeType typeInfo = .value .null) : nativeType = .null := by
  unfold dataType at h
  split at h
  case h_4 => split at h <;> cases h
  case h_7 => rfl
  all_goals cases h

theorem columnData_ne_null {nativeType : NativeType} (h : nativeType ≠ .null)
    (typeInfo : DataTypeInfo) (data : DpiData) (memory : List UInt8) :
    columnData nativeType typeInfo data memory ≠ .value .null := by
  intro hvalue
  obtain ⟨type, htype, hvalue⟩ := Outcome.bind_eq_value.mp hvalue
  cases type with
  | integer =>
      obtain ⟨v, _, hv⟩ := Outcome.bind_eq_value.mp hvalue
      cases hv
  | float =>
      obtain ⟨v, _, hv⟩ := Outcome.bind_eq_value.mp hvalue
      cases hv
  | double =>
      obtain ⟨v, _, hv⟩ := Outcome.bind_eq_value.mp hvalue
      cases hv
  | text =>
      obtain ⟨ptr, _, htext⟩ := Outcome.bind_eq_value.mp hvalue
      cases ptr with
      | none => cases htext
      | some ptr =>
          obtain ⟨v, _, hv⟩ := Outcome.bind_eq_value.mp htext
          cases hv
  | timestamp =>
      obtain ⟨v, _, htimestamp⟩ := Outcome.bind_eq_value.mp hvalue
      obtain ⟨date, _, hdate⟩ := Outcome.bind_eq_value.mp htimestamp
      cases hdate
  | blob =>
      obtain ⟨v, _, hblob⟩ := Outcome.bind_eq_value.mp hvalue
      simp only at hblob
      split at hblob <;> cases hblob
  | raw => cases hvalue
  | null => exact h (dataType_eq_null htype)

/-- Over a whole fetch of an executed query: what is returned for a column is NULL
exactly if the database value is NULL, unless the value is NULL. -/
theorem null_iff_of_not_null {s s₁ s₂ : Session} {statement : OracleStatement}
    {columns : OracleColumnOffsets} {results : List (OracleRow × Session)}
    (hs : Prepared s.stmt) (hexecute : s.run statement.execute = (.value (), s₁))
    (hfetch : Fetched statement columns s₁ results s₂) {k i : Nat} {result : OracleRow}
    {reading : Session} {d : OracleData} (hk : results[k]? = some (result, reading))
    (hi : result.data[i]? = some d) :
    ∃ row, s.stmt.cursor[k]? = some row ∧ ((d = .null ↔ row i = none) ↔ row i ≠ none) := by
  obtain ⟨hfetching, _⟩ := fetching_execute hs hexecute
  obtain ⟨row, vars, hrow, hatRow, _, hvalues⟩ := atRow_of_fetched hfetch hfetching hk
  obtain ⟨info, var, data, _, _, _, hvar, _, _, hd⟩ :=
    column_of_columnValue hatRow (hvalues i d hi)
  rw [Nat.zero_add] at hrow
  have hne : d ≠ .null := by
    rintro rfl
    exact columnData_ne_null (nativeType_ne_null hvar) _ _ _ hd
  refine ⟨row, hrow, ?_⟩
  simp [hne]

/-- A query of one row with a column of numbers. -/
def numberQuery (value : Option OciValue) : Session :=
  newSession (.prepared .select [⟨[78], ⟨some .number, some .int64, 0⟩⟩] [fun _ => value])

/-- The row that is fetched holds the data. -/
def Returns (s : Session) (d : OracleData) (s₁ s₂ : Session) : Prop :=
  s.run (OracleStatement.execute ⟨⟨3⟩, []⟩) = (.value (), s₁) ∧
    Fetched ⟨⟨3⟩, []⟩ ⟨[("N", 0)]⟩ s₁ [(⟨⟨[("N", 0)]⟩, [d]⟩, s₂)] s₂

theorem returns_five :
    ∃ s₁ s₂, Returns (numberQuery (some (.number ⟨some 5, none⟩))) (.integer 5) s₁ s₂ := by
  refine ⟨_, _, rfl, .next (run_nextRow_value rfl (by decide) (.cons ?_ .nil)) (.nil _)⟩
  rw [columnValue_of_lt _ (by decide)]
  rfl

theorem returns_zero : ∃ s₁ s₂, Returns (numberQuery none) (.integer 0) s₁ s₂ := by
  refine ⟨_, _, rfl, .next (run_nextRow_value rfl (by decide) (.cons ?_ .nil)) (.nil _)⟩
  rw [columnValue_of_lt _ (by decide)]
  rfl

theorem null_iff_five :
    ∃ row, (numberQuery (some (.number ⟨some 5, none⟩))).stmt.cursor[0]? = some row ∧
      ((OracleData.integer 5 = .null ↔ row 0 = none) ↔ row 0 ≠ none) := by
  rcases returns_five with ⟨s₁, s₂, hexecute, hfetch⟩
  exact null_iff_of_not_null ⟨rfl, rfl, rfl⟩ hexecute hfetch (k := 0) rfl (i := 0) rfl

/-- A NULL in a `NUMBER(9)` column is returned as the integer 0. -/
theorem not_null_zero :
    ∃ (s s₁ s₂ : Session) (result : OracleRow) (row : Row) (d : OracleData),
      Prepared s.stmt ∧ s.run (OracleStatement.execute ⟨⟨3⟩, []⟩) = (.value (), s₁) ∧
        Fetched ⟨⟨3⟩, []⟩ ⟨[("N", 0)]⟩ s₁ [(result, s₂)] s₂ ∧ s.stmt.cursor[0]? = some row ∧
          result.data[0]? = some d ∧ row 0 = none ∧ d = .integer 0 ∧
            ¬ (d = .null ↔ row 0 = none) := by
  rcases returns_zero with ⟨s₁, s₂, hexecute, hfetch⟩
  exact ⟨numberQuery none, s₁, s₂, _, _, .integer 0, ⟨rfl, rfl, rfl⟩, hexecute, hfetch, rfl,
    rfl, rfl, rfl, by simp⟩

end OracleNIO.NullColumns
