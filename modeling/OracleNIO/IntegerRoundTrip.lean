import OracleNIO.BoundValues
import OracleNIO.DpiOracleType
import OracleNIO.FetchedRows
import OracleNIO.OracleDataAccessors

/-!
Integers that are bound, stored as a `NUMBER` and selected again.
-/

namespace OracleNIO.IntegerRoundTrip

open Interaction Prog SwiftRuntime BinaryFloat Dpi OracleStatement BoundValues FetchedRows

/-- What OCI makes of an integer: a `NUMBER` that keeps it, which is converted back to the
integer, or to a double nearest to it. -/
structure Converts (env : DpiEnv) (v : Int64) (number : OciNumber) (double : Binary64) :
    Prop where
  stored : env.numberFromInt v = some number
  toInt : number.toInt = some v
  toReal : number.toReal = some double
  nearest : double.number.Nearest v.toInt

/-- A column with the stored value in its only row, in the process of `s`. -/
def selecting (s : Session) (typeInfo : DataTypeInfo) (stored : OciValue) : Session :=
  { s with
    stmt := .prepared .select [⟨[86], typeInfo⟩] [fun _ => some stored] }

/-- Binding the integer and executing the statement hands OCI a value, which is selected as
`data` from a `NUMBER` that is described by the precision and the scale. -/
def SelectedAs (rt : Runtime) (s : Session) (statement : OracleStatement)
    (columns : OracleColumnOffsets) (sameCharset : Bool) (precision : Int16) (scale : Int8)
    (v : Int64) (data : OracleData) : Prop :=
  ∃ typeInfo bound s₁ stored q₁ q₂,
    OracleType.populateTypeInfo s.env sameCharset (numberParameter precision scale) = typeInfo ∧
      s.run (statement.bind rt [.integer v]) = (.value bound, s₁) ∧
        s₁.stmt.boundValues s₁.env = some [some stored] ∧
          (selecting s typeInfo stored).run statement.execute = (.value (), q₁) ∧
            q₁.run (statement.nextRow columns) = (.value (some ⟨columns, [data]⟩), q₂)

/-- The integer is selected as data whose accessor evaluates to it. -/
def RoundTrips (rt : Runtime) (s : Session) (statement : OracleStatement)
    (columns : OracleColumnOffsets) (sameCharset : Bool) (precision : Int16) (scale : Int8)
    (v : Int64) : Prop :=
  ∃ data, SelectedAs rt s statement columns sameCharset precision scale v data ∧
    data.integer? = .value (some v)

section RoundTrip

variable {rt : Runtime} {s : Session} {statement : OracleStatement}
  {columns : OracleColumnOffsets} {sameCharset : Bool} {precision : Int16} {scale : Int8}
  {v : Int64} {number : OciNumber} {double : Binary64}

theorem run_bind_integer (rt : Runtime) (statement : OracleStatement)
    (hs : s.stmt.bindVars = []) (h : Converts s.env v number double) :
    ∃ s₁, s.run (statement.bind rt [.integer v]) = (.value statement, s₁) ∧
      s₁.stmt.boundValues s₁.env = some [some (.number number)] := by
  have hone : (1 : UInt32) ≠ 0 := by decide
  obtain ⟨var, hbind, hdata, hnative, _⟩ := bindValueByPos_data s.env s.stmt hone
    (.asInt64 v) [] (.inl rfl)
  have hvalue : s.run (statement.bindValue rt 1 (.integer v)) =
      (.value statement, bound s 1 var) :=
    run_bindValueByPos_some hbind
  have hset : var.setValue s.env 0 = some (some (.number number)) := by
    unfold DpiVar.setValue
    rw [hdata, hnative]
    change (s.env.numberFromInt v).bind _ = _
    rw [h.stored]
    rfl
  exact run_bind_one hs hvalue hset

theorem run_selecting_int64 (s : Session) (statement : OracleStatement)
    (columns : OracleColumnOffsets) (hnumber : number.toInt = some v) :
    ∃ q₁ q₂, (selecting s ⟨some .number, some .int64, 0⟩ (.number number)).run statement.execute =
        (.value (), q₁) ∧
      q₁.run (statement.nextRow columns) = (.value (some ⟨columns, [.integer v]⟩), q₂) := by
  rcases number with ⟨_, toReal⟩
  cases hnumber
  have hfound : (1 : Int32) ≠ 0 := by decide
  refine ⟨_, _, rfl, run_nextRow_value rfl hfound (.cons ?_ .nil)⟩
  rw [columnValue_of_lt _ (by decide)]
  rfl

theorem run_selecting_double (s : Session) (statement : OracleStatement)
    (columns : OracleColumnOffsets) (hnumber : number.toReal = some double) :
    ∃ q₁ q₂, (selecting s ⟨some .number, some .double, 0⟩ (.number number)).run statement.execute =
        (.value (), q₁) ∧
      q₁.run (statement.nextRow columns) = (.value (some ⟨columns, [.double double]⟩), q₂) := by
  rcases number with ⟨toInt, _⟩
  cases hnumber
  have hfound : (1 : Int32) ≠ 0 := by decide
  refine ⟨_, _, rfl, run_nextRow_value rfl hfound (.cons ?_ .nil)⟩
  rw [columnValue_of_lt _ (by decide)]
  rfl

/-- The description of the column alone decides as what the integer is selected. -/
theorem selectedAs_iff (hs : s.stmt.bindVars = []) (h : Converts s.env v number double)
    (data : OracleData) :
    SelectedAs rt s statement columns sameCharset precision scale v data ↔
      data = if IntegerColumn precision scale then .integer v else .double double := by
  obtain ⟨s₁, hbind, hstored⟩ := run_bind_integer rt statement hs h
  obtain ⟨q₁, q₂, hexecute, hnext⟩ : ∃ q₁ q₂,
      (selecting s
        ⟨some .number, some (if IntegerColumn precision scale then .int64 else .double), 0⟩
        (.number number)).run statement.execute = (.value (), q₁) ∧
      q₁.run (statement.nextRow columns) = (.value (some ⟨columns,
        [if IntegerColumn precision scale then .integer v else .double double]⟩), q₂) := by
    split
    · exact run_selecting_int64 s statement columns h.toInt
    · exact run_selecting_double s statement columns h.toReal
  constructor
  · rintro ⟨typeInfo, bound, s₁', stored, q₁', q₂', htype, hbind', hstored', hexecute',
      hnext'⟩
    rw [populateTypeInfo_number] at htype
    cases htype
    cases hbind.symm.trans hbind'
    cases hstored.symm.trans hstored'
    cases hexecute.symm.trans hexecute'
    have hrow := hnext.symm.trans hnext'
    simp only [Prod.mk.injEq, Outcome.value.injEq, Option.some.injEq, OracleRow.mk.injEq,
      List.cons.injEq, true_and, and_true] at hrow
    exact hrow.1.symm
  · rintro rfl
    exact ⟨_, statement, s₁, _, q₁, q₂,
      populateTypeInfo_number s.env sameCharset precision scale, hbind, hstored, hexecute, hnext⟩

theorem integer?_nearest (hnearest : double.number.Nearest v.toInt) :
    (OracleData.double double).integer? = .value (some v) ↔
      binary64.Representable v.toInt := by
  have hsmall : v.toInt.natAbs < 2 ^ 2 ^ (binary64.exponentBits - 1) := by
    have hlow := v.le_toInt
    have hhigh := v.toInt_lt
    calc v.toInt.natAbs < 2 ^ 64 := by omega
      _ ≤ 2 ^ 2 ^ (binary64.exponentBits - 1) :=
        Nat.pow_le_pow_right (by decide) (by decide)
  rw [OracleData.integer?_double]
  exact integerPart_eq_iff hnearest hsmall

/-- An integer is selected as data whose accessor gives it back exactly if the column is
fetched as an integer or the integer is a double. -/
theorem roundTrips_iff (hs : s.stmt.bindVars = []) (h : Converts s.env v number double) :
    RoundTrips rt s statement columns sameCharset precision scale v ↔
      (scale = 0 ∧ 0 < precision ∧ precision ≤ 18) ∨ binary64.Representable v.toInt := by
  have hcolumn : (scale = 0 ∧ 0 < precision ∧ precision ≤ 18) ↔
      IntegerColumn precision scale := Iff.rfl
  simp only [RoundTrips, selectedAs_iff hs h, exists_eq_left, hcolumn]
  by_cases hinteger : IntegerColumn precision scale
  · rw [if_pos hinteger]
    exact iff_of_true rfl (.inl hinteger)
  · rw [if_neg hinteger, integer?_nearest h.nearest, or_iff_right hinteger]

end RoundTrip

/-- A session whose client converts every `NUMBER` to the same double. -/
def converting (double : Binary64) : Session :=
  { newSession (.prepared .other [] []) with
    env := { (newSession (.prepared .other [] [])).env with
      numberFromInt := fun v => some ⟨some v, some double⟩ } }

theorem converts_converting {v : Int64} {double : Binary64}
    (h : double.number.Nearest v.toInt) :
    Converts (converting double).env v ⟨some v, some double⟩ double :=
  ⟨rfl, rfl, rfl, h⟩

theorem roundTrips_one :
    RoundTrips asciiRuntime (converting ⟨4607182418800017408⟩) ⟨⟨3⟩, []⟩ ⟨[("V", 0)]⟩ true 0
      (-127) 1 :=
  (roundTrips_iff rfl (converts_converting (nearest_of_units (by decide)
    (by decide +kernel)))).mpr (.inr ⟨1, 0, rfl, by decide⟩)

theorem not_roundTrips_converting {v : Int64} {double : Binary64} {precision : Int16}
    {scale : Int8} (h : double.number.Nearest v.toInt)
    (hcolumn : ¬ IntegerColumn precision scale)
    (hv : (OracleData.double double).integer? ≠ .value (some v)) :
    ¬ RoundTrips asciiRuntime (converting double) ⟨⟨3⟩, []⟩ ⟨[("V", 0)]⟩ true precision scale
      v := by
  rintro ⟨data, hselected, hdata⟩
  rw [selectedAs_iff rfl (converts_converting h), if_neg hcolumn] at hselected
  rw [hselected] at hdata
  exact hv hdata

/-- From a `NUMBER` without a precision `2 ^ 53 + 1` is selected as `2 ^ 53`, and from one
of 38 digits the greatest `Int` as a double that is none. -/
theorem not_roundTrips :
    (Converts (converting ⟨4845873199050653696⟩).env 9007199254740993
        ⟨some 9007199254740993, some ⟨4845873199050653696⟩⟩ ⟨4845873199050653696⟩ ∧
      (OracleData.double ⟨4845873199050653696⟩).integer? = .value (some 9007199254740992) ∧
      ¬ RoundTrips asciiRuntime (converting ⟨4845873199050653696⟩) ⟨⟨3⟩, []⟩ ⟨[("V", 0)]⟩ true 0
        (-127) 9007199254740993) ∧
    (Converts (converting ⟨4890909195324358656⟩).env 9223372036854775807
        ⟨some 9223372036854775807, some ⟨4890909195324358656⟩⟩ ⟨4890909195324358656⟩ ∧
      (OracleData.double ⟨4890909195324358656⟩).integer? = .trap ∧
      ¬ RoundTrips asciiRuntime (converting ⟨4890909195324358656⟩) ⟨⟨3⟩, []⟩ ⟨[("V", 0)]⟩ true 38
        0 9223372036854775807) := by
  have hnext : (Binary64.number ⟨4845873199050653696⟩).Nearest
      (9007199254740993 : Int64).toInt :=
    nearest_of_odd (by decide) (by decide) (by decide) (by decide +kernel)
  have hmax : (Binary64.number ⟨4890909195324358656⟩).Nearest
      (9223372036854775807 : Int64).toInt :=
    nearest_of_odd (by decide) (by decide) (by decide) (by decide +kernel)
  have hpart : (OracleData.double ⟨4845873199050653696⟩).integer? =
      .value (some 9007199254740992) := by decide +kernel
  have htrap : (OracleData.double ⟨4890909195324358656⟩).integer? = .trap := by
    decide +kernel
  refine ⟨⟨converts_converting hnext, hpart, not_roundTrips_converting hnext (by decide) ?_⟩,
    converts_converting hmax, htrap, not_roundTrips_converting hmax (by decide) ?_⟩
  · rw [hpart]
    decide
  · rw [htrap]
    decide

end OracleNIO.IntegerRoundTrip
