import OracleNIO.OracleStatement

/-!
The time zone offset of a fetched timestamp, which is converted to seconds in `Int8`.
-/

namespace OracleNIO.TimestampOffsets

open Interaction SwiftRuntime Dpi OracleStatement

/-- The offset is one of the database: hour and minute are of one sign. -/
def IsOffset (timestamp : DpiTimestamp) : Prop :=
  (-15 ≤ timestamp.tzHourOffset.toInt ∧ timestamp.tzHourOffset.toInt ≤ 15) ∧
    (-59 ≤ timestamp.tzMinuteOffset.toInt ∧ timestamp.tzMinuteOffset.toInt ≤ 59) ∧
      0 ≤ timestamp.tzHourOffset.toInt * timestamp.tzMinuteOffset.toInt

instance (timestamp : DpiTimestamp) : Decidable (IsOffset timestamp) :=
  inferInstanceAs (Decidable (_ ∧ _))

/-- The offset of the timestamp in minutes. -/
def offsetMinutes (timestamp : DpiTimestamp) : Int :=
  60 * timestamp.tzHourOffset.toInt + timestamp.tzMinuteOffset.toInt

/-- The civil time read as UTC, less the offset. -/
def instant (timestamp : DpiTimestamp) : Date :=
  ⟨(civilTime timestamp).toNanoseconds -
    offsetMinutes timestamp * (60 * nanosecondsPerSecond)⟩

/-- None of the products and sums leaves `Int8`. -/
def Fits (timestamp : DpiTimestamp) : Prop :=
  (-128 ≤ timestamp.tzHourOffset.toInt * 60 ∧ timestamp.tzHourOffset.toInt * 60 ≤ 127) ∧
    (-128 ≤ offsetMinutes timestamp ∧ offsetMinutes timestamp ≤ 127) ∧
      (-128 ≤ offsetMinutes timestamp * 60 ∧ offsetMinutes timestamp * 60 ≤ 127)

theorem int8_eq_value {ε : Type} {x : Int} {y : Int8} :
    (int8 x : Outcome ε Int8) = .value y ↔ (-128 ≤ x ∧ x ≤ 127) ∧ y.toInt = x := by
  by_cases hx : -128 ≤ x ∧ x ≤ 127
  · obtain ⟨z, hz, hvalue⟩ := int8_of_range ε x hx
    rw [hz]
    constructor
    · rintro ⟨⟩
      exact ⟨hx, hvalue⟩
    · rintro ⟨_, hy⟩
      rw [Int8.toInt_inj.mp (hvalue.trans hy.symm)]
  · rw [int8_trap hx]
    constructor
    · intro h
      cases h
    · rintro ⟨h, _⟩
      exact absurd h hx

theorem decodeTimestamp_eq_value {timestamp : DpiTimestamp} {date : Date} :
    decodeTimestamp timestamp = .value date ↔ Fits timestamp ∧ date = instant timestamp := by
  simp only [decodeTimestamp, Outcome.bind_eq_value, int8_eq_value]
  constructor
  · rintro ⟨hours, ⟨hfit₁, hhours⟩, minutes, ⟨hfit₂, hminutes⟩, seconds, ⟨hfit₃, hseconds⟩, hdate⟩
    have htotal : minutes.toInt = offsetMinutes timestamp := by
      rw [hminutes, hhours, offsetMinutes, Int.mul_comm]
    rw [← hminutes, htotal] at hfit₂
    rw [htotal] at hfit₃ hseconds
    refine ⟨⟨hfit₁, hfit₂, hfit₃⟩, ?_⟩
    cases hdate
    rw [dateOfCivil, instant, hseconds, Int.mul_assoc]
  · rintro ⟨⟨hfit₁, hfit₂, hfit₃⟩, rfl⟩
    obtain ⟨hours, _, hhours⟩ := int8_of_range Unit _ hfit₁
    obtain ⟨minutes, _, hminutes⟩ := int8_of_range Unit _ hfit₂
    obtain ⟨seconds, _, hseconds⟩ := int8_of_range Unit _ hfit₃
    have hsum : hours.toInt + timestamp.tzMinuteOffset.toInt = offsetMinutes timestamp := by
      rw [hhours, offsetMinutes, Int.mul_comm]
    refine ⟨hours, ⟨hfit₁, hhours⟩, minutes, ⟨?_, ?_⟩, seconds, ⟨?_, ?_⟩, ?_⟩
    · rwa [hsum]
    · rw [hminutes, hsum]
    · rwa [hminutes]
    · rw [hseconds, hminutes]
    · change Outcome.value (dateOfCivil seconds.toInt _) = _
      rw [dateOfCivil, instant, hseconds, Int.mul_assoc]

theorem decodeTimestamp_trap {timestamp : DpiTimestamp} (h : ¬ Fits timestamp) :
    decodeTimestamp timestamp = .trap := by
  unfold decodeTimestamp
  by_cases hfit₁ : -128 ≤ timestamp.tzHourOffset.toInt * 60 ∧
      timestamp.tzHourOffset.toInt * 60 ≤ 127
  · obtain ⟨hours, heq₁, hhours⟩ := int8_of_range OracleError _ hfit₁
    have hsum : hours.toInt + timestamp.tzMinuteOffset.toInt = offsetMinutes timestamp := by
      rw [hhours, offsetMinutes, Int.mul_comm]
    rw [heq₁]
    change (do
      let minutes ← int8 (hours.toInt + timestamp.tzMinuteOffset.toInt)
      let tzOffset ← int8 (minutes.toInt * 60)
      return dateOfCivil tzOffset.toInt (civilTime timestamp)) = _
    rw [hsum]
    by_cases hfit₂ : -128 ≤ offsetMinutes timestamp ∧ offsetMinutes timestamp ≤ 127
    · obtain ⟨minutes, heq₂, hminutes⟩ := int8_of_range OracleError _ hfit₂
      rw [heq₂]
      change (do
        let tzOffset ← int8 (minutes.toInt * 60)
        return dateOfCivil tzOffset.toInt (civilTime timestamp)) = _
      rw [hminutes, int8_trap fun hfit₃ => h ⟨hfit₁, hfit₂, hfit₃⟩]
      rfl
    · rw [int8_trap hfit₂]
      rfl
  · rw [int8_trap hfit₁]
    rfl

theorem fits_iff {timestamp : DpiTimestamp} (h : IsOffset timestamp) :
    Fits timestamp ↔ timestamp.tzHourOffset.toInt = 0 ∧
      -2 ≤ timestamp.tzMinuteOffset.toInt ∧ timestamp.tzMinuteOffset.toInt ≤ 2 := by
  obtain ⟨_, _, hsign⟩ := h
  unfold Fits offsetMinutes
  constructor
  · rintro ⟨hfit₁, _, hfit₃⟩
    have hminutes : -2 ≤ 60 * timestamp.tzHourOffset.toInt + timestamp.tzMinuteOffset.toInt ∧
        60 * timestamp.tzHourOffset.toInt + timestamp.tzMinuteOffset.toInt ≤ 2 := by omega
    have hzero : timestamp.tzHourOffset.toInt = 0 := by
      rcases Int.lt_trichotomy timestamp.tzHourOffset.toInt 0 with hneg | hzero | hpos
      · have : timestamp.tzMinuteOffset.toInt ≤ 0 := by nlinarith
        omega
      · exact hzero
      · have : 0 ≤ timestamp.tzMinuteOffset.toInt := by nlinarith
        omega
    omega
  · rintro ⟨hzero, hrange⟩
    omega

theorem columnData_timestamp (typeInfo : DataTypeInfo) (isNull : Bool)
    (timestamp : DpiTimestamp) (memory : List UInt8) :
    columnData .timestamp typeInfo ⟨isNull, .asTimestamp timestamp⟩ memory =
      (do
        let date ← decodeTimestamp timestamp
        return OracleData.timestamp date) := rfl

/-- A timestamp with an offset of the database is decoded, and as the instant it stands
for, exactly if it is within two minutes of UTC. -/
theorem columnData_instant_iff (timestamp : DpiTimestamp) (h : IsOffset timestamp)
    (typeInfo : DataTypeInfo) (isNull : Bool) (memory : List UInt8) :
    columnData .timestamp typeInfo ⟨isNull, .asTimestamp timestamp⟩ memory =
        .value (.timestamp (instant timestamp)) ↔
      timestamp.tzHourOffset.toInt = 0 ∧
        -2 ≤ timestamp.tzMinuteOffset.toInt ∧ timestamp.tzMinuteOffset.toInt ≤ 2 := by
  rw [columnData_timestamp, Outcome.bind_eq_value, ← fits_iff h]
  constructor
  · rintro ⟨date, hdate, _⟩
    exact (decodeTimestamp_eq_value.mp hdate).1
  · intro hfits
    exact ⟨instant timestamp, decodeTimestamp_eq_value.mpr ⟨hfits, rfl⟩, rfl⟩

theorem columnData_instant_two_minutes :
    columnData .timestamp ⟨some .timestampTZ, some .timestamp, 0⟩
        ⟨false, .asTimestamp ⟨1970, 1, 1, 0, 0, 0, 0, 0, 2⟩⟩ [] =
      .value (.timestamp (instant ⟨1970, 1, 1, 0, 0, 0, 0, 0, 2⟩)) :=
  (columnData_instant_iff ⟨1970, 1, 1, 0, 0, 0, 0, 0, 2⟩ (by decide) _ false []).mpr
    (by decide)

/-- An hour is outside `Int8` in seconds. -/
theorem columnData_one_hour :
    IsOffset ⟨1970, 1, 1, 0, 0, 0, 0, 1, 0⟩ ∧
      columnData .timestamp ⟨some .timestampTZ, some .timestamp, 0⟩
          ⟨false, .asTimestamp ⟨1970, 1, 1, 0, 0, 0, 0, 1, 0⟩⟩ [] = .trap := by
  refine ⟨by decide, ?_⟩
  rw [columnData_timestamp, decodeTimestamp_trap]
  · rfl
  · rw [fits_iff (by decide)]
    decide

end OracleNIO.TimestampOffsets
