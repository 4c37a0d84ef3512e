import OracleNIO.OracleDataConvertible

/-!
Values that are converted to `OracleData` and back.
-/

namespace OracleNIO.ConversionRoundTrip

open Interaction SwiftRuntime

/-- Converted, the value is data which converts back to it. -/
def RoundTrips {α : Type} [Conformance α] (v : α) : Prop :=
  ∃ data, Conformance.oracleData v = .value (some data) ∧
    Conformance.init? data = .value (some v)

section Integer

open SwiftRuntime.FixedWidthInteger

variable {α : Type} [SwiftRuntime.FixedWidthInteger α]

theorem oracleData_of_fits {v : α} (h : Fits Int64 (toInt v)) :
    FixedWidthInteger.oracleData v = .value (some (.integer (ofInt (toInt v)))) := by
  rw [FixedWidthInteger.oracleData, numericCast_of_fits h]
  rfl

theorem oracleData_trap {v : α} (h : ¬ Fits Int64 (toInt v)) :
    FixedWidthInteger.oracleData v = .trap := by
  rw [FixedWidthInteger.oracleData, numericCast_trap h]
  rfl

theorem init?_integer {v : α} {carrier : Int64} (h : toInt carrier = toInt v) :
    FixedWidthInteger.init? (.integer carrier) = .value (some v) := by
  have hfits : Fits α (toInt carrier) := h ▸ toInt_range v
  rw [FixedWidthInteger.init?, numericCast_of_fits hfits, h, ofInt_toInt]
  rfl

theorem roundTrips_integer (v : α) :
    (∃ data, FixedWidthInteger.oracleData v = .value (some data) ∧
        FixedWidthInteger.init? data = .value (some v)) ↔ Fits Int64 (toInt v) := by
  constructor
  · rintro ⟨data, hdata, _⟩
    by_contra h
    rw [oracleData_trap h] at hdata
    cases hdata
  · intro h
    exact ⟨_, oracleData_of_fits h, init?_integer (toInt_ofInt _ h)⟩

theorem roundTrips_narrow (hmin : Fits Int64 (min α)) (hmax : Fits Int64 (max α)) (v : α) :
    ∃ data, FixedWidthInteger.oracleData v = .value (some data) ∧
      FixedWidthInteger.init? data = .value (some v) := by
  have hrange := toInt_range v
  exact (roundTrips_integer v).mpr ⟨hmin.1.trans hrange.1, hrange.2.trans hmax.2⟩

end Integer

theorem readBytes?_length (bytes : List UInt8) : readBytes? bytes bytes.length = some bytes := by
  rw [readBytes?, if_pos le_rfl, List.take_length]

theorem roundTrips_data (v : Data) : RoundTrips v := by
  refine ⟨.blob v.bytes, rfl, ?_⟩
  change Outcome.value ((readBytes? v.bytes v.bytes.length).map Data.mk) = _
  rw [readBytes?_length]
  rfl

theorem roundTrips_bool (v : Bool) : RoundTrips v := by
  cases v with
  | false => exact ⟨.integer 0, rfl, rfl⟩
  | true => exact ⟨.integer 1, rfl, rfl⟩

theorem roundTrips_uuid (v : UUID) : RoundTrips v := by
  refine ⟨.raw v.uuid, rfl, ?_⟩
  change Outcome.value (if h : v.uuid.length = 16 then some (UUID.mk v.uuid h) else none) = _
  rw [dif_pos v.length_uuid]

/-- The value is one of `Int`, if it is an integer. -/
def FitsInt : (t : ConvertibleType) → t.Value → Prop
  | .uint, v => UInt64.toNat v ≤ 9223372036854775807
  | .uint64, v => UInt64.toNat v ≤ 9223372036854775807
  | _, _ => True

theorem fits_int64_iff (v : UInt64) :
    SwiftRuntime.FixedWidthInteger.Fits Int64 (v.toNat : Int) ↔
      v.toNat ≤ 9223372036854775807 := by
  change -9223372036854775808 ≤ (v.toNat : Int) ∧ (v.toNat : Int) ≤ 9223372036854775807 ↔ _
  omega

/-- A value converts to data and back exactly if it is no integer above the greatest `Int`. -/
theorem converts_back_iff (t : ConvertibleType) (v : t.Value) : RoundTrips v ↔ FitsInt t v := by
  cases t with
  | string => exact iff_of_true ⟨_, rfl, rfl⟩ trivial
  | int => exact iff_of_true (@roundTrips_narrow Int64 _ (by decide) (by decide) v) trivial
  | int8 => exact iff_of_true (@roundTrips_narrow Int8 _ (by decide) (by decide) v) trivial
  | int16 => exact iff_of_true (@roundTrips_narrow Int16 _ (by decide) (by decide) v) trivial
  | int32 => exact iff_of_true (@roundTrips_narrow Int32 _ (by decide) (by decide) v) trivial
  | int64 => exact iff_of_true (@roundTrips_narrow Int64 _ (by decide) (by decide) v) trivial
  | uint => exact (@roundTrips_integer UInt64 _ v).trans (fits_int64_iff v)
  | uint8 => exact iff_of_true (@roundTrips_narrow UInt8 _ (by decide) (by decide) v) trivial
  | uint16 => exact iff_of_true (@roundTrips_narrow UInt16 _ (by decide) (by decide) v) trivial
  | uint32 => exact iff_of_true (@roundTrips_narrow UInt32 _ (by decide) (by decide) v) trivial
  | uint64 => exact (@roundTrips_integer UInt64 _ v).trans (fits_int64_iff v)
  | double => exact iff_of_true ⟨_, rfl, rfl⟩ trivial
  | float => exact iff_of_true ⟨_, rfl, rfl⟩ trivial
  | date => exact iff_of_true ⟨_, rfl, rfl⟩ trivial
  | byteBuffer => exact iff_of_true ⟨_, rfl, rfl⟩ trivial
  | data => exact iff_of_true (roundTrips_data v) trivial
  | bool => exact iff_of_true (roundTrips_bool v) trivial
  | uuid => exact iff_of_true (roundTrips_uuid v) trivial

/-- Of `UInt` and `UInt64`, the least value above the greatest `Int` traps. -/
theorem not_roundTrips_uint64 :
    (FixedWidthInteger.oracleData (9223372036854775808 : UInt64) = .trap ∧
      ¬ @RoundTrips (ConvertibleType.Value .uint64) _ (9223372036854775808 : UInt64)) ∧
    ¬ @RoundTrips (ConvertibleType.Value .uint) _ (9223372036854775808 : UInt64) := by
  have htrap : FixedWidthInteger.oracleData (9223372036854775808 : UInt64) = .trap :=
    oracleData_trap (by decide)
  refine ⟨⟨htrap, ?_⟩, ?_⟩
  · rintro ⟨data, hdata, _⟩
    cases htrap.symm.trans hdata
  · rintro ⟨data, hdata, _⟩
    cases htrap.symm.trans hdata

end OracleNIO.ConversionRoundTrip
