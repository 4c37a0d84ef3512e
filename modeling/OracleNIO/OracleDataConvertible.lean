import OracleNIO.OracleDataAccessors

/-!
The types that convert to `OracleData` and back.
-/

namespace OracleNIO

open Interaction SwiftRuntime

namespace SwiftRuntime

/-- What `numericCast` uses of an integer type. -/
class FixedWidthInteger (α : Type) where
  min : Int
  max : Int
  toInt : α → Int
  ofInt : Int → α
  toInt_range : ∀ v, min ≤ toInt v ∧ toInt v ≤ max
  toInt_ofInt : ∀ x, min ≤ x ∧ x ≤ max → toInt (ofInt x) = x
  ofInt_toInt : ∀ v, ofInt (toInt v) = v

namespace FixedWidthInteger

/-- The integer is one of the type. -/
def Fits (α : Type) [FixedWidthInteger α] (x : Int) : Prop :=
  min α ≤ x ∧ x ≤ max α

instance (α : Type) [FixedWidthInteger α] (x : Int) : Decidable (Fits α x) :=
  inferInstanceAs (Decidable (_ ∧ _))

instance : FixedWidthInteger Int8 where
  min := -128
  max := 127
  toInt := Int8.toInt
  ofInt := Int8.ofInt
  toInt_range v := ⟨v.le_toInt, by have := v.toInt_lt; omega⟩
  toInt_ofInt x h := Int8.toInt_ofInt_of_le h.1 (by omega)
  ofInt_toInt v := Int8.ofInt_toInt v

instance : FixedWidthInteger Int16 where
  min := -32768
  max := 32767
  toInt := Int16.toInt
  ofInt := Int16.ofInt
  toInt_range v := ⟨v.le_toInt, by have := v.toInt_lt; omega⟩
  toInt_ofInt x h := Int16.toInt_ofInt_of_le h.1 (by omega)
  ofInt_toInt v := Int16.ofInt_toInt v

instance : FixedWidthInteger Int32 where
  min := -2147483648
  max := 2147483647
  toInt := Int32.toInt
  ofInt := Int32.ofInt
  toInt_range v := ⟨v.le_toInt, by have := v.toInt_lt; omega⟩
  toInt_ofInt x h := Int32.toInt_ofInt_of_le h.1 (by omega)
  ofInt_toInt v := Int32.ofInt_toInt v

instance : FixedWidthInteger Int64 where
  min := -9223372036854775808
  max := 9223372036854775807
  toInt := Int64.toInt
  ofInt := Int64.ofInt
  toInt_range v := ⟨v.le_toInt, by have := v.toInt_lt; omega⟩
  toInt_ofInt x h := Int64.toInt_ofInt_of_le h.1 (by omega)
  ofInt_toInt v := Int64.ofInt_toInt v

instance : FixedWidthInteger UInt8 where
  min := 0
  max := 255
  toInt v := v.toNat
  ofInt x := UInt8.ofNat x.toNat
  toInt_range v := by have := v.toNat_lt; omega
  toInt_ofInt x h := by rw [UInt8.toNat_ofNat']; omega
  ofInt_toInt v := UInt8.ofNat_toNat

instance : FixedWidthInteger UInt16 where
  min := 0
  max := 65535
  toInt v := v.toNat
  ofInt x := UInt16.ofNat x.toNat
  toInt_range v := by have := v.toNat_lt; omega
  toInt_ofInt x h := by rw [UInt16.toNat_ofNat']; omega
  ofInt_toInt v := UInt16.ofNat_toNat

instance : FixedWidthInteger UInt32 where
  min := 0
  max := 4294967295
  toInt v := v.toNat
  ofInt x := UInt32.ofNat x.toNat
  toInt_range v := by have := v.toNat_lt; omega
  toInt_ofInt x h := by rw [UInt32.toNat_ofNat']; omega
  ofInt_toInt v := UInt32.ofNat_toNat

instance : FixedWidthInteger UInt64 where
  min := 0
  max := 18446744073709551615
  toInt v := v.toNat
  ofInt x := UInt64.ofNat x.toNat
  toInt_range v := by have := v.toNat_lt; omega
  toInt_ofInt x h := by rw [UInt64.toNat_ofNat']; omega
  ofInt_toInt v := UInt64.ofNat_toNat

end FixedWidthInteger

open FixedWidthInteger

variable {ε α β : Type} [FixedWidthInteger α] [FixedWidthInteger β]

def numericCast (x : α) : Outcome ε β :=
  if Fits β (toInt x) then .value (ofInt (toInt x)) else .trap

theorem numericCast_of_fits {x : α} (h : Fits β (toInt x)) :
    numericCast x = (.value (ofInt (toInt x)) : Outcome ε β) :=
  if_pos h

theorem numericCast_trap {x : α} (h : ¬ Fits β (toInt x)) :
    numericCast x = (.trap : Outcome ε β) :=
  if_neg h

end SwiftRuntime

/-- A conformance to `OracleDataConvertible`, whose members may trap. -/
class Conformance (α : Type) where
  init? : OracleData → Outcome OracleError (Option α)
  oracleData : α → Outcome OracleError (Option OracleData)

instance : Conformance String where
  init?
    | .text value => .value (some value)
    | _ => .value none
  oracleData v := .value (some (.text v))

namespace FixedWidthInteger

variable {α : Type} [SwiftRuntime.FixedWidthInteger α]

/-- `init(oracleData:)` of the integer types. -/
def init? : OracleData → Outcome OracleError (Option α)
  | .integer value => do return some (← numericCast value)
  | _ => .value none

/-- `oracleData` of the integer types. -/
def oracleData (v : α) : Outcome OracleError (Option OracleData) := do
  return some (.integer (← numericCast v))

end FixedWidthInteger

instance : Conformance Int8 := ⟨FixedWidthInteger.init?, FixedWidthInteger.oracleData⟩

instance : Conformance Int16 := ⟨FixedWidthInteger.init?, FixedWidthInteger.oracleData⟩

instance : Conformance Int32 := ⟨FixedWidthInteger.init?, FixedWidthInteger.oracleData⟩

/-- `Int` and `Int64`. -/
instance : Conformance Int64 := ⟨FixedWidthInteger.init?, FixedWidthInteger.oracleData⟩

instance : Conformance UInt8 := ⟨FixedWidthInteger.init?, FixedWidthInteger.oracleData⟩

instance : Conformance UInt16 := ⟨FixedWidthInteger.init?, FixedWidthInteger.oracleData⟩

instance : Conformance UInt32 := ⟨FixedWidthInteger.init?, FixedWidthInteger.oracleData⟩

/-- `UInt` and `UInt64`. -/
instance : Conformance UInt64 := ⟨FixedWidthInteger.init?, FixedWidthInteger.oracleData⟩

instance : Conformance Binary64 where
  init?
    | .double value => .value (some value)
    | _ => .value none
  oracleData v := .value (some (.double v))

instance : Conformance Binary32 where
  init?
    | .float value => .value (some value)
    | _ => .value none
  oracleData v := .value (some (.float v))

instance : Conformance Date where
  init?
    | .timestamp value => .value (some value)
    | _ => .value none
  oracleData v := .value (some (.timestamp v))

/-- A buffer, by its readable bytes. -/
structure ByteBuffer where
  readable : List UInt8
deriving DecidableEq, Repr

instance : Conformance ByteBuffer where
  init?
    | .blob value => .value (some ⟨value⟩)
    | _ => .value none
  oracleData v := .value (some (.blob v.readable))

/-- `Data` of Foundation. -/
structure Data where
  bytes : List UInt8
deriving DecidableEq, Repr

instance : Conformance Data where
  init?
    | .blob value => .value ((readBytes? value value.length).map Data.mk)
    | _ => .value none
  oracleData v := .value (some (.blob v.bytes))

instance : Conformance Bool where
  init? := OracleData.bool?
  oracleData v := .value (some (.integer (if v then 1 else 0)))

instance : Conformance UUID where
  init? := OracleData.uuid?
  oracleData v := .value (some (.raw v.uuid))

/-- The types that the package declares to conform. -/
inductive ConvertibleType where
  | string | int | int8 | int16 | int32 | int64 | uint | uint8 | uint16 | uint32 | uint64
  | double | float | date | byteBuffer | data | bool | uuid
deriving DecidableEq, Repr

namespace ConvertibleType

/-- The values of the type. -/
def Value : ConvertibleType → Type
  | .string => String
  | .int | .int64 => Int64
  | .int8 => Int8
  | .int16 => Int16
  | .int32 => Int32
  | .uint | .uint64 => UInt64
  | .uint8 => UInt8
  | .uint16 => UInt16
  | .uint32 => UInt32
  | .double => Binary64
  | .float => Binary32
  | .date => Date
  | .byteBuffer => ByteBuffer
  | .data => Data
  | .bool => Bool
  | .uuid => UUID

instance : (t : ConvertibleType) → Conformance t.Value
  | .string => inferInstanceAs (Conformance String)
  | .int | .int64 => inferInstanceAs (Conformance Int64)
  | .int8 => inferInstanceAs (Conformance Int8)
  | .int16 => inferInstanceAs (Conformance Int16)
  | .int32 => inferInstanceAs (Conformance Int32)
  | .uint | .uint64 => inferInstanceAs (Conformance UInt64)
  | .uint8 => inferInstanceAs (Conformance UInt8)
  | .uint16 => inferInstanceAs (Conformance UInt16)
  | .uint32 => inferInstanceAs (Conformance UInt32)
  | .double => inferInstanceAs (Conformance Binary64)
  | .float => inferInstanceAs (Conformance Binary32)
  | .date => inferInstanceAs (Conformance Date)
  | .byteBuffer => inferInstanceAs (Conformance ByteBuffer)
  | .data => inferInstanceAs (Conformance Data)
  | .bool => inferInstanceAs (Conformance Bool)
  | .uuid => inferInstanceAs (Conformance UUID)

end ConvertibleType

end OracleNIO
