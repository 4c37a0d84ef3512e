import OracleNIO.BinaryFloat
import OracleNIO.ByteMemory
import OracleNIO.OracleData

/-!
The accessors of `OracleData`.
-/

namespace OracleNIO

open Interaction SwiftRuntime BinaryFloat ByteMemory

namespace SwiftRuntime

variable {ε : Type}

def binary32 : Format := ⟨8, 23, by decide⟩

def binary64 : Format := ⟨11, 52, by decide⟩

def Binary32.number (x : Binary32) : Number binary32 :=
  .ofBits binary32 x.bits.toNat

def Binary64.number (x : Binary64) : Number binary64 :=
  .ofBits binary64 x.bits.toNat

/-- `Int`, which traps on what it cannot hold. -/
def int64 (x : Int) : Outcome ε Int64 :=
  if -9223372036854775808 ≤ x ∧ x ≤ 9223372036854775807 then .value (Int64.ofInt x) else .trap

/-- `Int(_:)` of a floating point number. -/
def intOfNumber {fmt : Format} (x : Number fmt) : Outcome ε Int64 :=
  match x.integerPart with
  | some n => int64 n
  | none => .trap

/-- The number with these digits after those of `n`. -/
def decimal (n : Nat) : List Char → Option Nat
  | [] => some n
  | c :: cs => if c.isDigit then decimal (n * 10 + (c.toNat - 48)) cs else none

/-- The number with these digits, of which there must be one. -/
def digits : List Char → Option Nat
  | [] => none
  | c :: cs => decimal 0 (c :: cs)

/-- `Int(exactly:)` -/
def int64? (x : Int) : Option Int64 :=
  if -9223372036854775808 ≤ x ∧ x ≤ 9223372036854775807 then some (Int64.ofInt x) else none

/-- `Int(_:)` of a string: decimal digits, with or without a sign. -/
def intOfString (s : String) : Option Int64 :=
  match s.toList with
  | '-' :: cs => (digits cs).bind fun n => int64? (-n)
  | '+' :: cs => (digits cs).bind fun n => int64? n
  | cs => (digits cs).bind fun n => int64? n

/-- `Float(_:)` of an integer. -/
def floatOfInt (v : Int64) : Binary32 :=
  ⟨(Float32.Model.ofInt64 v).toBits⟩

/-- `Double(_:)` of an integer. -/
def doubleOfInt (v : Int64) : Binary64 :=
  ⟨(Float.Model.ofInt64 v).toBits⟩

/-- `Float(_:)` of a double, rounded to the nearest; a NaN keeps what there is room for. -/
def floatOfDouble (v : Binary64) : Binary32 :=
  let x := v.number
  if x.IsNaN then ⟨UInt32.ofNat (Number.nanBits binary32 x.negative (x.fraction / 2 ^ 29))⟩
  else
    match (Float.Model.ofBits v.bits).unpack with
    | .finite sign mantissa exponent _ =>
        ⟨(Float32.Model.pack (.round .binary32 sign mantissa exponent)).toBits⟩
    | y => ⟨(Float32.Model.pack y).toBits⟩

/-- `Double(_:)` of a float. -/
def doubleOfFloat (v : Binary32) : Binary64 :=
  let x := v.number
  if x.IsNaN then ⟨UInt64.ofNat (Number.nanBits binary64 x.negative (x.fraction * 2 ^ 29))⟩
  else
    match (Float32.Model.ofBits v.bits).unpack with
    | .finite sign mantissa exponent _ =>
        ⟨(Float.Model.pack (.round .binary64 sign mantissa exponent)).toBits⟩
    | y => ⟨(Float.Model.pack y).toBits⟩

example : floatOfDouble ⟨0x3FB999999999999A⟩ = ⟨0x3DCCCCCD⟩ := by decide +kernel

/-- The integer with these bytes, the lowest one first. -/
def littleEndian : List UInt8 → Nat
  | [] => 0
  | byte :: bytes => byte.toNat + 256 * littleEndian bytes

/-- `readBytes(length:)` of a buffer. -/
def readBytes? (bytes : List UInt8) (length : Nat) : Option (List UInt8) :=
  if length ≤ bytes.length then some (bytes.take length) else none

/-- The texts of floating point numbers, as the standard library reads and writes them. -/
structure NumberTexts where
  float? : String → Option Binary32
  double? : String → Option Binary64
  ofFloat : Binary32 → String
  ofDouble : Binary64 → String

/-- `UUID` -/
structure UUID where
  uuid : List UInt8
  length_uuid : uuid.length = 16
deriving DecidableEq, Repr

def hexDigit (c : Char) : Option Nat :=
  if '0' ≤ c ∧ c ≤ '9' then some (c.toNat - 48)
  else if 'A' ≤ c ∧ c ≤ 'F' then some (c.toNat - 55)
  else if 'a' ≤ c ∧ c ≤ 'f' then some (c.toNat - 87)
  else none

/-- The bytes that are written by the digits. -/
def hexBytes : List Char → Option (List UInt8)
  | [] => some []
  | [_] => none
  | high :: low :: cs => do
      let high ← hexDigit high
      let low ← hexDigit low
      let bytes ← hexBytes cs
      return UInt8.ofNat (high * 16 + low) :: bytes

/-- `UUID(uuidString:)`: 32 hexadecimal digits in groups of 8, 4, 4, 4 and 12. -/
def uuidOfString (s : String) : Option UUID :=
  let cs := s.toList
  if cs.length = 36 ∧ ∀ i ∈ [8, 13, 18, 23], cs[i]? = some '-' then
    match hexBytes (cs.filter (· ≠ '-')) with
    | some bytes => if h : bytes.length = 16 then some ⟨bytes, h⟩ else none
    | none => none
  else none

theorem int64_eq_value {x : Int} {v : Int64} :
    int64 x = (.value v : Outcome ε Int64) ↔ x = v.toInt := by
  have hlow := v.le_toInt
  have hhigh := v.toInt_lt
  constructor
  · intro h
    unfold int64 at h
    split at h
    case isTrue hx =>
      cases h
      rw [Int64.toInt_ofInt_of_le hx.1 (by omega)]
    case isFalse => cases h
  · rintro rfl
    rw [int64, if_pos (by omega), Int64.ofInt_toInt]

theorem intOfNumber_eq_value {fmt : Format} {x : Number fmt} {v : Int64} :
    intOfNumber x = (.value v : Outcome ε Int64) ↔ x.integerPart = some v.toInt := by
  unfold intOfNumber
  cases x.integerPart with
  | none => simp
  | some n => rw [int64_eq_value, Option.some.injEq]

end SwiftRuntime

namespace OracleData

def integer? : OracleData → Outcome OracleError (Option Int64)
  | .integer v => .value (some v)
  | .float v => do return some (← intOfNumber v.number)
  | .double v => do return some (← intOfNumber v.number)
  | .text v => .value (intOfString v)
  | .raw bytes =>
      if 8 ≤ bytes.length then
        .value (some (UInt64.ofNat (littleEndian (bytes.take 8))).toInt64)
      else .value none
  | .timestamp _ | .blob _ | .null => .value none

def float? (texts : NumberTexts) : OracleData → Outcome OracleError (Option Binary32)
  | .integer v => .value (some (floatOfInt v))
  | .float v => .value (some v)
  | .double v => .value (some (floatOfDouble v))
  | .text v => .value (texts.float? v)
  | .raw bytes =>
      .value ((readBytes? bytes 4).map fun bytes => ⟨UInt32.ofNat (littleEndian bytes)⟩)
  | .timestamp _ | .blob _ | .null => .value none

def double? (texts : NumberTexts) : OracleData → Outcome OracleError (Option Binary64)
  | .integer v => .value (some (doubleOfInt v))
  | .float v => .value (some (doubleOfFloat v))
  | .double v => .value (some v)
  | .text v => .value (texts.double? v)
  | .raw bytes =>
      .value ((readBytes? bytes 8).map fun bytes => ⟨UInt64.ofNat (littleEndian bytes)⟩)
  | .timestamp _ | .blob _ | .null => .value none

def string? (texts : NumberTexts) : OracleData → Outcome OracleError (Option String)
  | .integer v => .value (some (toString v.toInt))
  | .float v => .value (some (texts.ofFloat v))
  | .double v => .value (some (texts.ofDouble v))
  | .text v => .value (some v)
  | .raw bytes =>
      .value ((readBytes? bytes bytes.length).map fun bytes => String.ofList (decode bytes))
  | .timestamp _ | .blob _ | .null => .value none

def bool? (data : OracleData) : Outcome OracleError (Option Bool) := do
  let integer ← data.integer?
  if integer = some 0 then return some false
  else if integer = some 1 ∨ integer = some (-1) then return some true
  else return none

def date? : OracleData → Outcome OracleError (Option Date)
  | .timestamp v => .value (some v)
  | _ => .value none

def uuid? : OracleData → Outcome OracleError (Option UUID)
  -- the guard keeps the sixteen indices in range
  | .raw bytes => .value (if h : bytes.length = 16 then some ⟨bytes, h⟩ else none)
  | .text v => .value (uuidOfString v)
  | _ => .value none

theorem integer?_double {v : Binary64} {n : Int64} :
    (OracleData.double v).integer? = .value (some n) ↔
      v.number.integerPart = some n.toInt := by
  rw [← @intOfNumber_eq_value OracleError]
  constructor
  · intro h
    obtain ⟨m, hm, hn⟩ := Outcome.bind_eq_value.mp h
    cases hn
    exact hm
  · intro h
    exact Outcome.bind_eq_value.mpr ⟨n, h, rfl⟩

example : OracleData.integer? (.text "-12") = .value (some (-12)) := by decide

example : uuid? (.text "00000000-0000-0000-0000-0000000000Ff") =
    .value (some ⟨List.replicate 15 0 ++ [255], by decide⟩) := by decide

end OracleData

end OracleNIO
