import OracleNIO.OracleDataConvertible

/-!
The accessors and initialisers that read data of the database, and where they trap.
-/

namespace OracleNIO.ReadingValues

open Interaction SwiftRuntime BinaryFloat

/-- The value rounded towards zero is one of `Int`. -/
def HasInt {fmt : Format} (x : Number fmt) : Prop :=
  ∃ n : Int64, x.integerPart = some n.toInt

theorem intOfNumber_trap {ε : Type} {fmt : Format} {x : Number fmt} (h : ¬ HasInt x) :
    intOfNumber x = (.trap : Outcome ε Int64) := by
  unfold intOfNumber
  cases hpart : x.integerPart with
  | none => rfl
  | some n =>
      apply if_neg
      rintro ⟨hlow, hhigh⟩
      have hn : (Int64.ofInt n).toInt = n := Int64.toInt_ofInt_of_le hlow (by omega)
      exact h ⟨Int64.ofInt n, by rw [hpart, hn]⟩

theorem intOfNumber_bind_trap {ε β : Type} {fmt : Format} {x : Number fmt} (h : ¬ HasInt x)
    (f : Int64 → Outcome ε β) : intOfNumber x >>= f = .trap := by
  rw [intOfNumber_trap h]
  rfl

theorem intOfNumber_bind_returns {ε β : Type} {fmt : Format} {x : Number fmt} (h : HasInt x)
    (f : Int64 → β) : ∃ b, intOfNumber x >>= (fun n => .value (f n)) =
      (.value b : Outcome ε β) := by
  obtain ⟨n, hn⟩ := h
  exact ⟨f n, Outcome.bind_eq_value.mpr ⟨n, intOfNumber_eq_value.mpr hn, rfl⟩⟩

/-- The data is a number without a value of `Int`. -/
def NoInt : OracleData → Prop
  | .float v => ¬ HasInt v.number
  | .double v => ¬ HasInt v.number
  | _ => False

theorem integer?_trap {d : OracleData} (h : NoInt d) : d.integer? = .trap := by
  cases d with
  | float v => exact intOfNumber_bind_trap h _
  | double v => exact intOfNumber_bind_trap h _
  | _ => exact h.elim

theorem integer?_returns {d : OracleData} (h : ¬ NoInt d) : ∃ n, d.integer? = .value n := by
  cases d with
  | float v => exact intOfNumber_bind_returns (Classical.not_not.mp h) some
  | double v => exact intOfNumber_bind_returns (Classical.not_not.mp h) some
  | raw bytes =>
      by_cases hlength : 8 ≤ bytes.length
      · exact ⟨_, if_pos hlength⟩
      · exact ⟨_, if_neg hlength⟩
  | _ => exact ⟨_, rfl⟩

theorem bool?_trap {d : OracleData} (h : NoInt d) : d.bool? = .trap := by
  rw [OracleData.bool?, integer?_trap h]
  rfl

theorem bool?_returns {d : OracleData} (h : ¬ NoInt d) : ∃ b, d.bool? = .value b := by
  obtain ⟨n, hn⟩ := integer?_returns h
  rw [OracleData.bool?, hn]
  by_cases hzero : n = some 0
  · exact ⟨_, if_pos hzero⟩
  · by_cases hone : n = some 1 ∨ n = some (-1)
    · exact ⟨_, (if_neg hzero).trans (if_pos hone)⟩
    · exact ⟨_, (if_neg hzero).trans (if_neg hone)⟩

theorem init?_trap {α : Type} [SwiftRuntime.FixedWidthInteger α] {v : Int64}
    (h : ¬ FixedWidthInteger.Fits α v.toInt) :
    (FixedWidthInteger.init? (.integer v) : Outcome OracleError (Option α)) = .trap := by
  rw [FixedWidthInteger.init?, numericCast_trap h]
  rfl

theorem init?_returns {α : Type} [SwiftRuntime.FixedWidthInteger α] {d : OracleData}
    (h : ∀ v, d = .integer v → FixedWidthInteger.Fits α v.toInt) :
    ∃ n : Option α, FixedWidthInteger.init? d = .value n := by
  cases d with
  | integer v =>
      rw [FixedWidthInteger.init?, numericCast_of_fits (h v rfl)]
      exact ⟨_, rfl⟩
  | _ => exact ⟨none, rfl⟩

/-- The accessors of `OracleData`. -/
inductive Accessor where
  | integer | float | double | string | bool | date | uuid
deriving DecidableEq, Repr

namespace Accessor

/-- What the accessor yields. -/
def Value : Accessor → Type
  | .integer => Int64
  | .float => Binary32
  | .double => Binary64
  | .string => String
  | .bool => Bool
  | .date => Date
  | .uuid => UUID

def read (texts : NumberTexts) : (a : Accessor) → OracleData →
    Outcome OracleError (Option a.Value)
  | .integer => OracleData.integer?
  | .float => OracleData.float? texts
  | .double => OracleData.double? texts
  | .string => OracleData.string? texts
  | .bool => OracleData.bool?
  | .date => OracleData.date?
  | .uuid => OracleData.uuid?

end Accessor

/-- The integer is one of the type, if it is a type of integers. -/
def TypeFits : ConvertibleType → Int → Prop
  | .int, x => FixedWidthInteger.Fits Int64 x
  | .int8, x => FixedWidthInteger.Fits Int8 x
  | .int16, x => FixedWidthInteger.Fits Int16 x
  | .int32, x => FixedWidthInteger.Fits Int32 x
  | .int64, x => FixedWidthInteger.Fits Int64 x
  | .uint, x => FixedWidthInteger.Fits UInt64 x
  | .uint8, x => FixedWidthInteger.Fits UInt8 x
  | .uint16, x => FixedWidthInteger.Fits UInt16 x
  | .uint32, x => FixedWidthInteger.Fits UInt32 x
  | .uint64, x => FixedWidthInteger.Fits UInt64 x
  | _, _ => True

/-- An accessor of `OracleData`, or `init?(oracleData:)` of a type. -/
inductive Reading where
  | accessor (a : Accessor)
  | initializer (t : ConvertibleType)
deriving DecidableEq, Repr

namespace Reading

/-- What is read. -/
def Value : Reading → Type
  | .accessor a => a.Value
  | .initializer t => t.Value

def read (texts : NumberTexts) : (r : Reading) → OracleData →
    Outcome OracleError (Option r.Value)
  | .accessor a => a.read texts
  | .initializer t => (Conformance.init? : OracleData → Outcome OracleError (Option t.Value))

/-- The stored number has no value of the type that is read. -/
def Unfit : Reading → OracleData → Prop
  | .accessor .integer, d => NoInt d
  | .accessor .bool, d => NoInt d
  | .initializer .bool, d => NoInt d
  | .initializer t, .integer v => ¬ TypeFits t v.toInt
  | _, _ => False

theorem typeFits_of_not_unfit {t : ConvertibleType} {d : OracleData} (ht : t ≠ .bool)
    (h : ¬ Unfit (.initializer t) d) (v : Int64) (hd : d = .integer v) : TypeFits t v.toInt := by
  subst hd
  cases t with
  | bool => exact absurd rfl ht
  | _ => exact Classical.not_not.mp h

theorem read_trap (texts : NumberTexts) {r : Reading} {d : OracleData} (h : r.Unfit d) :
    r.read texts d = .trap := by
  cases r with
  | accessor a =>
      cases a with
      | integer => exact integer?_trap h
      | bool => exact bool?_trap h
      | _ => exact h.elim
  | initializer t =>
      cases t with
      | bool => exact bool?_trap h
      | string | double | float | date | byteBuffer | data | uuid =>
          cases d with
          | integer v => exact absurd trivial h
          | _ => exact h.elim
      | _ =>
          cases d with
          | integer v => exact init?_trap h
          | _ => exact h.elim

theorem read_returns (texts : NumberTexts) {r : Reading} {d : OracleData} (h : ¬ r.Unfit d) :
    ∃ result, r.read texts d = .value result := by
  cases r with
  | accessor a =>
      cases a with
      | integer => exact integer?_returns h
      | bool => exact bool?_returns h
      | _ => cases d <;> exact ⟨_, rfl⟩
  | initializer t =>
      cases t with
      | bool => exact bool?_returns h
      | int => exact @init?_returns Int64 _ d (typeFits_of_not_unfit (by decide) h)
      | int8 => exact @init?_returns Int8 _ d (typeFits_of_not_unfit (by decide) h)
      | int16 => exact @init?_returns Int16 _ d (typeFits_of_not_unfit (by decide) h)
      | int32 => exact @init?_returns Int32 _ d (typeFits_of_not_unfit (by decide) h)
      | int64 => exact @init?_returns Int64 _ d (typeFits_of_not_unfit (by decide) h)
      | uint => exact @init?_returns UInt64 _ d (typeFits_of_not_unfit (by decide) h)
      | uint8 => exact @init?_returns UInt8 _ d (typeFits_of_not_unfit (by decide) h)
      | uint16 => exact @init?_returns UInt16 _ d (typeFits_of_not_unfit (by decide) h)
      | uint32 => exact @init?_returns UInt32 _ d (typeFits_of_not_unfit (by decide) h)
      | uint64 => exact @init?_returns UInt64 _ d (typeFits_of_not_unfit (by decide) h)
      | _ => cases d <;> exact ⟨_, rfl⟩

end Reading

/-- Reading returns, and it returns nil for a number without a value of the type. -/
structure ReadsSafely (texts : NumberTexts) (r : Reading) (d : OracleData) : Prop where
  returns : ∃ result, r.read texts d = .value result
  unfit : r.Unfit d → r.read texts d = .value none

theorem not_readsSafely_of_trap {texts : NumberTexts} {r : Reading} {d : OracleData}
    (h : r.read texts d = .trap) : ¬ ReadsSafely texts r d := by
  rintro ⟨⟨result, hresult⟩, _⟩
  cases h.symm.trans hresult

/-- Data is read safely exactly if it is no number without a value of the type. -/
theorem readsSafely_iff (texts : NumberTexts) (r : Reading) (d : OracleData) :
    ReadsSafely texts r d ↔ ¬ r.Unfit d := by
  constructor
  · intro h hunfit
    exact not_readsSafely_of_trap (Reading.read_trap texts hunfit) h
  · intro h
    exact ⟨Reading.read_returns texts h, fun hunfit => absurd hunfit h⟩

def noTexts : NumberTexts where
  float? _ := none
  double? _ := none
  ofFloat _ := ""
  ofDouble _ := ""

theorem not_hasInt_of_trap {fmt : Format} {x : Number fmt}
    (h : intOfNumber x = (.trap : Outcome OracleError Int64)) : ¬ HasInt x := by
  rintro ⟨n, hn⟩
  rw [intOfNumber_eq_value.mpr hn] at h
  cases h

/-- The integer 256 traps as a `UInt8`, a NaN as an integer, and an infinity as a truth
value. -/
theorem not_readsSafely :
    (Reading.read noTexts (.initializer .uint8) (.integer 256) = .trap ∧
      ¬ ReadsSafely noTexts (.initializer .uint8) (.integer 256)) ∧
    (Reading.read noTexts (.accessor .integer) (.double ⟨0x7FF8000000000000⟩) = .trap ∧
      ¬ ReadsSafely noTexts (.accessor .integer) (.double ⟨0x7FF8000000000000⟩)) ∧
    Reading.read noTexts (.initializer .bool) (.float ⟨0x7F800000⟩) = .trap ∧
      ¬ ReadsSafely noTexts (.initializer .bool) (.float ⟨0x7F800000⟩) := by
  have hfits : ¬ FixedWidthInteger.Fits UInt8 (256 : Int64).toInt := by decide
  have hbyte : Reading.read noTexts (.initializer .uint8) (.integer 256) = .trap :=
    Reading.read_trap noTexts hfits
  have hnan : Reading.read noTexts (.accessor .integer) (.double ⟨0x7FF8000000000000⟩) = .trap :=
    Reading.read_trap noTexts (not_hasInt_of_trap (by decide +kernel))
  have hinfinity : Reading.read noTexts (.initializer .bool) (.float ⟨0x7F800000⟩) = .trap :=
    Reading.read_trap noTexts (not_hasInt_of_trap (by decide +kernel))
  refine ⟨⟨hbyte, ?_⟩, ⟨hnan, ?_⟩, hinfinity, ?_⟩
  · exact not_readsSafely_of_trap hbyte
  · exact not_readsSafely_of_trap hnan
  · exact not_readsSafely_of_trap hinfinity

end OracleNIO.ReadingValues
