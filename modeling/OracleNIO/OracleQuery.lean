import OracleNIO.OracleData
import OracleNIO.MarkedText

/-!
The query builder.  A mutating call that may throw returns its result and the
value it leaves behind.
-/

namespace OracleNIO

/-- What a type must have for its values to be bound. -/
class OracleDataConvertible (Value : Type) where
  oracleData : Value → Option OracleData

export OracleDataConvertible (oracleData)

/-- A value of some type that conforms to `OracleDataConvertible`. -/
structure AnyConvertible where
  data : Option OracleData
deriving DecidableEq, Repr

instance : OracleDataConvertible AnyConvertible where
  oracleData := AnyConvertible.data

/-- The values to be bound, in order. -/
structure OracleBindings where
  values : List OracleData
deriving DecidableEq, Repr

namespace OracleBindings

def empty : OracleBindings := ⟨[]⟩

def count (binds : OracleBindings) : Nat :=
  binds.values.length

def appendNull (binds : OracleBindings) : OracleBindings :=
  ⟨binds.values ++ [.null]⟩

/-- A value that yields no data throws. -/
def append {Value : Type} [OracleDataConvertible Value] (binds : OracleBindings)
    (value : Value) : Except OracleError Unit × OracleBindings :=
  match oracleData value with
  | none =>
      (.error ⟨.error, "Provided value does not contain any associated oracle data"⟩, binds)
  | some data => (.ok (), ⟨binds.values ++ [data]⟩)

end OracleBindings

/-- The text and the values to be bound. -/
structure OracleQuery where
  sql : String
  binds : OracleBindings
deriving DecidableEq, Repr

/-- `OracleQuery.StringInterpolation` -/
structure StringInterpolation where
  sql : String
  binds : OracleBindings
deriving DecidableEq, Repr

namespace StringInterpolation

def init : StringInterpolation := ⟨"", .empty⟩

def appendLiteral (s : StringInterpolation) (literal : String) : StringInterpolation :=
  { s with sql := s.sql ++ literal }

/-- The placeholder for the value with the number. -/
def placeholder (position : Nat) : String :=
  ":" ++ toString position

section Values

variable {Value : Type} [OracleDataConvertible Value]

/-- `appendInterpolation(_:)` for a value. -/
def appendInterpolation (s : StringInterpolation) (value : Value) :
    Except OracleError Unit × StringInterpolation :=
  match s.binds.append value with
  | (.error e, binds) => (.error e, { s with binds })
  | (.ok (), binds) => (.ok (), { sql := s.sql ++ placeholder binds.count, binds })

/-- `appendInterpolation(_:)` for an optional value. -/
def appendOptionalInterpolation (s : StringInterpolation) (value : Option Value) :
    Except OracleError Unit × StringInterpolation :=
  match value with
  | none =>
      let binds := s.binds.appendNull
      (.ok (), { sql := s.sql ++ placeholder binds.count, binds })
  | some value =>
      match s.binds.append value with
      | (.error e, binds) => (.error e, { s with binds })
      | (.ok (), binds) => (.ok (), { sql := s.sql ++ placeholder binds.count, binds })

end Values

/-- `appendInterpolation(unescaped:)` -/
def appendUnescapedInterpolation (s : StringInterpolation) (interpolated : String) :
    StringInterpolation :=
  { s with sql := s.sql ++ interpolated }

end StringInterpolation

/-- `init(stringInterpolation:)` -/
def OracleQuery.ofInterpolation (s : StringInterpolation) : OracleQuery where
  sql := s.sql
  binds := s.binds

/-- The operations on the builder. -/
inductive Segment where
  | literal (text : String)
  | value (value : AnyConvertible)
  | optional (value : Option AnyConvertible)
  | unescaped (text : String)
deriving DecidableEq, Repr

namespace Segment

/-- What the operation returns, and the builder after it. -/
def apply (s : StringInterpolation) : Segment → Except OracleError Unit × StringInterpolation
  | .literal text => (.ok (), s.appendLiteral text)
  | .value v => s.appendInterpolation v
  | .optional v => s.appendOptionalInterpolation v
  | .unescaped text => (.ok (), s.appendUnescapedInterpolation text)

/-- The data of a value segment: `.null` for a nil optional, none where the value
yields none. -/
def data : Segment → Option OracleData
  | .value v | .optional (some v) => v.data
  | .optional none => some .null
  | _ => none

/-- What a segment stands for: its characters, or its value. -/
def contents : Segment → List (Char ⊕ OracleData)
  | .literal text | .unescaped text => text.toList.map .inl
  | segment => (segment.data.map .inr).toList

/-- The operation throws. -/
def Throws : Segment → Prop
  | .value v | .optional (some v) => v.data = none
  | _ => False

instance decidableThrows : (segment : Segment) → Decidable segment.Throws
  | .literal _ => isFalse fun h => h
  | .unescaped _ => isFalse fun h => h
  | .optional none => isFalse fun h => h
  | .value v => inferInstanceAs (Decidable (v.data = none))
  | .optional (some v) => inferInstanceAs (Decidable (v.data = none))

end Segment

namespace StringInterpolation

/-- The operations one after the other, also after one that threw. -/
def appendAll (s : StringInterpolation) : List Segment → StringInterpolation
  | [] => s
  | segment :: segments => (segment.apply s).2.appendAll segments

/-- The value of an interpolated string literal: the first throw ends it. -/
def interpolate (s : StringInterpolation) : List Segment → Except OracleError OracleQuery
  | [] => .ok (.ofInterpolation s)
  | segment :: segments =>
      match segment.apply s with
      | (.error e, _) => .error e
      | (.ok (), s) => s.interpolate segments

end StringInterpolation

/-- What the segments stand for. -/
def contents (segments : List Segment) : List (Char ⊕ OracleData) :=
  segments.flatMap Segment.contents

/-- The number of a placeholder, as its name. -/
def placeholderName (k : Nat) : List Char :=
  Nat.toDigits 10 (k + 1)

section Builder

open MarkedText

variable {Value : Type} [OracleDataConvertible Value]

theorem appendInterpolation_eq (s : StringInterpolation) (v : Value) :
    s.appendInterpolation v = Segment.apply s (.value ⟨oracleData v⟩) := rfl

theorem appendOptionalInterpolation_eq (s : StringInterpolation) (v : Option Value) :
    s.appendOptionalInterpolation v =
      Segment.apply s (.optional (v.map fun v => ⟨oracleData v⟩)) := by
  cases v <;> rfl

theorem toList_placeholder (k : Nat) :
    (StringInterpolation.placeholder (k + 1)).toList = ':' :: placeholderName k := by
  simp [StringInterpolation.placeholder, placeholderName]

theorem append_data (s : StringInterpolation) (v : AnyConvertible) :
    s.appendInterpolation v =
      match v.data with
      | none => (.error ⟨.error, "Provided value does not contain any associated oracle data"⟩, s)
      | some d =>
          (.ok (), ⟨s.sql ++ StringInterpolation.placeholder (s.binds.count + 1),
            ⟨s.binds.values ++ [d]⟩⟩) := by
  rcases v with ⟨data⟩
  cases data with
  | none => rfl
  | some d =>
      simp [StringInterpolation.appendInterpolation, OracleBindings.append, oracleData,
        OracleBindings.count]

theorem apply_throws {s : StringInterpolation} {segment : Segment}
    (h : segment.Throws) :
    segment.apply s = (.error ⟨.error,
      "Provided value does not contain any associated oracle data"⟩, s) := by
  cases segment with
  | literal text => exact h.elim
  | unescaped text => exact h.elim
  | value v =>
      change v.data = none at h
      rw [Segment.apply, append_data, h]
  | optional v =>
      cases v with
      | none => exact h.elim
      | some v =>
          change v.data = none at h
          change s.appendInterpolation v = _
          rw [append_data, h]

theorem apply_ok {s : StringInterpolation} {segment : Segment} (h : ¬ segment.Throws) :
    (segment.apply s).1 = .ok () := by
  cases segment with
  | literal text => rfl
  | unescaped text => rfl
  | value v =>
      obtain ⟨d, hd⟩ := Option.ne_none_iff_exists'.mp h
      rw [Segment.apply, append_data, hd]
  | optional v =>
      cases v with
      | none => rfl
      | some v =>
          obtain ⟨d, hd⟩ := Option.ne_none_iff_exists'.mp h
          change (s.appendInterpolation v).1 = _
          rw [append_data, hd]

theorem apply_contents (s : StringInterpolation) (segment : Segment) :
    (segment.apply s).2.sql.toList =
        s.sql.toList ++ render ':' placeholderName s.binds.count segment.contents ∧
      (segment.apply s).2.binds.values = s.binds.values ++ values segment.contents := by
  cases segment with
  | literal text =>
      simp [Segment.apply, Segment.contents, StringInterpolation.appendLiteral,
        render_text, values_text]
  | unescaped text =>
      simp [Segment.apply, Segment.contents,
        StringInterpolation.appendUnescapedInterpolation, render_text, values_text]
  | value v =>
      rw [Segment.apply, append_data]
      cases hd : v.data <;>
        simp [Segment.contents, Segment.data, hd, render, values, toList_placeholder]
  | optional v =>
      cases v with
      | none =>
          simp [Segment.apply, Segment.contents, Segment.data, render, values,
            StringInterpolation.appendOptionalInterpolation, OracleBindings.appendNull,
            OracleBindings.count, toList_placeholder]
      | some v =>
          change (s.appendInterpolation v).2.sql.toList = _ ∧
            (s.appendInterpolation v).2.binds.values = _
          rw [append_data]
          cases hd : v.data <;>
            simp [Segment.contents, Segment.data, hd, render, values, toList_placeholder]

/-- A sequence of operations adds what its segments stand for. -/
theorem appendAll_contents (s : StringInterpolation) (segments : List Segment) :
    (s.appendAll segments).sql.toList =
        s.sql.toList ++ render ':' placeholderName s.binds.count (contents segments) ∧
      (s.appendAll segments).binds.values =
        s.binds.values ++ values (contents segments) := by
  induction segments generalizing s with
  | nil => simp [StringInterpolation.appendAll, contents, render, values]
  | cons segment segments ih =>
      obtain ⟨hsql, hvalues⟩ := apply_contents s segment
      obtain ⟨ihsql, ihvalues⟩ := ih (segment.apply s).2
      have hcount : (segment.apply s).2.binds.count =
          s.binds.count + (values segment.contents).length := by
        simp [OracleBindings.count, hvalues]
      rw [StringInterpolation.appendAll, ihsql, ihvalues, hsql, hvalues, hcount]
      simp only [contents, List.flatMap_cons, render_append, values_append,
        List.append_assoc, and_self]

theorem interpolate_eq {s : StringInterpolation} {segments : List Segment}
    (h : ∀ segment ∈ segments, ¬ segment.Throws) :
    s.interpolate segments = .ok (.ofInterpolation (s.appendAll segments)) := by
  induction segments generalizing s with
  | nil => rfl
  | cons segment segments ih =>
      have hok := apply_ok (s := s) (h segment (by simp))
      rw [StringInterpolation.interpolate, StringInterpolation.appendAll,
        ← ih fun segment hsegment => h segment (List.mem_cons_of_mem _ hsegment)]
      rw [← Prod.mk.eta (p := segment.apply s), hok]

theorem interpolate_throws {s : StringInterpolation} {segments : List Segment}
    {query : OracleQuery} (h : s.interpolate segments = .ok query) :
    ∀ segment ∈ segments, ¬ segment.Throws := by
  induction segments generalizing s with
  | nil => simp
  | cons segment segments ih =>
      intro segment' hmem
      by_cases hthrows : segment.Throws
      · rw [StringInterpolation.interpolate, apply_throws hthrows] at h
        cases h
      · have hok := apply_ok (s := s) hthrows
        rw [StringInterpolation.interpolate, ← Prod.mk.eta (p := segment.apply s), hok] at h
        rcases List.mem_cons.mp hmem with rfl | hmem
        · exact hthrows
        · exact ih h segment' hmem

end Builder

end OracleNIO
