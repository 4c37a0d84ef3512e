import OracleNIO.MergedTable
import OracleNIO.OracleStatement

/-!
The columns of an `OracleRow`, all of them and by name.
-/

namespace OracleNIO

open Interaction MergedTable

/-- What Swift takes from the Unicode tables for `==` and `uppercased()` of strings:
strings are equal if their normal forms are. -/
structure StringTables where
  normalized : String → String
  uppercased : String → String
  uppercased_of_normalized : ∀ s t, normalized s = normalized (uppercased t) →
    normalized (uppercased s) = normalized (uppercased t)

/-- The upper case of an ASCII character. -/
def asciiUpper (c : Char) : Char :=
  if 97 ≤ c.toNat ∧ c.toNat ≤ 122 then Char.ofNat (c.toNat - 32) else c

theorem asciiUpper_asciiUpper (c : Char) : asciiUpper (asciiUpper c) = asciiUpper c := by
  by_cases hc : 97 ≤ c.toNat ∧ c.toNat ≤ 122
  · have hupper : asciiUpper c = Char.ofNat (c.toNat - 32) := if_pos hc
    have hvalid : (c.toNat - 32).isValidChar := .inl (by omega)
    have hnat : (Char.ofNat (c.toNat - 32)).toNat = c.toNat - 32 := by
      rw [Char.ofNat, dif_pos hvalid]
      rfl
    rw [hupper, asciiUpper, hnat, if_neg (by omega)]
  · have hsame : asciiUpper c = c := if_neg hc
    rw [hsame, hsame]

/-- The tables for ASCII, where all strings are normal. -/
def asciiTables : StringTables where
  normalized s := s
  uppercased s := String.ofList (s.toList.map asciiUpper)
  uppercased_of_normalized := by
    rintro _ t rfl
    simp [Function.comp_def, asciiUpper_asciiUpper]

/-- `OracleColumn` -/
structure OracleColumn where
  name : String
  data : OracleData
deriving DecidableEq, Repr

/-- The offset of each name; of a name that comes twice the first one. -/
def OracleColumnOffsets.lookupTable (tables : StringTables) (columns : OracleColumnOffsets) :
    List (String × Nat) :=
  ofPairs tables.normalized (fun a _ => a) columns.offsets

namespace OracleRow

/-- The subscript of the array, which traps outside of it. -/
def dataAt (row : OracleRow) (offset : Nat) : Outcome OracleError OracleData :=
  match row.data[offset]? with
  | some data => .value data
  | none => .trap

def columnsOf (row : OracleRow) : List (String × Nat) → Outcome OracleError (List OracleColumn)
  | [] => .value []
  | (name, offset) :: offsets => do
      let data ← row.dataAt offset
      let columns ← row.columnsOf offsets
      return ⟨name, data⟩ :: columns

/-- The computed property `columns`. -/
def columns (row : OracleRow) : Outcome OracleError (List OracleColumn) :=
  row.columnsOf row.columnOffsets.offsets

/-- `column(_:)` -/
def column (tables : StringTables) (row : OracleRow) (name : String) :
    Outcome OracleError (Option OracleData) :=
  match lookup tables.normalized (row.columnOffsets.lookupTable tables)
      (tables.uppercased name) with
  | none => .value none
  | some offset => do
      let data ← row.dataAt offset
      return some data

end OracleRow

end OracleNIO
