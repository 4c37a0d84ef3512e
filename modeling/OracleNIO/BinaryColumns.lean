import OracleNIO.FetchedRows

/-!
Binary columns of fetched rows: the bytes that are read for a `RAW` or a `BLOB`.
-/

namespace OracleNIO.BinaryColumns

open Interaction Prog SwiftRuntime ByteMemory Dpi FetchedRows OracleStatement

/-- A value of the database that is not NULL; `bytes` of a `BLOB` is what its locator
refers to. -/
inductive BinaryValue where
  | raw (bytes : List UInt8)
  | longRaw (bytes : List UInt8)
  | blob (bytes : List UInt8)
deriving DecidableEq, Repr

namespace BinaryValue

/-- The type of column that hands out such a value. -/
def oracleType : BinaryValue → OracleType
  | .raw _ => .raw
  | .longRaw _ => .longRaw
  | .blob _ => .blob

/-- What OCI delivers: the bytes, or a locator alone. -/
def received : BinaryValue → OciValue
  | .raw bytes | .longRaw bytes => .bytes bytes
  | .blob _ => .reference

/-- The data with exactly the bytes of the value. -/
def data : BinaryValue → OracleData
  | .raw bytes | .longRaw bytes => .raw bytes
  | .blob bytes => .blob bytes

/-- What `data(at:)` makes of the value. -/
def decoded : BinaryValue → Outcome OracleError OracleData
  | .raw _ | .longRaw _ => .trap
  | .blob _ => .value (.blob [])

theorem decoded_eq_iff (value : BinaryValue) :
    value.decoded = .value value.data ↔ value = .blob [] := by
  cases value with
  | raw bytes => simp [decoded]
  | longRaw bytes => simp [decoded]
  | blob bytes => simp [decoded, data, eq_comm]

end BinaryValue

/-- An executed query has returned `k` rows, and `dpiStmt_fetch` has found the next one. -/
structure AtFetch (statement : OracleStatement) (s reading : Session) (k : Nat) : Prop where
  prepared : Prepared s.stmt
  fetched : ∃ s₁ s₂ columns results, s.run statement.execute = (.value (), s₁) ∧
    Fetched statement columns s₁ results s₂ ∧ results.length = k ∧ Finds statement s₂ reading

/-- Row `k` of the query has the value in a column of its type. -/
structure HasValue (s : Session) (k i : Nat) (value : BinaryValue) : Prop where
  row : ∃ row, s.stmt.cursor[k]? = some row ∧ row i = some value.received
  info : ∃ info, s.stmt.queryInfo[i]? = some info ∧
    info.typeInfo.oracleType = some value.oracleType

section Column

variable {info : QueryInfo} {var : DpiVar}

theorem nativeType_binary {value : BinaryValue} (h : QueryVar info var)
    (htype : info.typeInfo.oracleType = some value.oracleType) :
    var.nativeType = value.oracleType.defaultNativeType := by
  have htype' : var.type = value.oracleType := Option.some.inj (h.type.symm.trans htype)
  obtain hdefault | hvalid := h.converts
  · rw [hdefault, htype']
  · rw [htype'] at hvalid
    cases value <;> cases hvalid

/-- The bytes of the value are taken for a reference to an array. -/
theorem columnData_raw {typeInfo : DataTypeInfo}
    (htype : typeInfo.oracleType = some .raw ∨ typeInfo.oracleType = some .longRaw) (data : DpiData)
    (memory : List UInt8) : columnData .bytes typeInfo data memory = .trap := by
  have hraw : dataType .bytes typeInfo = .value .raw := if_pos htype
  rw [columnData, hraw]
  rfl

/-- The length is read behind the locator, where nothing was stored. -/
theorem columnData_blob (typeInfo : DataTypeInfo) (isNull : Bool) (ptr : Nat)
    (memory : List UInt8) :
    columnData .lob typeInfo ⟨isNull, .asLOB ptr⟩ memory = .value (.blob []) := rfl

theorem columnData_binary {value : BinaryValue} {n : Nat} {buffer : DpiDataBuffer}
    (htype : info.typeInfo.oracleType = some value.oracleType)
    (hnative : var.nativeType = value.oracleType.defaultNativeType)
    (hbuffer : var.fetchedBuffer n value.received = some buffer) (memory : List UInt8) :
    columnData var.nativeType info.typeInfo ⟨false, buffer⟩ memory = value.decoded := by
  rw [hnative]
  cases value with
  | raw bytes => exact columnData_raw (.inl htype) _ memory
  | longRaw bytes => exact columnData_raw (.inr htype) _ memory
  | blob bytes =>
      unfold DpiVar.fetchedBuffer at hbuffer
      rw [hnative] at hbuffer
      obtain rfl := Option.some.inj hbuffer
      exact columnData_blob info.typeInfo false _ memory

end Column

section Read

variable {statement : OracleStatement} {s reading : Session} {k i : Nat} {value : BinaryValue}

theorem run_data_binary (h : AtFetch statement s reading k) (hvalue : HasValue s k i value)
    (hi : i < 2147483647) : reading.run (statement.data i) = (value.decoded, reading) := by
  rcases h with ⟨hs, s₁, s₂, columns, results, hexecute, hfetch, rfl, hfinds⟩
  rcases hvalue with ⟨⟨row, hrow, hvalue⟩, info, hinfo, htype⟩
  obtain ⟨hfetching, hinfos⟩ := fetching_execute hs hexecute
  obtain ⟨hfetching', hinfos'⟩ := fetching_of_fetched hfetch hfetching
  obtain ⟨row', vars, hrow', hatRow, hinfos''⟩ := atRow_of_finds hfetching' hfinds
  rw [Nat.zero_add] at hrow'
  obtain rfl : row = row' := Option.some.inj (hrow.symm.trans hrow')
  have hinfo' : reading.stmt.queryInfo[i]? = some info := by
    rw [hinfos'', hinfos', hinfos, hinfo]
  obtain ⟨var, hvar, hquery⟩ := getElem?_of_forall₂ hatRow.columns.flip hinfo'
  obtain ⟨buffer, hbuffer, hdata⟩ : DataAt var (reading.stmt.bufferRowIndex - 1)
      (some value.received) := hvalue ▸ (hatRow.elements i var hvar).data
  rw [run_data, columnValue_eq hatRow hi hinfo' hvar hdata,
    columnData_binary htype (nativeType_binary hquery htype) hbuffer]

/-- At every row that a fetch finds, a binary value is decoded with exactly its bytes only if
it is an empty `BLOB`. -/
theorem bytes_kept_iff (h : AtFetch statement s reading k) (hvalue : HasValue s k i value)
    (hi : i < 2147483647) :
    reading.run (statement.data i) = (.value value.data, reading) ↔ value = .blob [] := by
  rw [run_data_binary h hvalue hi, Prod.mk.injEq, and_iff_left rfl]
  exact value.decoded_eq_iff

end Read

/-- A query of one row with the value in its only column. -/
def binaryQuery (value : BinaryValue) : Session :=
  newSession (.prepared .select
    [⟨[66], ⟨some value.oracleType, some value.oracleType.defaultNativeType, 8⟩⟩]
    [fun _ => some value.received])

theorem hasValue_binaryQuery (value : BinaryValue) : HasValue (binaryQuery value) 0 0 value :=
  ⟨⟨_, rfl, rfl⟩, _, rfl, rfl⟩

theorem exists_atFetch_blob (bytes : List UInt8) :
    ∃ reading, AtFetch ⟨⟨3⟩, []⟩ (binaryQuery (.blob bytes)) reading 0 := by
  have hone : (1 : Int32) ≠ 0 := by decide
  exact ⟨_, ⟨rfl, rfl, rfl⟩, _, _, ⟨[("B", 0)]⟩, [], rfl, .nil _, rfl, ⟨1, 0⟩, hone, rfl⟩

theorem exists_atFetch_raw : ∃ reading,
    AtFetch ⟨⟨3⟩, []⟩ (binaryQuery (.raw [1, 2, 3, 4, 5, 6, 7, 8])) reading 0 := by
  have hone : (1 : Int32) ≠ 0 := by decide
  exact ⟨_, ⟨rfl, rfl, rfl⟩, _, _, ⟨[("B", 0)]⟩, [], rfl, .nil _, rfl, ⟨1, 0⟩, hone, rfl⟩

theorem bytes_kept_empty : ∃ reading, AtFetch ⟨⟨3⟩, []⟩ (binaryQuery (.blob [])) reading 0 ∧
    reading.run (OracleStatement.data ⟨⟨3⟩, []⟩ 0) = (.value (.blob []), reading) := by
  obtain ⟨reading, h⟩ := exists_atFetch_blob []
  exact ⟨reading, h, (bytes_kept_iff h (hasValue_binaryQuery (.blob [])) (by decide)).mpr rfl⟩

/-- A `RAW` of eight bytes traps, and of a `BLOB` of three bytes none is returned. -/
theorem not_bytes_kept :
    (∃ reading,
      AtFetch ⟨⟨3⟩, []⟩ (binaryQuery (.raw [1, 2, 3, 4, 5, 6, 7, 8])) reading 0 ∧
        HasValue (binaryQuery (.raw [1, 2, 3, 4, 5, 6, 7, 8])) 0 0
          (.raw [1, 2, 3, 4, 5, 6, 7, 8]) ∧
        reading.run (OracleStatement.data ⟨⟨3⟩, []⟩ 0) = (.trap, reading) ∧
        reading.run (OracleStatement.data ⟨⟨3⟩, []⟩ 0) ≠
          (.value (.raw [1, 2, 3, 4, 5, 6, 7, 8]), reading)) ∧
    ∃ reading, AtFetch ⟨⟨3⟩, []⟩ (binaryQuery (.blob [1, 2, 3])) reading 0 ∧
      HasValue (binaryQuery (.blob [1, 2, 3])) 0 0 (.blob [1, 2, 3]) ∧
        reading.run (OracleStatement.data ⟨⟨3⟩, []⟩ 0) = (.value (.blob []), reading) ∧
        reading.run (OracleStatement.data ⟨⟨3⟩, []⟩ 0) ≠ (.value (.blob [1, 2, 3]), reading) := by
  constructor
  · obtain ⟨reading, h⟩ := exists_atFetch_raw
    have hvalue := hasValue_binaryQuery (.raw [1, 2, 3, 4, 5, 6, 7, 8])
    have hrun := run_data_binary h hvalue (by decide)
    refine ⟨reading, h, hvalue, hrun, ?_⟩
    rw [hrun]
    simp [BinaryValue.decoded]
  · obtain ⟨reading, h⟩ := exists_atFetch_blob [1, 2, 3]
    have hvalue := hasValue_binaryQuery (.blob [1, 2, 3])
    have hrun := run_data_binary h hvalue (by decide)
    refine ⟨reading, h, hvalue, hrun, ?_⟩
    rw [hrun]
    simp [BinaryValue.decoded]

end OracleNIO.BinaryColumns
