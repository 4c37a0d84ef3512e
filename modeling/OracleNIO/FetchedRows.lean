import OracleNIO.OdpiSession

/-!
Fetching through the buffers of ODPI-C: what the buffer of a column holds after a batch
of rows, and what a whole fetch of any length hands out.
-/

namespace OracleNIO.FetchedRows

open Interaction Prog SwiftRuntime ByteMemory Dpi

/-! ### The buffer of a column -/

/-- The blocks of the variable are as large as they were allocated. -/
structure WellFormed (var : DpiVar) : Prop where
  externalData : var.externalData.length = var.maxArraySize
  memory : var.isDynamic = false → var.memory.length = var.maxArraySize * var.sizeInBytes
  dynamicBytes : var.isDynamic = true → var.dynamicBytes.length = var.maxArraySize

/-- The bytes are where the element of that number has them. -/
def BytesAt (var : DpiVar) (n : Nat) (bytes : List UInt8) : Prop :=
  if var.isDynamic then var.dynamicBytes[n]? = some bytes
  else n * var.sizeInBytes + bytes.length ≤ var.memory.length ∧
    readBytes var.memory (n * var.sizeInBytes) bytes.length = bytes

/-- The buffer of the element is what the value is written as. -/
def DataAt (var : DpiVar) (n : Nat) : Option OciValue → Prop
  | none => ∃ buffer, var.externalData[n]? = some ⟨true, buffer⟩
  | some value => ∃ buffer, var.fetchedBuffer n value = some buffer ∧
      var.externalData[n]? = some ⟨false, buffer⟩

/-- The element holds the value that was fetched into it. -/
structure Element (var : DpiVar) (n : Nat) (value : Option OciValue) : Prop where
  data : DataAt var n value
  bytes : ∀ bytes, value = some (.bytes bytes) → BytesAt var n bytes

/-- The variables differ in what they hold only. -/
structure SameShape (var var' : DpiVar) : Prop where
  type : var'.type = var.type
  nativeType : var'.nativeType = var.nativeType
  maxArraySize : var'.maxArraySize = var.maxArraySize
  sizeInBytes : var'.sizeInBytes = var.sizeInBytes
  isDynamic : var'.isDynamic = var.isDynamic

theorem SameShape.refl (var : DpiVar) : SameShape var var := ⟨rfl, rfl, rfl, rfl, rfl⟩

theorem SameShape.trans {var var' var'' : DpiVar} (h : SameShape var var')
    (h' : SameShape var' var'') : SameShape var var'' :=
  ⟨h'.type.trans h.type, h'.nativeType.trans h.nativeType,
    h'.maxArraySize.trans h.maxArraySize, h'.sizeInBytes.trans h.sizeInBytes,
    h'.isDynamic.trans h.isDynamic⟩

theorem fetchedBuffer_congr {var var' : DpiVar} (h : SameShape var var') (n : Nat)
    (value : OciValue) : var'.fetchedBuffer n value = var.fetchedBuffer n value := by
  unfold DpiVar.fetchedBuffer
  rw [h.type, h.nativeType, h.sizeInBytes, h.isDynamic]

theorem length_le_of_fetchedBuffer {var : DpiVar} {n : Nat} {bytes : List UInt8}
    {buffer : DpiDataBuffer} (hdynamic : var.isDynamic = false)
    (h : var.fetchedBuffer n (.bytes bytes) = some buffer) :
    bytes.length ≤ var.sizeInBytes := by
  unfold DpiVar.fetchedBuffer at h
  split at h <;> simp_all

theorem receive_sameShape (var : DpiVar) (pos : Nat) (value : Option OciValue) :
    SameShape var (var.receive pos value) := by
  unfold DpiVar.receive
  split
  · split <;> exact ⟨rfl, rfl, rfl, rfl, rfl⟩
  · exact .refl var

theorem slot_le (size : Nat) {pos count : Nat} (hpos : pos < count) :
    pos * size + size ≤ count * size := by
  calc pos * size + size = (pos + 1) * size := (Nat.succ_mul pos size).symm
    _ ≤ count * size := Nat.mul_le_mul_right size hpos

section Receive

variable {var : DpiVar} {pos : Nat}

theorem receive_externalData (value : Option OciValue) :
    (var.receive pos value).externalData = var.externalData := by
  unfold DpiVar.receive
  split
  · split <;> rfl
  · rfl

theorem WellFormed.receive (h : WellFormed var) (hpos : pos < var.maxArraySize)
    (value : Option OciValue) : WellFormed (var.receive pos value) := by
  unfold DpiVar.receive
  split
  case h_1 bytes =>
    split
    case isTrue hdynamic =>
      refine ⟨h.externalData, h.memory, ?_⟩
      intro hdyn
      rw [List.length_set]
      exact h.dynamicBytes hdyn
    case isFalse hdynamic =>
      refine ⟨h.externalData, ?_, h.dynamicBytes⟩
      intro hstatic
      have hmemory := h.memory hstatic
      have hslot := slot_le var.sizeInBytes hpos
      have hroom : pos * var.sizeInBytes + (bytes.take var.sizeInBytes).length ≤
          var.memory.length := by
        rw [List.length_take]
        omega
      rw [length_write hroom]
      exact hmemory
  case h_2 => exact h

theorem bytesAt_receive_same (h : WellFormed var) (hpos : pos < var.maxArraySize)
    {bytes : List UInt8} (hfit : var.isDynamic = false → bytes.length ≤ var.sizeInBytes) :
    BytesAt (var.receive pos (some (.bytes bytes))) pos bytes := by
  unfold DpiVar.receive BytesAt
  by_cases hdynamic : var.isDynamic = true
  · have hlength := h.dynamicBytes hdynamic
    simp only [hdynamic, if_true]
    rw [List.getElem?_set_self (by omega)]
  · have hstatic : var.isDynamic = false := by simpa using hdynamic
    have hbytes := hfit hstatic
    have hmemory := h.memory hstatic
    have hslot := slot_le var.sizeInBytes hpos
    have hroom : pos * var.sizeInBytes + bytes.length ≤ var.memory.length := by omega
    simp only [hstatic, Bool.false_eq_true, if_false, List.take_of_length_le hbytes]
    rw [length_write hroom]
    exact ⟨hroom, read_write_same hroom⟩

theorem bytesAt_receive_other (h : WellFormed var) (hpos : pos < var.maxArraySize)
    {n : Nat} (hn : n < pos) {bytes : List UInt8}
    (hfit : var.isDynamic = false → bytes.length ≤ var.sizeInBytes)
    (hbytes : BytesAt var n bytes) (value : Option OciValue) :
    BytesAt (var.receive pos value) n bytes := by
  unfold DpiVar.receive
  split
  case h_2 => exact hbytes
  case h_1 stored =>
    unfold BytesAt at hbytes ⊢
    by_cases hdynamic : var.isDynamic = true
    · simp only [hdynamic, if_true] at hbytes ⊢
      rw [List.getElem?_set_ne (by omega)]
      exact hbytes
    · have hstatic : var.isDynamic = false := by simpa using hdynamic
      have hlength := hfit hstatic
      have hmemory := h.memory hstatic
      have hslot := slot_le var.sizeInBytes hpos
      have hbefore := slot_le var.sizeInBytes hn
      have hroom : pos * var.sizeInBytes + (stored.take var.sizeInBytes).length ≤
          var.memory.length := by
        rw [List.length_take]
        omega
      simp only [hstatic, Bool.false_eq_true, if_false] at hbytes ⊢
      rw [length_write hroom]
      refine ⟨hbytes.1, ?_⟩
      refine (read_congr ?_).trans hbytes.2
      intro i _ hi
      exact getElem?_write hroom (.inl (by omega))

end Receive

theorem receiveAll_sameShape (var : DpiVar) (pos : Nat) (values : List (Option OciValue)) :
    SameShape var (var.receiveAll pos values) := by
  induction values generalizing var pos with
  | nil => exact .refl var
  | cons value values ih => exact (receive_sameShape var pos value).trans (ih _ _)

theorem receiveAll_externalData (var : DpiVar) (pos : Nat) (values : List (Option OciValue)) :
    (var.receiveAll pos values).externalData = var.externalData := by
  induction values generalizing var pos with
  | nil => rfl
  | cons value values ih => exact (ih _ _).trans (receive_externalData value)

theorem WellFormed.receiveAll {var : DpiVar} (h : WellFormed var) {pos : Nat}
    {values : List (Option OciValue)} (hroom : pos + values.length ≤ var.maxArraySize) :
    WellFormed (var.receiveAll pos values) := by
  induction values generalizing var pos with
  | nil => exact h
  | cons value values ih =>
      rw [List.length_cons] at hroom
      refine ih (h.receive (by omega) value) ?_
      rw [(receive_sameShape var pos value).maxArraySize]
      omega

theorem bytesAt_receiveAll_other {var : DpiVar} (h : WellFormed var) {pos : Nat}
    {values : List (Option OciValue)} (hroom : pos + values.length ≤ var.maxArraySize)
    {n : Nat} (hn : n < pos) {bytes : List UInt8}
    (hfit : var.isDynamic = false → bytes.length ≤ var.sizeInBytes)
    (hbytes : BytesAt var n bytes) : BytesAt (var.receiveAll pos values) n bytes := by
  induction values generalizing var pos with
  | nil => exact hbytes
  | cons value values ih =>
      rw [List.length_cons] at hroom
      have hshape := receive_sameShape var pos value
      apply ih (h.receive (by omega) value)
      · rw [hshape.maxArraySize]
        omega
      · omega
      · rw [hshape.isDynamic, hshape.sizeInBytes]
        exact hfit
      · exact bytesAt_receive_other h (by omega) hn hfit hbytes value

theorem bytesAt_receiveAll {var : DpiVar} (h : WellFormed var) {pos : Nat}
    {values : List (Option OciValue)} (hroom : pos + values.length ≤ var.maxArraySize)
    {n : Nat} {bytes : List UInt8} (hn : values[n]? = some (some (.bytes bytes)))
    (hfit : var.isDynamic = false → bytes.length ≤ var.sizeInBytes) :
    BytesAt (var.receiveAll pos values) (pos + n) bytes := by
  induction values generalizing var pos n with
  | nil => simp at hn
  | cons value values ih =>
      rw [List.length_cons] at hroom
      have hshape := receive_sameShape var pos value
      have hroom' : pos + 1 + values.length ≤ (var.receive pos value).maxArraySize := by
        rw [hshape.maxArraySize]
        omega
      have hfit' : (var.receive pos value).isDynamic = false →
          bytes.length ≤ (var.receive pos value).sizeInBytes := by
        rw [hshape.isDynamic, hshape.sizeInBytes]
        exact hfit
      cases n with
      | zero =>
          obtain rfl : value = some (.bytes bytes) := by simpa using hn
          exact bytesAt_receiveAll_other (h.receive (by omega) _) hroom' (by omega) hfit'
            (bytesAt_receive_same h (by omega) hfit)
      | succ n =>
          have hrest := ih (h.receive (by omega) value) hroom' (by simpa using hn) hfit'
          rwa [show pos + 1 + n = pos + (n + 1) by omega] at hrest

/-! ### Reading the values -/

section GetValue

variable {var var' : DpiVar} {pos : Nat}

theorem getValue_eq {value : Option OciValue} (h : var.getValue pos value = some var') :
    ∃ externalData, var' = { var with externalData } ∧
      externalData.length = var.externalData.length ∧
        ∀ n, n ≠ pos → externalData[n]? = var.externalData[n]? := by
  unfold DpiVar.getValue at h
  split at h
  · cases h
    refine ⟨_, rfl, by simp, ?_⟩
    intro n hn
    simp [Ne.symm hn]
  · simp only [Option.bind_eq_bind, Option.bind_eq_some_iff] at h
    rcases h with ⟨buffer, _, hvar⟩
    cases hvar
    refine ⟨_, rfl, by simp, ?_⟩
    intro n hn
    rw [List.getElem?_set_ne (Ne.symm hn)]

theorem dataAt_getValue {value : Option OciValue} (hpos : pos < var.externalData.length)
    (h : var.getValue pos value = some var') : DataAt var' pos value := by
  unfold DpiVar.getValue at h
  split at h
  · cases h
    refine ⟨var.externalData[pos].value, ?_⟩
    simp [hpos]
  case h_2 value =>
    simp only [Option.bind_eq_bind, Option.bind_eq_some_iff] at h
    rcases h with ⟨buffer, hbuffer, hvar⟩
    cases hvar
    refine ⟨buffer, hbuffer, ?_⟩
    exact List.getElem?_set_self hpos

theorem getValues_eq {values : List (Option OciValue)}
    (h : var.getValues pos values = some var') :
    ∃ externalData, var' = { var with externalData } ∧
      externalData.length = var.externalData.length ∧
        ∀ n, n < pos → externalData[n]? = var.externalData[n]? := by
  induction values generalizing var pos with
  | nil =>
      cases h
      exact ⟨_, rfl, rfl, fun _ _ => rfl⟩
  | cons value values ih =>
      rw [DpiVar.getValues, Option.bind_eq_bind, Option.bind_eq_some_iff] at h
      rcases h with ⟨first, hfirst, hrest⟩
      obtain ⟨data₁, rfl, hlength₁, hframe₁⟩ := getValue_eq hfirst
      obtain ⟨data₂, rfl, hlength₂, hframe₂⟩ := ih hrest
      refine ⟨data₂, rfl, hlength₂.trans hlength₁, ?_⟩
      intro n hn
      exact (hframe₂ n (by omega)).trans (hframe₁ n (by omega))

theorem dataAt_getValues {values : List (Option OciValue)}
    (hroom : pos + values.length ≤ var.externalData.length)
    (h : var.getValues pos values = some var') {n : Nat} {value : Option OciValue}
    (hn : values[n]? = some value) : DataAt var' (pos + n) value := by
  induction values generalizing var pos n with
  | nil => simp at hn
  | cons head values ih =>
      rw [DpiVar.getValues, Option.bind_eq_bind, Option.bind_eq_some_iff] at h
      rcases h with ⟨first, hfirst, hrest⟩
      rw [List.length_cons] at hroom
      obtain ⟨data₁, rfl, hlength₁, _⟩ := getValue_eq hfirst
      cases n with
      | zero =>
          obtain rfl : head = value := by simpa using hn
          have hdata := dataAt_getValue (by omega) hfirst
          obtain ⟨data₂, rfl, _, hframe₂⟩ := getValues_eq hrest
          have hsame : data₂[pos]? = data₁[pos]? := hframe₂ pos (by omega)
          unfold DataAt at hdata ⊢
          simp only [Nat.add_zero]
          rw [hsame]
          exact hdata
      | succ n =>
          have hdata := ih (by simp only [hlength₁]; omega) hrest (by simpa using hn)
          rwa [show pos + 1 + n = pos + (n + 1) by omega] at hdata

end GetValue

/-- Fetching a batch leaves every row of it in its element. -/
theorem fetchColumn_spec {var var' : DpiVar} (h : WellFormed var) {column : Nat}
    {rows : List Row} (hroom : rows.length ≤ var.maxArraySize)
    (hfetch : DpiStmt.fetchColumn column rows var = some var') :
    WellFormed var' ∧ SameShape var var' ∧
      ∀ n row, rows[n]? = some row → Element var' n (row column) := by
  simp only [DpiStmt.fetchColumn] at hfetch
  generalize hvalues : rows.map (fun row => row column) = values at hfetch
  have hlength : values.length = rows.length := by rw [← hvalues, List.length_map]
  have hroom₀ : 0 + values.length ≤ var.maxArraySize := by omega
  have hreceived := h.receiveAll hroom₀
  have hshape := receiveAll_sameShape var 0 values
  obtain ⟨data, rfl, hdata, _⟩ := getValues_eq hfetch
  refine ⟨?_, ?_, ?_⟩
  · exact ⟨hdata.trans hreceived.externalData, hreceived.memory, hreceived.dynamicBytes⟩
  · exact ⟨hshape.type, hshape.nativeType, hshape.maxArraySize, hshape.sizeInBytes,
      hshape.isDynamic⟩
  · intro n row hn
    have hvalue : values[n]? = some (row column) := by
      rw [← hvalues, List.getElem?_map, hn]
      rfl
    have hroom₁ : 0 + values.length ≤ (var.receiveAll 0 values).externalData.length := by
      rw [receiveAll_externalData, h.externalData]
      omega
    have hread := dataAt_getValues hroom₁ hfetch hvalue
    rw [Nat.zero_add] at hread
    refine ⟨hread, ?_⟩
    intro bytes hbytes
    rw [hbytes] at hvalue hread
    rcases hread with ⟨buffer, hbuffer, _⟩
    have hbytesAt := bytesAt_receiveAll h hroom₀ hvalue
      fun hstatic => length_le_of_fetchedBuffer hstatic
        ((fetchedBuffer_congr hshape n _).symm.trans hbuffer)
    rwa [Nat.zero_add] at hbytesAt

/-! ### The variables of a query -/

theorem wellFormed_initBuffer {type : OracleType} {nativeType : NativeType}
    {maxArraySize size : Nat} {isDynamic hasObjectType : Bool} {uninitialised : Nat → UInt8}
    {var : DpiVar}
    (h : DpiVar.initBuffer type nativeType maxArraySize size isDynamic hasObjectType
      uninitialised = some var) :
    WellFormed var ∧ var.type = type ∧ var.nativeType = nativeType ∧
      var.maxArraySize = maxArraySize := by
  unfold DpiVar.initBuffer at h
  split at h
  · cases h
  split at h
  · cases h
  cases h
  refine ⟨⟨?_, ?_, ?_⟩, rfl, rfl, rfl⟩
  · simp
  · intro hstatic
    simp_all
  · intro hdynamic
    simp_all

theorem allocate_spec {env : DpiEnv} {type : OracleType} {nativeType : NativeType}
    {maxArraySize size : UInt32} {sizeIsBytes isArray hasObjectType : Bool}
    {uninitialised : Nat → UInt8} {var : DpiVar}
    (h : DpiVar.allocate env type nativeType maxArraySize size sizeIsBytes isArray
      hasObjectType uninitialised = some var) :
    WellFormed var ∧ var.type = type ∧ var.nativeType = nativeType ∧
      var.maxArraySize = maxArraySize.toNat ∧
        (nativeType = type.defaultNativeType ∨ validateTypes type nativeType = true) := by
  unfold DpiVar.allocate at h
  split at h
  · cases h
  split at h
  · cases h
  split at h
  · cases h
  split at h
  · cases h
  split at h
  · cases h
  case isFalse hconverts =>
    have hconverts' : nativeType = type.defaultNativeType ∨
        validateTypes type nativeType = true := by
      by_cases hdefault : nativeType = type.defaultNativeType
      · exact .inl hdefault
      · refine .inr ?_
        by_contra hvalid
        exact hconverts ⟨hdefault, by simpa using hvalid⟩
    simp only at h
    split at h
    · obtain ⟨hwell, htype, hnative, hsize⟩ := wellFormed_initBuffer h
      exact ⟨hwell, htype, hnative, hsize, hconverts'⟩
    · obtain ⟨hwell, htype, hnative, hsize⟩ := wellFormed_initBuffer h
      exact ⟨hwell, htype, hnative, hsize, hconverts'⟩

/-- The variable is one that a query created for the column. -/
structure QueryVar (info : QueryInfo) (var : DpiVar) : Prop where
  wellFormed : WellFormed var
  type : info.typeInfo.oracleType = some var.type
  nativeType : info.typeInfo.defaultNativeType = some var.nativeType
  maxArraySize : var.maxArraySize = fetchArraySize
  converts : var.nativeType = var.type.defaultNativeType ∨
    validateTypes var.type var.nativeType = true

theorem queryVar_createQueryVar {env : DpiEnv} {column : Nat} {info : QueryInfo}
    {var : DpiVar} (h : DpiStmt.createQueryVar env column info = some var) :
    QueryVar info var := by
  simp only [DpiStmt.createQueryVar, Option.bind_eq_bind, Option.bind_eq_some_iff] at h
  obtain ⟨oracleType, htype, nativeType, hnative, h⟩ := h
  obtain ⟨hwell, rfl, rfl, hsize, hconverts⟩ := allocate_spec h
  exact ⟨hwell, htype, hnative, hsize, hconverts⟩

theorem queryVars_createQueryVars {env : DpiEnv} {column : Nat} {infos : List QueryInfo}
    {vars : List DpiVar} (h : DpiStmt.createQueryVars env column infos = some vars) :
    List.Forall₂ QueryVar infos vars := by
  induction infos generalizing column vars with
  | nil =>
      cases h
      exact .nil
  | cons info infos ih =>
      simp only [DpiStmt.createQueryVars, Option.bind_eq_bind, Option.bind_eq_some_iff] at h
      rcases h with ⟨var, hvar, rest, hrest, hvars⟩
      cases hvars
      exact .cons (queryVar_createQueryVar hvar) (ih hrest)

theorem fetchColumns_spec {column : Nat} {rows : List Row} {infos : List QueryInfo}
    {vars vars' : List DpiVar} (h : List.Forall₂ QueryVar infos vars)
    (hroom : rows.length ≤ fetchArraySize)
    (hfetch : DpiStmt.fetchColumns column rows vars = some vars') :
    List.Forall₂ QueryVar infos vars' ∧
      ∀ n row, rows[n]? = some row → ∀ j var, vars'[j]? = some var →
        Element var n (row (column + j)) := by
  induction h generalizing column vars' with
  | nil =>
      cases hfetch
      exact ⟨.nil, by simp⟩
  | cons hvar hvars ih =>
      simp only [DpiStmt.fetchColumns, Option.bind_eq_bind, Option.bind_eq_some_iff] at hfetch
      rcases hfetch with ⟨first, hfirst, rest, hrest, hvars'⟩
      cases hvars'
      obtain ⟨hwell, hshape, helements⟩ := fetchColumn_spec hvar.wellFormed
        (by rw [hvar.maxArraySize]; exact hroom) hfirst
      obtain ⟨hcolumns, hrestElements⟩ := ih hrest
      refine ⟨.cons ?_ hcolumns, ?_⟩
      · refine ⟨hwell, ?_, ?_, hshape.maxArraySize.trans hvar.maxArraySize, ?_⟩
        · rw [hvar.type, hshape.type]
        · rw [hvar.nativeType, hshape.nativeType]
        · rw [hshape.type, hshape.nativeType]
          exact hvar.converts
      · intro n row hn j var hj
        cases j with
        | zero =>
            obtain rfl : first = var := by simpa using hj
            exact helements n row hn
        | succ j =>
            have helement := hrestElements n row hn j var (by simpa using hj)
            rwa [show column + 1 + j = column + (j + 1) by omega] at helement

/-! ### A whole fetch -/

/-- The batch in the buffer starts at row `base`. -/
structure Buffered (rows : List Row) (base : Nat) (stmt : DpiStmt) (vars : List DpiVar) :
    Prop where
  queryVars : stmt.queryVars = some vars
  columns : List.Forall₂ QueryVar stmt.queryInfo vars
  index_le : stmt.bufferRowIndex ≤ stmt.bufferRowCount
  cursor : stmt.cursor = rows.drop (base + stmt.bufferRowCount)
  elements : ∀ n, n < stmt.bufferRowCount → ∃ row, rows[base + n]? = some row ∧
    ∀ j var, vars[j]? = some var → Element var n (row j)

/-- The query was executed and nothing of it was fetched. -/
structure Executed (rows : List Row) (stmt : DpiStmt) : Prop where
  queryVars : stmt.queryVars = none
  count_le : stmt.bufferRowCount ≤ stmt.bufferRowIndex
  hasRowsToFetch : stmt.hasRowsToFetch = true
  cursor : stmt.cursor = rows

/-- The first `k` of the rows were handed out. -/
structure Fetching (rows : List Row) (k : Nat) (stmt : DpiStmt) : Prop where
  isQuery : stmt.statementType = .select
  rowCount : stmt.rowCount = k
  buffer : k = 0 ∧ Executed rows stmt ∨
    ∃ base vars, k = base + stmt.bufferRowIndex ∧ Buffered rows base stmt vars

/-- The buffer is at the row. -/
structure AtRow (row : Row) (stmt : DpiStmt) (vars : List DpiVar) : Prop where
  queryVars : stmt.queryVars = some vars
  columns : List.Forall₂ QueryVar stmt.queryInfo vars
  index_pos : 0 < stmt.bufferRowIndex
  index_le : stmt.bufferRowIndex ≤ stmt.bufferRowCount
  elements : ∀ j var, vars[j]? = some var → Element var (stmt.bufferRowIndex - 1) (row j)

section Fetch

variable {env : DpiEnv} {rows : List Row} {k : Nat} {stmt stmt' : DpiStmt}

theorem Buffered.atRow {base : Nat} {vars : List DpiVar} (h : Buffered rows base stmt vars)
    (hquery : stmt.statementType = .select) (hcount : stmt.rowCount = base + stmt.bufferRowIndex)
    {fetched : FetchedRow} (hnext : stmt.nextBufferRow = (fetched, stmt'))
    (hfound : fetched.found ≠ 0) :
    Fetching rows (base + stmt.bufferRowIndex + 1) stmt' ∧
      stmt'.queryInfo = stmt.queryInfo ∧
        ∃ row, rows[base + stmt.bufferRowIndex]? = some row ∧ AtRow row stmt' vars := by
  unfold DpiStmt.nextBufferRow at hnext
  split at hnext
  case isTrue =>
    cases hnext
    exact absurd rfl hfound
  case isFalse hlt =>
    cases hnext
    obtain ⟨row, hrow, helements⟩ := h.elements stmt.bufferRowIndex (by omega)
    refine ⟨⟨hquery, ?_, .inr ⟨base, vars, rfl, ?_⟩⟩, rfl, row, hrow, ?_⟩
    · exact congrArg (· + 1) hcount
    · exact ⟨h.queryVars, h.columns, by simp only; omega, h.cursor, h.elements⟩
    · exact ⟨h.queryVars, h.columns, by simp only; omega, by simp only; omega, helements⟩

theorem buffered_fetchBuffer (hcursor : stmt.cursor = rows.drop k)
    (hvars : ∀ vars, stmt.beforeFetch env = some vars →
      List.Forall₂ QueryVar stmt.queryInfo vars)
    (hfetch : stmt.fetchBuffer env = some stmt') :
    stmt'.bufferRowIndex = 0 ∧ stmt'.queryInfo = stmt.queryInfo ∧
      stmt'.statementType = stmt.statementType ∧ stmt'.rowCount = stmt.rowCount ∧
        ∃ vars, Buffered rows k stmt' vars := by
  simp only [DpiStmt.fetchBuffer, Option.bind_eq_bind, Option.bind_eq_some_iff] at hfetch
  rcases hfetch with ⟨vars, hbefore, vars', hcolumns, hstmt⟩
  cases hstmt
  have hroom : (stmt.cursor.take fetchArraySize).length ≤ fetchArraySize := by
    rw [List.length_take]
    omega
  obtain ⟨hforall, helements⟩ := fetchColumns_spec (hvars vars hbefore) hroom hcolumns
  refine ⟨rfl, rfl, rfl, rfl, vars', rfl, hforall, Nat.zero_le _, ?_, ?_⟩
  · simp only [hcursor, List.drop_drop, List.length_take, List.length_drop]
    rcases Nat.le_total fetchArraySize (rows.length - k) with hle | hle
    · rw [Nat.min_eq_left hle]
    · rw [List.drop_of_length_le (by omega), List.drop_of_length_le (by omega)]
  · intro n hn
    simp only [hcursor, List.length_take, List.length_drop] at hn
    have hrow : (stmt.cursor.take fetchArraySize)[n]? = rows[k + n]? := by
      rw [List.getElem?_take_of_lt (by omega), hcursor, List.getElem?_drop]
    have hlt : k + n < rows.length := by omega
    rw [List.getElem?_eq_getElem hlt] at hrow
    refine ⟨rows[k + n], List.getElem?_eq_getElem hlt, ?_⟩
    intro j var hj
    have helement := helements n _ hrow j var hj
    rwa [Nat.zero_add] at helement

theorem fetching_fetch (h : Fetching rows k stmt) {fetched : FetchedRow}
    (hfetch : stmt.fetch env = some (fetched, stmt')) (hfound : fetched.found ≠ 0) :
    Fetching rows (k + 1) stmt' ∧ stmt'.queryInfo = stmt.queryInfo ∧
      ∃ row vars, rows[k]? = some row ∧ AtRow row stmt' vars := by
  unfold DpiStmt.fetch at hfetch
  split at hfetch
  case isTrue hempty =>
    -- the rows of the buffer are used up, so the next batch starts at row `k`
    obtain ⟨filled, hfilled, hnext⟩ := Option.map_eq_some_iff.mp hfetch
    have hcursor : stmt.cursor = rows.drop k := by
      obtain ⟨rfl, hexecuted⟩ | ⟨base, vars, rfl, hbuffered⟩ := h.buffer
      · exact hexecuted.cursor
      · rw [hbuffered.cursor, Nat.le_antisymm hbuffered.index_le hempty.1]
    have hvars : ∀ vars, stmt.beforeFetch env = some vars →
        List.Forall₂ QueryVar stmt.queryInfo vars := by
      intro vars hbefore
      unfold DpiStmt.beforeFetch at hbefore
      obtain ⟨_, hexecuted⟩ | ⟨base, vars', _, hbuffered⟩ := h.buffer
      · rw [hexecuted.queryVars] at hbefore
        exact queryVars_createQueryVars hbefore
      · rw [hbuffered.queryVars] at hbefore
        cases hbefore
        exact hbuffered.columns
    obtain ⟨hindex, hinfo, htype, hcount, vars, hbuffered⟩ :=
      buffered_fetchBuffer hcursor hvars hfilled
    obtain ⟨hfetching, hinfo', row, hrow, hatRow⟩ := hbuffered.atRow (htype.trans h.isQuery)
      (by rw [hcount, h.rowCount, hindex, Nat.add_zero]) hnext hfound
    rw [hindex, Nat.add_zero] at hfetching hrow
    exact ⟨hfetching, hinfo'.trans hinfo, row, vars, hrow, hatRow⟩
  case isFalse hfull =>
    obtain ⟨_, hexecuted⟩ | ⟨base, vars, rfl, hbuffered⟩ := h.buffer
    · exact absurd ⟨hexecuted.count_le, hexecuted.hasRowsToFetch⟩ hfull
    · obtain ⟨hfetching, hinfo, row, hrow, hatRow⟩ := hbuffered.atRow h.isQuery h.rowCount
        (Option.some.inj hfetch) hfound
      exact ⟨hfetching, hinfo, row, vars, hrow, hatRow⟩

end Fetch

/-! ### The rows that the package reads -/

open OracleStatement

/-- What is read at a position of the current row. -/
def positionValue (s : Session) (pos : UInt32) : Outcome OracleError OracleData :=
  match s.stmt.getQueryValue pos (s.beyond s.stmt.rowCount (pos.toNat - 1)),
      s.stmt.getQueryInfo pos with
  | some value, some queryInfo =>
      match value.data with
      | some data => columnData value.nativeType queryInfo.typeInfo data value.memory
      | none => .error (.ofErrorInfo s.lastError)
  | _, _ => .error (.ofErrorInfo s.lastError)

/-- What is read of a column of the current row. -/
def columnValue (s : Session) (i : Nat) : Outcome OracleError OracleData := do
  let pos ← columnPosition i
  positionValue s pos

theorem columnValue_of_lt (s : Session) {i : Nat} (hi : i < 2147483647) :
    columnValue s i = positionValue s (UInt32.ofNat (i + 1)) := by
  rw [columnValue, columnPosition_of_lt hi]
  rfl

theorem run_data (s : Session) (statement : OracleStatement) (i : Nat) :
    s.run (statement.data i) = (columnValue s i, s) := by
  unfold columnValue
  refine (Session.run_bind s _ _).trans ?_
  rw [Session.run_ofOutcome]
  cases columnPosition i with
  | error e => rfl
  | trap => rfl
  | value pos =>
      change _ = (positionValue s pos, s)
      unfold positionValue
      generalize hvalue :
        s.stmt.getQueryValue pos (s.beyond s.stmt.rowCount (pos.toNat - 1)) = value
      generalize hinfo : s.stmt.getQueryInfo pos = info
      have hvalueCall :
          Session.answer (.dpi (.stmtGetQueryValue statement.handle pos)) s = (value, s) :=
        congrArg (·, s) hvalue
      have hinfoCall :
          Session.answer (.dpi (.stmtGetQueryInfo statement.handle pos)) s = (info, s) :=
        congrArg (·, s) hinfo
      refine (Session.run_perform_bind hvalueCall _).trans ?_
      cases value with
      | none => rfl
      | some value =>
          refine (Session.run_perform_bind hinfoCall _).trans ?_
          cases info with
          | none => rfl
          | some info =>
              rcases value with ⟨nativeType, data, memory⟩
              cases data with
              | none => rfl
              | some data => exact Session.run_ofOutcome s _

theorem columnValue_eq {s : Session} {row : Row} {vars : List DpiVar}
    (h : AtRow row s.stmt vars) {i : Nat} (hi : i < 2147483647) {info : QueryInfo}
    {var : DpiVar} {data : DpiData} (hinfo : s.stmt.queryInfo[i]? = some info)
    (hvar : vars[i]? = some var)
    (hdata : var.externalData[s.stmt.bufferRowIndex - 1]? = some data) :
    columnValue s i = columnData var.nativeType info.typeInfo data
      (var.elementMemory (s.stmt.bufferRowIndex - 1) ++ s.beyond s.stmt.rowCount i) := by
  have hlt : i + 1 < 4294967296 := by omega
  have hpos := UInt32.toNat_ofNat_of_lt' hlt
  have hvars : i < vars.length := by
    rw [List.getElem?_eq_some_iff] at hvar
    exact hvar.1
  have hinfos : i < s.stmt.queryInfo.length := by
    rw [List.getElem?_eq_some_iff] at hinfo
    exact hinfo.1
  have hvalue : s.stmt.getQueryValue (UInt32.ofNat (i + 1)) (s.beyond s.stmt.rowCount i) =
      some ⟨var.nativeType, some data,
        var.elementMemory (s.stmt.bufferRowIndex - 1) ++ s.beyond s.stmt.rowCount i⟩ := by
    have hindex := h.index_pos
    have hcount := h.index_le
    simp only [DpiStmt.getQueryValue, h.queryVars]
    rw [if_neg (not_or.mpr ⟨ofNat_succ_ne_zero hlt, by omega⟩), if_neg (by omega), hpos,
      Nat.add_sub_cancel, hvar, Option.map_some, hdata]
  have hinfo' : s.stmt.getQueryInfo (UInt32.ofNat (i + 1)) = some info := by
    rw [DpiStmt.getQueryInfo, if_neg (not_or.mpr ⟨ofNat_succ_ne_zero hlt, by omega⟩), hpos,
      Nat.add_sub_cancel, hinfo]
  rw [columnValue_of_lt s hi, positionValue, hpos, Nat.add_sub_cancel, hvalue, hinfo']

theorem getElem?_of_forall₂ {α β : Type} {R : α → β → Prop} {xs : List α} {ys : List β}
    (h : List.Forall₂ R xs ys) {i : Nat} {y : β} (hy : ys[i]? = some y) :
    ∃ x, xs[i]? = some x ∧ R x y := by
  induction h generalizing i with
  | nil => simp at hy
  | cons hxy hrest ih =>
      cases i with
      | zero =>
          obtain rfl := by simpa using hy
          exact ⟨_, rfl, hxy⟩
      | succ i => exact ih (by simpa using hy)

theorem column_of_columnValue {s : Session} {row : Row} {vars : List DpiVar}
    (h : AtRow row s.stmt vars) {i : Nat} {d : OracleData}
    (hd : columnValue s i = .value d) :
    ∃ info var data, i < 2147483647 ∧ s.stmt.queryInfo[i]? = some info ∧
      vars[i]? = some var ∧ QueryVar info var ∧
        Element var (s.stmt.bufferRowIndex - 1) (row i) ∧
          var.externalData[s.stmt.bufferRowIndex - 1]? = some data ∧
            columnData var.nativeType info.typeInfo data
              (var.elementMemory (s.stmt.bufferRowIndex - 1) ++
                s.beyond s.stmt.rowCount i) = .value d := by
  by_cases hi : i < 2147483647
  · cases hvar : vars[i]? with
    | none =>
        have hvars : vars.length ≤ i := List.getElem?_eq_none_iff.mp hvar
        have hlt : i + 1 < 4294967296 := by omega
        have hpos := UInt32.toNat_ofNat_of_lt' hlt
        have hvalue : ∀ beyond,
            s.stmt.getQueryValue (UInt32.ofNat (i + 1)) beyond = none := by
          intro beyond
          simp only [DpiStmt.getQueryValue, h.queryVars]
          rw [if_pos (.inr (by omega))]
        rw [columnValue_of_lt s hi, positionValue, hvalue] at hd
        cases hd
    | some var =>
        obtain ⟨info, hinfo, hquery⟩ := getElem?_of_forall₂ h.columns hvar
        have helement := h.elements i var hvar
        obtain ⟨data, hdata⟩ : ∃ data, var.externalData[s.stmt.bufferRowIndex - 1]? =
            some data := by
          have hread := helement.data
          cases hrow : row i with
          | none =>
              rw [hrow] at hread
              rcases hread with ⟨buffer, hbuffer⟩
              exact ⟨_, hbuffer⟩
          | some value =>
              rw [hrow] at hread
              rcases hread with ⟨buffer, _, hbuffer⟩
              exact ⟨_, hbuffer⟩
        refine ⟨info, var, data, hi, hinfo, rfl, hquery, helement, hdata, ?_⟩
        rw [← columnValue_eq h hi hinfo hvar hdata]
        exact hd
  · rw [columnValue, columnPosition_overflow hi] at hd
    cases hd

/-! ### Runs of `nextRow` -/

theorem run_collect {α : Type} {s s' : Session} {f : Nat → Task α}
    {value : Nat → Outcome OracleError α} (hf : ∀ i, s.run (f i) = (value i, s)) {xs : List Nat}
    {as : List α} (hrun : s.run (collect f xs) = (.value as, s')) :
    s' = s ∧ List.Forall₂ (fun i a => value i = .value a) xs as := by
  induction xs generalizing as s' with
  | nil =>
      cases hrun
      exact ⟨rfl, .nil⟩
  | cons x xs ih =>
      obtain ⟨a, s₁, hfirst, hrest⟩ := exec_bind_eq_value.mp hrun
      obtain ⟨rest, s₂, hrest, hreturn⟩ := exec_bind_eq_value.mp hrest
      obtain ⟨hvalue, rfl⟩ := Prod.mk.inj ((hf x).symm.trans hfirst)
      obtain ⟨rfl, hvalues⟩ := ih hrest
      cases hreturn
      exact ⟨rfl, .cons hvalue hvalues⟩

theorem run_collect_value {α : Type} {s : Session} {f : Nat → Task α}
    {value : Nat → Outcome OracleError α} (hf : ∀ i, s.run (f i) = (value i, s)) {xs : List Nat}
    {as : List α} (h : List.Forall₂ (fun i a => value i = .value a) xs as) :
    s.run (collect f xs) = (.value as, s) := by
  induction h with
  | nil => rfl
  | @cons x a xs as hx _ ih =>
      have hfirst : s.run (f x) = (.value a, s) := by rw [hf, hx]
      refine (Session.run_bind_value hfirst _).trans ?_
      exact Session.run_bind_value ih _

theorem run_nextRow_fetched {s : Session} (statement : OracleStatement)
    (columns : OracleColumnOffsets) {fetched : FetchedRow} {stmt : DpiStmt}
    (hfetch : s.stmt.fetch s.env = some (fetched, stmt)) :
    s.run (statement.nextRow columns) = Session.run { s with stmt }
      (if fetched.found = 0 then statement.cleanup >>= fun _ => .pure none
      else collect statement.data (List.range stmt.getNumQueryColumns.toNat) >>= fun row =>
        .pure (some (⟨columns, row⟩ : OracleRow))) := by
  have hcall := Session.answer_fetch_some statement.handle hfetch
  refine (Session.run_perform_bind hcall _).trans ?_
  change Session.run { s with stmt } (if fetched.found = 0 then _ else _) = _
  by_cases hfound : fetched.found = 0
  · rw [if_pos hfound, if_pos hfound]
    rfl
  · rw [if_neg hfound, if_neg hfound]
    rfl

/-- A row that `nextRow` returns was read, column by column, where the fetch had left the
buffer. -/
theorem run_nextRow {s s' : Session} {statement : OracleStatement}
    {columns : OracleColumnOffsets} {result : OracleRow}
    (hrun : s.run (statement.nextRow columns) = (.value (some result), s')) :
    ∃ fetched stmt, s.stmt.fetch s.env = some (fetched, stmt) ∧ fetched.found ≠ 0 ∧
      s' = { s with stmt } ∧
        ∀ i d, result.data[i]? = some d → columnValue s' i = .value d := by
  cases hfetch : s.stmt.fetch s.env with
  | none =>
      have hcall := Session.answer_fetch_none statement.handle hfetch
      have hthrow := (Session.run_perform_bind hcall _).symm.trans hrun
      cases hthrow
  | some fetch =>
      rcases fetch with ⟨fetched, stmt⟩
      rw [run_nextRow_fetched statement columns hfetch] at hrun
      by_cases hfound : fetched.found = 0
      · rw [if_pos hfound] at hrun
        obtain ⟨_, _, _, hreturn⟩ := exec_bind_eq_value.mp hrun
        cases hreturn
      · rw [if_neg hfound] at hrun
        obtain ⟨row, s₁, hrow, hreturn⟩ := exec_bind_eq_value.mp hrun
        obtain ⟨rfl, hvalues⟩ := run_collect (run_data _ statement) hrow
        cases hreturn
        refine ⟨fetched, stmt, rfl, hfound, rfl, ?_⟩
        intro i d hd
        obtain ⟨x, hx, hxd⟩ := getElem?_of_forall₂ hvalues hd
        obtain ⟨_, rfl⟩ := List.getElem?_eq_some_iff.mp hx
        simpa using hxd

theorem run_nextRow_value {s : Session} {statement : OracleStatement}
    {columns : OracleColumnOffsets} {fetched : FetchedRow} {stmt : DpiStmt}
    {data : List OracleData} (hfetch : s.stmt.fetch s.env = some (fetched, stmt))
    (hfound : fetched.found ≠ 0)
    (hdata : List.Forall₂ (fun i d => columnValue { s with stmt } i = .value d)
      (List.range stmt.getNumQueryColumns.toNat) data) :
    s.run (statement.nextRow columns) = (.value (some ⟨columns, data⟩), { s with stmt }) := by
  rw [run_nextRow_fetched statement columns hfetch, if_neg hfound]
  exact Session.run_bind_value (run_collect_value (run_data _ statement) hdata) _

/-- A fetch of rows by the loop of the task: each row with the session in which it was
read. -/
inductive Fetched (statement : OracleStatement) (columns : OracleColumnOffsets) :
    Session → List (OracleRow × Session) → Session → Prop
  | nil (s) : Fetched statement columns s [] s
  | next {s s' s'' result results} :
      s.run (statement.nextRow columns) = (.value (some result), s') →
        Fetched statement columns s' results s'' →
          Fetched statement columns s ((result, s') :: results) s''

theorem atRow_of_fetched {statement : OracleStatement} {columns : OracleColumnOffsets}
    {rows : List Row} {s s' : Session} {results : List (OracleRow × Session)}
    (hrun : Fetched statement columns s results s') {base : Nat}
    (hs : Fetching rows base s.stmt) {k : Nat} {result : OracleRow} {reading : Session}
    (hk : results[k]? = some (result, reading)) :
    ∃ row vars, rows[base + k]? = some row ∧ AtRow row reading.stmt vars ∧
      reading.stmt.queryInfo = s.stmt.queryInfo ∧
        ∀ i d, result.data[i]? = some d → columnValue reading i = .value d := by
  induction hrun generalizing base k with
  | nil => simp at hk
  | next hnext _ ih =>
      obtain ⟨fetched, stmt, hfetch, hfound, rfl, hvalues⟩ := run_nextRow hnext
      obtain ⟨hfetching, hinfo, row, vars, hrow, hatRow⟩ := fetching_fetch hs hfetch hfound
      cases k with
      | zero =>
          cases hk
          exact ⟨row, vars, hrow, hatRow, hinfo, hvalues⟩
      | succ k =>
          obtain ⟨row', vars', hrow', hatRow', hinfo', hvalues'⟩ :=
            ih hfetching (by simpa using hk)
          rw [show base + 1 + k = base + (k + 1) by omega] at hrow'
          exact ⟨row', vars', hrow', hatRow', hinfo'.trans hinfo, hvalues'⟩

theorem fetching_of_fetched {statement : OracleStatement} {columns : OracleColumnOffsets}
    {rows : List Row} {s s' : Session} {results : List (OracleRow × Session)}
    (hrun : Fetched statement columns s results s') {base : Nat}
    (hs : Fetching rows base s.stmt) :
    Fetching rows (base + results.length) s'.stmt ∧ s'.stmt.queryInfo = s.stmt.queryInfo := by
  induction hrun generalizing base with
  | nil => exact ⟨hs, rfl⟩
  | next hnext _ ih =>
      obtain ⟨fetched, stmt, hfetch, hfound, rfl, _⟩ := run_nextRow hnext
      obtain ⟨hfetching, hinfo, _⟩ := fetching_fetch hs hfetch hfound
      obtain ⟨hfetching', hinfo'⟩ := ih hfetching
      rw [List.length_cons, Nat.add_comm _ 1, ← Nat.add_assoc]
      exact ⟨hfetching', hinfo'.trans hinfo⟩

/-- `dpiStmt_fetch` finds a row. -/
def Finds (statement : OracleStatement) (s reading : Session) : Prop :=
  ∃ fetched : FetchedRow, fetched.found ≠ 0 ∧
    Session.answer (.dpi (.stmtFetch statement.handle)) s = (some fetched, reading)

theorem atRow_of_finds {statement : OracleStatement} {s reading : Session} {rows : List Row}
    {k : Nat} (hs : Fetching rows k s.stmt) (h : Finds statement s reading) :
    ∃ row vars, rows[k]? = some row ∧ AtRow row reading.stmt vars ∧
      reading.stmt.queryInfo = s.stmt.queryInfo := by
  rcases h with ⟨fetched, hfound, hanswer⟩
  cases hfetch : s.stmt.fetch s.env with
  | none =>
      rw [Session.answer_fetch_none statement.handle hfetch] at hanswer
      cases hanswer
  | some fetch =>
      rcases fetch with ⟨fetched', stmt⟩
      rw [Session.answer_fetch_some statement.handle hfetch] at hanswer
      cases hanswer
      obtain ⟨_, hinfo, row, vars, hrow, hatRow⟩ := fetching_fetch hs hfetch hfound
      exact ⟨row, vars, hrow, hatRow, hinfo⟩

/-- A query that has not been executed. -/
structure Prepared (stmt : DpiStmt) : Prop where
  isQuery : stmt.statementType = .select
  queryVars : stmt.queryVars = none
  bufferRowCount : stmt.bufferRowCount = 0

theorem fetching_execute {s s' : Session} {statement : OracleStatement}
    (h : Prepared s.stmt) (hrun : s.run statement.execute = (.value (), s')) :
    Fetching s.stmt.cursor 0 s'.stmt ∧ s'.stmt.queryInfo = s.stmt.queryInfo := by
  cases hexecute : s.stmt.execute s.env with
  | none =>
      have hcall := Session.answer_execute_none statement.handle hexecute 0
      have hthrow := (Session.run_perform_bind hcall _).symm.trans hrun
      cases hthrow
  | some stmt =>
      have hcall := Session.answer_execute_some statement.handle hexecute 0
      have hrest := (Session.run_perform_bind hcall _).symm.trans hrun
      cases hrest
      simp only [DpiStmt.execute, Option.bind_eq_bind, Option.bind_eq_some_iff, h.isQuery,
        if_true] at hexecute
      rcases hexecute with ⟨_, _, hstmt⟩
      cases hstmt
      refine ⟨⟨rfl, rfl, .inl ⟨rfl, h.queryVars, ?_, rfl, rfl⟩⟩, rfl⟩
      rw [h.bufferRowCount]
      exact Nat.zero_le _

end OracleNIO.FetchedRows