import OracleNIO.FetchedRows

/-!
Character columns of fetched rows: the text that is read at the place of a value.
-/

namespace OracleNIO.TextColumns

open Interaction Prog SwiftRuntime ByteMemory Dpi FetchedRows OracleStatement

/-- The column is decoded to a text. -/
structure IsText (info : QueryInfo) : Prop where
  nativeType : info.typeInfo.defaultNativeType = some .bytes
  oracleType : ¬ (info.typeInfo.oracleType = some .raw ∨ info.typeInfo.oracleType = some .longRaw)

/-- Where the bytes of the element start in its memory. -/
def elementAddress (var : DpiVar) (n : Nat) : Nat :=
  if var.isDynamic then 0 else n * var.sizeInBytes

/-- The memory that is read for the value. -/
def readMemory (s : Session) (var : DpiVar) (i : Nat) : List UInt8 :=
  var.elementMemory (s.stmt.bufferRowIndex - 1) ++ s.beyond s.stmt.rowCount i

/-- The byte that follows the current value of a column, when it has `length` bytes. -/
def byteBehind (s : Session) (i length : Nat) : Option UInt8 :=
  ((s.stmt.queryVars.getD [])[i]?).bind fun var =>
    (readMemory s var i)[elementAddress var (s.stmt.bufferRowIndex - 1) + length]?

/-- The value is text in UTF-8 without a zero byte and with a zero byte behind it. -/
def Terminated (s : Session) (i : Nat) (bytes : List UInt8) : Prop :=
  (0 : UInt8) ∉ bytes ∧ byteBehind s i bytes.length = some 0

section Read

variable {s : Session} {var : DpiVar} {bytes : List UInt8}

theorem drop_readMemory (h : BytesAt var (s.stmt.bufferRowIndex - 1) bytes) (i : Nat) :
    (readMemory s var i).drop (elementAddress var (s.stmt.bufferRowIndex - 1)) =
      bytes ++ (readMemory s var i).drop
        (elementAddress var (s.stmt.bufferRowIndex - 1) + bytes.length) := by
  unfold BytesAt at h
  unfold readMemory elementAddress DpiVar.elementMemory
  cases hdynamic : var.isDynamic with
  | true =>
      rw [hdynamic, if_pos rfl] at h
      simp [h]
  | false =>
      rw [hdynamic] at h
      rcases h with ⟨hroom, hread⟩
      exact drop_of_read hroom hread _

theorem fetchedBuffer_bytes {n : Nat} {buffer : DpiDataBuffer} (hnative : var.nativeType = .bytes)
    (h : var.fetchedBuffer n (.bytes bytes) = some buffer) :
    buffer = .asBytes ⟨some (elementAddress var n), UInt32.ofNat bytes.length⟩ := by
  unfold DpiVar.fetchedBuffer at h
  rw [hnative] at h
  unfold elementAddress
  cases hdynamic : var.isDynamic with
  | true =>
      rw [hdynamic] at h
      exact (Option.some.inj h).symm
  | false =>
      rw [hdynamic] at h
      simp only [Bool.false_eq_true, if_false] at h ⊢
      split at h
      · cases h
      · exact (Option.some.inj h).symm

theorem columnData_text {info : QueryInfo} (h : IsText info) (isNull : Bool) (ptr : Nat)
    (length : UInt32) (memory : List UInt8) :
    columnData .bytes info.typeInfo ⟨isNull, .asBytes ⟨some ptr, length⟩⟩ memory = (do
      let text ← stringOfCString memory ptr
      return .text text) := by
  have htype : dataType .bytes info.typeInfo = .value .text := if_neg h.oracleType
  rw [columnData, htype]
  rfl

theorem stringOfCString_of_terminated {i : Nat} {vars : List DpiVar}
    (hvars : s.stmt.queryVars = some vars) (hvar : vars[i]? = some var)
    (hbytes : BytesAt var (s.stmt.bufferRowIndex - 1) bytes) (h : Terminated s i bytes) :
    stringOfCString (readMemory s var i) (elementAddress var (s.stmt.bufferRowIndex - 1)) =
      .value (String.ofList (decode bytes)) := by
  rcases h with ⟨hzero, hbehind⟩
  rw [byteBehind, hvars, Option.getD_some, hvar, Option.bind_some] at hbehind
  rw [stringOfCString, drop_readMemory hbytes]
  rw [← List.head?_drop] at hbehind
  obtain ⟨rest, hrest⟩ := List.head?_eq_some_iff.mp hbehind
  rw [hrest, cString_append_zero hzero]

theorem terminated_of_stringOfCString {i : Nat} {vars : List DpiVar} {cs : List Char}
    (hvars : s.stmt.queryVars = some vars) (hvar : vars[i]? = some var)
    (hbytes : BytesAt var (s.stmt.bufferRowIndex - 1) (encode cs))
    (h : stringOfCString (readMemory s var i)
      (elementAddress var (s.stmt.bufferRowIndex - 1)) = .value (String.ofList cs)) :
    Terminated s i (encode cs) := by
  rw [stringOfCString, drop_readMemory hbytes] at h
  cases hstring : cString (encode cs ++ (readMemory s var i).drop
      (elementAddress var (s.stmt.bufferRowIndex - 1) + (encode cs).length)) with
  | none =>
      rw [hstring] at h
      cases h
  | some string =>
      rw [hstring] at h
      have hdecode : decode string = cs := by
        have htext := Outcome.value.inj h
        exact String.ofList_injective htext
      obtain ⟨hzero, hhead⟩ := (decode_cString_iff cs _).mp ⟨string, hstring, hdecode⟩
      refine ⟨hzero, ?_⟩
      rw [byteBehind, hvars, Option.getD_some, hvar, Option.bind_some, ← List.head?_drop]
      exact hhead

end Read

/-- Over a whole fetch of an executed query: the text that is returned for a character
column is that of the bytes of the value if the value, in the memory that it is read
from, has no zero byte in it and a zero byte behind it; for a value in UTF-8, only
then. -/
theorem text_iff_terminated {s s₁ s₂ : Session} {statement : OracleStatement}
    {columns : OracleColumnOffsets} {results : List (OracleRow × Session)}
    (hs : Prepared s.stmt) (hexecute : s.run statement.execute = (.value (), s₁))
    (hfetch : Fetched statement columns s₁ results s₂) {k i : Nat} {result : OracleRow}
    {reading : Session} {d : OracleData} (hk : results[k]? = some (result, reading))
    (hi : result.data[i]? = some d) {info : QueryInfo}
    (hinfo : s.stmt.queryInfo[i]? = some info) (htext : IsText info) :
    ∃ row, s.stmt.cursor[k]? = some row ∧ ∀ bytes, row i = some (.bytes bytes) →
      (Terminated reading i bytes → d = .text (String.ofList (decode bytes))) ∧
        ∀ cs, bytes = encode cs → d = .text (String.ofList (decode bytes)) →
          Terminated reading i bytes := by
  obtain ⟨hfetching, hinfos⟩ := fetching_execute hs hexecute
  obtain ⟨row, vars, hrow, hatRow, hinfos', hvalues⟩ := atRow_of_fetched hfetch hfetching hk
  obtain ⟨info', var, data, _, hinfo', hvar, hquery, helement, hdata, hd⟩ :=
    column_of_columnValue hatRow (hvalues i d hi)
  obtain rfl : info = info' := by
    rw [hinfos', hinfos, hinfo] at hinfo'
    exact Option.some.inj hinfo'
  rw [Nat.zero_add] at hrow
  refine ⟨row, hrow, ?_⟩
  intro bytes hbytes
  obtain ⟨buffer, hbuffer, hdata'⟩ : DataAt var (reading.stmt.bufferRowIndex - 1)
      (some (.bytes bytes)) := hbytes ▸ helement.data
  have hbytesAt := helement.bytes bytes hbytes
  have hnative : var.nativeType = .bytes :=
    Option.some.inj (hquery.nativeType.symm.trans htext.nativeType)
  obtain rfl : data = ⟨false, buffer⟩ := Option.some.inj (hdata.symm.trans hdata')
  rw [fetchedBuffer_bytes hnative hbuffer, hnative, columnData_text htext] at hd
  obtain ⟨text, hstring, hvalue⟩ := Outcome.bind_eq_value.mp hd
  obtain rfl : OracleData.text text = d := Outcome.value.inj hvalue
  constructor
  · intro hterminated
    have hread := stringOfCString_of_terminated hatRow.queryVars hvar hbytesAt hterminated
    rw [Outcome.value.inj (hstring.symm.trans hread)]
  · rintro cs rfl heq
    rw [decode_encode] at heq
    obtain rfl : text = String.ofList cs := OracleData.text.inj heq
    exact terminated_of_stringOfCString hatRow.queryVars hvar hbytesAt hstring

/-- A query of one column of texts, with these values. -/
def textQuery (values : List (List UInt8)) : Session :=
  newSession (.prepared .select [⟨[84], ⟨some .varchar, some .bytes, 2⟩⟩]
    (values.map fun value _ => some (.bytes value)))

/-- The row that is fetched holds the text. -/
def Returns (s : Session) (text : String) (s₁ s₂ : Session) : Prop :=
  s.run (OracleStatement.execute ⟨⟨3⟩, []⟩) = (.value (), s₁) ∧
    Fetched ⟨⟨3⟩, []⟩ ⟨[("T", 0)]⟩ s₁ [(⟨⟨[("T", 0)]⟩, [.text text]⟩, s₂)] s₂

theorem returns_a : ∃ s₁ s₂, Returns (textQuery [utf8 "a"]) "a" s₁ s₂ := by
  refine ⟨_, _, rfl, .next (run_nextRow_value rfl (by decide) (.cons ?_ .nil)) (.nil _)⟩
  rw [columnValue_of_lt _ (by decide)]
  decide +kernel

theorem returns_abcd : ∃ s₁ s₂, Returns (textQuery [utf8 "ab", utf8 "cd"]) "abcd" s₁ s₂ := by
  refine ⟨_, _, rfl, .next (run_nextRow_value rfl (by decide) (.cons ?_ .nil)) (.nil _)⟩
  rw [columnValue_of_lt _ (by decide)]
  decide +kernel

theorem text_iff_terminated_a :
    ∃ reading row, (textQuery [utf8 "a"]).stmt.cursor[0]? = some row ∧
      ∀ bytes, row 0 = some (.bytes bytes) →
        (Terminated reading 0 bytes →
          OracleData.text "a" = .text (String.ofList (decode bytes))) ∧
        ∀ cs, bytes = encode cs → OracleData.text "a" = .text (String.ofList (decode bytes)) →
          Terminated reading 0 bytes := by
  rcases returns_a with ⟨s₁, s₂, hexecute, hfetch⟩
  exact ⟨s₂, text_iff_terminated ⟨rfl, rfl, rfl⟩ hexecute hfetch (k := 0) rfl (i := 0) rfl rfl
    ⟨rfl, by decide⟩⟩

/-- Where the values fill their elements, the first one is returned with the next row's
value behind it. -/
theorem not_text_abcd :
    ∃ (s s₁ s₂ : Session) (result : OracleRow) (row : Row) (d : OracleData),
      Prepared s.stmt ∧ s.run (OracleStatement.execute ⟨⟨3⟩, []⟩) = (.value (), s₁) ∧
        Fetched ⟨⟨3⟩, []⟩ ⟨[("T", 0)]⟩ s₁ [(result, s₂)] s₂ ∧ s.stmt.cursor[0]? = some row ∧
          result.data[0]? = some d ∧ row 0 = some (.bytes (utf8 "ab")) ∧ d = .text "abcd" ∧
            d ≠ .text (String.ofList (decode (utf8 "ab"))) := by
  rcases returns_abcd with ⟨s₁, s₂, hexecute, hfetch⟩
  exact ⟨textQuery [utf8 "ab", utf8 "cd"], s₁, s₂, _, _, .text "abcd", ⟨rfl, rfl, rfl⟩,
    hexecute, hfetch, rfl, rfl, rfl, rfl, by decide⟩

end OracleNIO.TextColumns
