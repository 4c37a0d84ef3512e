import OracleNIO.OdpiSession

/-!
Which values can be bound: the variable that a position is bound to after a bind that
returned, for each kind of value.
-/

namespace OracleNIO.BoundValues

open Interaction Prog SwiftRuntime CivilCalendar ByteMemory GraphemeClusters Dpi
open OracleStatement

/-- The hours of the offset fit the field that they are written to. -/
def HoursFit (offset : Int) : Prop :=
  -128 ≤ offset.tdiv 3600 ∧ offset.tdiv 3600 ≤ 127

instance (offset : Int) : Decidable (HoursFit offset) :=
  inferInstanceAs (Decidable (_ ∧ _))

/-- The civil time with the year that its components carry. -/
def componentTime (t : CivilTime) : CivilTime :=
  { t with date := { t.date with year := yearOfEra t.date.year } }

theorem encodeTimestamp_eq (rt : Runtime) (d : Date) (offset : Int) :
    ∃ timestamp : Int16 → Int8 → DpiTimestamp,
      encodeTimestamp rt d (dateComponents rt.timeZone d) offset = (do
        let year ← int16 (yearOfEra (rt.timeZone.civilTime d).date.year)
        let hours ← int8 (offset.tdiv 3600)
        return timestamp year hours) ∧
      (∀ year hours, year.toInt = yearOfEra (rt.timeZone.civilTime d).date.year →
        civilTime (timestamp year hours) = componentTime (rt.timeZone.civilTime d)) ∧
        ∀ year hours, (timestamp year hours).tzHourOffset = hours ∧
          (timestamp year hours).tzMinuteOffset.toInt = ((offset.tdiv 60).natAbs % 60 : Nat) := by
  obtain ⟨hmonth, hday, hhour, hminute, hsecond, hnanosecond⟩ :=
    inRange_civilTime rt.timeZone d
  generalize ht : rt.timeZone.civilTime d = t at *
  obtain ⟨month, hmonth, hmonth'⟩ :=
    uint8_of_range OracleError t.date.month ⟨by omega, by omega⟩
  obtain ⟨day, hday, hday'⟩ :=
    uint8_of_range OracleError t.date.day ⟨by omega, by omega⟩
  obtain ⟨hour, hhour, hhour'⟩ :=
    uint8_of_range OracleError t.hour ⟨by omega, by omega⟩
  obtain ⟨minute, hminute, hminute'⟩ :=
    uint8_of_range OracleError t.minute ⟨by omega, by omega⟩
  obtain ⟨second, hsecond, hsecond'⟩ :=
    uint8_of_range OracleError t.second ⟨by omega, by omega⟩
  obtain ⟨fsecond, hfsecond, hfsecond'⟩ :=
    uint32_of_range OracleError t.nanosecond ⟨by omega, by omega⟩
  obtain ⟨minutes, hminutes, hminutes'⟩ := int8_of_range OracleError
    ((offset.tdiv 60).natAbs % 60 : Nat) ⟨by omega, by omega⟩
  refine ⟨fun year hours =>
    ⟨year, month, day, hour, minute, second, fsecond, hours, minutes⟩, ?_, ?_, ?_⟩
  · simp only [encodeTimestamp, dateComponents, ht, hmonth, hday, hhour, hminute, hsecond,
      hfsecond, hminutes]
    rfl
  · intro year hours hyear
    simp only [OracleStatement.civilTime, componentTime, hyear, hmonth', hday', hhour',
      hminute', hsecond', hfsecond']
  · intro year hours
    exact ⟨rfl, hminutes'⟩

theorem encodeTimestamp_value (rt : Runtime) (d : Date) {offset : Int}
    (hyear : yearOfEra (rt.timeZone.civilTime d).date.year ≤ 32767)
    (hhours : HoursFit offset) :
    ∃ timestamp, encodeTimestamp rt d (dateComponents rt.timeZone d) offset =
        .value timestamp ∧
      civilTime timestamp = componentTime (rt.timeZone.civilTime d) ∧
        timestamp.tzHourOffset.toInt = offset.tdiv 3600 ∧
          timestamp.tzMinuteOffset.toInt = ((offset.tdiv 60).natAbs % 60 : Nat) := by
  obtain ⟨timestamp, heq, hcivil, hoffset⟩ := encodeTimestamp_eq rt d offset
  have hyear₀ : -32768 ≤ yearOfEra (rt.timeZone.civilTime d).date.year := by
    unfold yearOfEra
    split <;> omega
  obtain ⟨year, hyear, hyear'⟩ := int16_of_range OracleError _ ⟨hyear₀, hyear⟩
  obtain ⟨hours, hhours, hhours'⟩ := int8_of_range OracleError _ hhours
  obtain ⟨hhour, hminute⟩ := hoffset year hours
  refine ⟨timestamp year hours, ?_, hcivil year hours hyear', ?_, hminute⟩
  · rw [heq, hyear, hhours]
    rfl
  · rw [hhour, hhours']

theorem encodeTimestamp_trap (rt : Runtime) (d : Date) {offset : Int}
    (h : ¬ (yearOfEra (rt.timeZone.civilTime d).date.year ≤ 32767 ∧ HoursFit offset)) :
    encodeTimestamp rt d (dateComponents rt.timeZone d) offset = .trap := by
  obtain ⟨timestamp, heq, _⟩ := encodeTimestamp_eq rt d offset
  rw [heq]
  by_cases hyear : -32768 ≤ yearOfEra (rt.timeZone.civilTime d).date.year ∧
      yearOfEra (rt.timeZone.civilTime d).date.year ≤ 32767
  · obtain ⟨year, hyear', _⟩ := int16_of_range OracleError _ hyear
    rw [hyear', int8_trap fun hhours => h ⟨hyear.2, hhours⟩]
    rfl
  · rw [int16_trap hyear]
    rfl

theorem encodeTimestamp_ne_error (rt : Runtime) (d : Date) (offset : Int) (e : OracleError) :
    encodeTimestamp rt d (dateComponents rt.timeZone d) offset ≠ .error e := by
  by_cases h : yearOfEra (rt.timeZone.civilTime d).date.year ≤ 32767 ∧ HoursFit offset
  · obtain ⟨timestamp, htimestamp, _⟩ := encodeTimestamp_value rt d h.1 h.2
    simp [htimestamp]
  · simp [encodeTimestamp_trap rt d h]

/-- The statement after a bind of the variable. -/
def withBound (stmt : DpiStmt) (pos : UInt32) (var : DpiVar) : DpiStmt :=
  { stmt with bindVars := DpiStmt.insertBindVar pos var stmt.bindVars }

theorem bindValueByPos_data (env : DpiEnv) (stmt : DpiStmt) {pos : UInt32} (hpos : pos ≠ 0)
    {nativeType : NativeType} (value : DpiDataBuffer) (memory : List UInt8)
    (h : nativeType = .int64 ∨ nativeType = .double ∨ nativeType = .timestamp) :
    ∃ var, stmt.bindValueByPos env pos nativeType ⟨false, value⟩ memory =
        some (withBound stmt pos var) ∧
      var.externalData = [⟨false, value⟩] ∧ var.nativeType = nativeType ∧
        var.type = if nativeType = .timestamp then .timestamp else .number := by
  rcases h with rfl | rfl | rfl
  · exact ⟨_, if_neg hpos, rfl, rfl, rfl⟩
  · exact ⟨_, if_neg hpos, rfl, rfl, rfl⟩
  · exact ⟨_, if_neg hpos, rfl, rfl, rfl⟩

theorem allocate_varchar (env : DpiEnv) (length : UInt32) (uninitialised : Nat → UInt8) :
    DpiVar.allocate env .varchar .bytes 1 length true false false uninitialised = some
      (if length.toNat ≤ 32767 then
        { type := .varchar
          nativeType := .bytes
          maxArraySize := 1
          sizeInBytes := max 1 length.toNat
          isDynamic := false
          externalData := [⟨true, .asBytes ⟨some 0, 0⟩⟩]
          memory := (List.range (max 1 length.toNat)).map uninitialised
          dynamicBytes := []
          lobs := [] }
      else
        { type := .varchar
          nativeType := .bytes
          maxArraySize := 1
          sizeInBytes := 0
          isDynamic := true
          externalData := [⟨true, .asBytes ⟨none, 0⟩⟩]
          memory := []
          dynamicBytes := [[]]
          lobs := [] }) := by
  have hsize : elementSize env .varchar length.toNat true = max 1 length.toNat := by
    simp only [elementSize, OracleType.sizeInBytes, Bool.true_or, ne_eq, not_true_eq_false,
      if_true, if_false]
    split <;> omega
  have hone : (1 : UInt32).toNat = 1 := rfl
  unfold DpiVar.allocate
  simp only [hsize, hone]
  by_cases hlength : length.toNat ≤ 32767
  · have hmax : ¬ OracleType.maxBasicBufferSize < max 1 length.toNat := by
      simp only [OracleType.maxBasicBufferSize]
      omega
    have hint : ¬ intMax < max 1 length.toNat := by
      simp only [intMax]
      omega
    simp [hlength, hmax, hint, DpiVar.initBuffer, DpiVar.initialData,
      OracleType.defaultNativeType]
  · have hmax : OracleType.maxBasicBufferSize < max 1 length.toNat := by
      simp only [OracleType.maxBasicBufferSize]
      omega
    simp [hlength, hmax, DpiVar.initBuffer, DpiVar.initialData, OracleType.defaultNativeType]

theorem allocatedLength_lt_iff (length : UInt32) :
    DpiVar.allocatedLength length.toNat < length.toNat ↔ 4294901760 < length.toNat := by
  have hlength := length.toNat_lt
  simp only [DpiVar.allocatedLength, DpiVar.dynamicBytesChunkSize]
  omega

theorem bindValueByPos_bytes (env : DpiEnv) (stmt : DpiStmt) {pos : UInt32} (hpos : pos ≠ 0)
    {memory : List UInt8} {length : UInt32} (hmemory : length.toNat ≤ memory.length)
    (hlength : length.toNat ≤ 4294901760) :
    ∃ var, stmt.bindValueByPos env pos .bytes ⟨false, .asBytes ⟨some 0, length⟩⟩ memory =
        some (withBound stmt pos var) ∧
      (∀ data ∈ var.externalData, data.isNull = false) ∧
        var.boundBytes 0 = readBytes memory 0 length.toNat := by
  have hsource : (readBytes memory 0 length.toNat).length = length.toNat := by
    simp only [readBytes, List.drop_zero, List.length_take]
    omega
  simp only [DpiStmt.bindValueByPos, DpiStmt.bindVarType, DpiDataBuffer.bytes, Option.map_some,
    Option.bind_eq_bind, Option.bind_some, allocate_varchar]
  by_cases hstatic : length.toNat ≤ 32767
  · have hsize : ¬ max 1 length.toNat < length.toNat := by omega
    simp only [hstatic, if_true, DpiVar.copyData, DpiVar.setFromBytes, DpiDataBuffer.bytes,
      Option.getD_some, List.drop_zero, hsize, if_false, DpiStmt.bind, hpos]
    refine ⟨_, rfl, by simp, ?_⟩
    have hroom : 0 + (readBytes memory 0 length.toNat).length ≤
        ((List.range (max 1 length.toNat)).map (env.uninitialised pos.toNat)).length := by
      simp only [hsource, List.length_map, List.length_range]
      omega
    have hread := read_write_same hroom
    rw [hsource] at hread
    simpa [DpiVar.boundBytes, DpiDataBuffer.bytes] using hread
  · have hchunk : ¬ DpiVar.allocatedLength length.toNat < length.toNat := by
      rw [allocatedLength_lt_iff]
      omega
    simp only [hstatic, if_false, Bool.false_eq_true, DpiVar.copyData, DpiVar.setFromBytes,
      DpiDataBuffer.bytes, Option.getD_some, List.drop_zero, hchunk, if_true, true_and,
      Option.bind_some, DpiStmt.bind, hpos]
    refine ⟨_, rfl, ?_⟩
    -- in PL/SQL the bytes are moved into a temporary LOB
    split
    · exact ⟨by simp [DpiVar.convertToLob], by simp [DpiVar.convertToLob, DpiVar.boundBytes]⟩
    · exact ⟨by simp, by simp [DpiVar.boundBytes]⟩

theorem bindValueByPos_bytes_none (env : DpiEnv) (stmt : DpiStmt) (pos : UInt32)
    (memory : List UInt8) {length : UInt32} (hlength : 4294901760 < length.toNat) :
    stmt.bindValueByPos env pos .bytes ⟨false, .asBytes ⟨some 0, length⟩⟩ memory = none := by
  have hstatic : ¬ length.toNat ≤ 32767 := by omega
  have hchunk := (allocatedLength_lt_iff length).mpr hlength
  simp [DpiStmt.bindValueByPos, DpiStmt.bindVarType, DpiDataBuffer.bytes, allocate_varchar,
    hstatic, DpiVar.copyData, DpiVar.setFromBytes, hchunk]

/-- ODPI-C has no variable for a `float`, a LOB given as bytes, or a typeless NULL. -/
theorem bindValueByPos_unsupported (env : DpiEnv) (stmt : DpiStmt) (pos : UInt32)
    {nativeType : NativeType} (data : DpiData) (memory : List UInt8)
    (h : nativeType = .float ∨ nativeType = .lob ∨ nativeType = .null) :
    stmt.bindValueByPos env pos nativeType data memory = none := by
  rcases h with rfl | rfl | rfl
  · rfl
  · rfl
  · rfl

/-- The variable holds the value: its data is the value, its bytes are those of the
text, its timestamp has the local civil time of the date. -/
def Holds (rt : Runtime) (var : DpiVar) : OracleData → Prop
  | .integer v => var.externalData = [⟨false, .asInt64 v⟩]
  | .float v => var.externalData = [⟨false, .asFloat v⟩]
  | .double v => var.externalData = [⟨false, .asDouble v⟩]
  | .text v => (∀ data ∈ var.externalData, data.isNull = false) ∧ var.boundBytes 0 = utf8 v
  | .timestamp v => ∃ timestamp, var.externalData = [⟨false, .asTimestamp timestamp⟩] ∧
      civilTime timestamp = rt.timeZone.civilTime v
  | .blob v => (∀ data ∈ var.externalData, data.isNull = false) ∧ var.boundBytes 0 = v
  | .raw v => (∀ data ∈ var.externalData, data.isNull = false) ∧ var.boundBytes 0 = v
  | .null => ∀ data ∈ var.externalData, data.isNull = true

/-- The values that can be bound at a time. -/
def Bindable (rt : Runtime) (now : Date) : OracleData → Prop
  | .integer _ => True
  | .double _ => True
  | .text v => Plain v.toList ∧ (utf8 v).length ≤ 4294901760
  | .timestamp v => 1 ≤ (rt.timeZone.civilTime v).date.year ∧
      (rt.timeZone.civilTime v).date.year ≤ 32767 ∧ HoursFit (rt.timeZone.secondsFromGMT now)
  | .float _ => False
  | .blob _ => False
  | .raw _ => False
  | .null => False

/-- The session after a bind of the variable. -/
def bound (s : Session) (pos : UInt32) (var : DpiVar) : Session :=
  { s with stmt := withBound s.stmt pos var }

/-- Binding either binds a variable, which holds the value exactly if it is bindable, or
does not return, and then the value is not bindable. -/
def BindsIff (rt : Runtime) (s : Session) (statement : OracleStatement) (pos : UInt32)
    (value : OracleData) : Prop :=
  (∃ var, s.run (statement.bindValue rt pos value) = (.value statement, bound s pos var) ∧
      (Holds rt var value ↔ Bindable rt (s.clock s.stmt.bindVars.length) value)) ∨
    (∀ statement' s', s.run (statement.bindValue rt pos value) ≠ (.value statement', s')) ∧
      ¬ Bindable rt (s.clock s.stmt.bindVars.length) value

section BindValue

variable {rt : Runtime} {s : Session} {statement : OracleStatement} {pos : UInt32}

theorem run_bindValueByPos_some {nativeType : NativeType} {data : DpiData}
    {memory : List UInt8} {var : DpiVar}
    (h : s.stmt.bindValueByPos s.env pos nativeType data memory =
      some (withBound s.stmt pos var)) :
    s.run (statement.bindValueByPos pos nativeType data memory) =
      (.value statement, bound s pos var) := by
  have hcall : Session.answer (.dpi (.stmtBindValueByPos statement.handle pos nativeType data
      memory)) s = (some (), bound s pos var) := by
    change s.update _ = _
    rw [h]
    rfl
  exact Session.run_perform_bind hcall _

theorem run_bindValueByPos_none {nativeType : NativeType} {data : DpiData}
    {memory : List UInt8}
    (h : s.stmt.bindValueByPos s.env pos nativeType data memory = none) :
    s.run (statement.bindValueByPos pos nativeType data memory) =
      (.error (.ofErrorInfo s.lastError), s) := by
  have hcall : Session.answer (.dpi (.stmtBindValueByPos statement.handle pos nativeType data
      memory)) s = (none, s) := by
    change s.update _ = _
    rw [h]
    rfl
  exact Session.run_perform_bind hcall _

theorem bindsIff_data {nativeType : NativeType} {buffer : DpiDataBuffer} {value : OracleData}
    (hpos : pos ≠ 0)
    (htype : nativeType = .int64 ∨ nativeType = .double ∨ nativeType = .timestamp)
    (hrun : statement.bindValue rt pos value =
      statement.bindValueByPos pos nativeType ⟨false, buffer⟩ [])
    (hvalue : ∀ var : DpiVar, var.externalData = [⟨false, buffer⟩] →
      (Holds rt var value ↔ Bindable rt (s.clock s.stmt.bindVars.length) value)) :
    BindsIff rt s statement pos value := by
  obtain ⟨var, hbind, hdata, _⟩ := bindValueByPos_data s.env s.stmt hpos buffer [] htype
  refine .inl ⟨var, ?_, hvalue var hdata⟩
  rw [hrun]
  exact run_bindValueByPos_some hbind

theorem bindsIff_unsupported {nativeType : NativeType} {data : DpiData} {memory : List UInt8}
    {value : OracleData} (htype : nativeType = .float ∨ nativeType = .lob ∨ nativeType = .null)
    (hrun : statement.bindValue rt pos value =
      statement.bindValueByPos pos nativeType data memory)
    (hvalue : ¬ Bindable rt (s.clock s.stmt.bindVars.length) value) :
    BindsIff rt s statement pos value := by
  refine .inr ⟨?_, hvalue⟩
  intro statement' s'
  rw [hrun, run_bindValueByPos_none (bindValueByPos_unsupported _ _ _ _ _ htype)]
  simp

theorem readBytes_count_iff (rt : Runtime) (v : String) :
    readBytes (utf8 v ++ [0]) 0 (rt.count v) = utf8 v ↔ Plain v.toList := by
  have hle : rt.count v ≤ (utf8 v).length := count_le_length_encode rt.graphemes v.toList
  have hplain : rt.count v = (utf8 v).length ↔ Plain v.toList :=
    count_eq_length_encode rt.graphemes v.toList
  rw [← hplain, readBytes, List.drop_zero, List.take_append_of_le_length hle]
  constructor
  · intro htake
    have hlength := congrArg List.length htake
    rw [List.length_take] at hlength
    omega
  · intro hcount
    rw [hcount, List.take_length]

theorem bindsIff_text (hpos : pos ≠ 0) (v : String) :
    BindsIff rt s statement pos (.text v) := by
  have hle : rt.count v ≤ (utf8 v).length := count_le_length_encode rt.graphemes v.toList
  by_cases hcount : rt.count v < 4294967296
  · have hlength : (UInt32.ofNat (rt.count v)).toNat = rt.count v := by
      rw [UInt32.toNat_ofNat']
      omega
    have hrun : statement.bindValue rt pos (.text v) =
        statement.bindValueByPos pos .bytes
          ⟨false, .asBytes ⟨some 0, UInt32.ofNat (rt.count v)⟩⟩ (utf8 v ++ [0]) := by
      change ofOutcome (stringArgument rt v) >>= _ = _
      rw [stringArgument_of_lt hcount]
      rfl
    by_cases hchunk : rt.count v ≤ 4294901760
    · have hmemory : (UInt32.ofNat (rt.count v)).toNat ≤ (utf8 v ++ [0]).length := by
        rw [hlength, List.length_append]
        omega
      obtain ⟨var, hbind, hnull, hbytes⟩ := bindValueByPos_bytes s.env s.stmt hpos hmemory
        (by rw [hlength]; exact hchunk)
      rw [hlength] at hbytes
      refine .inl ⟨var, ?_, ?_⟩
      · rw [hrun]
        exact run_bindValueByPos_some hbind
      · rw [Holds, Bindable, hbytes, readBytes_count_iff]
        have hplain := count_eq_length_encode rt.graphemes v.toList
        constructor
        · rintro ⟨_, hv⟩
          exact ⟨hv, (hplain.mpr hv).symm.le.trans hchunk⟩
        · rintro ⟨hv, _⟩
          exact ⟨hnull, hv⟩
    · refine .inr ⟨?_, ?_⟩
      · intro statement' s'
        rw [hrun, run_bindValueByPos_none (bindValueByPos_bytes_none _ _ _ _ (by
          rw [hlength]
          omega))]
        simp
      · rintro ⟨_, hlength⟩
        omega
  · refine .inr ⟨?_, ?_⟩
    · intro statement' s'
      change s.run (ofOutcome (stringArgument rt v) >>= _) ≠ _
      have htrap : stringArgument rt v = .trap := by
        rw [stringArgument, uint32_trap (by omega)]
        rfl
      rw [htrap]
      simp [ofOutcome]
    · rintro ⟨_, hlength⟩
      omega

theorem componentTime_eq_iff (t : CivilTime) : componentTime t = t ↔ 1 ≤ t.date.year := by
  constructor
  · intro h
    have hyear : yearOfEra t.date.year = t.date.year := congrArg (fun t => t.date.year) h
    unfold yearOfEra at hyear
    split at hyear <;> omega
  · intro h
    rw [componentTime, yearOfEra, if_pos h]

theorem run_bindValue_timestamp (rt : Runtime) (s : Session) (statement : OracleStatement)
    (pos : UInt32) (v : Date) :
    s.run (statement.bindValue rt pos (.timestamp v)) = s.run (do
      let timestamp ← ofOutcome (encodeTimestamp rt v (dateComponents rt.timeZone v)
        (rt.timeZone.secondsFromGMT (s.clock s.stmt.bindVars.length)))
      statement.bindValueByPos pos .timestamp ⟨false, .asTimestamp timestamp⟩ []) := by
  have hclock : Session.answer .now s = (s.clock s.stmt.bindVars.length, s) := rfl
  exact Session.run_perform_bind hclock _

theorem bindsIff_timestamp (hpos : pos ≠ 0) (v : Date) :
    BindsIff rt s statement pos (.timestamp v) := by
  have hrun := run_bindValue_timestamp rt s statement pos v
  by_cases hfit : yearOfEra (rt.timeZone.civilTime v).date.year ≤ 32767 ∧
      HoursFit (rt.timeZone.secondsFromGMT (s.clock s.stmt.bindVars.length))
  · obtain ⟨timestamp, htimestamp, hcivil, _⟩ := encodeTimestamp_value rt v hfit.1 hfit.2
    obtain ⟨var, hbind, hdata, _⟩ := bindValueByPos_data s.env s.stmt hpos
      (.asTimestamp timestamp) [] (.inr (.inr rfl))
    refine .inl ⟨var, ?_, ?_⟩
    · rw [hrun, htimestamp]
      exact run_bindValueByPos_some hbind
    · have hholds : Holds rt var (.timestamp v) ↔
          1 ≤ (rt.timeZone.civilTime v).date.year := by
        rw [← componentTime_eq_iff, ← hcivil, Holds, hdata]
        constructor
        · rintro ⟨timestamp', hdata', htime⟩
          cases hdata'
          exact htime
        · intro htime
          exact ⟨timestamp, rfl, htime⟩
      rw [hholds, Bindable]
      constructor
      · intro hyear
        refine ⟨hyear, ?_, hfit.2⟩
        have hfit₁ := hfit.1
        rwa [yearOfEra, if_pos hyear] at hfit₁
      · rintro ⟨hyear, _⟩
        exact hyear
  · refine .inr ⟨?_, ?_⟩
    · intro statement' s'
      rw [hrun, encodeTimestamp_trap rt v hfit]
      simp [ofOutcome]
    · rintro ⟨hyear, hyear', hhours⟩
      apply hfit
      rw [yearOfEra, if_pos hyear]
      exact ⟨hyear', hhours⟩

theorem bindsIff_raw (v : List UInt8) : BindsIff rt s statement pos (.raw v) := by
  refine .inr ⟨?_, id⟩
  have hhandle : Session.answer .readHandle s = (some s.conn, s) := rfl
  by_cases hfit : v.length < 4294967296
  · have hsize : s.run (ofOutcome (uint32 v.length) : Task UInt32) =
        (.value (UInt32.ofNat v.length), s) := by
      rw [Session.run_ofOutcome, uint32_of_lt hfit]
    have hrun : s.run (statement.bindValue rt pos (.raw v)) =
        (.error (.ofErrorInfo s.lastError), s) :=
      (Session.run_perform_bind hhandle _).trans (Session.run_bind_value hsize _)
    intro statement' s'
    rw [hrun]
    simp
  · have hsize : ∀ size s', s.run (ofOutcome (uint32 v.length) : Task UInt32) ≠
        (.value size, s') := by
      intro size s'
      rw [Session.run_ofOutcome, uint32_trap (by omega)]
      simp
    intro statement' s' hvalue
    exact Session.run_bind_not_value hsize _ statement' s'
      ((Session.run_perform_bind hhandle _).symm.trans hvalue)

theorem bindsIff (rt : Runtime) (s : Session) (statement : OracleStatement) {pos : UInt32}
    (hpos : pos ≠ 0) (value : OracleData) : BindsIff rt s statement pos value := by
  cases value with
  | integer v =>
      refine bindsIff_data hpos (.inl rfl) rfl ?_
      intro var hvar
      simp [Holds, Bindable, hvar]
  | float v => exact bindsIff_unsupported (.inl rfl) rfl id
  | double v =>
      refine bindsIff_data hpos (.inr (.inl rfl)) rfl ?_
      intro var hvar
      simp [Holds, Bindable, hvar]
  | text v => exact bindsIff_text hpos v
  | timestamp v => exact bindsIff_timestamp hpos v
  | blob v => exact bindsIff_unsupported (.inr (.inl rfl)) rfl id
  | raw v => exact bindsIff_raw v
  | null => exact bindsIff_unsupported (.inr (.inr rfl)) rfl id

end BindValue

theorem forall_getElem?_cons {α : Type} {P : Nat → α → Prop} {x : α} {xs : List α} :
    (∀ k v, (x :: xs)[k]? = some v → P k v) ↔
      P 0 x ∧ ∀ k v, xs[k]? = some v → P (k + 1) v := by
  constructor
  · intro h
    exact ⟨h 0 x rfl, fun k v hv => h (k + 1) v hv⟩
  · rintro ⟨hx, hxs⟩ k v hv
    cases k with
    | zero =>
        obtain rfl : x = v := by simpa using hv
        exact hx
    | succ k => exact hxs k v (by simpa using hv)

/-- The positions after `i` are bound to the values. -/
def AllHeld (rt : Runtime) (stmt : DpiStmt) (i : Nat) (values : List OracleData) : Prop :=
  ∀ k value, values[k]? = some value →
    ∃ var, stmt.boundVar (i + k + 1) = some var ∧ Holds rt var value

/-- Each of the values can be bound at the time when its turn comes. -/
def AllBindable (rt : Runtime) (clock : Nat → Date) (i : Nat) (values : List OracleData) :
    Prop :=
  ∀ k value, values[k]? = some value → Bindable rt (clock (i + k)) value

theorem allHeld_cons {rt : Runtime} {stmt : DpiStmt} {i : Nat} {value : OracleData}
    {values : List OracleData} :
    AllHeld rt stmt i (value :: values) ↔
      (∃ var, stmt.boundVar (i + 1) = some var ∧ Holds rt var value) ∧
        AllHeld rt stmt (i + 1) values := by
  refine forall_getElem?_cons.trans (and_congr Iff.rfl ?_)
  refine forall_congr' fun k => ?_
  rw [show i + (k + 1) + 1 = i + 1 + k + 1 by omega]

theorem allBindable_cons {rt : Runtime} {clock : Nat → Date} {i : Nat} {value : OracleData}
    {values : List OracleData} :
    AllBindable rt clock i (value :: values) ↔
      Bindable rt (clock i) value ∧ AllBindable rt clock (i + 1) values := by
  refine forall_getElem?_cons.trans (and_congr Iff.rfl ?_)
  refine forall_congr' fun k => ?_
  rw [show i + (k + 1) = i + 1 + k by omega]

/-- The positions up to `i` are bound, and no other. -/
structure BoundUpTo (i : Nat) (stmt : DpiStmt) : Prop where
  lt : i < 4294967296
  length : stmt.bindVars.length = i
  pos_le : ∀ entry ∈ stmt.bindVars, entry.pos.toNat ≤ i

theorem insertBindVar_new {pos : UInt32} {var : DpiVar} {entries : List DpiBindVar}
    (h : ∀ entry ∈ entries, entry.pos ≠ pos) :
    DpiStmt.insertBindVar pos var entries = entries ++ [⟨pos, var⟩] := by
  induction entries with
  | nil => rfl
  | cons entry entries ih =>
      rw [DpiStmt.insertBindVar, if_neg (h entry (by simp)),
        ih fun e he => h e (List.mem_cons_of_mem entry he)]
      rfl

section BindList

variable {rt : Runtime} {statement : OracleStatement} {i : Nat}

theorem BoundUpTo.bindVars_withBound {stmt : DpiStmt} (h : BoundUpTo i stmt) {pos : UInt32}
    (hpos : pos.toNat = i + 1) (var : DpiVar) :
    (withBound stmt pos var).bindVars = stmt.bindVars ++ [⟨pos, var⟩] := by
  apply insertBindVar_new
  rintro entry hentry rfl
  have hle := h.pos_le entry hentry
  omega

theorem BoundUpTo.withBound {stmt : DpiStmt} (h : BoundUpTo i stmt) {pos : UInt32}
    (hpos : pos.toNat = i + 1) (var : DpiVar) :
    BoundUpTo (i + 1) (withBound stmt pos var) := by
  have hlt := pos.toNat_lt
  refine ⟨by omega, ?_, ?_⟩
  · rw [h.bindVars_withBound hpos, List.length_append, h.length]
    rfl
  · rw [h.bindVars_withBound hpos]
    intro entry hentry
    rcases List.mem_append.mp hentry with hentry | hentry
    · exact (h.pos_le entry hentry).trans (by omega)
    · rw [List.mem_singleton.mp hentry]
      exact hpos.le

theorem BoundUpTo.boundVar_same {stmt : DpiStmt} (h : BoundUpTo i stmt) {pos : UInt32}
    (hpos : pos.toNat = i + 1) (var : DpiVar) :
    (BoundValues.withBound stmt pos var).boundVar (i + 1) = some var := by
  have hnone : stmt.bindVars.find? (fun entry => entry.pos.toNat = i + 1) = none := by
    rw [List.find?_eq_none]
    intro entry hentry
    have hle := h.pos_le entry hentry
    simp only [decide_eq_true_eq]
    omega
  rw [DpiStmt.boundVar, h.bindVars_withBound hpos, List.find?_append, hnone]
  simp [hpos]

theorem BoundUpTo.boundVar_other {stmt : DpiStmt} (h : BoundUpTo i stmt) {pos : UInt32}
    (hpos : pos.toNat = i + 1) (var : DpiVar) {q : Nat} (hq : q ≤ i) :
    (BoundValues.withBound stmt pos var).boundVar q = stmt.boundVar q := by
  have hne : ¬ pos.toNat = q := by omega
  rw [DpiStmt.boundVar, DpiStmt.boundVar, h.bindVars_withBound hpos, List.find?_append]
  simp [hne]

theorem run_bindFrom_cons {s : Session} (hi : i + 1 < 4294967296) (value : OracleData)
    (values : List OracleData) :
    s.run (statement.bindFrom rt i (value :: values)) =
      s.run (statement.bindValue rt (UInt32.ofNat (i + 1)) value >>= fun statement =>
        statement.bindFrom rt (i + 1) values) := by
  change s.run (ofOutcome (uint32 (i + 1 : Nat)) >>= _) = _
  rw [uint32_of_lt hi]
  rfl

theorem run_bind_one {s : Session} (hs : s.stmt.bindVars = []) {value : OracleData}
    {var : DpiVar} {stored : Option OciValue}
    (hvalue : s.run (statement.bindValue rt 1 value) = (.value statement, bound s 1 var))
    (hstored : var.setValue s.env 0 = some stored) :
    ∃ s₁, s.run (statement.bind rt [value]) = (.value statement, s₁) ∧
      s₁.stmt.boundValues s₁.env = some [stored] := by
  refine ⟨bound s 1 var, ?_, ?_⟩
  · rw [OracleStatement.bind, run_bindFrom_cons (by decide)]
    exact Session.run_bind_value hvalue _
  · have hvars : (bound s 1 var).stmt.bindVars = [⟨1, var⟩] := by
      change DpiStmt.insertBindVar 1 var s.stmt.bindVars = _
      rw [hs]
      rfl
    rw [DpiStmt.boundValues, hvars]
    change List.mapM (fun entry => entry.var.setValue s.env 0) [DpiBindVar.mk 1 var] = _
    simp [hstored]

theorem run_bindFrom_cons_overflow {s : Session} (hi : ¬ i + 1 < 4294967296)
    (value : OracleData) (values : List OracleData) :
    s.run (statement.bindFrom rt i (value :: values)) = (.trap, s) := by
  change s.run (ofOutcome (uint32 (i + 1 : Nat)) >>= _) = _
  rw [uint32_trap (by omega)]
  rfl

theorem boundVar_bindFrom {s s' : Session} {statement' : OracleStatement}
    {values : List OracleData} (hs : BoundUpTo i s.stmt)
    (hrun : s.run (statement.bindFrom rt i values) = (.value statement', s')) {q : Nat}
    (hq : q ≤ i) : s'.stmt.boundVar q = s.stmt.boundVar q := by
  induction values generalizing s i with
  | nil =>
      cases hrun
      rfl
  | cons value values ih =>
      by_cases hi : i + 1 < 4294967296
      · rw [run_bindFrom_cons hi] at hrun
        obtain ⟨var, hvalue, _⟩ | ⟨hfail, _⟩ :=
          bindsIff rt s statement (ofNat_succ_ne_zero hi) value
        · rw [Session.run_bind_value hvalue] at hrun
          have hnext := hs.withBound (UInt32.toNat_ofNat_of_lt' hi) var
          exact (ih hnext hrun (by omega)).trans
            (hs.boundVar_other (UInt32.toNat_ofNat_of_lt' hi) var hq)
        · exact absurd hrun (Session.run_bind_not_value hfail _ statement' s')
      · rw [run_bindFrom_cons_overflow hi] at hrun
        cases hrun

/-- Binding the values after the first `i` returns with all of them held exactly if they
are bindable and their positions fit into `UInt32`. -/
theorem bindFrom_iff (rt : Runtime) (statement : OracleStatement) {s : Session}
    (hs : BoundUpTo i s.stmt) (values : List OracleData) :
    (∃ statement' s', s.run (statement.bindFrom rt i values) = (.value statement', s') ∧
        AllHeld rt s'.stmt i values) ↔
      i + values.length < 4294967296 ∧ AllBindable rt s.clock i values := by
  induction values generalizing s i with
  | nil =>
      constructor
      · intro _
        exact ⟨hs.lt, by simp [AllBindable]⟩
      · intro _
        exact ⟨statement, s, rfl, by simp [AllHeld]⟩
  | cons value values ih =>
      rw [allBindable_cons, List.length_cons]
      by_cases hi : i + 1 < 4294967296
      · have hpos := UInt32.toNat_ofNat_of_lt' hi
        simp only [run_bindFrom_cons hi]
        obtain ⟨var, hvalue, hiff⟩ | ⟨hfail, hnot⟩ :=
          bindsIff rt s statement (ofNat_succ_ne_zero hi) value
        · simp only [Session.run_bind_value hvalue]
          rw [hs.length] at hiff
          have hnext : BoundUpTo (i + 1) (bound s (UInt32.ofNat (i + 1)) var).stmt :=
            hs.withBound hpos var
          have hrest := ih hnext
          constructor
          · -- the rest of the loop does not touch the position just bound
            rintro ⟨statement', s', hrun, hheld⟩
            obtain ⟨⟨var', hvar', hholds⟩, hheld⟩ := allHeld_cons.mp hheld
            rw [boundVar_bindFrom hnext hrun le_rfl] at hvar'
            obtain rfl : var = var' :=
              Option.some.inj ((hs.boundVar_same hpos var).symm.trans hvar')
            obtain ⟨hlength, hbindable⟩ := hrest.mp ⟨statement', s', hrun, hheld⟩
            exact ⟨by omega, hiff.mp hholds, hbindable⟩
          · rintro ⟨hlength, hbindable, hbindables⟩
            obtain ⟨statement', s', hrun, hheld⟩ := hrest.mpr ⟨by omega, hbindables⟩
            refine ⟨statement', s', hrun,
              allHeld_cons.mpr ⟨⟨var, ?_, hiff.mpr hbindable⟩, hheld⟩⟩
            rw [boundVar_bindFrom hnext hrun le_rfl]
            exact hs.boundVar_same hpos var
        · rw [hs.length] at hnot
          constructor
          · rintro ⟨statement', s', hrun, _⟩
            exact absurd hrun (Session.run_bind_not_value hfail _ statement' s')
          · rintro ⟨_, hbindable, _⟩
            exact absurd hbindable hnot
      · constructor
        · rintro ⟨statement', s', hrun, _⟩
          rw [run_bindFrom_cons_overflow hi] at hrun
          cases hrun
        · rintro ⟨hlength, _⟩
          omega

end BindList

/-- On an open connection and a statement without binds, `bind` returns with position
`k + 1` bound to a variable that holds the value `k`, for all `k`, exactly if every value
is bindable when its turn comes and there are fewer than `2 ^ 32` of them. -/
theorem bind_holds_iff (rt : Runtime) (statement : OracleStatement) (s : Session)
    (hs : s.stmt.bindVars = []) (values : List OracleData) :
    (∃ statement' s', s.run (statement.bind rt values) = (.value statement', s') ∧
        ∀ k value, values[k]? = some value →
          ∃ var, s'.stmt.boundVar (k + 1) = some var ∧ Holds rt var value) ↔
      values.length < 4294967296 ∧
        ∀ k value, values[k]? = some value → Bindable rt (s.clock k) value := by
  have hbound : BoundUpTo 0 s.stmt := by
    refine ⟨by omega, by rw [hs]; rfl, ?_⟩
    rw [hs]
    simp
  have hiff := bindFrom_iff rt statement hbound values
  simp only [AllHeld, AllBindable, Nat.zero_add] at hiff
  exact hiff

theorem bind_holds_numbers :
    ∃ statement' s', (newSession (.prepared .other [] [])).run
        (OracleStatement.bind asciiRuntime ⟨⟨3⟩, []⟩ [.integer 7, .double ⟨5⟩]) =
          (.value statement', s') ∧
      ∀ k value, [OracleData.integer 7, .double ⟨5⟩][k]? = some value →
        ∃ var, s'.stmt.boundVar (k + 1) = some var ∧ Holds asciiRuntime var value := by
  refine (bind_holds_iff asciiRuntime ⟨⟨3⟩, []⟩ (newSession (.prepared .other [] [])) rfl
    _).mpr ⟨by decide, ?_⟩
  rw [forall_getElem?_cons, forall_getElem?_cons]
  exact ⟨trivial, trivial, by simp⟩

/-- A typeless NULL cannot be bound. -/
theorem not_bind_null :
    ¬ ∃ statement' s', (newSession (.prepared .other [] [])).run
        (OracleStatement.bind asciiRuntime ⟨⟨3⟩, []⟩ [.null]) = (.value statement', s') ∧
      ∀ k value, [OracleData.null][k]? = some value →
        ∃ var, s'.stmt.boundVar (k + 1) = some var ∧ Holds asciiRuntime var value := by
  have hrun : (newSession (.prepared .other [] [])).run
      (OracleStatement.bind asciiRuntime ⟨⟨3⟩, []⟩ [.null]) =
      (.error (.ofErrorInfo (newSession (.prepared .other [] [])).lastError),
        newSession (.prepared .other [] [])) := by
    rw [OracleStatement.bind, run_bindFrom_cons (by decide)]
    rfl
  rw [hrun]
  simp

end OracleNIO.BoundValues
