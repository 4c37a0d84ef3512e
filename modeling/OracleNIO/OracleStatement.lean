import OracleNIO.Dpi
import OracleNIO.OracleQuery

/-!
`OracleStatement` and the operations that code of the package performs while it
runs on a thread.
-/

namespace OracleNIO

open Interaction SwiftRuntime CivilCalendar ByteMemory Dpi

/-- The columns of a statement and their offsets in a row. -/
structure OracleColumnOffsets where
  offsets : List (String × Nat)
deriving DecidableEq, Repr

/-- A row, which shares its columns with the other rows. -/
structure OracleRow where
  columnOffsets : OracleColumnOffsets
  data : List OracleData
deriving DecidableEq, Repr

/-- The operations: reading a field of the connection or the clock, calling
ODPI-C, and handing work to the event loop. -/
inductive Op where
  | readHandle
  | readContext
  | now
  | dpi (call : DpiCall)
  | submitRow (row : OracleRow)
  | submitClear
  | andAllSucceed (callbacks : List Nat)
  | cascade (future : Nat)
  | promiseFail (error : OracleError)
deriving DecidableEq, Repr

/-- What each operation is answered with. -/
def Op.Reply : Op → Type
  | .readHandle => Option ConnHandle
  | .readContext => Option ContextHandle
  | .now => Date
  | .dpi call => call.Reply
  | .submitRow _ => Nat
  | .submitClear => Nat
  | .andAllSucceed _ => Nat
  | .cascade _ => Unit
  | .promiseFail _ => Unit

theorem reply_nonempty (op : Op) : Nonempty op.Reply := by
  cases op with
  | readHandle => exact ⟨(none : Option ConnHandle)⟩
  | readContext => exact ⟨(none : Option ContextHandle)⟩
  | now => exact ⟨(⟨0⟩ : Date)⟩
  | submitRow row => exact ⟨(0 : Nat)⟩
  | submitClear => exact ⟨(0 : Nat)⟩
  | andAllSucceed callbacks => exact ⟨(0 : Nat)⟩
  | cascade future => exact ⟨()⟩
  | promiseFail error => exact ⟨()⟩
  | dpi c =>
      cases c with
      | contextCreateWithParams => exact ⟨(.ok ⟨0⟩ : Except ErrorInfo ContextHandle)⟩
      | contextGetError => exact ⟨(⟨0, [], 0⟩ : ErrorInfo)⟩
      | contextDestroy => exact ⟨(none : Option Unit)⟩
      | connCreate => exact ⟨(none : Option ConnHandle)⟩
      | connClose => exact ⟨(none : Option Unit)⟩
      | connPrepareStmt => exact ⟨(none : Option StmtHandle)⟩
      | connNewVar => exact ⟨(none : Option VarHandle)⟩
      | stmtBindValueByPos => exact ⟨(none : Option Unit)⟩
      | stmtBindByPos => exact ⟨(none : Option Unit)⟩
      | stmtExecute => exact ⟨(none : Option UInt32)⟩
      | stmtGetNumQueryColumns => exact ⟨(none : Option UInt32)⟩
      | stmtGetQueryInfo => exact ⟨(none : Option QueryInfo)⟩
      | stmtFetch => exact ⟨(none : Option FetchedRow)⟩
      | stmtGetQueryValue => exact ⟨(none : Option QueryValue)⟩
      | stmtRelease => exact ⟨(none : Option Unit)⟩
      | varRelease => exact ⟨(none : Option Unit)⟩

/-- Code of the package that runs on a thread. -/
abbrev Task (α : Type) := Prog Op Op.Reply OracleError α

/-- An operation of such code, with the reply to it. -/
abbrev TaskEvent := Event Op Op.Reply

def perform (op : Op) : Task op.Reply :=
  Prog.perform op

def readHandle : Task (Option ConnHandle) :=
  perform .readHandle

def readContext : Task (Option ContextHandle) :=
  perform .readContext

def now : Task Date :=
  perform .now

def dpi (call : DpiCall) : Task call.Reply :=
  perform (.dpi call)

def submitRow (row : OracleRow) : Task Nat :=
  perform (.submitRow row)

def submitClear : Task Nat :=
  perform .submitClear

def andAllSucceed (callbacks : List Nat) : Task Nat :=
  perform (.andAllSucceed callbacks)

def cascade (future : Nat) : Task Unit :=
  perform (.cascade future)

def promiseFail (error : OracleError) : Task Unit :=
  perform (.promiseFail error)

/-- The message is the whole C string; the length that comes with it is not used. -/
def OracleError.ofErrorInfo (info : ErrorInfo) : OracleError :=
  ⟨.oracleError info.code, String.ofList (decode info.message)⟩

/-- `OracleError.getLast(for:)` is thrown, if the connection has a context. -/
def throwLast {α : Type} : Task α := do
  match ← readContext with
  | none =>
      .throw ⟨.noContext,
        "The db context is not available, the connection is most likely already closed"⟩
  | some context =>
      let info ← dpi (.contextGetError (some context))
      .throw (.ofErrorInfo info)

/-- The `guard … == DPI_SUCCESS else { throw … }` around a call. -/
def orThrowLast {α : Type} : Option α → Task α
  | some a => .pure a
  | none => throwLast

/-- `OracleDataType` -/
inductive OracleDataType where
  | integer | float | double | text | timestamp | blob | raw | null
deriving DecidableEq, Repr

/-- The handle, and the variables that were created for values to be bound. -/
structure OracleStatement where
  handle : StmtHandle
  vars : List (Option VarHandle)
deriving DecidableEq, Repr

/-- A string that is passed with its `count`, which is taken for its length in bytes. -/
def stringArgument (rt : Runtime) (s : String) : Outcome OracleError StringArgument := do
  let length ← uint32 (rt.count s)
  return ⟨utf8 s ++ [0], length⟩

theorem stringArgument_value {rt : Runtime} {s : String} {arg : StringArgument}
    (h : stringArgument rt s = .value arg) :
    arg.memory = utf8 s ++ [0] ∧ arg.length.toNat = rt.count s := by
  unfold stringArgument at h
  cases hlength : (uint32 (rt.count s) : Outcome OracleError UInt32) with
  | value length =>
      rw [hlength] at h
      cases h
      exact ⟨rfl, toNat_of_uint32 hlength⟩
  | error e =>
      rw [hlength] at h
      cases h
  | trap =>
      rw [hlength] at h
      cases h

theorem stringArgument_of_lt {rt : Runtime} {s : String} (h : rt.count s < 4294967296) :
    stringArgument rt s = .value ⟨utf8 s ++ [0], UInt32.ofNat (rt.count s)⟩ := by
  unfold stringArgument
  rw [uint32_of_lt h]
  rfl

/-- `String(cString:)`; a string that is not terminated is read past the end of the
memory. -/
def stringOfCString (memory : List UInt8) (ptr : Nat) : Outcome OracleError String :=
  match cString (memory.drop ptr) with
  | none => .trap
  | some bytes => .value (String.ofList (decode bytes))

namespace OracleStatement

/-- `init(query:on:)` -/
def init (rt : Runtime) (query : String) : Task OracleStatement := do
  match ← readHandle with
  | none =>
      .throw ⟨.noHandle,
        "The db handle is not available, the connection is most likely already closed"⟩
  | some cHandle =>
      let sql ← Prog.ofOutcome (stringArgument rt query)
      let handle ← orThrowLast (← dpi (.connPrepareStmt cHandle sql))
      return ⟨handle, []⟩

theorem init_eq {rt : Runtime} {query : String} {arg : StringArgument}
    (harg : stringArgument rt query = .value arg) :
    init rt query = (do
      match ← readHandle with
      | none =>
          .throw ⟨.noHandle,
            "The db handle is not available, the connection is most likely already closed"⟩
      | some cHandle =>
          let handle ← orThrowLast (← dpi (.connPrepareStmt cHandle arg))
          return ⟨handle, []⟩) := by
  unfold init
  rw [harg]
  rfl

/-- What `bind` throws for a date with a component missing. -/
def missingComponents (rt : Runtime) (value : Date) : OracleError :=
  ⟨.error, "Couldn't extract date required components from " ++ rt.description value⟩

/-- The timestamp for a date, given the offset of the zone at the time of binding. -/
def encodeTimestamp (rt : Runtime) (value : Date) (components : DateComponents)
    (tzOffset : Int) : Outcome OracleError DpiTimestamp :=
  match components.year, components.month, components.day, components.hour,
      components.minute, components.second, components.nanosecond with
  | some year, some month, some day, some hour, some minute, some second,
      some nanosecond => do
      let tzHourOffset := tzOffset.tdiv 3600
      let tzMinuteOffset := ((tzOffset.tdiv 60).natAbs % 60 : Nat)
      let year ← int16 year
      let month ← uint8 month
      let day ← uint8 day
      let hour ← uint8 hour
      let minute ← uint8 minute
      let second ← uint8 second
      let fsecond ← uint32 nanosecond
      let tzHourOffset ← int8 tzHourOffset
      let tzMinuteOffset ← int8 tzMinuteOffset
      return ⟨year, month, day, hour, minute, second, fsecond, tzHourOffset, tzMinuteOffset⟩
  | _, _, _, _, _, _, _ => .error (missingComponents rt value)

/-- The call of `dpiStmt_bindValueByPos` and its guard. -/
def bindValueByPos (statement : OracleStatement) (pos : UInt32) (nativeType : NativeType)
    (data : DpiData) (memory : List UInt8) : Task OracleStatement := do
  orThrowLast
    (← dpi (.stmtBindValueByPos statement.handle pos nativeType data memory))
  return statement

/-- The body of the loop of `bind`. -/
def bindValue (rt : Runtime) (statement : OracleStatement) (pos : UInt32) :
    OracleData → Task OracleStatement
  | .integer value => statement.bindValueByPos pos .int64 ⟨false, .asInt64 value⟩ []
  | .float value => statement.bindValueByPos pos .float ⟨false, .asFloat value⟩ []
  | .double value => statement.bindValueByPos pos .double ⟨false, .asDouble value⟩ []
  | .text value => do
      let arg ← Prog.ofOutcome (stringArgument rt value)
      statement.bindValueByPos pos .bytes ⟨false, .asBytes ⟨some 0, arg.length⟩⟩ arg.memory
  | .timestamp value => do
      let components := dateComponents rt.timeZone value
      match components.timeZone with
      | none => .throw (missingComponents rt value)
      | some timeZone =>
          let now ← now
          let timestamp ← Prog.ofOutcome
            (encodeTimestamp rt value components (timeZone.secondsFromGMT now))
          statement.bindValueByPos pos .timestamp ⟨false, .asTimestamp timestamp⟩ []
  | .blob value => statement.bindValueByPos pos .lob ⟨false, .asRaw (some 0)⟩ value
  | .null => statement.bindValueByPos pos .null ⟨true, .zero⟩ []
  | .raw value => do
      let conn ← readHandle
      let size ← Prog.ofOutcome (uint32 value.length)
      match ← dpi (.connNewVar conn .raw .bytes 0 size true false) with
      -- the guard is the other way round here: it is success that throws
      | some _ => throwLast
      | none =>
          let vars := statement.vars ++ [none]
          orThrowLast (← dpi (.stmtBindByPos statement.handle pos none))
          return { statement with vars }

/-- The loop of `bind`, from the index on. -/
def bindFrom (rt : Runtime) (statement : OracleStatement) (i : Nat) :
    List OracleData → Task OracleStatement
  | [] => .pure statement
  | value :: values => do
      let pos ← Prog.ofOutcome (uint32 (i + 1 : Nat))
      let statement ← statement.bindValue rt pos value
      statement.bindFrom rt (i + 1) values

def bind (rt : Runtime) (statement : OracleStatement) (binds : List OracleData) :
    Task OracleStatement :=
  statement.bindFrom rt 0 binds

def execute (statement : OracleStatement) : Task Unit := do
  let _ ← orThrowLast (← dpi (.stmtExecute statement.handle 0))
  return ()

/-- The position of the column with the index, which passes through `Int32`. -/
def columnPosition (i : Nat) : Outcome OracleError UInt32 := do
  let offset ← int32 (i + 1 : Nat)
  uint32 offset.toInt

theorem columnPosition_of_lt {i : Nat} (hi : i < 2147483647) :
    columnPosition i = .value (UInt32.ofNat (i + 1)) := by
  obtain ⟨offset, hoffset, hvalue⟩ :=
    int32_of_range OracleError (i + 1 : Nat) ⟨by omega, by omega⟩
  rw [columnPosition, hoffset]
  change uint32 offset.toInt = _
  rw [hvalue]
  exact uint32_of_lt (by omega)

theorem columnPosition_overflow {i : Nat} (hi : ¬ i < 2147483647) :
    columnPosition i = .trap := by
  rw [columnPosition, int32_trap (by omega)]
  rfl

/-- The argument is the index, so the position is one more. -/
def column (statement : OracleStatement) (i : Nat) : Task String := do
  let pos ← Prog.ofOutcome (columnPosition i)
  let queryInfo ← orThrowLast (← dpi (.stmtGetQueryInfo statement.handle pos))
  Prog.ofOutcome (stringOfCString queryInfo.name 0)

/-- `columns()` -/
def columns (statement : OracleStatement) : Task OracleColumnOffsets := do
  let count ← orThrowLast (← dpi (.stmtGetNumQueryColumns statement.handle))
  let names ← Prog.collect statement.column (List.range count.toNat)
  return ⟨names.zipIdx⟩

/-- `dataType(for:and:)` -/
def dataType (nativeType : NativeType) (typeInfo : DataTypeInfo) :
    Outcome OracleError OracleDataType :=
  match nativeType with
  | .int64 => .value .integer
  | .float => .value .float
  | .double => .value .double
  | .bytes =>
      if typeInfo.oracleType = some .raw ∨ typeInfo.oracleType = some .longRaw then .value .raw
      else .value .text
  | .timestamp => .value .timestamp
  | .lob => .value .blob
  | .null => .value .null
  | _ => .error ⟨.error, "Unexpected column type: " ++ toString nativeType.number⟩

/-- A member of the union, where reading it is defined. -/
def member {α : Type} : Option α → Outcome OracleError α
  | some a => .value a
  | none => .trap

/-- The components that the date of a timestamp is built from. -/
def civilTime (timestamp : DpiTimestamp) : CivilTime :=
  { date := ⟨timestamp.year.toInt, timestamp.month.toNat, timestamp.day.toNat⟩
    hour := timestamp.hour.toNat
    minute := timestamp.minute.toNat
    second := timestamp.second.toNat
    nanosecond := timestamp.fsecond.toNat }

/-- The date of a timestamp; its offset is computed in `Int8`. -/
def decodeTimestamp (timestamp : DpiTimestamp) : Outcome OracleError Date := do
  let minutes ← int8 (timestamp.tzHourOffset.toInt * 60)
  let minutes ← int8 (minutes.toInt + timestamp.tzMinuteOffset.toInt)
  let tzOffset ← int8 (minutes.toInt * 60)
  return dateOfCivil tzOffset.toInt (civilTime timestamp)

/-- The decoding in `data(at:)`. -/
def columnData (nativeType : NativeType) (typeInfo : DataTypeInfo) (data : DpiData)
    (memory : List UInt8) : Outcome OracleError OracleData := do
  match ← dataType nativeType typeInfo with
  | .integer => return .integer (← member data.value.int64)
  | .float => return .float (← member data.value.float)
  | .double => return .double (← member data.value.double)
  | .text =>
      match ← member data.value.string with
      | none => .error ⟨.error, "Unexpected nil column text"⟩
      | some ptr => return .text (← stringOfCString memory ptr)
  | .timestamp => return .timestamp (← decodeTimestamp (← member data.value.timestamp))
  | .blob =>
      let bytes ← member data.value.bytes
      let buffer := readBytes memory (bytes.ptr.getD 0) bytes.length.toNat
      if buffer.length = bytes.length.toNat then return .blob buffer
      else .trap
  -- the bytes of the value are taken for a reference to an array
  | .raw => .trap
  | .null => return .null

/-- `data(at:)` -/
def data (statement : OracleStatement) (i : Nat) : Task OracleData := do
  let pos ← Prog.ofOutcome (columnPosition i)
  let value ← orThrowLast (← dpi (.stmtGetQueryValue statement.handle pos))
  let queryInfo ← orThrowLast (← dpi (.stmtGetQueryInfo statement.handle pos))
  match value.data with
  | none => throwLast
  | some data =>
      Prog.ofOutcome (columnData value.nativeType queryInfo.typeInfo data value.memory)

/-- The releases at the end of the rows. -/
def cleanup (statement : OracleStatement) : Task Unit := do
  let _ ← Prog.collect (fun var => do orThrowLast (← dpi (.varRelease var)))
    statement.vars
  orThrowLast (← dpi (.stmtRelease statement.handle))

/-- `nextRow(for:)`; at the end of the rows the handles are released. -/
def nextRow (statement : OracleStatement) (columns : OracleColumnOffsets) :
    Task (Option OracleRow) := do
  let fetched ← orThrowLast (← dpi (.stmtFetch statement.handle))
  if fetched.found = 0 then
    statement.cleanup
    return none
  else
    let count ← orThrowLast (← dpi (.stmtGetNumQueryColumns statement.handle))
    let row ← Prog.collect statement.data (List.range count.toNat)
    return some ⟨columns, row⟩

end OracleStatement

end OracleNIO
