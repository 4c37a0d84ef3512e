import OracleNIO.Dpi

/-!
The variables of ODPI-C (`dpiVar.c`), as far as the package creates them: the checks
made when one is allocated, the values copied into it to be bound, and the values that
a fetch leaves in it.
-/

namespace OracleNIO.Dpi

open SwiftRuntime ByteMemory

/-- An `OCINumber`, by its conversions; `none` is one that fails. -/
structure OciNumber where
  toInt : Option Int64
  toReal : Option Binary64
deriving DecidableEq, Repr

/-- `OCIDateTime`, by the fields that it is built from. -/
structure OciDateTime where
  year : Int16
  month : UInt8
  day : UInt8
  hour : UInt8
  minute : UInt8
  second : UInt8
  fsecond : UInt32
  offset : Option (Int8 × Int8)
deriving DecidableEq, Repr

/-- A value that is not NULL; `reference` stands for locators and handles. -/
inductive OciValue where
  | number (value : OciNumber)
  | float (value : Binary32)
  | double (value : Binary64)
  | bytes (value : List UInt8)
  | dateTime (value : OciDateTime)
  | reference
deriving DecidableEq, Repr

/-- What ODPI-C takes from its environment: character sizes, what the version of the client
supports (`BOOLEAN` from 12.1, JSON from 21), the conversions of OCI, and the bytes found in
memory that it did not write. -/
structure DpiEnv where
  maxBytesPerCharacter : Nat
  nmaxBytesPerCharacter : Nat
  supportsBoolean : Bool
  supportsJson : Bool
  numberFromInt : Int64 → Option OciNumber
  numberFromReal : Binary64 → Option OciNumber
  uninitialised : Nat → Nat → UInt8

/-- A variable.  The pointers in its data point into `memory`, or into the chunk of
their element where the variable is dynamic. -/
structure DpiVar where
  type : OracleType
  nativeType : NativeType
  maxArraySize : Nat
  sizeInBytes : Nat
  isDynamic : Bool
  externalData : List DpiData
  memory : List UInt8
  dynamicBytes : List (List UInt8)
  lobs : List (List UInt8)
deriving DecidableEq, Repr

/-- `dpiVar__validateTypes` -/
def validateTypes : OracleType → NativeType → Bool
  | .date, .double | .timestamp, .double | .timestampTZ, .double => true
  | .timestampLTZ, .double => true
  | .number, .int64 | .number, .uint64 | .number, .bytes => true
  | _, _ => false

/-- The size of an element, as `dpiVar__allocate` computes it. -/
def elementSize (env : DpiEnv) (type : OracleType) (size : Nat) (sizeIsBytes : Bool) :
    Nat :=
  let size := if size = 0 then 1 else size
  if type.sizeInBytes ≠ 0 then type.sizeInBytes
  else if sizeIsBytes || !type.isCharacterData then size
  else if type.isNchar then size * env.nmaxBytesPerCharacter % 4294967296
  else size * env.maxBytesPerCharacter % 4294967296

/-- `INT_MAX` -/
def intMax : Nat := 2147483647

namespace DpiVar

/-- What an element holds before it is set. -/
def initialData (nativeType : NativeType) (isDynamic : Bool) (ptr : Nat) : DpiData :=
  match nativeType with
  | .bytes => ⟨true, .asBytes ⟨if isDynamic then none else some ptr, 0⟩⟩
  | .lob => ⟨true, .asLOB ptr⟩
  | _ => ⟨true, .zero⟩

/-- `dpiVar__initBuffer` -/
def initBuffer (type : OracleType) (nativeType : NativeType) (maxArraySize sizeInBytes : Nat)
    (isDynamic hasObjectType : Bool) (uninitialised : Nat → UInt8) : Option DpiVar :=
  if isDynamic = false ∧ intMax < maxArraySize * sizeInBytes then none
  else if type = .object ∧ hasObjectType = false then none
  else some
    { type, nativeType, maxArraySize, sizeInBytes, isDynamic
      externalData := (List.range maxArraySize).map fun i =>
        initialData nativeType isDynamic (i * sizeInBytes)
      memory :=
        if isDynamic then [] else (List.range (maxArraySize * sizeInBytes)).map uninitialised
      dynamicBytes := if isDynamic then List.replicate maxArraySize [] else []
      lobs := [] }

/-- `dpiVar__allocate` -/
def allocate (env : DpiEnv) (type : OracleType) (nativeType : NativeType)
    (maxArraySize size : UInt32) (sizeIsBytes isArray hasObjectType : Bool)
    (uninitialised : Nat → UInt8) : Option DpiVar :=
  if maxArraySize = 0 then none
  else if isArray && !type.canBeInArray then none
  else if type = .boolean ∧ env.supportsBoolean = false then none
  -- `dpiJson__allocate`, when the buffer has been made
  else if type = .json ∧ env.supportsJson = false then none
  else if nativeType ≠ type.defaultNativeType ∧ validateTypes type nativeType = false then
    none
  else
    let size := elementSize env type size.toNat sizeIsBytes
    if OracleType.maxBasicBufferSize < size then
      initBuffer type nativeType maxArraySize.toNat 0 true hasObjectType uninitialised
    else
      initBuffer type nativeType maxArraySize.toNat size false hasObjectType uninitialised

/-- `DPI_DYNAMIC_BYTES_CHUNK_SIZE` -/
def dynamicBytesChunkSize : Nat := 65536

/-- The size of the chunk allocated for some bytes, computed in `uint32_t`. -/
def allocatedLength (size : Nat) : Nat :=
  (size + (dynamicBytesChunkSize - 1)) % 4294967296 / dynamicBytesChunkSize *
    dynamicBytesChunkSize

/-- `dpiVar__setFromBytes`, for a variable whose native type is its default. -/
def setFromBytes (var : DpiVar) (pos : Nat) (value : List UInt8) (valueLength : UInt32) :
    Option DpiVar :=
  if var.isDynamic then
    -- where the length wraps around, the copy that follows would overrun the chunk
    if allocatedLength valueLength.toNat < valueLength.toNat then none
    else some
      { var with
        dynamicBytes := var.dynamicBytes.set pos (readBytes value 0 valueLength.toNat)
        externalData := var.externalData.set pos ⟨false, .asBytes ⟨some 0, valueLength⟩⟩ }
  else if var.sizeInBytes < valueLength.toNat then none
  else some
    { var with
      memory := writeBytes var.memory (pos * var.sizeInBytes)
        (readBytes value 0 valueLength.toNat)
      externalData := var.externalData.set pos
        ⟨false, .asBytes ⟨some (pos * var.sizeInBytes), valueLength⟩⟩ }

/-- `dpiVar__copyData`, of data whose pointers point into `memory`. -/
def copyData (var : DpiVar) (pos : Nat) (sourceData : DpiData) (memory : List UInt8) :
    Option DpiVar :=
  if sourceData.isNull then
    some { var with externalData := var.externalData.modify pos ({ · with isNull := true }) }
  else
    match var.nativeType with
    | .bytes =>
        match sourceData.value.bytes with
        | some bytes => var.setFromBytes pos (memory.drop (bytes.ptr.getD 0)) bytes.length
        | none => none
    -- these need a handle of ODPI-C, which the package never passes
    | .json | .lob | .object | .stmt | .rowid => none
    | _ => some { var with externalData := var.externalData.set pos sourceData }

/-- `dpiVar__convertToLob` -/
def convertToLob (var : DpiVar) : DpiVar :=
  let type :=
    if var.type = .raw ∨ var.type = .longRaw then .blob
    else if var.type = .nchar then .nclob
    else .clob
  { var with
    type
    sizeInBytes := OracleType.sizeInBytes type
    isDynamic := false
    lobs := var.dynamicBytes
    externalData := var.externalData.zipIdx.map fun (data, i) => { data with value := .asLOB i } }

/-- The bytes of the element that are handed to the server. -/
def boundBytes (var : DpiVar) (pos : Nat) : List UInt8 :=
  match var.lobs[pos]? with
  | some content => content
  | none =>
      if var.isDynamic then var.dynamicBytes.getD pos []
      else
        match (var.externalData[pos]?).bind fun data => data.value.bytes with
        | some bytes => readBytes var.memory (bytes.ptr.getD 0) bytes.length.toNat
        | none => []

/-- `dpiDataBuffer__toOracleTimestamp` -/
def toOracleTimestamp (timestamp : DpiTimestamp) (withTZ : Bool) : OciDateTime :=
  { year := timestamp.year
    month := timestamp.month
    day := timestamp.day
    hour := timestamp.hour
    minute := timestamp.minute
    second := timestamp.second
    fsecond := timestamp.fsecond
    offset :=
      if withTZ then some (timestamp.tzHourOffset, timestamp.tzMinuteOffset) else none }

/-- `dpiDataBuffer__fromOracleTimestamp` -/
def fromOracleTimestamp (value : OciDateTime) (withTZ : Bool) : DpiTimestamp :=
  { year := value.year
    month := value.month
    day := value.day
    hour := value.hour
    minute := value.minute
    second := value.second
    fsecond := value.fsecond
    tzHourOffset := if withTZ then (value.offset.getD (0, 0)).1 else 0
    tzMinuteOffset := if withTZ then (value.offset.getD (0, 0)).2 else 0 }

/-- Whether a timestamp of the type has a time zone. -/
def withTZ (type : OracleType) : Bool :=
  type == .timestampTZ || type == .timestampLTZ

/-- `dpiVar__setValue`: what OCI is given for an element, NULL being `some none`. -/
def setValue (env : DpiEnv) (var : DpiVar) (pos : Nat) : Option (Option OciValue) :=
  match var.externalData[pos]? with
  | none => none
  | some data =>
      if data.isNull then some none
      else
        match var.nativeType with
        | .int64 => do
            let number ← env.numberFromInt (← data.value.int64)
            return some (.number number)
        | .float => data.value.float.map fun v => some (.float v)
        | .double => do
            let v ← data.value.double
            if var.type = .nativeDouble then return some (.double v)
            let number ← env.numberFromReal v
            return some (.number number)
        | .bytes => some (some (.bytes (var.boundBytes pos)))
        | .timestamp => do
            let timestamp ← data.value.timestamp
            if var.type = .date then
              return some (.dateTime (toOracleTimestamp { timestamp with fsecond := 0 } false))
            return some (.dateTime (toOracleTimestamp timestamp (withTZ var.type)))
        | _ => some (some .reference)

/-- OCI stores the value of an element; a NULL is told by the indicator alone. -/
def receive (var : DpiVar) (pos : Nat) : Option OciValue → DpiVar
  | some (.bytes value) =>
      if var.isDynamic then { var with dynamicBytes := var.dynamicBytes.set pos value }
      else
        { var with
          memory := writeBytes var.memory (pos * var.sizeInBytes)
            (value.take var.sizeInBytes) }
  | _ => var

/-- What is written to the buffer of the element for a value that was fetched. -/
def fetchedBuffer (var : DpiVar) (pos : Nat) (value : OciValue) : Option DpiDataBuffer :=
  match var.nativeType, value with
  | .int64, .number number => number.toInt.map .asInt64
  | .double, .number number => number.toReal.map .asDouble
  | .double, .double v => some (.asDouble v)
  | .float, .float v => some (.asFloat v)
  | .bytes, .bytes v =>
      if var.isDynamic then some (.asBytes ⟨some 0, UInt32.ofNat v.length⟩)
      -- a value that is cut off comes with a return code
      else if var.sizeInBytes < v.length then none
      else some (.asBytes ⟨some (pos * var.sizeInBytes), UInt32.ofNat v.length⟩)
  | .timestamp, .dateTime v =>
      if var.type = .date then
        some (.asTimestamp (fromOracleTimestamp { v with fsecond := 0 } false))
      else some (.asTimestamp (fromOracleTimestamp v (withTZ var.type)))
  -- the data points to the locator already
  | .lob, .reference => some (.asLOB (pos * var.sizeInBytes))
  -- members that nothing in the package reads
  | .rowid, .reference | .object, .reference | .stmt, .reference => some .zero
  | .boolean, .reference | .json, .reference => some .zero
  | .intervalDS, .reference | .intervalYM, .reference => some .zero
  | _, _ => none

/-- `dpiVar__getValue`: for a NULL, the value of the data stays as it was. -/
def getValue (var : DpiVar) (pos : Nat) : Option OciValue → Option DpiVar
  | none =>
      some { var with externalData := var.externalData.modify pos ({ · with isNull := true }) }
  | some value => do
      let buffer ← var.fetchedBuffer pos value
      return { var with externalData := var.externalData.set pos ⟨false, buffer⟩ }

/-- The values of a batch, from the element at the position on. -/
def receiveAll (var : DpiVar) (pos : Nat) : List (Option OciValue) → DpiVar
  | [] => var
  | value :: values => (var.receive pos value).receiveAll (pos + 1) values

/-- The loop of `dpiStmt__postFetch` over the elements from `pos` on. -/
def getValues (var : DpiVar) (pos : Nat) : List (Option OciValue) → Option DpiVar
  | [] => some var
  | value :: values => do
      let var ← var.getValue pos value
      var.getValues (pos + 1) values

def elementMemory (var : DpiVar) (pos : Nat) : List UInt8 :=
  if var.isDynamic then var.dynamicBytes.getD pos [] else var.memory

end DpiVar

end OracleNIO.Dpi
