import OracleNIO.OracleData

/-!
The interface of ODPI-C as the package uses it: native and Oracle types, the
`dpiData` union, and one operation for each function called.
-/

namespace OracleNIO.Dpi

open SwiftRuntime ByteMemory

/-- `dpiNativeTypeNum` -/
inductive NativeType where
  | int64 | uint64 | float | double | bytes | timestamp | intervalDS | intervalYM
  | lob | object | stmt | boolean | rowid | json | jsonObject | jsonArray | null
deriving DecidableEq, Repr

/-- The number of the type in `dpi.h`. -/
def NativeType.number : NativeType → Nat
  | .int64 => 3000
  | .uint64 => 3001
  | .float => 3002
  | .double => 3003
  | .bytes => 3004
  | .timestamp => 3005
  | .intervalDS => 3006
  | .intervalYM => 3007
  | .lob => 3008
  | .object => 3009
  | .stmt => 3010
  | .boolean => 3011
  | .rowid => 3012
  | .json => 3013
  | .jsonObject => 3014
  | .jsonArray => 3015
  | .null => 3016

/-- The `DPI_ORACLE_TYPE_` constants in the order of `dpiAllOracleTypes`. -/
inductive OracleType where
  | varchar | nvarchar | char | nchar | rowid | raw | nativeFloat | nativeDouble
  | nativeInt | number | date | timestamp | timestampTZ | timestampLTZ | intervalDS
  | intervalYM | clob | nclob | blob | bfile | stmt | boolean | object | longVarchar
  | longRaw | nativeUint | json | jsonObject | jsonArray | urowid | longNvarchar
deriving DecidableEq, Repr

namespace OracleType

/-- `defaultNativeTypeNum` of `dpiAllOracleTypes` -/
def defaultNativeType : OracleType → NativeType
  | .varchar | .nvarchar | .char | .nchar | .raw => .bytes
  | .longVarchar | .longRaw | .longNvarchar => .bytes
  | .rowid | .urowid => .rowid
  | .nativeFloat => .float
  | .nativeDouble | .number => .double
  | .nativeInt => .int64
  | .nativeUint => .uint64
  | .date | .timestamp | .timestampTZ | .timestampLTZ => .timestamp
  | .intervalDS => .intervalDS
  | .intervalYM => .intervalYM
  | .clob | .nclob | .blob | .bfile => .lob
  | .stmt => .stmt
  | .boolean => .boolean
  | .object => .object
  | .json => .json
  | .jsonObject => .jsonObject
  | .jsonArray => .jsonArray

/-- `DPI_MAX_BASIC_BUFFER_SIZE` -/
def maxBasicBufferSize : Nat := 32767

/-- Column `buffer size`; `0` for a size that depends on the column. -/
def sizeInBytes : OracleType → Nat
  | .varchar | .nvarchar | .char | .nchar | .raw => 0
  | .longVarchar | .longRaw | .longNvarchar => maxBasicBufferSize + 1
  | .nativeFloat | .boolean => 4
  | .number => 22
  | .jsonObject => 40
  | .jsonArray => 24
  | _ => 8

/-- `isCharacterData` of `dpiAllOracleTypes` -/
def isCharacterData : OracleType → Bool
  | .varchar | .nvarchar | .char | .nchar | .rowid | .clob | .nclob => true
  | .longVarchar | .urowid | .longNvarchar => true
  | _ => false

/-- `canBeInArray` of `dpiAllOracleTypes` -/
def canBeInArray : OracleType → Bool
  | .clob | .nclob | .blob | .bfile | .stmt | .boolean | .object | .longVarchar => false
  | .longRaw | .json | .jsonObject | .jsonArray | .longNvarchar => false
  | _ => true

/-- Whether the type is one of the national character set. -/
def isNchar : OracleType → Bool
  | .nvarchar | .nchar | .nclob | .longNvarchar => true
  | _ => false

end OracleType

/-- A pointer is an address into the memory that is handed along with it. -/
structure DpiBytes where
  ptr : Option Nat
  length : UInt32
deriving DecidableEq, Repr

/-- `dpiTimestamp` -/
structure DpiTimestamp where
  year : Int16
  month : UInt8
  day : UInt8
  hour : UInt8
  minute : UInt8
  second : UInt8
  fsecond : UInt32
  tzHourOffset : Int8
  tzMinuteOffset : Int8
deriving DecidableEq, Repr

/-- The union `dpiDataBuffer`, by the member stored last; `zero` is the union
with all bytes zero. -/
inductive DpiDataBuffer where
  | zero
  | asInt64 (value : Int64)
  | asFloat (value : Binary32)
  | asDouble (value : Binary64)
  | asBytes (value : DpiBytes)
  | asTimestamp (value : DpiTimestamp)
  | asRaw (ptr : Option Nat)
  | asLOB (ptr : Nat)
deriving DecidableEq, Repr

namespace DpiDataBuffer

/-! Reading a member.  A pointer is the first member of `dpiBytes`, and what
follows a lone pointer stays zero.  `none` stands for other reinterpretations. -/

def int64 : DpiDataBuffer → Option Int64
  | .zero => some 0
  | .asInt64 v => some v
  | _ => none

def float : DpiDataBuffer → Option Binary32
  | .zero => some ⟨0⟩
  | .asFloat v => some v
  | _ => none

def double : DpiDataBuffer → Option Binary64
  | .zero => some ⟨0⟩
  | .asDouble v => some v
  | _ => none

def bytes : DpiDataBuffer → Option DpiBytes
  | .zero => some ⟨none, 0⟩
  | .asBytes v => some v
  | .asRaw ptr => some ⟨ptr, 0⟩
  | .asLOB ptr => some ⟨some ptr, 0⟩
  | _ => none

/-- The pointer that is read for `asString`. -/
def string (buffer : DpiDataBuffer) : Option (Option Nat) :=
  buffer.bytes.map DpiBytes.ptr

def timestamp : DpiDataBuffer → Option DpiTimestamp
  | .zero => some ⟨0, 0, 0, 0, 0, 0, 0, 0, 0⟩
  | .asTimestamp v => some v
  | _ => none

end DpiDataBuffer

/-- `dpiData` -/
structure DpiData where
  isNull : Bool
  value : DpiDataBuffer
deriving DecidableEq, Repr

/-- `dpiErrorInfo`.  The message is what stands behind its pointer up to the terminator;
`messageLength` may be less, as it leaves out white space at the end. -/
structure ErrorInfo where
  code : Int32
  message : List UInt8
  messageLength : UInt32
deriving DecidableEq, Repr

/-- `dpiDataTypeInfo`; the type numbers are 0, which is `none`, for a column of a type that
ODPI-C does not support. -/
structure DataTypeInfo where
  oracleType : Option OracleType
  defaultNativeType : Option NativeType
  clientSizeInBytes : UInt32
deriving DecidableEq, Repr

/-- `dpiQueryInfo` -/
structure QueryInfo where
  name : List UInt8
  typeInfo : DataTypeInfo
deriving DecidableEq, Repr

/-- A `dpiContext`, by its address. -/
structure ContextHandle where
  address : Nat
deriving DecidableEq, Repr

/-- A `dpiConn`, by its address. -/
structure ConnHandle where
  address : Nat
deriving DecidableEq, Repr

/-- A `dpiStmt`, by its address. -/
structure StmtHandle where
  address : Nat
deriving DecidableEq, Repr

/-- A `dpiVar`, by its address. -/
structure VarHandle where
  address : Nat
deriving DecidableEq, Repr

/-- A string argument with an explicit length; `memory` is what its pointer
points to. -/
structure StringArgument where
  memory : List UInt8
  length : UInt32
deriving DecidableEq, Repr

/-- The bytes that ODPI-C takes, as many as it is told. -/
def StringArgument.bytes (arg : StringArgument) : List UInt8 :=
  readBytes arg.memory 0 arg.length.toNat

/-- `dpiContextCreateParams` -/
structure ContextCreateParams where
  defaultDriverName : String
  oracleClientLibDir : String
deriving DecidableEq, Repr

/-- `dpiCommonCreateParams` -/
structure CommonCreateParams where
  createMode : UInt32
deriving DecidableEq, Repr

/-- `dpiConnCreateParams` -/
structure ConnCreateParams where
  authMode : UInt32
deriving DecidableEq, Repr

/-- What `dpiConn_create` takes for common parameters that are not given. -/
def initCommonCreateParams : CommonCreateParams where
  createMode := 0

/-- `dpiContext__initConnCreateParams` -/
def initConnCreateParams : ConnCreateParams where
  authMode := 0

/-- What `dpiStmt_fetch` writes. -/
structure FetchedRow where
  found : Int32
  bufferRowIndex : UInt32
deriving DecidableEq, Repr

/-- The data pointer that `dpiStmt_getQueryValue` returns, with the memory that
pointers inside of the data point into. -/
structure QueryValue where
  nativeType : NativeType
  data : Option DpiData
  memory : List UInt8
deriving DecidableEq, Repr

/-- The functions of ODPI-C that the package calls, with their arguments. -/
inductive DpiCall where
  | contextCreateWithParams (majorVersion minorVersion : UInt32)
      (params : Option ContextCreateParams)
  | contextDestroy (context : Option ContextHandle)
  | contextGetError (context : Option ContextHandle)
  | connCreate (context : Option ContextHandle)
      (userName password connectString : StringArgument)
      (commonParams : Option CommonCreateParams) (createParams : Option ConnCreateParams)
  | connClose (conn : Option ConnHandle) (mode : UInt32)
  | connPrepareStmt (conn : ConnHandle) (sql : StringArgument)
  | connNewVar (conn : Option ConnHandle) (oracleType : OracleType)
      (nativeType : NativeType) (maxArraySize size : UInt32) (sizeIsBytes isArray : Bool)
  | stmtBindValueByPos (stmt : StmtHandle) (pos : UInt32) (nativeType : NativeType)
      (data : DpiData) (memory : List UInt8)
  | stmtBindByPos (stmt : StmtHandle) (pos : UInt32) (var : Option VarHandle)
  | stmtExecute (stmt : StmtHandle) (mode : UInt32)
  | stmtGetNumQueryColumns (stmt : StmtHandle)
  | stmtGetQueryInfo (stmt : StmtHandle) (pos : UInt32)
  | stmtFetch (stmt : StmtHandle)
  | stmtGetQueryValue (stmt : StmtHandle) (pos : UInt32)
  | stmtRelease (stmt : StmtHandle)
  | varRelease (var : Option VarHandle)
deriving DecidableEq, Repr

/-- What a call returns through its result and its output parameters.  `none` is
`DPI_FAILURE`, which leaves the output parameters as they were. -/
def DpiCall.Reply : DpiCall → Type
  | .contextCreateWithParams .. => Except ErrorInfo ContextHandle
  | .contextDestroy _ => Option Unit
  | .contextGetError _ => ErrorInfo
  | .connCreate .. => Option ConnHandle
  | .connClose .. => Option Unit
  | .connPrepareStmt .. => Option StmtHandle
  | .connNewVar .. => Option VarHandle
  | .stmtBindValueByPos .. => Option Unit
  | .stmtBindByPos .. => Option Unit
  | .stmtExecute .. => Option UInt32
  | .stmtGetNumQueryColumns _ => Option UInt32
  | .stmtGetQueryInfo .. => Option QueryInfo
  | .stmtFetch _ => Option FetchedRow
  | .stmtGetQueryValue .. => Option QueryValue
  | .stmtRelease _ => Option Unit
  | .varRelease _ => Option Unit

/-- Whether the call returned `DPI_SUCCESS`. -/
def DpiCall.succeeded : (call : DpiCall) → call.Reply → Bool
  | .contextCreateWithParams .., .ok _ => true
  | .contextCreateWithParams .., .error _ => false
  | .contextGetError _, _ => true
  | .contextDestroy _, r | .connClose .., r | .stmtBindValueByPos .., r
  | .stmtBindByPos .., r | .stmtRelease _, r | .varRelease _, r => Option.isSome r
  | .connCreate .., r => Option.isSome r
  | .connPrepareStmt .., r => Option.isSome r
  | .connNewVar .., r => Option.isSome r
  | .stmtExecute .., r | .stmtGetNumQueryColumns _, r => Option.isSome r
  | .stmtGetQueryInfo .., r => Option.isSome r
  | .stmtFetch _, r => Option.isSome r
  | .stmtGetQueryValue .., r => Option.isSome r

end OracleNIO.Dpi
