import OracleNIO.DpiVar

/-!
How ODPI-C describes a column (`dpiOracleType.c`), from what OCI tells of it.
-/

namespace OracleNIO.Dpi

/-- What OCI tells of a column; `isXmlType` is told by the name of its object type. -/
structure OciParameter where
  dataType : UInt16
  charsetForm : UInt8
  precision : Int16
  scale : Int8
  dataSize : UInt16
  charSize : UInt16
  isXmlType : Bool

/-- `DPI_SQLCS_IMPLICIT` -/
def sqlcsImplicit : UInt8 := 1

/-- `DPI_SQLCS_NCHAR` -/
def sqlcsNchar : UInt8 := 2

/-- `DPI_MAX_INT64_PRECISION` -/
def maxInt64Precision : Int16 := 18

namespace OracleType

/-- `dpiOracleType__convertFromOracle`, by the numbers of the `DPI_SQLT_` and
`DPI_OCI_TYPECODE_` constants; `none` is the number 0 of a type that is not supported. -/
def convertFromOracle (typeCode : UInt16) (charsetForm : UInt8) : Option OracleType :=
  match typeCode.toNat with
  | 1 | 9 => some (if charsetForm = sqlcsNchar then .nvarchar else .varchar)
  | 2 | 3 | 4 | 6 | 7 | 21 | 22 | 246 => some .number
  | 12 | 156 => some .date
  | 23 | 95 => some .raw
  | 96 => some (if charsetForm = sqlcsNchar then .nchar else .char)
  | 265 | 266 => some .nativeInt
  | 100 => some .nativeFloat
  | 101 => some .nativeDouble
  | 184 | 187 => some .timestamp
  | 188 => some .timestampTZ
  | 232 => some .timestampLTZ
  | 108 | 122 | 250 => some .object
  | 252 => some .boolean
  | 112 => some (if charsetForm = sqlcsNchar then .nclob else .clob)
  | 113 => some .blob
  | 114 => some .bfile
  | 104 | 262 => some .rowid
  | 116 => some .stmt
  | 190 => some .intervalDS
  | 189 => some .intervalYM
  | 8 | 263 => some .longVarchar
  | 24 | 264 => some .longRaw
  | 119 => some .json
  | _ => none

/-- The precision and the scale of a type that has them. -/
def precisionAndScale (nativeType : Option NativeType) (parameter : OciParameter) :
    Int16 × Int8 :=
  match nativeType with
  | some .double | some .float | some .int64 | some .intervalYM =>
      (parameter.precision, parameter.scale)
  -- here the scale is the precision of the fractional seconds
  | some .timestamp | some .intervalDS => (parameter.precision, 0)
  | _ => (0, 0)

/-- The size of a value of the parameter at the client, or 0. -/
def clientSizeInBytes (env : DpiEnv) (sameCharset : Bool) (oracleType : OracleType)
    (charsetForm : UInt8) (parameter : OciParameter) : UInt32 :=
  if oracleType.sizeInBytes ≠ 0 then 0
  else if oracleType.isCharacterData then
    if charsetForm = sqlcsNchar then
      .ofNat (parameter.charSize.toNat * env.nmaxBytesPerCharacter)
    else if !sameCharset then .ofNat (parameter.charSize.toNat * env.maxBytesPerCharacter)
    else .ofNat parameter.dataSize.toNat
  else .ofNat parameter.dataSize.toNat

/-- `dpiOracleType__populateTypeInfo`, which takes a type that is not supported without an
error; `sameCharset` says that the connection has the character set of the environment. -/
def populateTypeInfo (env : DpiEnv) (sameCharset : Bool) (parameter : OciParameter) :
    DataTypeInfo :=
  let charsetForm :=
    if parameter.dataType ∈ [1, 96, 9, 112] then parameter.charsetForm else sqlcsImplicit
  let oracleType := convertFromOracle parameter.dataType charsetForm
  let nativeType := oracleType.map defaultNativeType
  let (precision, scale) := precisionAndScale nativeType parameter
  let nativeType :=
    if oracleType = some .number ∧ scale = 0 ∧ 0 < precision ∧
        precision ≤ maxInt64Precision then
      some .int64
    else nativeType
  let size := (oracleType.map fun oracleType =>
    oracleType.clientSizeInBytes env sameCharset charsetForm parameter).getD 0
  if oracleType = some .object ∧ parameter.isXmlType then
    ⟨some .longVarchar, some .bytes, size⟩
  else ⟨oracleType, nativeType, size⟩

end OracleType

/-- A column of type `NUMBER`. -/
def numberParameter (precision : Int16) (scale : Int8) : OciParameter where
  dataType := 2
  charsetForm := sqlcsImplicit
  precision
  scale
  dataSize := 22
  charSize := 0
  isXmlType := false

/-- The descriptions of a `NUMBER` that is fetched as an integer. -/
def IntegerColumn (precision : Int16) (scale : Int8) : Prop :=
  scale = 0 ∧ 0 < precision ∧ precision ≤ maxInt64Precision

instance (precision : Int16) (scale : Int8) : Decidable (IntegerColumn precision scale) :=
  inferInstanceAs (Decidable (_ ∧ _))

theorem populateTypeInfo_number (env : DpiEnv) (sameCharset : Bool) (precision : Int16)
    (scale : Int8) :
    OracleType.populateTypeInfo env sameCharset (numberParameter precision scale) =
      ⟨some .number, some (if IntegerColumn precision scale then .int64 else .double), 0⟩ := by
  have hnative : (if some OracleType.number = some .number ∧ IntegerColumn precision scale then
      some NativeType.int64 else some .double) =
      some (if IntegerColumn precision scale then .int64 else .double) := by
    simp only [true_and]
    split <;> rfl
  rw [← hnative]
  rfl

end OracleNIO.Dpi
