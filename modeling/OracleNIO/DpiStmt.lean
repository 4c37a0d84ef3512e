import OracleNIO.DpiVar

/-!
The statements of ODPI-C (`dpiStmt.c`): binding, executing and fetching through the
buffers of the query variables, with every call to OCI succeeding.
-/

namespace OracleNIO.Dpi

open SwiftRuntime

/-- The kinds of statements that the modelled functions tell apart. -/
inductive StatementType where
  | select
  | plsql
  | other
deriving DecidableEq, Repr

/-- `dpiBindVar`, with the variable that it holds. -/
structure DpiBindVar where
  pos : UInt32
  var : DpiVar
deriving DecidableEq, Repr

/-- A row of the result, by the value of each column; `none` is NULL. -/
abbrev Row := Nat → Option OciValue

/-- `dpiStmt`, with the rows that the server still has for it. -/
structure DpiStmt where
  statementType : StatementType
  bindVars : List DpiBindVar
  queryInfo : List QueryInfo
  queryVars : Option (List DpiVar)
  bufferRowIndex : Nat
  bufferRowCount : Nat
  rowCount : Nat
  hasRowsToFetch : Bool
  cursor : List Row

/-- `DPI_DEFAULT_FETCH_ARRAY_SIZE` -/
def fetchArraySize : Nat := 100

namespace DpiStmt

/-- `dpiStmt__allocate` and `dpiStmt__init`, for the columns and rows it will have. -/
def prepared (statementType : StatementType) (queryInfo : List QueryInfo)
    (cursor : List Row) : DpiStmt :=
  { statementType
    bindVars := []
    queryInfo
    queryVars := none
    bufferRowIndex := 0
    bufferRowCount := 0
    rowCount := 0
    hasRowsToFetch := statementType = .select
    cursor }

/-- A variable takes the place of one that was bound at the position before. -/
def insertBindVar (pos : UInt32) (var : DpiVar) : List DpiBindVar → List DpiBindVar
  | [] => [⟨pos, var⟩]
  | entry :: entries =>
      if entry.pos = pos then ⟨pos, var⟩ :: entries
      else entry :: insertBindVar pos var entries

/-- `dpiStmt__bind` -/
def bind (stmt : DpiStmt) (var : DpiVar) (pos : UInt32) : Option DpiStmt :=
  if pos = 0 then none
  else
    let var := if var.isDynamic ∧ stmt.statementType = .plsql then var.convertToLob else var
    some { stmt with bindVars := insertBindVar pos var stmt.bindVars }

/-- The type and size of the variable that `dpiStmt__createBindVar` makes. -/
def bindVarType (nativeType : NativeType) (data : DpiData) : Option (OracleType × UInt32) :=
  match nativeType with
  | .int64 | .uint64 | .float | .double => some (.number, 0)
  | .bytes => data.value.bytes.map fun bytes => (.varchar, bytes.length)
  | .timestamp => some (.timestamp, 0)
  | .intervalDS => some (.intervalDS, 0)
  | .intervalYM => some (.intervalYM, 0)
  | .object => some (.object, 0)
  | .rowid => some (.rowid, 0)
  | .boolean => some (.boolean, 0)
  | _ => none

/-- `dpiStmt_bindValueByPos` -/
def bindValueByPos (env : DpiEnv) (stmt : DpiStmt) (pos : UInt32) (nativeType : NativeType)
    (data : DpiData) (memory : List UInt8) : Option DpiStmt := do
  let (oracleType, size) ← bindVarType nativeType data
  let var ← DpiVar.allocate env oracleType nativeType 1 size true false false
    (env.uninitialised pos.toNat)
  let var ← var.copyData 0 data memory
  stmt.bind var pos

/-- The variable that is bound at the position. -/
def boundVar (stmt : DpiStmt) (pos : Nat) : Option DpiVar :=
  (stmt.bindVars.find? fun entry => entry.pos.toNat = pos).map DpiBindVar.var

/-- What the server is given for the variables. -/
def boundValues (env : DpiEnv) (stmt : DpiStmt) : Option (List (Option OciValue)) :=
  stmt.bindVars.mapM fun entry => entry.var.setValue env 0

/-- `dpiStmt_execute` -/
def execute (env : DpiEnv) (stmt : DpiStmt) : Option DpiStmt := do
  let _ ← stmt.boundValues env
  if stmt.statementType = .select then
    return { stmt with
      bufferRowIndex := fetchArraySize
      rowCount := 0
      hasRowsToFetch := true }
  return stmt

/-- `dpiVar__allocate` for a column, before its first fetch; it refuses the type number 0. -/
def createQueryVar (env : DpiEnv) (column : Nat) (info : QueryInfo) : Option DpiVar := do
  let oracleType ← info.typeInfo.oracleType
  let nativeType ← info.typeInfo.defaultNativeType
  DpiVar.allocate env oracleType nativeType (UInt32.ofNat fetchArraySize)
    info.typeInfo.clientSizeInBytes true false true (env.uninitialised column)

/-- `dpiStmt__createQueryVars` -/
def createQueryVars (env : DpiEnv) (column : Nat) : List QueryInfo → Option (List DpiVar)
  | [] => some []
  | info :: infos => do
      let var ← createQueryVar env column info
      let vars ← createQueryVars env (column + 1) infos
      return var :: vars

/-- `dpiStmt__beforeFetch` -/
def beforeFetch (env : DpiEnv) (stmt : DpiStmt) : Option (List DpiVar) :=
  match stmt.queryVars with
  | some vars => some vars
  | none => createQueryVars env 0 stmt.queryInfo

/-- OCI fills the buffer of a column with the rows, and the values are read from it. -/
def fetchColumn (column : Nat) (rows : List Row) (var : DpiVar) : Option DpiVar :=
  let values := rows.map fun row => row column
  (var.receiveAll 0 values).getValues 0 values

/-- `OCIStmtFetch2` and `dpiStmt__postFetch`, for the columns from `column` on. -/
def fetchColumns (column : Nat) (rows : List Row) : List DpiVar → Option (List DpiVar)
  | [] => some []
  | var :: vars => do
      let var ← fetchColumn column rows var
      let vars ← fetchColumns (column + 1) rows vars
      return var :: vars

/-- `dpiStmt__fetch`. -/
def fetchBuffer (env : DpiEnv) (stmt : DpiStmt) : Option DpiStmt := do
  let vars ← stmt.beforeFetch env
  let rows := stmt.cursor.take fetchArraySize
  let vars ← fetchColumns 0 rows vars
  return { stmt with
    queryVars := some vars
    cursor := stmt.cursor.drop fetchArraySize
    -- OCI reports the end of the rows when it cannot fill the array
    hasRowsToFetch := fetchArraySize ≤ rows.length
    bufferRowCount := rows.length
    bufferRowIndex := 0 }

/-- The end of `dpiStmt_fetch`: hand out the next row of the buffer. -/
def nextBufferRow (stmt : DpiStmt) : FetchedRow × DpiStmt :=
  if stmt.bufferRowCount ≤ stmt.bufferRowIndex then (⟨0, 0⟩, stmt)
  else
    (⟨1, UInt32.ofNat stmt.bufferRowIndex⟩,
      { stmt with
        bufferRowIndex := stmt.bufferRowIndex + 1
        rowCount := stmt.rowCount + 1 })

/-- `dpiStmt_fetch` -/
def fetch (env : DpiEnv) (stmt : DpiStmt) : Option (FetchedRow × DpiStmt) :=
  if stmt.bufferRowCount ≤ stmt.bufferRowIndex ∧ stmt.hasRowsToFetch = true then
    (stmt.fetchBuffer env).map nextBufferRow
  else some stmt.nextBufferRow

/-- `dpiStmt_getNumQueryColumns` -/
def getNumQueryColumns (stmt : DpiStmt) : UInt32 :=
  if stmt.statementType = .select then UInt32.ofNat stmt.queryInfo.length else 0

/-- `dpiStmt_getQueryInfo` -/
def getQueryInfo (stmt : DpiStmt) (pos : UInt32) : Option QueryInfo :=
  if pos = 0 ∨ stmt.queryInfo.length < pos.toNat then none
  else stmt.queryInfo[pos.toNat - 1]?

/-- `dpiStmt_getQueryValue`; `beyond` is what lies behind the memory of the element. -/
def getQueryValue (stmt : DpiStmt) (pos : UInt32) (beyond : List UInt8) : Option QueryValue :=
  match stmt.queryVars with
  | none => none
  | some vars =>
      if pos = 0 ∨ vars.length < pos.toNat then none
      else if stmt.bufferRowIndex = 0 ∨ stmt.bufferRowCount < stmt.bufferRowIndex then none
      else
        vars[pos.toNat - 1]?.map fun var =>
          { nativeType := var.nativeType
            data := var.externalData[stmt.bufferRowIndex - 1]?
            memory := var.elementMemory (stmt.bufferRowIndex - 1) ++ beyond }

end DpiStmt

end OracleNIO.Dpi
