import OracleNIO.OracleStatement

namespace OracleNIO

open Interaction SwiftRuntime Dpi

/-- `OracleConnection.AuthorizationMode` -/
inductive AuthorizationMode where
  | default | prelim | sysASM | sysBackup | sysDBA | sysDGD | sysKMT | sysOPER | sysRAC
deriving DecidableEq, Repr

/-- The value that C has for the mode. -/
def AuthorizationMode.cValue : AuthorizationMode → Int32
  | .default => 0x00000000
  | .prelim => 0x00000008
  | .sysASM => 0x00008000
  | .sysBackup => 0x00020000
  | .sysDBA => 0x00000002
  | .sysDGD => 0x00040000
  | .sysKMT => 0x00080000
  | .sysOPER => 0x00000004
  | .sysRAC => 0x00100000

/-- The fields of the connection that its functions read. -/
structure OracleConnection where
  handle : Option ConnHandle
  context : Option ContextHandle
deriving DecidableEq, Repr

namespace OracleConnection

def majorVersion : UInt32 := 4

def minorVersion : UInt32 := 6

/-- `connect`; a thrown error is the failure of the returned future. -/
def connect (rt : Runtime) (_authorizationMode : AuthorizationMode)
    (username password connectionString : String) (clientLibraryDir : Option String) :
    Task OracleConnection := do
  let createParams : Option ContextCreateParams :=
    clientLibraryDir.map fun dir => ⟨"oracle-nio", dir⟩
  match createParams with
  | none => pure ()
  | some params =>
      match ← dpi (.contextCreateWithParams majorVersion minorVersion (some params)) with
      | .error errorInfo => .throw (.ofErrorInfo errorInfo)
      | .ok _ => pure ()
  match ← dpi (.contextCreateWithParams majorVersion minorVersion none) with
  | .error errorInfo => .throw (.ofErrorInfo errorInfo)
  | .ok context =>
      let username ← Prog.ofOutcome (stringArgument rt username)
      let password ← Prog.ofOutcome (stringArgument rt password)
      let connectionString ← Prog.ofOutcome (stringArgument rt connectionString)
      match ← dpi
          (.connCreate (some context) username password connectionString none none) with
      | some handle => return ⟨some handle, some context⟩
      | none =>
          let errorInfo ← dpi (.contextGetError (some context))
          .throw (.ofErrorInfo errorInfo)

/-- The pool task of `query`: at its start, or at the head of the loop over the rows
with the callbacks submitted so far. -/
inductive QueryState where
  | begin (query : OracleQuery)
  | rows (statement : OracleStatement) (columns : OracleColumnOffsets)
      (callbacks : List Nat)
deriving DecidableEq, Repr

/-- The first part of the task: what comes before the rows. -/
def prepare (rt : Runtime) (query : OracleQuery) :
    Task (OracleStatement × OracleColumnOffsets) := do
  let statement ← OracleStatement.init rt query.sql
  let statement ← statement.bind rt query.binds.values
  statement.execute
  let columns ← statement.columns
  return (statement, columns)

/-- One turn of the loop over the rows. -/
def step (statement : OracleStatement) (columns : OracleColumnOffsets)
    (callbacks : List Nat) : Task (QueryState ⊕ Unit) := do
  match ← statement.nextRow columns with
  | some row =>
      let callback ← submitRow row
      return .inl (.rows statement columns (callbacks ++ [callback]))
  | none =>
      let all ← andAllSucceed callbacks
      cascade all
      return .inr ()

/-- `catch { promise.fail(error) }`. -/
def failPromise (error : OracleError) : Task (QueryState ⊕ Unit) := do
  promiseFail error
  return .inr ()

/-- The task that `query` submits to the thread pool, as the body of a loop. -/
def query (rt : Runtime) : QueryState → Task (QueryState ⊕ Unit)
  | .begin query =>
      Prog.tryCatch (do
        let (statement, columns) ← prepare rt query
        return .inl (.rows statement columns [])) failPromise
  | .rows statement columns callbacks =>
      Prog.tryCatch (step statement columns callbacks) failPromise

theorem runs_begin {rt : Runtime} {q : OracleQuery} {statement : OracleStatement}
    {columns : OracleColumnOffsets} {tr : List TaskEvent}
    (h : (prepare rt q).Runs tr (.value (statement, columns))) :
    (query rt (.begin q)).Runs tr (.value (.inl (.rows statement columns []))) := by
  have hrun := h.bind_pure fun prepared =>
    (.inl (.rows prepared.1 prepared.2 []) : QueryState ⊕ Unit)
  exact hrun.tryCatch failPromise

/-- The task that `close` submits to the thread pool. -/
def close : Task Unit := do
  let handle ← readHandle
  let _ ← dpi (.connClose handle 0)
  let context ← readContext
  let _ ← dpi (.contextDestroy context)
  let cleared ← submitClear
  cascade cleared

end OracleConnection

end OracleNIO
