import OracleNIO.ByteMemory
import OracleNIO.ObjectStore
import Mathlib.Data.List.DropRight
import Mathlib.Logic.Function.Basic

/-!
The state that all threads of a process share in ODPI-C (`dpiGlobal.c`), the error buffers
of the threads (`dpiError.c`), and the calls that find the buffer of their thread.
-/

namespace OracleNIO.Dpi

open ByteMemory ObjectStore

/-- `dpiErrorNum` -/
inductive ErrorNum where
  | noErr | noMemory | invalidHandle | errNotInitialized | getFailed | createEnv | convertText
  | queryNotExecuted | unhandledDataType | invalidArrayPosition | notConnected | connNotInPool
  | invalidProxy | notSupported | unhandledConversion | arraySizeTooBig | invalidDate
  | valueIsNull | arraySizeTooSmall | bufferSizeTooSmall | versionNotSupported
  | invalidOracleType | wrongAttr | notCollection | invalidIndex | noObjectType | invalidCharset
  | scrollOutOfRs | queryPositionInvalid | noRowFetched | tlsError | arraySizeZero
  | extAuthWithCredentials | cannotGetRowOffset | connIsExternal | transIdTooLarge
  | branchIdTooLarge | columnFetch | stmtClosed | lobClosed | invalidCharsetId | invalidOciNumber
  | invalidNumber | numberNoRepr | numberStringTooLong | nullPointerParameter | loadLibrary
  | loadSymbol | oracleClientTooOld | nlsEnvVarGet | ptrLengthMismatch | nan | wrongType
  | bufferSizeTooLarge | noEditionWithConnClass | noBindVarsInDdl | subscrClosed
  | noEditionWithNewPassword | unexpectedOciReturnValue | execModeOnlyForDml
  | arrayVarNotSupported | eventsModeRequired | oracleDbTooOld | callTimeout | sodaCursorClosed
  | extAuthInvalidProxy | queueNoPayload | queueWrongPayloadType | oracleClientUnsupported
  | missingShardingKey | contextNotCreated | os | unhandledJsonNodeType | unhandledJsonScalarType
  | unhandledConversionToJson | oracleClientTooOldMulti | connClosed | tokenBasedAuth
  | poolTokenBasedAuth | standaloneTokenBasedAuth
deriving DecidableEq, Repr

/-- `dpiErrorBuffer`; a number that is 0 is `none`, and the message is what stands before
its terminator. -/
structure ErrorBuffer where
  code : Int32
  offset : UInt32
  errorNum : Option ErrorNum
  fnName : Option String
  action : Option String
  encoding : String
  message : List UInt8
  messageLength : Nat
  isRecoverable : Bool
  isWarning : Bool
deriving DecidableEq, Repr

/-- `dpiErrorInfo` -/
structure ErrorDetails where
  code : Int32
  offset16 : UInt16
  message : List UInt8
  messageLength : Nat
  encoding : String
  fnName : Option String
  action : Option String
  sqlState : String
  isRecoverable : Bool
  isWarning : Bool
  offset : UInt32
deriving DecidableEq, Repr

/-- `isspace` in the C locale. -/
def isspace (byte : UInt8) : Bool :=
  byte = 32 || (9 ≤ byte && byte ≤ 13)

/-- How an error gets into a buffer: `dpiError__set` with the message it has formatted,
`dpiOci__errorGet`, or `dpiError__setFromOCI` without a connection. -/
inductive ErrorSource where
  | set (action : String) (errorNum : ErrorNum) (text : List UInt8)
  | errorGet (action : String) (code : Int32) (text : List UInt8)
  | setFromOCI (action encoding : String) (code : Int32) (text : List UInt8)
      (warning isRecoverable : Bool)
deriving DecidableEq, Repr

namespace ErrorBuffer

variable (buffer : ErrorBuffer)

/-- A buffer whose memory has been cleared. -/
def zero : ErrorBuffer :=
  ⟨0, 0, none, none, none, "", [], 0, false, false⟩

/-- `DPI_MAX_ERROR_SIZE` -/
def maxErrorSize : Nat := 3072

def utf8Name : String := "UTF-8"

/-- `dpiError__set`; the length is that of the whole text. -/
def set (action : String) (errorNum : ErrorNum) (text : List UInt8) : ErrorBuffer :=
  { buffer with
    code := 0
    isRecoverable := false
    isWarning := false
    offset := 0
    encoding := utf8Name
    action := some action
    errorNum := some errorNum
    messageLength := text.length % 4294967296
    message := text.take (maxErrorSize - 1) }

/-- The length without the white space at the end, of which the first byte is not a part. -/
def strippedLength : List UInt8 → Nat
  | [] => 0
  | _ :: text => (text.rdropWhile isspace).length + 1

/-- `dpiOci__errorGet`, when OCI has a message of at most the size of the buffer. -/
def errorGet (action : String) (code : Int32) (text : List UInt8) : ErrorBuffer :=
  let message := text.take (maxErrorSize - 1)
  { buffer with code, message, action := some action, messageLength := strippedLength message }

/-- `dpiError__setFromOCI` -/
def setFromOCI (action encoding : String) (code : Int32) (text : List UInt8)
    (warning isRecoverable : Bool) : ErrorBuffer :=
  let buffer := { buffer with action := some action, encoding }.errorGet action code text
  if warning then { buffer with isWarning := true } else { buffer with isRecoverable }

/-- The buffer after the error has been recorded in it. -/
def record : ErrorSource → ErrorBuffer
  | .set action errorNum text => buffer.set action errorNum text
  | .errorGet action code text => buffer.errorGet action code text
  | .setFromOCI action encoding code text warning isRecoverable =>
      buffer.setFromOCI action encoding code text warning isRecoverable

/-- `dpiError__getInfo` -/
def getInfo : ErrorDetails where
  code := buffer.code
  offset := buffer.offset
  offset16 := buffer.offset.toUInt16
  message := buffer.message
  messageLength := buffer.messageLength
  fnName := buffer.fnName
  action := buffer.action
  isRecoverable := buffer.isRecoverable
  encoding := buffer.encoding
  isWarning := buffer.isWarning
  sqlState :=
    if buffer.code = 12154 then "42S02"
    else if buffer.errorNum = some .connClosed then "01002"
    else if buffer.code = 0 ∧ buffer.errorNum = none then "00000"
    else "HY000"

/-- The part of `dpiGlobal__getErrorBuffer` that clears the error when a function starts. -/
def start (fnName : String) : ErrorBuffer :=
  { buffer with
    code := 0
    offset := 0
    errorNum := none
    isRecoverable := false
    messageLength := 0
    fnName := some fnName
    action := some "start"
    isWarning := false
    encoding := utf8Name }

end ErrorBuffer

/-- A call of `dpiContext_createWithParams`, of another public function, or of
`dpiContext_getError`. -/
inductive GlobalCall where
  | create (fnName : String)
  | function (fnName : String)
  | getError
deriving DecidableEq, Repr

def GlobalCall.fnName : GlobalCall → Option String
  | .create fnName => some fnName
  | .function fnName => some fnName
  | .getError => none

/-- Where a thread is between two accesses to what it shares with others. -/
inductive GlobalPoint where
  /-- at the first look at `dpiGlobalInitialized` -/
  | checking
  | acquiring
  /-- at the second look, with the mutex -/
  | rechecking
  | loading
  | creatingEnv
  | allocatingError
  | creatingKey
  | marking
  | releasing
  /-- at the third look, without the mutex -/
  | checkingAgain
  | gettingBuffer
  | allocatingBuffer
  | settingBuffer
  /-- in the body of the function -/
  | running
  /-- on the way out, without an error buffer of the thread -/
  | leaving
deriving DecidableEq, Repr

/-- `ownBuffer` is false while the error points to the global buffer; `errors` are those
that have been recorded through this pointer. -/
structure GlobalThread where
  call : GlobalCall
  point : GlobalPoint
  ownBuffer : Bool
  errors : List ErrorSource
deriving DecidableEq, Repr

/-- A call that has returned, with the error information it has given to its caller. -/
structure GlobalEntry where
  thread : Nat
  call : GlobalCall
  ownBuffer : Bool
  errors : List ErrorSource
  info : Option ErrorDetails
deriving DecidableEq, Repr

/-- The static variables of `dpiGlobal.c`, the environments of OCI, and the values that OCI
keeps under the thread key.  An error handle and a key are named by the environment they
have been created in.  `faulted` is set when OCI is given a handle that it has freed. -/
structure GlobalState where
  envHandle : Option Nat
  errorHandle : Option Nat
  threadKey : Option Nat
  errorBuffer : ErrorBuffer
  initialized : Bool
  mutex : Option Nat
  environments : Store Unit
  buffers : Nat → Option ErrorBuffer
  threads : Nat → Option GlobalThread
  faulted : Bool
  history : List GlobalEntry

/-- How the operation that a thread is at ends; it has set the error when it fails.  Halfway,
OCI has failed to create an environment but returns its handle. -/
inductive GlobalOutcome where
  | ok
  | fails (error : ErrorSource)
  | halfway (error : ErrorSource)
deriving DecidableEq, Repr

/-- What a thread does next: it starts a call, goes on with it, or ends it. -/
inductive GlobalAction where
  | start (call : GlobalCall)
  | proceed (outcome : GlobalOutcome)
  | set (error : ErrorSource)
  | finish (succeeded : Bool)
deriving DecidableEq, Repr

/-- `DPI_ERR_CONTEXT_NOT_CREATED` -/
def contextNotCreated : ErrorSource :=
  .set "check context creation" .contextNotCreated (utf8 "DPI-1074: ODPI-C context not created")

/-- `DPI_ERR_TLS_ERROR` -/
def tlsError (action : String) : ErrorSource :=
  .set action .tlsError
    (utf8 "DPI-1030: unable to get or set error structure for thread local storage")

/-- `DPI_ERR_NO_MEMORY` -/
def noMemory (action : String) : ErrorSource :=
  .set action .noMemory (utf8 "DPI-1001: out of memory")

/-- The name of a symbol is a part of the text. -/
def ErrorSource.isLoadSymbol : ErrorSource → Bool
  | .set "get symbol" .loadSymbol _ => true
  | _ => false

/-- The errors that the operation of a point can set. -/
def GlobalPoint.sets : GlobalPoint → ErrorSource → Bool
  | .loading, _ => true
  | .creatingEnv, error => error = .set "create env" .createEnv
      (utf8 "DPI-1005: unable to acquire Oracle environment handle") || error.isLoadSymbol
  | .allocatingError, error => error = noMemory "create global error" || error.isLoadSymbol
  -- there is no error handle yet
  | .creatingKey, error =>
      error = .set "initialize thread key" .errNotInitialized
        (utf8 "DPI-1003: OCI error handle is not initialized") ||
      error = .set "initialize thread key" .invalidHandle
        (utf8 "DPI-1002: invalid OCI handle") || error.isLoadSymbol
  | .gettingBuffer, error => error = tlsError "get TLS error"
  | .allocatingBuffer, error => error = noMemory "allocate error buffer"
  | .settingBuffer, error => error = tlsError "set TLS error" || error.isLoadSymbol
  | _, _ => false

namespace GlobalState

/-- `dpiGlobal__initialize` -/
def init : GlobalState where
  envHandle := none
  errorHandle := none
  threadKey := none
  errorBuffer := { ErrorBuffer.zero with encoding := ErrorBuffer.utf8Name }
  initialized := false
  mutex := none
  environments := []
  buffers := fun _ => none
  threads := fun _ => none
  faulted := false
  history := []

variable (s : GlobalState) (t : Nat) (thread : GlobalThread)

def setThread (thread : Option GlobalThread) : GlobalState :=
  { s with threads := Function.update s.threads t thread }

/-- The thread goes on at the point. -/
def goto (point : GlobalPoint) : GlobalState :=
  s.setThread t (some { thread with point })

/-- The buffer that the error of the thread points to. -/
def bufferOf : ErrorBuffer :=
  if thread.ownBuffer then (s.buffers t).getD .zero else s.errorBuffer

/-- The error goes to the buffer that the thread's error points to. -/
def report (error : ErrorSource) : GlobalState :=
  if thread.ownBuffer then
    { s with buffers := Function.update s.buffers t (some ((s.bufferOf t thread).record error)) }
  else { s with errorBuffer := s.errorBuffer.record error }

/-- The error is recorded, and the thread goes on at the point. -/
def failAt (error : ErrorSource) (point : GlobalPoint) : GlobalState :=
  (s.report t thread error).goto t { thread with errors := thread.errors ++ [error] } point

/-- The environment that a handle was created in is there. -/
def live (handle : Option Nat) : Bool :=
  (handle.bind (get s.environments)).isSome

/-- OCI is given a handle that is `valid`, or the program goes wrong. -/
def uses (valid : Bool) : GlobalState :=
  { s with faulted := s.faulted || !valid }

/-- The handles that access to the thread key needs are used. -/
def usesKey : GlobalState :=
  s.uses (s.live s.envHandle && s.live s.errorHandle && s.live s.threadKey)

/-- `dpiOci__handleFree` of `dpiGlobalEnvHandle`, which keeps its value. -/
def freeEnv : GlobalState :=
  { s.uses (s.live s.envHandle) with
    environments := (s.envHandle.map (free s.environments)).getD s.environments }

/-- `dpiOci__envNlsCreate` has returned a handle. -/
def newEnv : GlobalState :=
  { s with
    envHandle := some s.environments.length
    environments := alloc s.environments () }

/-- The end of `dpiGlobal__getErrorBuffer`. -/
def takeBuffer (buffer : ErrorBuffer) : GlobalState :=
  let buffer := (thread.call.fnName.map buffer.start).getD buffer
  { s with buffers := Function.update s.buffers t (some buffer) }.setThread t
    (some ⟨thread.call, .running, true, []⟩)

/-- `dpiContext_getError` goes on without an error buffer of its thread. -/
def withoutBuffer : GlobalPoint :=
  match thread.call with
  | .getError => .running
  | _ => .leaving

/-- The step of the thread, when what it calls succeeds. -/
def succeed : Option GlobalState :=
  match thread.point with
  | .checking =>
      if s.initialized then some (s.goto t thread .gettingBuffer)
      else
        match thread.call with
        | .create _ => some (s.goto t thread .acquiring)
        | _ => some (s.failAt t thread contextNotCreated (withoutBuffer thread))
  | .acquiring =>
      if s.mutex.isNone then some ({ s with mutex := some t }.goto t thread .rechecking) else none
  | .rechecking =>
      some (s.goto t thread (if s.initialized then .releasing else .loading))
  | .loading => some (s.goto t thread .creatingEnv)
  | .creatingEnv => some (s.newEnv.goto t thread .allocatingError)
  | .allocatingError =>
      some ({ s.uses (s.live s.envHandle) with errorHandle := s.envHandle }.goto t thread
        .creatingKey)
  | .creatingKey =>
      -- under a new key there are no values
      some ({ s.uses (s.live s.envHandle && s.live s.errorHandle) with
        threadKey := s.envHandle, buffers := fun _ => none }.goto t thread .marking)
  | .marking => some ({ s with initialized := true }.goto t thread .releasing)
  | .releasing => some ({ s with mutex := none }.goto t thread .checkingAgain)
  | .checkingAgain =>
      some (s.goto t thread (if s.initialized then .gettingBuffer else .leaving))
  | .gettingBuffer =>
      match s.buffers t with
      | some buffer => some (s.usesKey.takeBuffer t thread buffer)
      | none => some (s.usesKey.goto t thread .allocatingBuffer)
  | .allocatingBuffer => some (s.goto t thread .settingBuffer)
  | .settingBuffer => some (s.usesKey.takeBuffer t thread .zero)
  | .running | .leaving => none

/-- The step of the thread, when what it calls fails with the error. -/
def fail (error : ErrorSource) : Option GlobalState :=
  if thread.point.sets error then
    match thread.point with
    | .loading => some (s.failAt t thread error .releasing)
    | .creatingEnv => some ({ s with envHandle := none }.failAt t thread error .releasing)
    | .allocatingError =>
        some ((s.uses (s.live s.envHandle)).freeEnv.failAt t thread error .releasing)
    | .creatingKey =>
        some ((s.uses (s.live s.envHandle && s.live s.errorHandle)).freeEnv.failAt t thread error
          .releasing)
    | .gettingBuffer => some (s.usesKey.failAt t thread error (withoutBuffer thread))
    | .allocatingBuffer => some (s.failAt t thread error (withoutBuffer thread))
    | .settingBuffer => some (s.usesKey.failAt t thread error (withoutBuffer thread))
    | _ => none
  else none

/-- What the caller is told: `dpiContext_getError` is asked for the error, and
`dpiContext_createWithParams` returns it when it fails. -/
def infoFor (succeeded : Bool) : Option ErrorDetails :=
  match thread.call with
  | .getError => some (s.bufferOf t thread).getInfo
  | .create _ => if succeeded then none else some (s.bufferOf t thread).getInfo
  | .function _ => none

/-- The thread returns from its call. -/
def finish (succeeded : Bool) : GlobalState :=
  { s with
    history := ⟨t, thread.call, thread.ownBuffer, thread.errors,
      s.infoFor t thread succeeded⟩ :: s.history }.setThread t none

/-- The beginning of `dpiGlobal__ensureInitialized` and `dpiGlobal__initError`. -/
def startCall (call : GlobalCall) : GlobalState :=
  { s with
    errorBuffer := (call.fnName.map fun fnName =>
      { s.errorBuffer with fnName := some fnName }).getD s.errorBuffer }.setThread t
    (some ⟨call, .checking, false, []⟩)

/-- One step of one thread. -/
def step (s : GlobalState) (label : Nat × GlobalAction) : Option GlobalState :=
  let (t, action) := label
  match s.threads t, action with
  | none, .start call => some (s.startCall t call)
  | some thread, .proceed .ok => s.succeed t thread
  | some thread, .proceed (.fails error) => s.fail t thread error
  | some thread, .proceed (.halfway error) =>
      if thread.point = .creatingEnv then some (s.newEnv.failAt t thread error .releasing)
      else none
  | some thread, .set error =>
      if thread.point = .running then some (s.failAt t thread error .running) else none
  | some thread, .finish succeeded =>
      if thread.point = .running ∨ thread.point = .leaving ∧ succeeded = false then
        some (s.finish t thread succeeded)
      else none
  | _, _ => none

def run : GlobalState → List (Nat × GlobalAction) → Option GlobalState
  | s, [] => some s
  | s, label :: labels => (s.step label).bind fun s' => s'.run labels

/-- The thread key and its value for the thread are destroyed. -/
def destroyKey : GlobalState :=
  if s.threadKey.isSome then
    { s.usesKey with buffers := Function.update s.buffers t none, threadKey := none }
  else s

def destroyEnv : GlobalState :=
  if s.envHandle.isSome then { s.freeEnv with envHandle := none } else s

/-- `dpiGlobal__finalize`, on the thread that ends the process. -/
def finalize : Option GlobalState :=
  if s.mutex.isSome then none
  else some ({ s with initialized := false }.destroyKey t).destroyEnv

end GlobalState

end OracleNIO.Dpi
