import OracleNIO.DpiHandleList
import OracleNIO.ObjectStore

/-!
The handles of ODPI-C and the references that they hold to each other: connections,
statements and variables of types whose values are no handles, used by one thread at a
time (`dpiGen.c`, `dpiConn.c`, `dpiStmt.c`, `dpiVar.c`).  An access to memory that has
been freed is a fault, `none`, and so is a count below zero.
-/

namespace OracleNIO.Dpi

open ObjectStore

/-- What the calls read and write of `dpiConn`. -/
structure ConnObject where
  refCount : Nat
  /-- The handle of the service context is there. -/
  handle : Bool
  closing : Bool
  deadSession : Bool
  openStmts : HandleList Nat
deriving DecidableEq, Repr

/-- What the calls read and write of `dpiVar`. -/
structure VarObject where
  refCount : Nat
  conn : Nat
deriving DecidableEq, Repr

/-- `dpiBindVar` -/
structure BindEntry where
  pos : Nat
  name : List UInt8
  var : Option Nat
deriving DecidableEq, Repr

/-- `queryInfo` is `NULL` as long as there are no query variables. -/
structure StmtObject where
  refCount : Nat
  conn : Nat
  handle : Bool
  closing : Bool
  openSlotNum : Nat
  bindVars : List BindEntry
  queryVars : List (Option Nat)
deriving DecidableEq, Repr

/-- `unreleased` is no memory: the references that failing calls leave to nobody. -/
structure Heap where
  conns : Store ConnObject
  vars : Store VarObject
  stmts : Store StmtObject
  unreleased : List Nat
deriving DecidableEq, Repr

namespace ConnObject

/-- `dpiConn__checkConnected` -/
def connected (conn : ConnObject) : Bool :=
  conn.handle && !conn.closing && !conn.deadSession

end ConnObject

namespace StmtObject

/-- The variables that are bound to the statement, each as often as it is. -/
def boundVars (stmt : StmtObject) : List Nat :=
  stmt.bindVars.filterMap BindEntry.var

/-- The variables that are defined for the columns of the query. -/
def definedVars (stmt : StmtObject) : List Nat :=
  stmt.queryVars.filterMap id

def setBindVar (stmt : StmtObject) (i : Nat) (var : Option Nat) : StmtObject :=
  { stmt with bindVars := stmt.bindVars.modify i fun entry => { entry with var } }

end StmtObject

namespace Heap

def putConn (heap : Heap) (c : Nat) (conn : ConnObject) : Heap :=
  { heap with conns := put heap.conns c conn }

def putVar (heap : Heap) (v : Nat) (var : VarObject) : Heap :=
  { heap with vars := put heap.vars v var }

def putStmt (heap : Heap) (s : Nat) (stmt : StmtObject) : Heap :=
  { heap with stmts := put heap.stmts s stmt }

/-! An object is taken out of the heap before the references that it holds are released, so
that whatever gets to it in between is a fault. -/

/-- `dpiGen__setRefCount` with an increment of 1. -/
def retainConn (heap : Heap) (c : Nat) : Option Heap := do
  let conn ← get heap.conns c
  some (heap.putConn c { conn with refCount := conn.refCount + 1 })

/-- `dpiGen__setRefCount` with an increment of 1. -/
def retainVar (heap : Heap) (v : Nat) : Option Heap := do
  let var ← get heap.vars v
  some (heap.putVar v { var with refCount := var.refCount + 1 })

/-- `dpiGen__setRefCount` with an increment of 1. -/
def retainStmt (heap : Heap) (s : Nat) : Option Heap := do
  let stmt ← get heap.stmts s
  some (heap.putStmt s { stmt with refCount := stmt.refCount + 1 })

/-- An increment of -1. -/
def decrement (refCount : Nat) : Option Nat :=
  if refCount = 0 then none else some (refCount - 1)

section Release

-- the release of a reference to a connection, which frees it with the last one
variable (release : Heap → Nat → Option Heap)

/-- `dpiVar__free` -/
def varFree (heap : Heap) (v : Nat) : Option Heap := do
  let var ← get heap.vars v
  release { heap with vars := free heap.vars v } var.conn

/-- `dpiGen__setRefCount` with an increment of -1. -/
def releaseVar (heap : Heap) (v : Nat) : Option Heap := do
  let var ← get heap.vars v
  let refCount ← decrement var.refCount
  let heap := heap.putVar v { var with refCount }
  if refCount = 0 then heap.varFree release v else some heap

/-- The variables are released one after the other. -/
def releaseVars (heap : Heap) (vars : List Nat) : Option Heap :=
  vars.foldlM (releaseVar release) heap

/-- `dpiStmt__clearBindVars` -/
def clearBindVars (heap : Heap) (s : Nat) : Option Heap := do
  let stmt ← get heap.stmts s
  let heap ← heap.releaseVars release stmt.boundVars
  let stmt ← get heap.stmts s
  some (heap.putStmt s { stmt with bindVars := [] })

/-- `dpiStmt__clearQueryVars` -/
def clearQueryVars (heap : Heap) (s : Nat) : Option Heap := do
  let stmt ← get heap.stmts s
  let heap ← heap.releaseVars release stmt.definedVars
  let stmt ← get heap.stmts s
  some (heap.putStmt s { stmt with queryVars := [] })

/-- The list of open statements keeps the statements of a connection that is closing. -/
def removeOpenStmt (heap : Heap) (stmt : StmtObject) : Option Heap := do
  let conn ← get heap.conns stmt.conn
  if conn.closing then some heap
  else
    let openStmts := conn.openStmts.removeHandle stmt.openSlotNum
    some (heap.putConn stmt.conn { conn with openStmts })

/-- `dpiStmt__close`; `released` is the outcome of the release of the OCI handle. -/
def stmtClose (heap : Heap) (s : Nat) (released : Bool) : Option Heap := do
  let stmt ← get heap.stmts s
  if stmt.closing then some heap
  else do
    let heap := heap.putStmt s { stmt with closing := true }
    let heap ← heap.clearBindVars release s
    let heap ← heap.clearQueryVars release s
    let stmt ← get heap.stmts s
    if stmt.handle then do
      let heap ← heap.removeOpenStmt stmt
      some (heap.putStmt s { stmt with handle := false, closing := released })
    else some heap

/-- One turn of the loop over the open statements: whether it goes on. -/
def closeSlot (c : Nat) (released : Nat → Bool) (state : Bool × Heap) (i : Nat) :
    Option (Bool × Heap) := do
  if state.1 then do
    let conn ← get state.2.conns c
    match (conn.openStmts.handles[i]?).join with
    | none => some state
    | some s => do
        let heap ← state.2.stmtClose release s (released i)
        some (released i, heap)
  else some state

/-- `dpiConn__close`; `released` and `ended` are the outcomes of the release of the
statement in a slot and of the end of the session. -/
def connClose (heap : Heap) (c : Nat) (released : Nat → Bool) (ended : Bool) :
    Option (Bool × Heap) := do
  let conn ← get heap.conns c
  let (closed, heap) ←
    (List.range conn.openStmts.numSlots).foldlM (closeSlot release c released) (true, heap)
  if closed && ended then do
    let conn ← get heap.conns c
    some (true, heap.putConn c { conn with handle := false })
  else some (false, heap)

/-- `dpiConn__free`, where errors are ignored. -/
def connFree (heap : Heap) (c : Nat) : Option Heap := do
  let conn ← get heap.conns c
  let heap ←
    if conn.handle then (heap.connClose release c (fun _ => true) true).map Prod.snd
    else some heap
  some { heap with conns := free heap.conns c }

end Release

/-- The connections that are freed while one is freed are at most `depth`. -/
def releaseConn : Nat → Heap → Nat → Option Heap
  | 0, _, _ => none
  | depth + 1, heap, c => do
      let conn ← get heap.conns c
      let refCount ← decrement conn.refCount
      let heap := heap.putConn c { conn with refCount }
      if refCount = 0 then heap.connFree (releaseConn depth) c else some heap

/-- `dpiStmt__free` -/
def stmtFree (depth : Nat) (heap : Heap) (s : Nat) : Option Heap := do
  let heap ← heap.stmtClose (releaseConn depth) s true
  let stmt ← get heap.stmts s
  { heap with stmts := free heap.stmts s }.releaseConn depth stmt.conn

/-- `dpiGen__setRefCount` with an increment of -1. -/
def releaseStmt (depth : Nat) (heap : Heap) (s : Nat) : Option Heap := do
  let stmt ← get heap.stmts s
  let refCount ← decrement stmt.refCount
  let heap := heap.putStmt s { stmt with refCount }
  if refCount = 0 then heap.stmtFree depth s else some heap

/-- `dpiConn__check` -/
def connCheck (heap : Heap) (c : Nat) : Option Bool := do
  let conn ← get heap.conns c
  some conn.connected

/-- `dpiStmt__check` -/
def stmtCheck (heap : Heap) (s : Nat) : Option Bool := do
  let stmt ← get heap.stmts s
  if stmt.handle then heap.connCheck stmt.conn else some false

/-- The outcomes of `dpiVar__allocate`: it fails before there is a variable, or its
buffers cannot be allocated, or it succeeds. -/
inductive Allocated where
  | refused
  | noBuffers
  | allocated
deriving DecidableEq, Repr

/-- `dpiVar__allocate`: the variable, with a reference to it. -/
def varAllocate (depth : Nat) (heap : Heap) (c : Nat) (outcome : Allocated) :
    Option (Option Nat × Heap) :=
  match outcome with
  | .refused => some (none, heap)
  | .noBuffers => do
      let v := heap.vars.length
      let heap ← { heap with vars := alloc heap.vars ⟨1, c⟩ }.retainConn c
      let heap ← heap.varFree (releaseConn depth) v
      some (none, heap)
  | .allocated => do
      let v := heap.vars.length
      let heap ← { heap with vars := alloc heap.vars ⟨1, c⟩ }.retainConn c
      some (some v, heap)

/-- The outcomes of a call of `dpiConn_prepareStmt`: no statement could be allocated, or
the preparation failed in OCI, or it went on to the list of open statements. -/
inductive Prepared where
  | refused
  | notPrepared
  | prepared (listed initialised : Bool)
deriving DecidableEq, Repr

/-- `dpiConn_prepareStmt` with `dpiStmt__allocate` and `dpiStmt__prepare`: the statement,
with a reference to it. -/
def prepareStmt (depth : Nat) (heap : Heap) (c : Nat) (outcome : Prepared) :
    Option (Option Nat × Heap) := do
  let connected ← heap.connCheck c
  if !connected || outcome = .refused then some (none, heap)
  else do
    let s := heap.stmts.length
    let stmt : StmtObject := ⟨1, c, false, false, 0, [], []⟩
    let heap ← { heap with stmts := alloc heap.stmts stmt }.retainConn c
    match outcome with
    | .prepared listed initialised => do
        let conn ← get heap.conns c
        match conn.openStmts.addHandle s listed with
        | none => do
            let heap ← heap.stmtFree depth s
            some (none, heap)
        | some (openSlotNum, openStmts) => do
            let heap := heap.putConn c { conn with openStmts }
            let heap := heap.putStmt s { stmt with handle := true, openSlotNum }
            if initialised then some (some s, heap)
            else do
              let heap ← heap.stmtFree depth s
              some (none, heap)
    | _ => do
        let heap ← heap.stmtFree depth s
        some (none, heap)

/-- The outcomes of `dpiStmt__bind`: it fails before it changes the statement, or when the
variable is converted to a LOB, or it tries to bind the variable in OCI. -/
inductive Bound where
  | refused
  | notConverted
  | bound
deriving DecidableEq, Repr

/-- The entry has no variable. -/
def bindEntry (heap : Heap) (s i v : Nat) (outcome : Bound) : Option Heap :=
  match outcome with
  | .bound => do
      let heap ← heap.retainVar v
      let stmt ← get heap.stmts s
      some (heap.putStmt s (stmt.setBindVar i (some v)))
  | _ => some heap

/-- `dpiStmt__bind` -/
def bind (depth : Nat) (heap : Heap) (s pos : Nat) (name : List UInt8) (v : Nat)
    (outcome : Bound) : Option Heap := do
  let stmt ← get heap.stmts s
  if outcome = .refused then some heap
  else
    match stmt.bindVars.findIdx? fun entry => entry.pos = pos && entry.name = name with
    | none =>
        let bindVars := stmt.bindVars ++ [⟨pos, name, none⟩]
        (heap.putStmt s { stmt with bindVars }).bindEntry s stmt.bindVars.length v outcome
    | some i =>
        match (stmt.bindVars[i]?).bind BindEntry.var with
        | none => heap.bindEntry s i v outcome
        | some old =>
            if old = v then some heap
            else do
              let heap ← heap.releaseVar (releaseConn depth) old
              let stmt ← get heap.stmts s
              (heap.putStmt s (stmt.setBindVar i none)).bindEntry s i v outcome

/-- `dpiStmt_bindByPos` and `dpiStmt_bindByName` -/
def bindVar (depth : Nat) (heap : Heap) (s pos : Nat) (name : List UInt8) (v : Nat)
    (outcome : Bound) : Option Heap := do
  let usable ← heap.stmtCheck s
  let _ ← get heap.vars v
  if usable then heap.bind depth s pos name v outcome else some heap

/-- `dpiStmt_bindValueByPos` and `dpiStmt_bindValueByName` with `dpiStmt__createBindVar`.
A variable that the value cannot be `copied` to is not released. -/
def bindValue (depth : Nat) (heap : Heap) (s pos : Nat) (name : List UInt8)
    (created : Allocated) (copied : Bool) (outcome : Bound) : Option Heap := do
  let usable ← heap.stmtCheck s
  if usable then do
    let stmt ← get heap.stmts s
    let (var, heap) ← heap.varAllocate depth stmt.conn created
    match var with
    | none => some heap
    | some v =>
        if copied then do
          let heap ← heap.bind depth s pos name v outcome
          heap.releaseVar (releaseConn depth) v
        else some { heap with unreleased := v :: heap.unreleased }
  else some heap

/-- Every variable is there, and it is not `NULL`. -/
def touch (heap : Heap) : List (Option Nat) → Option Unit
  | [] => some ()
  | var :: vars => do
      let v ← var
      let _ ← get heap.vars v
      heap.touch vars

/-- `dpiStmt__createQueryVars` for a number of columns, and whether it succeeds; it may
fail to describe them. -/
def createQueryVars (depth : Nat) (heap : Heap) (s numQueryVars : Nat) (described : Bool) :
    Option (Bool × Heap) := do
  let stmt ← get heap.stmts s
  if stmt.queryVars.length = numQueryVars then some (true, heap)
  else do
    let heap ←
      if 0 < stmt.queryVars.length then heap.clearQueryVars (releaseConn depth) s
      else some heap
    let stmt ← get heap.stmts s
    let queryVars := if described then List.replicate numQueryVars none else []
    some (described, heap.putStmt s { stmt with queryVars })

/-- The variables of a query are created where there are none. -/
def ensureQueryVars (depth : Nat) (heap : Heap) (s numQueryVars : Nat) (described : Bool) :
    Option (Bool × Heap) := do
  let stmt ← get heap.stmts s
  if stmt.queryVars.length = 0 then heap.createQueryVars depth s numQueryVars described
  else some (true, heap)

/-- `dpiStmt_execute`.  A query that has been executed in OCI has `columns`, which OCI may
fail to describe. -/
def execute (depth : Nat) (heap : Heap) (s : Nat) (columns : Option (Nat × Bool)) :
    Option Heap := do
  let usable ← heap.stmtCheck s
  if usable then do
    let stmt ← get heap.stmts s
    heap.touch (stmt.bindVars.map BindEntry.var)
    match columns with
    | none => some heap
    | some (numQueryVars, described) =>
        (heap.createQueryVars depth s numQueryVars described).map Prod.snd
  else some heap

/-- The outcomes for one column: those of `dpiVar__allocate` and of the define in OCI. -/
structure ColumnOutcome where
  allocated : Allocated
  defined : Bool
deriving DecidableEq, Repr

/-- The loop of `dpiStmt__beforeFetch`, and whether it gets to its end.  A variable that
cannot be defined is not released; the define of a new variable changes no other one. -/
def beforeFetch (depth : Nat) (s : Nat) (outcome : Nat → ColumnOutcome) :
    Heap → List Nat → Option (Bool × Heap)
  | heap, [] => some (true, heap)
  | heap, i :: columns => do
      let stmt ← get heap.stmts s
      match (stmt.queryVars[i]?).join with
      | some v => do
          let _ ← get heap.vars v
          beforeFetch depth s outcome heap columns
      | none => do
          let (var, heap) ← heap.varAllocate depth stmt.conn (outcome i).allocated
          match var with
          | none => some (false, heap)
          | some v =>
              if (outcome i).defined then do
                let heap ← heap.retainVar v
                let stmt ← get heap.stmts s
                let heap := heap.putStmt s
                  { stmt with queryVars := stmt.queryVars.set i (some v) }
                let heap ← heap.releaseVar (releaseConn depth) v
                beforeFetch depth s outcome heap columns
              else some (false, { heap with unreleased := v :: heap.unreleased })

/-- `dpiStmt_fetch` and `dpiStmt_fetchRows`, when no row is left in the buffers and
another fetch is due. -/
def fetch (depth : Nat) (heap : Heap) (s numQueryVars : Nat) (described : Bool)
    (outcome : Nat → ColumnOutcome) : Option Heap := do
  let usable ← heap.stmtCheck s
  if usable then do
    let (created, heap) ← heap.ensureQueryVars depth s numQueryVars described
    if created then do
      let stmt ← get heap.stmts s
      let (prefetched, heap) ←
        beforeFetch depth s outcome heap (List.range stmt.queryVars.length)
      if prefetched then do
        let stmt ← get heap.stmts s
        heap.touch stmt.queryVars
        some heap
      else some heap
    else some heap
  else some heap

/-- `dpiStmt_getQueryValue` for the column behind `column` others. -/
def getQueryValue (heap : Heap) (s column : Nat) : Option Heap := do
  let usable ← heap.stmtCheck s
  if usable then do
    let stmt ← get heap.stmts s
    match (stmt.queryVars[column]?).join with
    | some v => do
        let _ ← get heap.vars v
        some heap
    | none => some heap
  else some heap

/-- `dpiStmt_close` -/
def closeStmt (depth : Nat) (heap : Heap) (s : Nat) (released : Bool) : Option Heap := do
  let usable ← heap.stmtCheck s
  if usable then heap.stmtClose (releaseConn depth) s released else some heap

/-- `dpiConn_close` -/
def closeConn (depth : Nat) (heap : Heap) (c : Nat) (released : Nat → Bool) (ended : Bool) :
    Option Heap := do
  let conn ← get heap.conns c
  if conn.handle && !conn.closing then do
    let heap := heap.putConn c { conn with closing := true }
    let (closed, heap) ← heap.connClose (releaseConn depth) c released ended
    if closed then some heap
    else do
      let conn ← get heap.conns c
      some (heap.putConn c { conn with closing := false })
  else some heap

/-- An error of OCI may show that the session of a connection is dead. -/
def loseSession (heap : Heap) (c : Nat) : Option Heap := do
  let conn ← get heap.conns c
  some (heap.putConn c { conn with deadSession := true })

end Heap

end OracleNIO.Dpi
