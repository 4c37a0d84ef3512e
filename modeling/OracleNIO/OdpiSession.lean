import OracleNIO.DpiStmt
import OracleNIO.OracleConnection

/-!
The task of the package on an open connection, with one statement, against ODPI-C as
its source computes it.
-/

namespace OracleNIO

open Interaction SwiftRuntime ByteMemory Dpi

/-- An open connection with one statement.  Time and the memory behind the buffers
change in ways of which nothing is known: `clock` gives the time by the number of
positions bound, `beyond` the memory by the number of rows fetched and the column. -/
structure Session where
  env : DpiEnv
  conn : ConnHandle
  context : ContextHandle
  lastError : ErrorInfo
  clock : Nat → Date
  beyond : Nat → Nat → List UInt8
  stmt : DpiStmt
  vars : List DpiVar
  futures : Nat

namespace Session

/-- The status of a call that changes the statement. -/
def update (s : Session) : Option DpiStmt → Option Unit × Session
  | none => (none, s)
  | some stmt => (some (), { s with stmt })

/-- The calls that open and close the connection are not made in a session. -/
def answerCall (s : Session) : (call : DpiCall) → call.Reply × Session
  | .contextCreateWithParams .. => (.error s.lastError, s)
  | .contextDestroy _ => (none, s)
  | .contextGetError _ => (s.lastError, s)
  | .connCreate .. => (none, s)
  | .connClose .. => (none, s)
  | .connPrepareStmt .. => (none, s)
  | .connNewVar _ oracleType nativeType maxArraySize size sizeIsBytes isArray =>
      match DpiVar.allocate s.env oracleType nativeType maxArraySize size sizeIsBytes isArray
        false (s.env.uninitialised s.vars.length) with
      | none => (none, s)
      | some var => (some ⟨s.vars.length⟩, { s with vars := s.vars ++ [var] })
  | .stmtBindValueByPos _ pos nativeType data memory =>
      s.update (s.stmt.bindValueByPos s.env pos nativeType data memory)
  | .stmtBindByPos _ pos var =>
      s.update (do s.stmt.bind (← s.vars[(← var).address]?) pos)
  | .stmtExecute _ _ =>
      match s.stmt.execute s.env with
      | none => (none, s)
      | some stmt => (some stmt.getNumQueryColumns, { s with stmt })
  | .stmtGetNumQueryColumns _ => (some s.stmt.getNumQueryColumns, s)
  | .stmtGetQueryInfo _ pos => (s.stmt.getQueryInfo pos, s)
  | .stmtFetch _ =>
      match s.stmt.fetch s.env with
      | none => (none, s)
      | some (fetched, stmt) => (some fetched, { s with stmt })
  | .stmtGetQueryValue _ pos =>
      (s.stmt.getQueryValue pos (s.beyond s.stmt.rowCount (pos.toNat - 1)), s)
  | .stmtRelease _ => (some (), s)
  | .varRelease _ => (some (), s)

/-- How the session replies to an operation. -/
def answer : (op : Op) → Session → op.Reply × Session
  | .readHandle, s => (some s.conn, s)
  | .readContext, s => (some s.context, s)
  | .now, s => (s.clock s.stmt.bindVars.length, s)
  | .dpi c, s => s.answerCall c
  | .submitRow _, s => (s.futures, { s with futures := s.futures + 1 })
  | .submitClear, s => (s.futures, { s with futures := s.futures + 1 })
  | .andAllSucceed _, s => (s.futures, { s with futures := s.futures + 1 })
  | .cascade _, s => ((), s)
  | .promiseFail _, s => ((), s)

abbrev run {α : Type} (s : Session) (p : Task α) : Outcome OracleError α × Session :=
  p.exec answer s

variable {α β : Type}

@[simp] theorem run_trap (s : Session) : s.run (.trap : Task α) = (.trap, s) := rfl

theorem run_bind (s : Session) (p : Task α) (f : α → Task β) :
    s.run (p >>= f) = Prog.execNext answer f (s.run p) :=
  Prog.exec_bind answer p f s

theorem run_bind_value {s s' : Session} {p : Task α} {a : α} (h : s.run p = (.value a, s'))
    (f : α → Task β) : s.run (p >>= f) = s'.run (f a) := by
  rw [run_bind, h]
  rfl

theorem run_bind_not_value {s : Session} {p : Task α}
    (h : ∀ a s', s.run p ≠ (.value a, s')) (f : α → Task β) :
    ∀ b s', s.run (p >>= f) ≠ (.value b, s') := by
  intro b s' hrun
  obtain ⟨a, s₁, hp, _⟩ := Prog.exec_bind_eq_value.mp hrun
  exact h a s₁ hp

theorem run_perform_bind {s s' : Session} {op : Op} {r : op.Reply}
    (h : answer op s = (r, s')) (f : op.Reply → Task β) :
    s.run (perform op >>= f) = s'.run (f r) := by
  change (answer op s).2.run (f (answer op s).1) = _
  rw [h]

section Calls

variable {s : Session} (handle : StmtHandle)

theorem answer_execute_none (h : s.stmt.execute s.env = none) (mode : UInt32) :
    answer (.dpi (.stmtExecute handle mode)) s = (none, s) := by
  simp only [answer, answerCall, h]
  rfl

theorem answer_execute_some {stmt : DpiStmt} (h : s.stmt.execute s.env = some stmt)
    (mode : UInt32) : answer (.dpi (.stmtExecute handle mode)) s =
      (some stmt.getNumQueryColumns, { s with stmt }) := by
  simp only [answer, answerCall, h]
  rfl

theorem answer_fetch_none (h : s.stmt.fetch s.env = none) :
    answer (.dpi (.stmtFetch handle)) s = (none, s) := by
  simp only [answer, answerCall, h]
  rfl

theorem answer_fetch_some {fetched : FetchedRow} {stmt : DpiStmt}
    (h : s.stmt.fetch s.env = some (fetched, stmt)) :
    answer (.dpi (.stmtFetch handle)) s = (some fetched, { s with stmt }) := by
  simp only [answer, answerCall, h]
  rfl

end Calls

theorem run_ofOutcome (s : Session) (out : Outcome OracleError α) :
    s.run (Prog.ofOutcome out) = (out, s) := by
  cases out <;> rfl

end Session

/-- A session with no rows fetched, for a database in UTF-8. -/
def newSession (stmt : DpiStmt) : Session where
  env :=
    { maxBytesPerCharacter := 4
      nmaxBytesPerCharacter := 4
      supportsBoolean := true
      supportsJson := true
      numberFromInt := fun v => some ⟨some v, none⟩
      numberFromReal := fun v => some ⟨none, some v⟩
      uninitialised := fun _ _ => 0 }
  conn := ⟨1⟩
  context := ⟨2⟩
  lastError := ⟨0, [], 0⟩
  clock := fun _ => ⟨0⟩
  beyond := fun _ _ => []
  stmt := stmt
  vars := []
  futures := 0

end OracleNIO
