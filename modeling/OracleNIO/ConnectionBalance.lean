import OracleNIO.ConnectArguments
import OracleNIO.FailureReports
import Mathlib.Algebra.BigOperators.Group.List.Basic
import Mathlib.Logic.Relation

/-!
The contexts and references that calls of `connect` and `close` take and give back.
-/

namespace OracleNIO.ConnectionBalance

open Interaction Prog SwiftRuntime ByteMemory Dpi OracleConnection ConnectRuns ConnectArguments
  FailureReports

/-- A connection that `connect` has returned: its fields, the operations of the calls of
`close` that are done, and the one that is not. -/
structure Connection where
  fields : OracleConnection
  closed : List TaskEvent
  closing : Option Closing

/-- A call of `connect` with its argument, its operations, and what it has returned. -/
structure Call where
  clientLibraryDir : Option String
  opening : List TaskEvent
  connection : Option Connection

/-- A call of `connect`, a call of `close` on a connection that is not being closed, a step
of the pool task or of the event loop for a close, or the end of a close. -/
inductive Step (rt : Runtime) : List Call → List Call → Prop
  | connected {s : List Call} {authorizationMode username password connectionString
      clientLibraryDir tr connection} :
      (connect rt authorizationMode username password connectionString clientLibraryDir).Runs tr
        (.value connection) →
      Step rt s (s ++ [⟨clientLibraryDir, tr, some ⟨connection, [], none⟩⟩])
  | refused {s : List Call} {authorizationMode username password connectionString
      clientLibraryDir tr error} :
      (connect rt authorizationMode username password connectionString clientLibraryDir).Runs tr
        (.error error) →
      Step rt s (s ++ [⟨clientLibraryDir, tr, none⟩])
  | close {before after : List Call} {dir tr fields closed} :
      Step rt (before ++ ⟨dir, tr, some ⟨fields, closed, none⟩⟩ :: after)
        (before ++ ⟨dir, tr, some ⟨fields, closed, some (.init fields)⟩⟩ :: after)
  | turn {before after : List Call} {dir tr fields closed label} {closing closing' : Closing} :
      closing.step label = some closing' →
      Step rt (before ++ ⟨dir, tr, some ⟨fields, closed, some closing⟩⟩ :: after)
        (before ++ ⟨dir, tr, some ⟨fields, closed, some closing'⟩⟩ :: after)
  | done {before after : List Call} {dir tr fields closed r} {closing : Closing} :
      closing.result = some r →
      Step rt (before ++ ⟨dir, tr, some ⟨fields, closed, some closing⟩⟩ :: after)
        (before ++
          ⟨dir, tr, some ⟨closing.connection, closed ++ closing.history, none⟩⟩ :: after)

/-- What some sequence of calls leads to. -/
def Reachable (rt : Runtime) (s : List Call) : Prop :=
  Relation.ReflTransGen (Step rt) [] s

/-- No task is pending. -/
def Quiescent (s : List Call) : Prop :=
  ∀ call ∈ s, ∀ connection ∈ call.connection, connection.closing = none

/-- A context is destroyed by the call. -/
def destroys : TaskEvent → Bool
  | ⟨.dpi (.contextDestroy (some _)), some _⟩ => true
  | _ => false

/-- A connection is closed by the call. -/
def closes : TaskEvent → Bool
  | ⟨.dpi (.connClose (some _) _), some _⟩ => true
  | _ => false

/-- `dpiConn_create` returns a reference; neither `dpiConn_close` nor `dpiContext_destroy`
gives it back. -/
def referenceChange : TaskEvent → Int
  | ⟨.dpi (.connCreate _ _ _ _ _ _), some _⟩ => 1
  | _ => 0

namespace Connection

def history (connection : Connection) : List TaskEvent :=
  connection.closed ++ (connection.closing.map Closing.history).getD []

end Connection

namespace Call

def history (call : Call) : List TaskEvent :=
  call.opening ++ (call.connection.map Connection.history).getD []

/-- A `dpiConn_close` of the connection has succeeded. -/
def isClosed (call : Call) : Bool :=
  call.history.any closes

/-- A connection was handed out and has not been closed. -/
def isOpen (call : Call) : Bool :=
  call.connection.isSome && !call.isClosed

end Call

def history (s : List Call) : List TaskEvent :=
  s.flatMap Call.history

/-- A context is created by the call. -/
def creates (e : TaskEvent) : Bool :=
  (created e).isSome

/-- As many contexts are left as connections are open, a call of `connect` that fails
leaves none, and the reference to a connection that has been closed is released. -/
structure Balanced (s : List Call) : Prop where
  contexts : (history s).countP creates = (history s).countP destroys + s.countP Call.isOpen
  refused : ∀ call ∈ s, call.connection = none →
    call.opening.countP creates = call.opening.countP destroys
  released : ∀ call ∈ s, call.isClosed = true → (call.history.map referenceChange).sum = 0

/-- An operation that neither creates a context nor takes a reference. -/
def TakesNothing (e : TaskEvent) : Prop :=
  creates e = false ∧ referenceChange e = 0

/-- What the history of a call to `connect` and of its connection can be. -/
inductive Accounted (rt : Runtime) : Call → Prop
  | refused {authorizationMode username password connectionString clientLibraryDir tr error} :
      (connect rt authorizationMode username password connectionString clientLibraryDir).Runs tr
        (.error error) → Accounted rt ⟨clientLibraryDir, tr, none⟩
  | returned {authorizationMode username password connectionString clientLibraryDir tr connection
      fields closed closing} :
      (connect rt authorizationMode username password connectionString clientLibraryDir).Runs tr
        (.value connection) → (∀ e ∈ closed, TakesNothing e) →
      (∀ c ∈ closing, ∃ connection, FailureReports.Invariant connection c) →
      Accounted rt ⟨clientLibraryDir, tr, some ⟨fields, closed, closing⟩⟩

variable {rt : Runtime} {s s' : List Call}

theorem takesNothing_closing {connection : OracleConnection} {closing : Closing}
    (h : FailureReports.Invariant connection closing) : ∀ e ∈ closing.history, TakesNothing e := by
  obtain ⟨handle, closed, context, destroyed, cleared, hhistory⟩ := h.history
  intro e he
  rcases mem_clearing (hhistory.subset he) with rfl | rfl | rfl | rfl | rfl | rfl <;>
    exact ⟨rfl, rfl⟩

theorem accounted_step (h : ∀ call ∈ s, Accounted rt call) (hstep : Step rt s s') :
    ∀ call ∈ s', Accounted rt call := by
  cases hstep with
  | connected hrun =>
      rw [List.forall_mem_append]
      refine ⟨h, ?_⟩
      rw [List.forall_mem_singleton]
      exact .returned hrun (by simp) (by simp)
  | refused hrun =>
      rw [List.forall_mem_append]
      refine ⟨h, ?_⟩
      rw [List.forall_mem_singleton]
      exact .refused hrun
  | @close before after dir tr fields closed =>
      rw [List.forall_mem_append, List.forall_mem_cons] at h ⊢
      refine ⟨h.1, ?_, h.2.2⟩
      cases h.2.1 with
      | returned hrun hclosed _ =>
          refine .returned hrun hclosed ?_
          rintro c ⟨⟩
          exact ⟨fields, .init fields⟩
  | @turn before after dir tr fields closed label closing closing' hturn =>
      rw [List.forall_mem_append, List.forall_mem_cons] at h ⊢
      refine ⟨h.1, ?_, h.2.2⟩
      cases h.2.1 with
      | returned hrun hclosed hclosing =>
          obtain ⟨connection, hinvariant⟩ := hclosing closing rfl
          refine .returned hrun hclosed ?_
          rintro c ⟨⟩
          exact ⟨connection, invariant_step hinvariant hturn⟩
  | @done before after dir tr fields closed r closing hr =>
      rw [List.forall_mem_append, List.forall_mem_cons] at h ⊢
      refine ⟨h.1, ?_, h.2.2⟩
      cases h.2.1 with
      | returned hrun hclosed hclosing =>
          obtain ⟨connection, hinvariant⟩ := hclosing closing rfl
          refine .returned hrun ?_ (by simp)
          rw [List.forall_mem_append]
          exact ⟨hclosed, takesNothing_closing hinvariant⟩

theorem accounted_reachable (h : Reachable rt s) : ∀ call ∈ s, Accounted rt call := by
  induction h with
  | refl => simp
  | tail _ hstep ih => exact accounted_step ih hstep

section Opening

variable {authorizationMode : AuthorizationMode} {username password connectionString : String}
  {clientLibraryDir : Option String} {tr : List TaskEvent}

theorem opening_returned {connection : OracleConnection}
    (hrun : (connect rt authorizationMode username password connectionString
      clientLibraryDir).Runs tr (.value connection)) :
    tr.countP creates = 1 + clientLibraryDir.isSome.toNat ∧
      (tr.map referenceChange).sum = 1 := by
  obtain ⟨first, context, handle, u, p, c, hfirst, rfl, _⟩ :=
    runs_connect_value authorizationMode hrun
  cases hfirst with
  | none => exact ⟨rfl, rfl⟩
  | some dir context => exact ⟨rfl, rfl⟩

theorem opening_keeps {out : Outcome OracleError OracleConnection}
    (hrun : (connect rt authorizationMode username password connectionString
      clientLibraryDir).Runs tr out) : ∀ e ∈ tr, destroys e = false ∧ closes e = false := by
  apply forall_mem_connect (P := fun e => destroys e = false ∧ closes e = false)
    authorizationMode hrun
  · exact fun _ _ => ⟨rfl, rfl⟩
  · exact fun _ _ _ _ _ _ _ _ => ⟨rfl, rfl⟩
  · exact fun _ _ => ⟨rfl, rfl⟩

end Opening

/-- A connection that was opened with a client library directory. -/
def Call.hasDir (call : Call) : Bool :=
  call.connection.isSome && call.clientLibraryDir.isSome

theorem Accounted.refused_eq {call : Call} (h : Accounted rt call)
    (hnone : call.connection = none) :
    call.isClosed = false ∧ call.opening.countP destroys = 0 ∧ call.history = call.opening := by
  cases h with
  | returned _ _ _ => cases hnone
  | @refused _ _ _ _ dir tr _ hrun =>
      have hkeeps := opening_keeps hrun
      have hhistory : Call.history ⟨dir, tr, none⟩ = tr := List.append_nil tr
      refine ⟨?_, ?_, hhistory⟩
      · rw [Call.isClosed, hhistory, List.any_eq_false]
        intro e he
        rw [(hkeeps e he).2]
        exact Bool.false_ne_true
      · rw [List.countP_eq_zero]
        intro e he
        rw [(hkeeps e he).1]
        exact Bool.false_ne_true

theorem Accounted.returned_eq {call : Call} (h : Accounted rt call)
    (hsome : call.connection.isSome = true) :
    call.history.countP creates = 1 + call.clientLibraryDir.isSome.toNat ∧
      (call.history.map referenceChange).sum = 1 := by
  cases h with
  | refused _ => cases hsome
  | @returned _ _ _ _ dir tr _ fields closed closing hrun hclosed hclosing =>
      obtain ⟨hcreates, hreferences⟩ := opening_returned hrun
      have hrest : ∀ e ∈ Connection.history ⟨fields, closed, closing⟩, TakesNothing e := by
        intro e he
        rcases List.mem_append.mp he with he | he
        · exact hclosed e he
        · cases closing with
          | none => cases he
          | some c =>
              obtain ⟨connection, hinvariant⟩ := hclosing c rfl
              exact takesNothing_closing hinvariant e he
      have hhistory : Call.history ⟨dir, tr, some ⟨fields, closed, closing⟩⟩ =
          tr ++ Connection.history ⟨fields, closed, closing⟩ := rfl
      rw [hhistory, List.countP_append, List.map_append, List.sum_append, hcreates, hreferences]
      constructor
      · have hzero : (Connection.history ⟨fields, closed, closing⟩).countP creates = 0 := by
          rw [List.countP_eq_zero]
          intro e he
          rw [(hrest e he).1]
          exact Bool.false_ne_true
        rw [hzero, Nat.add_zero]
      · have hzero : ((Connection.history ⟨fields, closed, closing⟩).map referenceChange).sum
            = 0 := by
          apply List.sum_eq_zero
          intro n hn
          obtain ⟨e, he, rfl⟩ := List.mem_map.mp hn
          exact (hrest e he).2
        rw [hzero, add_zero]

/-- Of the calls of `connect` that leave nothing when they fail, each connection has a
context, and a second one if it was opened with a directory. -/
theorem created_eq (h : ∀ call ∈ s, Accounted rt call)
    (hrefused : ∀ call ∈ s, call.connection = none → call.opening.countP creates = 0) :
    (history s).countP creates =
      s.countP (fun call => call.connection.isSome) + s.countP Call.hasDir := by
  induction s with
  | nil => rfl
  | cons call s ih =>
      rw [List.forall_mem_cons] at h hrefused
      have hhistory : history (call :: s) = call.history ++ history s := rfl
      rw [hhistory, List.countP_append, ih h.2 hrefused.2, List.countP_cons, List.countP_cons]
      cases hconnection : call.connection with
      | none =>
          obtain ⟨_, _, heq⟩ := h.1.refused_eq hconnection
          rw [heq, hrefused.1 hconnection]
          simp [Call.hasDir, hconnection]
      | some connection =>
          have hsome : call.connection.isSome = true := by simp [hconnection]
          rw [(h.1.returned_eq hsome).1]
          cases hdir : call.clientLibraryDir.isSome with
          | false =>
              simp [Call.hasDir, hconnection, hdir]
              omega
          | true =>
              simp [Call.hasDir, hconnection, hdir]
              omega

theorem Accounted.not_closed {call : Call} (h : Accounted rt call)
    (hreleased : call.isClosed = true → (call.history.map referenceChange).sum = 0) :
    call.isClosed = false := by
  cases hconnection : call.connection with
  | none => exact (h.refused_eq hconnection).1
  | some connection =>
      have hreference := (h.returned_eq (by simp [hconnection])).2
      by_contra hclosed
      rw [hreleased (by simpa using hclosed)] at hreference
      cases hreference

theorem countP_isOpen (h : ∀ call ∈ s, call.isClosed = false) :
    s.countP Call.isOpen = s.countP fun call => call.connection.isSome := by
  apply List.countP_congr
  intro call hcall
  simp [Call.isOpen, h call hcall]

/-- In every reachable state the books balance exactly if no call of `connect` has failed
after it had created a context, no `dpiConn_close` has succeeded, and as many
`dpiContext_destroy` have as connections were opened with a directory. -/
theorem balanced_iff (hreachable : Reachable rt s) : Balanced s ↔
    (∀ call ∈ s, call.connection = none → ∀ e ∈ call.opening, creates e = false) ∧
      (∀ call ∈ s, ∀ e ∈ call.history, closes e = false) ∧
      (history s).countP destroys = s.countP Call.hasDir := by
  have haccounted := accounted_reachable hreachable
  constructor
  · intro h
    have hrefused : ∀ call ∈ s, call.connection = none → call.opening.countP creates = 0 := by
      intro call hcall hnone
      rw [h.refused call hcall hnone]
      exact ((haccounted call hcall).refused_eq hnone).2.1
    have hclosed : ∀ call ∈ s, call.isClosed = false := by
      intro call hcall
      exact (haccounted call hcall).not_closed (h.released call hcall)
    refine ⟨?_, ?_, ?_⟩
    · intro call hcall hnone e he
      simpa using List.countP_eq_zero.mp (hrefused call hcall hnone) e he
    · intro call hcall e he
      simpa using List.any_eq_false.mp (hclosed call hcall) e he
    · have hcontexts := h.contexts
      rw [created_eq haccounted hrefused, countP_isOpen hclosed] at hcontexts
      omega
  · rintro ⟨hrefused, hcloses, hdestroyed⟩
    have hnone : ∀ call ∈ s, call.connection = none → call.opening.countP creates = 0 := by
      intro call hcall hnone
      rw [List.countP_eq_zero]
      intro e he
      simpa using hrefused call hcall hnone e he
    have hclosed : ∀ call ∈ s, call.isClosed = false := by
      intro call hcall
      rw [Call.isClosed, List.any_eq_false]
      intro e he
      simpa using hcloses call hcall e he
    constructor
    · rw [created_eq haccounted hnone, countP_isOpen hclosed, hdestroyed, add_comm]
    · intro call hcall hconnection
      rw [hnone call hcall hconnection]
      exact (((haccounted call hcall).refused_eq hconnection).2.1).symm
    · intro call hcall hisClosed
      rw [hclosed call hcall] at hisClosed
      cases hisClosed

/-- A call that has connected, after the calls in `first`. -/
def connectedCall (dir : Option String) (first : List TaskEvent) : Call :=
  ⟨dir, first ++ opening, some ⟨⟨some ⟨1⟩, some ⟨2⟩⟩, [], none⟩⟩

theorem reachable_connectedCall {dir : Option String} {first : List TaskEvent}
    (hfirst : FirstContext dir first) : Reachable asciiRuntime [connectedCall dir first] := by
  have hrun : (connect asciiRuntime .default "s" "p" "d" dir).Runs (first ++ opening)
      (.value ⟨some ⟨1⟩, some ⟨2⟩⟩) :=
    (runs_connect .default).mpr (.inr ⟨first, opening, hfirst, rfl, opens_opening⟩)
  exact .single (.connected hrun)

theorem balanced_connected : Balanced [connectedCall none []] := by
  rw [balanced_iff (reachable_connectedCall .none)]
  simp [connectedCall, opening, Call.history, Connection.history, history, Call.hasDir, destroys,
    closes, createContext, createConn]

/-- The context that is created for a library directory. -/
def withDir : List TaskEvent :=
  [⟨createContext (some (createParams "/opt/oracle")), .ok ⟨3⟩⟩]

def wrongPassword : ErrorInfo :=
  ⟨1017, utf8 "invalid username/password", 25⟩

/-- A call that was refused for its password. -/
def refusedCall : Call :=
  ⟨none, [⟨createContext none, .ok ⟨2⟩⟩,
    ⟨createConn ⟨2⟩ ⟨[115, 0], 1⟩ ⟨[112, 0], 1⟩ ⟨[100, 0], 1⟩, none⟩,
    ⟨.dpi (.contextGetError (some ⟨2⟩)), wrongPassword⟩], none⟩

theorem reachable_refusedCall : Reachable asciiRuntime [refusedCall] := by
  have hrun : (connect asciiRuntime .default "s" "p" "d" none).Runs refusedCall.opening
      (.error (.ofErrorInfo wrongPassword)) :=
    (runs_connect_none .default).mpr (.refused ⟨2⟩ wrongPassword
      (stringArgument_of_lt (by decide)) (stringArgument_of_lt (by decide))
        (stringArgument_of_lt (by decide)))
  exact .single (.refused hrun)

/-- A connection that was closed. -/
def closedCall : Call :=
  ⟨none, opening, some ⟨⟨none, none⟩, closedWith (some ()), none⟩⟩

theorem reachable_turns {dir : Option String} {tr closed : List TaskEvent}
    {fields : OracleConnection} {labels : List Closing.Label} {closing closing' : Closing}
    (h : Reachable rt [⟨dir, tr, some ⟨fields, closed, some closing⟩⟩])
    (hrun : closing.run labels = some closing') :
    Reachable rt [⟨dir, tr, some ⟨fields, closed, some closing'⟩⟩] := by
  apply runs_closing.invariant (I := fun closing =>
    Reachable rt [⟨dir, tr, some ⟨fields, closed, some closing⟩⟩]) _ h hrun
  intro closing closing' h label hstep
  exact h.tail (@Step.turn _ [] [] _ _ _ _ label _ _ hstep)

theorem reachable_closedCall : Reachable asciiRuntime [closedCall] := by
  obtain ⟨closing, hrun, hhistory, hresult, hfields⟩ : ∃ closing,
      (Closing.init ClosedHandle.connected).run (closingRun (some ())) = some closing ∧
        closing.history = closedWith (some ()) ∧ closing.result = some (.ok ()) ∧
          closing.connection = ⟨none, none⟩ :=
    ⟨_, rfl, rfl, rfl, rfl⟩
  have hclose : Reachable asciiRuntime [⟨none, opening, some ⟨ClosedHandle.connected, [],
      some (.init ClosedHandle.connected)⟩⟩] :=
    (reachable_connectedCall .none).tail (@Step.close _ [] [] _ _ _ _)
  have hdone := (reachable_turns hclose hrun).tail (@Step.done _ [] [] _ _ _ _ _ _ hresult)
  rw [hhistory, hfields] at hdone
  exact hdone

theorem quiescent_of_none {call : Call} (h : ∀ c ∈ call.connection, c.closing = none) :
    Quiescent [call] := by
  intro call' hcall
  rwa [List.mem_singleton.mp hcall]

/-- A connection opened with a directory leaves a context too many, a refused one leaves its
context, and one that has been closed keeps its reference. -/
theorem not_balanced :
    (Reachable asciiRuntime [connectedCall (some "/opt/oracle") withDir] ∧
      Quiescent [connectedCall (some "/opt/oracle") withDir] ∧
        ¬ Balanced [connectedCall (some "/opt/oracle") withDir]) ∧
    (Reachable asciiRuntime [refusedCall] ∧ Quiescent [refusedCall] ∧
      ¬ Balanced [refusedCall]) ∧
    (Reachable asciiRuntime [closedCall] ∧ Quiescent [closedCall] ∧
      ¬ Balanced [closedCall]) := by
  refine ⟨⟨?_, ?_, ?_⟩, ⟨?_, ?_, ?_⟩, ?_, ?_, ?_⟩
  · exact reachable_connectedCall (.some "/opt/oracle" ⟨3⟩)
  · apply quiescent_of_none
    rintro c ⟨⟩
    rfl
  · intro h
    exact absurd h.contexts (by decide)
  · exact reachable_refusedCall
  · exact quiescent_of_none nofun
  · intro h
    exact absurd (h.refused refusedCall (List.mem_singleton_self _) rfl) (by decide)
  · exact reachable_closedCall
  · apply quiescent_of_none
    rintro c ⟨⟩
    rfl
  · intro h
    exact absurd (h.released closedCall (List.mem_singleton_self _) (by decide)) (by decide)

end OracleNIO.ConnectionBalance
