import OracleNIO.ConnectionLoop
import OracleNIO.TaskOperations

/-!
The use of the connection handle and of the context after they have been closed, with
any number of calls of `query` and `close` on one connection.
-/

namespace OracleNIO.ClosedHandle

open Interaction Prog SwiftRuntime Dpi EventLoop OracleConnection TaskOperations

/-- What `close` ends. -/
inductive Resource where
  | conn (handle : ConnHandle)
  | context (handle : ContextHandle)
deriving DecidableEq, Repr

/-- The connection or context that an operation passes to ODPI-C. -/
def uses : Op → Option Resource
  | .dpi (.connClose conn _) => conn.map .conn
  | .dpi (.connPrepareStmt conn _) => some (.conn conn)
  | .dpi (.connNewVar conn _ _ _ _ _ _) => conn.map .conn
  | .dpi (.contextDestroy context) => context.map .context
  | .dpi (.contextGetError context) => context.map .context
  | .dpi (.connCreate context _ _ _ _ _) => context.map .context
  | _ => none

/-- The connection or context that was read from the fields. -/
def reads : TaskEvent → Option Resource
  | ⟨.readHandle, conn⟩ => Option.map .conn (conn : Option ConnHandle)
  | ⟨.readContext, context⟩ => Option.map .context (context : Option ContextHandle)
  | _ => none

/-- A close ends the handle if it succeeds, `dpiContext_destroy` the context anyway. -/
def ends : TaskEvent → Option Resource
  | ⟨.dpi (.connClose conn _), some ()⟩ => conn.map .conn
  | ⟨.dpi (.contextDestroy context), _⟩ => context.map .context
  | _ => none

/-- No call uses what an earlier one has ended. -/
def Safe (log : List TaskEvent) : Prop :=
  log.Pairwise fun e e' => ∀ r ∈ ends e, uses e'.op ≠ some r

instance (log : List TaskEvent) : Decidable (Safe log) :=
  inferInstanceAs (Decidable (List.Pairwise _ _))

/-- The calls so far have ended it. -/
def Ended (log : List TaskEvent) (r : Resource) : Prop :=
  r ∈ log.filterMap ends

instance (log : List TaskEvent) (r : Resource) : Decidable (Ended log r) :=
  inferInstanceAs (Decidable (r ∈ _))

theorem ends_of_reads {e : TaskEvent} {r : Resource} (h : reads e = some r) :
    ends e = none := by
  unfold reads at h
  split at h
  · rfl
  · rfl
  · cases h

theorem uses_of_ends {e : TaskEvent} {r : Resource} (h : ends e = some r) :
    uses e.op = some r := by
  unfold ends at h
  split at h
  · exact h
  · exact h
  · cases h

theorem Safe.nodup {log : List TaskEvent} (h : Safe log) : (log.filterMap ends).Nodup := by
  rw [List.Nodup, List.pairwise_filterMap]
  refine h.imp ?_
  rintro e e' hsafe r hr r' hr' rfl
  exact hsafe r hr (uses_of_ends hr')

theorem safe_snoc {log : List TaskEvent} (h : Safe log) {e : TaskEvent}
    (he : ∀ r, uses e.op = some r → ¬ Ended log r) : Safe (log ++ [e]) := by
  refine List.pairwise_append.mpr ⟨h, List.pairwise_singleton _ _, ?_⟩
  intro x hx y hy r hr huses
  rw [List.mem_singleton.mp hy] at huses
  exact he r huses (List.mem_filterMap.mpr ⟨x, hx, hr⟩)

theorem ended_snoc {log : List TaskEvent} {e : TaskEvent} {r : Resource} :
    Ended (log ++ [e]) r ↔ Ended log r ∨ ends e = some r := by
  simp only [Ended, List.filterMap_append, List.mem_append, List.mem_filterMap,
    List.mem_singleton, exists_eq_left]

/-- It is what the last operation has read. -/
def JustRead (h : List TaskEvent) (r : Resource) : Prop :=
  h.getLast?.bind reads = some r

instance (h : List TaskEvent) (r : Resource) : Decidable (JustRead h r) :=
  inferInstanceAs (Decidable (_ = _))

/-- Only what has just been read is passed on. -/
def fromRead : Contract Op Op.Reply :=
  fun h op => ∀ r, uses op = some r → JustRead h r

theorem justRead_snoc {h : List TaskEvent} {e : TaskEvent} {r : Resource} :
    JustRead (h ++ [e]) r ↔ reads e = some r := by
  simp [JustRead]

theorem errorOps_fromRead : ErrorOps fromRead where
  readContext _ := nofun
  getError h context := by
    rintro r ⟨⟩
    exact justRead_snoc.mpr rfl

theorem initOps_fromRead (rt : Runtime) (query : String) : InitOps fromRead rt query where
  error := errorOps_fromRead
  readHandle _ := nofun
  prepareStmt h conn sql _ := by
    rintro r ⟨⟩
    exact justRead_snoc.mpr rfl

theorem bindOps_fromRead (stmt : StmtHandle) : BindOps fromRead stmt where
  error := errorOps_fromRead
  readHandle _ := nofun
  now _ := nofun
  newVar h conn size := by
    intro r hr
    exact justRead_snoc.mpr hr
  bindValueByPos _ _ _ _ _ := nofun
  bindByPos _ _ _ := nofun

theorem fetchOps_fromRead (stmt : StmtHandle) : FetchOps fromRead stmt where
  error := errorOps_fromRead
  execute _ _ := nofun
  numQueryColumns _ := nofun
  queryInfo _ _ := nofun
  fetch _ := nofun
  queryValue _ _ := nofun
  varRelease _ _ := nofun
  release _ := nofun

theorem loopOps_fromRead : LoopOps fromRead where
  submitRow _ _ := nofun
  andAllSucceed _ _ := nofun
  cascade _ _ := nofun
  promiseFail _ _ := nofun

theorem respects_query (rt : Runtime) (x : QueryState) :
    (query rt x).Respects fromRead fun _ => True := by
  cases x with
  | «begin» q =>
      apply respects_tryCatch
      · apply respects_bind (respects_prepare (initOps_fromRead rt q.sql) bindOps_fromRead
          fetchOps_fromRead)
        intro prepared _
        exact respects_pure trivial
      · intro e
        apply respects_perform_bind fun _ => nofun
        intro _
        exact respects_pure trivial
  | rows statement columns callbacks =>
      intro tr
      apply wp_mono (fun _ _ _ => trivial) (fun _ _ _ => trivial)
      exact respects_query_rows (fetchOps_fromRead statement.handle) loopOps_fromRead rt
        (.rows statement columns callbacks) rfl tr

/-- `close` in the form of a pool task. -/
def closeTask : Task (QueryState ⊕ Unit) := do
  close
  return .inr ()

theorem respects_closeTask : closeTask.Respects fromRead fun _ => True := by
  intro tr
  refine ⟨nofun, fun conn => ⟨fun r hr => justRead_snoc.mpr hr, fun _ => ?_⟩⟩
  refine ⟨nofun, fun context => ⟨fun r hr => justRead_snoc.mpr hr, fun _ => ?_⟩⟩
  exact ⟨nofun, fun cleared => ⟨nofun, fun _ => trivial⟩⟩

/-- A task that was submitted to the pool, and what it has done so far. -/
structure PoolTask where
  promise : Nat
  task : Task (QueryState ⊕ Unit)
  history : List TaskEvent

/-- A connection with the tasks that wait for a thread, the task each thread runs, the
event loop, and all operations of the threads so far. -/
structure System where
  connection : OracleConnection
  waiting : List PoolTask
  running : Nat → Option PoolTask
  loop : Loop LoopTask (OracleError ⊕ Empty)
  log : List TaskEvent

/-- A call of `query` or `close`, a step of a thread, or one of the event loop. -/
inductive Label where
  | query (q : OracleQuery)
  | close
  | start (thread : Nat)
  | pool (thread : Nat) (e : TaskEvent)
  | restart (thread : Nat)
  | finish (thread : Nat)
  | loop

/-- The task of `close` on the event loop clears both fields. -/
def performTask : LoopTask → OracleConnection →
    Except (OracleError ⊕ Empty) Unit × OracleConnection
  | .clear, _ => (.ok (), ⟨none, none⟩)
  | _, connection => (.ok (), connection)

/-- A field that is read gives what is in it. -/
def ReadsFields (connection : OracleConnection) : TaskEvent → Bool
  | ⟨.readHandle, reply⟩ =>
      let conn : Option ConnHandle := reply
      conn == connection.handle
  | ⟨.readContext, reply⟩ =>
      let context : Option ContextHandle := reply
      context == connection.context
  | _ => true

namespace System

/-- No task has been submitted. -/
def init (connection : OracleConnection) : System :=
  ⟨connection, [], fun _ => none, ⟨0, [], .init⟩, []⟩

/-- A task is put into the queue of the pool, with a promise for its end. -/
def submit (s : System) (task : Task (QueryState ⊕ Unit)) : System :=
  { s with
    waiting := s.waiting ++ [⟨s.loop.next, task, []⟩]
    loop := { s.loop with next := s.loop.next + 1 } }

def setRunning (s : System) (thread : Nat) (task : Option PoolTask) : System :=
  { s with running := Function.update s.running thread task }

/-- The thread performs the next operation of its task. -/
def act (s : System) (thread : Nat) (t : PoolTask) (e : TaskEvent) : Option System :=
  match t.task.advance e, enqueueEvent t.promise s.loop e with
  | some task, some loop =>
      if ReadsFields s.connection e then
        some
          { s.setRunning thread (some { t with task, history := t.history ++ [e] }) with
            loop, log := s.log ++ [e] }
      else none
  | _, _ => none

def step (rt : Runtime) (numberOfThreads : Nat) (s : System) : Label → Option System
  | .query q => some (s.submit (query rt (.begin q)))
  | .close => some (s.submit closeTask)
  | .start thread =>
      match s.running thread, s.waiting with
      | none, t :: waiting =>
          if thread < numberOfThreads then
            some { s.setRunning thread (some t) with waiting }
          else none
      | _, _ => none
  | .pool thread e => (s.running thread).bind fun t => s.act thread t e
  | .restart thread =>
      match s.running thread with
      | some ⟨promise, .pure (.inl x), history⟩ =>
          some (s.setRunning thread (some ⟨promise, query rt x, history⟩))
      | _ => none
  | .finish thread =>
      match s.running thread with
      | some ⟨_, .pure (.inr ()), _⟩ => some (s.setRunning thread none)
      | _ => none
  | .loop =>
      match s.loop.turn performTask s.connection with
      | some (loop, connection) => some { s with loop, connection }
      | none => none

def run (rt : Runtime) (numberOfThreads : Nat) : System → List Label → Option System
  | s, [] => some s
  | s, label :: labels => (s.step rt numberOfThreads label).bind fun s' =>
      s'.run rt numberOfThreads labels

/-- The thread has read the handle or context and is about to use it. -/
def Holds (s : System) (thread : Nat) (r : Resource) : Prop :=
  ∃ t ∈ s.running thread, JustRead t.history r

/-- Nothing is read between the call that ends it and the clearing of its field, and
nothing is ended while another thread is about to use it. -/
def Exclusive (numberOfThreads : Nat) (s : System) : Label → Prop
  | .pool thread e =>
      (∀ r ∈ reads e, ¬ Ended s.log r) ∧
        ∀ r ∈ ends e, ∀ other < numberOfThreads, other ≠ thread → ¬ s.Holds other r
  | _ => True

instance (s : System) (thread : Nat) (r : Resource) : Decidable (s.Holds thread r) :=
  inferInstanceAs (Decidable (∃ t ∈ _, _))

instance (numberOfThreads : Nat) (s : System) (label : Label) :
    Decidable (s.Exclusive numberOfThreads label) :=
  match label with
  | .pool _ _ => inferInstanceAs (Decidable (_ ∧ _))
  | .query _ | .close | .start _ | .restart _ | .finish _ | .loop => isTrue trivial

/-- A run in which every step is exclusive. -/
def runExclusively (rt : Runtime) (numberOfThreads : Nat) :
    System → List Label → Option System
  | s, [] => some s
  | s, label :: labels =>
      if s.Exclusive numberOfThreads label then
        (s.step rt numberOfThreads label).bind fun s' =>
          s'.runExclusively rt numberOfThreads labels
      else none

end System

/-- What is left of a task uses only what it has read right before. -/
def PoolTask.Careful (t : PoolTask) : Prop :=
  t.task.wp fromRead (fun _ _ => True) (fun _ _ => True) t.history

/-- What every reachable state keeps. -/
structure Invariant (numberOfThreads : Nat) (s : System) : Prop where
  idle : ∀ thread t, s.running thread = some t → thread < numberOfThreads
  waiting : ∀ t ∈ s.waiting, t.Careful ∧ t.history = []
  running : ∀ thread t, s.running thread = some t → t.Careful
  held : ∀ thread r, s.Holds thread r → ¬ Ended s.log r
  safe : Safe s.log

variable {rt : Runtime} {numberOfThreads : Nat} {s s' : System}

theorem Invariant.init (numberOfThreads : Nat) (connection : OracleConnection) :
    Invariant numberOfThreads (.init connection) where
  idle := nofun
  waiting := nofun
  running := nofun
  held := by
    rintro thread r ⟨t, ht, _⟩
    cases ht
  safe := .nil

theorem Invariant.submit (h : Invariant numberOfThreads s) {task : Task (QueryState ⊕ Unit)}
    (htask : task.Respects fromRead fun _ => True) :
    Invariant numberOfThreads (s.submit task) := by
  refine ⟨h.idle, ?_, h.running, h.held, h.safe⟩
  intro t ht
  rcases List.mem_append.mp ht with ht | ht
  · exact h.waiting t ht
  · rw [List.mem_singleton.mp ht]
    exact ⟨htask [], rfl⟩

theorem running_setRunning {thread i : Nat} {task : Option PoolTask} {t : PoolTask}
    (h : (s.setRunning thread task).running i = some t) :
    i = thread ∧ task = some t ∨ i ≠ thread ∧ s.running i = some t := by
  change Function.update s.running thread task i = some t at h
  by_cases hi : i = thread
  · rw [hi, Function.update_self] at h
    exact .inl ⟨hi, h⟩
  · rw [Function.update_of_ne hi] at h
    exact .inr ⟨hi, h⟩

theorem Invariant.setRunning (h : Invariant numberOfThreads s) {thread : Nat}
    (hthread : thread < numberOfThreads) {task : Option PoolTask}
    (hcareful : ∀ t, task = some t → t.Careful)
    (hheld : ∀ t, task = some t → ∀ r, JustRead t.history r → s.Holds thread r) :
    Invariant numberOfThreads (s.setRunning thread task) := by
  refine ⟨?_, h.waiting, ?_, ?_, h.safe⟩
  · intro i t ht
    rcases running_setRunning ht with ⟨hi, _⟩ | ⟨_, hrunning⟩
    · exact hi ▸ hthread
    · exact h.idle i t hrunning
  · intro i t ht
    rcases running_setRunning ht with ⟨_, htask⟩ | ⟨_, hrunning⟩
    · exact hcareful t htask
    · exact h.running i t hrunning
  · rintro i r ⟨t, ht, hread⟩
    rcases running_setRunning ht with ⟨hi, htask⟩ | ⟨_, hrunning⟩
    · exact hi ▸ h.held thread r (hheld t htask r hread)
    · exact h.held i r ⟨t, hrunning, hread⟩

/-- What each step does. -/
inductive Stepped (rt : Runtime) (numberOfThreads : Nat) (s : System) : Label → System → Prop
  | query (q : OracleQuery) :
      Stepped rt numberOfThreads s (.query q) (s.submit (query rt (.begin q)))
  | close : Stepped rt numberOfThreads s .close (s.submit closeTask)
  | start {thread t waiting} : s.running thread = none → s.waiting = t :: waiting →
      thread < numberOfThreads →
        Stepped rt numberOfThreads s (.start thread)
          { s.setRunning thread (some t) with waiting }
  | pool {thread t e task loop} : s.running thread = some t → t.task.advance e = some task →
      enqueueEvent t.promise s.loop e = some loop → ReadsFields s.connection e = true →
        Stepped rt numberOfThreads s (.pool thread e)
          { s.setRunning thread (some { t with task, history := t.history ++ [e] }) with
            loop, log := s.log ++ [e] }
  | restart {thread promise x history} :
      s.running thread = some ⟨promise, .pure (.inl x), history⟩ →
        Stepped rt numberOfThreads s (.restart thread)
          (s.setRunning thread (some ⟨promise, OracleConnection.query rt x, history⟩))
  | finish {thread promise history} :
      s.running thread = some ⟨promise, .pure (.inr ()), history⟩ →
        Stepped rt numberOfThreads s (.finish thread) (s.setRunning thread none)
  | loop {loop connection} : s.loop.turn performTask s.connection = some (loop, connection) →
      Stepped rt numberOfThreads s .loop { s with loop, connection }

theorem stepped_of_step {label : Label} (hstep : s.step rt numberOfThreads label = some s') :
    Stepped rt numberOfThreads s label s' := by
  cases label with
  | query q =>
      cases hstep
      exact .query q
  | close =>
      cases hstep
      exact .close
  | start thread =>
      simp only [System.step] at hstep
      split at hstep
      case h_2 => cases hstep
      case h_1 hidle hwaiting =>
          split at hstep
          case isFalse => cases hstep
          case isTrue hthread =>
              cases hstep
              exact .start hidle hwaiting hthread
  | pool thread e =>
      obtain ⟨t, ht, hact⟩ := Option.bind_eq_some_iff.mp hstep
      simp only [System.act] at hact
      split at hact
      case h_2 => cases hact
      case h_1 htask hloop =>
          split at hact
          case isFalse => cases hact
          case isTrue hreads =>
              cases hact
              exact .pool ht htask hloop hreads
  | restart thread =>
      simp only [System.step] at hstep
      split at hstep
      case h_2 => cases hstep
      case h_1 ht =>
          cases hstep
          exact .restart ht
  | finish thread =>
      simp only [System.step] at hstep
      split at hstep
      case h_2 => cases hstep
      case h_1 ht =>
          cases hstep
          exact .finish ht
  | loop =>
      simp only [System.step] at hstep
      split at hstep
      case h_2 => cases hstep
      case h_1 hturn =>
          cases hstep
          exact .loop hturn

theorem invariant_pool (h : Invariant numberOfThreads s) {thread : Nat} {t : PoolTask}
    {e : TaskEvent} {task : Task (QueryState ⊕ Unit)}
    {loop : Loop LoopTask (OracleError ⊕ Empty)} (ht : s.running thread = some t)
    (htask : t.task.advance e = some task)
    (hexclusive : s.Exclusive numberOfThreads (.pool thread e)) :
    Invariant numberOfThreads
      { s.setRunning thread (some { t with task, history := t.history ++ [e] }) with
        loop, log := s.log ++ [e] } := by
  rcases hexclusive with ⟨hreads, hends⟩
  obtain ⟨hallows, hwp⟩ := wp_advance (h.running thread t ht) htask
  refine ⟨?_, h.waiting, ?_, ?_, safe_snoc h.safe ?_⟩
  · intro i t' ht'
    rcases running_setRunning ht' with ⟨hi, _⟩ | ⟨_, hrunning⟩
    · exact hi ▸ h.idle thread t ht
    · exact h.idle i t' hrunning
  · intro i t' ht'
    rcases running_setRunning ht' with ⟨_, htask'⟩ | ⟨_, hrunning⟩
    · cases htask'
      exact hwp
    · exact h.running i t' hrunning
  · -- neither the acting thread nor another one holds what has been ended
    rintro i r ⟨t', ht', hread⟩ hended
    rcases running_setRunning ht' with ⟨_, htask'⟩ | ⟨hi, hrunning⟩
    · cases htask'
      have hread := justRead_snoc.mp hread
      rcases ended_snoc.mp hended with hended | hends
      · exact hreads r hread hended
      · rw [ends_of_reads hread] at hends
        cases hends
    · rcases ended_snoc.mp hended with hended | hend
      · exact h.held i r ⟨t', hrunning, hread⟩ hended
      · exact hends r hend i (h.idle i t' hrunning) hi ⟨t', hrunning, hread⟩
  · intro r hr
    exact h.held thread r ⟨t, ht, hallows r hr⟩

theorem invariant_step (h : Invariant numberOfThreads s) {label : Label}
    (hexclusive : s.Exclusive numberOfThreads label)
    (hstep : s.step rt numberOfThreads label = some s') : Invariant numberOfThreads s' := by
  cases stepped_of_step hstep with
  | query q => exact h.submit (respects_query rt (.begin q))
  | close => exact h.submit respects_closeTask
  | @start thread t waiting _ hwaiting hthread =>
      obtain ⟨hcareful, hhistory⟩ := h.waiting t (by simp [hwaiting])
      have hset : Invariant numberOfThreads (s.setRunning thread (some t)) := by
        refine h.setRunning hthread ?_ ?_
        · rintro t' ⟨⟩
          exact hcareful
        · rintro t' ⟨⟩ r hr
          rw [hhistory] at hr
          simp [JustRead] at hr
      refine ⟨hset.idle, fun t' ht' => ?_, hset.running, hset.held, hset.safe⟩
      exact h.waiting t' (by simp [hwaiting, ht'])
  | pool ht htask _ _ => exact invariant_pool h ht htask hexclusive
  | @restart thread promise x history ht =>
      refine h.setRunning (h.idle thread _ ht) ?_ ?_
      · rintro t ⟨⟩
        exact respects_query rt x history
      · rintro t ⟨⟩ r hr
        exact ⟨_, ht, hr⟩
  | @finish thread _ _ ht => exact h.setRunning (h.idle thread _ ht) nofun nofun
  | loop _ => exact ⟨h.idle, h.waiting, h.running, h.held, h.safe⟩

theorem invariant_run {labels : List Label} (h : Invariant numberOfThreads s)
    (hrun : s.runExclusively rt numberOfThreads labels = some s') :
    Invariant numberOfThreads s' := by
  induction labels generalizing s with
  | nil =>
      cases hrun
      exact h
  | cons label labels ih =>
      simp only [System.runExclusively] at hrun
      split at hrun
      case isFalse => cases hrun
      case isTrue hexclusive =>
          obtain ⟨s₁, hstep, hrest⟩ := Option.bind_eq_some_iff.mp hrun
          exact ih (invariant_step h hexclusive hstep) hrest

/-- In a run whose steps are all exclusive, no call uses a connection that has been closed
or a context that has been destroyed, and none is closed or destroyed twice. -/
theorem safe_of_exclusive (rt : Runtime) (numberOfThreads : Nat)
    (connection : OracleConnection) (labels : List Label) {s : System}
    (hrun : (System.init connection).runExclusively rt numberOfThreads labels = some s) :
    Safe s.log ∧ (s.log.filterMap ends).Nodup := by
  have h := invariant_run (.init numberOfThreads connection) hrun
  exact ⟨h.safe, h.safe.nodup⟩

/-- A connection that is open. -/
def connected : OracleConnection := ⟨some ⟨1⟩, some ⟨2⟩⟩

/-- The pool runs `close`, and the event loop clears the fields. -/
def closing (cleared : Nat) : List Label :=
  [.start 0, .pool 0 ⟨.readHandle, some ⟨1⟩⟩,
    .pool 0 ⟨.dpi (.connClose (some ⟨1⟩) 0), some ()⟩, .pool 0 ⟨.readContext, some ⟨2⟩⟩,
    .pool 0 ⟨.dpi (.contextDestroy (some ⟨2⟩)), some ()⟩,
    .pool 0 ⟨.submitClear, (cleared : Nat)⟩, .pool 0 ⟨.cascade cleared, ()⟩, .finish 0]

theorem safe_close_query :
    ∃ s, (System.init connected).runExclusively asciiRuntime 2
        ([.close] ++ closing 1 ++ [.loop, .loop, .query ⟨"SELECT 1", ⟨[]⟩⟩, .start 1,
          .pool 1 ⟨.readHandle, none⟩]) = some s ∧
      Safe s.log ∧ (s.log.filterMap ends).Nodup := by
  have hrun : ((System.init connected).runExclusively asciiRuntime 2
      ([.close] ++ closing 1 ++ [.loop, .loop, .query ⟨"SELECT 1", ⟨[]⟩⟩, .start 1,
        .pool 1 ⟨.readHandle, none⟩])).isSome = true := by
    decide +kernel
  obtain ⟨s, hs⟩ := Option.isSome_iff_exists.mp hrun
  exact ⟨s, hs, safe_of_exclusive asciiRuntime 2 connected _ hs⟩

/-- Two calls of `close` in a row, on a pool of one thread. -/
theorem not_safe_two_closes :
    ∃ s, (System.init connected).run asciiRuntime 1 ([.close, .close] ++ closing 2 ++ closing 3)
        = some s ∧ ¬ Safe s.log ∧ ¬ (s.log.filterMap ends).Nodup := by
  have hrun : ((System.init connected).run asciiRuntime 1
      ([.close, .close] ++ closing 2 ++ closing 3)).map
        (fun s => decide (Safe s.log) || decide (s.log.filterMap ends).Nodup) = some false := by
    decide +kernel
  obtain ⟨s, hs, hunsafe⟩ := Option.map_eq_some_iff.mp hrun
  refine ⟨s, hs, ?_⟩
  simpa using hunsafe

end OracleNIO.ClosedHandle
