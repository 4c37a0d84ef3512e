import OracleNIO.ConnectionLoop
import OracleNIO.LabelledRuns
import OracleNIO.TaskOperations

/-!
The delivery of rows: the pool task of a query interleaved with the event loop that runs
`onRow`.
-/

namespace OracleNIO.RowDelivery

open Interaction Prog SwiftRuntime EventLoop OracleConnection TaskOperations LabelledRuns

/-! ### What the pool task does -/

/-- Nothing is handed to the event loop. -/
def Silent : Op → Prop
  | .submitRow _ | .submitClear | .andAllSucceed _ | .cascade _ | .promiseFail _ => False
  | _ => True

section Task

variable (rt : Runtime) (q : OracleQuery)

/-- At the head of the loop over the rows: the rows fetched and handed over so far, each
with the future of its callback. -/
inductive Fetched (statement : OracleStatement) (columns : OracleColumnOffsets) :
    List TaskEvent → List (OracleRow × Nat) → Prop
  | start {tr} : (prepare rt q).Runs tr (.value (statement, columns)) →
      Fetched statement columns tr []
  | row {tr submitted fetch row} (callback : Nat) : Fetched statement columns tr submitted →
      (statement.nextRow columns).Runs fetch (.value (some row)) →
      Fetched statement columns (tr ++ fetch ++ [⟨.submitRow row, callback⟩])
        (submitted ++ [(row, callback)])

/-- The task has got to the end of the rows or has thrown an error; the result of the
query has not been handed over yet. -/
inductive Ended : List TaskEvent → List (OracleRow × Nat) → Option OracleError → Prop
  | unprepared {tr e} : (prepare rt q).Runs tr (.error e) → Ended tr [] (some e)
  | failed {statement columns tr submitted fetch e} :
      Fetched rt q statement columns tr submitted →
      (statement.nextRow columns).Runs fetch (.error e) → Ended (tr ++ fetch) submitted (some e)
  | done {statement columns tr submitted fetch} :
      Fetched rt q statement columns tr submitted →
      (statement.nextRow columns).Runs fetch (.value none) → Ended (tr ++ fetch) submitted none

/-- The task is before the end of the rows. -/
def Fetching (h : List TaskEvent) (submitted : List (OracleRow × Nat)) : Prop :=
  ∃ tr rest, h = tr ++ rest ∧ (∀ e ∈ rest, Silent e.op) ∧
    (tr = [] ∧ submitted = [] ∨ ∃ statement columns, Fetched rt q statement columns tr submitted)

/-- Where in its history the task may perform an operation. -/
def discipline (h : List TaskEvent) : Op → Prop
  | .submitRow row => ∃ statement columns tr fetch submitted, h = tr ++ fetch ∧
      Fetched rt q statement columns tr submitted ∧
      (statement.nextRow columns).Runs fetch (.value (some row))
  | .andAllSucceed callbacks =>
      ∃ submitted, Ended rt q h submitted none ∧ callbacks = submitted.map Prod.snd
  | .cascade all => ∃ tr submitted, Ended rt q tr submitted none ∧
      h = tr ++ [⟨.andAllSucceed (submitted.map Prod.snd), all⟩]
  | .promiseFail e => ∃ submitted, Ended rt q h submitted (some e)
  | .submitClear => False
  | _ => ∃ submitted, Fetching rt q h submitted

/-- The task has ended, with a cascade or with the failure of its promise. -/
inductive Finished : List TaskEvent → List (OracleRow × Nat) → Option OracleError → Prop
  | cascaded {tr submitted} (all : Nat) : Ended rt q tr submitted none →
      Finished (tr ++ [⟨.andAllSucceed (submitted.map Prod.snd), all⟩] ++ [⟨.cascade all, ()⟩])
        submitted none
  | failed {tr submitted e} : Ended rt q tr submitted (some e) →
      Finished (tr ++ [⟨.promiseFail e, ()⟩]) submitted (some e)

/-- The state of the task's loop after these operations. -/
def Started : QueryState → List TaskEvent → Prop
  | .begin query, h => query = q ∧ h = []
  | .rows statement columns callbacks, h => ∃ submitted,
      Fetched rt q statement columns h submitted ∧ callbacks = submitted.map Prod.snd

end Task

variable {rt : Runtime} {q : OracleQuery}

theorem allows_silent {h : List TaskEvent} {submitted : List (OracleRow × Nat)}
    (hh : Fetching rt q h submitted) {op : Op} (hop : Silent op) :
    discipline rt q h op := by
  cases op with
  | submitRow _ => exact hop.elim
  | submitClear => exact hop.elim
  | andAllSucceed _ => exact hop.elim
  | cascade _ => exact hop.elim
  | promiseFail _ => exact hop.elim
  | _ => exact ⟨submitted, hh⟩

theorem errorOps_silent : ErrorOps (.only Silent) where
  readContext _ := trivial
  getError _ _ := trivial

theorem initOps_silent (rt : Runtime) (query : String) :
    InitOps (.only Silent) rt query where
  error := errorOps_silent
  readHandle _ := trivial
  prepareStmt _ _ _ _ := trivial

theorem bindOps_silent (stmt : Dpi.StmtHandle) : BindOps (.only Silent) stmt where
  error := errorOps_silent
  readHandle _ := trivial
  now _ := trivial
  newVar _ _ _ := trivial
  bindValueByPos _ _ _ _ _ := trivial
  bindByPos _ _ _ := trivial

theorem fetchOps_silent (stmt : Dpi.StmtHandle) : FetchOps (.only Silent) stmt where
  error := errorOps_silent
  execute _ _ := trivial
  numQueryColumns _ := trivial
  queryInfo _ _ := trivial
  fetch _ := trivial
  queryValue _ _ := trivial
  varRelease _ _ := trivial
  release _ := trivial

theorem silent_prepare (rt : Runtime) (q : OracleQuery) :
    (prepare rt q).Respects (.only Silent) fun _ => True :=
  respects_prepare (initOps_silent rt q.sql) bindOps_silent fetchOps_silent

theorem silent_nextRow (statement : OracleStatement) (columns : OracleColumnOffsets) :
    (statement.nextRow columns).Respects (.only Silent) fun _ => True :=
  respects_nextRow (fetchOps_silent statement.handle) columns

theorem wp_failPromise {h : List TaskEvent} {submitted : List (OracleRow × Nat)}
    {e : OracleError} (hh : Ended rt q h submitted (some e)) :
    (failPromise e).wp (discipline rt q)
      (loopPost (Started rt q) fun _ h => ∃ submitted err, Finished rt q h submitted err)
      (fun _ _ => False) h :=
  ⟨⟨submitted, hh⟩, fun _ => ⟨submitted, some e, .failed hh⟩⟩

theorem wp_step {statement : OracleStatement} {columns : OracleColumnOffsets}
    {h : List TaskEvent} {submitted : List (OracleRow × Nat)}
    (hh : Fetched rt q statement columns h submitted) :
    (step statement columns (submitted.map Prod.snd)).wp (discipline rt q)
      (loopPost (Started rt q) fun _ h => ∃ submitted err, Finished rt q h submitted err)
      (fun e h => ∃ submitted, Ended rt q h submitted (some e)) h := by
  have hnextRow := wp_of_respects (c := discipline rt q) (silent_nextRow statement columns)
    fun rest hrest op hop =>
      allows_silent ⟨h, rest, rfl, hrest, .inr ⟨statement, columns, hh⟩⟩ hop
  apply wp_seq (wp_mono (fun _ _ h => h) ?_ hnextRow)
  · rintro row h' ⟨fetch, rfl, hrun⟩
    cases row with
    | some row =>
        refine ⟨⟨statement, columns, h, fetch, submitted, rfl, hh, hrun⟩,
          fun (callback : Nat) => ?_⟩
        exact ⟨submitted ++ [(row, callback)], .row callback hh hrun, by simp⟩
    | none =>
        have hended : Ended rt q (h ++ fetch) submitted none := .done hh hrun
        refine ⟨⟨submitted, hended, rfl⟩, fun all => ?_⟩
        refine ⟨⟨h ++ fetch, submitted, hended, rfl⟩, fun _ => ?_⟩
        exact ⟨submitted, none, .cascaded all hended⟩
  · rintro e h' ⟨fetch, rfl, hrun⟩
    exact ⟨submitted, .failed hh hrun⟩

theorem wp_query (x : QueryState) {h : List TaskEvent} (hx : Started rt q x h) :
    (query rt x).wp (discipline rt q)
      (loopPost (Started rt q) fun _ h => ∃ submitted err, Finished rt q h submitted err)
      (fun _ _ => False) h := by
  cases x with
  | «begin» query =>
      rcases hx with ⟨rfl, rfl⟩
      unfold OracleConnection.query
      rw [wp_tryCatch]
      apply wp_seq (M := fun prepared h => Fetched rt query prepared.1 prepared.2 h [])
      · apply wp_mono ?_ ?_ (wp_of_respects (silent_prepare rt query) ?_)
        · rintro ⟨statement, columns⟩ h ⟨rest, rfl, hrun⟩
          exact .start hrun
        · rintro e h ⟨rest, rfl, hrun⟩
          exact wp_failPromise (.unprepared hrun)
        · intro rest hrest op hop
          exact allows_silent ⟨[], rest, rfl, hrest, .inl ⟨rfl, rfl⟩⟩ hop
      · intro prepared h hh
        exact ⟨[], hh, rfl⟩
  | rows statement columns callbacks =>
      rcases hx with ⟨submitted, hh, rfl⟩
      unfold OracleConnection.query
      rw [wp_tryCatch]
      exact wp_mono (fun _ _ h => h) (fun e _ ⟨_, he⟩ => wp_failPromise he) (wp_step hh)

/-! ### Jobs and futures of a history -/

section Histories

variable {ε : Type}

def jobs (h : List TaskEvent) : List (Job LoopTask (OracleError ⊕ ε)) :=
  h.filterMap (job? 0)

/-- The futures that the event loop has handed out. -/
def futures (h : List TaskEvent) : List Nat :=
  h.filterMap newFuture?

theorem jobs_append (tr rest : List TaskEvent) :
    (jobs (tr ++ rest) : List (Job LoopTask (OracleError ⊕ ε))) = jobs tr ++ jobs rest :=
  List.filterMap_append

theorem futures_append (tr rest : List TaskEvent) :
    futures (tr ++ rest) = futures tr ++ futures rest :=
  List.filterMap_append

theorem jobs_snoc (tr : List TaskEvent) (e : TaskEvent) :
    (jobs (tr ++ [e]) : List (Job LoopTask (OracleError ⊕ ε))) = jobs tr ++ (job? 0 e).toList := by
  rw [jobs_append]
  cases hjob : (job? 0 e : Option (Job LoopTask (OracleError ⊕ ε))) <;> simp [jobs, hjob]

theorem futures_snoc (tr : List TaskEvent) (e : TaskEvent) :
    futures (tr ++ [e]) = futures tr ++ (newFuture? e).toList := by
  rw [futures_append]
  cases hnew : newFuture? e <;> simp [futures, hnew]

/-- The jobs of the rows that were submitted. -/
def submits (submitted : List (OracleRow × Nat)) : List (Job LoopTask (OracleError ⊕ ε)) :=
  submitted.map fun s => .submit (.onRow s.1) s.2

theorem silent_event {e : TaskEvent} (h : Silent e.op) :
    job? 0 e = (none : Option (Job LoopTask (OracleError ⊕ ε))) ∧ newFuture? e = none := by
  rcases e with ⟨op, reply⟩
  cases op with
  | submitRow _ => exact h.elim
  | submitClear => exact h.elim
  | andAllSucceed _ => exact h.elim
  | cascade _ => exact h.elim
  | promiseFail _ => exact h.elim
  | _ => exact ⟨rfl, rfl⟩

theorem append_silent (tr : List TaskEvent) {rest : List TaskEvent}
    (h : ∀ e ∈ rest, Silent e.op) :
    (jobs (tr ++ rest) : List (Job LoopTask (OracleError ⊕ ε))) = jobs tr ∧
      futures (tr ++ rest) = futures tr := by
  have hjobs : (jobs rest : List (Job LoopTask (OracleError ⊕ ε))) = [] :=
    List.filterMap_eq_nil_iff.mpr fun e he => (silent_event (h e he)).1
  have hfutures : futures rest = [] :=
    List.filterMap_eq_nil_iff.mpr fun e he => (silent_event (ε := ε) (h e he)).2
  constructor
  · rw [jobs_append, hjobs, List.append_nil]
  · rw [futures_append, hfutures, List.append_nil]

theorem silent_runs {α : Type} {p : Task α}
    (hp : p.Respects (.only Silent) fun _ => True) {tr : List TaskEvent}
    {out : Outcome OracleError α} (hrun : p.Runs tr out) : ∀ e ∈ tr, Silent e.op :=
  (respects_runs hp hrun).1

theorem fetched_jobs {statement : OracleStatement} {columns : OracleColumnOffsets}
    {h : List TaskEvent} {submitted : List (OracleRow × Nat)}
    (hh : Fetched rt q statement columns h submitted) :
    (jobs h : List (Job LoopTask (OracleError ⊕ ε))) = submits submitted ∧
      futures h = submitted.map Prod.snd := by
  induction hh with
  | start hrun => exact append_silent [] (silent_runs (silent_prepare rt q) hrun)
  | @row tr submitted fetch row callback _ hrun ih =>
      obtain ⟨hjobs, hfutures⟩ :=
        append_silent (ε := ε) tr (silent_runs (silent_nextRow statement columns) hrun)
      constructor
      · rw [jobs_append, hjobs, ih.1, submits, submits, List.map_append]
        rfl
      · rw [futures_append, hfutures, ih.2, List.map_append]
        rfl

theorem fetching_jobs {h : List TaskEvent} {submitted : List (OracleRow × Nat)}
    (hh : Fetching rt q h submitted) :
    (jobs h : List (Job LoopTask (OracleError ⊕ ε))) = submits submitted ∧
      futures h = submitted.map Prod.snd := by
  rcases hh with ⟨tr, rest, rfl, hrest, ⟨rfl, rfl⟩ | ⟨_, _, hfetched⟩⟩
  · exact append_silent [] hrest
  · obtain ⟨hjobs, hfutures⟩ := append_silent (ε := ε) tr hrest
    rw [hjobs, hfutures]
    exact fetched_jobs hfetched

theorem fetching_of_ended {h : List TaskEvent} {submitted : List (OracleRow × Nat)}
    {err : Option OracleError} (hh : Ended rt q h submitted err) : Fetching rt q h submitted := by
  cases hh with
  | unprepared hrun =>
      exact ⟨[], h, rfl, silent_runs (silent_prepare rt q) hrun, .inl ⟨rfl, rfl⟩⟩
  | failed hfetched hrun =>
      exact ⟨_, _, rfl, silent_runs (silent_nextRow _ _) hrun, .inr ⟨_, _, hfetched⟩⟩
  | done hfetched hrun =>
      exact ⟨_, _, rfl, silent_runs (silent_nextRow _ _) hrun, .inr ⟨_, _, hfetched⟩⟩

theorem ended_jobs {h : List TaskEvent} {submitted : List (OracleRow × Nat)}
    {err : Option OracleError} (hh : Ended rt q h submitted err) :
    (jobs h : List (Job LoopTask (OracleError ⊕ ε))) = submits submitted ∧
      futures h = submitted.map Prod.snd :=
  fetching_jobs (fetching_of_ended hh)

/-- How far the task has come. -/
inductive Stage (rt : Runtime) (q : OracleQuery) : List TaskEvent → Prop
  | fetching {h submitted} : Fetching rt q h submitted → Stage rt q h
  | reduced {tr submitted} (all : Nat) : Ended rt q tr submitted none →
      Stage rt q (tr ++ [⟨.andAllSucceed (submitted.map Prod.snd), all⟩])
  | finished {h submitted err} : Finished rt q h submitted err → Stage rt q h

theorem stage_of_allows {h : List TaskEvent} {e : TaskEvent}
    (hallows : discipline rt q h e.op) : Stage rt q (h ++ [e]) := by
  have hsilent : Silent e.op → (∃ submitted, Fetching rt q h submitted) →
      Stage rt q (h ++ [e]) := by
    rintro he ⟨submitted, tr, rest, rfl, hrest, htr⟩
    refine .fetching ⟨tr, rest ++ [e], List.append_assoc _ _ _, ?_, htr⟩
    intro x hx
    rcases List.mem_append.mp hx with hx | hx
    · exact hrest x hx
    · rw [List.mem_singleton.mp hx]
      exact he
  rcases e with ⟨op, reply⟩
  cases op with
  | submitRow row =>
      rcases hallows with ⟨statement, columns, tr, fetch, submitted, rfl, hfetched, hrun⟩
      exact .fetching ⟨_, [], (List.append_nil _).symm, by simp,
        .inr ⟨statement, columns, .row reply hfetched hrun⟩⟩
  | submitClear => exact hallows.elim
  | andAllSucceed callbacks =>
      rcases hallows with ⟨submitted, hended, rfl⟩
      exact .reduced reply hended
  | cascade all =>
      rcases hallows with ⟨tr, submitted, hended, rfl⟩
      exact .finished (.cascaded all hended)
  | promiseFail error =>
      rcases hallows with ⟨submitted, hended⟩
      exact .finished (.failed hended)
  | _ => exact hsilent trivial hallows

end Histories

/-! ### What the jobs do -/

section Effects

variable {σ ε : Type} (onRow : OracleRow → σ → Except ε Unit × σ) (c₀ : σ)

/-- The user's code on the loop: `onRow`, with the rows it has been called with. -/
def performTask : LoopTask → σ × List OracleRow →
    Except (OracleError ⊕ ε) Unit × σ × List OracleRow
  | .onRow row, (c, delivered) =>
      let (r, c) := onRow row c
      (r.mapError .inr, c, delivered ++ [row])
  | _, w => (.ok (), w)

/-- The result of the query: the error of the task, or else the one of the first row
whose `onRow` threw. -/
def verdict : Option OracleError → List (Except ε Unit) → Except (OracleError ⊕ ε) Unit
  | some e, _ => .error (.inl e)
  | none, rs => (firstError rs).mapError .inr

/-- The job is one of the query. -/
def own : Job LoopTask (OracleError ⊕ ε) → Bool
  | .execute .other => false
  | _ => true

variable {onRow}

theorem runAll_own (js : List (Job LoopTask (OracleError ⊕ ε)))
    (s : Promises (OracleError ⊕ ε) × σ × List OracleRow) :
    runAll (performTask onRow) js s = runAll (performTask onRow) (js.filter own) s := by
  induction js generalizing s with
  | nil => rfl
  | cons job js ih =>
      cases hown : own job with
      | true =>
          rw [List.filter_cons_of_pos hown]
          exact ih _
      | false =>
          rw [List.filter_cons_of_neg (by simp [hown])]
          obtain rfl : job = .execute .other := by
            unfold own at hown
            split at hown
            · rfl
            · cases hown
          exact ih _

theorem performAll_onRow (rows delivered : List OracleRow) (c : σ) :
    performAll (performTask onRow) (rows.map .onRow) (c, delivered) =
      ((performAll onRow rows c).1.map (Except.mapError .inr),
        (performAll onRow rows c).2, delivered ++ rows) := by
  induction rows generalizing c delivered with
  | nil => simp [performAll]
  | cons row rows ih =>
      simp only [List.map_cons, performAll, performTask, ih]
      simp

theorem firstError_mapError (rs : List (Except ε Unit)) :
    firstError (rs.map (Except.mapError Sum.inr)) =
      (firstError rs).mapError (Sum.inr : ε → OracleError ⊕ ε) := by
  induction rs with
  | nil => rfl
  | cons r rs ih =>
      cases r with
      | ok _ => exact ih
      | error e => rfl

variable (onRow) {submitted : List (OracleRow × Nat)}

theorem runAll_submits (hnames : (0 :: submitted.map Prod.snd).Nodup) :
    ∃ p, runAll (performTask onRow) (submits submitted) (.init, c₀, []) =
        (p, (performAll onRow (submitted.map Prod.fst) c₀).2, submitted.map Prod.fst) ∧
      Quiet p ∧
      (submitted.map Prod.snd).map p.result =
        ((performAll onRow (submitted.map Prod.fst) c₀).1.map (Except.mapError .inr)).map
          some ∧
      ∀ n ∉ submitted.map Prod.snd, p.result n = none := by
  have hfst : (submitted.map fun s => (LoopTask.onRow s.1, s.2)).map Prod.fst =
      (submitted.map Prod.fst).map .onRow := by simp
  have hsnd : (submitted.map fun s => (LoopTask.onRow s.1, s.2)).map Prod.snd =
      submitted.map Prod.snd := by simp
  have hsubmits : (submits submitted : List (Job LoopTask (OracleError ⊕ ε))) =
      (submitted.map fun s => (LoopTask.onRow s.1, s.2)).map submitJob := by
    simp [submits, submitJob]
  have hquiet : Quiet (Promises.init : Promises (OracleError ⊕ ε)) := ⟨rfl, fun _ => rfl⟩
  obtain ⟨p, hrun, hp, hresults, hothers⟩ :=
    runAll_submit (performTask onRow) (hsnd ▸ (List.nodup_cons.mp hnames).2) hquiet
      (fun _ _ => rfl) (c₀, [])
  rw [hfst, performAll_onRow] at hrun hresults
  rw [hsnd] at hresults hothers
  exact ⟨p, hsubmits ▸ hrun, hp, hresults, hothers⟩

theorem verdict_eq_ok {err : Option OracleError} {rs : List (Except ε Unit)} :
    verdict err rs = .ok () ↔ err = none ∧ ∀ r ∈ rs, r = .ok () := by
  cases err with
  | some e => simp [verdict]
  | none =>
      rw [← firstError_eq_ok]
      cases hrs : firstError rs with
      | ok _ => simp [verdict, hrs, Except.mapError]
      | error e => simp [verdict, hrs, Except.mapError]

/-- What the closure has become after all rows, and the rows that it was given. -/
def final (onRow : OracleRow → σ → Except ε Unit × σ) (c₀ : σ)
    (submitted : List (OracleRow × Nat)) : σ × List OracleRow :=
  ((performAll onRow (submitted.map Prod.fst) c₀).2, submitted.map Prod.fst)

theorem runAll_reduce {all : Nat} (hnames : (0 :: (submitted.map Prod.snd ++ [all])).Nodup) :
    ∃ p, runAll (performTask onRow)
          (submits submitted ++ [.reduce (submitted.map Prod.snd) all]) (.init, c₀, []) =
        (p, final onRow c₀ submitted) ∧
      Quiet p ∧ p.result 0 = none ∧
      p.result all = some (verdict none (performAll onRow (submitted.map Prod.fst) c₀).1) := by
  rw [List.nodup_cons, List.nodup_append] at hnames
  rcases hnames with ⟨hzero, hnodup, _, hall⟩
  simp only [List.mem_append, List.mem_singleton, not_or] at hzero
  have hnew : all ∉ submitted.map Prod.snd :=
    fun h => hall all h all (List.mem_singleton_self all) rfl
  obtain ⟨p, hrun, hp, hresults, hothers⟩ := runAll_submits onRow c₀
    (List.nodup_cons.mpr ⟨hzero.1, hnodup⟩)
  obtain ⟨hquiet, hresult⟩ := reduce_complete hp (hothers all hnew) hresults
  refine ⟨p.reduce (submitted.map Prod.snd) all, ?_, hquiet, ?_, ?_⟩
  · rw [runAll_append, hrun]
    rfl
  · rw [hresult, Function.update_of_ne hzero.2, hothers 0 hzero.1]
  · rw [hresult, Function.update_self, firstError_mapError]
    rfl

theorem runAll_cascade {all : Nat} (hnames : (0 :: (submitted.map Prod.snd ++ [all])).Nodup) :
    ∃ p, runAll (performTask onRow)
          (submits submitted ++ [.reduce (submitted.map Prod.snd) all] ++
            [.whenComplete all (.cascade 0)]) (.init, c₀, []) =
        (p, final onRow c₀ submitted) ∧
      Quiet p ∧
      p.result 0 = some (verdict none (performAll onRow (submitted.map Prod.fst) c₀).1) := by
  obtain ⟨p, hrun, hp, hzero, hall⟩ := runAll_reduce onRow c₀ hnames
  obtain ⟨hquiet, hresult⟩ := cascade_complete hp hall hzero
  refine ⟨p.whenComplete all (.cascade 0), ?_, hquiet, ?_⟩
  · rw [runAll_append, hrun]
    rfl
  · rw [hresult, Function.update_self]

theorem runAll_fail {e : OracleError} (hnames : (0 :: submitted.map Prod.snd).Nodup) :
    ∃ p, runAll (performTask onRow)
          (submits submitted ++ [.complete 0 (.error (.inl e))]) (.init, c₀, []) =
        (p, final onRow c₀ submitted) ∧
      Quiet p ∧ p.result 0 =
        some (verdict (some e) (performAll onRow (submitted.map Prod.fst) c₀).1) := by
  obtain ⟨p, hrun, hp, _, hothers⟩ := runAll_submits onRow c₀ hnames
  refine ⟨p.complete 0 (.error (.inl e)), ?_, hp.complete 0 _, ?_⟩
  · rw [runAll_append, hrun]
    rfl
  · rw [Quiet.result_complete (hothers 0 (List.nodup_cons.mp hnames).1), Function.update_self]
    rfl

/-- These rows have been submitted, of those that the task can still fetch. -/
def Progress (rt : Runtime) (q : OracleQuery) (h : List TaskEvent)
    (submitted : List (OracleRow × Nat)) : Prop :=
  ∃ tr, tr <+: h ∧ Fetching rt q tr submitted

/-- Where the loop is, in terms of the history of the task. -/
structure Effect (rt : Runtime) (q : OracleQuery) (h : List TaskEvent)
    (p : Promises (OracleError ⊕ ε)) (w : σ × List OracleRow) : Prop where
  quiet : Quiet p
  delivered : ∃ submitted, Progress rt q h submitted ∧ w.2 <+: submitted.map Prod.fst
  closure : w.1 = (performAll onRow w.2 c₀).2
  completed : ∀ r, p.result 0 = some r → ∃ submitted err, Finished rt q h submitted err ∧
    w.2 = submitted.map Prod.fst ∧ r = verdict err (performAll onRow w.2 c₀).1

variable {h : List TaskEvent}

theorem effect_submits (hh : Progress rt q h submitted)
    (hnames : (0 :: submitted.map Prod.snd).Nodup)
    {executed : List (Job LoopTask (OracleError ⊕ ε))}
    (hexecuted : executed <+: submits submitted) :
    ∃ p w, runAll (performTask onRow) executed (.init, c₀, []) = (p, w) ∧
      Effect onRow c₀ rt q h p w := by
  obtain ⟨k, rfl⟩ : ∃ k, executed = submits (submitted.take k) := by
    refine ⟨executed.length, ?_⟩
    rw [submits, List.map_take, ← submits]
    exact List.prefix_iff_eq_take.mp hexecuted
  have hsub := List.take_sublist k submitted
  obtain ⟨p, hrun, hp, _, hothers⟩ :=
    runAll_submits onRow c₀ (hnames.sublist ((hsub.map Prod.snd).cons_cons 0))
  refine ⟨p, _, hrun, hp, ⟨submitted, hh, ?_⟩, rfl, ?_⟩
  · exact (List.take_prefix k submitted).map Prod.fst
  · intro r hr
    have hzero : 0 ∉ (submitted.take k).map Prod.snd := fun hmem =>
      (List.nodup_cons.mp hnames).1 ((hsub.map Prod.snd).subset hmem)
    rw [hothers 0 hzero] at hr
    cases hr

theorem effect_reduce (hh : Progress rt q h submitted) {all : Nat}
    (hnames : (0 :: (submitted.map Prod.snd ++ [all])).Nodup)
    {executed : List (Job LoopTask (OracleError ⊕ ε))}
    (hexecuted : executed <+: submits submitted ++ [.reduce (submitted.map Prod.snd) all]) :
    ∃ p w, runAll (performTask onRow) executed (.init, c₀, []) = (p, w) ∧
      Effect onRow c₀ rt q h p w := by
  rcases List.prefix_concat_iff.mp hexecuted with rfl | hexecuted
  · obtain ⟨p, hrun, hp, hzero, _⟩ := runAll_reduce onRow c₀ hnames
    refine ⟨p, _, hrun, hp, ⟨submitted, hh, List.prefix_rfl⟩, rfl, ?_⟩
    intro r hr
    rw [hzero] at hr
    cases hr
  · apply effect_submits onRow c₀ hh ?_ hexecuted
    exact hnames.sublist ((List.sublist_append_left _ _).cons_cons 0)

/-- The job that hands over the result is the last one of the history. -/
theorem effect_last {err : Option OracleError} (hh : Finished rt q h submitted err)
    (hprogress : Progress rt q h submitted)
    {earlier : List (Job LoopTask (OracleError ⊕ ε))} {last : Job LoopTask (OracleError ⊕ ε)}
    (hjobs : jobs h = earlier ++ [last])
    (hlast : ∃ p, runAll (performTask onRow) (earlier ++ [last]) (.init, c₀, []) =
        (p, final onRow c₀ submitted) ∧ Quiet p ∧
      p.result 0 = some (verdict err (performAll onRow (submitted.map Prod.fst) c₀).1))
    (hearlier : ∀ executed, executed <+: earlier →
      ∃ p w, runAll (performTask onRow) executed (.init, c₀, []) = (p, w) ∧
        Effect onRow c₀ rt q h p w)
    {executed : List (Job LoopTask (OracleError ⊕ ε))} (hexecuted : executed <+: jobs h) :
    ∃ p w, runAll (performTask onRow) executed (.init, c₀, []) = (p, w) ∧
      Effect onRow c₀ rt q h p w ∧ (executed = jobs h → (p.result 0).isSome) := by
  rw [hjobs] at hexecuted ⊢
  rcases List.prefix_concat_iff.mp hexecuted with rfl | hexecuted
  · obtain ⟨p, hrun, hp, hresult⟩ := hlast
    refine ⟨p, _, hrun, ⟨hp, ⟨submitted, hprogress, List.prefix_rfl⟩, rfl, ?_⟩, ?_⟩
    · intro r hr
      rw [hresult] at hr
      cases hr
      exact ⟨submitted, err, hh, rfl, rfl⟩
    · simp [hresult]
  · obtain ⟨p, w, hrun, heffect⟩ := hearlier executed hexecuted
    refine ⟨p, w, hrun, heffect, ?_⟩
    rintro rfl
    exact absurd hexecuted.length_le (by simp)

theorem effect_finished {err : Option OracleError} (hh : Finished rt q h submitted err)
    (hnames : (0 :: futures h).Nodup) {executed : List (Job LoopTask (OracleError ⊕ ε))}
    (hexecuted : executed <+: jobs h) :
    ∃ p w, runAll (performTask onRow) executed (.init, c₀, []) = (p, w) ∧
      Effect onRow c₀ rt q h p w ∧ (executed = jobs h → (p.result 0).isSome) := by
  have hfinished := hh
  cases hh with
  | @cascaded tr _ all hended =>
      obtain ⟨hjobs, hfutures⟩ := ended_jobs (ε := ε) hended
      have hprogress : Progress rt q (tr ++ [⟨.andAllSucceed (submitted.map Prod.snd), all⟩] ++
          [⟨.cascade all, ()⟩]) submitted :=
        ⟨tr, by simp, fetching_of_ended hended⟩
      have hjobs' : jobs (tr ++ [⟨.andAllSucceed (submitted.map Prod.snd), all⟩] ++
          [⟨.cascade all, ()⟩]) = (submits submitted ++
            [.reduce (submitted.map Prod.snd) all] ++ [.whenComplete all (.cascade 0)] :
              List (Job LoopTask (OracleError ⊕ ε))) := by
        rw [jobs_append, jobs_append, hjobs]
        rfl
      have hnames' : (0 :: (submitted.map Prod.snd ++ [all])).Nodup := by
        rw [futures_append, futures_append, hfutures] at hnames
        change (0 :: (submitted.map Prod.snd ++ [all] ++ [])).Nodup at hnames
        rwa [List.append_nil] at hnames
      exact effect_last onRow c₀ hfinished hprogress hjobs' (runAll_cascade onRow c₀ hnames')
        (fun _ => effect_reduce onRow c₀ hprogress hnames') hexecuted
  | @failed tr _ e hended =>
      obtain ⟨hjobs, hfutures⟩ := ended_jobs (ε := ε) hended
      have hprogress : Progress rt q (tr ++ [⟨.promiseFail e, ()⟩]) submitted :=
        ⟨tr, by simp, fetching_of_ended hended⟩
      have hjobs' : jobs (tr ++ [⟨.promiseFail e, ()⟩]) = (submits submitted ++
          [.complete 0 (.error (.inl e))] : List (Job LoopTask (OracleError ⊕ ε))) := by
        rw [jobs_append, hjobs]
        rfl
      have hnames' : (0 :: submitted.map Prod.snd).Nodup := by
        rw [futures_append, hfutures] at hnames
        exact hnames.sublist ((List.sublist_append_left _ _).cons_cons 0)
      exact effect_last onRow c₀ hfinished hprogress hjobs' (runAll_fail onRow c₀ hnames')
        (fun _ => effect_submits onRow c₀ hprogress hnames') hexecuted

theorem effect_of_prefix (hstage : Stage rt q h) (hnames : (0 :: futures h).Nodup)
    {executed : List (Job LoopTask (OracleError ⊕ ε))} (hexecuted : executed <+: jobs h) :
    ∃ p w, runAll (performTask onRow) executed (.init, c₀, []) = (p, w) ∧
      Effect onRow c₀ rt q h p w := by
  cases hstage with
  | @fetching _ submitted hh =>
      have hjobs := fetching_jobs (ε := ε) hh
      rw [hjobs.1] at hexecuted
      rw [hjobs.2] at hnames
      exact effect_submits onRow c₀ ⟨h, List.prefix_rfl, hh⟩ hnames hexecuted
  | @reduced tr submitted all hended =>
      obtain ⟨hjobs, hfutures⟩ := ended_jobs (ε := ε) hended
      rw [jobs_append, hjobs] at hexecuted
      rw [futures_append, hfutures] at hnames
      exact effect_reduce onRow c₀ ⟨tr, List.prefix_append _ _, fetching_of_ended hended⟩
        hnames hexecuted
  | finished hh =>
      obtain ⟨p, w, hrun, heffect, _⟩ := effect_finished onRow c₀ hh hnames hexecuted
      exact ⟨p, w, hrun, heffect⟩

end Effects

/-! ### The pool thread and the event loop -/

/-- One call of `query`: what is left of its pool task, the event loop, and the state
behind `onRow` with the rows it has been called with. -/
structure System (σ ε : Type) where
  task : Task (QueryState ⊕ Unit)
  history : List TaskEvent
  loop : Loop LoopTask (OracleError ⊕ ε)
  closure : σ
  delivered : List OracleRow

/-- An operation of the pool task with its reply, the next turn of its loop, a step of the
event loop, or a task enqueued by anybody else. -/
inductive Label where
  | pool (e : TaskEvent)
  | restart
  | loop
  | other

section System

variable {σ ε : Type}

/-- The query has been submitted; its promise is the first one. -/
def System.init (rt : Runtime) (q : OracleQuery) (c₀ : σ) : System σ ε where
  task := query rt (.begin q)
  history := []
  loop := ⟨1, [], .init⟩
  closure := c₀
  delivered := []

def System.step (rt : Runtime) (onRow : OracleRow → σ → Except ε Unit × σ)
    (s : System σ ε) : Label → Option (System σ ε)
  | .pool e =>
      match s.task.advance e, enqueueEvent 0 s.loop e with
      | some task, some loop => some { s with task, loop, history := s.history ++ [e] }
      | _, _ => none
  | .restart =>
      match s.task with
      | .pure (.inl x) => some { s with task := query rt x }
      | _ => none
  | .loop =>
      match s.loop.turn (performTask onRow) (s.closure, s.delivered) with
      | some (loop, closure, delivered) => some { s with loop, closure, delivered }
      | none => none
  | .other => some { s with loop := s.loop.enqueue (.execute .other) }

def System.run (rt : Runtime) (onRow : OracleRow → σ → Except ε Unit × σ) :
    System σ ε → List Label → Option (System σ ε)
  | s, [] => some s
  | s, label :: labels => (s.step rt onRow label).bind fun s' => s'.run rt onRow labels

/-- The result of the future that `query` returns. -/
def System.result (s : System σ ε) : Option (Except (OracleError ⊕ ε) Unit) :=
  s.loop.promises.result 0

/-- What every reachable state keeps. -/
structure Invariant (rt : Runtime) (q : OracleQuery)
    (onRow : OracleRow → σ → Except ε Unit × σ) (c₀ : σ) (s : System σ ε) : Prop where
  task : s.task.wp (discipline rt q)
    (loopPost (Started rt q) fun _ h => ∃ submitted err, Finished rt q h submitted err)
    (fun _ _ => False) s.history
  stage : Stage rt q s.history
  names : (0 :: futures s.history).Nodup
  bound : ∀ n ∈ 0 :: futures s.history, n < s.loop.next
  ran : ∃ enqueued, Ran (performTask onRow) (.init, c₀, []) enqueued s.loop
      (s.closure, s.delivered) ∧ enqueued.filter own = jobs s.history

variable {onRow : OracleRow → σ → Except ε Unit × σ} {c₀ : σ} {s s' : System σ ε}

theorem runs_system (rt : Runtime) (onRow : OracleRow → σ → Except ε Unit × σ) :
    Runs (System.step rt onRow) (System.run rt onRow) :=
  ⟨fun _ => rfl, fun _ _ _ => rfl⟩

/-- What each step does. -/
inductive Stepped (rt : Runtime) (onRow : OracleRow → σ → Except ε Unit × σ)
    (s : System σ ε) : Label → System σ ε → Prop
  | pool {e task loop} : s.task.advance e = some task → enqueueEvent 0 s.loop e = some loop →
      Stepped rt onRow s (.pool e) { s with task, loop, history := s.history ++ [e] }
  | restart {x} : s.task = .pure (.inl x) →
      Stepped rt onRow s .restart { s with task := query rt x }
  | loop {loop closure delivered} :
      s.loop.turn (performTask onRow) (s.closure, s.delivered) =
        some (loop, closure, delivered) →
      Stepped rt onRow s .loop { s with loop, closure, delivered }
  | other : Stepped rt onRow s .other { s with loop := s.loop.enqueue (.execute .other) }

theorem stepped_of_step {label : Label} (hstep : s.step rt onRow label = some s') :
    Stepped rt onRow s label s' := by
  cases label with
  | pool e =>
      simp only [System.step] at hstep
      split at hstep
      case h_2 => cases hstep
      case h_1 htask hloop =>
          cases hstep
          exact .pool htask hloop
  | restart =>
      simp only [System.step] at hstep
      split at hstep
      case h_2 => cases hstep
      case h_1 htask =>
          cases hstep
          exact .restart htask
  | loop =>
      simp only [System.step] at hstep
      split at hstep
      case h_2 => cases hstep
      case h_1 hturn =>
          cases hstep
          exact .loop hturn
  | other =>
      cases hstep
      exact .other

theorem Invariant.init (rt : Runtime) (q : OracleQuery)
    (onRow : OracleRow → σ → Except ε Unit × σ) (c₀ : σ) :
    Invariant rt q onRow c₀ (.init rt q c₀) where
  task := wp_query (.begin q) ⟨rfl, rfl⟩
  stage := .fetching ⟨[], [], rfl, by simp, .inl ⟨rfl, rfl⟩⟩
  names := by simp [System.init, futures]
  bound := by simp [System.init, futures]
  ran := ⟨[], ⟨[], rfl, rfl⟩, rfl⟩

theorem Invariant.effect (h : Invariant rt q onRow c₀ s) :
    Effect onRow c₀ rt q s.history s.loop.promises (s.closure, s.delivered) := by
  obtain ⟨enqueued, ⟨executed, rfl, hrun⟩, hjobs⟩ := h.ran
  rw [List.filter_append] at hjobs
  obtain ⟨p, w, hrun', heffect⟩ := effect_of_prefix onRow c₀ h.stage h.names
    (hjobs ▸ List.prefix_append (executed.filter own) (s.loop.queue.filter own))
  rw [runAll_own, hrun'] at hrun
  cases hrun
  exact heffect

theorem own_job {e : TaskEvent} :
    (job? 0 e).toList.filter own = (job? 0 e : Option (Job LoopTask (OracleError ⊕ ε))).toList := by
  rcases e with ⟨op, reply⟩
  cases op <;> rfl

theorem invariant_pool (h : Invariant rt q onRow c₀ s) {e : TaskEvent}
    {task : Task (QueryState ⊕ Unit)} {loop : Loop LoopTask (OracleError ⊕ ε)}
    (htask : s.task.advance e = some task) (hloop : enqueueEvent 0 s.loop e = some loop) :
    Invariant rt q onRow c₀ { s with task, loop, history := s.history ++ [e] } := by
  obtain ⟨hallows, hwp⟩ := wp_advance h.task htask
  obtain ⟨hqueue, hpromises, hnext⟩ := enqueueEvent_eq_some hloop
  refine ⟨hwp, stage_of_allows hallows, ?_, ?_, ?_⟩
  · -- a new future gets a name that no earlier one has
    rw [futures_snoc]
    rcases hnext with ⟨hnew, -⟩ | ⟨hnew, -⟩
    · rw [hnew]
      simpa using h.names
    · rw [hnew]
      have hfresh : s.loop.next ∉ 0 :: futures s.history := fun hmem =>
        absurd (h.bound _ hmem) (lt_irrefl _)
      exact List.nodup_append.mpr ⟨h.names, by simp, by
        rintro n hn m hm rfl
        exact hfresh (List.mem_singleton.mp hm ▸ hn)⟩
  · rw [futures_snoc]
    rcases hnext with ⟨hnew, hnext⟩ | ⟨hnew, hnext⟩
    · rw [hnew, hnext]
      simpa using h.bound
    · rw [hnew, hnext]
      intro n hn
      rcases List.mem_append.mp (List.cons_append ▸ hn) with hn | hn
      · exact (h.bound n hn).trans (Nat.lt_succ_self _)
      · rw [List.mem_singleton.mp hn]
        exact Nat.lt_succ_self _
  · obtain ⟨enqueued, hran, hjobs⟩ := h.ran
    refine ⟨_, ran_append hran hqueue hpromises, ?_⟩
    rw [List.filter_append, hjobs, own_job, jobs_snoc]

theorem invariant_step (h : Invariant rt q onRow c₀ s) {label : Label}
    (hstep : s.step rt onRow label = some s') : Invariant rt q onRow c₀ s' := by
  cases stepped_of_step hstep with
  | pool htask hloop => exact invariant_pool h htask hloop
  | @restart x htask =>
      have hwp := h.task
      rw [htask] at hwp
      exact ⟨wp_query x hwp, h.stage, h.names, h.bound, h.ran⟩
  | loop hturn =>
      obtain ⟨enqueued, hran, hjobs⟩ := h.ran
      obtain ⟨hran, hnext⟩ := ran_turn hran h.effect.quiet.callbacks hturn
      refine ⟨h.task, h.stage, h.names, ?_, enqueued, hran, hjobs⟩
      intro n hn
      rw [hnext]
      exact h.bound n hn
  | other =>
      obtain ⟨enqueued, hran, hjobs⟩ := h.ran
      refine ⟨h.task, h.stage, h.names, h.bound, enqueued ++ [.execute .other], ?_, ?_⟩
      · exact ran_append hran rfl rfl
      · rw [List.filter_append, hjobs]
        exact List.append_nil _

theorem invariant_run {labels : List Label} (h : Invariant rt q onRow c₀ s)
    (hrun : s.run rt onRow labels = some s') : Invariant rt q onRow c₀ s' :=
  (runs_system rt onRow).invariant invariant_step h hrun

/-- In a reachable state: the rows delivered are the first of the rows fetched, in order;
a completed future has its result from the task and from all rows; and after the task, as
many turns of the loop as there are jobs complete it. -/
structure Delivers (rt : Runtime) (q : OracleQuery)
    (onRow : OracleRow → σ → Except ε Unit × σ) (c₀ : σ) (s : System σ ε) : Prop where
  delivered : ∃ submitted, Progress rt q s.history submitted ∧
    s.delivered <+: submitted.map Prod.fst
  closure : s.closure = (performAll onRow s.delivered c₀).2
  completed : ∀ r, s.result = some r → ∃ submitted err, Finished rt q s.history submitted err ∧
    s.delivered = submitted.map Prod.fst ∧ r = verdict err (performAll onRow s.delivered c₀).1
  completes : s.task = .pure (.inr ()) → ∃ s', s.run rt onRow
    (List.replicate s.loop.queue.length .loop) = some s' ∧ s'.result.isSome = true

theorem Invariant.turns (h : Invariant rt q onRow c₀ s) :
    ∃ s', s.run rt onRow (List.replicate s.loop.queue.length .loop) = some s' ∧
      s'.loop.queue = [] ∧ s'.task = s.task ∧ s'.history = s.history := by
  generalize hn : s.loop.queue.length = n
  induction n generalizing s with
  | zero => exact ⟨s, rfl, List.eq_nil_of_length_eq_zero hn, rfl, rfl⟩
  | succ n ih =>
      obtain ⟨job, queue, hqueue⟩ := List.exists_cons_of_length_eq_add_one hn
      obtain ⟨s₁, hstep, hlength, htask, hhistory⟩ : ∃ s₁, s.step rt onRow .loop = some s₁ ∧
          s₁.loop.queue.length = n ∧ s₁.task = s.task ∧ s₁.history = s.history := by
        simp only [System.step, Loop.turn, h.effect.quiet.callbacks, hqueue]
        refine ⟨_, rfl, ?_, rfl, rfl⟩
        rw [hqueue, List.length_cons] at hn
        exact Nat.succ.inj hn
      obtain ⟨s', hrun, hempty, htask', hhistory'⟩ := ih (invariant_step h hstep) hlength
      refine ⟨s', ?_, hempty, htask'.trans htask, hhistory'.trans hhistory⟩
      rw [List.replicate_succ, System.run, hstep]
      exact hrun

theorem Invariant.delivers (h : Invariant rt q onRow c₀ s) : Delivers rt q onRow c₀ s where
  delivered := h.effect.delivered
  closure := h.effect.closure
  completed := h.effect.completed
  completes htask := by
    obtain ⟨s', hrun, hempty, htask', hhistory⟩ := h.turns
    refine ⟨s', hrun, ?_⟩
    have h' := invariant_run h hrun
    have hfinished := h'.task
    rw [htask', htask] at hfinished
    rcases hfinished with ⟨submitted, err, hfinished⟩
    obtain ⟨enqueued, ⟨executed, rfl, hexecuted⟩, hjobs⟩ := h'.ran
    rw [hempty, List.append_nil] at hjobs
    obtain ⟨p, w, hrun', _, hresult⟩ :=
      effect_finished onRow c₀ hfinished h'.names List.prefix_rfl
    rw [runAll_own, hjobs, hrun'] at hexecuted
    cases hexecuted
    exact hresult rfl

end System

end OracleNIO.RowDelivery
