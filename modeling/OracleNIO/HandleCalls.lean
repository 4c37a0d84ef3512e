import OracleNIO.StatementHandles

/-!
The calls of ODPI-C that bind variables to statements, execute them and fetch, and the
close of a connection, keep the reference counts and do not get to freed memory.
-/

namespace OracleNIO.HandleCalls

open ObjectStore Dpi HandleCounts StatementHandles

variable {heap heap' : Heap} {refs : Refs} {hand : List Nat} {c s v i depth : Nat}
  {conn : ConnObject} {var : VarObject} {stmt stmt' : StmtObject}

/-- A statement between two calls. -/
structure Settled (stmt : StmtObject) : Prop where
  refCount_pos : 0 < stmt.refCount
  closed : stmt.closing = true → Released stmt
  bound : ∀ entry ∈ stmt.bindVars, entry.var ≠ none

theorem Settled.not_closing (h : Settled stmt) (hopen : stmt.handle = true) :
    stmt.closing = false := by
  rw [← Bool.not_eq_true]
  intro hclosing
  rw [(h.closed hclosing).handle] at hopen
  cases hopen

theorem count_filterMap_cons {α : Type} (pointer : α → Option Nat) (entry : α)
    (entries : List α) (v : Nat) :
    ((entry :: entries).filterMap pointer).count v =
      (entries.filterMap pointer).count v + [pointer entry].count (some v) := by
  cases hentry : pointer entry with
  | none => simp [hentry]
  | some v' => simp [hentry, List.count_cons]

theorem count_filterMap_modify {α : Type} (pointer : α → Option Nat) {entries : List α}
    {entry : α} (f : α → α) (hentry : entries[i]? = some entry) (v : Nat) :
    ((entries.modify i f).filterMap pointer).count v + [pointer entry].count (some v) =
      (entries.filterMap pointer).count v + [pointer (f entry)].count (some v) := by
  induction entries generalizing i with
  | nil => cases hentry
  | cons first entries ih =>
      cases i with
      | zero =>
          cases hentry
          rw [List.modify_zero_cons, count_filterMap_cons, count_filterMap_cons]
          omega
      | succ i =>
          have hrest := ih hentry
          rw [List.modify_succ_cons, count_filterMap_cons, count_filterMap_cons]
          omega

theorem uses_setBindVar {entry : BindEntry} (hentry : stmt.bindVars[i]? = some entry)
    (pointer : Option Nat) (v : Nat) :
    uses v (stmt.setBindVar i pointer) + [entry.var].count (some v) =
      uses v stmt + [pointer].count (some v) := by
  have := count_filterMap_modify BindEntry.var
    (fun entry => { entry with var := pointer }) hentry v
  simp only [uses, StmtObject.boundVars, StmtObject.definedVars, StmtObject.setBindVar]
    at this ⊢
  omega

theorem uses_setQueryVar (hentry : stmt.queryVars[i]? = some none) (v v' : Nat) :
    uses v' { stmt with queryVars := stmt.queryVars.set i (some v) } =
      uses v' stmt + [v].count v' := by
  have hcount := count_filterMap_modify id (fun _ => some v) hentry v'
  have hset : stmt.queryVars.modify i (fun _ => some v) = stmt.queryVars.set i (some v) := by
    rw [List.modify_eq_set_getElem?, hentry]
    rfl
  rw [hset] at hcount
  simp only [uses, StmtObject.boundVars, StmtObject.definedVars]
  simp [List.count_cons] at hcount ⊢
  omega

theorem bound_setBindVar (hsame : ∀ j, j ≠ i → stmt'.bindVars[j]? = stmt.bindVars[j]?)
    (hbound : ∀ entry ∈ stmt.bindVars, entry.var ≠ none) :
    ∀ entry ∈ (stmt'.setBindVar i (some v)).bindVars, entry.var ≠ none := by
  intro entry hmem
  obtain ⟨j, hj⟩ := List.mem_iff_getElem?.mp hmem
  rw [StmtObject.setBindVar, List.getElem?_modify] at hj
  obtain ⟨before, hbefore, rfl⟩ := Option.map_eq_some_iff.mp hj
  split
  case isTrue => exact Option.some_ne_none v
  case isFalse hne =>
      rw [hsame j (Ne.symm hne)] at hbefore
      exact hbound before (List.mem_of_getElem? hbefore)

/-- The statement has the same state and no new empty entry. -/
structure Rebound (stmt stmt' : StmtObject) : Prop where
  refCount : stmt'.refCount = stmt.refCount
  conn : stmt'.conn = stmt.conn
  handle : stmt'.handle = stmt.handle
  closing : stmt'.closing = stmt.closing
  bound : (∀ entry ∈ stmt.bindVars, entry.var ≠ none) → ∀ entry ∈ stmt'.bindVars, entry.var ≠ none

theorem Rebound.refl (stmt : StmtObject) : Rebound stmt stmt := ⟨rfl, rfl, rfl, rfl, id⟩

theorem Settled.rebound (h : Settled stmt) (hopen : stmt.handle = true)
    (hrebound : Rebound stmt stmt') : Settled stmt' where
  refCount_pos := hrebound.refCount ▸ h.refCount_pos
  closed hclosing := by
    rw [hrebound.closing, h.not_closing hopen] at hclosing
    cases hclosing
  bound := hrebound.bound h.bound

theorem bindEntry_spec {entry : BindEntry} (h : Counted heap refs hand [])
    (hs : get heap.stmts s = some stmt) (hentry : stmt.bindVars[i]? = some entry)
    (hnone : entry.var = none) (hv : 0 < refs.vars.count v) :
    ∃ heap', heap.bindEntry s i v .bound = some heap' ∧ Counted heap' refs hand [] ∧
      StmtFrame heap heap' s (stmt.setBindVar i (some v)) := by
  obtain ⟨var, hvar, _⟩ := h.var_of_uses (v := v) (by
    rw [List.count_nil]
    omega)
  obtain ⟨heap₁, hretain, hcounted, hframe⟩ := retainVar_spec h hvar
  have hs₁ : get heap₁.stmts s = some stmt := hframe.stmts ▸ hs
  refine ⟨heap₁.putStmt s (stmt.setBindVar i (some v)), ?_, ?_, ?_, ?_⟩
  · simp [Heap.bindEntry, hretain, hs₁]
  · refine counted_cancel (v := v) (hcounted.setStmt hs₁ rfl rfl rfl rfl fun v' => ?_)
    have := uses_setBindVar hentry (some v) v'
    rw [hnone] at this
    simp [List.count_cons] at this ⊢
    omega
  · rw [← hframe.stmts]
    rfl
  · exact hframe.kept.trans (StmtFrame.put heap₁ s _).kept

/-- The variable of an entry is released before the entry gets another one. -/
theorem rebind_spec {entry : BindEntry} {old : Nat} (h : Counted heap refs hand [])
    (hs : get heap.stmts s = some stmt) (hentry : stmt.bindVars[i]? = some entry)
    (hold : entry.var = some old) (hv : 0 < refs.vars.count v) (depth : Nat) :
    ∃ heap₁ heap', heap.releaseVar (Heap.releaseConn (depth + 1)) old = some heap₁ ∧
      get heap₁.stmts s = some stmt ∧
      (heap₁.putStmt s (stmt.setBindVar i none)).bindEntry s i v .bound = some heap' ∧
      Counted heap' refs hand [] ∧
      StmtFrame heap heap' s ((stmt.setBindVar i none).setBindVar i (some v)) := by
  have huses := uses_setBindVar hentry none
  rw [hold] at huses
  obtain ⟨heap₁, hrelease, hcounted₁, hframe₁⟩ := releaseVar_spec h (v := old) (by
    have := huses old
    have := uses_le hs old
    simp at *
    omega) depth
  have hs₁ : get heap₁.stmts s = some stmt := hframe₁.stmts ▸ hs
  have hcleared : Counted (heap₁.putStmt s (stmt.setBindVar i none)) refs hand [] := by
    refine hcounted₁.setStmt hs₁ rfl rfl rfl rfl fun v' => ?_
    have := huses v'
    simp [List.count_cons] at this ⊢
    omega
  have hframe₂ := StmtFrame.put heap₁ s (stmt.setBindVar i none)
  have hempty : (stmt.setBindVar i none).bindVars[i]? = some { entry with var := none } := by
    rw [StmtObject.setBindVar, List.getElem?_modify_eq, hentry]
    rfl
  obtain ⟨heap', hbind, hcounted', hframe'⟩ :=
    bindEntry_spec hcleared (hframe₂.get_self hs₁) hempty rfl hv
  have hframe := hframe₂.trans hframe'
  refine ⟨heap₁, heap', hrelease, hs₁, hbind, hcounted', ?_, hframe₁.kept.trans hframe.kept⟩
  rw [hframe.stmts, hframe₁.stmts]

theorem bind_spec (h : Counted heap refs hand []) (hs : get heap.stmts s = some stmt)
    (hv : 0 < refs.vars.count v) (pos : Nat) (name : List UInt8) {outcome : Heap.Bound}
    (hconverted : outcome ≠ .notConverted) (depth : Nat) :
    ∃ heap' stmt', heap.bind (depth + 1) s pos name v outcome = some heap' ∧
      Counted heap' refs hand [] ∧ StmtFrame heap heap' s stmt' ∧ Rebound stmt stmt' := by
  have hunchanged : StmtFrame heap heap s stmt := ⟨(put_get hs).symm, .refl heap⟩
  cases outcome with
  | notConverted => exact (hconverted rfl).elim
  | refused =>
      exact ⟨heap, stmt, by simp [Heap.bind, hs], h, hunchanged, .refl stmt⟩
  | bound =>
      simp only [Heap.bind, hs, Option.bind_eq_bind, Option.bind_some, reduceCtorEq, if_false]
      split
      case h_1 =>
          have hcounted : Counted
              (heap.putStmt s { stmt with bindVars := stmt.bindVars ++ [⟨pos, name, none⟩] })
              refs hand [] := by
            refine h.setStmt hs rfl rfl rfl rfl fun v' => ?_
            simp [uses, StmtObject.boundVars, StmtObject.definedVars]
          have hframe := StmtFrame.put heap s
            { stmt with bindVars := stmt.bindVars ++ [⟨pos, name, none⟩] }
          obtain ⟨heap', hentry, hcounted', hframe'⟩ :=
            bindEntry_spec hcounted (hframe.get_self hs) List.getElem?_concat_length rfl hv
          refine ⟨heap', _, hentry, hcounted', hframe.trans hframe', rfl, rfl, rfl, rfl, ?_⟩
          refine bound_setBindVar fun j hj => ?_
          rw [List.getElem?_append]
          split
          case isTrue => rfl
          case isFalse hlt =>
              rw [List.getElem?_eq_none (by simp; omega), List.getElem?_eq_none (by omega)]
      case h_2 i hfound =>
          obtain ⟨hi, _⟩ := List.findIdx?_eq_some_iff_getElem.mp hfound
          have hentry := List.getElem?_eq_getElem hi
          rw [hentry, Option.bind_some]
          split
          case h_1 hnone =>
              obtain ⟨heap', hbind, hcounted', hframe'⟩ := bindEntry_spec h hs hentry hnone hv
              refine ⟨heap', _, hbind, hcounted', hframe', rfl, rfl, rfl, rfl, ?_⟩
              exact bound_setBindVar fun j _ => rfl
          case h_2 old hold =>
              split
              case isTrue => exact ⟨heap, stmt, rfl, h, hunchanged, .refl stmt⟩
              case isFalse =>
                  obtain ⟨heap₁, heap', hrelease, hs₁, hbind, hcounted', hframe'⟩ :=
                    rebind_spec h hs hentry hold hv depth
                  refine ⟨heap', _, ?_, hcounted', hframe', rfl, rfl, rfl, rfl, ?_⟩
                  · simp only [hrelease, hs₁, Option.bind_some, hbind]
                  · refine bound_setBindVar fun j hj => ?_
                    rw [StmtObject.setBindVar, List.getElem?_modify_ne _ _ hj.symm]

/-- The state between two calls. -/
structure Ready (heap : Heap) (refs : Refs) : Prop where
  counted : Counted heap refs [] []
  settled : ∀ {s stmt}, get heap.stmts s = some stmt → Settled stmt
  closing : ∀ {c conn}, get heap.conns c = some conn → conn.handle = true → conn.closing = false

namespace Ready

variable {refs' : Refs}

theorem stmt_of_mem (h : Ready heap refs) (hs : s ∈ refs.stmts) :
    ∃ stmt, get heap.stmts s = some stmt := by
  have hcount := h.counted.stmts s
  have hpos := List.count_pos_iff.mpr hs
  cases hget : get heap.stmts s with
  | none =>
      rw [value_of_none _ hget] at hcount
      omega
  | some stmt => exact ⟨stmt, rfl⟩

theorem conn_of_mem (h : Ready heap refs) (hc : c ∈ refs.conns) :
    ∃ conn, get heap.conns c = some conn := by
  have hpos := List.count_pos_iff.mpr hc
  obtain ⟨conn, hconn, _⟩ := h.counted.conn_of_uses (c := c) (by omega)
  exact ⟨conn, hconn⟩

theorem var_of_mem (h : Ready heap refs) (hv : v ∈ refs.vars) :
    ∃ var, get heap.vars v = some var := by
  have hpos := List.count_pos_iff.mpr hv
  obtain ⟨var, hvar, _⟩ := h.counted.var_of_uses (v := v) (by
    rw [List.count_nil]
    omega)
  exact ⟨var, hvar⟩

theorem kept (h : Ready heap refs) (hkept : Kept heap heap') {conn : ConnObject}
    (hget : get heap'.conns c = some conn) (hopen : conn.handle = true) : conn.closing = false := by
  obtain ⟨conn₀, hget₀, hhandle, hclosing, _⟩ := hkept.conn hget
  exact hclosing.trans (h.closing hget₀ (hhandle.symm.trans hopen))

theorem of_stmts (h : Ready heap refs) (hcounted : Counted heap' refs' [] [])
    (hkept : Kept heap heap') (hstmts : ∀ {s stmt}, get heap'.stmts s = some stmt →
      get heap.stmts s = some stmt ∨ Settled stmt) : Ready heap' refs' where
  counted := hcounted
  settled hget := (hstmts hget).elim h.settled id
  closing := h.kept hkept

theorem of_frame (h : Ready heap refs) (hcounted : Counted heap' refs' [] [])
    (hframe : Frame heap heap') : Ready heap' refs' :=
  h.of_stmts hcounted hframe.kept fun hget => .inl (hframe.stmts ▸ hget)

theorem of_stmtFrame (h : Ready heap refs) (hcounted : Counted heap' refs' [] [])
    (hs : get heap.stmts s = some stmt) (hframe : StmtFrame heap heap' s stmt')
    (hsettled : Settled stmt') : Ready heap' refs' := by
  refine h.of_stmts hcounted hframe.kept ?_
  intro s₁ stmt₁ hget
  rw [hframe.stmts] at hget
  rcases eq_or_ne s s₁ with rfl | hne
  · rw [get_put_self hs] at hget
    cases hget
    exact .inr hsettled
  · rw [get_put_of_ne hne] at hget
    exact .inl hget

theorem of_freed (h : Ready heap refs) (hcounted : Counted heap' refs' [] [])
    (hframe : FreedFrame heap heap' s) : Ready heap' refs' := by
  refine h.of_stmts hcounted hframe.kept ?_
  intro s₁ stmt₁ hget
  rcases eq_or_ne s s₁ with rfl | hne
  · rw [hframe.freed] at hget
    cases hget
  · exact .inl (hframe.other s₁ hne ▸ hget)

theorem stmtCheck (h : Ready heap refs) (hs : get heap.stmts s = some stmt) :
    ∃ usable, heap.stmtCheck s = some usable ∧ (usable = true → stmt.handle = true ∧
      ∃ conn, get heap.conns stmt.conn = some conn) := by
  cases hhandle : stmt.handle with
  | false =>
      refine ⟨false, by simp [Heap.stmtCheck, hs, hhandle], fun h => ?_⟩
      cases h
  | true =>
      obtain ⟨conn, hconn, _⟩ := h.counted.connected hs hhandle
      exact ⟨conn.connected, by simp [Heap.stmtCheck, Heap.connCheck, hs, hhandle, hconn],
        fun _ => ⟨rfl, conn, hconn⟩⟩

theorem bindVar (h : Ready heap refs) (hs : s ∈ refs.stmts) (hv : v ∈ refs.vars) (pos : Nat)
    (name : List UInt8) {outcome : Heap.Bound} (hconverted : outcome ≠ .notConverted)
    (depth : Nat) :
    ∃ heap', heap.bindVar (depth + 1) s pos name v outcome = some heap' ∧ Ready heap' refs := by
  obtain ⟨stmt, hstmt⟩ := h.stmt_of_mem hs
  obtain ⟨var, hvar⟩ := h.var_of_mem hv
  obtain ⟨usable, hcheck, husable⟩ := h.stmtCheck hstmt
  simp only [Heap.bindVar, hcheck, hvar, Option.bind_eq_bind, Option.bind_some]
  cases usable with
  | false => exact ⟨heap, rfl, h⟩
  | true =>
      obtain ⟨heap', stmt', hbind, hcounted, hframe, hrebound⟩ :=
        bind_spec h.counted hstmt (List.count_pos_iff.mpr hv) pos name hconverted depth
      have hsettled := (h.settled hstmt).rebound (husable rfl).1 hrebound
      exact ⟨heap', hbind, h.of_stmtFrame hcounted hstmt hframe hsettled⟩

theorem bindValue (h : Ready heap refs) (hs : s ∈ refs.stmts) (pos : Nat) (name : List UInt8)
    (created : Heap.Allocated) (copied : Bool) {outcome : Heap.Bound}
    (hconverted : outcome ≠ .notConverted) (depth : Nat) :
    ∃ heap', heap.bindValue (depth + 1) s pos name created copied outcome = some heap' ∧
      Ready heap' refs := by
  obtain ⟨stmt, hstmt⟩ := h.stmt_of_mem hs
  obtain ⟨usable, hcheck, husable⟩ := h.stmtCheck hstmt
  simp only [Heap.bindValue, hcheck, hstmt, Option.bind_eq_bind, Option.bind_some]
  cases usable with
  | false => exact ⟨heap, rfl, h⟩
  | true =>
      obtain ⟨hopen, conn, hconn⟩ := husable rfl
      obtain ⟨result, heap₁, hallocate, hframe₁, ⟨rfl, hcounted₁⟩ | ⟨v, rfl, hcounted₁⟩⟩ :=
        varAllocate_spec h.counted hconn created depth
      · exact ⟨heap₁, by simp [hallocate], h.of_frame hcounted₁ hframe₁⟩
      · have hs₁ : get heap₁.stmts s = some stmt := hframe₁.stmts ▸ hstmt
        cases copied with
        | false =>
            refine ⟨_, by simp [hallocate], counted_unreleased hcounted₁, ?_, ?_⟩
            · exact (h.of_frame hcounted₁ hframe₁).settled
            · exact (h.of_frame hcounted₁ hframe₁).closing
        | true =>
            have hready₁ := h.of_frame hcounted₁ hframe₁
            obtain ⟨heap₂, stmt₂, hbind, hcounted₂, hframe₂, hrebound⟩ :=
              bind_spec hcounted₁ hs₁ (v := v) (by simp) pos name hconverted depth
            have hready₂ := hready₁.of_stmtFrame hcounted₂ hs₁ hframe₂
              ((h.settled hstmt).rebound hopen hrebound)
            obtain ⟨heap₃, hrelease, hcounted₃, hframe₃⟩ := releaseVar_spec hcounted₂ (v := v) (by
              simp only [List.count_cons_self, List.count_nil]
              omega) depth
            refine ⟨heap₃, by simp [hallocate, hbind, hrelease], ?_⟩
            exact hready₂.of_frame (counted_cancel hcounted₃) hframe₃

theorem closeStmt (h : Ready heap refs) (hs : s ∈ refs.stmts) (released : Bool) (depth : Nat) :
    ∃ heap', heap.closeStmt (depth + 1) s released = some heap' ∧ Ready heap' refs := by
  obtain ⟨stmt, hstmt⟩ := h.stmt_of_mem hs
  obtain ⟨usable, hcheck, _⟩ := h.stmtCheck hstmt
  simp only [Heap.closeStmt, hcheck, Option.bind_eq_bind, Option.bind_some]
  cases usable with
  | false => exact ⟨heap, rfl, h⟩
  | true =>
      obtain ⟨heap', stmt', hclose, hcounted, hframe, hreleased, hcount, _⟩ :=
        stmtClose_spec h.counted hstmt (h.settled hstmt).closed released depth
      refine ⟨heap', hclose, h.of_stmtFrame hcounted hstmt hframe ⟨?_, fun _ => hreleased, ?_⟩⟩
      · exact hcount ▸ (h.settled hstmt).refCount_pos
      · rw [hreleased.bindVars]
        exact fun _ hmem => absurd hmem List.not_mem_nil

end Ready

end OracleNIO.HandleCalls
