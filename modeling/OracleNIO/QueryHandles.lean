import OracleNIO.HandleCalls

/-!
The variables that ODPI-C makes for the columns of a query: executing and fetching keep
the reference counts, and whatever variable they get to is there.
-/

namespace OracleNIO.HandleCalls

open ObjectStore Dpi HandleCounts StatementHandles

variable {heap heap' : Heap} {refs : Refs} {hand : List Nat} {c s v i depth : Nat}
  {conn : ConnObject} {var : VarObject} {stmt stmt' : StmtObject}

theorem var_of_pointer (h : Counted heap refs hand []) (hs : get heap.stmts s = some stmt)
    (hv : 0 < uses v stmt) : ∃ var, get heap.vars v = some var := by
  have := uses_le hs v
  obtain ⟨var, hvar, _⟩ := h.var_of_uses (v := v) (by
    rw [List.count_nil]
    omega)
  exact ⟨var, hvar⟩

theorem uses_pos_of_queryVar (h : stmt.queryVars[i]? = some (some v)) : 0 < uses v stmt := by
  have hmem : v ∈ stmt.definedVars :=
    List.mem_filterMap.mpr ⟨some v, List.mem_of_getElem? h, rfl⟩
  have := List.count_pos_iff.mpr hmem
  rw [uses]
  omega

theorem uses_pos_of_bindVar {entry : BindEntry} (h : entry ∈ stmt.bindVars)
    (hv : entry.var = some v) : 0 < uses v stmt := by
  have hmem : v ∈ stmt.boundVars := List.mem_filterMap.mpr ⟨entry, h, hv⟩
  have := List.count_pos_iff.mpr hmem
  rw [uses]
  omega

theorem touch_spec {vars : List (Option Nat)}
    (h : ∀ pointer ∈ vars, ∃ v, pointer = some v ∧ ∃ var, get heap.vars v = some var) :
    heap.touch vars = some () := by
  induction vars with
  | nil => rfl
  | cons pointer vars ih =>
      obtain ⟨v, rfl, var, hvar⟩ := h pointer List.mem_cons_self
      have hrest := ih fun pointer hmem => h pointer (List.mem_cons_of_mem _ hmem)
      simp only [Heap.touch, Option.bind_eq_bind, Option.bind_some, hvar, hrest]

theorem createQueryVars_spec (h : Counted heap refs hand []) (hs : get heap.stmts s = some stmt)
    (numQueryVars : Nat) (described : Bool) (depth : Nat) :
    ∃ created heap' queryVars,
      heap.createQueryVars (depth + 1) s numQueryVars described = some (created, heap') ∧
        Counted heap' refs hand [] ∧ StmtFrame heap heap' s { stmt with queryVars } := by
  have hempty : ∀ stmt₁ : StmtObject, stmt₁.queryVars = [] → ∀ n v,
      uses v { stmt₁ with queryVars := List.replicate n none } = uses v stmt₁ := by
    intro stmt₁ hnil n v
    simp [uses, StmtObject.boundVars, StmtObject.definedVars, hnil]
  simp only [Heap.createQueryVars, hs, Option.bind_eq_bind, Option.bind_some]
  by_cases hsame : stmt.queryVars.length = numQueryVars
  · rw [if_pos hsame]
    exact ⟨true, heap, stmt.queryVars, rfl, h, (put_get hs).symm, .refl heap⟩
  · rw [if_neg hsame]
    have hcreate : ∀ {heap₁ : Heap}, Counted heap₁ refs hand [] →
        StmtFrame heap heap₁ s { stmt with queryVars := [] } →
        ∃ created heap' queryVars, (get heap₁.stmts s).bind (fun stmt =>
            some (described, heap₁.putStmt s { stmt with
              queryVars := if described then List.replicate numQueryVars none else [] })) =
              some (created, heap') ∧
          Counted heap' refs hand [] ∧ StmtFrame heap heap' s { stmt with queryVars } := by
      intro heap₁ hcounted₁ hframe₁
      have hs₁ := hframe₁.get_self hs
      rw [hs₁, Option.bind_some]
      refine ⟨described, _, _, rfl, ?_, hframe₁.trans (StmtFrame.put heap₁ s _)⟩
      refine hcounted₁.setStmt hs₁ rfl rfl rfl rfl fun v => ?_
      cases described with
      | false => rfl
      | true => rw [if_pos rfl, hempty _ rfl]
    split
    case isTrue =>
        obtain ⟨heap₁, hclear, hcounted₁, hframe₁⟩ := clearQueryVars_spec h hs depth
        rw [hclear, Option.bind_some]
        exact hcreate hcounted₁ hframe₁
    case isFalse hlength =>
        have hnil : stmt.queryVars = [] := List.eq_nil_of_length_eq_zero (by omega)
        have hsame : StmtFrame heap heap s { stmt with queryVars := [] } := by
          rw [← hnil]
          exact ⟨(put_get hs).symm, .refl heap⟩
        have hnew := hcreate h hsame
        rw [hs] at hnew
        exact hnew

theorem stmtFrame_of_frame (h : Frame heap heap') (hs : get heap.stmts s = some stmt) :
    StmtFrame heap heap' s stmt where
  stmts := h.stmts.trans (put_get hs).symm
  kept := h.kept

theorem defineNew_spec (h : Counted heap { refs with vars := v :: refs.vars } hand [])
    (hs : get heap.stmts s = some stmt) (hcell : stmt.queryVars[i]? = some none) (depth : Nat) :
    ∃ heap', (do
        let heap ← heap.retainVar v
        let stmt ← get heap.stmts s
        let heap := heap.putStmt s { stmt with queryVars := stmt.queryVars.set i (some v) }
        heap.releaseVar (Heap.releaseConn (depth + 1)) v) = some heap' ∧
      Counted heap' refs hand [] ∧
      StmtFrame heap heap' s { stmt with queryVars := stmt.queryVars.set i (some v) } := by
  obtain ⟨var, hvar, _⟩ := h.var_of_uses (v := v) (by
    simp only [List.count_cons_self, List.count_nil]
    omega)
  obtain ⟨heap₁, hretain, hcounted₁, hframe₁⟩ := retainVar_spec h hvar
  have hs₁ : get heap₁.stmts s = some stmt := hframe₁.stmts ▸ hs
  have hdefined : Counted (heap₁.putStmt s
      { stmt with queryVars := stmt.queryVars.set i (some v) })
      { refs with vars := v :: refs.vars } hand [] := by
    refine counted_cancel (v := v) (hcounted₁.setStmt hs₁ rfl rfl rfl rfl fun v' => ?_)
    have := uses_setQueryVar hcell v v'
    rw [List.count_nil]
    omega
  obtain ⟨heap', hrelease, hcounted', hframe'⟩ := releaseVar_spec hdefined (v := v) (by
    simp only [List.count_cons_self, List.count_nil]
    omega) depth
  refine ⟨heap', by simp [hretain, hs₁, hrelease], counted_cancel hcounted', ?_, ?_⟩
  · rw [hframe'.stmts, ← hframe₁.stmts]
    rfl
  · exact (hframe₁.kept.trans (StmtFrame.put heap₁ s _).kept).trans hframe'.kept

theorem beforeFetch_spec (h : Counted heap refs hand []) (hs : get heap.stmts s = some stmt)
    (outcome : Nat → Heap.ColumnOutcome) (columns : List Nat)
    (hcolumns : ∀ i ∈ columns, i < stmt.queryVars.length) (depth : Nat) :
    ∃ prefetched heap' queryVars,
      Heap.beforeFetch (depth + 1) s outcome heap columns = some (prefetched, heap') ∧
        Counted heap' refs hand [] ∧ StmtFrame heap heap' s { stmt with queryVars } ∧
        queryVars.length = stmt.queryVars.length ∧
        ∀ i : Nat, ((stmt.queryVars[i]?).join.isSome ∨ prefetched = true ∧ i ∈ columns) →
          (queryVars[i]?).join.isSome := by
  induction columns generalizing heap stmt with
  | nil =>
      refine ⟨true, heap, stmt.queryVars, rfl, h, ⟨(put_get hs).symm, .refl heap⟩, rfl, ?_⟩
      rintro i (hi | ⟨_, hmem⟩)
      · exact hi
      · cases hmem
  | cons i columns ih =>
      have hlength := hcolumns i List.mem_cons_self
      have hrest := fun j hj => hcolumns j (List.mem_cons_of_mem i hj)
      rw [Heap.beforeFetch, hs, Option.bind_eq_bind, Option.bind_some]
      have hcell := List.getElem?_eq_getElem hlength
      rw [hcell, Option.join_some]
      cases hpointer : stmt.queryVars[i] with
      | some v =>
          rw [hpointer] at hcell
          obtain ⟨var, hvar⟩ := var_of_pointer h hs (uses_pos_of_queryVar hcell)
          obtain ⟨prefetched, heap', queryVars, hfetch, hcounted, hframe, hsize, hfilled⟩ :=
            ih h hs hrest
          refine ⟨prefetched, heap', queryVars, by simp [hvar, hfetch], hcounted, hframe, hsize, ?_⟩
          rintro j (hj | ⟨hprefetched, hmem⟩)
          · exact hfilled j (.inl hj)
          · rcases List.mem_cons.mp hmem with rfl | hmem
            · exact hfilled j (.inl (by rw [hcell]; rfl))
            · exact hfilled j (.inr ⟨hprefetched, hmem⟩)
      | none =>
          rw [hpointer] at hcell
          have huses := connUses_of_stmt hs
          obtain ⟨conn, hconn, _⟩ := h.conn_of_uses (c := stmt.conn) (by omega)
          obtain ⟨result, heap₁, hallocate, hframe₁, ⟨rfl, hcounted₁⟩ | ⟨v, rfl, hcounted₁⟩⟩ :=
            varAllocate_spec h hconn (outcome i).allocated depth
          · refine ⟨false, heap₁, stmt.queryVars, by simp [hallocate], hcounted₁,
              stmtFrame_of_frame hframe₁ hs, rfl, ?_⟩
            rintro j (hj | ⟨hfalse, _⟩)
            · exact hj
            · cases hfalse
          · have hs₁ : get heap₁.stmts s = some stmt := hframe₁.stmts ▸ hs
            cases hdefined : (outcome i).defined with
            | false =>
                refine ⟨false, _, stmt.queryVars, by simp [hallocate],
                  counted_unreleased hcounted₁, ⟨(stmtFrame_of_frame hframe₁ hs).stmts, ?_⟩, rfl,
                  ?_⟩
                · exact ⟨hframe₁.kept.conn⟩
                · rintro j (hj | ⟨hfalse, _⟩)
                  · exact hj
                  · cases hfalse
            | true =>
                obtain ⟨heap₂, hdefine, hcounted₂, hframe₂⟩ :=
                  defineNew_spec hcounted₁ hs₁ hcell depth
                have hframe := ((stmtFrame_of_frame hframe₁ hs).trans hframe₂)
                obtain ⟨prefetched, heap', queryVars, hfetch, hcounted, hframe', hsize, hfilled⟩ :=
                  ih hcounted₂ (hframe₂.get_self hs₁) (fun j hj => by
                    rw [List.length_set]
                    exact hrest j hj)
                refine ⟨prefetched, heap', queryVars, ?_, hcounted, hframe.trans hframe', ?_, ?_⟩
                · simp only [Option.bind_eq_bind, Option.bind_eq_some_iff] at hdefine
                  obtain ⟨heap₃, hretain, stmt₃, hs₃, hrelease⟩ := hdefine
                  simp [hallocate, hretain, hs₃, hrelease, hfetch]
                · rw [hsize, List.length_set]
                · intro j hj
                  apply hfilled
                  by_cases hij : i = j
                  · subst hij
                    rw [List.getElem?_set_self hlength]
                    exact .inl rfl
                  · rw [List.getElem?_set_ne hij]
                    refine hj.imp_right fun ⟨hprefetched, hmem⟩ => ⟨hprefetched, ?_⟩
                    exact (List.mem_cons.mp hmem).resolve_left (Ne.symm hij)

theorem Settled.queryVars (h : Settled stmt) (hopen : stmt.handle = true)
    (queryVars : List (Option Nat)) : Settled { stmt with queryVars } where
  refCount_pos := h.refCount_pos
  closed hclosing := by
    change stmt.closing = true at hclosing
    rw [h.not_closing hopen] at hclosing
    cases hclosing
  bound := h.bound

namespace Ready

theorem execute (h : Ready heap refs) (hs : s ∈ refs.stmts) (columns : Option (Nat × Bool))
    (depth : Nat) :
    ∃ heap', heap.execute (depth + 1) s columns = some heap' ∧ Ready heap' refs := by
  obtain ⟨stmt, hstmt⟩ := h.stmt_of_mem hs
  obtain ⟨usable, hcheck, husable⟩ := h.stmtCheck hstmt
  simp only [Heap.execute, hcheck, hstmt, Option.bind_eq_bind, Option.bind_some]
  cases usable with
  | false => exact ⟨heap, rfl, h⟩
  | true =>
      have htouch : heap.touch (stmt.bindVars.map BindEntry.var) = some () := by
        refine touch_spec fun pointer hmem => ?_
        obtain ⟨entry, hentry, rfl⟩ := List.mem_map.mp hmem
        obtain ⟨v, hv⟩ := Option.ne_none_iff_exists'.mp ((h.settled hstmt).bound entry hentry)
        exact ⟨v, hv, var_of_pointer h.counted hstmt (uses_pos_of_bindVar hentry hv)⟩
      rw [if_pos rfl, htouch, Option.bind_some]
      cases columns with
      | none => exact ⟨heap, rfl, h⟩
      | some column =>
          obtain ⟨numQueryVars, described⟩ := column
          obtain ⟨created, heap', queryVars, hcreate, hcounted, hframe⟩ :=
            createQueryVars_spec h.counted hstmt numQueryVars described depth
          refine ⟨heap', by simp [hcreate], h.of_stmtFrame hcounted hstmt hframe ?_⟩
          exact (h.settled hstmt).queryVars (husable rfl).1 queryVars

/-- The part of a fetch behind the creation of the query variables. -/
theorem fetchColumns (h : Ready heap refs) (hs : get heap.stmts s = some stmt)
    (hopen : stmt.handle = true) (outcome : Nat → Heap.ColumnOutcome) (depth : Nat) :
    ∃ prefetched heap' stmt', Heap.beforeFetch (depth + 1) s outcome heap
        (List.range stmt.queryVars.length) = some (prefetched, heap') ∧ Ready heap' refs ∧
      get heap'.stmts s = some stmt' ∧
      (prefetched = true → heap'.touch stmt'.queryVars = some ()) := by
  obtain ⟨prefetched, heap', queryVars, hfetch, hcounted, hframe, hsize, hfilled⟩ :=
    beforeFetch_spec h.counted hs outcome (List.range stmt.queryVars.length)
      (fun i hi => List.mem_range.mp hi) depth
  have hs' := hframe.get_self hs
  refine ⟨prefetched, heap', _, hfetch, ?_, hs',
    fun hprefetched => touch_spec fun pointer hmem => ?_⟩
  · exact h.of_stmtFrame hcounted hs hframe ((h.settled hs).queryVars hopen queryVars)
  · obtain ⟨i, hi⟩ := List.mem_iff_getElem?.mp hmem
    have hlt : i < stmt.queryVars.length := hsize ▸ (List.getElem?_eq_some_iff.mp hi).1
    have hsome := hfilled i (.inr ⟨hprefetched, List.mem_range.mpr hlt⟩)
    change queryVars[i]? = some pointer at hi
    rw [hi, Option.join_some] at hsome
    obtain ⟨v, rfl⟩ := Option.isSome_iff_exists.mp hsome
    exact ⟨v, rfl, var_of_pointer hcounted hs' (uses_pos_of_queryVar hi)⟩

theorem ensureQueryVars (h : Ready heap refs) (hs : get heap.stmts s = some stmt)
    (hopen : stmt.handle = true) (numQueryVars : Nat) (described : Bool) (depth : Nat) :
    ∃ created heap' queryVars,
      heap.ensureQueryVars (depth + 1) s numQueryVars described = some (created, heap') ∧
        Ready heap' refs ∧ get heap'.stmts s = some { stmt with queryVars } := by
  rw [Heap.ensureQueryVars, hs, Option.bind_eq_bind, Option.bind_some]
  split
  case isTrue =>
      obtain ⟨created, heap', queryVars, hcreate, hcounted, hframe⟩ :=
        createQueryVars_spec h.counted hs numQueryVars described depth
      refine ⟨created, heap', queryVars, hcreate, ?_, hframe.get_self hs⟩
      exact h.of_stmtFrame hcounted hs hframe ((h.settled hs).queryVars hopen queryVars)
  case isFalse => exact ⟨true, heap, stmt.queryVars, rfl, h, hs⟩

theorem fetch (h : Ready heap refs) (hs : s ∈ refs.stmts) (numQueryVars : Nat)
    (described : Bool) (outcome : Nat → Heap.ColumnOutcome) (depth : Nat) :
    ∃ heap', heap.fetch (depth + 1) s numQueryVars described outcome = some heap' ∧
      Ready heap' refs := by
  obtain ⟨stmt, hstmt⟩ := h.stmt_of_mem hs
  obtain ⟨usable, hcheck, husable⟩ := h.stmtCheck hstmt
  rw [Heap.fetch, hcheck, Option.bind_eq_bind, Option.bind_some]
  cases usable with
  | false => exact ⟨heap, rfl, h⟩
  | true =>
      have hopen := (husable rfl).1
      obtain ⟨created, heap₁, queryVars, hcreate, hready₁, hs₁⟩ :=
        h.ensureQueryVars hstmt hopen numQueryVars described depth
      rw [if_pos rfl, hcreate, Option.bind_eq_bind, Option.bind_some]
      cases created with
      | false => exact ⟨heap₁, rfl, hready₁⟩
      | true =>
          obtain ⟨prefetched, heap', stmt', hfetch, hready', hs', htouch⟩ :=
            hready₁.fetchColumns hs₁ hopen outcome depth
          refine ⟨heap', ?_, hready'⟩
          cases prefetched with
          | false => simp [hs₁, hfetch]
          | true => simp [hs₁, hfetch, hs', htouch rfl]

theorem getQueryValue (h : Ready heap refs) (hs : s ∈ refs.stmts) (column : Nat) :
    heap.getQueryValue s column = some heap := by
  obtain ⟨stmt, hstmt⟩ := h.stmt_of_mem hs
  obtain ⟨usable, hcheck, _⟩ := h.stmtCheck hstmt
  simp only [Heap.getQueryValue, hcheck, hstmt, Option.bind_eq_bind, Option.bind_some]
  cases usable with
  | false => rfl
  | true =>
      cases hpointer : (stmt.queryVars[column]?).join with
      | none => rfl
      | some v =>
          obtain ⟨var, hvar⟩ := var_of_pointer h.counted hstmt
            (uses_pos_of_queryVar (Option.join_eq_some_iff.mp hpointer))
          simp [hvar]

end Ready

end OracleNIO.HandleCalls
