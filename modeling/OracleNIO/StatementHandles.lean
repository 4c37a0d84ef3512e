import OracleNIO.HandleCounts

/-!
What the functions of `dpiStmt.c` and `dpiVar.c` do to the handles of ODPI-C and to their
reference counts.
-/

namespace OracleNIO.StatementHandles

open ObjectStore Dpi HandleCounts

variable {heap heap' : Heap} {refs : Refs} {hand stale : List Nat} {c s v : Nat}
  {conn conn' : ConnObject} {var : VarObject} {stmt stmt' : StmtObject}

/-- One statement has changed, and nothing but counts and lists elsewhere. -/
structure StmtFrame (heap heap' : Heap) (s : Nat) (stmt' : StmtObject) : Prop where
  stmts : heap'.stmts = put heap.stmts s stmt'
  kept : Kept heap heap'

theorem StmtFrame.get_self (h : StmtFrame heap heap' s stmt') (hs : get heap.stmts s = some stmt) :
    get heap'.stmts s = some stmt' := by
  rw [h.stmts]
  exact get_put_self hs stmt'

theorem StmtFrame.trans {heap'' : Heap} {stmt'' : StmtObject} (h : StmtFrame heap heap' s stmt')
    (h' : StmtFrame heap' heap'' s stmt'') : StmtFrame heap heap'' s stmt'' where
  stmts := by rw [h'.stmts, h.stmts, put_put]
  kept := h.kept.trans h'.kept

theorem StmtFrame.put (heap : Heap) (s : Nat) (stmt' : StmtObject) :
    StmtFrame heap (heap.putStmt s stmt') s stmt' where
  stmts := rfl
  kept := ⟨fun h => ⟨_, h, rfl, rfl, fun _ => rfl⟩⟩

theorem uses_le (hs : get heap.stmts s = some stmt) (v : Nat) : uses v stmt ≤ varUses heap v :=
  le_total (uses v) hs

theorem clearBindVars_spec (h : Counted heap refs hand []) (hs : get heap.stmts s = some stmt)
    (depth : Nat) :
    ∃ heap', heap.clearBindVars (Heap.releaseConn (depth + 1)) s = some heap' ∧
      Counted heap' refs hand [] ∧ StmtFrame heap heap' s { stmt with bindVars := [] } := by
  obtain ⟨heap₁, hrelease, hcounted, hframe⟩ :=
    releaseVars_spec h stmt.boundVars (fun v => by
      have := uses_le hs v
      rw [uses] at this
      rw [List.count_nil]
      omega) depth
  have hs₁ : get heap₁.stmts s = some stmt := hframe.stmts ▸ hs
  refine ⟨heap₁.putStmt s { stmt with bindVars := [] }, ?_, ?_, ?_, ?_⟩
  · simp [Heap.clearBindVars, hs, hrelease, hs₁]
  · refine hcounted.setStmt hs₁ rfl rfl rfl rfl fun v => ?_
    simp [uses, StmtObject.boundVars, StmtObject.definedVars]
  · rw [← hframe.stmts]
    rfl
  · exact hframe.kept.trans (StmtFrame.put heap₁ s _).kept

theorem clearQueryVars_spec (h : Counted heap refs hand []) (hs : get heap.stmts s = some stmt)
    (depth : Nat) :
    ∃ heap', heap.clearQueryVars (Heap.releaseConn (depth + 1)) s = some heap' ∧
      Counted heap' refs hand [] ∧ StmtFrame heap heap' s { stmt with queryVars := [] } := by
  obtain ⟨heap₁, hrelease, hcounted, hframe⟩ :=
    releaseVars_spec h stmt.definedVars (fun v => by
      have := uses_le hs v
      rw [uses] at this
      rw [List.count_nil]
      omega) depth
  have hs₁ : get heap₁.stmts s = some stmt := hframe.stmts ▸ hs
  refine ⟨heap₁.putStmt s { stmt with queryVars := [] }, ?_, ?_, ?_, ?_⟩
  · simp [Heap.clearQueryVars, hs, hrelease, hs₁]
  · refine hcounted.setStmt hs₁ rfl rfl rfl rfl fun v => ?_
    simp [uses, StmtObject.boundVars, StmtObject.definedVars]
    omega
  · rw [← hframe.stmts]
    rfl
  · exact hframe.kept.trans (StmtFrame.put heap₁ s _).kept

theorem counted_setOpen (h : Counted heap refs hand stale) (hs : get heap.stmts s = some stmt)
    (hconn : get heap.conns stmt.conn = some conn) {openStmts : HandleList Nat}
    (hcount : stmt'.refCount = stmt.refCount) (hsame : stmt'.conn = stmt.conn)
    (huses : ∀ v, uses v stmt' = uses v stmt)
    (hhandle : stmt'.handle = true → conn.handle = true)
    (hlisted : conn.handle = true → conn.closing = true ∧ stmt.conn ∈ refs.conns ∨
      conn.closing = false ∧ ∃ entries, Lists openStmts entries ∧ ∀ {slot s'},
        (slot, s') ∈ entries ↔ ∃ stmt₁, get (put heap.stmts s stmt') s' = some stmt₁ ∧
          stmt₁.conn = stmt.conn ∧ stmt₁.handle = true ∧ stmt₁.openSlotNum = slot) :
    Counted ((heap.putConn stmt.conn { conn with openStmts }).putStmt s stmt') refs hand stale where
  conns c := by
    have hc := h.conns c
    have := total_put (fun stmt => if stmt.conn = c then 1 else 0) hs stmt'
    simp only [hsame] at this
    simp only [connUses, Heap.putStmt, Heap.putConn] at hc ⊢
    rcases eq_or_ne stmt.conn c with rfl | hne
    · rw [value_of_get _ hconn] at hc
      rw [value_of_get _ (get_put_self hconn _)]
      simp only at hc ⊢
      omega
    · rw [value, get_put_of_ne hne, ← value]
      omega
  vars v := by
    have hv := h.vars v
    have := huses v
    have := total_put (uses v) hs stmt'
    simp only [varUses, Heap.putStmt, Heap.putConn] at hv ⊢
    omega
  stmts s' := by
    refine Eq.trans ?_ (h.stmts s')
    simp only [Heap.putStmt, Heap.putConn]
    rcases eq_or_ne s s' with rfl | hne
    · rw [value_of_get _ (get_put_self hs stmt'), value_of_get _ hs, hcount]
    · rw [value, get_put_of_ne hne, value]
  conn_pos := by
    intro c' conn' hget
    simp only [Heap.putStmt, Heap.putConn] at hget
    rcases eq_or_ne stmt.conn c' with rfl | hne
    · rw [get_put_self hconn] at hget
      cases hget
      have hpos := h.conn_pos hconn
      exact hpos
    · exact h.conn_pos (get_put_of_ne hne _ ▸ hget)
  var_pos := h.var_pos
  listed := by
    intro c' conn' hget hopen
    simp only [Heap.putStmt, Heap.putConn] at hget
    rcases eq_or_ne stmt.conn c' with rfl | hne
    · rw [get_put_self hconn] at hget
      cases hget
      refine (hlisted hopen).imp_right (And.imp_right (Exists.imp fun entries hlists => ?_))
      exact ⟨hlists.1, hlists.2⟩
    · rw [get_put_of_ne hne] at hget
      refine listed_imp (h.listed hget hopen) rfl fun hlists => ⟨hlists.lists, ?_⟩
      intro slot s'
      rw [hlists.mem_iff]
      simp only [Heap.putStmt, Heap.putConn]
      rcases eq_or_ne s s' with rfl | hother
      · rw [hs, get_put_self hs]
        simp [hsame, hne]
      · rw [get_put_of_ne hother]
  connected := by
    intro s' stmt₁ hget hopen
    have hconns : ∀ c', (∃ conn', get heap.conns c' = some conn' ∧ conn'.handle = true) →
        ∃ conn', get (put heap.conns stmt.conn { conn with openStmts }) c' = some conn' ∧
          conn'.handle = true := by
      rintro c' ⟨conn', hget', hopen'⟩
      rcases eq_or_ne stmt.conn c' with rfl | hne
      · rw [hconn] at hget'
        cases hget'
        exact ⟨_, get_put_self hconn _, hopen'⟩
      · exact ⟨conn', (get_put_of_ne hne _).trans hget', hopen'⟩
    simp only [Heap.putStmt, Heap.putConn] at hget
    rcases eq_or_ne s s' with rfl | hne
    · rw [get_put_self hs] at hget
      cases hget
      rw [hsame]
      exact hconns _ ⟨conn, hconn, hhandle hopen⟩
    · rw [get_put_of_ne hne] at hget
      exact hconns _ (h.connected hget hopen)

theorem kept_openStmts (hconn : get heap.conns c = some conn) (hclosing : conn.closing = false)
    (openStmts : HandleList Nat) : Kept heap (heap.putConn c { conn with openStmts }) := by
  refine Kept.setConn hconn (fun c' hne => get_put_of_ne hne _) fun conn' hget => ?_
  rw [get_put_self hconn] at hget
  cases hget
  refine ⟨rfl, rfl, fun h => ?_⟩
  rw [hclosing] at h
  cases h

theorem closeHandle_spec (h : Counted heap refs hand stale) (hs : get heap.stmts s = some stmt)
    (hhandle : stmt.handle = true) (closing : Bool) :
    ∃ heap₁, heap.removeOpenStmt stmt = some heap₁ ∧
      Counted (heap₁.putStmt s { stmt with handle := false, closing }) refs hand stale ∧
      StmtFrame heap (heap₁.putStmt s { stmt with handle := false, closing }) s
        { stmt with handle := false, closing } := by
  obtain ⟨conn, hconn, hopen⟩ := h.connected hs hhandle
  rcases h.listed hconn hopen with ⟨hclosing, hheld⟩ | ⟨hclosing, entries, hlists⟩
  · have hsame : heap.putConn stmt.conn { conn with openStmts := conn.openStmts } = heap := by
      rw [Heap.putConn, put_get hconn]
    refine ⟨heap, by simp [Heap.removeOpenStmt, hconn, hclosing], ?_, StmtFrame.put heap s _⟩
    rw [← hsame]
    refine counted_setOpen h hs hconn rfl rfl (fun v => rfl) ?_ fun _ => .inl ⟨hclosing, hheld⟩
    intro hfalse
    cases hfalse
  · have hmem : (stmt.openSlotNum, s) ∈ entries :=
      hlists.mem_iff.mpr ⟨stmt, hs, rfl, hhandle, rfl⟩
    refine ⟨heap.putConn stmt.conn
      { conn with openStmts := conn.openStmts.removeHandle stmt.openSlotNum },
      by simp [Heap.removeOpenStmt, hconn, hclosing], ?_, rfl, ?_⟩
    · refine counted_setOpen h hs hconn rfl rfl (fun v => rfl) ?_ fun _ => .inr ⟨hclosing, ?_⟩
      · intro hfalse
        cases hfalse
      · refine ⟨_, hlists.lists.removeHandle hmem, ?_⟩
        intro slot s'
        rw [hlists.lists.holds.entries_nodup.mem_erase_iff, hlists.mem_iff]
        rcases eq_or_ne s s' with rfl | hne
        · rw [hs, get_put_self hs]
          simp
          tauto
        · rw [get_put_of_ne hne]
          simp [hne.symm]
    · exact (kept_openStmts hconn hclosing _).trans (StmtFrame.put _ s _).kept

/-- What a statement holds when it is closed. -/
structure Released (stmt : StmtObject) : Prop where
  handle : stmt.handle = false
  bindVars : stmt.bindVars = []
  queryVars : stmt.queryVars = []

theorem Released.uses_eq (h : Released stmt) (v : Nat) : uses v stmt = 0 := by
  simp [uses, StmtObject.boundVars, StmtObject.definedVars, h.bindVars, h.queryVars]

theorem stmtClose_spec (h : Counted heap refs hand []) (hs : get heap.stmts s = some stmt)
    (hclosed : stmt.closing = true → Released stmt) (released : Bool) (depth : Nat) :
    ∃ heap' stmt', heap.stmtClose (Heap.releaseConn (depth + 1)) s released = some heap' ∧
      Counted heap' refs hand [] ∧ StmtFrame heap heap' s stmt' ∧ Released stmt' ∧
        stmt'.refCount = stmt.refCount ∧ stmt'.conn = stmt.conn := by
  cases hclosing : stmt.closing with
  | true =>
      refine ⟨heap, stmt, by simp [Heap.stmtClose, hs, hclosing], h, ?_, hclosed hclosing, rfl, rfl⟩
      exact ⟨(put_get hs).symm, .refl heap⟩
  | false =>
      have hmarked : Counted (heap.putStmt s { stmt with closing := true }) refs hand [] :=
        h.setStmt hs rfl rfl rfl rfl fun v => rfl
      have hs₁ := (StmtFrame.put heap s { stmt with closing := true }).get_self hs
      obtain ⟨heap₂, hbind, hcounted₂, hframe₂⟩ := clearBindVars_spec hmarked hs₁ depth
      have hs₂ := hframe₂.get_self hs₁
      obtain ⟨heap₃, hquery, hcounted₃, hframe₃⟩ := clearQueryVars_spec hcounted₂ hs₂ depth
      have hs₃ := hframe₃.get_self hs₂
      have hframe := ((StmtFrame.put heap s _).trans hframe₂).trans hframe₃
      simp only [Heap.stmtClose, hs, hclosing, hbind, hquery, hs₃, Option.bind_eq_bind,
        Option.bind_some, Bool.false_eq_true, if_false]
      cases hhandle : stmt.handle with
      | false => exact ⟨heap₃, _, rfl, hcounted₃, hframe, ⟨hhandle, rfl, rfl⟩, rfl, rfl⟩
      | true =>
          obtain ⟨heap₄, hremove, hcounted₄, hframe₄⟩ :=
            closeHandle_spec hcounted₃ hs₃ hhandle released
          refine ⟨_, _, ?_, hcounted₄, hframe.trans hframe₄, ⟨rfl, rfl, rfl⟩, rfl, rfl⟩
          rw [if_pos rfl]
          exact Option.bind_eq_some_iff.mpr ⟨heap₄, hremove, rfl⟩

theorem counted_freeStmt (h : Counted heap refs hand stale) (hs : get heap.stmts s = some stmt)
    (hreleased : Released stmt) {held : List Nat} (hheld : held.count s = 0)
    (hother : ∀ s', s ≠ s' → held.count s' = refs.stmts.count s') :
    Counted { heap with stmts := free heap.stmts s } { refs with stmts := held }
      (stmt.conn :: hand) stale where
  conns c := by
    have hc := h.conns c
    have := total_free (fun stmt => if stmt.conn = c then 1 else 0) hs
    simp only [connUses, List.count_cons, beq_eq_decide, decide_eq_true_eq] at hc this ⊢
    omega
  vars v := by
    have hv := h.vars v
    have := total_free (uses v) hs
    rw [hreleased.uses_eq] at this
    simp only [varUses] at hv ⊢
    omega
  stmts s' := by
    rcases eq_or_ne s s' with rfl | hne
    · exact (value_of_none _ (get_free _ _)).trans hheld.symm
    · rw [hother s' hne]
      refine Eq.trans ?_ (h.stmts s')
      rw [value, get_free_of_ne hne, value]
  conn_pos := h.conn_pos
  var_pos := h.var_pos
  listed := by
    intro c conn hget hopen
    refine listed_imp (h.listed hget hopen) rfl fun hlists => ⟨hlists.lists, ?_⟩
    intro slot s'
    rw [hlists.mem_iff]
    rcases eq_or_ne s s' with rfl | hne
    · rw [hs, get_free _ _]
      simp [hreleased.handle]
    · rw [get_free_of_ne hne]
  connected := by
    intro s' stmt₁ hget hopen
    rcases eq_or_ne s s' with rfl | hne
    · rw [get_free _ _] at hget
      cases hget
    · rw [get_free_of_ne hne] at hget
      exact h.connected hget hopen

/-- One statement is gone, and the others are as before. -/
structure FreedFrame (heap heap' : Heap) (s : Nat) : Prop where
  freed : get heap'.stmts s = none
  other : ∀ s', s ≠ s' → get heap'.stmts s' = get heap.stmts s'
  kept : Kept heap heap'

theorem stmtFree_spec (h : Counted heap refs hand []) (hs : get heap.stmts s = some stmt)
    (hclosed : stmt.closing = true → Released stmt) (held : List Nat) (hheld : held.count s = 0)
    (hother : ∀ s', s ≠ s' → held.count s' = refs.stmts.count s') (depth : Nat) :
    ∃ heap', heap.stmtFree (depth + 1) s = some heap' ∧
      Counted heap' { refs with stmts := held } hand [] ∧ FreedFrame heap heap' s := by
  obtain ⟨heap₁, stmt₁, hclose, hcounted₁, hframe₁, hreleased, _, hconn⟩ :=
    stmtClose_spec h hs hclosed true depth
  have hs₁ := hframe₁.get_self hs
  obtain ⟨heap', hrelease, hcounted, hframe, _⟩ :=
    releaseConn_spec (counted_freeStmt hcounted₁ hs₁ hreleased hheld hother) depth
  refine ⟨heap', ?_, hcounted, ?_, ?_, ?_⟩
  · simp [Heap.stmtFree, hclose, hs₁, hrelease]
  · rw [hframe.stmts]
    exact get_free _ _
  · intro s' hne
    rw [hframe.stmts]
    change get (free heap₁.stmts s) s' = _
    rw [get_free_of_ne hne, hframe₁.stmts, get_put_of_ne hne]
  · exact hframe₁.kept.trans ⟨hframe.kept.conn⟩

theorem counted_setRefCount (h : Counted heap refs hand stale)
    (hs : get heap.stmts s = some stmt) (held : List Nat) (refCount : Nat)
    (hheld : held.count s = refCount)
    (hother : ∀ s', s ≠ s' → held.count s' = refs.stmts.count s') :
    Counted (heap.putStmt s { stmt with refCount }) { refs with stmts := held } hand stale where
  conns c := by
    have hc := h.conns c
    have := total_put (fun stmt => if stmt.conn = c then 1 else 0) hs { stmt with refCount }
    simp only [connUses, Heap.putStmt] at hc this ⊢
    omega
  vars v := by
    have hv := h.vars v
    have : total (uses v) (put heap.stmts s { stmt with refCount }) + uses v stmt =
        total (uses v) heap.stmts + uses v stmt := total_put (uses v) hs { stmt with refCount }
    simp only [varUses, Heap.putStmt] at hv ⊢
    omega
  stmts s' := by
    rcases eq_or_ne s s' with rfl | hne
    · exact (value_of_get _ (get_put_self hs _)).trans hheld.symm
    · rw [hother s' hne]
      refine Eq.trans ?_ (h.stmts s')
      rw [Heap.putStmt, value, get_put_of_ne hne, value]
  conn_pos := h.conn_pos
  var_pos := h.var_pos
  listed := by
    intro c conn hget hopen
    refine listed_imp (h.listed hget hopen) rfl fun hlists => ⟨hlists.lists, ?_⟩
    intro slot s'
    rw [hlists.mem_iff]
    rcases eq_or_ne s s' with rfl | hne
    · rw [hs, Heap.putStmt, get_put_self hs]
      simp
    · rw [Heap.putStmt, get_put_of_ne hne]
  connected := by
    intro s' stmt₁ hget hopen
    rcases eq_or_ne s s' with rfl | hne
    · rw [Heap.putStmt, get_put_self hs] at hget
      cases hget
      have hconnected := h.connected hs hopen
      exact hconnected
    · rw [Heap.putStmt, get_put_of_ne hne] at hget
      exact h.connected hget hopen

theorem retainConn_eq (hconn : get heap.conns c = some conn) :
    heap.retainConn c = some (heap.putConn c { conn with refCount := conn.refCount + 1 }) := by
  simp only [Heap.retainConn, hconn]
  rfl

theorem counted_retainConn (h : Counted heap refs hand stale)
    (hconn : get heap.conns c = some conn) :
    Counted (heap.putConn c { conn with refCount := conn.refCount + 1 }) refs (c :: hand) stale ∧
      Kept heap (heap.putConn c { conn with refCount := conn.refCount + 1 }) := by
  have hput := get_put_self hconn { conn with refCount := conn.refCount + 1 }
  constructor
  · refine h.setConn (c := c)
      (fun c' hne => ⟨get_put_of_ne hne _, rfl, List.count_cons_of_ne hne⟩) ?_ ?_ ?_
    · have hcount := h.conns c
      rw [value_of_get _ hconn] at hcount
      rw [value_of_get _ hput, List.count_cons_self]
      change conn.refCount + 1 = _
      omega
    · intro conn' hget
      rw [hput] at hget
      cases hget
      refine ⟨Nat.succ_pos _, fun hopen => ?_⟩
      exact listed_imp (h.listed hconn hopen) rfl (·.congr rfl rfl)
    · rintro s stmt hget hopen rfl
      obtain ⟨conn', hconn', hopen'⟩ := h.connected hget hopen
      rw [hconn] at hconn'
      cases hconn'
      exact ⟨_, hput, hopen'⟩
  · refine Kept.setConn hconn (fun c' hne => get_put_of_ne hne _) fun conn' hget => ?_
    rw [hput] at hget
    cases hget
    exact ⟨rfl, rfl, fun _ => rfl⟩

theorem retainVar_spec (h : Counted heap refs hand stale) (hvar : get heap.vars v = some var) :
    ∃ heap', heap.retainVar v = some heap' ∧
      Counted heap' { refs with vars := v :: refs.vars } hand stale ∧ Frame heap heap' := by
  have hput := get_put_self hvar { var with refCount := var.refCount + 1 }
  refine ⟨_, by simp only [Heap.retainVar, hvar]; rfl, ?_, Frame.setVars heap _⟩
  refine h.setVar (v := v)
    (fun v' hne => ⟨get_put_of_ne hne _, List.count_cons_of_ne hne, rfl⟩) ?_ ?_ fun c => ?_
  · have hcount := h.vars v
    rw [value_of_get _ hvar] at hcount
    rw [value_of_get _ hput, List.count_cons_self]
    change var.refCount + 1 + _ = _
    omega
  · intro var' hget
    rw [hput] at hget
    cases hget
    exact Nat.succ_pos _
  · have := total_put (fun var => if var.conn = c then 1 else 0) hvar
      { var with refCount := var.refCount + 1 }
    simp only at this
    omega

theorem counted_cancel (h : Counted heap { refs with vars := v :: refs.vars } hand (v :: stale)) :
    Counted heap refs hand stale where
  conns := h.conns
  vars v' := by
    have := h.vars v'
    simp only [List.count_cons] at this
    omega
  stmts := h.stmts
  conn_pos := h.conn_pos
  var_pos := h.var_pos
  listed := h.listed
  connected := h.connected

/-- A reference that nobody has any more stays counted. -/
theorem counted_unreleased (h : Counted heap { refs with vars := v :: refs.vars } hand stale) :
    Counted { heap with unreleased := v :: heap.unreleased } refs hand stale where
  conns := h.conns
  vars v' := by
    have := h.vars v'
    simp only [List.count_cons, varUses] at this ⊢
    omega
  stmts := h.stmts
  conn_pos := h.conn_pos
  var_pos := h.var_pos
  listed := by
    intro c conn hget hopen
    exact listed_imp (h.listed hget hopen) rfl (·.congr rfl rfl)
  connected := h.connected

theorem counted_allocVar (h : Counted heap refs (c :: hand) stale) :
    Counted { heap with vars := alloc heap.vars ⟨1, c⟩ }
      { refs with vars := heap.vars.length :: refs.vars } hand stale := by
  have hself := get_alloc_self heap.vars ⟨1, c⟩
  refine h.setVar (v := heap.vars.length)
    (fun v' hne => ⟨get_alloc_of_ne hne.symm, List.count_cons_of_ne hne, rfl⟩) ?_ ?_ fun c' => ?_
  · have := h.vars heap.vars.length
    rw [value_of_none _ (get_length heap.vars)] at this
    rw [value_of_get _ hself, List.count_cons_self]
    change 1 + _ = _
    omega
  · intro var' hget
    rw [hself] at hget
    cases hget
    exact Nat.one_pos
  · have := total_alloc (fun var : VarObject => if var.conn = c' then 1 else 0) heap.vars ⟨1, c⟩
    simp only at this
    rw [List.count_cons, beq_eq_decide]
    simp only [decide_eq_true_eq]
    omega

theorem counted_allocStmt (h : Counted heap refs (c :: hand) stale) :
    Counted { heap with stmts := alloc heap.stmts ⟨1, c, false, false, 0, [], []⟩ }
      { refs with stmts := heap.stmts.length :: refs.stmts } hand stale where
  conns c' := by
    have hc := h.conns c'
    have := total_alloc (fun stmt : StmtObject => if stmt.conn = c' then 1 else 0) heap.stmts
      ⟨1, c, false, false, 0, [], []⟩
    simp only [connUses, List.count_cons, beq_eq_decide, decide_eq_true_eq] at hc this ⊢
    omega
  vars v := by
    have hv := h.vars v
    have : total (uses v) (alloc heap.stmts ⟨1, c, false, false, 0, [], []⟩) =
        total (uses v) heap.stmts + 0 := total_alloc (uses v) heap.stmts _
    simp only [varUses] at hv ⊢
    omega
  stmts s' := by
    have hs := h.stmts s'
    rcases eq_or_ne heap.stmts.length s' with rfl | hne
    · rw [value_of_none _ (get_length _)] at hs
      rw [value_of_get _ (get_alloc_self heap.stmts _), List.count_cons_self, ← hs]
    · rw [value, get_alloc_of_ne hne.symm, ← value, List.count_cons_of_ne hne]
      exact hs
  conn_pos := h.conn_pos
  var_pos := h.var_pos
  listed := by
    intro c' conn hget hopen
    refine listed_imp (h.listed hget hopen) rfl fun hlists => ⟨hlists.lists, ?_⟩
    intro slot s'
    rw [hlists.mem_iff]
    rcases eq_or_ne heap.stmts.length s' with rfl | hne
    · rw [get_length, get_alloc_self]
      simp
    · rw [get_alloc_of_ne hne.symm]
  connected := by
    intro s' stmt hget hopen
    rcases eq_or_ne heap.stmts.length s' with rfl | hne
    · rw [get_alloc_self] at hget
      cases hget
      cases hopen
    · rw [get_alloc_of_ne hne.symm] at hget
      exact h.connected hget hopen

theorem varAllocate_spec (h : Counted heap refs hand stale) (hconn : get heap.conns c = some conn)
    (created : Heap.Allocated) (depth : Nat) :
    ∃ result heap', heap.varAllocate (depth + 1) c created = some (result, heap') ∧
      Frame heap heap' ∧ (result = none ∧ Counted heap' refs hand stale ∨
        ∃ v, result = some v ∧ Counted heap' { refs with vars := v :: refs.vars } hand stale) := by
  obtain ⟨hcounted, hkept⟩ := counted_retainConn h hconn
  have hretained : { heap with vars := alloc heap.vars ⟨1, c⟩ }.retainConn c = some _ :=
    retainConn_eq hconn
  have hallocated := counted_allocVar hcounted
  have hframe : Frame heap ({ heap with vars := alloc heap.vars ⟨1, c⟩ }.putConn c
      { conn with refCount := conn.refCount + 1 }) := ⟨rfl, rfl, ⟨hkept.conn⟩⟩
  cases created with
  | refused => exact ⟨none, heap, rfl, .refl heap, .inl ⟨rfl, h⟩⟩
  | allocated =>
      refine ⟨some heap.vars.length, _, ?_, hframe, .inr ⟨_, rfl, hallocated⟩⟩
      simp only [Heap.varAllocate, hretained]
      rfl
  | noBuffers =>
      have hself := get_alloc_self heap.vars ⟨1, c⟩
      have hfreed : Counted ({ heap with
          vars := free (alloc heap.vars ⟨1, c⟩) heap.vars.length }.putConn c
            { conn with refCount := conn.refCount + 1 }) refs (c :: hand) stale := by
        refine hallocated.setVar (v := heap.vars.length)
          (fun v' hne => ⟨get_free_of_ne hne, (List.count_cons_of_ne hne).symm, rfl⟩) ?_ ?_ ?_
        · have := h.vars heap.vars.length
          rw [value_of_none _ (get_length heap.vars)] at this
          rw [value_of_none _ (get_free _ _)]
          exact this
        · intro var' hget
          rw [get_free _ _] at hget
          cases hget
        · intro c'
          have := total_free (fun var : VarObject => if var.conn = c' then 1 else 0) hself
          simp only at this
          rw [List.count_cons, beq_eq_decide]
          simp only [decide_eq_true_eq, Heap.putConn]
          omega
      obtain ⟨heap', hrelease, hcounted', hframe', _⟩ := releaseConn_spec hfreed depth
      refine ⟨none, heap', ?_, ?_, .inl ⟨rfl, hcounted'⟩⟩
      · simp only [Heap.varAllocate, hretained, Option.bind_eq_bind, Option.bind_some]
        simp only [Heap.varFree, Heap.putConn, hself, Option.bind_eq_bind, Option.bind_some]
        exact congrArg (Option.bind · fun heap => some (none, heap)) hrelease
      · exact hframe.trans ((Frame.setVars _ _).trans hframe')

end OracleNIO.StatementHandles
