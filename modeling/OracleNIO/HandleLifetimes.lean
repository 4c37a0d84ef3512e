import OracleNIO.QueryHandles

/-!
An application and its handles of ODPI-C: it uses the handles that it has references to,
in any order.  Whatever it does, the library does not get to freed memory, and an object
is there for as long as it is referred to and no longer.
-/

namespace OracleNIO.HandleLifetimes

open ObjectStore Dpi HandleCounts StatementHandles HandleCalls

variable {heap heap' heap₁ : Heap} {refs : Refs} {c s v i : Nat} {conn : ConnObject}
  {stmt : StmtObject}

/-- The statements in the slots that are done are closed. -/
structure Closing (heap heap₁ : Heap) (refs : Refs) (conn : ConnObject) (done : List Nat) :
    Prop where
  counted : Counted heap₁ refs [] []
  settled : ∀ {s stmt}, get heap₁.stmts s = some stmt → Settled stmt
  kept : Kept heap heap₁
  alive : ∀ {s stmt}, get heap.stmts s = some stmt → ∃ stmt₁, get heap₁.stmts s = some stmt₁
  opened : ∀ {s stmt₁}, get heap₁.stmts s = some stmt₁ → stmt₁.handle = true →
    get heap.stmts s = some stmt₁ ∧
      ∀ i ∈ done, (conn.openStmts.handles[i]?).join ≠ some s

theorem Closing.conn_eq {done : List Nat} (h : Closing heap heap₁ refs conn done)
    (hconn : get heap.conns c = some conn) (hclosing : conn.closing = true)
    (hheld : c ∈ refs.conns) :
    ∃ conn₁, get heap₁.conns c = some conn₁ ∧ conn₁.handle = conn.handle ∧
      conn₁.closing = true ∧ conn₁.openStmts = conn.openStmts := by
  have hpos := List.count_pos_iff.mpr hheld
  obtain ⟨conn₁, hget, _⟩ := h.counted.conn_of_uses (c := c) (by omega)
  obtain ⟨conn₀, hget₀, hhandle, hsame, hopen⟩ := h.kept.conn hget
  rw [hconn] at hget₀
  cases hget₀
  exact ⟨conn₁, hget, hhandle, hsame.trans hclosing, hopen hclosing⟩

theorem Closing.step {done : List Nat} (h : Closing heap heap₁ refs conn done)
    (hconn : get heap.conns c = some conn) (hclosing : conn.closing = true)
    (hheld : c ∈ refs.conns)
    (hslots : ∀ {i s : Nat}, (conn.openStmts.handles[i]?).join = some s →
      ∃ stmt, get heap.stmts s = some stmt) (i depth : Nat) :
    ∃ heap₂, Heap.closeSlot (Heap.releaseConn (depth + 1)) c (fun _ => true) (true, heap₁) i =
        some (true, heap₂) ∧ Closing heap heap₂ refs conn (i :: done) := by
  obtain ⟨conn₁, hconn₁, _, _, hopen⟩ := h.conn_eq hconn hclosing hheld
  simp only [Heap.closeSlot, hconn₁, hopen, Option.bind_eq_bind, Option.bind_some, if_true]
  cases hslot : (conn.openStmts.handles[i]?).join with
  | none =>
      refine ⟨heap₁, rfl, h.counted, h.settled, h.kept, h.alive, ?_⟩
      intro s stmt₁ hget hhandle
      obtain ⟨hsame, hdone⟩ := h.opened hget hhandle
      refine ⟨hsame, fun j hj => ?_⟩
      rcases List.mem_cons.mp hj with rfl | hj
      · rw [hslot]
        exact (Option.some_ne_none s).symm
      · exact hdone j hj
  | some s =>
      obtain ⟨stmt, hstmt⟩ := hslots hslot
      obtain ⟨stmt₁, hstmt₁⟩ := h.alive hstmt
      obtain ⟨heap₂, stmt₂, hclose, hcounted, hframe, hreleased, hcount, _⟩ :=
        stmtClose_spec h.counted hstmt₁ (h.settled hstmt₁).closed true depth
      have hstmt₂ := hframe.get_self hstmt₁
      have hother : ∀ s', s ≠ s' → get heap₂.stmts s' = get heap₁.stmts s' := by
        intro s' hne
        rw [hframe.stmts, get_put_of_ne hne]
      refine ⟨heap₂, by simp [hclose], hcounted, ?_, h.kept.trans hframe.kept, ?_, ?_⟩
      · intro s' stmt' hget
        rcases eq_or_ne s s' with rfl | hne
        · rw [hstmt₂] at hget
          cases hget
          refine ⟨hcount ▸ (h.settled hstmt₁).refCount_pos, fun _ => hreleased, ?_⟩
          rw [hreleased.bindVars]
          exact fun _ hmem => absurd hmem List.not_mem_nil
        · exact h.settled (hother s' hne ▸ hget)
      · intro s' stmt' hget
        rcases eq_or_ne s s' with rfl | hne
        · exact ⟨stmt₂, hstmt₂⟩
        · rw [hother s' hne]
          exact h.alive hget
      · intro s' stmt' hget hhandle
        rcases eq_or_ne s s' with rfl | hne
        · rw [hstmt₂] at hget
          cases hget
          rw [hreleased.handle] at hhandle
          cases hhandle
        · obtain ⟨hsame, hdone⟩ := h.opened (hother s' hne ▸ hget) hhandle
          refine ⟨hsame, fun j hj => ?_⟩
          rcases List.mem_cons.mp hj with rfl | hj
          · rw [hslot]
            exact fun heq => hne (Option.some.inj heq)
          · exact hdone j hj

theorem Closing.run {done : List Nat} (slots : List Nat) (h : Closing heap heap₁ refs conn done)
    (hconn : get heap.conns c = some conn) (hclosing : conn.closing = true)
    (hheld : c ∈ refs.conns)
    (hslots : ∀ {i s : Nat}, (conn.openStmts.handles[i]?).join = some s →
      ∃ stmt, get heap.stmts s = some stmt) (depth : Nat) :
    ∃ heap₂, slots.foldlM (Heap.closeSlot (Heap.releaseConn (depth + 1)) c fun _ => true)
        (true, heap₁) = some (true, heap₂) ∧
      Closing heap heap₂ refs conn (slots.reverse ++ done) := by
  induction slots generalizing heap₁ done with
  | nil => exact ⟨heap₁, rfl, h⟩
  | cons i slots ih =>
      obtain ⟨heap₂, hslot, h₂⟩ := h.step hconn hclosing hheld hslots i depth
      obtain ⟨heap₃, hrest, h₃⟩ := ih h₂
      refine ⟨heap₃, ?_, ?_⟩
      · rw [List.foldlM_cons, hslot]
        exact hrest
      · rw [List.reverse_cons, List.append_assoc]
        exact h₃

/-- A connection is closed with all of its statements. -/
theorem ready_closeConn (h : Ready heap refs) (hc : c ∈ refs.conns) (depth : Nat) :
    ∃ heap', heap.closeConn (depth + 1) c (fun _ => true) true = some heap' ∧
      Ready heap' refs := by
  obtain ⟨conn, hconn⟩ := h.conn_of_mem hc
  rw [Heap.closeConn, hconn, Option.bind_eq_bind, Option.bind_some]
  by_cases hhandle : conn.handle = true
  case neg => exact ⟨heap, by simp [hhandle], h⟩
  case pos =>
      have hopen := h.closing hconn hhandle
      rw [if_pos (by simp [hhandle, hopen])]
      obtain ⟨entries, hlists⟩ : ∃ entries, ListsOpen heap c conn entries := by
        rcases h.counted.listed hconn hhandle with ⟨hclosing, _⟩ | ⟨_, hlists⟩
        · rw [hopen] at hclosing
          cases hclosing
        · exact hlists
      have hmarked : get (heap.putConn c { conn with closing := true }).conns c = some _ :=
        get_put_self hconn { conn with closing := true }
      have hcounted : Counted (heap.putConn c { conn with closing := true }) refs [] [] :=
        h.counted.putConn hconn rfl (fun _ => .inl ⟨rfl, hc⟩) (.inl hhandle)
      have hslot : ∀ {i s : Nat}, (conn.openStmts.handles[i]?).join = some s ↔
          (i, s) ∈ entries := by
        intro i s
        rw [Option.join_eq_some_iff, hlists.lists.holds.mem_iff]
      have hstart : Closing (heap.putConn c { conn with closing := true }) _ refs
          { conn with closing := true } [] :=
        ⟨hcounted, h.settled, .refl _, fun hget => ⟨_, hget⟩, fun hget _ =>
          ⟨hget, fun _ hj => (List.not_mem_nil hj).elim⟩⟩
      obtain ⟨heap₂, hloop, hclosed⟩ := Closing.run (List.range conn.openStmts.numSlots) hstart
        hmarked rfl hc (fun hslot' => by
          obtain ⟨stmt, hstmt, _⟩ := hlists.mem_iff.mp (hslot.mp hslot')
          exact ⟨stmt, hstmt⟩) depth
      obtain ⟨conn₂, hconn₂, _, _, _⟩ := hclosed.conn_eq hmarked rfl hc
      have hnone : ∀ {s stmt}, get heap₂.stmts s = some stmt → stmt.handle = true →
          stmt.conn ≠ c := by
        rintro s stmt hget hstmt rfl
        obtain ⟨hsame, hdone⟩ := hclosed.opened hget hstmt
        have hmem : (stmt.openSlotNum, s) ∈ entries :=
          hlists.mem_iff.mpr ⟨stmt, hsame, rfl, hstmt, rfl⟩
        refine hdone stmt.openSlotNum ?_ (hslot.mpr hmem)
        rw [List.append_nil, List.mem_reverse, List.mem_range]
        exact (List.getElem?_eq_some_iff.mp (hlists.lists.holds.mem_iff.mp hmem)).1
      have hput := get_put_self hconn₂ { conn₂ with handle := false }
      refine ⟨heap₂.putConn c { conn₂ with handle := false }, ?_, ?_, hclosed.settled, ?_⟩
      · simp only [Heap.connClose, hmarked, hloop, hconn₂, Option.bind_eq_bind, Option.bind_some]
        rfl
      · exact hclosed.counted.putConn hconn₂ rfl (absurd · Bool.false_ne_true) (.inr hnone)
      · intro c' conn' hget hhandle'
        rcases eq_or_ne c c' with rfl | hne
        · rw [Heap.putConn, hput] at hget
          cases hget
          cases hhandle'
        · rw [Heap.putConn, get_put_of_ne hne] at hget
          obtain ⟨conn₀, hget₀, hhandle₀, hclosing₀, _⟩ := hclosed.kept.conn hget
          rw [Heap.putConn, get_put_of_ne hne] at hget₀
          exact hclosing₀.trans (h.closing hget₀ (hhandle₀.symm.trans hhandle'))

theorem ready_addRefConn (h : Ready heap refs) (hc : c ∈ refs.conns) :
    ∃ heap', heap.retainConn c = some heap' ∧
      Ready heap' { refs with conns := c :: refs.conns } := by
  obtain ⟨conn, hconn⟩ := h.conn_of_mem hc
  obtain ⟨hcounted, hkept⟩ := counted_retainConn h.counted hconn
  refine ⟨_, retainConn_eq hconn, ⟨?_, h.settled, h.kept hkept⟩⟩
  refine { hcounted with conns := fun c' => ?_, listed := fun hget hopen => ?_ }
  · have := hcounted.conns c'
    simp only [List.count_cons, List.count_nil] at this ⊢
    omega
  · exact (hcounted.listed hget hopen).imp_left fun ⟨hclosing, hmem⟩ =>
      ⟨hclosing, List.mem_cons_of_mem c hmem⟩

theorem ready_releaseConn (h : Ready heap refs) (hc : c ∈ refs.conns) (depth : Nat) :
    ∃ heap', heap.releaseConn (depth + 1) c = some heap' ∧
      Ready heap' { refs with conns := refs.conns.erase c } := by
  have hcounted : Counted heap { refs with conns := refs.conns.erase c } [c] [] := by
    refine { h.counted with conns := fun c' => ?_, listed := fun hget hopen => ?_ }
    · have := (List.perm_cons_erase hc).count_eq c'
      rw [h.counted.conns c', this]
      simp only [List.count_cons, List.count_nil]
      omega
    · rcases h.counted.listed hget hopen with ⟨hclosing, _⟩ | hlisted
      · rw [h.closing hget hopen] at hclosing
        cases hclosing
      · exact .inr hlisted
  obtain ⟨heap', hrelease, hcounted', hframe, _⟩ := releaseConn_spec hcounted depth
  exact ⟨heap', hrelease, h.of_frame hcounted' hframe⟩

theorem ready_loseSession (h : Ready heap refs) (hc : c ∈ refs.conns) :
    ∃ heap', heap.loseSession c = some heap' ∧ Ready heap' refs := by
  obtain ⟨conn, hconn⟩ := h.conn_of_mem hc
  have hput := get_put_self hconn { conn with deadSession := true }
  have hlost : heap.loseSession c = some (heap.putConn c { conn with deadSession := true }) := by
    simp only [Heap.loseSession, hconn]
    rfl
  refine ⟨_, hlost, h.of_stmts ?_ ?_ .inl⟩
  · by_cases hopen : conn.handle = true
    · refine h.counted.putConn hconn rfl (fun _ => ?_) (.inl hopen)
      exact listed_imp (h.counted.listed hconn hopen) rfl (·.congr rfl rfl)
    · refine h.counted.putConn hconn rfl (fun hhandle => (hopen hhandle).elim) (.inr ?_)
      rintro s stmt hget hstmt rfl
      obtain ⟨conn', hconn', hopen'⟩ := h.counted.connected hget hstmt
      rw [hconn] at hconn'
      cases hconn'
      exact hopen hopen'
  · refine Kept.setConn hconn (fun c' hne => get_put_of_ne hne _) fun conn' hget => ?_
    rw [hput] at hget
    cases hget
    exact ⟨rfl, rfl, fun _ => rfl⟩

theorem ready_createConn (h : Ready heap refs) :
    Ready { heap with conns := alloc heap.conns ⟨1, true, false, false, .create⟩ }
      { refs with conns := heap.conns.length :: refs.conns } := by
  have hself := get_alloc_self heap.conns ⟨1, true, false, false, .create⟩
  have hcount := h.counted.conns heap.conns.length
  rw [value_of_none _ (get_length heap.conns)] at hcount
  have hnone : ∀ {s stmt}, get heap.stmts s = some stmt → stmt.conn ≠ heap.conns.length := by
    intro s stmt hget hconn
    have := connUses_of_stmt hget
    rw [hconn] at this
    omega
  refine ⟨?_, h.settled, ?_⟩
  · refine h.counted.setConn (c := heap.conns.length)
      (fun c' hne => ⟨get_alloc_of_ne hne.symm, List.count_cons_of_ne hne, rfl⟩) ?_ ?_ ?_
    · rw [value_of_get _ hself, List.count_cons_self]
      change 1 = _
      omega
    · intro conn' hget
      rw [hself] at hget
      cases hget
      refine ⟨Nat.one_pos, fun _ => .inr ⟨rfl, [], lists_create, ?_⟩⟩
      intro slot s
      refine ⟨nofun, ?_⟩
      rintro ⟨stmt, hget, hconn, _⟩
      exact (hnone hget hconn).elim
    · intro s stmt hget _ hconn
      exact (hnone hget hconn).elim
  · intro c' conn' hget hopen
    rcases eq_or_ne heap.conns.length c' with rfl | hne
    · rw [hself] at hget
      cases hget
      rfl
    · exact h.closing (get_alloc_of_ne hne.symm ▸ hget) hopen

theorem ready_addRefVar (h : Ready heap refs) (hv : v ∈ refs.vars) :
    ∃ heap', heap.retainVar v = some heap' ∧
      Ready heap' { refs with vars := v :: refs.vars } := by
  obtain ⟨var, hvar⟩ := h.var_of_mem hv
  obtain ⟨heap', hretain, hcounted, hframe⟩ := retainVar_spec h.counted hvar
  exact ⟨heap', hretain, h.of_frame hcounted hframe⟩

theorem ready_releaseVar (h : Ready heap refs) (hv : v ∈ refs.vars) (depth : Nat) :
    ∃ heap', heap.releaseVar (Heap.releaseConn (depth + 1)) v = some heap' ∧
      Ready heap' { refs with vars := refs.vars.erase v } := by
  have hperm := List.perm_cons_erase hv
  have hcounted : Counted heap { refs with vars := v :: refs.vars.erase v } [] [] := by
    refine { h.counted with vars := fun v' => ?_ }
    rw [← hperm.count_eq]
    exact h.counted.vars v'
  obtain ⟨heap', hrelease, hcounted', hframe⟩ := releaseVar_spec hcounted (v := v) (by
    simp only [List.count_cons_self, List.count_nil]
    omega) depth
  have hcancelled : Counted heap' { refs with vars := refs.vars.erase v } [] [] :=
    counted_cancel hcounted'
  exact ⟨heap', hrelease, h.of_frame hcancelled hframe⟩

theorem ready_newVar (h : Ready heap refs) (hc : c ∈ refs.conns) (created : Heap.Allocated)
    (depth : Nat) :
    ∃ result heap', heap.varAllocate (depth + 1) c created = some (result, heap') ∧
      Ready heap' { refs with vars := result.toList ++ refs.vars } := by
  obtain ⟨conn, hconn⟩ := h.conn_of_mem hc
  obtain ⟨result, heap', hallocate, hframe, ⟨rfl, hcounted⟩ | ⟨v, rfl, hcounted⟩⟩ :=
    varAllocate_spec h.counted hconn created depth
  · exact ⟨none, heap', hallocate, h.of_frame hcounted hframe⟩
  · exact ⟨some v, heap', hallocate, h.of_frame hcounted hframe⟩

theorem ready_addRefStmt (h : Ready heap refs) (hs : s ∈ refs.stmts) :
    ∃ heap', heap.retainStmt s = some heap' ∧
      Ready heap' { refs with stmts := s :: refs.stmts } := by
  obtain ⟨stmt, hstmt⟩ := h.stmt_of_mem hs
  have hcount := (value_of_get _ hstmt).symm.trans (h.counted.stmts s)
  have hcounted := counted_setRefCount h.counted hstmt (s :: refs.stmts) (stmt.refCount + 1)
    (by rw [List.count_cons_self, hcount])
    fun s' hne => List.count_cons_of_ne hne
  refine ⟨_, by simp only [Heap.retainStmt, hstmt]; rfl, ?_⟩
  refine h.of_stmtFrame hcounted hstmt (StmtFrame.put heap s _) ⟨Nat.succ_pos _, ?_, ?_⟩
  · exact fun hclosing => ⟨((h.settled hstmt).closed hclosing).handle,
      ((h.settled hstmt).closed hclosing).bindVars, ((h.settled hstmt).closed hclosing).queryVars⟩
  · exact (h.settled hstmt).bound

theorem ready_releaseStmt (h : Ready heap refs) (hs : s ∈ refs.stmts) (depth : Nat) :
    ∃ heap', heap.releaseStmt (depth + 1) s = some heap' ∧
      Ready heap' { refs with stmts := refs.stmts.erase s } := by
  obtain ⟨stmt, hstmt⟩ := h.stmt_of_mem hs
  have hsettled := h.settled hstmt
  have hcount := (value_of_get _ hstmt).symm.trans (h.counted.stmts s)
  have hperm := List.perm_cons_erase hs
  have hself := hperm.count_eq s
  rw [List.count_cons_self] at hself
  have hother : ∀ s', s ≠ s' → (refs.stmts.erase s).count s' = refs.stmts.count s' := by
    intro s' hne
    rw [hperm.count_eq s', List.count_cons_of_ne hne]
  have hcounted := counted_setRefCount h.counted hstmt (refs.stmts.erase s) (stmt.refCount - 1)
    (by omega) hother
  have hframe := StmtFrame.put heap s { stmt with refCount := stmt.refCount - 1 }
  have hstmt' := hframe.get_self hstmt
  have hclosed : stmt.closing = true → Released { stmt with refCount := stmt.refCount - 1 } :=
    fun hclosing => ⟨(hsettled.closed hclosing).handle, (hsettled.closed hclosing).bindVars,
      (hsettled.closed hclosing).queryVars⟩
  simp only [Heap.releaseStmt, hstmt, decrement_pos hsettled.refCount_pos, Option.bind_eq_bind,
    Option.bind_some]
  by_cases hlast : stmt.refCount - 1 = 0
  · rw [if_pos hlast]
    obtain ⟨heap', hfree, hcounted', hfreed⟩ := stmtFree_spec hcounted hstmt' hclosed
      (refs.stmts.erase s) (by omega) (fun _ _ => rfl) depth
    refine ⟨heap', hfree, h.of_freed hcounted' ⟨hfreed.freed, fun s' hne => ?_, ?_⟩⟩
    · rw [hfreed.other s' hne, hframe.stmts, get_put_of_ne hne]
    · exact hframe.kept.trans hfreed.kept
  · rw [if_neg hlast]
    refine ⟨_, rfl, h.of_stmtFrame hcounted hstmt hframe ⟨?_, hclosed, hsettled.bound⟩⟩
    exact Nat.pos_of_ne_zero hlast

/-- A new statement without a handle, with its reference to the connection. -/
def allocStmt (heap : Heap) (c : Nat) (conn : ConnObject) : Heap :=
  { heap with stmts := alloc heap.stmts ⟨1, c, false, false, 0, [], []⟩ }.putConn c
    { conn with refCount := conn.refCount + 1 }

theorem counted_stmt (h : Counted heap refs [] []) (hconn : get heap.conns c = some conn) :
    Counted (allocStmt heap c conn) { refs with stmts := heap.stmts.length :: refs.stmts } [] [] ∧
      Kept heap (allocStmt heap c conn) := by
  obtain ⟨hcounted, hkept⟩ := counted_retainConn h hconn
  exact ⟨counted_allocStmt hcounted, ⟨hkept.conn⟩⟩

theorem ready_unprepared (h : Ready heap refs) (hkept : Kept heap heap₁)
    (hcounted : Counted heap₁ { refs with stmts := heap.stmts.length :: refs.stmts } [] [])
    (hs : get heap₁.stmts heap.stmts.length = some stmt) (hclosing : stmt.closing = false)
    (hother : ∀ s', heap.stmts.length ≠ s' → get heap₁.stmts s' = get heap.stmts s') (depth : Nat) :
    ∃ heap', heap₁.stmtFree (depth + 1) heap.stmts.length = some heap' ∧ Ready heap' refs := by
  have hnew := h.counted.stmts heap.stmts.length
  rw [value_of_none _ (get_length heap.stmts)] at hnew
  obtain ⟨heap', hfree, hcounted', hfreed⟩ := stmtFree_spec hcounted hs
    (fun hfalse => by rw [hclosing] at hfalse; cases hfalse) refs.stmts hnew.symm
    (fun s' hne => (List.count_cons_of_ne hne).symm) depth
  refine ⟨heap', hfree, h.of_stmts hcounted' (hkept.trans hfreed.kept) ?_⟩
  intro s' stmt' hget
  rcases eq_or_ne heap.stmts.length s' with rfl | hne
  · rw [hfreed.freed] at hget
    cases hget
  · rw [hfreed.other s' hne, hother s' hne] at hget
    exact .inl hget

theorem open_of_connected (h : conn.connected = true) :
    conn.handle = true ∧ conn.closing = false := by
  simp only [ConnObject.connected, Bool.and_eq_true, Bool.not_eq_true'] at h
  exact h.1

/-- The statement is allocated, holds its connection and is in its list. -/
def listStmt (heap : Heap) (c : Nat) (conn : ConnObject) (openSlotNum : Nat)
    (openStmts : HandleList Nat) : Heap :=
  ((allocStmt heap c conn).putConn c
    { conn with refCount := conn.refCount + 1, openStmts }).putStmt heap.stmts.length
      ⟨1, c, true, false, openSlotNum, [], []⟩

theorem counted_listStmt (h : Ready heap refs) (hconn : get heap.conns c = some conn)
    (hconnected : conn.connected = true) {listed : Bool} {openSlotNum : Nat}
    {openStmts : HandleList Nat}
    (hadd : conn.openStmts.addHandle heap.stmts.length listed = some (openSlotNum, openStmts)) :
    Counted (listStmt heap c conn openSlotNum openStmts)
      { refs with stmts := heap.stmts.length :: refs.stmts } [] [] := by
  obtain ⟨hhandle, hclosing⟩ := open_of_connected hconnected
  obtain ⟨entries, hlists⟩ : ∃ entries, ListsOpen heap c conn entries := by
    rcases h.counted.listed hconn hhandle with ⟨hfalse, _⟩ | ⟨_, hlists⟩
    · rw [hclosing] at hfalse
      cases hfalse
    · exact hlists
  obtain ⟨_, hlists', _⟩ := hlists.lists.addHandle hadd
  have hs : get (allocStmt heap c conn).stmts heap.stmts.length = some _ :=
    get_alloc_self heap.stmts ⟨1, c, false, false, 0, [], []⟩
  refine counted_setOpen (counted_stmt h.counted hconn).1 hs
    (get_put_self hconn { conn with refCount := conn.refCount + 1 }) rfl rfl (fun v => rfl)
    (fun _ => hhandle) fun _ => .inr ⟨hclosing, _, hlists', ?_⟩
  intro slot s'
  rw [List.mem_cons, hlists.mem_iff]
  rcases eq_or_ne heap.stmts.length s' with rfl | hne
  · rw [get_length, get_put_self hs]
    simp only [Prod.mk.injEq, and_true, reduceCtorEq, false_and, exists_false, or_false,
      Option.some.injEq, exists_eq_left', true_and]
    exact eq_comm
  · rw [get_put_of_ne hne]
    change _ ↔ ∃ stmt₁, get (alloc _ _) s' = _ ∧ _
    rw [get_alloc_of_ne hne.symm]
    simp [hne.symm]

theorem ready_prepareStmt (h : Ready heap refs) (hc : c ∈ refs.conns) (outcome : Heap.Prepared)
    (depth : Nat) :
    ∃ result heap', heap.prepareStmt (depth + 1) c outcome = some (result, heap') ∧
      Ready heap' { refs with stmts := result.toList ++ refs.stmts } := by
  obtain ⟨conn, hconn⟩ := h.conn_of_mem hc
  obtain ⟨hcounted, hkept⟩ := counted_stmt h.counted hconn
  have hs := get_alloc_self heap.stmts ⟨1, c, false, false, 0, [], []⟩
  have hother : ∀ s', heap.stmts.length ≠ s' →
      get (allocStmt heap c conn).stmts s' = get heap.stmts s' :=
    fun s' hne => get_alloc_of_ne hne.symm
  obtain ⟨heap₁, hfree, hready₁⟩ := ready_unprepared h hkept hcounted hs rfl hother depth
  have hallocated :
      { heap with stmts := alloc heap.stmts ⟨1, c, false, false, 0, [], []⟩ }.retainConn c =
        some (allocStmt heap c conn) := retainConn_eq hconn
  simp only [Heap.prepareStmt, Heap.connCheck, hconn, Option.bind_eq_bind, Option.bind_some]
  split
  case isTrue => exact ⟨none, heap, rfl, h⟩
  case isFalse hbranch =>
      simp only [Bool.or_eq_true, Bool.not_eq_true', decide_eq_true_eq, not_or,
        Bool.not_eq_false] at hbranch
      rw [hallocated, Option.bind_some]
      cases outcome with
      | refused => exact (hbranch.2 rfl).elim
      | notPrepared => exact ⟨none, heap₁, by simp [hfree], hready₁⟩
      | prepared listed initialised =>
          have hconn₁ : get (allocStmt heap c conn).conns c = some _ :=
            get_put_self hconn { conn with refCount := conn.refCount + 1 }
          simp only [hconn₁, Option.bind_some]
          split
          case h_1 => exact ⟨none, heap₁, by simp [hfree], hready₁⟩
          case h_2 openSlotNum openStmts hadd =>
              have hlisted := counted_listStmt h hconn hbranch.1 hadd
              have hs₂ : get (listStmt heap c conn openSlotNum openStmts).stmts
                  heap.stmts.length = some _ := get_put_self hs _
              have hkept₂ : Kept heap (listStmt heap c conn openSlotNum openStmts) :=
                hkept.trans ((kept_openStmts hconn₁ (open_of_connected hbranch.1).2
                  openStmts).trans (StmtFrame.put _ _ _).kept)
              have hother₂ : ∀ s', heap.stmts.length ≠ s' →
                  get (listStmt heap c conn openSlotNum openStmts).stmts s' =
                    get heap.stmts s' := fun s' hne =>
                (get_put_of_ne hne _).trans (hother s' hne)
              cases initialised with
              | true =>
                  refine ⟨some heap.stmts.length, listStmt heap c conn openSlotNum openStmts, rfl,
                    h.of_stmts hlisted hkept₂ ?_⟩
                  intro s' stmt' hget
                  rcases eq_or_ne heap.stmts.length s' with rfl | hne
                  · rw [hs₂] at hget
                    cases hget
                    exact .inr ⟨Nat.one_pos, by simp, by simp⟩
                  · rw [hother₂ s' hne] at hget
                    exact .inl hget
              | false =>
                  obtain ⟨heap₂, hfree₂, hready₂⟩ :=
                    ready_unprepared h hkept₂ hlisted hs₂ rfl hother₂ depth
                  refine ⟨none, heap₂, ?_, hready₂⟩
                  rw [if_neg Bool.false_ne_true]
                  exact Option.bind_eq_some_iff.mpr ⟨heap₂, hfree₂, rfl⟩

/-- The objects, and the references that the caller has to them. -/
structure System where
  heap : Heap
  refs : Refs

/-- The calls of the application with the outcomes of what they call in OCI.  `failsAt` is
the slot of the statement whose release fails in the close of a connection. -/
inductive Call where
  | createConn
  | addRefConn (c : Nat)
  | releaseConn (c : Nat)
  | closeConn (c : Nat) (failsAt : Option Nat) (ended : Bool)
  | loseSession (c : Nat)
  | newVar (c : Nat) (created : Heap.Allocated)
  | addRefVar (v : Nat)
  | releaseVar (v : Nat)
  | prepareStmt (c : Nat) (outcome : Heap.Prepared)
  | addRefStmt (s : Nat)
  | releaseStmt (s : Nat)
  | closeStmt (s : Nat) (released : Bool)
  | bindVar (s pos : Nat) (name : List UInt8) (v : Nat) (outcome : Heap.Bound)
  | bindValue (s pos : Nat) (name : List UInt8) (created : Heap.Allocated) (copied : Bool)
      (outcome : Heap.Bound)
  | execute (s : Nat) (columns : Option (Nat × Bool))
  | fetch (s numQueryVars : Nat) (described : Bool) (outcome : Nat → Heap.ColumnOutcome)
  | getQueryValue (s column : Nat)

/-- The application has references to what it uses. -/
def Permitted (refs : Refs) : Call → Prop
  | .createConn => True
  | .addRefConn c | .releaseConn c | .closeConn c _ _ | .loseSession c | .newVar c _
  | .prepareStmt c _ => c ∈ refs.conns
  | .addRefVar v | .releaseVar v => v ∈ refs.vars
  | .addRefStmt s | .releaseStmt s | .closeStmt s _ | .bindValue s _ _ _ _ _ | .execute s _
  | .fetch s _ _ _ | .getQueryValue s _ => s ∈ refs.stmts
  | .bindVar s _ _ v _ => s ∈ refs.stmts ∧ v ∈ refs.vars

/-- Neither the close of a connection fails, nor the conversion of a variable to a LOB. -/
def Sound : Call → Prop
  | .closeConn _ failsAt ended => failsAt = none ∧ ended = true
  | .bindVar _ _ _ _ outcome | .bindValue _ _ _ _ _ outcome => outcome ≠ .notConverted
  | _ => True

instance (refs : Refs) (call : Call) : Decidable (Permitted refs call) := by
  cases call <;> unfold Permitted <;> infer_instance

instance (call : Call) : Decidable (Sound call) := by
  cases call <;> unfold Sound <;> infer_instance

namespace System

/-- Nothing has been created. -/
def init : System :=
  ⟨⟨[], [], [], []⟩, ⟨[], [], []⟩⟩

/-- A call, which is `none` for an access to freed memory. -/
def perform (depth : Nat) (x : System) : Call → Option System
  | .createConn => some
      ⟨{ x.heap with conns := alloc x.heap.conns ⟨1, true, false, false, .create⟩ },
        { x.refs with conns := x.heap.conns.length :: x.refs.conns }⟩
  | .addRefConn c => (x.heap.retainConn c).map fun heap =>
      ⟨heap, { x.refs with conns := c :: x.refs.conns }⟩
  | .releaseConn c => (x.heap.releaseConn depth c).map fun heap =>
      ⟨heap, { x.refs with conns := x.refs.conns.erase c }⟩
  | .closeConn c failsAt ended =>
      (x.heap.closeConn depth c (fun i => decide (failsAt ≠ some i)) ended).map (⟨·, x.refs⟩)
  | .loseSession c => (x.heap.loseSession c).map (⟨·, x.refs⟩)
  | .newVar c created => do
      let connected ← x.heap.connCheck c
      if connected then (x.heap.varAllocate depth c created).map fun (var, heap) =>
        ⟨heap, { x.refs with vars := var.toList ++ x.refs.vars }⟩
      else some x
  | .addRefVar v => (x.heap.retainVar v).map fun heap =>
      ⟨heap, { x.refs with vars := v :: x.refs.vars }⟩
  | .releaseVar v => (x.heap.releaseVar (Heap.releaseConn depth) v).map fun heap =>
      ⟨heap, { x.refs with vars := x.refs.vars.erase v }⟩
  | .prepareStmt c outcome => (x.heap.prepareStmt depth c outcome).map fun (stmt, heap) =>
      ⟨heap, { x.refs with stmts := stmt.toList ++ x.refs.stmts }⟩
  | .addRefStmt s => (x.heap.retainStmt s).map fun heap =>
      ⟨heap, { x.refs with stmts := s :: x.refs.stmts }⟩
  | .releaseStmt s => (x.heap.releaseStmt depth s).map fun heap =>
      ⟨heap, { x.refs with stmts := x.refs.stmts.erase s }⟩
  | .closeStmt s released => (x.heap.closeStmt depth s released).map (⟨·, x.refs⟩)
  | .bindVar s pos name v outcome =>
      (x.heap.bindVar depth s pos name v outcome).map (⟨·, x.refs⟩)
  | .bindValue s pos name created copied outcome =>
      (x.heap.bindValue depth s pos name created copied outcome).map (⟨·, x.refs⟩)
  | .execute s columns => (x.heap.execute depth s columns).map (⟨·, x.refs⟩)
  | .fetch s numQueryVars described outcome =>
      (x.heap.fetch depth s numQueryVars described outcome).map (⟨·, x.refs⟩)
  | .getQueryValue s column => (x.heap.getQueryValue s column).map (⟨·, x.refs⟩)

/-- One call, with references that the caller has. -/
def step (depth : Nat) (x : System) (call : Call) : Option System :=
  if Permitted x.refs call ∧ Sound call then x.perform depth call else none

def run (depth : Nat) : System → List Call → Option System
  | x, [] => some x
  | x, call :: calls => (x.step depth call).bind fun x' => x'.run depth calls

end System

open LabelledRuns

theorem runs_system (depth : Nat) : Runs (System.step depth) (System.run depth) where
  nil _ := rfl
  cons _ _ _ := rfl

variable {x x' : System} {calls : List Call} {depth : Nat}

theorem perform_ready (h : Ready x.heap x.refs) {call : Call} (hpermitted : Permitted x.refs call)
    (hsound : Sound call) (depth : Nat) :
    ∃ x', x.perform (depth + 1) call = some x' ∧ Ready x'.heap x'.refs := by
  cases call with
  | createConn => exact ⟨_, rfl, ready_createConn h⟩
  | addRefConn c =>
      obtain ⟨heap', heq, hready⟩ := ready_addRefConn h hpermitted
      exact ⟨⟨heap', _⟩, by rw [System.perform, heq]; rfl, hready⟩
  | releaseConn c =>
      obtain ⟨heap', heq, hready⟩ := ready_releaseConn h hpermitted depth
      exact ⟨⟨heap', _⟩, by rw [System.perform, heq]; rfl, hready⟩
  | closeConn c failsAt ended =>
      obtain ⟨rfl, rfl⟩ := hsound
      obtain ⟨heap', heq, hready⟩ := ready_closeConn h hpermitted depth
      have hreleased : (fun i => decide ((none : Option Nat) ≠ some i)) = fun _ => true := rfl
      exact ⟨⟨heap', _⟩, by rw [System.perform, hreleased, heq]; rfl, hready⟩
  | loseSession c =>
      obtain ⟨heap', heq, hready⟩ := ready_loseSession h hpermitted
      exact ⟨⟨heap', _⟩, by rw [System.perform, heq]; rfl, hready⟩
  | newVar c created =>
      obtain ⟨conn, hconn⟩ := h.conn_of_mem hpermitted
      have hcheck : x.heap.connCheck c = some conn.connected := by
        simp [Heap.connCheck, hconn]
      rw [System.perform, hcheck, Option.bind_eq_bind, Option.bind_some]
      split
      case isTrue =>
          obtain ⟨result, heap', heq, hready⟩ := ready_newVar h hpermitted created depth
          exact ⟨⟨heap', _⟩, by rw [heq]; rfl, hready⟩
      case isFalse => exact ⟨x, rfl, h⟩
  | addRefVar v =>
      obtain ⟨heap', heq, hready⟩ := ready_addRefVar h hpermitted
      exact ⟨⟨heap', _⟩, by rw [System.perform, heq]; rfl, hready⟩
  | releaseVar v =>
      obtain ⟨heap', heq, hready⟩ := ready_releaseVar h hpermitted depth
      exact ⟨⟨heap', _⟩, by rw [System.perform, heq]; rfl, hready⟩
  | prepareStmt c outcome =>
      obtain ⟨result, heap', heq, hready⟩ := ready_prepareStmt h hpermitted outcome depth
      exact ⟨⟨heap', _⟩, by rw [System.perform, heq]; rfl, hready⟩
  | addRefStmt s =>
      obtain ⟨heap', heq, hready⟩ := ready_addRefStmt h hpermitted
      exact ⟨⟨heap', _⟩, by rw [System.perform, heq]; rfl, hready⟩
  | releaseStmt s =>
      obtain ⟨heap', heq, hready⟩ := ready_releaseStmt h hpermitted depth
      exact ⟨⟨heap', _⟩, by rw [System.perform, heq]; rfl, hready⟩
  | closeStmt s released =>
      obtain ⟨heap', heq, hready⟩ := h.closeStmt hpermitted released depth
      exact ⟨⟨heap', _⟩, by rw [System.perform, heq]; rfl, hready⟩
  | bindVar s pos name v outcome =>
      obtain ⟨hs, hv⟩ := hpermitted
      obtain ⟨heap', heq, hready⟩ := h.bindVar hs hv pos name hsound depth
      exact ⟨⟨heap', _⟩, by rw [System.perform, heq]; rfl, hready⟩
  | bindValue s pos name created copied outcome =>
      obtain ⟨heap', heq, hready⟩ := h.bindValue hpermitted pos name created copied hsound depth
      exact ⟨⟨heap', _⟩, by rw [System.perform, heq]; rfl, hready⟩
  | execute s columns =>
      obtain ⟨heap', heq, hready⟩ := h.execute hpermitted columns depth
      exact ⟨⟨heap', _⟩, by rw [System.perform, heq]; rfl, hready⟩
  | fetch s numQueryVars described outcome =>
      obtain ⟨heap', heq, hready⟩ := h.fetch hpermitted numQueryVars described outcome depth
      exact ⟨⟨heap', _⟩, by rw [System.perform, heq]; rfl, hready⟩
  | getQueryValue s column =>
      exact ⟨⟨x.heap, x.refs⟩, by rw [System.perform, h.getQueryValue hpermitted]; rfl, h⟩

theorem ready_init : Ready System.init.heap System.init.refs where
  counted := {
    conns := fun c => by simp [System.init, value, ObjectStore.get, connUses, total]
    vars := fun v => by simp [System.init, value, ObjectStore.get, varUses, total]
    stmts := fun s => by simp [System.init, value, ObjectStore.get]
    conn_pos := nofun
    var_pos := nofun
    listed := nofun
    connected := nofun }
  settled := nofun
  closing := nofun

theorem ready_run (hrun : System.init.run (depth + 1) calls = some x) : Ready x.heap x.refs := by
  refine (runs_system (depth + 1)).invariant (I := fun x => Ready x.heap x.refs) ?_ ready_init hrun
  intro x x' h call hstep
  rw [System.step] at hstep
  split at hstep
  case isTrue hcall =>
      obtain ⟨x₁, heq, hready⟩ := perform_ready h hcall.1 hcall.2 depth
      rw [heq] at hstep
      cases hstep
      exact hready
  case isFalse => cases hstep

-- when the end of the session fails, the connection still lists its closed statements, and
-- the next close gets to those that have been freed in between
example : (do
    let x ← System.init.run 1 [.createConn, .prepareStmt 0 (.prepared true true)]
    let x ← x.perform 1 (.closeConn 0 none false)
    let x ← x.perform 1 (.releaseStmt 0)
    some (x.perform 1 (.closeConn 0 none true)).isNone) = some true := rfl

theorem uses_pos_iff : 0 < uses v stmt ↔ v ∈ stmt.boundVars ++ stmt.definedVars := by
  rw [uses, ← List.count_append, List.count_pos_iff]

theorem varUses_pos_iff : 0 < varUses heap v ↔
    ∃ s stmt, get heap.stmts s = some stmt ∧ v ∈ stmt.boundVars ++ stmt.definedVars := by
  simp only [varUses, total_pos_iff, uses_pos_iff]

theorem connUses_pos_iff : 0 < connUses heap c ↔
    (∃ v var, get heap.vars v = some var ∧ var.conn = c) ∨
      ∃ s stmt, get heap.stmts s = some stmt ∧ stmt.conn = c := by
  have hpos : ∀ p : Prop, [Decidable p] → (0 < (if p then 1 else 0) ↔ p) := by
    intro p _
    split <;> simp [*]
  rw [connUses, Nat.add_pos_iff_pos_or_pos, total_pos_iff, total_pos_iff]
  simp only [hpos]

section Lifetimes

variable {refs : Refs}

theorem stmt_isSome_iff (h : Ready heap refs) (s : Nat) :
    (get heap.stmts s).isSome ↔ s ∈ refs.stmts := by
  rw [isSome_iff_value_pos StmtObject.refCount fun hget => (h.settled hget).refCount_pos,
    h.counted.stmts, List.count_pos_iff]

theorem var_isSome_iff (h : Ready heap refs) (v : Nat) :
    (get heap.vars v).isSome ↔ v ∈ refs.vars ∨ v ∈ heap.unreleased ∨
      ∃ s stmt, get heap.stmts s = some stmt ∧ v ∈ stmt.boundVars ++ stmt.definedVars := by
  have hcount := h.counted.vars v
  rw [List.count_nil, Nat.add_zero] at hcount
  rw [isSome_iff_value_pos VarObject.refCount h.counted.var_pos, hcount,
    Nat.add_pos_iff_pos_or_pos, Nat.add_pos_iff_pos_or_pos, List.count_pos_iff,
    List.count_pos_iff, varUses_pos_iff, or_assoc]

theorem conn_isSome_iff (h : Ready heap refs) (c : Nat) :
    (get heap.conns c).isSome ↔ c ∈ refs.conns ∨
      (∃ v var, get heap.vars v = some var ∧ var.conn = c) ∨
        ∃ s stmt, get heap.stmts s = some stmt ∧ stmt.conn = c := by
  have hcount := h.counted.conns c
  rw [List.count_nil, Nat.add_zero] at hcount
  rw [isSome_iff_value_pos ConnObject.refCount h.counted.conn_pos, hcount,
    Nat.add_pos_iff_pos_or_pos, List.count_pos_iff, connUses_pos_iff]

end Lifetimes

/-- What an application has released all references to is freed, if no call has failed in
between and left one. -/
theorem nothing_left (hrun : System.init.run (depth + 1) calls = some x)
    (hrefs : x.refs = ⟨[], [], []⟩) (hunreleased : x.heap.unreleased = []) (i : Nat) :
    get x.heap.stmts i = none ∧ get x.heap.vars i = none ∧ get x.heap.conns i = none := by
  have h := ready_run hrun
  have hstmt : ∀ s, get x.heap.stmts s = none := by
    intro s
    rw [← Option.not_isSome_iff_eq_none, stmt_isSome_iff h, hrefs]
    exact List.not_mem_nil
  have hvar : ∀ v, get x.heap.vars v = none := by
    intro v
    rw [← Option.not_isSome_iff_eq_none, var_isSome_iff h, hrefs, hunreleased]
    simp [hstmt]
  refine ⟨hstmt i, hvar i, ?_⟩
  rw [← Option.not_isSome_iff_eq_none, conn_isSome_iff h, hrefs]
  simp [hstmt, hvar]

end OracleNIO.HandleLifetimes
