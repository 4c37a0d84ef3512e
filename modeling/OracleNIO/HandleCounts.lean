import OracleNIO.DpiHandles

/-!
The reference counts of the handles of ODPI-C are the numbers of the references to them,
while references are given back and objects are freed.
-/

namespace OracleNIO.HandleCounts

open ObjectStore Dpi

/-- The references of the application, one for each time that it has to release one. -/
structure Refs where
  conns : List Nat
  vars : List Nat
  stmts : List Nat
deriving DecidableEq, Repr

/-- How many variables and statements hold a reference to the connection. -/
def connUses (heap : Heap) (c : Nat) : Nat :=
  total (fun var => if var.conn = c then 1 else 0) heap.vars +
    total (fun stmt => if stmt.conn = c then 1 else 0) heap.stmts

/-- How often the statement holds a reference to the variable. -/
def uses (v : Nat) (stmt : StmtObject) : Nat :=
  stmt.boundVars.count v + stmt.definedVars.count v

/-- How many references statements hold to the variable. -/
def varUses (heap : Heap) (v : Nat) : Nat :=
  total (uses v) heap.stmts

/-- The list of a connection has its open statements. -/
structure ListsOpen (heap : Heap) (c : Nat) (conn : ConnObject) (entries : List (Nat × Nat)) :
    Prop where
  lists : Lists conn.openStmts entries
  mem_iff : ∀ {slot s}, (slot, s) ∈ entries ↔
    ∃ stmt, get heap.stmts s = some stmt ∧ stmt.conn = c ∧ stmt.handle = true ∧
      stmt.openSlotNum = slot

/-- The counts are the numbers of references.  `hand` are references to connections that
are about to be released; `stale` are variables that a statement still points to, but has
released. -/
structure Counted (heap : Heap) (refs : Refs) (hand stale : List Nat) : Prop where
  conns : ∀ c, value ConnObject.refCount heap.conns c =
    refs.conns.count c + hand.count c + connUses heap c
  vars : ∀ v, value VarObject.refCount heap.vars v + stale.count v =
    refs.vars.count v + heap.unreleased.count v + varUses heap v
  stmts : ∀ s, value StmtObject.refCount heap.stmts s = refs.stmts.count s
  conn_pos : ∀ {c conn}, get heap.conns c = some conn → 0 < conn.refCount
  var_pos : ∀ {v var}, get heap.vars v = some var → 0 < var.refCount
  listed : ∀ {c conn}, get heap.conns c = some conn → conn.handle = true →
    conn.closing = true ∧ c ∈ refs.conns ∨
      conn.closing = false ∧ ∃ entries, ListsOpen heap c conn entries
  connected : ∀ {s stmt}, get heap.stmts s = some stmt → stmt.handle = true →
    ∃ conn, get heap.conns stmt.conn = some conn ∧ conn.handle = true

variable {heap heap' : Heap} {refs : Refs} {hand stale : List Nat} {c s v depth : Nat}
  {conn conn' : ConnObject} {var : VarObject} {stmt stmt' : StmtObject}

theorem connUses_of_stmt (hs : get heap.stmts s = some stmt) : 0 < connUses heap stmt.conn := by
  have := le_total (fun x => if x.conn = stmt.conn then 1 else 0) hs
  rw [if_pos rfl] at this
  rw [connUses]
  omega

theorem listed_imp {held : List Nat}
    (h : conn.closing = true ∧ c ∈ held ∨
      conn.closing = false ∧ ∃ entries, ListsOpen heap c conn entries)
    (hclosing : conn'.closing = conn.closing)
    (himp : ∀ {entries}, ListsOpen heap c conn entries → ListsOpen heap' c conn' entries) :
    conn'.closing = true ∧ c ∈ held ∨
      conn'.closing = false ∧ ∃ entries, ListsOpen heap' c conn' entries := by
  rw [hclosing]
  exact h.imp_right (And.imp_right (Exists.imp fun _ => himp))

namespace Counted

theorem conn_of_uses (h : Counted heap refs hand stale)
    (hc : 0 < refs.conns.count c + hand.count c + connUses heap c) :
    ∃ conn, get heap.conns c = some conn ∧
      conn.refCount = refs.conns.count c + hand.count c + connUses heap c := by
  have hcount := h.conns c
  cases hget : get heap.conns c with
  | none =>
      rw [value_of_none _ hget] at hcount
      omega
  | some conn => exact ⟨conn, rfl, (value_of_get _ hget).symm.trans hcount⟩

theorem var_of_uses (h : Counted heap refs hand stale)
    (hv : stale.count v < refs.vars.count v + heap.unreleased.count v + varUses heap v) :
    ∃ var, get heap.vars v = some var ∧ var.refCount + stale.count v =
      refs.vars.count v + heap.unreleased.count v + varUses heap v := by
  have hcount := h.vars v
  cases hget : get heap.vars v with
  | none =>
      rw [value_of_none _ hget] at hcount
      omega
  | some var =>
      rw [value_of_get _ hget] at hcount
      exact ⟨var, rfl, hcount⟩

theorem congr_stale (h : Counted heap refs hand stale) {stale' : List Nat}
    (hstale : ∀ v, stale'.count v = stale.count v) : Counted heap refs hand stale' where
  conns := h.conns
  vars v := by
    rw [hstale]
    exact h.vars v
  stmts := h.stmts
  conn_pos := h.conn_pos
  var_pos := h.var_pos
  listed := h.listed
  connected := h.connected

end Counted

/-- The connections that are left are as before, up to their counts and to the lists of
those that are not closing. -/
structure Kept (heap heap' : Heap) : Prop where
  conn : ∀ {c conn'}, get heap'.conns c = some conn' → ∃ conn, get heap.conns c = some conn ∧
    conn'.handle = conn.handle ∧ conn'.closing = conn.closing ∧
      (conn.closing = true → conn'.openStmts = conn.openStmts)

theorem Kept.refl (heap : Heap) : Kept heap heap where
  conn h := ⟨_, h, rfl, rfl, fun _ => rfl⟩

theorem Kept.trans {heap'' : Heap} (h : Kept heap heap') (h' : Kept heap' heap'') :
    Kept heap heap'' where
  conn hget := by
    obtain ⟨conn', hget', hhandle', hclosing', hopen'⟩ := h'.conn hget
    obtain ⟨conn, hget, hhandle, hclosing, hopen⟩ := h.conn hget'
    refine ⟨conn, hget, hhandle'.trans hhandle, hclosing'.trans hclosing, fun hc => ?_⟩
    exact (hopen' (hclosing.trans hc)).trans (hopen hc)

/-- What the release of a connection or a variable leaves as it was. -/
structure Frame (heap heap' : Heap) : Prop where
  stmts : heap'.stmts = heap.stmts
  unreleased : heap'.unreleased = heap.unreleased
  kept : Kept heap heap'

theorem Frame.refl (heap : Heap) : Frame heap heap := ⟨rfl, rfl, .refl heap⟩

theorem Frame.trans {heap'' : Heap} (h : Frame heap heap') (h' : Frame heap' heap'') :
    Frame heap heap'' where
  stmts := h'.stmts.trans h.stmts
  unreleased := h'.unreleased.trans h.unreleased
  kept := h.kept.trans h'.kept

theorem Frame.varUses_eq (h : Frame heap heap') (v : Nat) : varUses heap' v = varUses heap v := by
  rw [varUses, h.stmts]
  rfl

theorem decrement_pos {n : Nat} (h : 0 < n) : Heap.decrement n = some (n - 1) :=
  if_neg (Nat.ne_of_gt h)

theorem ListsOpen.congr {entries : List (Nat × Nat)} (h : ListsOpen heap c conn entries)
    (hstmts : heap'.stmts = heap.stmts) (hopen : conn'.openStmts = conn.openStmts) :
    ListsOpen heap' c conn' entries where
  lists := hopen ▸ h.lists
  mem_iff := by
    rw [hstmts]
    exact h.mem_iff

theorem closeSlot_none {release : Heap → Nat → Option Heap} (hconn : get heap.conns c = some conn)
    (hempty : ∀ i : Nat, (conn.openStmts.handles[i]?).join = none) (released : Nat → Bool)
    (slots : List Nat) :
    slots.foldlM (Heap.closeSlot release c released) (true, heap) = some (true, heap) := by
  induction slots with
  | nil => rfl
  | cons i slots ih =>
      have hslot : Heap.closeSlot release c released (true, heap) i = some (true, heap) := by
        simp [Heap.closeSlot, hconn, hempty]
      rw [List.foldlM_cons, hslot]
      exact ih

theorem connFree_empty (release : Heap → Nat → Option Heap)
    (hconn : get heap.conns c = some conn)
    (hempty : conn.handle = true → ∀ i : Nat, (conn.openStmts.handles[i]?).join = none) :
    ∃ conns, heap.connFree release c = some { heap with conns } ∧
      get conns c = none ∧ ∀ c', c ≠ c' → get conns c' = get heap.conns c' := by
  cases hhandle : conn.handle with
  | false =>
      refine ⟨free heap.conns c, ?_, get_free _ _, fun c' hne => get_free_of_ne hne⟩
      simp [Heap.connFree, hconn, hhandle]
  | true =>
      refine ⟨free (put heap.conns c { conn with handle := false }) c, ?_, ?_, ?_⟩
      · simp [Heap.connFree, Heap.connClose, hconn, hhandle, Heap.putConn,
          closeSlot_none hconn (hempty hhandle)]
      · exact get_free _ _
      · intro c' hne
        rw [get_free_of_ne hne, get_put_of_ne hne]

theorem Counted.setConn (h : Counted heap refs hand stale) {conns : Store ConnObject}
    {held hand' : List Nat}
    (hother : ∀ c', c ≠ c' → get conns c' = get heap.conns c' ∧
      held.count c' = refs.conns.count c' ∧ hand'.count c' = hand.count c')
    (hvalue : value ConnObject.refCount conns c =
      held.count c + hand'.count c + connUses heap c)
    (hnew : ∀ conn', get conns c = some conn' → 0 < conn'.refCount ∧ (conn'.handle = true →
      conn'.closing = true ∧ c ∈ held ∨
        conn'.closing = false ∧ ∃ entries, ListsOpen heap c conn' entries))
    (hstmts : ∀ {s stmt}, get heap.stmts s = some stmt → stmt.handle = true → stmt.conn = c →
      ∃ conn', get conns c = some conn' ∧ conn'.handle = true) :
    Counted { heap with conns } { refs with conns := held } hand' stale where
  conns c' := by
    rcases eq_or_ne c c' with rfl | hne
    · exact hvalue
    · obtain ⟨hget, hheld, hhand⟩ := hother c' hne
      rw [hheld, hhand]
      refine Eq.trans ?_ (h.conns c')
      rw [value, value, hget]
  vars := h.vars
  stmts := h.stmts
  conn_pos := by
    intro c' conn' hget
    rcases eq_or_ne c c' with rfl | hne
    · exact (hnew conn' hget).1
    · exact h.conn_pos ((hother c' hne).1 ▸ hget)
  var_pos := h.var_pos
  listed := by
    intro c' conn' hget hhandle
    rcases eq_or_ne c c' with rfl | hne
    · exact listed_imp ((hnew conn' hget).2 hhandle) rfl (·.congr rfl rfl)
    · obtain ⟨hsame, hheld, _⟩ := hother c' hne
      rcases h.listed (hsame ▸ hget) hhandle with ⟨hclosing, hmem⟩ | ⟨hclosing, entries, hlists⟩
      · refine .inl ⟨hclosing, ?_⟩
        rw [← List.count_pos_iff, hheld, List.count_pos_iff]
        exact hmem
      · exact .inr ⟨hclosing, entries, hlists.congr rfl rfl⟩
  connected := by
    intro s stmt hget hhandle
    rcases eq_or_ne c stmt.conn with heq | hne
    · rw [← heq]
      exact hstmts hget hhandle heq.symm
    · rw [(hother _ hne).1]
      exact h.connected hget hhandle

theorem Counted.putConn (h : Counted heap refs hand stale) (hconn : get heap.conns c = some conn)
    (hcount : conn'.refCount = conn.refCount)
    (hlisted : conn'.handle = true → conn'.closing = true ∧ c ∈ refs.conns ∨
      conn'.closing = false ∧ ∃ entries, ListsOpen heap c conn' entries)
    (hopened : conn'.handle = true ∨ ∀ {s stmt}, get heap.stmts s = some stmt →
      stmt.handle = true → stmt.conn ≠ c) :
    Counted (heap.putConn c conn') refs hand stale := by
  have hput := get_put_self hconn conn'
  refine h.setConn (c := c) (fun c' hne => ⟨get_put_of_ne hne _, rfl, rfl⟩) ?_ ?_ ?_
  · rw [value_of_get _ hput, hcount]
    exact (value_of_get _ hconn).symm.trans (h.conns c)
  · intro conn₁ hget
    rw [hput] at hget
    cases hget
    exact ⟨hcount ▸ h.conn_pos hconn, hlisted⟩
  · intro s stmt hget hstmt hsame
    rcases hopened with hhandle | hnone
    · exact ⟨conn', hput, hhandle⟩
    · exact (hnone hget hstmt hsame).elim

theorem Kept.setConn {conns : Store ConnObject} (hconn : get heap.conns c = some conn)
    (hother : ∀ c', c ≠ c' → get conns c' = get heap.conns c')
    (hnew : ∀ conn', get conns c = some conn' → conn'.handle = conn.handle ∧
      conn'.closing = conn.closing ∧
        (conn.closing = true → conn'.openStmts = conn.openStmts)) :
    Kept heap { heap with conns } where
  conn := by
    intro c' conn' hget
    rcases eq_or_ne c c' with rfl | hne
    · exact ⟨conn, hconn, hnew conn' hget⟩
    · exact ⟨conn', (hother c' hne) ▸ hget, rfl, rfl, fun _ => rfl⟩

theorem ListsOpen.eq_nil {entries : List (Nat × Nat)} (h : ListsOpen heap c conn entries)
    (huses : connUses heap c = 0) : entries = [] := by
  refine List.eq_nil_iff_forall_not_mem.mpr fun ⟨slot, s⟩ hmem => ?_
  obtain ⟨stmt, hget, rfl, _⟩ := h.mem_iff.mp hmem
  have := connUses_of_stmt hget
  omega

theorem ListsOpen.slot_none (h : ListsOpen heap c conn []) (i : Nat) :
    (conn.openStmts.handles[i]?).join = none := by
  rw [Option.eq_none_iff_forall_ne_some]
  intro s hs
  exact List.not_mem_nil (h.lists.holds.mem_iff.mpr (Option.join_eq_some_iff.mp hs))

/-- Whoever has a reference to a connection can release it. -/
theorem releaseConn_spec (h : Counted heap refs (c :: hand) stale) (depth : Nat) :
    ∃ heap', heap.releaseConn (depth + 1) c = some heap' ∧ Counted heap' refs hand stale ∧
      Frame heap heap' ∧ heap'.vars = heap.vars := by
  obtain ⟨conn, hconn, hcount⟩ := h.conn_of_uses (c := c) (by rw [List.count_cons_self]; omega)
  rw [List.count_cons_self] at hcount
  have hhand : ∀ c', c ≠ c' → hand.count c' = (c :: hand).count c' := fun c' hne =>
    (List.count_cons_of_ne hne).symm
  simp only [Heap.releaseConn, hconn, decrement_pos (h.conn_pos hconn), Option.bind_eq_bind,
    Option.bind_some]
  by_cases hlast : conn.refCount - 1 = 0
  · rw [if_pos hlast]
    have huses : connUses heap c = 0 := by omega
    have hempty : conn.handle = true →
        ∀ i : Nat, (conn.openStmts.handles[i]?).join = none := by
      intro hhandle
      rcases h.listed hconn hhandle with ⟨_, hmem⟩ | ⟨_, entries, hlists⟩
      · have := List.count_pos_iff.mpr hmem
        omega
      · obtain rfl := hlists.eq_nil huses
        exact hlists.slot_none
    have hput : get (heap.putConn c { conn with refCount := conn.refCount - 1 }).conns c =
        some { conn with refCount := conn.refCount - 1 } := get_put_self hconn _
    obtain ⟨conns, hfree, hnone, hother⟩ :=
      connFree_empty (Heap.releaseConn depth) hput hempty
    have hsame : ∀ c', c ≠ c' → get conns c' = get heap.conns c' := fun c' hne =>
      (hother c' hne).trans (get_put_of_ne hne _)
    refine ⟨_, hfree, ?_, ⟨rfl, rfl, ?_⟩, rfl⟩
    · refine h.setConn (c := c) (fun c' hne => ⟨hsame c' hne, rfl, hhand c' hne⟩) ?_ ?_ ?_
      · rw [value_of_none _ hnone]
        omega
      · intro conn' hget
        rw [hnone] at hget
        cases hget
      · rintro s stmt hget _ rfl
        have := connUses_of_stmt hget
        omega
    · refine Kept.setConn hconn hsame fun conn' hget => ?_
      rw [hnone] at hget
      cases hget
  · rw [if_neg hlast]
    have hnew := get_put_self hconn { conn with refCount := conn.refCount - 1 }
    refine ⟨_, rfl, ?_, ⟨rfl, rfl, ?_⟩, rfl⟩
    · refine h.setConn (c := c)
        (fun c' hne => ⟨get_put_of_ne hne _, rfl, hhand c' hne⟩) ?_ ?_ ?_
      · rw [value_of_get _ hnew]
        change conn.refCount - 1 = _
        omega
      · intro conn' hget
        rw [hnew] at hget
        cases hget
        refine ⟨Nat.pos_of_ne_zero hlast, fun hhandle => ?_⟩
        exact listed_imp (h.listed hconn hhandle) rfl (·.congr rfl rfl)
      · rintro s stmt hget hhandle rfl
        obtain ⟨conn', hconn', hhandle'⟩ := h.connected hget hhandle
        rw [hconn] at hconn'
        cases hconn'
        exact ⟨_, hnew, hhandle'⟩
    · refine Kept.setConn hconn (fun c' hne => get_put_of_ne hne _) fun conn' hget => ?_
      rw [hnew] at hget
      cases hget
      exact ⟨rfl, rfl, fun _ => rfl⟩

theorem Counted.setVar (h : Counted heap refs hand stale) {vars : Store VarObject}
    {held hand' stale' : List Nat}
    (hother : ∀ v', v ≠ v' → get vars v' = get heap.vars v' ∧
      held.count v' = refs.vars.count v' ∧ stale'.count v' = stale.count v')
    (hvalue : value VarObject.refCount vars v + stale'.count v =
      held.count v + heap.unreleased.count v + varUses heap v)
    (hpos : ∀ var', get vars v = some var' → 0 < var'.refCount)
    (huses : ∀ c, hand'.count c + total (fun var => if var.conn = c then 1 else 0) vars =
      hand.count c + total (fun var => if var.conn = c then 1 else 0) heap.vars) :
    Counted { heap with vars } { refs with vars := held } hand' stale' where
  conns c := by
    have hc := h.conns c
    have := huses c
    simp only [connUses] at hc ⊢
    omega
  vars v' := by
    rcases eq_or_ne v v' with rfl | hne
    · exact hvalue
    · obtain ⟨hget, hheld, hstale⟩ := hother v' hne
      rw [hheld, hstale]
      refine Eq.trans ?_ (h.vars v')
      rw [value, value, hget]
  stmts := h.stmts
  conn_pos := h.conn_pos
  var_pos := by
    intro v' var' hget
    rcases eq_or_ne v v' with rfl | hne
    · exact hpos var' hget
    · exact h.var_pos ((hother v' hne).1 ▸ hget)
  listed := by
    intro c conn hget hhandle
    exact listed_imp (h.listed hget hhandle) rfl (·.congr rfl rfl)
  connected := h.connected

theorem Frame.setVars (heap : Heap) (vars : Store VarObject) : Frame heap { heap with vars } where
  stmts := rfl
  unreleased := rfl
  kept := ⟨fun h => ⟨_, h, rfl, rfl, fun _ => rfl⟩⟩

/-- A reference to a variable is released while the pointer to it is still there. -/
theorem releaseVar_spec (h : Counted heap refs hand stale)
    (hv : stale.count v < refs.vars.count v + heap.unreleased.count v + varUses heap v)
    (depth : Nat) :
    ∃ heap', heap.releaseVar (Heap.releaseConn (depth + 1)) v = some heap' ∧
      Counted heap' refs hand (v :: stale) ∧ Frame heap heap' := by
  obtain ⟨var, hvar, hcount⟩ := h.var_of_uses hv
  have hstale : ∀ v', v ≠ v' → (v :: stale).count v' = stale.count v' := fun v' hne =>
    List.count_cons_of_ne hne
  have hpos := h.var_pos hvar
  simp only [Heap.releaseVar, hvar, decrement_pos hpos, Option.bind_eq_bind, Option.bind_some]
  have hput := get_put_self hvar { var with refCount := var.refCount - 1 }
  by_cases hlast : var.refCount - 1 = 0
  · rw [if_pos hlast]
    have hnone := get_free (put heap.vars v { var with refCount := var.refCount - 1 }) v
    have hfreed : Counted { heap with
        vars := free (put heap.vars v { var with refCount := var.refCount - 1 }) v } refs
        (var.conn :: hand) (v :: stale) := by
      refine h.setVar (v := v) (fun v' hne => ⟨?_, rfl, hstale v' hne⟩) ?_ ?_ fun c => ?_
      · rw [get_free_of_ne hne, get_put_of_ne hne]
      · rw [value_of_none _ hnone, List.count_cons_self]
        omega
      · intro var' hget
        rw [hnone] at hget
        cases hget
      · have hfree := total_free (fun var => if var.conn = c then 1 else 0) hput
        have := total_put (fun var => if var.conn = c then 1 else 0) hvar
          { var with refCount := var.refCount - 1 }
        rw [List.count_cons, beq_eq_decide]
        simp only [decide_eq_true_eq] at this hfree ⊢
        omega
    obtain ⟨heap', hrelease, hcounted, hframe, _⟩ := releaseConn_spec hfreed depth
    refine ⟨heap', ?_, hcounted, (Frame.setVars heap _).trans hframe⟩
    simp only [Heap.varFree, Heap.putVar, hput, Option.bind_eq_bind, Option.bind_some]
    exact hrelease
  · rw [if_neg hlast]
    refine ⟨_, rfl, ?_, Frame.setVars heap _⟩
    refine h.setVar (v := v) (fun v' hne => ⟨get_put_of_ne hne _, rfl, hstale v' hne⟩) ?_ ?_ ?_
    · rw [value_of_get _ hput, List.count_cons_self]
      change var.refCount - 1 + _ = _
      omega
    · intro var' hget
      rw [hput] at hget
      cases hget
      exact Nat.pos_of_ne_zero hlast
    · intro c
      have := total_put (fun var => if var.conn = c then 1 else 0) hvar
        { var with refCount := var.refCount - 1 }
      simp only at this
      omega

theorem releaseVars_spec (h : Counted heap refs hand stale) (vars : List Nat)
    (hvars : ∀ v, vars.count v + stale.count v ≤
      refs.vars.count v + heap.unreleased.count v + varUses heap v) (depth : Nat) :
    ∃ heap', heap.releaseVars (Heap.releaseConn (depth + 1)) vars = some heap' ∧
      Counted heap' refs hand (vars ++ stale) ∧ Frame heap heap' := by
  induction vars generalizing heap stale with
  | nil => exact ⟨heap, rfl, h, .refl heap⟩
  | cons v vars ih =>
      have hfirst := hvars v
      rw [List.count_cons_self] at hfirst
      obtain ⟨heap₁, hrelease, hcounted, hframe⟩ := releaseVar_spec h (v := v) (by omega) depth
      obtain ⟨heap', hrest, hcounted', hframe'⟩ := ih hcounted (by
        intro v'
        have := hvars v'
        rw [hframe.varUses_eq, hframe.unreleased]
        rw [List.count_cons] at this ⊢
        omega)
      refine ⟨heap', ?_, hcounted'.congr_stale fun v' => ?_, hframe.trans hframe'⟩
      · rw [Heap.releaseVars, List.foldlM_cons, hrelease]
        exact hrest
      · simp only [List.count_append, List.count_cons]
        omega

theorem Counted.setStmt (h : Counted heap refs hand stale) (hs : get heap.stmts s = some stmt)
    {stale' : List Nat} (hcount : stmt'.refCount = stmt.refCount) (hconn : stmt'.conn = stmt.conn)
    (hhandle : stmt'.handle = stmt.handle) (hslot : stmt'.openSlotNum = stmt.openSlotNum)
    (huses : ∀ v, stale'.count v + uses v stmt = stale.count v + uses v stmt') :
    Counted (heap.putStmt s stmt') refs hand stale' where
  conns c := by
    have hc := h.conns c
    have := total_put (fun stmt => if stmt.conn = c then 1 else 0) hs stmt'
    rw [connUses] at hc ⊢
    simp only [hconn] at this
    simp only [Heap.putStmt]
    omega
  vars v := by
    have hv := h.vars v
    have := huses v
    have := total_put (uses v) hs stmt'
    rw [varUses] at hv ⊢
    simp only [Heap.putStmt]
    omega
  stmts s' := by
    refine Eq.trans ?_ (h.stmts s')
    rcases eq_or_ne s s' with rfl | hne
    · rw [Heap.putStmt, value_of_get _ (get_put_self hs stmt'), value_of_get _ hs, hcount]
    · rw [Heap.putStmt, value, get_put_of_ne hne, value]
  conn_pos := h.conn_pos
  var_pos := h.var_pos
  listed := by
    intro c conn hget hopen
    refine listed_imp (h.listed hget hopen) rfl fun hlists => ⟨hlists.lists, ?_⟩
    intro slot s'
    rw [hlists.mem_iff]
    rcases eq_or_ne s s' with rfl | hne
    · rw [hs, Heap.putStmt, get_put_self hs]
      simp [hconn, hhandle, hslot]
    · rw [Heap.putStmt, get_put_of_ne hne]
  connected := by
    intro s' stmt₁ hget hopen
    rcases eq_or_ne s s' with rfl | hne
    · rw [Heap.putStmt, get_put_self hs] at hget
      cases hget
      rw [hconn]
      exact h.connected hs (hhandle ▸ hopen)
    · rw [Heap.putStmt, get_put_of_ne hne] at hget
      exact h.connected hget hopen

end OracleNIO.HandleCounts
