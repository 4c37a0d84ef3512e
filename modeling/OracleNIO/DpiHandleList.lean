import OracleNIO.SlotTable
import OracleNIO.LabelledRuns

/-!
The list of handles of ODPI-C (`dpiHandleList.c`), in which a connection keeps its open
statements: a handle stays in the slot that it got until it is removed.
-/

namespace OracleNIO.Dpi

open RingBuffer SlotTable LabelledRuns

/-- A `NULL` in a slot is `none`; the number of slots is that of the cells.  The counters,
of 32 bits in the source, are unbounded: `numUsedSlots` counts the handles in the list, of
which it would take `2 ^ 32` at once to start again at 0, and a removal from an empty list
leaves it at 0. -/
structure HandleList (Handle : Type) where
  handles : List (Option Handle)
  numUsedSlots : Nat
  currentPos : Nat
deriving DecidableEq, Repr

variable {Handle : Type}

namespace HandleList

def numSlots (list : HandleList Handle) : Nat :=
  list.handles.length

/-- `dpiHandleList__create`, when its memory could be allocated. -/
def create : HandleList Handle :=
  ⟨List.replicate 8 none, 0, 0⟩

/-- `dpiHandleList__addHandle`: the number of the slot, or a failure if the memory for
more slots is not `allocated`. -/
def addHandle (list : HandleList Handle) (handle : Handle) (allocated : Bool) :
    Option (Nat × HandleList Handle) :=
  if list.numUsedSlots = list.numSlots then
    if allocated then
      let slotNum := list.numUsedSlots
      some (slotNum,
        { handles := (list.handles ++ List.replicate 8 none).set slotNum (some handle)
          numUsedSlots := list.numUsedSlots + 1
          currentPos := list.numUsedSlots + 1 })
    else none
  else
    let slotNum := search list.handles list.currentPos list.numSlots
    some (slotNum,
      { handles := list.handles.set slotNum (some handle)
        numUsedSlots := list.numUsedSlots + 1
        currentPos := next list.numSlots slotNum })

/-- `dpiHandleList__removeHandle` -/
def removeHandle (list : HandleList Handle) (slotNum : Nat) : HandleList Handle :=
  { list with
    handles := list.handles.set slotNum none
    numUsedSlots := list.numUsedSlots - 1 }

end HandleList

/-- The list has the entries, each in its slot. -/
structure Lists (list : HandleList Handle) (entries : List (Nat × Handle)) : Prop where
  holds : Holds list.handles entries
  numUsedSlots : list.numUsedSlots = entries.length
  currentPos_lt : list.currentPos < list.numSlots

section Calls

variable {list list' : HandleList Handle} {entries : List (Nat × Handle)} {handle : Handle}
  {slotNum : Nat} {allocated : Bool}

theorem lists_create : Lists (HandleList.create : HandleList Handle) [] where
  holds := .nil 8
  numUsedSlots := rfl
  currentPos_lt := Nat.zero_lt_succ 7

theorem Lists.addHandle_full (h : Lists list entries) (hfull : entries.length = list.numSlots)
    (handle : Handle) :
    list.addHandle handle false = none ∧
      ∃ list', list.addHandle handle true = some (entries.length, list') ∧
        list'.numSlots = list.numSlots + 8 ∧ Lists list' ((entries.length, handle) :: entries) := by
  have hused : list.numUsedSlots = list.numSlots := h.numUsedSlots.trans hfull
  have hfree : (list.handles ++ List.replicate 8 none)[entries.length]? = some none := by
    rw [hfull, HandleList.numSlots, List.getElem?_append_right (Nat.le_refl _)]
    simp
  have hsize : ((list.handles ++ List.replicate 8 none).set entries.length (some handle)).length =
      list.numSlots + 8 := by
    rw [List.length_set, List.length_append, List.length_replicate]
    rfl
  rw [HandleList.addHandle, HandleList.addHandle, if_pos hused, if_pos hused, h.numUsedSlots]
  refine ⟨rfl, _, rfl, hsize, (h.holds.append_free 8).add hfree handle, rfl, ?_⟩
  change entries.length + 1 < List.length _
  rw [hsize]
  omega

theorem Lists.addHandle_room (h : Lists list entries) (hroom : entries.length < list.numSlots)
    (handle : Handle) (allocated : Bool) :
    ∃ slotNum list', list.addHandle handle allocated = some (slotNum, list') ∧
      list'.numSlots = list.numSlots ∧ slotNum ∉ entries.map Prod.fst ∧
        Lists list' ((slotNum, handle) :: entries) := by
  have hused : list.numUsedSlots ≠ list.numSlots := by
    rw [h.numUsedSlots]
    exact Nat.ne_of_lt hroom
  have hfree := search_free h.currentPos_lt (h.holds.exists_free hroom)
  have hslot : search list.handles list.currentPos list.numSlots < list.numSlots :=
    (List.getElem?_eq_some_iff.mp hfree).1
  rw [HandleList.addHandle, if_neg hused]
  refine ⟨_, _, rfl, List.length_set, ?_, h.holds.add hfree handle, ?_, ?_⟩
  · rw [h.holds.mem_slots, HandleList.numSlots, hfree]
    exact Bool.false_ne_true
  · exact congrArg (· + 1) h.numUsedSlots
  · change next _ _ < List.length _
    rw [List.length_set]
    exact next_lt hslot

theorem Lists.addHandle (h : Lists list entries)
    (hadd : list.addHandle handle allocated = some (slotNum, list')) :
    slotNum ∉ entries.map Prod.fst ∧ Lists list' ((slotNum, handle) :: entries) ∧
      (list'.numSlots = list.numSlots ∨
        entries.length = list.numSlots ∧ list'.numSlots = list.numSlots + 8) := by
  rcases Nat.lt_or_eq_of_le h.holds.length_le with hroom | hfull
  · obtain ⟨slot, grown, heq, hsize, hslot, hlists⟩ := h.addHandle_room hroom handle allocated
    rw [heq] at hadd
    cases hadd
    exact ⟨hslot, hlists, .inl hsize⟩
  · obtain ⟨hfailed, grown, heq, hsize, hlists⟩ := h.addHandle_full hfull handle
    cases allocated with
    | false =>
        rw [hfailed] at hadd
        cases hadd
    | true =>
        rw [heq] at hadd
        cases hadd
        refine ⟨?_, hlists, .inr ⟨hfull, hsize⟩⟩
        rw [h.holds.mem_slots, List.getElem?_eq_none (Nat.le_of_eq hfull.symm)]
        exact Bool.false_ne_true

theorem Lists.removeHandle [DecidableEq Handle] (h : Lists list entries)
    (hmem : (slotNum, handle) ∈ entries) :
    Lists (list.removeHandle slotNum) (entries.erase (slotNum, handle)) where
  holds := h.holds.remove hmem
  numUsedSlots := by
    rw [List.length_erase_of_mem hmem, ← h.numUsedSlots]
    rfl
  currentPos_lt := by
    exact Nat.lt_of_lt_of_eq h.currentPos_lt List.length_set.symm

end Calls

/-- `entries` are the handles that have been added and not removed, with the numbers that
their users got for them. -/
structure HandleUsers (Handle : Type) where
  list : HandleList Handle
  entries : List (Nat × Handle)

/-- A call on the list; a user that removes a handle says which one. -/
inductive HandleLabel (Handle : Type) where
  | addHandle (handle : Handle) (allocated : Bool)
  | removeHandle (slotNum : Nat) (handle : Handle)

namespace HandleUsers

/-- Nothing has been added. -/
def init : HandleUsers Handle :=
  ⟨.create, []⟩

variable [DecidableEq Handle]

/-- A handle is removed by its user, once. -/
def step (s : HandleUsers Handle) : HandleLabel Handle → Option (HandleUsers Handle)
  | .addHandle handle allocated =>
      match s.list.addHandle handle allocated with
      | some (slotNum, list) => some ⟨list, (slotNum, handle) :: s.entries⟩
      | none => some s
  | .removeHandle slotNum handle =>
      if (slotNum, handle) ∈ s.entries then
        some ⟨s.list.removeHandle slotNum, s.entries.erase (slotNum, handle)⟩
      else none

def run : HandleUsers Handle → List (HandleLabel Handle) → Option (HandleUsers Handle)
  | s, [] => some s
  | s, label :: labels => (s.step label).bind fun s' => s'.run labels

end HandleUsers

variable [DecidableEq Handle] {s s' : HandleUsers Handle} {label : HandleLabel Handle}
  {labels : List (HandleLabel Handle)}

theorem runs_handleUsers : Runs (@HandleUsers.step Handle _) HandleUsers.run where
  nil _ := rfl
  cons _ _ _ := rfl

theorem lists_step (h : Lists s.list s.entries) (hstep : s.step label = some s') :
    Lists s'.list s'.entries ∧ (s'.list.numSlots = s.list.numSlots ∨
      s'.entries.length = s.list.numSlots + 1 ∧ s'.list.numSlots = s.list.numSlots + 8) := by
  cases label with
  | addHandle handle allocated =>
      rw [HandleUsers.step] at hstep
      split at hstep
      case h_1 slotNum list hadd =>
          cases hstep
          obtain ⟨_, hlists, hsize⟩ := h.addHandle hadd
          refine ⟨hlists, hsize.imp_right fun ⟨hfull, hgrown⟩ => ⟨?_, hgrown⟩⟩
          rw [← hfull]
          rfl
      case h_2 =>
          cases hstep
          exact ⟨h, .inl rfl⟩
  | removeHandle slotNum handle =>
      rw [HandleUsers.step] at hstep
      split at hstep
      case isTrue hmem =>
          cases hstep
          exact ⟨h.removeHandle hmem, .inl List.length_set⟩
      case isFalse => cases hstep

/-- After every run the list holds what its users have added and not removed, each handle
in a slot of its own, and the number of used slots is theirs. -/
theorem lists_run (hrun : HandleUsers.init.run labels = some s) :
    (s.entries.map Prod.fst).Nodup ∧ s.list.numUsedSlots = s.entries.length ∧
      ∀ slotNum handle, (slotNum, handle) ∈ s.entries ↔
        s.list.handles[slotNum]? = some (some handle) := by
  have h : Lists s.list s.entries :=
    runs_handleUsers.invariant (I := fun s => Lists s.list s.entries)
      (fun h _ hstep => (lists_step h hstep).1) lists_create hrun
  exact ⟨h.holds.nodup, h.numUsedSlots, fun _ _ => h.holds.mem_iff⟩

theorem lists_run_reused :
    ∃ s, HandleUsers.init.run [.addHandle 7 true, .addHandle 8 true, .removeHandle 0 7,
        .addHandle 9 true] = some s ∧ (s.entries.map Prod.fst).Nodup ∧
      s.list.numUsedSlots = s.entries.length ∧
        ∀ slotNum handle, (slotNum, handle) ∈ s.entries ↔
          s.list.handles[slotNum]? = some (some handle) :=
  ⟨_, rfl, lists_run (rfl : HandleUsers.init.run [.addHandle 7 true, .addHandle 8 true,
    .removeHandle 0 7, .addHandle 9 true] = _)⟩

/-- While at most `n` handles are in the list it has at most seven slots more, or eight. -/
theorem numSlots_le (hrun : HandleUsers.init.run labels = some s) {n : Nat}
    (hfew : ∀ before after s₁, labels = before ++ after →
      HandleUsers.init.run before = some s₁ → s₁.entries.length ≤ n) :
    s.list.numSlots ≤ max 8 (n + 7) := by
  have h : Lists s.list s.entries ∧ s.list.numSlots ≤ max 8 (n + 7) := by
    refine runs_handleUsers.invariant_within
      (I := fun s => Lists s.list s.entries ∧ s.list.numSlots ≤ max 8 (n + 7))
      (P := fun s => s.entries.length ≤ n) ?_ ⟨lists_create, Nat.le_max_left _ _⟩ hrun hfew
    rintro s s' ⟨h, hsize⟩ hn label hstep
    obtain ⟨hlists, hsame | ⟨hlength, hgrown⟩⟩ := lists_step h hstep
    · exact ⟨hlists, hsame ▸ hsize⟩
    · exact ⟨hlists, by omega⟩
  exact h.2

/-- Handles are added and removed in turn, by their numbers. -/
def turns : List (HandleLabel Nat) :=
  [.addHandle 7 true, .addHandle 8 true, .removeHandle 0 7, .addHandle 9 true,
    .removeHandle 1 8, .removeHandle 2 9, .addHandle 7 true]

theorem numSlots_le_turns :
    ∃ s, HandleUsers.init.run turns = some s ∧ s.entries = [(3, 7)] ∧
      s.list.numSlots ≤ max 8 (2 + 7) := by
  have hfew : ∀ before after s₁, turns = before ++ after →
      HandleUsers.init.run before = some s₁ → s₁.entries.length ≤ 2 := by
    intro before after s₁ hlabels hbefore
    have htake : ∀ k, k ≤ turns.length → (HandleUsers.init.run (turns.take k)).all
        (fun s => decide (s.entries.length ≤ 2)) = true := by decide
    have hlength := within_of_take htake hlabels hbefore
    exact of_decide_eq_true hlength
  have hrun : ∃ s, HandleUsers.init.run turns = some s ∧ s.entries = [(3, 7)] := ⟨_, rfl, rfl⟩
  obtain ⟨s, hrun, hentries⟩ := hrun
  exact ⟨s, hrun, hentries, numSlots_le hrun hfew⟩

end OracleNIO.Dpi
