import Mathlib.Data.List.Basic

/-!
Circular queues in a list of cells.  Elements are taken at the front and put in at the
back; both positions start again at 0 behind the last cell.  There is no count of the
elements, so a queue that fills all cells cannot be told from an empty one.
-/

namespace OracleNIO.RingBuffer

variable {α : Type*}

/-- The position after `pos`. -/
def next (size pos : Nat) : Nat :=
  if pos + 1 = size then 0 else pos + 1

/-- The position `offset` places after `front`, for an offset of at most `size`. -/
def place (size front offset : Nat) : Nat :=
  if front + offset < size then front + offset else front + offset - size

section Positions

variable {size front offset : Nat}

theorem next_lt (h : front < size) : next size front < size := by
  unfold next
  split <;> omega

theorem place_lt (hfront : front < size) (hoffset : offset ≤ size) :
    place size front offset < size := by
  unfold place
  split <;> omega

theorem place_zero (hfront : front < size) : place size front 0 = front :=
  if_pos hfront

theorem place_size (size front : Nat) : place size front size = front := by
  unfold place
  split <;> omega

theorem next_place (hfront : front < size) (hoffset : offset < size) :
    next size (place size front offset) = place size front (offset + 1) := by
  unfold next place
  split <;> split <;> split <;> omega

theorem place_next (hoffset : offset < size) :
    place size (next size front) offset = place size front (offset + 1) := by
  unfold next place
  split <;> split <;> split <;> omega

/-- The number of places from `front` to `back`. -/
def between (size front back : Nat) : Nat :=
  if front ≤ back then back - front else size - front + back

theorem between_lt {back : Nat} (hfront : front < size) (hback : back < size) :
    between size front back < size := by
  unfold between
  split <;> omega

theorem place_between {back : Nat} (hfront : front < size) (hback : back < size) :
    place size front (between size front back) = back := by
  unfold place between
  split <;> split <;> omega

theorem place_injective {offset' : Nat} (hoffset : offset < size) (hoffset' : offset' < size)
    (h : place size front offset = place size front offset') : offset = offset' := by
  unfold place at h
  split at h <;> split at h <;> omega

end Positions

/-- The cells from `front` to `back` hold the queue, and it does not fill all cells. -/
structure Queue (cells : List (Option α)) (front back : Nat) (queue : List α) : Prop where
  front_lt : front < cells.length
  length_lt : queue.length < cells.length
  back_eq : back = place cells.length front queue.length
  cell : ∀ {i x}, queue[i]? = some x → cells[place cells.length front i]? = some (some x)

variable {cells : List (Option α)} {front back pos : Nat} {queue : List α} {x : α}

theorem queue_nil (h : pos < cells.length) : Queue cells pos pos [] where
  front_lt := h
  length_lt := Nat.zero_lt_of_lt h
  back_eq := (place_zero h).symm
  cell h := by simp at h

namespace Queue

theorem back_lt (h : Queue cells front back queue) : back < cells.length := by
  rw [h.back_eq]
  exact place_lt h.front_lt (Nat.le_of_lt h.length_lt)

theorem front_eq_back_iff (h : Queue cells front back queue) : front = back ↔ queue = [] := by
  have hpositive : 0 < cells.length := Nat.zero_lt_of_lt h.front_lt
  constructor
  · intro heq
    have hplace : place cells.length front 0 = place cells.length front queue.length := by
      rw [place_zero h.front_lt, ← h.back_eq, heq]
    exact List.eq_nil_of_length_eq_zero (place_injective hpositive h.length_lt hplace).symm
  · rintro rfl
    exact (h.back_eq.trans (place_zero h.front_lt)).symm

theorem front_cell (h : Queue cells front back (x :: queue)) : cells[front]? = some (some x) := by
  have hcell := h.cell (i := 0) (x := x) rfl
  rwa [place_zero h.front_lt] at hcell

theorem tail (h : Queue cells front back (x :: queue)) :
    Queue cells (next cells.length front) back queue := by
  have hlength : queue.length + 1 < cells.length := h.length_lt
  refine ⟨next_lt h.front_lt, by omega, ?_, ?_⟩
  · rw [place_next (by omega)]
    exact h.back_eq
  · intro i y hy
    obtain ⟨hi, _⟩ := List.getElem?_eq_some_iff.mp hy
    rw [place_next (by omega)]
    exact h.cell (i := i + 1) (by simpa using hy)

theorem set (h : Queue cells front back queue) {pos : Nat} (value : Option α)
    (hpos : ∀ i < queue.length, place cells.length front i ≠ pos) :
    Queue (cells.set pos value) front back queue where
  front_lt := by rw [List.length_set]; exact h.front_lt
  length_lt := by rw [List.length_set]; exact h.length_lt
  back_eq := by rw [List.length_set]; exact h.back_eq
  cell := by
    intro i y hy
    obtain ⟨hi, _⟩ := List.getElem?_eq_some_iff.mp hy
    rw [List.length_set, List.getElem?_set_ne (hpos i hi).symm]
    exact h.cell hy

theorem pop (h : Queue cells front back (x :: queue)) :
    Queue (cells.set front none) (next cells.length front) back queue := by
  have hlength : queue.length + 1 < cells.length := h.length_lt
  apply h.tail.set
  intro i hi heq
  rw [place_next (by omega)] at heq
  have hzero := place_injective (by omega) (Nat.zero_lt_of_lt h.front_lt)
    (heq.trans (place_zero h.front_lt).symm)
  omega

theorem push (h : Queue cells front back queue) (hroom : queue.length + 1 < cells.length)
    (x : α) : Queue (cells.set back (some x)) front (next cells.length back) (queue ++ [x]) := by
  have hother : ∀ i < queue.length, place cells.length front i ≠ back := by
    intro i hi heq
    rw [h.back_eq] at heq
    have := place_injective (by omega) h.length_lt heq
    omega
  refine ⟨?_, ?_, ?_, ?_⟩
  · rw [List.length_set]
    exact h.front_lt
  · rw [List.length_set, List.length_append, List.length_singleton]
    exact hroom
  · rw [List.length_set, List.length_append, List.length_singleton, h.back_eq]
    exact next_place h.front_lt h.length_lt
  · intro i y hy
    rcases Nat.lt_trichotomy i queue.length with hi | rfl | hi
    · rw [List.getElem?_append_left hi] at hy
      exact (h.set (some x) hother).cell hy
    · rw [List.getElem?_concat_length] at hy
      cases hy
      rw [List.length_set, ← h.back_eq, List.getElem?_set_self h.back_lt]
    · rw [List.getElem?_append_right (Nat.le_of_lt hi)] at hy
      have : i - queue.length ≠ 0 := by omega
      simp [this] at hy

/-- An element in the last free cell brings the positions together. -/
theorem next_back_of_full (h : Queue cells front back queue)
    (hfull : queue.length + 1 = cells.length) : next cells.length back = front := by
  rw [h.back_eq, next_place h.front_lt h.length_lt, hfull, place_size]

end Queue

/-- What is in the cells, from the front on. -/
def contents (cells : List (Option α)) : Nat → Nat → List α
  | _, 0 => []
  | front, n + 1 =>
      (cells[front]?.join).toList ++ contents cells (next cells.length front) n

theorem Queue.between_eq (h : Queue cells front back queue) :
    between cells.length front back = queue.length := by
  have hlength := h.length_lt
  have hfront := h.front_lt
  rw [h.back_eq, between, place]
  split <;> split <;> omega

theorem contents_queue (h : Queue cells front back queue) :
    contents cells front queue.length = queue := by
  induction queue generalizing front with
  | nil => rfl
  | cons x queue ih =>
      rw [List.length_cons, contents, h.front_cell, ih h.tail]
      rfl

end OracleNIO.RingBuffer
