import Mathlib

/-!
Stores of objects that are allocated at new places and freed, and sums over the objects
that a store has.
-/

namespace OracleNIO.ObjectStore

/-- A place that has been freed is `none`. -/
abbrev Store (α : Type*) := List (Option α)

variable {α : Type*} {store : Store α} {i j : Nat} {x y : α}

/-- The object at the place, if it is alive. -/
def get (store : Store α) (i : Nat) : Option α :=
  (store[i]?).join

/-- The object at the place is changed. -/
def put (store : Store α) (i : Nat) (x : α) : Store α :=
  store.set i (some x)

/-- The object at the place is gone. -/
def free (store : Store α) (i : Nat) : Store α :=
  store.set i none

/-- The new object has the place `store.length`. -/
def alloc (store : Store α) (x : α) : Store α :=
  store ++ [some x]

section Get

theorem getElem?_of_get (h : get store i = some x) : store[i]? = some (some x) :=
  Option.join_eq_some_iff.mp h

theorem lt_of_get (h : get store i = some x) : i < store.length :=
  (List.getElem?_eq_some_iff.mp (getElem?_of_get h)).1

theorem get_put_self (h : get store i = some x) (y : α) : get (put store i y) i = some y := by
  rw [get, put, List.getElem?_set_self (lt_of_get h)]
  rfl

theorem get_put_of_ne (h : i ≠ j) (y : α) : get (put store i y) j = get store j := by
  rw [get, put, List.getElem?_set_ne h]
  rfl

theorem get_free (store : Store α) (i : Nat) : get (free store i) i = none := by
  rw [get, free]
  by_cases hlt : i < store.length
  · rw [List.getElem?_set_self hlt]
    rfl
  · rw [List.getElem?_eq_none (by simpa using hlt)]
    rfl

theorem get_free_of_ne (h : i ≠ j) : get (free store i) j = get store j := by
  rw [get, free, List.getElem?_set_ne h]
  rfl

theorem get_alloc_self (store : Store α) (x : α) : get (alloc store x) store.length = some x := by
  rw [get, alloc, List.getElem?_concat_length]
  rfl

theorem get_alloc_of_ne (h : i ≠ store.length) : get (alloc store x) i = get store i := by
  rw [get, alloc, List.getElem?_append]
  split
  case isTrue => rfl
  case isFalse hi =>
      have hbeyond : [some x][i - store.length]? = none :=
        List.getElem?_eq_none (by simp; omega)
      rw [hbeyond, get, List.getElem?_eq_none (Nat.le_of_not_lt hi)]

theorem get_length (store : Store α) : get store store.length = none := by
  rw [get, List.getElem?_eq_none (Nat.le_refl _)]
  rfl

theorem put_put (store : Store α) (i : Nat) (x y : α) : put (put store i x) i y = put store i y :=
  List.set_set ..

theorem put_get (h : get store i = some x) : put store i x = store := by
  obtain ⟨hlt, hx⟩ := List.getElem?_eq_some_iff.mp (getElem?_of_get h)
  rw [put, ← hx, List.set_getElem_self]

end Get

/-- What the object at the place counts, or 0 where there is none. -/
def value (f : α → Nat) (store : Store α) (i : Nat) : Nat :=
  (get store i).elim 0 f

/-- What all objects count together. -/
def total (f : α → Nat) (store : Store α) : Nat :=
  (store.map fun place => place.elim 0 f).sum

section Total

variable (f : α → Nat)

theorem total_cons (place : Option α) (store : Store α) :
    total f (place :: store) = place.elim 0 f + total f store := by
  rw [total, List.map_cons, List.sum_cons]
  rfl

theorem value_of_get (h : get store i = some x) : value f store i = f x := by
  rw [value, h]
  rfl

theorem value_of_none (h : get store i = none) : value f store i = 0 := by
  rw [value, h]
  rfl

theorem total_set (place : Option α) (h : i < store.length) :
    total f (store.set i place) + value f store i = total f store + place.elim 0 f := by
  induction store generalizing i with
  | nil => simp at h
  | cons first store ih =>
      cases i with
      | zero =>
          simp only [value, get, List.set_cons_zero, total_cons, List.getElem?_cons_zero,
            Option.join_some]
          omega
      | succ i =>
          have hrest := ih (Nat.lt_of_succ_lt_succ h)
          simp only [value, get, List.set_cons_succ, total_cons, List.getElem?_cons_succ]
            at hrest ⊢
          omega

theorem total_put (h : get store i = some x) (y : α) :
    total f (put store i y) + f x = total f store + f y := by
  rw [← value_of_get f h]
  exact total_set f (some y) (lt_of_get h)

theorem total_free (h : get store i = some x) : total f (free store i) + f x = total f store := by
  rw [← value_of_get f h]
  exact total_set f none (lt_of_get h)

theorem total_alloc (store : Store α) (x : α) :
    total f (alloc store x) = total f store + f x := by
  simp [total, alloc]

theorem le_total (h : get store i = some x) : f x ≤ total f store := by
  have := total_free f h
  omega

theorem total_pos (h : 0 < total f store) : ∃ i x, get store i = some x ∧ 0 < f x := by
  induction store with
  | nil => cases h
  | cons first store ih =>
      rw [total_cons] at h
      cases first with
      | some x =>
          by_cases hx : 0 < f x
          · exact ⟨0, x, rfl, hx⟩
          · obtain ⟨i, y, hy⟩ := ih (by simpa [Nat.eq_zero_of_not_pos hx] using h)
            exact ⟨i + 1, y, hy⟩
      | none =>
          obtain ⟨i, y, hy⟩ := ih (by simpa using h)
          exact ⟨i + 1, y, hy⟩

theorem isSome_iff_value_pos (h : ∀ {x}, get store i = some x → 0 < f x) :
    (get store i).isSome ↔ 0 < value f store i := by
  cases hget : get store i with
  | none => simp [value_of_none f hget]
  | some x => simpa [value_of_get f hget] using h hget

theorem total_pos_iff : 0 < total f store ↔ ∃ i x, get store i = some x ∧ 0 < f x := by
  refine ⟨total_pos f, ?_⟩
  rintro ⟨i, x, hget, hx⟩
  exact Nat.lt_of_lt_of_le hx (le_total f hget)

end Total

end OracleNIO.ObjectStore
