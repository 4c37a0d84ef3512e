import Mathlib.Data.List.Nodup
import OracleNIO.RingBuffer

/-!
Tables of slots, each of which is free or holds a value.  A free slot is searched in a
circle.
-/

namespace OracleNIO.SlotTable

open RingBuffer

variable {α : Type*} {cells : List (Option α)} {entries : List (Nat × α)} {i pos : Nat} {x : α}

/-- The entries are the slots in use with their values. -/
structure Holds (cells : List (Option α)) (entries : List (Nat × α)) : Prop where
  mem_iff : ∀ {i x}, (i, x) ∈ entries ↔ cells[i]? = some (some x)
  nodup : (entries.map Prod.fst).Nodup

namespace Holds

theorem entries_nodup (h : Holds cells entries) : entries.Nodup :=
  List.Nodup.of_map Prod.fst h.nodup

theorem mem_slots (h : Holds cells entries) :
    i ∈ entries.map Prod.fst ↔ (cells[i]?).join.isSome := by
  constructor
  · intro hi
    obtain ⟨⟨_, x⟩, hmem, rfl⟩ := List.mem_map.mp hi
    rw [h.mem_iff.mp hmem]
    rfl
  · intro hi
    obtain ⟨x, hx⟩ := Option.isSome_iff_exists.mp hi
    exact List.mem_map.mpr ⟨(i, x), h.mem_iff.mpr (Option.join_eq_some_iff.mp hx), rfl⟩

theorem slots_perm (h : Holds cells entries) :
    (entries.map Prod.fst).Perm
      ((List.range cells.length).filter fun i => (cells[i]?).join.isSome) := by
  refine (List.perm_ext_iff_of_nodup h.nodup (List.nodup_range.filter _)).mpr fun i => ?_
  rw [h.mem_slots, List.mem_filter, List.mem_range]
  refine ⟨fun hi => ⟨?_, hi⟩, And.right⟩
  by_contra hlength
  rw [List.getElem?_eq_none (Nat.le_of_not_lt hlength)] at hi
  cases hi

theorem length_le (h : Holds cells entries) : entries.length ≤ cells.length := by
  have hlength := h.slots_perm.length_eq
  rw [List.length_map] at hlength
  rw [hlength]
  exact Nat.le_trans (List.length_filter_le _ _) (Nat.le_of_eq List.length_range)

theorem exists_free (h : Holds cells entries) (hroom : entries.length < cells.length) :
    ∃ i : Nat, cells[i]? = some none := by
  by_contra hfull
  push Not at hfull
  have hall : ∀ i ∈ List.range cells.length, (cells[i]?).join.isSome := by
    intro i hi
    obtain ⟨cell, hcell⟩ : ∃ cell, cells[i]? = some cell :=
      ⟨_, List.getElem?_eq_getElem (List.mem_range.mp hi)⟩
    cases cell with
    | none => exact (hfull i hcell).elim
    | some x =>
        rw [hcell]
        rfl
  have hlength := h.slots_perm.length_eq
  rw [List.filter_eq_self.mpr hall, List.length_map, List.length_range] at hlength
  omega

theorem nil (n : Nat) : Holds (List.replicate n (none : Option α)) [] where
  mem_iff := by simp [List.getElem?_replicate]
  nodup := List.nodup_nil

theorem append_free (h : Holds cells entries) (n : Nat) :
    Holds (cells ++ List.replicate n none) entries where
  mem_iff := by
    intro i x
    rw [h.mem_iff, List.getElem?_append]
    split
    case isTrue => rfl
    case isFalse hi =>
        rw [List.getElem?_eq_none (Nat.le_of_not_lt hi)]
        simp [List.getElem?_replicate]
  nodup := h.nodup

theorem add (h : Holds cells entries) (hfree : cells[i]? = some none) (x : α) :
    Holds (cells.set i (some x)) ((i, x) :: entries) where
  mem_iff := by
    intro j y
    rw [List.mem_cons, h.mem_iff, List.getElem?_set]
    split
    case isTrue hij =>
        subst hij
        obtain ⟨hlength, _⟩ := List.getElem?_eq_some_iff.mp hfree
        rw [hfree, if_pos hlength]
        simp [eq_comm]
    case isFalse hij => simp [Ne.symm hij]
  nodup := by
    rw [List.map_cons, List.nodup_cons, h.mem_slots, hfree]
    exact ⟨Bool.false_ne_true, h.nodup⟩

theorem remove [DecidableEq α] (h : Holds cells entries) (hmem : (i, x) ∈ entries) :
    Holds (cells.set i none) (entries.erase (i, x)) where
  mem_iff := by
    intro j y
    have hcell := h.mem_iff.mp hmem
    rw [h.entries_nodup.mem_erase_iff, h.mem_iff, List.getElem?_set]
    split
    case isTrue hij =>
        subst hij
        rw [hcell]
        split <;> simp [eq_comm]
    case isFalse hij => simp [Ne.symm hij]
  nodup := h.nodup.sublist (List.erase_sublist.map _)

end Holds

/-- The first free slot from `pos` on, among the next `n` slots. -/
def search (cells : List (Option α)) : Nat → Nat → Nat
  | pos, 0 => pos
  | pos, n + 1 =>
      if (cells[pos]?).join.isSome then search cells (next cells.length pos) n else pos

theorem search_place (hpos : pos < cells.length) {k n : Nat} (hn : k + n ≤ cells.length) :
    cells[search cells (place cells.length pos k) n]? = some none ∨
      ∀ i, k ≤ i → i < k + n → (cells[place cells.length pos i]?).join.isSome := by
  induction n generalizing k with
  | zero => exact .inr fun i hk hi => by omega
  | succ n ih =>
      rw [search]
      split
      case isTrue hused =>
          rw [next_place hpos (by omega)]
          refine (ih (k := k + 1) (by omega)).imp_right fun hrest i hk hi => ?_
          rcases Nat.eq_or_lt_of_le hk with rfl | hk
          · exact hused
          · exact hrest i hk (by omega)
      case isFalse hfree =>
          have hplace : place cells.length pos k < cells.length := place_lt hpos (by omega)
          rw [List.getElem?_eq_getElem hplace] at hfree ⊢
          exact .inl (congrArg some (by simpa using hfree))

/-- A search through the whole table finds a free slot if there is one. -/
theorem search_free (hpos : pos < cells.length) (hfree : ∃ i : Nat, cells[i]? = some none) :
    cells[search cells pos cells.length]? = some none := by
  have hsearch := search_place hpos (k := 0) (n := cells.length) (by omega)
  rw [place_zero hpos] at hsearch
  refine hsearch.resolve_right fun hused => ?_
  obtain ⟨i, hi⟩ := hfree
  obtain ⟨hlength, _⟩ := List.getElem?_eq_some_iff.mp hi
  have hcell := hused (between cells.length pos i) (Nat.zero_le _) (by
    rw [Nat.zero_add]
    exact between_lt hpos hlength)
  rw [place_between hpos hlength, hi] at hcell
  cases hcell

end OracleNIO.SlotTable
