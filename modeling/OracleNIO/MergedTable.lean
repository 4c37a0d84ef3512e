import Mathlib.Data.List.Basic

/-!
Tables that are built from a list of pairs by merging the values of equal keys.  Keys
are equal if their normal forms are.
-/

namespace OracleNIO.MergedTable

variable {K N V : Type} [DecidableEq N]

/-- Add a pair; the value of a key that is there already is combined with the new one. -/
def insert (norm : K → N) (combine : V → V → V) : List (K × V) → K × V → List (K × V)
  | [], p => [p]
  | (key, value) :: table, p =>
      if norm key = norm p.1 then (key, combine value p.2) :: table
      else (key, value) :: insert norm combine table p

/-- The table of the pairs, in which a later one is combined with an earlier one. -/
def ofPairs (norm : K → N) (combine : V → V → V) (pairs : List (K × V)) : List (K × V) :=
  pairs.foldl (insert norm combine) []

/-- The value under the key. -/
def lookup (norm : K → N) (table : List (K × V)) (key : K) : Option V :=
  (table.find? fun p => norm p.1 = norm key).map Prod.snd

variable {norm : K → N} {combine : V → V → V} {table pairs : List (K × V)} {p : K × V} {key : K}

theorem lookup_cons : lookup norm (p :: table) key =
    if norm p.1 = norm key then some p.2 else lookup norm table key := by
  by_cases h : norm p.1 = norm key
  · simp [lookup, h]
  · simp [lookup, h]

theorem lookup_insert : lookup norm (insert norm combine table p) key =
    if norm p.1 = norm key then
      some ((lookup norm table key).elim p.2 fun value => combine value p.2)
    else lookup norm table key := by
  induction table with
  | nil => exact lookup_cons
  | cons q table ih =>
      rcases q with ⟨key', value⟩
      simp only [insert]
      by_cases hsame : norm key' = norm p.1
      · rw [if_pos hsame, lookup_cons, lookup_cons]
        by_cases hkey : norm p.1 = norm key
        · simp [hsame, hkey]
        · simp [hsame, hkey]
      · rw [if_neg hsame, lookup_cons, ih, lookup_cons]
        by_cases hkey : norm p.1 = norm key
        · have hne : norm key' ≠ norm key := fun h => hsame (h.trans hkey.symm)
          simp [hkey, hne]
        · simp [hkey]

theorem mem_insert {q : K × V} (hq : q ∈ insert norm combine table p) :
    q = p ∨ q ∈ table ∨ ∃ value, (q.1, value) ∈ table ∧ q.2 = combine value p.2 := by
  induction table with
  | nil => exact .inl (List.mem_singleton.mp hq)
  | cons r table ih =>
      rcases r with ⟨key', value⟩
      simp only [insert] at hq
      by_cases hsame : norm key' = norm p.1
      · rw [if_pos hsame] at hq
        rcases List.mem_cons.mp hq with rfl | hq
        · exact .inr (.inr ⟨value, by simp, rfl⟩)
        · exact .inr (.inl (List.mem_cons_of_mem _ hq))
      · rw [if_neg hsame] at hq
        rcases List.mem_cons.mp hq with rfl | hq
        · exact .inr (.inl (by simp))
        · rcases ih hq with hp | hmem | ⟨value', hmem, hvalue⟩
          · exact .inl hp
          · exact .inr (.inl (List.mem_cons_of_mem _ hmem))
          · exact .inr (.inr ⟨value', List.mem_cons_of_mem _ hmem, hvalue⟩)

section First

theorem lookup_foldl_first : lookup norm (pairs.foldl (insert norm fun a _ => a) table) key =
    (lookup norm table key).or (lookup norm pairs key) := by
  induction pairs generalizing table with
  | nil => simp [lookup]
  | cons p pairs ih =>
      rw [List.foldl_cons, ih, lookup_insert, lookup_cons]
      by_cases hkey : norm p.1 = norm key
      · cases htable : lookup norm table key with
        | none => simp [hkey]
        | some value => simp [hkey]
      · simp [hkey]

theorem lookup_ofPairs_first (norm : K → N) (pairs : List (K × V)) (key : K) :
    lookup norm (ofPairs norm (fun a _ => a) pairs) key = lookup norm pairs key :=
  lookup_foldl_first

theorem mem_foldl_first {q : K × V}
    (hq : q ∈ pairs.foldl (insert norm fun a _ => a) table) : q ∈ table ∨ q ∈ pairs := by
  induction pairs generalizing table with
  | nil => exact .inl hq
  | cons p pairs ih =>
      rcases ih hq with hq | hq
      · rcases mem_insert hq with rfl | hmem | ⟨value, hmem, hvalue⟩
        · exact .inr List.mem_cons_self
        · exact .inl hmem
        · rw [← hvalue] at hmem
          exact .inl hmem
      · exact .inr (List.mem_cons_of_mem p hq)

theorem mem_ofPairs_first {q : K × V} (hq : q ∈ ofPairs norm (fun a _ => a) pairs) :
    q ∈ pairs := by
  rcases mem_foldl_first hq with hq | hq
  · cases hq
  · exact hq

end First

end OracleNIO.MergedTable
