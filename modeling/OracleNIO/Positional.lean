import Mathlib.Algebra.Order.Field.Basic
import Mathlib.Algebra.Order.Field.Power
import Mathlib.Algebra.Order.Field.Rat
import Mathlib.Data.List.DropRight
import Mathlib.Data.List.Lex
import Mathlib.Data.Nat.Digits.Defs
import Mathlib.Tactic.Linarith
import Mathlib.Tactic.Ring
import Mathlib.Tactic.FieldSimp
import Mathlib.Tactic.Positivity

/-!
Numbers in positional notation, the most significant digit first: the digits after
the point, and the place of the point.  Without leading and trailing zeros a number
is written in one way only, and numbers are ordered by the place of the point first
and then by their digits.
-/

namespace OracleNIO.Positional

variable {K : Type} [Field K] {b : Nat}

section Fractions

variable {ds es : List Nat}

/-- The fraction with these digits after the point. -/
def fraction (b : Nat) : List Nat → K
  | [] => 0
  | d :: ds => (d + fraction b ds) / b

@[simp]
theorem fraction_nil : (fraction b [] : K) = 0 := rfl

theorem fraction_cons (d : Nat) : (fraction b (d :: ds) : K) = (d + fraction b ds) / b := rfl

@[simp]
theorem fraction_replicate_zero (k : Nat) : (fraction b (List.replicate k 0) : K) = 0 := by
  induction k with
  | zero => rfl
  | succ k ih => rw [List.replicate_succ, fraction_cons, ih]; simp

variable [LinearOrder K] [IsStrictOrderedRing K]

theorem fraction_append (hb : 0 < b) :
    (fraction b (ds ++ es) : K) = fraction b ds + fraction b es / b ^ ds.length := by
  have hb' : (b : K) ≠ 0 := by exact_mod_cast hb.ne'
  induction ds with
  | nil => simp
  | cons d ds ih =>
    rw [List.cons_append, fraction_cons, fraction_cons, ih, List.length_cons]
    field_simp
    ring

theorem fraction_leading_zeros (hb : 0 < b) (k : Nat) :
    (fraction b (List.replicate k 0 ++ ds) : K) = fraction b ds / b ^ k := by
  rw [fraction_append hb]
  simp

theorem fraction_trailing_zeros (hb : 0 < b) (k : Nat) :
    (fraction b (ds ++ List.replicate k 0) : K) = fraction b ds := by
  rw [fraction_append hb]
  simp

theorem fraction_nonneg : (0 : K) ≤ fraction b ds := by
  induction ds with
  | nil => exact le_rfl
  | cons d ds ih => rw [fraction_cons]; positivity

theorem fraction_lt_one (hds : ∀ d ∈ ds, d < b) : (fraction b ds : K) < 1 := by
  induction ds with
  | nil => exact zero_lt_one
  | cons d ds ih =>
    have hd : d + 1 ≤ b := hds d List.mem_cons_self
    have hd' : (d : K) + 1 ≤ b := by exact_mod_cast hd
    have hb : (0 : K) < b := by
      have : 0 < b := by omega
      exact_mod_cast this
    have hrest := ih fun e he => hds e (List.mem_cons_of_mem d he)
    rw [fraction_cons, div_lt_one hb]
    linarith

theorem getLast?_tail_ne {d : Nat} (h : (d :: ds).getLast? ≠ some 0) :
    ds.getLast? ≠ some 0 := by
  cases ds with
  | nil => simp
  | cons e ds => simpa [List.getLast?_cons_cons] using h

theorem fraction_pos (hb : 0 < b) (hlast : ds.getLast? ≠ some 0) (hne : ds ≠ []) :
    (0 : K) < fraction b ds := by
  have hb' : (0 : K) < b := by exact_mod_cast hb
  induction ds with
  | nil => exact absurd rfl hne
  | cons d ds ih =>
    rw [fraction_cons]
    rcases eq_or_ne ds [] with rfl | hds
    · have hd : 0 < d := by
        rcases Nat.eq_zero_or_pos d with rfl | hd
        · exact absurd rfl hlast
        · exact hd
      have hd' : (0 : K) < d := by exact_mod_cast hd
      simp only [fraction_nil, add_zero]
      positivity
    · have := ih (getLast?_tail_ne hlast) hds
      positivity

theorem inv_le_fraction {d : Nat} (hb : 0 < b) (hd : d ≠ 0) :
    (b : K)⁻¹ ≤ fraction b (d :: ds) := by
  have hb' : (0 : K) < b := by exact_mod_cast hb
  have hd' : (1 : K) ≤ d := by exact_mod_cast Nat.one_le_iff_ne_zero.mpr hd
  have hrest : (0 : K) ≤ fraction b ds := fraction_nonneg
  rw [fraction_cons, inv_eq_one_div]
  gcongr
  linarith

/-- Digits without trailing zeros are ordered as the fractions they stand for. -/
theorem fraction_lt_fraction_iff (hds : ∀ d ∈ ds, d < b) (hes : ∀ e ∈ es, e < b)
    (hdl : ds.getLast? ≠ some 0) (hel : es.getLast? ≠ some 0) :
    (fraction b ds : K) < fraction b es ↔ ds < es := by
  induction ds generalizing es with
  | nil =>
    cases es with
    | nil => simp
    | cons e es =>
      have hb : 0 < b := Nat.zero_lt_of_lt (hes e List.mem_cons_self)
      exact ⟨fun _ => List.nil_lt_cons e es, fun _ => fraction_pos hb hel (by simp)⟩
  | cons d ds ih =>
    cases es with
    | nil =>
      exact ⟨fun h => absurd h (not_lt.mpr fraction_nonneg), fun h => absurd h (List.not_lt_nil _)⟩
    | cons e es =>
      have hb : (0 : K) < b := by exact_mod_cast Nat.zero_lt_of_lt (hds d List.mem_cons_self)
      have hds' : ∀ x ∈ ds, x < b := fun x hx => hds x (List.mem_cons_of_mem d hx)
      have hes' : ∀ x ∈ es, x < b := fun x hx => hes x (List.mem_cons_of_mem e hx)
      have hd₀ : (0 : K) ≤ fraction b ds := fraction_nonneg
      have hd₁ : (fraction b ds : K) < 1 := fraction_lt_one hds'
      have he₀ : (0 : K) ≤ fraction b es := fraction_nonneg
      have he₁ : (fraction b es : K) < 1 := fraction_lt_one hes'
      rw [fraction_cons, fraction_cons, div_lt_div_iff_of_pos_right hb, List.cons_lt_cons_iff]
      rcases lt_trichotomy d e with hlt | rfl | hgt
      · have : (d : K) + 1 ≤ e := by exact_mod_cast hlt
        exact iff_of_true (by linarith) (.inl hlt)
      · rw [add_lt_add_iff_left, ih hds' hes' (getLast?_tail_ne hdl) (getLast?_tail_ne hel)]
        simp
      · have : (e : K) + 1 ≤ d := by exact_mod_cast hgt
        refine iff_of_false (by linarith) ?_
        rintro (hlt | ⟨rfl, -⟩)
        · exact absurd hlt (Nat.lt_asymm hgt)
        · exact absurd hgt (Nat.lt_irrefl d)

theorem ofDigits_reverse (hb : 0 < b) :
    ((Nat.ofDigits b ds.reverse : Nat) : K) = fraction b ds * b ^ ds.length := by
  have hb' : (b : K) ≠ 0 := by exact_mod_cast hb.ne'
  induction ds with
  | nil => simp
  | cons d ds ih =>
    rw [Nat.ofDigits_reverse_cons, Nat.cast_add, ih, fraction_cons, List.length_cons]
    push_cast
    field_simp
    ring

end Fractions

section Pairs

variable {ds : List Nat}

/-- Two digits as one digit of the squared base. -/
def pairs (b : Nat) : List Nat → List Nat
  | c :: d :: ds => (c * b + d) :: pairs b ds
  | _ => []

/-- Each digit in base `b ^ 2` as two digits in base `b`. -/
def unpairs (b : Nat) (ps : List Nat) : List Nat :=
  ps.flatMap fun p => [p / b, p % b]

/-- An even number of digits. -/
def evened (ds : List Nat) : List Nat :=
  if ds.length % 2 = 1 then ds ++ [0] else ds

theorem length_pairs (b : Nat) : ∀ ds : List Nat, (pairs b ds).length = ds.length / 2
  | [] => rfl
  | [_] => by simp [pairs]
  | _ :: _ :: ds => by
    have := length_pairs b ds
    simp only [pairs, List.length_cons]
    omega

theorem length_unpairs (b : Nat) (ps : List Nat) : (unpairs b ps).length = 2 * ps.length := by
  simp [unpairs, List.length_flatMap, Nat.mul_comm]

theorem pairs_unpairs (b : Nat) (ps : List Nat) : pairs b (unpairs b ps) = ps := by
  induction ps with
  | nil => rfl
  | cons p ps ih =>
    change (p / b * b + p % b) :: pairs b (unpairs b ps) = p :: ps
    rw [ih, Nat.div_add_mod']

theorem unpairs_lt {ps : List Nat} (hps : ∀ p ∈ ps, p < b * b) :
    ∀ d ∈ unpairs b ps, d < b := by
  intro d hd
  obtain ⟨p, hp, hd⟩ := List.mem_flatMap.mp hd
  have hlt := hps p hp
  have hb : 0 < b := Nat.pos_of_ne_zero (by rintro rfl; omega)
  simp only [List.mem_cons, List.not_mem_nil, or_false] at hd
  rcases hd with rfl | rfl
  · exact Nat.div_lt_of_lt_mul hlt
  · exact Nat.mod_lt p hb

theorem even_length_evened (ds : List Nat) : (evened ds).length % 2 = 0 := by
  unfold evened
  split
  next h =>
    rw [List.length_append, List.length_singleton]
    omega
  next h => omega

theorem mem_evened {d : Nat} (h : d ∈ evened ds) : d = 0 ∨ d ∈ ds := by
  unfold evened at h
  split at h
  · simpa [or_comm] using h
  · exact .inr h

theorem pairs_evened_cons (c d : Nat) :
    pairs b (evened (c :: d :: ds)) = (c * b + d) :: pairs b (evened ds) := by
  have hlength : (c :: d :: ds).length % 2 = ds.length % 2 := by
    simp only [List.length_cons]
    omega
  unfold evened
  rw [hlength]
  split <;> rfl

theorem pairs_concat (c d : Nat) : ∀ {ds : List Nat}, ds.length % 2 = 0 →
    pairs b (ds ++ [c, d]) = pairs b ds ++ [c * b + d]
  | [], _ => rfl
  | [_], h => by simp at h
  | _ :: _ :: ds, h => by
    have heven : ds.length % 2 = 0 := by
      simp only [List.length_cons] at h
      omega
    simp [pairs, pairs_concat c d heven]

theorem pairs_lt : ∀ {ds : List Nat}, (∀ d ∈ ds, d < b) → ∀ p ∈ pairs b ds, p < b * b
  | [], _ => by simp [pairs]
  | [_], _ => by simp [pairs]
  | c :: d :: ds, h => by
    intro p hp
    have hrest : ∀ x ∈ ds, x < b := fun x hx =>
      h x (List.mem_cons_of_mem c (List.mem_cons_of_mem d hx))
    rcases List.mem_cons.mp hp with rfl | hp
    · have hc : c + 1 ≤ b := h c List.mem_cons_self
      have hd : d < b := h d (List.mem_cons_of_mem c List.mem_cons_self)
      calc c * b + d < c * b + b := by omega
        _ = (c + 1) * b := by ring
        _ ≤ b * b := Nat.mul_le_mul_right b hc
    · exact pairs_lt hrest p hp

theorem getLast?_pairs_evened (hb : 0 < b) (hlast : ds.getLast? ≠ some 0) :
    (pairs b (evened ds)).getLast? ≠ some 0 := by
  rcases List.eq_nil_or_concat' ds with rfl | ⟨front, d, rfl⟩
  · simp [evened, pairs]
  · have hd : d ≠ 0 := by
      rintro rfl
      simp at hlast
    by_cases hodd : (front ++ [d]).length % 2 = 1
    · have hfront : front.length % 2 = 0 := by
        simp only [List.length_append, List.length_singleton] at hodd
        omega
      rw [evened, if_pos hodd, List.append_assoc]
      change (pairs b (front ++ [d, 0])).getLast? ≠ some 0
      rw [pairs_concat d 0 hfront]
      simp [hd, hb.ne']
    · rcases List.eq_nil_or_concat' front with rfl | ⟨front, c, rfl⟩
      · simp at hodd
      · have hfront : front.length % 2 = 0 := by
          simp only [List.length_append, List.length_singleton] at hodd
          omega
        rw [evened, if_neg hodd, List.append_assoc]
        change (pairs b (front ++ [c, d])).getLast? ≠ some 0
        rw [pairs_concat c d hfront]
        simp [hd]

variable [LinearOrder K] [IsStrictOrderedRing K]

theorem fraction_evened (hb : 0 < b) : (fraction b (evened ds) : K) = fraction b ds := by
  unfold evened
  split
  · exact fraction_trailing_zeros hb 1
  · rfl

theorem fraction_pairs (hb : 0 < b) : ∀ {ds : List Nat}, ds.length % 2 = 0 →
    (fraction (b * b) (pairs b ds) : K) = fraction b ds
  | [], _ => rfl
  | [_], h => by simp at h
  | c :: d :: ds, h => by
    have hb' : (b : K) ≠ 0 := by exact_mod_cast hb.ne'
    have heven : ds.length % 2 = 0 := by
      simp only [List.length_cons] at h
      omega
    have ih : (fraction (b * b) (pairs b ds) : K) = fraction b ds := fraction_pairs hb heven
    simp only [pairs, fraction_cons]
    rw [ih]
    push_cast
    field_simp
    ring

end Pairs

/-- The fraction of the digits, with its point moved. -/
structure Numeral where
  digits : List Nat
  point : Int
deriving DecidableEq, Repr

namespace Numeral

/-- The number that is meant. -/
def value (b : Nat) (n : Numeral) : K := fraction b n.digits * (b : K) ^ n.point

/-- No leading and no trailing zeros: zero has no digits at all. -/
structure Normal (b : Nat) (n : Numeral) : Prop where
  digits_lt : ∀ d ∈ n.digits, d < b
  head_ne : n.digits.head? ≠ some 0
  last_ne : n.digits.getLast? ≠ some 0

/-- The same number, with no zero at either end. -/
def normalize (n : Numeral) : Numeral where
  digits := (n.digits.dropWhile (· == 0)).rdropWhile (· == 0)
  point := n.point - (n.digits.takeWhile (· == 0)).length

/-- The digits with zeros around them, so that the point stands between two pairs. -/
def aligned (n : Numeral) : List Nat :=
  evened (if n.point % 2 = 1 then 0 :: n.digits else n.digits)

/-- The same number in the squared base. -/
def paired (b : Nat) (n : Numeral) : Numeral where
  digits := pairs b n.aligned
  point := (n.point + n.point % 2) / 2

variable {n m : Numeral}

theorem normalize_normal (hdigits : ∀ d ∈ n.digits, d < b) : n.normalize.Normal b where
  digits_lt := fun d hd =>
    hdigits d ((List.dropWhile_suffix _).subset ((List.rdropWhile_prefix _ _).subset hd))
  head_ne := by
    have hhead := List.head?_dropWhile_not (fun d : Nat => d == 0) n.digits
    obtain ⟨rest, hrest⟩ := List.rdropWhile_prefix (fun d : Nat => d == 0)
      (n.digits.dropWhile (· == 0))
    intro h
    have hzero : (List.rdropWhile (· == 0) (n.digits.dropWhile (· == 0))).head? = some 0 := h
    rw [← hrest, List.head?_append, hzero] at hhead
    simp at hhead
  last_ne := by
    intro h
    have hne : n.normalize.digits ≠ [] := by
      intro hnil
      simp [hnil] at h
    have hlast : n.normalize.digits.getLast hne = 0 := by
      simpa [List.getLast?_eq_some_getLast hne] using h
    exact List.rdropWhile_last_not (fun d : Nat => d == 0) _ hne (beq_iff_eq.mpr hlast)

theorem normalize_point_of_nil (h : n.normalize.digits = []) :
    n.normalize.point = n.point - n.digits.length := by
  have hzeros : ∀ d ∈ n.digits.dropWhile (· == 0), d = 0 := by
    simpa using List.rdropWhile_eq_nil_iff.mp h
  have hdrop : n.digits.dropWhile (· == 0) = [] := by
    by_contra hne
    have hhead := List.head_dropWhile_not (fun d : Nat => d == 0) hne
    rw [hzeros _ (List.head_mem hne)] at hhead
    simp at hhead
  have htake : n.digits.takeWhile (· == 0) = n.digits := by
    have := List.takeWhile_append_dropWhile (p := fun d : Nat => d == 0) (l := n.digits)
    rwa [hdrop, List.append_nil] at this
  change n.point - (n.digits.takeWhile (· == 0)).length = _
  rw [htake]

variable [LinearOrder K] [IsStrictOrderedRing K]

theorem value_leading_zeros (hb : 0 < b) (k : Nat) (ds : List Nat) (point : Int) :
    ((⟨List.replicate k 0 ++ ds, point⟩ : Numeral).value b : K) =
      (⟨ds, point - k⟩ : Numeral).value b := by
  have hb' : (b : K) ≠ 0 := by exact_mod_cast hb.ne'
  simp only [value]
  rw [fraction_leading_zeros hb, zpow_sub₀ hb', zpow_natCast]
  field_simp

theorem value_trailing_zeros (hb : 0 < b) (k : Nat) (ds : List Nat) (point : Int) :
    ((⟨ds ++ List.replicate k 0, point⟩ : Numeral).value b : K) =
      (⟨ds, point⟩ : Numeral).value b := by
  simp only [value]
  rw [fraction_trailing_zeros hb]

theorem value_normalize (hb : 0 < b) : (n.normalize.value b : K) = n.value b := by
  have hleading : n.digits.takeWhile (· == 0) =
      List.replicate (n.digits.takeWhile (· == 0)).length 0 :=
    List.eq_replicate_of_mem fun d hd => by simpa using List.mem_takeWhile_imp hd
  have htrailing : (n.digits.dropWhile (· == 0)).rtakeWhile (· == 0) =
      List.replicate ((n.digits.dropWhile (· == 0)).rtakeWhile (· == 0)).length 0 :=
    List.eq_replicate_of_mem fun d hd => by simpa using List.mem_rtakeWhile_imp hd
  have hdigits : n.digits = List.replicate (n.digits.takeWhile (· == 0)).length 0 ++
      (n.normalize.digits ++
        List.replicate ((n.digits.dropWhile (· == 0)).rtakeWhile (· == 0)).length 0) := by
    rw [← hleading, ← htrailing]
    change _ = _ ++ (List.rdropWhile _ _ ++ _)
    rw [List.rdropWhile_append_rtakeWhile, List.takeWhile_append_dropWhile]
  have hn : n = ⟨List.replicate (n.digits.takeWhile (· == 0)).length 0 ++
      (n.normalize.digits ++
        List.replicate ((n.digits.dropWhile (· == 0)).rtakeWhile (· == 0)).length 0),
      n.point⟩ := by
    rw [← hdigits]
  conv_rhs => rw [hn, value_leading_zeros hb, value_trailing_zeros hb]
  rfl

theorem value_nonneg : (0 : K) ≤ n.value b := by
  have : (0 : K) ≤ fraction b n.digits := fraction_nonneg
  unfold value
  positivity

theorem Normal.value_pos (h : n.Normal b) (hb : 0 < b) (hne : n.digits ≠ []) :
    (0 : K) < n.value b := by
  have hb' : (0 : K) < b := by exact_mod_cast hb
  have := fraction_pos (K := K) hb h.last_ne hne
  unfold value
  positivity

theorem Normal.value_lt (h : n.Normal b) (hb : 0 < b) : (n.value b : K) < (b : K) ^ n.point := by
  have hb' : (0 : K) < (b : K) ^ n.point := zpow_pos (by exact_mod_cast hb) _
  have := fraction_lt_one (K := K) h.digits_lt
  unfold value
  nlinarith

theorem Normal.le_value (h : n.Normal b) (hb : 0 < b) (hne : n.digits ≠ []) :
    (b : K) ^ (n.point - 1) ≤ n.value b := by
  have hb' : (b : K) ≠ 0 := by exact_mod_cast hb.ne'
  have hpow : (0 : K) < (b : K) ^ n.point := zpow_pos (by exact_mod_cast hb) _
  obtain ⟨d, ds, hds⟩ := List.exists_cons_of_ne_nil hne
  have hd : d ≠ 0 := by
    rintro rfl
    exact h.head_ne (by rw [hds]; rfl)
  have hfraction : (b : K)⁻¹ ≤ fraction b n.digits := hds ▸ inv_le_fraction hb hd
  rw [zpow_sub_one₀ hb', mul_comm]
  unfold value
  gcongr

/-- The place of the point decides first, the digits after it. -/
theorem Normal.value_lt_value_iff (hn : n.Normal b) (hm : m.Normal b) (hb : 1 < b)
    (hne : n.digits ≠ []) (hme : m.digits ≠ []) :
    (n.value b : K) < m.value b ↔
      n.point < m.point ∨ n.point = m.point ∧ n.digits < m.digits := by
  have hb₀ : 0 < b := Nat.zero_lt_of_lt hb
  have hb₁ : (1 : K) ≤ b := by exact_mod_cast hb.le
  -- numbers of different length are apart by a power of the base
  have hapart : ∀ {x y : Numeral}, x.Normal b → y.Normal b → y.digits ≠ [] →
      x.point < y.point → (x.value b : K) < y.value b := by
    intro x y hx hy hye hpoint
    calc (x.value b : K) < (b : K) ^ x.point := hx.value_lt hb₀
      _ ≤ (b : K) ^ (y.point - 1) := zpow_le_zpow_right₀ hb₁ (by omega)
      _ ≤ y.value b := hy.le_value hb₀ hye
  rcases lt_trichotomy n.point m.point with hlt | heq | hgt
  · exact iff_of_true (hapart hn hm hme hlt) (.inl hlt)
  · have hpow : (0 : K) < (b : K) ^ m.point := zpow_pos (by exact_mod_cast hb₀) _
    unfold value
    rw [heq, mul_lt_mul_iff_left₀ hpow,
      fraction_lt_fraction_iff hn.digits_lt hm.digits_lt hn.last_ne hm.last_ne]
    simp
  · refine iff_of_false (not_lt.mpr (hapart hm hn hne hgt).le) ?_
    rintro (hlt | ⟨heq, -⟩) <;> omega

theorem Normal.eq_of_value_eq (hn : n.Normal b) (hm : m.Normal b) (hb : 1 < b)
    (hne : n.digits ≠ []) (hvalue : (n.value b : K) = m.value b) : n = m := by
  have hb₀ : 0 < b := Nat.zero_lt_of_lt hb
  have hme : m.digits ≠ [] := by
    intro hnil
    have hzero : (m.value b : K) = 0 := by simp [value, hnil]
    exact (hn.value_pos hb₀ hne (K := K)).ne' (hvalue.trans hzero)
  have hnm := mt (hn.value_lt_value_iff hm hb hne hme (K := K)).mpr hvalue.not_lt
  have hmn := mt (hm.value_lt_value_iff hn hb hme hne (K := K)).mpr hvalue.not_gt
  simp only [not_or, not_and] at hnm hmn
  have hpoint : n.point = m.point := by omega
  have hdigits : n.digits = m.digits :=
    le_antisymm (not_lt.mp (hmn.2 hpoint.symm)) (not_lt.mp (hnm.2 hpoint))
  cases n
  cases m
  simp_all

theorem Normal.paired (h : n.Normal b) (hb : 0 < b) (hne : n.digits ≠ []) :
    (n.paired b).Normal (b * b) := by
  obtain ⟨d, ds, hds⟩ := List.exists_cons_of_ne_nil hne
  have hd : d ≠ 0 := by
    rintro rfl
    exact h.head_ne (by rw [hds]; rfl)
  constructor
  · refine pairs_lt fun x hx => ?_
    have hx' : x = 0 ∨ x ∈ n.digits := by
      rcases mem_evened hx with hzero | hmem
      · exact .inl hzero
      · split at hmem
        · exact List.mem_cons.mp hmem
        · exact .inr hmem
    rcases hx' with rfl | hx'
    · exact hb
    · exact h.digits_lt x hx'
  · simp only [Numeral.paired, aligned, hds]
    split
    · simp [pairs_evened_cons, hd]
    · cases ds with
      | nil => simp [evened, pairs, hd, hb.ne']
      | cons e ds => simp [pairs_evened_cons, hd, hb.ne']
  · refine getLast?_pairs_evened hb ?_
    split
    · have hlast := h.last_ne
      rw [hds] at hlast ⊢
      simpa [List.getLast?_cons_cons] using hlast
    · exact h.last_ne

theorem value_paired (hb : 0 < b) : ((n.paired b).value (b * b) : K) = n.value b := by
  have hb' : (b : K) ≠ 0 := by exact_mod_cast hb.ne'
  have haligned : (fraction b n.aligned : K) =
      fraction b n.digits / b ^ (n.point % 2).toNat := by
    rw [aligned, fraction_evened hb]
    rcases Int.emod_two_eq_zero_or_one n.point with heven | hodd
    · simp [heven]
    · simp [hodd, fraction_cons]
  have hpairs : (fraction (b * b) (n.paired b).digits : K) = fraction b n.aligned :=
    fraction_pairs hb (even_length_evened _)
  have hpow : ((b : K) * b) ^ (n.paired b).point = b ^ n.point * b ^ (n.point % 2).toNat := by
    have htwo : (n.paired b).point + (n.paired b).point = n.point + n.point % 2 := by
      simp only [Numeral.paired]
      omega
    have hnonneg : ((n.point % 2).toNat : Int) = n.point % 2 :=
      Int.toNat_of_nonneg (Int.emod_nonneg _ (by decide))
    rw [mul_zpow, ← zpow_add₀ hb', htwo, zpow_add₀ hb', ← zpow_natCast, hnonneg]
  unfold value
  rw [hpairs, haligned, Nat.cast_mul, hpow]
  field_simp

theorem Normal.exists_paired {m : Numeral} (h : m.Normal (b * b)) (hb : 1 < b)
    (hne : m.digits ≠ []) :
    ∃ n : Numeral, n.Normal b ∧ n.digits ≠ [] ∧ n.paired b = m ∧
      n.digits.length ≤ 2 * m.digits.length := by
  have hb₀ : 0 < b := Nat.zero_lt_of_lt hb
  have hbb : 1 < b * b := by nlinarith
  have hvalue : ((⟨unpairs b m.digits, 2 * m.point⟩ : Numeral).value b : ℚ) =
      m.value (b * b) := by
    have heven : (unpairs b m.digits).length % 2 = 0 := by
      rw [length_unpairs]
      omega
    have hfraction := fraction_pairs (K := ℚ) hb₀ heven
    rw [pairs_unpairs] at hfraction
    simp only [value]
    rw [hfraction, Nat.cast_mul, zpow_mul, zpow_ofNat, pow_two]
  have hnormal : (⟨unpairs b m.digits, 2 * m.point⟩ : Numeral).normalize.Normal b :=
    normalize_normal (unpairs_lt h.digits_lt)
  have hnormalize : ((⟨unpairs b m.digits, 2 * m.point⟩ : Numeral).normalize.value b : ℚ) =
      m.value (b * b) := (value_normalize hb₀).trans hvalue
  have hdigits : (⟨unpairs b m.digits, 2 * m.point⟩ : Numeral).normalize.digits ≠ [] := by
    intro hnil
    have hpos : (0 : ℚ) < m.value (b * b) := h.value_pos (Nat.mul_pos hb₀ hb₀) hne
    rw [← hnormalize] at hpos
    simp [value, hnil] at hpos
  refine ⟨_, hnormal, hdigits, ?_, ?_⟩
  · have hpaired := (value_paired hb₀ (K := ℚ)).trans hnormalize
    exact (h.eq_of_value_eq (hnormal.paired hb₀ hdigits) hbb hne hpaired.symm).symm
  · have hsub := (List.rdropWhile_prefix (· == 0)
      ((unpairs b m.digits).dropWhile (· == 0))).length_le
    have hsuffix := (List.dropWhile_suffix (l := unpairs b m.digits) (· == 0)).length_le
    rw [length_unpairs] at hsuffix
    exact Nat.le_trans hsub hsuffix

end Numeral

end OracleNIO.Positional
