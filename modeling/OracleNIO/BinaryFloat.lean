import Mathlib.Algebra.Order.Group.Unbundled.Int
import Mathlib.Data.Nat.Log
import Mathlib.Tactic.Ring

/-!
Binary floating point: the fields of a number, its value counted in units of the least
positive number, and the integers that are numbers of a format.
-/

namespace OracleNIO.BinaryFloat

/-- A binary interchange format of floating point numbers. -/
structure Format where
  exponentBits : Nat
  fractionBits : Nat
  two_le_exponentBits : 2 ≤ exponentBits

/-- A number of the format by its fields; the exponent is the biased one. -/
structure Number (fmt : Format) where
  negative : Bool
  exponent : Nat
  fraction : Nat
  exponent_lt : exponent < 2 ^ fmt.exponentBits
  fraction_lt : fraction < 2 ^ fmt.fractionBits

namespace Format

variable (fmt : Format)

/-- The least positive number is `2 ^ (-scale)`. -/
def scale : Nat := 2 ^ (fmt.exponentBits - 1) - 2 + fmt.fractionBits

/-- The number one, in units of the least positive number. -/
def unit : Nat := 2 ^ fmt.scale

/-- The integers with a significand that the format has room for. -/
def Representable (n : Int) : Prop :=
  ∃ m k, n.natAbs = m * 2 ^ k ∧ m < 2 ^ (fmt.fractionBits + 1)

end Format

namespace Number

variable {fmt : Format}

/-- The number with the bits. -/
def ofBits (fmt : Format) (bits : Nat) : Number fmt where
  negative := bits.testBit (fmt.exponentBits + fmt.fractionBits)
  exponent := bits / 2 ^ fmt.fractionBits % 2 ^ fmt.exponentBits
  fraction := bits % 2 ^ fmt.fractionBits
  exponent_lt := Nat.mod_lt _ (Nat.two_pow_pos _)
  fraction_lt := Nat.mod_lt _ (Nat.two_pow_pos _)

def IsFinite (x : Number fmt) : Prop :=
  x.exponent + 1 < 2 ^ fmt.exponentBits

instance (x : Number fmt) : Decidable x.IsFinite :=
  inferInstanceAs (Decidable (_ < _))

def IsNaN (x : Number fmt) : Prop :=
  x.exponent + 1 = 2 ^ fmt.exponentBits ∧ x.fraction ≠ 0

instance (x : Number fmt) : Decidable x.IsNaN :=
  inferInstanceAs (Decidable (_ ∧ _))

/-- The bits of a quiet NaN. -/
def nanBits (fmt : Format) (negative : Bool) (payload : Nat) : Nat :=
  (if negative then 2 ^ (fmt.exponentBits + fmt.fractionBits) else 0) +
    (2 ^ fmt.exponentBits - 1) * 2 ^ fmt.fractionBits +
      (payload ||| 2 ^ (fmt.fractionBits - 1))

/-- The absolute value, in units of the smallest positive number. -/
def magnitude (x : Number fmt) : Nat :=
  if x.exponent = 0 then x.fraction
  else (2 ^ fmt.fractionBits + x.fraction) * 2 ^ (x.exponent - 1)

/-- The value of a finite number, in units of the least positive number. -/
def units (x : Number fmt) : Int :=
  if x.negative then -x.magnitude else x.magnitude

/-- The value rounded towards zero. -/
def integerPart (x : Number fmt) : Option Int :=
  if x.IsFinite then some (x.units.tdiv fmt.unit) else none

/-- How far the number is from an integer, in the same units. -/
def distance (x : Number fmt) (n : Int) : Nat :=
  (x.units - n * fmt.unit).natAbs

/-- No finite number is nearer to the integer. -/
def Nearest (x : Number fmt) (n : Int) : Prop :=
  x.IsFinite ∧ ∀ y : Number fmt, y.IsFinite → x.distance n ≤ y.distance n

end Number

variable {fmt : Format}

theorem unit_pos (fmt : Format) : 0 < fmt.unit :=
  Nat.two_pow_pos _

theorem lt_of_pow_le {m p j k : Nat} (hm : m < 2 ^ p) (h : 2 ^ j ≤ m * 2 ^ k) : j < p + k := by
  apply (Nat.pow_lt_pow_iff_right (a := 2) (by decide)).mp
  calc 2 ^ j ≤ m * 2 ^ k := h
    _ < 2 ^ p * 2 ^ k := Nat.mul_lt_mul_of_pos_right hm (Nat.two_pow_pos k)
    _ = 2 ^ (p + k) := (Nat.pow_add 2 p k).symm

theorem natAbs_units (x : Number fmt) : x.units.natAbs = x.magnitude := by
  unfold Number.units
  split
  · rw [Int.natAbs_neg, Int.natAbs_natCast]
  · rw [Int.natAbs_natCast]

theorem exists_significand (x : Number fmt) :
    ∃ m k, x.magnitude = m * 2 ^ k ∧ m < 2 ^ (fmt.fractionBits + 1) := by
  have hfraction := x.fraction_lt
  unfold Number.magnitude
  split
  · refine ⟨x.fraction, 0, (Nat.mul_one _).symm, ?_⟩
    rw [Nat.pow_succ]
    omega
  · refine ⟨2 ^ fmt.fractionBits + x.fraction, x.exponent - 1, rfl, ?_⟩
    rw [Nat.pow_succ]
    omega

theorem dvd_magnitude {x : Number fmt} {j : Nat}
    (h : 2 ^ (fmt.fractionBits + 1 + j) ≤ x.magnitude) : 2 ^ (j + 1) ∣ x.magnitude := by
  obtain ⟨m, k, heq, hm⟩ := exists_significand x
  rw [heq] at h ⊢
  have hk := lt_of_pow_le hm h
  exact Dvd.dvd.mul_left (Nat.pow_dvd_pow 2 (by omega)) m

theorem dvd_units {x : Number fmt}
    (h : 2 ^ (fmt.fractionBits + 1) * fmt.unit ≤ x.magnitude) :
    ((2 * fmt.unit : Nat) : Int) ∣ x.units := by
  rw [Format.unit, ← Nat.pow_add] at h
  have hdvd := dvd_magnitude h
  rw [Nat.pow_succ, Nat.mul_comm] at hdvd
  rw [Int.natCast_dvd, natAbs_units]
  exact hdvd

theorem exists_magnitude (negative : Bool) {N m k : Nat} (heq : N = m * 2 ^ k)
    (hm : m < 2 ^ (fmt.fractionBits + 1))
    (hN : N < 2 ^ (fmt.fractionBits + (2 ^ fmt.exponentBits - 2))) :
    ∃ x : Number fmt, x.IsFinite ∧ x.negative = negative ∧ x.magnitude = N := by
  have hfour : 2 ^ 2 ≤ 2 ^ fmt.exponentBits :=
    Nat.pow_le_pow_right (by decide) fmt.two_le_exponentBits
  by_cases hsmall : N < 2 ^ fmt.fractionBits
  · refine ⟨⟨negative, 0, N, by omega, hsmall⟩, ?_, rfl, if_pos rfl⟩
    change 0 + 1 < 2 ^ fmt.exponentBits
    omega
  · have hpos : N ≠ 0 := by
      have htwo := Nat.two_pow_pos fmt.fractionBits
      omega
    obtain ⟨hlow, hhigh⟩ := (Nat.log2_eq_iff hpos).mp (rfl : N.log2 = N.log2)
    have hlog : fmt.fractionBits ≤ N.log2 := by
      have hlt := lt_of_le_of_lt (Nat.le_of_not_lt hsmall) hhigh
      have hlt := (Nat.pow_lt_pow_iff_right (by decide)).mp hlt
      omega
    have hlog' : N.log2 < fmt.fractionBits + (2 ^ fmt.exponentBits - 2) :=
      (Nat.pow_lt_pow_iff_right (by decide)).mp (lt_of_le_of_lt hlow hN)
    obtain ⟨e, he⟩ := Nat.exists_eq_add_of_le hlog
    rw [he] at hlow hhigh hlog'
    have hdvd : 2 ^ e ∣ N := by
      have hek := lt_of_pow_le hm (heq ▸ hlow)
      rw [heq]
      exact Dvd.dvd.mul_left (Nat.pow_dvd_pow 2 (by omega)) m
    rcases hdvd with ⟨c, hc⟩
    have hc₁ : 2 ^ fmt.fractionBits ≤ c := by
      rw [hc, Nat.pow_add, Nat.mul_comm] at hlow
      exact Nat.le_of_mul_le_mul_left hlow (Nat.two_pow_pos e)
    have hc₂ : c < 2 ^ fmt.fractionBits + 2 ^ fmt.fractionBits := by
      have hpow : 2 ^ (fmt.fractionBits + e + 1) =
          2 ^ e * (2 ^ fmt.fractionBits + 2 ^ fmt.fractionBits) := by
        rw [Nat.pow_succ, Nat.pow_add]
        ring
      rw [hc, hpow] at hhigh
      exact Nat.lt_of_mul_lt_mul_left hhigh
    refine ⟨⟨negative, e + 1, c - 2 ^ fmt.fractionBits, by omega, by omega⟩, ?_, rfl, ?_⟩
    · change e + 1 + 1 < 2 ^ fmt.exponentBits
      omega
    · rw [Number.magnitude, if_neg (Nat.succ_ne_zero e), hc, Nat.mul_comm]
      congr 1
      change 2 ^ fmt.fractionBits + (c - 2 ^ fmt.fractionBits) = c
      omega

theorem exists_units {n : Int} (h : fmt.Representable n)
    (hn : n.natAbs < 2 ^ 2 ^ (fmt.exponentBits - 1)) :
    ∃ x : Number fmt, x.IsFinite ∧ x.units = n * fmt.unit := by
  rcases h with ⟨m, k, heq, hm⟩
  have hscale : fmt.fractionBits + (2 ^ fmt.exponentBits - 2) =
      2 ^ (fmt.exponentBits - 1) + fmt.scale := by
    have htwo := fmt.two_le_exponentBits
    have hle : 2 ^ 1 ≤ 2 ^ (fmt.exponentBits - 1) :=
      Nat.pow_le_pow_right (by decide) (by omega)
    have hsucc : 2 ^ fmt.exponentBits = 2 ^ (fmt.exponentBits - 1) * 2 := by
      rw [← Nat.pow_succ, Nat.succ_eq_add_one, Nat.sub_add_cancel (by omega)]
    rw [Format.scale]
    omega
  have hmagnitude : n.natAbs * fmt.unit = m * 2 ^ (k + fmt.scale) := by
    rw [heq, Format.unit, Nat.mul_assoc, ← Nat.pow_add]
  have hbound : n.natAbs * fmt.unit <
      2 ^ (fmt.fractionBits + (2 ^ fmt.exponentBits - 2)) := by
    rw [hscale, Nat.pow_add]
    exact Nat.mul_lt_mul_of_pos_right hn (unit_pos fmt)
  obtain ⟨x, hfinite, hnegative, hx⟩ :=
    exists_magnitude (decide (n < 0)) hmagnitude hm hbound
  refine ⟨x, hfinite, ?_⟩
  rw [Number.units, hnegative, hx, Int.natCast_mul]
  by_cases hneg : n < 0
  · rw [if_pos (by simpa using hneg), ← Int.neg_mul]
    congr 1
    omega
  · rw [if_neg (by simpa using hneg)]
    congr 1
    omega

theorem distance_eq_zero {x : Number fmt} {n : Int} :
    x.distance n = 0 ↔ x.units = n * fmt.unit := by
  rw [Number.distance, Int.natAbs_eq_zero, Int.sub_eq_zero]

theorem nearest_of_units {x : Number fmt} {n : Int} (hfinite : x.IsFinite)
    (h : x.units = n * fmt.unit) : x.Nearest n := by
  refine ⟨hfinite, fun y _ => ?_⟩
  rw [distance_eq_zero.mpr h]
  exact Nat.zero_le _

theorem integerPart_of_units {x : Number fmt} {n : Int} (hfinite : x.IsFinite)
    (h : x.units = n * fmt.unit) : x.integerPart = some n := by
  have hunit : (fmt.unit : Int) ≠ 0 := by
    have hpos := unit_pos fmt
    omega
  rw [Number.integerPart, if_pos hfinite, h, Int.mul_tdiv_cancel n hunit]

/-- An integer that is the integer part of a number is representable, as a number without
room for it has no fraction either. -/
theorem representable_of_integerPart {x : Number fmt} {n : Int}
    (h : x.integerPart = some n) : fmt.Representable n := by
  unfold Number.integerPart at h
  split at h
  case isFalse => cases h
  case isTrue =>
    have hpart : x.units.tdiv fmt.unit = n := Option.some.inj h
    by_cases hsmall : n.natAbs < 2 ^ (fmt.fractionBits + 1)
    · exact ⟨n.natAbs, 0, (Nat.mul_one _).symm, hsmall⟩
    · have habs : x.magnitude / fmt.unit = n.natAbs := by
        rw [← hpart, Int.natAbs_tdiv, natAbs_units, Int.natAbs_natCast]
        rfl
      have hlarge : 2 ^ (fmt.fractionBits + 1) * fmt.unit ≤ x.magnitude := by
        rw [← Nat.le_div_iff_mul_le (unit_pos fmt)]
        omega
      obtain ⟨m, k, heq, hm⟩ := exists_significand x
      rw [heq, Format.unit, ← Nat.pow_add] at hlarge
      have hk := lt_of_pow_le hm hlarge
      refine ⟨m, k - fmt.scale, ?_, hm⟩
      rw [← habs, heq, Format.unit]
      apply Nat.div_eq_of_eq_mul_left (Nat.two_pow_pos _)
      rw [Nat.mul_assoc, ← Nat.pow_add, Nat.sub_add_cancel (by omega)]

theorem integerPart_eq_iff {x : Number fmt} {n : Int} (h : x.Nearest n)
    (hn : n.natAbs < 2 ^ 2 ^ (fmt.exponentBits - 1)) :
    x.integerPart = some n ↔ fmt.Representable n := by
  constructor
  · exact representable_of_integerPart
  · intro hrepresentable
    obtain ⟨y, hfinite, hunits⟩ := exists_units hrepresentable hn
    have hle := h.2 y hfinite
    rw [distance_eq_zero.mpr hunits, Nat.le_zero, distance_eq_zero] at hle
    exact integerPart_of_units h.1 hle

/-- The neighbours of a large odd integer are nearest to it if they are numbers. -/
theorem nearest_of_odd {x : Number fmt} {n : Int} (hodd : n % 2 = 1)
    (hn : 2 ^ (fmt.fractionBits + 1) < n.natAbs) (hfinite : x.IsFinite)
    (hx : x.distance n = fmt.unit) : x.Nearest n := by
  refine ⟨hfinite, fun y _ => ?_⟩
  rw [hx]
  by_contra hlt
  rw [Nat.not_le, Number.distance] at hlt
  have hlarge : 2 ^ (fmt.fractionBits + 1) * fmt.unit ≤ y.magnitude := by
    have hsucc := Nat.mul_le_mul_right fmt.unit (Nat.succ_le_of_lt hn)
    have hproduct : n.natAbs * fmt.unit = (n * fmt.unit).natAbs := by
      rw [Int.natAbs_mul, Int.natAbs_natCast]
    rw [Nat.succ_eq_add_one, Nat.succ_mul, hproduct] at hsucc
    rw [← natAbs_units]
    omega
  rcases dvd_units hlarge with ⟨c, hc⟩
  have hn₂ : n = 2 * (n / 2) + 1 := by omega
  have heven : y.units - n * fmt.unit = (2 * (c - n / 2) - 1) * fmt.unit := by
    rw [hc]
    conv_lhs => rw [hn₂]
    push_cast
    ring
  rw [heven, Int.natAbs_mul, Int.natAbs_natCast] at hlt
  have hone : 1 ≤ (2 * (c - n / 2) - 1).natAbs := by omega
  have hle := Nat.mul_le_mul_right fmt.unit hone
  omega

end OracleNIO.BinaryFloat
