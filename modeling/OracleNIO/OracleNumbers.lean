import OracleNIO.NumberTexts

/-!
The bytes of Oracle numbers.  A number is written in base 100 with the point between
two of its digits, so it is a numeral of that base; from this come the way back, and
that numbers are ordered as their bytes are.
-/

namespace OracleNIO

open Positional

namespace Dpi.NumberParts

variable {n m : NumberParts}

/-- The digits, with a zero in front where they start in the middle of a pair. -/
def aligned (n : NumberParts) : List Nat := n.numeral.aligned

/-- The number in base 100. -/
def base100 (n : NumberParts) : Numeral := n.numeral.paired 10

theorem Normal.base100 (h : n.Normal) (hne : n.digits ≠ []) : n.base100.Normal 100 :=
  Numeral.Normal.paired h (by decide) hne

theorem value_base100 (n : NumberParts) : (n.base100.value 100 : ℚ) = n.numeral.value 10 :=
  Numeral.value_paired (b := 10) (by decide)

theorem prependZero_iff : n.prependZero = true ↔ n.decimalPointIndex % 2 = 1 := by
  simp only [prependZero, decide_eq_true_eq, Int.tmod_eq_emod]
  split <;> omega

theorem prependZero_eq_false_iff : n.prependZero = false ↔ ¬ n.decimalPointIndex % 2 = 1 := by
  rw [← prependZero_iff, Bool.not_eq_true]

theorem even_length_aligned : n.aligned.length % 2 = 0 := even_length_evened _

theorem aligned_of_odd (hodd : n.decimalPointIndex % 2 = 1) :
    n.aligned = evened (0 :: n.digits) := by
  unfold aligned Numeral.aligned
  rw [if_pos (show n.numeral.point % 2 = 1 from hodd)]
  rfl

theorem aligned_of_even (heven : ¬ n.decimalPointIndex % 2 = 1) :
    n.aligned = evened n.digits := by
  unfold aligned Numeral.aligned
  rw [if_neg (show ¬ n.numeral.point % 2 = 1 from heven)]
  rfl

/-- What the encoder pads is what is read in pairs, but for the prepended zero. -/
theorem padded_digits (hne : n.digits ≠ []) :
    n.padded.digits = if n.prependZero then n.aligned.tail ++ [0] else n.aligned := by
  cases hzero : n.prependZero with
  | true =>
    rw [aligned_of_odd (prependZero_iff.mp hzero)]
    by_cases hlength : (n.digits.length + 1) % 2 = 1 <;>
      simp [padded, evened, hzero, hne, hlength]
  | false =>
    rw [aligned_of_even (prependZero_eq_false_iff.mp hzero)]
    by_cases hlength : n.digits.length % 2 = 1 <;> simp [padded, evened, hzero, hlength]

theorem padded_point (hne : n.digits ≠ []) :
    n.padded.decimalPointIndex = 2 * n.base100.point := by
  have hpoint : n.padded.decimalPointIndex =
      n.decimalPointIndex + n.decimalPointIndex % 2 := by
    cases hzero : n.prependZero with
    | true =>
      have hodd := prependZero_iff.mp hzero
      by_cases hlength : (n.digits.length + 1) % 2 = 1 <;>
        simp [padded, hzero, hne, hodd, hlength]
    | false =>
      have heven : n.decimalPointIndex % 2 = 0 := by
        have := prependZero_eq_false_iff.mp hzero
        omega
      by_cases hlength : n.digits.length % 2 = 1 <;> simp [padded, hzero, heven, hlength]
  have hbase : n.base100.point = (n.decimalPointIndex + n.decimalPointIndex % 2) / 2 := rfl
  omega

theorem length_aligned (hne : n.digits ≠ []) : 0 < n.aligned.length := by
  have hpos : 0 < n.digits.length := List.length_pos_iff.mpr hne
  by_cases hodd : n.decimalPointIndex % 2 = 1
  · rw [aligned_of_odd hodd]
    unfold evened
    split <;> simp
  · rw [aligned_of_even hodd]
    unfold evened
    split
    · simp
    · exact hpos

theorem length_padded (hne : n.digits ≠ []) :
    n.padded.digits.length = n.aligned.length := by
  have hpos := length_aligned hne
  rw [padded_digits hne]
  split
  · rw [List.length_append, List.length_tail]
    exact Nat.sub_add_cancel hpos
  · rfl

theorem length_base100 (n : NumberParts) : n.base100.digits.length = n.aligned.length / 2 :=
  length_pairs 10 n.aligned

theorem base100_ne_nil (hne : n.digits ≠ []) : n.base100.digits ≠ [] := by
  have hpos := length_aligned hne
  have heven : n.aligned.length % 2 = 0 := even_length_aligned
  rw [← List.length_pos_iff, length_base100]
  omega

theorem mantissaPairs_append : ∀ (ds rest : List Nat), ds.length % 2 = 0 →
    mantissaPairs false (ds.length / 2) (ds ++ rest) = pairs 10 ds
  | [], _, _ => rfl
  | [_], _, h => by simp at h
  | c :: d :: ds, rest, h => by
    have heven : ds.length % 2 = 0 := by
      simp only [List.length_cons] at h
      omega
    have ih := mantissaPairs_append ds rest heven
    have hhalf : (c :: d :: ds).length / 2 = ds.length / 2 + 1 := by
      simp only [List.length_cons]
      omega
    rw [hhalf]
    simp [mantissaPairs, pairs, ih]

theorem mantissaPairs_padded (hne : n.digits ≠ []) :
    mantissaPairs n.prependZero n.numPairs n.padded.digits = n.base100.digits := by
  have heven : n.aligned.length % 2 = 0 := even_length_aligned
  rw [numPairs, length_padded hne, padded_digits hne]
  cases hzero : n.prependZero with
  | false =>
    have h := mantissaPairs_append n.aligned [] heven
    rwa [List.append_nil] at h
  | true =>
    obtain ⟨d, ds, hds⟩ := List.exists_cons_of_ne_nil hne
    obtain ⟨rest, hrest⟩ : ∃ rest, n.aligned = 0 :: d :: rest := by
      rw [aligned_of_odd (prependZero_iff.mp hzero), hds]
      unfold evened
      split
      · exact ⟨ds ++ [0], rfl⟩
      · exact ⟨ds, rfl⟩
    have hlength : n.aligned.length = rest.length + 2 := by
      rw [hrest]
      rfl
    have hhalf : n.aligned.length / 2 = rest.length / 2 + 1 := by omega
    have hpairs := mantissaPairs_append rest [0] (by omega)
    have hbase : n.base100.digits = pairs 10 (0 :: d :: rest) := by
      rw [← hrest]
      rfl
    rw [hhalf, hbase]
    simp [hrest, mantissaPairs, pairs, hpairs]

/-- A negative mantissa with less than 20 bytes is ended by a byte of 102. -/
def sentinel (isNegative : Bool) (pairs : List Nat) : List UInt8 :=
  if isNegative ∧ pairs.length < 20 then [102] else []

/-- The bytes after the exponent. -/
def mantissa (isNegative : Bool) (pairs : List Nat) : List UInt8 :=
  pairs.map (mantissaByte isNegative) ++ sentinel isNegative pairs

/-- The length, the exponent and the mantissa of a number that is not zero. -/
theorem toOracleNumber_eq (hne : n.digits ≠ []) :
    n.toOracleNumber =
      UInt8.ofNat ((mantissa n.isNegative n.base100.digits).length + 1) ::
        exponentByte n.isNegative (2 * n.base100.point) ::
          mantissa n.isNegative n.base100.digits := by
  have hpadded := length_padded hne
  have hlength := length_base100 n
  have heven : n.aligned.length % 2 = 0 := even_length_aligned
  have hpos := length_aligned hne
  have hpadded_ne : n.padded.digits ≠ [] := by
    rw [← List.length_pos_iff]
    omega
  have hnum : n.numPairs = n.base100.digits.length := by
    rw [numPairs, hpadded, hlength]
  have hsentinel : (if n.appendSentinel then [102] else []) =
      sentinel n.isNegative n.base100.digits := by
    have h : n.appendSentinel = true ↔
        n.isNegative = true ∧ n.base100.digits.length < 20 := by
      have hmax : numberMaxDigits = 40 := rfl
      simp only [appendSentinel, Bool.and_eq_true, decide_eq_true_eq]
      constructor
      · rintro ⟨⟨hneg, -⟩, hlt⟩
        exact ⟨hneg, by omega⟩
      · rintro ⟨hneg, hlt⟩
        exact ⟨⟨hneg, by omega⟩, by omega⟩
    simp only [sentinel, h]
  have hcount : n.numPairs + 1 + n.appendSentinel.toNat =
      (mantissa n.isNegative n.base100.digits).length + 1 := by
    rw [mantissa, ← hsentinel, hnum]
    cases n.appendSentinel <;> simp
  rw [toOracleNumber, hcount, if_neg hpadded_ne, hsentinel, mantissaPairs_padded hne,
    padded_point hne]
  rfl

theorem toOracleNumber_zero (hnil : n.digits = []) : n.toOracleNumber = [1, 128] := by
  have hpadded : n.padded.digits = [] := by simp [padded, hnil]
  simp [toOracleNumber, numPairs, appendSentinel, hpadded]

/-- Only 40 digits at an odd index of the point take 21 bytes. -/
def Fits (n : NumberParts) : Prop :=
  ¬ (n.digits.length = numberMaxDigits ∧ n.decimalPointIndex % 2 = 1)

/-- What the parser of texts yields and 22 bytes can hold. -/
structure Storable (n : NumberParts) : Prop where
  normal : n.Normal
  representable : n.Representable
  fits : n.Fits

theorem length_evened (ds : List Nat) : (evened ds).length = (ds.length + 1) / 2 * 2 := by
  unfold evened
  split
  · rw [List.length_append, List.length_singleton]
    omega
  · omega

theorem fits_iff (hrepresentable : n.Representable) :
    n.Fits ↔ n.base100.digits.length ≤ 20 := by
  have hlength := hrepresentable.length_le
  have hmax : numberMaxDigits = 40 := rfl
  rw [length_base100, Fits]
  by_cases hodd : n.decimalPointIndex % 2 = 1
  · rw [aligned_of_odd hodd, length_evened, List.length_cons]
    omega
  · rw [aligned_of_even hodd, length_evened]
    omega

theorem Representable.base100_point (h : n.Representable) :
    -64 ≤ n.base100.point ∧ n.base100.point ≤ 63 := by
  have hlower := h.le_point
  have hupper := h.point_le
  have hbase : n.base100.point = (n.decimalPointIndex + n.decimalPointIndex % 2) / 2 := rfl
  omega

theorem toNat_exponentByte {point : Int} (hlower : -64 ≤ point) (hupper : point ≤ 63)
    (isNegative : Bool) :
    ((exponentByte isNegative (2 * point)).toNat : Int) =
      if isNegative then 63 - point else point + 192 := by
  have hdiv : (2 * point - 2).tdiv 2 = point - 1 := by
    rw [show 2 * point - 2 = 2 * (point - 1) by ring]
    exact Int.mul_tdiv_cancel_left _ (by decide)
  have hbyte : ((UInt8.ofInt ((2 * point - 2).tdiv 2 + 193)).toNat : Int) = point + 192 := by
    rw [hdiv]
    change ((UInt8.ofNat ((point - 1 + 193) % 2 ^ 8).toNat).toNat : Int) = _
    rw [UInt8.toNat_ofNat']
    omega
  cases isNegative with
  | false => exact hbyte
  | true =>
    simp only [exponentByte, if_true, UInt8.toNat_not]
    have hsize : UInt8.size = 256 := rfl
    omega

theorem toNat_mantissaByte {p : Nat} (hp : p < 100) (isNegative : Bool) :
    (mantissaByte isNegative p).toNat = if isNegative then 101 - p else p + 1 := by
  have hpair : (UInt8.ofNat p).toNat = p := by
    rw [UInt8.toNat_ofNat']
    omega
  cases isNegative with
  | false =>
    simp only [mantissaByte, Bool.false_eq_true, if_false, UInt8.toNat_add, hpair]
    have hone : (1 : UInt8).toNat = 1 := rfl
    omega
  | true =>
    have hle : UInt8.ofNat p ≤ 101 := by
      rw [UInt8.le_iff_toNat_le, hpair]
      change p ≤ 101
      omega
    simp only [mantissaByte, if_true, UInt8.toNat_sub_of_le _ _ hle, hpair]
    rfl

variable {ps qs : List Nat}

theorem mantissa_lt_iff (hps : ∀ p ∈ ps, p < 100) (hqs : ∀ q ∈ qs, q < 100) :
    mantissa false ps < mantissa false qs ↔ ps < qs := by
  have hmantissa : ∀ ds : List Nat, mantissa false ds = ds.map (mantissaByte false) := by
    simp [mantissa, sentinel]
  rw [hmantissa, hmantissa]
  induction ps generalizing qs with
  | nil => cases qs <;> simp
  | cons p ps ih =>
    cases qs with
    | nil => simp
    | cons q qs =>
      have hp := toNat_mantissaByte (hps p List.mem_cons_self) false
      have hq := toNat_mantissaByte (hqs q List.mem_cons_self) false
      have ih := ih (fun x hx => hps x (List.mem_cons_of_mem p hx))
        (fun x hx => hqs x (List.mem_cons_of_mem q hx))
      simp only [Bool.false_eq_true, if_false] at hp hq
      simp only [List.map_cons, List.cons_lt_cons_iff, ih, UInt8.lt_iff_toNat_lt,
        ← UInt8.toNat_inj, hp, hq, Nat.add_lt_add_iff_right, Nat.add_right_cancel_iff]

/-- The bytes of a negative mantissa, when there is room for `room` of them. -/
def endedMantissa (room : Nat) (ps : List Nat) : List UInt8 :=
  ps.map (mantissaByte true) ++ if ps.length < room then [102] else []

/-- The end mark is above all of the bytes, so a prefix comes after what it begins. -/
theorem endedMantissa_lt_iff {room : Nat} (hps : ∀ p ∈ ps, p < 100) (hqs : ∀ q ∈ qs, q < 100)
    (hpl : ps.length ≤ room) (hql : qs.length ≤ room) :
    endedMantissa room ps < endedMantissa room qs ↔ qs < ps := by
  induction ps generalizing qs room with
  | nil =>
    cases qs with
    | nil =>
      refine iff_of_false ?_ (by simp)
      exact List.lt_irrefl _
    | cons q qs =>
      have hroom : 0 < room := Nat.lt_of_lt_of_le (Nat.zero_lt_succ _) hql
      have hq := toNat_mantissaByte (hqs q List.mem_cons_self) true
      simp only [if_true] at hq
      refine iff_of_false ?_ (by simp)
      simp only [endedMantissa, List.map_nil, List.nil_append, List.length_nil, hroom, if_true,
        List.map_cons, List.cons_append, List.cons_lt_cons_iff, UInt8.lt_iff_toNat_lt,
        ← UInt8.toNat_inj, hq]
      change ¬ (102 < 101 - q ∨ 102 = 101 - q ∧ _)
      omega
  | cons p ps ih =>
    have hroom : 0 < room := Nat.lt_of_lt_of_le (Nat.zero_lt_succ _) hpl
    have hp₁ : p < 100 := hps p List.mem_cons_self
    have hp := toNat_mantissaByte hp₁ true
    simp only [if_true] at hp
    cases qs with
    | nil =>
      refine iff_of_true ?_ (by simp)
      simp only [endedMantissa, List.map_nil, List.nil_append, List.length_nil, hroom, if_true,
        List.map_cons, List.cons_append, List.cons_lt_cons_iff, UInt8.lt_iff_toNat_lt, hp]
      left
      change 101 - p < 102
      omega
    | cons q qs =>
      have hq₁ : q < 100 := hqs q List.mem_cons_self
      have hq := toNat_mantissaByte hq₁ true
      simp only [if_true] at hq
      obtain ⟨room, rfl⟩ := Nat.exists_eq_succ_of_ne_zero hroom.ne'
      have ih := ih (fun x hx => hps x (List.mem_cons_of_mem p hx))
        (fun x hx => hqs x (List.mem_cons_of_mem q hx)) (Nat.le_of_succ_le_succ hpl)
        (Nat.le_of_succ_le_succ hql)
      have hcons : ∀ (d : Nat) (ds : List Nat), endedMantissa (room + 1) (d :: ds) =
          mantissaByte true d :: endedMantissa room ds := by
        intro d ds
        simp [endedMantissa]
      rw [hcons, hcons, List.cons_lt_cons_iff, List.cons_lt_cons_iff, ih,
        UInt8.lt_iff_toNat_lt, ← UInt8.toNat_inj, hp, hq]
      constructor
      · rintro (hlt | ⟨heq, hrest⟩)
        · exact .inl (by omega)
        · exact .inr ⟨by omega, hrest⟩
      · rintro (hlt | ⟨heq, hrest⟩)
        · exact .inl (by omega)
        · exact .inr ⟨by omega, hrest⟩

theorem tail_lt_tail_of_same_sign (hn : n.Storable) (hm : m.Storable) (hne : n.digits ≠ [])
    (hme : m.digits ≠ []) (hsign : n.isNegative = m.isNegative) :
    n.toOracleNumber.tail < m.toOracleNumber.tail ↔ n.value < m.value := by
  obtain ⟨hnl, hnu⟩ := hn.representable.base100_point
  obtain ⟨hml, hmu⟩ := hm.representable.base100_point
  have hnp := toNat_exponentByte hnl hnu n.isNegative
  have hmp := toNat_exponentByte hml hmu m.isNegative
  have hnb := hn.normal.base100 hne
  have hmb := hm.normal.base100 hme
  have hnq := (fits_iff hn.representable).mp hn.fits
  have hmq := (fits_iff hm.representable).mp hm.fits
  have hbytes : n.toOracleNumber.tail < m.toOracleNumber.tail ↔
      exponentByte n.isNegative (2 * n.base100.point) <
          exponentByte m.isNegative (2 * m.base100.point) ∨
        exponentByte n.isNegative (2 * n.base100.point) =
            exponentByte m.isNegative (2 * m.base100.point) ∧
          mantissa n.isNegative n.base100.digits < mantissa m.isNegative m.base100.digits := by
    rw [toOracleNumber_eq hne, toOracleNumber_eq hme, List.tail_cons, List.tail_cons,
      List.cons_lt_cons_iff]
  have hvalue : ∀ x y : NumberParts, x.Normal → y.Normal → x.digits ≠ [] → y.digits ≠ [] →
      ((x.numeral.value 10 : ℚ) < y.numeral.value 10 ↔
        x.base100.point < y.base100.point ∨
          x.base100.point = y.base100.point ∧ x.base100.digits < y.base100.digits) := by
    intro x y hx hy hxe hye
    rw [← value_base100, ← value_base100]
    exact (hx.base100 hxe).value_lt_value_iff (hy.base100 hye) (by decide)
      (base100_ne_nil hxe) (base100_ne_nil hye)
  rw [hbytes, UInt8.lt_iff_toNat_lt, ← UInt8.toNat_inj]
  unfold value
  cases hneg : n.isNegative with
  | false =>
    simp only [← hsign, hneg, Bool.false_eq_true, if_false] at hnp hmp ⊢
    rw [mantissa_lt_iff hnb.digits_lt hmb.digits_lt, one_mul, one_mul,
      hvalue n m hn.normal hm.normal hne hme]
    constructor
    · rintro (hlt | ⟨heq, hrest⟩)
      · exact .inl (by omega)
      · exact .inr ⟨by omega, hrest⟩
    · rintro (hlt | ⟨heq, hrest⟩)
      · exact .inl (by omega)
      · exact .inr ⟨by omega, hrest⟩
  | true =>
    have hended : ∀ ds : List Nat, mantissa true ds = endedMantissa 20 ds := by
      simp [mantissa, endedMantissa, sentinel]
    simp only [← hsign, hneg, if_true] at hnp hmp ⊢
    rw [hended, hended, endedMantissa_lt_iff hnb.digits_lt hmb.digits_lt hnq hmq, neg_one_mul,
      neg_one_mul, neg_lt_neg_iff, hvalue m n hm.normal hn.normal hme hne]
    constructor
    · rintro (hlt | ⟨heq, hrest⟩)
      · exact .inl (by omega)
      · exact .inr ⟨by omega, hrest⟩
    · rintro (hlt | ⟨heq, hrest⟩)
      · exact .inl (by omega)
      · exact .inr ⟨by omega, hrest⟩

theorem sign_cases (h : n.Storable) :
    (n.digits = [] ∧ n.toOracleNumber.tail = [128] ∧ n.value = 0) ∨
      (n.digits ≠ [] ∧ n.isNegative = false ∧ [128] < n.toOracleNumber.tail ∧ 0 < n.value) ∨
      (n.digits ≠ [] ∧ n.isNegative = true ∧ n.toOracleNumber.tail < [128] ∧ n.value < 0) := by
  by_cases hne : n.digits = []
  · exact .inl ⟨hne, by rw [toOracleNumber_zero hne]; rfl, h.normal.value_eq_zero_iff.mpr hne⟩
  · obtain ⟨hl, hu⟩ := h.representable.base100_point
    have hexponent := toNat_exponentByte hl hu n.isNegative
    have hpos : (0 : ℚ) < n.numeral.value 10 :=
      Numeral.Normal.value_pos h.normal (by decide) hne
    have h128 : (128 : UInt8).toNat = 128 := rfl
    right
    unfold value
    rw [toOracleNumber_eq hne, List.tail_cons]
    cases hneg : n.isNegative with
    | false =>
      left
      simp only [hneg, Bool.false_eq_true, if_false] at hexponent ⊢
      refine ⟨hne, trivial, ?_, by simpa using hpos⟩
      rw [List.cons_lt_cons_iff, UInt8.lt_iff_toNat_lt, ← UInt8.toNat_inj]
      by_cases heq : n.base100.point = -64
      · obtain ⟨p, ps, hps⟩ := List.exists_cons_of_ne_nil (base100_ne_nil hne)
        refine .inr ⟨by omega, ?_⟩
        rw [hps]
        simp [mantissa]
      · exact .inl (by omega)
    | true =>
      right
      simp only [hneg, if_true] at hexponent ⊢
      refine ⟨hne, trivial, ?_, by simpa using hpos⟩
      rw [List.cons_lt_cons_iff, UInt8.lt_iff_toNat_lt]
      exact .inl (by omega)

theorem tail_lt_tail_iff (hn : n.Storable) (hm : m.Storable) :
    n.toOracleNumber.tail < m.toOracleNumber.tail ↔ n.value < m.value := by
  rcases sign_cases hn with ⟨hne, hnt, hnv⟩ | ⟨hne, hns, hnt, hnv⟩ | ⟨hne, hns, hnt, hnv⟩ <;>
    rcases sign_cases hm with ⟨hme, hmt, hmv⟩ | ⟨hme, hms, hmt, hmv⟩ | ⟨hme, hms, hmt, hmv⟩
  · rw [hnt, hmt, hnv, hmv]
    exact iff_of_false (List.lt_irrefl _) (lt_irrefl _)
  · rw [hnt, hnv]
    exact iff_of_true hmt hmv
  · rw [hnt, hnv]
    exact iff_of_false (List.lt_asymm hmt) hmv.not_gt
  · rw [hmt, hmv]
    exact iff_of_false (List.lt_asymm hnt) hnv.not_gt
  · exact tail_lt_tail_of_same_sign hn hm hne hme (hns.trans hms.symm)
  · exact iff_of_false (List.lt_asymm (List.lt_trans hmt hnt)) (by linarith)
  · rw [hmt, hmv]
    exact iff_of_true hnt hnv
  · exact iff_of_true (List.lt_trans hnt hmt) (by linarith)
  · exact tail_lt_tail_of_same_sign hn hm hne hme (hns.trans hms.symm)

theorem toOracleNumber_eq_iff (hn : n.Storable) (hm : m.Storable) :
    n.toOracleNumber = m.toOracleNumber ↔ n.value = m.value := by
  constructor
  · intro h
    rcases lt_trichotomy n.value m.value with hlt | heq | hgt
    · have := (tail_lt_tail_iff hn hm).mpr hlt
      rw [h] at this
      exact absurd this (List.lt_irrefl _)
    · exact heq
    · have := (tail_lt_tail_iff hm hn).mpr hgt
      rw [h] at this
      exact absurd this (List.lt_irrefl _)
  · intro h
    by_cases hne : n.digits = []
    · have hme : m.digits = [] := by
        rw [← hm.normal.value_eq_zero_iff, ← h, hn.normal.value_eq_zero_iff, hne]
      rw [toOracleNumber_zero hne, toOracleNumber_zero hme]
    · rw [hn.normal.eq_of_value_eq hm.normal hne h]

theorem byte_of_mantissaByte (isNegative : Bool) (p : Nat) :
    (if isNegative then 101 - mantissaByte isNegative p else mantissaByte isNegative p - 1) =
      UInt8.ofNat p := by
  cases isNegative with
  | false =>
    change UInt8.ofNat p + 1 - 1 = UInt8.ofNat p
    simp
  | true =>
    change 101 - (101 - UInt8.ofNat p) = UInt8.ofNat p
    grind

theorem parseMantissaByte_pair {c d : Nat} (hc : c < 10) (hd : d < 10) (first last : Bool)
    (number : NumberParts) :
    parseMantissaByte first last (mantissaByte number.isNegative (c * 10 + d)) number =
      { number with
        decimalPointIndex :=
          if c = 0 ∧ first then number.decimalPointIndex - 1 else number.decimalPointIndex
        digits := number.digits ++
          ((if c = 0 ∧ first then [] else [c]) ++ if d = 0 ∧ last then [] else [d]) } := by
  have hpair : (UInt8.ofNat (c * 10 + d)).toNat = c * 10 + d := by
    rw [UInt8.toNat_ofNat']
    omega
  have hdiv : (UInt8.ofNat (c * 10 + d) / 10).toNat = c := by
    rw [UInt8.toNat_div, hpair]
    change (c * 10 + d) / 10 = c
    omega
  have hmod : (UInt8.ofNat (c * 10 + d) % 10).toNat = d := by
    rw [UInt8.toNat_mod, hpair]
    change (c * 10 + d) % 10 = d
    omega
  have hten : c ≠ 10 := by omega
  simp only [parseMantissaByte, byte_of_mantissaByte, hdiv, hmod, hten, if_false]
  split <;> split <;> simp

theorem parseMantissa_pairs : ∀ (number : NumberParts) {ds : List Nat},
    (∀ d ∈ ds, d < 10) → ds.getLast? ≠ some 0 →
    parseMantissa false ((pairs 10 (evened ds)).map (mantissaByte number.isNegative)) number =
      { number with digits := number.digits ++ ds }
  | number, [], _, _ => by simp [evened, pairs, parseMantissa]
  | number, [d], hds, hlast => by
    have hd : d < 10 := hds d List.mem_cons_self
    have hzero : d ≠ 0 := by
      rintro rfl
      exact hlast rfl
    change parseMantissaByte false true (mantissaByte number.isNegative (d * 10 + 0)) number = _
    rw [parseMantissaByte_pair hd (by decide)]
    simp
  | number, c :: d :: ds, hds, hlast => by
    have hc : c < 10 := hds c List.mem_cons_self
    have hd : d < 10 := hds d (List.mem_cons_of_mem c List.mem_cons_self)
    have hrest : ∀ x ∈ ds, x < 10 := fun x hx =>
      hds x (List.mem_cons_of_mem c (List.mem_cons_of_mem d hx))
    have hlast' : ds.getLast? ≠ some 0 := getLast?_tail_ne (getLast?_tail_ne hlast)
    have hkept : ¬ (d = 0 ∧ (List.map (mantissaByte number.isNegative)
        (pairs 10 (evened ds))).isEmpty = true) := by
      rintro ⟨rfl, hempty⟩
      cases ds with
      | nil => exact hlast rfl
      | cons e ds =>
        cases ds with
        | nil => simp [evened, pairs] at hempty
        | cons f ds => simp [pairs_evened_cons] at hempty
    rw [pairs_evened_cons, List.map_cons, parseMantissa, parseMantissaByte_pair hc hd]
    simp only [Bool.false_eq_true, and_false, if_false, if_neg hkept]
    have ih := parseMantissa_pairs
      { number with digits := number.digits ++ ([c] ++ [d]) } hrest hlast'
    rw [ih]
    simp

theorem parseMantissa_base100 (h : n.Normal) (hne : n.digits ≠ []) :
    parseMantissa true (n.base100.digits.map (mantissaByte n.isNegative))
      ⟨n.isNegative, 2 * n.base100.point, []⟩ = n := by
  obtain ⟨d, ds, hds⟩ := List.exists_cons_of_ne_nil hne
  have hnumeral : n.numeral.digits = d :: ds := hds
  have hdigits : ∀ x ∈ d :: ds, x < 10 := hnumeral ▸ h.digits_lt
  have hlast : (d :: ds).getLast? ≠ some 0 := hnumeral ▸ h.last_ne
  have hd : d < 10 := hdigits d List.mem_cons_self
  have hd₀ : d ≠ 0 := by
    rintro rfl
    exact h.head_ne (by rw [hnumeral]; rfl)
  have hdigits' : ∀ x ∈ ds, x < 10 := fun x hx => hdigits x (List.mem_cons_of_mem d hx)
  have hlast' : ds.getLast? ≠ some 0 := getLast?_tail_ne hlast
  have hpoint : n.base100.point = (n.decimalPointIndex + n.decimalPointIndex % 2) / 2 := rfl
  have hbase : n.base100.digits = pairs 10 n.aligned := rfl
  have hn : n = ⟨n.isNegative, n.decimalPointIndex, d :: ds⟩ := by rw [← hds]
  by_cases hodd : n.decimalPointIndex % 2 = 1
  · rw [hbase, aligned_of_odd hodd, hds, pairs_evened_cons, List.map_cons, parseMantissa,
      parseMantissaByte_pair (by decide) hd true _ ⟨n.isNegative, 2 * n.base100.point, []⟩]
    simp only [hd₀, false_and, and_self, if_true, if_false, List.nil_append]
    rw [parseMantissa_pairs ⟨n.isNegative, _, [d]⟩ hdigits' hlast', hpoint]
    conv_rhs => rw [hn]
    simp
    omega
  · -- the first digit is not zero, so the first turn is as all others
    have hfirst : ∀ source : List UInt8, ∀ number : NumberParts, ∀ e < 10,
        parseMantissa true (mantissaByte number.isNegative (d * 10 + e) :: source) number =
          parseMantissa false (mantissaByte number.isNegative (d * 10 + e) :: source) number := by
      intro source number e he
      simp only [parseMantissa, parseMantissaByte_pair hd he, hd₀, false_and]
    have hloop := parseMantissa_pairs ⟨n.isNegative, 2 * n.base100.point, []⟩ hdigits hlast
    have htwo : 2 * n.base100.point = n.decimalPointIndex := by omega
    rw [hbase, aligned_of_even hodd, hds]
    conv_rhs => rw [hn]
    rw [htwo] at hloop ⊢
    rw [List.nil_append] at hloop
    rw [← hloop]
    cases ds with
    | nil => exact hfirst [] ⟨n.isNegative, n.decimalPointIndex, []⟩ 0 (by decide)
    | cons e ds =>
      have he : e < 10 := hdigits' e List.mem_cons_self
      rw [pairs_evened_cons, List.map_cons]
      exact hfirst _ ⟨n.isNegative, n.decimalPointIndex, []⟩ e he

theorem length_mantissa (h : n.Storable) :
    (mantissa n.isNegative n.base100.digits).length ≤ 20 := by
  have hle := (fits_iff h.representable).mp h.fits
  unfold mantissa sentinel
  split
  next hend =>
    simp only [List.length_append, List.length_map, List.length_singleton]
    omega
  · simpa using hle

set_option maxRecDepth 4000 in
theorem exponent_sign (k : Nat) (hk : k < 256) :
    (UInt8.ofNat k &&& 0x80 == 0) = decide (k < 128) := by
  revert k
  decide

theorem exponent_point (k : Nat) (hk : k < 128) :
    (UInt8.ofNat (128 + k) - 193).toInt8.toInt = (k : Int) - 65 := by
  revert k
  decide

theorem exponentByte_parts {point : Int} (hlower : -64 ≤ point) (hupper : point ≤ 63)
    (isNegative : Bool) :
    (exponentByte isNegative (2 * point) &&& 0x80 == 0) = isNegative ∧
      ((if isNegative then ~~~exponentByte isNegative (2 * point)
        else exponentByte isNegative (2 * point)) - 193).toInt8.toInt * 2 + 2 = 2 * point := by
  have hbyte := toNat_exponentByte hlower hupper isNegative
  have hplain := toNat_exponentByte hlower hupper false
  have hnot : (if isNegative then ~~~exponentByte isNegative (2 * point)
      else exponentByte isNegative (2 * point)) = exponentByte false (2 * point) := by
    cases isNegative with
    | false => rfl
    | true => simp [exponentByte]
  simp only [Bool.false_eq_true, if_false] at hplain
  refine ⟨?_, ?_⟩
  · have hk : (exponentByte isNegative (2 * point)).toNat < 256 := UInt8.toNat_lt _
    have hsign := exponent_sign _ hk
    rw [UInt8.ofNat_toNat] at hsign
    rw [hsign]
    cases isNegative <;> simp at hbyte ⊢ <;> omega
  · rw [hnot]
    have hk : exponentByte false (2 * point) = UInt8.ofNat (128 + (point + 64).toNat) := by
      rw [← UInt8.toNat_inj, UInt8.toNat_ofNat']
      omega
    rw [hk, exponent_point _ (by omega)]
    omega

/-- The decoder drops the end mark of a negative mantissa and nothing else. -/
theorem drop_sentinel {ps : List Nat} (hps : ∀ p ∈ ps, p < 100) (isNegative : Bool) :
    (if isNegative ∧ (mantissa isNegative ps).getLast? = some 102 then
        (mantissa isNegative ps).dropLast
      else mantissa isNegative ps) = ps.map (mantissaByte isNegative) := by
  cases isNegative with
  | false => simp [mantissa, sentinel]
  | true =>
    by_cases hend : ps.length < 20
    · simp [mantissa, sentinel, hend]
    · have hmantissa : mantissa true ps = ps.map (mantissaByte true) := by
        simp [mantissa, sentinel, hend]
      have hlast : (ps.map (mantissaByte true)).getLast? ≠ some 102 := by
        intro h
        obtain ⟨p, hp, heq⟩ := List.mem_map.mp (List.mem_of_getLast? h)
        have := toNat_mantissaByte (hps p hp) true
        rw [heq] at this
        simp only [if_true] at this
        have h102 : (102 : UInt8).toNat = 102 := rfl
        omega
      rw [hmantissa, if_neg fun h => hlast h.2]

theorem parseOracleNumber_toOracleNumber (h : n.Storable) (hne : n.digits ≠ [])
    (rest : List UInt8) : parseOracleNumber (n.toOracleNumber ++ rest) = .ok n := by
  obtain ⟨hl, hu⟩ := h.representable.base100_point
  obtain ⟨hsign, hpoint⟩ := exponentByte_parts hl hu n.isNegative
  have hle := length_mantissa h
  have hps := (h.normal.base100 hne).digits_lt
  have hcount : (UInt8.ofNat ((mantissa n.isNegative n.base100.digits).length + 1) - 1).toNat =
      (mantissa n.isNegative n.base100.digits).length := by
    have hone : UInt8.ofNat ((mantissa n.isNegative n.base100.digits).length + 1) - 1 =
        UInt8.ofNat (mantissa n.isNegative n.base100.digits).length := by
      rw [UInt8.ofNat_add]
      simp
    rw [hone, UInt8.toNat_ofNat']
    omega
  have hpos : (mantissa n.isNegative n.base100.digits).length ≠ 0 := by
    have := List.length_pos_iff.mpr (base100_ne_nil hne)
    simp only [mantissa, List.length_append, List.length_map]
    omega
  rw [toOracleNumber_eq hne]
  simp only [parseOracleNumber, List.cons_append, List.headD_cons, List.tail_cons, hcount,
    hsign, hpoint, if_neg (Nat.not_lt.mpr hle), if_neg hpos, List.take_left]
  have hdigits : ¬ n.digits.length > numberMaxDigits :=
    Nat.not_lt.mpr h.representable.length_le
  rw [drop_sentinel hps n.isNegative, parseMantissa_base100 h.normal hne, if_neg hdigits]

theorem parseOracleNumber_zero (hnil : n.digits = []) (rest : List UInt8) :
    parseOracleNumber (n.toOracleNumber ++ rest) = .ok ⟨false, 1, [0]⟩ := by
  rw [toOracleNumber_zero hnil]
  simp [parseOracleNumber]

end Dpi.NumberParts

end OracleNIO
