import OracleNIO.DpiNumber
import OracleNIO.Positional
import Mathlib.Data.Rat.Cast.Order
import Mathlib.Data.Nat.Digits.Lemmas

/-!
The texts that the number parser accepts, and what they stand for: a sign, digits with
an optional point, and an optional exponent of up to three digits.
-/

namespace OracleNIO

open Positional

namespace Dpi.NumberParts

variable (number : NumberParts)

/-- The digits and the place of the point. -/
def numeral : Numeral := ⟨number.digits, number.decimalPointIndex⟩

/-- The number that is meant. -/
def value : ℚ := (if number.isNegative then -1 else 1) * number.numeral.value 10

def Normal : Prop := number.numeral.Normal 10

/-- Within the precision and the range of Oracle numbers. -/
structure Representable : Prop where
  length_le : number.digits.length ≤ numberMaxDigits
  le_point : -129 ≤ number.decimalPointIndex
  point_le : number.decimalPointIndex ≤ 126

variable {n m : NumberParts}

theorem Normal.value_eq_zero_iff (h : n.Normal) : n.value = 0 ↔ n.digits = [] := by
  have hsign : (if n.isNegative then -1 else 1 : ℚ) ≠ 0 := by split <;> norm_num
  refine ⟨fun hzero => ?_, fun hnil => by simp [value, numeral, Numeral.value, hnil]⟩
  by_contra hne
  have hpos : (0 : ℚ) < n.numeral.value 10 := Numeral.Normal.value_pos h (by decide) hne
  exact mul_ne_zero hsign hpos.ne' hzero

theorem Normal.eq_of_value_eq (hn : n.Normal) (hm : m.Normal) (hne : n.digits ≠ [])
    (hvalue : n.value = m.value) : n = m := by
  have hn₀ : (0 : ℚ) < n.numeral.value 10 := Numeral.Normal.value_pos hn (by decide) hne
  have hm₀ : (0 : ℚ) ≤ m.numeral.value 10 := Numeral.value_nonneg
  have hsame : n.isNegative = m.isNegative ∧
      (n.numeral.value 10 : ℚ) = m.numeral.value 10 := by
    unfold value at hvalue
    cases hns : n.isNegative <;> cases hms : m.isNegative <;> simp [hns, hms] at hvalue
    · exact ⟨rfl, hvalue⟩
    · linarith
    · linarith
    · exact ⟨rfl, hvalue⟩
  have hnumeral := Numeral.Normal.eq_of_value_eq hn hm (by decide) hne hsame.2
  obtain ⟨hdigits, hpoint⟩ := Numeral.mk.inj hnumeral
  cases n
  cases m
  simp_all

end Dpi.NumberParts

namespace NumberTexts

open Dpi

abbrev Digit := Fin 10

def digitText (digits : List Digit) : List UInt8 :=
  digits.map fun digit : Digit => digitChar digit.val

def digitValues (digits : List Digit) : List Nat :=
  digits.map Fin.val

/-- An exponent as it is written. -/
structure ExponentText where
  isCapital : Bool
  /-- Whether an explicit sign is a minus. -/
  sign : Option Bool
  digits : List Digit
  digits_ne_nil : digits ≠ []
  length_digits : digits.length ≤ 3

namespace ExponentText

variable (e : ExponentText)

def marker : UInt8 := if e.isCapital then 'E'.toUInt8 else 'e'.toUInt8

def signText : List UInt8 :=
  match e.sign with
  | none => []
  | some isNegative => [if isNegative then minus else plus]

/-- The characters of the exponent. -/
def text : List UInt8 := e.marker :: (e.signText ++ digitText e.digits)

def magnitude : Nat := Nat.ofDigits 10 (digitValues e.digits).reverse

def value : Int := if e.sign = some true then -(e.magnitude : Int) else e.magnitude

end ExponentText

/-- A number as it is written. -/
structure NumberText where
  isNegative : Bool
  whole : List Digit
  /-- The digits after the point, if there is one. -/
  fraction : Option (List Digit)
  exponent : Option ExponentText

namespace NumberText

variable (t : NumberText)

def signText : List UInt8 := if t.isNegative then [minus] else []

def fractionText : List UInt8 :=
  match t.fraction with
  | none => []
  | some digits => point :: digitText digits

def exponentText : List UInt8 :=
  match t.exponent with
  | none => []
  | some e => e.text

/-- The characters of the number. -/
def text : List UInt8 :=
  t.signText ++ (digitText t.whole ++ (t.fractionText ++ t.exponentText))

def fractionDigits : List Digit := t.fraction.getD []

def exponentValue : Int :=
  match t.exponent with
  | none => 0
  | some e => e.value

/-- The number that is meant. -/
def value : ℚ :=
  (if t.isNegative then -1 else 1) *
    ((Nat.ofDigits 10 (digitValues t.whole).reverse : Nat) +
      Positional.fraction 10 (digitValues t.fractionDigits)) * 10 ^ t.exponentValue

/-- The number as it is written, with all of its zeros. -/
def numeral : Numeral where
  digits := digitValues t.whole ++ digitValues t.fractionDigits
  point := t.whole.length + t.exponentValue

/-- What the parser makes of the text. -/
def parts : NumberParts where
  isNegative := t.isNegative
  decimalPointIndex := t.numeral.normalize.point
  digits := t.numeral.normalize.digits

end NumberText

theorem digitValues_lt (digits : List Digit) : ∀ d ∈ digitValues digits, d < 10 := by
  intro d hd
  obtain ⟨digit, -, rfl⟩ := List.mem_map.mp hd
  exact digit.isLt

@[simp]
theorem length_digitValues (digits : List Digit) :
    (digitValues digits).length = digits.length := List.length_map _

namespace NumberText

variable (t : NumberText)

theorem parts_normal : t.parts.Normal := by
  refine Numeral.normalize_normal (n := t.numeral) fun d hd => ?_
  rcases List.mem_append.mp hd with hd | hd
  · exact digitValues_lt _ d hd
  · exact digitValues_lt _ d hd

theorem value_numeral :
    t.value = (if t.isNegative then -1 else 1) * t.numeral.value 10 := by
  have hwhole : ((Nat.ofDigits 10 (digitValues t.whole).reverse : Nat) : ℚ) =
      Positional.fraction 10 (digitValues t.whole) *
        (10 : Nat) ^ (digitValues t.whole).length :=
    ofDigits_reverse (by decide)
  have hdigits : (Positional.fraction 10 t.numeral.digits : ℚ) =
      Positional.fraction 10 (digitValues t.whole) +
        Positional.fraction 10 (digitValues t.fractionDigits) /
          (10 : Nat) ^ (digitValues t.whole).length :=
    fraction_append (by decide)
  have hpow : ((10 : ℚ) ^ t.numeral.point) = 10 ^ t.whole.length * 10 ^ t.exponentValue := by
    rw [← zpow_natCast, ← zpow_add₀ (by norm_num)]
    rfl
  unfold NumberText.value Numeral.value
  rw [hwhole, hdigits, length_digitValues]
  push_cast
  rw [hpow]
  field_simp

theorem value_parts : t.parts.value = t.value := by
  have h : t.parts.numeral.value 10 = (t.numeral.value 10 : ℚ) :=
    Numeral.value_normalize (by decide)
  rw [value_numeral, NumberParts.value, h]
  rfl

end NumberText

section Scanning

theorem isDecimalDigit_digitChar (digit : Digit) : isDecimalDigit (digitChar digit) = true := by
  revert digit
  decide

theorem digitOf_digitChar (digit : Digit) : digitOf (digitChar digit) = digit := by
  revert digit
  decide

theorem digitChar_ne_point (digit : Digit) : digitChar digit ≠ point := by
  revert digit
  decide

theorem digitChar_ne_sign (digit : Digit) :
    digitChar digit ≠ minus ∧ digitChar digit ≠ plus := by
  revert digit
  decide

theorem isExponentMarker_digitChar (digit : Digit) :
    isExponentMarker (digitChar digit) = false := by
  revert digit
  decide

theorem exists_digit {c : UInt8} (h : isDecimalDigit c = true) :
    ∃ digit : Digit, digitChar digit = c := by
  have hzero : '0'.toUInt8.toNat = 48 := rfl
  have hnine : '9'.toUInt8.toNat = 57 := rfl
  have hbounds : '0'.toUInt8.toNat ≤ c.toNat ∧ c.toNat ≤ '9'.toUInt8.toNat := by
    simpa [isDecimalDigit, UInt8.le_iff_toNat_le] using h
  refine ⟨⟨c.toNat - 48, by omega⟩, ?_⟩
  apply UInt8.toNat_inj.mp
  simp only [digitChar, UInt8.toNat_add, UInt8.toNat_ofNat']
  omega

/-- The digits kept after more of them are read. -/
def keepDigits (kept digits : List Nat) : List Nat :=
  if kept = [] then digits.dropWhile (· == 0) else kept ++ digits

theorem keepDigits_cons (kept digits : List Nat) (d : Nat) :
    keepDigits kept (d :: digits) =
      if d = 0 ∧ kept = [] then keepDigits kept digits
      else keepDigits (kept ++ [d]) digits := by
  by_cases hkept : kept = []
  · by_cases hd : d = 0 <;> simp [keepDigits, hkept, hd]
  · simp [keepDigits, hkept]

theorem keepDigits_append (whole rest : List Nat) :
    keepDigits (keepDigits [] whole) rest = keepDigits [] (whole ++ rest) := by
  simp only [keepDigits, if_true, List.dropWhile_append, List.isEmpty_iff]

/-- The digits before the point end here. -/
def StopsWhole (rest : List UInt8) : Prop :=
  ∀ c ∈ rest.head?, c = point ∨ isExponentMarker c = true

/-- The digits after the point end here. -/
def StopsFraction (rest : List UInt8) : Prop :=
  ∀ c ∈ rest.head?, isExponentMarker c = true

theorem scanWhole_digits {rest : List UInt8} (hrest : StopsWhole rest) (digits : List Digit)
    (kept : List Nat) :
    scanWhole (digitText digits ++ rest) kept =
      .ok (keepDigits kept (digitValues digits), rest) := by
  induction digits generalizing kept with
  | nil =>
    have hkept : keepDigits kept (digitValues []) = kept := by
      by_cases h : kept = [] <;> simp [keepDigits, digitValues, h]
    rw [hkept]
    cases rest with
    | nil => rfl
    | cons c rest =>
      have hc : c = point ∨ isExponentMarker c = true := hrest c rfl
      simp [digitText, scanWhole, hc]
  | cons digit digits ih =>
    change scanWhole (digitChar digit :: (digitText digits ++ rest)) kept =
      .ok (keepDigits kept (digit.val :: digitValues digits), rest)
    simp only [scanWhole, digitChar_ne_point, isExponentMarker_digitChar,
      isDecimalDigit_digitChar, digitOf_digitChar, ih, keepDigits_cons]
    rw [if_neg (by simp), if_neg (by simp)]
    split <;> rfl

theorem of_scanWhole {value : List UInt8} {kept digits : List Nat} {rest : List UInt8}
    (h : scanWhole value kept = .ok (digits, rest)) :
    ∃ whole, value = digitText whole ++ rest ∧ StopsWhole rest := by
  induction value generalizing kept with
  | nil =>
    simp only [scanWhole, Except.ok.injEq, Prod.mk.injEq] at h
    exact ⟨[], h.2, by simp [StopsWhole, ← h.2]⟩
  | cons c value ih =>
    simp only [scanWhole] at h
    split at h
    next hstop =>
      simp only [Except.ok.injEq, Prod.mk.injEq] at h
      exact ⟨[], h.2, by simpa [StopsWhole, ← h.2] using hstop⟩
    next =>
      split at h
      · cases h
      next hdigit =>
        obtain ⟨digit, rfl⟩ := exists_digit (c := c) (by simpa using hdigit)
        split at h <;>
          (obtain ⟨whole, hvalue, hstops⟩ := ih h
           exact ⟨digit :: whole, congrArg _ hvalue, hstops⟩)

/-- How far the point moves over digits of which none is kept. -/
def movedPoint (kept digits : List Nat) : Nat :=
  if kept = [] then (digits.takeWhile (· == 0)).length else 0

theorem scanFraction_digits {rest : List UInt8} (hrest : StopsFraction rest)
    (digits : List Digit) (decimalPointIndex : Int) (kept : List Nat) :
    scanFraction (digitText digits ++ rest) decimalPointIndex kept =
      .ok (decimalPointIndex - movedPoint kept (digitValues digits),
        keepDigits kept (digitValues digits), rest) := by
  induction digits generalizing decimalPointIndex kept with
  | nil =>
    have hkept : keepDigits kept (digitValues []) = kept := by
      by_cases h : kept = [] <;> simp [keepDigits, digitValues, h]
    have hmoved : movedPoint kept (digitValues []) = 0 := by simp [movedPoint, digitValues]
    rw [hkept, hmoved]
    cases rest with
    | nil => simp [digitText, scanFraction]
    | cons c rest =>
      have hc : isExponentMarker c = true := hrest c rfl
      simp [digitText, scanFraction, hc]
  | cons digit digits ih =>
    change scanFraction (digitChar digit :: (digitText digits ++ rest)) decimalPointIndex kept =
      .ok (decimalPointIndex - movedPoint kept (digit.val :: digitValues digits),
        keepDigits kept (digit.val :: digitValues digits), rest)
    simp only [scanFraction, isExponentMarker_digitChar, isDecimalDigit_digitChar,
      digitOf_digitChar, ih, keepDigits_cons]
    by_cases hzero : digit.val = 0 ∧ kept = []
    · simp [hzero, movedPoint]
      omega
    · by_cases hkept : kept = [] <;> simp_all [movedPoint]

theorem of_scanFraction {value : List UInt8} {start decimalPointIndex : Int}
    {kept digits : List Nat} {rest : List UInt8}
    (h : scanFraction value start kept = .ok (decimalPointIndex, digits, rest)) :
    ∃ fraction, value = digitText fraction ++ rest ∧ StopsFraction rest := by
  induction value generalizing start kept with
  | nil =>
    simp only [scanFraction, Except.ok.injEq, Prod.mk.injEq] at h
    exact ⟨[], h.2.2, by simp [StopsFraction, ← h.2.2]⟩
  | cons c value ih =>
    simp only [scanFraction] at h
    split at h
    next hstop =>
      simp only [Except.ok.injEq, Prod.mk.injEq] at h
      exact ⟨[], h.2.2, by simpa [StopsFraction, ← h.2.2] using hstop⟩
    next =>
      split at h
      · cases h
      next hdigit =>
        obtain ⟨digit, rfl⟩ := exists_digit (c := c) (by simpa using hdigit)
        split at h <;>
          (obtain ⟨fraction, hvalue, hstops⟩ := ih h
           exact ⟨digit :: fraction, congrArg _ hvalue, hstops⟩)

theorem scanExponentDigits_digits (digits : List Digit) (kept : List Nat)
    (hlength : kept.length + digits.length ≤ 3) :
    scanExponentDigits (digitText digits) kept = .ok (kept ++ digitValues digits) := by
  induction digits generalizing kept with
  | nil => simp [digitText, digitValues, scanExponentDigits]
  | cons digit digits ih =>
    rw [List.length_cons] at hlength
    change scanExponentDigits (digitChar digit :: digitText digits) kept =
      .ok (kept ++ digit.val :: digitValues digits)
    have hkept : kept.length ≠ 3 := by omega
    have hrest : (kept ++ [digit.val]).length + digits.length ≤ 3 := by
      simp only [List.length_append, List.length_singleton]
      omega
    simp [scanExponentDigits, isDecimalDigit_digitChar, digitOf_digitChar, hkept, ih _ hrest]

theorem of_scanExponentDigits {value : List UInt8} {kept digits : List Nat}
    (hkept : kept.length ≤ 3) (h : scanExponentDigits value kept = .ok digits) :
    ∃ more, value = digitText more ∧ digits = kept ++ digitValues more ∧
      kept.length + more.length ≤ 3 := by
  induction value generalizing kept with
  | nil =>
    simp only [scanExponentDigits, Except.ok.injEq] at h
    exact ⟨[], rfl, by simp [digitValues, h], by simpa using hkept⟩
  | cons c value ih =>
    simp only [scanExponentDigits] at h
    split at h
    · cases h
    next hdigit =>
      obtain ⟨digit, rfl⟩ := exists_digit (c := c) (by simpa using hdigit)
      split at h
      · cases h
      next hlength =>
        have hmore : (kept ++ [digit.val]).length ≤ 3 := by
          simp only [List.length_append, List.length_singleton]
          omega
        rw [digitOf_digitChar] at h
        obtain ⟨more, hvalue, hdigits, hle⟩ := ih hmore h
        refine ⟨digit :: more, congrArg _ hvalue, by simp [hdigits, digitValues], ?_⟩
        simp only [List.length_append, List.length_cons, List.length_nil] at hle ⊢
        omega

theorem isExponentMarker_point : isExponentMarker point = false := rfl

theorem isExponentMarker_minus : isExponentMarker minus = false := rfl

theorem keepDigits_nil (kept : List Nat) : keepDigits kept [] = kept := by
  by_cases h : kept = [] <;> simp [keepDigits, h]

theorem movedPoint_nil (kept : List Nat) : movedPoint kept [] = 0 := by simp [movedPoint]

/-- Where the point stands, counted from the first digit that is kept. -/
theorem point_kept (whole rest : List Nat) :
    ((keepDigits [] whole).length : Int) - movedPoint (keepDigits [] whole) rest =
      whole.length - ((whole ++ rest).takeWhile (· == 0)).length := by
  have hlength : (whole.takeWhile (· == 0)).length + (whole.dropWhile (· == 0)).length =
      whole.length := by
    rw [← List.length_append, List.takeWhile_append_dropWhile]
  have hkept : keepDigits [] whole = whole.dropWhile (· == 0) := if_pos rfl
  rw [hkept, movedPoint, List.takeWhile_append]
  by_cases hzero : whole.dropWhile (· == 0) = []
  · have hall : (whole.takeWhile (· == 0)).length = whole.length := by
      simpa [hzero] using hlength
    rw [if_pos hzero, if_pos hall, hzero, List.length_append]
    simp
  · have hpos : 0 < (whole.dropWhile (· == 0)).length := List.length_pos_iff.mpr hzero
    rw [if_neg hzero, if_neg (by omega)]
    omega

theorem decimalNumber_digitValues (digits : List Digit) :
    decimalNumber (digitValues digits) = Nat.ofDigits 10 (digitValues digits).reverse := by
  rw [Nat.ofDigits_eq_foldr, List.foldr_reverse, decimalNumber]
  congr 1
  funext number digit
  exact Nat.add_comm _ _

namespace NumberText

variable (t : NumberText)

theorem stopsFraction_exponentText : StopsFraction t.exponentText := by
  intro c hc
  unfold exponentText at hc
  split at hc
  · simp at hc
  next e _ =>
    simp only [ExponentText.text, List.head?_cons, Option.mem_some_iff] at hc
    rw [← hc, ExponentText.marker]
    split <;> rfl

theorem stopsWhole_fractionText : StopsWhole (t.fractionText ++ t.exponentText) := by
  intro c hc
  unfold fractionText at hc
  split at hc
  · exact .inr (t.stopsFraction_exponentText c hc)
  · exact .inl (by simpa using hc.symm)

theorem scanPoint_text (kept : List Nat) :
    scanPoint (t.fractionText ++ t.exponentText) kept =
      .ok (kept.length - movedPoint kept (digitValues t.fractionDigits),
        keepDigits kept (digitValues t.fractionDigits), t.exponentText) := by
  have hstops := t.stopsFraction_exponentText
  cases hfraction : t.fraction with
  | none =>
    simp only [fractionText, fractionDigits, hfraction, List.nil_append, Option.getD_none,
      digitValues, List.map_nil, keepDigits_nil, movedPoint_nil]
    cases htext : t.exponentText with
    | nil => simp [scanPoint]
    | cons c rest =>
      have hc : c ≠ point := by
        rintro rfl
        have := hstops point (by rw [htext]; rfl)
        rw [isExponentMarker_point] at this
        cases this
      simp [scanPoint, hc]
  | some digits =>
    simp only [fractionText, fractionDigits, hfraction, Option.getD_some, List.cons_append]
    exact scanFraction_digits hstops digits kept.length kept

theorem scanExponent_text : scanExponent t.exponentText = .ok (t.exponentValue, []) := by
  unfold exponentText exponentValue
  cases t.exponent with
  | none => rfl
  | some e =>
    obtain ⟨digit, digits, hdigits⟩ := List.exists_cons_of_ne_nil e.digits_ne_nil
    have hmarker : isExponentMarker e.marker = true := by
      unfold ExponentText.marker
      split <;> rfl
    have hscan : scanExponentDigits (digitText e.digits) [] = .ok (digitValues e.digits) :=
      scanExponentDigits_digits e.digits [] (by simpa using e.length_digits)
    have hne : digitValues e.digits ≠ [] := by simp [digitValues, e.digits_ne_nil]
    have hhead : (digitText e.digits).head? = some (digitChar digit) := by
      simp [digitText, hdigits]
    have hnumber : decimalNumber (digitValues e.digits) = e.magnitude :=
      decimalNumber_digitValues e.digits
    have hsigns := digitChar_ne_sign digit
    have hplus : plus ≠ minus := by decide
    rcases hsign : e.sign with _ | _ | _ <;>
      simp [ExponentText.text, ExponentText.signText, ExponentText.value, scanExponent, hmarker,
        hsign, hhead, hsigns, hplus, hscan, hne, hnumber, bind, Except.bind]

theorem head_body :
    (digitText t.whole ++ (t.fractionText ++ t.exponentText)).head? ≠ some minus := by
  cases hwhole : t.whole with
  | nil =>
    intro h
    rcases t.stopsWhole_fractionText minus h with hpoint | hmarker
    · exact absurd hpoint (by decide)
    · rw [isExponentMarker_minus] at hmarker
      cases hmarker
  | cons digit digits => simp [digitText, digitChar_ne_sign]

theorem parseNumberString_text (hne : t.text ≠ []) (hlength : t.text.length ≤ numberAsTextChars) :
    parseNumberString t.text =
      if t.parts.digits.length > numberMaxDigits ∨ t.parts.decimalPointIndex > 126 ∨
          t.parts.decimalPointIndex < -129 then
        .error ⟨"check value can be represented", .numberNoRepr⟩
      else .ok t.parts := by
  have hsign : (t.text.head? == some minus) = t.isNegative := by
    cases h : t.isNegative with
    | false => simpa [text, signText, h] using t.head_body
    | true => simp [text, signText, h]
  have hbody : (if t.isNegative then t.text.tail else t.text) =
      digitText t.whole ++ (t.fractionText ++ t.exponentText) := by
    cases h : t.isNegative <;> simp [text, signText, h]
  have hdigits : stripTrailingZeros (keepDigits (keepDigits [] (digitValues t.whole))
      (digitValues t.fractionDigits)) = t.parts.digits := by
    rw [keepDigits_append]
    rfl
  have hpoint : (keepDigits [] (digitValues t.whole)).length -
      movedPoint (keepDigits [] (digitValues t.whole)) (digitValues t.fractionDigits) +
        t.exponentValue = t.parts.decimalPointIndex := by
    rw [point_kept, length_digitValues]
    change _ = (t.whole.length : Int) + t.exponentValue - _
    change (t.whole.length : Int) - (t.numeral.digits.takeWhile (· == 0)).length + _ = _
    omega
  unfold parseNumberString
  rw [if_neg (by simpa using hne), if_neg (by omega)]
  simp only [hsign, hbody, scanWhole_digits t.stopsWhole_fractionText, scanPoint_text,
    scanExponent_text, bind, Except.bind, ne_eq, not_true_eq_false, if_false, hdigits, hpoint]
  rfl

end NumberText

theorem of_scanPoint {value : List UInt8} {kept digits : List Nat} {decimalPointIndex : Int}
    {rest : List UInt8} (hvalue : StopsWhole value)
    (h : scanPoint value kept = .ok (decimalPointIndex, digits, rest)) :
    ∃ fraction : Option (List Digit),
      value = (fraction.elim [] fun digits => point :: digitText digits) ++ rest ∧
        StopsFraction rest := by
  cases value with
  | nil =>
    simp only [scanPoint, Except.ok.injEq, Prod.mk.injEq] at h
    exact ⟨none, by simp [← h.2.2], by simp [StopsFraction, ← h.2.2]⟩
  | cons c value =>
    simp only [scanPoint] at h
    split at h
    next hc =>
      obtain ⟨fraction, hfraction, hstops⟩ := of_scanFraction h
      exact ⟨some fraction, by simp [hc, hfraction], hstops⟩
    next hc =>
      simp only [Except.ok.injEq, Prod.mk.injEq] at h
      refine ⟨none, by simp [← h.2.2], ?_⟩
      rw [← h.2.2]
      intro c' hc'
      simp only [List.head?_cons, Option.mem_some_iff] at hc'
      subst hc'
      rcases hvalue c rfl with hpoint | hmarker
      · exact absurd hpoint hc
      · exact hmarker

theorem of_scanExponent {value : List UInt8} {exponent : Int}
    (h : scanExponent value = .ok (exponent, [])) :
    ∃ e : Option ExponentText, value = e.elim [] ExponentText.text := by
  cases value with
  | nil => exact ⟨none, rfl⟩
  | cons c value =>
    simp only [scanExponent] at h
    split at h
    next hmarker =>
      obtain ⟨isCapital, hcapital⟩ : ∃ isCapital : Bool,
          c = if isCapital then 'E'.toUInt8 else 'e'.toUInt8 := by
        rcases (by simpa [isExponentMarker] using hmarker : c = _ ∨ c = _) with rfl | rfl
        · exact ⟨false, rfl⟩
        · exact ⟨true, rfl⟩
      obtain ⟨sign, hsign⟩ : ∃ sign : Option Bool, value =
          (sign.elim [] fun isNegative => [if isNegative then minus else plus]) ++
            if value.head? = some minus ∨ value.head? = some plus then value.tail
            else value := by
        cases value with
        | nil => exact ⟨none, rfl⟩
        | cons c value =>
          by_cases hminus : c = minus
          · exact ⟨some true, by simp [hminus]⟩
          · by_cases hplus : c = plus
            · exact ⟨some false, by simp [hplus]⟩
            · exact ⟨none, by simp [hminus, hplus]⟩
      cases hscan : scanExponentDigits
          (if value.head? = some minus ∨ value.head? = some plus then value.tail else value) []
        with
      | error error => simp [hscan, bind, Except.bind] at h
      | ok exponentDigits =>
        obtain ⟨digits, htext, hdigits, hlength⟩ := of_scanExponentDigits (by simp) hscan
        have hne : digits ≠ [] := by
          rintro rfl
          simp [hscan, bind, Except.bind, hdigits, digitValues] at h
        refine ⟨some ⟨isCapital, sign, digits, hne, by simpa using hlength⟩, ?_⟩
        rw [hcapital, hsign, htext]
        cases sign <;> rfl
    next => simp at h

theorem exists_text {text : List UInt8} {number : NumberParts}
    (h : parseNumberString text = .ok number) :
    text ≠ [] ∧ text.length ≤ numberAsTextChars ∧ ∃ t : NumberText, t.text = text := by
  unfold parseNumberString at h
  split at h
  · cases h
  next hne =>
    split at h
    · cases h
    next hlength =>
      refine ⟨by simpa using hne, by omega, ?_⟩
      have hsign : text = (if text.head? == some minus then [minus] else []) ++
          if text.head? == some minus then text.tail else text := by
        cases text with
        | nil => rfl
        | cons c text => by_cases hc : c = minus <;> simp [hc]
      simp only [bind, Except.bind] at h
      generalize (text.head? == some minus) = isNegative at h hsign
      generalize (if isNegative then text.tail else text) = body at h hsign
      cases hwhole : scanWhole body [] with
      | error error => simp [hwhole] at h
      | ok scanned =>
        obtain ⟨kept, afterWhole⟩ := scanned
        obtain ⟨whole, hbody, hstops⟩ := of_scanWhole hwhole
        simp only [hwhole] at h
        cases hpoint : scanPoint afterWhole kept with
        | error error => simp [hpoint] at h
        | ok scanned =>
          obtain ⟨decimalPointIndex, digits, afterPoint⟩ := scanned
          obtain ⟨fraction, hfraction, -⟩ := of_scanPoint hstops hpoint
          simp only [hpoint] at h
          cases hexponent : scanExponent afterPoint with
          | error error => simp [hexponent] at h
          | ok scanned =>
            obtain ⟨exponent, rest⟩ := scanned
            simp only [hexponent] at h
            split at h
            · cases h
            next hrest =>
              obtain rfl : rest = [] := by simpa using hrest
              obtain ⟨e, he⟩ := of_scanExponent hexponent
              refine ⟨⟨isNegative, whole, fraction, e⟩, ?_⟩
              rw [hsign, hbody, hfraction, he]
              cases fraction <;> cases e <;> rfl

end Scanning

theorem NumberText.point_of_zero (t : NumberText) (h : t.parts.digits = []) :
    t.parts.decimalPointIndex = t.exponentValue - t.fractionDigits.length := by
  have hpoint : t.numeral.normalize.point = t.numeral.point - t.numeral.digits.length :=
    Numeral.normalize_point_of_nil h
  have hlength : t.numeral.digits.length = t.whole.length + t.fractionDigits.length := by
    simp [NumberText.numeral]
  change t.numeral.normalize.point = _
  rw [hpoint, hlength]
  change (t.whole.length : Int) + t.exponentValue - _ = _
  push_cast
  omega

theorem not_outOfRange_iff (number : NumberParts) :
    ¬ (number.digits.length > numberMaxDigits ∨ number.decimalPointIndex > 126 ∨
      number.decimalPointIndex < -129) ↔ number.Representable := by
  simp only [not_or, not_lt]
  exact ⟨fun h => ⟨h.1, h.2.2, h.2.1⟩, fun h => ⟨h.length_le, h.point_le, h.le_point⟩⟩

theorem parseNumberString_sound {text : List UInt8} {number : NumberParts}
    (h : parseNumberString text = .ok number) :
    text ≠ [] ∧ text.length ≤ numberAsTextChars ∧ number.Representable ∧
      ∃ t : NumberText, t.text = text ∧ t.parts = number := by
  obtain ⟨hne, hlength, t, rfl⟩ := exists_text h
  rw [t.parseNumberString_text hne hlength] at h
  split at h
  · cases h
  next hbounds =>
    obtain rfl : t.parts = number := Except.ok.inj h
    exact ⟨hne, hlength, (not_outOfRange_iff _).mp hbounds, t, rfl, rfl⟩

theorem parseNumberString_complete {t : NumberText} (hne : t.text ≠ [])
    (hlength : t.text.length ≤ numberAsTextChars) (h : t.parts.Representable) :
    parseNumberString t.text = .ok t.parts := by
  rw [t.parseNumberString_text hne hlength, if_neg ((not_outOfRange_iff _).mpr h)]

/-- The parser accepts the texts of the grammar within the precision and the range, zero
by the place of its point too, and yields the one number of their value without leading and
trailing zeros. -/
theorem parseNumberString_iff (text : List UInt8) (number : NumberParts) :
    parseNumberString text = .ok number ↔
      text ≠ [] ∧ text.length ≤ numberAsTextChars ∧ number.Normal ∧ number.Representable ∧
        ∃ t : NumberText, t.text = text ∧ t.isNegative = number.isNegative ∧
          t.value = number.value ∧
          (number.digits = [] →
            number.decimalPointIndex = t.exponentValue - t.fractionDigits.length) := by
  constructor
  · intro h
    obtain ⟨hne, hlength, hrepresentable, t, rfl, rfl⟩ := parseNumberString_sound h
    exact ⟨hne, hlength, t.parts_normal, hrepresentable, t, rfl, rfl, t.value_parts.symm,
      t.point_of_zero⟩
  · rintro ⟨hne, hlength, hnormal, hrepresentable, t, rfl, hsign, hvalue, hzero⟩
    have hparts : t.parts = number := by
      have hsame : number.value = t.parts.value := hvalue.symm.trans t.value_parts.symm
      by_cases hdigits : number.digits = []
      · have hparts : t.parts.digits = [] := by
          rw [← t.parts_normal.value_eq_zero_iff, ← hsame, hnormal.value_eq_zero_iff, hdigits]
        have hpoint : t.parts.decimalPointIndex = number.decimalPointIndex := by
          rw [t.point_of_zero hparts, hzero hdigits]
        have hsign' : t.parts.isNegative = number.isNegative := hsign
        cases h : t.parts
        cases number
        simp_all
      · exact (hnormal.eq_of_value_eq t.parts_normal hdigits hsame).symm
    rw [← hparts] at hrepresentable ⊢
    exact parseNumberString_complete hne hlength hrepresentable

end NumberTexts

end OracleNIO
