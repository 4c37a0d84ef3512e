import OracleNIO.OracleNumbers

/-!
Numbers between text and bytes, there and back: what a number is as text, which bytes
the encoder makes, and what is lost on the way.
-/

namespace OracleNIO

open Positional NumberTexts

namespace Dpi.NumberParts

variable {n : NumberParts}

theorem exists_digits : ∀ {ds : List Nat}, (∀ d ∈ ds, d < 10) →
    ∃ digits : List Digit, digitValues digits = ds
  | [], _ => ⟨[], rfl⟩
  | d :: ds, h => by
    obtain ⟨digits, hdigits⟩ := exists_digits fun x hx => h x (List.mem_cons_of_mem d hx)
    exact ⟨⟨d, h d List.mem_cons_self⟩ :: digits, by simp [digitValues, ← hdigits]⟩

theorem map_digitChar (digits : List Digit) :
    (digitValues digits).map digitChar = digitText digits := by
  simp [digitValues, digitText]

theorem digitChars_eq_map {decimalPointIndex : Int} {i : Nat} {ds : List Nat}
    (h : decimalPointIndex ≤ 0 ∨ decimalPointIndex < i ∨
      (i + ds.length : Int) ≤ decimalPointIndex) :
    digitChars decimalPointIndex i ds = ds.map digitChar := by
  induction ds generalizing i with
  | nil => rfl
  | cons d ds ih =>
    have hpoint : ¬ (0 < i ∧ (i : Int) = decimalPointIndex) := by
      simp only [List.length_cons] at h
      push_cast at h
      omega
    have hrest : decimalPointIndex ≤ 0 ∨ decimalPointIndex < (i + 1 : Nat) ∨
        ((i + 1 : Nat) + ds.length : Int) ≤ decimalPointIndex := by
      simp only [List.length_cons] at h
      push_cast at h ⊢
      omega
    simp [digitChars, hpoint, ih hrest]

theorem digitChars_append {decimalPointIndex : Int} {i : Nat} {ds es : List Nat}
    (hpos : 0 < decimalPointIndex) (hindex : (i + ds.length : Int) = decimalPointIndex)
    (hes : es ≠ []) :
    digitChars decimalPointIndex i (ds ++ es) =
      ds.map digitChar ++ point :: es.map digitChar := by
  induction ds generalizing i with
  | nil =>
    obtain ⟨e, es, rfl⟩ := List.exists_cons_of_ne_nil hes
    have hi : (i : Int) = decimalPointIndex := by simpa using hindex
    have hrest : digitChars decimalPointIndex (i + 1) es = es.map digitChar := by
      refine digitChars_eq_map (.inr (.inl ?_))
      push_cast
      omega
    have hi₀ : 0 < i := by omega
    simp [digitChars, hi, hi₀, hrest]
  | cons d ds ih =>
    have hpoint : ¬ (0 < i ∧ (i : Int) = decimalPointIndex) := by
      simp only [List.length_cons] at hindex
      push_cast at hindex
      omega
    have hrest : ((i + 1 : Nat) + ds.length : Int) = decimalPointIndex := by
      simp only [List.length_cons] at hindex
      push_cast at hindex ⊢
      omega
    simp [digitChars, hpoint, ih hrest]

/-- A minus sign where there is one. -/
def signText (n : NumberParts) : List UInt8 := if n.isNegative then [minus] else []

theorem asText_of_nonpos (h : n.decimalPointIndex ≤ 0) :
    n.asText = n.signText ++ (digitChar 0 :: point ::
      (List.replicate (-n.decimalPointIndex).toNat (digitChar 0) ++
        n.digits.map digitChar)) := by
  have hlarge : ¬ n.decimalPointIndex > n.digits.length := by omega
  simp [asText, signText, h, hlarge, digitChars_eq_map (.inl h)]

theorem asText_of_lt (hpos : 0 < n.decimalPointIndex)
    (h : n.decimalPointIndex < n.digits.length) :
    n.asText = n.signText ++ ((n.digits.take n.decimalPointIndex.toNat).map digitChar ++
      point :: (n.digits.drop n.decimalPointIndex.toNat).map digitChar) := by
  have hsmall : ¬ n.decimalPointIndex ≤ 0 := by omega
  have hlarge : ¬ n.decimalPointIndex > n.digits.length := by omega
  have hdrop : n.digits.drop n.decimalPointIndex.toNat ≠ [] := by
    rw [← List.length_pos_iff, List.length_drop]
    omega
  have hindex : ((0 : Nat) + (n.digits.take n.decimalPointIndex.toNat).length : Int) =
      n.decimalPointIndex := by
    rw [List.length_take]
    omega
  have hchars := digitChars_append hpos hindex hdrop
  rw [List.take_append_drop] at hchars
  simp [asText, signText, hsmall, hlarge, hchars]

theorem asText_of_le (hpos : 0 < n.decimalPointIndex)
    (h : n.digits.length ≤ n.decimalPointIndex) :
    n.asText = n.signText ++ (n.digits.map digitChar ++
      List.replicate (n.decimalPointIndex - n.digits.length).toNat (digitChar 0)) := by
  have hsmall : ¬ n.decimalPointIndex ≤ 0 := by omega
  have hchars : digitChars n.decimalPointIndex 0 n.digits = n.digits.map digitChar :=
    digitChars_eq_map (.inr (.inr (by simpa using h)))
  by_cases hlarge : n.decimalPointIndex > n.digits.length
  · simp [asText, signText, hsmall, hlarge, hchars]
  · have hnone : (n.decimalPointIndex - n.digits.length).toNat = 0 := by omega
    simp [asText, signText, hsmall, hlarge, hchars, hnone]

theorem length_asText (n : NumberParts) : n.asText.length = n.numBytes := by
  have hsign : n.signText.length = if n.isNegative then 1 else 0 := by
    unfold signText
    split <;> rfl
  rcases le_or_gt n.decimalPointIndex 0 with hsmall | hpos
  · rw [asText_of_nonpos hsmall]
    simp only [List.length_append, hsign, List.length_cons, List.length_replicate,
      List.length_map, numBytes, if_pos hsmall]
    omega
  · rcases lt_or_ge n.decimalPointIndex n.digits.length with hinside | hlarge
    · rw [asText_of_lt hpos hinside]
      simp only [List.length_append, hsign, List.length_cons, List.length_map, numBytes,
        if_neg (Int.not_le.mpr hpos), if_pos hinside, List.length_take, List.length_drop]
      omega
    · rw [asText_of_le hpos hlarge]
      simp only [List.length_append, hsign, List.length_replicate, List.length_map, numBytes,
        if_neg (Int.not_le.mpr hpos), if_neg (Int.not_lt.mpr hlarge)]
      omega

theorem Representable.numBytes_le (h : n.Representable) : n.numBytes ≤ numberAsTextChars := by
  obtain ⟨hdigits, hlower, hupper⟩ := h
  have hmax : numberMaxDigits = 40 := rfl
  have hchars : numberAsTextChars = 172 := rfl
  unfold numBytes
  cases n.isNegative <;> simp <;> split <;> try split
  all_goals omega

theorem exists_numberText (hdigits : ∀ d ∈ n.digits, d < 10) :
    ∃ t : NumberText, t.text = n.asText ∧ t.isNegative = n.isNegative ∧ t.value = n.value := by
  obtain ⟨digits, hvalues⟩ := exists_digits hdigits
  have hchars : n.digits.map digitChar = digitText digits := by
    rw [← hvalues, map_digitChar]
  have hzeros : ∀ k : Nat, List.replicate k (digitChar 0) =
      digitText (List.replicate k (0 : Digit)) := fun k => by simp [digitText]
  have hzeroValues : ∀ k : Nat, digitValues (List.replicate k (0 : Digit)) =
      List.replicate k 0 := fun k => by simp [digitValues]
  have hlength : n.digits.length = digits.length := by rw [← hvalues, length_digitValues]
  rcases le_or_gt n.decimalPointIndex 0 with hsmall | hpos
  · refine ⟨⟨n.isNegative, [0],
      some (List.replicate (-n.decimalPointIndex).toNat 0 ++ digits), none⟩, ?_, rfl, ?_⟩
    · rw [asText_of_nonpos hsmall, hchars, hzeros]
      simp [NumberText.text, NumberText.signText, NumberText.fractionText,
        NumberText.exponentText, signText, digitText]
    · rw [NumberText.value_numeral, value]
      congr 1
      have hnumeral : digitValues [(0 : Digit)] ++
          digitValues (List.replicate (-n.decimalPointIndex).toNat 0 ++ digits) =
            List.replicate ((-n.decimalPointIndex).toNat + 1) 0 ++ n.digits := by
        rw [← hvalues, List.replicate_succ, List.cons_append, ← hzeroValues]
        simp [digitValues]
      simp only [NumberText.numeral, NumberText.fractionDigits, Option.getD_some, hnumeral]
      rw [Numeral.value_leading_zeros (by decide)]
      congr 2
      simp [NumberText.exponentValue]
      omega
  · rcases lt_or_ge n.decimalPointIndex n.digits.length with hinside | hlarge
    · refine ⟨⟨n.isNegative, digits.take n.decimalPointIndex.toNat,
        some (digits.drop n.decimalPointIndex.toNat), none⟩, ?_, rfl, ?_⟩
      · rw [asText_of_lt hpos hinside, List.map_take, List.map_drop, hchars]
        simp [NumberText.text, NumberText.signText, NumberText.fractionText,
          NumberText.exponentText, signText, digitText, List.map_take, List.map_drop]
      · rw [NumberText.value_numeral, value]
        congr 1
        have hnumeral : digitValues (digits.take n.decimalPointIndex.toNat) ++
            digitValues (digits.drop n.decimalPointIndex.toNat) = n.digits := by
          rw [← hvalues]
          simp only [digitValues]
          rw [← List.map_append, List.take_append_drop]
        simp only [NumberText.numeral, NumberText.fractionDigits, Option.getD_some, hnumeral]
        congr 2
        simp [NumberText.exponentValue]
        omega
    · refine ⟨⟨n.isNegative,
        digits ++ List.replicate (n.decimalPointIndex - n.digits.length).toNat 0, none, none⟩,
        ?_, rfl, ?_⟩
      · rw [asText_of_le hpos hlarge, hchars, hzeros]
        simp [NumberText.text, NumberText.signText, NumberText.fractionText,
          NumberText.exponentText, signText, digitText]
      · rw [NumberText.value_numeral, value]
        congr 1
        have hnumeral : digitValues (digits ++
            List.replicate (n.decimalPointIndex - n.digits.length).toNat 0) ++ digitValues [] =
              n.digits ++ List.replicate (n.decimalPointIndex - n.digits.length).toNat 0 := by
          rw [← hvalues, ← hzeroValues]
          simp [digitValues]
        simp only [NumberText.numeral, NumberText.fractionDigits, Option.getD_none, hnumeral]
        rw [Numeral.value_trailing_zeros (by decide)]
        congr 2
        simp [NumberText.exponentValue]
        omega

end Dpi.NumberParts

namespace NumberRoundTrip

open Dpi

theorem storable_of_parse {text : List UInt8} {number : NumberParts}
    (h : parseNumberString text = .ok number) (hfits : number.Fits) : number.Storable := by
  obtain ⟨-, -, hrepresentable, t, -, rfl⟩ := parseNumberString_sound h
  exact ⟨t.parts_normal, hrepresentable, hfits⟩

theorem asText_ne_nil (number : NumberParts) (h : number.digits ≠ []) : number.asText ≠ [] := by
  have hpos : 0 < number.digits.length := List.length_pos_iff.mpr h
  rw [← List.length_pos_iff, number.length_asText, NumberParts.numBytes]
  omega

/-- What the decoder reads is written and read back as the same number. -/
theorem parse_asText {number : NumberParts} (h : number.Storable) (hne : number.digits ≠ []) :
    parseNumberString number.asText = .ok number ∧
      ∃ t : NumberText, t.text = number.asText ∧ t.value = number.value := by
  obtain ⟨t, htext, -, hvalue⟩ := NumberParts.exists_numberText h.normal.digits_lt
  have hparts : t.parts = number :=
    (h.normal.eq_of_value_eq t.parts_normal hne (hvalue.symm.trans t.value_parts.symm)).symm
  have hlength : t.text.length ≤ numberAsTextChars := by
    rw [htext, number.length_asText]
    exact h.representable.numBytes_le
  have hnil : t.text ≠ [] := htext ▸ asText_ne_nil number hne
  refine ⟨?_, t, htext, hvalue⟩
  rw [← htext, parseNumberString_complete hnil hlength (hparts ▸ h.representable), hparts]

theorem fromOracleNumberAsText_eq {number : NumberParts} (h : number.Storable)
    (hne : number.digits ≠ []) (rest : List UInt8) :
    fromOracleNumberAsText (number.toOracleNumber ++ rest) numberAsTextChars =
      .ok number.asText := by
  have hsize : ¬ number.numBytes > numberAsTextChars :=
    Nat.not_lt.mpr h.representable.numBytes_le
  simp only [fromOracleNumberAsText, NumberParts.parseOracleNumber_toOracleNumber h hne, bind,
    Except.bind, hsize, if_false]
  rfl

def zeroText : List UInt8 := [digitChar 0]

theorem fromOracleNumberAsText_zero {number : NumberParts} (hnil : number.digits = [])
    (rest : List UInt8) :
    fromOracleNumberAsText (number.toOracleNumber ++ rest) numberAsTextChars =
      .ok zeroText := by
  simp only [fromOracleNumberAsText, NumberParts.parseOracleNumber_zero hnil]
  rfl

theorem toOracleNumberFromText_zero : toOracleNumberFromText zeroText = .ok [1, 128] := by
  decide

theorem length_toOracleNumber {number : NumberParts} (h : number.Storable) :
    number.toOracleNumber.length ≤ ociNumberSize := by
  by_cases hnil : number.digits = []
  · rw [NumberParts.toOracleNumber_zero hnil]
    decide
  · have := NumberParts.length_mantissa h
    rw [NumberParts.toOracleNumber_eq hnil]
    simp only [List.length_cons, ociNumberSize]
    omega

/-- 40 digits at an odd index of the point take 21 bytes of mantissa. -/
theorem toOracleNumber_of_not_fits {number : NumberParts} (h : ¬ number.Fits) :
    ∃ rest : List UInt8, number.toOracleNumber = 22 :: rest ∧ rest.length = ociNumberSize := by
  obtain ⟨hlength, hodd⟩ : number.digits.length = numberMaxDigits ∧
      number.decimalPointIndex % 2 = 1 := not_not.mp h
  have hmax : numberMaxDigits = 40 := rfl
  have hne : number.digits ≠ [] := by
    rw [← List.length_pos_iff]
    omega
  have hbase : number.base100.digits.length = 21 := by
    rw [NumberParts.length_base100, NumberParts.aligned_of_odd hodd,
      NumberParts.length_evened, List.length_cons, hlength, hmax]
  have hmantissa : (NumberParts.mantissa number.isNegative number.base100.digits).length = 21 := by
    simp [NumberParts.mantissa, NumberParts.sentinel, hbase]
  refine ⟨exponentByte number.isNegative (2 * number.base100.point) ::
    NumberParts.mantissa number.isNegative number.base100.digits, ?_, ?_⟩
  · rw [NumberParts.toOracleNumber_eq hne, hmantissa]
    rfl
  · rw [List.length_cons, hmantissa]
    rfl

theorem fromOracleNumberAsText_of_length {rest : List UInt8} (length : Nat) :
    fromOracleNumberAsText (22 :: rest) length =
      .error ⟨"check mantissa length", .invalidOciNumber⟩ := by
  have hparse : parseOracleNumber (22 :: rest) =
      .error ⟨"check mantissa length", .invalidOciNumber⟩ :=
    if_pos (show ((22 : UInt8) - 1).toNat > 20 by decide)
  rw [fromOracleNumberAsText, hparse]
  rfl

/-- A number that is read from a text is kept by the bytes and by the text written from
them, unless it has 40 digits and the index of its point is odd: then a byte is written after
the end of the number, and the number cannot be read again. -/
theorem text_round_trip {text : List UInt8} {number : NumberParts}
    (h : parseNumberString text = .ok number) (rest : List UInt8) :
    (number.Fits →
      number.toOracleNumber.length ≤ ociNumberSize ∧
        ∃ text', fromOracleNumberAsText (number.toOracleNumber ++ rest) numberAsTextChars =
            .ok text' ∧
          toOracleNumberFromText text' = .ok number.toOracleNumber ∧
          ∃ t : NumberText, t.text = text' ∧ t.value = number.value) ∧
    (¬ number.Fits →
      number.toOracleNumber.length = ociNumberSize + 1 ∧
        ∀ length, fromOracleNumberAsText (number.toOracleNumber ++ rest) length =
          .error ⟨"check mantissa length", .invalidOciNumber⟩) := by
  constructor
  · intro hfits
    have hstorable := storable_of_parse h hfits
    refine ⟨length_toOracleNumber hstorable, ?_⟩
    by_cases hnil : number.digits = []
    · refine ⟨zeroText, fromOracleNumberAsText_zero hnil rest, ?_,
        ⟨false, [0], none, none⟩, rfl, ?_⟩
      · rw [toOracleNumberFromText_zero, NumberParts.toOracleNumber_zero hnil]
      · rw [hstorable.normal.value_eq_zero_iff.mpr hnil]
        simp [NumberText.value, NumberText.fractionDigits, digitValues]
    · obtain ⟨hparse, t, htext, hvalue⟩ := parse_asText hstorable hnil
      refine ⟨number.asText, fromOracleNumberAsText_eq hstorable hnil rest, ?_, t, htext, hvalue⟩
      simp only [toOracleNumberFromText, hparse]
      rfl
  · intro hfits
    obtain ⟨rest', hbytes, hlength⟩ := toOracleNumber_of_not_fits hfits
    rw [hbytes]
    exact ⟨by rw [List.length_cons, hlength], fun length => fromOracleNumberAsText_of_length length⟩

/-- The text of -12.5. -/
def sampleText : NumberText := ⟨true, [1, 2], some [5], none⟩

theorem sampleText_parse :
    parseNumberString sampleText.text = .ok ⟨true, 2, [1, 2, 5]⟩ := by decide

theorem text_round_trip_sample :
    (NumberParts.toOracleNumber ⟨true, 2, [1, 2, 5]⟩).length ≤ ociNumberSize ∧
      ∃ text', fromOracleNumberAsText (NumberParts.toOracleNumber ⟨true, 2, [1, 2, 5]⟩ ++ [7])
          numberAsTextChars = .ok text' ∧
        toOracleNumberFromText text' = .ok (NumberParts.toOracleNumber ⟨true, 2, [1, 2, 5]⟩) ∧
        ∃ t : NumberText, t.text = text' ∧ t.value = NumberParts.value ⟨true, 2, [1, 2, 5]⟩ :=
  (text_round_trip sampleText_parse [7]).1 (by unfold NumberParts.Fits; decide)

theorem parts_of_bytes {t : NumberText} {bytes : List UInt8}
    (h : toOracleNumberFromText t.text = .ok bytes) (hsize : bytes.length ≤ ociNumberSize) :
    t.parts.Storable ∧ bytes = t.parts.toOracleNumber := by
  cases hparse : parseNumberString t.text with
  | error error => simp [toOracleNumberFromText, hparse, bind, Except.bind] at h
  | ok number =>
    obtain ⟨hne, hlength, hrepresentable, -⟩ := parseNumberString_sound hparse
    have hparts : t.parts = number := by
      rw [t.parseNumberString_text hne hlength] at hparse
      split at hparse
      · cases hparse
      · exact Except.ok.inj hparse
    have hbytes : bytes = number.toOracleNumber := by
      simp only [toOracleNumberFromText, hparse, bind, Except.bind] at h
      exact (Except.ok.inj h).symm
    have hfits : number.Fits := by
      by_contra hfits
      obtain ⟨rest, htext, hrest⟩ := toOracleNumber_of_not_fits hfits
      rw [hbytes, htext, List.length_cons, hrest] at hsize
      omega
    rw [hparts]
    exact ⟨storable_of_parse hparse hfits, hbytes⟩

/-- The bytes after the length are ordered as the numbers, and equal bytes stand for
equal numbers. -/
theorem byte_order {t₁ t₂ : NumberText} {bytes₁ bytes₂ : List UInt8}
    (h₁ : toOracleNumberFromText t₁.text = .ok bytes₁)
    (h₂ : toOracleNumberFromText t₂.text = .ok bytes₂)
    (hsize₁ : bytes₁.length ≤ ociNumberSize) (hsize₂ : bytes₂.length ≤ ociNumberSize) :
    (bytes₁.tail < bytes₂.tail ↔ t₁.value < t₂.value) ∧
      (bytes₁ = bytes₂ ↔ t₁.value = t₂.value) := by
  obtain ⟨hs₁, rfl⟩ := parts_of_bytes h₁ hsize₁
  obtain ⟨hs₂, rfl⟩ := parts_of_bytes h₂ hsize₂
  rw [← t₁.value_parts, ← t₂.value_parts]
  exact ⟨NumberParts.tail_lt_tail_iff hs₁ hs₂, NumberParts.toOracleNumber_eq_iff hs₁ hs₂⟩

def zeroNumber : NumberText := ⟨false, [0], none, none⟩

theorem byte_order_sample : sampleText.value < zeroNumber.value :=
  (byte_order (show toOracleNumberFromText sampleText.text = .ok [4, 62, 89, 51, 102] by decide)
    (show toOracleNumberFromText zeroNumber.text = .ok [1, 128] by decide) (by decide)
    (by decide)).1.mp (by decide)

/-- The byte of a pair of zeros. -/
def zeroByte (isNegative : Bool) : UInt8 := if isNegative then 101 else 1

/-- The pairs of a canonical number, without zeros at either end. -/
structure MantissaBytes (isNegative : Bool) (mantissa : List UInt8) : Prop where
  ne_nil : mantissa ≠ []
  length_le : mantissa.length ≤ 20
  bounds : ∀ byte ∈ mantissa,
    if isNegative then 2 ≤ byte ∧ byte ≤ 101 else 1 ≤ byte ∧ byte ≤ 100
  head_ne : mantissa.head? ≠ some (zeroByte isNegative)
  last_ne : mantissa.getLast? ≠ some (zeroByte isNegative)

/-- The numbers of a database, but for its lowest one and the infinities. -/
inductive Canonical : List UInt8 → Prop where
  | zero : Canonical [1, 128]
  | nonzero {isNegative : Bool} {exponent : UInt8} {mantissa ended : List UInt8}
      (hexponent : exponent < 128 ↔ isNegative = true)
      (hmantissa : MantissaBytes isNegative mantissa)
      (hended : ended =
        mantissa ++ if isNegative ∧ mantissa.length < 20 then [102] else []) :
      Canonical (UInt8.ofNat (ended.length + 1) :: exponent :: ended)

/-- The pair of digits of a mantissa byte. -/
def pairOfByte (isNegative : Bool) (byte : UInt8) : Nat :=
  (if isNegative then 101 - byte else byte - 1).toNat

theorem mantissaByte_pairOfByte (isNegative : Bool) (byte : UInt8) :
    mantissaByte isNegative (pairOfByte isNegative byte) = byte := by
  cases isNegative with
  | false => simp [mantissaByte, pairOfByte]
  | true =>
    simp only [mantissaByte, pairOfByte, if_true, UInt8.ofNat_toNat]
    grind

theorem pairOfByte_lt {isNegative : Bool} {byte : UInt8}
    (h : if isNegative then 2 ≤ byte ∧ byte ≤ 101 else 1 ≤ byte ∧ byte ≤ 100) :
    pairOfByte isNegative byte < 100 := by
  cases isNegative with
  | false =>
    simp only [Bool.false_eq_true, if_false] at h
    have hlower := UInt8.le_iff_toNat_le.mp h.1
    have hupper := UInt8.le_iff_toNat_le.mp h.2
    simp only [pairOfByte, Bool.false_eq_true, if_false, UInt8.toNat_sub_of_le _ _ h.1]
    have hone : (1 : UInt8).toNat = 1 := rfl
    have hhundred : (100 : UInt8).toNat = 100 := rfl
    omega
  | true =>
    simp only [if_true] at h
    have hlower := UInt8.le_iff_toNat_le.mp h.1
    simp only [pairOfByte, if_true, UInt8.toNat_sub_of_le _ _ h.2]
    have htwo : (2 : UInt8).toNat = 2 := rfl
    have hmax : (101 : UInt8).toNat = 101 := rfl
    omega

theorem mantissaByte_bounds {p : Nat} (hp : p < 100) (isNegative : Bool) :
    if isNegative then 2 ≤ mantissaByte isNegative p ∧ mantissaByte isNegative p ≤ 101
    else 1 ≤ mantissaByte isNegative p ∧ mantissaByte isNegative p ≤ 100 := by
  have hbyte := NumberParts.toNat_mantissaByte hp isNegative
  cases isNegative <;> simp only [Bool.false_eq_true, if_false, if_true] at hbyte ⊢ <;>
    rw [UInt8.le_iff_toNat_le, UInt8.le_iff_toNat_le, hbyte]
  · change 1 ≤ p + 1 ∧ p + 1 ≤ 100
    omega
  · change 2 ≤ 101 - p ∧ 101 - p ≤ 101
    omega

theorem mantissaByte_eq_zeroByte_iff {p : Nat} (hp : p < 100) (isNegative : Bool) :
    mantissaByte isNegative p = zeroByte isNegative ↔ p = 0 := by
  have hbyte := NumberParts.toNat_mantissaByte hp isNegative
  rw [← UInt8.toNat_inj, hbyte]
  cases isNegative
  · change p + 1 = 1 ↔ p = 0
    omega
  · change 101 - p = 101 ↔ p = 0
    omega

theorem exists_storable (isNegative : Bool) {point : Int} {ps : List Nat}
    (hlower : -64 ≤ point) (hupper : point ≤ 63) (hnormal : (⟨ps, point⟩ : Numeral).Normal 100)
    (hne : ps ≠ []) (hlength : ps.length ≤ 20) :
    ∃ number : NumberParts, number.Storable ∧ number.isNegative = isNegative ∧
      number.digits ≠ [] ∧ number.base100 = ⟨ps, point⟩ := by
  obtain ⟨m, hm, hme, hpaired, hle⟩ :=
    Numeral.Normal.exists_paired (b := 10) hnormal (by decide) hne
  have hle' : m.digits.length ≤ 2 * ps.length := hle
  have hbase : NumberParts.base100 ⟨isNegative, m.point, m.digits⟩ = ⟨ps, point⟩ := hpaired
  have hpoint : (m.point + m.point % 2) / 2 = point := congrArg Numeral.point hpaired
  have hmax : numberMaxDigits = 40 := rfl
  have hrepresentable : NumberParts.Representable ⟨isNegative, m.point, m.digits⟩ := by
    constructor <;> simp only [] <;> omega
  refine ⟨⟨isNegative, m.point, m.digits⟩, ⟨hm, hrepresentable, ?_⟩, rfl, hme, hbase⟩
  rw [NumberParts.fits_iff hrepresentable, hbase]
  exact hlength

theorem MantissaBytes.normal {isNegative : Bool} {mantissa : List UInt8} (point : Int)
    (h : MantissaBytes isNegative mantissa) :
    (⟨mantissa.map (pairOfByte isNegative), point⟩ : Numeral).Normal 100 := by
  have hzero : ∀ byte, pairOfByte isNegative byte = 0 → byte = zeroByte isNegative := by
    intro byte hbyte
    rw [← mantissaByte_pairOfByte isNegative byte, hbyte,
      mantissaByte_eq_zeroByte_iff (by decide)]
  constructor
  · intro p hp
    obtain ⟨byte, hbyte, rfl⟩ := List.mem_map.mp hp
    exact pairOfByte_lt (h.bounds byte hbyte)
  · intro hhead
    rw [List.head?_map, Option.map_eq_some_iff] at hhead
    obtain ⟨byte, hbyte, hpair⟩ := hhead
    exact h.head_ne (hzero byte hpair ▸ hbyte)
  · intro hlast
    rw [List.getLast?_map, Option.map_eq_some_iff] at hlast
    obtain ⟨byte, hbyte, hpair⟩ := hlast
    exact h.last_ne (hzero byte hpair ▸ hbyte)

theorem mantissaBytes_map {isNegative : Bool} {m : Numeral} (hnormal : m.Normal 100)
    (hne : m.digits ≠ []) (hlength : m.digits.length ≤ 20) :
    MantissaBytes isNegative (m.digits.map (mantissaByte isNegative)) := by
  have hzero : ∀ p ∈ m.digits, mantissaByte isNegative p = zeroByte isNegative → p = 0 :=
    fun p hp => (mantissaByte_eq_zeroByte_iff (hnormal.digits_lt p hp) isNegative).mp
  refine ⟨by simpa using hne, by simpa using hlength, ?_, ?_, ?_⟩
  · intro byte hbyte
    obtain ⟨p, hp, rfl⟩ := List.mem_map.mp hbyte
    exact mantissaByte_bounds (hnormal.digits_lt p hp) isNegative
  · intro hhead
    rw [List.head?_map, Option.map_eq_some_iff] at hhead
    obtain ⟨p, hp, hbyte⟩ := hhead
    exact hnormal.head_ne (hzero p (List.mem_of_head? hp) hbyte ▸ hp)
  · intro hlast
    rw [List.getLast?_map, Option.map_eq_some_iff] at hlast
    obtain ⟨p, hp, hbyte⟩ := hlast
    exact hnormal.last_ne (hzero p (List.mem_of_getLast? hp) hbyte ▸ hp)

theorem exists_point {isNegative : Bool} {exponent : UInt8}
    (h : exponent < 128 ↔ isNegative = true) :
    ∃ point : Int, -64 ≤ point ∧ point ≤ 63 ∧
      exponentByte isNegative (2 * point) = exponent := by
  have hlt := exponent.toNat_lt
  have h128 : (128 : UInt8).toNat = 128 := rfl
  rw [UInt8.lt_iff_toNat_lt, h128] at h
  cases isNegative with
  | false =>
    have hge : 128 ≤ exponent.toNat := by simpa using h
    have hlower : (-64 : Int) ≤ exponent.toNat - 192 := by omega
    have hupper : (exponent.toNat : Int) - 192 ≤ 63 := by omega
    have hbyte := NumberParts.toNat_exponentByte hlower hupper false
    refine ⟨exponent.toNat - 192, hlower, hupper, ?_⟩
    simp only [Bool.false_eq_true, if_false] at hbyte
    rw [← UInt8.toNat_inj]
    omega
  | true =>
    have hge : exponent.toNat < 128 := by simpa using h
    have hlower : (-64 : Int) ≤ 63 - exponent.toNat := by omega
    have hupper : (63 : Int) - exponent.toNat ≤ 63 := by omega
    have hbyte := NumberParts.toNat_exponentByte hlower hupper true
    refine ⟨63 - exponent.toNat, hlower, hupper, ?_⟩
    simp only [if_true] at hbyte
    rw [← UInt8.toNat_inj]
    omega

theorem exponentByte_lt_iff {point : Int} (hlower : -64 ≤ point) (hupper : point ≤ 63)
    (isNegative : Bool) :
    exponentByte isNegative (2 * point) < 128 ↔ isNegative = true := by
  have hbyte := NumberParts.toNat_exponentByte hlower hupper isNegative
  have h128 : (128 : UInt8).toNat = 128 := rfl
  rw [UInt8.lt_iff_toNat_lt, h128]
  cases isNegative <;> simp at hbyte ⊢ <;> omega

theorem canonical_iff_storable {bytes : List UInt8} :
    Canonical bytes ↔ ∃ number : NumberParts, number.Storable ∧
      number.toOracleNumber = bytes := by
  constructor
  · intro h
    cases h with
    | zero =>
      refine ⟨⟨false, 0, []⟩, ⟨⟨?_, ?_, ?_⟩, ⟨?_, ?_, ?_⟩, ?_⟩, by decide⟩ <;>
        simp [NumberParts.numeral, NumberParts.Fits, numberMaxDigits]
    | @nonzero isNegative exponent mantissa ended hexponent hmantissa hended =>
      obtain ⟨point, hlower, hupper, hbyte⟩ := exists_point hexponent
      obtain ⟨number, hnumber, hsign, hne, hbase⟩ := exists_storable isNegative hlower hupper
        (hmantissa.normal point) (by simpa using hmantissa.ne_nil)
        (by simpa using hmantissa.length_le)
      have hbytes : NumberParts.mantissa isNegative
          (mantissa.map (pairOfByte isNegative)) = ended := by
        have hmap : (mantissa.map (pairOfByte isNegative)).map (mantissaByte isNegative) =
            mantissa := by
          rw [List.map_map]
          exact List.map_id'' (mantissaByte_pairOfByte isNegative) mantissa
        rw [NumberParts.mantissa, hmap, hended, NumberParts.sentinel, List.length_map]
      refine ⟨number, hnumber, ?_⟩
      rw [NumberParts.toOracleNumber_eq hne, hbase, hsign, hbyte, hbytes]
  · rintro ⟨number, hnumber, rfl⟩
    by_cases hnil : number.digits = []
    · rw [NumberParts.toOracleNumber_zero hnil]
      exact .zero
    · obtain ⟨hlower, hupper⟩ := hnumber.representable.base100_point
      rw [NumberParts.toOracleNumber_eq hnil]
      refine .nonzero (exponentByte_lt_iff hlower hupper number.isNegative)
        (mantissaBytes_map (hnumber.normal.base100 hnil) (NumberParts.base100_ne_nil hnil)
          ((NumberParts.fits_iff hnumber.representable).mp hnumber.fits)) ?_
      simp [NumberParts.mantissa, NumberParts.sentinel]

/-- The canonical numbers are those of which a text is written that is read back as the
same bytes. -/
theorem canonical_iff (bytes : List UInt8) :
    Canonical bytes ↔ bytes.length ≤ ociNumberSize ∧
      ∃ text, fromOracleNumberAsText bytes numberAsTextChars = .ok text ∧
        toOracleNumberFromText text = .ok bytes := by
  constructor
  · intro h
    obtain ⟨number, hnumber, rfl⟩ := canonical_iff_storable.mp h
    refine ⟨length_toOracleNumber hnumber, ?_⟩
    by_cases hnil : number.digits = []
    · have hwrite := fromOracleNumberAsText_zero hnil []
      rw [List.append_nil] at hwrite
      refine ⟨zeroText, hwrite, ?_⟩
      rw [toOracleNumberFromText_zero, NumberParts.toOracleNumber_zero hnil]
    · have hwrite := fromOracleNumberAsText_eq hnumber hnil []
      rw [List.append_nil] at hwrite
      refine ⟨number.asText, hwrite, ?_⟩
      simp only [toOracleNumberFromText, (parse_asText hnumber hnil).1]
      rfl
  · rintro ⟨hsize, text, -, hread⟩
    have hparse : ∃ number, parseNumberString text = .ok number := by
      cases hparse : parseNumberString text with
      | error error => simp [toOracleNumberFromText, hparse, bind, Except.bind] at hread
      | ok number => exact ⟨number, rfl⟩
    obtain ⟨number, hparse⟩ := hparse
    obtain ⟨-, -, -, t, rfl, -⟩ := parseNumberString_sound hparse
    obtain ⟨hstorable, rfl⟩ := parts_of_bytes hread hsize
    exact canonical_iff_storable.mpr ⟨t.parts, hstorable, rfl⟩

end NumberRoundTrip

end OracleNIO
