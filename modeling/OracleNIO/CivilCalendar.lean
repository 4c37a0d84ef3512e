import Mathlib.Data.Int.Basic
import Mathlib.Data.Int.ConditionallyCompleteOrder
import Mathlib.Order.Monotone.Basic
import Mathlib.Tactic.Linarith

/-!
The Gregorian calendar with its reform, as arithmetic between day numbers and civil dates:
up to 4 October 1582 dates are those of the Julian calendar, the next day is the 15th.  Day
`0` is 1970-01-01; years before 1 are astronomical (year 0 is 1 BC).  The years of the
computation begin in March, so that the leap day comes last.
-/

namespace OracleNIO.CivilCalendar

/-- A civil date by astronomical year, month and day. -/
structure CivilDate where
  year : Int
  month : Int
  day : Int
deriving DecidableEq, Repr

/-- The year of the date, when years start in March. -/
def marchYear (date : CivilDate) : Int :=
  if date.month ≤ 2 then date.year - 1 else date.year

/-- The month of the date counted from March, which is 0. -/
def marchMonth (date : CivilDate) : Int :=
  if date.month ≤ 2 then date.month + 9 else date.month - 3

/-- The days of a year that starts in March before its month `mp`. -/
def daysBeforeMonth (mp : Int) : Int :=
  (153 * mp + 2) / 5

/-- The day of the March-based year, counted from 1. -/
def dayOfYear (date : CivilDate) : Int :=
  daysBeforeMonth (marchMonth date) + date.day

/-- The date of the day `doy` (from 0) of a March-based year. -/
def ofDayOfYear (y doy : Int) : CivilDate :=
  let mp := (5 * doy + 2) / 153
  { year := if mp < 10 then y else y + 1
    month := if mp < 10 then mp + 3 else mp - 9
    day := doy - daysBeforeMonth mp + 1 }

section OfDayOfYear

variable {y doy : Int}

theorem month_spec (h₀ : 0 ≤ doy) (h₁ : doy ≤ 365) :
    (0 ≤ (5 * doy + 2) / 153 ∧ (5 * doy + 2) / 153 ≤ 11) ∧
      daysBeforeMonth ((5 * doy + 2) / 153) ≤ doy ∧
        doy < daysBeforeMonth ((5 * doy + 2) / 153) + 31 := by
  simp only [daysBeforeMonth]
  omega

theorem ofDayOfYear_year (y doy : Int) :
    (ofDayOfYear y doy).year = if doy < 306 then y else y + 1 := by
  simp only [ofDayOfYear]
  split <;> split <;> omega

theorem ofDayOfYear_month (h₀ : 0 ≤ doy) (h₁ : doy ≤ 365) :
    1 ≤ (ofDayOfYear y doy).month ∧ (ofDayOfYear y doy).month ≤ 12 := by
  have hmonth := (month_spec h₀ h₁).1
  simp only [ofDayOfYear]
  split <;> omega

theorem ofDayOfYear_day (h₀ : 0 ≤ doy) (h₁ : doy ≤ 365) :
    1 ≤ (ofDayOfYear y doy).day ∧ (ofDayOfYear y doy).day ≤ 31 := by
  have hmonth := (month_spec h₀ h₁).2
  simp only [ofDayOfYear]
  omega

theorem marchYear_ofDayOfYear (h₀ : 0 ≤ doy) (h₁ : doy ≤ 365) :
    marchYear (ofDayOfYear y doy) = y ∧ dayOfYear (ofDayOfYear y doy) = doy + 1 := by
  have hmonth := (month_spec h₀ h₁).1
  simp only [ofDayOfYear, marchYear, dayOfYear, marchMonth]
  by_cases hmp : (5 * doy + 2) / 153 < 10
  · have hmar : ¬ (5 * doy + 2) / 153 + 3 ≤ 2 := by omega
    simp only [hmp, ↓reduceIte, hmar, add_sub_cancel_right]
    exact ⟨trivial, by omega⟩
  · have hjan : (5 * doy + 2) / 153 - 9 ≤ 2 := by omega
    simp only [hmp, ↓reduceIte, hjan, add_sub_cancel_right, sub_add_cancel]
    exact ⟨trivial, by omega⟩

end OfDayOfYear

/-- Days before the March-based year `yoe` of a 400-year era. -/
def daysBeforeYear (yoe : Int) : Int :=
  yoe * 365 + yoe / 4 - yoe / 100

/-- The first day of a March-based year. -/
def gregorianYear (y : Int) : Int :=
  y / 400 * 146097 + daysBeforeYear (y % 400) - 719468

/-- The days from 1 January 1970 by the rules of the Gregorian calendar. -/
def gregorianDays (date : CivilDate) : Int :=
  gregorianYear (marchYear date) + dayOfYear date - 1

/-- Year of the era and day of the March-based year, from the day of the era.
The last year of a century and the last year of an era may be a day longer. -/
def yearAndDay (doe : Int) : Int × Int :=
  let century := min (doe / 36524) 3
  let doc := doe - century * 36524
  let quad := doc / 1461
  let doq := doc - quad * 1461
  let year := min (doq / 365) 3
  (century * 100 + quad * 4 + year, doq - year * 365)

/-- The Gregorian date with that number of days from 1 January 1970. -/
def gregorianFromDays (days : Int) : CivilDate :=
  let z := days + 719468
  let p := yearAndDay (z % 146097)
  ofDayOfYear (z / 146097 * 400 + p.1) p.2

theorem yearAndDay_spec {doe : Int} (h₀ : 0 ≤ doe) (h₁ : doe < 146097) :
    (0 ≤ (yearAndDay doe).1 ∧ (yearAndDay doe).1 < 400) ∧
      (0 ≤ (yearAndDay doe).2 ∧ (yearAndDay doe).2 ≤ 365) ∧
        daysBeforeYear (yearAndDay doe).1 + (yearAndDay doe).2 = doe ∧
          doe < daysBeforeYear ((yearAndDay doe).1 + 1) + ((yearAndDay doe).1 + 1) / 400 := by
  simp only [yearAndDay, daysBeforeYear]
  have hcentury : 0 ≤ min (doe / 36524) 3 ∧ min (doe / 36524) 3 ≤ 3 ∧
      0 ≤ doe - min (doe / 36524) 3 * 36524 ∧
        doe - min (doe / 36524) 3 * 36524 ≤ 36524 ∧
          (doe - min (doe / 36524) 3 * 36524 = 36524 → min (doe / 36524) 3 = 3) := by omega
  generalize min (doe / 36524) 3 = century at hcentury ⊢
  generalize hdoc : doe - century * 36524 = doc at hcentury ⊢
  have hquad : 0 ≤ doc / 1461 ∧ doc / 1461 ≤ 24 ∧
      0 ≤ doc - doc / 1461 * 1461 ∧ doc - doc / 1461 * 1461 ≤ 1460 := by omega
  generalize doc / 1461 = quad at hquad ⊢
  generalize hdoq : doc - quad * 1461 = doq at hquad ⊢
  have hyear : 0 ≤ min (doq / 365) 3 ∧ min (doq / 365) 3 ≤ 3 ∧
      0 ≤ doq - min (doq / 365) 3 * 365 ∧ doq - min (doq / 365) 3 * 365 ≤ 365 ∧
        (doq - min (doq / 365) 3 * 365 = 365 → min (doq / 365) 3 = 3) := by omega
  generalize min (doq / 365) 3 = year at hyear ⊢
  have hfour : (century * 100 + quad * 4 + year) / 4 = century * 25 + quad := by omega
  have hhundred : (century * 100 + quad * 4 + year) / 100 = century := by omega
  rw [hfour, hhundred]
  refine ⟨by omega, by omega, by omega, ?_⟩
  -- the next year begins in the same century, with the next one, or with the next era
  obtain hnext | ⟨rfl, hnext⟩ | ⟨rfl, rfl, hnext⟩ | ⟨rfl, rfl, rfl⟩ :
      year < 3 ∨ year = 3 ∧ quad < 24 ∨ year = 3 ∧ quad = 24 ∧ century < 3 ∨
        year = 3 ∧ quad = 24 ∧ century = 3 := by omega
  · have hfour' : (century * 100 + quad * 4 + year + 1) / 4 = century * 25 + quad := by omega
    have hhundred' : (century * 100 + quad * 4 + year + 1) / 100 = century := by omega
    rw [hfour', hhundred']
    omega
  · have hfour' : (century * 100 + quad * 4 + 3 + 1) / 4 = century * 25 + quad + 1 := by omega
    have hhundred' : (century * 100 + quad * 4 + 3 + 1) / 100 = century := by omega
    rw [hfour', hhundred']
    omega
  · have hfour' : (century * 100 + 24 * 4 + 3 + 1) / 4 = century * 25 + 25 := by omega
    have hhundred' : (century * 100 + 24 * 4 + 3 + 1) / 100 = century + 1 := by omega
    rw [hfour', hhundred']
    omega
  · omega

theorem gregorianFromDays_eq (days : Int) : ∃ y doy, (0 ≤ doy ∧ doy ≤ 365) ∧
    gregorianFromDays days = ofDayOfYear y doy ∧
      gregorianYear y + doy = days ∧ days < gregorianYear (y + 1) := by
  have h₀ := Int.emod_nonneg (days + 719468) (by decide : (146097 : Int) ≠ 0)
  have h₁ := Int.emod_lt_of_pos (days + 719468) (by decide : (0 : Int) < 146097)
  obtain ⟨hyear, hday, hdoe, hlt⟩ := yearAndDay_spec h₀ h₁
  refine ⟨_, _, hday, rfl, ?_⟩
  have hz := Int.mul_ediv_add_emod (days + 719468) 146097
  generalize yearAndDay ((days + 719468) % 146097) = p at *
  generalize (days + 719468) / 146097 = era at *
  have hstart : gregorianYear (era * 400 + p.1) =
      era * 146097 + daysBeforeYear p.1 - 719468 := by
    have hera : (era * 400 + p.1) / 400 = era := by omega
    have hyoe : (era * 400 + p.1) % 400 = p.1 := by omega
    rw [gregorianYear, hera, hyoe]
  have hend : gregorianYear (era * 400 + p.1 + 1) =
      era * 146097 + daysBeforeYear (p.1 + 1) + (p.1 + 1) / 400 - 719468 := by
    simp only [gregorianYear, daysBeforeYear]
    omega
  omega

theorem gregorianDays_gregorianFromDays (days : Int) :
    gregorianDays (gregorianFromDays days) = days := by
  obtain ⟨y, doy, hdoy, heq, hdays, _⟩ := gregorianFromDays_eq days
  obtain ⟨hyear, hday⟩ := marchYear_ofDayOfYear (y := y) hdoy.1 hdoy.2
  rw [heq, gregorianDays, hyear, hday]
  omega

theorem gregorianYear_strictMono : StrictMono gregorianYear := by
  intro y y' h
  simp only [gregorianYear, daysBeforeYear]
  omega

theorem gregorianFromDays_year_le_iff (days year : Int) :
    (gregorianFromDays days).year ≤ year ↔ days < gregorianYear year + 306 := by
  obtain ⟨y, doy, hdoy, heq, hdays, hyear⟩ := gregorianFromDays_eq days
  rw [heq, ofDayOfYear_year]
  rcases Int.lt_trichotomy y year with hlt | rfl | hlt
  · have := gregorianYear_strictMono.monotone (Int.add_one_le_of_lt hlt)
    split <;> omega
  · split <;> omega
  · have hlong : gregorianYear year + 365 ≤ gregorianYear (year + 1) := by
      simp only [gregorianYear, daysBeforeYear]
      omega
    have := gregorianYear_strictMono.monotone (Int.add_one_le_of_lt hlt)
    split <;> omega

def julianYear (y : Int) : Int :=
  y * 365 + y / 4 - 719470

/-- The days from 1 January 1970 by the rules of the Julian calendar. -/
def julianDays (date : CivilDate) : Int :=
  julianYear (marchYear date) + dayOfYear date - 1

/-- The Julian date with that number of days from 1 January 1970. -/
def julianFromDays (days : Int) : CivilDate :=
  let z := days + 719470
  let doq := z % 1461
  let year := min (doq / 365) 3
  ofDayOfYear (z / 1461 * 4 + year) (doq - year * 365)

theorem julianFromDays_eq (days : Int) : ∃ y doy, (0 ≤ doy ∧ doy ≤ 365) ∧
    julianFromDays days = ofDayOfYear y doy ∧
      julianYear y + doy = days ∧ days < julianYear (y + 1) := by
  refine ⟨_, _, ?_, rfl, ?_⟩
  · omega
  · simp only [julianYear]
    omega

theorem julianYear_strictMono : StrictMono julianYear := by
  intro y y' h
  simp only [julianYear]
  omega

theorem julianDays_julianFromDays (days : Int) : julianDays (julianFromDays days) = days := by
  obtain ⟨y, doy, hdoy, heq, hdays, _⟩ := julianFromDays_eq days
  obtain ⟨hyear, hday⟩ := marchYear_ofDayOfYear (y := y) hdoy.1 hdoy.2
  rw [heq, julianDays, hyear, hday]
  omega

theorem julianFromDays_year_le_iff (days year : Int) :
    (julianFromDays days).year ≤ year ↔ days < julianYear year + 306 := by
  obtain ⟨y, doy, hdoy, heq, hdays, hyear⟩ := julianFromDays_eq days
  rw [heq, ofDayOfYear_year]
  simp only [julianYear] at hdays hyear ⊢
  split <;> omega

/-- How much later a year of the Julian calendar begins. -/
theorem julianYear_eq (y : Int) :
    julianYear y = gregorianYear y + (y / 100 - y / 400 - 2) := by
  simp only [julianYear, gregorianYear, daysBeforeYear]
  omega

/-- The first day of the Gregorian calendar, 15 October 1582. -/
def reform : Int :=
  gregorianDays ⟨1582, 10, 15⟩

theorem reform_eq : reform = -141427 := by decide

/-- The days from 1 January 1970 to the date. -/
def daysFromCivil (date : CivilDate) : Int :=
  if reform ≤ gregorianDays date then gregorianDays date else julianDays date

/-- The date with that number of days from 1 January 1970. -/
def civilFromDays (days : Int) : CivilDate :=
  if reform ≤ days then gregorianFromDays days else julianFromDays days

theorem exists_ofDayOfYear (days : Int) :
    ∃ y doy, (0 ≤ doy ∧ doy ≤ 365) ∧ civilFromDays days = ofDayOfYear y doy := by
  unfold civilFromDays
  split
  case isTrue =>
    obtain ⟨y, doy, hdoy, heq, _⟩ := gregorianFromDays_eq days
    exact ⟨y, doy, hdoy, heq⟩
  case isFalse =>
    obtain ⟨y, doy, hdoy, heq, _⟩ := julianFromDays_eq days
    exact ⟨y, doy, hdoy, heq⟩

theorem civilFromDays_month (days : Int) :
    1 ≤ (civilFromDays days).month ∧ (civilFromDays days).month ≤ 12 := by
  obtain ⟨y, doy, hdoy, heq⟩ := exists_ofDayOfYear days
  rw [heq]
  exact ofDayOfYear_month hdoy.1 hdoy.2

theorem civilFromDays_day (days : Int) :
    1 ≤ (civilFromDays days).day ∧ (civilFromDays days).day ≤ 31 := by
  obtain ⟨y, doy, hdoy, heq⟩ := exists_ofDayOfYear days
  rw [heq]
  exact ofDayOfYear_day hdoy.1 hdoy.2

/-- A Julian date before the reform is not taken for a Gregorian one after it. -/
theorem gregorianDays_julianFromDays_lt {days : Int} (h : days < reform) :
    gregorianDays (julianFromDays days) < reform := by
  obtain ⟨y, doy, hdoy, heq, hdays, _⟩ := julianFromDays_eq days
  obtain ⟨hyear, hday⟩ := marchYear_ofDayOfYear (y := y) hdoy.1 hdoy.2
  have hlater := julianYear_eq y
  rw [heq, gregorianDays, hyear, hday]
  by_contra hreform
  have hlate : 1582 ≤ y := by
    simp only [gregorianYear, daysBeforeYear, reform_eq] at hreform
    omega
  have : 10 ≤ y / 100 - y / 400 - 2 := by omega
  omega

theorem daysFromCivil_civilFromDays (days : Int) :
    daysFromCivil (civilFromDays days) = days := by
  by_cases h : reform ≤ days
  · rw [civilFromDays, if_pos h, daysFromCivil, gregorianDays_gregorianFromDays, if_pos h]
  · have hlt := gregorianDays_julianFromDays_lt (Int.not_le.mp h)
    rw [civilFromDays, if_neg h, daysFromCivil, if_neg (Int.not_le.mpr hlt),
      julianDays_julianFromDays]

theorem daysFromCivil_lt {y y' : Int} (h : y < y') (hy : y ≤ 0) (month day : Int) :
    daysFromCivil ⟨y, month, day⟩ < daysFromCivil ⟨y', month, day⟩ := by
  have hmarch : marchYear ⟨y, month, day⟩ < marchYear ⟨y', month, day⟩ ∧
      marchYear ⟨y, month, day⟩ ≤ 0 := by
    simp only [marchYear]
    split <;> omega
  have hday : dayOfYear ⟨y, month, day⟩ = dayOfYear ⟨y', month, day⟩ := rfl
  have hyears := gregorianYear_strictMono hmarch.1
  have hlater := julianYear_eq (marchYear ⟨y, month, day⟩)
  have hlater' := julianYear_eq (marchYear ⟨y', month, day⟩)
  unfold daysFromCivil gregorianDays julianDays
  split <;> split <;> omega

/-- A day has the same date in both calendars from 1 March 200 to 28 February 300 only. -/
theorem julianFromDays_eq_iff (days : Int) :
    julianFromDays days = gregorianFromDays days ↔
      gregorianDays ⟨200, 3, 1⟩ ≤ days ∧ days ≤ gregorianDays ⟨300, 2, 28⟩ := by
  have hfirst : gregorianDays ⟨200, 3, 1⟩ = gregorianYear 200 := by decide
  have hlast : gregorianDays ⟨300, 2, 28⟩ = gregorianYear 300 - 1 := by decide
  obtain ⟨y, doy, hdoy, heq, hdays, hyear⟩ := julianFromDays_eq days
  obtain ⟨y', doy', hdoy', heq', hdays', hyear'⟩ := gregorianFromDays_eq days
  rw [heq, heq', hfirst, hlast]
  constructor
  · intro hsame
    obtain ⟨hmarch, hday⟩ := marchYear_ofDayOfYear (y := y) hdoy.1 hdoy.2
    obtain ⟨hmarch', hday'⟩ := marchYear_ofDayOfYear (y := y') hdoy'.1 hdoy'.2
    rw [hsame, hmarch'] at hmarch
    rw [hsame, hday'] at hday
    subst hmarch
    have hlater := julianYear_eq y'
    have hfrom := gregorianYear_strictMono.monotone (show 200 ≤ y' by omega)
    have hto := gregorianYear_strictMono.monotone (show y' + 1 ≤ 300 by omega)
    omega
  · rintro ⟨hlow, hhigh⟩
    have hfrom := gregorianYear_strictMono.lt_iff_lt.mp (Int.lt_of_le_of_lt hlow hyear')
    have hto := gregorianYear_strictMono.lt_iff_lt.mp
      (show gregorianYear y' < gregorianYear 300 by omega)
    have hlater := julianYear_eq y'
    have hlater' := julianYear_eq (y' + 1)
    have hsame : y' / 100 = 2 ∧ y' / 400 = 0 := by omega
    have hsame' : 2 ≤ (y' + 1) / 100 ∧ (y' + 1) / 400 = 0 := by omega
    have hle := julianYear_strictMono.lt_iff_lt.mp
      (show julianYear y' < julianYear (y + 1) by omega)
    have hge := julianYear_strictMono.lt_iff_lt.mp
      (show julianYear y < julianYear (y' + 1) by omega)
    obtain rfl : y = y' := by omega
    obtain rfl : doy = doy' := by omega
    rfl

example : civilFromDays 11016 = ⟨2000, 2, 29⟩ := by decide

example : civilFromDays (reform - 1) = ⟨1582, 10, 4⟩ := by decide

end OracleNIO.CivilCalendar
