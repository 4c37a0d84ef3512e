import OracleNIO.BoundValues
import OracleNIO.TimestampOffsets

/-!
The timestamps that are handed over for dates: their civil fields, and the instants that
they stand for.
-/

namespace OracleNIO.WrittenTimestamps

open Interaction Prog SwiftRuntime CivilCalendar Dpi OracleStatement BoundValues
  TimestampOffsets

/-- Binding the date, when the time is `now`, hands over the timestamp. -/
def Writes (rt : Runtime) (statement : OracleStatement) (pos : UInt32) (d now : Date)
    (timestamp : DpiTimestamp) : Prop :=
  ∃ r, (statement.bindValue rt pos (.timestamp d)).Performs
    [⟨.now, now⟩, ⟨.dpi (.stmtBindValueByPos statement.handle pos .timestamp
      ⟨false, .asTimestamp timestamp⟩ []), r⟩]

section Writes

variable {rt : Runtime} {statement : OracleStatement} {pos : UInt32} {d now : Date}
  {timestamp : DpiTimestamp}

theorem bindValue_timestamp : statement.bindValue rt pos (.timestamp d) = .call .now fun now =>
    ofOutcome (encodeTimestamp rt d (dateComponents rt.timeZone d)
      (rt.timeZone.secondsFromGMT now)) >>= fun timestamp =>
        statement.bindValueByPos pos .timestamp ⟨false, .asTimestamp timestamp⟩ [] := rfl

theorem writes_iff : Writes rt statement pos d now timestamp ↔
    encodeTimestamp rt d (dateComponents rt.timeZone d) (rt.timeZone.secondsFromGMT now) =
      .value timestamp := by
  rw [Writes, bindValue_timestamp]
  constructor
  · rintro ⟨r, now', hnow, h⟩
    cases hnow
    obtain ⟨written, hencode, r', hcall, _⟩ := performs_ofOutcome_bind.mp h
    cases hcall
    exact hencode
  · intro hencode
    have hcall : (statement.bindValueByPos pos .timestamp ⟨false, .asTimestamp timestamp⟩
        []).Performs [⟨.dpi (.stmtBindValueByPos statement.handle pos .timestamp
          ⟨false, .asTimestamp timestamp⟩ []), some ()⟩] := ⟨some (), rfl, trivial⟩
    exact ⟨some (), now, rfl, performs_ofOutcome_bind.mpr ⟨timestamp, hencode, hcall⟩⟩

/-- Binding the date, when the time is `now`, throws before anything is handed over. -/
def Throws (rt : Runtime) (statement : OracleStatement) (pos : UInt32) (d now : Date) : Prop :=
  ∃ e, (statement.bindValue rt pos (.timestamp d)).Runs [⟨.now, now⟩] (.error e)

theorem Writes.unique {timestamp' : DpiTimestamp} (h : Writes rt statement pos d now timestamp)
    (h' : Writes rt statement pos d now timestamp') : timestamp = timestamp' :=
  Outcome.value.inj ((writes_iff.mp h).symm.trans (writes_iff.mp h'))

theorem not_throws : ¬ Throws rt statement pos d now := by
  rw [Throws, bindValue_timestamp]
  rintro ⟨e, now', rest, hnow, h⟩
  cases hnow
  obtain ⟨timestamp, _, r, rest, hcall, _⟩ | ⟨_, _, herror⟩ := runs_ofOutcome_bind h
  · cases hcall
  · exact encodeTimestamp_ne_error rt d _ e (herror e rfl)

theorem runs_trap (h : ¬ (yearOfEra (rt.timeZone.civilTime d).date.year ≤ 32767 ∧
    HoursFit (rt.timeZone.secondsFromGMT now))) :
    (statement.bindValue rt pos (.timestamp d)).Runs [⟨.now, now⟩] .trap := by
  rw [bindValue_timestamp]
  refine ⟨now, [], rfl, ?_⟩
  beta_reduce
  rw [encodeTimestamp_trap rt d h]
  exact ⟨rfl, rfl⟩

/-- What can be handed over for a date is determined by its local time and the offset at
the time of binding. -/
theorem exists_writes_iff {P : DpiTimestamp → Prop} {p : CivilTime → Int → Prop}
    (h : ∀ timestamp, civilTime timestamp = componentTime (rt.timeZone.civilTime d) →
      timestamp.tzHourOffset.toInt = (rt.timeZone.secondsFromGMT now).tdiv 3600 →
        timestamp.tzMinuteOffset.toInt =
            (((rt.timeZone.secondsFromGMT now).tdiv 60).natAbs % 60 : Nat) →
          (P timestamp ↔ p (rt.timeZone.civilTime d) (rt.timeZone.secondsFromGMT now))) :
    (∃ timestamp, Writes rt statement pos d now timestamp ∧ P timestamp) ↔
      yearOfEra (rt.timeZone.civilTime d).date.year ≤ 32767 ∧
        HoursFit (rt.timeZone.secondsFromGMT now) ∧
          p (rt.timeZone.civilTime d) (rt.timeZone.secondsFromGMT now) := by
  by_cases hfit : yearOfEra (rt.timeZone.civilTime d).date.year ≤ 32767 ∧
      HoursFit (rt.timeZone.secondsFromGMT now)
  · obtain ⟨timestamp, hencode, hcivil, hhour, hminute⟩ :=
      encodeTimestamp_value rt d hfit.1 hfit.2
    rw [← h timestamp hcivil hhour hminute]
    constructor
    · rintro ⟨written, hwrites, hwritten⟩
      obtain rfl := hwrites.unique (writes_iff.mpr hencode)
      exact ⟨hfit.1, hfit.2, hwritten⟩
    · rintro ⟨_, _, hwritten⟩
      exact ⟨timestamp, writes_iff.mpr hencode, hwritten⟩
  · constructor
    · rintro ⟨timestamp, hwrites, _⟩
      have htrap := encodeTimestamp_trap rt d hfit
      cases htrap.symm.trans (writes_iff.mp hwrites)
    · rintro ⟨hyear, hhours, _⟩
      exact absurd ⟨hyear, hhours⟩ hfit

end Writes

theorem tdiv_of_neg {a : Int} (h : a < 0) (b : Int) : a.tdiv b = -(-a / b) := by
  rw [← Int.tdiv_eq_ediv_of_nonneg (by omega), Int.neg_tdiv, Int.neg_neg]

/-- The day of a date in the local time of a zone. -/
def localDay (zone : TimeZone) (d : Date) : Int :=
  (d.nanoseconds + zone.secondsFromGMT d * nanosecondsPerSecond) / nanosecondsPerDay

/-- The local time of a date by the proleptic Gregorian calendar. -/
def prolepticTime (zone : TimeZone) (d : Date) : CivilTime :=
  { zone.civilTime d with date := gregorianFromDays (localDay zone d) }

/-- Binding the date throws, or hands over a timestamp with its local proleptic time. -/
def BindsExactly (rt : Runtime) (statement : OracleStatement) (pos : UInt32) (d now : Date) :
    Prop :=
  Throws rt statement pos d now ∨
    ∃ timestamp, Writes rt statement pos d now timestamp ∧
      civilTime timestamp = prolepticTime rt.timeZone d

/-- The days whose date by year and era is the proleptic one: those since the reform, and
those of the century in which the Julian calendar agrees. -/
theorem dateOfEra_eq_iff (days : Int) :
    { civilFromDays days with year := yearOfEra (civilFromDays days).year } =
        gregorianFromDays days ↔
      reform ≤ days ∨ gregorianDays ⟨200, 3, 1⟩ ≤ days ∧ days ≤ gregorianDays ⟨300, 2, 28⟩ := by
  have hgregorian := gregorianFromDays_year_le_iff days 0
  have hjulian := julianFromDays_year_le_iff days 0
  have hstart : gregorianYear 0 = -719468 ∧ julianYear 0 = -719470 := by decide
  by_cases hreform : reform ≤ days
  · have hyear : 1 ≤ (gregorianFromDays days).year := by
      rw [reform_eq] at hreform
      omega
    rw [civilFromDays, if_pos hreform, yearOfEra, if_pos hyear]
    exact ⟨fun _ => .inl hreform, fun _ => rfl⟩
  · rw [civilFromDays, if_neg hreform, or_iff_right hreform, ← julianFromDays_eq_iff]
    by_cases hyear : 1 ≤ (julianFromDays days).year
    · rw [yearOfEra, if_pos hyear]
    · -- the year before our era is one after its beginning
      rw [yearOfEra, if_neg hyear]
      constructor
      · intro h
        have := congrArg CivilDate.year h
        simp only at this
        omega
      · intro h
        have hfirst := ((julianFromDays_eq_iff days).mp h).1
        have hvalue : gregorianDays ⟨200, 3, 1⟩ = -646420 := by decide
        omega

theorem componentTime_eq_prolepticTime_iff (zone : TimeZone) (d : Date) :
    componentTime (zone.civilTime d) = prolepticTime zone d ↔
      reform ≤ localDay zone d ∨
        gregorianDays ⟨200, 3, 1⟩ ≤ localDay zone d ∧
          localDay zone d ≤ gregorianDays ⟨300, 2, 28⟩ := by
  rw [← dateOfEra_eq_iff]
  constructor
  · exact congrArg CivilTime.date
  · intro h
    rw [prolepticTime, ← h]
    rfl

theorem bindsExactly_iff_fits {rt : Runtime} {statement : OracleStatement} {pos : UInt32}
    {d now : Date} :
    BindsExactly rt statement pos d now ↔
      yearOfEra (rt.timeZone.civilTime d).date.year ≤ 32767 ∧
        HoursFit (rt.timeZone.secondsFromGMT now) ∧
          componentTime (rt.timeZone.civilTime d) = prolepticTime rt.timeZone d := by
  rw [BindsExactly, or_iff_right not_throws]
  apply exists_writes_iff
    (p := fun t _ => componentTime t = prolepticTime rt.timeZone d)
  intro timestamp hcivil _ _
  rw [hcivil]

/-- In a zone within 18 hours of GMT a date is bound exactly if its local day is one from
15 October 1582 to the end of the year 32767, or one from 1 March 200 to 28 February 300. -/
theorem bindsExactly_iff {rt : Runtime}
    (hzone : ∀ t, -64800 ≤ rt.timeZone.secondsFromGMT t ∧ rt.timeZone.secondsFromGMT t ≤ 64800)
    (statement : OracleStatement) (pos : UInt32) (d now : Date) :
    BindsExactly rt statement pos d now ↔
      (gregorianDays ⟨1582, 10, 15⟩ ≤ localDay rt.timeZone d ∧
        localDay rt.timeZone d ≤ gregorianDays ⟨32767, 12, 31⟩) ∨
      (gregorianDays ⟨200, 3, 1⟩ ≤ localDay rt.timeZone d ∧
        localDay rt.timeZone d ≤ gregorianDays ⟨300, 2, 28⟩) := by
  have hhours : HoursFit (rt.timeZone.secondsFromGMT now) := by
    have hnow := hzone now
    unfold HoursFit
    rcases Int.lt_or_le (rt.timeZone.secondsFromGMT now) 0 with hwest | heast
    · rw [tdiv_of_neg hwest]
      omega
    · rw [Int.tdiv_eq_ediv_of_nonneg heast]
      omega
  have hfit : componentTime (rt.timeZone.civilTime d) = prolepticTime rt.timeZone d →
      (yearOfEra (rt.timeZone.civilTime d).date.year ≤ 32767 ↔
        localDay rt.timeZone d ≤ gregorianDays ⟨32767, 12, 31⟩) := by
    intro hexact
    have hyear : yearOfEra (rt.timeZone.civilTime d).date.year =
        (gregorianFromDays (localDay rt.timeZone d)).year :=
      congrArg (fun t => t.date.year) hexact
    have hlast : gregorianDays ⟨32767, 12, 31⟩ + 1 = gregorianYear 32767 + 306 := by decide
    rw [hyear, gregorianFromDays_year_le_iff, ← hlast, Int.lt_add_one_iff]
  have hcentury : gregorianDays ⟨300, 2, 28⟩ < gregorianDays ⟨32767, 12, 31⟩ := by decide
  rw [bindsExactly_iff_fits]
  constructor
  · rintro ⟨hyear, _, hexact⟩
    rcases (componentTime_eq_prolepticTime_iff ..).mp hexact with hreform | hsame
    · exact .inl ⟨hreform, (hfit hexact).mp hyear⟩
    · exact .inr hsame
  · intro h
    have hexact : componentTime (rt.timeZone.civilTime d) = prolepticTime rt.timeZone d :=
      (componentTime_eq_prolepticTime_iff ..).mpr (h.imp_left And.left)
    refine ⟨(hfit hexact).mpr ?_, hhours, hexact⟩
    rcases h with ⟨_, hlast⟩ | ⟨_, hlast⟩
    · exact hlast
    · exact Int.le_of_lt (Int.lt_of_le_of_lt hlast hcentury)

/-- A runtime in a time zone with these offsets. -/
def runtimeWith (secondsFromGMT : Date → Int) : Runtime :=
  { asciiRuntime with timeZone := ⟨secondsFromGMT⟩ }

theorem gmt_within (t : Date) :
    -64800 ≤ (runtimeWith fun _ => 0).timeZone.secondsFromGMT t ∧
      (runtimeWith fun _ => 0).timeZone.secondsFromGMT t ≤ 64800 := by
  change -64800 ≤ (0 : Int) ∧ (0 : Int) ≤ 64800
  decide

theorem bindsExactly_epoch :
    BindsExactly (runtimeWith fun _ => 0) ⟨⟨3⟩, []⟩ 1 ⟨0⟩ ⟨0⟩ :=
  (bindsExactly_iff gmt_within ⟨⟨3⟩, []⟩ 1 ⟨0⟩ ⟨0⟩).mpr (by decide)

/-- 1 January of 1 BC is handed over as 3 January of 1 AD, 1 March 1500 as 20 February, and
the year 32768 traps. -/
theorem not_bindsExactly :
    (prolepticTime (runtimeWith fun _ => 0).timeZone ⟨-62167219200000000000⟩ =
        ⟨⟨0, 1, 1⟩, 0, 0, 0, 0⟩ ∧
      Writes (runtimeWith fun _ => 0) ⟨⟨3⟩, []⟩ 1 ⟨-62167219200000000000⟩ ⟨0⟩
        ⟨1, 1, 3, 0, 0, 0, 0, 0, 0⟩ ∧
      ¬ BindsExactly (runtimeWith fun _ => 0) ⟨⟨3⟩, []⟩ 1 ⟨-62167219200000000000⟩ ⟨0⟩) ∧
    (prolepticTime (runtimeWith fun _ => 0).timeZone ⟨-14826672000000000000⟩ =
        ⟨⟨1500, 3, 1⟩, 0, 0, 0, 0⟩ ∧
      Writes (runtimeWith fun _ => 0) ⟨⟨3⟩, []⟩ 1 ⟨-14826672000000000000⟩ ⟨0⟩
        ⟨1500, 2, 20, 0, 0, 0, 0, 0, 0⟩ ∧
      ¬ BindsExactly (runtimeWith fun _ => 0) ⟨⟨3⟩, []⟩ 1 ⟨-14826672000000000000⟩ ⟨0⟩) ∧
    (OracleStatement.bindValue (runtimeWith fun _ => 0) ⟨⟨3⟩, []⟩ 1
        (.timestamp ⟨971890963200000000000⟩)).Runs [⟨.now, (⟨0⟩ : Date)⟩] .trap ∧
      ¬ BindsExactly (runtimeWith fun _ => 0) ⟨⟨3⟩, []⟩ 1 ⟨971890963200000000000⟩ ⟨0⟩ := by
  refine ⟨⟨by decide, ?_, ?_⟩, ⟨by decide, ?_, ?_⟩, ?_, ?_⟩
  · rw [writes_iff]
    decide +kernel
  · rw [bindsExactly_iff_fits]
    decide
  · rw [writes_iff]
    decide +kernel
  · rw [bindsExactly_iff_fits]
    decide
  · exact runs_trap (by decide)
  · rw [bindsExactly_iff_fits]
    decide

/-- The offset whose hours are those of the zone towards zero, with the minutes left over
counted to the east. -/
def writtenOffset (offset : Int) : Int :=
  if 0 ≤ offset then offset / 60 * 60
  else -(-offset / 3600 * 3600) + -offset / 60 % 60 * 60

theorem offsetMinutes_written {timestamp : DpiTimestamp} {offset : Int}
    (hhour : timestamp.tzHourOffset.toInt = offset.tdiv 3600)
    (hminute : timestamp.tzMinuteOffset.toInt = ((offset.tdiv 60).natAbs % 60 : Nat)) :
    offsetMinutes timestamp * 60 = writtenOffset offset := by
  rw [offsetMinutes, hhour, hminute, writtenOffset]
  split
  case isTrue heast =>
    rw [Int.tdiv_eq_ediv_of_nonneg heast, Int.tdiv_eq_ediv_of_nonneg heast]
    omega
  case isFalse hwest =>
    rw [tdiv_of_neg (by omega), tdiv_of_neg (by omega)]
    omega

/-- The offset is written as it is only if it is in whole minutes and, west of GMT, in whole
hours. -/
theorem writtenOffset_eq_iff (offset : Int) :
    writtenOffset offset = offset ↔ offset % 60 = 0 ∧ (0 ≤ offset ∨ offset % 3600 = 0) := by
  unfold writtenOffset
  split <;> omega

/-- How much later a civil time is when its year is taken for one of our era. -/
def eraShift (t : CivilTime) : Int :=
  (componentTime t).toNanoseconds - t.toNanoseconds

theorem eraShift_eq_zero_iff (zone : TimeZone) (d : Date) :
    eraShift (zone.civilTime d) = 0 ↔ 1 ≤ (zone.civilTime d).date.year := by
  have hmonth := (inRange_civilTime zone d).month
  generalize zone.civilTime d = t at hmonth ⊢
  constructor
  · intro h
    by_contra hyear
    have hera : yearOfEra t.date.year = 1 - t.date.year := if_neg hyear
    have hmonths : ∀ year, (year * 12 + (t.date.month - 1)) / 12 = year ∧
        (year * 12 + (t.date.month - 1)) % 12 + 1 = t.date.month := by
      intro year
      omega
    have hdays := daysFromCivil_lt (show t.date.year < 1 - t.date.year by omega) (by omega)
      t.date.month t.date.day
    simp only [eraShift, componentTime, CivilTime.toNanoseconds, hera, hmonths,
      nanosecondsPerDay] at h
    omega
  · intro hyear
    rw [eraShift, (componentTime_eq_iff t).mpr hyear, Int.sub_self]

theorem instant_written {zone : TimeZone} {d : Date} {timestamp : DpiTimestamp} {offset : Int}
    (hcivil : civilTime timestamp = componentTime (zone.civilTime d))
    (hoffset : offsetMinutes timestamp * 60 = writtenOffset offset) :
    instant timestamp = d ↔
      zone.secondsFromGMT d * nanosecondsPerSecond + eraShift (zone.civilTime d) =
        writtenOffset offset * nanosecondsPerSecond := by
  rcases d with ⟨n⟩
  have hlocal : (zone.civilTime ⟨n⟩).toNanoseconds =
      n + zone.secondsFromGMT ⟨n⟩ * nanosecondsPerSecond :=
    toNanoseconds_ofNanoseconds _
  rw [instant, hcivil, ← hoffset, Date.mk.injEq]
  simp only [eraShift, hlocal, nanosecondsPerSecond]
  omega

/-- The timestamp written for a date is one that stands for it exactly if it can be built,
and the offset of the zone at that date, with what is lost by the era, is the one that is
written for the time of binding. -/
theorem writes_instant_iff (rt : Runtime) (statement : OracleStatement) (pos : UInt32)
    (d now : Date) :
    (∃ timestamp, Writes rt statement pos d now timestamp ∧ instant timestamp = d) ↔
      yearOfEra (rt.timeZone.civilTime d).date.year ≤ 32767 ∧
        HoursFit (rt.timeZone.secondsFromGMT now) ∧
          rt.timeZone.secondsFromGMT d * nanosecondsPerSecond +
              eraShift (rt.timeZone.civilTime d) =
            writtenOffset (rt.timeZone.secondsFromGMT now) * nanosecondsPerSecond := by
  apply exists_writes_iff (p := fun t offset =>
    rt.timeZone.secondsFromGMT d * nanosecondsPerSecond + eraShift t =
      writtenOffset offset * nanosecondsPerSecond)
  intro timestamp hcivil hhour hminute
  exact instant_written hcivil (offsetMinutes_written hhour hminute)

theorem not_exists_of_writes {rt : Runtime} {statement : OracleStatement} {pos : UInt32}
    {d now : Date} {timestamp : DpiTimestamp} (h : Writes rt statement pos d now timestamp)
    (hinstant : instant timestamp ≠ d) :
    ¬ ∃ timestamp, Writes rt statement pos d now timestamp ∧ instant timestamp = d := by
  rintro ⟨timestamp', hwrites, heq⟩
  rw [h.unique hwrites] at hinstant
  exact hinstant heq

/-- Half an hour west of whole hours, with seconds in the offset, or with another offset at
the date than at the time of binding, the timestamp stands for another instant. -/
theorem not_writes_instant :
    (Writes (runtimeWith fun _ => -12600) ⟨⟨3⟩, []⟩ 1 ⟨0⟩ ⟨0⟩ ⟨1969, 12, 31, 20, 30, 0, 0, -3, 30⟩ ∧
      ¬ ∃ timestamp, Writes (runtimeWith fun _ => -12600) ⟨⟨3⟩, []⟩ 1 ⟨0⟩ ⟨0⟩ timestamp ∧
        instant timestamp = ⟨0⟩) ∧
    (Writes (runtimeWith fun _ => 1172) ⟨⟨3⟩, []⟩ 1 ⟨0⟩ ⟨0⟩ ⟨1970, 1, 1, 0, 19, 32, 0, 0, 19⟩ ∧
      ¬ ∃ timestamp, Writes (runtimeWith fun _ => 1172) ⟨⟨3⟩, []⟩ 1 ⟨0⟩ ⟨0⟩ timestamp ∧
        instant timestamp = ⟨0⟩) ∧
    (Writes (runtimeWith fun t => if t = ⟨0⟩ then 0 else 3600) ⟨⟨3⟩, []⟩ 1 ⟨0⟩ ⟨1⟩
        ⟨1970, 1, 1, 0, 0, 0, 0, 1, 0⟩ ∧
      ¬ ∃ timestamp, Writes (runtimeWith fun t => if t = ⟨0⟩ then 0 else 3600) ⟨⟨3⟩, []⟩ 1 ⟨0⟩ ⟨1⟩
          timestamp ∧
        instant timestamp = ⟨0⟩) := by
  have hwest : Writes (runtimeWith fun _ => -12600) ⟨⟨3⟩, []⟩ 1 ⟨0⟩ ⟨0⟩
      ⟨1969, 12, 31, 20, 30, 0, 0, -3, 30⟩ := by
    rw [writes_iff]
    decide +kernel
  have hseconds : Writes (runtimeWith fun _ => 1172) ⟨⟨3⟩, []⟩ 1 ⟨0⟩ ⟨0⟩
      ⟨1970, 1, 1, 0, 19, 32, 0, 0, 19⟩ := by
    rw [writes_iff]
    decide +kernel
  have hsummer : Writes (runtimeWith fun t => if t = ⟨0⟩ then 0 else 3600) ⟨⟨3⟩, []⟩ 1 ⟨0⟩ ⟨1⟩
      ⟨1970, 1, 1, 0, 0, 0, 0, 1, 0⟩ := by
    rw [writes_iff]
    decide +kernel
  refine ⟨⟨hwest, ?_⟩, ⟨hseconds, ?_⟩, hsummer, ?_⟩
  · exact not_exists_of_writes hwest (by decide)
  · exact not_exists_of_writes hseconds (by decide)
  · exact not_exists_of_writes hsummer (by decide)

end OracleNIO.WrittenTimestamps
