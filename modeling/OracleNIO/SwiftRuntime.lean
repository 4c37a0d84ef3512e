import OracleNIO.Interaction
import OracleNIO.CivilCalendar
import OracleNIO.GraphemeClusters

/-!
What the package uses of the Swift standard library and of Foundation: floating
point bits, trapping conversions, dates, the local time zone, string lengths.
-/

namespace OracleNIO.SwiftRuntime

open Interaction CivilCalendar GraphemeClusters

/-- A `Float`, by its bits. -/
structure Binary32 where
  bits : UInt32
deriving DecidableEq, Repr

/-- A `Double`, by its bits. -/
structure Binary64 where
  bits : UInt64
deriving DecidableEq, Repr

/-- A date, in whole nanoseconds since 1970-01-01 00:00 UTC; a part below a nanosecond, which
`dpiTimestamp` cannot hold, is left out. -/
structure Date where
  nanoseconds : Int
deriving DecidableEq, Repr

section Conversions

variable {ε : Type}

@[irreducible] def int8 (x : Int) : Outcome ε Int8 :=
  if -128 ≤ x ∧ x ≤ 127 then .value (Int8.ofInt x) else .trap

@[irreducible] def int16 (x : Int) : Outcome ε Int16 :=
  if -32768 ≤ x ∧ x ≤ 32767 then .value (Int16.ofInt x) else .trap

@[irreducible] def int32 (x : Int) : Outcome ε Int32 :=
  if -2147483648 ≤ x ∧ x ≤ 2147483647 then .value (Int32.ofInt x) else .trap

@[irreducible] def uint8 (x : Int) : Outcome ε UInt8 :=
  if 0 ≤ x ∧ x ≤ 255 then .value (UInt8.ofNat x.toNat) else .trap

@[irreducible] def uint32 (x : Int) : Outcome ε UInt32 :=
  if 0 ≤ x ∧ x ≤ 4294967295 then .value (UInt32.ofNat x.toNat) else .trap

theorem int8_of_range (ε : Type) (x : Int) (h : -128 ≤ x ∧ x ≤ 127) :
    ∃ y : Int8, int8 x = (.value y : Outcome ε Int8) ∧ y.toInt = x := by
  unfold int8
  exact ⟨Int8.ofInt x, if_pos h, Int8.toInt_ofInt_of_le h.1 (by omega)⟩

theorem int8_trap {x : Int} (h : ¬ (-128 ≤ x ∧ x ≤ 127)) :
    int8 x = (.trap : Outcome ε Int8) := by
  unfold int8
  exact if_neg h

theorem int16_of_range (ε : Type) (x : Int) (h : -32768 ≤ x ∧ x ≤ 32767) :
    ∃ y : Int16, int16 x = (.value y : Outcome ε Int16) ∧ y.toInt = x := by
  unfold int16
  exact ⟨Int16.ofInt x, if_pos h, Int16.toInt_ofInt_of_le h.1 (by omega)⟩

theorem int16_trap {x : Int} (h : ¬ (-32768 ≤ x ∧ x ≤ 32767)) :
    int16 x = (.trap : Outcome ε Int16) := by
  unfold int16
  exact if_neg h

theorem int32_of_range (ε : Type) (x : Int) (h : -2147483648 ≤ x ∧ x ≤ 2147483647) :
    ∃ y : Int32, int32 x = (.value y : Outcome ε Int32) ∧ y.toInt = x := by
  unfold int32
  exact ⟨Int32.ofInt x, if_pos h, Int32.toInt_ofInt_of_le h.1 (by omega)⟩

theorem int32_trap {x : Int} (h : ¬ (-2147483648 ≤ x ∧ x ≤ 2147483647)) :
    int32 x = (.trap : Outcome ε Int32) := by
  unfold int32
  exact if_neg h

theorem uint8_of_range (ε : Type) (x : Int) (h : 0 ≤ x ∧ x ≤ 255) :
    ∃ y : UInt8, uint8 x = (.value y : Outcome ε UInt8) ∧ (y.toNat : Int) = x := by
  unfold uint8
  refine ⟨UInt8.ofNat x.toNat, if_pos h, ?_⟩
  rw [UInt8.toNat_ofNat']
  omega

theorem uint32_of_range (ε : Type) (x : Int) (h : 0 ≤ x ∧ x ≤ 4294967295) :
    ∃ y : UInt32, uint32 x = (.value y : Outcome ε UInt32) ∧ (y.toNat : Int) = x := by
  unfold uint32
  refine ⟨UInt32.ofNat x.toNat, if_pos h, ?_⟩
  rw [UInt32.toNat_ofNat']
  omega

theorem uint32_trap {x : Int} (h : ¬ (0 ≤ x ∧ x ≤ 4294967295)) :
    uint32 x = (.trap : Outcome ε UInt32) := by
  unfold uint32
  exact if_neg h

theorem toNat_of_uint32 {n : Nat} {m : UInt32}
    (h : uint32 n = (.value m : Outcome ε UInt32)) : m.toNat = n := by
  unfold uint32 at h
  split at h
  case isTrue hn =>
    cases h
    simp only [Int.toNat_natCast, UInt32.toNat_ofNat']
    omega
  case isFalse => cases h

theorem uint32_of_lt {n : Nat} (h : n < 4294967296) :
    uint32 n = (.value (UInt32.ofNat n) : Outcome ε UInt32) := by
  unfold uint32
  rw [if_pos (by omega), Int.toNat_natCast]

theorem ofNat_succ_ne_zero {i : Nat} (h : i + 1 < 4294967296) : UInt32.ofNat (i + 1) ≠ 0 := by
  intro hzero
  have hnat := congrArg UInt32.toNat hzero
  rw [UInt32.toNat_ofNat_of_lt' h] at hnat
  simp at hnat

theorem uint32_ne_error {x : Int} {e : ε} : uint32 x ≠ .error e := by
  unfold uint32
  split <;> simp

end Conversions

/-- A time zone, by its offset in seconds at every instant. -/
structure TimeZone where
  secondsFromGMT : Date → Int

/-- `DateComponents`, as far as they are read. -/
structure DateComponents where
  timeZone : Option TimeZone
  year : Option Int
  month : Option Int
  day : Option Int
  hour : Option Int
  minute : Option Int
  second : Option Int
  nanosecond : Option Int

def nanosecondsPerSecond : Int := 1000000000

def nanosecondsPerDay : Int := 86400000000000

/-- A date and a time of day in some time zone. -/
structure CivilTime where
  date : CivilDate
  hour : Int
  minute : Int
  second : Int
  nanosecond : Int
deriving DecidableEq, Repr

def CivilTime.ofNanoseconds (n : Int) : CivilTime :=
  let ofDay := n % nanosecondsPerDay
  let seconds := ofDay / nanosecondsPerSecond
  { date := civilFromDays (n / nanosecondsPerDay)
    hour := seconds / 3600
    minute := seconds / 60 % 60
    second := seconds % 60
    nanosecond := ofDay % nanosecondsPerSecond }

/-- Fields out of range roll over: month 13 is January of the next year. -/
def CivilTime.toNanoseconds (t : CivilTime) : Int :=
  let months := t.date.year * 12 + (t.date.month - 1)
  let days := daysFromCivil ⟨months / 12, months % 12 + 1, t.date.day⟩
  days * nanosecondsPerDay +
    ((t.hour * 60 + t.minute) * 60 + t.second) * nanosecondsPerSecond + t.nanosecond

/-- What the clocks of the zone show at the date. -/
def TimeZone.civilTime (zone : TimeZone) (date : Date) : CivilTime :=
  .ofNanoseconds (date.nanoseconds + zone.secondsFromGMT date * nanosecondsPerSecond)

/-- The `year` component is counted within its era: 1 BC is year 1. -/
def yearOfEra (year : Int) : Int :=
  if 1 ≤ year then year else 1 - year

/-- `Calendar.current.dateComponents(_:from:)` for the components `bind` asks for, with the
Gregorian calendar of Foundation, which is the Julian one up to 4 October 1582. -/
def dateComponents (zone : TimeZone) (date : Date) : DateComponents :=
  let t := zone.civilTime date
  { timeZone := some zone
    year := some (yearOfEra t.date.year)
    month := some t.date.month
    day := some t.date.day
    hour := some t.hour
    minute := some t.minute
    second := some t.second
    nanosecond := some t.nanosecond }

/-- The date on which clocks with the offset show the time. -/
def dateOfCivil (offset : Int) (t : CivilTime) : Date :=
  ⟨t.toNanoseconds - offset * nanosecondsPerSecond⟩

/-- What the code takes from its process: the Unicode tables behind `String.count`,
the local time zone and the text of a date. -/
structure Runtime where
  graphemes : GraphemeTable
  timeZone : TimeZone
  description : Date → String

/-- `count` of a string. -/
def Runtime.count (rt : Runtime) (s : String) : Nat :=
  rt.graphemes.count s.toList

/-- The components are those of a real date and time of day. -/
structure CivilTime.InRange (t : CivilTime) : Prop where
  month : 1 ≤ t.date.month ∧ t.date.month ≤ 12
  day : 1 ≤ t.date.day ∧ t.date.day ≤ 31
  hour : 0 ≤ t.hour ∧ t.hour ≤ 23
  minute : 0 ≤ t.minute ∧ t.minute ≤ 59
  second : 0 ≤ t.second ∧ t.second ≤ 59
  nanosecond : 0 ≤ t.nanosecond ∧ t.nanosecond ≤ 999999999

theorem inRange_civilTime (zone : TimeZone) (date : Date) : (zone.civilTime date).InRange := by
  refine ⟨civilFromDays_month _, civilFromDays_day _, ?_, ?_, ?_, ?_⟩ <;>
    simp only [TimeZone.civilTime, CivilTime.ofNanoseconds, nanosecondsPerDay,
      nanosecondsPerSecond] <;>
    omega

theorem toNanoseconds_ofNanoseconds (n : Int) :
    (CivilTime.ofNanoseconds n).toNanoseconds = n := by
  have hmonth := civilFromDays_month (n / nanosecondsPerDay)
  have hdays := daysFromCivil_civilFromDays (n / nanosecondsPerDay)
  simp only [CivilTime.toNanoseconds, CivilTime.ofNanoseconds]
  generalize civilFromDays (n / nanosecondsPerDay) = date at hmonth hdays ⊢
  have hyear : (date.year * 12 + (date.month - 1)) / 12 = date.year := by omega
  have hmod : (date.year * 12 + (date.month - 1)) % 12 + 1 = date.month := by omega
  rw [hyear, hmod, hdays]
  simp only [nanosecondsPerDay, nanosecondsPerSecond]
  omega

/-- A runtime that knows the clusters of ASCII texts, in GMT. -/
def asciiRuntime : Runtime where
  graphemes := ⟨fun c => if c.toNat < 128 then asciiClass c else .other, by simp_all⟩
  timeZone := ⟨fun _ => 0⟩
  description _ := ""

end OracleNIO.SwiftRuntime
