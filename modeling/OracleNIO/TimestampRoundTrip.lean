import OracleNIO.BoundValues
import OracleNIO.FetchedRows
import OracleNIO.TimestampOffsets

/-!
Dates that are bound, stored as a `TIMESTAMP` and selected again.
-/

namespace OracleNIO.TimestampRoundTrip

open Interaction Prog SwiftRuntime CivilCalendar Dpi OracleStatement BoundValues FetchedRows
  TimestampOffsets

theorem decodeTimestamp_of_zero (timestamp : DpiTimestamp) (hhour : timestamp.tzHourOffset = 0)
    (hminute : timestamp.tzMinuteOffset = 0) :
    decodeTimestamp timestamp = .value (dateOfCivil 0 (civilTime timestamp)) := by
  have hoffset : offsetMinutes timestamp = 0 := by
    rw [offsetMinutes, hhour, hminute]
    rfl
  apply decodeTimestamp_eq_value.mpr
  constructor
  · rw [Fits, hoffset, hhour]
    decide
  · rw [dateOfCivil, instant, hoffset]
    simp

theorem dateOfCivil_civilTime (zone : TimeZone) (d : Date) :
    dateOfCivil 0 (zone.civilTime d) =
      ⟨d.nanoseconds + zone.secondsFromGMT d * nanosecondsPerSecond⟩ := by
  rw [dateOfCivil, TimeZone.civilTime, toNanoseconds_ofNanoseconds]
  simp

/-- A `TIMESTAMP` column with the stored value in its only row, in the process of `s`. -/
def selecting (s : Session) (stored : OciValue) : Session :=
  { s with
    stmt := .prepared .select [⟨[84], ⟨some .timestamp, some .timestamp, 0⟩⟩]
      [fun _ => some stored] }

/-- Binding the date and executing the statement hands OCI a value, which is selected as
`d'`. -/
def SelectedAs (rt : Runtime) (s : Session) (statement : OracleStatement)
    (columns : OracleColumnOffsets) (d d' : Date) : Prop :=
  ∃ bound s₁ stored q₁ q₂,
    s.run (statement.bind rt [.timestamp d]) = (.value bound, s₁) ∧
      s₁.stmt.boundValues s₁.env = some [some stored] ∧
        (selecting s stored).run statement.execute = (.value (), q₁) ∧
          q₁.run (statement.nextRow columns) =
            (.value (some ⟨columns, [.timestamp d']⟩), q₂)

section RoundTrip

variable {rt : Runtime} {s : Session} {statement : OracleStatement}
  {columns : OracleColumnOffsets}

theorem run_selecting (s : Session) (statement : OracleStatement) (columns : OracleColumnOffsets)
    (timestamp : DpiTimestamp) :
    ∃ q₁ q₂, (selecting s (.dateTime (DpiVar.toOracleTimestamp timestamp false))).run
        statement.execute = (.value (), q₁) ∧
      q₁.run (statement.nextRow columns) =
        (.value (some ⟨columns, [.timestamp (dateOfCivil 0 (civilTime timestamp))]⟩), q₂) := by
  have hfound : (1 : Int32) ≠ 0 := by decide
  have hdecode := decodeTimestamp_of_zero
    (DpiVar.fromOracleTimestamp (DpiVar.toOracleTimestamp timestamp false) false)
    rfl rfl
  refine ⟨_, _, rfl, run_nextRow_value rfl hfound (.cons ?_ .nil)⟩
  rw [columnValue_of_lt _ (by decide)]
  change (do
    let date ← decodeTimestamp
      (DpiVar.fromOracleTimestamp (DpiVar.toOracleTimestamp timestamp false) false)
    return OracleData.timestamp date) = _
  rw [hdecode]
  rfl

/-- Binding a date binds its local civil time, and no offset is stored with it. -/
theorem run_bind_timestamp (statement : OracleStatement) (hs : s.stmt.bindVars = [])
    {d : Date} {timestamp : DpiTimestamp}
    (htimestamp : encodeTimestamp rt d (dateComponents rt.timeZone d)
      (rt.timeZone.secondsFromGMT (s.clock 0)) = .value timestamp) :
    ∃ s₁, s.run (statement.bind rt [.timestamp d]) = (.value statement, s₁) ∧
      s₁.stmt.boundValues s₁.env =
        some [some (.dateTime (DpiVar.toOracleTimestamp timestamp false))] := by
  have hone : (1 : UInt32) ≠ 0 := by decide
  obtain ⟨var, hbind, hdata, hnative, htype⟩ := bindValueByPos_data s.env s.stmt hone
    (.asTimestamp timestamp) [] (.inr (.inr rfl))
  have hvalue : s.run (statement.bindValue rt 1 (.timestamp d)) =
      (.value statement, bound s 1 var) := by
    rw [run_bindValue_timestamp, hs, List.length_nil, htimestamp]
    exact run_bindValueByPos_some hbind
  have hset : var.setValue s.env 0 =
      some (some (.dateTime (DpiVar.toOracleTimestamp timestamp false))) := by
    unfold DpiVar.setValue
    rw [hdata, hnative, htype]
    rfl
  exact run_bind_one hs hvalue hset

theorem selectedAs_iff (hs : s.stmt.bindVars = []) {d : Date}
    (hyear : 1 ≤ (rt.timeZone.civilTime d).date.year ∧
      (rt.timeZone.civilTime d).date.year ≤ 9999) (d' : Date) :
    SelectedAs rt s statement columns d d' ↔
      HoursFit (rt.timeZone.secondsFromGMT (s.clock 0)) ∧
        d' = ⟨d.nanoseconds + rt.timeZone.secondsFromGMT d * nanosecondsPerSecond⟩ := by
  have hera : yearOfEra (rt.timeZone.civilTime d).date.year =
      (rt.timeZone.civilTime d).date.year := by
    rw [yearOfEra, if_pos hyear.1]
  by_cases hfit : HoursFit (rt.timeZone.secondsFromGMT (s.clock 0))
  · obtain ⟨timestamp, htimestamp, hcivil, _⟩ :=
      encodeTimestamp_value rt d (by rw [hera]; omega) hfit
    obtain ⟨s₁, hbind, hstored⟩ := run_bind_timestamp statement hs htimestamp
    obtain ⟨q₁, q₂, hexecute, hnext⟩ :=
      run_selecting s statement columns timestamp
    have hdate : dateOfCivil 0 (civilTime timestamp) =
        ⟨d.nanoseconds + rt.timeZone.secondsFromGMT d * nanosecondsPerSecond⟩ := by
      rw [hcivil, (componentTime_eq_iff _).mpr hyear.1, dateOfCivil_civilTime]
    rw [hdate] at hnext
    constructor
    · rintro ⟨bound, s₁', stored, q₁', q₂', hbind', hstored', hexecute', hnext'⟩
      refine ⟨hfit, ?_⟩
      cases hbind.symm.trans hbind'
      cases hstored.symm.trans hstored'
      cases hexecute.symm.trans hexecute'
      cases hnext.symm.trans hnext'
      rfl
    · rintro ⟨_, rfl⟩
      exact ⟨statement, s₁, _, q₁, q₂, hbind, hstored, hexecute, hnext⟩
  · constructor
    · rintro ⟨bound, s₁, _, _, _, hbind, _⟩
      have htrap := encodeTimestamp_trap rt d fun h => hfit h.2
      have hfail : ∀ statement' s', s.run (statement.bindValue rt (UInt32.ofNat (0 + 1))
          (.timestamp d)) ≠ (.value statement', s') := by
        intro statement' s'
        rw [run_bindValue_timestamp, hs, List.length_nil, htrap]
        simp [ofOutcome]
      rw [OracleStatement.bind, run_bindFrom_cons (by decide)] at hbind
      exact absurd hbind (Session.run_bind_not_value hfail _ bound s₁)
    · rintro ⟨hhours, _⟩
      exact absurd hhours hfit

/-- A date of a local year in 1 to 9999 is selected as it was bound exactly if its local
time is UTC (and binding it does not trap on the present offset). -/
theorem roundTrip_iff_utc (hs : s.stmt.bindVars = []) {d : Date}
    (hyear : 1 ≤ (rt.timeZone.civilTime d).date.year ∧
      (rt.timeZone.civilTime d).date.year ≤ 9999) :
    SelectedAs rt s statement columns d d ↔
      rt.timeZone.secondsFromGMT d = 0 ∧
        HoursFit (rt.timeZone.secondsFromGMT (s.clock 0)) := by
  rw [selectedAs_iff hs hyear]
  have hsame : d = ⟨d.nanoseconds + rt.timeZone.secondsFromGMT d * nanosecondsPerSecond⟩ ↔
      rt.timeZone.secondsFromGMT d = 0 := by
    rcases d with ⟨n⟩
    rw [Date.mk.injEq]
    simp only [nanosecondsPerSecond]
    constructor
    · intro h
      omega
    · intro h
      omega
  rw [hsame, and_comm]

end RoundTrip

theorem roundTrip_utc :
    SelectedAs asciiRuntime (newSession (.prepared .other [] [])) ⟨⟨3⟩, []⟩ ⟨[("T", 0)]⟩ ⟨0⟩
      ⟨0⟩ :=
  (roundTrip_iff_utc rfl (by decide)).mpr ⟨rfl, by decide⟩

/-- One hour east of UTC the first instant of 1970 is selected an hour late. -/
theorem not_roundTrip_east :
    (1 ≤ ((⟨fun _ => 3600⟩ : TimeZone).civilTime ⟨0⟩).date.year ∧
        ((⟨fun _ => 3600⟩ : TimeZone).civilTime ⟨0⟩).date.year ≤ 9999) ∧
      SelectedAs { asciiRuntime with timeZone := ⟨fun _ => 3600⟩ }
        (newSession (.prepared .other [] [])) ⟨⟨3⟩, []⟩ ⟨[("T", 0)]⟩ ⟨0⟩ ⟨3600000000000⟩ ∧
      ¬ SelectedAs { asciiRuntime with timeZone := ⟨fun _ => 3600⟩ }
        (newSession (.prepared .other [] [])) ⟨⟨3⟩, []⟩ ⟨[("T", 0)]⟩ ⟨0⟩ ⟨0⟩ := by
  refine ⟨by decide, ?_, ?_⟩
  · rw [selectedAs_iff rfl (by decide)]
    decide
  · rw [selectedAs_iff rfl (by decide)]
    decide

end OracleNIO.TimestampRoundTrip
