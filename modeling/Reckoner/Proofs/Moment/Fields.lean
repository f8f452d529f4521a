import Reckoner.Moment.Basic
import Reckoner.Proofs.Moment.Calendar
import Reckoner.Proofs.Result

/-!
# The fields of a moment as coordinates

The wall clock of a moment shows a date and a time of day. Together with the offset they determine
the moment, and every choice of them is the reading of one:

    ofFields d t offset = .ok m   ↔   m shows d and t in offset

for the dates of the supported years (`Moment.ofFields_eq_ok_iff`).

Moments show their dates through machine integers: the number of the day is kept to 64 bits and the
year to 32. `localDate` is the date without that, and the two agree wherever the year is supported
(`Moment.date_eq_localDate`).
-/

namespace Reckoner

theorem narrow_of_fitsSigned {bits : Nat} (hbits : 0 < bits) {n : Int} (h : FitsSigned bits n) :
    narrow bits n = n := by
  obtain ⟨k, rfl⟩ : ∃ k, bits = k + 1 := ⟨bits - 1, by omega⟩
  obtain ⟨hlow, hhigh⟩ := h
  have hpow : ((2 ^ (k + 1) : Nat) : Int) = 2 ^ k * 2 := by
    rw [Int.natCast_pow, Int.pow_succ]
    rfl
  rw [Nat.add_sub_cancel] at hlow hhigh
  exact Int.bmod_eq_of_le_mul_two (by rw [hpow]; omega) (by rw [hpow]; omega)

namespace Moment

open Calendar

/-- The date of the wall clock, without narrowing. -/
def localDate (m : Moment) : CivilDate := dateOfDay m.localDay

theorem localDay_eq (m : Moment) : m.localDay = daysOfCivil m.localDate :=
  (daysOfCivil_dateOfDay _).symm

theorem localDate_eq_iff {m : Moment} {d : CivilDate} (h : IsDate d) :
    m.localDate = d ↔ m.localDay = daysOfCivil d := by
  constructor
  · rintro rfl
    exact m.localDay_eq
  · intro hday
    rw [localDate, hday, dateOfDay_daysOfCivil h]

theorem isDate_localDate (m : Moment) : IsDate m.localDate := isDate_dateOfDay _

/-- The days of the supported years fit 64 bits by far. -/
theorem daysOfCivil_mem {d : CivilDate} (hd : IsDate d) (hy : InYears d.year) :
    -365970000 ≤ daysOfCivil d ∧ daysOfCivil d ≤ 365970000 := by
  obtain ⟨x, rfl⟩ := exists_civil hd
  have hyear := x.civil_year
  have hmem := x.dayOfEra_mem
  have hrange := x.year_mem
  unfold InYears minYear maxYear at hy
  rw [x.daysOfCivil_civil, MarchDate.dayNumber]
  unfold daysPerEra epochDay at *
  split at hyear <;> omega

/-- In the supported years the date that a moment shows is its date. -/
theorem date_eq_localDate {m : Moment} (h : InYears m.localDate.year) : m.date = m.localDate := by
  have hday := m.localDay_eq
  have hmem := daysOfCivil_mem m.isDate_localDate h
  have hwide : narrow 64 m.localDay = m.localDay := narrow_of_fitsSigned (by decide) (by omega)
  have hyear : narrow 32 m.localDate.year = m.localDate.year := by
    unfold InYears minYear maxYear at h
    exact narrow_of_fitsSigned (by decide) (by omega)
  unfold date
  rw [hwide, civilOfDays]
  exact congrArg (fun y => { m.localDate with year := y }) hyear

/-! ## The wall clock as a day and a time -/

theorem isTime_time (m : Moment) : IsTime m.time := by
  refine ⟨?_, ?_, ?_, ?_⟩ <;>
    simp only [time, hour, minute, second, nanosecond, nanosPerDay, nanosPerHour, nanosPerMinute,
      nanosPerSecond] <;> omega

/-- The time that the wall clock shows is what it counts since midnight. -/
theorem nanos_time (m : Moment) : m.time.nanos = m.nanosOfDay := by
  simp only [ClockTime.nanos, time, hour, minute, second, nanosecond, nanosOfDay, nanosPerDay,
    nanosPerHour, nanosPerMinute, nanosPerSecond]
  omega

theorem localNanos_eq (m : Moment) : m.localNanos = m.localDay * nanosPerDay + m.time.nanos := by
  rw [nanos_time]
  exact (Int.ediv_mul_add_emod _ _).symm

/-- A wall clock reading splits into day and time in one way only. -/
theorem localNanos_eq_iff {m : Moment} {day : Int} {t : ClockTime} (h : IsTime t) :
    m.localNanos = day * nanosPerDay + t.nanos ↔ m.localDay = day ∧ m.time = t := by
  constructor
  · intro hnanos
    obtain ⟨hh, hm, hs, hn⟩ := h
    obtain ⟨hour, minute, second, nanosecond⟩ := t
    simp only at hh hm hs hn
    simp only [ClockTime.nanos, nanosPerDay, nanosPerHour, nanosPerMinute, nanosPerSecond] at hnanos
    refine ⟨?_, ?_⟩
    · simp only [localDay, nanosPerDay, nanosPerHour, nanosPerMinute, nanosPerSecond]
      omega
    · simp only [time, Moment.hour, Moment.minute, Moment.second, Moment.nanosecond, nanosPerDay,
        nanosPerHour, nanosPerMinute, nanosPerSecond, ClockTime.mk.injEq]
      refine ⟨?_, ?_, ?_, ?_⟩ <;> omega
  · rintro ⟨rfl, rfl⟩
    exact m.localNanos_eq

/-! ## Making a moment from its fields -/

/-- Two moments of one offset with the same wall clock are the same moment. -/
theorem eq_iff_localNanos {m : Moment} {n : Int} {offset : Option Int} :
    (⟨n - offsetNanos offset, offset⟩ : Moment) = m ↔ m.localNanos = n ∧ m.offset = offset := by
  obtain ⟨nanos, own⟩ := m
  simp only [mk.injEq, localNanos]
  constructor
  · rintro ⟨rfl, rfl⟩
    exact ⟨by omega, rfl⟩
  · rintro ⟨rfl, rfl⟩
    exact ⟨by omega, rfl⟩

/-- `ofFields` gives the one moment that shows the fields, and fails where they are not those of a
supported date and a time of day. -/
theorem ofFields_eq_ok_iff {d : CivilDate} {t : ClockTime} {offset : Option Int} {m : Moment} :
    ofFields d t offset = .ok m ↔
      (InYears d.year ∧ IsDate d ∧ IsTime t) ∧
        m.localDate = d ∧ m.time = t ∧ m.offset = offset := by
  simp only [ofFields, bind_eq_ok_iff, pure_eq_ok_iff, eq_iff_localNanos]
  constructor
  · rintro ⟨_, hdate, _, htime, hnanos, hoffset⟩
    obtain ⟨hy, hd⟩ := checkDate_eq_ok.1 hdate
    have ht := checkTime_eq_ok.1 htime
    obtain ⟨hday, hclock⟩ := (localNanos_eq_iff ht).1 hnanos
    exact ⟨⟨hy, hd, ht⟩, (localDate_eq_iff hd).2 hday, hclock, hoffset⟩
  · rintro ⟨⟨hy, hd, ht⟩, hday, hclock, hoffset⟩
    have hnanos := (localNanos_eq_iff ht).2 ⟨(localDate_eq_iff hd).1 hday, hclock⟩
    exact ⟨(), checkDate_eq_ok.2 ⟨hy, hd⟩, (), checkTime_eq_ok.2 ht, hnanos, hoffset⟩

/-- Supported fields are the reading of some moment. -/
theorem exists_ofFields {d : CivilDate} {t : ClockTime} (offset : Option Int) (hy : InYears d.year)
    (hd : IsDate d) (ht : IsTime t) : ∃ m, ofFields d t offset = .ok m := by
  refine ⟨⟨daysOfCivil d * nanosPerDay + t.nanos - offsetNanos offset, offset⟩, ?_⟩
  unfold ofFields
  rw [checkDate_eq_ok.2 ⟨hy, hd⟩, checkTime_eq_ok.2 ht]
  rfl

end Moment

end Reckoner
