import Reckoner.Proofs.Moment.Days

/-!
# Year after year

A year lasts from its first of January to the day before the next one. The numbers of these days are
counted on from 1970 with the lengths of the years (`Calendar.newYear_succ`), and they decide of which
year a day is (`Calendar.year_dateOfDay_eq_iff`).

A shift by nanoseconds succeeds exactly where it leads to a supported year
(`Moment.addNanos_to_supported_year`). Neither the bound on nanoseconds that is tested on the way nor
the machine integers that the year is computed with take anything away.
-/

namespace Reckoner

namespace Calendar

variable {d : CivilDate} {n year : Int}

/-- The number of the first day of a year. -/
def newYear (year : Int) : Int := daysOfCivil ⟨year, 1, 1⟩

/-- A year begins 306 days after the first of March before it. -/
theorem newYear_eq (year : Int) : newYear year = marchDay (year - 1) + 306 := by
  rw [newYear, daysOfCivil_of_le (by decide)]
  show _ + monthStart 10 + 1 - 1 = _
  have hjanuary : monthStart 10 = 306 := rfl
  omega

/-- The years follow one another without a gap. -/
theorem newYear_succ (year : Int) : newYear (year + 1) = newYear year + daysInYear year := by
  have hmarch := marchDay_succ (year - 1)
  have hlength : marchYearLength (year - 1) = daysInYear year := by
    rw [marchYearLength, Int.sub_add_cancel, daysInYear]
    split <;> rfl
  rw [Int.sub_add_cancel, hlength] at hmarch
  rw [newYear_eq, newYear_eq, Int.add_sub_cancel]
  omega

example : newYear 1970 = 0 := by decide

theorem daysInYear_mem (year : Int) : 365 ≤ daysInYear year ∧ daysInYear year ≤ 366 := by
  unfold daysInYear
  split <;> decide

theorem newYear_lt_newYear_iff {a b : Int} : newYear a < newYear b ↔ a < b := by
  rw [newYear_eq, newYear_eq]
  unfold marchDay
  omega

theorem newYear_le_newYear {a b : Int} (h : a ≤ b) : newYear a ≤ newYear b :=
  Int.not_lt.1 fun hlt => Int.not_lt.2 h (newYear_lt_newYear_iff.1 hlt)

/-- The days of a date's year are those from its new year to the next one. -/
theorem daysOfCivil_mem_year (h : IsDate d) :
    newYear d.year ≤ daysOfCivil d ∧ daysOfCivil d < newYear (d.year + 1) := by
  obtain ⟨year, month, day⟩ := d
  obtain ⟨h1, h12, hday, hle⟩ := h
  simp only at h1 h12 hday hle ⊢
  have hlength := daysInMonth_le year month
  have hnext := newYear_succ year
  have hyear := daysInYear_mem year
  by_cases hmonth : month ≤ 2
  · have hstart := newYear_eq year
    rw [daysOfCivil_of_le hmonth]
    unfold monthStart
    omega
  · have hend := newYear_eq (year + 1)
    rw [Int.add_sub_cancel] at hend
    rw [daysOfCivil_of_lt (Nat.lt_of_not_le hmonth)]
    unfold monthStart
    omega

/-- The year of a day is the one whose new year is not after the day, while the next one is. -/
theorem year_dateOfDay_eq_iff :
    (dateOfDay n).year = year ↔ newYear year ≤ n ∧ n < newYear (year + 1) := by
  have hmem := daysOfCivil_mem_year (isDate_dateOfDay n)
  rw [daysOfCivil_dateOfDay] at hmem
  constructor
  · rintro rfl
    exact hmem
  · rintro ⟨hstart, hend⟩
    have hlow := newYear_lt_newYear_iff.1 (Int.lt_of_le_of_lt hstart hmem.2)
    have hhigh := newYear_lt_newYear_iff.1 (Int.lt_of_le_of_lt hmem.1 hend)
    omega

end Calendar

namespace Moment

open Calendar

variable {m m' : Moment} {n : Int}

theorem year_localDate_eq_iff {year : Int} :
    m.localDate.year = year ↔ newYear year ≤ m.localDay ∧ m.localDay < newYear (year + 1) :=
  year_dateOfDay_eq_iff

/-- The days of the supported years have no gaps between them. -/
theorem inYears_iff_localDay :
    InYears m.localDate.year ↔ newYear minYear ≤ m.localDay ∧ m.localDay < newYear (maxYear + 1) := by
  obtain ⟨hstart, hend⟩ := year_localDate_eq_iff.1 (rfl : m.localDate.year = _)
  constructor
  · rintro ⟨hmin, hmax⟩
    have hfirst := newYear_le_newYear hmin
    have hlast := newYear_le_newYear (Int.add_le_add_right hmax 1)
    exact ⟨Int.le_trans hfirst hstart, Int.lt_of_lt_of_le hend hlast⟩
  · rintro ⟨hmin, hmax⟩
    have hlow := newYear_lt_newYear_iff.1 (Int.lt_of_le_of_lt hmin hend)
    have hhigh := newYear_lt_newYear_iff.1 (Int.lt_of_le_of_lt hstart hmax)
    exact ⟨Int.le_of_lt_add_one hlow, Int.le_of_lt_add_one hhigh⟩

/-- The wall clock is past the beginning of a year, and not yet past its end. -/
def IsInYear (m : Moment) (year : Int) : Prop :=
  newYear year * nanosPerDay ≤ m.localNanos ∧ m.localNanos < newYear (year + 1) * nanosPerDay

theorem isInYear_iff {year : Int} : m.IsInYear year ↔ m.localDate.year = year := by
  have hpos : 0 < nanosPerDay := by decide
  rw [year_localDate_eq_iff, localDay, Int.le_ediv_iff_mul_le hpos, Int.ediv_lt_iff_lt_mul hpos]
  rfl

theorem inYears_iff_isInYear :
    InYears m.localDate.year ↔ ∃ year, InYears year ∧ m.IsInYear year := by
  constructor
  · intro h
    exact ⟨_, h, isInYear_iff.2 rfl⟩
  · rintro ⟨year, hyear, hm⟩
    rwa [isInYear_iff.1 hm]

/-- The machine integers that the date of a moment is computed with are wide enough: 128 bits for
the wall clock, 64 for the day, also when it is counted from the year 0, and 32 for the year. -/
structure FitsWords (m : Moment) : Prop where
  localNanos : FitsSigned 128 m.localNanos
  localDay : FitsSigned 64 m.localDay
  marchDay : FitsSigned 64 (m.localDay + epochDay)
  year : FitsSigned 32 m.localDate.year

theorem fitsWords_of_natAbs_nanos_le (hoffset : m.HasWordOffset)
    (h : m.nanos.natAbs ≤ maxNanos) : m.FitsWords := by
  have hday := localDay_mem_of_natAbs_nanos_le hoffset h
  have hyear := year_dateOfDay_mem hday
  have hnanos := offsetNanos_mem hoffset
  refine ⟨fitsSigned_of_natAbs_le ?_, by omega, ?_, ?_⟩
  · unfold Moment.localNanos
    simp only [maxNanos, maxYear, nanosPerDay, nanosPerHour, nanosPerMinute, nanosPerSecond] at *
    omega
  · unfold epochDay
    omega
  · rw [localDate]
    omega

/-- The moment that is so many nanoseconds later, in the same offset. -/
def shifted (m : Moment) (n : Int) : Moment := ⟨m.nanos + n, m.offset⟩

/-- **A shift by nanoseconds succeeds exactly where it leads to a supported year**, and then it
leads to the sum of the nanoseconds in the same offset. The bound on nanoseconds, which is tested
first, lets every moment of a supported year pass, and below the bound no machine integer is too
narrow for the date. -/
theorem addNanos_to_supported_year (m : Moment) (n : Int) (hoffset : m.HasWordOffset) :
    (∀ m', m.addNanos n = .ok m' ↔
      FitsSigned 128 (m.nanos + n) ∧ (∃ year, InYears year ∧ (m.shifted n).IsInYear year) ∧
        m' = m.shifted n) ∧
    ((∀ m', m.addNanos n ≠ .ok m') → m.addNanos n = .error .outOfRange) ∧
    ((∃ year, InYears year ∧ (m.shifted n).IsInYear year) → (m.nanos + n).natAbs ≤ maxNanos) ∧
    ((m.nanos + n).natAbs ≤ maxNanos →
      (m.shifted n).FitsWords ∧ (m.shifted n).IsInYear (m.shifted n).year) := by
  have hword : (m.shifted n).HasWordOffset := hoffset
  have hpasses (hyear : ∃ year, InYears year ∧ (m.shifted n).IsInYear year) :
      (m.nanos + n).natAbs ≤ maxNanos :=
    IsSupported.natAbs_nanos_le ⟨inYears_iff_isInYear.2 hyear, hword⟩
  refine ⟨fun m' => ?_, fun hfails => ?_, hpasses, fun hbound => ?_⟩
  · rw [addNanos_eq_ok_iff hoffset]
    constructor
    · rintro ⟨rfl, hsupported⟩
      have hyear := inYears_iff_isInYear.1 hsupported.inYears
      have hbound := hpasses hyear
      exact ⟨fitsSigned_of_natAbs_le (by omega), hyear, rfl⟩
    · rintro ⟨-, hyear, rfl⟩
      exact ⟨rfl, inYears_iff_isInYear.2 hyear, hword⟩
  · apply addNanos_eq_error hoffset
    exact fun hsupported => hfails _ (addNanos_eq_ok hsupported)
  · rw [isInYear_iff, year, date_eq_of_natAbs_nanos_le hword hbound]
    exact ⟨fitsWords_of_natAbs_nanos_le hword hbound, rfl⟩

/-- Back to the first nanosecond of the supported years in the offset farthest ahead of UTC, which is
the earliest instant that any wall clock shows; and one nanosecond farther. -/
theorem addNanos_to_first_year :
    (⟨0, some 2147483647⟩ : Moment).HasWordOffset ∧
    ((⟨0, some 2147483647⟩ : Moment).shifted (-31621235080447000000000)).IsInYear (-999999) ∧
    ((⟨0, some 2147483647⟩ : Moment).shifted (-31621235080447000000000)).FitsWords ∧
    (⟨0, some 2147483647⟩ : Moment).addNanos (-31621235080447000000000) =
      .ok ⟨-31621235080447000000000, some 2147483647⟩ ∧
    (⟨0, some 2147483647⟩ : Moment).addNanos (-31621235080447000000001) = .error .outOfRange := by
  have hoffset : (⟨0, some 2147483647⟩ : Moment).HasWordOffset := by
    intro s hs
    cases hs
    decide
  have hfirst : ((⟨0, some 2147483647⟩ : Moment).shifted (-31621235080447000000000)).IsInYear
      (-999999) := ⟨by decide, by decide⟩
  have hbefore : ((⟨0, some 2147483647⟩ : Moment).shifted (-31621235080447000000001)).IsInYear
      (-1000000) := ⟨by decide, by decide⟩
  refine ⟨hoffset, hfirst, ?_, ?_, ?_⟩
  · have hbound := (addNanos_to_supported_year _ _ hoffset).2.2.1 ⟨-999999, by decide, hfirst⟩
    exact ((addNanos_to_supported_year _ _ hoffset).2.2.2 hbound).1
  · apply ((addNanos_to_supported_year _ _ hoffset).1 _).2
    exact ⟨by decide, ⟨-999999, by decide, hfirst⟩, rfl⟩
  · apply (addNanos_to_supported_year _ _ hoffset).2.1
    intro m' hok
    obtain ⟨-, ⟨year, hyear, hm⟩, -⟩ := ((addNanos_to_supported_year _ _ hoffset).1 m').1 hok
    obtain rfl : -1000000 = year := (isInYear_iff.1 hbefore).symm.trans (isInYear_iff.1 hm)
    exact absurd hyear (by decide)

end Moment

end Reckoner
