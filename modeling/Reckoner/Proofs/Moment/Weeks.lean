import Reckoner.Proofs.Moment.Years

/-!
# Weeks

A week lasts from Monday to Sunday and belongs to the year of its Thursday. Its number counts the
Thursdays of that year up to its own:

    isoWeek m = 1 + (dayOfYear t - 1) / 7

for the Thursday `t` of the week of `m` (`Moment.isoWeek_of_thursday`). The program counts from the
new year of `m`, where that Thursday may be too early or too late; the three cases come to the same
number (`Moment.isoWeek_eq_weekOfThursday`).

The supported years begin with a Monday and end with a Friday, so that the Thursday of every week
that they have a day of is of a supported year too.
-/

namespace Reckoner.Moment

open Calendar

variable {m t : Moment}

/-- The number of the Monday of the week. -/
def monday (m : Moment) : Int := m.localDay - (m.weekday - 1)

/-- The wall clocks show days of one week. -/
def SameWeek (a b : Moment) : Prop := a.monday = b.monday

theorem weekday_mem (m : Moment) : 1 ≤ m.weekday ∧ m.weekday ≤ 7 := by
  unfold weekday
  omega

/-- Mondays are seven days apart, and 1970-01-01 was a Thursday. -/
theorem monday_mod (m : Moment) : m.monday % 7 = 4 := by
  unfold monday weekday
  omega

theorem localDay_of_weekday (hweek : t.SameWeek m) : t.localDay = m.monday + t.weekday - 1 := by
  rw [← hweek]
  unfold monday
  omega

/-- Every week has its Thursday. -/
theorem exists_thursday (m : Moment) : ∃ t : Moment, t.SameWeek m ∧ t.weekday = 4 := by
  refine ⟨⟨m.nanos + (4 - m.weekday) * nanosPerDay, m.offset⟩, ?_⟩
  have hday : (⟨m.nanos + (4 - m.weekday) * nanosPerDay, m.offset⟩ : Moment).localDay =
      m.localDay + (4 - m.weekday) := by
    have hpos : nanosPerDay ≠ 0 := by decide
    unfold localDay localNanos
    rw [Int.add_right_comm, Int.add_mul_ediv_right _ _ hpos]
  have hmonday := m.monday_mod
  unfold SameWeek monday weekday at *
  rw [hday]
  omega

/-- The first of the supported years begins with a Monday, and the day after the last one is a
Saturday. -/
theorem inYears_of_thursday (h : InYears m.localDate.year) (ht : t.localDay = m.monday + 3) :
    InYears t.localDate.year := by
  have hfirst : newYear minYear = -365961662 := by decide
  have hlast : newYear (maxYear + 1) = 364522972 := by decide
  rw [inYears_iff_localDay] at h ⊢
  rw [ht]
  unfold monday weekday
  omega

/-- The Thursday of the week, counted from the new year of the moment. -/
theorem thursday_eq (h : InYears m.localDate.year) :
    m.thursday = m.monday + 3 - newYear m.localDate.year + 1 := by
  rw [thursday, dayOfYear_eq h, monday, newYear]
  omega

theorem exists_ofDate {d : CivilDate} (hy : InYears d.year) (hd : IsDate d) :
    ∃ m, ofDate d = .ok m ∧ m.localDate = d := by
  have hmidnight : IsTime ⟨0, 0, 0, 0⟩ := ⟨by decide, by decide, by decide, by decide⟩
  obtain ⟨m, hm⟩ := exists_ofFields none hy hd hmidnight
  exact ⟨m, hm, (ofFields_eq_ok_iff.1 hm).2.1⟩

/-- The day of the year is counted from the new year. -/
theorem dayOfYear_eq_newYear {year : Int} (h : InYears year) (hyear : m.localDate.year = year) :
    (m.dayOfYear : Int) = m.localDay - newYear year + 1 := by
  subst hyear
  exact dayOfYear_eq h

/-- 28 December is three days before the last day of the year. -/
theorem localDay_of_december {year : Int} (h : m.localDate = ⟨year, 12, 28⟩) :
    m.localDay = newYear (year + 1) - 4 := by
  have hend : newYear (year + 1) = daysOfCivil ⟨year, 12, 31⟩ + 1 := daysOfCivil_yearEnd
  rw [localDay_eq, h, hend, daysOfCivil_day, daysOfCivil_day year 12 31]
  omega

/-- A week that goes on into the new year, with its Thursday before it, is that of 28 December. -/
theorem thursday_of_december {year : Int} {last : Moment} (hy : InYears year)
    (hlast : last.localDate = ⟨year, 12, 28⟩) (hbefore : m.monday + 3 < newYear (year + 1))
    (hinto : newYear (year + 1) ≤ m.monday + 6) :
    last.thursday = m.monday + 3 - newYear year + 1 := by
  have hyear : last.localDate.year = year := by rw [hlast]
  have hday := localDay_of_december hlast
  have hweek : last.monday = m.monday := by
    have hmonday := m.monday_mod
    have hlastMonday := last.monday_mod
    have hweekday := last.weekday_mem
    unfold monday at *
    omega
  rw [thursday_eq (by rwa [hyear]), hyear, hweek]

/-- The week number is found from the Thursday, whether it is of the year of the moment, of the one
before or of the one after. -/
theorem isoWeek_eq_weekOfThursday (h : InYears m.localDate.year) (ht : t.localDay = m.monday + 3) :
    m.isoWeek = weekOfThursday t.dayOfYear := by
  have htyear := inYears_of_thursday h ht
  have hthursday := thursday_eq h
  have hmonday : m.monday = m.localDay - (m.weekday - 1) := rfl
  have hweekday := m.weekday_mem
  obtain ⟨year, hyear⟩ : ∃ year, m.localDate.year = year := ⟨_, rfl⟩
  obtain ⟨hstart, hend⟩ := year_localDate_eq_iff.1 hyear
  have hnext := newYear_succ year
  unfold isoWeek
  rw [year_eq h, hthursday]
  rw [hyear] at h ⊢
  simp only
  split
  · next hbefore =>
    obtain ⟨year, rfl⟩ : ∃ before, year = before + 1 := ⟨year - 1, by omega⟩
    have hprevious := newYear_succ year
    have hlength := daysInYear_mem year
    have ht' : t.localDate.year = year := year_localDate_eq_iff.2 (by omega)
    rw [ht'] at htyear
    have hdecember : IsDate ⟨year, 12, 28⟩ :=
      ⟨(by decide : 1 ≤ 12), (by decide : 12 ≤ 12), (by decide : 1 ≤ 28), (by decide : 28 ≤ 31)⟩
    obtain ⟨last, hok, hlast⟩ := exists_ofDate htyear hdecember
    have hsame := thursday_of_december (m := m) htyear hlast (by omega) (by omega)
    rw [Int.add_sub_cancel, hok, dayOfYear_eq_newYear htyear ht', ht, ← hsame]
  · split
    · next hafter =>
      have hafterNext := newYear_succ (year + 1)
      have hlength := daysInYear_mem (year + 1)
      have ht' : t.localDate.year = year + 1 := year_localDate_eq_iff.2 (by omega)
      rw [ht'] at htyear
      rw [dayOfYear_eq_newYear htyear ht', ht, weekOfThursday]
      omega
    · have ht' : t.localDate.year = year := year_localDate_eq_iff.2 (by omega)
      rw [dayOfYear_eq_newYear h ht', ht]

theorem dayOfYear_mem (h : InYears m.localDate.year) : 1 ≤ m.dayOfYear ∧ m.dayOfYear ≤ 366 := by
  have hday := dayOfYear_eq_newYear h rfl
  have hlength := daysInYear_mem m.localDate.year
  have hnext := newYear_succ m.localDate.year
  have hyear := year_localDate_eq_iff.1 (rfl : m.localDate.year = _)
  omega

theorem localDay_of_thursday (hweek : t.SameWeek m) (ht : t.weekday = 4) :
    t.localDay = m.monday + 3 := by
  rw [localDay_of_weekday hweek, ht]
  omega

theorem isoWeek_eq_of_thursday (h : InYears m.localDate.year) (hweek : t.SameWeek m)
    (ht : t.weekday = 4) : m.isoWeek = 1 + (t.dayOfYear - 1) / 7 := by
  have hday := localDay_of_thursday hweek ht
  have hdays := dayOfYear_mem (inYears_of_thursday h hday)
  rw [isoWeek_eq_weekOfThursday h hday, weekOfThursday]
  omega

/-- **The week number is that of the Thursday in its own year.** So all seven days of a week have
one number, and it is one of 1 to 53. -/
theorem isoWeek_of_thursday (m : Moment) (h : InYears m.localDate.year) :
    (∃ t : Moment, t.SameWeek m ∧ t.weekday = 4) ∧
    (∀ t : Moment, t.SameWeek m → t.weekday = 4 →
      InYears t.localDate.year ∧ m.isoWeek = 1 + (t.dayOfYear - 1) / 7) ∧
    (∀ m' : Moment, m'.SameWeek m → InYears m'.localDate.year → m'.isoWeek = m.isoWeek) ∧
    1 ≤ m.isoWeek ∧ m.isoWeek ≤ 53 := by
  obtain ⟨t, hweek, ht⟩ := exists_thursday m
  have hyears := inYears_of_thursday h (localDay_of_thursday hweek ht)
  have hnumber := isoWeek_eq_of_thursday h hweek ht
  have hdays := dayOfYear_mem hyears
  refine ⟨⟨t, hweek, ht⟩, fun u hu hu4 => ?_, fun m' hm' h' => ?_, by omega, by omega⟩
  · exact ⟨inYears_of_thursday h (localDay_of_thursday hu hu4), isoWeek_eq_of_thursday h hu hu4⟩
  · rw [hnumber]
    exact isoWeek_eq_of_thursday h' (hweek.trans hm'.symm) ht

/-- The first of January 2021 is of the week of the last day of 2020, a leap year. The night from 29
to 30 December 2024, an hour ahead of UTC, begins the first week of 2025. -/
theorem isoWeek_across_new_year :
    (InYears (⟨1609502400000000000, none⟩ : Moment).localDate.year ∧
      (⟨1609372800000000000, none⟩ : Moment).SameWeek ⟨1609502400000000000, none⟩ ∧
      (⟨1609372800000000000, none⟩ : Moment).weekday = 4 ∧
      (⟨1609372800000000000, none⟩ : Moment).dayOfYear = 366 ∧
      (⟨1609502400000000000, none⟩ : Moment).isoWeek = 53) ∧
    (InYears (⟨1735513200000000000, some 3600⟩ : Moment).localDate.year ∧
      (⟨1735776000000000000, none⟩ : Moment).SameWeek ⟨1735513200000000000, some 3600⟩ ∧
      (⟨1735776000000000000, none⟩ : Moment).weekday = 4 ∧
      (⟨1735776000000000000, none⟩ : Moment).dayOfYear = 2 ∧
      (⟨1735513200000000000, some 3600⟩ : Moment).isoWeek = 1) := by
  have hnewYear : InYears (⟨1609502400000000000, none⟩ : Moment).localDate.year := by decide
  have hlast : (⟨1609372800000000000, none⟩ : Moment).SameWeek ⟨1609502400000000000, none⟩ := by
    show _ = _
    decide
  have hlastDay : (⟨1609372800000000000, none⟩ : Moment).dayOfYear = 366 := by decide
  have hlastWeek := ((isoWeek_of_thursday _ hnewYear).2.1 _ hlast (by decide)).2
  rw [hlastDay] at hlastWeek
  have hmonday : InYears (⟨1735513200000000000, some 3600⟩ : Moment).localDate.year := by decide
  have hfirst : (⟨1735776000000000000, none⟩ : Moment).SameWeek ⟨1735513200000000000, some 3600⟩ := by
    show _ = _
    decide
  have hfirstDay : (⟨1735776000000000000, none⟩ : Moment).dayOfYear = 2 := by decide
  have hfirstWeek := ((isoWeek_of_thursday _ hmonday).2.1 _ hfirst (by decide)).2
  rw [hfirstDay] at hfirstWeek
  exact ⟨⟨hnewYear, hlast, by decide, hlastDay, hlastWeek⟩,
    ⟨hmonday, hfirst, by decide, hfirstDay, hfirstWeek⟩⟩

end Reckoner.Moment
