import Reckoner.Proofs.Moment.Days

/-!
# Month after month

Adding months to a moment counts months over the years and leaves the clock alone
(`Moment.addMonths_on_calendar`). The day of the month is kept where the month it lands in has that
day, and is the last one of a shorter month (`Calendar.monthsAfter`). It fails only where the year is
not supported: a number of months that does not fit 64 bits is farther away than any of these years.
-/

namespace Reckoner

namespace Calendar

variable {d : CivilDate}

/-- The number of the month of a date, counted from January of the year 0. -/
def monthNumber (d : CivilDate) : Int := 12 * d.year + (d.month - 1)

/-- The date that is some months after a date, with its day cut to the length of its month. -/
def monthsAfter (d : CivilDate) (k : Int) : CivilDate :=
  let year := (monthNumber d + k) / 12
  let month := ((monthNumber d + k) % 12).toNat + 1
  ⟨year, month, min d.day (daysInMonth year month)⟩

theorem isDate_monthsAfter (h : IsDate d) (k : Int) : IsDate (monthsAfter d k) := by
  have h1 : 1 ≤ (monthsAfter d k).month := Nat.le_add_left ..
  have h12 : (monthsAfter d k).month ≤ 12 := by
    simp only [monthsAfter]
    omega
  have hlength := one_le_daysInMonth (monthsAfter d k).year h1 h12
  exact ⟨h1, h12, Nat.le_min.2 ⟨h.one_le_day, hlength⟩, Nat.min_le_right ..⟩

end Calendar

namespace Moment

open Calendar

variable {m m' : Moment} {k : Int}

theorem isDate_date (h : InYears m.localDate.year) : IsDate m.date := by
  rw [date_eq_localDate h]
  exact m.isDate_localDate

theorem ofFields_of_not_inYears {d : CivilDate} {t : ClockTime} {offset : Option Int}
    (h : ¬ InYears d.year) : ofFields d t offset = .error .outOfRange := by
  rw [ofFields, checkDate, if_pos h]
  rfl

/-- Adding months makes the moment of the later date. Of the two tests on the way the one for 64
bits never decides: months that do not fit are of no supported year. -/
theorem addMonths_eq_ofFields (h : InYears m.localDate.year) (k : Int) :
    m.addMonths k = ofFields (monthsAfter m.date k) m.time m.offset := by
  have hdate := isDate_monthsAfter (isDate_date h) k
  have hmonths : m.date.year * 12 + (m.date.month - 1) + k = monthNumber m.date + k := by
    unfold monthNumber
    omega
  have hmonth : ((monthNumber m.date + k) % 12 + 1).toNat =
      ((monthNumber m.date + k) % 12).toNat + 1 := by omega
  simp only [addMonths, hmonths, hmonth]
  by_cases hyear : InYears (monthsAfter m.date k).year
  · have hquotient : InYears ((monthNumber m.date + k) / 12) := hyear
    have hfits : FitsSigned 64 (monthNumber m.date + k) := by
      unfold InYears minYear maxYear at hquotient
      omega
    rw [if_neg (not_not_intro hfits), if_neg (not_not_intro hquotient), ofFields,
      checkDate_eq_ok.2 ⟨hyear, hdate⟩, checkTime_eq_ok.2 m.isTime_time, nanos_time]
    rfl
  · rw [ofFields_of_not_inYears hyear]
    split
    · rfl
    · exact if_pos hyear

theorem exists_addMonths (h : InYears m.localDate.year)
    (hyear : InYears (monthsAfter m.date k).year) :
    ∃ m', m.addMonths k = .ok m' ∧ m'.date = monthsAfter m.date k ∧ m'.time = m.time ∧
      m'.offset = m.offset := by
  have hdate := isDate_monthsAfter (isDate_date h) k
  obtain ⟨m', hm'⟩ := exists_ofFields m.offset hyear hdate m.isTime_time
  obtain ⟨-, hlocal, htime, hoffset⟩ := ofFields_eq_ok_iff.1 hm'
  refine ⟨m', (addMonths_eq_ofFields h k).trans hm', ?_, htime, hoffset⟩
  rw [date_eq_localDate (by rwa [hlocal]), hlocal]

theorem addMonths_eq_error_iff (h : InYears m.localDate.year) :
    m.addMonths k = .error .outOfRange ↔ ¬ InYears (monthsAfter m.date k).year := by
  constructor
  · intro herror hyear
    obtain ⟨m', hok, -⟩ := exists_addMonths h hyear
    rw [hok] at herror
    cases herror
  · intro hyear
    rw [addMonths_eq_ofFields h, ofFields_of_not_inYears hyear]

/-- Years that do not fit 64 bits as months are not supported either. -/
theorem addYears_eq (h : InYears m.localDate.year) (k : Int) :
    m.addYears k = m.addMonths (12 * k) := by
  have hmonth := m.isDate_localDate.month_le
  rw [addYears, Int.mul_comm]
  split
  · rfl
  · next hfits =>
    symm
    rw [addMonths_eq_error_iff h, date_eq_localDate h]
    simp only [monthsAfter, monthNumber]
    unfold InYears minYear maxYear at *
    omega

/-- **Months later** the calendar shows the date so many months later, with the day cut to the
length of its month, at the same time. There is no such date only where its year is not supported.
Years are twelve months each. -/
theorem addMonths_on_calendar (m : Moment) (h : InYears m.localDate.year) :
    (∀ k, m.addMonths k = .error .outOfRange ↔ ¬ InYears (monthsAfter m.date k).year) ∧
    (∀ k, InYears (monthsAfter m.date k).year →
      ∃ m', m.addMonths k = .ok m' ∧ m'.date = monthsAfter m.date k ∧ m'.time = m.time ∧
        m'.offset = m.offset) ∧
    (∀ k, m.addYears k = m.addMonths (12 * k)) :=
  ⟨fun _ => addMonths_eq_error_iff h, fun _ => exists_addMonths h, addYears_eq h⟩

/-- The last of January 2024, five and a half hours ahead of UTC: thirteen months later and two
months before. -/
theorem addMonths_from_january :
    InYears (⟨1706725799999999999, some 19800⟩ : Moment).localDate.year ∧
    (⟨1706725799999999999, some 19800⟩ : Moment).date = ⟨2024, 1, 31⟩ ∧
    (∃ m', (⟨1706725799999999999, some 19800⟩ : Moment).addMonths 13 = .ok m' ∧
      m'.date = ⟨2025, 2, 28⟩ ∧ m'.time = ⟨23, 59, 59, 999999999⟩ ∧ m'.offset = some 19800) ∧
    (∃ m', (⟨1706725799999999999, some 19800⟩ : Moment).addMonths (-2) = .ok m' ∧
      m'.date = ⟨2023, 11, 30⟩ ∧ m'.time = ⟨23, 59, 59, 999999999⟩ ∧ m'.offset = some 19800) ∧
    (⟨1706725799999999999, some 19800⟩ : Moment).addYears (2 ^ 62) = .error .outOfRange := by
  have hyear : InYears (⟨1706725799999999999, some 19800⟩ : Moment).localDate.year := by decide
  obtain ⟨herror, hok, hyears⟩ := addMonths_on_calendar _ hyear
  refine ⟨hyear, by decide, hok 13 (by decide), hok (-2) (by decide), ?_⟩
  rw [hyears, herror]
  decide

end Moment

end Reckoner
