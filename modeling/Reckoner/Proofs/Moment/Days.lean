import Reckoner.Proofs.Moment.Range

/-!
# Day after day

The count of days follows the calendar: the number of a day is one more than that of the day before,
where the day after a date is found from the lengths of the months (`Calendar.nextDate`):

    daysOfCivil (nextDate d) = daysOfCivil d + 1

Adding a day to a moment therefore turns over its date, its weekday and its day of the year, and
leaves its clock alone (`Moment.addDays_one`).
-/

namespace Reckoner

namespace Calendar

variable {d : CivilDate} {year : Int} {month day : Nat}

/-- The day after a date. -/
def nextDate (d : CivilDate) : CivilDate :=
  if d.day < daysInMonth d.year d.month then { d with day := d.day + 1 }
  else if d.month < 12 then ⟨d.year, d.month + 1, 1⟩
  else ⟨d.year + 1, 1, 1⟩

/-- The last day of the supported years. -/
def lastDate : CivilDate := ⟨maxYear, 12, 31⟩

/-! ## The next day is the next number -/

/-- The number of the first of March of a year. -/
def marchDay (year : Int) : Int := 365 * year + year / 4 - year / 100 + year / 400 - epochDay

theorem marchDay_succ (year : Int) :
    marchDay (year + 1) = marchDay year + marchYearLength year := by
  unfold marchDay marchYearLength
  split
  · next h =>
    rw [isLeapYear_iff] at h
    omega
  · next h =>
    rw [isLeapYear_iff] at h
    omega

/-- The days up to a date are those up to its year, its month and its day. January and February
come at the end of the year before. -/
theorem daysOfCivil_of_le (h : month ≤ 2) :
    daysOfCivil ⟨year, month, day⟩ = marchDay (year - 1) + monthStart (month + 9) + day - 1 := by
  have hmonth : ¬ 2 < month := by omega
  simp only [daysOfCivil, if_pos h, if_neg hmonth, marchDay, monthStart, daysPerEra]
  omega

theorem daysOfCivil_of_lt (h : 2 < month) :
    daysOfCivil ⟨year, month, day⟩ = marchDay year + monthStart (month - 3) + day - 1 := by
  have hmonth : ¬ month ≤ 2 := by omega
  simp only [daysOfCivil, if_pos h, if_neg hmonth, marchDay, monthStart, daysPerEra]
  omega

/-- The first of a month is the day after the last of the month before. -/
theorem daysOfCivil_monthEnd (year : Int) (h1 : 1 ≤ month) (h12 : month < 12) :
    daysOfCivil ⟨year, month + 1, 1⟩ = daysOfCivil ⟨year, month, daysInMonth year month⟩ + 1 := by
  rcases Nat.lt_trichotomy month 2 with h | rfl | h
  · obtain rfl : month = 1 := by omega
    have hlength : (daysInMonth year 1 : Int) = monthStart 11 - monthStart 10 :=
      daysInMonth_eq_monthStart h1 (by decide) (by decide) rfl
    rw [daysOfCivil_of_le (by decide), daysOfCivil_of_le (by decide), hlength]
    show _ + monthStart 11 + 1 - 1 = _ + monthStart 10 + _ - 1 + 1
    omega
  · -- The end of February is the end of a year that begins in March.
    have hyear := marchDay_succ (year - 1)
    rw [show year - 1 + 1 = year by omega] at hyear
    rw [daysOfCivil_of_lt (by decide), daysOfCivil_of_le (by decide), daysInMonth_february, hyear]
    show _ + monthStart 0 + 1 - 1 = _ + monthStart 11 + _ - 1 + 1
    have hmarch : monthStart 0 = 0 := rfl
    omega
  · have hlength : (daysInMonth year month : Int) =
        monthStart (month - 3 + 1) - monthStart (month - 3) :=
      daysInMonth_eq_monthStart h1 (by omega) (by omega) (if_pos h).symm
    have hmonth : ((month + 1 : Nat) : Int) - 3 = month - 3 + 1 := by omega
    rw [daysOfCivil_of_lt (by omega), daysOfCivil_of_lt h, hlength, hmonth]
    omega

/-- The first of a year is the day after the last of the year before. -/
theorem daysOfCivil_yearEnd :
    daysOfCivil ⟨year + 1, 1, 1⟩ = daysOfCivil ⟨year, 12, daysInMonth year 12⟩ + 1 := by
  have hlength : (daysInMonth year 12 : Int) = monthStart 10 - monthStart 9 :=
    daysInMonth_eq_monthStart (by decide) (by decide) (by decide) rfl
  rw [daysOfCivil_of_le (by decide), daysOfCivil_of_lt (by decide), hlength, Int.add_sub_cancel]
  show _ + monthStart 10 + 1 - 1 = _ + monthStart 9 + _ - 1 + 1
  omega

theorem daysOfCivil_nextDate (h : IsDate d) : daysOfCivil (nextDate d) = daysOfCivil d + 1 := by
  obtain ⟨year, month, day⟩ := d
  obtain ⟨h1, h12, -, hle⟩ := h
  simp only at h1 h12 hle
  unfold nextDate
  simp only
  split
  · simp only [daysOfCivil]
    omega
  · obtain rfl : day = daysInMonth year month := by omega
    split
    · next h => exact daysOfCivil_monthEnd year h1 h
    · obtain rfl : month = 12 := by omega
      exact daysOfCivil_yearEnd

theorem one_le_daysInMonth (year : Int) (h1 : 1 ≤ month) (h12 : month ≤ 12) :
    1 ≤ daysInMonth year month := by
  have hlengths : ∀ i < 12, 1 ≤ monthLengths.getD i 0 := by decide
  unfold daysInMonth
  split
  · decide
  · rw [if_neg (by omega)]
    exact hlengths (month - 1) (by omega)

theorem isDate_first (h1 : 1 ≤ month) (h12 : month ≤ 12) : IsDate ⟨year, month, 1⟩ :=
  ⟨h1, h12, Nat.le_refl _, one_le_daysInMonth _ h1 h12⟩

theorem isDate_nextDate (h : IsDate d) : IsDate (nextDate d) := by
  obtain ⟨h1, h12, -, -⟩ := h
  unfold nextDate
  split
  · next hday => exact ⟨h1, h12, Nat.le_add_left .., hday⟩
  · split
    · next hmonth => exact isDate_first (Nat.le_add_left ..) hmonth
    · exact isDate_first (by decide) (by decide)

/-- The year is left on its last day, for the first day of the next one. -/
theorem nextDate_cases (h : IsDate d) :
    (nextDate d).year = d.year ∧ (d.month = 12 → d.day < 31) ∨
      d.month = 12 ∧ d.day = 31 ∧ nextDate d = ⟨d.year + 1, 1, 1⟩ := by
  have hmonth := h.month_le
  have hday := h.day_le
  have hdecember : daysInMonth d.year 12 = 31 := rfl
  unfold nextDate
  split
  · next hlt =>
    refine .inl ⟨rfl, fun h12 => ?_⟩
    rwa [h12, hdecember] at hlt
  · next hend =>
    split
    · next hlt => exact .inl ⟨rfl, fun h12 => absurd h12 (Nat.ne_of_lt hlt)⟩
    · have h12 : d.month = 12 := by omega
      rw [h12, hdecember] at hday hend
      exact .inr ⟨h12, by omega, rfl⟩

theorem eq_lastDate_iff : d = lastDate ↔ d.year = maxYear ∧ d.month = 12 ∧ d.day = 31 := by
  obtain ⟨year, month, day⟩ := d
  simp only [lastDate, CivilDate.mk.injEq]

theorem inYears_nextDate_iff (h : IsDate d) (hyear : InYears d.year) :
    InYears (nextDate d).year ↔ d ≠ lastDate := by
  rw [ne_eq, eq_lastDate_iff]
  rcases nextDate_cases h with ⟨hsame, hdecember⟩ | ⟨h12, h31, hnext⟩
  · rw [hsame]
    exact ⟨fun _ hlast => absurd (hdecember hlast.2.1) (by omega), fun _ => hyear⟩
  · rw [hnext]
    unfold InYears at *
    simp only
    omega

/-! ## Days of the year -/

theorem daysOfCivil_day (year : Int) (month day : Nat) :
    daysOfCivil ⟨year, month, day⟩ = daysOfCivil ⟨year, month, 1⟩ + day - 1 := by
  simp only [daysOfCivil]
  omega

/-- The lengths of the first months of a year, added up. -/
theorem foldr_daysInMonth (year : Int) {month : Nat} (h : month < 12) (rest : Nat) :
    (((List.range month).foldr (fun i days => daysInMonth year (i + 1) + days) rest : Nat) : Int) =
      daysOfCivil ⟨year, month + 1, 1⟩ - daysOfCivil ⟨year, 1, 1⟩ + rest := by
  induction month generalizing rest with
  | zero =>
    rw [List.range_zero, List.foldr_nil, Nat.zero_add, Int.sub_self, Int.zero_add]
  | succ month ih =>
    have hnext := daysOfCivil_monthEnd year (Nat.le_add_left 1 month) h
    rw [daysOfCivil_day year (month + 1) (daysInMonth year (month + 1))] at hnext
    rw [List.range_succ, List.foldr_append, List.foldr_cons, List.foldr_nil, ih (by omega), hnext]
    omega

end Calendar

namespace Moment

open Calendar

variable {m m' : Moment}

/-- The day of the year is counted from the first of January. -/
theorem dayOfYear_eq (h : InYears m.localDate.year) :
    (m.dayOfYear : Int) = m.localDay - daysOfCivil ⟨m.localDate.year, 1, 1⟩ + 1 := by
  have hdate := m.isDate_localDate
  have hmonth : m.localDate.month - 1 + 1 = m.localDate.month :=
    Nat.sub_add_cancel hdate.one_le_month
  have hmonths := foldr_daysInMonth m.localDate.year
    (Nat.sub_one_lt_of_le hdate.one_le_month hdate.month_le) m.localDate.day
  have hday := m.localDay_eq
  have hsplit : daysOfCivil m.localDate = _ :=
    daysOfCivil_day m.localDate.year m.localDate.month m.localDate.day
  rw [hmonth] at hmonths
  unfold dayOfYear
  simp only [date_eq_localDate h]
  omega

theorem localDate_of_localDay (h : m'.localDay = m.localDay + 1) :
    m'.localDate = nextDate m.localDate := by
  have hdate := m.isDate_localDate
  rw [localDate_eq_iff (isDate_nextDate hdate), daysOfCivil_nextDate hdate, h, localDay_eq]

/-- A day more leaves the clock alone. -/
theorem fields_addNanos_day (m : Moment) :
    (⟨m.nanos + 1 * nanosPerDay, m.offset⟩ : Moment).localDay = m.localDay + 1 ∧
      (⟨m.nanos + 1 * nanosPerDay, m.offset⟩ : Moment).time = m.time := by
  apply (localNanos_eq_iff m.isTime_time).1
  have hnanos := m.localNanos_eq
  unfold localNanos at hnanos ⊢
  simp only
  rw [Int.add_mul]
  omega

theorem weekday_of_localDay (h : m'.localDay = m.localDay + 1) :
    m'.weekday = m.weekday % 7 + 1 := by
  unfold weekday
  omega

theorem year_eq (h : InYears m.localDate.year) : m.year = m.localDate.year := by
  rw [year, date_eq_localDate h]

theorem dayOfYear_of_localDay (hm : InYears m.localDate.year) (hm' : InYears m'.localDate.year)
    (h : m'.localDay = m.localDay + 1) :
    m'.dayOfYear = if m'.year = m.year then m.dayOfYear + 1 else 1 := by
  have hday := dayOfYear_eq hm
  have hday' := dayOfYear_eq hm'
  have hnext := localDate_of_localDay h
  rw [year_eq hm, year_eq hm']
  rcases nextDate_cases m.isDate_localDate with ⟨hsame, -⟩ | ⟨-, -, hnew⟩
  · rw [hnext, hsame] at hday'
    rw [hnext, if_pos hsame]
    omega
  · rw [hnew] at hnext
    rw [localDay_eq m', hnext] at hday'
    simp only [Int.sub_self] at hday'
    have hyear : m.localDate.year + 1 ≠ m.localDate.year := by omega
    rw [hnext, if_neg hyear]
    omega

/-- **A day later** the calendar shows the next date and the next weekday at the same time. Only the
last supported day has no next one. -/
theorem addDays_one (m : Moment) (h : m.IsSupported) :
    (m.date = lastDate → m.addDays 1 = .error .outOfRange) ∧
    (m.date ≠ lastDate → ∃ m', m.addDays 1 = .ok m' ∧
      m'.date = nextDate m.date ∧ m'.time = m.time ∧ m'.offset = m.offset ∧
      m'.weekday = m.weekday % 7 + 1 ∧
      m'.dayOfYear = if m'.year = m.year then m.dayOfYear + 1 else 1) := by
  obtain ⟨hday, htime⟩ := fields_addNanos_day m
  have hnext := localDate_of_localDay hday
  have hyears := inYears_nextDate_iff m.isDate_localDate h.inYears
  rw [← hnext] at hyears
  rw [date_eq_localDate h.inYears]
  constructor
  · intro hlast
    exact addNanos_eq_error h.offset fun hsupported => hyears.1 hsupported.inYears hlast
  · intro hlast
    have hinYears := hyears.2 hlast
    refine ⟨_, addNanos_eq_ok ⟨hinYears, h.offset⟩, ?_, htime, rfl, weekday_of_localDay hday,
      dayOfYear_of_localDay h.inYears hinYears hday⟩
    rw [date_eq_localDate hinYears, hnext]

/-- The last nanosecond of the year -1, in the offset farthest behind UTC. -/
theorem addDays_one_before_year_zero :
    (⟨-60019735552000000001, some (-2147483648)⟩ : Moment).IsSupported ∧
    (⟨-60019735552000000001, some (-2147483648)⟩ : Moment).date = ⟨-1, 12, 31⟩ ∧
    ∃ m', (⟨-60019735552000000001, some (-2147483648)⟩ : Moment).addDays 1 = .ok m' ∧
      m'.date = ⟨0, 1, 1⟩ ∧ m'.time = ⟨23, 59, 59, 999999999⟩ ∧ m'.offset = some (-2147483648) ∧
      m'.weekday = 6 ∧ m'.dayOfYear = 1 := by
  have hsupported : (⟨-60019735552000000001, some (-2147483648)⟩ : Moment).IsSupported := by
    refine ⟨by decide, fun s hs => ?_⟩
    cases hs
    decide
  obtain ⟨m', hok, hdate, htime, hoffset, hweekday, hday⟩ :=
    (addDays_one _ hsupported).2 (by decide)
  have hyear : m'.year = 0 := congrArg CivilDate.year hdate
  rw [hyear] at hday
  exact ⟨hsupported, by decide, m', hok, hdate, htime, hoffset, hweekday, hday⟩

end Moment

end Reckoner
