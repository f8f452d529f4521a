import Reckoner.Moment.Calendar

/-!
# The two day counts are inverse

`daysOfCivil` and `dateOfDay` are inverse to each other on the dates of the calendar:

* `isDate_dateOfDay` — what `dateOfDay` gives is a date of the calendar, for every day,
* `daysOfCivil_dateOfDay` — counting its days gives the day back,
* `dateOfDay_daysOfCivil` — every date of the calendar is the date of its day.

Both functions are compared with a third description of a day, `MarchDate`: the era, the year of the
era, the month and the day of the month, where years begin in March. In these coordinates the two
functions read off the same four numbers, and what is left is arithmetic on one era.
-/

namespace Reckoner.Calendar

/-! ## Dates and times of the calendar -/

/-- A month of the year and a day of that month. -/
structure IsDate (d : CivilDate) : Prop where
  one_le_month : 1 ≤ d.month
  month_le : d.month ≤ 12
  one_le_day : 1 ≤ d.day
  day_le : d.day ≤ daysInMonth d.year d.month

/-- A time on the clock. -/
structure IsTime (t : ClockTime) : Prop where
  hour_lt : t.hour < 24
  minute_lt : t.minute < 60
  second_lt : t.second < 60
  nanosecond_lt : t.nanosecond < 10 ^ 9

theorem checkDate_eq_ok {d : CivilDate} : checkDate d = .ok () ↔ InYears d.year ∧ IsDate d := by
  unfold checkDate
  constructor
  · intro h
    split at h
    · cases h
    · next hy =>
      split at h
      · cases h
      · split at h
        · cases h
        · exact ⟨Decidable.not_not.1 hy, by omega, by omega, by omega, by omega⟩
  · rintro ⟨hy, hd⟩
    have := hd.one_le_month
    have := hd.month_le
    have := hd.one_le_day
    have := hd.day_le
    rw [if_neg (not_not_intro hy), if_neg (by omega), if_neg (by omega)]

theorem checkTime_eq_ok {t : ClockTime} : checkTime t = .ok () ↔ IsTime t := by
  unfold checkTime
  constructor
  · intro h
    split at h
    · cases h
    · split at h
      · cases h
      · split at h
        · cases h
        · split at h
          · cases h
          · exact ⟨by omega, by omega, by omega, by omega⟩
  · rintro ⟨hh, hm, hs, hn⟩
    rw [if_neg (by omega), if_neg (by omega), if_neg (by omega), if_neg (by omega)]

/-! ## Years and months that begin in March -/

/-- The days from the start of an era to the start of one of its years. -/
def yearStart (year : Int) : Int := 365 * year + year / 4 - year / 100

/-- The days of a year that begins in March: its last month is the February of the next one. -/
def marchYearLength (year : Int) : Int := if isLeapYear (year + 1) then 366 else 365

/-- The days from the start of such a year to the start of one of its months, March being 0. -/
def monthStart (month : Int) : Int := (153 * month + 2) / 5

theorem isLeapYear_iff {year : Int} :
    isLeapYear year = true ↔ year % 4 = 0 ∧ year % 100 ≠ 0 ∨ year % 400 = 0 := by
  simp [isLeapYear]

/-- Leap years recur from era to era. -/
theorem isLeapYear_add_eras (year era : Int) :
    isLeapYear (year + era * 400) = isLeapYear year := by
  rw [Bool.eq_iff_iff, isLeapYear_iff, isLeapYear_iff]
  omega

theorem marchYearLength_add_eras (year era : Int) :
    marchYearLength (year + era * 400) = marchYearLength year := by
  unfold marchYearLength
  rw [show year + era * 400 + 1 = year + 1 + era * 400 by omega, isLeapYear_add_eras]

theorem marchYearLength_mem (year : Int) :
    marchYearLength year = 365 ∨
      marchYearLength year = 366 ∧
        ((year + 1) % 4 = 0 ∧ (year + 1) % 100 ≠ 0 ∨ (year + 1) % 400 = 0) := by
  unfold marchYearLength
  split
  · next h => exact .inr ⟨rfl, isLeapYear_iff.1 h⟩
  · exact .inl rfl

/-- A month other than February has the days up to the start of the next one. -/
theorem daysInMonth_eq_monthStart {year : Int} {month : Nat} (h1 : 1 ≤ month) (h12 : month ≤ 12)
    (h2 : month ≠ 2) {m : Int} (hm : m = if 2 < month then (month : Int) - 3 else month + 9) :
    (daysInMonth year month : Int) = monthStart (m + 1) - monthStart m := by
  subst hm
  have : month ∈ List.range' 1 12 := List.mem_range'_1.2 (by omega)
  simp only [List.range', List.mem_cons, List.not_mem_nil, or_false] at this
  rcases this with rfl | rfl | rfl | rfl | rfl | rfl | rfl | rfl | rfl | rfl | rfl | rfl <;>
    first | exact absurd rfl h2 | rfl

/-- February has the days that are left of the year. -/
theorem daysInMonth_february (year : Int) :
    (daysInMonth year 2 : Int) = marchYearLength (year - 1) - monthStart 11 := by
  unfold daysInMonth marchYearLength
  rw [show year - 1 + 1 = year by omega]
  cases isLeapYear year <;> rfl

theorem daysInMonth_le (year : Int) (month : Nat) : daysInMonth year month ≤ 31 := by
  have hlengths : ∀ days ∈ monthLengths, days ≤ 31 := by decide
  unfold daysInMonth
  split
  · decide
  · split
    · decide
    · rw [List.getD_eq_getElem?_getD]
      cases h : monthLengths[month - 1]? with
      | none => decide
      | some days => exact hlengths days (List.mem_of_getElem? h)

/-! ## Days in March coordinates -/

/-- A day given by an era, a year of the era, a month and a day of the month, counted from 0 each. -/
structure MarchDate where
  era : Int
  year : Int
  month : Int
  day : Int
  year_mem : 0 ≤ year ∧ year < 400
  month_mem : 0 ≤ month ∧ month < 12
  day_nonneg : 0 ≤ day
  day_lt_month : monthStart month + day < monthStart (month + 1)
  day_lt_year : monthStart month + day < marchYearLength year

namespace MarchDate

/-- The day of the year, from 0. -/
def dayOfYear (x : MarchDate) : Int := monthStart x.month + x.day

/-- The day of the era, from 0. -/
def dayOfEra (x : MarchDate) : Int := yearStart x.year + x.dayOfYear

/-- The number of the day, counted from 1970-01-01. -/
def dayNumber (x : MarchDate) : Int := x.era * daysPerEra + x.dayOfEra - epochDay

/-- The month as the calendar counts it. -/
def civilMonth (x : MarchDate) : Int := if x.month < 10 then x.month + 3 else x.month - 9

/-- The date as the calendar writes it. January and February belong to the next year there. -/
def civil (x : MarchDate) : CivilDate where
  year :=
    if x.civilMonth ≤ 2 then x.year + x.era * 400 + 1 else x.year + x.era * 400
  month := x.civilMonth.toNat
  day := (x.day + 1).toNat

theorem dayOfYear_nonneg (x : MarchDate) : 0 ≤ x.dayOfYear := by
  have := x.month_mem
  have := x.day_nonneg
  unfold dayOfYear monthStart
  omega

theorem dayOfYear_lt (x : MarchDate) : x.dayOfYear < marchYearLength x.year := x.day_lt_year

/-- The month is found again from the day of the year. -/
theorem month_of_dayOfYear (x : MarchDate) : (5 * x.dayOfYear + 2) / 153 = x.month := by
  have := x.day_nonneg
  have hlt := x.day_lt_month
  unfold dayOfYear
  unfold monthStart at hlt ⊢
  omega

end MarchDate

/-! ## The years of an era -/

/-- A year of an era as centuries, groups of four years, and years. -/
structure IsCentury (c q r : Int) : Prop where
  century : 0 ≤ c ∧ c ≤ 3
  group : 0 ≤ q ∧ q ≤ 24
  year : 0 ≤ r ∧ r ≤ 3

theorem exists_isCentury {year : Int} (h : 0 ≤ year ∧ year < 400) :
    ∃ c q r : Int, IsCentury c q r ∧ year = 100 * c + 4 * q + r :=
  ⟨year / 100, year % 100 / 4, year % 4, ⟨by omega, by omega, by omega⟩, by omega⟩

theorem IsCentury.yearStart {c q r : Int} (h : IsCentury c q r) :
    yearStart (100 * c + 4 * q + r) = 36524 * c + 1461 * q + 365 * r := by
  obtain ⟨hc, hq, hr⟩ := h
  have : (100 * c + 4 * q + r) / 4 = 25 * c + q := by omega
  have : (100 * c + 4 * q + r) / 100 = c := by omega
  unfold Calendar.yearStart
  omega

/-- The last year of four is long, but the last one of a century only at the end of the era. -/
theorem IsCentury.marchYearLength {c q r : Int} (h : IsCentury c q r) :
    marchYearLength (100 * c + 4 * q + r) = if r = 3 ∧ (q = 24 → c = 3) then 366 else 365 := by
  obtain ⟨hc, hq, hr⟩ := h
  have : isLeapYear (100 * c + 4 * q + r + 1) = true ↔ r = 3 ∧ (q = 24 → c = 3) := by
    rw [isLeapYear_iff]
    omega
  simp only [Calendar.marchYearLength, this]

/-- The centuries before a day of an era. The last day of the era would be one century too far. -/
theorem centuries_of_dayOfEra {c q r k : Int} (h : IsCentury c q r) (hk : 0 ≤ k ∧ k ≤ 365)
    (hlast : k = 365 → r = 3 ∧ (q = 24 → c = 3)) {n : Int}
    (hn : n = 36524 * c + 1461 * q + 365 * r + k) : n / 36524 - n / 146096 = c := by
  obtain ⟨hc, hq, hr⟩ := h
  by_cases h : n = 146096
  · omega
  · have : 36524 * c ≤ n := by omega
    have : n < 36524 * c + 36524 := by omega
    have : n / 146096 = 0 := by omega
    omega

/-- The year of the era is found again from the day of the era.

With the year as `100 c + 4 q + r` and `k` the day of the year, the day of the era is
`36524 c + 1461 q + 365 r + k`. Of the three quotients the last two count the centuries, and the
first one counts the leap days before the year, except that on the last days of a year it may count
one too many (`w`). -/
theorem year_of_dayOfEra {year k : Int} (hy : 0 ≤ year ∧ year < 400) (hk : 0 ≤ k)
    (hlt : k < marchYearLength year) {n : Int} (hn : n = yearStart year + k) :
    (n - n / 1460 + n / 36524 - n / 146096) / 365 = year := by
  obtain ⟨c, q, r, h, rfl⟩ := exists_isCentury hy
  rw [h.yearStart] at hn
  rw [h.marchYearLength] at hlt
  have hlast : k ≤ 365 ∧ (k = 365 → r = 3 ∧ (q = 24 → c = 3)) := by
    split at hlt
    · next h => exact ⟨by omega, fun _ => h⟩
    · exact ⟨by omega, by omega⟩
  have hcenturies := centuries_of_dayOfEra h ⟨hk, hlast.1⟩ hlast.2 hn
  obtain ⟨hc, hq, hr⟩ := h
  obtain ⟨w, hw⟩ : ∃ w, w = (24 * c + q + 365 * r + k) / 1460 := ⟨_, rfl⟩
  have hrest : 0 ≤ k - w ∧ k - w ≤ 364 := by
    have := hlast.2
    -- Every quotient in sight costs `omega` a case, so only what is needed stays.
    clear hcenturies hy hn
    omega
  have hleapDays : n / 1460 = 25 * c + q + w := by
    clear hcenturies hrest hlast
    omega
  have hsum : n - n / 1460 + n / 36524 - n / 146096 =
      365 * (100 * c + 4 * q + r) + (k - w) := by
    rw [Int.add_sub_assoc, hcenturies, hleapDays, hn]
    clear hcenturies hleapDays hrest hlast hw hn hlt
    omega
  rw [hsum, Int.add_comm, Int.add_mul_ediv_left _ _ (by decide), Int.ediv_eq_zero_of_lt hrest.1,
    Int.zero_add]
  exact Int.lt_add_one_of_le hrest.2

/-- Every day of an era is a day of one of its years. -/
theorem exists_year_of_dayOfEra {n : Int} (h : 0 ≤ n ∧ n < daysPerEra) :
    ∃ year k : Int, (0 ≤ year ∧ year < 400) ∧ 0 ≤ k ∧ k < marchYearLength year ∧
      n = yearStart year + k := by
  unfold daysPerEra at h
  -- The last century and the last year of a group have one day more than the quotient allows.
  obtain ⟨c, hc⟩ : ∃ c, c = min 3 (n / 36524) := ⟨_, rfl⟩
  have hcentury : 0 ≤ n - 36524 * c ∧ (n - 36524 * c ≤ 36523 ∨ c = 3 ∧ n - 36524 * c = 36524) := by
    omega
  obtain ⟨q, hq⟩ : ∃ q, q = (n - 36524 * c) / 1461 := ⟨_, rfl⟩
  have hgroup : 0 ≤ q ∧ q ≤ 24 := by omega
  have hday : 0 ≤ n - 36524 * c - 1461 * q ∧ n - 36524 * c - 1461 * q ≤ 1460 := by omega
  obtain ⟨r, hr⟩ : ∃ r, r = min 3 ((n - 36524 * c - 1461 * q) / 365) := ⟨_, rfl⟩
  have hdec : IsCentury c q r := ⟨by omega, hgroup, by omega⟩
  refine ⟨100 * c + 4 * q + r, n - yearStart (100 * c + 4 * q + r), by omega, ?_, ?_, by omega⟩
  · rw [hdec.yearStart]
    omega
  · rw [hdec.yearStart, hdec.marchYearLength]
    split <;> omega

/-! ## The two functions in March coordinates -/

namespace MarchDate

theorem dayOfEra_mem (x : MarchDate) : 0 ≤ x.dayOfEra ∧ x.dayOfEra < daysPerEra := by
  obtain ⟨c, q, r, h, hyear⟩ := exists_isCentury x.year_mem
  have hnonneg := x.dayOfYear_nonneg
  have hlt := x.dayOfYear_lt
  unfold dayOfEra daysPerEra
  rw [hyear, h.marchYearLength] at hlt
  rw [hyear, h.yearStart]
  obtain ⟨hc, hq, hr⟩ := h
  split at hlt <;> omega

theorem era_of_dayNumber (x : MarchDate) : (x.dayNumber + epochDay) / daysPerEra = x.era := by
  have := x.dayOfEra_mem
  unfold dayNumber
  unfold daysPerEra at *
  omega

theorem dayOfEra_of_dayNumber (x : MarchDate) :
    x.dayNumber + epochDay - x.era * daysPerEra = x.dayOfEra := by
  unfold dayNumber
  omega

/-- `dateOfDay` finds the four coordinates of a day again. -/
theorem dateOfDay_dayNumber (x : MarchDate) : dateOfDay x.dayNumber = x.civil := by
  have hyear : (x.dayOfEra - x.dayOfEra / 1460 + x.dayOfEra / 36524 - x.dayOfEra / 146096) / 365 =
      x.year :=
    year_of_dayOfEra x.year_mem x.dayOfYear_nonneg x.dayOfYear_lt rfl
  have hdayOfYear : x.dayOfEra - (365 * x.year + x.year / 4 - x.year / 100) = x.dayOfYear := by
    unfold dayOfEra yearStart
    omega
  have hday : x.dayOfYear - (153 * x.month + 2) / 5 + 1 = x.day + 1 := by
    unfold dayOfYear monthStart
    omega
  simp only [dateOfDay, era_of_dayNumber, dayOfEra_of_dayNumber, hyear, hdayOfYear,
    month_of_dayOfYear, hday]
  rfl

theorem civilMonth_mem (x : MarchDate) : 1 ≤ x.civilMonth ∧ x.civilMonth ≤ 12 := by
  have := x.month_mem
  unfold civilMonth
  split <;> omega

theorem natCast_civil_month (x : MarchDate) : (x.civil.month : Int) = x.civilMonth := by
  have := x.civilMonth_mem
  exact Int.toNat_of_nonneg (by omega)

theorem natCast_civil_day (x : MarchDate) : (x.civil.day : Int) = x.day + 1 := by
  have := x.day_nonneg
  exact Int.toNat_of_nonneg (by omega)

/-- The year of the era, from the year that the calendar writes. -/
theorem civil_year (x : MarchDate) :
    (if x.civil.month ≤ 2 then x.civil.year - 1 else x.civil.year) = x.year + x.era * 400 := by
  have hmonth : x.civil.month ≤ 2 ↔ x.civilMonth ≤ 2 := by
    have := x.natCast_civil_month
    omega
  by_cases h : x.civilMonth ≤ 2
  · rw [if_pos (hmonth.2 h)]
    simp only [civil, if_pos h]
    omega
  · rw [if_neg (fun h' => h (hmonth.1 h'))]
    simp only [civil, if_neg h]

/-- The month from March on, from the month that the calendar writes. -/
theorem month_of_civil (x : MarchDate) :
    (if 2 < x.civil.month then (x.civil.month : Int) - 3 else x.civil.month + 9) = x.month := by
  have := x.month_mem
  have hmonth := x.natCast_civil_month
  unfold civilMonth at hmonth
  split at hmonth <;> split <;> omega

/-- `daysOfCivil` counts the day that it is. -/
theorem daysOfCivil_civil (x : MarchDate) : daysOfCivil x.civil = x.dayNumber := by
  have := x.year_mem
  have hera : (x.year + x.era * 400) / 400 = x.era := by omega
  have hyear : x.year + x.era * 400 - x.era * 400 = x.year := by omega
  simp only [daysOfCivil, civil_year, month_of_civil, natCast_civil_day, hera, hyear]
  unfold dayNumber dayOfEra dayOfYear yearStart monthStart
  omega

theorem isDate_civil (x : MarchDate) : IsDate x.civil := by
  have hmem := x.civilMonth_mem
  have hmonth := x.natCast_civil_month
  have hday := x.natCast_civil_day
  have hnonneg := x.day_nonneg
  have hlt := x.day_lt_month
  refine ⟨by omega, by omega, by omega, ?_⟩
  have hlength : (x.civil.day : Int) ≤ daysInMonth x.civil.year x.civil.month := by
    by_cases h2 : x.civil.month = 2
    · have hx : x.month = 11 := by
        have := x.month_of_civil
        rw [h2] at this
        exact this.symm
      have hyear : x.civil.year - 1 = x.year + x.era * 400 := by
        have := x.civil_year
        rwa [h2, if_pos (by decide)] at this
      have hlt := x.day_lt_year
      rw [h2, daysInMonth_february, hyear, marchYearLength_add_eras]
      rw [hx] at hlt
      omega
    · rw [daysInMonth_eq_monthStart (by omega) (by omega) h2 x.month_of_civil.symm]
      omega
  exact Int.ofNat_le.1 hlength

end MarchDate

/-- Every day has coordinates. -/
theorem exists_dayNumber (n : Int) : ∃ x : MarchDate, x.dayNumber = n := by
  obtain ⟨era, hera⟩ : ∃ era, era = (n + epochDay) / daysPerEra := ⟨_, rfl⟩
  have hmem : 0 ≤ n + epochDay - era * daysPerEra ∧
      n + epochDay - era * daysPerEra < daysPerEra := by
    unfold daysPerEra at *
    omega
  obtain ⟨year, k, hyear, hk, hlt, hsum⟩ := exists_year_of_dayOfEra hmem
  have hk365 : k ≤ 365 := by
    rcases marchYearLength_mem year with h | ⟨h, _⟩ <;> omega
  obtain ⟨month, hmonth⟩ : ∃ month, month = (5 * k + 2) / 153 := ⟨_, rfl⟩
  have hstart : monthStart month ≤ k ∧ k < monthStart (month + 1) := by
    unfold monthStart
    omega
  refine ⟨⟨era, year, month, k - monthStart month, hyear, by omega, by omega, by omega, by omega⟩, ?_⟩
  simp only [MarchDate.dayNumber, MarchDate.dayOfEra, MarchDate.dayOfYear]
  omega

/-- Every date of the calendar has coordinates. -/
theorem exists_civil {d : CivilDate} (h : IsDate d) : ∃ x : MarchDate, x.civil = d := by
  obtain ⟨h1, h12, hday, hle⟩ := h
  obtain ⟨y, hy⟩ : ∃ y, y = if d.month ≤ 2 then d.year - 1 else d.year := ⟨_, rfl⟩
  obtain ⟨m, hm⟩ : ∃ m, m = if 2 < d.month then (d.month : Int) - 3 else d.month + 9 := ⟨_, rfl⟩
  have hm12 : 0 ≤ m ∧ m < 12 := by split at hm <;> omega
  have hlt : monthStart m + (d.day - 1) < monthStart (m + 1) ∧
      monthStart m + (d.day - 1) < marchYearLength (y - y / 400 * 400) := by
    have hlength := marchYearLength_add_eras (y - y / 400 * 400) (y / 400)
    rw [show y - y / 400 * 400 + y / 400 * 400 = y by omega] at hlength
    rw [← hlength]
    by_cases h2 : d.month = 2
    · -- February is the last month, and takes what is left of the year.
      have hfeb := daysInMonth_february d.year
      rw [← h2] at hfeb
      have hm : m = 11 := by rw [hm, h2]; rfl
      have hy : y = d.year - 1 := by rw [hy, h2]; rfl
      rw [hm, hy]
      rcases marchYearLength_mem (d.year - 1) with h | ⟨h, _⟩ <;>
        simp only [monthStart] at hfeb ⊢ <;> omega
    · have hlength : (daysInMonth d.year d.month : Int) = monthStart (m + 1) - monthStart m :=
        daysInMonth_eq_monthStart h1 h12 h2 hm
      -- Months before February end a good while before the year does.
      have hend : monthStart (m + 1) ≤ 337 := by
        unfold monthStart
        split at hm <;> omega
      rcases marchYearLength_mem y with h | ⟨h, _⟩ <;> omega
  refine ⟨⟨y / 400, y - y / 400 * 400, m, d.day - 1, by omega, hm12, by omega, hlt.1, hlt.2⟩, ?_⟩
  have hmonth : (if m < 10 then m + 3 else m - 9) = d.month := by
    split at hm <;> split <;> omega
  obtain ⟨year, month, day⟩ := d
  simp only [MarchDate.civil, MarchDate.civilMonth, hmonth, CivilDate.mk.injEq]
  refine ⟨?_, by omega, by omega⟩
  simp only at hy
  split at hy <;> split <;> omega

/-! ## The two functions are inverse -/

/-- What `dateOfDay` gives is a date of the calendar. -/
theorem isDate_dateOfDay (n : Int) : IsDate (dateOfDay n) := by
  obtain ⟨x, rfl⟩ := exists_dayNumber n
  rw [x.dateOfDay_dayNumber]
  exact x.isDate_civil

theorem daysOfCivil_dateOfDay (n : Int) : daysOfCivil (dateOfDay n) = n := by
  obtain ⟨x, rfl⟩ := exists_dayNumber n
  rw [x.dateOfDay_dayNumber, x.daysOfCivil_civil]

theorem dateOfDay_daysOfCivil {d : CivilDate} (h : IsDate d) : dateOfDay (daysOfCivil d) = d := by
  obtain ⟨x, rfl⟩ := exists_civil h
  rw [x.daysOfCivil_civil, x.dateOfDay_dayNumber]

end Reckoner.Calendar
