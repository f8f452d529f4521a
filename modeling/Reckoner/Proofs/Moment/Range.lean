import Reckoner.Moment.Shift
import Reckoner.Proofs.Moment.Fields

/-!
# The range of moments

A moment is supported if its local date is of a supported year and its offset is a 32-bit number of
seconds. Shifting a moment by nanoseconds succeeds exactly where the result is supported
(`Moment.addNanos_eq_ok_iff`). The bound on nanoseconds that is tested on the way refuses nothing
more: the supported years end 38000 days before it, and an offset moves a moment by less than 25000
days.
-/

namespace Reckoner

/-- The years of the days around the supported ones. -/
theorem Calendar.year_dateOfDay_mem {n : Int} (h : -366100000 ≤ n ∧ n ≤ 366100000) :
    -1005000 ≤ (dateOfDay n).year ∧ (dateOfDay n).year ≤ 1005000 := by
  obtain ⟨x, rfl⟩ := exists_dayNumber n
  have hyear := x.civil_year
  have hmem := x.dayOfEra_mem
  have hrange := x.year_mem
  rw [x.dateOfDay_dayNumber]
  unfold MarchDate.dayNumber at h
  unfold daysPerEra epochDay at *
  split at hyear <;> omega

namespace Moment

open Calendar

variable {m m' : Moment} {n : Int}

/-- The offset is a 32-bit number of seconds. -/
def HasWordOffset (m : Moment) : Prop := ∀ s ∈ m.offset, FitsSigned 32 s

/-- A moment of the supported years. -/
structure IsSupported (m : Moment) : Prop where
  inYears : InYears m.localDate.year
  offset : m.HasWordOffset

/-- An offset moves a moment by less than 25000 days. -/
theorem offsetNanos_mem (h : m.HasWordOffset) :
    -(25000 * nanosPerDay) ≤ offsetNanos m.offset ∧
      offsetNanos m.offset ≤ 25000 * nanosPerDay := by
  simp only [offsetNanos, nanosPerDay, nanosPerHour, nanosPerMinute, nanosPerSecond]
  cases hoffset : m.offset with
  | none => decide
  | some s =>
    have hs := h s hoffset
    rw [Option.getD_some]
    omega

theorem localDay_mem (h : InYears m.localDate.year) :
    -365970000 ≤ m.localDay ∧ m.localDay ≤ 365970000 := by
  rw [localDay_eq]
  exact daysOfCivil_mem m.isDate_localDate h

/-- The supported moments stay within the bound on nanoseconds. -/
theorem IsSupported.natAbs_nanos_le (h : m.IsSupported) : m.nanos.natAbs ≤ maxNanos := by
  have hday := localDay_mem h.inYears
  have hoffset := offsetNanos_mem h.offset
  have htime : 0 ≤ m.nanosOfDay ∧ m.nanosOfDay < nanosPerDay := by
    simp only [nanosOfDay, nanosPerDay, nanosPerHour, nanosPerMinute, nanosPerSecond]
    omega
  have hlocal := m.localNanos_eq
  rw [nanos_time] at hlocal
  unfold localNanos at hlocal
  simp only [maxNanos, maxYear, nanosPerDay, nanosPerHour, nanosPerMinute, nanosPerSecond] at *
  omega

theorem localDay_mem_of_natAbs_nanos_le (hoffset : m.HasWordOffset)
    (h : m.nanos.natAbs ≤ maxNanos) : -366100000 ≤ m.localDay ∧ m.localDay ≤ 366100000 := by
  have hoffset := offsetNanos_mem hoffset
  simp only [localDay, localNanos, maxNanos, maxYear, nanosPerDay, nanosPerHour, nanosPerMinute,
    nanosPerSecond] at *
  omega

/-- The bound on nanoseconds is far within the range of the machine integers that dates are
computed with. -/
theorem date_eq_of_natAbs_nanos_le (hoffset : m.HasWordOffset) (h : m.nanos.natAbs ≤ maxNanos) :
    m.date = m.localDate := by
  have hday := localDay_mem_of_natAbs_nanos_le hoffset h
  have hyear := year_dateOfDay_mem hday
  have hwide : narrow 64 m.localDay = m.localDay := narrow_of_fitsSigned (by decide) (by omega)
  have hnarrow : narrow 32 m.localDate.year = m.localDate.year :=
    narrow_of_fitsSigned (by decide) (by rw [localDate]; omega)
  unfold date
  rw [hwide, civilOfDays]
  exact congrArg (fun y => { m.localDate with year := y }) hnarrow

/-- A moment within the bound is supported if the year that it shows is. -/
theorem isSupported_iff (h : m.HasWordOffset) :
    m.IsSupported ↔ m.nanos.natAbs ≤ maxNanos ∧ InYears m.year := by
  constructor
  · intro hm
    have hbound := hm.natAbs_nanos_le
    refine ⟨hbound, ?_⟩
    rw [year, date_eq_of_natAbs_nanos_le h hbound]
    exact hm.inYears
  · rintro ⟨hbound, hyear⟩
    rw [year, date_eq_of_natAbs_nanos_le h hbound] at hyear
    exact ⟨hyear, h⟩

/-- The bound on nanoseconds leaves room in 128 bits. -/
theorem fitsSigned_of_natAbs_le (h : n.natAbs ≤ 2 * maxNanos) : FitsSigned 128 n := by
  simp only [maxNanos, maxYear, nanosPerDay, nanosPerHour, nanosPerMinute, nanosPerSecond] at h
  omega

/-- Of the three tests of a shift, the one for 128 bits never decides. -/
theorem addNanos_eq (m : Moment) (n : Int) :
    m.addNanos n =
      if (m.nanos + n).natAbs ≤ maxNanos ∧ InYears (⟨m.nanos + n, m.offset⟩ : Moment).year then
        .ok ⟨m.nanos + n, m.offset⟩
      else .error .outOfRange := by
  unfold addNanos
  simp only
  by_cases hbound : ((m.nanos + n).natAbs : Int) ≤ maxNanos
  · have hfits : FitsSigned 128 (m.nanos + n) := fitsSigned_of_natAbs_le (by omega)
    rw [if_neg (not_not_intro hfits), if_neg (Int.not_lt.2 hbound)]
    simp only [hbound, true_and]
  · rw [if_neg (fun h : _ ∧ _ => hbound h.1), if_pos (Int.not_le.1 hbound), ite_self]

theorem addNanos_eq_ok (h : (⟨m.nanos + n, m.offset⟩ : Moment).IsSupported) :
    m.addNanos n = .ok ⟨m.nanos + n, m.offset⟩ := by
  rw [addNanos_eq]
  exact if_pos ((isSupported_iff h.offset).1 h)

theorem addNanos_eq_error (hoffset : m.HasWordOffset)
    (h : ¬ (⟨m.nanos + n, m.offset⟩ : Moment).IsSupported) :
    m.addNanos n = .error .outOfRange := by
  have hshifted : (⟨m.nanos + n, m.offset⟩ : Moment).HasWordOffset := hoffset
  rw [addNanos_eq]
  exact if_neg fun hbounds => h ((isSupported_iff hshifted).2 hbounds)

/-- A shift by nanoseconds succeeds exactly where the result is supported. -/
theorem addNanos_eq_ok_iff (hoffset : m.HasWordOffset) :
    m.addNanos n = .ok m' ↔ m' = ⟨m.nanos + n, m.offset⟩ ∧ m'.IsSupported := by
  constructor
  · intro hok
    by_cases hsupported : (⟨m.nanos + n, m.offset⟩ : Moment).IsSupported
    · rw [addNanos_eq_ok hsupported] at hok
      cases hok
      exact ⟨rfl, hsupported⟩
    · rw [addNanos_eq_error hoffset hsupported] at hok
      cases hok
  · rintro ⟨rfl, hsupported⟩
    exact addNanos_eq_ok hsupported

end Moment

end Reckoner
