import Mathlib
import Reckoner.Proofs.Moment.Range
import Reckoner.Proofs.Number.Negation

/-!
# Durations and differences

A duration that does not count calendar months is applied to the nanosecond. Taking it off again
gives the moment that it was added to: a duration and its negative are rounded alike, and a moment
that is supported is within every bound on the way back. The difference of the two moments is the
duration rounded to nanoseconds, and adding a difference gives the moment that it was taken from.
-/

namespace Reckoner

open Number

namespace Quantity

variable {q : Quantity}

/-- A whole number of calendar units counts months. -/
def CountsMonths (q : Quantity) : Prop := q.unit.isCalendar ∧ q.value.isInteger

theorem countsMonths_neg : q.neg.CountsMonths ↔ q.CountsMonths := by
  unfold CountsMonths neg
  rw [isInteger_neg]

/-- Without an offset the value of the negative is the negative of the value. -/
theorem coherentValue_neg (h : q.unit.offset.isZero) :
    q.neg.coherentValue = q.coherentValue.neg := by
  show (q.value.neg.mul q.unit.factor).add q.unit.offset = _
  rw [Number.neg_mul, neg_add_of_isZero _ h]
  rfl

end Quantity

namespace Moment

variable {a b e m m' : Moment} {q : Quantity} {x : Number} {r : Rat} {n : Int}

theorem cast_nanosPerSecond : ((nanosPerSecond : Int) : Rat) = 10 ^ 9 := by
  norm_num [nanosPerSecond]

/-- The whole nanoseconds that are nearest to a number of seconds. -/
def nearestNanos (r : Rat) : Int := roundRat (r * nanosPerSecond)

theorem nearestNanos_neg (r : Rat) : nearestNanos (-r) = -nearestNanos r := by
  rw [nearestNanos, Rat.neg_mul, roundRat_neg]
  rfl

theorem abs_nearestNanos_sub_le (r : Rat) :
    |(nearestNanos r : Rat) / nanosPerSecond - r| ≤ 1 / (2 * 10 ^ 9) := by
  have hclose := abs_roundRat_sub_le (r * nanosPerSecond)
  have hpos : (0 : Rat) < 10 ^ 9 := by norm_num
  have hscale : (nearestNanos r : Rat) / nanosPerSecond - r =
      (roundRat (r * nanosPerSecond) - r * nanosPerSecond) / nanosPerSecond := by
    rw [nearestNanos, cast_nanosPerSecond]
    ring
  rw [cast_nanosPerSecond] at hclose hscale ⊢
  rw [hscale, abs_div, abs_of_pos hpos]
  linarith

/-- A whole number of nanoseconds is not rounded. -/
theorem nearestNanos_div (n : Int) : nearestNanos ((n : Rat) / nanosPerSecond) = n := by
  rw [nearestNanos, cast_nanosPerSecond, div_mul_cancel₀ _ (by norm_num), roundRat_intCast]

/-! ## Shifts by nanoseconds and by seconds -/

/-- Two supported moments are not farther apart than 128 bits can tell. -/
theorem fitsSigned_sub (ha : a.IsSupported) (hb : b.IsSupported) :
    FitsSigned 128 (a.nanos - b.nanos) := by
  have hleft := ha.natAbs_nanos_le
  have hright := hb.natAbs_nanos_le
  exact fitsSigned_of_natAbs_le (by omega)

/-- A shift that succeeds leads from one supported moment to another. -/
theorem isSupported_of_addNanos (ha : a.IsSupported) (h : a.addNanos n = .ok e) :
    e.IsSupported ∧ e.offset = a.offset ∧ e.nanos - a.nanos = n := by
  obtain ⟨rfl, he⟩ := (addNanos_eq_ok_iff ha.offset).1 h
  exact ⟨he, rfl, by simp only; omega⟩

/-- A moment is reached from every moment of its offset by the nanoseconds between them. -/
theorem addNanos_sub (ha : a.IsSupported) (hoffset : a.offset = b.offset) :
    b.addNanos (a.nanos - b.nanos) = .ok a := by
  have hshifted : (⟨b.nanos + (a.nanos - b.nanos), b.offset⟩ : Moment) = a := by
    rw [← hoffset, show b.nanos + (a.nanos - b.nanos) = a.nanos by omega]
  rw [addNanos_eq_ok (by rwa [hshifted]), hshifted]

theorem addSeconds_eq_ok_iff :
    m.addSeconds x = .ok m' ↔ ∃ r, x.toRat? = some r ∧ FitsSigned 128 (nearestNanos r) ∧
      m.addNanos (nearestNanos r) = .ok m' := by
  unfold addSeconds
  constructor
  · intro h
    split at h
    · cases h
    · next r hr =>
      simp only at h
      split at h
      · next hfits => exact ⟨r, hr, hfits, h⟩
      · cases h
  · rintro ⟨r, hr, hfits, h⟩
    rw [hr]
    exact (if_pos hfits).trans h

/-! ## Shifts by quantities -/

/-- A duration that does not count months is applied in seconds. -/
theorem addQuantity_eq_ok_iff (hq : ¬ q.CountsMonths) :
    m.addQuantity q = .ok m' ↔
      (q.dimension = .time ∧ q.unit.adHoc.isEmpty) ∧ m.addSeconds q.coherentValue = .ok m' := by
  have hother : (q.dimension ≠ .time ∨ ¬ q.unit.adHoc.isEmpty) ↔
      ¬ (q.dimension = .time ∧ q.unit.adHoc.isEmpty) := not_and_or.symm
  unfold addQuantity
  simp only [hother]
  by_cases h : q.dimension = .time ∧ q.unit.adHoc.isEmpty
  · rw [if_neg (not_not_intro h), and_iff_right h]
    -- With and without months of its own the unit is applied in seconds.
    cases hmonths : q.unit.calendarMonths with
    | none => rfl
    | some k =>
      have hcalendar : q.unit.isCalendar := by rw [MeasureUnit.isCalendar, hmonths]; rfl
      have hinteger : ¬ q.value.isInteger := fun hinteger => hq ⟨hcalendar, hinteger⟩
      simp only [if_neg hinteger]
  · rw [if_pos h]
    constructor
    · intro herror
      cases herror
    · rintro ⟨htime, -⟩
      exact absurd htime h

theorem coherentValue_difference (a b : Moment) :
    (a.difference b).coherentValue =
      .exact (((a.nanos - b.nanos : Int) : Rat) / nanosPerSecond) := by
  show (exact (Rat.divInt _ _ * 1)).add (ofInt 0) = _
  rw [exact_add_zero, mul_one, Rat.divInt_eq_div]

/-- A difference is a duration that leads back. -/
theorem addQuantity_difference (ha : a.IsSupported) (hb : b.IsSupported)
    (hoffset : a.offset = b.offset) : b.addQuantity (a.difference b) = .ok a := by
  have hq : ¬ (a.difference b).CountsMonths := by
    rintro ⟨hcalendar, -⟩
    cases hcalendar
  rw [addQuantity_eq_ok_iff hq, coherentValue_difference]
  refine ⟨⟨rfl, rfl⟩, addSeconds_eq_ok_iff.2 ⟨_, rfl, ?_, ?_⟩⟩
  · rw [nearestNanos_div]
    exact fitsSigned_sub ha hb
  · rw [nearestNanos_div]
    exact addNanos_sub ha hoffset

/-- Seconds are taken off again by their negative. -/
theorem addSeconds_neg (ha : a.IsSupported) (h : a.addSeconds x = .ok e) :
    e.addSeconds x.neg = .ok a := by
  obtain ⟨r, hr, -, hshift⟩ := addSeconds_eq_ok_iff.1 h
  obtain ⟨he, hoffset, hnanos⟩ := isSupported_of_addNanos ha hshift
  -- The rounded way back is the rounded way there, and ends at a moment that is supported.
  have hback : nearestNanos (-r) = a.nanos - e.nanos := by
    rw [nearestNanos_neg, ← hnanos, Int.neg_sub]
  refine addSeconds_eq_ok_iff.2 ⟨-r, by rw [toRat?_neg, hr]; rfl, ?_, ?_⟩
  · rw [hback]
    exact fitsSigned_sub ha he
  · rw [hback]
    exact addNanos_sub ha hoffset.symm

theorem subQuantity_of_addQuantity (ha : a.IsSupported) (hoffset : q.unit.offset.isZero)
    (hq : ¬ q.CountsMonths) (h : a.addQuantity q = .ok e) : e.subQuantity q = .ok a := by
  have hneg : ¬ q.neg.CountsMonths := fun hmonths => hq (Quantity.countsMonths_neg.1 hmonths)
  obtain ⟨htime, hseconds⟩ := (addQuantity_eq_ok_iff hq).1 h
  rw [subQuantity, addQuantity_eq_ok_iff hneg, Quantity.coherentValue_neg hoffset]
  exact ⟨htime, addSeconds_neg ha hseconds⟩

/-- The difference to the moment before a shift is the duration in whole nanoseconds. -/
theorem difference_of_addQuantity (ha : a.IsSupported) (hq : ¬ q.CountsMonths)
    (h : a.addQuantity q = .ok e) :
    (e.difference a).coherentValue.value =
      (nearestNanos q.coherentValue.value : Rat) / nanosPerSecond := by
  obtain ⟨-, hseconds⟩ := (addQuantity_eq_ok_iff hq).1 h
  obtain ⟨r, hr, -, hshift⟩ := addSeconds_eq_ok_iff.1 hseconds
  obtain ⟨-, -, hnanos⟩ := isSupported_of_addNanos ha hshift
  rw [coherentValue_difference, hnanos, value_of_toRat? hr]
  rfl

/-- **Durations and differences are inverse.** Adding the difference of two supported moments of one
offset gives the first of them. A duration that is added without counting months can be taken off
again, and the difference of the two moments is the duration in seconds, up to half a nanosecond
and exactly for a whole number of nanoseconds. -/
theorem durations_and_differences :
    (∀ a b : Moment, a.IsSupported → b.IsSupported → a.offset = b.offset →
      b.addQuantity (a.difference b) = .ok a) ∧
    (∀ (a e : Moment) (q : Quantity), a.IsSupported → q.unit.offset.isZero → ¬ q.CountsMonths →
      a.addQuantity q = .ok e →
        e.subQuantity q = .ok a ∧
        |(e.difference a).coherentValue.value - q.coherentValue.value| ≤ 1 / (2 * 10 ^ 9) ∧
        ((∃ n : Int, q.coherentValue.value * 10 ^ 9 = n) →
          (e.difference a).coherentValue.value = q.coherentValue.value)) := by
  refine ⟨fun a b => addQuantity_difference, fun a e q ha hoffset hq h => ?_⟩
  have hdifference := difference_of_addQuantity ha hq h
  refine ⟨subQuantity_of_addQuantity ha hoffset hq h, ?_, ?_⟩
  · rw [hdifference]
    exact abs_nearestNanos_sub_le _
  · rintro ⟨n, hn⟩
    have hwhole : q.coherentValue.value = (n : Rat) / nanosPerSecond := by
      rw [← hn, cast_nanosPerSecond, mul_div_cancel_right₀ _ (by norm_num)]
    rw [hdifference, hwhole, nearestNanos_div]

/-- Two and a half nanoseconds after 1970 began, rounded to three, and an hour and a half before it
in another offset. -/
theorem durations_and_differences_of_half_units :
    (⟨0, none⟩ : Moment).IsSupported ∧ (⟨3, none⟩ : Moment).IsSupported ∧
    (⟨0, none⟩ : Moment).addQuantity ⟨ofRatio 5 2000000000, secondUnit⟩ = .ok ⟨3, none⟩ ∧
    (⟨3, none⟩ : Moment).subQuantity ⟨ofRatio 5 2000000000, secondUnit⟩ = .ok ⟨0, none⟩ ∧
    (⟨0, none⟩ : Moment).addQuantity ((⟨3, none⟩ : Moment).difference ⟨0, none⟩) =
      .ok ⟨3, none⟩ ∧
    (⟨0, some (-3600)⟩ : Moment).addQuantity
        ⟨ofRatio (-3) 2, .new "h" "hour" .time (ofInt 3600) "time"⟩ =
      .ok ⟨-5400000000000, some (-3600)⟩ ∧
    ((⟨-5400000000000, some (-3600)⟩ : Moment).difference ⟨0, some (-3600)⟩).coherentValue.value =
      -5400 := by
  obtain ⟨hleads, hshifts⟩ := durations_and_differences
  have hstart : (⟨0, none⟩ : Moment).IsSupported := ⟨by decide, fun s hs => nomatch hs⟩
  have hend : (⟨3, none⟩ : Moment).IsSupported := ⟨by decide, fun s hs => nomatch hs⟩
  have hahead : (⟨0, some (-3600)⟩ : Moment).IsSupported := by
    refine ⟨by decide, fun s hs => ?_⟩
    cases hs
    decide
  have htie : (⟨0, none⟩ : Moment).addQuantity ⟨ofRatio 5 2000000000, secondUnit⟩ =
      .ok ⟨3, none⟩ := by cbv
  have hwhole : (⟨0, some (-3600)⟩ : Moment).addQuantity
      ⟨ofRatio (-3) 2, .new "h" "hour" .time (ofInt 3600) "time"⟩ =
      .ok ⟨-5400000000000, some (-3600)⟩ := by cbv
  have hback := (hshifts _ _ _ hstart rfl (fun h => by cases h.1) htie).1
  have hexact := (hshifts _ _ _ hahead rfl (fun h => by cases h.1) hwhole).2.2
    ⟨-5400000000000, by cbv⟩
  refine ⟨hstart, hend, htie, hback, hleads _ _ hend hstart rfl, hwhole, hexact.trans ?_⟩
  cbv

end Moment

end Reckoner
