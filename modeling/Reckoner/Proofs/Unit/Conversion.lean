import Reckoner.Proofs.Unit.ReadBack

/-!
# Conversion

A value is converted by way of the coherent one, which is affine in it: `x * f + o`. No unit that is
read from a text has the factor 0, so that between compatible ones every value has a conversion
(`exists_convert`). Where the scales are exact, the result is the value in the target unit that
stands for the same coherent value and the only one (`AffineScale.convert_eq_ok_iff`). Nothing else
of the source is left in it, so that conversions can be taken back and do not depend on the way
(`convert_between_parsed`).
-/

namespace Reckoner.MeasureUnit

variable {u v w : MeasureUnit} {x y : Number} {f g o c r : Rat}

/-! ## Compatible units -/

theorem isCompatible_iff : u.isCompatible v ↔ u.dimension = v.dimension ∧ u.adHoc = v.adHoc := by
  rw [isCompatible, Bool.and_eq_true, beq_iff_eq, beq_iff_eq]

theorem isCompatible_refl (u : MeasureUnit) : u.isCompatible u := isCompatible_iff.2 ⟨rfl, rfl⟩

theorem isCompatible_symm (h : u.isCompatible v) : v.isCompatible u := by
  obtain ⟨hdimension, hthings⟩ := isCompatible_iff.1 h
  exact isCompatible_iff.2 ⟨hdimension.symm, hthings.symm⟩

theorem isCompatible_trans (huv : u.isCompatible v) (hvw : v.isCompatible w) :
    u.isCompatible w := by
  obtain ⟨hdimension, hthings⟩ := isCompatible_iff.1 huv
  obtain ⟨hdimension', hthings'⟩ := isCompatible_iff.1 hvw
  exact isCompatible_iff.2 ⟨hdimension.trans hdimension', hthings.trans hthings'⟩

theorem convert_of_isCompatible (h : u.isCompatible v) (x : Number) :
    u.convert v x = liftNumber (v.ofCoherent (u.toCoherent x)) := by
  rw [convert, ensureCompatible, if_pos h]
  rfl

/-- The only other failure of a conversion is a division by the factor of the target. -/
theorem exists_convert (h : u.isCompatible v) (hv : v.factor.isZero = false) (x : Number) :
    ∃ y, u.convert v x = .ok y := by
  rw [convert_of_isCompatible h, ofCoherent, Number.div, hv]
  exact ⟨_, rfl⟩

/-! ## Exact scales -/

/-- Factor and offset are exact. -/
structure ExactScale (u : MeasureUnit) : Prop where
  factor : u.factor.isExact
  offset : u.offset.isExact

/-- The coherent value of `x` is `x * f + o`. -/
structure AffineScale (u : MeasureUnit) (f o : Rat) : Prop where
  factor : u.factor = .exact f
  ne_zero : f ≠ 0
  offset : u.offset = .exact o

theorem ExactScale.affine (h : u.ExactScale) (hzero : u.factor.isZero = false) :
    ∃ f o, u.AffineScale f o := by
  obtain ⟨f, hf⟩ := Number.isExact_iff.1 h.factor
  obtain ⟨o, ho⟩ := Number.isExact_iff.1 h.offset
  rw [hf] at hzero
  exact ⟨f, o, hf, of_decide_eq_false hzero, ho⟩

namespace AffineScale

theorem toCoherent (hu : u.AffineScale f o) (r : Rat) :
    u.toCoherent (.exact r) = .exact (r * f + o) := by
  rw [MeasureUnit.toCoherent, hu.factor, hu.offset, Number.exact_mul, Number.exact_add]

theorem ofCoherent (hu : u.AffineScale f o) (r : Rat) :
    u.ofCoherent (.exact r) = .ok (.exact ((r - o) / f)) := by
  rw [MeasureUnit.ofCoherent, hu.factor, hu.offset, Number.exact_sub, Number.exact_div _ hu.ne_zero]

/-- A coherent value is that of one value only. -/
theorem ofCoherent_eq_ok_iff (hu : u.AffineScale f o) :
    u.ofCoherent (.exact r) = .ok y ↔ y.isExact ∧ u.toCoherent y = .exact r := by
  rw [hu.ofCoherent]
  constructor
  · intro h
    obtain rfl := Except.ok.inj h
    refine ⟨rfl, ?_⟩
    rw [hu.toCoherent, div_mul_cancel₀ _ hu.ne_zero, sub_add_cancel]
  · rintro ⟨hexact, hcoherent⟩
    obtain ⟨a, rfl⟩ := Number.isExact_iff.1 hexact
    rw [hu.toCoherent] at hcoherent
    obtain rfl := Number.exact.inj hcoherent
    rw [add_sub_cancel_right, mul_div_cancel_right₀ _ hu.ne_zero]

/-- **Conversion keeps the coherent value**, and its result is the value that does so. -/
theorem convert_eq_ok_iff (hu : u.AffineScale f o) (hv : v.AffineScale g c)
    (h : u.isCompatible v) (hx : x.isExact) :
    u.convert v x = .ok y ↔ y.isExact ∧ v.toCoherent y = u.toCoherent x := by
  obtain ⟨r, rfl⟩ := Number.isExact_iff.1 hx
  rw [convert_of_isCompatible h, liftNumber_eq_ok_iff, hu.toCoherent, hv.ofCoherent_eq_ok_iff]

end AffineScale

/-! ## Units read from texts -/

theorem factor_ne_zero_of_parseUnit {text : String} (h : parseUnit text = .ok u) :
    u.factor.isZero = false :=
  (represented_of_reachable (Registry.reachable_of_parse h)).factor_ne_zero

/-- **Conversion between compatible units never fails and loses nothing.** The factors of units read
from texts are not zero, and every value has a conversion. If the scales are exact, an exact value
comes back as it was, and comes to any third unit as it does directly. -/
theorem convert_between_parsed {first second third : String} (hu : parseUnit first = .ok u)
    (hv : parseUnit second = .ok v) (hw : parseUnit third = .ok w) (huv : u.isCompatible v)
    (hvw : v.isCompatible w) (x : Number) :
    u.factor.isZero = false ∧ (∃ y, u.convert v x = .ok y) ∧
      (x.isExact → u.ExactScale → v.ExactScale → w.ExactScale →
        ∃ y z, u.convert v x = .ok y ∧ v.convert u y = .ok x ∧
          v.convert w y = .ok z ∧ u.convert w x = .ok z) := by
  have hfactor := factor_ne_zero_of_parseUnit hv
  refine ⟨factor_ne_zero_of_parseUnit hu, exists_convert huv hfactor x, fun hx hu' hv' hw' => ?_⟩
  obtain ⟨f, o, hu'⟩ := hu'.affine (factor_ne_zero_of_parseUnit hu)
  obtain ⟨g, c, hv'⟩ := hv'.affine hfactor
  obtain ⟨k, d, hw'⟩ := hw'.affine (factor_ne_zero_of_parseUnit hw)
  obtain ⟨y, hy⟩ := exists_convert huv hfactor x
  obtain ⟨z, hz⟩ := exists_convert hvw (factor_ne_zero_of_parseUnit hw) y
  obtain ⟨hyexact, hxy⟩ := (hu'.convert_eq_ok_iff hv' huv hx).1 hy
  obtain ⟨hzexact, hyz⟩ := (hv'.convert_eq_ok_iff hw' hvw hyexact).1 hz
  -- All three values stand for one coherent value.
  refine ⟨y, z, hy, ?_, hz, ?_⟩
  · exact (hv'.convert_eq_ok_iff hu' (isCompatible_symm huv) hyexact).2 ⟨hx, hxy.symm⟩
  · exact (hu'.convert_eq_ok_iff hw' (isCompatible_trans huv hvw) hx).2 ⟨hzexact, hyz.trans hxy⟩

/-- Degrees Celsius, degrees Fahrenheit and kelvins. -/
theorem convert_between_temperatures :
    ∃ u v w, parseUnit "°C" = .ok u ∧ parseUnit "°F" = .ok v ∧ parseUnit "K" = .ok w ∧
      ∃ y z, u.convert v (Number.ofInt 100) = .ok y ∧ v.convert u y = .ok (Number.ofInt 100) ∧
        v.convert w y = .ok z ∧ u.convert w (Number.ofInt 100) = .ok z := by
  have hlines : ∀ symbol ∈ ["°C", "°F", "K"], ∃ p ∈ Catalogue.units Catalogue.entries,
      p.1.symbol = symbol ∧ p.1.dimension = .temperature ∧ p.1.adHoc = .empty ∧
        p.1.factor.isExact ∧ p.1.offset.isExact := by decide +kernel
  have hparse : ∀ symbol ∈ ["°C", "°F", "K"], ∃ u, parseUnit symbol = .ok u ∧
      u.dimension = .temperature ∧ u.adHoc = .empty ∧ u.ExactScale := by
    intro symbol hsymbol
    obtain ⟨p, hp, rfl, hdimension, hthings, hfactor, hoffset⟩ := hlines symbol hsymbol
    exact ⟨p.1, parseUnit_of_mem hp, hdimension, hthings, hfactor, hoffset⟩
  obtain ⟨u, hu, hdu, htu, heu⟩ := hparse "°C" (by decide)
  obtain ⟨v, hv, hdv, htv, hev⟩ := hparse "°F" (by decide)
  obtain ⟨w, hw, hdw, htw, hew⟩ := hparse "K" (by decide)
  have huv : u.isCompatible v := isCompatible_iff.2 ⟨hdu.trans hdv.symm, htu.trans htv.symm⟩
  have hvw : v.isCompatible w := isCompatible_iff.2 ⟨hdv.trans hdw.symm, htv.trans htw.symm⟩
  exact ⟨u, v, w, hu, hv, hw,
    (convert_between_parsed hu hv hw huv hvw (Number.ofInt 100)).2.2 rfl heu hev hew⟩

end Reckoner.MeasureUnit
