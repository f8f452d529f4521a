import Reckoner.Proofs.Unit.Algebra

/-!
# Exponents of units never wrap

A unit has exponents in three places: over the base dimensions, for the things it counts, and for
the components of its symbol (`Place`). In all of them at once, products, quotients and powers are
arithmetic on integers:

    (u * v).exponentAt = u.exponentAt + v.exponentAt

A name without an entry has the exponent 0, so that a quotient can leave the range on a name that
only its divisor has. The operations fail if one of the integers leaves the range, and with that
error only; otherwise they have a result with exactly these exponents and without entries that are 0
(`Computes`). This includes the least exponent, whose negative is not in range.
-/

namespace Reckoner.MeasureUnit

variable {u v w : MeasureUnit} {n : Int} {s : Settings}

/-! ## Exponents in all places -/

/-- Where a unit has an exponent. -/
inductive Place where
  /-- At a base dimension or the name of a thing counted. -/
  | base (b : Fin 9 ⊕ String)
  | component (name : String)

def exponentAt (u : MeasureUnit) : Place → Int
  | .base b => u.exponent b
  | .component name => u.components.get name

theorem isExponent_exponentAt (u : MeasureUnit) (p : Place) : IsExponent (u.exponentAt p) := by
  cases p with
  | base b => exact u.isExponent_exponent b
  | component name => exact u.components.isExponent_get name

theorem exponentAt_multiply (h : u.multiply v = .ok w) :
    w.exponentAt = u.exponentAt + v.exponentAt := by
  funext p
  cases p with
  | base b => exact congrFun (exponent_multiply h) b
  | component name => exact get_components_multiply h name

theorem exponentAt_divide (h : u.divide v = .ok w) :
    w.exponentAt = u.exponentAt - v.exponentAt := by
  funext p
  cases p with
  | base b => exact congrFun (exponent_divide h) b
  | component name => exact get_components_divide h name

theorem exponentAt_power (h : u.power n s = .ok w) : w.exponentAt = n • u.exponentAt := by
  funext p
  cases p with
  | base b => exact congrFun (exponent_power h) b
  | component name => exact get_components_power h name

/-! ## Without entries that are 0 -/

/-- No map of exponents has an entry that is 0. -/
structure WithoutZeros (u : MeasureUnit) : Prop where
  components : u.components.Reduced
  adHoc : u.adHoc.Reduced

/-- A product has no zeros, unless it is an operand that is left as it was. -/
theorem withoutZeros_multiply (hu : u.isUnity = false) (hv : v.isUnity = false)
    (h : u.multiply v = .ok w) : w.WithoutZeros := by
  rcases multiply_cases h with ⟨hone, -⟩ | ⟨hone, -⟩ | ⟨_, _, _, _, hc, ha, -, rfl⟩
  · simp [hv] at hone
  · simp [hu] at hone
  · exact ⟨Exponents.reduced_combine hc, Exponents.reduced_combine ha⟩

theorem withoutZeros_divide (hv : v.isUnity = false) (h : u.divide v = .ok w) : w.WithoutZeros := by
  rcases divide_cases h with ⟨hone, -⟩ | ⟨_, _, _, _, _, hc, ha, -, -, rfl⟩
  · simp [hv] at hone
  · exact ⟨Exponents.reduced_combine hc, Exponents.reduced_combine ha⟩

theorem withoutZeros_power (hn : n ≠ 1) (hu : u.isUnity = false) (h : u.power n s = .ok w) :
    w.WithoutZeros := by
  rcases power_cases h with ⟨hone | hone, -⟩ | ⟨_, _, _, _, _, hc, ha, -, -, rfl⟩
  · exact absurd hone hn
  · simp [hu] at hone
  · exact ⟨Exponents.reduced_scale hc, Exponents.reduced_scale ha⟩

/-! ## Exactly or not at all -/

/-- A computed unit has the exponents `e`, or there is none because one of them is out of range. -/
structure Computes (x : Except ConversionError MeasureUnit) (details : String) (e : Place → Int) :
    Prop where
  overflow_iff : x = .error (.invalidExponent details) ↔ ∃ p, ¬ IsExponent (e p)
  exists_of_inRange :
    (∀ p, IsExponent (e p)) → ∃ w, x = .ok w ∧ w.exponentAt = e ∧ w.WithoutZeros

/-- It suffices that a unit has the exponents, that there is one if they are in range, and that
there is only one error. -/
theorem computes_of {x : Except ConversionError MeasureUnit} {details : String} {e : Place → Int}
    (hok : ∀ w, x = .ok w → w.exponentAt = e ∧ w.WithoutZeros)
    (herror : ∀ reason, x = .error reason → reason = .invalidExponent details)
    (hexists : (∀ p, IsExponent (e p)) → ∃ w, x = .ok w) : Computes x details e := by
  constructor
  · constructor
    · intro hx
      by_contra hrange
      simp only [not_exists, not_not] at hrange
      obtain ⟨w, hw⟩ := hexists hrange
      rw [hw] at hx
      cases hx
    · rintro ⟨p, hp⟩
      cases hx : x with
      | ok w =>
        obtain ⟨hw, -⟩ := hok w hx
        exact absurd (hw ▸ w.isExponent_exponentAt p) hp
      | error reason => rw [herror reason hx]
  · intro hrange
    obtain ⟨w, hw⟩ := hexists hrange
    exact ⟨w, hw, hok w hw⟩

theorem computes_multiply (hu : u.isUnity = false) (hv : v.isUnity = false) :
    Computes (u.multiply v) (overflowText u v "*") (u.exponentAt + v.exponentAt) := by
  apply computes_of
  · exact fun w h => ⟨exponentAt_multiply h, withoutZeros_multiply hu hv h⟩
  · exact fun reason h => (multiply_error h).1
  · intro hrange
    exact exists_multiply (fun name => hrange (.component name)) fun b => hrange (.base b)

theorem computes_divide (hv : v.isUnity = false) (hfactor : v.factor.isZero = false) :
    Computes (u.divide v) (overflowText u v "/") (u.exponentAt - v.exponentAt) := by
  apply computes_of
  · exact fun w h => ⟨exponentAt_divide h, withoutZeros_divide hv h⟩
  · exact fun reason h => (divide_error hfactor h).1
  · intro hrange
    exact exists_divide hfactor (fun name => hrange (.component name)) fun b => hrange (.base b)

theorem computes_power (hu : u.isUnity = false) (hfactor : u.factor.isZero = false)
    (hrange : IsExponent n) (hn : n ≠ 1) (s : Settings) :
    Computes (u.power n s)
      ("exponent overflow raising " ++ u.symbol ++ " to " ++ Text.decimalInt n)
      (n • u.exponentAt) := by
  have hsmall : n.natAbs < 2 ^ 32 := by
    have hbounds : -2 ^ 31 ≤ n ∧ n < 2 ^ 31 := hrange
    omega
  apply computes_of
  · exact fun w h => ⟨exponentAt_power h, withoutZeros_power hn hu h⟩
  · exact fun reason h => (power_error hfactor hsmall h).1
  · intro hrange
    exact exists_power hfactor hsmall (fun name => hrange (.component name))
      (fun b => hrange (.base b)) s

/-- **Exponents never wrap.** Products, quotients and powers of units fail if and only if a sum,
difference or product of exponents is out of range, in whichever place. Otherwise there is a result,
its exponents are these integers, and entries that have become 0 are dropped. -/
theorem exponents_never_wrap (hu : u.isUnity = false) (hv : v.isUnity = false)
    (hufactor : u.factor.isZero = false) (hvfactor : v.factor.isZero = false)
    (hrange : IsExponent n) (hn : n ≠ 1) (s : Settings) :
    Computes (u.multiply v) (overflowText u v "*") (u.exponentAt + v.exponentAt) ∧
    Computes (u.divide v) (overflowText u v "/") (u.exponentAt - v.exponentAt) ∧
    Computes (u.power n s)
      ("exponent overflow raising " ++ u.symbol ++ " to " ++ Text.decimalInt n)
      (n • u.exponentAt) :=
  ⟨computes_multiply hu hv, computes_divide hv hvfactor, computes_power hu hufactor hrange hn s⟩

/-- A unit with the least exponent there is. -/
def leastPower : MeasureUnit :=
  derived ⟨[("K", -2 ^ 31)], by decide, by decide⟩ .empty "kelvin to the -2147483648"
    ⟨#v[0, 0, 0, 0, -2 ^ 31, 0, 0, 0, 0], by decide⟩ (Number.ofInt 1)

/-- It has neither a square nor an inverse. Divided by itself nothing is left of it. -/
theorem exponents_of_leastPower :
    leastPower.multiply leastPower =
      .error (.invalidExponent (overflowText leastPower leastPower "*")) ∧
    (∃ w, leastPower.divide leastPower = .ok w ∧ w.exponentAt = 0 ∧ w.WithoutZeros) ∧
    leastPower.power (-1) default =
      .error (.invalidExponent "exponent overflow raising 1/K^2147483648 to -1") := by
  have hunity : leastPower.isUnity = false := by decide
  have hfactor : leastPower.factor.isZero = false := by decide
  obtain ⟨hmultiply, hdivide, hpower⟩ := exponents_never_wrap hunity hunity hfactor hfactor
    (show IsExponent (-1) by decide) (by decide) default
  refine ⟨hmultiply.overflow_iff.2 ⟨.component "K", by decide⟩, ?_, ?_⟩
  · rw [sub_self] at hdivide
    exact hdivide.exists_of_inRange fun _ => show IsExponent 0 by decide
  · have htext : "exponent overflow raising " ++ leastPower.symbol ++ " to " ++
        Text.decimalInt (-1) = "exponent overflow raising 1/K^2147483648 to -1" := by
      decide +kernel
    rw [← htext]
    exact hpower.overflow_iff.2 ⟨.component "K", by decide⟩

end Reckoner.MeasureUnit
