import Reckoner.Proofs.Expr.Dimension
import Reckoner.Proofs.Number.Magnitude
import Reckoner.Proofs.Unit.Standard

/-!
# The range of values and scales

Every value that evaluation gives has a number in range, since each node is checked. The scale of
its unit is not looked at: the number of `h ^ 30000` is 1, and its scale is `3600 ^ 30000`
(`Expr.scale_out_of_range`).

How large a scale can become shows in the expression. Its reach is read off the scales of the named
units: products and quotients add them up, powers multiply them (`Expr.reach`). An expression of
numbers and units whose reach is in range evaluates to a quantity with a number and a scale in range
(`Expr.range_of_eval`).
-/

namespace Reckoner

/-! ## Units -/

namespace MeasureUnit

variable {u v w : MeasureUnit} {n : Int} {s : Settings}

theorem magnitude_multiply (h : u.multiply v = .ok w) :
    w.factor.magnitude ≤ u.factor.magnitude + v.factor.magnitude + 4 := by
  unfold multiply at h
  split at h
  · cases h
    omega
  · split at h
    · cases h
      omega
    · simp only [bind_eq_ok_iff, pure_eq_ok_iff] at h
      obtain ⟨components, -, adHoc, -, dimension, -, rfl⟩ := h
      exact Number.magnitude_mul u.factor v.factor

theorem magnitude_divide (h : u.divide v = .ok w) :
    w.factor.magnitude ≤ u.factor.magnitude + v.factor.magnitude + 4 := by
  unfold divide at h
  split at h
  · cases h
    omega
  · simp only [bind_eq_ok_iff, pure_eq_ok_iff, liftNumber_eq_ok_iff] at h
    obtain ⟨factor, hfactor, components, -, adHoc, -, dimension, -, rfl⟩ := h
    exact Number.magnitude_div hfactor

/-- The unit itself is the power where the exponent is 1 or the unit is unity. -/
theorem magnitude_power (h : u.power n s = .ok w) :
    w.factor.magnitude ≤
      max u.factor.magnitude (n.natAbs * (u.factor.magnitude + 3) + 1) := by
  unfold power at h
  split at h
  · cases h
    exact le_max_left _ _
  · simp only [bind_eq_ok_iff, pure_eq_ok_iff, liftNumber_eq_ok_iff] at h
    obtain ⟨components, -, adHoc, -, dimension, -, factor, hfactor, rfl⟩ := h
    exact le_max_of_le_right (Number.magnitude_powInt hfactor)

end MeasureUnit

/-! ## Quantities -/

/-- The scale of the unit is of at most the given magnitude. -/
def Quantity.ScaledWithin (q : Quantity) (k : Nat) : Prop := q.unit.factor.magnitude ≤ k

namespace Quantity.ScaledWithin

variable {a b q : Quantity} {j k : Nat} {s : Settings}

theorem plain (x : Number) (hk : 1 ≤ k) : (Quantity.plain x).ScaledWithin k := hk

theorem mono (h : q.ScaledWithin j) (hjk : j ≤ k) : q.ScaledWithin k := le_trans h hjk

theorem fold (h : q.ScaledWithin k) (hk : 1 ≤ k) : q.fold.ScaledWithin k := by
  rcases q.fold_cases with hfold | ⟨-, hfold⟩
  · rwa [hfold]
  · rw [hfold]
    exact plain _ hk

/-- What is aligned has its own scale or the one that it is aligned with. -/
theorem alignedWith {b' : Quantity} (ha : a.ScaledWithin j) (hb : b.ScaledWithin k)
    (h : b.alignedWith a = .ok b') : b'.ScaledWithin (max j k) := by
  rcases alignedWith_cases h with rfl | ⟨-, value, -, rfl⟩
  · exact hb.mono (le_max_right _ _)
  · exact ha.mono (le_max_left _ _)

/-- A sum has the left unit, or is one of temperatures in kelvin. -/
theorem addWith {op : Number → Number → Number} {kind : MeasureUnit.Combination}
    (hkind : kind = .add ∨ kind = .sub) (ha : a.ScaledWithin j)
    (h : Quantity.addWith op kind a b s = .ok q) : q.ScaledWithin (max 1 j) := by
  obtain ⟨unit, hunit, h⟩ := bind_eq_ok_iff.1 h
  obtain rfl := combine_add hkind hunit
  split at h
  · simp only [bind_eq_ok_iff, pure_eq_ok_iff] at h
    obtain ⟨value, -, rfl⟩ := h
    exact le_max_left 1 j
  · simp only [bind_eq_ok_iff, pure_eq_ok_iff] at h
    obtain ⟨right, -, value, -, rfl⟩ := h
    exact ha.mono (le_max_right _ _)

theorem mul (ha : a.ScaledWithin j) (hb : b.ScaledWithin k) (h : a.mul b s = .ok q) :
    q.ScaledWithin (j + max j k + 4) := by
  simp only [Quantity.mul, MeasureUnit.combine, bind_eq_ok_iff, pure_eq_ok_iff] at h
  obtain ⟨b', hb', unit, hunit, value, -, rfl⟩ := h
  have hright := ha.alignedWith hb hb'
  have hproduct := MeasureUnit.magnitude_multiply hunit
  have hscale : (⟨value, unit⟩ : Quantity).ScaledWithin (j + max j k + 4) :=
    hproduct.trans (Nat.add_le_add_right (Nat.add_le_add ha hright) 4)
  exact hscale.fold (by omega)

theorem div (ha : a.ScaledWithin j) (hb : b.ScaledWithin k) (h : a.div b s = .ok q) :
    q.ScaledWithin (j + max j k + 4) := by
  simp only [Quantity.div, MeasureUnit.combine, bind_eq_ok_iff, pure_eq_ok_iff] at h
  obtain ⟨b', hb', value, -, unit, hunit, rfl⟩ := h
  have hright := ha.alignedWith hb hb'
  have hquotient := MeasureUnit.magnitude_divide hunit
  have hscale : (⟨value, unit⟩ : Quantity).ScaledWithin (j + max j k + 4) :=
    hquotient.trans (Nat.add_le_add_right (Nat.add_le_add ha hright) 4)
  exact hscale.fold (by omega)

/-- A power by a plain number is that of the unit by an exact one, and needs a plain base for one
that has been rounded. -/
theorem pow {x : Number} {n : Int} (ha : a.ScaledWithin k) (hx : ∀ r, x = .exact r → r = n)
    (h : a.pow (Quantity.plain x) s = .ok q) :
    q.ScaledWithin (max k (n.natAbs * (k + 3) + 1)) := by
  cases x with
  | exact r =>
    have hr : Number.exact r = Number.ofInt n := by rw [hx r rfl, Number.ofInt]
    rw [pow_plain rfl hr] at h
    obtain ⟨power, hunit, -, -⟩ := powInt_cases hr h
    refine (MeasureUnit.magnitude_power hunit).trans (max_le_max ha ?_)
    exact Nat.add_le_add_right (Nat.mul_le_mul_left _ (Nat.add_le_add_right ha 3)) 1
  | approx y =>
    obtain ⟨-, -, value, -, -, rfl⟩ := pow_plain_approx h
    exact plain value (le_max_of_le_right (Nat.le_add_left 1 _))

end Quantity.ScaledWithin

/-! ## Values -/

theorem Value.checkRange_of_finish {v : Value} {kind : String} {s : Settings} {q : Quantity}
    (h : v.finish kind s = .quantity q) : q.value.checkRange s = .ok () := by
  cases v with
  | quantity p =>
    rw [Value.finish] at h
    split at h
    · next hrange =>
      cases h
      exact hrange
    · cases h
  | moment | text | bool | error => cases h

/-! ## Expressions -/

namespace Expr

mutual

/-- A bound on the magnitude of the scale of an expression of numbers and units, from the scales of
the units that it names. A right operand may be brought to the unit of the left one first. -/
@[simp] def reach : Expr → Nat
  | const _ | quote _ => 1
  | name n => (standardUnits.lookup? n).elim 1 fun u => u.factor.magnitude
  | unary _ e => e.reach
  | binary .add a _ | binary .sub a _ => max 1 a.reach
  | binary .frac a b => a.reach + max a.reach b.reach + 4
  | binary .pow a (const parts) =>
    max a.reach ((parts.whole?.getD 0).natAbs * (a.reach + 3) + 1)
  | product factors => productReach 1 factors
  | _ => 1

/-- The bound for a product of some reach and more factors. -/
def productReach (reach : Nat) : List Expr → Nat
  | [] => reach
  | e :: es => productReach (reach + max reach e.reach + 4) es

end

variable {l : Library} {env : Environment} {depth : Nat}

/-- A quantity that the expression evaluates to has a scale within its reach. -/
def Bounds (l : Library) (env : Environment) (depth : Nat) (e : Expr) : Prop :=
  (e.evalAt l env depth).Fits fun q => q.ScaledWithin e.reach

theorem bounds_const (parts : NumberParts) : Bounds l env depth (.const parts) :=
  fits_literal fun _ y _ _ => Quantity.ScaledWithin.plain y (by rw [reach])

theorem bounds_name {n : String} (h : (standardUnits.lookup? n).isSome) :
    Bounds l env depth (.name n) := by
  obtain ⟨u, hu⟩ := Option.isSome_iff_exists.1 h
  refine fits_node (evalAt.eq_def ..) ?_
  show (l.evalName env n).Fits _
  rw [Library.evalName, hu, reach, hu]
  exact le_refl u.factor.magnitude

theorem bounds_pow {a : Expr} {parts : NumberParts} (h : parts.whole?.isSome)
    (ha : Bounds l env (depth + 1) a) : Bounds l env depth (.binary .pow a (.const parts)) := by
  obtain ⟨n, hn⟩ := Option.isSome_iff_exists.1 h
  refine fits_binary (fun p q => p.pow q _) (fun _ _ => rfl) ha (fits_whole hn) ?_
  rintro p _ r hp ⟨y, rfl, hy⟩ hr
  rw [reach, hn]
  exact hp.pow hy hr

/-! ### Products -/

theorem scaledWithin_multiplyBy {product : Option Quantity} {factor q : Quantity} {j k : Nat}
    {s : Settings} (hproduct : (product.getD (.plain (.ofInt 1))).ScaledWithin j)
    (hfactor : factor.ScaledWithin k) (h : multiplyBy product factor s = .ok q) :
    q.ScaledWithin (j + max j k + 4) := by
  cases product with
  | none =>
    obtain rfl := Except.ok.inj h
    exact hfactor.mono (by omega)
  | some p => exact Quantity.ScaledWithin.mul hproduct hfactor (multiplyBy_some h)

theorem scaledWithin_nextProduct? {product : Option Quantity} {e : Expr} {q : Quantity} {k : Nat}
    (hproduct : (product.getD (.plain (.ofInt 1))).ScaledWithin k)
    (he : e.isThing = false → Bounds l env depth e)
    (h : nextProduct? l env depth product e = some q) :
    q.ScaledWithin (k + max k e.reach + 4) := by
  rcases nextProduct?_cases h with hadopt | ⟨factor, hfactor, hq⟩
  · obtain ⟨p, n, u, rfl, rfl, -, hu, rfl⟩ := adoptUnit?_eq_some hadopt
    have hunit : (⟨p.value, u⟩ : Quantity).ScaledWithin (name n).reach := by
      rw [reach, hu]
      exact le_refl u.factor.magnitude
    exact hunit.mono (by omega)
  · refine scaledWithin_multiplyBy hproduct ?_ hq
    rcases hfactor with hthing | ⟨hthing, hvalue⟩
    · obtain ⟨text, rfl, -, rfl⟩ := countedThing?_eq_some hthing
      rw [reach]
      exact le_refl 1
    · have hbound := he (isThing_of_countedThing? hthing)
      rwa [Bounds, hvalue] at hbound

theorem scaledWithin_evalFactors {factors : List Expr} {product : Option Quantity} {q : Quantity}
    {k i : Nat} (hfactors : ∀ e ∈ factors, e.isThing = false → Bounds l env depth e)
    (hproduct : (product.getD (.plain (.ofInt 1))).ScaledWithin k)
    (h : evalFactors l env depth i product factors = .ok q) :
    q.ScaledWithin (productReach k factors) := by
  induction factors generalizing product i k with
  | nil =>
    rw [evalFactors] at h
    obtain rfl := Except.ok.inj h
    rwa [productReach]
  | cons e es ih =>
    obtain ⟨he, hes⟩ := List.forall_mem_cons.1 hfactors
    obtain ⟨p, hp, hrest⟩ := evalFactors_cons_eq_ok h
    have hnext : ((some p).getD (.plain (.ofInt 1))).ScaledWithin (k + max k e.reach + 4) :=
      scaledWithin_nextProduct? hproduct he hp
    rw [productReach]
    exact ih hes hnext hrest

/-! ### Trees -/

theorem bounds_of_isMeasured {e : Expr} (he : e.IsMeasured) (depth : Nat) :
    Bounds l env depth e := by
  induction he generalizing depth with
  | const parts => exact bounds_const parts
  | name h => exact bounds_name h
  | unary op _ ih =>
    refine fits_unary (ih _) fun q hq => ?_
    rw [reach]
    cases op with
    | positive | negative => exact hq
  | add _ _ iha ihb =>
    refine fits_binary (fun p q => p.add q _) (fun _ _ => rfl) (iha _) (ihb _) ?_
    intro p q r hp _ hr
    rw [reach]
    exact hp.addWith (.inl rfl) hr
  | sub _ _ iha ihb =>
    refine fits_binary (fun p q => p.sub q _) (fun _ _ => rfl) (iha _) (ihb _) ?_
    intro p q r hp _ hr
    rw [reach]
    exact hp.addWith (.inr rfl) hr
  | frac _ _ iha ihb =>
    refine fits_binary (fun p q => p.div q _) (fun _ _ => rfl) (iha _) (ihb _) ?_
    intro p q r hp hq hr
    rw [reach]
    exact hp.div hq hr
  | pow _ hwhole ih => exact bounds_pow hwhole (ih _)
  | product _ ih =>
    refine fits_product fun q hvalue => ?_
    have hone : ((none : Option Quantity).getD (.plain (.ofInt 1))).ScaledWithin 1 := le_refl 1
    rw [reach]
    exact scaledWithin_evalFactors (fun e he hthing => ih e he hthing _) hone hvalue

/-- **Values are in range, and scales are within the reach of the expression.** Whatever an
expression evaluates to, its number is in range. If it is an expression of numbers and units whose
reach is in range, the scale of its unit is in range as well. -/
theorem range_of_eval {e : Expr} {q : Quantity} (h : e.eval l env = .quantity q) :
    q.value.checkRange env.settings = .ok () ∧
      (e.IsMeasured → e.reach ≤ env.settings.maxDecimalExponent →
        q.unit.factor.checkRange env.settings = .ok ()) := by
  refine ⟨?_, fun he hreach => ?_⟩
  · rw [eval, evalAt.eq_def, if_neg (Nat.not_lt_zero _)] at h
    exact Value.checkRange_of_finish h
  · have hbound : (e.eval l env).Fits _ := bounds_of_isMeasured he 0
    rw [h] at hbound
    exact Number.checkRange_of_magnitude (hbound.trans hreach)

theorem lookup?_hour : standardUnits.lookup? "h" = some CataloguedUnit.hour.unit :=
  CataloguedUnit.hour.lookup?_symbol

/-- The hundredth power of an hour. -/
theorem range_of_long_power :
    let e : Expr := .binary .pow (.name "h") (.int 100)
    ∃ q, e.eval standardLibrary ⟨{}, default⟩ = .quantity q ∧
      q.value.checkRange {} = .ok () ∧ q.unit.factor = .exact (3600 ^ 100) ∧
      e.IsMeasured ∧ e.reach ≤ 100000 ∧ q.unit.factor.checkRange {} = .ok () := by
  intro e
  have hwhole : (NumberParts.integer 100).whole? = some 100 := by decide +kernel
  obtain ⟨q, hq, hfactor⟩ : ∃ q, e.eval standardLibrary ⟨{}, default⟩ = .quantity q ∧
      q.unit.factor = .exact (3600 ^ 100) := by
    rw [eval, evalAt_binary (Nat.zero_le _), evalAt_name (by decide) lookup?_hour]
    exact exists_quantity (by decide +kernel)
  have he : e.IsMeasured :=
    .pow (.name (Option.isSome_iff_exists.2 ⟨_, lookup?_hour⟩)) (Option.isSome_iff_exists.2 ⟨_, hwhole⟩)
  have hreach : e.reach ≤ 100000 := by
    show (binary .pow (.name "h") (.const (NumberParts.integer 100))).reach ≤ 100000
    rw [reach, reach, lookup?_hour, hwhole]
    decide +kernel
  exact ⟨q, hq, (range_of_eval hq).1, hfactor, he, hreach, (range_of_eval hq).2 he hreach⟩

/-- A high power of an hour is 1 of a unit whose scale is out of range. -/
theorem scale_out_of_range :
    ∃ q, (binary .pow (.name "h") (.int 30000)).eval standardLibrary ⟨{}, default⟩ =
        .quantity q ∧
      q.value.checkRange {} = .ok () ∧ q.unit.factor.checkRange {} = .error .overflow := by
  rw [eval, evalAt_binary (Nat.zero_le _), evalAt_name (by decide) lookup?_hour]
  exact exists_quantity (by decide +kernel)

end Expr

end Reckoner
