import Reckoner.Proofs.Expr.Depth
import Reckoner.Proofs.Expr.Quantities
import Reckoner.Proofs.Expr.Units

/-!
# Chains of factors are products

A factor of a chain may be adopted as the unit of a plain number, count things, or be multiplied by;
which of these happens depends on all the factors before it. Whatever happens, the chain so far
stands for a coherent value and for exponents (`Quantity.StandsFor`), and one more factor multiplies
the one by its own and adds its own to the other (`nextProduct?_standsFor`). So a chain of exact
factors, where it has an exact value at all, means their product (`product_of_factors`).
-/

namespace Reckoner

namespace Quantity

variable {a b q : Quantity} {s : Settings} {x y f : Rat} {d e : Fin 9 ⊕ String → Int}

/-- An exact quantity with its coherent value and its exponents. -/
structure StandsFor (q : Quantity) (x : Rat) (d : Fin 9 ⊕ String → Int) : Prop where
  exact : q.IsExact
  value : q.coherentValue = .exact x
  exponent : q.unit.exponent = d

theorem Holds.isExact (h : q.Holds x f) : q.IsExact where
  value := by rw [h.value]; rfl
  factor := by rw [h.scale.factor]; rfl
  factor_ne_zero := by rw [h.scale.factor]; exact beq_false_of_ne h.scale.ne_zero
  offset := h.scale.offset

theorem IsExact.standsFor (h : q.IsExact) : q.StandsFor q.coherentValue.value q.unit.exponent := by
  obtain ⟨x, f, hq⟩ := h.holds
  refine ⟨h, ?_, rfl⟩
  rw [hq.coherentValue]
  rfl

theorem standsFor_one : (plain (.ofInt 1)).StandsFor 1 0 := by
  have hone : (plain (.ofInt 1)).Holds 1 1 := ⟨rfl, rfl, one_ne_zero, rfl⟩
  refine ⟨hone.isExact, ?_, MeasureUnit.exponent_of_isDimensionless rfl⟩
  rw [hone.coherentValue, mul_one]

theorem StandsFor.mul (ha : a.StandsFor x d) (hb : b.StandsFor y e) (hq : q.value.isExact)
    (h : a.mul b s = .ok q) : q.StandsFor (x * y) (d + e) := by
  obtain ⟨v, f, hav⟩ := ha.exact.holds
  obtain ⟨w, g, hbw⟩ := hb.exact.holds
  obtain ⟨z, r, hz, hvalue, hexponent⟩ := hav.mul hbw hq h
  have hx : v * f = x := Number.exact.inj (hav.coherentValue.symm.trans ha.value)
  have hy : w * g = y := Number.exact.inj (hbw.coherentValue.symm.trans hb.value)
  refine ⟨hz.isExact, ?_, ?_⟩
  · rw [hz.coherentValue, hvalue, hx, hy]
  · rw [hexponent, ha.exponent, hb.exponent]

/-- A plain number with another unit stands for that many of the unit. -/
theorem StandsFor.adopt {u : MeasureUnit} (ha : a.StandsFor x d) (hplain : a.isPlain)
    (hu : (Quantity.mk (.ofInt 1) u).StandsFor y e) :
    (Quantity.mk a.value u).StandsFor (x * y) (d + e) := by
  obtain ⟨v, f, hav⟩ := ha.exact.holds
  obtain ⟨w, g, huw⟩ := hu.exact.holds
  have hv : v = x := by
    have hx := hav.coherentValue.symm.trans ha.value
    rw [hav.scale.eq_one_of_isUnity hplain, mul_one] at hx
    exact Number.exact.inj hx
  have hg : g = y := by
    have hw : w = 1 := (Number.exact.inj huw.value).symm
    have hy := huw.coherentValue.symm.trans hu.value
    rw [hw, one_mul] at hy
    exact Number.exact.inj hy
  have hadopted : (Quantity.mk a.value u).Holds v g := ⟨hav.value, huw.scale⟩
  refine ⟨hadopted.isExact, ?_, ?_⟩
  · rw [hadopted.coherentValue, hv, hg]
  · rw [← ha.exponent, MeasureUnit.exponent_of_isUnity hplain, zero_add]
    exact hu.exponent

/-- A product is exact only if its left operand is. -/
theorem isExact_of_mul (hq : q.value.isExact) (h : a.mul b s = .ok q) : a.value.isExact := by
  simp only [Quantity.mul, bind_eq_ok_iff, pure_eq_ok_iff, liftNumber_eq_ok_iff] at h
  obtain ⟨b', -, unit, -, value, hvalue, rfl⟩ := h
  obtain ⟨z, hz⟩ := Number.isExact_iff.1 hq
  obtain ⟨w, hw⟩ : ∃ w, value = .exact w := by
    rcases fold_cases ⟨value, unit⟩ with hfold | ⟨-, hfold⟩
    · rw [hfold] at hz
      exact ⟨z, hz⟩
    · rw [hfold] at hz
      obtain ⟨w, -, hw, -, -⟩ := Number.lift₂_eq_exact hz
      exact ⟨w, hw⟩
  rw [hw] at hvalue
  obtain ⟨v, -, hv, -, -⟩ := Number.lift₂_eq_exact (Number.withinLimits_eq_exact hvalue)
  exact Number.isExact_iff.2 ⟨v, hv⟩

end Quantity

namespace Expr

variable {l : Library} {env : Environment} {depth : Nat}

/-! ## Factors on their own -/

/-- What a factor means on its own: a text that is not blank means one thing of its name, everything
else the quantity that it evaluates to. -/
def meaning? (l : Library) (env : Environment) (e : Expr) : Option Quantity :=
  match countedThing? e with
  | some thing => some thing
  | none => (e.eval l env).quantity?

/-- A factor of an exact value and an exact scale that starts at zero. -/
def IsExactFactor (l : Library) (env : Environment) (e : Expr) : Prop :=
  ∃ q, meaning? l env e = some q ∧ q.IsExact

theorem agree_refl (l : Library) (env : Environment) : Agree l env l env where
  settings := rfl
  now := rfl
  constant _ := rfl
  known _ := rfl
  call _ _ _ := rfl

/-- A quantity is the same closer to the root. -/
theorem eval_of_quantity {e : Expr} {q : Quantity} (h : e.evalAt l env depth = .quantity q) :
    e.eval l env = .quantity q := by
  rw [eval, evalAt_eq_of_agree (agree_refl l env) (by omega) (by rw [h]; rfl), h]

/-- On its own, a name of a unit means one of that unit. -/
theorem meaning?_name {n : String} {u : MeasureUnit} {q : Quantity}
    (hu : standardUnits.lookup? n = some u) (h : meaning? l env (.name n) = some q) :
    q = ⟨.ofInt 1, u⟩ := by
  have heval := quantity?_eq_some h
  rw [eval, evalAt.eq_def, if_neg (Nat.not_lt_zero _)] at heval
  simp only [Library.evalName, hu, Value.ofExcept, Value.finish] at heval
  split at heval
  · exact (Value.quantity.inj heval).symm
  · cases heval

/-! ## One more factor -/

variable {x : Rat} {d : Fin 9 ⊕ String → Int}

theorem multiplyBy_standsFor {product : Option Quantity} {factor q : Quantity} {s : Settings}
    (hproduct : (product.getD (.plain (.ofInt 1))).StandsFor x d) (hfactor : factor.IsExact)
    (hq : q.value.isExact) (h : multiplyBy product factor s = .ok q) :
    q.StandsFor (x * factor.coherentValue.value) (d + factor.unit.exponent) := by
  cases product with
  | none =>
    obtain rfl := Except.ok.inj h
    obtain rfl : x = 1 := Number.exact.inj (hproduct.value.symm.trans Quantity.standsFor_one.value)
    obtain rfl : d = 0 := hproduct.exponent.symm.trans Quantity.standsFor_one.exponent
    rw [one_mul, zero_add]
    exact hfactor.standsFor
  | some p => exact Quantity.StandsFor.mul hproduct hfactor.standsFor hq (multiplyBy_some h)

/-- **One more factor** multiplies the coherent value by that of its meaning and adds its exponents,
also where it is adopted as a unit. -/
theorem nextProduct?_standsFor {product : Option Quantity} {e : Expr} {m q : Quantity}
    (hproduct : (product.getD (.plain (.ofInt 1))).StandsFor x d)
    (hm : meaning? l env e = some m) (hexact : m.IsExact) (hq : q.value.isExact)
    (h : nextProduct? l env depth product e = some q) :
    q.StandsFor (x * m.coherentValue.value) (d + m.unit.exponent) := by
  rcases nextProduct?_cases h with hadopt | ⟨factor, hfactor, hproduct'⟩
  · obtain ⟨p, n, u, rfl, rfl, hplain, hu, rfl⟩ := adoptUnit?_eq_some hadopt
    obtain rfl := meaning?_name hu hm
    exact Quantity.StandsFor.adopt hproduct hplain hexact.standsFor
  · rcases hfactor with hthing | ⟨hthing, hvalue⟩
    · rw [meaning?, hthing] at hm
      obtain rfl := Option.some.inj hm
      exact multiplyBy_standsFor hproduct hexact hq hproduct'
    · rw [meaning?, hthing, eval_of_quantity hvalue] at hm
      obtain rfl := Option.some.inj hm
      exact multiplyBy_standsFor hproduct hexact hq hproduct'

/-- A product is exact only if it was so before each factor. -/
theorem isExact_of_nextProduct? {p q : Quantity} {e : Expr} (hq : q.value.isExact)
    (h : nextProduct? l env depth (some p) e = some q) : p.value.isExact := by
  rcases nextProduct?_cases h with hadopt | ⟨factor, -, hproduct⟩
  · obtain ⟨p', n, u, hp, -, -, -, rfl⟩ := adoptUnit?_eq_some hadopt
    obtain rfl := Option.some.inj hp
    exact hq
  · exact Quantity.isExact_of_mul hq (multiplyBy_some hproduct)

theorem isExact_of_evalFactors {es : List Expr} {p q : Quantity} {i : Nat}
    (hq : q.value.isExact) (h : evalFactors l env depth i (some p) es = .ok q) :
    p.value.isExact := by
  induction es generalizing p i with
  | nil =>
    rw [evalFactors] at h
    obtain rfl := Except.ok.inj h
    exact hq
  | cons e es ih =>
    obtain ⟨p', hp', hrest⟩ := evalFactors_cons_eq_ok h
    exact isExact_of_nextProduct? (ih hrest) hp'

/-! ## All factors -/

/-- The meanings of factors. -/
def meanings (l : Library) (env : Environment) (factors : List Expr) : List Quantity :=
  factors.filterMap (meaning? l env)

theorem evalFactors_standsFor {es : List Expr} {product : Option Quantity} {q : Quantity} {i : Nat}
    (hes : ∀ e ∈ es, IsExactFactor l env e)
    (hproduct : (product.getD (.plain (.ofInt 1))).StandsFor x d) (hq : q.value.isExact)
    (h : evalFactors l env depth i product es = .ok q) :
    q.StandsFor (x * ((meanings l env es).map fun m => m.coherentValue.value).prod)
      (d + ((meanings l env es).map fun m => m.unit.exponent).sum) := by
  induction es generalizing product x d i with
  | nil =>
    rw [evalFactors] at h
    obtain rfl := Except.ok.inj h
    simpa [meanings] using hproduct
  | cons e es ih =>
    obtain ⟨⟨m, hm, hexact⟩, hes⟩ := List.forall_mem_cons.1 hes
    obtain ⟨p, hp, hrest⟩ := evalFactors_cons_eq_ok h
    have hpExact := isExact_of_evalFactors hq hrest
    have hnext : ((some p).getD (.plain (.ofInt 1))).StandsFor _ _ :=
      nextProduct?_standsFor hproduct hm hexact hpExact hp
    have hwhole := ih hes hnext hrest
    rw [meanings, List.filterMap_cons_some hm]
    rwa [List.map_cons, List.map_cons, List.prod_cons, List.sum_cons, ← mul_assoc, ← add_assoc]

/-- The value of a chain is the product of its factors, whatever the way to it. -/
theorem product_standsFor {factors : List Expr} {q : Quantity}
    (hfactors : ∀ e ∈ factors, IsExactFactor l env e) (hq : q.value.isExact)
    (h : (product factors).eval l env = .quantity q) :
    q.StandsFor ((meanings l env factors).map fun m => m.coherentValue.value).prod
      ((meanings l env factors).map fun m => m.unit.exponent).sum := by
  have hvalue : ((product factors).eval l env).Fits fun q =>
      evalFactors l env 1 1 none factors = .ok q := fits_product fun q hq => hq
  rw [h] at hvalue
  have hone : ((none : Option Quantity).getD (.plain (.ofInt 1))).StandsFor 1 0 :=
    Quantity.standsFor_one
  have hproduct := evalFactors_standsFor hfactors hone hq hvalue
  rwa [one_mul, zero_add] at hproduct

/-- **A chain of factors means their product, in any order.** Let every factor mean an exact quantity
on its own, in a unit of an exact scale that starts at zero. If the chain has an exact value, that is
the product of the coherent values of the factors, with the sum of their exponents. So all orders of
the factors that have exact values agree in the coherent value, the dimension and the number of
things of each name, and in the whole map of these under a library that builds units, such as the
standard one. -/
theorem product_of_factors {factors : List Expr}
    (hfactors : ∀ e ∈ factors, IsExactFactor l env e) :
    (∀ q, (product factors).eval l env = .quantity q → q.value.isExact →
      q.coherentValue =
        .exact ((meanings l env factors).map fun m => m.coherentValue.value).prod ∧
      q.unit.exponent = ((meanings l env factors).map fun m => m.unit.exponent).sum) ∧
    (∀ factors' q q', factors.Perm factors' →
      (product factors).eval l env = .quantity q → q.value.isExact →
      (product factors').eval l env = .quantity q' → q'.value.isExact →
        q'.coherentValue = q.coherentValue ∧ q'.unit.dimension = q.unit.dimension ∧
        (∀ name, q'.unit.adHoc.get name = q.unit.adHoc.get name) ∧
        (l.Builds → q'.unit.adHoc = q.unit.adHoc)) ∧
    standardLibrary.Builds := by
  refine ⟨fun q h hq => ?_, fun factors' q q' hperm h hq h' hq' => ?_, builds_standardLibrary⟩
  · have hproduct := product_standsFor hfactors hq h
    exact ⟨hproduct.value, hproduct.exponent⟩
  · have hproduct := product_standsFor hfactors hq h
    have hproduct' := product_standsFor (fun e he => hfactors e (hperm.mem_iff.2 he)) hq' h'
    have hmeanings : (meanings l env factors).Perm (meanings l env factors') :=
      hperm.filterMap _
    have hexponent : q'.unit.exponent = q.unit.exponent := by
      rw [hproduct.exponent, hproduct'.exponent, (hmeanings.map _).sum_eq]
    refine ⟨?_, MeasureUnit.dimension_eq_of_exponent hexponent,
      fun name => congrFun hexponent (.inr name), ?_⟩
    · rw [hproduct.value, hproduct'.value, (hmeanings.map _).prod_eq]
    · intro hl
      exact (built_of_eval hl h').reduced.ext (built_of_eval hl h).reduced
        fun name => congrFun hexponent (.inr name)

/-- Two apples, three times, and in another order. -/
theorem product_of_apples :
    let factors : List Expr := [.int 2, .quote " apples ", .int 3]
    let reordered : List Expr := [.quote " apples ", .int 3, .int 2]
    (∀ e ∈ factors, IsExactFactor standardLibrary ⟨{}, default⟩ e) ∧
    ∃ q q', (product factors).eval standardLibrary ⟨{}, default⟩ = .quantity q ∧
      (product reordered).eval standardLibrary ⟨{}, default⟩ = .quantity q' ∧
      q.value.isExact ∧ q'.value.isExact ∧ q.unit.exponent (.inr "apples") = 1 ∧
      q'.coherentValue = q.coherentValue ∧ q'.unit.adHoc = q.unit.adHoc := by
  intro factors reordered
  have hfactors : ∀ e ∈ factors, IsExactFactor standardLibrary ⟨{}, default⟩ e := by
    simp only [factors, List.forall_mem_cons]
    refine ⟨⟨_, rfl, ?_⟩, ⟨_, rfl, ?_⟩, ⟨_, rfl, ?_⟩, List.forall_mem_nil _⟩ <;>
      exact ⟨rfl, rfl, rfl, rfl⟩
  obtain ⟨hq, hq'⟩ : ((product factors).eval standardLibrary ⟨{}, default⟩).quantity?.any
        (fun q => q.value.isExact && q.unit.exponent (.inr "apples") == 1) ∧
      ((product reordered).eval standardLibrary ⟨{}, default⟩).quantity?.any (·.value.isExact) := by
    decide +kernel
  obtain ⟨q, hvalue, hq⟩ := (Option.any_eq_true _ _).1 hq
  obtain ⟨q', hvalue', hq'⟩ := (Option.any_eq_true _ _).1 hq'
  rw [Bool.and_eq_true, beq_iff_eq] at hq
  have hvalue := quantity?_eq_some hvalue
  have hvalue' := quantity?_eq_some hvalue'
  have hperm : factors.Perm reordered := (List.Perm.swap _ _ _).trans ((List.Perm.swap _ _ _).cons _)
  obtain ⟨-, horder, hbuilds⟩ := product_of_factors hfactors
  obtain ⟨hcoherent, -, -, hadHoc⟩ := horder reordered q q' hperm hvalue hq.1 hvalue' hq'
  exact ⟨hfactors, q, q', hvalue, hvalue', hq.1, hq', hq.2, hcoherent, hadHoc hbuilds⟩

end Expr

end Reckoner
