import Reckoner.Proofs.Expr.Quantities
import Reckoner.Proofs.Number.Nonzero
import Reckoner.Proofs.Quantity

/-!
# Exact answers

An arithmetic expression has a value in rational arithmetic without limits (`Expr.value?`).
Evaluation rounds what grows too long, and keeps track of it: an exact number is the value of its
expression, an approximate one makes no claim (`Number.TrueTo`).

One operation loses track. The zeroth power and the powers of zero are exact whatever the base has
been rounded from, so that a base which is zero only by rounding, or which has no value at all,
gives an exact power (`Number.Forgets`). Such a power is never the right one
(`Number.Forgets.power_ne`). Without one in it, an expression that evaluates to an exact number has
that value:

    e.eval l env = .quantity q   →   q.value = .exact r   →   e.value? = some r
-/

namespace Reckoner

/-! ## Numbers -/

/-- A power of a rational, with `0 ^ 0 = 1`; there is none of 0 with a negative exponent. -/
def ratPow? (b : Rat) (n : Int) : Option Rat := if b = 0 ∧ n < 0 then none else some (b ^ n)

/-- A quotient of rationals. -/
def ratDiv? (a b : Rat) : Option Rat := if b = 0 then none else some (a / b)

namespace Number

variable {x y z : Number} {u v : Option Rat} {r : Rat} {n : Int} {s : Settings}

/-- The number is approximate, or it is the given value. -/
def TrueTo (x : Number) (value : Option Rat) : Prop := ∀ r, x = exact r → value = some r

/-- The power of a base with the given value is exact although the base has been rounded, and the
value does not bear it out. -/
def Forgets (base : Number) (value : Option Rat) (n : Int) : Prop :=
  base.isExact = false ∧
    (n = 0 ∧ value = none ∨ 0 < n ∧ base.isZero ∧ value ≠ some 0)

theorem trueTo_exact (r : Rat) : (exact r).TrueTo (some r) := by
  intro r' h
  cases h
  rfl

namespace TrueTo

theorem withinLimits (hx : x.TrueTo v) (h : x.withinLimits s = .ok y) : y.TrueTo v := by
  rintro r rfl
  exact hx r (withinLimits_eq_exact h)

theorem neg (hx : x.TrueTo v) : x.neg.TrueTo (v.map (- ·)) := by
  intro r h
  cases x with
  | approx d => cases h
  | exact a =>
    cases h
    rw [hx a rfl]
    rfl

/-- An operation on rationals that is approximate only on approximate operands. -/
theorem lift₂ {onRat : Rat → Rat → Rat} {onDecimal : Decimal → Decimal → Decimal}
    (hx : x.TrueTo u) (hy : y.TrueTo v) :
    (lift₂ onRat onDecimal x y).TrueTo (.map₂ onRat u v) := by
  intro r h
  obtain ⟨a, b, rfl, rfl, rfl⟩ := lift₂_eq_exact h
  rw [hx a rfl, hy b rfl]
  rfl

theorem div (hx : x.TrueTo u) (hy : y.TrueTo v) (h : x.div y = .ok z) :
    z.TrueTo (do ratDiv? (← u) (← v)) := by
  rintro r rfl
  obtain ⟨hzero, hz⟩ := div_eq_ok h
  obtain ⟨a, b, rfl, rfl, rfl⟩ := lift₂_eq_exact hz.symm
  rw [hx a rfl, hy b rfl]
  exact if_neg (isZero_exact_eq_false.1 hzero)

/-- An exact power is that of the value of the base, unless the base has been rounded and the value
does not bear it out. -/
theorem power (hx : x.TrueTo v) (hpower : ExactPower x n r) (hsure : ¬ x.Forgets v n) :
    v.bind (ratPow? · n) = some r := by
  -- Of a rounded base nothing is known but that it does not forget.
  have hcases : x.isExact = false ∨ ∃ b, x = exact b ∧ v = some b := by
    cases x with
    | approx d => exact .inl rfl
    | exact b => exact .inr ⟨b, rfl, hx b rfl⟩
  cases hpower with
  | zeroth =>
    have hvalue : v ≠ none := by
      rintro rfl
      rcases hcases with hrounded | ⟨b, -, hb⟩
      · exact hsure ⟨hrounded, .inl ⟨rfl, rfl⟩⟩
      · cases hb
    obtain ⟨b, rfl⟩ := Option.ne_none_iff_exists'.1 hvalue
    show ratPow? b 0 = some 1
    rw [ratPow?, if_neg (fun h => absurd h.2 (by decide)), zpow_zero]
  | ofZero hzero hn =>
    have hvalue : v = some 0 := by
      rcases hcases with hrounded | ⟨b, rfl, hb⟩
      · by_contra hvalue
        exact hsure ⟨hrounded, .inr ⟨hn, hzero, hvalue⟩⟩
      · rw [hb, of_decide_eq_true hzero]
    rw [hvalue]
    show ratPow? 0 n = some 0
    rw [ratPow?, if_neg (by omega), zero_zpow n (by omega)]
  | @ofExact b hb =>
    rw [hx b rfl]
    exact if_neg fun h => hb h.1

end TrueTo

/-- A power that forgets is never the power of the value of its base. -/
theorem Forgets.power_ne (h : x.Forgets v n) (hpower : ExactPower x n r) :
    v.bind (ratPow? · n) ≠ some r := by
  obtain ⟨hrounded, hcases⟩ := h
  intro hvalue
  obtain ⟨b, rfl, hb⟩ := Option.bind_eq_some_iff.1 hvalue
  cases hpower with
  | zeroth =>
    rcases hcases with ⟨-, hnone⟩ | ⟨hn, -⟩
    · cases hnone
    · exact absurd hn (by decide)
  | ofZero _ hn =>
    rcases hcases with ⟨rfl, -⟩ | ⟨-, -, hne⟩
    · exact absurd hn (by decide)
    · rw [ratPow?, if_neg (by omega), Option.some.injEq] at hb
      exact hne (congrArg some (eq_zero_of_zpow_eq_zero hb))
  | ofExact => cases hrounded

end Number

/-! ## Plain quantities -/

namespace Quantity

variable {x y : Number} {u v : Option Rat} {n : Int} {p : Nat} {s : Settings} {q : Quantity}

/-- A plain number that is true to a value. -/
def PlainTrueTo (q : Quantity) (value : Option Rat) : Prop :=
  ∃ x, q = .plain x ∧ x.TrueTo value

/-- Plain numbers are added, multiplied and divided as numbers, and the result is kept within the
limits. -/
theorem plainTrueTo_of_withinLimits (hx : x.TrueTo v)
    (h : (do return plain (← liftNumber (x.withinLimits s))) = .ok q) : q.PlainTrueTo v := by
  simp only [bind_eq_ok_iff, pure_eq_ok_iff, liftNumber_eq_ok_iff] at h
  obtain ⟨y, hy, rfl⟩ := h
  exact ⟨y, rfl, hx.withinLimits hy⟩

namespace PlainTrueTo

variable {a b : Quantity}

theorem add (ha : a.PlainTrueTo u) (hb : b.PlainTrueTo v) (h : a.add b s = .ok q) :
    q.PlainTrueTo (.map₂ (· + ·) u v) := by
  obtain ⟨x, rfl, hx⟩ := ha
  obtain ⟨y, rfl, hy⟩ := hb
  exact plainTrueTo_of_withinLimits (hx.lift₂ hy) h

theorem sub (ha : a.PlainTrueTo u) (hb : b.PlainTrueTo v) (h : a.sub b s = .ok q) :
    q.PlainTrueTo (.map₂ (· - ·) u v) := by
  obtain ⟨x, rfl, hx⟩ := ha
  obtain ⟨y, rfl, hy⟩ := hb
  exact plainTrueTo_of_withinLimits (hx.lift₂ hy) h

theorem mul (ha : a.PlainTrueTo u) (hb : b.PlainTrueTo v) (h : a.mul b s = .ok q) :
    q.PlainTrueTo (.map₂ (· * ·) u v) := by
  obtain ⟨x, rfl, hx⟩ := ha
  obtain ⟨y, rfl, hy⟩ := hb
  exact plainTrueTo_of_withinLimits (hx.lift₂ hy) h

theorem div (ha : a.PlainTrueTo u) (hb : b.PlainTrueTo v) (h : a.div b s = .ok q) :
    q.PlainTrueTo (do ratDiv? (← u) (← v)) := by
  obtain ⟨x, rfl, hx⟩ := ha
  obtain ⟨y, rfl, hy⟩ := hb
  have hvalue : (do return plain (← liftNumber (do (← x.div y).withinLimits s))) = .ok q := h
  simp only [bind_eq_ok_iff, pure_eq_ok_iff, liftNumber_eq_ok_iff] at hvalue
  obtain ⟨w, ⟨z, hz, hw⟩, rfl⟩ := hvalue
  exact ⟨w, rfl, (hx.div hy hz).withinLimits hw⟩

end PlainTrueTo

/-- A power of a plain number by a whole one, rounded or not, is plain, and exact only as one of the
powers that are. -/
theorem pow_plain_whole (hy : y = .ofInt n ∨ y = (Number.ofInt n).toApprox p)
    (h : (plain x).pow (plain y) s = .ok q) :
    ∃ z, q = plain z ∧ ∀ r, z = .exact r → Number.ExactPower x n r := by
  -- An exponent that has been rounded takes the way of real powers.
  rcases hy with rfl | rfl
  · rw [pow_plain rfl rfl] at h
    obtain ⟨power, hunit, hpower, hvalue⟩ := powInt_cases rfl h
    have hplain : q.unit = .dimensionless := by
      rw [MeasureUnit.power, if_pos (.inr rfl)] at hunit
      exact (Except.ok.inj hunit).symm
    refine ⟨q.value, ?_, ?_⟩
    · rw [plain, ← hplain]
    · intro r hr
      rw [hr] at hvalue
      rw [Number.withinLimits_eq_exact hvalue] at hpower
      exact Number.exactPower_of_powInt hpower
  · obtain ⟨-, power, value, hpower, hvalue, rfl⟩ := pow_plain_approx h
    refine ⟨value, rfl, ?_⟩
    rintro r rfl
    rw [Number.withinLimits_eq_exact hvalue] at hpower
    exact Number.exactPower_of_powReal hpower

end Quantity

/-! ## Expressions -/

namespace Expr

mutual

/-- The value of an arithmetic expression in rational arithmetic. There is none where something is
divided by zero. -/
@[simp] def value? : Expr → Option Rat
  | const parts => (Number.ofParts parts).toOption.bind Number.rat?
  | unary .negative e => e.value?.map (- ·)
  | binary .add a b => .map₂ (· + ·) a.value? b.value?
  | binary .sub a b => .map₂ (· - ·) a.value? b.value?
  | binary .frac a b => do ratDiv? (← a.value?) (← b.value?)
  | binary .pow a (const parts) => do ratPow? (← a.value?) (← parts.whole?)
  | product factors => productValue? factors
  | _ => none

/-- The product of the values of factors. -/
def productValue? : List Expr → Option Rat
  | [] => some 1
  | e :: es => .map₂ (· * ·) e.value? (productValue? es)

end

/-- The expressions of rational literals: negatives, sums, differences, quotients, powers with a
whole literal exponent, and products. -/
inductive IsArithmetic : Expr → Prop where
  | const {parts : NumberParts} {r : Rat} (h : Number.ofParts parts = .ok (.exact r)) :
    IsArithmetic (.const parts)
  | negative {e : Expr} (he : IsArithmetic e) : IsArithmetic (.unary .negative e)
  | add {a b : Expr} (ha : IsArithmetic a) (hb : IsArithmetic b) : IsArithmetic (.binary .add a b)
  | sub {a b : Expr} (ha : IsArithmetic a) (hb : IsArithmetic b) : IsArithmetic (.binary .sub a b)
  | frac {a b : Expr} (ha : IsArithmetic a) (hb : IsArithmetic b) :
    IsArithmetic (.binary .frac a b)
  | pow {a : Expr} {parts : NumberParts} {n : Int} (ha : IsArithmetic a)
    (hn : Number.ofParts parts = .ok (.ofInt n)) : IsArithmetic (.binary .pow a (.const parts))
  | product {factors : List Expr} (h : ∀ e ∈ factors, IsArithmetic e) :
    IsArithmetic (.product factors)

/-- A path leads to a power that forgets that its base was rounded. -/
def ForgetsAt (l : Library) (env : Environment) (depth : Nat) (e : Expr) (path : List Step) :
    Prop :=
  ∃ a parts n x, e = plug path (.binary .pow a (.const parts)) ∧ parts.whole? = some n ∧
    a.evalAt l env (depth + path.length + 1) = .quantity (.plain x) ∧ x.Forgets a.value? n

variable {l : Library} {env : Environment} {depth : Nat}

theorem ForgetsAt.step {e : Expr} {path : List Step} (step : Step)
    (h : ForgetsAt l env (depth + 1) e path) :
    ForgetsAt l env depth (step.plug e) (step :: path) := by
  obtain ⟨a, parts, n, x, he, hn, hvalue, hforgets⟩ := h
  refine ⟨a, parts, n, x, by rw [he]; rfl, hn, ?_, hforgets⟩
  have hdepth : depth + (step :: path).length = depth + 1 + path.length := by
    rw [List.length_cons]
    omega
  rw [hdepth, hvalue]

/-- The value is a plain number that is true to the expression, or an error. -/
def IsTrue (l : Library) (env : Environment) (depth : Nat) (e : Expr) : Prop :=
  (e.evalAt l env depth).Fits fun q => q.PlainTrueTo e.value?

/-! ### Literals and powers -/

theorem isTrue_const {parts : NumberParts} {r : Rat}
    (h : Number.ofParts parts = .ok (.exact r)) : IsTrue l env depth (.const parts) := by
  refine fits_literal fun x y hx hy => ⟨y, rfl, ?_⟩
  rw [h] at hx
  cases hx
  have hvalue : (Expr.const parts).value? = some r := by
    rw [value?, h]
    rfl
  rw [hvalue]
  exact (Number.trueTo_exact r).withinLimits hy

/-- A whole literal may be rounded itself. -/
theorem fits_exponent {parts : NumberParts} {n : Int}
    (h : Number.ofParts parts = .ok (.ofInt n)) :
    ((const parts).evalAt l env depth).Fits fun q => ∃ y, q = .plain y ∧
      (y = .ofInt n ∨ y = (Number.ofInt n).toApprox env.settings.precision) := by
  refine fits_literal fun x y hx hy => ⟨y, rfl, ?_⟩
  rw [h] at hx
  cases hx
  exact Number.withinLimits_cases hy

theorem isTrue_pow {a : Expr} {parts : NumberParts} {n : Int}
    (hn : Number.ofParts parts = .ok (.ofInt n)) (ha : IsTrue l env (depth + 1) a)
    (hsure : ¬ ForgetsAt l env depth (.binary .pow a (.const parts)) []) :
    IsTrue l env depth (.binary .pow a (.const parts)) := by
  have hwhole : parts.whole? = some n := whole?_eq_some_iff.2 ⟨_, hn, rfl⟩
  refine fits_binary (fun p q => p.pow q _) (fun _ _ => rfl) ha.eq_and (fits_exponent hn) ?_
  rintro p _ q ⟨hvalue, x, rfl, hx⟩ ⟨y, rfl, hy⟩ hq
  obtain ⟨z, rfl, hz⟩ := Quantity.pow_plain_whole hy hq
  refine ⟨z, rfl, fun r hr => ?_⟩
  have hforgets : ¬ x.Forgets a.value? n := fun hforgets =>
    hsure ⟨a, parts, n, x, rfl, hwhole, hvalue, hforgets⟩
  rw [value?, hwhole]
  exact hx.power (hz r hr) hforgets

/-! ### Products -/

/-- No factor of an arithmetic product is a unit or counts things. -/
theorem IsArithmetic.nextProduct? {e : Expr} (he : e.IsArithmetic) (product : Option Quantity) :
    nextProduct? l env depth product e = (e.evalAt l env depth).quantity?.bind fun factor =>
      (multiplyBy product factor env.settings).toOption := by
  have hadopt : adoptUnit? product e = none := by
    cases he <;> cases product <;> rfl
  have hcounted : countedThing? e = none := by
    cases he <;> rfl
  rw [Expr.nextProduct?]
  simp only [hadopt, hcounted]

theorem multiplyBy_plainTrueTo {product : Option Quantity} {factor q : Quantity}
    {u v : Option Rat} {s : Settings}
    (hproduct : (product.getD (.plain (.ofInt 1))).PlainTrueTo u) (hfactor : factor.PlainTrueTo v)
    (h : multiplyBy product factor s = .ok q) : q.PlainTrueTo (.map₂ (· * ·) u v) := by
  cases product with
  | none =>
    obtain rfl := Except.ok.inj h
    obtain ⟨x, hx, hone⟩ := hproduct
    cases hx
    rw [hone 1 rfl]
    simpa using hfactor
  | some p => exact hproduct.mul hfactor (multiplyBy_some h)

theorem evalFactors_plainTrueTo {factors : List Expr} {product : Option Quantity} {q : Quantity}
    {u : Option Rat} {i : Nat} (hfactors : ∀ e ∈ factors, e.IsArithmetic ∧ IsTrue l env depth e)
    (hproduct : (product.getD (.plain (.ofInt 1))).PlainTrueTo u)
    (h : evalFactors l env depth i product factors = .ok q) :
    q.PlainTrueTo (.map₂ (· * ·) u (productValue? factors)) := by
  induction factors generalizing product i u with
  | nil =>
    rw [evalFactors] at h
    obtain rfl := Except.ok.inj h
    rw [productValue?]
    simpa using hproduct
  | cons e es ih =>
    obtain ⟨⟨he, hvalue⟩, hes⟩ := List.forall_mem_cons.1 hfactors
    obtain ⟨p, hp, hrest⟩ := evalFactors_cons_eq_ok h
    rw [he.nextProduct?] at hp
    obtain ⟨factor, hfactor, hmul⟩ := Option.bind_eq_some_iff.1 hp
    rw [IsTrue, quantity?_eq_some hfactor] at hvalue
    have hnext : ((some p).getD (.plain (.ofInt 1))).PlainTrueTo (.map₂ (· * ·) u e.value?) :=
      multiplyBy_plainTrueTo hproduct hvalue (toOption_eq_some_iff.1 hmul)
    rw [productValue?, ← Option.map₂_assoc mul_assoc]
    exact ih hes hnext hrest

/-! ### Trees -/

/-- By induction on the expression. A child sees the paths of its node without their first step, so
that a node which forgets nothing has children which forget nothing. -/
theorem isTrue_of_isArithmetic {e : Expr} (he : e.IsArithmetic) (depth : Nat)
    (hsure : ∀ path, ¬ ForgetsAt l env depth e path) : IsTrue l env depth e := by
  induction he generalizing depth with
  | const h => exact isTrue_const h
  | @negative e _ ih =>
    have he := ih _ fun path h => hsure _ (h.step (.operand .negative))
    refine fits_unary he ?_
    rintro _ ⟨x, rfl, hx⟩
    exact ⟨x.neg, rfl, by rw [value?]; exact hx.neg⟩
  | @add a b _ _ iha ihb =>
    have ha := iha _ fun path h => hsure _ (h.step (.left .add b))
    have hb := ihb _ fun path h => hsure _ (h.step (.right .add a))
    refine fits_binary (fun p q => p.add q _) (fun _ _ => rfl) ha hb ?_
    intro p q r hp hq hr
    rw [value?]
    exact hp.add hq hr
  | @sub a b _ _ iha ihb =>
    have ha := iha _ fun path h => hsure _ (h.step (.left .sub b))
    have hb := ihb _ fun path h => hsure _ (h.step (.right .sub a))
    refine fits_binary (fun p q => p.sub q _) (fun _ _ => rfl) ha hb ?_
    intro p q r hp hq hr
    rw [value?]
    exact hp.sub hq hr
  | @frac a b _ _ iha ihb =>
    have ha := iha _ fun path h => hsure _ (h.step (.left .frac b))
    have hb := ihb _ fun path h => hsure _ (h.step (.right .frac a))
    refine fits_binary (fun p q => p.div q _) (fun _ _ => rfl) ha hb ?_
    intro p q r hp hq hr
    rw [value?]
    exact hp.div hq hr
  | @pow a parts n _ hn ih =>
    have ha := ih _ fun path h => hsure _ (h.step (.left .pow (.const parts)))
    exact isTrue_pow hn ha (hsure [])
  | @product factors hfactors ih =>
    refine fits_product fun q hvalue => ?_
    have htrue : ∀ e ∈ factors, e.IsArithmetic ∧ IsTrue l env (depth + 1) e := by
      intro e he
      obtain ⟨before, after, rfl⟩ := List.append_of_mem he
      exact ⟨hfactors e he, ih e he _ fun path h => hsure _ (h.step (.factor before after))⟩
    have hone : ((none : Option Quantity).getD (.plain (.ofInt 1))).PlainTrueTo (some 1) :=
      ⟨.ofInt 1, rfl, Number.trueTo_exact 1⟩
    have hq := evalFactors_plainTrueTo htrue hone hvalue
    rw [value?]
    simpa using hq

/-- **An exact answer is right unless a power forgets.** If an arithmetic expression evaluates to an
exact number, under any settings, then that is its value, or a power in it is exact although its
base was rounded and does not have the value that the rounded one suggests. -/
theorem exact_value_of_eval {e : Expr} {q : Quantity} {r : Rat} (he : e.IsArithmetic)
    (h : e.eval l env = .quantity q) (hq : q.value = .exact r) :
    e.value? = some r ∨ ∃ path, ForgetsAt l env 0 e path := by
  by_cases hsure : ∃ path, ForgetsAt l env 0 e path
  · exact .inr hsure
  · have hvalue : (e.eval l env).Fits _ :=
      isTrue_of_isArithmetic he 0 fun path hpath => hsure ⟨path, hpath⟩
    rw [h] at hvalue
    obtain ⟨x, rfl, hx⟩ := hvalue
    exact .inl (hx r hq)

/-- A product with the square of a sum of fractions. -/
theorem exact_value_of_square :
    let e : Expr := .product
      [.binary .pow (.binary .add (.fraction 1 3) (.fraction 1 6)) (.int 2), .int 4]
    e.IsArithmetic ∧ ∃ q, e.eval {} ⟨{}, default⟩ = .quantity q ∧ q.value = .exact 1 ∧
      (e.value? = some 1 ∨ ∃ path, ForgetsAt {} ⟨{}, default⟩ 0 e path) := by
  intro e
  have hthird : Number.ofParts (.fraction 1 3) = .ok (.exact (1 / 3)) := by decide +kernel
  have hsixth : Number.ofParts (.fraction 1 6) = .ok (.exact (1 / 6)) := by decide +kernel
  have htwo : Number.ofParts (.integer 2) = .ok (.ofInt 2) := by decide +kernel
  have hfour : Number.ofParts (.integer 4) = .ok (.exact 4) := by decide +kernel
  have he : e.IsArithmetic := by
    refine .product ?_
    simp only [List.forall_mem_cons]
    exact ⟨.pow (.add (.const hthird) (.const hsixth)) htwo, .const hfour, nofun⟩
  have heval : (e.eval {} ⟨{}, default⟩).quantity?.map Quantity.value = some (.exact 1) := by
    decide +kernel
  obtain ⟨q, hq, hvalue⟩ := Option.map_eq_some_iff.1 heval
  exact ⟨he, q, quantity?_eq_some hq, hvalue, exact_value_of_eval he (quantity?_eq_some hq) hvalue⟩

/-- The difference of a number that is too long to be kept exactly and its successor, to the first:
the difference is zero on rounded numbers, and its power an exact zero. -/
theorem exact_power_of_rounded_difference :
    let e : Expr := .binary .pow
      (.binary .sub (.binary .add (.binary .pow (.int 2) (.int 5000)) (.int 1))
        (.binary .pow (.int 2) (.int 5000)))
      (.int 1)
    e.IsArithmetic ∧ e.eval {} ⟨{}, default⟩ = .quantity (.plain (.exact 0)) ∧
      e.value? = some 1 := by
  intro e
  have hone : Number.ofParts (.integer 1) = .ok (.ofInt 1) := by decide +kernel
  have htwo : Number.ofParts (.integer 2) = .ok (.exact 2) := by decide +kernel
  have hexponent : Number.ofParts (.integer 5000) = .ok (.ofInt 5000) := by decide +kernel
  have hpower : IsArithmetic (.binary .pow (.int 2) (.int 5000)) := .pow (.const htwo) hexponent
  refine ⟨.pow (.sub (.add hpower (.const hone)) hpower) hone, ?_, by decide +kernel⟩
  have heval : (e.eval {} ⟨{}, default⟩).quantity? = some (.plain (.exact 0)) := by
    decide +kernel
  exact quantity?_eq_some heval

end Expr

end Reckoner
