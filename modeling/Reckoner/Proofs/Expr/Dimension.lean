import Reckoner.Proofs.Expr.Quantities
import Reckoner.Proofs.Quantity
import Reckoner.Proofs.Unit.Extent

/-!
# Dimensions of expressions

The dimension of an expression can be told from its units alone (`Expr.dimension?`): sums need equal
dimensions, products add them, quotients subtract them, whole powers multiply them, and a quoted
name is a dimension of its own. No number but the exponents is looked at, and no exponent is too
large.

Evaluation agrees with it. If an expression of numbers and units evaluates to a quantity, then it
has a dimension, and it is that of the quantity:

    e.eval l env = .quantity q   →   e.dimension? = some q.unit.extent

For every operation on quantities one lemma says so of its result, whichever way it takes
(`Quantity.HasExtent`); the theorem is their composition along the tree
(`Expr.respects_of_isMeasured`).
-/

namespace Reckoner

/-! ## Quantities -/

/-- A quantity in a regular unit of the given extent. -/
structure Quantity.HasExtent (q : Quantity) (d : Extent) : Prop where
  extent : q.unit.extent = d
  regular : q.unit.Regular

namespace Quantity

variable {a b b' q : Quantity} {d e : Extent} {s : Settings}

theorem hasExtent_plain (x : Number) : (plain x).HasExtent 0 where
  extent := MeasureUnit.extent_of_isDimensionless rfl
  regular := MeasureUnit.regular_new ..

namespace HasExtent

theorem eq_zero (h : q.HasExtent d) (hplain : q.isPlain) : d = 0 := by
  rw [← h.extent]
  exact MeasureUnit.extent_of_isUnity hplain

theorem fold (h : q.HasExtent d) : q.fold.HasExtent d := by
  rcases q.fold_cases with hfold | ⟨hdimensionless, hfold⟩
  · rw [hfold]
    exact h
  · have hzero : d = 0 := by
      rw [← h.extent]
      exact MeasureUnit.extent_of_isDimensionless hdimensionless
    rw [hfold, hzero]
    exact hasExtent_plain _

theorem alignedWith (ha : a.HasExtent d) (hb : b.HasExtent e) (h : b.alignedWith a = .ok b') :
    b'.HasExtent e := by
  rcases alignedWith_cases h with rfl | ⟨hcompatible, value, -, rfl⟩
  · exact hb
  · refine ⟨?_, ha.regular⟩
    rw [← hb.extent]
    exact (MeasureUnit.extent_of_isCompatible hcompatible).symm

/-- The operands of a sum have one extent, which is that of the sum. With an offset on one side both
are temperatures, so that the sum may be one in kelvin. -/
theorem addWith {op : Number → Number → Number} {kind : MeasureUnit.Combination}
    (hkind : kind = .add ∨ kind = .sub) (ha : a.HasExtent d) (hb : b.HasExtent e)
    (h : Quantity.addWith op kind a b s = .ok q) : d = e ∧ q.HasExtent d := by
  obtain ⟨u, hu, h⟩ := bind_eq_ok_iff.1 h
  obtain ⟨hcompatible, rfl⟩ := combine_add_cases hkind hu
  obtain rfl : d = e := by
    rw [← ha.extent, ← hb.extent]
    exact MeasureUnit.extent_of_isCompatible hcompatible
  refine ⟨rfl, ?_⟩
  -- With an offset the sum is one of absolute temperatures, whatever the unit of the operands.
  split at h
  · next hoffset =>
    simp only [bind_eq_ok_iff, pure_eq_ok_iff] at h
    obtain ⟨value, -, rfl⟩ := h
    refine ⟨?_, MeasureUnit.regular_new ..⟩
    rw [hasOffset, Bool.or_eq_true] at hoffset
    rcases hoffset with hoffset | hoffset
    · rw [← ha.extent, ha.regular.offset hoffset]
    · rw [← hb.extent, hb.regular.offset hoffset]
  · simp only [bind_eq_ok_iff, pure_eq_ok_iff] at h
    obtain ⟨right, -, value, -, rfl⟩ := h
    exact ⟨ha.extent, ha.regular⟩

theorem mul (ha : a.HasExtent d) (hb : b.HasExtent e) (h : a.mul b s = .ok q) :
    q.HasExtent (d + e) := by
  simp only [Quantity.mul, MeasureUnit.combine, bind_eq_ok_iff, pure_eq_ok_iff,
    liftNumber_eq_ok_iff] at h
  obtain ⟨b', hb', unit, hunit, value, -, rfl⟩ := h
  have hright := ha.alignedWith hb hb'
  refine fold ⟨?_, ha.regular.multiply hright.regular hunit⟩
  rw [MeasureUnit.extent_multiply hunit, ha.extent, hright.extent]

theorem div (ha : a.HasExtent d) (hb : b.HasExtent e) (h : a.div b s = .ok q) :
    q.HasExtent (d - e) := by
  simp only [Quantity.div, MeasureUnit.combine, bind_eq_ok_iff, pure_eq_ok_iff,
    liftNumber_eq_ok_iff] at h
  obtain ⟨b', hb', value, -, unit, hunit, rfl⟩ := h
  have hright := ha.alignedWith hb hb'
  refine fold ⟨?_, ha.regular.divide hunit⟩
  rw [MeasureUnit.extent_divide hunit, ha.extent, hright.extent]

/-- A power by a plain number multiplies the extent by that number if it is an exact one, and needs
a base without extent if it is not. -/
theorem pow {x : Number} {n : Int} (ha : a.HasExtent d) (hx : ∀ r, x = .exact r → r = n)
    (h : a.pow (plain x) s = .ok q) : q.HasExtent (n • d) := by
  cases x with
  | exact r =>
    have hr : Number.exact r = Number.ofInt n := by rw [hx r rfl, Number.ofInt]
    rw [pow_plain rfl hr] at h
    obtain ⟨power, hunit, -, -⟩ := powInt_cases hr h
    refine ⟨?_, ha.regular.power hunit⟩
    rw [MeasureUnit.extent_power hunit, ha.extent]
  | approx y =>
    obtain ⟨hbase, -, value, -, -, rfl⟩ := pow_plain_approx h
    rw [ha.fold.eq_zero hbase, zsmul_zero]
    exact hasExtent_plain value

end HasExtent

end Quantity

/-! ## Expressions -/

namespace Expr

mutual

/-- The dimension of an expression, from those of its units and quoted names. There is none for a
sum of different dimensions, and none for what is no number with a unit. -/
@[simp] def dimension? : Expr → Option Extent
  | const _ => some 0
  | name n => (standardUnits.lookup? n).map MeasureUnit.extent
  | quote text =>
    if (Text.trimmed text).isEmpty then none else some (Extent.thing (Text.trimmed text))
  | unary _ e => e.dimension?
  | binary .add a b | binary .sub a b => do
    let d ← a.dimension?
    let e ← b.dimension?
    if d = e then some d else none
  | binary .frac a b => return (← a.dimension?) - (← b.dimension?)
  | binary .pow a (const parts) => return (← parts.whole?) • (← a.dimension?)
  | product factors => productDimension? factors
  | _ => none

/-- The sum of the dimensions of factors. -/
def productDimension? : List Expr → Option Extent
  | [] => some 0
  | e :: es => return (← e.dimension?) + (← productDimension? es)

end

/-- A quoted name that is not blank. -/
def isThing : Expr → Bool
  | quote text => !(Text.trimmed text).isEmpty
  | _ => false

/-- The expressions of numbers and units: literals, names of units, signs, sums, quotients, powers
with a literal whole exponent, and products, which may count quoted things. -/
inductive IsMeasured : Expr → Prop where
  | const (parts : NumberParts) : IsMeasured (.const parts)
  | name {n : String} (h : (standardUnits.lookup? n).isSome) : IsMeasured (.name n)
  | unary (op : UnaryOp) {e : Expr} (he : IsMeasured e) : IsMeasured (.unary op e)
  | add {a b : Expr} (ha : IsMeasured a) (hb : IsMeasured b) : IsMeasured (.binary .add a b)
  | sub {a b : Expr} (ha : IsMeasured a) (hb : IsMeasured b) : IsMeasured (.binary .sub a b)
  | frac {a b : Expr} (ha : IsMeasured a) (hb : IsMeasured b) : IsMeasured (.binary .frac a b)
  | pow {a : Expr} {parts : NumberParts} (ha : IsMeasured a) (hn : parts.whole?.isSome) :
    IsMeasured (.binary .pow a (.const parts))
  | product {factors : List Expr}
    (h : ∀ e ∈ factors, e.isThing = false → IsMeasured e) : IsMeasured (.product factors)

variable {l : Library} {env : Environment} {depth : Nat}

/-- The value has the dimension of the expression, if it is a quantity. -/
def Respects (l : Library) (env : Environment) (depth : Nat) (e : Expr) : Prop :=
  (e.evalAt l env depth).Fits fun q => ∃ d, e.dimension? = some d ∧ q.HasExtent d

/-! ### Leaves and signs -/

theorem respects_const (parts : NumberParts) : Respects l env depth (.const parts) := by
  refine fits_literal fun x y _ _ => ?_
  exact ⟨0, by rw [dimension?], Quantity.hasExtent_plain y⟩

theorem respects_name {n : String} (h : (standardUnits.lookup? n).isSome) :
    Respects l env depth (.name n) := by
  obtain ⟨u, hu⟩ := Option.isSome_iff_exists.1 h
  refine fits_node (evalAt.eq_def ..) ?_
  show (l.evalName env n).Fits _
  rw [Library.evalName, hu]
  exact ⟨u.extent, by rw [dimension?, hu]; rfl, rfl, regular_of_lookup? hu⟩

theorem respects_unary {op : UnaryOp} {e : Expr} (he : Respects l env (depth + 1) e) :
    Respects l env depth (.unary op e) := by
  refine fits_unary he ?_
  rintro q ⟨d, hd, hq⟩
  cases op with
  | positive => exact ⟨d, by rw [dimension?, hd], hq⟩
  | negative => exact ⟨d, by rw [dimension?, hd], hq.extent, hq.regular⟩

/-! ### Powers -/

/-- The value of a literal whole number, if it is exact, is that number. -/
theorem fits_whole {parts : NumberParts} {n : Int} (hn : parts.whole? = some n) :
    ((const parts).evalAt l env depth).Fits fun q =>
      ∃ y, q = .plain y ∧ ∀ r, y = .exact r → r = n := by
  refine fits_literal fun x y hx hy => ⟨y, rfl, ?_⟩
  rintro r rfl
  obtain ⟨x', hx', hvalue⟩ := whole?_eq_some_iff.1 hn
  obtain rfl := Except.ok.inj (hx.symm.trans hx')
  obtain rfl := Number.withinLimits_eq_exact hy
  exact hvalue

theorem respects_pow {a : Expr} {parts : NumberParts} (h : parts.whole?.isSome)
    (ha : Respects l env (depth + 1) a) :
    Respects l env depth (.binary .pow a (.const parts)) := by
  obtain ⟨n, hn⟩ := Option.isSome_iff_exists.1 h
  refine fits_binary (fun p q => p.pow q _) (fun _ _ => rfl) ha (fits_whole hn) ?_
  rintro p _ r ⟨d, hd, hp⟩ ⟨y, rfl, hy⟩ hr
  exact ⟨n • d, by simp [dimension?, hn, hd], hp.pow hy hr⟩

/-! ### Products -/

/-- A plain number in front of the name of a unit has no extent of its own. -/
theorem adoptUnit?_hasExtent {product : Option Quantity} {e : Expr} {q : Quantity} {x : Extent}
    (hproduct : (product.getD (.plain (.ofInt 1))).HasExtent x)
    (h : adoptUnit? product e = some q) :
    ∃ y, e.dimension? = some y ∧ q.HasExtent (x + y) := by
  obtain ⟨p, n, u, rfl, rfl, hplain, hu, rfl⟩ := adoptUnit?_eq_some h
  refine ⟨u.extent, by rw [dimension?, hu]; rfl, ?_, regular_of_lookup? hu⟩
  rw [hproduct.eq_zero hplain, zero_add]

theorem countedThing?_hasExtent {e : Expr} {q : Quantity} (h : countedThing? e = some q) :
    ∃ y, e.dimension? = some y ∧ q.HasExtent y := by
  obtain ⟨text, rfl, hblank, rfl⟩ := countedThing?_eq_some h
  refine ⟨_, ?_, MeasureUnit.extent_counting _, MeasureUnit.regular_counting _⟩
  rw [dimension?, if_neg (Bool.eq_false_iff.1 hblank)]

theorem isThing_of_countedThing? {e : Expr} (h : countedThing? e = none) : e.isThing = false := by
  cases e with
  | quote text =>
    simp only [countedThing?] at h
    split at h
    · next hblank => simp [isThing, hblank]
    · cases h
  | name | const | date | binary | unary | product | property | call | error => rfl

theorem multiplyBy_hasExtent {product : Option Quantity} {factor q : Quantity} {x y : Extent}
    {s : Settings} (hproduct : (product.getD (.plain (.ofInt 1))).HasExtent x)
    (hfactor : factor.HasExtent y) (h : multiplyBy product factor s = .ok q) :
    q.HasExtent (x + y) := by
  cases product with
  | none =>
    obtain rfl := Except.ok.inj h
    rw [hproduct.eq_zero rfl, zero_add]
    exact hfactor
  | some p =>
    exact Quantity.HasExtent.mul hproduct hfactor (multiplyBy_some h)

/-- One more factor adds its dimension to that of the product. -/
theorem nextProduct?_hasExtent {product : Option Quantity} {e : Expr} {q : Quantity}
    {x : Extent} (hproduct : (product.getD (.plain (.ofInt 1))).HasExtent x)
    (he : e.isThing = false → Respects l env depth e)
    (h : nextProduct? l env depth product e = some q) :
    ∃ y, e.dimension? = some y ∧ q.HasExtent (x + y) := by
  rcases nextProduct?_cases h with hadopt | ⟨factor, hfactor, hq⟩
  · exact adoptUnit?_hasExtent hproduct hadopt
  · rcases hfactor with hthing | ⟨hthing, hvalue⟩
    · obtain ⟨y, hy, hfactor⟩ := countedThing?_hasExtent hthing
      exact ⟨y, hy, multiplyBy_hasExtent hproduct hfactor hq⟩
    · have hfactor := he (isThing_of_countedThing? hthing)
      rw [Respects, hvalue] at hfactor
      obtain ⟨y, hy, hfactor⟩ := hfactor
      exact ⟨y, hy, multiplyBy_hasExtent hproduct hfactor hq⟩

theorem evalFactors_hasExtent {factors : List Expr} {product : Option Quantity}
    {q : Quantity} {x : Extent} {i : Nat}
    (hfactors : ∀ e ∈ factors, e.isThing = false → Respects l env depth e)
    (hproduct : (product.getD (.plain (.ofInt 1))).HasExtent x)
    (h : evalFactors l env depth i product factors = .ok q) :
    ∃ y, productDimension? factors = some y ∧ q.HasExtent (x + y) := by
  induction factors generalizing product i x with
  | nil =>
    rw [evalFactors] at h
    obtain rfl := Except.ok.inj h
    exact ⟨0, by rw [productDimension?], by rwa [add_zero]⟩
  | cons e es ih =>
    obtain ⟨he, hes⟩ := List.forall_mem_cons.1 hfactors
    obtain ⟨p, hp, hrest⟩ := evalFactors_cons_eq_ok h
    obtain ⟨y, hy, hp⟩ := nextProduct?_hasExtent hproduct he hp
    have hnext : ((some p).getD (.plain (.ofInt 1))).HasExtent (x + y) := hp
    obtain ⟨z, hz, hq⟩ := ih hes hnext hrest
    refine ⟨y + z, by simp [productDimension?, hy, hz], ?_⟩
    rwa [← add_assoc]

/-! ### Trees -/

theorem respects_of_isMeasured {e : Expr} (he : e.IsMeasured) (depth : Nat) :
    Respects l env depth e := by
  induction he generalizing depth with
  | const parts => exact respects_const parts
  | name h => exact respects_name h
  | unary op _ ih => exact respects_unary (ih _)
  | add _ _ iha ihb =>
    refine fits_binary (fun p q => p.add q _) (fun _ _ => rfl) (iha _) (ihb _) ?_
    rintro p q r ⟨x, hx, hp⟩ ⟨y, hy, hq⟩ hr
    obtain ⟨rfl, hsum⟩ := hp.addWith (.inl rfl) hq hr
    exact ⟨x, by simp [dimension?, hx, hy], hsum⟩
  | sub _ _ iha ihb =>
    refine fits_binary (fun p q => p.sub q _) (fun _ _ => rfl) (iha _) (ihb _) ?_
    rintro p q r ⟨x, hx, hp⟩ ⟨y, hy, hq⟩ hr
    obtain ⟨rfl, hdifference⟩ := hp.addWith (.inr rfl) hq hr
    exact ⟨x, by simp [dimension?, hx, hy], hdifference⟩
  | frac _ _ iha ihb =>
    refine fits_binary (fun p q => p.div q _) (fun _ _ => rfl) (iha _) (ihb _) ?_
    rintro p q r ⟨x, hx, hp⟩ ⟨y, hy, hq⟩ hr
    exact ⟨x - y, by simp [dimension?, hx, hy], hp.div hq hr⟩
  | pow _ hwhole ih => exact respects_pow hwhole (ih _)
  | product _ ih =>
    refine fits_product fun q hvalue => ?_
    have hone : ((none : Option Quantity).getD (.plain (.ofInt 1))).HasExtent 0 :=
      Quantity.hasExtent_plain _
    obtain ⟨y, hy, hq⟩ := evalFactors_hasExtent (fun e he hthing => ih e he hthing _) hone hvalue
    rw [zero_add] at hq
    exact ⟨y, by rw [dimension?, hy], hq⟩

/-- **Evaluation respects dimensions.** If an expression of numbers and units evaluates to a
quantity, in any environment and with any library, then the expression has a dimension, and its
exponents are those of the quantity over the base dimensions and the things counted. The quantity
keeps no name that has cancelled out. -/
theorem dimension_of_eval {e : Expr} {q : Quantity} (he : e.IsMeasured)
    (h : e.eval l env = .quantity q) :
    ∃ d, e.dimension? = some d ∧ (∀ i, d (.inl i) = q.unit.dimension.exponent i) ∧
      (∀ name, d (.inr name) = q.unit.adHoc.get name) ∧ q.unit.adHoc.Reduced := by
  have hvalue : (e.eval l env).Fits _ := respects_of_isMeasured he 0
  rw [h] at hvalue
  obtain ⟨d, hd, hq⟩ := hvalue
  refine ⟨d, hd, fun i => ?_, fun name => ?_, hq.regular.reduced⟩
  · rw [← hq.extent, MeasureUnit.extent_apply, MeasureUnit.exponent]
  · rw [← hq.extent, MeasureUnit.extent_apply, MeasureUnit.exponent]

/-- Apples carried over 2 m but for one carried over 1 m, per square of 3 s. -/
theorem dimension_of_carried_apples :
    let e : Expr := .binary .frac
      (.binary .sub (.product [.int 2, .name "m", .quote "apples"])
        (.product [.quote "apples", .name "m"]))
      (.binary .pow (.product [.int 3, .name "s"]) (.int 2))
    e.IsMeasured ∧ ∃ q, e.eval standardLibrary ⟨{}, default⟩ = .quantity q ∧
      ∃ d, e.dimension? = some d ∧ (∀ i, d (.inl i) = q.unit.dimension.exponent i) ∧
        (∀ name, d (.inr name) = q.unit.adHoc.get name) ∧ q.unit.adHoc.Reduced := by
  intro e
  -- One evaluation for all three, so that the registry is built only once.
  obtain ⟨hm, hs, heval⟩ : (standardUnits.lookup? "m").isSome ∧
      (standardUnits.lookup? "s").isSome ∧
      (e.eval standardLibrary ⟨{}, default⟩).quantity?.isSome := by decide +kernel
  have hpow : (NumberParts.integer 2).whole?.isSome := by decide +kernel
  have he : e.IsMeasured := by
    refine .frac (.sub (.product ?_) (.product ?_)) (.pow (.product ?_) hpow)
    · simp only [List.forall_mem_cons]
      exact ⟨fun _ => .const _, fun _ => .name hm, fun h => absurd h (by decide), nofun⟩
    · simp only [List.forall_mem_cons]
      exact ⟨fun h => absurd h (by decide), fun _ => .name hm, nofun⟩
    · simp only [List.forall_mem_cons]
      exact ⟨fun _ => .const _, fun _ => .name hs, nofun⟩
  obtain ⟨q, hq⟩ := Option.isSome_iff_exists.1 heval
  exact ⟨he, q, quantity?_eq_some hq, dimension_of_eval he (quantity?_eq_some hq)⟩

end Expr

end Reckoner
