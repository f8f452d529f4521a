import Reckoner.Proofs.Expr.Units
import Reckoner.Proofs.Number.Bits

/-!
# The size of exact answers

Sums, differences, products, quotients and powers keep their result within the limits, so that an
exact one needs no more bits than the settings allow. Other steps make a number and do not look at
its size again (`Expr.Unchecked`): a percentage, the scale that is left when units cancel, a
constant, a field of a date or the time between two dates, and a few functions.

An exact answer is therefore capped unless such a step in the expression has outgrown the cap
(`Expr.exact_size_of_eval`).
-/

namespace Reckoner

/-! ## Quantities -/

namespace Quantity

variable {a b q : Quantity} {s : Settings}

/-- The units of the operands of a product or a quotient cancel and leave a scale, as those of
`mm / m` do. -/
def Cancels (kind : MeasureUnit.Combination) (a b : Quantity) : Prop :=
  ∃ b' unit, b.alignedWith a = .ok b' ∧ MeasureUnit.combine kind a.unit b'.unit = .ok unit ∧
    unit.isDimensionless ∧ unit.isUnity = false

/-- Only the scale of units that cancel is folded in. -/
theorem fold_eq_self_of_not (h : ¬ (q.unit.isDimensionless ∧ q.unit.isUnity = false)) :
    q.fold = q := by
  unfold fold
  rw [if_neg]
  simpa using h

theorem isCapped_addWith {op : Number → Number → Number} {kind : MeasureUnit.Combination}
    (h : addWith op kind a b s = .ok q) : q.value.IsCapped s := by
  obtain ⟨unit, -, h⟩ := bind_eq_ok_iff.1 h
  split at h
  · simp only [bind_eq_ok_iff, pure_eq_ok_iff, liftNumber_eq_ok_iff] at h
    obtain ⟨value, hvalue, rfl⟩ := h
    exact Number.isCapped_of_withinLimits hvalue
  · simp only [bind_eq_ok_iff, pure_eq_ok_iff, liftNumber_eq_ok_iff] at h
    obtain ⟨right, -, value, hvalue, rfl⟩ := h
    exact Number.isCapped_of_withinLimits hvalue

theorem isCapped_mul (hab : ¬ a.Cancels .mul b) (h : a.mul b s = .ok q) : q.value.IsCapped s := by
  simp only [mul, bind_eq_ok_iff, pure_eq_ok_iff, liftNumber_eq_ok_iff] at h
  obtain ⟨b', hb', unit, hunit, value, hvalue, rfl⟩ := h
  have hfold : ¬ (unit.isDimensionless ∧ unit.isUnity = false) := fun hunit' =>
    hab ⟨b', unit, hb', hunit, hunit'⟩
  rw [fold_eq_self_of_not (q := ⟨value, unit⟩) hfold]
  exact Number.isCapped_of_withinLimits hvalue

theorem isCapped_div (hab : ¬ a.Cancels .frac b) (h : a.div b s = .ok q) : q.value.IsCapped s := by
  simp only [div, bind_eq_ok_iff, pure_eq_ok_iff, liftNumber_eq_ok_iff] at h
  obtain ⟨b', hb', value, ⟨quotient, -, hvalue⟩, unit, hunit, rfl⟩ := h
  have hfold : ¬ (unit.isDimensionless ∧ unit.isUnity = false) := fun hunit' =>
    hab ⟨b', unit, hb', hunit, hunit'⟩
  rw [fold_eq_self_of_not (q := ⟨value, unit⟩) hfold]
  exact Number.isCapped_of_withinLimits hvalue

/-- Powers are capped on each of their ways: as whole ones, as real ones of plain numbers, and
through a root of the unit. -/
theorem isCapped_pow (h : a.pow b s = .ok q) : q.value.IsCapped s := by
  unfold pow at h
  simp only at h
  split at h
  · cases h
  · split at h
    · unfold powInt at h
      split at h
      · cases h
      · simp only [bind_eq_ok_iff, pure_eq_ok_iff, liftNumber_eq_ok_iff] at h
        obtain ⟨unit, -, value, ⟨power, -, hvalue⟩, rfl⟩ := h
        exact Number.isCapped_of_withinLimits hvalue
    · split at h
      · simp only [bind_eq_ok_iff, pure_eq_ok_iff, liftNumber_eq_ok_iff] at h
        obtain ⟨value, ⟨power, -, hvalue⟩, rfl⟩ := h
        exact Number.isCapped_of_withinLimits hvalue
      · split at h
        · split at h
          · simp only [powRatio, bind_eq_ok_iff, pure_eq_ok_iff, liftNumber_eq_ok_iff] at h
            obtain ⟨root, -, unit, -, power, -, value, hvalue, rfl⟩ := h
            exact Number.isCapped_of_withinLimits hvalue
          · cases h
        · cases h

end Quantity

/-! ## Functions -/

/-- A quantity among values is capped. -/
abbrev Value.IsCapped (s : Settings) (v : Value) : Prop := v.Only fun q => q.value.IsCapped s

/-- With this number of arguments the function makes numbers and leaves their size alone. -/
def Function.IsUnchecked (f : Function) (count : Nat) : Prop :=
  f.info.category = "datetime" ∨ f.info.name ∈ ["sqrt", "convert", "to_base"] ∨
    f.info.name = "round" ∧ 1 < count

/-- The function gives a capped value for capped arguments, unless it is unchecked. -/
def Function.Caps (f : Function) : Prop :=
  ∀ (env : Environment) (args : List Value), ¬ f.IsUnchecked args.length →
    (∀ v ∈ args, v.IsCapped env.settings) → (f.run env args).IsCapped env.settings

namespace Function

variable {s : Settings}

theorem yields_capped {x : Number} (h : x.IsCapped s) :
    Yields (Value.IsCapped s) (.ok (.number x) : Except Diagnostic _) :=
  yields_ok (Value.only_quantity h)

theorem yields_uncounted {v : Value} (h : v.quantity? = none) :
    Yields (Value.IsCapped s) (.ok v : Except Diagnostic _) :=
  yields_ok (Value.only_of_quantity? h)

theorem caps_define {info : FunctionInfo} {body : Call → Except Diagnostic Value}
    (h : ∀ c, (∀ v ∈ c.args, v.IsCapped c.settings) → Yields (Value.IsCapped c.settings) (body c)) :
    (define info body).Caps :=
  fun env args _ hargs => Value.only_ofExcept (h ⟨info, env, args⟩ hargs)

theorem yields_onValue_capped {c : Call} {f : Number → Number}
    (hargs : ∀ v ∈ c.args, v.IsCapped c.settings)
    (hf : ∀ x : Number, x.IsCapped c.settings → (f x).IsCapped c.settings) :
    Yields (Value.IsCapped c.settings) (onValue f c) :=
  yields_bind (Call.yields_quantity hargs 0) fun q hq =>
    yields_ok (Value.only_quantity (q := ⟨f q.value, q.unit⟩) (hf _ hq))

/-- Without places to round to, the function rounds to a whole number. -/
theorem caps_round : round.Caps := by
  intro env args hcount hargs
  apply Value.only_ofExcept
  have hlength : ¬ 1 < args.length := fun hlength => hcount (.inr (.inr ⟨rfl, hlength⟩))
  simp only [Call.optional, if_neg hlength, ok_bind, if_true]
  exact yields_onValue_capped (c := ⟨_, env, args⟩) hargs fun _ hx => hx.round

theorem caps_arithmetic : ∀ f ∈ arithmetic, f.Caps := by
  simp only [arithmetic, List.forall_mem_cons, List.not_mem_nil, false_imp_iff, implies_true,
    and_true]
  refine ⟨?_, ?_, ?_, ?_, ?_, caps_round, ?_, ?_⟩
  · intro env args hcount
    exact absurd (.inr (.inl (by decide))) hcount
  all_goals
    apply caps_define
    intro c hargs
  · refine yields_seq fun x => yields_bind (yields_lift fun y hy => ?_) fun y hy => yields_capped hy
    exact Number.isCapped_ln hy
  · exact yields_seq fun x => yields_capped Number.isCapped_exp
  · refine yields_seq fun base => yields_seq fun exponent => ?_
    refine yields_bind (yields_lift fun r hr => ?_) fun r hr => yields_ok (Value.only_quantity hr)
    exact Quantity.isCapped_pow hr
  · exact yields_onValue_capped hargs fun _ hx => hx.abs
  · exact yields_onValue_capped hargs fun _ hx => hx.floor
  · exact yields_onValue_capped hargs fun _ hx => hx.ceil

theorem caps_trigonometry : ∀ f ∈ trigonometry, f.Caps := by
  simp only [trigonometry, List.forall_mem_cons, List.not_mem_nil, false_imp_iff, implies_true,
    and_true]
  refine ⟨?_, ?_, ?_⟩
  all_goals
    apply caps_define
    intro c hargs
  · exact yields_seq fun x => yields_capped Number.isCapped_sin
  · exact yields_seq fun x => yields_capped Number.isCapped_cos
  · refine yields_seq fun x => yields_bind (yields_lift fun y hy => ?_) fun y hy => yields_capped hy
    exact Number.isCapped_tan hy

/-- No function of dates looks at the size of its number. -/
theorem caps_dates : ∀ f ∈ dates, f.Caps := by
  have hcategory : ∀ f ∈ dates, f.info.category = "datetime" := by
    simp [dates, fields, field, define, date, datetime, time, now, parseDate, formatDate, addMonths,
      diff]
  intro f hf env args hcount
  exact absurd (.inl (hcategory f hf)) hcount

theorem caps_units : ∀ f ∈ units, f.Caps := by
  simp only [units, List.forall_mem_cons, List.not_mem_nil, false_imp_iff, implies_true, and_true]
  refine ⟨?_, ?_, ?_, ?_, ?_, ?_, ?_, ?_⟩
  · intro env args hcount
    exact absurd (.inr (.inl (by decide))) hcount
  · intro env args hcount
    exact absurd (.inr (.inl (by decide))) hcount
  all_goals
    apply caps_define
    intro c hargs
  · exact yields_bind (Call.yields_quantity hargs 0) fun q hq => yields_capped hq
  · exact yields_seq fun q => yields_uncounted rfl
  · exact yields_seq fun u => yields_uncounted rfl
  · exact yields_seq fun u => yields_uncounted rfl
  · exact yields_seq fun u => yields_uncounted rfl
  · exact yields_seq fun u => yields_seq fun v => yields_uncounted rfl

end Function

/-- The standard functions give capped values for capped arguments, but for the unchecked ones. -/
theorem caps_standardLibrary : ∀ p ∈ standardLibrary.functions, p.2.Caps :=
  forall_standardLibrary Function.caps_arithmetic Function.caps_trigonometry Function.caps_dates
    Function.caps_units

/-! ## Expressions -/

namespace Expr

variable {l : Library} {env : Environment} {depth : Nat}

/-- A node at some depth that makes a number and leaves its size alone. -/
inductive Unchecked (l : Library) (env : Environment) (depth : Nat) : Expr → Prop where
  | constant {n : String} {c : Constant} (hunit : standardUnits.lookup? n = none)
    (h : l.constant? n = some c) : Unchecked l env depth (.name n)
  | percentage {p : String} {e : Expr} {digits : List Char}
    (h : percentDigits? (Text.trim p.toList) = some digits) :
    Unchecked l env depth (.property p e)
  | field {p : String} {e : Expr} {m : Moment} {n : Int}
    (he : e.evalAt l env (depth + 1) = .moment m)
    (h : Value.momentField? m (String.ofList (Text.lower (Text.trim p.toList))) = some n) :
    Unchecked l env depth (.property p e)
  | function {f : String} {args : List Expr} {g : Function} (h : l.function? f = some g)
    (hg : g.IsUnchecked args.length) : Unchecked l env depth (.call f args)
  | propertyFunction {p : String} {e : Expr} {g : Function}
    (h : l.function? (String.ofList (Text.lower (Text.trim p.toList))) = some g)
    (hg : g.IsUnchecked 1) : Unchecked l env depth (.property p e)
  | elapsed {a b : Expr} {m n : Moment} (ha : a.evalAt l env (depth + 1) = .moment m)
    (hb : b.evalAt l env (depth + 1) = .moment n) : Unchecked l env depth (.binary .sub a b)
  | quotient {a b : Expr} {p q : Quantity} (ha : a.evalAt l env (depth + 1) = .quantity p)
    (hb : b.evalAt l env (depth + 1) = .quantity q) (h : p.Cancels .frac q) :
    Unchecked l env depth (.binary .frac a b)
  | factor {before after : List Expr} {e : Expr} {p q : Quantity}
    (hbefore : products? l env (depth + 1) none before = some (some p))
    (he : countedThing? e = some q ∨
      countedThing? e = none ∧ e.evalAt l env (depth + 1) = .quantity q)
    (h : p.Cancels .mul q) : Unchecked l env depth (.product (before ++ e :: after))

/-- A path leads to an unchecked node whose value is exact and needs more bits than the settings
allow. -/
def OutgrowsAt (l : Library) (env : Environment) (depth : Nat) (e : Expr) (path : List Step) :
    Prop :=
  ∃ n q r, e = plug path n ∧ Unchecked l env (depth + path.length) n ∧
    n.evalAt l env (depth + path.length) = .quantity q ∧ q.value = .exact r ∧
      max 1 env.settings.maxExactBits < ratBits r

theorem OutgrowsAt.step {e : Expr} {path : List Step} (step : Step)
    (h : OutgrowsAt l env (depth + 1) e path) :
    OutgrowsAt l env depth (step.plug e) (step :: path) := by
  have hdepth : depth + 1 + path.length = depth + (step :: path).length := by
    rw [List.length_cons]
    omega
  obtain ⟨n, q, r, he, hn, hvalue, hr, hbits⟩ := h
  rw [hdepth] at hn hvalue
  exact ⟨n, q, r, by rw [he]; rfl, hn, hvalue, hr, hbits⟩

/-! ### Nodes -/

theorem capped_evalName {n : String} (hnode : ¬ Unchecked l env depth (.name n)) :
    (l.evalName env n).IsCapped env.settings := by
  apply Value.only_ofExcept
  split
  · exact yields_ok (Value.only_quantity Number.isCapped_one)
  · next hunit =>
    split
    · next c hc => exact absurd (.constant hunit hc) hnode
    · split
      · exact Function.yields_uncounted rfl
      · exact yields_map (p := fun _ => True) ⟨fun _ _ => True.intro⟩
          fun u _ => Value.only_quantity (q := ⟨.ofInt 1, u⟩) Number.isCapped_one

theorem capped_onQuantities {op : BinaryOp} {p q : Quantity} {v : Value}
    (hcancels : op = .frac → ¬ p.Cancels .frac q)
    (h : op.onQuantities p q env.settings = .ok v) : v.IsCapped env.settings := by
  have hquantity : ∀ {x : Except ConversionError Quantity}, x.map Value.quantity = .ok v →
      (∀ q, x = .ok q → q.value.IsCapped env.settings) → v.IsCapped env.settings := by
    intro x hv hx
    exact (yields_map ⟨hx⟩ fun q hq => Value.only_quantity hq).value v hv
  cases op with
  | add | sub => exact hquantity h fun r hr => Quantity.isCapped_addWith hr
  | frac => exact hquantity h fun r hr => Quantity.isCapped_div (hcancels rfl) hr
  | pow => exact hquantity h fun r hr => Quantity.isCapped_pow hr
  | equals =>
    exact (yields_map (p := fun _ => True) ⟨fun _ _ => True.intro⟩
      fun b _ => Value.only_of_quantity? rfl).value v h

theorem capped_binary {op : BinaryOp} {a b : Expr}
    (hnode : ¬ Unchecked l env depth (.binary op a b)) :
    (op.apply env.settings (a.evalAt l env (depth + 1))
      (b.evalAt l env (depth + 1))).IsCapped env.settings := by
  apply Value.only_ofExcept
  have hmoment : ∀ {x : Except DateError Moment},
      Yields (Value.IsCapped env.settings) (Diagnostic.lift .ofDate (x.map .moment)) := by
    intro x
    apply yields_lift
    exact (yields_map (p := fun _ => True) ⟨fun _ _ => True.intro⟩
      fun m _ => Value.only_of_quantity? rfl).value
  split
  · next ha hb =>
    refine yields_lift fun v hv => capped_onQuantities ?_ hv
    rintro rfl hcancels
    exact hnode (.quotient ha hb hcancels)
  · exact hmoment
  · exact hmoment
  · exact hmoment
  · next ha hb => exact absurd (.elapsed ha hb) hnode
  · exact yields_ok (Value.only_of_quantity? rfl)
  · exact yields_ok (Value.only_of_quantity? rfl)
  · exact yields_ok (Value.only_of_quantity? rfl)
  · exact yields_ok (Value.only_of_quantity? rfl)
  · exact yields_error _

theorem capped_unary (op : UnaryOp) {v : Value} (hv : v.IsCapped env.settings) :
    (op.apply v).IsCapped env.settings := by
  cases op with
  | positive => exact hv
  | negative =>
    cases v with
    | quantity q => exact Value.only_quantity (q := q.neg) (hv q rfl).neg
    | moment | text | bool | error => exact Value.only_of_quantity? rfl

theorem capped_call (hl : ∀ p ∈ l.functions, p.2.Caps) {f : String} {args : List Value}
    (hcount : ∀ g, l.function? f = some g → ¬ g.IsUnchecked args.length)
    (hargs : ∀ v ∈ args, v.IsCapped env.settings) :
    (l.call env f args).IsCapped env.settings :=
  Library.only_call fun g hg => hl _ (mem_of_lookup hg) env args (hcount g hg) hargs

theorem capped_quantityPart? {q : Quantity} {key : String} {part : Value}
    (hq : q.value.IsCapped env.settings) (h : Value.quantityPart? q key = some part) :
    part.IsCapped env.settings := by
  unfold Value.quantityPart? at h
  split at h <;> cases h
  · exact Value.only_quantity (q := .plain q.value) hq
  · exact Value.only_quantity (q := .plain q.value) hq
  · exact Value.only_of_quantity? rfl
  · exact Value.only_of_quantity? rfl

theorem capped_property (hl : ∀ p ∈ l.functions, p.2.Caps) {p : String} {e : Expr}
    (hnode : ¬ Unchecked l env depth (.property p e))
    (he : (e.evalAt l env (depth + 1)).IsCapped env.settings) :
    (l.property env p (e.evalAt l env (depth + 1))).IsCapped env.settings := by
  unfold Library.property
  simp only
  split
  · next digits hdigits => exact absurd (.percentage hdigits) hnode
  · split
    · next part hpart =>
      cases hv : e.evalAt l env (depth + 1) with
      | quantity q =>
        rw [hv] at he hpart
        exact capped_quantityPart? (he q rfl) hpart
      | moment m =>
        rw [hv] at hpart
        obtain ⟨n, hn, -⟩ := Option.map_eq_some_iff.1 hpart
        exact absurd (.field hv hn) hnode
      | text | bool | error =>
        rw [hv] at hpart
        cases hpart
    · split
      · refine capped_call hl (fun g hg hunchecked => hnode ?_) (List.forall_mem_singleton.2 he)
        exact .propertyFunction hg hunchecked
      · exact Value.only_of_quantity? rfl

theorem capped_nextProduct? {product : Option Quantity} {e : Expr} {q : Quantity}
    (hcancels : ∀ p factor, product = some p →
      (countedThing? e = some factor ∨
        countedThing? e = none ∧ e.evalAt l env depth = .quantity factor) →
        ¬ p.Cancels .mul factor)
    (hproduct : (product.getD (.plain (.ofInt 1))).value.IsCapped env.settings)
    (he : (e.evalAt l env depth).IsCapped env.settings)
    (h : nextProduct? l env depth product e = some q) : q.value.IsCapped env.settings := by
  rcases nextProduct?_cases h with hadopt | ⟨factor, hfactor, hq⟩
  · obtain ⟨p, n, u, rfl, -, -, -, rfl⟩ := adoptUnit?_eq_some hadopt
    exact hproduct
  · cases product with
    | some p => exact Quantity.isCapped_mul (hcancels p factor rfl hfactor) (lift_eq_ok_iff.1 hq)
    | none =>
      obtain rfl := Except.ok.inj hq
      rcases hfactor with hcounted | ⟨-, hvalue⟩
      · obtain ⟨text, -, -, rfl⟩ := countedThing?_eq_some hcounted
        exact Number.isCapped_one
      · exact he _ hvalue

/-- By induction on the factors that are left; `before` are those that the product is made of. -/
theorem capped_evalFactors {before es : List Expr} {product : Option Quantity} {q : Quantity}
    {i : Nat} (hnode : ¬ Unchecked l env depth (.product (before ++ es)))
    (hbefore : products? l env (depth + 1) none before = some product)
    (hproduct : (product.getD (.plain (.ofInt 1))).value.IsCapped env.settings)
    (hes : ∀ e ∈ es, (e.evalAt l env (depth + 1)).IsCapped env.settings)
    (h : evalFactors l env (depth + 1) i product es = .ok q) : q.value.IsCapped env.settings := by
  induction es generalizing before product i with
  | nil =>
    rw [evalFactors] at h
    obtain rfl := Except.ok.inj h
    exact hproduct
  | cons e es ih =>
    obtain ⟨he, hes⟩ := List.forall_mem_cons.1 hes
    obtain ⟨p, hp, hrest⟩ := evalFactors_cons_eq_ok h
    have hnext : p.value.IsCapped env.settings := by
      refine capped_nextProduct? (fun p' factor hp' hfactor hcancels => hnode ?_) hproduct he hp
      exact .factor (by rw [hbefore, hp']) hfactor hcancels
    have hnode' : ¬ Unchecked l env depth (.product ((before ++ [e]) ++ es)) := by
      rwa [List.append_assoc, List.singleton_append]
    exact ih hnode' (products?_concat hbefore hp) hnext hes hrest

/-- The value of a node is capped if those of its children are, unless the node is unchecked. -/
theorem capped_node (hl : ∀ p ∈ l.functions, p.2.Caps) {e : Expr}
    (hnode : ¬ Unchecked l env depth e)
    (hchild : ∀ (step : Step) (child : Expr), e = step.plug child →
      (child.evalAt l env (depth + 1)).IsCapped env.settings) :
    (e.evalAt l env depth).IsCapped env.settings := by
  rw [evalAt.eq_def]
  split
  · exact Value.only_of_quantity? rfl
  · apply Value.Only.finish
    cases e with
    | name n => exact capped_evalName hnode
    | quote | error => exact Value.only_of_quantity? rfl
    | const parts =>
      apply Value.only_ofExcept
      refine yields_lift fun v hv => ?_
      simp only [bind_eq_ok_iff, pure_eq_ok_iff] at hv
      obtain ⟨x, -, y, hy, rfl⟩ := hv
      exact Value.only_quantity (q := .plain y) (Number.isCapped_of_withinLimits hy)
    | date tokens =>
      apply Value.only_ofExcept
      exact yields_map (p := fun _ => True) ⟨fun _ _ => True.intro⟩
        fun m _ => Value.only_of_quantity? rfl
    | unary op a => exact Value.only_passOn fun _ => capped_unary op (hchild (.operand op) a rfl)
    | property p a =>
      exact Value.only_passOn fun _ => capped_property hl hnode (hchild (.property p) a rfl)
    | binary op a b =>
      exact Value.only_passOn fun _ => Value.only_passOn fun _ => capped_binary hnode
    | product factors =>
      apply Value.only_ofExcept
      refine yields_map ⟨fun q hq => ?_⟩ fun q hq => Value.only_quantity hq
      have hnode' : ¬ Unchecked l env depth (.product ([] ++ factors)) := hnode
      refine capped_evalFactors hnode' rfl Number.isCapped_one ?_ hq
      intro factor hfactor
      obtain ⟨step, hstep⟩ := exists_factor hfactor
      exact hchild step factor hstep
    | call f args =>
      simp only
      split
      · next values hvalues =>
        refine capped_call hl (fun g hg hunchecked => hnode (.function hg ?_)) ?_
        · rwa [← length_of_evalArgs hvalues]
        · refine forall_of_evalArgs (fun a ha _ => ?_) hvalues
          obtain ⟨step, hstep⟩ := exists_argument ha
          exact hchild step a hstep
      · exact Value.only_of_quantity? rfl

/-- By induction on the expression. A child sees the paths of its node without their first step, so
that where no node outgrows the cap, none below a child does. -/
theorem capped_evalAt (hl : ∀ p ∈ l.functions, p.2.Caps) (e : Expr) (depth : Nat)
    (hsure : ∀ path, ¬ OutgrowsAt l env depth e path) :
    (e.evalAt l env depth).IsCapped env.settings := by
  induction e using child_induction generalizing depth with
  | node e ih =>
    by_cases hnode : Unchecked l env depth e
    · intro q hq r hr
      by_contra hbits
      exact hsure [] ⟨e, q, r, rfl, hnode, hq, hr, Nat.not_le.1 hbits⟩
    · refine capped_node hl hnode ?_
      rintro step child rfl
      exact ih step child rfl _ fun path h => hsure _ (h.step step)

/-- **An exact answer is no longer than the settings allow, unless an unchecked step has outgrown
them.** If an expression evaluates to an exact number, then its numerator and its denominator are
within the cap, or a node in the expression that leaves sizes alone has an exact value beyond it. -/
theorem exact_size_of_eval {e : Expr} {q : Quantity} {r : Rat}
    (h : e.eval standardLibrary env = .quantity q) (hr : q.value = .exact r) :
    ratBits r ≤ max 1 env.settings.maxExactBits ∨
      ∃ path, OutgrowsAt standardLibrary env 0 e path := by
  by_cases hsure : ∃ path, OutgrowsAt standardLibrary env 0 e path
  · exact .inr hsure
  · have hcapped : (e.eval standardLibrary env).IsCapped env.settings :=
      capped_evalAt caps_standardLibrary e 0 fun path hpath => hsure ⟨path, hpath⟩
    exact .inl (hcapped q h r hr)

/-- A product of eight bits under a cap of eight. -/
theorem exact_size_of_product :
    let env : Environment := ⟨{ maxExactBits := 8 }, default⟩
    let e : Expr := .product [.int 15, .int 17]
    ∃ q, e.eval standardLibrary env = .quantity q ∧ q.value = .exact 255 ∧
      (ratBits 255 ≤ max 1 env.settings.maxExactBits ∨
        ∃ path, OutgrowsAt standardLibrary env 0 e path) := by
  intro env e
  obtain ⟨q, hq, hvalue⟩ : ∃ q, e.eval standardLibrary env = .quantity q ∧ q.value = .exact 255 :=
    exists_quantity (by decide +kernel)
  exact ⟨q, hq, hvalue, exact_size_of_eval hq hvalue⟩

/-- Two hundred percent of a power of two as long as the default settings allow is one bit longer,
and exact. -/
theorem exact_percentage_too_long :
    ∃ q, (property "200%" (product [.binary .pow (.int 2) (.int 2048),
        .binary .pow (.int 2) (.int 2047)])).eval standardLibrary ⟨{}, default⟩ = .quantity q ∧
      q.value = .exact (2 ^ 4096) ∧ ({} : Settings).maxExactBits < ratBits (2 ^ 4096) := by
  obtain ⟨q, hq, hvalue⟩ : ∃ q, (property "200%" (product [.binary .pow (.int 2) (.int 2048),
      .binary .pow (.int 2) (.int 2047)])).eval standardLibrary ⟨{}, default⟩ = .quantity q ∧
        q.value = .exact (2 ^ 4096) :=
    exists_quantity (by decide +kernel)
  exact ⟨q, hq, hvalue, by decide +kernel⟩

end Expr

end Reckoner
