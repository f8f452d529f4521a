import Reckoner.Proofs.Expr.Congruence
import Reckoner.Proofs.Library
import Reckoner.Proofs.Quantity
import Reckoner.Proofs.Unit.Built

/-!
# The units of values

Evaluation does not lead out of a class of units that is closed under what it does with them
(`MeasureUnit.Closed`), as long as the functions of the library give units of the class for units of
the class. Those of the standard library do (`keeps_standardLibrary`): most of them give plain
numbers or keep the unit of an argument, and the others use the algebra of units.

In particular every quantity that an expression evaluates to has a built unit (`built_of_eval`).
-/

namespace Reckoner

/-! ## Quantities -/

namespace MeasureUnit.Closed

variable {P : MeasureUnit → Prop} (hP : Closed P) {a b q : Quantity} {s : Settings}

include hP

theorem plain (x : Number) : P (Quantity.plain x).unit := hP.dimensionless

theorem fold (h : P q.unit) : P q.fold.unit := by
  rcases q.fold_cases with hfold | ⟨-, hfold⟩
  · rwa [hfold]
  · rw [hfold]
    exact hP.plain _

theorem addWith {op : Number → Number → Number} {kind : MeasureUnit.Combination}
    (hkind : kind = .add ∨ kind = .sub) (ha : P a.unit)
    (h : Quantity.addWith op kind a b s = .ok q) : P q.unit := by
  obtain ⟨unit, hunit, h⟩ := bind_eq_ok_iff.1 h
  obtain rfl := Quantity.combine_add hkind hunit
  split at h
  · obtain ⟨value, -, h⟩ := bind_eq_ok_iff.1 h
    obtain rfl := pure_eq_ok_iff.1 h
    exact hP.kelvin
  · obtain ⟨right, -, h⟩ := bind_eq_ok_iff.1 h
    obtain ⟨value, -, h⟩ := bind_eq_ok_iff.1 h
    obtain rfl := pure_eq_ok_iff.1 h
    exact ha

omit hP in
theorem alignedWith {b' : Quantity} (ha : P a.unit) (hb : P b.unit)
    (h : b.alignedWith a = .ok b') : P b'.unit := by
  rcases Quantity.alignedWith_cases h with rfl | ⟨-, value, -, rfl⟩
  · exact hb
  · exact ha

theorem mul (ha : P a.unit) (hb : P b.unit) (h : a.mul b s = .ok q) : P q.unit := by
  simp only [Quantity.mul, MeasureUnit.combine, bind_eq_ok_iff, pure_eq_ok_iff] at h
  obtain ⟨b', hb', unit, hunit, value, -, rfl⟩ := h
  exact hP.fold (q := ⟨value, unit⟩) (hP.multiply ha (alignedWith ha hb hb') hunit)

theorem div (ha : P a.unit) (hb : P b.unit) (h : a.div b s = .ok q) : P q.unit := by
  simp only [Quantity.div, MeasureUnit.combine, bind_eq_ok_iff, pure_eq_ok_iff] at h
  obtain ⟨b', hb', value, -, unit, hunit, rfl⟩ := h
  exact hP.fold (q := ⟨value, unit⟩) (hP.divide ha (alignedWith ha hb hb') hunit)

theorem powInt {e : Number} (ha : P a.unit) (h : a.powInt e s = .ok q) : P q.unit := by
  unfold Quantity.powInt at h
  split at h
  · cases h
  · simp only [bind_eq_ok_iff, pure_eq_ok_iff] at h
    obtain ⟨unit, hunit, value, -, rfl⟩ := h
    exact hP.power ha hunit

theorem powRatio {e : Number} {n d : Int} (ha : P a.unit) (h : a.powRatio e n d s = .ok q) :
    P q.unit := by
  simp only [Quantity.powRatio, bind_eq_ok_iff, pure_eq_ok_iff] at h
  obtain ⟨root, hroot, unit, hunit, value, -, value', -, rfl⟩ := h
  exact hP.power (hP.root ha hroot) hunit

theorem pow (ha : P a.unit) (h : a.pow b s = .ok q) : P q.unit := by
  unfold Quantity.pow at h
  simp only at h
  split at h
  · cases h
  · split at h
    · exact hP.powInt ha h
    · split at h
      · simp only [bind_eq_ok_iff, pure_eq_ok_iff] at h
        obtain ⟨value, -, rfl⟩ := h
        exact hP.plain value
      · split at h
        · split at h
          · exact hP.powRatio ha h
          · cases h
        · cases h

theorem sqrt (ha : P a.unit) (h : a.sqrt s = .ok q) : P q.unit := by
  simp only [Quantity.sqrt, bind_eq_ok_iff, pure_eq_ok_iff] at h
  obtain ⟨unit, hunit, value, -, rfl⟩ := h
  exact hP.root ha hunit

omit hP in
theorem convert {target : MeasureUnit} (ht : P target) (h : a.convert target = .ok q) :
    P q.unit := by
  simp only [Quantity.convert, bind_eq_ok_iff, pure_eq_ok_iff] at h
  obtain ⟨value, -, rfl⟩ := h
  exact ht

end MeasureUnit.Closed

/-! ## Values -/

/-- Whatever a computation gives has a property. -/
structure Yields {ε α : Type} (p : α → Prop) (x : Except ε α) : Prop where
  value : ∀ a, x = .ok a → p a

section

variable {ε α β : Type} {p : α → Prop} {q : β → Prop} {x : Except ε α} {f : α → Except ε β}

theorem yields_ok {a : α} (h : p a) : Yields p (.ok a : Except ε α) where
  value := by
    rintro _ ⟨⟩
    exact h

theorem yields_error (e : ε) : Yields p (.error e) where
  value := by
    rintro _ ⟨⟩

theorem yields_bind (hx : Yields p x) (hf : ∀ a, p a → Yields q (f a)) : Yields q (x >>= f) where
  value := by
    intro b hb
    obtain ⟨a, ha, hb⟩ := bind_eq_ok_iff.1 hb
    exact (hf a (hx.value a ha)).value b hb

/-- What the first step gives does not matter. -/
theorem yields_seq (hf : ∀ a, Yields q (f a)) : Yields q (x >>= f) :=
  yields_bind (p := fun _ => True) ⟨fun _ _ => True.intro⟩ fun a _ => hf a

theorem yields_lift {diagnose : ε → Diagnostic} (h : ∀ a, x = .ok a → p a) :
    Yields p (Diagnostic.lift diagnose x) where
  value a ha := h a (lift_eq_ok_iff.1 ha)

theorem yields_map {g : α → β} (hx : Yields p x) (hg : ∀ a, p a → q (g a)) :
    Yields q (x.map g) := by
  cases x with
  | error e => exact yields_error e
  | ok a => exact yields_ok (hg a (hx.value a rfl))

end

/-- A quantity among values has a property. -/
def Value.Only (P : Quantity → Prop) (v : Value) : Prop := ∀ q, v = .quantity q → P q

/-- A quantity among values has a unit of a class. -/
abbrev Value.HasUnit (P : MeasureUnit → Prop) (v : Value) : Prop := v.Only fun q => P q.unit

/-- A quantity among values has a built unit. -/
def Value.IsBuilt (v : Value) : Prop := ∀ q, v = .quantity q → q.unit.Built

namespace Value

variable {P : Quantity → Prop} {v : Value}

theorem only_quantity {q : Quantity} (h : P q) : (quantity q).Only P := by
  rintro _ ⟨⟩
  exact h

theorem only_of_quantity? (h : v.quantity? = none) : v.Only P := by
  rintro q rfl
  cases h

theorem only_ofExcept {x : Except Diagnostic Value} (h : Yields (Only P) x) :
    (ofExcept x).Only P := by
  cases x with
  | ok v => exact h.value v rfl
  | error d => exact only_of_quantity? rfl

theorem Only.finish (h : v.Only P) (kind : String) (s : Settings) : (v.finish kind s).Only P := by
  cases v with
  | quantity q =>
    rw [Value.finish]
    split
    · exact h
    · exact only_of_quantity? rfl
  | moment | text | bool | error => exact only_of_quantity? rfl

theorem only_passOn {note : String} {next : Value → Value}
    (h : v.isError = false → (next v).Only P) : (v.passOn note next).Only P := by
  cases v with
  | error d => exact only_of_quantity? rfl
  | quantity | moment | text | bool => exact h rfl

end Value

namespace Call

variable {P : Quantity → Prop} {c : Call} (hargs : ∀ v ∈ c.args, v.Only P) (i : Nat)

include hargs

theorem yields_arg : Yields (Value.Only P) (c.arg i) := by
  unfold arg
  split
  · next v hv => exact yields_ok (hargs v (List.mem_of_getElem? hv))
  · exact yields_error _

theorem yields_quantity : Yields P (c.quantity i) := by
  apply yields_bind (yields_arg hargs i)
  intro v hv
  split
  · next q hq => exact yields_ok (hv q (Expr.quantity?_eq_some hq))
  · exact yields_error _

end Call

/-! ## Functions -/

/-- On arguments without errors, with units of a class, a function gives units of the class only. -/
def Function.Keeps (P : MeasureUnit → Prop) (f : Function) : Prop :=
  ∀ (env : Environment) (args : List Value), (∀ v ∈ args, v.isError = false) →
    (∀ v ∈ args, v.HasUnit P) → (f.run env args).HasUnit P

/-- All functions give units of a class for units of the class. -/
def Library.Keeps (P : MeasureUnit → Prop) (l : Library) : Prop :=
  ∀ p ∈ l.functions, p.2.Keeps P

/-- On arguments without errors, with built units, a function gives built units only. -/
def Function.Builds (f : Function) : Prop :=
  ∀ (env : Environment) (args : List Value), (∀ v ∈ args, v.isError = false) →
    (∀ v ∈ args, v.IsBuilt) → (f.run env args).IsBuilt

/-- All functions give built units for built units. -/
def Library.Builds (l : Library) : Prop := ∀ p ∈ l.functions, p.2.Builds

section

variable {P : MeasureUnit → Prop}

namespace Function

theorem yields_other {v : Value} (h : v.quantity? = none) :
    Yields (Value.HasUnit P) (.ok v : Except Diagnostic _) :=
  yields_ok (Value.only_of_quantity? h)

theorem yields_return {q : Quantity} (h : P q.unit) :
    Yields (Value.HasUnit P) (.ok (.quantity q) : Except Diagnostic _) :=
  yields_ok (Value.only_quantity h)

theorem keeps_define {info : FunctionInfo} {body : Call → Except Diagnostic Value}
    (h : ∀ c, (∀ v ∈ c.args, v.HasUnit P) → Yields (Value.HasUnit P) (body c)) :
    (define info body).Keeps P :=
  fun env args _ hargs => Value.only_ofExcept (h ⟨info, env, args⟩ hargs)

theorem yields_onValue {c : Call} (hargs : ∀ v ∈ c.args, v.HasUnit P) (f : Number → Number) :
    Yields (Value.HasUnit P) (onValue f c) :=
  yields_bind (Call.yields_quantity hargs 0) fun _ hq => yields_return hq

variable (hP : MeasureUnit.Closed P)

include hP

theorem yields_unitArg {c : Call} (hargs : ∀ v ∈ c.args, v.HasUnit P) (i : Nat) :
    Yields P (unitArg c i) := by
  apply yields_bind (Call.yields_arg hargs i)
  intro v hv
  split
  · exact ⟨fun u hu => hP.of_parseUnit hu⟩
  · exact yields_ok (hv _ rfl)
  · exact yields_error _

theorem yields_number {x : Number} :
    Yields (Value.HasUnit P) (.ok (.number x) : Except Diagnostic _) :=
  yields_return (q := .plain x) (hP.plain x)

theorem keeps_arithmetic : ∀ f ∈ arithmetic, f.Keeps P := by
  simp only [arithmetic, List.forall_mem_cons, List.not_mem_nil, false_imp_iff, implies_true,
    and_true]
  refine ⟨?_, ?_, ?_, ?_, ?_, ?_, ?_, ?_⟩
  all_goals
    apply keeps_define
    intro c hargs
  · apply yields_bind (Call.yields_quantity hargs 0)
    intro q hq
    refine yields_bind (yields_lift fun r hr => ?_) fun r hr => yields_return hr
    exact hP.sqrt (hP.fold hq) hr
  · exact yields_seq fun x => yields_seq fun y => yields_number hP
  · exact yields_seq fun x => yields_number hP
  · apply yields_bind (Call.yields_quantity hargs 0)
    intro base hbase
    refine yields_seq fun exponent => ?_
    refine yields_bind (yields_lift fun r hr => ?_) fun r hr => yields_return hr
    exact hP.pow hbase hr
  · exact yields_onValue hargs _
  · refine yields_seq fun places => ?_
    split
    · exact yields_onValue hargs _
    · split
      · exact yields_error _
      · apply yields_bind (Call.yields_quantity hargs 0)
        intro q hq
        exact yields_seq fun x => yields_return (q := ⟨x, q.unit⟩) hq
  · exact yields_onValue hargs _
  · exact yields_onValue hargs _

theorem keeps_trigonometry : ∀ f ∈ trigonometry, f.Keeps P := by
  simp only [trigonometry, List.forall_mem_cons, List.not_mem_nil, false_imp_iff, implies_true,
    and_true]
  refine ⟨?_, ?_, ?_⟩
  all_goals
    apply keeps_define
    intro c hargs
  · exact yields_seq fun x => yields_number hP
  · exact yields_seq fun x => yields_number hP
  · exact yields_seq fun x => yields_seq fun y => yields_number hP

theorem keeps_field (name description : String) (examples : List String) (f : Moment → Int) :
    (field name description examples f).Keeps P := by
  apply keeps_define
  intro c hargs
  exact yields_seq fun m => yields_number hP

theorem keeps_dates : ∀ f ∈ dates, f.Keeps P := by
  simp only [dates, fields, List.forall_mem_append, List.forall_mem_cons, List.not_mem_nil,
    false_imp_iff, implies_true, and_true, keeps_field hP]
  refine ⟨?_, ?_, ?_, ?_, ?_, ?_, ?_, ?_⟩
  all_goals
    apply keeps_define
    intro c hargs
  · exact yields_seq fun d => yields_seq fun m => yields_other rfl
  · exact yields_seq fun d => yields_seq fun t => yields_seq fun m => yields_other rfl
  · exact yields_seq fun t => yields_seq fun m => yields_other rfl
  · exact yields_other rfl
  · exact yields_seq fun text => yields_seq fun m => yields_other rfl
  · exact yields_seq fun m => yields_seq fun pattern => yields_other rfl
  · exact yields_seq fun m => yields_seq fun n => yields_seq fun m' => yields_other rfl
  · refine yields_seq fun last => yields_seq fun first => ?_
    refine yields_bind (p := fun q => P q.unit) ?_ fun q hq => yields_return hq
    unfold Call.optional
    split
    · refine yields_seq fun text => ?_
      refine yields_bind ⟨fun u hu => hP.of_parseUnit hu⟩ fun u hu => ?_
      exact yields_lift fun q hq => MeasureUnit.Closed.convert hu hq
    · exact yields_ok hP.second

theorem keeps_units : ∀ f ∈ units, f.Keeps P := by
  simp only [units, List.forall_mem_cons, List.not_mem_nil, false_imp_iff, implies_true, and_true]
  refine ⟨?_, ?_, ?_, ?_, ?_, ?_, ?_, ?_⟩
  all_goals
    apply keeps_define
    intro c hargs
  · refine yields_seq fun q => yields_bind (yields_unitArg hP hargs 1) fun u hu => ?_
    refine yields_bind (yields_lift fun r hr => ?_) fun r hr => yields_return hr
    exact MeasureUnit.Closed.convert hu hr
  · refine yields_bind (Call.yields_quantity hargs 0) fun q hq => ?_
    refine yields_bind ⟨fun u hu => hP.coherentUnit hq hu⟩ fun u hu => ?_
    exact yields_return (hP.fold (q := ⟨q.coherentValue, u⟩) hu)
  · exact yields_seq fun q => yields_number hP
  · exact yields_seq fun q => yields_other rfl
  · exact yields_seq fun u => yields_other rfl
  · exact yields_seq fun u => yields_other rfl
  · exact yields_seq fun u => yields_other rfl
  · exact yields_seq fun u => yields_seq fun v => yields_other rfl

end Function

/-- The standard functions give units of a class for units of the class. -/
theorem keeps_standardLibrary (hP : MeasureUnit.Closed P) : standardLibrary.Keeps P :=
  forall_standardLibrary (Function.keeps_arithmetic hP) (Function.keeps_trigonometry hP)
    (Function.keeps_dates hP) (Function.keeps_units hP)

namespace Library

variable {l : Library} {env : Environment}

/-- The value of a call is that of a function, or an error. -/
theorem only_call {Q : Quantity → Prop} {name : String} {args : List Value}
    (h : ∀ f, l.function? name = some f → (f.run env args).Only Q) :
    (l.call env name args).Only Q := by
  unfold call
  split
  · exact Value.only_of_quantity? rfl
  · next f hf =>
    split
    · exact Value.only_of_quantity? rfl
    · exact h f hf

theorem hasUnit_call (hl : l.Keeps P) {name : String} {args : List Value}
    (herrors : ∀ v ∈ args, v.isError = false) (hargs : ∀ v ∈ args, v.HasUnit P) :
    (l.call env name args).HasUnit P :=
  only_call fun _ hf => hl _ (mem_of_lookup hf) env args herrors hargs

variable (hP : MeasureUnit.Closed P)

include hP

theorem hasUnit_part? {v part : Value} {key : String} (h : v.part? key = some part) :
    part.HasUnit P := by
  cases v with
  | quantity q =>
    simp only [Value.part?, Value.quantityPart?] at h
    split at h <;> cases h <;>
      first | exact Value.only_quantity (hP.plain _) | exact Value.only_of_quantity? rfl
  | moment m =>
    obtain ⟨n, -, rfl⟩ := Option.map_eq_some_iff.1 h
    exact Value.only_quantity (hP.plain _)
  | text | bool | error => cases h

theorem hasUnit_property (hl : l.Keeps P) {p : String} {v : Value} (herror : v.isError = false)
    (hv : v.HasUnit P) : (l.property env p v).HasUnit P := by
  unfold Library.property
  simp only
  split
  · apply Value.only_ofExcept
    refine yields_seq fun x => ?_
    cases v with
    | quantity q => exact yields_ok (Value.only_quantity (q := ⟨q.value.mul x, q.unit⟩) (hv q rfl))
    | moment | text | bool | error => exact yields_error _
  · split
    · next part hpart => exact hasUnit_part? hP hpart
    · split
      · exact hasUnit_call hl (List.forall_mem_singleton.2 herror) (List.forall_mem_singleton.2 hv)
      · exact Value.only_of_quantity? rfl

theorem hasUnit_evalName (name : String) : (l.evalName env name).HasUnit P := by
  apply Value.only_ofExcept
  split
  · next u hu => exact yields_ok (Value.only_quantity (hP.of_lookup? hu))
  · split
    · next c _ =>
      refine yields_map (p := fun q => P q.unit) ?_ fun q hq => Value.only_quantity hq
      refine yields_seq fun x => ?_
      exact yields_bind ⟨fun u hu => hP.of_parseUnit hu⟩ fun u hu => yields_ok hu
    · split
      · exact Function.yields_other rfl
      · exact yields_map ⟨fun u hu => hP.of_resolve hu⟩
          fun u hu => Value.only_quantity (q := ⟨.ofInt 1, u⟩) hu

end Library

/-! ## Expressions -/

theorem UnaryOp.hasUnit_apply (op : UnaryOp) {v : Value} (hv : v.HasUnit P) :
    (op.apply v).HasUnit P := by
  cases op with
  | positive => exact hv
  | negative =>
    cases v with
    | quantity q => exact Value.only_quantity (q := q.neg) (hv q rfl)
    | moment | text | bool | error => exact Value.only_of_quantity? rfl

variable (hP : MeasureUnit.Closed P)

include hP

theorem BinaryOp.hasUnit_apply (op : BinaryOp) {s : Settings} {v w : Value} (hv : v.HasUnit P)
    (hw : w.HasUnit P) : (op.apply s v w).HasUnit P := by
  apply Value.only_ofExcept
  have hmoment : ∀ {x : Except DateError Moment},
      Yields (Value.HasUnit P) (Diagnostic.lift .ofDate (x.map .moment)) := by
    intro x
    apply yields_lift
    exact (yields_map (p := fun _ => True) ⟨fun _ _ => True.intro⟩
      fun m _ => Value.only_of_quantity? rfl).value
  split
  · next a b =>
    have ha := hv a rfl
    have hb := hw b rfl
    refine yields_lift fun r hr => ?_
    cases op with
    | add =>
      exact (yields_map ⟨fun q hq => hP.addWith (.inl rfl) ha hq⟩
        fun q hq => Value.only_quantity hq).value r hr
    | sub =>
      exact (yields_map ⟨fun q hq => hP.addWith (.inr rfl) ha hq⟩
        fun q hq => Value.only_quantity hq).value r hr
    | frac =>
      exact (yields_map ⟨fun q hq => hP.div ha hb hq⟩
        fun q hq => Value.only_quantity hq).value r hr
    | pow =>
      exact (yields_map ⟨fun q hq => hP.pow ha hq⟩
        fun q hq => Value.only_quantity hq).value r hr
    | equals =>
      exact (yields_map (p := fun _ => True) ⟨fun _ _ => True.intro⟩
        fun b _ => Value.only_of_quantity? rfl).value r hr
  · exact hmoment
  · exact hmoment
  · exact hmoment
  · exact yields_ok (Value.only_quantity hP.second)
  · exact yields_ok (Value.only_of_quantity? rfl)
  · exact yields_ok (Value.only_of_quantity? rfl)
  · exact yields_ok (Value.only_of_quantity? rfl)
  · exact yields_ok (Value.only_of_quantity? rfl)
  · exact yields_error _

namespace Expr

variable {l : Library} {env : Environment} {depth : Nat}

theorem unit_multiplyBy {product : Option Quantity} {factor q : Quantity} {s : Settings}
    (hproduct : P (product.getD (.plain (.ofInt 1))).unit) (hfactor : P factor.unit)
    (h : multiplyBy product factor s = .ok q) : P q.unit := by
  cases product with
  | none =>
    obtain rfl := Except.ok.inj h
    exact hfactor
  | some p => exact hP.mul hproduct hfactor (lift_eq_ok_iff.1 h)

theorem unit_nextProduct? {product : Option Quantity} {e : Expr} {q : Quantity}
    (hproduct : P (product.getD (.plain (.ofInt 1))).unit)
    (he : (e.evalAt l env depth).HasUnit P) (h : nextProduct? l env depth product e = some q) :
    P q.unit := by
  rcases nextProduct?_cases h with hadopt | ⟨factor, hfactor, hq⟩
  · obtain ⟨p, n, u, -, -, -, hu, rfl⟩ := adoptUnit?_eq_some hadopt
    exact hP.of_lookup? hu
  · refine unit_multiplyBy hP hproduct ?_ hq
    rcases hfactor with hcounted | ⟨-, hvalue⟩
    · obtain ⟨text, -, hblank, rfl⟩ := countedThing?_eq_some hcounted
      apply hP.counting
      intro hempty
      rw [hempty] at hblank
      cases hblank
    · exact he factor hvalue

theorem unit_evalFactors {es : List Expr} {product : Option Quantity} {q : Quantity} {i : Nat}
    (hproduct : P (product.getD (.plain (.ofInt 1))).unit)
    (hes : ∀ e ∈ es, (e.evalAt l env depth).HasUnit P)
    (h : evalFactors l env depth i product es = .ok q) : P q.unit := by
  induction es generalizing product i with
  | nil =>
    rw [evalFactors] at h
    obtain rfl := Except.ok.inj h
    exact hproduct
  | cons e es ih =>
    obtain ⟨he, hes⟩ := List.forall_mem_cons.1 hes
    obtain ⟨p, hp, hrest⟩ := evalFactors_cons_eq_ok h
    have hnext : P ((some p).getD (.plain (.ofInt 1))).unit := unit_nextProduct? hP hproduct he hp
    exact ih hnext hes hrest

/-- **The unit of every value is in a class**, if the functions of the library keep to it. -/
theorem hasUnit_evalAt (hl : l.Keeps P) (e : Expr) (depth : Nat) :
    (e.evalAt l env depth).HasUnit P := by
  induction e using child_induction generalizing depth with
  | node e ih =>
    rw [evalAt.eq_def]
    split
    · exact Value.only_of_quantity? rfl
    · apply Value.Only.finish
      cases e with
      | name name => exact Library.hasUnit_evalName hP name
      | quote | error => exact Value.only_of_quantity? rfl
      | const parts =>
        apply Value.only_ofExcept
        refine yields_lift fun v hv => ?_
        obtain ⟨x, -, hv⟩ := bind_eq_ok_iff.1 hv
        obtain ⟨y, -, hv⟩ := bind_eq_ok_iff.1 hv
        obtain rfl := pure_eq_ok_iff.1 hv
        exact Value.only_quantity (hP.plain y)
      | date tokens =>
        apply Value.only_ofExcept
        exact yields_map (p := fun _ => True) ⟨fun _ _ => True.intro⟩
          fun m _ => Value.only_of_quantity? rfl
      | unary op a =>
        exact Value.only_passOn fun _ => op.hasUnit_apply (ih (.operand op) a rfl _)
      | property p a =>
        exact Value.only_passOn fun ha =>
          Library.hasUnit_property hP hl ha (ih (.property p) a rfl _)
      | binary op a b =>
        refine Value.only_passOn fun _ => Value.only_passOn fun _ => ?_
        exact op.hasUnit_apply hP (ih (.left op b) a rfl _) (ih (.right op a) b rfl _)
      | product factors =>
        apply Value.only_ofExcept
        refine yields_map ⟨fun q hq => ?_⟩ fun q hq => Value.only_quantity hq
        have hone : P ((none : Option Quantity).getD (.plain (.ofInt 1))).unit :=
          hP.plain _
        refine unit_evalFactors hP hone (fun factor hfactor => ?_) hq
        obtain ⟨step, hstep⟩ := exists_factor hfactor
        exact ih step factor hstep _
      | call f args =>
        simp only
        split
        · next values hvalues =>
          refine Library.hasUnit_call hl (isError_of_evalArgs hvalues) ?_
          refine forall_of_evalArgs (fun a ha _ => ?_) hvalues
          obtain ⟨step, hstep⟩ := exists_argument ha
          exact ih step a hstep _
        · exact Value.only_of_quantity? rfl

end Expr

end

/-! ## Built units -/

/-- The standard functions give built units for built units. -/
theorem builds_standardLibrary : standardLibrary.Builds :=
  keeps_standardLibrary MeasureUnit.closed_built

/-- The unit of a quantity that an expression evaluates to is built. -/
theorem Expr.built_of_eval {l : Library} {env : Environment} (hl : l.Builds) {e : Expr}
    {q : Quantity} (h : e.eval l env = .quantity q) : q.unit.Built :=
  hasUnit_evalAt MeasureUnit.closed_built hl e 0 q h

end Reckoner
