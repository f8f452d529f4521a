import Reckoner.Expr.Eval
import Reckoner.Proofs.Result

/-!
# Paths in expressions

A path leads from the root of an expression to one of its nodes. Each of its steps is a node with a
gap for one child: it says which position is taken and what stands beside it, so that the expression
is the path with the node put into the gap (`Expr.plug`).

Whether the child in a gap is evaluated depends on the values of the children before it only
(`Step.Evaluates`). An evaluated child that is an error is passed on with the note of its step,
whatever stands behind it (`Expr.evalAt_plug`).
-/

namespace Reckoner.Expr

/-- A node with a gap in place of one child. -/
inductive Step where
  | left (op : BinaryOp) (right : Expr)
  | right (op : BinaryOp) (left : Expr)
  | operand (op : UnaryOp)
  | property (name : String)
  | argument (f : String) (before after : List Expr)
  | factor (before after : List Expr)

namespace Step

/-- Puts a child into the gap. -/
def plug : Step → Expr → Expr
  | left op r, e => .binary op e r
  | right op l, e => .binary op l e
  | operand op, e => .unary op e
  | property p, e => .property p e
  | argument f before after, e => .call f (before ++ e :: after)
  | factor before after, e => .product (before ++ e :: after)

/-- The note of an error that is passed on from the gap. -/
def note : Step → String
  | left _ _ => "from left operand"
  | right _ _ => "from right operand"
  | operand _ => "from operand"
  | property p => "from operand of '" ++ p ++ "'"
  | argument f before _ =>
    "from argument " ++ Text.decimal (before.length + 1) ++ " of " ++ f ++ "()"
  | factor before _ => "from factor " ++ Text.decimal (before.length + 1)

/-- The same node up to the gap, with anything behind it. -/
inductive SameLeft : Step → Step → Prop where
  | left (op : BinaryOp) (r r' : Expr) : SameLeft (left op r) (left op r')
  | right (op : BinaryOp) (l : Expr) : SameLeft (right op l) (right op l)
  | operand (op : UnaryOp) : SameLeft (operand op) (operand op)
  | property (p : String) : SameLeft (property p) (property p)
  | argument (f : String) (before after after' : List Expr) :
    SameLeft (argument f before after) (argument f before after')
  | factor (before after after' : List Expr) :
    SameLeft (factor before after) (factor before after')

end Step

/-- The expression of a path, the step at the root first, with a node at its end. -/
def plug (path : List Step) (n : Expr) : Expr := path.foldr Step.plug n

/-! ## Children -/

theorem Step.sizeOf_lt_plug (step : Step) (e : Expr) : sizeOf e < sizeOf (step.plug e) := by
  have hlist : ∀ before after : List Expr, sizeOf e < sizeOf (before ++ e :: after) := by
    intro before after
    exact List.sizeOf_lt_of_mem (List.mem_append_right before List.mem_cons_self)
  cases step with
  | left | right | operand | property =>
    simp only [plug, binary.sizeOf_spec, unary.sizeOf_spec, Expr.property.sizeOf_spec]
    omega
  | argument f before after =>
    simp only [plug, call.sizeOf_spec]
    exact Nat.lt_add_left _ (hlist before after)
  | factor before after =>
    simp only [plug, product.sizeOf_spec]
    exact Nat.lt_add_left _ (hlist before after)

theorem exists_argument {f : String} {args : List Expr} {a : Expr} (h : a ∈ args) :
    ∃ step, call f args = Step.plug step a := by
  obtain ⟨before, after, rfl⟩ := List.append_of_mem h
  exact ⟨.argument f before after, rfl⟩

theorem exists_factor {factors : List Expr} {e : Expr} (h : e ∈ factors) :
    ∃ step, product factors = Step.plug step e := by
  obtain ⟨before, after, rfl⟩ := List.append_of_mem h
  exact ⟨.factor before after, rfl⟩

/-- Induction on the children of nodes. -/
theorem child_induction {motive : Expr → Prop}
    (node : ∀ e, (∀ step child, e = Step.plug step child → motive child) → motive e) (e : Expr) :
    motive e := by
  induction hsize : sizeOf e using Nat.strongRecOn generalizing e with
  | _ size ih =>
    apply node
    rintro step child rfl
    exact ih _ (hsize ▸ step.sizeOf_lt_plug child) child rfl

variable (l : Library) (env : Environment) (depth : Nat)

/-! ## Evaluated children -/

/-- The product after one more factor, if there is one. -/
def nextProduct? (product : Option Quantity) (e : Expr) : Option Quantity :=
  match adoptUnit? product e with
  | some q => some q
  | none =>
    match countedThing? e with
    | some thing => (multiplyBy product thing env.settings).toOption
    | none =>
      (e.evalAt l env depth).quantity?.bind fun factor =>
        (multiplyBy product factor env.settings).toOption

/-- The product after a list of factors, if all of them have one. -/
def products? (product : Option Quantity) : List Expr → Option (Option Quantity)
  | [] => some product
  | e :: es => (nextProduct? l env depth product e).bind fun q => products? (some q) es

/-- The child in the gap of a node at some depth is evaluated: the node does not nest too deep and
nothing before the gap is an error. A factor is not evaluated if it is a unit that is adopted or
a name of things that are counted. -/
def Step.Evaluates (step : Step) (e : Expr) : Prop :=
  depth ≤ env.settings.maxDepth ∧
    match step with
    | .left _ _ | .operand _ | .property _ => True
    | .right _ a => (a.evalAt l env (depth + 1)).isError = false
    | .argument _ before _ => ∀ a ∈ before, (a.evalAt l env (depth + 1)).isError = false
    | .factor before _ =>
      ∃ product, products? l env (depth + 1) none before = some product ∧
        adoptUnit? product e = none ∧ countedThing? e = none

variable {l env depth}

/-- What stands behind a gap does not matter. -/
theorem Step.Evaluates.sameLeft {step step' : Step} {e : Expr} (h : step.Evaluates l env depth e)
    (hsame : step.SameLeft step') : step'.Evaluates l env depth e := by
  cases hsame <;> exact h

/-! ## Values of nodes -/

theorem evalAt_name (hdepth : depth ≤ env.settings.maxDepth) {n : String} {u : MeasureUnit}
    (h : standardUnits.lookup? n = some u) :
    (name n).evalAt l env depth = (Value.quantity ⟨.ofInt 1, u⟩).finish "unit" env.settings := by
  rw [evalAt.eq_def, if_neg (Nat.not_lt.2 hdepth)]
  simp only [Library.evalName, h]
  rfl

theorem evalAt_binary (hdepth : depth ≤ env.settings.maxDepth) (op : BinaryOp) (a b : Expr) :
    (binary op a b).evalAt l env depth =
      ((a.evalAt l env (depth + 1)).passOn "from left operand" fun v =>
        (b.evalAt l env (depth + 1)).passOn "from right operand" fun w =>
          op.apply env.settings v w).finish "binop" env.settings := by
  rw [evalAt.eq_def, if_neg (Nat.not_lt.2 hdepth)]
  rfl

/-! ## Errors of children -/

theorem isError_iff {v : Value} : v.isError ↔ ∃ d, v = .error d := by
  cases v <;> simp [Value.isError, Value.error?]

theorem quantity?_eq_some {v : Value} {q : Quantity} (h : v.quantity? = some q) :
    v = .quantity q := by
  cases v with
  | quantity q' =>
    cases h
    rfl
  | moment | text | bool | error => cases h

/-- A value is a quantity if that passes a test. -/
theorem exists_quantity {v : Value} {P : Quantity → Prop} [DecidablePred P]
    (h : v.quantity?.any fun q => P q) : ∃ q, v = .quantity q ∧ P q := by
  cases v with
  | quantity q => exact ⟨q, rfl, of_decide_eq_true h⟩
  | moment | text | bool | error => cases h

theorem passOn_of_isError_eq_false {v : Value} {note : String} {next : Value → Value}
    (h : v.isError = false) : v.passOn note next = next v := by
  cases v with
  | error d => cases h
  | quantity | moment | text | bool => rfl

theorem evalArgs_cons {f : String} {e : Expr} (h : (e.evalAt l env depth).isError = false)
    (i : Nat) (es : List Expr) :
    evalArgs l env depth f i (e :: es) =
      (evalArgs l env depth f (i + 1) es).map (e.evalAt l env depth :: ·) := by
  rw [evalArgs]
  cases hv : e.evalAt l env depth with
  | error d =>
    rw [hv] at h
    cases h
  | quantity | moment | text | bool => rfl

/-- The first argument that is an error ends the evaluation of the arguments. -/
theorem evalArgs_append {f : String} {before after : List Expr} {e : Expr} {d : Diagnostic}
    (hbefore : ∀ a ∈ before, (a.evalAt l env depth).isError = false)
    (he : e.evalAt l env depth = .error d) (i : Nat) :
    evalArgs l env depth f i (before ++ e :: after) =
      .error (d.withNote
        ("from argument " ++ Text.decimal (i + before.length) ++ " of " ++ f ++ "()")) := by
  induction before generalizing i with
  | nil =>
    rw [List.nil_append, evalArgs, he]
    rfl
  | cons a before ih =>
    obtain ⟨ha, hbefore⟩ := List.forall_mem_cons.1 hbefore
    rw [List.cons_append, evalArgs_cons ha, ih hbefore, List.length_cons, Nat.add_right_comm]
    rfl

theorem evalFactors_adopted {product : Option Quantity} {e : Expr} {q : Quantity}
    (hadopt : adoptUnit? product e = some q) (i : Nat) (es : List Expr) :
    evalFactors l env depth i product (e :: es) =
      evalFactors l env depth (i + 1) (some q) es := by
  rw [evalFactors]
  simp only [hadopt]

/-- A factor is multiplied by, whether it counts things or is evaluated. -/
theorem evalFactors_factor {product : Option Quantity} {e : Expr} {factor : Quantity}
    (hadopt : adoptUnit? product e = none)
    (hfactor : countedThing? e = some factor ∨
      countedThing? e = none ∧ e.evalAt l env depth = .quantity factor)
    (i : Nat) (es : List Expr) :
    evalFactors l env depth i product (e :: es) =
      multiplyBy product factor env.settings >>= fun q =>
        evalFactors l env depth (i + 1) (some q) es := by
  rw [evalFactors]
  rcases hfactor with hcounted | ⟨hcounted, hvalue⟩
  · simp only [hadopt, hcounted]
    rfl
  · simp only [hadopt, hcounted, hvalue]
    rfl

theorem nextProduct?_of_factor {product : Option Quantity} {e : Expr} {factor : Quantity}
    (hadopt : adoptUnit? product e = none)
    (hfactor : countedThing? e = some factor ∨
      countedThing? e = none ∧ e.evalAt l env depth = .quantity factor) :
    nextProduct? l env depth product e = (multiplyBy product factor env.settings).toOption := by
  rw [nextProduct?]
  rcases hfactor with hcounted | ⟨hcounted, hvalue⟩
  · simp only [hadopt, hcounted]
  · simp only [hadopt, hcounted, hvalue]
    rfl

/-- A plain number adopts the unit that is named behind it. -/
theorem adoptUnit?_eq_some {product : Option Quantity} {e : Expr} {q : Quantity}
    (h : adoptUnit? product e = some q) :
    ∃ p n u, product = some p ∧ e = .name n ∧ p.isPlain ∧ standardUnits.lookup? n = some u ∧
      q = ⟨p.value, u⟩ := by
  unfold adoptUnit? at h
  split at h
  · next p n =>
    split at h
    · next hplain =>
      obtain ⟨u, hu, rfl⟩ := Option.map_eq_some_iff.1 h
      exact ⟨p, n, u, rfl, rfl, hplain, hu, rfl⟩
    · cases h
  · cases h

/-- What counts things is a quoted text that is not blank. -/
theorem countedThing?_eq_some {e : Expr} {q : Quantity} (h : countedThing? e = some q) :
    ∃ text, e = .quote text ∧ (Text.trimmed text).isEmpty = false ∧
      q = ⟨.ofInt 1, .counting (Text.trimmed text)⟩ := by
  unfold countedThing? at h
  split at h
  · next text =>
    simp only at h
    split at h
    · cases h
    · next hblank => exact ⟨text, rfl, Bool.eq_false_iff.2 hblank, (Option.some.inj h).symm⟩
  · cases h

/-- A factor gives the product its unit, or is one that the product is multiplied by. -/
theorem nextProduct?_cases {product : Option Quantity} {e : Expr} {q : Quantity}
    (h : nextProduct? l env depth product e = some q) :
    adoptUnit? product e = some q ∨
      ∃ factor, (countedThing? e = some factor ∨
          countedThing? e = none ∧ e.evalAt l env depth = .quantity factor) ∧
        multiplyBy product factor env.settings = .ok q := by
  unfold nextProduct? at h
  split at h
  · next hadopt =>
    cases h
    exact .inl hadopt
  · split at h
    · next thing hcounted => exact .inr ⟨thing, .inl hcounted, toOption_eq_some_iff.1 h⟩
    · next hcounted =>
      obtain ⟨factor, hfactor, hq⟩ := Option.bind_eq_some_iff.1 h
      exact .inr ⟨factor, .inr ⟨hcounted, quantity?_eq_some hfactor⟩, toOption_eq_some_iff.1 hq⟩

theorem products?_concat {before : List Expr} {product product' : Option Quantity} {e : Expr}
    {q : Quantity} (h : products? l env depth product before = some product')
    (he : nextProduct? l env depth product' e = some q) :
    products? l env depth product (before ++ [e]) = some (some q) := by
  induction before generalizing product with
  | nil =>
    cases h
    rw [List.nil_append, products?, he]
    rfl
  | cons a before ih =>
    obtain ⟨p, hp, hrest⟩ := Option.bind_eq_some_iff.1 h
    rw [List.cons_append, products?, hp]
    exact ih hrest

/-- A factor that has a product is passed. -/
theorem evalFactors_cons {product : Option Quantity} {e : Expr} {q : Quantity}
    (h : nextProduct? l env depth product e = some q) (i : Nat) (es : List Expr) :
    evalFactors l env depth i product (e :: es) =
      evalFactors l env depth (i + 1) (some q) es := by
  unfold nextProduct? at h
  split at h
  · next hadopt =>
    cases h
    exact evalFactors_adopted hadopt i es
  · next hadopt =>
    split at h
    · next thing hcounted =>
      rw [evalFactors_factor hadopt (.inl hcounted), toOption_eq_some_iff.1 h]
      rfl
    · next hcounted =>
      obtain ⟨factor, hfactor, hq⟩ := Option.bind_eq_some_iff.1 h
      rw [evalFactors_factor hadopt (.inr ⟨hcounted, quantity?_eq_some hfactor⟩),
        toOption_eq_some_iff.1 hq]
      rfl

theorem evalFactors_append {before rest : List Expr} {product product' : Option Quantity}
    (h : products? l env depth product before = some product') (i : Nat) :
    evalFactors l env depth i product (before ++ rest) =
      evalFactors l env depth (i + before.length) product' rest := by
  induction before generalizing i product with
  | nil =>
    cases h
    rfl
  | cons e before ih =>
    obtain ⟨q, hq, hrest⟩ := Option.bind_eq_some_iff.1 h
    rw [List.cons_append, evalFactors_cons hq, ih hrest, List.length_cons, Nat.add_right_comm]
    rfl

/-- A factor that is evaluated and is an error ends the evaluation of the factors. -/
theorem evalFactors_of_error {product : Option Quantity} {e : Expr} {d : Diagnostic}
    (hadopt : adoptUnit? product e = none) (hcounted : countedThing? e = none)
    (he : e.evalAt l env depth = .error d) (i : Nat) (es : List Expr) :
    evalFactors l env depth i product (e :: es) =
      .error (d.withNote ("from factor " ++ Text.decimal i)) := by
  rw [evalFactors]
  simp only [hadopt, hcounted, he]
  rfl

/-- Where there is a product of all factors, there is one after the first of them. -/
theorem evalFactors_cons_eq_ok {product : Option Quantity} {e : Expr} {es : List Expr}
    {q : Quantity} {i : Nat} (h : evalFactors l env depth i product (e :: es) = .ok q) :
    ∃ p, nextProduct? l env depth product e = some p ∧
      evalFactors l env depth (i + 1) (some p) es = .ok q := by
  have hmultiplied : ∀ factor, adoptUnit? product e = none →
      (countedThing? e = some factor ∨
        countedThing? e = none ∧ e.evalAt l env depth = .quantity factor) →
      ∃ p, nextProduct? l env depth product e = some p ∧
        evalFactors l env depth (i + 1) (some p) es = .ok q := by
    intro factor hadopt hfactor
    rw [evalFactors_factor hadopt hfactor] at h
    obtain ⟨p, hp, hrest⟩ := bind_eq_ok_iff.1 h
    refine ⟨p, ?_, hrest⟩
    rw [nextProduct?_of_factor hadopt hfactor, hp]
    rfl
  cases hadopt : adoptUnit? product e with
  | some p =>
    refine ⟨p, ?_, by rwa [evalFactors_adopted hadopt] at h⟩
    rw [nextProduct?, hadopt]
  | none =>
    cases hcounted : countedThing? e with
    | some thing => exact hmultiplied thing hadopt (.inl hcounted)
    | none =>
      cases hvalue : e.evalAt l env depth with
      | quantity factor => exact hmultiplied factor hadopt (.inr ⟨hcounted, hvalue⟩)
      | error d =>
        rw [evalFactors_of_error hadopt hcounted hvalue] at h
        cases h
      | moment | text | bool =>
        rw [evalFactors] at h
        simp only [hadopt, hcounted, hvalue] at h
        cases h

/-- **An error is passed on** from an evaluated child, with the note of its position. -/
theorem evalAt_plug {step : Step} {e : Expr} {d : Diagnostic}
    (h : step.Evaluates l env depth e) (he : e.evalAt l env (depth + 1) = .error d) :
    (step.plug e).evalAt l env depth =
      .error ((d.withNote step.note).atNode (step.plug e).kind) := by
  obtain ⟨hdepth, hbefore⟩ := h
  rw [evalAt.eq_def, if_neg (Nat.not_lt.2 hdepth)]
  cases step with
  | left op r =>
    simp only [Step.plug, he]
    rfl
  | right op a =>
    simp only [Step.plug, passOn_of_isError_eq_false hbefore, he]
    rfl
  | operand op =>
    simp only [Step.plug, he]
    rfl
  | property p =>
    simp only [Step.plug, he]
    rfl
  | argument f before after =>
    simp only [Step.plug, evalArgs_append hbefore he, Nat.add_comm 1]
    rfl
  | factor before after =>
    obtain ⟨product, hproduct, hadopt, hcounted⟩ := hbefore
    simp only [Step.plug, evalFactors_append hproduct, evalFactors_of_error hadopt hcounted he,
      Nat.add_comm 1]
    rfl

end Reckoner.Expr
