import Reckoner.Proofs.Expr.Path

/-!
# Contexts that an expression cannot tell apart

The value of a node is made of the values of the children that it evaluates. If these are the same
under two libraries and environments that agree on everything but the depth that they allow
(`Agree`), so is the value of the node (`evalAt_congr`). What the children that are not evaluated
would be makes no difference, nor does what a function does with errors: it never sees one.
-/

namespace Reckoner

/-- The same settings with another limit on the depth of trees. -/
def Settings.withMaxDepth (s : Settings) (n : Nat) : Settings := { s with maxDepth := n }

@[simp] theorem Settings.withMaxDepth_precision (s : Settings) (n : Nat) :
    (s.withMaxDepth n).precision = s.precision := rfl

/-- The same environment with another limit on the depth of trees. -/
def Environment.withMaxDepth (env : Environment) (n : Nat) : Environment :=
  { env with settings := env.settings.withMaxDepth n }

/-- Two libraries and environments agree on everything that the value of a node is made of. -/
structure Agree (l : Library) (env : Environment) (l' : Library) (env' : Environment) : Prop where
  settings : env'.settings = env.settings.withMaxDepth env'.settings.maxDepth
  now : env'.now = env.now
  constant : ∀ name, l'.constant? name = l.constant? name
  known : ∀ name, (l'.function? name).isSome = (l.function? name).isSome
  call : ∀ name args, (∀ v ∈ args, v.isError = false) →
    l'.call env' name args = l.call env name args

namespace Agree

variable {l l' : Library} {env env' : Environment} (h : Agree l env l' env')

include h

theorem finish (kind : String) (v : Value) :
    v.finish kind env'.settings = v.finish kind env.settings := by
  rw [h.settings]
  rfl

theorem evalConst (parts : NumberParts) : parts.eval env'.settings = parts.eval env.settings := by
  rw [h.settings]
  rfl

theorem evalName (name : String) : l'.evalName env' name = l.evalName env name := by
  unfold Library.evalName
  generalize standardUnits = r
  rw [h.constant, h.now, h.settings, Settings.withMaxDepth_precision]

theorem apply (op : BinaryOp) (v w : Value) :
    op.apply env'.settings v w = op.apply env.settings v w := by
  rw [h.settings]
  rfl

theorem multiplyBy (product : Option Quantity) (factor : Quantity) :
    multiplyBy product factor env'.settings = multiplyBy product factor env.settings := by
  rw [h.settings]
  rfl

theorem property (p : String) {v : Value} (hv : v.isError = false) :
    l'.property env' p v = l.property env p v := by
  unfold Library.property
  simp only [h.known]
  rw [h.call _ [v] (List.forall_mem_singleton.2 hv)]

end Agree

namespace Expr

variable {l l' : Library} {env env' : Environment} {depth depth' : Nat}

/-! ## Lists of children -/

/-- Arguments are evaluated up to the first error. -/
theorem evalArgs_congr {f : String} {args : List Expr}
    (h : ∀ before a after, args = before ++ a :: after →
      (∀ b ∈ before, (b.evalAt l env depth).isError = false) →
      a.evalAt l' env' depth' = a.evalAt l env depth) (i : Nat) :
    evalArgs l' env' depth' f i args = evalArgs l env depth f i args := by
  induction args generalizing i with
  | nil => rw [evalArgs, evalArgs]
  | cons a args ih =>
    have ha := h [] a args rfl (List.forall_mem_nil _)
    by_cases herror : (a.evalAt l env depth).isError
    · obtain ⟨d, hd⟩ := isError_iff.1 herror
      rw [evalArgs, evalArgs, ha, hd]
    · have herror := Bool.not_eq_true _ ▸ herror
      have hrest : ∀ i, evalArgs l' env' depth' f i args = evalArgs l env depth f i args := by
        apply ih
        intro before b after hargs hbefore
        exact h (a :: before) b after (hargs ▸ rfl) (List.forall_mem_cons.2 ⟨herror, hbefore⟩)
      rw [evalArgs_cons herror, evalArgs_cons (ha ▸ herror), hrest, ha]

/-- What holds of the value of every argument that is no error holds of all values. -/
theorem forall_of_evalArgs {P : Value → Prop} {f : String} {args : List Expr}
    {values : List Value} {i : Nat}
    (hargs : ∀ a ∈ args, (a.evalAt l env depth).isError = false → P (a.evalAt l env depth))
    (h : evalArgs l env depth f i args = .ok values) : ∀ v ∈ values, P v := by
  induction args generalizing i values with
  | nil =>
    rw [evalArgs] at h
    cases h
    exact List.forall_mem_nil _
  | cons a args ih =>
    obtain ⟨ha, hargs⟩ := List.forall_mem_cons.1 hargs
    by_cases herror : (a.evalAt l env depth).isError
    · obtain ⟨d, hd⟩ := isError_iff.1 herror
      rw [evalArgs, hd] at h
      cases h
    · have herror := Bool.not_eq_true _ ▸ herror
      rw [evalArgs_cons herror] at h
      obtain ⟨rest, hrest, rfl⟩ := map_eq_ok_iff.1 h
      exact List.forall_mem_cons.2 ⟨ha herror, ih hargs hrest⟩

theorem isError_of_evalArgs {f : String} {args : List Expr} {values : List Value} {i : Nat}
    (h : evalArgs l env depth f i args = .ok values) : ∀ v ∈ values, v.isError = false :=
  forall_of_evalArgs (fun _ _ ha => ha) h

/-- There is a value for each argument. -/
theorem length_of_evalArgs {f : String} {args : List Expr} {values : List Value} {i : Nat}
    (h : evalArgs l env depth f i args = .ok values) : values.length = args.length := by
  induction args generalizing i values with
  | nil =>
    rw [evalArgs] at h
    obtain rfl := Except.ok.inj h
    rfl
  | cons a args ih =>
    by_cases herror : (a.evalAt l env depth).isError
    · obtain ⟨d, hd⟩ := isError_iff.1 herror
      rw [evalArgs, hd] at h
      cases h
    · rw [evalArgs_cons (Bool.eq_false_iff.2 herror)] at h
      obtain ⟨values', hvalues, rfl⟩ := map_eq_ok_iff.1 h
      rw [List.length_cons, List.length_cons, ih hvalues]

/-- Factors are evaluated up to the first one without a product, but for those that are adopted or
count things. -/
theorem evalFactors_congr (hagree : Agree l env l' env') {es : List Expr}
    {product : Option Quantity}
    (h : ∀ before after e product', es = before ++ e :: after →
      products? l env depth product before = some product' → adoptUnit? product' e = none →
      countedThing? e = none → e.evalAt l' env' depth' = e.evalAt l env depth) (i : Nat) :
    evalFactors l' env' depth' i product es = evalFactors l env depth i product es := by
  induction es generalizing product i with
  | nil => rw [evalFactors, evalFactors]
  | cons e es ih =>
    have hrest : ∀ q, nextProduct? l env depth product e = some q →
        evalFactors l' env' depth' (i + 1) (some q) es =
          evalFactors l env depth (i + 1) (some q) es := by
      intro q hq
      apply ih
      intro before after e' product' hes hproducts
      apply h (e :: before) after e' product' (hes ▸ rfl)
      rw [products?, hq]
      exact hproducts
    cases hadopt : adoptUnit? product e with
    | some q =>
      rw [evalFactors_adopted hadopt, evalFactors_adopted hadopt]
      exact hrest q (by rw [nextProduct?, hadopt])
    | none =>
      have hfactor : ∀ factor, (countedThing? e = some factor ∨
            countedThing? e = none ∧ e.evalAt l env depth = .quantity factor) →
          (countedThing? e = some factor ∨
            countedThing? e = none ∧ e.evalAt l' env' depth' = .quantity factor) →
          evalFactors l' env' depth' i product (e :: es) =
            evalFactors l env depth i product (e :: es) := by
        intro factor hleft hright
        rw [evalFactors_factor hadopt hleft, evalFactors_factor hadopt hright, hagree.multiplyBy]
        cases hq : multiplyBy product factor env.settings with
        | error d => rfl
        | ok q => exact hrest q (by rw [nextProduct?_of_factor hadopt hleft, hq]; rfl)
      cases hcounted : countedThing? e with
      | some thing => exact hfactor thing (.inl hcounted) (.inl hcounted)
      | none =>
        have he := h [] es e product rfl rfl hadopt hcounted
        cases hv : e.evalAt l env depth with
        | quantity factor => exact hfactor factor (.inr ⟨hcounted, hv⟩) (.inr ⟨hcounted, he ▸ hv⟩)
        | moment | text | bool | error =>
          rw [evalFactors, evalFactors]
          simp only [hadopt, hcounted, he, hv]
          rfl

/-! ## Nodes -/

/-- **A node is made of its evaluated children.** If they have the same values in two contexts that
agree, and neither of them finds that the node nests too deep, the node has the same value. -/
theorem evalAt_congr (hagree : Agree l env l' env') {e : Expr}
    (hdepth : depth ≤ env.settings.maxDepth) (hdepth' : depth' ≤ env'.settings.maxDepth)
    (h : ∀ step child, e = Step.plug step child → step.Evaluates l env depth child →
      child.evalAt l' env' (depth' + 1) = child.evalAt l env (depth + 1)) :
    e.evalAt l' env' depth' = e.evalAt l env depth := by
  have hpassOn : ∀ {v : Value} {note : String} {next next' : Value → Value},
      (v.isError = false → next' v = next v) → v.passOn note next' = v.passOn note next := by
    intro v note next next' hnext
    cases v with
    | error d => rfl
    | quantity | moment | text | bool => exact hnext rfl
  rw [evalAt.eq_def, evalAt.eq_def l env, if_neg (Nat.not_lt.2 hdepth),
    if_neg (Nat.not_lt.2 hdepth'), hagree.finish]
  apply congrArg
  cases e with
  | name name => simp only [hagree.evalName]
  | quote | error => rfl
  | const parts => simp only [hagree.evalConst]
  | date tokens => simp only [hagree.now]
  | unary op a => simp only [h (.operand op) a rfl ⟨hdepth, True.intro⟩]
  | property p a =>
    simp only [h (.property p) a rfl ⟨hdepth, True.intro⟩]
    exact hpassOn (hagree.property p)
  | binary op a b =>
    simp only [h (.left op b) a rfl ⟨hdepth, True.intro⟩]
    apply hpassOn
    intro ha
    simp only [h (.right op a) b rfl ⟨hdepth, ha⟩, hagree.apply]
  | product factors =>
    simp only
    rw [evalFactors_congr hagree]
    intro before after e product hfactors hproducts hadopt hcounted
    exact h (.factor before after) e (hfactors ▸ rfl)
      ⟨hdepth, product, hproducts, hadopt, hcounted⟩
  | call f args =>
    have hargs : evalArgs l' env' (depth' + 1) f 1 args = evalArgs l env (depth + 1) f 1 args := by
      apply evalArgs_congr
      intro before a after hargs hbefore
      exact h (.argument f before after) a (hargs ▸ rfl) ⟨hdepth, hbefore⟩
    simp only [hargs]
    cases hvalues : evalArgs l env (depth + 1) f 1 args with
    | error d => rfl
    | ok values => exact hagree.call f values (isError_of_evalArgs hvalues)

end Expr

end Reckoner
