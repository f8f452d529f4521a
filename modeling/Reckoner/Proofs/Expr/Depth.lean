import Reckoner.Proofs.Expr.Congruence
import Reckoner.Proofs.Expr.Raised

/-!
# The limit on the depth of trees

A tree that nests deeper than the settings allow is an error, and the limit does nothing else
(`depth_limit_cuts`): a value that is not such an error stays the same under every higher limit, and
a tree no higher than the limit is never such an error.

A node that is found too deep is evaluated, and so are all nodes above it; each of them passes the
error on with its code (`isTooComplex_plug`). Without that error the limit was not met anywhere, and
the tree is evaluated in the same way under a higher one. This supposes that the functions of the
library do not look at the limit themselves, as those of the standard library do not.
-/

namespace Reckoner

/-- The error of an expression that nests too deep. -/
def Value.isTooComplex (v : Value) : Bool := v.error?.any Diagnostic.isTooComplex

@[simp] theorem Diagnostic.isTooComplex_atNode (d : Diagnostic) (kind : String) :
    (d.atNode kind).isTooComplex = d.isTooComplex := rfl

@[simp] theorem Diagnostic.isTooComplex_withNote (d : Diagnostic) (note : String) :
    (d.withNote note).isTooComplex = d.isTooComplex := rfl

@[simp] theorem Value.isTooComplex_error (d : Diagnostic) :
    (Value.error d).isTooComplex = d.isTooComplex := rfl

@[simp] theorem Environment.withMaxDepth_maxDepth (env : Environment) (n : Nat) :
    (env.withMaxDepth n).settings.maxDepth = n := rfl

theorem Diagnostic.isTooComplex_foldl (notes : List String) (d : Diagnostic) :
    (notes.foldl withNote d).isTooComplex = d.isTooComplex := by
  induction notes generalizing d with
  | nil => rfl
  | cons note notes ih => rw [List.foldl_cons, ih, isTooComplex_withNote]

/-! ## Functions -/

/-- The values of a function, on arguments without errors, do not depend on the limit. -/
def Function.IgnoresDepth (f : Function) : Prop :=
  ∀ (env : Environment) (n : Nat) (args : List Value), (∀ v ∈ args, v.isError = false) →
    f.run (env.withMaxDepth n) args = f.run env args

/-- The values of all functions do not depend on the limit. -/
def Library.IgnoresDepth (l : Library) : Prop := ∀ p ∈ l.functions, p.2.IgnoresDepth

theorem Function.ignoresDepth_field (name description : String) (examples : List String)
    (f : Moment → Int) : (field name description examples f).IgnoresDepth :=
  fun _ _ _ _ => rfl

/-- The standard functions read other settings only. -/
theorem ignoresDepth_standardLibrary : standardLibrary.IgnoresDepth := by
  apply forall_standardLibrary
  · simp only [Function.arithmetic, List.forall_mem_cons, List.not_mem_nil, false_imp_iff,
      implies_true, and_true]
    refine ⟨?_, ?_, ?_, ?_, ?_, ?_, ?_, ?_⟩ <;> exact fun _ _ _ _ => rfl
  · simp only [Function.trigonometry, List.forall_mem_cons, List.not_mem_nil, false_imp_iff,
      implies_true, and_true]
    refine ⟨?_, ?_, ?_⟩ <;> exact fun _ _ _ _ => rfl
  · simp only [Function.dates, Function.fields, List.forall_mem_append, List.forall_mem_cons,
      List.not_mem_nil, false_imp_iff, implies_true, and_true, Function.ignoresDepth_field]
    refine ⟨?_, ?_, ?_, ?_, ?_, ?_, ?_, ?_⟩ <;> exact fun _ _ _ _ => rfl
  · simp only [Function.units, List.forall_mem_cons, List.not_mem_nil, false_imp_iff,
      implies_true, and_true]
    refine ⟨?_, ?_, ?_, ?_, ?_, ?_, ?_, ?_⟩ <;> exact fun _ _ _ _ => rfl

theorem Library.IgnoresDepth.agree {l : Library} (h : l.IgnoresDepth) (env : Environment)
    (n m : Nat) : Agree l (env.withMaxDepth n) l (env.withMaxDepth m) where
  settings := rfl
  now := rfl
  constant _ := rfl
  known _ := rfl
  call name args hargs := by
    unfold Library.call
    split
    · rfl
    · next f hf =>
      split
      · rfl
      · have hf := h _ (mem_of_lookup hf)
        rw [hf env m args hargs, hf env n args hargs]

namespace Expr

/-! ## Heights -/

mutual

/-- The number of levels below the root. -/
def height : Expr → Nat
  | binary _ left right => max left.height right.height + 1
  | unary _ operand | property _ operand => operand.height + 1
  | product factors => levels factors
  | call _ args => levels args
  | name _ | quote _ | const _ | date _ | error _ => 0

/-- The number of levels of a list of children, their own included. -/
def levels : List Expr → Nat
  | [] => 0
  | e :: es => max (e.height + 1) (levels es)

end

theorem height_lt_levels {e : Expr} {es : List Expr} (h : e ∈ es) : e.height < levels es := by
  induction es with
  | nil => cases h
  | cons e' es ih =>
    rw [levels]
    cases h with
    | head => omega
    | tail _ h => have := ih h; omega

/-- A child is lower than its node. -/
theorem height_lt_plug (step : Step) (e : Expr) : e.height < (step.plug e).height := by
  cases step with
  | left | right | operand | property =>
    simp only [Step.plug, height]
    omega
  | argument f before after =>
    simp only [Step.plug, height]
    exact height_lt_levels (List.mem_append_right before List.mem_cons_self)
  | factor before after =>
    simp only [Step.plug, height]
    exact height_lt_levels (List.mem_append_right before List.mem_cons_self)

variable {l l' : Library} {env env' : Environment} {depth depth' : Nat}

/-! ## Trees that nest too deep -/

theorem isTooComplex_of_lt (h : env.settings.maxDepth < depth) (e : Expr) :
    (e.evalAt l env depth).isTooComplex := by
  rw [evalAt.eq_def, if_pos h]
  rfl

theorem isTooComplex_plug {step : Step} {e : Expr} (h : step.Evaluates l env depth e)
    (he : (e.evalAt l env (depth + 1)).isTooComplex) :
    ((step.plug e).evalAt l env depth).isTooComplex := by
  cases hv : e.evalAt l env (depth + 1) with
  | error d =>
    rw [evalAt_plug h hv]
    simpa [hv] using he
  | quantity | moment | text | bool =>
    rw [hv] at he
    cases he

/-- With as many levels left, a tree has the same value in a context that agrees, unless it nests too
deep. -/
theorem evalAt_eq_of_agree (hagree : Agree l env l' env') {e : Expr}
    (hlevels : env.settings.maxDepth + depth' ≤ env'.settings.maxDepth + depth)
    (h : (e.evalAt l env depth).isTooComplex = false) :
    e.evalAt l' env' depth' = e.evalAt l env depth := by
  induction e using child_induction generalizing depth depth' with
  | node e ih =>
    have hdepth : depth ≤ env.settings.maxDepth := by
      by_contra hlt
      rw [isTooComplex_of_lt (Nat.not_le.1 hlt)] at h
      cases h
    apply evalAt_congr hagree hdepth (by omega)
    rintro step child rfl heval
    apply ih step child rfl (by omega)
    by_contra hchild
    rw [isTooComplex_plug heval (Bool.not_eq_false _ ▸ hchild)] at h
    cases h

/-- A tree no higher than the levels left does not nest too deep. -/
theorem isTooComplex_of_height (hl : l.Raises fun d => d.isTooComplex = false) {e : Expr}
    (hheight : depth + e.height ≤ env.settings.maxDepth) :
    (e.evalAt l env depth).isTooComplex = false := by
  induction e using child_induction generalizing depth with
  | node e ih =>
    cases hv : e.evalAt l env depth with
    | quantity | moment | text | bool => rfl
    | error d =>
      by_cases hclean : Clean l env depth e
      · obtain ⟨own, r, -, hr, rfl⟩ :=
          raised_of_clean (fun _ hd => hd.shallow) hl hclean (by omega) hv
        simpa [Diagnostic.isTooComplex_foldl] using hr
      · -- The error is passed on from a child, which is lower.
        simp only [Clean, not_forall, Bool.not_eq_false] at hclean
        obtain ⟨step, child, rfl, heval, herror⟩ := hclean
        obtain ⟨d', hd'⟩ := isError_iff.1 herror
        have hlower := height_lt_plug step child
        have hchild : (child.evalAt l env (depth + 1)).isTooComplex = false :=
          ih step child rfl (by omega)
        rw [evalAt_plug heval hd'] at hv
        cases hv
        simpa [hd'] using hchild

/-! ## The limit -/

/-- What limits on the depth of trees do to the value of an expression. -/
structure DepthLimitCuts (l : Library) (env : Environment) (e : Expr) : Prop where
  /-- A value other than the error of a tree that nests too deep stays under a higher limit. -/
  stays : ∀ n m, n ≤ m → (e.eval l (env.withMaxDepth n)).isTooComplex = false →
    e.eval l (env.withMaxDepth m) = e.eval l (env.withMaxDepth n)
  /-- A tree no higher than the limit does not nest too deep. -/
  admits : ∀ n, e.height ≤ n → (e.eval l (env.withMaxDepth n)).isTooComplex = false

theorem depthLimitCuts (hl : l.IgnoresDepth) (hraises : l.Raises fun d => d.isTooComplex = false)
    (env : Environment) (e : Expr) : DepthLimitCuts l env e where
  stays n m hle h := evalAt_eq_of_agree (hl.agree env n m) (Nat.add_le_add_right hle 0) h
  admits n h := isTooComplex_of_height hraises (by simpa using h)

/-- **The limit on the depth only cuts.** It never changes a value: a tree has the same one under all
limits that let it have one, and every limit does that for the trees up to its height. This holds
for the standard library, and for every library whose functions neither look at the limit nor raise
that error themselves. -/
theorem depth_limit_cuts :
    (∀ env e, DepthLimitCuts standardLibrary env e) ∧
    (∀ l : Library, l.IgnoresDepth → (l.Raises fun d => d.isTooComplex = false) →
      ∀ env e, DepthLimitCuts l env e) := by
  refine ⟨?_, fun l hl hraises env e => depthLimitCuts hl hraises env e⟩
  apply depthLimitCuts ignoresDepth_standardLibrary
  exact fun p hp env args hargs d hd => (raises_standardLibrary p hp env args hargs d hd).shallow

/-- Two signs in front of a call are too deep for one level and not for three, under the standard
library and under one whose only function counts its arguments. -/
theorem depth_limit_cuts_signs :
    (let e := unary .negative (.unary .positive (.call "abs" [.int 5]));
      (e.eval standardLibrary ⟨{ maxDepth := 1 }, default⟩).isTooComplex ∧
      e.height = 3 ∧
      (e.eval standardLibrary ⟨{ maxDepth := 3 }, default⟩).isTooComplex = false ∧
      e.eval standardLibrary ⟨{ maxDepth := 9 }, default⟩ =
        e.eval standardLibrary ⟨{ maxDepth := 3 }, default⟩) ∧
    (let count : Function := ⟨⟨"count", "", "", [⟨"x", "Any", "", none⟩], "Number", [], "", []⟩,
        fun _ args => .number (.ofInt args.length)⟩
      let l : Library := { functions := [("count", count)] }
      let e := unary .negative (.call "count" [.quote "x"]);
      l.IgnoresDepth ∧ (l.Raises fun d => d.isTooComplex = false) ∧
      e.eval l ⟨{ maxDepth := 2 }, default⟩ = .number (.ofInt (-1)) ∧
      e.eval l ⟨{ maxDepth := 9 }, default⟩ = .number (.ofInt (-1))) := by
  constructor
  · intro e
    have hcuts := depth_limit_cuts.1 ⟨{}, default⟩ e
    have hheight : e.height = 3 := rfl
    have hadmits := hcuts.admits 3 (Nat.le_of_eq hheight)
    exact ⟨rfl, hheight, hadmits, hcuts.stays 3 9 (by decide) hadmits⟩
  · intro count l e
    have hignores : l.IgnoresDepth := by
      intro p hp
      cases List.mem_singleton.1 hp
      exact fun _ _ _ _ => rfl
    have hraises : l.Raises fun d => d.isTooComplex = false := by
      intro p hp
      cases List.mem_singleton.1 hp
      exact fun _ _ _ => Value.raises_of_isError rfl
    have hcuts := depth_limit_cuts.2 l hignores hraises ⟨{}, default⟩ e
    have hvalue : e.eval l ⟨{ maxDepth := 2 }, default⟩ = .number (.ofInt (-1)) := by
      decide +kernel
    refine ⟨hignores, hraises, hvalue, ?_⟩
    exact (hcuts.stays 2 9 (by decide) (hcuts.admits 2 (by decide))).trans hvalue

end Expr

end Reckoner
