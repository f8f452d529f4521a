import Reckoner.Proofs.Expr.Path
import Reckoner.Proofs.Library

/-!
# Errors that a node raises itself

A node none of whose evaluated children is an error is clean. An error of a clean node is its own: the
node raised it, perhaps with a note that names a factor, and marked it with its kind
(`raised_of_clean`).

What a node does with the values of its children raises raw errors only: operators, properties,
products, and the range check at the end. The functions of a library may raise errors of another
kind; whatever holds of these and of all raw errors holds of what a clean node raises.
-/

namespace Reckoner

/-- The notes of a node and its kind are the origin of an error that had none. -/
theorem Diagnostic.origin_atNode_foldl {d : Diagnostic} (h : d.origin = none) (notes : List String)
    (kind : String) : ((notes.foldl withNote d).atNode kind).origin = some ⟨some kind, notes⟩ := by
  have hnotes : ∀ (notes before : List String) (d : Diagnostic), d.origin = some ⟨none, before⟩ →
      (notes.foldl withNote d).origin = some ⟨none, before ++ notes⟩ := by
    intro notes
    induction notes with
    | nil =>
      intro before d hd
      rw [List.foldl_nil, hd, List.append_nil]
    | cons note notes ih =>
      intro before d hd
      rw [List.foldl_cons, ih (before ++ [note]), List.append_assoc, List.singleton_append]
      rw [withNote, hd]
      rfl
  cases notes with
  | nil =>
    rw [List.foldl_nil, atNode, h]
    rfl
  | cons note notes =>
    rw [atNode, List.foldl_cons, hnotes notes [note] _ (by rw [withNote, h]; rfl)]
    rfl

namespace Expr

variable (l : Library) (env : Environment) (depth : Nat)

/-- No child that is evaluated is an error. -/
def Clean (n : Expr) : Prop :=
  ∀ step e, n = Step.plug step e → step.Evaluates l env depth e →
    (e.evalAt l env (depth + 1)).isError = false

/-- The note that a node makes itself: a product names a factor that is not a quantity, and no other
node makes one. -/
inductive OwnNotes : Expr → List String → Prop where
  | factor {before after : List Expr} {e : Expr} :
    (Step.factor before after).Evaluates l env depth e →
    (e.evalAt l env (depth + 1)).quantity? = none →
    OwnNotes (.product (before ++ e :: after)) ["factor " ++ Text.decimal (before.length + 1)]
  | none {n : Expr} :
    (∀ before after e, n = .product (before ++ e :: after) →
      (Step.factor before after).Evaluates l env depth e →
      (e.evalAt l env (depth + 1)).quantity?.isSome) →
    OwnNotes n []

variable {l env depth} {P : Diagnostic → Prop}

/-! ## The values of single nodes -/

/-- An error of a node is one that it raises, or one of the range check. -/
theorem exists_of_finish {v : Value} {kind : String} {s : Settings} {d : Diagnostic}
    (hP : ∀ d : Diagnostic, d.IsRaw → P d) (hv : v.Raises P) (h : v.finish kind s = .error d) :
    ∃ r, P r ∧ d = r.atNode kind := by
  cases v with
  | quantity q =>
    simp only [Value.finish] at h
    split at h
    · cases h
    · next e _ =>
      cases h
      exact ⟨_, hP _ (Diagnostic.isRaw_ofNumber e), rfl⟩
  | error r =>
    cases h
    exact ⟨r, hv r rfl, rfl⟩
  | moment | text | bool => cases h

theorem raises_evalName (l : Library) (env : Environment) (name : String) :
    (l.evalName env name).Raises Diagnostic.IsRaw := by
  unfold Library.evalName
  generalize standardUnits = r
  apply Value.raises_ofExcept
  split
  · exact raw_ok (Value.raises_of_isError rfl)
  · split
    · next c _ =>
      exact raw_map (c.failsRaw_quantity _) fun q => Value.raises_of_isError rfl
    · split
      · exact raw_ok (Value.raises_of_isError rfl)
      · exact raw_map (failsRaw_resolve r name) fun u => Value.raises_of_isError rfl

theorem raises_const (parts : NumberParts) (s : Settings) : (parts.eval s).Raises Diagnostic.IsRaw := by
  apply Value.raises_ofExcept
  apply raw_lift Diagnostic.isRaw_ofNumber
  intro v h
  obtain ⟨x, -, hx⟩ := bind_eq_ok_iff.1 h
  obtain ⟨y, -, ⟨⟩⟩ := bind_eq_ok_iff.1 hx
  exact Value.raises_of_isError rfl

theorem raises_date (tokens : List DateToken) (now : Moment) :
    (Value.ofExcept ((Moment.ofTokens tokens now).map .moment)).Raises Diagnostic.IsRaw := by
  apply Value.raises_ofExcept
  refine raw_map ?_ fun m => Value.raises_of_isError rfl
  unfold Moment.ofTokens
  simp only
  split
  · exact raw_error ⟨rfl, rfl⟩
  · exact failsRaw_lift Diagnostic.isRaw_ofDate

theorem raises_onQuantities {op : BinaryOp} {a b : Quantity} {s : Settings} {v : Value}
    (h : op.onQuantities a b s = .ok v) : v.Raises Diagnostic.IsRaw := by
  cases op <;> exact Value.raises_of_map (fun _ => rfl) h

theorem raises_apply (op : BinaryOp) (s : Settings) (a b : Value) : (op.apply s a b).Raises Diagnostic.IsRaw := by
  apply Value.raises_ofExcept
  split
  · exact raw_lift Diagnostic.isRaw_ofConversion fun _ => raises_onQuantities
  · exact raw_lift Diagnostic.isRaw_ofDate fun _ => Value.raises_of_map fun _ => rfl
  · exact raw_lift Diagnostic.isRaw_ofDate fun _ => Value.raises_of_map fun _ => rfl
  · exact raw_lift Diagnostic.isRaw_ofDate fun _ => Value.raises_of_map fun _ => rfl
  · exact raw_ok (Value.raises_of_isError rfl)
  · exact raw_ok (Value.raises_of_isError rfl)
  · exact raw_ok (Value.raises_of_isError rfl)
  · exact raw_ok (Value.raises_of_isError rfl)
  · exact raw_ok (Value.raises_of_isError rfl)
  · exact raw_error ⟨rfl, rfl⟩

theorem raises_unary (op : UnaryOp) {v : Value} (hv : v.isError = false) : (op.apply v).Raises Diagnostic.IsRaw := by
  cases op with
  | positive => exact Value.raises_of_isError hv
  | negative =>
    cases v with
    | quantity q => exact Value.raises_of_isError rfl
    | moment | text | bool | error =>
      rintro _ ⟨⟩
      exact ⟨rfl, rfl⟩

theorem failsRaw_multiplyBy (product : Option Quantity) (factor : Quantity) (s : Settings) :
    FailsRaw (multiplyBy product factor s) := by
  cases product with
  | none => exact failsRaw_ok
  | some q => exact failsRaw_lift Diagnostic.isRaw_ofConversion

/-! ## Children without errors -/

/-- All arguments of a clean call are evaluated, and none is an error. -/
theorem Clean.args {f : String} {args : List Expr} (h : Clean l env depth (.call f args))
    (hdepth : depth ≤ env.settings.maxDepth) :
    ∀ a ∈ args, (a.evalAt l env (depth + 1)).isError = false := by
  suffices hfront : ∀ before after, args = before ++ after →
      ∀ a ∈ before, (a.evalAt l env (depth + 1)).isError = false from
    hfront args [] (List.append_nil args).symm
  intro before
  -- Whether an argument is evaluated depends on all those in front of it, not on those behind.
  induction before using List.reverseRecOn with
  | nil =>
    intro after _ a ha
    cases ha
  | append_singleton before a ih =>
    intro after hargs
    rw [List.append_assoc] at hargs
    have hbefore := ih _ hargs
    have ha := h (.argument f before after) a (by rw [hargs]; rfl) ⟨hdepth, hbefore⟩
    exact List.forall_mem_append.2 ⟨hbefore, List.forall_mem_singleton.2 ha⟩

theorem evalArgs_eq_ok {f : String} {args : List Expr}
    (h : ∀ a ∈ args, (a.evalAt l env depth).isError = false) (i : Nat) :
    evalArgs l env depth f i args = .ok (args.map (evalAt l env depth)) := by
  induction args generalizing i with
  | nil => rw [evalArgs]; rfl
  | cons a args ih =>
    obtain ⟨ha, hargs⟩ := List.forall_mem_cons.1 h
    rw [evalArgs_cons ha, ih hargs]
    rfl

/-- If every factor that is evaluated is a quantity, a chain of factors fails for a product only. -/
theorem failsRaw_evalFactors {es : List Expr} {product : Option Quantity}
    (h : ∀ before after e product', es = before ++ e :: after →
      products? l env depth product before = some product' → adoptUnit? product' e = none →
      countedThing? e = none → (e.evalAt l env depth).quantity?.isSome) (i : Nat) :
    FailsRaw (evalFactors l env depth i product es) := by
  induction es generalizing product i with
  | nil =>
    rw [evalFactors]
    exact failsRaw_ok
  | cons e es ih =>
    -- What is said of the rest is said of the whole, with `e` in front of the factors before.
    have hrest : ∀ q, nextProduct? l env depth product e = some q →
        FailsRaw (evalFactors l env depth (i + 1) (some q) es) := by
      intro q hq
      apply ih
      intro before after e' product' hes hproducts
      apply h (e :: before) after e' product' (by rw [hes]; rfl)
      rw [products?, hq]
      exact hproducts
    cases hadopt : adoptUnit? product e with
    | some q =>
      rw [evalFactors_adopted hadopt]
      exact hrest q (by rw [nextProduct?, hadopt])
    | none =>
      obtain ⟨factor, hfactor⟩ : ∃ factor, countedThing? e = some factor ∨
          countedThing? e = none ∧ e.evalAt l env depth = .quantity factor := by
        cases hcounted : countedThing? e with
        | some thing => exact ⟨thing, .inl rfl⟩
        | none =>
          obtain ⟨factor, hvalue⟩ := Option.isSome_iff_exists.1
            (h [] es e product rfl rfl hadopt hcounted)
          exact ⟨factor, .inr ⟨rfl, quantity?_eq_some hvalue⟩⟩
      rw [evalFactors_factor hadopt hfactor]
      cases hq : multiplyBy product factor env.settings with
      | error d => exact raw_error ((failsRaw_multiplyBy _ _ _).error d hq)
      | ok q => exact hrest q (by rw [nextProduct?_of_factor hadopt hfactor, hq]; rfl)

/-- A factor that is evaluated and is neither a quantity nor an error is named. -/
theorem evalFactors_of_not_quantity {product : Option Quantity} {e : Expr}
    (hadopt : adoptUnit? product e = none) (hcounted : countedThing? e = none)
    (herror : (e.evalAt l env depth).isError = false)
    (hquantity : (e.evalAt l env depth).quantity? = none) (i : Nat) (es : List Expr) :
    evalFactors l env depth i product (e :: es) =
      .error ((Diagnostic.typeError "Quantity" (e.evalAt l env depth).typeName).withNote
        ("factor " ++ Text.decimal i)) := by
  rw [evalFactors]
  simp only [hadopt, hcounted]
  cases hv : e.evalAt l env depth with
  | quantity q =>
    rw [hv] at hquantity
    cases hquantity
  | error d =>
    rw [hv] at herror
    cases herror
  | moment | text | bool => rfl

/-! ## Clean nodes -/

/-- A node that is no product makes no note. -/
theorem ownNotes_nil {n : Expr} (h : ∀ factors, n ≠ .product factors) :
    OwnNotes l env depth n [] := by
  apply OwnNotes.none
  intro before after e hn
  exact absurd hn (h _)

/-- A node has raised an error itself: with a property, with its own notes, and marked with its
kind. -/
def RaisedBy (l : Library) (env : Environment) (depth : Nat) (P : Diagnostic → Prop) (n : Expr)
    (d : Diagnostic) : Prop :=
  ∃ own r, OwnNotes l env depth n own ∧ P r ∧ d = (own.foldl Diagnostic.withNote r).atNode n.kind

/-- A node that is no product raises the error of its operation. -/
theorem raisedBy_of_finish (hP : ∀ d : Diagnostic, d.IsRaw → P d) {n : Expr} {v : Value}
    {d : Diagnostic} (hn : ∀ factors, n ≠ .product factors) (hv : v.Raises P)
    (h : v.finish n.kind env.settings = .error d) : RaisedBy l env depth P n d := by
  obtain ⟨r, hr, hd⟩ := exists_of_finish hP hv h
  exact ⟨[], r, ownNotes_nil hn, hr, hd⟩

/-- A product that fails without an error of a factor. -/
theorem raised_of_clean_product (hP : ∀ d : Diagnostic, d.IsRaw → P d) {factors : List Expr}
    {d : Diagnostic} (hn : Clean l env depth (.product factors))
    (hdepth : depth ≤ env.settings.maxDepth)
    (h : Value.finish "mul" env.settings (.ofExcept
      ((evalFactors l env (depth + 1) 1 none factors).map .quantity)) = .error d) :
    RaisedBy l env depth P (.product factors) d := by
  by_cases hfactor : ∃ before after e, factors = before ++ e :: after ∧
      (Step.factor before after).Evaluates l env depth e ∧
      (e.evalAt l env (depth + 1)).quantity? = none
  · obtain ⟨before, after, e, rfl, heval, hquantity⟩ := hfactor
    have herror := hn (.factor before after) e rfl heval
    refine ⟨_, .typeError "Quantity" (e.evalAt l env (depth + 1)).typeName,
      .factor heval hquantity, hP _ ⟨rfl, rfl⟩, ?_⟩
    obtain ⟨-, product, hproduct, hadopt, hcounted⟩ := heval
    rw [evalFactors_append hproduct,
      evalFactors_of_not_quantity hadopt hcounted herror hquantity, Nat.add_comm 1] at h
    cases h
    rfl
  · push Not at hfactor
    have hquantity : ∀ before after e, factors = before ++ e :: after →
        (Step.factor before after).Evaluates l env depth e →
        (e.evalAt l env (depth + 1)).quantity?.isSome := by
      intro before after e hfactors heval
      exact Option.isSome_iff_ne_none.2 (hfactor before after e hfactors heval)
    have hfails : FailsRaw (evalFactors l env (depth + 1) 1 none factors) := by
      apply failsRaw_evalFactors
      intro before after e product hfactors hproduct hadopt hcounted
      exact hquantity before after e hfactors ⟨hdepth, product, hproduct, hadopt, hcounted⟩
    have hraises := Value.raises_ofExcept
      (raw_map hfails fun q => Value.raises_of_isError (v := .quantity q) rfl)
    obtain ⟨r, hr, hd⟩ := exists_of_finish hP (fun r hr => hP r (hraises r hr)) h
    refine ⟨[], r, .none fun before after e he => ?_, hr, hd⟩
    cases he
    exact hquantity before after e rfl

/-- **An error of a clean node is its own.** It has the property that all raw errors and those of the
functions have. -/
theorem raised_of_clean (hP : ∀ d : Diagnostic, d.IsRaw → P d) (hl : l.Raises P) {n : Expr}
    {d : Diagnostic} (hn : Clean l env depth n) (hdepth : depth ≤ env.settings.maxDepth)
    (h : n.evalAt l env depth = .error d) : RaisedBy l env depth P n d := by
  have hraw : ∀ {v : Value}, v.Raises Diagnostic.IsRaw → v.Raises P :=
    fun hv d hd => hP d (hv d hd)
  rw [evalAt.eq_def, if_neg (Nat.not_lt.2 hdepth)] at h
  cases n with
  | name name => exact raisedBy_of_finish hP (by simp) (hraw (raises_evalName l env name)) h
  | quote text => exact raisedBy_of_finish hP (by simp) (Value.raises_of_isError rfl) h
  | const parts => exact raisedBy_of_finish hP (by simp) (hraw (raises_const parts _)) h
  | date tokens => exact raisedBy_of_finish hP (by simp) (hraw (raises_date tokens _)) h
  | binary op a b =>
    have ha := hn (.left op b) a rfl ⟨hdepth, True.intro⟩
    have hb := hn (.right op a) b rfl ⟨hdepth, ha⟩
    simp only [passOn_of_isError_eq_false ha, passOn_of_isError_eq_false hb] at h
    exact raisedBy_of_finish hP (by simp) (hraw (raises_apply op _ _ _)) h
  | unary op a =>
    have ha := hn (.operand op) a rfl ⟨hdepth, True.intro⟩
    simp only [passOn_of_isError_eq_false ha] at h
    exact raisedBy_of_finish hP (by simp) (hraw (raises_unary op ha)) h
  | product factors => exact raised_of_clean_product hP hn hdepth h
  | property p a =>
    have ha := hn (.property p) a rfl ⟨hdepth, True.intro⟩
    simp only [passOn_of_isError_eq_false ha] at h
    exact raisedBy_of_finish hP (by simp) (Library.raises_property hP hl env p ha) h
  | call f args =>
    have hargs := hn.args hdepth
    simp only [evalArgs_eq_ok hargs] at h
    refine raisedBy_of_finish hP (by simp) (Library.raises_call hP hl env f ?_) h
    exact List.forall_mem_map.2 hargs
  | error message =>
    refine raisedBy_of_finish hP (by simp) ?_ h
    rintro _ ⟨⟩
    exact hP _ ⟨rfl, rfl⟩

/-- The origin of an error of a clean node holds the kind of the node and its own note, if there is
one. -/
theorem origin_of_clean (hl : l.RaisesBare) {n : Expr} {d : Diagnostic}
    (hn : Clean l env depth n) (h : n.evalAt l env depth = .error d) :
    ∃ own, OwnNotes l env depth n own ∧ d.origin = some ⟨some n.kind, own⟩ := by
  by_cases hdepth : depth ≤ env.settings.maxDepth
  · obtain ⟨own, r, hown, hr, rfl⟩ :=
      raised_of_clean (P := fun d => d.origin = none) (fun _ hd => hd.origin) hl hn hdepth h
    exact ⟨own, hown, Diagnostic.origin_atNode_foldl hr own n.kind⟩
  · -- A node that nests too deep evaluates none of its children.
    rw [evalAt.eq_def, if_pos (Nat.not_le.1 hdepth)] at h
    cases h
    refine ⟨[], .none fun before after e _ heval => ?_, rfl⟩
    exact absurd heval.1 hdepth

end Expr

end Reckoner
