import Reckoner.Proofs.Expr.Path
import Mathlib.Data.Rat.Lemmas

/-!
# Expressions whose values are quantities

What can be said of the quantity that an expression evaluates to follows the tree. A value fits a
property of quantities if it is a quantity that has it, or an error (`Value.Fits`). For each kind of
node one lemma says how the property of its value comes from those of the values of its children:
`fits_literal`, `fits_unary`, `fits_binary` and `fits_product`. The limits on the size of numbers
and on the depth of trees only turn values into errors, so they play no part in it.
-/

namespace Reckoner

/-! ## Values -/

namespace Value

variable {P Q : Quantity → Prop} {v : Value} {s : Settings} {kind note : String}

/-- A quantity with the property, or an error. -/
def Fits (P : Quantity → Prop) : Value → Prop
  | .quantity q => P q
  | .error _ => True
  | _ => False

theorem Fits.finish (hv : v.Fits P) : (v.finish kind s).Fits P := by
  cases v with
  | quantity q =>
    rw [Value.finish]
    split
    · exact hv
    · trivial
  | error => trivial
  | moment | text | bool => exact hv

theorem Fits.passOn {next : Value → Value} (hv : v.Fits P)
    (hnext : ∀ q, P q → (next (.quantity q)).Fits Q) : (v.passOn note next).Fits Q := by
  cases v with
  | quantity q => exact hnext q hv
  | error => trivial
  | moment | text | bool => exact hv.elim

/-- The quantity with the property is the value. -/
theorem Fits.eq_and (hv : v.Fits P) : v.Fits fun q => v = .quantity q ∧ P q := by
  cases v with
  | quantity q => exact ⟨rfl, hv⟩
  | error => trivial
  | moment | text | bool => exact hv.elim

theorem fits_ofExcept {x : Except Diagnostic Quantity} (h : ∀ q, x = .ok q → P q) :
    (ofExcept (x.map .quantity)).Fits P := by
  cases x with
  | error d => trivial
  | ok q => exact h q rfl

end Value

/-! ## Nodes -/

namespace Expr

open Value (fits_ofExcept)

variable {l : Library} {env : Environment} {depth : Nat} {P Q R : Quantity → Prop}

/-- The value of a node is what is left of a value made in the manner of its kind. -/
theorem fits_node {e : Expr} {v : Value}
    (heval : e.evalAt l env depth =
      if env.settings.maxDepth < depth then
        .error ((Diagnostic.tooComplex env.settings.maxDepth).atNode e.kind)
      else v.finish e.kind env.settings)
    (hv : v.Fits P) : (e.evalAt l env depth).Fits P := by
  rw [heval]
  split
  · trivial
  · exact hv.finish

/-- A literal is the number of its parts, kept within the limits. -/
theorem fits_literal {parts : NumberParts}
    (h : ∀ x y, Number.ofParts parts = .ok x → x.withinLimits env.settings = .ok y →
      P (.plain y)) : ((const parts).evalAt l env depth).Fits P := by
  refine fits_node (evalAt.eq_def ..) ?_
  show (parts.eval env.settings).Fits P
  unfold NumberParts.eval
  cases hx : Number.ofParts parts with
  | error e => trivial
  | ok x =>
    cases hy : x.withinLimits env.settings with
    | error e =>
      simp only [bind, Except.bind, hy]
      trivial
    | ok y =>
      simp only [bind, Except.bind, hy]
      exact h x y hx hy

theorem fits_unary {op : UnaryOp} {a : Expr} (ha : (a.evalAt l env (depth + 1)).Fits P)
    (h : ∀ q, P q → (op.apply (.quantity q)).Fits Q) :
    ((unary op a).evalAt l env depth).Fits Q :=
  fits_node (evalAt.eq_def ..) (ha.passOn h)

/-- The operator is that of quantities, where it gives a quantity. -/
theorem fits_binary {op : BinaryOp} {a b : Expr}
    (f : Quantity → Quantity → Except ConversionError Quantity)
    (hop : ∀ p q, op.onQuantities p q env.settings = (f p q).map .quantity)
    (ha : (a.evalAt l env (depth + 1)).Fits P) (hb : (b.evalAt l env (depth + 1)).Fits Q)
    (h : ∀ p q r, P p → Q q → f p q = .ok r → R r) :
    ((binary op a b).evalAt l env depth).Fits R := by
  refine fits_node (evalAt.eq_def ..) (ha.passOn fun p hp => hb.passOn fun q hq => ?_)
  have happly : op.apply env.settings (.quantity p) (.quantity q) =
      .ofExcept (Diagnostic.lift .ofConversion ((f p q).map .quantity)) := by
    rw [← hop, BinaryOp.apply]
  rw [happly]
  cases hr : f p q with
  | error e => trivial
  | ok r => exact h p q r hp hq hr

theorem multiplyBy_some {p factor q : Quantity} {s : Settings}
    (h : multiplyBy (some p) factor s = .ok q) : p.mul factor s = .ok q := by
  cases hp : p.mul factor s with
  | ok r =>
    simp only [multiplyBy, hp] at h
    rw [Except.ok.inj h]
  | error e =>
    simp only [multiplyBy, hp] at h
    cases h

theorem fits_product {factors : List Expr}
    (h : ∀ q, evalFactors l env (depth + 1) 1 none factors = .ok q → P q) :
    ((product factors).evalAt l env depth).Fits P :=
  fits_node (evalAt.eq_def ..) (fits_ofExcept h)

end Expr

/-! ## Whole numbers -/

/-- The whole number that literal parts denote, if it is one. -/
def NumberParts.whole? (parts : NumberParts) : Option Int :=
  (Number.ofParts parts).toOption.bind fun x => if x.value.den = 1 then some x.value.num else none

theorem whole?_eq_some_iff {parts : NumberParts} {n : Int} :
    parts.whole? = some n ↔ ∃ x, Number.ofParts parts = .ok x ∧ x.value = n := by
  unfold NumberParts.whole?
  simp only [Option.bind_eq_some_iff, toOption_eq_some_iff]
  constructor
  · rintro ⟨x, hx, hn⟩
    split at hn
    · next hden =>
      obtain rfl := Option.some.inj hn
      exact ⟨x, hx, ((Rat.den_eq_one_iff _).1 hden).symm⟩
    · cases hn
  · rintro ⟨x, hx, hn⟩
    refine ⟨x, hx, ?_⟩
    rw [hn, if_pos (Rat.den_intCast n), Rat.num_intCast]

end Reckoner
