import Reckoner.Proofs.Expr.Raised
import Mathlib.Data.List.Forall2

/-!
# Where errors come from

An error that an expression evaluates to was raised at one node of it. From there it was passed on to
the root, and its origin tells the way:

* the kind of the node, and the note it may have made itself (`OwnNotes`);
* behind that one note for every step of the path, the innermost first.

Code, message, suggestion and severity are those that the node raised, and nothing to the right of
the path plays a part (`RaisedAt`, `error_provenance`).

The proof follows the tree. A node either has an evaluated child with an error, which it passes on
unchanged but for a note (`RaisedAt.step`), or it raised the error itself, and then the origin holds
the node and nothing but its own note (`origin_of_clean`).
-/

namespace Reckoner

namespace Diagnostic

/-- The innermost node stays. -/
theorem atNode_of_node {d : Diagnostic} {inner kind : String} {notes : List String}
    (h : d.origin = some ⟨some inner, notes⟩) : d.atNode kind = d := by
  obtain ⟨code, message, suggestion, origin, severity⟩ := d
  cases h
  rfl

theorem withNote_of_origin {d : Diagnostic} {origin : Origin} (h : d.origin = some origin)
    (note : String) :
    d.withNote note = { d with origin := some { origin with notes := origin.notes ++ [note] } } := by
  rw [withNote, h]
  rfl

end Diagnostic

namespace Expr

variable (l : Library) (env : Environment) (depth : Nat)

/-- The error `d` of an expression was raised at its node `n`, to which `path` leads, with the notes
`own` of that node. -/
structure RaisedAt (e : Expr) (d : Diagnostic) (path : List Step) (n : Expr) (own : List String) :
    Prop where
  tree : e = plug path n
  clean : Clean l env (depth + path.length) n
  ownNotes : OwnNotes l env (depth + path.length) n own
  /-- On the way to the root one note for every step is added, and nothing else. -/
  raised : ∃ r, n.evalAt l env (depth + path.length) = .error r ∧
    r.origin = some ⟨some n.kind, own⟩ ∧
    d = { r with origin := some ⟨some n.kind, own ++ (path.map Step.note).reverse⟩ }
  /-- The error is the same whatever stands to the right of the path. -/
  unaffected : ∀ path', List.Forall₂ Step.SameLeft path path' →
    (plug path' n).evalAt l env depth = .error d

variable {l env depth}

/-! ## Other trees to the right -/

theorem Step.SameLeft.note_eq {step step' : Step} (h : step.SameLeft step') :
    step.note = step'.note := by
  cases h <;> rfl

theorem adoptUnit?_plug (product : Option Quantity) (step : Step) (e : Expr) :
    adoptUnit? product (step.plug e) = none := by
  cases product <;> cases step <;> rfl

theorem countedThing?_plug (step : Step) (e : Expr) : countedThing? (step.plug e) = none := by
  cases step <;> rfl

/-- Whether a child is evaluated does not depend on what stands to the right of a path in it. -/
theorem Step.Evaluates.plug {step : Step} {path path' : List Step} {n : Expr}
    (h : step.Evaluates l env depth (Expr.plug path n))
    (hpath : List.Forall₂ Step.SameLeft path path') :
    step.Evaluates l env depth (Expr.plug path' n) := by
  cases hpath with
  | nil => exact h
  | cons =>
    obtain ⟨hdepth, hbefore⟩ := h
    refine ⟨hdepth, ?_⟩
    cases step with
    | left | operand | property | right | argument => exact hbefore
    | factor before after =>
      -- With a step inside, the factor is a node with children, and those are always evaluated.
      obtain ⟨product, hproduct, -, -⟩ := hbefore
      exact ⟨product, hproduct, adoptUnit?_plug _ _ _, countedThing?_plug _ _⟩

/-! ## One step towards the root -/

theorem RaisedAt.origin {e n : Expr} {d : Diagnostic} {path : List Step} {own : List String}
    (h : RaisedAt l env depth e d path n own) :
    d.origin = some ⟨some n.kind, own ++ (path.map Step.note).reverse⟩ := by
  obtain ⟨r, -, -, rfl⟩ := h.raised
  rfl

/-- An error with a node is passed on with a note and nothing else. -/
theorem RaisedAt.evalAt_plug {step : Step} {e n : Expr} {d : Diagnostic} {path : List Step}
    {own : List String} (h : RaisedAt l env (depth + 1) e d path n own) {e' : Expr}
    (heval : step.Evaluates l env depth e') (he' : e'.evalAt l env (depth + 1) = .error d) :
    (step.plug e').evalAt l env depth = .error (d.withNote step.note) := by
  rw [Expr.evalAt_plug heval he']
  congr 1
  apply Diagnostic.atNode_of_node
  rw [Diagnostic.withNote_of_origin h.origin]

/-- A clean node raises its error itself. -/
theorem RaisedAt.self (hl : l.RaisesBare) {n : Expr} {d : Diagnostic} (hn : Clean l env depth n)
    (h : n.evalAt l env depth = .error d) : ∃ own, RaisedAt l env depth n d [] n own := by
  obtain ⟨own, hown, horigin⟩ := origin_of_clean hl hn h
  refine ⟨own, ⟨rfl, hn, hown, ⟨d, h, horigin, ?_⟩, ?_⟩⟩
  · rw [List.map_nil, List.reverse_nil, List.append_nil, ← horigin]
  · intro path' hpath
    cases hpath
    exact h

/-- The node that raised the error of an evaluated child raised that of its parent. -/
theorem RaisedAt.step {step : Step} {e n : Expr} {d : Diagnostic} {path : List Step}
    {own : List String} (heval : step.Evaluates l env depth e)
    (h : RaisedAt l env (depth + 1) e d path n own) :
    RaisedAt l env depth (step.plug e) (d.withNote step.note) (step :: path) n own := by
  have hdepth : depth + (step :: path).length = depth + 1 + path.length := by
    rw [List.length_cons]
    omega
  obtain ⟨r, hr, horigin, hd⟩ := h.raised
  constructor
  · rw [h.tree]
    rfl
  · rw [hdepth]
    exact h.clean
  · rw [hdepth]
    exact h.ownNotes
  · refine ⟨r, by rw [hdepth, hr], horigin, ?_⟩
    rw [Diagnostic.withNote_of_origin h.origin, List.map_cons, List.reverse_cons,
      ← List.append_assoc, hd]
  · intro path' hpath
    cases hpath with
    | @cons _ step' _ path' hstep hpath =>
      -- First what stands to the right inside the child, then what stands behind its gap.
      have heval' := (h.tree ▸ heval : step.Evaluates l env depth (plug path n)).plug hpath
      rw [hstep.note_eq]
      exact h.evalAt_plug (heval'.sameLeft hstep) (h.unaffected path' hpath)

/-! ## From the root to the node -/

/-- Every error was raised at a node. -/
theorem exists_raisedAt (hl : l.RaisesBare) {e : Expr} {d : Diagnostic}
    (h : e.evalAt l env depth = .error d) : ∃ path n own, RaisedAt l env depth e d path n own := by
  induction e using child_induction generalizing depth d with
  | node e ih =>
    by_cases hclean : Clean l env depth e
    · obtain ⟨own, hself⟩ := RaisedAt.self hl hclean h
      exact ⟨[], e, own, hself⟩
    · -- An evaluated child is an error, and the node passes it on.
      simp only [Clean, not_forall, Bool.not_eq_false] at hclean
      obtain ⟨step, child, rfl, heval, herror⟩ := hclean
      obtain ⟨d', hd'⟩ := isError_iff.1 herror
      obtain ⟨path, n, own, hchild⟩ := ih step child rfl hd'
      have hd := hchild.evalAt_plug heval hd'
      rw [h] at hd
      cases hd
      exact ⟨step :: path, n, own, hchild.step heval⟩

/-- **Every error has a provenance.** If an expression evaluates to an error, it was raised at a node,
and the error names the kind of that node, its own note, and one note for every step from there to
the root. This holds for the standard library, and for every library whose functions leave the origin
of their errors open. -/
theorem error_provenance :
    (∀ env e d, e.eval standardLibrary env = .error d →
      ∃ path n own, RaisedAt standardLibrary env 0 e d path n own) ∧
    (∀ l : Library, l.RaisesBare → ∀ env e d, e.eval l env = .error d →
      ∃ path n own, RaisedAt l env 0 e d path n own) := by
  refine ⟨fun env e d h => ?_, fun l hl env e d h => ?_⟩
  · exact exists_raisedAt raisesBare_standardLibrary h
  · exact exists_raisedAt hl h

/-- An error in an operand of a factor, with another one to its right that is not reached, and an
error in an argument of a function that is not looked up. -/
theorem provenance_of_inner_errors :
    (∃ d path n own, eval standardLibrary ⟨{}, default⟩
        (.binary .sub (.product [.unary .negative (.error "x"), .name "m"]) (.error "y")) =
          .error d ∧
      d.message = "x" ∧ d.notes = ["from operand", "from factor 1", "from left operand"] ∧
      RaisedAt standardLibrary ⟨{}, default⟩ 0
        (.binary .sub (.product [.unary .negative (.error "x"), .name "m"]) (.error "y"))
        d path n own) ∧
    (Library.RaisesBare {} ∧ ∃ d path n own,
      eval {} ⟨{}, default⟩ (.call "f" [.unary .negative (.quote "t")]) = .error d ∧
      d.message = "Expected Quantity, got Text" ∧ d.notes = ["from argument 1 of f()"] ∧
      RaisedAt {} ⟨{}, default⟩ 0 (.call "f" [.unary .negative (.quote "t")]) d path n own) := by
  constructor
  · obtain ⟨path, n, own, h⟩ := error_provenance.1 ⟨{}, default⟩
      (.binary .sub (.product [.unary .negative (.error "x"), .name "m"]) (.error "y")) _ rfl
    exact ⟨_, path, n, own, rfl, rfl, rfl, h⟩
  · have hempty : Library.RaisesBare {} := nofun
    obtain ⟨path, n, own, h⟩ := error_provenance.2 {} hempty ⟨{}, default⟩
      (.call "f" [.unary .negative (.quote "t")]) _ rfl
    exact ⟨hempty, _, path, n, own, rfl, rfl, rfl, h⟩

end Expr

end Reckoner
