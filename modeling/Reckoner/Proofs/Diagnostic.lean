import Reckoner.Unit.Coherent
import Reckoner.Unit.Expression
import Reckoner.Value

/-!
# Diagnostics as they are raised

Where a diagnostic is raised, it knows nothing of the expression around it: nodes and notes are added
by evaluation only, and only evaluation finds that an expression nests too deep. Such a diagnostic is
raw (`Diagnostic.IsRaw`). `Raw` says of a computation that it fails in this way only, and follows a
sequence of steps one step at a time (`raw_bind`). All errors of numbers, units and dates are raw.
-/

namespace Reckoner

namespace Diagnostic

/-- The diagnostic of an expression that nests too deep. -/
def isTooComplex (d : Diagnostic) : Bool := d.code == "TOO_COMPLEX"

/-- Neither of an origin nor of the depth of an expression is anything known yet. -/
structure IsRaw (d : Diagnostic) : Prop where
  origin : d.origin = none
  shallow : d.isTooComplex = false

theorem isRaw_ofNumber (e : NumberError) : (ofNumber e).IsRaw := by
  cases e <;> exact ⟨rfl, rfl⟩

theorem isRaw_ofConversion (e : ConversionError) : (ofConversion e).IsRaw := by
  cases e with
  | number e => exact isRaw_ofNumber e
  | incompatible | unknownUnit | invalidExponent => exact ⟨rfl, rfl⟩

theorem isRaw_ofDate (e : DateError) : (ofDate e).IsRaw := by
  cases e <;> exact ⟨rfl, rfl⟩

end Diagnostic

/-- Failures are raw, and values have a property. -/
structure Raw {α : Type} (p : α → Prop) (x : Except Diagnostic α) : Prop where
  value : ∀ a, x = .ok a → p a
  error : ∀ d, x = .error d → d.IsRaw

/-- Failures are raw. -/
abbrev FailsRaw {α : Type} (x : Except Diagnostic α) : Prop := Raw (fun _ => True) x

section

variable {α β : Type} {p : α → Prop} {q : β → Prop}

theorem raw_ok {a : α} (h : p a) : Raw p (.ok a) where
  value := by
    rintro _ ⟨⟩
    exact h
  error := by
    rintro _ ⟨⟩

theorem failsRaw_ok {a : α} : FailsRaw (.ok a) := raw_ok True.intro

theorem raw_error {d : Diagnostic} (h : d.IsRaw) : Raw p (.error d) where
  value := by
    rintro _ ⟨⟩
  error := by
    rintro _ ⟨⟩
    exact h

/-- A sequence is raw if its first step is, and its second one for every value of the first. -/
theorem raw_bind {x : Except Diagnostic α} {f : α → Except Diagnostic β} (hx : FailsRaw x)
    (hf : ∀ a, Raw q (f a)) : Raw q (x >>= f) := by
  cases x with
  | error d => exact raw_error (hx.error d rfl)
  | ok a => exact hf a

theorem raw_lift {ε : Type} {diagnose : ε → Diagnostic} {x : Except ε α}
    (h : ∀ e, (diagnose e).IsRaw) (hx : ∀ a, x = .ok a → p a) :
    Raw p (Diagnostic.lift diagnose x) := by
  cases x with
  | error e => exact raw_error (h e)
  | ok a => exact raw_ok (hx a rfl)

theorem failsRaw_lift {ε : Type} {diagnose : ε → Diagnostic} {x : Except ε α}
    (h : ∀ e, (diagnose e).IsRaw) : FailsRaw (Diagnostic.lift diagnose x) :=
  raw_lift h fun _ _ => True.intro

theorem raw_map {f : α → β} {x : Except Diagnostic α} (hx : FailsRaw x) (hf : ∀ a, q (f a)) :
    Raw q (x.map f) := by
  cases x with
  | error d => exact raw_error (hx.error d rfl)
  | ok a => exact raw_ok (hf a)

theorem failsRaw_foldlM {f : β → α → Except Diagnostic β} {as : List α} {b : β}
    (h : ∀ b a, FailsRaw (f b a)) : FailsRaw (as.foldlM f b) := by
  induction as generalizing b with
  | nil => exact failsRaw_ok
  | cons a as ih =>
    rw [List.foldlM_cons]
    exact raw_bind (h b a) fun b' => ih

end

/-! ## Units -/

theorem failsRaw_resolve (r : Registry) (name : String) : FailsRaw (r.resolve name) := by
  unfold Registry.resolve
  split
  · exact failsRaw_ok
  · simp only
    split <;> exact raw_error ⟨rfl, rfl⟩

theorem failsRaw_readPower (r : Registry) (cs : List Char) : FailsRaw (r.readPower cs) := by
  have hpower : ∀ (base : List Char) (e : Int), FailsRaw (do
      let u ← r.resolve (String.ofList base)
      Diagnostic.lift .ofConversion (u.power e default)) := by
    intro base e
    apply raw_bind (failsRaw_resolve r _)
    intro u
    exact failsRaw_lift Diagnostic.isRaw_ofConversion
  unfold Registry.readPower
  simp only
  split
  · split
    · exact hpower _ _
    · exact raw_error ⟨rfl, rfl⟩
  · split
    · exact hpower _ _
    · exact failsRaw_resolve r _

theorem failsRaw_readProduct (r : Registry) (cs : List Char) : FailsRaw (r.readProduct cs) := by
  apply failsRaw_foldlM
  intro u f
  apply raw_bind (failsRaw_readPower r f)
  intro factor
  exact failsRaw_lift Diagnostic.isRaw_ofConversion

theorem failsRaw_readQuotient (r : Registry) (cs : List Char) :
    FailsRaw (r.readQuotient cs) := by
  unfold Registry.readQuotient
  split
  · exact failsRaw_readProduct r _
  · next first rest hcut =>
    apply raw_bind (failsRaw_readProduct r first)
    intro u
    apply failsRaw_foldlM
    intro v f
    apply raw_bind (failsRaw_readProduct r f)
    intro divisor
    exact failsRaw_lift Diagnostic.isRaw_ofConversion

theorem failsRaw_parse (r : Registry) (text : String) : FailsRaw (r.parse text) := by
  unfold Registry.parse
  simp only
  split
  · exact failsRaw_ok
  · split
    · exact failsRaw_ok
    · exact failsRaw_readQuotient r _

theorem failsRaw_parseUnit (text : String) : FailsRaw (parseUnit text) :=
  failsRaw_parse standardUnits text

theorem failsRaw_coherentUnit (u : MeasureUnit) (s : Settings) :
    FailsRaw (u.coherentUnit s) := by
  unfold MeasureUnit.coherentUnit Dimension.coherentUnit
  generalize standardUnits = r
  refine raw_bind (failsRaw_foldlM ?_) fun base => ?_
  · intro v term
    apply raw_bind (failsRaw_resolve r _)
    intro w
    exact failsRaw_lift Diagnostic.isRaw_ofConversion
  · exact failsRaw_lift Diagnostic.isRaw_ofConversion

/-! ## Values -/

namespace Value

variable {P : Diagnostic → Prop} {v : Value}

/-- An error among values has a property. -/
def Raises (P : Diagnostic → Prop) (v : Value) : Prop := ∀ d, v = .error d → P d

/-- An error among values carries no origin. -/
def IsBare (v : Value) : Prop := ∀ d, v = .error d → d.origin = none

theorem Raises.isBare (h : v.Raises Diagnostic.IsRaw) : v.IsBare := fun d hd => (h d hd).origin

theorem raises_of_isError (h : v.isError = false) : v.Raises P := by
  rintro d rfl
  cases h

/-- What is made of the result of a computation without errors is no error. -/
theorem raises_of_map {ε α : Type} {f : α → Value} (hf : ∀ a, (f a).isError = false)
    {x : Except ε α} (h : x.map f = .ok v) : v.Raises P := by
  cases x with
  | error e => cases h
  | ok a =>
    cases h
    exact raises_of_isError (hf a)

theorem raises_ofExcept {x : Except Diagnostic Value} (h : Raw (Raises Diagnostic.IsRaw) x) :
    (ofExcept x).Raises Diagnostic.IsRaw := by
  cases x with
  | ok v => exact h.value v rfl
  | error d =>
    rintro d' ⟨⟩
    exact h.error d rfl

end Value

end Reckoner
