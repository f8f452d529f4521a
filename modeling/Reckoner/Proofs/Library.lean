import Reckoner.Expr.Property
import Reckoner.Proofs.Diagnostic
import Reckoner.Proofs.Unit.Registry

/-!
# What functions and constants raise

The errors of the standard library are raw: a function that fails says what is wrong with its
arguments and leaves it to evaluation to say where (`raises_standardLibrary`). A library may raise
errors of another kind; what holds of its functions and of all raw errors holds of its calls
(`Library.raises_call`).
-/

namespace Reckoner

/-- The errors of a function, on arguments without errors, have a property. -/
def Function.Raises (P : Diagnostic → Prop) (f : Function) : Prop :=
  ∀ (env : Environment) (args : List Value), (∀ v ∈ args, v.isError = false) →
    (f.run env args).Raises P

/-- The errors of all functions have a property. -/
def Library.Raises (P : Diagnostic → Prop) (l : Library) : Prop :=
  ∀ p ∈ l.functions, p.2.Raises P

/-- The errors of a function, on arguments without errors, carry no origin. -/
def Function.RaisesBare (f : Function) : Prop :=
  ∀ (env : Environment) (args : List Value), (∀ v ∈ args, v.isError = false) →
    (f.run env args).IsBare

/-- The errors of all functions carry no origin. -/
def Library.RaisesBare (l : Library) : Prop := ∀ p ∈ l.functions, p.2.RaisesBare

/-! ## Reading arguments -/

namespace Call

variable (c : Call) (i : Nat)

theorem failsRaw_arg : FailsRaw (c.arg i) := by
  unfold arg
  split
  · exact failsRaw_ok
  · exact raw_error ⟨rfl, rfl⟩

theorem failsRaw_argAs {α : Type} (expected : String) (view? : Value → Option α) :
    FailsRaw (c.argAs i expected view?) := by
  apply raw_bind (c.failsRaw_arg i)
  intro v
  split
  · exact failsRaw_ok
  · exact raw_error ⟨rfl, rfl⟩

theorem failsRaw_quantity : FailsRaw (c.quantity i) := c.failsRaw_argAs i _ _

theorem failsRaw_moment : FailsRaw (c.moment i) := c.failsRaw_argAs i _ _

theorem failsRaw_text : FailsRaw (c.text i) := c.failsRaw_argAs i _ _

theorem failsRaw_number : FailsRaw (c.number i) := by
  apply raw_bind (c.failsRaw_quantity i)
  intro q
  simp only
  split
  · exact failsRaw_ok
  · exact raw_error ⟨rfl, rfl⟩

theorem failsRaw_integer (fits : Int → Bool) : FailsRaw (c.integer i fits) := by
  apply raw_bind (c.failsRaw_number i)
  intro x
  split
  · exact raw_error ⟨rfl, rfl⟩
  · split
    · exact failsRaw_ok
    · exact raw_error ⟨rfl, rfl⟩

theorem failsRaw_optional {α : Type} {default : α} {read : Nat → Except Diagnostic α}
    (h : ∀ i, FailsRaw (read i)) : FailsRaw (c.optional i default read) := by
  unfold optional
  split
  · exact h i
  · exact failsRaw_ok

end Call

namespace Function

variable (c : Call) (i : Nat)

theorem failsRaw_fieldArg : FailsRaw (fieldArg c i) :=
  raw_bind (c.failsRaw_integer i _) fun _ => failsRaw_ok

theorem failsRaw_dateArgs : FailsRaw (dateArgs c) := by
  apply raw_bind (c.failsRaw_integer 0 _)
  intro year
  apply raw_bind (failsRaw_fieldArg c 1)
  intro month
  exact raw_bind (failsRaw_fieldArg c 2) fun _ => failsRaw_ok

theorem failsRaw_timeArgs : FailsRaw (timeArgs c i) := by
  apply raw_bind (failsRaw_fieldArg c i)
  intro hour
  apply raw_bind (failsRaw_fieldArg c (i + 1))
  intro minute
  exact raw_bind (c.failsRaw_optional (i + 2) (failsRaw_fieldArg c)) fun _ => failsRaw_ok

theorem failsRaw_unitArg : FailsRaw (unitArg c i) := by
  apply raw_bind (c.failsRaw_arg i)
  intro v
  split
  · exact failsRaw_parseUnit _
  · exact failsRaw_ok
  · exact raw_error ⟨rfl, rfl⟩

/-! ## Functions -/

theorem raises_define {info : FunctionInfo} {body : Call → Except Diagnostic Value}
    (h : ∀ c, Raw (Value.Raises Diagnostic.IsRaw) (body c)) : (define info body).Raises Diagnostic.IsRaw :=
  fun _ _ _ => Value.raises_ofExcept (h _)

/-- The value of a function that reads its arguments and computes with them. -/
theorem raw_return {α : Type} {x : Except Diagnostic α} {g : α → Value} (hx : FailsRaw x)
    (hg : ∀ a, (g a).isError = false) : Raw (Value.Raises Diagnostic.IsRaw) (x >>= fun a => pure (g a)) :=
  raw_bind hx fun a => raw_ok (Value.raises_of_isError (hg a))

theorem raises_onValue {info : FunctionInfo} (f : Number → Number) :
    (define info (onValue f)).Raises Diagnostic.IsRaw := by
  apply raises_define
  intro c
  exact raw_return (c.failsRaw_quantity 0) fun _ => rfl

theorem raises_round : round.Raises Diagnostic.IsRaw := by
  apply raises_define
  intro c
  apply raw_bind (c.failsRaw_optional 1 fun i => c.failsRaw_integer i _)
  intro places
  split
  · exact raw_return (c.failsRaw_quantity 0) fun _ => rfl
  · split
    · exact raw_error ⟨rfl, rfl⟩
    · apply raw_bind (c.failsRaw_quantity 0)
      intro q
      exact raw_return (failsRaw_lift Diagnostic.isRaw_ofNumber) fun _ => rfl

theorem raises_arithmetic : ∀ f ∈ arithmetic, f.Raises Diagnostic.IsRaw := by
  simp only [arithmetic, List.forall_mem_cons, List.not_mem_nil, false_imp_iff, implies_true,
    and_true]
  refine ⟨?_, ?_, ?_, ?_, raises_onValue _, raises_round, raises_onValue _,
    raises_onValue _⟩
  all_goals
    apply raises_define
    intro c
  · apply raw_bind (c.failsRaw_quantity 0)
    intro q
    exact raw_return (failsRaw_lift Diagnostic.isRaw_ofConversion) fun _ => rfl
  · apply raw_bind (c.failsRaw_number 0)
    intro x
    exact raw_return (failsRaw_lift Diagnostic.isRaw_ofNumber) fun _ => rfl
  · exact raw_return (c.failsRaw_number 0) fun _ => rfl
  · apply raw_bind (c.failsRaw_quantity 0)
    intro base
    apply raw_bind (c.failsRaw_quantity 1)
    intro exponent
    exact raw_return (failsRaw_lift Diagnostic.isRaw_ofConversion) fun _ => rfl

theorem raises_trigonometry : ∀ f ∈ trigonometry, f.Raises Diagnostic.IsRaw := by
  simp only [trigonometry, List.forall_mem_cons, List.not_mem_nil, false_imp_iff, implies_true,
    and_true]
  refine ⟨?_, ?_, ?_⟩
  all_goals
    apply raises_define
    intro c
  · exact raw_return (c.failsRaw_number 0) fun _ => rfl
  · exact raw_return (c.failsRaw_number 0) fun _ => rfl
  · apply raw_bind (c.failsRaw_number 0)
    intro x
    exact raw_return (failsRaw_lift Diagnostic.isRaw_ofNumber) fun _ => rfl

theorem raises_field (name description : String) (examples : List String)
    (f : Moment → Int) : (field name description examples f).Raises Diagnostic.IsRaw := by
  apply raises_define
  intro c
  exact raw_return (c.failsRaw_moment 0) fun _ => rfl

theorem raises_diff : diff.Raises Diagnostic.IsRaw := by
  apply raises_define
  intro c
  apply raw_bind (c.failsRaw_moment 0)
  intro last
  apply raw_bind (c.failsRaw_moment 1)
  intro first
  refine raw_return (c.failsRaw_optional 2 fun i => ?_) fun _ => rfl
  apply raw_bind (c.failsRaw_text i)
  intro text
  apply raw_bind (failsRaw_parseUnit text)
  intro u
  exact failsRaw_lift Diagnostic.isRaw_ofConversion

theorem raises_dates : ∀ f ∈ dates, f.Raises Diagnostic.IsRaw := by
  simp only [dates, fields, List.forall_mem_append, List.forall_mem_cons, List.not_mem_nil,
    false_imp_iff, implies_true, and_true, raises_field]
  refine ⟨?_, ?_, ?_, ?_, ?_, ?_, ?_, raises_diff⟩
  all_goals
    apply raises_define
    intro c
  · apply raw_bind (failsRaw_dateArgs c)
    intro d
    exact raw_return (failsRaw_lift Diagnostic.isRaw_ofDate) fun _ => rfl
  · apply raw_bind (failsRaw_dateArgs c)
    intro d
    apply raw_bind (failsRaw_timeArgs c 3)
    intro t
    exact raw_return (failsRaw_lift Diagnostic.isRaw_ofDate) fun _ => rfl
  · apply raw_bind (failsRaw_timeArgs c 0)
    intro t
    exact raw_return (failsRaw_lift Diagnostic.isRaw_ofDate) fun _ => rfl
  · exact raw_ok (Value.raises_of_isError rfl)
  · apply raw_bind (c.failsRaw_text 0)
    intro text
    exact raw_return (failsRaw_lift Diagnostic.isRaw_ofDate) fun _ => rfl
  · apply raw_bind (c.failsRaw_moment 0)
    intro m
    exact raw_return (c.failsRaw_optional 1 c.failsRaw_text) fun _ => rfl
  · apply raw_bind (c.failsRaw_moment 0)
    intro m
    apply raw_bind (c.failsRaw_integer 1 _)
    intro months
    exact raw_return (failsRaw_lift Diagnostic.isRaw_ofDate) fun _ => rfl

theorem raises_units : ∀ f ∈ units, f.Raises Diagnostic.IsRaw := by
  simp only [units, List.forall_mem_cons, List.not_mem_nil, false_imp_iff, implies_true, and_true]
  refine ⟨?_, ?_, ?_, ?_, ?_, ?_, ?_, ?_⟩
  all_goals
    apply raises_define
    intro c
  · apply raw_bind (c.failsRaw_quantity 0)
    intro q
    apply raw_bind (failsRaw_unitArg c 1)
    intro u
    exact raw_return (failsRaw_lift Diagnostic.isRaw_ofConversion) fun _ => rfl
  · apply raw_bind (c.failsRaw_quantity 0)
    intro q
    exact raw_return (failsRaw_coherentUnit q.unit c.settings) fun _ => rfl
  · exact raw_return (c.failsRaw_quantity 0) fun _ => rfl
  · exact raw_return (c.failsRaw_quantity 0) fun _ => rfl
  · exact raw_return (failsRaw_unitArg c 0) fun _ => rfl
  · exact raw_return (failsRaw_unitArg c 0) fun _ => rfl
  · exact raw_return (failsRaw_unitArg c 0) fun _ => rfl
  · apply raw_bind (failsRaw_unitArg c 0)
    intro u
    exact raw_return (failsRaw_unitArg c 1) fun _ => rfl

end Function

/-! ## Constants -/

theorem Constant.failsRaw_quantity (c : Constant) (precision : Nat) :
    FailsRaw (c.quantity precision) := by
  refine raw_bind ?_ fun x => ?_
  · unfold Constant.value evalFormula
    split
    · exact failsRaw_ok
    · split
      · exact failsRaw_lift Diagnostic.isRaw_ofNumber
      · exact raw_error ⟨rfl, rfl⟩
  · apply raw_bind (failsRaw_parseUnit c.unit)
    intro u
    exact failsRaw_ok

/-! ## Libraries -/

namespace Library

variable {l : Library} {P : Diagnostic → Prop}

section

variable {Q : Function → Prop}

theorem forall_addFunction {f : Function} (hl : ∀ p ∈ l.functions, Q p.2) (hf : Q f) :
    ∀ p ∈ (l.addFunction f).functions, Q p.2 := by
  intro p hp
  rcases mem_setKey hp with rfl | hp
  · exact hf
  · exact hl p hp

/-- What holds of functions one by one holds of all functions of their library. -/
theorem forall_ofLists {functions : List Function} (h : ∀ f ∈ functions, Q f)
    (constants : List Constant) : ∀ p ∈ (ofLists functions constants).functions, Q p.2 := by
  have hfunctions : ∀ l : Library, (∀ p ∈ l.functions, Q p.2) →
      ∀ p ∈ (functions.foldl addFunction l).functions, Q p.2 := by
    induction functions with
    | nil => exact fun _ hl => hl
    | cons f functions ih =>
      obtain ⟨hf, hrest⟩ := List.forall_mem_cons.1 h
      exact fun l hl => ih hrest _ (forall_addFunction hl hf)
  have hconstants : ∀ l : Library, (∀ p ∈ l.functions, Q p.2) →
      ∀ p ∈ (constants.foldl addConstant l).functions, Q p.2 := by
    induction constants with
    | nil => exact fun _ hl => hl
    | cons c constants ih => exact fun l hl => ih (l.addConstant c) hl
  exact hconstants _ (hfunctions {} fun p hp => nomatch hp)

end

theorem isRaw_unknownFunction (l : Library) (name : String) : (l.unknownFunction name).IsRaw := by
  simp only [unknownFunction]
  split <;> exact ⟨rfl, rfl⟩

theorem isRaw_checkArity {f : FunctionInfo} {count : Nat} {d : Diagnostic}
    (h : f.checkArity count = .error d) : d.IsRaw := by
  unfold FunctionInfo.checkArity at h
  split at h
  · cases h
  · cases h
    exact ⟨rfl, rfl⟩

/-- An error of a call is one of the function or a raw one. -/
theorem raises_call (hP : ∀ d : Diagnostic, d.IsRaw → P d) (hl : l.Raises P) (env : Environment)
    (name : String) {args : List Value} (hargs : ∀ v ∈ args, v.isError = false) :
    (l.call env name args).Raises P := by
  unfold call
  split
  · rintro _ ⟨⟩
    exact hP _ (isRaw_unknownFunction l name)
  · next f hf =>
    split
    · next d hd =>
      rintro _ ⟨⟩
      exact hP _ (isRaw_checkArity hd)
    · exact hl _ (mem_of_lookup hf) env args hargs

theorem isError_part? {v part : Value} {key : String} (h : v.part? key = some part) :
    part.isError = false := by
  cases v with
  | quantity q =>
    simp only [Value.part?, Value.quantityPart?] at h
    split at h <;> cases h <;> rfl
  | moment m =>
    obtain ⟨n, -, rfl⟩ := Option.map_eq_some_iff.1 h
    rfl
  | text | bool | error => cases h

/-- An error of a property is one of a function or a raw one. -/
theorem raises_property (hP : ∀ d : Diagnostic, d.IsRaw → P d) (hl : l.Raises P)
    (env : Environment) (property : String) {v : Value} (hv : v.isError = false) :
    (l.property env property v).Raises P := by
  unfold Library.property
  simp only
  split
  · intro d hd
    apply hP
    refine Value.raises_ofExcept ?_ d hd
    apply raw_bind (failsRaw_lift Diagnostic.isRaw_ofNumber)
    intro x
    cases v with
    | quantity q => exact raw_ok (Value.raises_of_isError rfl)
    | moment | text | bool | error => exact raw_error ⟨rfl, rfl⟩
  · split
    · next part hpart =>
      exact Value.raises_of_isError (isError_part? hpart)
    · split
      · exact raises_call hP hl env _ (by simpa using hv)
      · rintro _ ⟨⟩
        exact hP _ ⟨rfl, rfl⟩

end Library

/-- What holds of the functions of every category holds of all standard functions. -/
theorem forall_standardLibrary {Q : Function → Prop} (harithmetic : ∀ f ∈ Function.arithmetic, Q f)
    (htrigonometry : ∀ f ∈ Function.trigonometry, Q f) (hdates : ∀ f ∈ Function.dates, Q f)
    (hunits : ∀ f ∈ Function.units, Q f) : ∀ p ∈ standardLibrary.functions, Q p.2 := by
  apply Library.forall_ofLists
  simp only [List.forall_mem_append]
  exact ⟨⟨⟨harithmetic, htrigonometry⟩, hdates⟩, hunits⟩

/-- All errors of the standard library are raw. -/
theorem raises_standardLibrary : standardLibrary.Raises Diagnostic.IsRaw :=
  forall_standardLibrary Function.raises_arithmetic Function.raises_trigonometry
    Function.raises_dates Function.raises_units

/-- No error of the standard library carries an origin. -/
theorem raisesBare_standardLibrary : standardLibrary.RaisesBare :=
  fun p hp env args hargs => (raises_standardLibrary p hp env args hargs).isBare

end Reckoner
