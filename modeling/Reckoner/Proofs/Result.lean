import Reckoner.Diagnostic

/-!
# Results that may fail

How a computation in `Except` comes to its value: `bind_eq_ok_iff` takes a sequence of steps apart,
and turning one kind of error into another leaves the values alone.
-/

namespace Reckoner

variable {ε α β : Type}

theorem ok_bind (a : α) (f : α → Except ε β) : (Except.ok a >>= f) = f a := rfl

/-- A sequence of two steps has a value if both have. -/
theorem bind_eq_ok_iff {x : Except ε α} {f : α → Except ε β} {b : β} :
    (x >>= f) = .ok b ↔ ∃ a, x = .ok a ∧ f a = .ok b := by
  cases x with
  | error e => simp [bind, Except.bind]
  | ok a => simp [bind, Except.bind]

/-- A sequence of two steps fails if one of them does. -/
theorem bind_eq_error_iff {x : Except ε α} {f : α → Except ε β} {e : ε} :
    (x >>= f) = .error e ↔ x = .error e ∨ ∃ a, x = .ok a ∧ f a = .error e := by
  cases x with
  | error e' => simp [bind, Except.bind]
  | ok a => simp [bind, Except.bind]

/-- A computation has a value if one passes a test. -/
theorem exists_eq_ok {x : Except ε α} {p : α → Bool} (h : x.toOption.any p) :
    ∃ a, x = .ok a ∧ p a := by
  cases x with
  | error e => cases h
  | ok a => exact ⟨a, rfl, h⟩

theorem toOption_eq_some_iff {x : Except ε α} {a : α} : x.toOption = some a ↔ x = .ok a := by
  cases x <;> simp [Except.toOption]

theorem pure_eq_ok_iff {a b : α} : (pure a : Except ε α) = .ok b ↔ a = b := by
  simp [pure, Except.pure]

theorem map_eq_ok_iff {f : α → β} {x : Except ε α} {b : β} :
    x.map f = .ok b ↔ ∃ a, x = .ok a ∧ f a = b := by
  cases x <;> simp [Except.map]

theorem lift_eq_ok_iff {diagnose : ε → Diagnostic} {x : Except ε α} {a : α} :
    Diagnostic.lift diagnose x = .ok a ↔ x = .ok a := by
  cases x <;> simp [Diagnostic.lift]

/-- What every step of a fold preserves holds of its value. -/
theorem of_foldlM_eq_ok {P : β → Prop} {f : β → α → Except ε β} {as : List α} {b c : β}
    (hstep : ∀ b, ∀ a ∈ as, ∀ b', P b → f b a = .ok b' → P b') (hb : P b)
    (h : as.foldlM f b = .ok c) : P c := by
  induction as generalizing b with
  | nil =>
    obtain rfl := pure_eq_ok_iff.1 h
    exact hb
  | cons a as ih =>
    rw [List.foldlM_cons] at h
    obtain ⟨b', hb', hrest⟩ := bind_eq_ok_iff.1 h
    have hb'' := hstep b a List.mem_cons_self b' hb hb'
    exact ih (fun b a ha => hstep b a (List.mem_cons_of_mem _ ha)) hb'' hrest

theorem liftNumber_eq_ok_iff {x : Except NumberError α} {a : α} :
    liftNumber x = .ok a ↔ x = .ok a := by
  cases x <;> simp [liftNumber]

end Reckoner
