import Reckoner.Text.Lowercase

/-!
# Lower case, character by character

Two characters are special in lower case, `Σ` and `İ`. A text without them is lowered character by
character (`lower_eq_map`).
-/

namespace Reckoner.Text

/-- Lower case replaces the character by a single one, whatever stands around it. -/
def IsSimple (c : Char) : Prop := c ≠ 'Σ' ∧ c ≠ 'İ'

instance (c : Char) : Decidable (IsSimple c) := inferInstanceAs (Decidable (_ ∧ _))

theorem lowerFrom_eq_map {cs : List Char} (h : ∀ c ∈ cs, IsSimple c) (before : List Char) :
    lowerFrom before cs = cs.map lowerChar := by
  induction cs generalizing before with
  | nil => rfl
  | cons c cs ih =>
    obtain ⟨⟨hsigma, hdotted⟩, hcs⟩ := List.forall_mem_cons.1 h
    rw [lowerFrom, ih hcs]
    simp only [beq_iff_eq, if_neg hsigma, if_neg hdotted]
    rfl

theorem lower_eq_map {cs : List Char} (h : ∀ c ∈ cs, IsSimple c) : lower cs = cs.map lowerChar :=
  lowerFrom_eq_map h []

/-- A simple character is found in lower case, whatever stands around it. -/
theorem mem_lower {cs : List Char} {c : Char} (hsimple : IsSimple c) (hc : c ∈ cs) :
    lowerChar c ∈ lower cs := by
  unfold lower
  generalize ([] : List Char) = before
  induction cs generalizing before with
  | nil => cases hc
  | cons d cs ih =>
    rw [lowerFrom, List.mem_append]
    rcases List.mem_cons.1 hc with rfl | hc
    · left
      simp only [beq_iff_eq, if_neg hsimple.1, if_neg hsimple.2, List.mem_singleton]
    · exact .inr (ih hc _)

end Reckoner.Text
