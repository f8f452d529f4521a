import Reckoner.Proofs.Exponents
import Reckoner.Unit.Basic

/-!
# Composed symbols

A composed symbol without any of the signs `·`, `/` and `^` is the symbol of one unit to the first
power (`eq_single_of_composeSymbol`). Whatever has such a symbol is therefore neither a product of
several units nor a power of one.
-/

namespace Reckoner

open Dimension (termText)

/-- A symbol without the sign of a product, a quotient or a power. -/
def IsAtomic (symbol : String) : Prop :=
  symbol ≠ "" ∧ ∀ sign ∈ symbol.toList, sign ≠ '·' ∧ sign ≠ '/' ∧ sign ≠ '^'

instance (symbol : String) : Decidable (IsAtomic symbol) :=
  @instDecidableAnd _ _ _ (List.decidableBAll _ symbol.toList)

theorem composeSymbol_single (name : String) : composeSymbol (.single name) = name := by
  simp [composeSymbol, Exponents.single, termText]

theorem mem_termText {name : String} {e : Int} (he : e ≠ 1) :
    '^' ∈ (termText name e).toList := by
  rw [termText, if_neg he, String.toList_append, String.toList_append]
  simp

theorem mem_intercalate_cons_cons (first second : String) (rest : List String) :
    '·' ∈ ("·".intercalate (first :: second :: rest)).toList := by
  rw [String.intercalate_cons_cons, String.toList_append, String.toList_append]
  simp

variable {c : Exponents}

/-- A symbol without slash has no component below it. -/
theorem pos_of_composeSymbol (hc : c.Reduced) (h : '/' ∉ (composeSymbol c).toList) :
    ∀ e ∈ c.entries, 0 < e.2 := by
  have hbelow : (c.entries.filter fun e => decide (e.2 < 0)) = [] := by
    by_contra hne
    apply h
    simp only [composeSymbol, List.isEmpty_map, List.isEmpty_iff, if_neg hne]
    split
    · rw [String.toList_append]
      simp
    · rw [String.toList_append, String.toList_append]
      simp
  intro e he
  have hge := List.filter_eq_nil_iff.1 hbelow e he
  have hne := hc e he
  simp only [decide_eq_true_eq] at hge
  omega

/-- The symbol of components with positive exponents is their product. -/
theorem composeSymbol_of_pos (hpos : ∀ e ∈ c.entries, 0 < e.2) :
    composeSymbol c = "·".intercalate (c.entries.map fun e => termText e.1 e.2.natAbs) := by
  have habove : (c.entries.filter fun e => decide (0 < e.2)) = c.entries :=
    List.filter_eq_self.2 fun e he => decide_eq_true (hpos e he)
  have hbelow : (c.entries.filter fun e => decide (e.2 < 0)) = [] :=
    List.filter_eq_nil_iff.2 fun e he => by
      have := hpos e he
      simp only [decide_eq_true_eq]
      omega
  simp only [composeSymbol, habove, hbelow, List.map_nil, List.isEmpty_nil, if_true]

/-- An atomic symbol is composed of one unit only, its own. -/
theorem eq_single_of_composeSymbol (hc : c.Reduced) (h : IsAtomic (composeSymbol c)) :
    c = .single (composeSymbol c) := by
  obtain ⟨hne, hsigns⟩ := h
  have hpos := pos_of_composeSymbol hc fun hslash => (hsigns _ hslash).2.1 rfl
  have hproduct := composeSymbol_of_pos hpos
  obtain ⟨entries, ascending, inRange⟩ := c
  match entries with
  | [] => exact absurd hproduct hne
  | [(name, e)] =>
    have hterm : composeSymbol ⟨[(name, e)], ascending, inRange⟩ = termText name e.natAbs :=
      hproduct.trans String.intercalate_singleton
    have hone : (e.natAbs : Int) = 1 := by
      by_contra hother
      rw [hterm] at hsigns
      exact (hsigns _ (mem_termText hother)).2.2 rfl
    have he : e = 1 := by
      have := hpos _ (List.mem_singleton_self _)
      omega
    rw [hterm, termText, if_pos hone]
    subst he
    rfl
  | first :: second :: rest =>
    rw [hproduct] at hsigns
    exact absurd rfl (hsigns _ (mem_intercalate_cons_cons _ _ _)).1

end Reckoner
