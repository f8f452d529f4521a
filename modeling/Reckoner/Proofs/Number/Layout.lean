import Reckoner.Proofs.Number.Parts
import Reckoner.Proofs.Text.DecimalText
import Mathlib.Algebra.Order.Ring.Cast
import Mathlib.Algebra.Order.Field.Rat
import Mathlib.Algebra.Order.Ring.Abs
import Mathlib.Tactic.Ring

/-!
# What number texts denote

Whatever the layout, digits of which the first stands at `10 ^ e` denote the same number. If they
read `m` without a point, this is

    m * 10 ^ (e + 1 - length)

in plain layout (`denotes_layoutPlain`), in scientific layout (`denotes_layoutScientific`), and with
the zeros at their end left out (`denotes_layoutDigits`).
-/

namespace Reckoner.Number

open Text

variable {cs : List Char} {m : Nat} {e : Int} {v : Rat}

theorem ten_zpow_mul {i j k : Int} (h : i + j = k) :
    (10 : Rat) ^ i * (10 : Rat) ^ j = (10 : Rat) ^ k := by
  rw [← zpow_add₀ (by decide), h]

/-! ## Signs -/

/-- A magnitude with its sign. -/
def signed (negative : Bool) (v : Rat) : Rat := if negative then -v else v

theorem signed_abs (r : Rat) : signed (r < 0) |r| = r := by
  unfold signed
  by_cases hneg : r < 0
  · rw [if_pos (by simpa using hneg), abs_of_neg hneg, neg_neg]
  · rw [if_neg (by simpa using hneg), abs_of_nonneg (not_lt.1 hneg)]

theorem cast_natAbs_num (r : Rat) : (r.num.natAbs : Rat) = |r| * r.den := by
  rw [Nat.cast_natAbs, Int.cast_abs, ← Rat.mul_den_eq_num, abs_mul, Nat.abs_cast]

theorem denotesUnsigned_digits (ne : cs ≠ []) (h : Denotes cs m) : DenotesUnsigned cs 0 m :=
  ⟨m, 0, .plain (.whole ne h), by simp⟩

/-- A sign in front of an unsigned text. -/
theorem denotes_signed (negative : Bool) (h : DenotesUnsigned cs e v) :
    DenotesDecimal (signText negative ++ cs) e (signed negative v) := by
  obtain ⟨n, places, htext, rfl⟩ := h
  cases negative with
  | false => exact ⟨n, places, .bare htext, by simp [signed]⟩
  | true => exact ⟨-n, places, .minus htext, by simp [signed]⟩

theorem denotes_layoutPlain (ne : cs ≠ []) (h : Denotes cs m) (e : Int) :
    DenotesUnsigned (layoutPlain cs e) 0 (m * (10 : Rat) ^ (e + 1 - cs.length)) := by
  unfold layoutPlain
  split
  · next he =>
    simp only
    split
    · -- Zeros fill the digits up to the point.
      next hlength =>
      have hdigits := h.append (denotes_zeros (e.toNat + 1 - cs.length))
      rw [Nat.add_zero, length_zeros] at hdigits
      have htext := denotesUnsigned_digits (by simp [ne]) hdigits
      have hexponent : e + 1 - cs.length = ((e.toNat + 1 - cs.length : Nat) : Int) := by omega
      rw [hexponent, zpow_natCast]
      exact_mod_cast htext
    · -- The point is among the digits.
      next hlength =>
      rw [← List.take_append_drop (e.toNat + 1) cs] at h
      refine ⟨m, _, .plain (.pointed (by simpa using ne) h), ?_⟩
      rw [List.length_drop]
      congr 2
      omega
  · -- The point is in front of them; one zero is before it and the others are behind.
    next he =>
    have hdigits := (denotes_zeros e.natAbs).append h
    rw [Nat.zero_mul, Nat.zero_add] at hdigits
    have hzeros : zeros e.natAbs = ['0'] ++ zeros (e.natAbs - 1) := by
      obtain ⟨k, hk⟩ : ∃ k, e.natAbs = k + 1 := ⟨e.natAbs - 1, by omega⟩
      rw [hk]
      rfl
    rw [hzeros, List.append_assoc] at hdigits
    refine ⟨m, _, .plain (.pointed (by simp) hdigits), ?_⟩
    rw [List.length_append, length_zeros]
    congr 2
    omega

theorem denotes_layoutScientific (ne : cs ≠ []) (h : Denotes cs m) (e : Int) :
    DenotesUnsigned (layoutScientific cs e) e (m * (10 : Rat) ^ (e + 1 - cs.length)) := by
  obtain ⟨c, fs, rfl⟩ := List.exists_cons_of_ne_nil ne
  have hmantissa : ∃ text, MantissaText text m fs.length ∧
      layoutScientific (c :: fs) e = text ++ 'e' :: (decimalInt e).toList := by
    cases fs with
    | nil => exact ⟨[c], .whole ne h, rfl⟩
    | cons d fs => exact ⟨[c] ++ '.' :: d :: fs, .pointed (by simp) h, by simp [layoutScientific]⟩
  obtain ⟨text, hmantissa, htext⟩ := hmantissa
  refine ⟨m, fs.length, ?_, ?_⟩
  · rw [htext]
    exact .scaled hmantissa rfl (exponentText_decimalInt e)
  · rw [List.length_cons]
    congr 2
    omega

/-- The zeros at the end of the digits can be left out. -/
theorem denotes_dropEndWhile (h : Denotes cs m) :
    ∃ k m', Denotes (dropEndWhile (· == '0') cs) m' ∧ m = m' * 10 ^ k ∧
      cs.length = (dropEndWhile (· == '0') cs).length + k := by
  have hpad := padEnd_dropEndWhile '0' cs
  have hdigit : ∀ c ∈ dropEndWhile (· == '0') cs, c.isDigit = true := fun c hc =>
    h.isDigit c ((dropEndWhile_sublist _ cs).subset hc)
  generalize dropEndWhile (· == '0') cs = ds at hpad hdigit ⊢
  obtain ⟨k, rfl⟩ : ∃ k, ds ++ zeros k = cs := ⟨_, hpad⟩
  have hds : Denotes ds (digitsValue ds) := ⟨hdigit, rfl⟩
  refine ⟨k, digitsValue ds, hds, ?_, by simp⟩
  have happend := hds.append (denotes_zeros k)
  rw [length_zeros, Nat.add_zero] at happend
  exact h.value.symm.trans happend.value

/-- The digits that a layout writes, and where the first of them stands. -/
theorem denotes_significantDigits (h : Denotes cs m) (e : Int) :
    ∃ ds m', ds ≠ [] ∧ Denotes ds m' ∧
      ds = (if (dropEndWhile (· == '0') cs).isEmpty then ['0']
        else dropEndWhile (· == '0') cs) ∧
      m' * (10 : Rat) ^ (e + 1 - ds.length) = m * (10 : Rat) ^ (e + 1 - cs.length) := by
  obtain ⟨k, m', hdigits, rfl, hlength⟩ := denotes_dropEndWhile h
  by_cases hnil : dropEndWhile (· == '0') cs = []
  · have hzero : m' = 0 := by
      rw [← hdigits.value, hnil]
      rfl
    refine ⟨['0'], 0, by simp, denotes_zeros 1, by simp [hnil], ?_⟩
    simp [hzero]
  · refine ⟨dropEndWhile (· == '0') cs, m', hnil, hdigits, by simp [hnil], ?_⟩
    have hexponent : e + 1 - (dropEndWhile (· == '0') cs).length = k + (e + 1 - cs.length) := by
      omega
    rw [← ten_zpow_mul hexponent.symm, zpow_natCast]
    push_cast
    ring

/-- The exponent that a layout has in its text. -/
def layoutExponent (e : Int) : Int := if -7 < e ∧ e < 21 then 0 else e

theorem denotes_layoutDigits (negative : Bool) (h : Denotes cs m) (e : Int) :
    DenotesDecimal (layoutDigits negative cs e) (layoutExponent e)
      (signed negative (m * (10 : Rat) ^ (e + 1 - cs.length))) := by
  obtain ⟨ds, m', hne, hdigits, hds, hvalue⟩ := denotes_significantDigits h e
  unfold layoutDigits layoutExponent
  rw [← hvalue]
  simp only [← hds]
  apply denotes_signed
  split
  · exact denotes_layoutPlain hne hdigits e
  · exact denotes_layoutScientific hne hdigits e

end Reckoner.Number
