import Reckoner.Text.Digits

/-!
# Rounding to significant bits

The rounding of binary floating-point formats: a number keeps its leading bits, and a half goes to
the even neighbour. The statements `le_roundToBits` and `roundToBits_le` say that the result is at
most half a step away.
-/

namespace Reckoner

/-- The distance of a number to the next one with so many significant bits. -/
def bitStep (bits n : Nat) : Nat := 2 ^ (n.log2 + 1 - bits)

/-- A number rounded to so many significant bits, a half to the even neighbour. -/
def roundToBits (bits n : Nat) : Nat :=
  let step := bitStep bits n
  let q := n / step
  let r := n % step
  if step < 2 * r ∨ (2 * r = step ∧ q % 2 = 1) then (q + 1) * step else q * step

theorem roundToBits_le (bits n : Nat) : 2 * roundToBits bits n ≤ 2 * n + bitStep bits n := by
  have h := Nat.div_add_mod' n (bitStep bits n)
  simp only [roundToBits, Nat.add_mul, Nat.one_mul]
  generalize n / bitStep bits n * bitStep bits n = whole at h ⊢
  split <;> omega

theorem le_roundToBits (bits n : Nat) : 2 * n ≤ 2 * roundToBits bits n + bitStep bits n := by
  have h := Nat.div_add_mod' n (bitStep bits n)
  have : n % bitStep bits n < bitStep bits n := Nat.mod_lt _ (Nat.two_pow_pos _)
  simp only [roundToBits, Nat.add_mul, Nat.one_mul]
  generalize n / bitStep bits n * bitStep bits n = whole at h ⊢
  split <;> omega

end Reckoner
