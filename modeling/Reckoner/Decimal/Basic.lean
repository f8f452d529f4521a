import Reckoner.Text.Digits

/-!
# Decimal floating-point numbers

A `Decimal` is a significand times a power of ten, together with the number of digits that
computations with it keep. The significand is normal: it does not end in a zero, so equal values
with equal precision are equal (`Decimal.Normal`). `toRat` is the value that a decimal stands for.

Rounding is to nearest, halves away from zero, throughout.
-/

namespace Reckoner

/-- `n / d` rounded to the nearest natural number, a half upwards. -/
def roundQuotient (n d : Nat) : Nat := (2 * n + d) / (2 * d)

/-- Divides `n` by `b` as often as it goes evenly, and counts the divisions. -/
def stripFactor (b : Nat) (hb : 2 ≤ b) (n : Nat) : Nat × Nat :=
  if _ : n ≠ 0 ∧ n % b = 0 then
    let (rest, count) := stripFactor b hb (n / b)
    (rest, count + 1)
  else (n, 0)
termination_by n
decreasing_by exact Nat.div_lt_self (by omega) hb

theorem stripFactor_fst_ne_zero {b n : Nat} {hb : 2 ≤ b} (hn : n ≠ 0) :
    (stripFactor b hb n).1 ≠ 0 := by
  fun_induction stripFactor b hb n with
  | case1 n h rest count hrec ih =>
    have hdiv : n / b ≠ 0 := fun h0 => by
      have := Nat.div_add_mod n b
      simp only [h0, h.2, Nat.mul_zero, Nat.add_zero] at this
      exact h.1 this.symm
    simpa [hrec] using ih hdiv
  | case2 n h => exact hn

theorem stripFactor_fst_mod {b n : Nat} {hb : 2 ≤ b} (hn : n ≠ 0) :
    (stripFactor b hb n).1 % b ≠ 0 := by
  fun_induction stripFactor b hb n with
  | case1 n h rest count hrec ih =>
    have hdiv : n / b ≠ 0 := fun h0 => by
      have := Nat.div_add_mod n b
      simp only [h0, h.2, Nat.mul_zero, Nat.add_zero] at this
      exact h.1 this.symm
    simpa [hrec] using ih hdiv
  | case2 n h => exact fun hmod => h ⟨hn, hmod⟩

theorem two_le_pow_32 {b : Nat} (hb : 2 ≤ b) : 2 ≤ b ^ 32 :=
  Nat.le_trans hb (Nat.le_self_pow (by decide) b)

/-- Takes all factors `b` off a positive number, and counts them. Many factors are taken off in
blocks of 32 first. -/
def stripAll (b : Nat) (hb : 2 ≤ b) (n : Nat) : Nat × Nat :=
  let (m, blocks) := stripFactor (b ^ 32) (two_le_pow_32 hb) n
  let (rest, count) := stripFactor b hb m
  (rest, 32 * blocks + count)

theorem stripAll_fst_mod {b n : Nat} {hb : 2 ≤ b} (hn : n ≠ 0) : (stripAll b hb n).1 % b ≠ 0 :=
  stripFactor_fst_mod (stripFactor_fst_ne_zero hn)

/-- A positive number without its trailing zeros, and how many there were. -/
def stripZeros (n : Nat) : Nat × Nat := stripAll 10 (by decide) n

/-- A significand and an exponent in normal form: no trailing zero, and one form of zero. -/
def Decimal.Normal (significand exponent : Int) : Prop :=
  significand % 10 ≠ 0 ∨ significand = 0 ∧ exponent = 0

/-- The value `significand * 10 ^ exponent`, with the number of digits that computations with it
keep. Precision 0 keeps every digit. -/
structure Decimal where
  significand : Int
  exponent : Int
  precision : Nat
  normal : Decimal.Normal significand exponent
deriving DecidableEq

namespace Decimal

/-- The decimal `s * 10 ^ e` in normal form, with precision `p`. -/
def ofScaled (s e : Int) (p : Nat) : Decimal :=
  if hs : s = 0 then ⟨0, 0, p, .inr ⟨rfl, rfl⟩⟩
  else
    let stripped := stripZeros s.natAbs
    ⟨s.sign * stripped.1, e + stripped.2, p, .inl (by
      have hmod : stripped.1 % 10 ≠ 0 := stripAll_fst_mod (Int.natAbs_ne_zero.2 hs)
      rcases Int.lt_or_gt_of_ne hs with h | h
      · rw [Int.sign_eq_neg_one_of_neg h]; omega
      · rw [Int.sign_eq_one_of_pos h]; omega)⟩

/-- The value that a decimal stands for. -/
def toRat (d : Decimal) : Rat := d.significand * (10 : Rat) ^ d.exponent

instance : Inhabited Decimal := ⟨ofScaled 0 0 0⟩

/-- Zero and one, with unlimited precision. -/
def zero : Decimal := ofScaled 0 0 0

def one : Decimal := ofScaled 1 0 0

/-- An integer times a power of ten, with as many digits of precision as the integer has. -/
def ofInteger (s : Int) (e : Int) : Decimal :=
  ofScaled s e (max 1 (Text.digitCount s.natAbs))

/-- The number of digits of the significand; none for zero. -/
def digits (d : Decimal) : Nat := Text.digitCount d.significand.natAbs

def isZero (d : Decimal) : Bool := d.significand == 0

def isNegative (d : Decimal) : Bool := d.significand < 0

/-- A normal decimal is a whole number when its exponent is not negative. -/
def isInteger (d : Decimal) : Bool := 0 ≤ d.exponent

/-- The power of ten of the leading digit. -/
def leadingExponent (d : Decimal) : Int := d.exponent + max 1 d.digits - 1

/-- The decimal `s * 10 ^ e` with its significand rounded to `p` digits, if `p` is not 0. -/
def rounded (p : Nat) (s e : Int) : Decimal :=
  let excess := Text.digitCount s.natAbs - p
  if p = 0 ∨ excess = 0 then ofScaled s e p
  else ofScaled (s.sign * roundQuotient s.natAbs (10 ^ excess)) (e + excess) p

/-- The same value with precision `p`, at least 1; it is rounded if its own precision is larger. -/
def withPrecision (d : Decimal) (p : Nat) : Decimal :=
  let p := max p 1
  if p < d.precision then rounded p d.significand d.exponent else { d with precision := p }

/-- The three-way comparison of the values. Leading digits are compared before the significands
are brought to one exponent, so that far apart values need no long numbers. -/
def compare (a b : Decimal) : Ordering :=
  if a.significand.sign ≠ b.significand.sign then
    Ord.compare a.significand.sign b.significand.sign
  else if a.isZero then .eq
  else if a.leadingExponent ≠ b.leadingExponent then
    let magnitudes := Ord.compare a.leadingExponent b.leadingExponent
    if a.isNegative then magnitudes.swap else magnitudes
  else
    let e := min a.exponent b.exponent
    Ord.compare (a.significand * 10 ^ (a.exponent - e).toNat)
      (b.significand * 10 ^ (b.exponent - e).toNat)

end Decimal

end Reckoner
