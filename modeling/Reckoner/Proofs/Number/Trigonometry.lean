import Reckoner.Proofs.Decimal.Near
import Reckoner.Proofs.Number.Neutral
import Reckoner.Proofs.Number.Taylor

/-!
# Sine and cosine

Both are sums of a fixed number of terms of their Taylor series at 0. A term is made from the one
before by a product and a quotient, which adds `slack p ^ 7` to the factor of its relative error, so
that the sum stays within `10 ^ (4 - p)` of the exact one, relative to the sum of the magnitudes of
the terms (`abs_alternatingSum_sub_le`). How close it is to the sine or the cosine depends on the
first term left out. Nothing bounds that term: the argument is not reduced, and the number of terms
does not depend on it. The values are between -1 and 1 but for the rounding as long as the term is
small (`sin_cos_of_rational`).
-/

namespace Reckoner.Number

open Decimal (slack one_lt_slack near_mul near_div one_add_roundoff_le abs_add_sub_le_slack)
open Finset
open scoped Nat

variable {p : Nat} {r : Rat}

theorem seriesIndices_eq (p : Nat) : seriesIndices p = List.range' 1 (seriesTerms p - 1) := by
  rw [seriesIndices, List.range_eq_range', List.tail_range']

theorem twelve_le_seriesTerms (p : Nat) : 12 ≤ seriesTerms p := le_max_left _ _

theorem seriesTerms_le (p : Nat) : seriesTerms p ≤ 50 := by
  rw [seriesTerms]
  omega

/-! ## Rounded sums -/

theorem precision_mul {a b : Decimal} : (a.mul b).precision = max a.precision b.precision :=
  Decimal.precision_rounded

theorem precision_next_term {a b : Decimal} {k : Nat} (h : p ≤ a.precision) :
    p ≤ ((a.neg.mul b).div (Decimal.ofInteger k 0)).precision := by
  rw [Decimal.precision_div, precision_mul, Decimal.precision_neg]
  omega

/-- The error of the next term. -/
theorem near_next_term {g h T X : Rat} {term square : Decimal} {k : Nat} (hp : 0 < p) (hk : k ≠ 0)
    (hprecision : p ≤ term.precision) (hterm : Near g T term.toRat)
    (hsquare : Near h X square.toRat) :
    Near (g * h * slack p ^ 2) (-T * X / k)
      ((term.neg.mul square).div (Decimal.ofInteger k 0)).toRat := by
  have hone := one_lt_slack p
  have hdivisor : (Decimal.ofInteger k 0).significand ≠ 0 :=
    Decimal.significand_ofScaled_ne_zero (Int.natCast_ne_zero.2 hk)
  have hvalue : (Decimal.ofInteger k 0).toRat = k := by
    rw [Decimal.ofInteger, Decimal.toRat_ofScaled, zpow_zero, mul_one, Int.cast_natCast]
  have hneg : Near g (-T) term.neg.toRat := by
    rw [Decimal.toRat_neg]
    exact hterm.neg
  have hproduct := (hneg.mul hsquare).trans hone.le (near_mul (b := square) hp hprecision)
  have hwide : p ≤ (term.neg.mul square).precision := by
    rw [precision_mul]
    exact hprecision.trans (le_max_left _ _)
  have hquotient := (near_div hdivisor hp hwide).mono (one_add_roundoff_le p)
  rw [hvalue] at hquotient
  have hchain := (hproduct.div_const k).trans hone.le hquotient
  rwa [mul_assoc (g * h), ← pow_two] at hchain

/-- The error of a sum whose last operand is a near one. -/
theorem abs_next_sum_sub_le {g h s S t T A v : Rat} (hg : 1 ≤ g) (hsum : |s - S| ≤ (h - 1) * A)
    (hA : |S| ≤ A) (hterm : Near h T t) (hadd : |v - (s + t)| ≤ (g - 1) * (|s| + |t|)) :
    |v - (S + T)| ≤ (h * g - 1) * (A + |T|) := by
  have hs : |s| ≤ h * A := by
    have htriangle := abs_sub_abs_le_abs_sub s S
    linarith
  have ht := hterm.abs_le
  have hsplit : v - (S + T) = (v - (s + t)) + ((s - S) + (t - T)) := by ring
  rw [Near] at hterm
  calc |v - (S + T)| ≤ |v - (s + t)| + (|s - S| + |t - T|) := by
        rw [hsplit]
        exact (abs_add_le _ _).trans (add_le_add_right (abs_add_le _ _) _)
    _ ≤ (g - 1) * (h * A + h * |T|) + ((h - 1) * A + (h - 1) * |T|) := by
        have : (g - 1) * (|s| + |t|) ≤ (g - 1) * (h * A + h * |T|) :=
          mul_le_mul_of_nonneg_left (add_le_add hs ht) (by linarith)
        linarith
    _ = (h * g - 1) * (A + |T|) := by ring

/-- **The error of an alternating sum.** `T` are the exact terms. -/
theorem abs_alternatingSum_sub_le {square : Decimal} {X : Rat} {divisor : Nat → Nat} {T : Nat → Rat}
    (hp : 0 < p) (hdivisor : ∀ k, divisor (k + 1) ≠ 0)
    (hT : ∀ k, T (k + 1) = -T k * X / divisor (k + 1)) (hsquare : Near (slack p ^ 5) X square.toRat)
    (m : Nat) : ∀ (j : Nat) (term sum : Decimal), p ≤ term.precision →
      Near (slack p ^ (7 * j + 2)) (T j) term.toRat →
      |sum.toRat - ∑ k ∈ range (j + 1), T k| ≤
        (slack p ^ (7 * j + 3) - 1) * ∑ k ∈ range (j + 1), |T k| →
      |(alternatingSum square divisor (List.range' (j + 1) m) term sum).toRat -
          ∑ k ∈ range (j + m + 1), T k| ≤
        (slack p ^ (7 * (j + m) + 3) - 1) * ∑ k ∈ range (j + m + 1), |T k| := by
  have hone := one_lt_slack p
  induction m with
  | zero => exact fun j term sum _ _ hsum => hsum
  | succ m ih =>
    intro j term sum hprecision hterm hsum
    have hnext := near_next_term hp (hdivisor j) hprecision hterm hsquare
    have hwide := precision_next_term (k := divisor (j + 1)) (b := square) hprecision
    -- Of the seven factors that a term gains, five are those of the square, and one each is that
    -- of the product and of the quotient.
    have hfactor : slack p ^ (7 * j + 2) * slack p ^ 5 * slack p ^ 2 =
        slack p ^ (7 * (j + 1) + 2) := by
      have hexponent : 7 * j + 2 + 5 + 2 = 7 * (j + 1) + 2 := by omega
      rw [← pow_add, ← pow_add, hexponent]
    rw [← hT, hfactor] at hnext
    rw [List.range'_succ, alternatingSum]
    generalize (term.neg.mul square).div (Decimal.ofInteger (divisor (j + 1)) 0) = next at *
    have hmagnitudes : 0 ≤ ∑ k ∈ range (j + 1), |T k| := sum_nonneg fun k _ => abs_nonneg (T k)
    have hgrown : |sum.toRat - ∑ k ∈ range (j + 1), T k| ≤
        (slack p ^ (7 * (j + 1) + 2) - 1) * ∑ k ∈ range (j + 1), |T k| := by
      refine hsum.trans (mul_le_mul_of_nonneg_right ?_ hmagnitudes)
      have := pow_le_pow_right₀ hone.le (show 7 * j + 3 ≤ 7 * (j + 1) + 2 by omega)
      linarith
    have hsum' := abs_next_sum_sub_le hone.le hgrown (abs_sum_le_sum_abs T _) hnext
      (abs_add_sub_le_slack hp hwide)
    rw [← sum_range_succ, ← sum_range_succ (fun k => |T k|), ← pow_succ] at hsum'
    have hrest := ih (j + 1) next (sum.add next) hwide hnext hsum'
    rwa [Nat.add_right_comm j 1 m] at hrest

/-! ## The computed series -/

theorem one_add_pow_le {e : Rat} (he : 0 ≤ e) :
    ∀ n : Nat, 2 * n * e ≤ 1 → (1 + e) ^ n ≤ 1 + 2 * n * e
  | 0, _ => by simp
  | n + 1, h => by
    push_cast at h ⊢
    have ih := one_add_pow_le he n (by linarith)
    have hcross : 2 * n * e * e ≤ 1 * e := mul_le_mul_of_nonneg_right (by linarith) he
    calc (1 + e) ^ (n + 1) = (1 + e) ^ n * (1 + e) := pow_succ _ _
      _ ≤ (1 + 2 * n * e) * (1 + e) := mul_le_mul_of_nonneg_right ih (by linarith)
      _ ≤ 1 + 2 * (n + 1) * e := by linarith

/-- The error of at most fifty terms. -/
theorem slack_pow_sub_one_le (hp : 20 ≤ p) :
    slack p ^ (7 * (seriesTerms p - 1) + 3) - 1 ≤ (10 : Rat) ^ (4 - p : Int) := by
  have hn := seriesTerms_le p
  have hunit := ten_zpow_pos (1 - p)
  have hsmall : (10 : Rat) ^ (1 - p : Int) ≤ (10 : Rat) ^ (-19 : Int) :=
    zpow_le_zpow_right₀ (by decide) (by omega)
  have hcount : ((7 * (seriesTerms p - 1) + 3 : Nat) : Rat) ≤ 346 := by
    have : 7 * (seriesTerms p - 1) + 3 ≤ 346 := by omega
    exact_mod_cast this
  have hthousand : (10 : Rat) ^ (4 - p : Int) = 1000 * (10 : Rat) ^ (1 - p : Int) := by
    rw [← ten_zpow_mul (i := 3) (j := 1 - p) (by omega)]
    norm_num
  have hproduct := mul_le_mul_of_nonneg_right hcount hunit.le
  have hpower := one_add_pow_le hunit.le (7 * (seriesTerms p - 1) + 3) (by
    norm_num at hsmall
    linarith)
  rw [slack, hthousand]
  linarith

theorem near_square (hp : 2 ≤ p) (r : Rat) :
    Near (slack p ^ 5) (r ^ 2) (((exact r).toDecimal p).mul ((exact r).toDecimal p)).toRat := by
  have hnear := near_toDecimal_sq (p := p) (by omega) r
  have hprecision : p ≤ ((exact r).toDecimal p).precision := by
    rw [precision_toDecimal]
    exact le_max_left _ _
  have hsquare := (hnear.mul hnear).trans (one_lt_slack p).le
    (near_mul (b := (exact r).toDecimal p) (by omega) hprecision)
  rwa [← pow_two r, ← pow_add, ← pow_succ] at hsquare

/-- The error of a series with the terms `T`. -/
theorem abs_series_sub_le {divisor : Nat → Nat} {T : Nat → Rat} {first : Decimal} (hp : 20 ≤ p)
    (hdivisor : ∀ k, divisor (k + 1) ≠ 0) (hT : ∀ k, T (k + 1) = -T k * r ^ 2 / divisor (k + 1))
    (hprecision : p ≤ first.precision) (hfirst : Near (slack p ^ 2) (T 0) first.toRat) :
    |(alternatingSum (((exact r).toDecimal p).mul ((exact r).toDecimal p)) divisor
        (seriesIndices p) first first).toRat - ∑ k ∈ range (seriesTerms p), T k| ≤
      (10 : Rat) ^ (4 - p : Int) * ∑ k ∈ range (seriesTerms p), |T k| := by
  have hcount : seriesTerms p - 1 + 1 = seriesTerms p :=
    Nat.sub_add_cancel (le_trans (by decide) (twelve_le_seriesTerms p))
  have hmagnitudes : 0 ≤ ∑ k ∈ range (seriesTerms p), |T k| := sum_nonneg fun k _ => abs_nonneg _
  have hstart : |first.toRat - ∑ k ∈ range (0 + 1), T k| ≤
      (slack p ^ (7 * 0 + 3) - 1) * ∑ k ∈ range (0 + 1), |T k| := by
    rw [Nat.zero_add, sum_range_one, sum_range_one]
    exact hfirst.mono (pow_le_pow_right₀ (one_lt_slack p).le (by decide))
  have hsum := abs_alternatingSum_sub_le (by omega) hdivisor hT (near_square (by omega) r)
    (seriesTerms p - 1) 0 first first hprecision hfirst hstart
  simp only [Nat.zero_add, hcount] at hsum
  rw [seriesIndices_eq]
  exact hsum.trans (mul_le_mul_of_nonneg_right (slack_pow_sub_one_le hp) hmagnitudes)

/-- The sine is computed as the sum of its first terms. -/
theorem abs_sin_sub_terms_le (hp : 20 ≤ p) (r : Rat) :
    |((exact r).sin p).value - ∑ k ∈ range (seriesTerms p), sinTerm r k| ≤
      (10 : Rat) ^ (4 - p : Int) * ∑ k ∈ range (seriesTerms p), |sinTerm r k| := by
  have hfirst : sinTerm r 0 = r := by simp [sinTerm]
  have hprecision : p ≤ ((exact r).toDecimal p).precision := by
    rw [precision_toDecimal]
    exact le_max_left _ _
  unfold sin
  split
  · next hzero =>
    have hr : r = 0 := Number.exact.inj hzero
    have hterms : ∀ k, sinTerm (0 : Rat) k = 0 := fun k => by simp [sinTerm]
    simp [hr, hterms, value, ofInt]
  · exact abs_series_sub_le hp (fun k => by positivity) (sinTerm_succ r) hprecision
      (hfirst.symm ▸ near_toDecimal_sq (by omega) r)

/-- The cosine is computed as the sum of its first terms. -/
theorem abs_cos_sub_terms_le (hp : 20 ≤ p) (r : Rat) :
    |((exact r).cos p).value - ∑ k ∈ range (seriesTerms p), cosTerm r k| ≤
      (10 : Rat) ^ (4 - p : Int) * ∑ k ∈ range (seriesTerms p), |cosTerm r k| := by
  have hfirst : cosTerm r 0 = 1 := by simp [cosTerm]
  unfold cos
  split
  · next hzero =>
    -- At zero no series is summed, but its first term is all there is of it.
    have hr : r = 0 := Number.exact.inj hzero
    have hterms : ∑ k ∈ range (seriesTerms p), cosTerm (0 : Rat) k = 1 := by
      have hmem : 0 ∈ range (seriesTerms p) :=
        mem_range.2 (lt_of_lt_of_le (by decide) (twelve_le_seriesTerms p))
      rw [sum_eq_single_of_mem 0 hmem fun k _ hk => by simp [cosTerm, hk]]
      simp [cosTerm]
    have hmagnitudes : 0 ≤ ∑ k ∈ range (seriesTerms p), |cosTerm r k| :=
      sum_nonneg fun k _ => abs_nonneg _
    have hvalue : (ofInt 1).value - ∑ k ∈ range (seriesTerms p), cosTerm r k = 0 := by
      rw [hr, hterms]
      norm_num [value, ofInt]
    rw [hvalue, abs_zero]
    exact mul_nonneg (ten_zpow_pos _).le hmagnitudes
  · have hone : (Decimal.one.withPrecision p).toRat = 1 := by
      rw [Decimal.toRat_withPrecision, Decimal.one, Decimal.precision_ofScaled,
        if_pos (Nat.zero_le _), Decimal.toRat_ofScaled]
      norm_num
    have hprecision : p ≤ (Decimal.one.withPrecision p).precision := by
      rw [Decimal.precision_withPrecision]
      exact le_max_left _ _
    refine abs_series_sub_le hp (fun k => ?_) (cosTerm_succ r) hprecision ?_
    · have : 0 < (2 * (k + 1) - 1) * (2 * (k + 1)) := Nat.mul_pos (by omega) (by omega)
      exact this.ne'
    · rw [hfirst, hone]
      exact (Near.refl 1).mono (one_le_pow₀ (one_lt_slack p).le)

/-! ## The distance to sine and cosine -/

theorem cast_sinTerm (r : Rat) (k : Nat) : ((sinTerm r k : Rat) : ℝ) = sinTerm (r : ℝ) k := by
  simp [sinTerm]

theorem cast_cosTerm (r : Rat) (k : Nat) : ((cosTerm r k : Rat) : ℝ) = cosTerm (r : ℝ) k := by
  simp [cosTerm]

/-- The rounding of a sum and the terms left out. -/
theorem abs_cast_sub_le {v e : Rat} {n : Nat} {t : Nat → Rat} {y omitted total : ℝ} (he : 0 ≤ e)
    (hv : |v - ∑ k ∈ range n, t k| ≤ e * ∑ k ∈ range n, |t k|)
    (hy : |y - ∑ k ∈ range n, (t k : ℝ)| ≤ omitted) (htotal : ∑ k ∈ range n, |(t k : ℝ)| ≤ total) :
    |(v : ℝ) - y| ≤ omitted + e * total := by
  have hcast : |(v : ℝ) - ∑ k ∈ range n, (t k : ℝ)| ≤ e * ∑ k ∈ range n, |(t k : ℝ)| := by
    exact_mod_cast hv
  rw [abs_sub_comm] at hy
  calc |(v : ℝ) - y| ≤ |(v : ℝ) - ∑ k ∈ range n, (t k : ℝ)| + |∑ k ∈ range n, (t k : ℝ) - y| :=
        abs_sub_le _ _ _
    _ ≤ e * total + omitted :=
        add_le_add (hcast.trans (mul_le_mul_of_nonneg_left htotal (Rat.cast_nonneg.2 he))) hy
    _ = omitted + e * total := add_comm _ _

theorem abs_sin_sub_le (hp : 20 ≤ p) (r : Rat) :
    |(((exact r).sin p).value : ℝ) - Real.sin r| ≤
      |(r : ℝ)| ^ (2 * seriesTerms p + 1) / (2 * seriesTerms p + 1)! +
        (10 : ℝ) ^ (4 - p : Int) * Real.exp |(r : ℝ)| := by
  have hvalue := abs_sin_sub_terms_le hp r
  have hseries := abs_sin_sub_sum_le (r : ℝ) (seriesTerms p)
  have htotal := sum_abs_sinTerm_le (r : ℝ) (seriesTerms p)
  simp only [← cast_sinTerm] at hseries htotal
  have h := abs_cast_sub_le (ten_zpow_pos _).le hvalue hseries htotal
  push_cast at h
  exact h

theorem abs_cos_sub_le (hp : 20 ≤ p) (r : Rat) :
    |(((exact r).cos p).value : ℝ) - Real.cos r| ≤
      |(r : ℝ)| ^ (2 * seriesTerms p) / (2 * seriesTerms p)! +
        (10 : ℝ) ^ (4 - p : Int) * Real.exp |(r : ℝ)| := by
  have hvalue := abs_cos_sub_terms_le hp r
  have hseries := abs_cos_sub_sum_le (r : ℝ) (seriesTerms p)
  have htotal := sum_abs_cosTerm_le (r : ℝ) (seriesTerms p)
  simp only [← cast_cosTerm] at hseries htotal
  have h := abs_cast_sub_le (ten_zpow_pos _).le hvalue hseries htotal
  push_cast at h
  exact h

/-! ## The unit interval -/

theorem lt_of_omitted {m : Nat} {x c : ℝ} (hc : 0 ≤ c) (homitted : x ^ m / m ! ≤ 9 / 10 ^ 13)
    (hlarge : 9 / 10 ^ 13 < c ^ m / m !) : x < c := by
  have hfactorial : (0 : ℝ) < m ! := Nat.cast_pos.2 (Nat.factorial_pos m)
  have hpow := homitted.trans_lt hlarge
  rw [div_lt_div_iff_of_pos_right hfactorial] at hpow
  exact lt_of_pow_lt_pow_left₀ m hc hpow

theorem exp_le_three_pow {x : ℝ} {n : Nat} (h : x ≤ n) : Real.exp x ≤ 3 ^ n := by
  calc Real.exp x ≤ Real.exp n := Real.exp_le_exp.2 h
    _ = Real.exp 1 ^ n := (Real.exp_one_pow n).symm
    _ ≤ 3 ^ n := pow_le_pow_left₀ (Real.exp_pos 1).le Real.exp_one_lt_three.le n

theorem three_mul_seriesTerms_le (h : 12 < seriesTerms p) : 3 * seriesTerms p ≤ p := by
  rw [seriesTerms] at h ⊢
  omega

/-- With twelve terms, a small term left out keeps the argument below 4. -/
theorem rounding_le_of_few {m : Nat} {x : ℝ} (hp : 20 ≤ p) (hm : m = 24 ∨ m = 25)
    (homitted : x ^ m / m ! ≤ 9 / 10 ^ 13) :
    (10 : ℝ) ^ (4 - p : Int) * Real.exp x ≤ 1 / 10 ^ 13 := by
  have hx : x < (4 : Nat) := by
    apply lt_of_omitted (by norm_num) homitted
    rcases hm with rfl | rfl <;> norm_num [Nat.factorial]
  have hunit : (10 : ℝ) ^ (4 - p : Int) ≤ (10 : ℝ) ^ (-16 : Int) :=
    zpow_le_zpow_right₀ (by norm_num) (by omega)
  calc (10 : ℝ) ^ (4 - p : Int) * Real.exp x ≤ (10 : ℝ) ^ (-16 : Int) * 3 ^ 4 := by
        gcongr
        exact exp_le_three_pow hx.le
    _ ≤ 1 / 10 ^ 13 := by norm_num

/-- With more terms, there are three digits of precision for each of them. -/
theorem rounding_le_of_many {m : Nat} {x : ℝ} (hmany : 12 < seriesTerms p)
    (hhigh : m ≤ 2 * seriesTerms p + 1) (homitted : x ^ m / m ! ≤ 9 / 10 ^ 13) :
    (10 : ℝ) ^ (4 - p : Int) * Real.exp x ≤ 1 / 10 ^ 13 := by
  -- At `m` and above, the term left out would not even be below one.
  have hx : x < m := by
    have hfactorial : (m ! : ℝ) ≤ (m : ℝ) ^ m := by exact_mod_cast Nat.factorial_le_pow m
    have hpos : (0 : ℝ) < m ! := Nat.cast_pos.2 (Nat.factorial_pos m)
    apply lt_of_omitted (Nat.cast_nonneg m) homitted
    calc (9 / 10 ^ 13 : ℝ) < 1 := by norm_num
      _ ≤ (m : ℝ) ^ m / m ! := (one_le_div hpos).2 hfactorial
  have hdigits := three_mul_seriesTerms_le hmany
  have hunit : (10 : ℝ) ^ (4 - p : Int) ≤ 10 ^ 4 / 1000 ^ seriesTerms p := by
    have hsplit : (10 : ℝ) ^ (4 - 3 * seriesTerms p : Int) = 10 ^ 4 / 1000 ^ seriesTerms p := by
      rw [zpow_sub₀ (by norm_num), zpow_mul, zpow_natCast]
      norm_num
    rw [← hsplit]
    exact zpow_le_zpow_right₀ (by norm_num) (by omega)
  calc (10 : ℝ) ^ (4 - p : Int) * Real.exp x
      ≤ 10 ^ 4 / 1000 ^ seriesTerms p * 3 ^ (2 * seriesTerms p + 1) := by
        gcongr
        exact (exp_le_three_pow hx.le).trans (pow_le_pow_right₀ (by norm_num) hhigh)
    _ = 3 * 10 ^ 4 * (9 / 1000) ^ seriesTerms p := by
        have hnine : (3 : ℝ) ^ (2 * seriesTerms p + 1) = 3 * 9 ^ seriesTerms p := by
          rw [pow_succ, pow_mul, mul_comm]
          norm_num
        rw [hnine, div_pow]
        ring
    _ ≤ 3 * 10 ^ 4 * (9 / 1000) ^ 13 := by
        gcongr ?_ * ?_
        exact pow_le_pow_of_le_one (by norm_num) (by norm_num) hmany
    _ ≤ 1 / 10 ^ 13 := by norm_num

/-- The rounding is small if the first term left out is. -/
theorem rounding_le {m : Nat} {x : ℝ} (hp : 20 ≤ p) (hlow : 2 * seriesTerms p ≤ m)
    (hhigh : m ≤ 2 * seriesTerms p + 1) (homitted : x ^ m / m ! ≤ 9 / 10 ^ 13) :
    (10 : ℝ) ^ (4 - p : Int) * Real.exp x ≤ 1 / 10 ^ 13 := by
  rcases (twelve_le_seriesTerms p).eq_or_lt with hfew | hmany
  · exact rounding_le_of_few hp (by omega) homitted
  · exact rounding_le_of_many hmany hhigh homitted

theorem abs_le_of_omitted {v : Rat} {m : Nat} {y : ℝ} (hp : 20 ≤ p) (hlow : 2 * seriesTerms p ≤ m)
    (hhigh : m ≤ 2 * seriesTerms p + 1) (hy : |y| ≤ 1)
    (hv : |(v : ℝ) - y| ≤ |(r : ℝ)| ^ m / m ! + (10 : ℝ) ^ (4 - p : Int) * Real.exp |(r : ℝ)|)
    (homitted : |r| ^ m / m ! ≤ 9 / 10 ^ 13) : |v| ≤ 1 + 1 / 10 ^ 12 := by
  have hcast : |(r : ℝ)| ^ m / m ! ≤ 9 / 10 ^ 13 := by
    have h := (Rat.cast_le (K := ℝ)).2 homitted
    push_cast at h
    exact h
  have hrounding := rounding_le hp hlow hhigh hcast
  have htriangle := abs_sub_abs_le_abs_sub (v : ℝ) y
  rw [← Rat.cast_le (K := ℝ)]
  push_cast
  linarith

/-- **How close the computed sine and cosine are.** For every rational they are the sum of the first
`seriesTerms p` terms of their series up to a rounding of `10 ^ (4 - p)` relative to the magnitudes
of the terms. So they are off the sine and the cosine by that and the first term left out at most,
and do not leave the unit interval by more than `10 ^ -12` as long as this term is small. -/
theorem sin_cos_of_rational (hp : 20 ≤ p) (r : Rat) :
    |((exact r).sin p).value - ∑ k ∈ range (seriesTerms p), sinTerm r k| ≤
        (10 : Rat) ^ (4 - p : Int) * ∑ k ∈ range (seriesTerms p), |sinTerm r k| ∧
      |((exact r).cos p).value - ∑ k ∈ range (seriesTerms p), cosTerm r k| ≤
        (10 : Rat) ^ (4 - p : Int) * ∑ k ∈ range (seriesTerms p), |cosTerm r k| ∧
      |(((exact r).sin p).value : ℝ) - Real.sin r| ≤
        |(r : ℝ)| ^ (2 * seriesTerms p + 1) / (2 * seriesTerms p + 1)! +
          (10 : ℝ) ^ (4 - p : Int) * Real.exp |(r : ℝ)| ∧
      |(((exact r).cos p).value : ℝ) - Real.cos r| ≤
        |(r : ℝ)| ^ (2 * seriesTerms p) / (2 * seriesTerms p)! +
          (10 : ℝ) ^ (4 - p : Int) * Real.exp |(r : ℝ)| ∧
      (|r| ^ (2 * seriesTerms p + 1) / (2 * seriesTerms p + 1)! ≤ 9 / 10 ^ 13 →
        |((exact r).sin p).value| ≤ 1 + 1 / 10 ^ 12) ∧
      (|r| ^ (2 * seriesTerms p) / (2 * seriesTerms p)! ≤ 9 / 10 ^ 13 →
        |((exact r).cos p).value| ≤ 1 + 1 / 10 ^ 12) :=
  ⟨abs_sin_sub_terms_le hp r, abs_cos_sub_terms_le hp r, abs_sin_sub_le hp r, abs_cos_sub_le hp r,
    abs_le_of_omitted hp (Nat.le_succ _) le_rfl (Real.abs_sin_le_one r) (abs_sin_sub_le hp r),
    abs_le_of_omitted hp le_rfl (Nat.le_succ _) (Real.abs_cos_le_one r) (abs_cos_sub_le hp r)⟩

/-- An angle of 3 is within reach of the twelve terms that are summed at precision 20. -/
theorem sin_cos_of_three :
    20 ≤ 20 ∧ |(3 : Rat)| ^ (2 * seriesTerms 20) / (2 * seriesTerms 20)! ≤ 9 / 10 ^ 13 ∧
      |((exact 3).cos 20).value| ≤ 1 + 1 / 10 ^ 12 := by
  have homitted : |(3 : Rat)| ^ (2 * seriesTerms 20) / (2 * seriesTerms 20)! ≤ 9 / 10 ^ 13 := by
    decide +kernel
  obtain ⟨-, -, -, -, -, hcos⟩ := sin_cos_of_rational le_rfl (3 : Rat) (p := 20)
  exact ⟨le_rfl, homitted, hcos homitted⟩

/-- An angle of 30 is not, at the default precision, and an angle of `355 / 113`, which is π but for
seven digits, is not at precision 20. -/
theorem sin_cos_off_unit_interval :
    3 * 10 ^ 11 < |((exact 30).sin 50).value| ∧
      1 + 1 / 10 ^ 12 < |((exact (355 / 113)).cos 20).value| := by
  constructor <;> decide +kernel

end Reckoner.Number
