import Reckoner.Proofs.Decimal.Nearest

/-!
# Sums of decimals

A sum is built in three steps (`Partial.ofSum`, `Partial.fit`, `Partial.round`), each with several
cases. `IsSum` and `IsFit` list these cases with what decides them, so that everything else follows
from the lists. The first two steps keep the value (`IsFit.value_eq`), except that an operand far
below the other is replaced by a unit that rounds the same way (`IsSum.value_eq_or`).

Operands of one sign have the nearest decimal to their exact sum (`toRat_add_of_sign`). Where they
cancel each other the sum can be off by more than that, but not by more than a unit in the last
place of the operands (`abs_add_sub_le`).
-/

namespace Reckoner.Decimal

open Number (nearestSignificant ten_zpow_mul ten_zpow_pos)
open Text (digitCount digitCount_le_iff lt_digitCount_iff)

variable {p q gap k w : Nat} {u l n e : Int} {s : Partial}

namespace Partial

/-! ## Splitting and rounding -/

theorem splitDigits_eq (n : Int) (w : Nat) :
    splitDigits n w = (n.tdiv (10 ^ w), n.tmod (10 ^ w)) := by
  unfold splitDigits
  split
  · next hshort =>
    have hlt : n.natAbs < (10 ^ w : Int).natAbs := by
      rw [Int.natAbs_pow]
      exact digitCount_le_iff.1 hshort
    have hdiv : n.tdiv (10 ^ w) = 0 := by
      rw [← Int.natAbs_eq_zero, Int.natAbs_tdiv]
      exact Nat.div_eq_of_lt hlt
    have hmod : n.tmod (10 ^ w) = n := by
      have h := Int.tmod_add_mul_tdiv n (10 ^ w)
      rwa [hdiv, Int.mul_zero, Int.add_zero] at h
    rw [hdiv, hmod]
  · rfl

theorem cast_tdiv_add_tmod (n : Int) (w : Nat) :
    (n.tdiv (10 ^ w) : Rat) * (10 : Rat) ^ w + n.tmod (10 ^ w) = n := by
  exact_mod_cast Int.tdiv_mul_add_tmod n (10 ^ w)

theorem natAbs_tmod_lt (n : Int) (w : Nat) : (n.tmod (10 ^ w)).natAbs < 10 ^ w := by
  rw [Int.natAbs_tmod, Int.natAbs_pow]
  exact Nat.mod_lt _ (Nat.pow_pos (by decide))

/-- The number that a partial sum holds. -/
def value (s : Partial) : Rat :=
  (s.head + s.tail / (10 : Rat) ^ s.width) * (10 : Rat) ^ s.exponent

/-- The tail is less than one unit of the head. -/
def Proper (s : Partial) : Prop := s.tail.natAbs < 10 ^ s.width

theorem Proper.rest_mem (hs : s.Proper) (htail : 0 ≤ s.tail) :
    0 ≤ (s.tail : Rat) / (10 : Rat) ^ s.width ∧ (s.tail : Rat) / (10 : Rat) ^ s.width < 1 := by
  have hpow : (0 : Rat) < (10 : Rat) ^ s.width := pow_pos (by decide) _
  have hlt : s.tail < ((10 ^ s.width : Nat) : Int) := by
    rw [Proper] at hs
    omega
  refine ⟨div_nonneg (Int.cast_nonneg htail) hpow.le, (div_lt_one hpow).2 ?_⟩
  exact_mod_cast hlt

/-- The head is rounded to the nearer one of two numbers, and upwards from one half. -/
theorem exists_round (p : Nat) (s : Partial) :
    ∃ step : Int, (s.round p).toRat = ((s.head + step : Int) : Rat) * (10 : Rat) ^ s.exponent ∧
      (s.Proper → 2 * |step * 10 ^ s.width - s.tail| ≤ 10 ^ s.width) ∧
      (0 ≤ s.head → 0 ≤ s.tail → s.Proper →
        step = if 10 ^ s.width ≤ 2 * s.tail then 1 else 0) := by
  refine ⟨_, toRat_ofScaled _ _ p, ?_⟩
  have hunit : (10 ^ s.width : Int) = ((10 ^ s.width : Nat) : Int) := by push_cast; rfl
  have hpos : 0 < 10 ^ s.width := Nat.pow_pos (by decide)
  simp only [Proper, hunit, Int.abs_eq_natAbs]
  generalize 10 ^ s.width = unit at hpos
  -- The tail points to the other one of the two numbers, by its sign.
  rcases lt_trichotomy s.tail 0 with htail | htail | htail
  · rw [Int.sign_eq_neg_one_of_neg htail]
    constructor
    · intro hproper
      split <;> omega
    · omega
  · rw [htail]
    constructor
    · intro hproper
      split <;> omega
    · intro _ _ _
      have hbelow : ¬ (unit : Int) ≤ 2 * 0 := by omega
      rw [if_neg hbelow]
      exact ite_self 0
  · rw [Int.sign_eq_one_of_pos htail]
    constructor
    · intro hproper
      split <;> omega
    · intro hhead _ hproper
      have haway : s.head = 0 ∨ s.head.sign = 1 := by
        rcases hhead.eq_or_lt with h | h
        · exact .inl h.symm
        · exact .inr (Int.sign_eq_one_of_pos h)
      simp only [haway, and_true]
      split <;> split <;> omega

/-- Rounding is off by half a unit of the head at most. -/
theorem abs_round_sub_le (p : Nat) (h : s.Proper) :
    |(s.round p).toRat - s.value| ≤ (10 : Rat) ^ s.exponent / 2 := by
  obtain ⟨step, hround, hclose, -⟩ := exists_round p s
  have hunit := ten_zpow_pos s.exponent
  have hpow : (0 : Rat) < (10 : Rat) ^ s.width := pow_pos (by decide) _
  have hstep : |(step : Rat) - s.tail / (10 : Rat) ^ s.width| ≤ 1 / 2 := by
    have hcast : 2 * |(step : Rat) * (10 : Rat) ^ s.width - s.tail| ≤ (10 : Rat) ^ s.width := by
      exact_mod_cast hclose h
    have hscale : (step : Rat) - s.tail / (10 : Rat) ^ s.width =
        ((step : Rat) * (10 : Rat) ^ s.width - s.tail) / (10 : Rat) ^ s.width := by
      field_simp
    rw [hscale, abs_div, abs_of_pos hpow, div_le_iff₀ hpow]
    linarith
  have herror : (s.round p).toRat - s.value =
      ((step : Rat) - s.tail / (10 : Rat) ^ s.width) * (10 : Rat) ^ s.exponent := by
    rw [hround, value]
    push_cast
    ring
  rw [herror, abs_mul, abs_of_pos hunit]
  linarith [mul_le_mul_of_nonneg_right hstep hunit.le]

/-- A sum without a tail is not rounded. -/
theorem round_of_tail_eq_zero (p : Nat) (h : s.tail = 0) : (s.round p).toRat = s.value := by
  have hproper : s.Proper := by
    rw [Proper, h]
    exact Nat.pow_pos (by decide)
  obtain ⟨step, hround, hclose, -⟩ := exists_round p s
  have hpos : (0 : Int) < 10 ^ s.width := Int.pow_pos (by decide)
  have hle := hclose hproper
  rw [h, sub_zero, abs_mul, abs_of_pos hpos] at hle
  have hstep : step = 0 := by
    by_contra hne
    have := le_mul_of_one_le_left hpos.le (Int.one_le_abs hne)
    linarith
  rw [hround, value, h, hstep]
  simp

/-- A sum whose parts are not negative is rounded up from one half. -/
theorem round_of_nonneg (p : Nat) (hhead : 0 ≤ s.head) (htail : 0 ≤ s.tail) (h : s.Proper) :
    (s.round p).toRat =
      ⌊s.head + s.tail / (10 : Rat) ^ s.width + 1 / 2⌋ * (10 : Rat) ^ s.exponent := by
  obtain ⟨step, hround, -, hstep⟩ := exists_round p s
  have hpow : (0 : Rat) < (10 : Rat) ^ s.width := pow_pos (by decide) _
  obtain ⟨hrest, hrest_lt⟩ := h.rest_mem htail
  have hfloor : ⌊(s.head : Rat) + s.tail / (10 : Rat) ^ s.width + 1 / 2⌋ = s.head + step := by
    rw [hstep hhead htail h, Int.floor_eq_iff]
    split
    · next hhalf =>
      have : (1 : Rat) / 2 ≤ s.tail / (10 : Rat) ^ s.width := by
        rw [div_le_div_iff₀ two_pos hpow]
        have : ((10 ^ s.width : Int) : Rat) ≤ ((2 * s.tail : Int) : Rat) := Int.cast_le.2 hhalf
        push_cast at this
        linarith
      push_cast
      constructor <;> linarith
    · next hhalf =>
      have : (s.tail : Rat) / (10 : Rat) ^ s.width < 1 / 2 := by
        rw [div_lt_div_iff₀ hpow two_pos]
        have : ((2 * s.tail : Int) : Rat) < ((10 ^ s.width : Int) : Rat) :=
          Int.cast_lt.2 (not_le.1 hhalf)
        push_cast at this
        linarith
      push_cast
      constructor <;> linarith
  rw [hround, hfloor]

/-! ## Sums of two significands -/

/-- The three forms of the sum of a significand and another one `gap` places below it. -/
inductive IsSum (p q : Nat) (upper lower : Int) (gap : Nat) (e : Int) : Partial → Prop
  | exact : IsSum p q upper lower gap e ⟨upper * 10 ^ gap + lower, e - gap, 0, 0⟩
  /-- The lower operand is below all digits that are kept. -/
  | far (below : digitCount lower.natAbs + 1 < gap)
      (kept : digitCount lower.natAbs + 1 + q < digitCount upper.natAbs + gap) :
      IsSum p q upper lower gap e ⟨upper, e, lower.sign, q + 2⟩
  /-- The head has `p` digits, the last `k` of them below those of the upper operand. -/
  | cut (k w : Nat) (width : gap = k + w) (full : p ≤ digitCount upper.natAbs + k)
      (apart : upper.sign ≠ lower.sign →
        digitCount lower.natAbs + p < digitCount upper.natAbs + gap) :
      IsSum p q upper lower gap e
        ⟨upper * 10 ^ k + lower.tdiv (10 ^ w), e - k, lower.tmod (10 ^ w), w⟩

theorem isSum_ofSum (p q : Nat) (upper lower : Int) (gap : Nat) (e : Int) :
    IsSum p q upper lower gap e (ofSum p q upper lower gap e) := by
  simp only [ofSum, splitDigits_eq]
  split
  · exact .exact
  · next hoverlap =>
    split
    · next hfar => exact .far hfar.1 hfar.2
    · split
      · next hfull =>
        have h : IsSum p q upper lower gap e
            ⟨upper * 10 ^ 0 + lower.tdiv (10 ^ gap), e - (0 : Nat), lower.tmod (10 ^ gap),
              gap⟩ := by
          refine .cut 0 gap (Nat.zero_add gap).symm hfull fun hopposite => ?_
          simp only [hopposite, ne_eq, not_false_eq_true, true_and] at hoverlap
          omega
        simpa using h
      · split
        · next hshort hcut =>
          obtain ⟨w, rfl⟩ : ∃ w, gap = p - digitCount upper.natAbs + w :=
            ⟨gap - (p - digitCount upper.natAbs), by omega⟩
          rw [Nat.add_sub_cancel_left]
          refine .cut _ w rfl (by omega) fun hopposite => ?_
          simp only [hopposite, ne_eq, not_false_eq_true, true_and] at hoverlap
          omega
        · exact .exact

variable {upper lower : Int}

theorem IsSum.proper (h : IsSum p q upper lower gap e s) : s.Proper := by
  cases h with
  | exact => exact Nat.pow_pos (by decide)
  | far below kept =>
    show lower.sign.natAbs < 10 ^ (q + 2)
    have : 1 < 10 ^ (q + 2) := Nat.one_lt_pow (by omega) (by decide)
    rw [Int.natAbs_sign]
    split <;> omega
  | cut k w width full apart => exact natAbs_tmod_lt _ _

/-- Unless the operands are far apart, no digit is lost. -/
theorem IsSum.value_eq_or (h : IsSum p q upper lower gap e s) :
    s.value = (upper + lower / (10 : Rat) ^ gap) * (10 : Rat) ^ e ∨
      s = ⟨upper, e, lower.sign, q + 2⟩ ∧ digitCount lower.natAbs + 1 < gap ∧
        digitCount lower.natAbs + 1 + q < digitCount upper.natAbs + gap := by
  have hten : ∀ k : Nat, (10 : Rat) ^ k ≠ 0 := fun k => pow_ne_zero k (by decide)
  cases h with
  | exact =>
    left
    rw [value, zpow_sub₀ (by decide), zpow_natCast]
    push_cast
    field_simp
    simp
  | far below kept => exact .inr ⟨rfl, below, kept⟩
  | cut k w width full apart =>
    left
    rw [value, ← cast_tdiv_add_tmod lower w, width, zpow_sub₀ (by decide), zpow_natCast, pow_add]
    push_cast
    field_simp
    ring

/-- A sum `k` places below the upper operand is no more than both operands together. -/
theorem abs_sum_mul_zpow_le {k : Nat} {low : Rat}
    (hlow : |low| / (10 : Rat) ^ k ≤ |(lower : Rat)| / (10 : Rat) ^ gap) :
    |upper * (10 : Rat) ^ k + low| * (10 : Rat) ^ (e - k) ≤
      (|(upper : Rat)| + |(lower : Rat)| / (10 : Rat) ^ gap) * (10 : Rat) ^ e := by
  have hpow : (0 : Rat) < (10 : Rat) ^ k := pow_pos (by decide) k
  have hunit := ten_zpow_pos e
  have htriangle := abs_add_le ((upper : Rat) * (10 : Rat) ^ k) low
  rw [abs_mul, abs_of_pos hpow] at htriangle
  rw [zpow_sub₀ (by decide), zpow_natCast, mul_div_assoc', div_le_iff₀ hpow]
  calc |upper * (10 : Rat) ^ k + low| * (10 : Rat) ^ e
      ≤ (|(upper : Rat)| * (10 : Rat) ^ k + |low|) * (10 : Rat) ^ e :=
        mul_le_mul_of_nonneg_right htriangle hunit.le
    _ = (|(upper : Rat)| + |low| / (10 : Rat) ^ k) * (10 : Rat) ^ e * (10 : Rat) ^ k := by
        field_simp
    _ ≤ (|(upper : Rat)| + |(lower : Rat)| / (10 : Rat) ^ gap) * (10 : Rat) ^ e *
          (10 : Rat) ^ k := by gcongr

theorem abs_tdiv_div_le {k w : Nat} (hwidth : gap = k + w) :
    |(lower.tdiv (10 ^ w) : Rat)| / (10 : Rat) ^ k ≤ |(lower : Rat)| / (10 : Rat) ^ gap := by
  have hpow : (0 : Rat) < (10 : Rat) ^ k := pow_pos (by decide) k
  have hnat : lower.natAbs / 10 ^ w * 10 ^ w ≤ lower.natAbs := Nat.div_mul_le_self _ _
  have habs : |lower.tdiv (10 ^ w)| * 10 ^ w ≤ |lower| := by
    rw [Int.abs_eq_natAbs, Int.abs_eq_natAbs, Int.natAbs_tdiv, Int.natAbs_pow]
    exact_mod_cast hnat
  have hcast : |(lower.tdiv (10 ^ w) : Rat)| * (10 : Rat) ^ w ≤ |(lower : Rat)| := by
    exact_mod_cast habs
  rw [div_le_div_iff₀ hpow (pow_pos (by decide) gap), hwidth, pow_add]
  nlinarith

/-- The head is no more than both operands together. -/
theorem IsSum.abs_head_le (h : IsSum p q upper lower gap e s) :
    |(s.head : Rat)| * (10 : Rat) ^ s.exponent ≤
      (|(upper : Rat)| + |(lower : Rat)| / (10 : Rat) ^ gap) * (10 : Rat) ^ e := by
  cases h with
  | exact =>
    push_cast
    exact abs_sum_mul_zpow_le le_rfl
  | far below kept =>
    have : 0 ≤ |(lower : Rat)| / (10 : Rat) ^ gap := by positivity
    exact mul_le_mul_of_nonneg_right (by linarith) (ten_zpow_pos e).le
  | cut k w width full apart =>
    push_cast
    exact abs_sum_mul_zpow_le (abs_tdiv_div_le width)

theorem add_tdiv_ne_zero_of_sign {k w : Nat} (hupper : upper ≠ 0)
    (hsign : upper.sign = lower.sign) : upper * 10 ^ k + lower.tdiv (10 ^ w) ≠ 0 := by
  have hpow : ∀ k : Nat, (0 : Int) < 10 ^ k := fun k => Int.pow_pos (by decide)
  rcases lt_or_gt_of_ne hupper with hneg | hpos
  · have hlower : lower < 0 := by
      rwa [Int.sign_eq_neg_one_of_neg hneg, eq_comm, Int.sign_eq_neg_one_iff_neg] at hsign
    have := mul_neg_of_neg_of_pos hneg (hpow k)
    have hquotient := Int.tdiv_nonneg (neg_nonneg.2 hlower.le) (hpow w).le
    rw [Int.neg_tdiv] at hquotient
    omega
  · have hlower : 0 < lower := by
      rwa [Int.sign_eq_one_of_pos hpos, eq_comm, Int.sign_eq_one_iff_pos] at hsign
    have := mul_pos hpos (hpow k)
    have := Int.tdiv_nonneg hlower.le (hpow w).le
    omega

/-- The digits of the lower operand do not reach the first one of the upper. -/
theorem add_tdiv_ne_zero_of_apart {k w : Nat} (hupper : upper ≠ 0)
    (hapart : digitCount lower.natAbs < digitCount upper.natAbs + k + w) :
    upper * 10 ^ k + lower.tdiv (10 ^ w) ≠ 0 := by
  intro hzero
  have hupper_nat := Int.natAbs_ne_zero.2 hupper
  have hcount := Text.digitCount_ne_zero hupper_nat
  have hlt : lower.natAbs / 10 ^ w < upper.natAbs * 10 ^ k := by
    apply Nat.div_lt_of_lt_mul
    calc lower.natAbs < 10 ^ digitCount lower.natAbs := Text.lt_pow_digitCount _
      _ ≤ 10 ^ (w + (digitCount upper.natAbs - 1 + k)) :=
          Nat.pow_le_pow_right (by decide) (by omega)
      _ = 10 ^ w * (10 ^ (digitCount upper.natAbs - 1) * 10 ^ k) := by
          rw [Nat.pow_add, Nat.pow_add]
      _ ≤ 10 ^ w * (upper.natAbs * 10 ^ k) :=
          Nat.mul_le_mul_left _ (Nat.mul_le_mul_right _ (Text.pow_digitCount_le hupper_nat))
  -- A sum of zero would have two parts of the same magnitude.
  have hequal : (lower.tdiv (10 ^ w)).natAbs = (upper * 10 ^ k).natAbs := by omega
  rw [Int.natAbs_tdiv, Int.natAbs_mul, Int.natAbs_pow, Int.natAbs_pow] at hequal
  exact hlt.ne hequal

/-- A sum with a tail has a head, too. -/
theorem IsSum.head_ne_zero (h : IsSum p q upper lower gap e s) (hupper : upper ≠ 0)
    (htail : s.tail ≠ 0) : s.head ≠ 0 := by
  cases h with
  | exact => exact absurd rfl htail
  | far below kept => exact hupper
  | cut k w width full apart =>
    by_cases hsign : upper.sign = lower.sign
    · exact add_tdiv_ne_zero_of_sign hupper hsign
    · exact add_tdiv_ne_zero_of_apart hupper (by have := apart hsign; omega)

/-- Positive operands have a sum of positive parts. -/
theorem IsSum.pos (h : IsSum p q upper lower gap e s) (hupper : 0 < upper) (hlower : 0 < lower) :
    0 < s.head ∧ 0 ≤ s.tail := by
  have hpow : ∀ k : Nat, (0 : Int) < 10 ^ k := fun k => Int.pow_pos (by decide)
  cases h with
  | exact => exact ⟨add_pos (mul_pos hupper (hpow gap)) hlower, le_rfl⟩
  | far below kept => exact ⟨hupper, (Int.sign_eq_one_of_pos hlower).symm ▸ Int.one_nonneg⟩
  | cut k w width full apart =>
    exact ⟨add_pos_of_pos_of_nonneg (mul_pos hupper (hpow k))
      (Int.tdiv_nonneg hlower.le (hpow w).le), Int.tmod_nonneg _ hlower.le⟩

/-! ## Fitting the head -/

/-- The head gives away the digits it has too many, or takes those it lacks from the tail, as far as
there are any. -/
inductive IsFit (q : Nat) (s : Partial) : Partial → Prop
  | cut (k : Nat) (long : digitCount s.head.natAbs = q + k) :
      IsFit q s ⟨s.head.tdiv (10 ^ k), s.exponent + k,
        s.head.tmod (10 ^ k) * 10 ^ s.width + s.tail, s.width + k⟩
  | drawn (k v : Nat) (width : s.width = k + v) (short : digitCount s.head.natAbs + k ≤ q)
      (filled : v = 0 ∨ digitCount s.head.natAbs + k = q) :
      IsFit q s ⟨s.head * 10 ^ k + s.tail.tdiv (10 ^ v), s.exponent - k, s.tail.tmod (10 ^ v), v⟩
  | same (short : digitCount s.head.natAbs ≤ q)
      (filled : s.tail = 0 ∨ digitCount s.head.natAbs = q) : IsFit q s s

theorem isFit_fit (q : Nat) (s : Partial) : IsFit q s (s.fit q) := by
  simp only [fit, splitDigits_eq]
  split
  · next hlong => exact .cut _ (by omega)
  · split
    · next hshort =>
      obtain ⟨v, hv⟩ := Nat.exists_eq_add_of_le (Nat.min_le_left s.width
        (q - digitCount s.head.natAbs))
      rw [Nat.sub_eq_of_eq_add' hv]
      exact .drawn _ v hv (by omega) (by omega)
    · next hshort => exact .same (by omega) (by omega)

variable {t : Partial}

theorem IsFit.value_eq (h : IsFit q s t) : t.value = s.value := by
  have hten : ∀ k : Nat, (10 : Rat) ^ k ≠ 0 := fun k => pow_ne_zero k (by decide)
  cases h with
  | cut k long =>
    rw [value, value, zpow_add₀ (by decide), zpow_natCast, pow_add, ← cast_tdiv_add_tmod s.head k]
    push_cast
    field_simp
    ring
  | drawn k v width short filled =>
    rw [value, value, zpow_sub₀ (by decide), zpow_natCast, width, pow_add,
      ← cast_tdiv_add_tmod s.tail v]
    push_cast
    field_simp
    ring
  | same short filled => rfl

theorem IsFit.proper (h : IsFit q s t) (hs : s.Proper) : t.Proper := by
  cases h with
  | cut k long =>
    have hlow := natAbs_tmod_lt s.head k
    simp only [Proper] at hs ⊢
    calc (s.head.tmod (10 ^ k) * 10 ^ s.width + s.tail).natAbs
        ≤ (s.head.tmod (10 ^ k)).natAbs * 10 ^ s.width + s.tail.natAbs := by
          refine (Int.natAbs_add_le _ _).trans_eq ?_
          rw [Int.natAbs_mul, Int.natAbs_pow]
          rfl
      _ < ((s.head.tmod (10 ^ k)).natAbs + 1) * 10 ^ s.width := by
          rw [Nat.add_mul, Nat.one_mul]
          omega
      _ ≤ 10 ^ k * 10 ^ s.width := Nat.mul_le_mul_right _ hlow
      _ = 10 ^ (s.width + k) := by rw [← Nat.pow_add, Nat.add_comm]
  | drawn k v width short filled => exact natAbs_tmod_lt _ _
  | same short filled => exact hs

/-- The head has no more than `q` digits afterwards. -/
theorem IsFit.digits_le (h : IsFit q s t) (hs : s.Proper) : digitCount t.head.natAbs ≤ q := by
  rw [digitCount_le_iff]
  cases h with
  | cut k long =>
    rw [Int.natAbs_tdiv, Int.natAbs_pow]
    apply Nat.div_lt_of_lt_mul
    show s.head.natAbs < 10 ^ k * 10 ^ q
    rw [← Nat.pow_add, ← digitCount_le_iff]
    omega
  | drawn k v width short filled =>
    have hhead := Text.lt_pow_digitCount s.head.natAbs
    have htail : s.tail.natAbs / 10 ^ v < 10 ^ k := by
      apply Nat.div_lt_of_lt_mul
      rw [← Nat.pow_add, Nat.add_comm, ← width]
      exact hs
    calc (s.head * 10 ^ k + s.tail.tdiv (10 ^ v)).natAbs
        ≤ s.head.natAbs * 10 ^ k + s.tail.natAbs / 10 ^ v := by
          refine (Int.natAbs_add_le _ _).trans_eq ?_
          rw [Int.natAbs_mul, Int.natAbs_tdiv, Int.natAbs_pow, Int.natAbs_pow]
          rfl
      _ < (s.head.natAbs + 1) * 10 ^ k := by
          rw [Nat.add_mul, Nat.one_mul]
          omega
      _ ≤ 10 ^ digitCount s.head.natAbs * 10 ^ k := Nat.mul_le_mul_right _ hhead
      _ ≤ 10 ^ q := by
          rw [← Nat.pow_add]
          exact Nat.pow_le_pow_right (by decide) short
  | same short filled => exact digitCount_le_iff.1 short

/-- If something is left in the tail, the head is brought to `q` digits. -/
theorem IsFit.exponent_eq (h : IsFit q s t) (ht : t.tail ≠ 0) :
    t.exponent + q = s.exponent + digitCount s.head.natAbs := by
  cases h with
  | cut k long =>
    show s.exponent + k + q = _
    omega
  | drawn k v width short filled =>
    have hv : v ≠ 0 := by
      rintro rfl
      exact ht (by simp)
    show s.exponent - k + q = _
    omega
  | same short filled => omega

/-- Nothing is left over from an empty head. -/
theorem IsFit.head_ne_zero (h : IsFit q s t) (hq : q ≠ 0) (hs : s.tail ≠ 0 → s.head ≠ 0)
    (ht : t.tail ≠ 0) : s.head ≠ 0 := by
  intro hhead
  have htail : s.tail = 0 := by
    by_contra hne
    exact hs hne hhead
  have hcount : digitCount s.head.natAbs = 0 := by
    rw [hhead]
    exact Text.digitCount_zero
  cases h with
  | cut k long => omega
  | drawn k v width short filled =>
    have hzero : s.tail.tmod (10 ^ v) = 0 := by rw [htail, Int.zero_tmod]
    exact ht hzero
  | same short filled => exact ht htail

theorem IsFit.nonneg (h : IsFit q s t) (hhead : 0 ≤ s.head) (htail : 0 ≤ s.tail) :
    0 ≤ t.head ∧ 0 ≤ t.tail := by
  have hpow : ∀ k : Nat, (0 : Int) ≤ 10 ^ k := fun k => (Int.pow_pos (by decide)).le
  cases h with
  | cut k long =>
    exact ⟨Int.tdiv_nonneg hhead (hpow k),
      add_nonneg (mul_nonneg (Int.tmod_nonneg _ hhead) (hpow _)) htail⟩
  | drawn k v width short filled =>
    exact ⟨add_nonneg (mul_nonneg hhead (hpow k)) (Int.tdiv_nonneg htail (hpow v)),
      Int.tmod_nonneg _ htail⟩
  | same short filled => exact ⟨hhead, htail⟩

/-! ## The rounded sum -/

/-- The leading digit of a positive sum is that of its head. -/
theorem log_value (hs : s.Proper) (hhead : 0 < s.head) (htail : 0 ≤ s.tail) :
    0 < s.value ∧ Int.log 10 s.value = s.exponent + digitCount s.head.natAbs - 1 := by
  obtain ⟨m, hm⟩ := Int.eq_ofNat_of_zero_le hhead.le
  obtain ⟨hrest, hrest_lt⟩ := hs.rest_mem htail
  have hm0 : m ≠ 0 := by omega
  have hpos : (0 : Rat) < s.head + s.tail / (10 : Rat) ^ s.width :=
    add_pos_of_pos_of_nonneg (Int.cast_pos.2 hhead) hrest
  refine ⟨mul_pos hpos (ten_zpow_pos _), ?_⟩
  rw [value, Number.log_mul_zpow hpos, hm, Int.natAbs_natCast, Int.cast_natCast,
    Number.log_natCast_add hm0 hrest hrest_lt]
  omega

/-- A positive sum is rounded to the nearest decimal of `q` digits. -/
theorem round_eq_nearestSignificant (p : Nat) (h : IsFit q s t) (hs : s.Proper)
    (hhead : 0 < s.head) (htail : 0 ≤ s.tail) :
    (t.round p).toRat = nearestSignificant q s.value := by
  obtain ⟨ht_head, ht_tail⟩ := h.nonneg hhead.le htail
  by_cases hexact : t.tail = 0
  · obtain ⟨m, hm⟩ := Int.eq_ofNat_of_zero_le ht_head
    have hdigits := h.digits_le hs
    have hvalue : t.value = (m : Rat) * (10 : Rat) ^ t.exponent := by
      rw [value, hexact, hm]
      simp
    rw [hm, Int.natAbs_natCast] at hdigits
    rw [round_of_tail_eq_zero p hexact, ← h.value_eq, hvalue,
      Number.nearestSignificant_of_digitCount_le hdigits]
  · obtain ⟨hpos, hlog⟩ := log_value hs hhead htail
    obtain ⟨hrest, -⟩ := (h.proper hs).rest_mem ht_tail
    have hexponent : Int.log 10 s.value - q + 1 = t.exponent := by
      have := h.exponent_eq hexact
      omega
    have hshifted : Number.shifted q s.value = t.head + t.tail / (10 : Rat) ^ t.width := by
      have hcancel : t.exponent + (q - 1 - Int.log 10 s.value) = 0 := by omega
      rw [Number.shifted]
      generalize (q - 1 - Int.log 10 s.value : Int) = k at hcancel ⊢
      rw [← h.value_eq, value, mul_assoc, ten_zpow_mul hcancel, zpow_zero, mul_one]
    have hfloor : ((⌊(t.head : Rat) + t.tail / (10 : Rat) ^ t.width + 1 / 2⌋₊ : Nat) : Rat) =
        ⌊(t.head : Rat) + t.tail / (10 : Rat) ^ t.width + 1 / 2⌋ := by
      have : (0 : Rat) ≤ t.head := Int.cast_nonneg ht_head
      exact natCast_floor_eq_intCast_floor (by linarith)
    rw [round_of_nonneg p ht_head ht_tail (h.proper hs), Number.nearestSignificant_of_pos hpos,
      hexponent, Number.mantissa, hshifted, hfloor]

/-! ## Sums of negative operands -/

/-- The partial sum of the negative operands. -/
def neg (s : Partial) : Partial := { s with head := -s.head, tail := -s.tail }

theorem splitDigits_neg (n : Int) (w : Nat) :
    splitDigits (-n) w = (-(splitDigits n w).1, -(splitDigits n w).2) := by
  rw [splitDigits_eq, splitDigits_eq, Int.neg_tdiv, Int.neg_tmod]

theorem ofSum_neg (p q : Nat) (upper lower : Int) (gap : Nat) (e : Int) :
    ofSum p q (-upper) (-lower) gap e = (ofSum p q upper lower gap e).neg := by
  have hopposite : -upper.sign ≠ -lower.sign ↔ upper.sign ≠ lower.sign := by omega
  simp only [ofSum, Int.natAbs_neg, Int.sign_neg, hopposite, splitDigits_neg, Int.neg_mul,
    ← Int.neg_add]
  split_ifs <;> rfl

theorem fit_neg (q : Nat) (s : Partial) : s.neg.fit q = (s.fit q).neg := by
  simp only [fit, neg, Int.natAbs_neg, splitDigits_neg, Int.neg_mul, ← Int.neg_add, ne_eq,
    Int.neg_eq_zero]
  split_ifs <;> rfl

theorem round_neg (p : Nat) (s : Partial) : s.neg.round p = (s.round p).neg := by
  have haway : (-s.head = 0 ∨ -s.head.sign = -s.tail.sign) ↔
      (s.head = 0 ∨ s.head.sign = s.tail.sign) := by omega
  simp only [round, neg, Int.natAbs_neg, Int.sign_neg, haway]
  rw [← ofScaled_neg]
  split_ifs
  · rw [Int.neg_add]
  · simp

end Partial

variable {a b : Decimal}

/-- The value of a sum of decimals whose exponents are apart. -/
theorem toRat_add_toRat (hgap : a.exponent - b.exponent = gap) :
    a.toRat + b.toRat =
      (a.significand + b.significand / (10 : Rat) ^ gap) * (10 : Rat) ^ a.exponent := by
  have hexponent : b.exponent = a.exponent - gap := by omega
  rw [toRat, toRat, hexponent, zpow_sub₀ (by decide), zpow_natCast]
  ring

/-- Both an operand far below `m` and the unit that stands for it are too small to be seen. -/
theorem nearestSignificant_far {m n : Nat} (hp : 0 < p) (hm : m ≠ 0)
    (hbelow : digitCount n + 1 < gap) (hkept : digitCount n + 1 + p < digitCount m + gap)
    (e : Int) :
    nearestSignificant p ((m + 1 / (10 : Rat) ^ (p + 2)) * (10 : Rat) ^ e) =
      nearestSignificant p ((m + n / (10 : Rat) ^ gap) * (10 : Rat) ^ e) := by
  have hten : ∀ k : Nat, (0 : Rat) < (10 : Rat) ^ k := fun k => pow_pos (by decide) k
  have hunit_lt : (1 : Rat) / (10 : Rat) ^ (p + 2) < 1 := by
    rw [div_lt_one (hten _)]
    exact one_lt_pow₀ (by decide) (by omega)
  have hunit_small : 2 * (1 / (10 : Rat) ^ (p + 2)) * (10 : Rat) ^ p <
      (10 : Rat) ^ digitCount m := by
    have hunit : (1 : Rat) / (10 : Rat) ^ (p + 2) * (10 : Rat) ^ p = 1 / 100 := by
      rw [pow_add]
      field_simp
      norm_num
    have hone : (1 : Rat) ≤ (10 : Rat) ^ digitCount m := one_le_pow₀ (by decide)
    linarith
  have hlow_lt : (n : Rat) / (10 : Rat) ^ gap < 1 := by
    have hnat : n < 10 ^ gap := (Text.lt_pow_digitCount n).trans_le
      (Nat.pow_le_pow_right (by decide) (by omega))
    rw [div_lt_one (hten _)]
    exact_mod_cast hnat
  have hlow_small : 2 * ((n : Rat) / (10 : Rat) ^ gap) * (10 : Rat) ^ p <
      (10 : Rat) ^ digitCount m := by
    have hnat : n * 10 ^ p * 10 < 10 ^ (digitCount m + gap) := by
      calc n * 10 ^ p * 10 < 10 ^ digitCount n * 10 ^ p * 10 := by
            have := Text.lt_pow_digitCount n
            gcongr
        _ = 10 ^ (digitCount n + p + 1) := by rw [Nat.pow_add, Nat.pow_add, Nat.pow_one]
        _ ≤ 10 ^ (digitCount m + gap) := Nat.pow_le_pow_right (by decide) (by omega)
    have hlow : (n : Rat) * (10 : Rat) ^ p * 10 < (10 : Rat) ^ (digitCount m + gap) := by
      exact_mod_cast hnat
    have hnonneg : 0 ≤ (n : Rat) * (10 : Rat) ^ p := mul_nonneg (Nat.cast_nonneg n) (hten p).le
    rw [pow_add] at hlow
    rw [mul_assoc, div_mul_eq_mul_div, mul_div_assoc', div_lt_iff₀ (hten gap)]
    linarith
  rw [Number.nearestSignificant_natCast_add hm (by positivity) hunit_lt hunit_small,
    Number.nearestSignificant_natCast_add hm (by positivity) hlow_lt hlow_small]

theorem toRat_addApart_of_pos (hp : 0 < p) (ha : 0 < a.significand) (hb : 0 < b.significand)
    (h : b.exponent < a.exponent) :
    (addApart p a b).toRat = nearestSignificant p (a.toRat + b.toRat) := by
  obtain ⟨gap, hgap⟩ := Int.eq_ofNat_of_zero_le (sub_nonneg.2 h.le)
  have hsigns : a.isNegative = b.isNegative := by
    simp [isNegative, not_lt.2 ha.le, not_lt.2 hb.le]
  unfold addApart
  simp only [hgap, Int.toNat_natCast, if_neg hp.ne', if_pos hsigns]
  have hsum := Partial.isSum_ofSum p p a.significand b.significand gap a.exponent
  have hfit := Partial.isFit_fit p (Partial.ofSum p p a.significand b.significand gap a.exponent)
  generalize Partial.ofSum p p a.significand b.significand gap a.exponent = s at hsum hfit ⊢
  obtain ⟨hhead, htail⟩ := hsum.pos ha hb
  rw [Partial.round_eq_nearestSignificant p hfit hsum.proper hhead htail, toRat_add_toRat hgap]
  rcases hsum.value_eq_or with hexact | ⟨rfl, hbelow, hkept⟩
  · rw [hexact]
  · obtain ⟨m, hm⟩ := Int.eq_ofNat_of_zero_le ha.le
    obtain ⟨n, hn⟩ := Int.eq_ofNat_of_zero_le hb.le
    have hsign : (b.significand.sign : Rat) = 1 := by
      rw [Int.sign_eq_one_of_pos hb, Int.cast_one]
    rw [hn, Int.natAbs_natCast] at hbelow hkept
    rw [hm, Int.natAbs_natCast] at hkept
    rw [Partial.value, hsign, hm, hn, Int.cast_natCast, Int.cast_natCast]
    exact nearestSignificant_far hp (by omega) hbelow hkept _

/-- A sum of two positive numbers is the nearest decimal to the exact one. -/
theorem toRat_add_of_pos (ha : 0 < a.significand) (hb : 0 < b.significand)
    (hp : 0 < max a.precision b.precision) :
    (a.add b).toRat = nearestSignificant (max a.precision b.precision) (a.toRat + b.toRat) := by
  have hzero : ∀ {d : Decimal}, 0 < d.significand → d.isZero = false := fun hd =>
    isZero_eq_false_iff.2 hd.ne'
  unfold add
  simp only [hzero ha, hzero hb, Bool.false_eq_true, if_false]
  split
  · next hequal =>
    rw [toRat_rounded hp, toRat, toRat, hequal]
    congr 1
    push_cast
    ring
  · split
    · next hlt => exact toRat_addApart_of_pos hp ha hb hlt
    · next hge =>
      rw [toRat_addApart_of_pos hp hb ha (by omega), add_comm]

theorem addApart_neg (p : Nat) (ha : a.significand ≠ 0) (hb : b.significand ≠ 0) :
    addApart p a.neg b.neg = (addApart p a b).neg := by
  have hsigns : a.neg.isNegative = b.neg.isNegative ↔ a.isNegative = b.isNegative := by
    have hflip : ∀ {d : Decimal}, d.significand ≠ 0 → d.neg.isNegative = !d.isNegative := by
      intro d hd
      rw [isNegative, isNegative, significand_neg, ← decide_not, decide_eq_decide]
      omega
    rw [hflip ha, hflip hb, Bool.not_inj_iff]
  simp only [addApart, significand_neg, exponent_neg, hsigns, Partial.ofSum_neg, Partial.fit_neg,
    Partial.round_neg, Int.neg_mul, ← Int.neg_add, ofScaled_neg]
  split <;> rfl

/-- A sum is symmetric, too. -/
theorem neg_add_neg (ha : a.significand ≠ 0) (hb : b.significand ≠ 0) :
    a.neg.add b.neg = (a.add b).neg := by
  have hzero : ∀ {d : Decimal}, d.significand ≠ 0 → d.isZero = false := isZero_eq_false_iff.2
  have ha' : a.neg.significand ≠ 0 := Int.neg_ne_zero.2 ha
  have hb' : b.neg.significand ≠ 0 := Int.neg_ne_zero.2 hb
  simp only [add, hzero ha, hzero hb, hzero ha', hzero hb', significand_neg, exponent_neg,
    precision_neg, addApart_neg _ ha hb, addApart_neg _ hb ha, ← Int.neg_add, rounded_neg]
  split_ifs <;> rfl

/-- **A sum without cancellation** is the nearest decimal to the exact one. -/
theorem toRat_add_of_sign (ha : a.significand ≠ 0)
    (hsign : a.significand.sign = b.significand.sign) (hp : 0 < max a.precision b.precision) :
    (a.add b).toRat = nearestSignificant (max a.precision b.precision) (a.toRat + b.toRat) := by
  rcases lt_or_gt_of_ne ha with hneg | hpos
  · have hb : b.significand < 0 := by
      rwa [Int.sign_eq_neg_one_of_neg hneg, eq_comm, Int.sign_eq_neg_one_iff_neg] at hsign
    have h := toRat_add_of_pos (a := a.neg) (b := b.neg) (neg_pos.2 hneg) (neg_pos.2 hb) hp
    rw [neg_add_neg ha hb.ne, toRat_neg, toRat_neg, toRat_neg, ← neg_add,
      Number.nearestSignificant_neg] at h
    exact neg_inj.1 h
  · have hb : 0 < b.significand := by
      rwa [Int.sign_eq_one_of_pos hpos, eq_comm, Int.sign_eq_one_iff_pos] at hsign
    exact toRat_add_of_pos hpos hb hp

/-! ## Sums with zero -/

theorem toRat_of_isZero (h : a.isZero = true) : a.toRat = 0 := by
  rw [isZero, beq_iff_eq] at h
  rw [toRat, h, Int.cast_zero, zero_mul]

theorem toRat_add_of_isZero_left (ha : a.isZero = true) : (a.add b).toRat = b.toRat := by
  unfold add
  simp only [ha, if_true]
  rfl

theorem toRat_add_of_isZero_right (hb : b.isZero = true) : (a.add b).toRat = a.toRat := by
  by_cases ha : a.isZero = true
  · rw [toRat_add_of_isZero_left ha, toRat_of_isZero ha, toRat_of_isZero hb]
  · unfold add
    simp only [ha, hb, if_true]
    rfl

/-! ## The error of sums -/

/-- The head of a fitted sum has at least `q` digits if anything is rounded. -/
theorem Partial.abs_round_sub_value_le {upper lower : Int} {s t : Partial} (p' : Nat)
    (hsum : IsSum p q upper lower gap e s) (hfit : IsFit q s t) (hupper : upper ≠ 0)
    (hq : q ≠ 0) :
    |(t.round p').toRat - s.value| ≤
      (|(upper : Rat)| + |(lower : Rat)| / (10 : Rat) ^ gap) * (10 : Rat) ^ e *
        (10 : Rat) ^ (1 - q : Int) / 2 := by
  have hbound := hsum.abs_head_le
  have hscale := ten_zpow_pos (1 - q)
  by_cases hexact : t.tail = 0
  · rw [round_of_tail_eq_zero p' hexact, hfit.value_eq, sub_self, abs_zero]
    have : 0 ≤ |(s.head : Rat)| * (10 : Rat) ^ s.exponent :=
      mul_nonneg (abs_nonneg _) (ten_zpow_pos _).le
    exact div_nonneg (mul_nonneg (this.trans hbound) hscale.le) two_pos.le
  · have hhead := hfit.head_ne_zero hq (hsum.head_ne_zero hupper) hexact
    have hdigits : (10 : Rat) ^ ((digitCount s.head.natAbs : Int) - 1) ≤ |(s.head : Rat)| := by
      have h := Number.zpow_digitCount_le (Int.natAbs_ne_zero.2 hhead)
      rwa [Nat.cast_natAbs, Int.cast_abs] at h
    have hexponent := hfit.exponent_eq hexact
    rw [← hfit.value_eq]
    calc |(t.round p').toRat - t.value| ≤ (10 : Rat) ^ t.exponent / 2 :=
          abs_round_sub_le p' (hfit.proper hsum.proper)
      _ = (10 : Rat) ^ ((digitCount s.head.natAbs : Int) - 1) * (10 : Rat) ^ s.exponent *
            (10 : Rat) ^ (1 - q : Int) / 2 := by
          rw [ten_zpow_mul rfl, ten_zpow_mul rfl]
          congr 2
          omega
      _ ≤ |(s.head : Rat)| * (10 : Rat) ^ s.exponent * (10 : Rat) ^ (1 - q : Int) / 2 := by
          have := ten_zpow_pos s.exponent
          gcongr
      _ ≤ _ := by gcongr

theorem abs_sign_le (n : Int) : |(n.sign : Rat)| ≤ 1 := by
  rcases lt_trichotomy n 0 with h | h | h
  · rw [Int.sign_eq_neg_one_of_neg h]
    norm_num
  · rw [h]
    norm_num
  · rw [Int.sign_eq_one_of_pos h]
    norm_num

/-- An operand far below is small against the other one. -/
theorem abs_lower_le {upper lower : Int} (hupper : upper ≠ 0)
    (hkept : digitCount lower.natAbs + 1 + q < digitCount upper.natAbs + gap) :
    |(lower : Rat) / (10 : Rat) ^ gap| ≤ |(upper : Rat)| * (1 / (10 : Rat) ^ q) / 10 := by
  have hten : ∀ k : Nat, (0 : Rat) < (10 : Rat) ^ k := fun k => pow_pos (by decide) k
  have hnat : lower.natAbs * 10 ^ (q + 1) ≤ upper.natAbs * 10 ^ gap := by
    have hupper_nat := Int.natAbs_ne_zero.2 hupper
    have hcount := Text.digitCount_ne_zero hupper_nat
    calc lower.natAbs * 10 ^ (q + 1) ≤ 10 ^ digitCount lower.natAbs * 10 ^ (q + 1) :=
          Nat.mul_le_mul_right _ (Text.lt_pow_digitCount _).le
      _ ≤ 10 ^ (digitCount upper.natAbs - 1) * 10 ^ gap := by
          rw [← Nat.pow_add, ← Nat.pow_add]
          exact Nat.pow_le_pow_right (by decide) (by omega)
      _ ≤ upper.natAbs * 10 ^ gap := Nat.mul_le_mul_right _ (Text.pow_digitCount_le hupper_nat)
  have hcast : |(lower : Rat)| * (10 : Rat) ^ (q + 1) ≤ |(upper : Rat)| * (10 : Rat) ^ gap := by
    rw [← Int.cast_abs, ← Int.cast_abs, Int.abs_eq_natAbs, Int.abs_eq_natAbs]
    exact_mod_cast hnat
  rw [abs_div, abs_of_pos (hten gap), div_le_iff₀ (hten gap)]
  rw [pow_succ] at hcast
  field_simp [(hten q).ne']
  linarith

/-- The unit that stands for it is, too. -/
theorem abs_sign_div_le {upper : Int} (hupper : upper ≠ 0) (lower : Int) :
    |(lower.sign : Rat) / (10 : Rat) ^ (q + 2)| ≤ |(upper : Rat)| * (1 / (10 : Rat) ^ q) / 100 := by
  have hten : ∀ k : Nat, (0 : Rat) < (10 : Rat) ^ k := fun k => pow_pos (by decide) k
  have hupper_one : (1 : Rat) ≤ |(upper : Rat)| := by exact_mod_cast Int.one_le_abs hupper
  have hsign := abs_sign_le lower
  rw [abs_div, abs_of_pos (hten _), pow_add, div_le_iff₀ (mul_pos (hten q) (hten 2))]
  field_simp [(hten q).ne']
  linarith

/-- What stands for an operand far below is closer to it than the unit that is rounded to. -/
theorem Partial.abs_value_sub_le {upper lower : Int} {s : Partial}
    (hsum : IsSum p q upper lower gap e s) (hupper : upper ≠ 0) :
    |s.value - (upper + lower / (10 : Rat) ^ gap) * (10 : Rat) ^ e| ≤
      (|(upper : Rat)| + |(lower : Rat)| / (10 : Rat) ^ gap) * (10 : Rat) ^ e *
        (10 : Rat) ^ (1 - q : Int) / 2 := by
  have hten : ∀ k : Nat, (0 : Rat) < (10 : Rat) ^ k := fun k => pow_pos (by decide) k
  have hunit := ten_zpow_pos e
  rcases hsum.value_eq_or with hexact | ⟨rfl, hbelow, hkept⟩
  · rw [hexact, sub_self, abs_zero]
    have := hten gap
    positivity
  · have hscale : (10 : Rat) ^ (1 - q : Int) = 10 * (1 / (10 : Rat) ^ q) := by
      rw [zpow_sub₀ (by decide), zpow_one, zpow_natCast, mul_one_div]
    have herror : Partial.value ⟨upper, e, lower.sign, q + 2⟩ -
        (upper + lower / (10 : Rat) ^ gap) * (10 : Rat) ^ e =
          (lower.sign / (10 : Rat) ^ (q + 2) - lower / (10 : Rat) ^ gap) * (10 : Rat) ^ e := by
      rw [Partial.value]
      ring
    have hstand := abs_sign_div_le (q := q) hupper lower
    have hlower := abs_lower_le hupper hkept
    have hrest : 0 ≤ |(lower : Rat)| / (10 : Rat) ^ gap * (1 / (10 : Rat) ^ q) := by
      have := hten gap
      have := hten q
      positivity
    have hle : |(lower.sign : Rat) / (10 : Rat) ^ (q + 2) - lower / (10 : Rat) ^ gap| ≤
        (|(upper : Rat)| + |(lower : Rat)| / (10 : Rat) ^ gap) *
          (10 * (1 / (10 : Rat) ^ q)) / 2 := by
      have hupper_nonneg : 0 ≤ |(upper : Rat)| * (1 / (10 : Rat) ^ q) := by
        have := hten q
        positivity
      refine (abs_sub _ _).trans ?_
      linarith
    rw [herror, abs_mul, abs_of_pos hunit, hscale]
    calc _ ≤ (|(upper : Rat)| + |(lower : Rat)| / (10 : Rat) ^ gap) * (10 * (1 / (10 : Rat) ^ q)) /
          2 * (10 : Rat) ^ e := mul_le_mul_of_nonneg_right hle hunit.le
      _ = _ := by ring

theorem abs_addApart_sub_le {a b : Decimal} (hp : 0 < p) (ha : a.significand ≠ 0)
    (h : b.exponent < a.exponent) :
    |(addApart p a b).toRat - (a.toRat + b.toRat)| ≤
      (|a.toRat| + |b.toRat|) * (10 : Rat) ^ (1 - p : Int) := by
  obtain ⟨gap, hgap⟩ := Int.eq_ofNat_of_zero_le (sub_nonneg.2 h.le)
  have hunit := ten_zpow_pos a.exponent
  have habs : |a.toRat| + |b.toRat| =
      (|(a.significand : Rat)| + |(b.significand : Rat)| / (10 : Rat) ^ gap) *
        (10 : Rat) ^ a.exponent := by
    have hexponent : b.exponent = a.exponent - gap := by omega
    rw [toRat, toRat, hexponent, abs_mul, abs_mul, abs_of_pos hunit,
      abs_of_pos (ten_zpow_pos _), zpow_sub₀ (by decide), zpow_natCast]
    ring
  unfold addApart
  simp only [hgap, Int.toNat_natCast, if_neg hp.ne']
  generalize hq : (if a.isNegative = b.isNegative then p else p + 1) = q
  have hqp : p ≤ q := by
    rw [← hq]
    split <;> omega
  have hsum := Partial.isSum_ofSum p q a.significand b.significand gap a.exponent
  have hfit := Partial.isFit_fit q (Partial.ofSum p q a.significand b.significand gap a.exponent)
  generalize Partial.ofSum p q a.significand b.significand gap a.exponent = s at hsum hfit ⊢
  have hround := Partial.abs_round_sub_value_le p hsum hfit ha (by omega)
  have hvalue := Partial.abs_value_sub_le hsum ha
  rw [← toRat_add_toRat hgap] at hvalue
  rw [← habs] at hround hvalue
  calc |((s.fit q).round p).toRat - (a.toRat + b.toRat)|
      ≤ |((s.fit q).round p).toRat - s.value| + |s.value - (a.toRat + b.toRat)| := abs_sub_le _ _ _
    _ ≤ (|a.toRat| + |b.toRat|) * (10 : Rat) ^ (1 - q : Int) := by linarith
    _ ≤ (|a.toRat| + |b.toRat|) * (10 : Rat) ^ (1 - p : Int) := by
        gcongr
        · norm_num

/-- The error of a sum is one unit in the last place of its operands at most, which can be more
than one of the sum where these cancel each other. -/
theorem abs_add_sub_le {a b : Decimal} (hp : 0 < max a.precision b.precision) :
    |(a.add b).toRat - (a.toRat + b.toRat)| ≤
      (|a.toRat| + |b.toRat|) * (10 : Rat) ^ (1 - max a.precision b.precision : Int) := by
  have hscale := ten_zpow_pos (1 - max a.precision b.precision : Int)
  by_cases ha : a.isZero = true
  · rw [toRat_add_of_isZero_left ha, toRat_of_isZero ha, zero_add, sub_self, abs_zero]
    positivity
  by_cases hb : b.isZero = true
  · rw [toRat_add_of_isZero_right hb, toRat_of_isZero hb, add_zero, sub_self, abs_zero]
    positivity
  have ha' := isZero_eq_false_iff.1 (Bool.eq_false_iff.2 ha)
  have hb' := isZero_eq_false_iff.1 (Bool.eq_false_iff.2 hb)
  unfold add
  simp only [ha, hb, Bool.false_eq_true, if_false]
  split
  · next hequal =>
    have hvalue : ((a.significand + b.significand : Int) : Rat) * (10 : Rat) ^ a.exponent =
        a.toRat + b.toRat := by
      rw [toRat, toRat, ← hequal]
      push_cast
      ring
    have herror := (Number.rounded_nearestSignificant (max a.precision b.precision)
      (a.toRat + b.toRat)).abs_sub_le
    have htriangle := mul_le_mul_of_nonneg_right (abs_add_le a.toRat b.toRat) hscale.le
    rw [toRat_rounded hp, hvalue]
    have : 0 ≤ |a.toRat + b.toRat| * (10 : Rat) ^ (1 - max a.precision b.precision : Int) :=
      mul_nonneg (abs_nonneg _) hscale.le
    push_cast at *
    linarith
  · split
    · next hlt => exact_mod_cast abs_addApart_sub_le hp ha' hlt
    · next hge =>
      have h := abs_addApart_sub_le hp hb' (show a.exponent < b.exponent by omega)
      rw [add_comm b.toRat, add_comm |b.toRat|] at h
      exact_mod_cast h

end Reckoner.Decimal
