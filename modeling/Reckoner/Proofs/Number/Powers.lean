import Reckoner.Proofs.Number.Bits

/-!
# The size of integer powers

An exact number is raised to an integer power exactly if the power is estimated to need no more bits
than the settings allow (`Number.powInt_of_ne`). The estimate is the size of the base times the
exponent, which is never below the size of the power, and above it by less than the exponent:

    |e| * (ratBits r - 1) < ratBits (r ^ e) ≤ |e| * ratBits r

So a power that keeps the limit may still be made approximate. The powers of 1 and of 2 are estimated
longest in proportion. Apart from these misjudged powers the size decides
(`Number.judgedBySize_iff`); only limits of 32 bits and more, and a limit of no bits, have other
exceptions (`Number.misjudged_iff`).
-/

namespace Reckoner

/-! ## Bits of powers -/

theorem lt_bitCount_pow {m : Nat} (hm : m ≠ 0) (k : Nat) :
    k * (bitCount m - 1) < bitCount (m ^ k) := by
  have hpos : 0 < m.size := Nat.size_pos.2 (Nat.pos_of_ne_zero hm)
  have hlow : 2 ^ (m.size - 1) ≤ m := Nat.lt_size.1 (Nat.sub_lt hpos one_pos)
  rw [bitCount_eq_size, bitCount_eq_size, Nat.lt_size, Nat.mul_comm, pow_mul]
  exact Nat.pow_le_pow_left hlow k

/-- The longer of numerator and denominator stays the longer one in every power. -/
theorem lt_ratBits_pow (r : Rat) (k : Nat) : k * (ratBits r - 1) < ratBits (r ^ k) := by
  have hpow : ratBits (r ^ k) = max (bitCount (r.num.natAbs ^ k)) (bitCount (r.den ^ k)) := by
    rw [ratBits, Rat.num_pow, Rat.den_pow, Int.natAbs_pow]
  rw [hpow, lt_max_iff]
  by_cases hlong : bitCount r.den < bitCount r.num.natAbs
  · have hnum : r.num.natAbs ≠ 0 := by
      intro hzero
      rw [hzero] at hlong
      exact Nat.not_lt_zero _ hlong
    rw [ratBits, max_eq_left hlong.le]
    exact .inl (lt_bitCount_pow hnum k)
  · rw [ratBits, max_eq_right (not_lt.1 hlong)]
    exact .inr (lt_bitCount_pow r.den_nz k)

theorem lt_ratBits_zpow (r : Rat) (e : Int) : e.natAbs * (ratBits r - 1) < ratBits (r ^ e) := by
  rcases e with k | k
  · exact lt_ratBits_pow r k
  · rw [zpow_negSucc, ratBits_inv]
    exact lt_ratBits_pow r (k + 1)

/-- The estimate exceeds the size of the power by less than the exponent. -/
theorem ratBits_mul_lt (r : Rat) (e : Int) :
    ratBits r * e.natAbs < ratBits (r ^ e) + e.natAbs := by
  have hlow := lt_ratBits_zpow r e
  have hsplit : ratBits r = ratBits r - 1 + 1 := (Nat.sub_add_cancel (one_le_ratBits r)).symm
  rw [hsplit, Nat.add_mul, Nat.one_mul, Nat.mul_comm]
  exact Nat.add_lt_add_right hlow _

namespace Number

variable {s : Settings} {r : Rat} {e : Int}

/-! ## Exact and approximate powers -/

theorem powInt_zero (x : Number) (s : Settings) : x.powInt 0 s = .ok (exact 1) := rfl

theorem powInt_of_zero (he : 0 < e) (s : Settings) : (exact 0).powInt e s = .ok (exact 0) := by
  unfold powInt
  rw [if_neg he.ne', if_neg (not_lt.2 he.le)]
  rfl

/-- The estimate decides about the powers of other numbers than 0. -/
theorem powInt_of_ne (hr : r ≠ 0) (he : e ≠ 0) (s : Settings) :
    (exact r).powInt e s =
      if s.maxExactBits < powerBits r e then
        .ok (approx (decimalPower ((exact r).toDecimal s.precision) e s.precision))
      else if 2 ^ 32 ≤ e.natAbs then .error .overflow
      else .ok (exact (r ^ e)) := by
  have hzero : (exact r).isZero = false := beq_false_of_ne hr
  unfold powInt
  rw [if_neg he, hzero]
  rfl

/-- The power keeps the limit on exact numbers. The zeroth power is 1 and always does. -/
def PowerFits (s : Settings) (r : Rat) (e : Int) : Prop :=
  e = 0 ∨ ratBits (r ^ e) ≤ s.maxExactBits

/-- The power is exact if it keeps the limit, and approximate if it does not. -/
structure JudgedBySize (s : Settings) (r : Rat) (e : Int) : Prop where
  exact_of_fits : PowerFits s r e → (exact r).powInt e s = .ok (exact (r ^ e))
  approx_of_not_fits : ¬ PowerFits s r e → ∃ d, (exact r).powInt e s = .ok (approx d)

/-- The powers about which the estimate decides otherwise than their size would. -/
inductive Misjudged (s : Settings) (r : Rat) (e : Int) : Prop
  /-- The power fits, but the estimate does not. -/
  | overestimated (hr : r ≠ 0) (he : e ≠ 0) (fits : ratBits (r ^ e) ≤ s.maxExactBits)
      (estimate : s.maxExactBits < powerBits r e)
  /-- The estimate fits, but the exponent is not taken. -/
  | longExponent (hr : r ≠ 0) (he : e ≠ 0) (estimate : powerBits r e ≤ s.maxExactBits)
      (long : 2 ^ 32 ≤ e.natAbs)
  /-- The estimate ends at 64 bits, and the power does not. -/
  | underestimated (hr : r ≠ 0) (he : e ≠ 0) (estimate : powerBits r e ≤ s.maxExactBits)
      (not_fits : s.maxExactBits < ratBits (r ^ e))
  /-- Zero needs a bit, and none is allowed. -/
  | zero (hr : r = 0) (he : e ≠ 0) (limit : s.maxExactBits = 0)

theorem judgedBySize_of_ne_iff (hr : r ≠ 0) (he : e ≠ 0) :
    JudgedBySize s r e ↔ ¬ Misjudged s r e := by
  have hpower := powInt_of_ne hr he s
  have hfits : PowerFits s r e ↔ ratBits (r ^ e) ≤ s.maxExactBits := or_iff_right he
  constructor
  · rintro ⟨hexact, happrox⟩ hmisjudged
    rw [hfits] at hexact happrox
    rw [hpower] at hexact happrox
    cases hmisjudged with
    | overestimated _ _ fits estimate =>
      rw [if_pos estimate] at hexact
      cases hexact fits
    | longExponent _ _ estimate long =>
      rw [if_neg (not_lt.2 estimate), if_pos long] at hexact happrox
      by_cases hlimit : ratBits (r ^ e) ≤ s.maxExactBits
      · cases hexact hlimit
      · obtain ⟨d, hd⟩ := happrox hlimit
        cases hd
    | underestimated _ _ estimate not_fits =>
      rw [if_neg (not_lt.2 estimate)] at happrox
      obtain ⟨d, hd⟩ := happrox (not_le.2 not_fits)
      split at hd <;> cases hd
    | zero hzero => exact hr hzero
  · intro hwell
    by_cases hestimate : s.maxExactBits < powerBits r e
    · rw [if_pos hestimate] at hpower
      refine ⟨fun hlimit => ?_, fun _ => ⟨_, hpower⟩⟩
      exact absurd (.overestimated hr he (hfits.1 hlimit) hestimate) hwell
    · have hshort : ¬ 2 ^ 32 ≤ e.natAbs := fun hlong =>
        hwell (.longExponent hr he (not_lt.1 hestimate) hlong)
      rw [if_neg hestimate, if_neg hshort] at hpower
      refine ⟨fun _ => hpower, fun hlimit => ?_⟩
      rw [hfits, not_le] at hlimit
      exact absurd (.underestimated hr he (not_lt.1 hestimate) hlimit) hwell

/-- Zero has no size to estimate. It is raised to 0. -/
theorem judgedBySize_zero_iff (he : 0 < e) : JudgedBySize s 0 e ↔ ¬ Misjudged s 0 e := by
  have hpower := powInt_of_zero he s
  have hzero : (0 : Rat) ^ e = 0 := zero_zpow e he.ne'
  have hfits : PowerFits s 0 e ↔ 1 ≤ s.maxExactBits := by
    rw [PowerFits, or_iff_right he.ne', hzero]
    exact Iff.rfl
  constructor
  · rintro ⟨-, happrox⟩ hmisjudged
    cases hmisjudged with
    | overestimated hr => exact hr rfl
    | longExponent hr => exact hr rfl
    | underestimated hr => exact hr rfl
    | zero _ _ limit =>
      obtain ⟨d, hd⟩ := happrox (fun h => absurd (hfits.1 h) (by omega))
      rw [hpower] at hd
      cases hd
  · intro hwell
    refine ⟨fun _ => by rw [hpower, hzero], fun hlimit => ?_⟩
    rw [hfits] at hlimit
    exact absurd (.zero rfl he.ne' (by omega)) hwell

/-- A power is exact or approximate by its size unless it is misjudged. -/
theorem judgedBySize_iff_not_misjudged (hr : r = 0 → 0 ≤ e) :
    JudgedBySize s r e ↔ ¬ Misjudged s r e := by
  by_cases he : e = 0
  · have hjudged : JudgedBySize s r e := by
      refine ⟨fun _ => ?_, fun hlimit => absurd (.inl he) hlimit⟩
      rw [he, powInt_zero, zpow_zero]
    have hwell : ¬ Misjudged s r e := by
      rintro (⟨-, hne, -, -⟩ | ⟨-, hne, -, -⟩ | ⟨-, hne, -, -⟩ | ⟨-, hne, -⟩)
      all_goals exact hne he
    exact iff_of_true hjudged hwell
  · by_cases hzero : r = 0
    · subst hzero
      exact judgedBySize_zero_iff (lt_of_le_of_ne (hr rfl) (Ne.symm he))
    · exact judgedBySize_of_ne_iff hzero he

/-- Below limits of 32 bits the powers that are misjudged are those estimated too long. -/
theorem misjudged_iff (hpos : 0 < s.maxExactBits) (hword : s.maxExactBits < 2 ^ 32) :
    Misjudged s r e ↔ r ≠ 0 ∧ e ≠ 0 ∧ ratBits (r ^ e) ≤ s.maxExactBits ∧
      s.maxExactBits < ratBits r * e.natAbs := by
  have hestimate : powerBits r e ≤ s.maxExactBits ↔ ratBits r * e.natAbs ≤ s.maxExactBits := by
    unfold powerBits
    omega
  constructor
  · intro hmisjudged
    cases hmisjudged with
    | overestimated hr he fits estimate =>
      rw [← not_le, hestimate, not_le] at estimate
      exact ⟨hr, he, fits, estimate⟩
    | longExponent hr he estimate long =>
      have hexponent : e.natAbs ≤ ratBits r * e.natAbs :=
        Nat.le_mul_of_pos_left _ (one_le_ratBits r)
      have := hestimate.1 estimate
      omega
    | underestimated hr he estimate not_fits =>
      have hsize := ratBits_zpow_le r he
      rw [Nat.mul_comm] at hsize
      exact absurd (hsize.trans (hestimate.1 estimate)) (not_le.2 not_fits)
    | zero hr he limit => exact absurd limit hpos.ne'
  · rintro ⟨hr, he, fits, estimate⟩
    rw [← not_le, ← hestimate, not_le] at estimate
    exact .overestimated hr he fits estimate

/-- **How the size of a power decides.** A power is exact if it keeps the limit on exact numbers and
approximate if it does not, unless it is misjudged. A power that is exact has its value, and the
estimate exceeds its size by less than the exponent. -/
theorem judgedBySize_iff (s : Settings) (r : Rat) (e : Int) (hr : r = 0 → 0 ≤ e) :
    (JudgedBySize s r e ↔ ¬ Misjudged s r e) ∧
      (∀ q, (exact r).powInt e s = .ok (exact q) → q = r ^ e) ∧
      (e ≠ 0 → ratBits (r ^ e) ≤ ratBits r * e.natAbs) ∧
      ratBits r * e.natAbs < ratBits (r ^ e) + e.natAbs := by
  refine ⟨judgedBySize_iff_not_misjudged hr, fun q => powInt_eq_exact, fun he => ?_,
    ratBits_mul_lt r e⟩
  rw [Nat.mul_comm]
  exact ratBits_zpow_le r he

/-- The estimate just meets the limit of 4096 bits here. -/
theorem powInt_three_halves :
    ((3 / 2 : Rat) = 0 → (0 : Int) ≤ -2048) ∧
      (exact (3 / 2)).powInt (-2048) default = .ok (exact ((3 / 2) ^ (-2048 : Int))) := by
  have hr : (3 / 2 : Rat) = 0 → (0 : Int) ≤ -2048 := fun h => absurd h (by decide +kernel)
  obtain ⟨hjudged, -, hbits, -⟩ := judgedBySize_iff default (3 / 2) (-2048) hr
  have hestimate : ratBits (3 / 2) * (-2048 : Int).natAbs ≤ (default : Settings).maxExactBits := by
    decide +kernel
  have hlimit : ratBits ((3 / 2) ^ (-2048 : Int)) ≤ (default : Settings).maxExactBits :=
    (hbits (by decide)).trans hestimate
  have hwell : ¬ Misjudged default (3 / 2) (-2048) := by
    rw [misjudged_iff (by decide) (by decide)]
    rintro ⟨-, -, -, hlong⟩
    exact absurd hestimate (not_le.2 hlong)
  exact ⟨hr, (hjudged.2 hwell).exact_of_fits (.inr hlimit)⟩

/-- Powers of 1 need one bit, and are approximate from the exponent 4097 on. Where the limit is
higher, long exponents are refused. -/
theorem powers_of_one_misjudged :
    ratBits ((1 : Rat) ^ (4097 : Int)) ≤ (default : Settings).maxExactBits ∧
      ¬ JudgedBySize default 1 4097 ∧
      (exact 1).powInt (2 ^ 32) { (default : Settings) with maxExactBits := 2 ^ 32 } =
        .error .overflow := by
  have hone : ratBits ((1 : Rat) ^ (4097 : Int)) ≤ (default : Settings).maxExactBits := by
    rw [one_zpow]
    decide
  refine ⟨hone, fun hjudged => ?_, ?_⟩
  · have hexact := hjudged.exact_of_fits (.inr hone)
    rw [powInt_of_ne one_ne_zero (by decide), if_pos (by decide)] at hexact
    cases hexact
  · rw [powInt_of_ne one_ne_zero (by decide), if_neg (by decide), if_pos (by decide)]

end Number

end Reckoner
