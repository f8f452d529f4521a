import Reckoner.Number.Parts
import Reckoner.Proofs.Text.Numerals
import Reckoner.Proofs.Text.Split
import Mathlib.Algebra.Field.Rat

/-!
# Numbers survive their parts

What a reader of results is shown of a number suffices to get the number back, under any settings:

    ofParts ((exact r).toParts s)  = .ok (exact r)
    ofParts ((approx d).toParts s) = .ok (approx (d rounded to the working precision))

An exact number is read from its numerator and denominator, whatever texts stand beside them. An
approximate number is read from its significand over a power of ten. There the zeros of the written
power are taken off the text again before it is read, which gives back the significand and the
exponent because the significand of a decimal does not end in a zero (`Decimal.Normal`).
-/

namespace Reckoner

open Text

/-! ## Normal decimals -/

namespace Decimal

variable {s e : Int} {p : Nat}

theorem stripFactor_of_mod {b n : Nat} {hb : 2 ≤ b} (h : n % b ≠ 0) :
    stripFactor b hb n = (n, 0) := by
  rw [stripFactor, dif_neg]
  exact fun hdiv => h hdiv.2

theorem stripZeros_of_mod {n : Nat} (h : n % 10 ≠ 0) : stripZeros n = (n, 0) := by
  -- Zeros are stripped in blocks of 32 first, and there is no block without a single one.
  have hblock : n % 10 ^ 32 ≠ 0 := by
    intro hzero
    have hten : 10 ∣ 10 ^ 32 := Nat.dvd_of_mod_eq_zero (by decide)
    have hdvd : 10 ∣ n := Nat.dvd_trans hten (Nat.dvd_of_mod_eq_zero hzero)
    exact h (Nat.mod_eq_zero_of_dvd hdvd)
  rw [stripZeros, stripAll, stripFactor_of_mod hblock]
  simp only [stripFactor_of_mod h]

/-- A normal significand and exponent are taken as they are. -/
theorem ofScaled_of_normal (h : Normal s e) : ofScaled s e p = ⟨s, e, p, h⟩ := by
  by_cases hs : s = 0
  · have he : e = 0 := by
      rcases h with hmod | hzero
      · omega
      · exact hzero.2
    subst hs he
    rfl
  · have hmod : s.natAbs % 10 ≠ 0 := by
      rcases h with hmod | hzero
      · omega
      · exact absurd hzero.1 hs
    have hstrip := stripZeros_of_mod hmod
    have hsign : s.sign * (s.natAbs : Int) = s := Int.sign_mul_natAbs s
    unfold ofScaled
    rw [dif_neg hs]
    simp only [hstrip, hsign, Int.natCast_zero, Int.add_zero]

/-- Bringing an integer of any length to a precision rounds it to that many digits. -/
theorem withPrecision_ofInteger (h : Normal s e) (hp : 0 < p) :
    (ofInteger s e).withPrecision p = rounded p s e := by
  have hmax : max p 1 = p := by omega
  rw [ofInteger, ofScaled_of_normal h, withPrecision]
  simp only [hmax]
  split
  · rfl
  · next hfits =>
    have hexcess : digitCount s.natAbs - p = 0 := by omega
    simp only [rounded, hexcess, or_true, if_true]
    rw [ofScaled_of_normal h]

/-- A decimal that has no more digits than a precision is not changed by rounding to it. -/
theorem rounded_of_digits_le {d : Decimal} (h : d.digits ≤ p) :
    rounded p d.significand d.exponent = { d with precision := p } := by
  have hexcess : digitCount d.significand.natAbs - p = 0 := Nat.sub_eq_zero_of_le h
  simp only [rounded, hexcess, or_true, if_true]
  exact ofScaled_of_normal d.normal

end Decimal

namespace Number

variable {z e : Int}

/-! ## Exact numbers -/

theorem readInteger_decimalInt (z : Int) : readInteger (decimalInt z) = .ok z := by
  have hblank : ∀ c ∈ (decimalInt z).toList, isBlank c = false :=
    not_mem_decimalInt digitFree_isBlank (by decide) z
  rw [readInteger, trim_eq_self hblank, readGrouped?_decimalInt]
  rfl

theorem decimalInt_natCast (n : Nat) : decimalInt n = decimal n := by
  rw [decimalInt, if_neg (by omega), Int.natAbs_natCast]

theorem numer_toParts (r : Rat) (s : Settings) :
    ((exact r).toParts s).numer = decimalInt r.num ∧
      ((exact r).toParts s).denom = decimalInt r.den ∧
      ((exact r).toParts s).approximate = false := by
  rw [decimalInt_natCast]
  simp only [toParts, ratParts]
  split <;> exact ⟨rfl, rfl, rfl⟩

theorem ofParts_toParts_exact (r : Rat) (s : Settings) :
    ofParts ((exact r).toParts s) = .ok (exact r) := by
  obtain ⟨hnumer, hdenom, happrox⟩ := numer_toParts r s
  have hden : (r.den : Int) ≠ 0 := Int.natCast_ne_zero.2 r.den_nz
  -- The texts of numerator and denominator are never shortened, unlike the other ones.
  have hfraction : ofFraction (decimalInt r.num) (decimalInt r.den) = .ok (exact r) := by
    rw [ofFraction, readInteger_decimalInt, readInteger_decimalInt]
    show (if (r.den : Int) = 0 then _ else _) = _
    rw [if_neg hden, ofRatio, Rat.num_divInt_den]
  rw [ofParts, happrox, ofExactParts, hnumer, hdenom, hfraction]
  rfl

/-! ## Approximate numbers -/

theorem signText_append (z : Int) :
    signText (z < 0) ++ decimalDigits z.natAbs = (decimalInt z).toList := by
  rw [toList_decimalInt]
  by_cases hneg : z < 0 <;> simp [signText, hneg]

theorem denotes_zeros (n : Nat) : Denotes (zeros n) 0 := Denotes.zeros n

@[simp]
theorem length_zeros (n : Nat) : (zeros n).length = n := List.length_replicate

/-- The zeros of a power of ten are all that is dropped from the end of a normal significand. -/
theorem dropEndWhile_scaled {z : Int} (hz : z % 10 ≠ 0) (n : Nat) :
    dropEndWhile (· == '0') ((decimalInt z).toList ++ zeros n) = (decimalInt z).toList := by
  have hmod : z.natAbs % 10 ≠ 0 := by omega
  obtain ⟨front, c, hlast, hc⟩ := exists_last_decimalDigits hmod
  have hzeros : ∀ x ∈ zeros n, (x == '0') = true := by
    intro x hx
    rw [List.eq_of_mem_replicate hx]
    rfl
  rw [dropEndWhile_append_of_pos hzeros, ← signText_append, hlast, ← List.append_assoc]
  exact dropEndWhile_append_of_neg (by simpa using hc)

/-- What is left of a significand when the zeros at its end are dropped. Of zero nothing is left,
and its digit is put back. -/
theorem significandText (h : Decimal.Normal z e) :
    (if (dropEndWhile (· == '0') ((decimalInt z).toList ++ zeros e.toNat)).isEmpty then ['0']
      else dropEndWhile (· == '0') ((decimalInt z).toList ++ zeros e.toNat)) =
        (decimalInt z).toList := by
  rcases h with hmod | ⟨rfl, rfl⟩
  · have hne : (decimalInt z).toList ≠ [] := by
      rw [← signText_append]
      simp [decimalDigits_ne_nil]
    rw [dropEndWhile_scaled hmod]
    simp [hne]
  · decide

theorem toList_numer (d : Decimal) (s : Settings) :
    (decimalParts d s).numer.toList =
      (decimalInt d.significand).toList ++ zeros d.exponent.toNat := by
  rw [← signText_append]
  simp only [decimalParts, String.toList_ofList]
  by_cases hwhole : 0 ≤ d.exponent
  · have habs : d.exponent.natAbs = d.exponent.toNat := by omega
    rw [if_pos hwhole, habs, List.append_assoc]
  · have hnone : d.exponent.toNat = 0 := by omega
    rw [if_neg hwhole, hnone, zeros, List.replicate_zero, List.append_nil]

theorem toList_denom (d : Decimal) (s : Settings) :
    (decimalParts d s).denom.toList = '1' :: zeros (-d.exponent).toNat := by
  simp only [decimalParts, String.toList_ofList]
  by_cases hwhole : 0 ≤ d.exponent
  · have hnone : (-d.exponent).toNat = 0 := by omega
    rw [if_pos hwhole, hnone, zeros, List.replicate_zero]
  · have habs : d.exponent.natAbs = (-d.exponent).toNat := by omega
    rw [if_neg hwhole, habs]

/-- The texts of a significand over a power of ten are read as that decimal. -/
theorem readScaled?_decimalParts (d : Decimal) (s : Settings) :
    readScaled? (decimalParts d s).numer (decimalParts d s).denom =
      some (Decimal.ofInteger d.significand d.exponent) := by
  have hzeros : ∀ n, ∀ c ∈ zeros n, isBlank c = false := fun n =>
    digitFree_isBlank.not_mem (denotes_zeros n)
  have hnumer : trim ((decimalInt d.significand).toList ++ zeros d.exponent.toNat) =
      (decimalInt d.significand).toList ++ zeros d.exponent.toNat :=
    trim_eq_self (List.forall_mem_append.2
      ⟨not_mem_decimalInt digitFree_isBlank (by decide) _, hzeros _⟩)
  have hdenom : trim ('1' :: zeros (-d.exponent).toNat) = '1' :: zeros (-d.exponent).toNat :=
    trim_eq_self (List.forall_mem_cons.2 ⟨by decide, hzeros _⟩)
  have hall : (zeros (-d.exponent).toNat).all (· == '0') = true := by
    simp [zeros]
  have htrailing : ((decimalInt d.significand).toList ++ zeros d.exponent.toNat).length -
      (decimalInt d.significand).toList.length = d.exponent.toNat := by
    simp
  have hexponent : (d.exponent.toNat : Int) - (-d.exponent).toNat = d.exponent :=
    Int.toNat_sub_toNat_neg d.exponent
  rw [readScaled?, toList_numer, toList_denom, hdenom]
  simp only [hall, if_true, hnumer, significandText d.normal, htrailing, readLoose?_decimalInt,
    Option.map_some, length_zeros, hexponent]

theorem ofParts_toParts_approx (d : Decimal) (s : Settings) :
    ofParts ((approx d).toParts s) =
      .ok (approx (Decimal.rounded workingPrecision d.significand d.exponent)) := by
  have happrox : ((approx d).toParts s).approximate = true := rfl
  have hread := readScaled?_decimalParts d s
  have hprecision := Decimal.withPrecision_ofInteger d.normal (p := workingPrecision) (by decide)
  rw [ofParts, if_pos happrox, toParts, ofApproximateParts, hread, ← hprecision]

/-! ## The round trip -/

/-- **A number survives its parts.** Under all settings an exact number is read back from its parts
as itself. An approximate number is read back rounded to the working precision, and so with the same
significand and exponent if it has no more digits than that. -/
theorem ofParts_toParts (s : Settings) :
    (∀ r : Rat, ofParts ((exact r).toParts s) = .ok (exact r)) ∧
    (∀ d : Decimal, ofParts ((approx d).toParts s) =
      .ok (approx (Decimal.rounded workingPrecision d.significand d.exponent))) ∧
    (∀ d : Decimal, d.digits ≤ workingPrecision →
      ofParts ((approx d).toParts s) = .ok (approx { d with precision := workingPrecision })) := by
  refine ⟨fun r => ofParts_toParts_exact r s, fun d => ofParts_toParts_approx d s, ?_⟩
  intro d hdigits
  rw [ofParts_toParts_approx, Decimal.rounded_of_digits_le hdigits]

/-- A negative significand over a positive power of ten. -/
theorem ofParts_toParts_of_three_digits :
    (⟨-123, 4, 7, .inl (by decide)⟩ : Decimal).digits ≤ workingPrecision ∧
    ofParts ((approx ⟨-123, 4, 7, .inl (by decide)⟩).toParts default) =
      .ok (approx ⟨-123, 4, 50, .inl (by decide)⟩) := by
  have hdigits : (⟨-123, 4, 7, .inl (by decide)⟩ : Decimal).digits ≤ workingPrecision := by
    decide +kernel
  exact ⟨hdigits, (ofParts_toParts default).2.2 _ hdigits⟩

end Number

end Reckoner
