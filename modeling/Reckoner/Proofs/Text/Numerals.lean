import Reckoner.Proofs.Text.Digits
import Reckoner.Text.Integer
import Reckoner.Text.Split

/-!
# Numerals read back

A run of digits denotes a number (`Denotes`), and reading finds that number
(`readDigits?_eq_some_iff`). The digits that are written for a number denote it, with or without
zeros in front (`Denotes.padStart`), and there are no more of them than it needs
(`length_decimalDigits_le`). A run of digits is known by its number and its length
(`Denotes.eq_of_length`). Integers are read back with their sign:

    readGrouped? (decimalInt z).toList = some z
-/

namespace Reckoner.Text

variable {cs ds : List Char} {m n k : Nat} {p q : Char → Bool}

/-- A run of digits with the value `n`. -/
structure Denotes (cs : List Char) (n : Nat) : Prop where
  isDigit : ∀ c ∈ cs, c.isDigit = true
  value : digitsValue cs = n

theorem readDigits?_eq_some_iff : readDigits? cs = some n ↔ cs ≠ [] ∧ Denotes cs n := by
  unfold readDigits?
  constructor
  · intro h
    split at h
    · next hdigits =>
      simp only [Bool.and_eq_true, Bool.not_eq_true', List.isEmpty_eq_false_iff,
        List.all_eq_true] at hdigits
      exact ⟨hdigits.1, hdigits.2, Option.some.inj h⟩
    · cases h
  · rintro ⟨hne, hdigits, rfl⟩
    rw [if_pos]
    simpa using ⟨hne, hdigits⟩

/-! ## Values -/

/-- Reading on from a value shifts it by the digits that follow. -/
theorem foldl_digits (m : Nat) (cs : List Char) :
    cs.foldl (fun n c => 10 * n + digitValue c) m = m * 10 ^ cs.length + digitsValue cs := by
  induction cs generalizing m with
  | nil => simp [digitsValue]
  | cons c cs ih =>
    have hvalue : digitsValue (c :: cs) = digitValue c * 10 ^ cs.length + digitsValue cs := by
      rw [digitsValue, List.foldl_cons, ih]
      simp
    rw [List.foldl_cons, ih, hvalue, List.length_cons, Nat.pow_succ, Nat.add_mul]
    rw [Nat.mul_comm 10 m, Nat.mul_assoc, Nat.mul_comm 10, Nat.add_assoc]

theorem digitsValue_append (cs ds : List Char) :
    digitsValue (cs ++ ds) = digitsValue cs * 10 ^ ds.length + digitsValue ds := by
  rw [digitsValue, List.foldl_append, foldl_digits]
  rfl

theorem digitsValue_cons (c : Char) (cs : List Char) :
    digitsValue (c :: cs) = digitValue c * 10 ^ cs.length + digitsValue cs := by
  rw [← List.singleton_append, digitsValue_append]
  simp [digitsValue]

theorem digitValue_pos {c : Char} (h : c.isDigit = true) (hc : c ≠ '0') : 0 < digitValue c := by
  simp only [Char.isDigit, Bool.and_eq_true, decide_eq_true_eq] at h
  have hlow : '0'.toNat ≤ c.toNat := h.1
  have hne : c.toNat ≠ '0'.toNat := fun heq => hc (Char.toNat_inj.1 heq)
  have hzero : '0'.toNat = 48 := rfl
  unfold digitValue
  omega

theorem digitValue_lt_ten {c : Char} (h : c.isDigit = true) : digitValue c < 10 := by
  simp only [Char.isDigit, Bool.and_eq_true, decide_eq_true_eq] at h
  have hhigh : c.toNat ≤ '9'.toNat := h.2
  have hnine : '9'.toNat = 57 := rfl
  unfold digitValue
  omega

theorem digitsValue_singleton (c : Char) : digitsValue [c] = digitValue c := by
  simp [digitsValue]

theorem digitValue_inj {c d : Char} (hc : c.isDigit = true) (hd : d.isDigit = true)
    (h : digitValue c = digitValue d) : c = d := by
  simp only [Char.isDigit, Bool.and_eq_true, decide_eq_true_eq] at hc hd
  have hc : 48 ≤ c.toNat := hc.1
  have hd : 48 ≤ d.toNat := hd.1
  unfold digitValue at h
  exact Char.toNat_inj.1 (by omega)

theorem denotes_nil : Denotes [] 0 where
  isDigit := by simp
  value := rfl

theorem denotes_digitChar (h : n < 10) : Denotes [n.digitChar] n := by
  have hall : ∀ n < 10, n.digitChar.isDigit = true ∧ digitValue n.digitChar = n := by decide
  refine ⟨fun c hc => ?_, ?_⟩
  · rw [List.mem_singleton.1 hc]
    exact (hall n h).1
  · simpa [digitsValue] using (hall n h).2

namespace Denotes

theorem append (hcs : Denotes cs m) (hds : Denotes ds n) :
    Denotes (cs ++ ds) (m * 10 ^ ds.length + n) where
  isDigit := List.forall_mem_append.2 ⟨hcs.isDigit, hds.isDigit⟩
  value := by rw [digitsValue_append, hcs.value, hds.value]

/-- Zeros in front do not count. -/
theorem zeros (k : Nat) : Denotes (List.replicate k '0') 0 := by
  induction k with
  | zero => exact denotes_nil
  | succ k ih =>
    have hzero : Denotes ['0'] 0 := denotes_digitChar (n := 0) (by decide)
    simpa [List.replicate_succ] using hzero.append ih

theorem padStart (h : Denotes cs n) (width : Nat) : Denotes (Text.padStart '0' width cs) n := by
  rw [Text.padStart]
  simpa using (zeros (width - cs.length)).append h

theorem dropZeros (h : Denotes cs n) : Denotes (cs.dropWhile (· == '0')) n := by
  have hrun : Denotes (cs.takeWhile (· == '0')) 0 := by
    have hzeros : cs.takeWhile (· == '0') = List.replicate (cs.takeWhile (· == '0')).length '0' :=
      List.eq_replicate_of_mem fun c hc => by
        simpa using List.all_eq_true.1 List.all_takeWhile c hc
    rw [hzeros]
    exact zeros _
  have hsplit : cs.takeWhile (· == '0') ++ cs.dropWhile (· == '0') = cs :=
    List.takeWhile_append_dropWhile
  refine ⟨fun c hc => h.isDigit c ((List.dropWhile_sublist _).subset hc), ?_⟩
  rw [← h.value, ← congrArg digitsValue hsplit, digitsValue_append, hrun.value, Nat.zero_mul,
    Nat.zero_add]

/-- A run with a zero at its end denotes a multiple of ten. -/
theorem mod_ten_of_zero (h : Denotes (cs ++ ['0']) n) : n % 10 = 0 := by
  rw [← h.value, digitsValue_append]
  simp [digitsValue, digitValue]

theorem lt_pow_length (h : Denotes cs n) : n < 10 ^ cs.length := by
  induction cs generalizing n with
  | nil =>
    rw [← h.value]
    decide
  | cons c cs ih =>
    obtain ⟨hc, hcs⟩ := List.forall_mem_cons.1 h.isDigit
    have hdigit := digitValue_lt_ten hc
    have htail : digitsValue cs < 10 ^ cs.length := ih ⟨hcs, rfl⟩
    rw [← h.value, digitsValue_cons, List.length_cons, Nat.pow_succ]
    calc digitValue c * 10 ^ cs.length + digitsValue cs
        < digitValue c * 10 ^ cs.length + 10 ^ cs.length := Nat.add_lt_add_left htail _
      _ = (digitValue c + 1) * 10 ^ cs.length := (Nat.succ_mul ..).symm
      _ ≤ 10 * 10 ^ cs.length := Nat.mul_le_mul_right _ hdigit
      _ = 10 ^ cs.length * 10 := Nat.mul_comm ..

/-- Without a zero in front every digit counts. -/
theorem pow_length_le {c : Char} (h : Denotes (c :: cs) n) (hc : c ≠ '0') :
    10 ^ cs.length ≤ n := by
  have hpos := digitValue_pos (h.isDigit c (.head _)) hc
  calc 10 ^ cs.length ≤ digitValue c * 10 ^ cs.length := Nat.le_mul_of_pos_left _ hpos
    _ ≤ n := by
      rw [← h.value, digitsValue_cons]
      exact Nat.le_add_right _ _

/-- A run of digits is cut in two by a division. -/
theorem split (h : Denotes (cs ++ ds) n) :
    Denotes cs (n / 10 ^ ds.length) ∧ Denotes ds (n % 10 ^ ds.length) := by
  obtain ⟨hcs, hds⟩ := List.forall_mem_append.1 h.isDigit
  have hlow : digitsValue ds < 10 ^ ds.length := lt_pow_length ⟨hds, rfl⟩
  have hvalue : n = digitsValue ds + 10 ^ ds.length * digitsValue cs := by
    rw [← h.value, digitsValue_append, Nat.add_comm, Nat.mul_comm]
  constructor
  · refine ⟨hcs, ?_⟩
    rw [hvalue, Nat.add_mul_div_left _ _ (Nat.pow_pos (by decide)), Nat.div_eq_of_lt hlow,
      Nat.zero_add]
  · refine ⟨hds, ?_⟩
    rw [hvalue, Nat.add_mul_mod_self_left, Nat.mod_eq_of_lt hlow]

/-- Zeros behind a run of digits multiply it by a power of ten. -/
theorem append_zeros_iff {k : Nat} :
    Denotes (cs ++ List.replicate k '0') n ↔ ∃ f, Denotes cs f ∧ n = f * 10 ^ k := by
  constructor
  · intro h
    obtain ⟨hcs, hzeros⟩ := h.split
    have hmod : n % 10 ^ k = 0 := by
      rw [← hzeros.value.symm.trans (zeros k).value, List.length_replicate]
    rw [List.length_replicate] at hcs
    exact ⟨_, hcs, (Nat.div_mul_cancel (Nat.dvd_of_mod_eq_zero hmod)).symm⟩
  · rintro ⟨f, hcs, rfl⟩
    have h := hcs.append (zeros k)
    rwa [List.length_replicate, Nat.add_zero] at h

/-- The first digit of a run is cut off by a division. -/
theorem uncons {c : Char} (h : Denotes (c :: cs) n) :
    digitValue c = n / 10 ^ cs.length ∧ Denotes cs (n % 10 ^ cs.length) := by
  have h : Denotes ([c] ++ cs) n := h
  obtain ⟨hc, hcs⟩ := h.split
  rw [← digitsValue_singleton]
  exact ⟨hc.value, hcs⟩

/-- Runs of digits of one length are the same if they denote the same number. -/
theorem eq_of_length (hcs : Denotes cs n) (hds : Denotes ds n) (hlength : cs.length = ds.length) :
    cs = ds := by
  induction cs generalizing ds n with
  | nil => exact (List.length_eq_zero_iff.1 hlength.symm).symm
  | cons c cs ih =>
    obtain ⟨d, ds, rfl⟩ := List.exists_cons_of_length_eq_add_one hlength.symm
    have hlength : cs.length = ds.length := Nat.succ.inj hlength
    obtain ⟨hc, htail⟩ := hcs.uncons
    obtain ⟨hd, htail'⟩ := hds.uncons
    rw [← hlength] at hd htail'
    rw [digitValue_inj (hcs.isDigit c (.head _)) (hds.isDigit d (.head _)) (hc.trans hd.symm),
      ih htail htail' hlength]

/-- Whether a number reaches half of the next power of ten can be seen from its first digit. -/
theorem five_le_iff {c : Char} (h : Denotes (c :: cs) n) :
    '5' ≤ c ↔ 10 ^ (cs.length + 1) ≤ 2 * n := by
  have hfive : '5' ≤ c ↔ 5 ≤ digitValue c := by
    show 53 ≤ c.toNat ↔ 5 ≤ c.toNat - 48
    omega
  rw [hfive, h.uncons.1, Nat.le_div_iff_mul_le (Nat.pow_pos (by decide)), Nat.pow_succ]
  omega

end Denotes

/-! ## Writing -/

theorem splitPowers_succ (k : Nat) : splitPowers (k + 1) = 10 ^ 2 ^ k :: splitPowers k := by
  induction k with
  | zero => rfl
  | succ k ih =>
    rw [splitPowers, ih]
    simp only [List.cons.injEq, and_true]
    rw [← Nat.pow_add, Nat.pow_succ, Nat.mul_two]

/-- With the powers up to `10 ^ 2 ^ (k - 1)` exactly `2 ^ k` digits are written. -/
theorem exists_writeDigits (hn : n < 10 ^ 2 ^ k) (rest : List Char) :
    ∃ cs, writeDigits (splitPowers k) n rest = cs ++ rest ∧ Denotes cs n ∧ cs.length = 2 ^ k := by
  induction k generalizing n rest with
  | zero => exact ⟨[n.digitChar], rfl, denotes_digitChar hn, rfl⟩
  | succ k ih =>
    have hpos : 0 < 10 ^ 2 ^ k := Nat.pow_pos (by decide)
    have hupper : n / 10 ^ 2 ^ k < 10 ^ 2 ^ k := by
      apply Nat.div_lt_of_lt_mul
      rwa [← Nat.pow_add, ← Nat.mul_two, ← Nat.pow_succ]
    -- The lower half of the digits is written first, and the upper half in front of it.
    obtain ⟨ds, hlow, hds, hdslength⟩ := ih (Nat.mod_lt n hpos) rest
    obtain ⟨cs, hhigh, hcs, hcslength⟩ := ih hupper (ds ++ rest)
    refine ⟨cs ++ ds, ?_, ?_, ?_⟩
    · rw [splitPowers_succ, writeDigits, hlow, hhigh, List.append_assoc]
    · have h := hcs.append hds
      rwa [hdslength, Nat.div_add_mod'] at h
    · rw [List.length_append, hcslength, hdslength, Nat.pow_succ, Nat.mul_two]

/-- The powers that are chosen for a number suffice for it. -/
theorem lt_pow_of_digitCount (n : Nat) : n < 10 ^ 2 ^ ((digitCount n - 1).log2 + 1) := by
  refine Nat.lt_of_lt_of_le (lt_pow_digitCount n) (Nat.pow_le_pow_right (by decide) ?_)
  have hlog : digitCount n - 1 < 2 ^ ((digitCount n - 1).log2 + 1) := Nat.lt_log2_self
  omega

theorem denotes_decimalDigits (n : Nat) : Denotes (decimalDigits n) n := by
  unfold decimalDigits
  split
  · next h => exact denotes_digitChar h
  · obtain ⟨cs, hwrite, hcs, -⟩ := exists_writeDigits (lt_pow_of_digitCount n) []
    rw [hwrite, List.append_nil]
    exact hcs.dropZeros

theorem decimalDigits_ne_nil (n : Nat) : decimalDigits n ≠ [] := by
  intro hnil
  have hzero : n = 0 := by
    have h := denotes_decimalDigits n
    rw [hnil] at h
    exact h.value.symm
  subst hzero
  cases hnil

/-- The numeral of a number that is not a multiple of ten does not end in a zero. -/
theorem exists_last_decimalDigits (h : n % 10 ≠ 0) :
    ∃ front c, decimalDigits n = front ++ [c] ∧ c ≠ '0' := by
  rcases List.eq_nil_or_concat (decimalDigits n) with hnil | ⟨front, c, hlast⟩
  · exact absurd hnil (decimalDigits_ne_nil n)
  · rw [List.concat_eq_append] at hlast
    refine ⟨front, c, hlast, ?_⟩
    rintro rfl
    have hdenotes := denotes_decimalDigits n
    rw [hlast] at hdenotes
    exact h hdenotes.mod_ten_of_zero

/-- The numeral of a number other than 0 does not begin with a zero. -/
theorem head_decimalDigits_ne_zero {c : Char} (hn : n ≠ 0) (h : decimalDigits n = c :: cs) :
    c ≠ '0' := by
  rintro rfl
  unfold decimalDigits at h
  split at h
  · next hsmall =>
    have hzero : digitsValue [n.digitChar] = 0 := by
      rw [(List.cons.inj h).1]
      rfl
    exact hn ((denotes_digitChar hsmall).value.symm.trans hzero)
  · -- Zeros in front were dropped when the digits were written.
    have hhead := List.head?_dropWhile_not (· == '0')
      (writeDigits (splitPowers ((digitCount n - 1).log2 + 1)) n [])
    rw [h] at hhead
    simp at hhead

theorem length_decimalDigits_le {width : Nat} (hwidth : 0 < width) (hn : n < 10 ^ width) :
    (decimalDigits n).length ≤ width := by
  by_cases hzero : n = 0
  · subst hzero
    exact hwidth
  · have hdenotes := denotes_decimalDigits n
    cases hdigits : decimalDigits n with
    | nil => exact absurd hdigits (decimalDigits_ne_nil n)
    | cons c cs =>
      rw [hdigits] at hdenotes
      have hle := hdenotes.pow_length_le (head_decimalDigits_ne_zero hzero hdigits)
      have hlt := (Nat.pow_lt_pow_iff_right (by decide)).1 (Nat.lt_of_le_of_lt hle hn)
      exact hlt

theorem length_decimalDigits (hn : 0 < n) (hlow : 10 ^ (n - 1) ≤ m) (hhigh : m < 10 ^ n) :
    (decimalDigits m).length = n := by
  have hle := length_decimalDigits_le hn hhigh
  have hlt := Nat.lt_of_le_of_lt hlow (denotes_decimalDigits m).lt_pow_length
  have hpred := (Nat.pow_lt_pow_iff_right (by decide)).1 hlt
  omega

/-- A number other than 0 has as many digits as are counted. -/
theorem length_decimalDigits_eq (hn : n ≠ 0) : (decimalDigits n).length = digitCount n :=
  length_decimalDigits (Nat.pos_of_ne_zero (digitCount_ne_zero hn)) (pow_digitCount_le hn)
    (lt_pow_digitCount n)

/-- A power of ten writes zeros behind the digits of a number. -/
theorem decimalDigits_mul_pow (hn : n ≠ 0) (k : Nat) :
    decimalDigits (n * 10 ^ k) = decimalDigits n ++ List.replicate k '0' := by
  have hpos : 10 ^ k ≠ 0 := Nat.ne_of_gt (Nat.pow_pos (by decide))
  have hzeros := (denotes_decimalDigits n).append (Denotes.zeros k)
  rw [List.length_replicate, Nat.add_zero] at hzeros
  refine (denotes_decimalDigits _).eq_of_length hzeros ?_
  rw [length_decimalDigits_eq (Nat.mul_ne_zero hn hpos), digitCount_mul_pow hn, List.length_append,
    length_decimalDigits_eq hn, List.length_replicate]

/-! ## Reading back -/

theorem padStart_ne_nil {width : Nat} (h : cs ≠ []) : padStart '0' width cs ≠ [] := by
  simp [padStart, h]

/-! ## Characters other than digits

What separates or surrounds numerals in a text is no digit, so it is not found inside of them. -/

/-- A class of characters without digits. -/
def DigitFree (p : Char → Bool) : Prop := ∀ c : Char, c.isDigit = true → p c = false

theorem digitFree_beq {sep : Char} (h : sep.isDigit = false) : DigitFree (· == sep) := by
  intro c hc
  have hne : c ≠ sep := by
    rintro rfl
    rw [h] at hc
    cases hc
  simpa using hne

theorem DigitFree.or (hp : DigitFree p) (hq : DigitFree q) :
    DigitFree fun c => p c || q c := by
  intro c hc
  simp [hp c hc, hq c hc]

theorem digitFree_isBlank : DigitFree isBlank := by
  intro c hc
  simp only [Char.isDigit, Bool.and_eq_true, decide_eq_true_eq] at hc
  have hlow : 48 ≤ c.toNat := hc.1
  have hhigh : c.toNat ≤ 57 := hc.2
  by_cases hblank : isBlank c = true
  · simp only [isBlank, Bool.or_eq_true, Bool.and_eq_true, decide_eq_true_eq, beq_iff_eq] at hblank
    omega
  · simpa using hblank

theorem DigitFree.not_mem (hp : DigitFree p) (h : Denotes cs n) : ∀ c ∈ cs, p c = false := by
  intro c hc
  exact hp c (h.isDigit c hc)

/-! ## Signs and underscores -/

theorem filter_underscore (h : Denotes cs n) : cs.filter (· != '_') = cs := by
  have hfree : DigitFree (· == '_') := digitFree_beq (by decide)
  refine List.filter_eq_self.2 fun c hc => ?_
  simpa using hfree.not_mem h c hc

theorem readGroupedDigits?_of_denotes (hne : cs ≠ []) (h : Denotes cs n) :
    readGroupedDigits? cs = some n := by
  have hhead : (cs.head? == some '_') = false := by
    cases cs with
    | nil => exact absurd rfl hne
    | cons c cs =>
      have hfree : DigitFree (· == '_') := digitFree_beq (by decide)
      exact hfree.not_mem h c (.head cs)
  rw [readGroupedDigits?, hhead, filter_underscore h]
  exact readDigits?_eq_some_iff.2 ⟨hne, h⟩

theorem readLooseDigits?_of_denotes (hne : cs ≠ []) (h : Denotes cs n) :
    readLooseDigits? cs = some n := by
  have hdigits : (!cs.isEmpty && cs.all Char.isDigit) = true := by
    simpa using ⟨hne, h.isDigit⟩
  simp only [readLooseDigits?, filter_underscore h, hdigits, h.value, if_true]

/-- The numeral of an integer, with a minus sign in front of a negative one. -/
theorem toList_decimalInt (z : Int) :
    (decimalInt z).toList =
      if z < 0 then '-' :: decimalDigits z.natAbs else decimalDigits z.natAbs := by
  unfold decimalInt decimal
  split <;> simp [String.toList_append]

theorem not_mem_decimalInt (hp : DigitFree p) (hminus : p '-' = false) (z : Int) :
    ∀ c ∈ (decimalInt z).toList, p c = false := by
  have hdigits : ∀ c ∈ decimalDigits z.natAbs, p c = false :=
    hp.not_mem (denotes_decimalDigits z.natAbs)
  rw [toList_decimalInt]
  split
  · exact List.forall_mem_cons.2 ⟨hminus, hdigits⟩
  · exact hdigits

theorem readGrouped?_of_denotes (hne : cs ≠ []) (h : Denotes cs n) :
    readGrouped? cs = some (n : Int) := by
  unfold readGrouped?
  split
  · exact absurd (h.isDigit '-' (.head _)) (by decide)
  · exact absurd (h.isDigit '+' (.head _)) (by decide)
  · rw [readGroupedDigits?_of_denotes hne h]
    rfl

/-- A reader of integers that knows numerals and the minus sign reads back what is written. -/
theorem read_decimalInt {read : List Char → Option Int}
    (hnumeral : ∀ {cs n}, cs ≠ [] → Denotes cs n → read cs = some (n : Int))
    (hminus : ∀ {cs n}, cs ≠ [] → Denotes cs n → read ('-' :: cs) = some (-(n : Int)))
    (z : Int) : read (decimalInt z).toList = some z := by
  have hne := decimalDigits_ne_nil z.natAbs
  have hdigits := denotes_decimalDigits z.natAbs
  rw [toList_decimalInt]
  by_cases hneg : z < 0
  · have hvalue : -(z.natAbs : Int) = z := by omega
    rw [if_pos hneg, hminus hne hdigits, hvalue]
  · have hvalue : (z.natAbs : Int) = z := by omega
    rw [if_neg hneg, hnumeral hne hdigits, hvalue]

theorem readGrouped?_decimalInt (z : Int) : readGrouped? (decimalInt z).toList = some z := by
  refine read_decimalInt readGrouped?_of_denotes (fun hne h => ?_) z
  rw [readGrouped?, readGroupedDigits?_of_denotes hne h]
  rfl

theorem readSigned?_of_denotes (hne : cs ≠ []) (h : Denotes cs n) :
    readSigned? cs = some (n : Int) := by
  have hdigits : readDigits? cs = some n := readDigits?_eq_some_iff.2 ⟨hne, h⟩
  unfold readSigned?
  split
  · exact absurd (h.isDigit '-' (.head _)) (by decide)
  · unfold readUnsigned?
    split
    · exact absurd (h.isDigit '+' (.head _)) (by decide)
    · rw [hdigits]
      rfl

/-- A numeral is read as a word if it fits. -/
theorem readSignedWord?_of_denotes (bits : Nat) (hne : cs ≠ []) (h : Denotes cs n) :
    readSignedWord? bits cs = if FitsSigned bits n then some (n : Int) else none := by
  rw [readSignedWord?, readSigned?_of_denotes hne h, Option.filter_some]
  simp only [decide_eq_true_eq]

theorem readLoose?_of_denotes (hne : cs ≠ []) (h : Denotes cs n) :
    readLoose? cs = some (n : Int) := by
  unfold readLoose?
  split
  · exact absurd (h.isDigit '-' (.head _)) (by decide)
  · exact absurd (h.isDigit '+' (.head _)) (by decide)
  · rw [readLooseDigits?_of_denotes hne h]
    rfl

theorem readLoose?_decimalInt (z : Int) : readLoose? (decimalInt z).toList = some z := by
  refine read_decimalInt readLoose?_of_denotes (fun hne h => ?_) z
  rw [readLoose?, readLooseDigits?_of_denotes hne h]
  rfl

end Reckoner.Text
