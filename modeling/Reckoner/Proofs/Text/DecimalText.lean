import Reckoner.Proofs.Text.Numerals
import Reckoner.Proofs.Text.Split
import Mathlib.Algebra.Field.Rat

/-!
# Decimal texts

The texts that denote decimals: an optional sign, digits with an optional point among them, and an
optional exponent behind an `e` or `E`. The relation `DecimalText cs z places e` takes such a text
apart: `z` is the number of its digits, read without the point and with the sign, `places` of them
stand behind the point, and the exponent is `e`. Its value is

    z * 10 ^ (e - places)

(`DenotesDecimal`). No blank or separator is among the characters (`DecimalText.forall_mem`), and
the exponent can be seen behind the first mark (`DecimalText.exponentOf?`).
-/

namespace Reckoner.Text

/-- Digits with an optional point, at least one digit. Without the point they denote `n`, and
`places` of them stand behind it. -/
inductive MantissaText : List Char → (n places : Nat) → Prop
  | whole {cs : List Char} {n : Nat} (ne : cs ≠ []) (digits : Denotes cs n) : MantissaText cs n 0
  | pointed {ws fs : List Char} {n : Nat} (ne : ws ++ fs ≠ []) (digits : Denotes (ws ++ fs) n) :
      MantissaText (ws ++ '.' :: fs) n fs.length

/-- Digits with an optional sign, at least one digit. -/
inductive ExponentText : List Char → Int → Prop
  | bare {cs : List Char} {n : Nat} (ne : cs ≠ []) (digits : Denotes cs n) : ExponentText cs n
  | plus {cs : List Char} {n : Nat} (ne : cs ≠ []) (digits : Denotes cs n) :
      ExponentText ('+' :: cs) n
  | minus {cs : List Char} {n : Nat} (ne : cs ≠ []) (digits : Denotes cs n) :
      ExponentText ('-' :: cs) (-n)

/-- The mark in front of an exponent. -/
def isExponentMark (c : Char) : Bool := c == 'e' || c == 'E'

/-- A mantissa with an optional exponent, which is 0 where there is none. -/
inductive UnsignedText : List Char → (n places : Nat) → (e : Int) → Prop
  | plain {cs : List Char} {n places : Nat} (mantissa : MantissaText cs n places) :
      UnsignedText cs n places 0
  | scaled {cs es : List Char} {mark : Char} {n places : Nat} {e : Int}
      (mantissa : MantissaText cs n places) (mark_eq : isExponentMark mark = true)
      (exponent : ExponentText es e) : UnsignedText (cs ++ mark :: es) n places e

/-- An optional sign, a mantissa and an optional exponent; `z` has the sign. -/
inductive DecimalText : List Char → (z : Int) → (places : Nat) → (e : Int) → Prop
  | bare {cs : List Char} {n places : Nat} {e : Int} (unsigned : UnsignedText cs n places e) :
      DecimalText cs n places e
  | plus {cs : List Char} {n places : Nat} {e : Int} (unsigned : UnsignedText cs n places e) :
      DecimalText ('+' :: cs) n places e
  | minus {cs : List Char} {n places : Nat} {e : Int} (unsigned : UnsignedText cs n places e) :
      DecimalText ('-' :: cs) (-n) places e

/-- A decimal text without a sign, with the exponent `e`, that denotes the rational `r`. -/
def DenotesUnsigned (cs : List Char) (e : Int) (r : Rat) : Prop :=
  ∃ n places, UnsignedText cs n places e ∧ r = n * (10 : Rat) ^ (e - places)

/-- A decimal text with the exponent `e` that denotes the rational `r`. -/
def DenotesDecimal (cs : List Char) (e : Int) (r : Rat) : Prop :=
  ∃ z places, DecimalText cs z places e ∧ r = z * (10 : Rat) ^ (e - places)

variable {cs es : List Char} {n places : Nat} {z e : Int} {p : Char → Bool}

/-! ## Characters -/

/-- A class of characters that decimal texts do not have. -/
structure Foreign (p : Char → Bool) : Prop where
  digit : DigitFree p
  point : p '.' = false
  plus : p '+' = false
  minus : p '-' = false
  mark : ∀ c, isExponentMark c = true → p c = false

theorem eq_of_isExponentMark {c : Char} (h : isExponentMark c = true) : c = 'e' ∨ c = 'E' := by
  simpa [isExponentMark] using h

theorem foreign_isBlank : Foreign isBlank where
  digit := digitFree_isBlank
  point := by decide
  plus := by decide
  minus := by decide
  mark c hc := by rcases eq_of_isExponentMark hc with rfl | rfl <;> decide

theorem foreign_slash : Foreign (· == '/') where
  digit := digitFree_beq (by decide)
  point := by decide
  plus := by decide
  minus := by decide
  mark c hc := by rcases eq_of_isExponentMark hc with rfl | rfl <;> decide

theorem digitFree_isExponentMark : DigitFree isExponentMark :=
  (digitFree_beq (by decide)).or (digitFree_beq (by decide))

namespace MantissaText

theorem ne_nil (h : MantissaText cs n places) : cs ≠ [] := by
  cases h with
  | whole ne digits => exact ne
  | pointed ne digits => simp

theorem forall_mem (hp : DigitFree p) (hpoint : p '.' = false) (h : MantissaText cs n places) :
    ∀ c ∈ cs, p c = false := by
  cases h with
  | whole ne digits => exact hp.not_mem digits
  | pointed ne digits =>
    obtain ⟨hws, hfs⟩ := List.forall_mem_append.1 (hp.not_mem digits)
    exact List.forall_mem_append.2 ⟨hws, List.forall_mem_cons.2 ⟨hpoint, hfs⟩⟩

end MantissaText

theorem ExponentText.forall_mem (hp : DigitFree p) (hplus : p '+' = false) (hminus : p '-' = false)
    (h : ExponentText es e) : ∀ c ∈ es, p c = false := by
  cases h with
  | bare ne digits => exact hp.not_mem digits
  | plus ne digits => exact List.forall_mem_cons.2 ⟨hplus, hp.not_mem digits⟩
  | minus ne digits => exact List.forall_mem_cons.2 ⟨hminus, hp.not_mem digits⟩

namespace UnsignedText

theorem ne_nil (h : UnsignedText cs n places e) : cs ≠ [] := by
  cases h with
  | plain mantissa => exact mantissa.ne_nil
  | scaled mantissa mark_eq exponent => simp

theorem forall_mem (hp : Foreign p) (h : UnsignedText cs n places e) : ∀ c ∈ cs, p c = false := by
  cases h with
  | plain mantissa => exact mantissa.forall_mem hp.digit hp.point
  | scaled mantissa mark_eq exponent =>
    exact List.forall_mem_append.2 ⟨mantissa.forall_mem hp.digit hp.point,
      List.forall_mem_cons.2 ⟨hp.mark _ mark_eq, exponent.forall_mem hp.digit hp.plus hp.minus⟩⟩

/-- The first character is one of the mantissa. -/
theorem head {c : Char} (hp : DigitFree p) (hpoint : p '.' = false)
    (h : UnsignedText (c :: cs) n places e) : p c = false := by
  generalize htext : c :: cs = text at h
  cases h with
  | plain mantissa =>
    subst htext
    exact mantissa.forall_mem hp hpoint c (.head _)
  | @scaled ms es mark _ _ _ mantissa mark_eq exponent =>
    obtain ⟨d, ms, rfl⟩ := List.exists_cons_of_ne_nil mantissa.ne_nil
    obtain rfl : c = d := (List.cons.inj htext).1
    exact mantissa.forall_mem hp hpoint c (.head _)

end UnsignedText

namespace DecimalText

theorem ne_nil (h : DecimalText cs z places e) : cs ≠ [] := by
  cases h with
  | bare unsigned => exact unsigned.ne_nil
  | plus unsigned | minus unsigned => simp

theorem forall_mem (hp : Foreign p) (h : DecimalText cs z places e) : ∀ c ∈ cs, p c = false := by
  cases h with
  | bare unsigned => exact unsigned.forall_mem hp
  | plus unsigned => exact List.forall_mem_cons.2 ⟨hp.plus, unsigned.forall_mem hp⟩
  | minus unsigned => exact List.forall_mem_cons.2 ⟨hp.minus, unsigned.forall_mem hp⟩

end DecimalText

/-! ## Reading the parts -/

theorem readSigned?_eq_some_iff : readSigned? es = some e ↔ ExponentText es e := by
  constructor
  · intro h
    unfold readSigned? at h
    split at h
    · next cs =>
      obtain ⟨n, hread, rfl⟩ : ∃ n : Nat, readDigits? cs = some n ∧ -(n : Int) = e := by
        simpa [Option.bind_eq_some_iff] using h
      obtain ⟨hne, hdigits⟩ := readDigits?_eq_some_iff.1 hread
      exact .minus hne hdigits
    · obtain ⟨n, hread, rfl⟩ : ∃ n : Nat, readUnsigned? es = some n ∧ (n : Int) = e := by
        simpa [Option.bind_eq_some_iff] using h
      unfold readUnsigned? at hread
      split at hread
      · obtain ⟨hne, hdigits⟩ := readDigits?_eq_some_iff.1 hread
        exact .plus hne hdigits
      · obtain ⟨hne, hdigits⟩ := readDigits?_eq_some_iff.1 hread
        exact .bare hne hdigits
  · intro h
    cases h with
    | bare ne digits => exact readSigned?_of_denotes ne digits
    | plus ne digits =>
      show (readDigits? _).map (fun n => (n : Int)) = _
      rw [readDigits?_eq_some_iff.2 ⟨ne, digits⟩]
      rfl
    | minus ne digits =>
      show (readDigits? _).map (fun n => -(n : Int)) = _
      rw [readDigits?_eq_some_iff.2 ⟨ne, digits⟩]
      rfl

/-- The text of an integer is an exponent. -/
theorem exponentText_decimalInt (e : Int) : ExponentText (decimalInt e).toList e := by
  have hne := decimalDigits_ne_nil e.natAbs
  have hdigits := denotes_decimalDigits e.natAbs
  rw [toList_decimalInt]
  by_cases hneg : e < 0
  · have hvalue : -(e.natAbs : Int) = e := by omega
    have htext := ExponentText.minus hne hdigits
    rw [hvalue] at htext
    rwa [if_pos hneg]
  · have hvalue : (e.natAbs : Int) = e := by omega
    have htext := ExponentText.bare hne hdigits
    rw [hvalue] at htext
    rwa [if_neg hneg]

/-! ## The exponent of a text -/

theorem cutFirst?_cons {c : Char} (hc : p c = false) (cs : List Char) :
    cutFirst? p (c :: cs) = (cutFirst? p cs).map fun parts => (c :: parts.1, parts.2) := by
  unfold cutFirst?
  rw [List.dropWhile_cons_of_pos (by simp [hc]), List.takeWhile_cons_of_pos (by simp [hc])]
  cases cs.dropWhile fun c => !p c <;> rfl

/-- The exponent that a text has behind its first mark, 0 without a mark. -/
def exponentOf? (cs : List Char) : Option Int :=
  (cutFirst? isExponentMark cs).elim (some 0) fun parts => readSigned? parts.2

theorem exponentOf?_cons {c : Char} (hc : isExponentMark c = false) (cs : List Char) :
    exponentOf? (c :: cs) = exponentOf? cs := by
  unfold exponentOf?
  rw [cutFirst?_cons hc]
  cases cutFirst? isExponentMark cs <;> rfl

theorem UnsignedText.exponentOf? (h : UnsignedText cs n places e) :
    Text.exponentOf? cs = some e := by
  unfold Text.exponentOf?
  cases h with
  | plain mantissa =>
    rw [cutFirst?_eq_none (mantissa.forall_mem digitFree_isExponentMark (by decide))]
    rfl
  | scaled mantissa mark_eq exponent =>
    rw [cutFirst?_append_cons (mantissa.forall_mem digitFree_isExponentMark (by decide)) mark_eq]
    exact readSigned?_eq_some_iff.2 exponent

theorem DecimalText.exponentOf? (h : DecimalText cs z places e) :
    Text.exponentOf? cs = some e := by
  cases h with
  | bare unsigned => exact unsigned.exponentOf?
  | plus unsigned | minus unsigned =>
    rw [exponentOf?_cons (by decide)]
    exact unsigned.exponentOf?

theorem DenotesDecimal.exponentOf? {r : Rat} (h : DenotesDecimal cs e r) :
    Text.exponentOf? cs = some e := by
  obtain ⟨z, places, htext, -⟩ := h
  exact htext.exponentOf?

end Reckoner.Text
