import Reckoner.Expr.Eval
import Reckoner.Proofs.Number.Parts
import Reckoner.Proofs.Number.Reading
import Reckoner.Proofs.Result

/-!
# Literals mean their texts

The literal of a number text holds the parts of the number, and the literal of any other text holds
that text. Evaluation reads them back, first as a quotient of integers and then, if it is none, as
the number text (`Number.ofLiteral`). So a literal of a number text is that number under the limits,
and a literal of any other text fails as reading the text does (`Expr.eval_decimal`).

The two readers differ in integers with underscores among the digits, which are no number texts.
Their literals do not fail, but mean the integers (`Expr.eval_decimal_of_underscores`).
-/

namespace Reckoner

/-! ## Two readers of integers -/

namespace Text

variable {cs : List Char} {n : Nat} {z : Int}

/-- Digits with underscores are a numeral once these are dropped. -/
theorem denotes_of_readGroupedDigits? (h : readGroupedDigits? cs = some n) :
    cs.filter (· != '_') ≠ [] ∧ Denotes (cs.filter (· != '_')) n := by
  unfold readGroupedDigits? at h
  split at h
  · cases h
  · exact readDigits?_eq_some_iff.1 h

/-- A sign may stand in front of the digits. -/
theorem exists_of_readGrouped? (h : readGrouped? cs = some z) :
    ∃ ds n, readGroupedDigits? ds = some n ∧
      (cs = ds ∧ z = n ∨ cs = '+' :: ds ∧ z = n ∨ cs = '-' :: ds ∧ z = -n) := by
  unfold readGrouped? at h
  split at h
  · next ds =>
    obtain ⟨n, hn, rfl⟩ : ∃ n, readGroupedDigits? ds = some n ∧ -(n : Int) = z := by
      simpa [Option.bind_eq_some_iff] using h
    exact ⟨ds, n, hn, .inr (.inr ⟨rfl, rfl⟩)⟩
  · next ds =>
    obtain ⟨n, hn, rfl⟩ : ∃ n, readGroupedDigits? ds = some n ∧ (n : Int) = z := by
      simpa [Option.bind_eq_some_iff] using h
    exact ⟨ds, n, hn, .inr (.inl ⟨rfl, rfl⟩)⟩
  · obtain ⟨n, hn, rfl⟩ : ∃ n, readGroupedDigits? cs = some n ∧ (n : Int) = z := by
      simpa [Option.bind_eq_some_iff] using h
    exact ⟨cs, n, hn, .inl ⟨rfl, rfl⟩⟩

/-- An integer that is read with underscores is a decimal if it has none. -/
theorem decimalText_of_readGrouped? (hplain : '_' ∉ cs) (h : readGrouped? cs = some z) :
    DecimalText cs z 0 0 := by
  have hunsigned {ds : List Char} {n : Nat} (hds : '_' ∉ ds)
      (hread : readGroupedDigits? ds = some n) : UnsignedText ds n 0 0 := by
    have hfilter : ds.filter (· != '_') = ds := by
      refine List.filter_eq_self.2 fun c hc => ?_
      simpa using fun heq : c = '_' => hds (heq ▸ hc)
    obtain ⟨hne, hdigits⟩ := denotes_of_readGroupedDigits? hread
    rw [hfilter] at hne hdigits
    exact .plain (.whole hne hdigits)
  obtain ⟨ds, n, hread, ⟨rfl, rfl⟩ | ⟨rfl, rfl⟩ | ⟨rfl, rfl⟩⟩ := exists_of_readGrouped? h
  · exact .bare (hunsigned hplain hread)
  · exact .plus (hunsigned (fun hmem => hplain (.tail _ hmem)) hread)
  · exact .minus (hunsigned (fun hmem => hplain (.tail _ hmem)) hread)

/-- Underscores or not, an integer has no slash. -/
theorem slash_not_mem_of_readGrouped? (h : readGrouped? cs = some z) : '/' ∉ cs := by
  have hdigits {ds : List Char} {n : Nat} (hread : readGroupedDigits? ds = some n) : '/' ∉ ds := by
    intro hmem
    have hfilter : '/' ∈ ds.filter (· != '_') := List.mem_filter.2 ⟨hmem, by decide⟩
    exact absurd ((denotes_of_readGroupedDigits? hread).2.isDigit '/' hfilter) (by decide)
  obtain ⟨ds, n, hread, ⟨rfl, -⟩ | ⟨rfl, -⟩ | ⟨rfl, -⟩⟩ := exists_of_readGrouped? h
  · exact hdigits hread
  · simpa using hdigits hread
  · simpa using hdigits hread

end Text

namespace Number

open Text

variable {text : String} {x : Number} {e : NumberError} {z : Int} {parts : NumberParts}

/-- What is read is exact, and reading fails in two ways. -/
theorem ofText_results (text : String) :
    (∃ r, ofText text = .ok (exact r)) ∨ ofText text = .error .divisionByZero ∨
      ∃ details, ofText text = .error (.malformed details) := by
  cases hcut : cutFirst? (· == '/') (trim text.toList) with
  | none =>
    rw [ofText_decimal hcut]
    cases readDecimal? (trim text.toList) with
    | none => exact .inr (.inr ⟨_, rfl⟩)
    | some r => exact .inl ⟨r, rfl⟩
  | some sides =>
    rw [ofText_quotient hcut]
    split
    · split
      · exact .inr (.inl rfl)
      · exact .inl ⟨_, rfl⟩
    · exact .inr (.inr ⟨_, rfl⟩)

/-- Only a quotient can be a division by zero. -/
theorem slash_mem_of_divisionByZero (h : ofText text = .error .divisionByZero) :
    '/' ∈ trim text.toList := by
  cases hcut : cutFirst? (· == '/') (trim text.toList) with
  | none =>
    rw [ofText_decimal hcut] at h
    cases hread : readDecimal? (trim text.toList) <;> rw [hread] at h <;> cases h
  | some sides =>
    obtain ⟨c, hc, heq, -⟩ := append_of_cutFirst? hcut
    obtain rfl : c = '/' := by simpa using hc
    rw [heq]
    exact List.mem_append_right _ (.head _)

/-- An integer without underscores is a number text. -/
theorem ofText_of_readGrouped? (hplain : '_' ∉ trim text.toList)
    (h : readGrouped? (trim text.toList) = some z) : ∃ r, ofText text = .ok (exact r) := by
  have hdecimal : BoundedDecimal (trim text.toList) (z * (10 : Rat) ^ ((0 : Int) - (0 : Nat))) :=
    .of_plain ⟨z, 0, decimalText_of_readGrouped? hplain h, rfl⟩
  exact ⟨_, (NumberText.decimal (padded_trim _) hdecimal).read⟩

/-- The number that the literal of a text is read back as. -/
def ofLiteral (text : String) : Except NumberError Number :=
  match ofText text with
  | .ok x => .ok x
  | .error e =>
    match readGrouped? (trim text.toList) with
    | some z => .ok (ofInt z)
    | none => .error e

theorem ofFraction_one (h : readInteger text = .ok z) : ofFraction text "1" = .ok (ofInt z) := by
  have hdenom : readInteger "1" = .ok 1 := readInteger_decimalInt 1
  rw [ofFraction, h, hdenom, ok_bind, ok_bind, if_neg one_ne_zero, ofRatio, Rat.divInt_one]
  rfl

theorem ofParts_integer (z : Int) : ofParts (.integer z) = .ok (ofInt z) := by
  have hvalue := ofFraction_one (readInteger_decimalInt z)
  show ofExactParts (.integer z) = _
  rw [ofExactParts, NumberParts.integer, hvalue]

/-- What is no number text is first read as an integer. -/
theorem ofParts_of_text (h : ofText text = .error e) :
    ofParts { numer := text, denom := "1", exactValue := some text } = ofLiteral text := by
  show ofExactParts { numer := text, denom := "1", exactValue := some text } = ofLiteral text
  cases hread : readGrouped? (trim text.toList) with
  | none =>
    have hnumer : readInteger text = .error (.malformed text) := by
      rw [readInteger, hread]
      rfl
    rw [ofLiteral, h, hread, ofExactParts, ofFraction, hnumer]
    exact h
  | some z =>
    have hnumer : readInteger text = .ok z := by
      rw [readInteger, hread]
      rfl
    rw [ofLiteral, h, hread, ofExactParts, ofFraction_one hnumer]

end Number

namespace Expr

variable {l : Library} {env : Environment} {text : String} {parts : NumberParts} {e : NumberError}
  {x m : Number} {z : Int}

theorem exists_parts_of_decimal (text : String) :
    ∃ parts, decimal text = const parts ∧ Number.ofParts parts = Number.ofLiteral text := by
  rcases Number.ofText_results text with ⟨r, hread⟩ | hfails
  · refine ⟨(Number.exact r).toParts default, ?_, ?_⟩
    · rw [decimal, hread]
    · rw [Number.ofParts_toParts_exact, Number.ofLiteral, hread]
  · obtain ⟨e, he⟩ : ∃ e, Number.ofText text = .error e := by
      rcases hfails with h | ⟨details, h⟩ <;> exact ⟨_, h⟩
    refine ⟨{ numer := text, denom := "1", exactValue := some text }, ?_, Number.ofParts_of_text he⟩
    rw [decimal, he]

/-! ## Evaluation of literals -/

theorem eval_const (l : Library) (env : Environment) (parts : NumberParts) :
    (const parts).eval l env = (parts.eval env.settings).finish "const" env.settings := by
  rw [eval, evalAt, if_neg (Nat.not_lt_zero _)]
  rfl

/-- A literal is what its parts are read back as. -/
theorem eval_const_congr {parts' : NumberParts} (h : Number.ofParts parts = Number.ofParts parts') :
    (const parts).eval l env = (const parts').eval l env := by
  rw [eval_const, eval_const, NumberParts.eval, NumberParts.eval, h]

theorem eval_const_of_error (h : Number.ofParts parts = .error e) :
    (const parts).eval l env = .error ((Diagnostic.ofNumber e).atNode "const") := by
  rw [eval_const, NumberParts.eval, h]
  rfl

/-- A literal of a number that has limits is that number, if its size is in range after all. -/
theorem eval_const_of_ok (h : Number.ofParts parts = .ok x)
    (hm : x.withinLimits env.settings = .ok m) :
    (const parts).eval l env =
      if m.inRange env.settings then .number m
      else .error (Diagnostic.overflow.atNode "const") := by
  rw [eval_const, NumberParts.eval, h, ok_bind, hm, ok_bind]
  show (Value.number m).finish "const" env.settings = _
  simp only [Value.number, Value.finish, Quantity.plain, Number.checkRange]
  by_cases hrange : m.inRange env.settings
  · simp only [if_pos hrange]
  · simp only [if_neg hrange]
    rfl

theorem eval_const_of_overflow (h : Number.ofParts parts = .ok x)
    (hlimits : x.withinLimits env.settings = .error e) :
    (const parts).eval l env = .error (Diagnostic.overflow.atNode "const") := by
  obtain rfl : e = .overflow := by
    unfold Number.withinLimits at hlimits
    split at hlimits
    · cases x <;> cases hlimits
    · cases hlimits
      rfl
  rw [eval_const, NumberParts.eval, h, ok_bind, hlimits]
  rfl

/-- **A literal means its text.** The literal of a number text is the number within the limits, and
an overflow if there is none in range. The literal of any other text is the error of reading it, a
division by zero or a parse error, unless the text is an integer with underscores: that has the value
of the integer. -/
theorem eval_decimal (l : Library) (env : Environment) (text : String) :
    (∀ x, Number.ofText text = .ok x →
      (∀ m, x.withinLimits env.settings = .ok m → m.inRange env.settings →
        (decimal text).eval l env = .number m) ∧
      ((∀ m, x.withinLimits env.settings = .ok m → ¬ m.inRange env.settings) →
        (decimal text).eval l env = .error (Diagnostic.overflow.atNode "const"))) ∧
    ∀ e, Number.ofText text = .error e →
      (Text.readGrouped? (Text.trim text.toList) = none →
        (decimal text).eval l env = .error ((Diagnostic.ofNumber e).atNode "const") ∧
        (Diagnostic.ofNumber e).code =
          if e = .divisionByZero then "DIV_ZERO" else "PARSE_ERROR") ∧
      ∀ z, Text.readGrouped? (Text.trim text.toList) = some z →
        '_' ∈ text.toList ∧ e ≠ .divisionByZero ∧
        (decimal text).eval l env = (int z).eval l env := by
  obtain ⟨parts, hdecimal, hparts⟩ := exists_parts_of_decimal text
  rw [hdecimal]
  refine ⟨fun x hread => ?_, fun e hread => ⟨fun hnone => ?_, fun z hinteger => ?_⟩⟩
  · rw [Number.ofLiteral, hread] at hparts
    refine ⟨fun m hm hrange => ?_, fun hout => ?_⟩
    · rw [eval_const_of_ok hparts hm, if_pos hrange]
    · cases hm : x.withinLimits env.settings with
      | ok m => rw [eval_const_of_ok hparts hm, if_neg (hout m hm)]
      | error e => exact eval_const_of_overflow hparts hm
  · rw [Number.ofLiteral, hread, hnone] at hparts
    refine ⟨eval_const_of_error hparts, ?_⟩
    rcases Number.ofText_results text with ⟨r, h⟩ | h | ⟨details, h⟩ <;> cases hread.symm.trans h
    · rfl
    · rfl
  · rw [Number.ofLiteral, hread, hinteger] at hparts
    refine ⟨?_, ?_, ?_⟩
    · by_contra hplain
      obtain ⟨r, hr⟩ :=
        Number.ofText_of_readGrouped? (fun hmem => hplain ((Text.trim_sublist _).subset hmem))
          hinteger
      cases hread.symm.trans hr
    · rintro rfl
      exact Text.slash_not_mem_of_readGrouped? hinteger (Number.slash_mem_of_divisionByZero hread)
    · exact eval_const_congr (hparts.trans (Number.ofParts_integer z).symm)

/-- A decimal, a quotient by zero and a word. -/
theorem eval_decimal_of_texts :
    (decimal "2.50").eval standardLibrary ⟨{}, default⟩ = .number (.exact (5 / 2)) ∧
    (decimal "1/0").eval standardLibrary ⟨{}, default⟩ =
      .error (Diagnostic.divisionByZero.atNode "const") ∧
    (decimal "ten").eval standardLibrary ⟨{}, default⟩ =
      .error ((Diagnostic.parseError "ten").atNode "const") := by
  refine ⟨?_, ?_, ?_⟩
  · have hread : Number.ofText "2.50" = .ok (.exact (5 / 2)) := by decide +kernel
    have hlimits : (Number.exact (5 / 2)).withinLimits {} = .ok (.exact (5 / 2)) := by
      decide +kernel
    exact ((eval_decimal _ _ "2.50").1 _ hread).1 _ hlimits (by decide +kernel)
  · have hread : Number.ofText "1/0" = .error .divisionByZero := by decide +kernel
    exact (((eval_decimal _ _ "1/0").2 _ hread).1 (by decide +kernel)).1
  · have hread : Number.ofText "ten" = .error (.malformed "ten") := by decide +kernel
    exact (((eval_decimal _ _ "ten").2 _ hread).1 (by decide +kernel)).1

/-- An integer with an underscore is no number text, and its literal is a number all the same. -/
theorem eval_decimal_of_underscores :
    Number.ofText "1_000" = .error (.malformed "1_000") ∧
      (decimal "1_000").eval standardLibrary ⟨{}, default⟩ = .number (.ofInt 1000) := by
  refine ⟨by decide +kernel, ?_⟩
  obtain ⟨parts, hdecimal, hparts⟩ := exists_parts_of_decimal "1_000"
  have hread : Number.ofLiteral "1_000" = .ok (.ofInt 1000) := by decide +kernel
  have hlimits : (Number.ofInt 1000).withinLimits {} = .ok (.ofInt 1000) := by decide +kernel
  have hrange : (Number.ofInt 1000).inRange {} := by decide +kernel
  have heval : (const parts).eval standardLibrary ⟨{}, default⟩ =
      if (Number.ofInt 1000).inRange {} then .number (.ofInt 1000)
      else .error (Diagnostic.overflow.atNode "const") :=
    eval_const_of_ok (hparts.trans hread) hlimits
  rw [hdecimal, heval, if_pos hrange]

end Expr

end Reckoner
