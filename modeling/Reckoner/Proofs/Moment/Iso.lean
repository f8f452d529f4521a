import Reckoner.Expr.DateLiteral
import Reckoner.Moment.Printer
import Reckoner.Proofs.Moment.Fields
import Reckoner.Proofs.Text.Numerals
import Reckoner.Proofs.Text.Split

/-!
# The ISO text of a moment read back

`Moment.toIso` writes a date, a time of day and a zone, and `Moment.ofText` reads all three:

    ofText m.toIso = .ok ⟨m.nanos, some (m.offset.getD 0)⟩

for the moments of the supported years whose offset can be written in hours and minutes (`IsZone`).
A moment without an offset is written in UTC and read back as one of offset 0. A date literal whose
tokens spell the text is read in the same way, whatever the clock says.

Reading cuts the text at separators. What stands between them are runs of digits, so no cut is made
at a wrong place as long as the separators are no digits (`DigitFree`).
-/

namespace Reckoner

open Text Calendar

variable {p : Char → Bool}

/-! ## Padded numbers -/

theorem denotes_paddedDecimal (width n : Nat) : Denotes (paddedDecimal width n).toList n := by
  rw [paddedDecimal, String.toList_ofList]
  exact (denotes_decimalDigits n).padStart width

theorem not_mem_paddedDecimal (hp : DigitFree p) {width n : Nat} :
    ∀ c ∈ (paddedDecimal width n).toList, p c = false := by
  intro c hc
  exact hp c ((denotes_paddedDecimal width n).isDigit c hc)

theorem le_length_paddedDecimal (width n : Nat) :
    width ≤ (paddedDecimal width n).toList.length := by
  rw [paddedDecimal, String.toList_ofList, padStart, List.length_append, List.length_replicate]
  omega

theorem length_paddedDecimal {width n : Nat} (hwidth : 0 < width) (hn : n < 10 ^ width) :
    (paddedDecimal width n).toList.length = width := by
  have hle := length_decimalDigits_le hwidth hn
  rw [paddedDecimal, String.toList_ofList, padStart, List.length_append, List.length_replicate]
  omega

theorem readField_eq_ok_iff {what : String} {limit n : Nat} {cs : List Char} :
    readField what limit cs = .ok n ↔ (cs ≠ [] ∧ Denotes cs n) ∧ n < limit := by
  unfold readField
  constructor
  · intro h
    split at h
    · next k hk =>
      split at h
      · next hlt =>
        obtain rfl := Except.ok.inj h
        exact ⟨readDigits?_eq_some_iff.1 hk, hlt⟩
      · cases h
    · cases h
  · rintro ⟨hdigits, hlt⟩
    rw [readDigits?_eq_some_iff.2 hdigits]
    exact if_pos hlt

theorem readField_of_denotes {what : String} {limit n : Nat} {cs : List Char} (hne : cs ≠ [])
    (h : Denotes cs n) (hn : n < limit) : readField what limit cs = .ok n :=
  readField_eq_ok_iff.2 ⟨⟨hne, h⟩, hn⟩

theorem readField_paddedDecimal {what : String} {limit width n : Nat} (hn : n < limit) :
    readField what limit (paddedDecimal width n).toList = .ok n := by
  refine readField_of_denotes ?_ (denotes_paddedDecimal width n) hn
  rw [paddedDecimal, String.toList_ofList]
  exact padStart_ne_nil (decimalDigits_ne_nil n)

/-! ## Dates -/

namespace CivilDate

/-- The text of a date, as in `0476-09-04`. -/
def text (d : CivilDate) : String :=
  paddedInt 4 d.year ++ "-" ++ paddedDecimal 2 d.month ++ "-" ++ paddedDecimal 2 d.day

/-- The text without the sign of the year. -/
def body (d : CivilDate) (width : Nat) : List Char :=
  (paddedDecimal width d.year.natAbs).toList ++ '-' ::
    ((paddedDecimal 2 d.month).toList ++ '-' :: (paddedDecimal 2 d.day).toList)

theorem toList_text (d : CivilDate) :
    d.text.toList = if d.year < 0 then '-' :: d.body 3 else d.body 4 := by
  unfold text paddedInt body
  split <;> simp [String.toList_append]

theorem not_mem_text (hp : DigitFree p) (hdash : p '-' = false) (d : CivilDate) :
    ∀ c ∈ d.text.toList, p c = false := by
  have hbody : ∀ width, ∀ c ∈ d.body width, p c = false := by
    intro width
    simp only [body, List.forall_mem_append, List.forall_mem_cons]
    exact ⟨not_mem_paddedDecimal hp, hdash, not_mem_paddedDecimal hp, hdash,
      not_mem_paddedDecimal hp⟩
  rw [toList_text]
  split
  · exact List.forall_mem_cons.2 ⟨hdash, hbody 3⟩
  · exact hbody 4

theorem dash_mem_text (d : CivilDate) : '-' ∈ d.text.toList := by
  rw [toList_text]
  split <;> simp [body]

/-- Reading a date behind its sign. -/
theorem splitAll_body (d : CivilDate) (width : Nat) :
    splitAll (· == '-') (d.body width) =
      [(paddedDecimal width d.year.natAbs).toList, (paddedDecimal 2 d.month).toList,
        (paddedDecimal 2 d.day).toList] := by
  have hdash : DigitFree (· == '-') := digitFree_beq (by decide)
  unfold body
  rw [splitAll_append_cons (not_mem_paddedDecimal hdash) (by decide),
    splitAll_append_cons (not_mem_paddedDecimal hdash) (by decide),
    splitAll_eq_singleton (not_mem_paddedDecimal hdash)]

/-- The text of a year without a sign begins with a digit. -/
theorem body_ne_dash_cons (d : CivilDate) (rest : List Char) : d.body 4 ≠ '-' :: rest := by
  intro heq
  have hdash : DigitFree (· == '-') := digitFree_beq (by decide)
  have hmem : ∀ c ∈ (paddedDecimal 4 d.year.natAbs).toList, (c == '-') = false :=
    not_mem_paddedDecimal hdash
  have hlength := le_length_paddedDecimal 4 d.year.natAbs
  cases hyear : (paddedDecimal 4 d.year.natAbs).toList with
  | nil => simp [hyear] at hlength
  | cons c cs =>
    rw [body, hyear] at heq
    rw [hyear, (List.cons.inj heq).1] at hmem
    simp at hmem

theorem ofText_text {d : CivilDate} (hy : InYears d.year) (hd : IsDate d) :
    ofText d.text.toList = .ok d := by
  have hyear : d.year.natAbs < 2 ^ 31 := by
    unfold InYears minYear maxYear at hy
    omega
  have hmonth : d.month < 2 ^ 32 := by
    have := hd.month_le
    omega
  have hday : d.day < 2 ^ 32 := by
    have := hd.day_le
    have := daysInMonth_le d.year d.month
    omega
  obtain ⟨year, month, day⟩ := d
  rw [toList_text]
  -- The sign takes one of the four places of a year, so three are left behind it.
  by_cases hneg : year < 0
  · rw [if_pos hneg]
    unfold ofText
    simp only [splitAll_body, readField_paddedDecimal hyear, readField_paddedDecimal hmonth,
      readField_paddedDecimal hday, bind, Except.bind]
    have habs : -(year.natAbs : Int) = year := by omega
    rw [if_pos trivial, habs]
    rfl
  · rw [if_neg hneg]
    unfold ofText
    split
    next negative rest heq =>
      -- A text that begins with a digit is not taken for a negative year.
      split at heq
      · next hdash => exact absurd hdash (body_ne_dash_cons _ _)
      · obtain ⟨rfl, rfl⟩ := Prod.mk.inj heq
        simp only [splitAll_body, readField_paddedDecimal hyear, readField_paddedDecimal hmonth,
          readField_paddedDecimal hday, bind, Except.bind]
        have habs : (year.natAbs : Int) = year := by omega
        rw [if_neg Bool.false_ne_true, habs]
        rfl

end CivilDate

/-! ## Times of day -/

namespace ClockTime

/-- The hours, minutes and seconds, as in `09:05:00`. -/
def clockText (t : ClockTime) : String :=
  paddedDecimal 2 t.hour ++ ":" ++ paddedDecimal 2 t.minute ++ ":" ++ paddedDecimal 2 t.second

/-- The text of a time of day, with a fraction of a second where there is one. -/
def text (t : ClockTime) : String := t.clockText ++ Moment.fractionText t.nanosecond

theorem toList_clockText (t : ClockTime) :
    t.clockText.toList = (paddedDecimal 2 t.hour).toList ++ ':' ::
      ((paddedDecimal 2 t.minute).toList ++ ':' :: (paddedDecimal 2 t.second).toList) := by
  simp [clockText, String.toList_append]

theorem not_mem_clockText (hp : DigitFree p) (hcolon : p ':' = false) (t : ClockTime) :
    ∀ c ∈ t.clockText.toList, p c = false := by
  rw [toList_clockText]
  simp only [List.forall_mem_append, List.forall_mem_cons]
  exact ⟨not_mem_paddedDecimal hp, hcolon, not_mem_paddedDecimal hp, hcolon,
    not_mem_paddedDecimal hp⟩

theorem splitAll_clockText (t : ClockTime) :
    splitAll (· == ':') t.clockText.toList =
      [(paddedDecimal 2 t.hour).toList, (paddedDecimal 2 t.minute).toList,
        (paddedDecimal 2 t.second).toList] := by
  have hcolon : DigitFree (· == ':') := digitFree_beq (by decide)
  rw [toList_clockText, splitAll_append_cons (not_mem_paddedDecimal hcolon) (by decide),
    splitAll_append_cons (not_mem_paddedDecimal hcolon) (by decide),
    splitAll_eq_singleton (not_mem_paddedDecimal hcolon)]

end ClockTime

namespace Moment

/-- The digits of a fraction, without the zeros at its end. -/
def fractionDigits (nanos : Nat) : List Char :=
  dropEndWhile (· == '0') (paddedDecimal 9 nanos).toList

theorem toList_fractionText {nanos : Nat} (h : nanos ≠ 0) :
    (fractionText nanos).toList = '.' :: fractionDigits nanos := by
  simp [fractionText, h, fractionDigits, paddedDecimal, String.toList_append]

theorem not_mem_fractionText (hp : DigitFree p) (hpoint : p '.' = false) (nanos : Nat) :
    ∀ c ∈ (fractionText nanos).toList, p c = false := by
  by_cases h : nanos = 0
  · simp [fractionText, h]
  · rw [toList_fractionText h]
    refine List.forall_mem_cons.2 ⟨hpoint, fun c hc => ?_⟩
    have hmem : c ∈ (paddedDecimal 9 nanos).toList := (dropEndWhile_sublist _ _).subset hc
    exact not_mem_paddedDecimal hp c hmem

/-- Of the nine digits of a fraction only zeros are left out, and reading puts them back. -/
theorem readFraction_fractionDigits {nanos : Nat} (h : nanos < 10 ^ 9) :
    readFraction (fractionDigits nanos) = .ok nanos := by
  have hlength := length_paddedDecimal (by decide) h
  have hle : (fractionDigits nanos).length ≤ 9 := by
    rw [← hlength]
    exact (dropEndWhile_sublist _ _).length_le
  have hfill : padEnd '0' 9 (fractionDigits nanos) = (paddedDecimal 9 nanos).toList := by
    have h := padEnd_dropEndWhile '0' (paddedDecimal 9 nanos).toList
    rwa [hlength] at h
  unfold readFraction
  rw [List.take_of_length_le hle, hfill]
  exact readField_paddedDecimal (by omega)

end Moment

namespace ClockTime

theorem not_mem_text (hp : DigitFree p) (hcolon : p ':' = false) (hpoint : p '.' = false)
    (t : ClockTime) : ∀ c ∈ t.text.toList, p c = false := by
  rw [text, String.toList_append, List.forall_mem_append]
  exact ⟨t.not_mem_clockText hp hcolon, Moment.not_mem_fractionText hp hpoint _⟩

theorem utc_not_mem_text (t : ClockTime) : 'Z' ∉ t.text.toList := by
  intro hmem
  have hutc : DigitFree (· == 'Z') := digitFree_beq (by decide)
  exact absurd (t.not_mem_text hutc (by decide) (by decide) 'Z' hmem) (by decide)

theorem four_le_length_text (t : ClockTime) : 4 ≤ t.text.toList.length := by
  have hhour := le_length_paddedDecimal 2 t.hour
  have hminute := le_length_paddedDecimal 2 t.minute
  rw [text, String.toList_append, toList_clockText]
  simp only [List.length_append, List.length_cons]
  omega

theorem ofText_text {t : ClockTime} (ht : IsTime t) : ofText t.text.toList = .ok t := by
  obtain ⟨hour, minute, second, nanosecond⟩ := t
  have hhour : hour < 2 ^ 32 := Nat.lt_trans ht.hour_lt (by decide)
  have hminute : minute < 2 ^ 32 := Nat.lt_trans ht.minute_lt (by decide)
  have hsecond : second < 2 ^ 32 := Nat.lt_trans ht.second_lt (by decide)
  have hpoint : DigitFree (· == '.') := digitFree_beq (by decide)
  rw [text, String.toList_append]
  unfold ofText
  -- A whole second is written without a point, and nothing is cut off.
  by_cases hzero : nanosecond = 0
  · subst hzero
    have hnone : cutFirst? (· == '.') (clockText ⟨hour, minute, second, 0⟩).toList = none :=
      cutFirst?_eq_none (not_mem_clockText hpoint (by decide) _)
    rw [Moment.fractionText, if_pos rfl, String.toList_empty, List.append_nil, hnone]
    simp only [splitAll_clockText, readField_paddedDecimal hhour, readField_paddedDecimal hminute,
      readField_paddedDecimal hsecond, checkTime_eq_ok.2 ht, bind, Except.bind, pure, Except.pure]
  · rw [Moment.toList_fractionText hzero,
      cutFirst?_append_cons (not_mem_clockText hpoint (by decide) _) (by decide)]
    simp only [Moment.readFraction_fractionDigits ht.nanosecond_lt, splitAll_clockText,
      readField_paddedDecimal hhour, readField_paddedDecimal hminute,
      readField_paddedDecimal hsecond, checkTime_eq_ok.2 ht, bind, Except.bind, pure, Except.pure]

end ClockTime

/-! ## Zones -/

/-- An offset that can be written in hours and minutes: whole minutes, less than a day. -/
structure IsZone (seconds : Int) : Prop where
  whole : 60 ∣ seconds
  lt_day : seconds.natAbs < 24 * 3600

instance (seconds : Int) : Decidable (IsZone seconds) :=
  decidable_of_iff (60 ∣ seconds ∧ seconds.natAbs < 24 * 3600)
    ⟨fun h => ⟨h.1, h.2⟩, fun h => ⟨h.1, h.2⟩⟩

/-- The hours and minutes of an offset, without its sign. -/
def zoneText (seconds : Int) : List Char :=
  (paddedDecimal 2 (seconds.natAbs / 3600)).toList ++ ':' ::
    (paddedDecimal 2 (seconds.natAbs % 3600 / 60)).toList

/-- The sign of an offset. -/
def zoneSign (seconds : Int) : Char := if seconds < 0 then '-' else '+'

theorem not_mem_zoneText (hp : DigitFree p) (hcolon : p ':' = false) (seconds : Int) :
    ∀ c ∈ zoneText seconds, p c = false := by
  rw [zoneText, List.forall_mem_append, List.forall_mem_cons]
  exact ⟨not_mem_paddedDecimal hp, hcolon, not_mem_paddedDecimal hp⟩

theorem readOffset_zoneText {seconds : Int} (h : IsZone seconds) :
    readOffset (zoneText seconds) = .ok seconds.natAbs := by
  have hday := h.lt_day
  have hhours : seconds.natAbs / 3600 < 24 := by omega
  have hminutes : seconds.natAbs % 3600 / 60 < 60 := by omega
  have hcolon : DigitFree (· == ':') := digitFree_beq (by decide)
  have hsum : seconds.natAbs / 3600 * 3600 + seconds.natAbs % 3600 / 60 * 60 = seconds.natAbs := by
    have := h.whole
    omega
  unfold readOffset splitOffset
  rw [zoneText, cutFirst?_append_cons (not_mem_paddedDecimal hcolon) (by decide)]
  simp only [readField_paddedDecimal (Nat.lt_trans hhours (by decide : 24 < 2 ^ 31)),
    readField_paddedDecimal (Nat.lt_trans hminutes (by decide : 60 < 2 ^ 31)), bind, Except.bind]
  rw [if_neg (by omega), hsum]
  rfl

namespace Moment

theorem offsetText_eq (offset : Option Int) :
    offsetText offset = offsetText (some (offset.getD 0)) := by
  cases offset <;> rfl

theorem toList_offsetText {seconds : Int} (h : seconds ≠ 0) :
    (offsetText (some seconds)).toList = zoneSign seconds :: zoneText seconds := by
  unfold offsetText zoneSign zoneText
  by_cases hneg : seconds < 0 <;> simp [h, hneg, String.toList_append]

theorem not_mem_offsetText (hp : DigitFree p) (hmarks : ∀ c ∈ ['Z', '+', '-', ':'], p c = false)
    (seconds : Int) : ∀ c ∈ (offsetText (some seconds)).toList, p c = false := by
  by_cases h : seconds = 0
  · subst h
    exact List.forall_mem_singleton.2 (hmarks 'Z' (by decide))
  · rw [toList_offsetText h]
    refine List.forall_mem_cons.2 ⟨?_, not_mem_zoneText hp (hmarks ':' (by decide)) seconds⟩
    unfold zoneSign
    split
    · exact hmarks '-' (by decide)
    · exact hmarks '+' (by decide)

end Moment

theorem length_le_byteLength (cs : List Char) : cs.length ≤ byteLength cs := by
  induction cs with
  | nil => exact Nat.le_refl 0
  | cons c cs ih =>
    have hpos : 0 < c.utf8Size := Char.utf8Size_pos c
    show cs.length + 1 ≤ c.utf8Size + byteLength cs
    omega

/-- A zone behind a time of day is split off again. -/
theorem splitZone_append {clock : List Char} {seconds : Int}
    (hblank : ∀ c ∈ clock, isBlank c = false) (hutc : 'Z' ∉ clock) (hlength : 4 ≤ clock.length)
    (hzone : IsZone seconds) :
    splitZone (clock ++ (Moment.offsetText (some seconds)).toList) = .ok (clock, some seconds) := by
  have htrim : trimEnd clock = clock := dropEndWhile_eq_self hblank
  by_cases hzero : seconds = 0
  · subst hzero
    have hdrop : dropLast? "Z" (clock ++ "Z".toList) = some clock := dropLast?_append "Z" clock
    show splitZone (clock ++ "Z".toList) = .ok (clock, some 0)
    unfold splitZone
    simp only [hdrop, htrim]
  · -- The sign of the zone is the last one of the text: behind it stand digits and a colon.
    have hsign : DigitFree fun c => c == '+' || c == '-' :=
      (digitFree_beq (by decide)).or (digitFree_beq (by decide))
    have hkeep : dropLast? "Z" (clock ++ zoneSign seconds :: zoneText seconds) = none := by
      have hutcFree : DigitFree (· == 'Z') := digitFree_beq (by decide)
      have hsigned : 'Z' ≠ zoneSign seconds := by
        unfold zoneSign
        split <;> decide
      have hzoned : 'Z' ∉ zoneText seconds := fun hmem =>
        absurd (not_mem_zoneText hutcFree (by decide) seconds 'Z' hmem) (by decide)
      exact dropLast?_eq_none (c := 'Z') (by decide) (by simp [hutc, hsigned, hzoned])
    have hcut : cutLast? (fun c => c == '+' || c == '-')
        (clock ++ zoneSign seconds :: zoneText seconds) =
          some (clock, zoneSign seconds, zoneText seconds) := by
      refine cutLast?_append_cons (not_mem_zoneText hsign (by decide) seconds) ?_
      unfold zoneSign
      split <;> decide
    -- Nor is it taken for one inside a time of day.
    have hbytes : ¬ byteLength clock < 4 := by
      have := length_le_byteLength clock
      omega
    rw [Moment.toList_offsetText hzero]
    unfold splitZone
    rw [hkeep]
    simp only [hcut, if_neg hbytes, readOffset_zoneText hzone, htrim, bind, Except.bind,
      pure, Except.pure]
    have hvalue : (if zoneSign seconds = '-' then -(seconds.natAbs : Int) else seconds.natAbs) =
        seconds := by
      unfold zoneSign
      by_cases hneg : seconds < 0
      · rw [if_pos hneg, if_pos rfl]
        omega
      · rw [if_neg hneg, if_neg (by decide)]
        omega
    rw [hvalue]

/-! ## Moments -/

namespace Moment

theorem toIso_eq (m : Moment) :
    m.toIso.toList = m.date.text.toList ++ 'T' ::
      (m.time.text.toList ++ (offsetText (some (m.offset.getD 0))).toList) := by
  rw [← offsetText_eq]
  simp [toIso, CivilDate.text, ClockTime.text, ClockTime.clockText, time, String.toList_append]

/-- The characters of a date, of a time and of a zone. -/
theorem not_mem_toIso (hp : DigitFree p)
    (hmarks : ∀ c ∈ ['-', 'T', ':', '.', '+', 'Z'], p c = false) (m : Moment) :
    ∀ c ∈ m.toIso.toList, p c = false := by
  rw [toIso_eq]
  simp only [List.forall_mem_append, List.forall_mem_cons]
  have hsubset : ['Z', '+', '-', ':'] ⊆ ['-', 'T', ':', '.', '+', 'Z'] := by simp
  exact ⟨m.date.not_mem_text hp (hmarks _ (by decide)), hmarks _ (by decide),
    m.time.not_mem_text hp (hmarks _ (by decide)) (hmarks _ (by decide)),
    not_mem_offsetText hp (fun c hc => hmarks c (hsubset hc)) _⟩

/-- Whatever text is read, its moment is one of the supported years. -/
theorem inYears_of_ofText {text : String} {m : Moment} (h : ofText text = .ok m) :
    InYears m.localDate.year := by
  have hfields : ∃ d t offset, ofFields d t offset = .ok m := by
    simp only [ofText] at h
    split at h
    · obtain ⟨d, -, hd⟩ := bind_eq_ok_iff.1 h
      exact ⟨d, _, _, hd⟩
    · obtain ⟨d, -, hrest⟩ := bind_eq_ok_iff.1 h
      obtain ⟨⟨clock, offset⟩, -, hrest⟩ := bind_eq_ok_iff.1 hrest
      obtain ⟨t, -, ht⟩ := bind_eq_ok_iff.1 hrest
      exact ⟨d, t, offset, ht⟩
  obtain ⟨d, t, offset, hfields⟩ := hfields
  obtain ⟨⟨hy, -, -⟩, hdate, -, -⟩ := ofFields_eq_ok_iff.1 hfields
  rwa [hdate]

/-- The moment that is read from the text of another: the same instant, with an offset. -/
def zoned (m : Moment) : Moment := ⟨m.nanos, some (m.offset.getD 0)⟩

theorem ofText_toIso {m : Moment} (hzone : IsZone (m.offset.getD 0))
    (hy : InYears m.localDate.year) : ofText m.toIso = .ok m.zoned := by
  have hdate : CivilDate.ofText m.date.text.toList = .ok m.localDate := by
    rw [date_eq_localDate hy]
    exact CivilDate.ofText_text hy m.isDate_localDate
  have hclock : ClockTime.ofText m.time.text.toList = .ok m.time :=
    ClockTime.ofText_text m.isTime_time
  have hblank : ∀ c ∈ m.toIso.toList, isBlank c = false :=
    m.not_mem_toIso digitFree_isBlank (by simp [isBlank])
  have htime : ∀ c ∈ m.time.text.toList, isBlank c = false :=
    m.time.not_mem_text digitFree_isBlank (by decide) (by decide)
  have hzoned : splitZone (trim (m.time.text.toList ++
      (offsetText (some (m.offset.getD 0))).toList)) =
        .ok (m.time.text.toList, some (m.offset.getD 0)) := by
    have hnoblank : ∀ c ∈ (offsetText (some (m.offset.getD 0))).toList, isBlank c = false :=
      not_mem_offsetText digitFree_isBlank (by simp [isBlank]) _
    rw [trim_eq_self (List.forall_mem_append.2 ⟨htime, hnoblank⟩)]
    exact splitZone_append htime m.time.utc_not_mem_text m.time.four_le_length_text hzone
  have hcut : cutFirst? (fun c => c == 'T' || c == ' ') m.toIso.toList =
      some (m.date.text.toList, m.time.text.toList ++
        (offsetText (some (m.offset.getD 0))).toList) := by
    have hsep : DigitFree fun c => c == 'T' || c == ' ' :=
      (digitFree_beq (by decide)).or (digitFree_beq (by decide))
    rw [toIso_eq]
    exact cutFirst?_append_cons (m.date.not_mem_text hsep (by decide)) (by decide)
  have hfields : ofFields m.localDate m.time (some (m.offset.getD 0)) = .ok m.zoned :=
    ofFields_eq_ok_iff.2 ⟨⟨hy, m.isDate_localDate, m.isTime_time⟩, rfl, rfl, rfl⟩
  simp only [ofText, trim_eq_self hblank, hcut, hdate, hzoned, hclock, bind, Except.bind]
  exact hfields

/-- The text of a moment is not that of a time of day: its first colon stands behind the date. -/
theorem isTimeOfDay_toIso (m : Moment) : isTimeOfDay m.toIso.toList = false := by
  have hcolon : DigitFree (· == ':') := digitFree_beq (by decide)
  have hdash := m.date.dash_mem_text
  have hsplit : ∃ rest, m.toIso.toList =
      (m.date.text.toList ++ 'T' :: (paddedDecimal 2 m.hour).toList) ++ ':' :: rest := by
    rw [toIso_eq, ClockTime.text, String.toList_append, ClockTime.toList_clockText]
    simp [time]
  obtain ⟨rest, hrest⟩ := hsplit
  have hbefore : ∀ c ∈ m.date.text.toList ++ 'T' :: (paddedDecimal 2 m.hour).toList,
      (c == ':') = false :=
    List.forall_mem_append.2 ⟨m.date.not_mem_text hcolon (by decide),
      List.forall_mem_cons.2 ⟨by decide, not_mem_paddedDecimal hcolon⟩⟩
  rw [isTimeOfDay, hrest, cutFirst?_append_cons hbefore (by decide)]
  simp [hdash]

/-- A date literal that spells the text of a moment is read as that text. -/
theorem ofTokens_toIso {m : Moment} {tokens : List DateToken}
    (h : String.join (tokens.map DateToken.text) = m.toIso) (now : Moment) :
    ofTokens tokens now = Diagnostic.lift .ofDate (ofText m.toIso) := by
  have hchars : (tokens.flatMap fun t => t.text.toList) = m.toIso.toList := by
    rw [← h, String.toList_join, List.flatMap_map]
  have hblank : ∀ c ∈ m.toIso.toList, isBlank c = false :=
    m.not_mem_toIso digitFree_isBlank (by simp [isBlank])
  have hne : m.toIso.toList.isEmpty = false := by
    rw [toIso_eq]
    simp
  simp only [ofTokens, hchars, trim_eq_self hblank, hne, isTimeOfDay_toIso, String.ofList_toList,
    Bool.false_eq_true, if_false]

/-- **A moment is read back from its ISO text.** Let the offset be whole minutes of less than a day,
or none. Then reading the text of the moment gives the same instant with the same offset, where no
offset is read as offset 0, if and only if the local year is supported; and so does every date
literal whose tokens spell that text, at every reading of the clock. -/
theorem iso_text_read_back (m : Moment) (hzone : ∀ seconds ∈ m.offset, IsZone seconds) :
    (InYears m.localDate.year ↔ ofText m.toIso = .ok ⟨m.nanos, some (m.offset.getD 0)⟩) ∧
    (InYears m.localDate.year → ∀ (tokens : List DateToken) (now : Moment),
      String.join (tokens.map DateToken.text) = m.toIso →
        ofTokens tokens now = .ok ⟨m.nanos, some (m.offset.getD 0)⟩) := by
  have hoffset : IsZone (m.offset.getD 0) := by
    cases h : m.offset with
    | none => exact ⟨Int.dvd_zero 60, by decide⟩
    | some seconds => exact hzone seconds h
  refine ⟨⟨ofText_toIso hoffset, inYears_of_ofText⟩, ?_⟩
  intro hy tokens now htokens
  rw [ofTokens_toIso htokens, ofText_toIso hoffset hy]
  rfl

/-- A moment before our era, half an hour behind UTC, with leading zeros in its fraction. -/
theorem iso_text_read_back_at_ides :
    (⟨-63549325499999930000, some (-1800)⟩ : Moment).toIso = "-044-03-15T09:05:00.00007-00:30" ∧
    (∀ seconds ∈ some (-1800 : Int), IsZone seconds) ∧
    InYears (⟨-63549325499999930000, some (-1800)⟩ : Moment).localDate.year ∧
    ofText (⟨-63549325499999930000, some (-1800)⟩ : Moment).toIso =
      .ok ⟨-63549325499999930000, some (-1800)⟩ ∧
    ofTokens [.dash, .number "044", .literal "-03-15T09:05", .colon, .number "00", .dot,
        .number "00007", .dash, .literal "00:30"] ⟨0, none⟩ =
      .ok ⟨-63549325499999930000, some (-1800)⟩ := by
  have hzone : ∀ seconds ∈ some (-1800 : Int), IsZone seconds := by
    intro seconds hseconds
    rw [← Option.some.inj hseconds]
    decide
  have hy : InYears (⟨-63549325499999930000, some (-1800)⟩ : Moment).localDate.year := by decide
  have htext : (⟨-63549325499999930000, some (-1800)⟩ : Moment).toIso =
      "-044-03-15T09:05:00.00007-00:30" := by decide +kernel
  obtain ⟨hread, hliteral⟩ := iso_text_read_back ⟨-63549325499999930000, some (-1800)⟩ hzone
  refine ⟨htext, hzone, hy, hread.1 hy, hliteral hy _ ⟨0, none⟩ ?_⟩
  rw [htext]
  decide

end Moment

end Reckoner
