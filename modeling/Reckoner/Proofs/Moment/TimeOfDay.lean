import Reckoner.Proofs.Moment.Iso

/-!
# Texts of times of day

The relation `TimeText cs t` describes the texts of times: hours and minutes, perhaps seconds, and
perhaps a fraction of a second with any number of digits, which is cut off to nanoseconds. Reading
accepts every such text (`ClockTime.timeText_iff`).

It accepts more. Of a fraction nine characters are counted, and what follows them is not looked at:

    ofText cs = .ok t ↔ TimeText (counted cs) t

So a text that is read is the text of a time exactly if only digits are left uncounted.
-/

namespace Reckoner

open Text Calendar

namespace ClockTime

variable {cs fs hs ms ss : List Char} {f hour minute second nanosecond n : Nat} {t : ClockTime}

/-! ## The grammar -/

/-- Hours and minutes, and perhaps seconds, which are 0 where there are none. -/
inductive FieldsText : List Char → (hour minute second : Nat) → Prop
  | minutes {hs ms : List Char} {hour minute : Nat} (hours_ne : hs ≠ []) (hours : Denotes hs hour)
      (minutes_ne : ms ≠ []) (minutes : Denotes ms minute) :
      FieldsText (hs ++ ':' :: ms) hour minute 0
  | seconds {hs ms ss : List Char} {hour minute second : Nat} (hours_ne : hs ≠ [])
      (hours : Denotes hs hour) (minutes_ne : ms ≠ []) (minutes : Denotes ms minute)
      (seconds_ne : ss ≠ []) (seconds : Denotes ss second) :
      FieldsText (hs ++ ':' :: (ms ++ ':' :: ss)) hour minute second

/-- The whole nanoseconds of the fraction `0.f` of a second with so many places. -/
def fractionNanos (f places : Nat) : Nat := f * 10 ^ 9 / 10 ^ places

/-- The texts of a time on the clock. A fraction may have any number of digits. -/
inductive TimeText : List Char → ClockTime → Prop
  | whole {cs : List Char} {hour minute second : Nat} (fields : FieldsText cs hour minute second)
      (time : IsTime ⟨hour, minute, second, 0⟩) : TimeText cs ⟨hour, minute, second, 0⟩
  | fraction {cs fs : List Char} {hour minute second f : Nat}
      (fields : FieldsText cs hour minute second) (digits : Denotes fs f)
      (time : IsTime ⟨hour, minute, second, fractionNanos f fs.length⟩) :
      TimeText (cs ++ '.' :: fs) ⟨hour, minute, second, fractionNanos f fs.length⟩

theorem FieldsText.forall_mem {p : Char → Bool} (hp : DigitFree p) (hcolon : p ':' = false)
    (h : FieldsText cs hour minute second) : ∀ c ∈ cs, p c = false := by
  cases h with
  | minutes hours_ne hours minutes_ne minutes =>
    exact List.forall_mem_append.2 ⟨hp.not_mem hours,
      List.forall_mem_cons.2 ⟨hcolon, hp.not_mem minutes⟩⟩
  | seconds hours_ne hours minutes_ne minutes seconds_ne seconds =>
    exact List.forall_mem_append.2 ⟨hp.not_mem hours, List.forall_mem_cons.2 ⟨hcolon,
      List.forall_mem_append.2 ⟨hp.not_mem minutes,
        List.forall_mem_cons.2 ⟨hcolon, hp.not_mem seconds⟩⟩⟩⟩

theorem cutFirst?_fields (h : FieldsText cs hour minute second) :
    cutFirst? (· == '.') cs = none ∧
      ∀ fs, cutFirst? (· == '.') (cs ++ '.' :: fs) = some (cs, fs) := by
  have hfree := h.forall_mem (p := (· == '.')) (digitFree_beq (by decide)) (by decide)
  exact ⟨cutFirst?_eq_none hfree, fun fs => cutFirst?_append_cons hfree (by decide)⟩

/-! ## Fractions -/

theorem fractionNanos_of_le {places : Nat} (h : places ≤ 9) (f : Nat) :
    fractionNanos f places = f * 10 ^ (9 - places) := by
  have hpow : 10 ^ 9 = 10 ^ (9 - places) * 10 ^ places := by
    rw [← Nat.pow_add, Nat.sub_add_cancel h]
  rw [fractionNanos, hpow, ← Nat.mul_assoc, Nat.mul_div_cancel _ (Nat.pow_pos (by decide))]

/-- Digits behind the ninth one do not count. -/
theorem fractionNanos_take (h : Denotes fs f) :
    ∃ g, Denotes (fs.take 9) g ∧
      fractionNanos g (fs.take 9).length = fractionNanos f fs.length := by
  by_cases hle : fs.length ≤ 9
  · rw [List.take_of_length_le hle]
    exact ⟨f, h, rfl⟩
  · rw [← List.take_append_drop 9 fs] at h
    have hlength : (fs.take 9).length = 9 := by
      rw [List.length_take]
      omega
    have hsum : fs.length = 9 + (fs.drop 9).length := by
      rw [List.length_drop]
      omega
    refine ⟨_, h.split.1, ?_⟩
    rw [hlength, hsum, fractionNanos, fractionNanos, Nat.pow_add, Nat.mul_comm f,
      Nat.mul_div_mul_left _ _ (by decide), Nat.mul_div_cancel _ (by decide)]

/-- A fraction is read from its first nine characters. -/
theorem readFraction_eq_ok_iff :
    readFraction fs = .ok n ↔
      ∃ f, Denotes (fs.take 9) f ∧ n = fractionNanos f (fs.take 9).length := by
  have hle : (fs.take 9).length ≤ 9 := List.length_take_le 9 fs
  have hlength : (padEnd '0' 9 (fs.take 9)).length = 9 := by
    rw [padEnd, List.length_append, List.length_replicate]
    omega
  have hne : padEnd '0' 9 (fs.take 9) ≠ [] := List.ne_nil_of_length_pos (by omega)
  have hlt (h : Denotes (padEnd '0' 9 (fs.take 9)) n) : n < 2 ^ 32 := by
    have := h.lt_pow_length
    rw [hlength] at this
    omega
  rw [readFraction, readField_eq_ok_iff, and_iff_right hne, and_iff_left_of_imp hlt, padEnd,
    Denotes.append_zeros_iff]
  simp only [fractionNanos_of_le hle]

/-! ## Fields -/

/-- Hours, minutes and perhaps seconds are the parts between colons. -/
theorem fieldsText_iff :
    FieldsText cs hour minute second ↔
      ∃ hs ms, (hs ≠ [] ∧ Denotes hs hour) ∧ (ms ≠ [] ∧ Denotes ms minute) ∧
        (splitAll (· == ':') cs = [hs, ms] ∧ second = 0 ∨
          ∃ ss, splitAll (· == ':') cs = [hs, ms, ss] ∧ ss ≠ [] ∧ Denotes ss second) := by
  have hcolon : DigitFree (· == ':') := digitFree_beq (by decide)
  have hjoin := intercalate_splitAll ':' cs
  constructor
  · intro h
    cases h with
    | @minutes hs ms _ _ hours_ne hours minutes_ne minutes =>
      refine ⟨hs, ms, ⟨hours_ne, hours⟩, ⟨minutes_ne, minutes⟩, .inl ⟨?_, rfl⟩⟩
      rw [splitAll_append_cons (hcolon.not_mem hours) (by decide),
        splitAll_eq_singleton (hcolon.not_mem minutes)]
    | @seconds hs ms ss _ _ _ hours_ne hours minutes_ne minutes seconds_ne seconds =>
      refine ⟨hs, ms, ⟨hours_ne, hours⟩, ⟨minutes_ne, minutes⟩, .inr ⟨ss, ?_, seconds_ne, seconds⟩⟩
      rw [splitAll_append_cons (hcolon.not_mem hours) (by decide),
        splitAll_append_cons (hcolon.not_mem minutes) (by decide),
        splitAll_eq_singleton (hcolon.not_mem seconds)]
  · rintro ⟨hs, ms, ⟨hours_ne, hours⟩, ⟨minutes_ne, minutes⟩,
      ⟨hparts, rfl⟩ | ⟨ss, hparts, seconds_ne, seconds⟩⟩
    · simp only [hparts, List.intercalate_cons_cons, List.intercalate_singleton, List.append_assoc,
        List.singleton_append] at hjoin
      subst hjoin
      exact .minutes hours_ne hours minutes_ne minutes
    · simp only [hparts, List.intercalate_cons_cons, List.intercalate_singleton, List.append_assoc,
        List.singleton_append] at hjoin
      subst hjoin
      exact .seconds hours_ne hours minutes_ne minutes seconds_ne seconds

/-- The time of the parts between colons; the error shows the whole text. -/
def ofParts (text : List Char) (nanosecond : Nat) : List (List Char) → Except DateError ClockTime
  | [h, m] => do
    let hour ← readField "hour" (2 ^ 32) h
    let minute ← readField "minute" (2 ^ 32) m
    let t : ClockTime := ⟨hour, minute, 0, nanosecond⟩
    checkTime t
    return t
  | [h, m, s] => do
    let hour ← readField "hour" (2 ^ 32) h
    let minute ← readField "minute" (2 ^ 32) m
    let second ← readField "second" (2 ^ 32) s
    let t : ClockTime := ⟨hour, minute, second, nanosecond⟩
    checkTime t
    return t
  | _ => .error (.malformed ("Expected HH:MM[:SS], got '" ++ String.ofList text ++ "'"))

theorem ofText_of_cut_none (h : cutFirst? (· == '.') cs = none) :
    ofText cs = ofParts cs 0 (splitAll (· == ':') cs) := by
  unfold ofText
  rw [h]
  rfl

theorem ofText_of_cut_some {clock : List Char} (h : cutFirst? (· == '.') cs = some (clock, fs)) :
    ofText cs = readFraction fs >>= fun n => ofParts cs n (splitAll (· == ':') clock) := by
  unfold ofText
  rw [h]
  rfl

/-- What is read from the parts. A field that is on the clock is below the limit of all fields. -/
theorem ofParts_eq_ok_iff {text clock : List Char} :
    ofParts text nanosecond (splitAll (· == ':') clock) = .ok t ↔
      FieldsText clock t.hour t.minute t.second ∧ t.nanosecond = nanosecond ∧ IsTime t := by
  rw [fieldsText_iff]
  constructor
  · intro h
    unfold ofParts at h
    split at h
    · next hs ms hparts =>
      simp only [bind_eq_ok_iff, pure_eq_ok_iff, readField_eq_ok_iff] at h
      obtain ⟨hour, ⟨hhour, -⟩, minute, ⟨hminute, -⟩, _, htime, rfl⟩ := h
      exact ⟨⟨hs, ms, hhour, hminute, .inl ⟨hparts, rfl⟩⟩, rfl, checkTime_eq_ok.1 htime⟩
    · next hs ms ss hparts =>
      simp only [bind_eq_ok_iff, pure_eq_ok_iff, readField_eq_ok_iff] at h
      obtain ⟨hour, ⟨hhour, -⟩, minute, ⟨hminute, -⟩, second, ⟨hsecond, -⟩, _, htime, rfl⟩ := h
      exact ⟨⟨hs, ms, hhour, hminute, .inr ⟨ss, hparts, hsecond⟩⟩, rfl, checkTime_eq_ok.1 htime⟩
    · cases h
  · obtain ⟨hour, minute, second, nanos⟩ := t
    rintro ⟨⟨hs, ms, hhour, hminute, hsecond⟩, rfl, htime⟩
    have hfield (what : String) {part : List Char} {n : Nat} (hpart : part ≠ [] ∧ Denotes part n)
        (hn : n < 60) : readField what (2 ^ 32) part = .ok n :=
      readField_eq_ok_iff.2 ⟨hpart, Nat.lt_trans hn (by decide)⟩
    have hreadHour := hfield "hour" hhour (Nat.lt_trans htime.hour_lt (by decide))
    have hreadMinute := hfield "minute" hminute htime.minute_lt
    have hcheck := checkTime_eq_ok.2 htime
    rcases hsecond with ⟨hparts, rfl⟩ | ⟨ss, hparts, hss⟩
    · simp only [hparts, ofParts, hreadHour, hreadMinute, ok_bind, hcheck]
      rfl
    · have hreadSecond := hfield "second" hss htime.second_lt
      simp only [hparts, ofParts, hreadHour, hreadMinute, hreadSecond, ok_bind, hcheck]
      rfl

/-! ## Reading -/

theorem timeText_of_cut_none (h : cutFirst? (· == '.') cs = none) :
    TimeText cs t ↔ FieldsText cs t.hour t.minute t.second ∧ t.nanosecond = 0 ∧ IsTime t := by
  constructor
  · intro htext
    cases htext with
    | whole fields time => exact ⟨fields, rfl, time⟩
    | fraction fields digits time =>
      rw [(cutFirst?_fields fields).2] at h
      cases h
  · obtain ⟨hour, minute, second, nanos⟩ := t
    rintro ⟨fields, rfl, time⟩
    exact .whole fields time

theorem timeText_of_cut_some {clock : List Char} (h : cutFirst? (· == '.') cs = some (clock, fs)) :
    TimeText cs t ↔ ∃ f, Denotes fs f ∧ FieldsText clock t.hour t.minute t.second ∧
      t.nanosecond = fractionNanos f fs.length ∧ IsTime t := by
  constructor
  · intro htext
    cases htext with
    | whole fields time =>
      rw [(cutFirst?_fields fields).1] at h
      cases h
    | fraction fields digits time =>
      rw [(cutFirst?_fields fields).2] at h
      obtain ⟨rfl, rfl⟩ := Prod.mk.inj (Option.some.inj h)
      exact ⟨_, digits, fields, rfl, time⟩
  · obtain ⟨hour, minute, second, nanos⟩ := t
    rintro ⟨f, digits, fields, rfl, time⟩
    obtain ⟨point, hpoint, rfl, -⟩ := append_of_cutFirst? h
    obtain rfl : point = '.' := by simpa using hpoint
    exact .fraction fields digits time

/-- What counts of a text: of a fraction the first nine characters. -/
def counted (cs : List Char) : List Char :=
  match cutFirst? (· == '.') cs with
  | some (clock, fs) => clock ++ '.' :: fs.take 9
  | none => cs

/-- What follows the ninth character of a fraction. -/
def uncounted (cs : List Char) : List Char :=
  match cutFirst? (· == '.') cs with
  | some (_, fs) => fs.drop 9
  | none => []

theorem counted_append_uncounted (cs : List Char) : counted cs ++ uncounted cs = cs := by
  unfold counted uncounted
  cases h : cutFirst? (· == '.') cs with
  | none => exact List.append_nil cs
  | some parts =>
    obtain ⟨clock, fs⟩ := parts
    obtain ⟨point, hpoint, rfl, -⟩ := append_of_cutFirst? h
    obtain rfl : point = '.' := by simpa using hpoint
    simp

/-- A text is read as its counted part. -/
theorem ofText_eq_ok_iff : ofText cs = .ok t ↔ TimeText (counted cs) t := by
  unfold counted
  cases h : cutFirst? (· == '.') cs with
  | none => rw [ofText_of_cut_none h, ofParts_eq_ok_iff, ← timeText_of_cut_none h]
  | some parts =>
    obtain ⟨clock, fs⟩ := parts
    obtain ⟨-, -, -, hclock⟩ := append_of_cutFirst? h
    have hcut : cutFirst? (· == '.') (clock ++ '.' :: fs.take 9) = some (clock, fs.take 9) :=
      cutFirst?_append_cons hclock (by decide)
    simp only [ofText_of_cut_some h, bind_eq_ok_iff, readFraction_eq_ok_iff, ofParts_eq_ok_iff,
      timeText_of_cut_some hcut]
    constructor
    · rintro ⟨n, ⟨f, hf, rfl⟩, hrest⟩
      exact ⟨f, hf, hrest⟩
    · rintro ⟨f, hf, hrest⟩
      exact ⟨_, ⟨f, hf, rfl⟩, hrest⟩

/-- The texts of times are read, and of the texts that are read they are those whose uncounted part
is of digits. -/
theorem timeText_iff :
    TimeText cs t ↔ ofText cs = .ok t ∧ ∀ c ∈ uncounted cs, c.isDigit = true := by
  rw [ofText_eq_ok_iff]
  unfold counted uncounted
  cases h : cutFirst? (· == '.') cs with
  | none => simp
  | some parts =>
    obtain ⟨clock, fs⟩ := parts
    obtain ⟨-, -, -, hclock⟩ := append_of_cutFirst? h
    have hcut : cutFirst? (· == '.') (clock ++ '.' :: fs.take 9) = some (clock, fs.take 9) :=
      cutFirst?_append_cons hclock (by decide)
    simp only [timeText_of_cut_some h, timeText_of_cut_some hcut]
    constructor
    · rintro ⟨f, hf, hfields, hnanos, htime⟩
      obtain ⟨g, hg, heq⟩ := fractionNanos_take hf
      exact ⟨⟨g, hg, hfields, hnanos.trans heq.symm, htime⟩,
        fun c hc => hf.isDigit c (List.mem_of_mem_drop hc)⟩
    · rintro ⟨⟨g, hg, hfields, hnanos, htime⟩, hdrop⟩
      have hdigits : ∀ c ∈ fs, c.isDigit = true := by
        rw [← List.take_append_drop 9 fs]
        exact List.forall_mem_append.2 ⟨hg.isDigit, hdrop⟩
      have hf : Denotes fs (digitsValue fs) := ⟨hdigits, rfl⟩
      obtain ⟨g', hg', heq⟩ := fractionNanos_take hf
      obtain rfl : g = g' := hg.value.symm.trans hg'.value
      exact ⟨_, hf, hfields, hnanos.trans heq, htime⟩

/-- **What is read as a time of day.** A text is cut behind the ninth character of its fraction, and
it is read if what is left is the text of a time. So the text itself is that of the time if nothing
but digits was cut off, and it is not if anything else was. -/
theorem timeText_of_ofText (cs : List Char) (t : ClockTime) :
    counted cs ++ uncounted cs = cs ∧
    (ofText cs = .ok t ↔ TimeText (counted cs) t) ∧
    (TimeText cs t ↔ ofText cs = .ok t ∧ ∀ c ∈ uncounted cs, c.isDigit = true) :=
  ⟨counted_append_uncounted cs, ofText_eq_ok_iff, timeText_iff⟩

/-- Letters behind the ninth digit of a fraction are passed over. -/
theorem letters_after_nanoseconds :
    ofText "12:30:00.123456789abc".toList = .ok ⟨12, 30, 0, 123456789⟩ ∧
    ∀ t, ¬ TimeText "12:30:00.123456789abc".toList t := by
  refine ⟨rfl, fun t htext => ?_⟩
  have hdigit := (timeText_iff.1 htext).2 'a' (by decide)
  exact absurd hdigit (by decide)

end ClockTime

end Reckoner
