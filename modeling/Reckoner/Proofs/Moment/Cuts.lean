import Reckoner.Expr.Eval
import Reckoner.Function.Dates
import Reckoner.Proofs.Result
import Reckoner.Proofs.Text.Split

/-!
# Where the text of a moment is cut

A reader that works on bytes finds a separator by its position and cuts the text there and one byte
behind. Such a cut has no result outside the text or inside a character (`cutAt`). Around the
separators of dates and zones this does not happen: reading by positions is reading by characters
(`ofTextAt_eq`), since every separator is a character of one byte.

One cut is made at a fixed position, in the middle of a zone offset of four bytes, and this one can
fall inside a character. `Straddles` says which texts have such an offset, and no other text ends
the reading without a result or an error (`ofText_splits_iff`).
-/

namespace Reckoner

namespace Text

variable {p : Char → Bool} {before after cs : List Char} {c : Char}

/-! ## Positions in bytes -/

/-- The number of bytes in front of the first character of a class. -/
def firstPosition? (p : Char → Bool) : List Char → Option Nat
  | [] => none
  | c :: cs => if p c then some 0 else (firstPosition? p cs).map (c.utf8Size + ·)

/-- The number of bytes in front of the last character of a class. -/
def lastPosition? (p : Char → Bool) : List Char → Option Nat
  | [] => none
  | c :: cs =>
    match lastPosition? p cs with
    | some n => some (c.utf8Size + n)
    | none => if p c then some 0 else none

@[simp] theorem byteLength_nil : byteLength [] = 0 := rfl

@[simp] theorem byteLength_cons (c : Char) (cs : List Char) :
    byteLength (c :: cs) = c.utf8Size + byteLength cs := rfl

theorem firstPosition?_append_cons (hbefore : ∀ x ∈ before, p x = false) (hc : p c = true) :
    firstPosition? p (before ++ c :: after) = some (byteLength before) := by
  induction before with
  | nil => simp [firstPosition?, hc]
  | cons d before ih =>
    obtain ⟨hd, hbefore⟩ := List.forall_mem_cons.1 hbefore
    simp [firstPosition?, hd, ih hbefore]

theorem firstPosition?_eq_none (h : ∀ x ∈ cs, p x = false) : firstPosition? p cs = none := by
  induction cs with
  | nil => rfl
  | cons c cs ih =>
    obtain ⟨hc, hcs⟩ := List.forall_mem_cons.1 h
    simp [firstPosition?, hc, ih hcs]

theorem lastPosition?_eq_none (h : ∀ x ∈ cs, p x = false) : lastPosition? p cs = none := by
  induction cs with
  | nil => rfl
  | cons c cs ih =>
    obtain ⟨hc, hcs⟩ := List.forall_mem_cons.1 h
    simp [lastPosition?, hc, ih hcs]

theorem lastPosition?_append_cons (hafter : ∀ x ∈ after, p x = false) (hc : p c = true) :
    lastPosition? p (before ++ c :: after) = some (byteLength before) := by
  induction before with
  | nil => simp [lastPosition?, hc, lastPosition?_eq_none hafter]
  | cons d before ih => simp [lastPosition?, ih]

/-- A text is split behind the bytes of its front. -/
theorem splitBytes?_append (front back : List Char) :
    splitBytes? (byteLength front) (front ++ back) = some (front, back) := by
  induction front with
  | nil => cases back <;> rfl
  | cons c front ih =>
    have hpos := c.utf8Size_pos
    obtain ⟨n, hn⟩ : ∃ n, byteLength (c :: front) = n + 1 :=
      ⟨c.utf8Size + byteLength front - 1, by rw [byteLength_cons]; omega⟩
    rw [hn, List.cons_append, splitBytes?]
    rw [byteLength_cons] at hn
    rw [if_pos (by omega), ← hn, Nat.add_sub_cancel_left, ih]
    rfl

end Text

/-! ## Reading by positions -/

/-- Cuts a text in front of a byte; outside the text and inside a character there is no cut. -/
def cutAt (n : Nat) (cs : List Char) : Except DateError (List Char × List Char) :=
  match splitBytes? n cs with
  | some parts => .ok parts
  | none => .error .splitCharacter

/-- `splitZone`, with the sign found by its position and cut off before and behind it. -/
def splitZoneAt (cs : List Char) : Except DateError (List Char × Option Int) :=
  match Text.dropLast? "Z" cs with
  | some clock => .ok (Text.trimEnd clock, some 0)
  | none =>
    match Text.lastPosition? (fun c => c == '+' || c == '-') cs with
    | none => .ok (cs, none)
    | some position =>
      if position < 4 then .ok (cs, none)
      else do
        let (clock, signed) ← cutAt position cs
        let (_, offset) ← cutAt (position + 1) cs
        let seconds : Int ← readOffset offset
        return (Text.trimEnd clock, some (if signed.head? = some '-' then -seconds else seconds))

/-- `Moment.ofText`, with the separator found by its position and cut off before and behind it. -/
def Moment.ofTextAt (text : String) : Except DateError Moment := do
  let cs := Text.trim text.toList
  match Text.firstPosition? (fun c => c == 'T' || c == ' ') cs with
  | none => Moment.ofDate (← CivilDate.ofText cs)
  | some position => do
    let (date, _) ← cutAt position cs
    let (_, time) ← cutAt (position + 1) cs
    let d ← CivilDate.ofText date
    let (clock, offset) ← splitZoneAt (Text.trim time)
    let t ← ClockTime.ofText clock
    Moment.ofFields d t offset

theorem cutAt_front (front back : List Char) :
    cutAt (Text.byteLength front) (front ++ back) = .ok (front, back) := by
  rw [cutAt, Text.splitBytes?_append]

/-- Behind a separator of one byte the text is cut as well. -/
theorem cutAt_separator (front back : List Char) {c : Char} (hc : c.utf8Size = 1) :
    cutAt (Text.byteLength front + 1) (front ++ c :: back) = .ok (front ++ [c], back) := by
  have hlength : Text.byteLength front + 1 = Text.byteLength (front ++ [c]) := by
    induction front with
    | nil => simp [hc]
    | cons d front ih => simp [← ih, Nat.add_assoc]
  have hsplit : front ++ c :: back = (front ++ [c]) ++ back := by simp
  rw [hlength, hsplit, cutAt_front]

theorem utf8Size_of_sign {c : Char} (h : (c == '+' || c == '-') = true) : c.utf8Size = 1 := by
  rw [Bool.or_eq_true, beq_iff_eq, beq_iff_eq] at h
  rcases h with rfl | rfl <;> rfl

theorem utf8Size_of_separator {c : Char} (h : (c == 'T' || c == ' ') = true) : c.utf8Size = 1 := by
  rw [Bool.or_eq_true, beq_iff_eq, beq_iff_eq] at h
  rcases h with rfl | rfl <;> rfl

theorem splitZoneAt_eq (cs : List Char) : splitZoneAt cs = splitZone cs := by
  unfold splitZoneAt splitZone
  cases hzulu : Text.dropLast? "Z" cs with
  | some clock => rfl
  | none =>
    cases hcut : Text.cutLast? (fun c => c == '+' || c == '-') cs with
    | none => simp only [Text.lastPosition?_eq_none (Text.cutLast?_eq_none hcut)]
    | some parts =>
      obtain ⟨clock, sign, offset⟩ := parts
      obtain ⟨hsign, rfl, hoffset⟩ := Text.append_of_cutLast? hcut
      simp only [Text.lastPosition?_append_cons hoffset hsign, cutAt_front,
        cutAt_separator _ _ (utf8Size_of_sign hsign), ok_bind, List.head?_cons, Option.some.injEq]

/-- **Reading by positions is reading by characters.** -/
theorem Moment.ofTextAt_eq (text : String) : Moment.ofTextAt text = Moment.ofText text := by
  unfold Moment.ofTextAt Moment.ofText
  generalize Text.trim text.toList = cs
  simp only
  cases hcut : Text.cutFirst? (fun c => c == 'T' || c == ' ') cs with
  | none =>
    simp only [Text.firstPosition?_eq_none (Text.cutFirst?_eq_none_iff.1 hcut)]
  | some parts =>
    obtain ⟨date, time⟩ := parts
    obtain ⟨c, hc, rfl, hdate⟩ := Text.append_of_cutFirst? hcut
    simp only [Text.firstPosition?_append_cons hdate hc, cutAt_front,
      cutAt_separator _ _ (utf8Size_of_separator hc), ok_bind, splitZoneAt_eq]

/-! ## The cut in the middle of an offset -/

/-- Four bytes with a character across the middle: one, two or three characters. -/
def IsStraddled (cs : List Char) : Prop :=
  cs.map Char.utf8Size ∈ [[1, 2, 1], [1, 3], [3, 1], [4]]

theorem eq_nil_of_byteLength {cs : List Char} (h : Text.byteLength cs = 0) : cs = [] := by
  cases cs with
  | nil => rfl
  | cons c cs =>
    have hpos := c.utf8Size_pos
    rw [Text.byteLength_cons] at h
    omega

theorem map_utf8Size_of_byteLength {cs : List Char} (h : Text.byteLength cs = 1) :
    cs.map Char.utf8Size = [1] := by
  cases cs with
  | nil => cases h
  | cons c cs =>
    have hpos := c.utf8Size_pos
    rw [Text.byteLength_cons] at h
    obtain rfl : cs = [] := eq_nil_of_byteLength (by omega)
    rw [Text.byteLength_nil] at h
    rw [List.map_singleton, List.cons_eq_cons]
    exact ⟨h, rfl⟩

/-- A text of four bytes cannot be cut in the middle if a character lies across. -/
theorem splitBytes?_two_eq_none_iff {cs : List Char} (h : Text.byteLength cs = 4) :
    splitBytes? 2 cs = none ↔ IsStraddled cs := by
  unfold IsStraddled
  cases cs with
  | nil => cases h
  | cons c cs =>
    rw [Text.byteLength_cons] at h
    rcases c.utf8Size_eq with hc | hc | hc | hc
    · cases cs with
      | nil =>
        rw [Text.byteLength_nil] at h
        omega
      | cons d cs =>
        rw [Text.byteLength_cons] at h
        rcases d.utf8Size_eq with hd | hd | hd | hd
        · simp [splitBytes?, hc, hd]
        · have hcs : cs.map Char.utf8Size = [1] := map_utf8Size_of_byteLength (by omega)
          simp [splitBytes?, hc, hd, hcs]
        · obtain rfl : cs = [] := eq_nil_of_byteLength (by omega)
          simp [splitBytes?, hc, hd]
        · omega
    · simp [splitBytes?, hc]
    · have hcs : cs.map Char.utf8Size = [1] := map_utf8Size_of_byteLength (by omega)
      simp [splitBytes?, hc, hcs]
    · obtain rfl : cs = [] := eq_nil_of_byteLength (by omega)
      simp [splitBytes?, hc]

theorem byteLength_eq_foldr (cs : List Char) :
    Text.byteLength cs = (cs.map Char.utf8Size).foldr (· + ·) 0 := by
  induction cs with
  | nil => rfl
  | cons c cs ih => rw [Text.byteLength_cons, ih, List.map_cons, List.foldr_cons]

theorem IsStraddled.byteLength {cs : List Char} (h : IsStraddled cs) : Text.byteLength cs = 4 := by
  rw [byteLength_eq_foldr]
  simp only [IsStraddled, List.mem_cons, List.not_mem_nil, or_false] at h
  rcases h with h | h | h | h <;> rw [h] <;> rfl

/-- An offset without a colon is cut in its middle. -/
theorem splitOffset_splits_iff {cs : List Char} :
    splitOffset cs = .error .splitCharacter ↔ ':' ∉ cs ∧ IsStraddled cs := by
  unfold splitOffset
  cases hcut : Text.cutFirst? (· == ':') cs with
  | some parts =>
    obtain ⟨c, hc, rfl, -⟩ := Text.append_of_cutFirst? hcut
    obtain rfl := beq_iff_eq.1 hc
    simp
  | none =>
    have hcolon : ':' ∉ cs := fun hmem => by
      simpa using Text.cutFirst?_eq_none_iff.1 hcut ':' hmem
    simp only [hcolon, not_false_eq_true, true_and]
    by_cases hlength : Text.byteLength cs = 4
    · rw [if_pos hlength, ← splitBytes?_two_eq_none_iff hlength]
      cases splitBytes? 2 cs <;> simp
    · rw [if_neg hlength]
      exact iff_of_false nofun fun h => hlength h.byteLength

/-! ## Everything else that is read -/

/-- A computation that does not fail for a cut inside a character. -/
structure NeverSplits {α : Type} (x : Except DateError α) : Prop where
  ne : x ≠ .error .splitCharacter

section

variable {α β : Type} {x : Except DateError α} {f : α → Except DateError β}

theorem neverSplits_ok (a : α) : NeverSplits (.ok a) := ⟨nofun⟩

theorem neverSplits_pure (a : α) : NeverSplits (pure a) := neverSplits_ok a

theorem neverSplits_bind (hx : NeverSplits x) (hf : ∀ a, NeverSplits (f a)) :
    NeverSplits (x >>= f) where
  ne h := by
    rcases bind_eq_error_iff.1 h with h | ⟨a, -, h⟩
    · exact hx.ne h
    · exact (hf a).ne h

theorem neverSplits_malformed (details : String) :
    NeverSplits (.error (.malformed details) : Except DateError α) := ⟨nofun⟩

/-- If only the first step can fail for such a cut, the sequence fails for it when that step does. -/
theorem bind_splits_iff (hf : ∀ a, NeverSplits (f a)) :
    (x >>= f) = .error .splitCharacter ↔ x = .error .splitCharacter := by
  rw [bind_eq_error_iff, or_iff_left]
  rintro ⟨a, -, h⟩
  exact (hf a).ne h

end

theorem neverSplits_readField (what : String) (limit : Nat) (cs : List Char) :
    NeverSplits (readField what limit cs) := by
  unfold readField
  split
  · split
    · exact neverSplits_ok _
    · exact neverSplits_malformed _
  · exact neverSplits_malformed _

theorem neverSplits_checkTime (t : ClockTime) : NeverSplits (Calendar.checkTime t) := by
  unfold Calendar.checkTime
  repeat' split
  all_goals exact ⟨nofun⟩

theorem neverSplits_checkDate (d : CivilDate) : NeverSplits (Calendar.checkDate d) := by
  unfold Calendar.checkDate
  repeat' split
  all_goals exact ⟨nofun⟩

theorem neverSplits_civilDate (cs : List Char) : NeverSplits (CivilDate.ofText cs) := by
  unfold CivilDate.ofText
  simp only
  split
  · refine neverSplits_bind (neverSplits_readField ..) fun year => ?_
    refine neverSplits_bind (neverSplits_readField ..) fun month => ?_
    exact neverSplits_bind (neverSplits_readField ..) fun day => neverSplits_ok _
  · exact neverSplits_malformed _

theorem neverSplits_clockTime (cs : List Char) : NeverSplits (ClockTime.ofText cs) := by
  have hfields : ∀ (h m : List Char) (second : Except DateError Nat) (nanosecond : Nat),
      NeverSplits second → NeverSplits (do
        let hour ← readField "hour" (2 ^ 32) h
        let minute ← readField "minute" (2 ^ 32) m
        let second ← second
        let t : ClockTime := ⟨hour, minute, second, nanosecond⟩
        Calendar.checkTime t
        return t) := by
    intro h m second nanosecond hsecond
    refine neverSplits_bind (neverSplits_readField ..) fun hour => ?_
    refine neverSplits_bind (neverSplits_readField ..) fun minute => ?_
    refine neverSplits_bind hsecond fun second => ?_
    exact neverSplits_bind (neverSplits_checkTime _) fun _ => neverSplits_ok _
  unfold ClockTime.ofText
  simp only
  split
  · refine neverSplits_bind (neverSplits_readField ..) fun nanosecond => ?_
    refine neverSplits_bind (neverSplits_ok _) fun parts => ?_
    split
    · exact hfields _ _ (.ok 0) _ (neverSplits_ok 0)
    · exact hfields _ _ (readField ..) _ (neverSplits_readField ..)
    · exact neverSplits_malformed _
  · refine neverSplits_bind (neverSplits_ok _) fun parts => ?_
    split
    · exact hfields _ _ (.ok 0) _ (neverSplits_ok 0)
    · exact hfields _ _ (readField ..) _ (neverSplits_readField ..)
    · exact neverSplits_malformed _

theorem neverSplits_ofFields (d : CivilDate) (t : ClockTime) (offset : Option Int) :
    NeverSplits (Moment.ofFields d t offset) :=
  neverSplits_bind (neverSplits_checkDate d) fun _ =>
    neverSplits_bind (neverSplits_checkTime t) fun _ => neverSplits_ok _

theorem readOffset_splits_iff {cs : List Char} :
    readOffset cs = .error .splitCharacter ↔ ':' ∉ cs ∧ IsStraddled cs := by
  rw [← splitOffset_splits_iff]
  apply bind_splits_iff
  intro parts
  refine neverSplits_bind (neverSplits_readField ..) fun hours => ?_
  refine neverSplits_bind (neverSplits_readField ..) fun minutes => ?_
  split
  · exact neverSplits_malformed _
  · exact neverSplits_ok _

/-! ## Zones and moments -/

/-- A time with an offset behind its last sign that is cut inside a character. -/
structure StraddledZone (cs clock : List Char) (sign : Char) (offset : List Char) : Prop where
  split : cs = clock ++ sign :: offset
  sign : sign = '+' ∨ sign = '-'
  later : 4 ≤ Text.byteLength clock
  plain : ∀ c ∈ offset, c ≠ '+' ∧ c ≠ '-' ∧ c ≠ ':'
  zulu : offset.getLast? ≠ some 'Z'
  straddled : IsStraddled offset

theorem splitZone_splits_iff {cs : List Char} :
    splitZone cs = .error .splitCharacter ↔
      ∃ clock sign offset, StraddledZone cs clock sign offset := by
  constructor
  · intro h
    unfold splitZone at h
    cases hzulu : Text.dropLast? "Z" cs with
    | some clock =>
      rw [hzulu] at h
      cases h
    | none =>
      rw [hzulu] at h
      cases hcut : Text.cutLast? (fun c => c == '+' || c == '-') cs with
      | none =>
        rw [hcut] at h
        cases h
      | some parts =>
        obtain ⟨clock, sign, offset⟩ := parts
        obtain ⟨hsign, hsplit, hoffset⟩ := Text.append_of_cutLast? hcut
        rw [hcut] at h
        simp only at h
        split at h
        · cases h
        · next hlater =>
          rw [bind_splits_iff fun _ => neverSplits_pure _, bind_splits_iff fun _ => neverSplits_pure _,
            readOffset_splits_iff] at h
          refine ⟨clock, sign, offset, hsplit, by simpa using hsign, by omega, ?_, ?_, h.2⟩
          · intro c hc
            have hplain := hoffset c hc
            simp only [Bool.or_eq_false_iff, beq_eq_false_iff_ne] at hplain
            exact ⟨hplain.1, hplain.2, fun hcolon => h.1 (hcolon ▸ hc)⟩
          · intro hlast
            obtain ⟨front, rfl⟩ := List.getLast?_eq_some_iff.1 hlast
            have hzulu' : Text.dropLast? "Z" cs = some (clock ++ sign :: front) := by
              rw [Text.dropLast?_eq_some_iff, hsplit]
              simp
            rw [hzulu] at hzulu'
            cases hzulu'
  · rintro ⟨clock, sign, offset, rfl, hsign, hlater, hplain, hzulu, hstraddled⟩
    have hdrop : Text.dropLast? "Z" (clock ++ sign :: offset) = none := by
      by_contra hsome
      obtain ⟨front, hfront⟩ := Option.ne_none_iff_exists'.1 hsome
      rw [Text.dropLast?_eq_some_iff] at hfront
      have hne : offset ≠ [] := by
        rintro rfl
        exact absurd hstraddled.byteLength (by decide)
      apply hzulu
      have hlast := congrArg List.getLast? hfront
      rw [List.getLast?_append_of_ne_nil _ (List.cons_ne_nil _ _),
        List.getLast?_cons_of_ne_nil hne] at hlast
      rw [hlast]
      simp
    have hoffset : ∀ c ∈ offset, (c == '+' || c == '-') = false := by
      intro c hc
      simp [hplain c hc]
    have hcut : Text.cutLast? (fun c => c == '+' || c == '-') (clock ++ sign :: offset) =
        some (clock, sign, offset) := Text.cutLast?_append_cons hoffset (by simpa using hsign)
    unfold splitZone
    simp only [hdrop, hcut, if_neg (Nat.not_lt.2 hlater)]
    rw [bind_splits_iff fun _ => neverSplits_pure _, bind_splits_iff fun _ => neverSplits_pure _,
      readOffset_splits_iff]
    exact ⟨fun hcolon => (hplain _ hcolon).2.2 rfl, hstraddled⟩

namespace Moment

/-- A readable date, and behind it a time whose offset is cut inside a character. -/
inductive Straddles (text : String) : Prop where
  | intro {date time clock offset : List Char} {sign : Char} {d : CivilDate}
    (cut : Text.cutFirst? (fun c => c == 'T' || c == ' ') (Text.trim text.toList) =
      some (date, time))
    (readable : CivilDate.ofText date = .ok d)
    (zone : StraddledZone (Text.trim time) clock sign offset)

/-- **Nothing but such an offset is cut inside a character.** -/
theorem ofText_splits_iff (text : String) :
    ofText text = .error .splitCharacter ↔ Straddles text := by
  unfold ofText
  simp only
  cases hcut : Text.cutFirst? (fun c => c == 'T' || c == ' ') (Text.trim text.toList) with
  | none =>
    simp only
    have hdate : ∀ d, NeverSplits (ofDate d) := fun d => neverSplits_ofFields d _ _
    rw [bind_splits_iff hdate]
    refine iff_of_false (neverSplits_civilDate _).ne fun h => ?_
    obtain ⟨hcut', -, -⟩ := h
    rw [hcut] at hcut'
    cases hcut'
  | some parts =>
    obtain ⟨date, time⟩ := parts
    simp only
    rw [bind_eq_error_iff, or_iff_right (neverSplits_civilDate date).ne]
    have hzone : ∀ d, (do
        let (clock, offset) ← splitZone (Text.trim time)
        let t ← ClockTime.ofText clock
        ofFields d t offset) = .error .splitCharacter ↔
        ∃ clock sign offset, StraddledZone (Text.trim time) clock sign offset := by
      intro d
      rw [bind_splits_iff, splitZone_splits_iff]
      intro zone
      exact neverSplits_bind (neverSplits_clockTime _) fun t => neverSplits_ofFields d t _
    constructor
    · rintro ⟨d, hd, h⟩
      obtain ⟨clock, sign, offset, h⟩ := (hzone d).1 h
      exact .intro hcut hd h
    · rintro ⟨hcut', hd, h⟩
      rw [hcut] at hcut'
      cases hcut'
      exact ⟨_, hd, (hzone _).2 ⟨_, _, _, h⟩⟩

theorem neverSplits_ofTimeOfDay (cs : List Char) (now : Moment) :
    NeverSplits (ofTimeOfDay cs now) := by
  have hatTime : ∀ (m : Moment) (t : ClockTime), NeverSplits (m.atTime t) :=
    fun m t => neverSplits_bind (neverSplits_checkTime t) fun _ => neverSplits_ok _
  unfold ofTimeOfDay
  split
  · exact neverSplits_bind (neverSplits_clockTime _) fun t => hatTime _ t
  · exact neverSplits_bind (neverSplits_clockTime _) fun t => hatTime _ t

end Moment

/-! ## Values -/

theorem isAbort_ofDate_iff {e : DateError} :
    (Diagnostic.ofDate e).isAbort ↔ e = .splitCharacter := by
  cases e with
  | splitCharacter => exact iff_of_true rfl rfl
  | month | day | hour | minute | second | nanosecond | malformed | outOfRange | notADuration =>
    exact iff_of_false nofun nofun

/-- The value of a computed moment is none at all if the computation ends inside a character. -/
theorem isAbort_moment_iff {x : Except DateError Moment} :
    (Value.ofExcept ((Diagnostic.lift .ofDate x).map .moment)).isAbort ↔
      x = .error .splitCharacter := by
  cases x with
  | ok m => exact iff_of_false nofun nofun
  | error e => exact isAbort_ofDate_iff.trans (by simp)

/-- An error found at the end of a node is an answer, and a mark on one leaves its severity alone. -/
theorem isAbort_finish (v : Value) (kind : String) (s : Settings) :
    (v.finish kind s).isAbort = v.isAbort := by
  cases v with
  | quantity q =>
    simp only [Value.finish]
    cases q.value.checkRange s with
    | ok _ => rfl
    | error e => cases e <;> rfl
  | error d => rfl
  | moment m => rfl
  | text t => rfl
  | bool b => rfl

/-- A date literal has no value only if the text of its tokens, which is not a time of day, straddles
a cut. -/
theorem isAbort_dateLiteral_iff (l : Library) (env : Environment) (tokens : List DateToken) :
    ((Expr.date tokens).eval l env).isAbort ↔
      isTimeOfDay (Text.trim (tokens.flatMap fun t => t.text.toList)) = false ∧
        Moment.Straddles (String.ofList (Text.trim (tokens.flatMap fun t => t.text.toList))) := by
  rw [Expr.eval, Expr.evalAt, if_neg (Nat.not_lt_zero _), isAbort_finish]
  simp only [Moment.ofTokens]
  generalize Text.trim (tokens.flatMap fun t => t.text.toList) = cs
  by_cases hempty : cs.isEmpty
  · rw [if_pos hempty]
    obtain rfl := List.isEmpty_iff.1 hempty
    refine iff_of_false nofun ?_
    rintro ⟨-, h⟩
    rw [← Moment.ofText_splits_iff] at h
    exact absurd h (by decide)
  · rw [if_neg hempty, isAbort_moment_iff]
    cases htime : isTimeOfDay cs with
    | true =>
      simp only [↓reduceIte, Bool.true_eq_false, false_and, iff_false]
      exact (Moment.neverSplits_ofTimeOfDay cs env.now).ne
    | false =>
      simp only [Bool.false_eq_true, ↓reduceIte, true_and]
      exact Moment.ofText_splits_iff _

/-- `parse_date` has no value only if its argument is a text that straddles a cut. -/
theorem isAbort_parseDate_iff (env : Environment) (args : List Value) :
    (Function.parseDate.run env args).isAbort ↔
      ∃ text, args[0]? = some (.text text) ∧ Moment.Straddles text := by
  simp only [Function.parseDate, Function.define, Call.text, Call.argAs, Call.arg]
  cases args[0]? with
  | none => exact iff_of_false nofun nofun
  | some v =>
    cases v with
    | text text =>
      have hrun : (Value.ofExcept do
          return .moment (← Diagnostic.lift .ofDate (Moment.ofText text))).isAbort ↔
          Moment.Straddles text := isAbort_moment_iff.trans (Moment.ofText_splits_iff text)
      refine hrun.trans ?_
      simp
    | quantity | moment | bool | error =>
      refine iff_of_false nofun ?_
      rintro ⟨text, htext, -⟩
      cases htext

/-- **Only an offset that is cut inside a character leaves a date without an answer.** Every other
cut of a reading in bytes is one between two characters, and the reading is then the same as one by
characters; of a date literal and of `parse_date` there is a value unless the text straddles the
middle of an offset. -/
theorem date_without_answer_iff (l : Library) (env : Environment) (text : String)
    (tokens : List DateToken) (args : List Value) :
    Moment.ofTextAt text = Moment.ofText text ∧
    (Moment.ofText text = .error .splitCharacter ↔ Moment.Straddles text) ∧
    (((Expr.date tokens).eval l env).isAbort ↔
      isTimeOfDay (Text.trim (tokens.flatMap fun t => t.text.toList)) = false ∧
        Moment.Straddles (String.ofList (Text.trim (tokens.flatMap fun t => t.text.toList)))) ∧
    ((Function.parseDate.run env args).isAbort ↔
      ∃ text, args[0]? = some (.text text) ∧ Moment.Straddles text) := by
  refine ⟨Moment.ofTextAt_eq text, Moment.ofText_splits_iff text, ?_, ?_⟩
  · exact isAbort_dateLiteral_iff l env tokens
  · exact isAbort_parseDate_iff env args

/-- The offset `1é0` has four bytes, and the second character lies across the middle. -/
theorem date_without_answer_at_accent :
    Moment.ofText "2025-06-15T12:00+1é0" = .error .splitCharacter ∧
    (∀ l env, ((Expr.date [.literal "2025-06-15T12:00+1é0"]).eval l env).isAbort) ∧
    ∀ env, (Function.parseDate.run env [.text "2025-06-15T12:00+1é0"]).isAbort := by
  have hsplits : Moment.ofText "2025-06-15T12:00+1é0" = .error .splitCharacter := by
    decide +kernel
  have hstraddles := (Moment.ofText_splits_iff _).1 hsplits
  refine ⟨hsplits, ?_, ?_⟩
  · intro l env
    exact (isAbort_dateLiteral_iff l env _).2 ⟨by decide +kernel, hstraddles⟩
  · intro env
    exact (isAbort_parseDate_iff env _).2 ⟨_, rfl, hstraddles⟩

end Reckoner
