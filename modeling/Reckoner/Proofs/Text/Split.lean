import Reckoner.Text.Split
import Mathlib.Data.List.Basic
import Mathlib.Data.List.TakeWhile

/-!
# Joined texts are cut where they were joined

A text that is put together from parts and separators is cut into these parts again, provided no
part has a separator of its own: at the first separator, at the last one, or at all of them.

Likewise trimming leaves a text alone that has no blanks, and filling up restores what was dropped
from its end.
-/

namespace Reckoner.Text

variable {p : Char → Bool} {before after part cs ds : List Char} {c : Char}

theorem cutFirst?_append_cons (hbefore : ∀ x ∈ before, p x = false) (hc : p c = true) :
    cutFirst? p (before ++ c :: after) = some (before, after) := by
  have hskip : ∀ x ∈ before, (!p x) = true := by simpa using hbefore
  unfold cutFirst?
  rw [List.dropWhile_append_of_pos hskip, List.takeWhile_append_of_pos hskip]
  simp [hc]

theorem cutFirst?_eq_none (h : ∀ x ∈ cs, p x = false) : cutFirst? p cs = none := by
  have hskip : ∀ x ∈ cs, (!p x) = true := by simpa using h
  unfold cutFirst?
  rw [List.dropWhile_eq_nil_iff.2 hskip]

theorem cutFirst?_eq_none_iff : cutFirst? p cs = none ↔ ∀ x ∈ cs, p x = false := by
  refine ⟨fun h => ?_, cutFirst?_eq_none⟩
  unfold cutFirst? at h
  split at h
  · next hnil => simpa using List.dropWhile_eq_nil_iff.1 hnil
  · cases h

theorem cutLast?_append_cons (hafter : ∀ x ∈ after, p x = false) (hc : p c = true) :
    cutLast? p (before ++ c :: after) = some (before, c, after) := by
  have hskip : ∀ x ∈ after.reverse, (!p x) = true := by simpa using hafter
  unfold cutLast?
  simp only [List.reverse_append, List.reverse_cons, List.append_assoc, List.singleton_append]
  rw [List.dropWhile_append_of_pos hskip, List.takeWhile_append_of_pos hskip]
  simp [hc]

/-- Joining the parts around the last character of a class gives the text back. -/
theorem append_of_cutLast? (h : cutLast? p cs = some (before, c, after)) :
    p c = true ∧ cs = before ++ c :: after ∧ ∀ x ∈ after, p x = false := by
  unfold cutLast? at h
  simp only at h
  split at h
  · cases h
  · next d rest hd =>
    simp only [Option.some.injEq, Prod.mk.injEq] at h
    obtain ⟨rfl, rfl, rfl⟩ := h
    refine ⟨?_, ?_, fun x hx => ?_⟩
    · have hne : cs.reverse.dropWhile (fun c => !p c) ≠ [] := by simp [hd]
      simpa [hd] using List.head_dropWhile_not (fun c => !p c) hne
    · have hsplit : cs.reverse = cs.reverse.takeWhile (fun c => !p c) ++ d :: rest := by
        rw [← hd, List.takeWhile_append_dropWhile]
      simpa using congrArg List.reverse hsplit
    · simpa using List.all_eq_true.1 List.all_takeWhile x (List.mem_reverse.1 hx)

theorem cutLast?_eq_none (h : cutLast? p cs = none) : ∀ x ∈ cs, p x = false := by
  unfold cutLast? at h
  simp only at h
  split at h
  · next hnil => simpa using List.dropWhile_eq_nil_iff.1 hnil
  · cases h

theorem splitAll_eq_singleton (h : ∀ x ∈ part, p x = false) : splitAll p part = [part] := by
  induction part with
  | nil => rfl
  | cons c part ih =>
    obtain ⟨hc, hpart⟩ := List.forall_mem_cons.1 h
    simp [splitAll, hc, ih hpart]

theorem splitAll_append_cons (h : ∀ x ∈ part, p x = false) (hc : p c = true) :
    splitAll p (part ++ c :: cs) = part :: splitAll p cs := by
  induction part with
  | nil => simp [splitAll, hc]
  | cons d part ih =>
    obtain ⟨hd, hpart⟩ := List.forall_mem_cons.1 h
    rw [List.cons_append, splitAll, ih hpart]
    simp [hd]

/-- Parts joined by a separator are these parts again when the text is split. -/
theorem splitAll_intercalate {parts : List (List Char)} (hc : p c = true) (hne : parts ≠ [])
    (h : ∀ part ∈ parts, ∀ x ∈ part, p x = false) :
    splitAll p ([c].intercalate parts) = parts := by
  induction parts with
  | nil => exact absurd rfl hne
  | cons part rest ih =>
    obtain ⟨hpart, hrest⟩ := List.forall_mem_cons.1 h
    cases rest with
    | nil => rw [List.intercalate_singleton, splitAll_eq_singleton hpart]
    | cons next rest =>
      rw [List.intercalate_cons_cons, List.append_assoc, List.singleton_append,
        splitAll_append_cons hpart hc, ih (List.cons_ne_nil _ _) hrest]

/-- Joining the parts of a text gives the text back. -/
theorem intercalate_splitAll (c : Char) (cs : List Char) :
    [c].intercalate (splitAll (· == c) cs) = cs := by
  induction cs with
  | nil => rfl
  | cons d cs ih =>
    obtain ⟨part, parts, hparts⟩ := List.exists_cons_of_ne_nil (splitAll_ne_nil (· == c) cs)
    rw [hparts] at ih
    unfold splitAll
    split
    · next hd =>
      obtain rfl : d = c := by simpa using hd
      rw [hparts, List.intercalate_cons_cons, ih]
      rfl
    · rw [hparts, ← ih]
      cases parts <;> rfl

/-- A joined text has the characters of its parts and separators. -/
theorem forall_mem_intercalate {q : Char → Prop} {parts : List (List Char)} (hc : q c)
    (h : ∀ part ∈ parts, ∀ x ∈ part, q x) : ∀ x ∈ [c].intercalate parts, q x := by
  induction parts with
  | nil => simp
  | cons part rest ih =>
    obtain ⟨hpart, hrest⟩ := List.forall_mem_cons.1 h
    cases rest with
    | nil => rwa [List.intercalate_singleton]
    | cons next rest =>
      rw [List.intercalate_cons_cons, List.append_assoc, List.singleton_append,
        List.forall_mem_append, List.forall_mem_cons]
      exact ⟨hpart, hc, ih hrest⟩

theorem mem_intercalate {sep part : List Char} {parts : List (List Char)} {x : Char}
    (hpart : part ∈ parts) (hx : x ∈ part) : x ∈ sep.intercalate parts := by
  induction parts with
  | nil => cases hpart
  | cons first rest ih =>
    cases rest with
    | nil =>
      obtain rfl := List.mem_singleton.1 hpart
      rwa [List.intercalate_singleton]
    | cons next rest =>
      rw [List.intercalate_cons_cons]
      rcases List.mem_cons.1 hpart with rfl | hpart
      · exact List.mem_append_left _ (List.mem_append_left _ hx)
      · exact List.mem_append_right _ (ih hpart)

/-- A text without the first character of a pattern has no occurrence of it to replace. -/
theorem replaceAll_eq_self {pattern new : String} (hc : pattern.toList.head? = some c)
    (hcs : c ∉ cs) : replaceAll pattern new cs = cs := by
  unfold replaceAll
  obtain ⟨rest, hpattern⟩ := List.head?_eq_some_iff.1 hc
  rw [hpattern]
  induction cs with
  | nil => rfl
  | cons d cs ih =>
    obtain ⟨hd, hcs⟩ := List.ne_and_not_mem_of_not_mem_cons hcs
    rw [replaceAllFrom, List.isPrefixOf, beq_false_of_ne hd, Bool.false_and,
      if_neg Bool.false_ne_true, ih hcs]

/-! ## Ends of texts -/

theorem dropLast?_append (last : String) (cs : List Char) :
    dropLast? last (cs ++ last.toList) = some cs :=
  List.isSuffixOf?_eq_some_iff_append_eq.2 rfl

theorem dropLast?_eq_none {last : String} (hlast : c ∈ last.toList) (hcs : c ∉ cs) :
    dropLast? last cs = none := by
  cases h : dropLast? last cs with
  | none => rfl
  | some front =>
    have hsplit : front ++ last.toList = cs := List.isSuffixOf?_eq_some_iff_append_eq.1 h
    exact absurd (hsplit ▸ List.mem_append_right front hlast) hcs

theorem dropLast?_eq_some_iff {last : String} {front : List Char} :
    dropLast? last cs = some front ↔ cs = front ++ last.toList :=
  List.isSuffixOf?_eq_some_iff_append_eq.trans eq_comm

theorem dropEndWhile_append_of_pos (h : ∀ x ∈ ds, p x = true) :
    dropEndWhile p (cs ++ ds) = dropEndWhile p cs := by
  have hskip : ∀ x ∈ ds.reverse, p x = true := by simpa using h
  unfold dropEndWhile
  rw [List.reverse_append, List.dropWhile_append_of_pos hskip]

theorem dropEndWhile_eq_self (h : ∀ x ∈ cs, p x = false) : dropEndWhile p cs = cs := by
  have hreverse : ∀ x ∈ cs.reverse, p x = false := by simpa using h
  have hkeep : cs.reverse.dropWhile p = cs.reverse :=
    List.dropWhile_eq_self_iff.2 fun _ => by simp [hreverse]
  rw [dropEndWhile, hkeep, List.reverse_reverse]

theorem dropEndWhile_sublist (p : Char → Bool) (cs : List Char) :
    (dropEndWhile p cs).Sublist cs := by
  have h := (List.dropWhile_sublist p (l := cs.reverse)).reverse
  rwa [List.reverse_reverse] at h

theorem trim_sublist (cs : List Char) : (trim cs).Sublist cs :=
  (dropEndWhile_sublist isBlank _).trans (List.dropWhile_sublist _)

theorem trim_eq_self (h : ∀ x ∈ cs, isBlank x = false) : trim cs = cs := by
  have hstart : trimStart cs = cs := List.dropWhile_eq_self_iff.2 fun _ => by simp [h]
  rw [trim, hstart]
  exact dropEndWhile_eq_self h

/-- Filling up to the old length restores what was dropped. -/
theorem padEnd_dropEndWhile (fill : Char) (cs : List Char) :
    padEnd fill cs.length (dropEndWhile (· == fill) cs) = cs := by
  have hrun : cs.reverse.takeWhile (· == fill) =
      List.replicate (cs.reverse.takeWhile (· == fill)).length fill :=
    List.eq_replicate_of_mem fun c hc => by
      simpa using List.all_eq_true.1 List.all_takeWhile c hc
  have hsplit : cs.reverse.takeWhile (· == fill) ++ cs.reverse.dropWhile (· == fill) =
      cs.reverse := List.takeWhile_append_dropWhile
  have hlength : (cs.reverse.takeWhile (· == fill)).length +
      (cs.reverse.dropWhile (· == fill)).length = cs.length := by
    rw [← List.length_append, hsplit, List.length_reverse]
  unfold padEnd dropEndWhile
  rw [List.length_reverse, ← hlength, Nat.add_sub_cancel_right, ← List.reverse_replicate, ← hrun,
    ← List.reverse_append, hsplit, List.reverse_reverse]

/-! ## Blanks around a text -/

/-- A text with blanks around it. -/
inductive Padded : (cs ds : List Char) → Prop
  | intro (front ds back : List Char) (front_blank : ∀ c ∈ front, isBlank c = true)
      (back_blank : ∀ c ∈ back, isBlank c = true) : Padded (front ++ ds ++ back) ds

theorem padded_trim (cs : List Char) : Padded cs (trim cs) := by
  have hstart : cs.takeWhile isBlank ++ trimStart cs = cs := List.takeWhile_append_dropWhile
  have hend : trim cs ++ ((trimStart cs).reverse.takeWhile isBlank).reverse = trimStart cs := by
    rw [trim, trimEnd, dropEndWhile, ← List.reverse_append, List.takeWhile_append_dropWhile,
      List.reverse_reverse]
  have hfront : ∀ c ∈ cs.takeWhile isBlank, isBlank c = true :=
    List.all_eq_true.1 List.all_takeWhile
  have hback : ∀ c ∈ ((trimStart cs).reverse.takeWhile isBlank).reverse, isBlank c = true :=
    fun c hc => List.all_eq_true.1 List.all_takeWhile c (List.mem_reverse.1 hc)
  have hpadded := Padded.intro _ (trim cs) _ hfront hback
  rwa [List.append_assoc, hend, hstart] at hpadded

namespace Padded

theorem refl (cs : List Char) : Padded cs cs := by
  simpa using intro [] cs [] (by simp) (by simp)

/-- A class without blanks meets no character of the padding. -/
theorem forall_mem (h : Padded cs ds) (hp : ∀ c, isBlank c = true → p c = false)
    (hds : ∀ c ∈ ds, p c = false) : ∀ c ∈ cs, p c = false := by
  cases h with
  | intro front _ back front_blank back_blank =>
    refine List.forall_mem_append.2 ⟨List.forall_mem_append.2 ⟨?_, hds⟩, ?_⟩
    · exact fun c hc => hp c (front_blank c hc)
    · exact fun c hc => hp c (back_blank c hc)

/-- Blanks around a text do not outlast trimming. -/
theorem trim_eq (h : Padded cs ds) : trim cs = trim ds := by
  cases h with
  | intro front _ back front_blank back_blank =>
    have hback : trimStart back = [] := List.dropWhile_eq_nil_iff.2 back_blank
    have hstart : trimStart (front ++ ds ++ back) = trimStart (ds ++ back) := by
      rw [List.append_assoc]
      exact List.dropWhile_append_of_pos front_blank
    rw [trim, hstart, trim]
    by_cases hds : trimStart ds = []
    · have hnil : trimStart (ds ++ back) = [] := by
        rw [trimStart, List.dropWhile_append_of_pos (List.dropWhile_eq_nil_iff.1 hds)]
        exact hback
      rw [hnil, hds]
    · have happend : trimStart (ds ++ back) = trimStart ds ++ back := by
        rw [trimStart, List.dropWhile_append, if_neg (by simpa [trimStart] using hds)]
        rfl
      rw [happend]
      exact dropEndWhile_append_of_pos back_blank

end Padded

/-- A text that begins and ends with other characters than blanks is not trimmed. -/
theorem trim_append_append {mid : List Char} (hcs : cs ≠ []) (hds : ds ≠ [])
    (hcs' : ∀ x ∈ cs, isBlank x = false) (hds' : ∀ x ∈ ds, isBlank x = false) :
    trim (cs ++ mid ++ ds) = cs ++ mid ++ ds := by
  obtain ⟨first, cs, rfl⟩ := List.exists_cons_of_ne_nil hcs
  obtain ⟨ds, last, rfl⟩ := (List.eq_nil_or_concat' ds).resolve_left hds
  have hfirst : isBlank first = false := hcs' first (.head _)
  have hlast : isBlank last = false := hds' last (by simp)
  have hstart : trimStart (first :: cs ++ mid ++ (ds ++ [last])) =
      first :: cs ++ mid ++ (ds ++ [last]) := List.dropWhile_cons_of_neg (by simp [hfirst])
  rw [trim, hstart, ← List.append_assoc]
  exact dropEndWhile_append_of_neg hlast

end Reckoner.Text
