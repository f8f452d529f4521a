import Reckoner.Text.Blank

/-!
# Cutting texts

Cutting a text at characters of a class: at the first, at the last, at all of them. Each cut drops
the character it is made at, and joining the parts around it gives the text back
(`append_of_cutFirst?`).
-/

namespace Reckoner.Text

/-- The parts before and after the first character of a class; `none` if there is no such
character. -/
def cutFirst? (p : Char → Bool) (cs : List Char) : Option (List Char × List Char) :=
  match cs.dropWhile (fun c => !p c) with
  | [] => none
  | _ :: after => some (cs.takeWhile (fun c => !p c), after)

/-- The parts before and after the last character of a class, with that character. -/
def cutLast? (p : Char → Bool) (cs : List Char) : Option (List Char × Char × List Char) :=
  let back := cs.reverse
  match back.dropWhile (fun c => !p c) with
  | [] => none
  | c :: before => some (before.reverse, c, (back.takeWhile (fun c => !p c)).reverse)

/-- All parts between the characters of a class; there is one part more than cuts. -/
def splitAll (p : Char → Bool) : List Char → List (List Char)
  | [] => [[]]
  | c :: cs =>
    if p c then [] :: splitAll p cs
    else
      match splitAll p cs with
      | [] => [[c]]
      | part :: parts => (c :: part) :: parts

/-- The maximal runs of characters that are not blank. -/
def words (cs : List Char) : List (List Char) :=
  (splitAll isBlank cs).filter (fun w => !w.isEmpty)

/-- What follows `head` in a text that begins with it. -/
def dropHead? (head : String) (cs : List Char) : Option (List Char) :=
  head.toList.isPrefixOf? cs

/-- What precedes `last` in a text that ends with it. -/
def dropLast? (last : String) (cs : List Char) : Option (List Char) :=
  last.toList.isSuffixOf? cs

/-- Replaces every occurrence of a nonempty pattern, from left to right and without overlap; `skip`
counts the characters of an occurrence that is already replaced. -/
def replaceAllFrom (pattern new : List Char) : (skip : Nat) → List Char → List Char
  | _, [] => []
  | skip + 1, _ :: cs => replaceAllFrom pattern new skip cs
  | 0, c :: cs =>
    if pattern.isPrefixOf (c :: cs) then
      new ++ replaceAllFrom pattern new (pattern.length - 1) cs
    else c :: replaceAllFrom pattern new 0 cs

def replaceAll (pattern new : String) (cs : List Char) : List Char :=
  replaceAllFrom pattern.toList new.toList 0 cs

/-- Whether one text occurs in another. -/
def occursIn (part : List Char) : List Char → Bool
  | [] => part.isEmpty
  | c :: cs => part.isPrefixOf (c :: cs) || occursIn part cs

/-- Fills a text up to a width on its left. -/
def padStart (fill : Char) (width : Nat) (cs : List Char) : List Char :=
  List.replicate (width - cs.length) fill ++ cs

/-- Fills a text up to a width on its right. -/
def padEnd (fill : Char) (width : Nat) (cs : List Char) : List Char :=
  cs ++ List.replicate (width - cs.length) fill

theorem append_of_cutFirst? {p : Char → Bool} {cs before after : List Char}
    (h : cutFirst? p cs = some (before, after)) :
    ∃ c, p c = true ∧ cs = before ++ c :: after ∧ ∀ x ∈ before, p x = false := by
  unfold cutFirst? at h
  split at h
  · simp at h
  · next c rest hd =>
    obtain ⟨rfl, rfl⟩ := Prod.mk.inj (Option.some.inj h)
    refine ⟨c, ?_, ?_, ?_⟩
    · have hne : cs.dropWhile (fun c => !p c) ≠ [] := by simp [hd]
      simpa [hd] using List.head_dropWhile_not (fun c => !p c) hne
    · rw [← hd, List.takeWhile_append_dropWhile]
    · intro x hx
      simpa using List.all_eq_true.1 List.all_takeWhile x hx

theorem splitAll_ne_nil (p : Char → Bool) (cs : List Char) : splitAll p cs ≠ [] := by
  cases cs with
  | nil => simp [splitAll]
  | cons c cs =>
    rw [splitAll]
    split
    · simp
    · split <;> simp

end Reckoner.Text
