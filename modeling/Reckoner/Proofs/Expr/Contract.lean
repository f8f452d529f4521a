import Mathlib.Data.List.Sort
import Reckoner.Proofs.Expr.Congruence
import Reckoner.Proofs.Unit.Spelling

/-!
# What evaluation shows a function

A tree reaches functions through its calls and through properties that are no part of a value, and
the values of functions become arguments of others. On each of these ways a function is given
evaluated arguments without errors, as many as it takes. What it does with any other arguments is
out of reach: two tables of functions that differ in nothing else give every tree the same value
(`eval_within_contract`).
-/

namespace Reckoner

/-! ## Names that are suggested -/

/-- The order in which similar names are suggested: by score, the highest first, then by name. -/
def ratedBefore (a b : Nat × String) : Bool := b.1 < a.1 || (a.1 == b.1 && a.2 ≤ b.2)

theorem ratedBefore_iff {a b : Nat × String} :
    ratedBefore a b ↔ b.1 < a.1 ∨ a.1 = b.1 ∧ a.2 ≤ b.2 := by
  simp [ratedBefore]

theorem ratedBefore_trans (a b c : Nat × String) (hab : ratedBefore a b)
    (hbc : ratedBefore b c) : ratedBefore a c := by
  rw [ratedBefore_iff] at *
  rcases hab with hab | ⟨hab, hnames⟩
  · exact .inl (by omega)
  · rcases hbc with hbc | ⟨hbc, hnames'⟩
    · exact .inl (by omega)
    · exact .inr ⟨hab.trans hbc, String.le_trans hnames hnames'⟩

theorem ratedBefore_total (a b : Nat × String) : ratedBefore a b || ratedBefore b a := by
  rw [Bool.or_eq_true, ratedBefore_iff, ratedBefore_iff]
  rcases Nat.lt_trichotomy a.1 b.1 with hlt | heq | hgt
  · exact .inr (.inl hlt)
  · rcases String.le_total a.2 b.2 with hnames | hnames
    · exact .inl (.inr ⟨heq, hnames⟩)
    · exact .inr (.inr ⟨heq.symm, hnames⟩)
  · exact .inl (.inl hgt)

theorem ratedBefore_antisymm {a b : Nat × String} (hab : ratedBefore a b)
    (hba : ratedBefore b a) : a = b := by
  rw [ratedBefore_iff] at hab hba
  rcases hab with hab | ⟨hscores, hab⟩
  · omega
  · rcases hba with hba | ⟨-, hba⟩
    · omega
    · exact Prod.ext hscores (String.le_antisymm hab hba)

/-- The suggestions do not depend on the order of the table. -/
theorem Library.similarNames_of_perm {l l' : Library}
    (h : (l'.functions.map Prod.fst).Perm (l.functions.map Prod.fst)) (name : String) :
    l'.similarNames name = l.similarNames name := by
  let rated : List String → List (Nat × String) := fun names =>
    (names.map fun known =>
      (Text.similarity (Text.lower name.toList) known.toList, known)).filter fun r =>
        minSimilarity ≤ r.1
  have hrated : ∀ l : Library, l.similarNames name =
      ((rated (l.functions.map Prod.fst)).mergeSort ratedBefore).map (·.2) := by
    intro l
    simp only [rated, List.map_map]
    rfl
  have hperm : (rated (l'.functions.map Prod.fst)).Perm (rated (l.functions.map Prod.fst)) :=
    (h.map _).filter _
  rw [hrated, hrated]
  apply congrArg
  apply List.Perm.eq_of_pairwise (fun _ _ _ _ => ratedBefore_antisymm)
    (List.pairwise_mergeSort ratedBefore_trans ratedBefore_total _)
    (List.pairwise_mergeSort ratedBefore_trans ratedBefore_total _)
  exact (List.mergeSort_perm _ _).trans (hperm.trans (List.mergeSort_perm _ _).symm)

/-! ## Tables of functions -/

/-- Two tables of functions differ at most in what their functions do, in an environment, with
arguments that they are not declared to take. -/
structure SameContract (env : Environment) (functions functions' : List (String × Function)) :
    Prop where
  names : (functions'.map Prod.fst).Perm (functions.map Prod.fst)
  info : ∀ name,
    (functions'.lookup name).map Function.info = (functions.lookup name).map Function.info
  run : ∀ name f f', functions.lookup name = some f → functions'.lookup name = some f' →
    ∀ args, (∀ v ∈ args, v.isError = false) → f.info.Admits args.length →
      f'.run env args = f.run env args

theorem FunctionInfo.admits_of_checkArity {f : FunctionInfo} {count : Nat} {u : PUnit}
    (h : f.checkArity count = .ok u) : f.Admits count := by
  unfold checkArity at h
  split at h
  · assumption
  · cases h

namespace SameContract

variable {env : Environment} {functions functions' : List (String × Function)}
  {constants : List (String × Constant)} (h : SameContract env functions functions')

include h

/-- A call checks the contract of the function before it runs it. -/
theorem call_eq (name : String) {args : List Value} (hargs : ∀ v ∈ args, v.isError = false) :
    Library.call ⟨functions', constants⟩ env name args =
      Library.call ⟨functions, constants⟩ env name args := by
  have hinfo := h.info (Text.lowercase name)
  have hsimilar : Library.similarNames ⟨functions', constants⟩ name =
      Library.similarNames ⟨functions, constants⟩ name := Library.similarNames_of_perm h.names name
  unfold Library.call Library.function?
  cases hf : functions.lookup (Text.lowercase name) with
  | none =>
    rw [hf, Option.map_none, Option.map_eq_none_iff] at hinfo
    simp only [hinfo, Library.unknownFunction, hsimilar]
  | some f =>
    rw [hf] at hinfo
    obtain ⟨f', hf', hinfo⟩ := Option.map_eq_some_iff.1 hinfo
    simp only [hf', hinfo]
    cases harity : f.info.checkArity args.length with
    | error d => rfl
    | ok u =>
      exact h.run _ f f' hf hf' args hargs (FunctionInfo.admits_of_checkArity harity)

theorem agree : Agree ⟨functions, constants⟩ env ⟨functions', constants⟩ env where
  settings := rfl
  now := rfl
  constant _ := rfl
  known name := by
    have hinfo := congrArg Option.isSome (h.info (Text.lowercase name))
    rwa [Option.isSome_map, Option.isSome_map] at hinfo
  call name _ hargs := h.call_eq name hargs

end SameContract

/-- A function with another behaviour for arguments that it is not declared to take. -/
def Function.withOutside (outside : FunctionInfo → Environment → List Value → Value)
    (f : Function) : Function where
  info := f.info
  run env args :=
    if f.info.Admits args.length ∧ ∀ v ∈ args, v.isError = false then f.run env args
    else outside f.info env args

/-- A library whose functions have another behaviour for arguments that they are not declared to
take. -/
def Library.withOutside (outside : FunctionInfo → Environment → List Value → Value)
    (l : Library) : Library :=
  { l with functions := l.functions.map fun p => (p.1, p.2.withOutside outside) }

theorem lookup_map_snd {α β : Type} (f : α → β) (name : String) (table : List (String × α)) :
    (table.map fun p => (p.1, f p.2)).lookup name = (table.lookup name).map f := by
  induction table with
  | nil => rfl
  | cons p table ih =>
    rw [List.map_cons, List.lookup_cons, List.lookup_cons, ih]
    split <;> rfl

theorem sameContract_withOutside (outside : FunctionInfo → Environment → List Value → Value)
    (env : Environment) (l : Library) :
    SameContract env l.functions (l.withOutside outside).functions where
  names := by
    rw [Library.withOutside, List.map_map]
    exact .refl _
  info name := by
    rw [Library.withOutside, lookup_map_snd, Option.map_map]
    rfl
  run name f f' hf hf' args hargs hadmits := by
    rw [Library.withOutside, lookup_map_snd, hf] at hf'
    cases hf'
    exact if_pos ⟨hadmits, hargs⟩

namespace Expr

/-- Contexts that agree and allow the same depth give a tree the same value. -/
theorem evalAt_eq_of_agree_of_maxDepth {l l' : Library} {env env' : Environment}
    (h : Agree l env l' env') (hdepth : env'.settings.maxDepth = env.settings.maxDepth)
    (depth : Nat) (e : Expr) : e.evalAt l' env' depth = e.evalAt l env depth := by
  induction e using child_induction generalizing depth with
  | node e ih =>
    by_cases hdeep : env.settings.maxDepth < depth
    · rw [evalAt.eq_def, evalAt.eq_def l env, hdepth, if_pos hdeep, if_pos hdeep]
    · apply evalAt_congr h (Nat.not_lt.1 hdeep) (hdepth ▸ Nat.not_lt.1 hdeep)
      rintro step child rfl -
      exact ih step child rfl (depth + 1)

/-- **Functions see evaluated arguments without errors only, as many as they take.** Two tables of
functions with the same names and descriptions, whose functions agree on such arguments, give every
tree the same value, whatever they do with others. In particular any behaviour at all can be put in
there. -/
theorem eval_within_contract :
    (∀ env functions functions' constants, SameContract env functions functions' → ∀ e : Expr,
      e.eval ⟨functions', constants⟩ env = e.eval ⟨functions, constants⟩ env) ∧
    (∀ l outside env (e : Expr), e.eval (l.withOutside outside) env = e.eval l env) := by
  have hsame : ∀ env functions functions' constants, SameContract env functions functions' →
      ∀ e : Expr, e.eval ⟨functions', constants⟩ env = e.eval ⟨functions, constants⟩ env :=
    fun env functions functions' constants h e =>
      evalAt_eq_of_agree_of_maxDepth h.agree rfl 0 e
  refine ⟨hsame, fun l outside env e => ?_⟩
  exact hsame env l.functions _ l.constants (sameContract_withOutside outside env l) e

/-- A function that returns its only argument, and one that in addition has an answer where there is
none, or an error: no tree can tell them apart. -/
theorem eval_within_contract_of_first :
    let info : FunctionInfo := ⟨"first", "", "first(x)", [⟨"x", "Any", "", none⟩], "Any", [], "", []⟩
    let first : Function := ⟨info, fun _ args => args.headD (.text "")⟩
    let first' : Function := ⟨info, fun env args =>
      if args.any Value.isError then .bool true else if args = [] then .bool false
      else first.run env args⟩
    let env : Environment := ⟨{}, default⟩
    let nested : Expr := .call "First" [.property "first" (.int 5)]
    SameContract env [("first", first)] [("first", first')] ∧
      first'.run env [] ≠ first.run env [] ∧
      nested.eval ⟨[("first", first')], []⟩ env = nested.eval ⟨[("first", first)], []⟩ env ∧
      nested.eval ⟨[("first", first)], []⟩ env = .number (.ofInt 5) ∧
      nested.eval (standardLibrary.withOutside fun _ _ _ => .bool true) env =
        nested.eval standardLibrary env := by
  intro info first first' env nested
  have hsame : SameContract env [("first", first)] [("first", first')] := by
    refine ⟨.refl _, fun name => ?_, fun name f f' hf hf' args hargs hadmits => ?_⟩
    · rw [List.lookup_cons, List.lookup_cons]
      split <;> rfl
    · obtain rfl : f = first := congrArg Prod.snd (List.mem_singleton.1 (mem_of_lookup hf))
      obtain rfl : f' = first' := congrArg Prod.snd (List.mem_singleton.1 (mem_of_lookup hf'))
      have herrors : args.any Value.isError = false := by simpa using hargs
      have hlength : args ≠ [] := by
        rintro rfl
        exact absurd hadmits (by decide)
      simp only [first', herrors, hlength]
      rfl
  exact ⟨hsame, nofun, eval_within_contract.1 _ _ _ [] hsame nested, by decide +kernel,
    eval_within_contract.2 standardLibrary _ env nested⟩

end Expr

end Reckoner
