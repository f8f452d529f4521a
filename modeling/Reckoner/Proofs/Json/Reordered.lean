import Reckoner.Json.Record
import Mathlib.Data.List.Forall2

/-!
# Members in any order

The members of a JSON object have no order of their own: `Reordered v w` says that `w` is the value
`v`, with the members of its objects rearranged on any level. What a record says under a name does
not change with it (`record?_of_reordered`), nor does the kind of a node (`node?_of_reordered`). So
a reader that takes a value apart by these reads every arrangement alike.
-/

namespace Reckoner.Json

mutual

/-- The same value, with the members of its objects in any order. -/
inductive Reordered : Json → Json → Prop
  | refl (v : Json) : Reordered v v
  | array {vs ws : List Json} (elements : List.Forall₂ Reordered vs ws) :
      Reordered (.array vs) (.array ws)
  | object {ms ns : List (String × Json)} (members : ReorderedMembers ms ns) :
      Reordered (.object ms) (.object ns)

/-- The same members in any order, each with a reordered value. -/
inductive ReorderedMembers : List (String × Json) → List (String × Json) → Prop
  | nil : ReorderedMembers [] []
  | insert {name : String} {v w : Json} {ms : List (String × Json)}
      (front back : List (String × Json)) (value : Reordered v w)
      (rest : ReorderedMembers ms (front ++ back)) :
      ReorderedMembers ((name, v) :: ms) (front ++ (name, w) :: back)

end

variable {v w : Json} {vs : List Json} {ms ns : List (String × Json)} {name : String}

theorem ReorderedMembers.refl : (ms : List (String × Json)) → ReorderedMembers ms ms
  | [] => .nil
  | (_, v) :: ms => .insert [] ms (.refl v) (refl ms)

theorem eq_string_of_reordered {s : String} (h : Reordered (.string s) v) : v = .string s := by
  cases h
  rfl

theorem eq_bool_of_reordered {b : Bool} (h : Reordered (.bool b) v) : v = .bool b := by
  cases h
  rfl

theorem array_of_reordered (h : Reordered (.array vs) v) :
    ∃ ws, v = .array ws ∧ List.Forall₂ Reordered vs ws := by
  cases h with
  | refl => exact ⟨vs, rfl, List.forall₂_same.2 fun v _ => .refl v⟩
  | array elements => exact ⟨_, rfl, elements⟩

theorem object_of_reordered (h : Reordered (.object ms) v) :
    ∃ ns, v = .object ns ∧ ReorderedMembers ms ns := by
  cases h with
  | refl => exact ⟨ms, rfl, .refl ms⟩
  | object members => exact ⟨_, rfl, members⟩

namespace ReorderedMembers

theorem eq_nil (h : ReorderedMembers [] ns) : ns = [] := by
  cases h
  rfl

theorem eq_singleton (h : ReorderedMembers [(name, v)] ns) :
    ∃ w, ns = [(name, w)] ∧ Reordered v w := by
  cases h with
  | @insert _ _ w _ front back value rest =>
    obtain ⟨rfl, rfl⟩ := List.append_eq_nil_iff.1 rest.eq_nil
    exact ⟨w, rfl, value⟩

/-- The members of a class of names are the same on both sides. -/
theorem filter {p : String → Bool} (h : ReorderedMembers ms ns) :
    ReorderedMembers (ms.filter fun m => p m.1) (ns.filter fun m => p m.1) := by
  induction ms generalizing ns with
  | nil =>
    cases h
    exact .nil
  | cons m ms ih =>
    cases h with
    | @insert name v w _ front back value rest =>
      have hrest := ih rest
      rw [List.filter_append] at hrest ⊢
      by_cases hp : p name = true
      · simpa [hp] using ReorderedMembers.insert _ _ value hrest
      · simpa [hp] using hrest

end ReorderedMembers

/-! ## Lists -/

variable {α : Type} {write : α → Json} {read : Json → Option α} {as : List α}

theorem mapM_of_reordered {ws : List Json} (hread : ∀ a w, Reordered (write a) w → read w = some a)
    (h : List.Forall₂ Reordered (as.map write) ws) : ws.mapM read = some as := by
  induction as generalizing ws with
  | nil =>
    cases h
    rfl
  | cons a as ih =>
    obtain ⟨w, ws, hw, hws, rfl⟩ := List.forall₂_cons_left_iff.1 h
    rw [List.mapM_cons, hread a w hw, ih hws]
    rfl

theorem list?_of_reordered (hread : ∀ a w, Reordered (write a) w → read w = some a)
    (h : Reordered (.array (as.map write)) v) : list? read v = some as := by
  obtain ⟨ws, rfl, hws⟩ := array_of_reordered h
  exact mapM_of_reordered hread hws

/-! ## Records -/

namespace Record

variable {r : Record v}

theorem field_of_filter_eq_nil (h : r.members.filter (fun m => m.1 == name) = []) :
    r.field name = .absent := by
  unfold field
  split
  · rfl
  · next h' => simp [h] at h'
  · next h' => simp [h] at h'

/-- What a record says under a name are the given members, reordered. -/
def Holds (r : Record v) (name : String) (ms : List (String × Json)) : Prop :=
  ReorderedMembers ms (r.members.filter fun m => m.1 == name)

theorem holds_ofMembers (h : ReorderedMembers ms ns) (name : String) :
    (ofMembers ns).Holds name (ms.filter fun m => m.1 == name) :=
  h.filter (p := fun other => other == name)

namespace Holds

theorem field (h : r.Holds name [(name, w)]) :
    ∃ w' smaller, r.field name = .present w' smaller ∧ Reordered w w' := by
  obtain ⟨w', hfilter, hw⟩ := h.eq_singleton
  obtain ⟨smaller, hfield⟩ := r.field_of_filter hfilter
  exact ⟨w', smaller, hfield, hw⟩

variable {a default : α}

theorem required? (h : r.Holds name [(name, w)])
    (hread : ∀ w', Reordered w w' → read w' = some a) : r.required? name read = some a := by
  obtain ⟨w', smaller, hfield, hw⟩ := h.field
  rw [Record.required?, hfield]
  exact hread w' hw

theorem required?_string {s : String} (h : r.Holds name [(name, .string s)]) :
    r.required? name string? = some s := by
  refine h.required? fun w hw => ?_
  rw [eq_string_of_reordered hw]
  rfl

theorem optional? (h : r.Holds name [(name, w)])
    (hread : ∀ w', Reordered w w' → read w' = some a) :
    r.optional? name default read = some a := by
  obtain ⟨w', smaller, hfield, hw⟩ := h.field
  rw [Record.optional?, hfield]
  exact hread w' hw

theorem optional?_absent (h : r.Holds name []) : r.optional? name default read = some default := by
  rw [Record.optional?, field_of_filter_eq_nil h.eq_nil]

end Holds

end Record

theorem record?_of_reordered (names : List String) (h : Reordered (.object ms) v) :
    ∃ r, v.record? names = some r ∧ ∀ name, r.Holds name (ms.filter fun m => m.1 == name) := by
  obtain ⟨ns, rfl, hns⟩ := object_of_reordered h
  exact ⟨.ofMembers ns, rfl, Record.holds_ofMembers hns⟩

/-- A member that may be left out is found under its name only. -/
theorem filter_member? (name other : String) (o : Option Json) :
    (member? other o).filter (fun m => m.1 == name) =
      if other = name then member? other o else [] := by
  cases o with
  | none => simp [member?]
  | some v => by_cases h : other = name <;> simp [member?, h]

/-! ## Nodes -/

/-- An object with a kind among its members is a node of that kind. -/
theorem node?_of_reordered {kind : String} {names : List String}
    (kinds : List (String × List String)) (inner : Bool)
    (hkind : kinds.find? (fun k => k.1 == kind) = some (kind, names))
    (hms : ms.filter (fun m => m.1 == "type") = [])
    (h : Reordered (.object (("type", .string kind) :: ms)) v) :
    ∃ r, v.node? kinds inner = some (kind, r) ∧
      ∀ name, name ≠ "type" → r.Holds name (ms.filter fun m => m.1 == name) := by
  obtain ⟨ns, rfl, hns⟩ := object_of_reordered h
  have hholds := Record.holds_ofMembers hns
  have htype : (Record.ofMembers ns).required? "type" (kind? kinds inner) = some (kind, names) := by
    have htype := hholds "type"
    rw [List.filter_cons_of_pos (by simp), hms] at htype
    refine htype.required? fun w hw => ?_
    rw [eq_string_of_reordered hw]
    exact hkind
  refine ⟨.ofMembers ns, ?_, fun name hname => ?_⟩
  · simp [node?, htype, record?]
  · have hother := hholds name
    rwa [List.filter_cons_of_neg (by simpa using hname.symm)] at hother

end Reckoner.Json
