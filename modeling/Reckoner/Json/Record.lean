import Reckoner.Json.Basic

/-!
# Records, nodes and words

How structured data stands in JSON:

* a record is an object of its members, or an array of them in their order, of which the last ones
  may be left out;
* a node is an object whose member `type` is the kind of the node, or an array of the kind and the
  members in their order;
* a word of an enumeration is a string, or an object with the word as its only name.

A node's kind and a word may be written in more ways inside another node (`inner`) than where they
are read on their own.

`Record.field` looks a member up and returns its value with a proof that it is smaller than the
whole, which is what recursion over a tree of nodes needs.
-/

namespace Reckoner.Json

/-- Members found in a JSON value, each of them smaller than the value. -/
structure Record (v : Json) where
  members : List (String × Json)
  smaller : ∀ m ∈ members, sizeOf m.2 < sizeOf v

/-- What a record says under a name. -/
inductive Field (v : Json) where
  | absent
  | present (w : Json) (smaller : sizeOf w < sizeOf v)
  /-- The name occurs more than once. -/
  | repeated

theorem sizeOf_lt_object {members : List (String × Json)} {m : String × Json} (h : m ∈ members) :
    sizeOf m.2 < sizeOf (object members) := by
  have := List.sizeOf_lt_of_mem h
  obtain ⟨name, w⟩ := m
  simp only [Prod.mk.sizeOf_spec, object.sizeOf_spec] at this ⊢
  omega

theorem sizeOf_lt_array {elements : List Json} {w : Json} (h : w ∈ elements) :
    sizeOf w < sizeOf (array elements) := by
  have := List.sizeOf_lt_of_mem h
  simp only [array.sizeOf_spec]
  omega

namespace Record

/-- The members of an object. -/
def ofMembers (members : List (String × Json)) : Record (object members) :=
  ⟨members, fun _ h => sizeOf_lt_object h⟩

/-- The elements of an array, named in their order. -/
def ofElements (names : List String) (elements : List Json) : Record (array elements) :=
  ⟨names.zip elements, fun m h => sizeOf_lt_array (List.of_mem_zip (a := m.1) (b := m.2) h).2⟩

/-- The member of a name. -/
def field {v : Json} (r : Record v) (name : String) : Field v :=
  match h : r.members.filter (fun m => m.1 == name) with
  | [] => .absent
  | [m] => .present m.2 (r.smaller m (List.mem_filter.1 (h ▸ List.mem_singleton_self m)).1)
  | _ :: _ :: _ => .repeated

theorem field_of_filter {v : Json} (r : Record v) {name : String} {m : String × Json}
    (h : r.members.filter (fun m => m.1 == name) = [m]) :
    ∃ smaller, r.field name = .present m.2 smaller := by
  unfold field
  split
  · next h' => simp [h] at h'
  · next m' h' =>
    obtain rfl : m = m' := by simpa [h] using h'
    exact ⟨r.smaller m (List.mem_filter.1 (h' ▸ List.mem_singleton_self m)).1, rfl⟩
  · next h' => simp [h] at h'

/-- A required member, read by `read`. -/
def required? {v : Json} {α : Type} (r : Record v) (name : String) (read : Json → Option α) :
    Option α :=
  match r.field name with
  | .present w _ => read w
  | _ => none

theorem required?_of_filter {v : Json} {α : Type} (r : Record v) {name : String}
    {m : String × Json} (read : Json → Option α)
    (h : r.members.filter (fun m => m.1 == name) = [m]) : r.required? name read = read m.2 := by
  obtain ⟨_, h⟩ := r.field_of_filter h
  simp [required?, h]

/-- An optional member; `default` stands for one that is absent. -/
def optional? {v : Json} {α : Type} (r : Record v) (name : String) (default : α)
    (read : Json → Option α) : Option α :=
  match r.field name with
  | .absent => some default
  | .present w _ => read w
  | .repeated => none

end Record

/-- The record of a JSON value; `names` are the members in their order. -/
def record? (names : List String) : (v : Json) → Option (Record v)
  | object members => some (.ofMembers members)
  | array elements =>
    if elements.length ≤ names.length then some (.ofElements names elements) else none
  | _ => none

/-- A kind of node with the names of its members. Inside another node the kind may also be given by
its position in the list. -/
def kind? (kinds : List (String × List String)) (inner : Bool) :
    Json → Option (String × List String)
  | string s => kinds.find? (fun k => k.1 == s)
  | integer n => if inner && 0 ≤ n then kinds[n.toNat]? else none
  | _ => none

/-- The kind of a node and its members. -/
def node? (kinds : List (String × List String)) (inner : Bool) (v : Json) :
    Option (String × Record v) := do
  let (kind, names) ← match v with
    | object members => (Record.ofMembers members).required? "type" (kind? kinds inner)
    | array (kind :: _) => kind? kinds inner kind
    | _ => none
  return (kind, ← v.record? ("type" :: names))

/-- A word of an enumeration. As the name of an object its value is `null`, or, inside a node, an
empty object. -/
def word? (inner : Bool) : Json → Option String
  | string s => some s
  | object [(s, null)] => some s
  | object [(s, object [])] => if inner then some s else none
  | _ => none

end Reckoner.Json
