import Reckoner.Exchange.Expr
import Reckoner.Proofs.Json.Reordered

/-!
# Expressions survive their exchange

An expression is read back from its JSON form as it was:

    ofJson? e.toJson = some e

The members of an object may stand in any order, on every level of the tree, for a JSON value is
often kept with its members sorted. Texts of numbers are neither read nor shortened on the way, so
literals come back whatever is in them, and whichever of their optional parts they have
(`NumberParts.ofJson?_of_reordered`).

The proof is an induction over trees and lists of them. For each kind of node there is a lemma: what
its members were written from is what they are read as (`readsBack_binary` and its siblings).
-/

namespace Reckoner

open Json

variable {v : Json}

namespace NumberParts

variable {r : Record v} {name : String}

/-- A mark that is written only where it is set. -/
def flag? (b : Bool) : Option Json := if b then some (.bool true) else none

theorem toJson_eq (p : NumberParts) :
    p.toJson = .object ([("numer", .string p.numer), ("denom", .string p.denom)] ++
      member? "exactValue" (p.exactValue.map .string) ++
      member? "approxValue" (p.approxValue.map .string) ++
      member? "approximate" (flag? p.approximate)) := by
  cases h : p.approximate <;> simp [toJson, flag?, member?, h]

theorem optional?_text {o : Option String}
    (h : r.Holds name (member? name (o.map .string))) :
    r.optional? name none (nullable? string?) = some o := by
  cases o with
  | none => exact h.optional?_absent
  | some s =>
    refine h.optional? fun w hw => ?_
    rw [eq_string_of_reordered hw]
    rfl

theorem optional?_flag {b : Bool} (h : r.Holds name (member? name (flag? b))) :
    r.optional? name false bool? = some b := by
  cases b with
  | false => exact h.optional?_absent
  | true =>
    refine h.optional? fun w hw => ?_
    rw [eq_bool_of_reordered hw]
    rfl

theorem ofJson?_of_reordered (p : NumberParts) (h : Reordered p.toJson v) :
    ofJson? v = some p := by
  rw [toJson_eq] at h
  obtain ⟨r, hr, hholds⟩ := record?_of_reordered
    ["numer", "denom", "exactValue", "approxValue", "approximate"] h
  have hnumer : r.required? "numer" string? = some p.numer :=
    Record.Holds.required?_string (by simpa [filter_member?] using hholds "numer")
  have hdenom : r.required? "denom" string? = some p.denom :=
    Record.Holds.required?_string (by simpa [filter_member?] using hholds "denom")
  have hexact : r.optional? "exactValue" none (nullable? string?) = some p.exactValue :=
    optional?_text (by simpa [filter_member?] using hholds "exactValue")
  have happrox : r.optional? "approxValue" none (nullable? string?) = some p.approxValue :=
    optional?_text (by simpa [filter_member?] using hholds "approxValue")
  have happroximate : r.optional? "approximate" false bool? = some p.approximate :=
    optional?_flag (by simpa [filter_member?] using hholds "approximate")
  simp [ofJson?, hr, hnumer, hdenom, hexact, happrox, happroximate]

end NumberParts

/-! ## Words and tokens -/

theorem BinaryOp.read?_of_reordered (inner : Bool) (op : BinaryOp)
    (h : Reordered (.string op.word) v) : BinaryOp.read? inner v = some op := by
  rw [eq_string_of_reordered h]
  cases op <;> rfl

theorem UnaryOp.read?_of_reordered (inner : Bool) (op : UnaryOp)
    (h : Reordered (.string op.word) v) : UnaryOp.read? inner v = some op := by
  rw [eq_string_of_reordered h]
  cases op <;> rfl

theorem DateToken.read?_of_reordered (inner : Bool) (t : DateToken)
    (h : Reordered t.toJson v) : DateToken.read? inner v = some t := by
  cases t with
  | number text | literal text =>
    obtain ⟨r, hnode, hholds⟩ := node?_of_reordered kinds inner rfl rfl h
    have hvalue : r.required? "value" string? = some text :=
      Record.Holds.required?_string (by simpa using hholds "value" (by decide))
    simp [read?, hnode, hvalue]
  | dash | colon | plus | space | dot =>
    obtain ⟨r, hnode, -⟩ := node?_of_reordered kinds inner rfl rfl h
    simp [read?, hnode]

/-! ## Trees -/

namespace Expr

/-- The expression is read from every reordering of its JSON form. -/
def ReadsBack (e : Expr) : Prop :=
  ∀ (inner : Bool) (v : Json), Reordered e.toJson v → read? inner v = some e

theorem readList?_of_reordered {es : List Expr} {vs : List Json} (hes : ∀ e ∈ es, ReadsBack e)
    (h : List.Forall₂ Reordered (toJsonList es) vs) : readList? vs = some es := by
  induction es generalizing vs with
  | nil =>
    cases h
    rw [readList?]
  | cons e es ih =>
    obtain ⟨w, ws, hw, hws, rfl⟩ := List.forall₂_cons_left_iff.1 h
    obtain ⟨he, hes⟩ := List.forall_mem_cons.1 hes
    rw [readList?, he true w hw, ih hes hws]
    rfl

theorem readsBack_name (n : String) : ReadsBack (.name n) := by
  intro inner v h
  obtain ⟨r, hnode, hholds⟩ := node?_of_reordered kinds inner rfl rfl h
  have hname : r.required? "name" string? = some n :=
    Record.Holds.required?_string (by simpa using hholds "name" (by decide))
  rw [read?, hnode]
  simp [hname]

theorem readsBack_quote (text : String) : ReadsBack (.quote text) := by
  intro inner v h
  obtain ⟨r, hnode, hholds⟩ := node?_of_reordered kinds inner rfl rfl h
  have hstring : r.required? "string" string? = some text :=
    Record.Holds.required?_string (by simpa using hholds "string" (by decide))
  rw [read?, hnode]
  simp [hstring]

theorem readsBack_const (parts : NumberParts) : ReadsBack (.const parts) := by
  intro inner v h
  obtain ⟨r, hnode, hholds⟩ := node?_of_reordered kinds inner rfl rfl h
  have hvalue : r.Holds "value" [("value", parts.toJson)] := by
    simpa using hholds "value" (by decide)
  have hparts := hvalue.required? fun _ hw => parts.ofJson?_of_reordered hw
  rw [read?, hnode]
  simp [hparts]

theorem readsBack_date (tokens : List DateToken) : ReadsBack (.date tokens) := by
  intro inner v h
  obtain ⟨r, hnode, hholds⟩ := node?_of_reordered kinds inner rfl rfl h
  have hvalue : r.Holds "tokens" [("tokens", .array (tokens.map DateToken.toJson))] := by
    simpa using hholds "tokens" (by decide)
  have htokens := hvalue.required? fun _ hw =>
    list?_of_reordered (fun t _ ht => t.read?_of_reordered true ht) hw
  rw [read?, hnode]
  simp [htokens]

theorem readsBack_binary (op : BinaryOp) {left right : Expr} (hl : ReadsBack left)
    (hr : ReadsBack right) : ReadsBack (.binary op left right) := by
  intro inner v h
  obtain ⟨r, hnode, hholds⟩ := node?_of_reordered kinds inner rfl rfl h
  have hword : r.Holds "op" [("op", .string op.word)] := by
    simpa using hholds "op" (by decide)
  have hleft : r.Holds "left" [("left", toJson left)] := by
    simpa using hholds "left" (by decide)
  have hright : r.Holds "right" [("right", toJson right)] := by
    simpa using hholds "right" (by decide)
  have hop := hword.required? fun _ hw => op.read?_of_reordered true hw
  obtain ⟨wl, _, hfieldl, hwl⟩ := hleft.field
  obtain ⟨wr, _, hfieldr, hwr⟩ := hright.field
  rw [read?, hnode]
  simp [hop, hfieldl, hfieldr, hl true wl hwl, hr true wr hwr]

theorem readsBack_unary (op : UnaryOp) {operand : Expr} (ho : ReadsBack operand) :
    ReadsBack (.unary op operand) := by
  intro inner v h
  obtain ⟨r, hnode, hholds⟩ := node?_of_reordered kinds inner rfl rfl h
  have hword : r.Holds "op" [("op", .string op.word)] := by
    simpa using hholds "op" (by decide)
  have hexpr : r.Holds "expr" [("expr", toJson operand)] := by
    simpa using hholds "expr" (by decide)
  have hop := hword.required? fun _ hw => op.read?_of_reordered true hw
  obtain ⟨w, _, hfield, hw⟩ := hexpr.field
  rw [read?, hnode]
  simp [hop, hfield, ho true w hw]

theorem readsBack_product {factors : List Expr} (hfactors : ∀ e ∈ factors, ReadsBack e) :
    ReadsBack (.product factors) := by
  intro inner v h
  obtain ⟨r, hnode, hholds⟩ := node?_of_reordered kinds inner rfl rfl h
  have hexprs : r.Holds "exprs" [("exprs", .array (toJsonList factors))] := by
    simpa using hholds "exprs" (by decide)
  obtain ⟨w, _, hfield, harray⟩ := hexprs.field
  obtain ⟨ws, rfl, hws⟩ := array_of_reordered harray
  rw [read?, hnode]
  simp [hfield, readList?_of_reordered hfactors hws]

theorem readsBack_property (p : String) {operand : Expr} (ho : ReadsBack operand) :
    ReadsBack (.property p operand) := by
  intro inner v h
  obtain ⟨r, hnode, hholds⟩ := node?_of_reordered kinds inner rfl rfl h
  have hproperty : r.required? "property" string? = some p :=
    Record.Holds.required?_string (by simpa using hholds "property" (by decide))
  have hexpr : r.Holds "expr" [("expr", toJson operand)] := by
    simpa using hholds "expr" (by decide)
  obtain ⟨w, _, hfield, hw⟩ := hexpr.field
  rw [read?, hnode]
  simp [hproperty, hfield, ho true w hw]

theorem readsBack_call (f : String) {args : List Expr} (hargs : ∀ e ∈ args, ReadsBack e) :
    ReadsBack (.call f args) := by
  intro inner v h
  obtain ⟨r, hnode, hholds⟩ := node?_of_reordered kinds inner rfl rfl h
  have hfunc : r.required? "func" string? = some f :=
    Record.Holds.required?_string (by simpa using hholds "func" (by decide))
  have hlist : r.Holds "args" [("args", .array (toJsonList args))] := by
    simpa using hholds "args" (by decide)
  obtain ⟨w, _, hfield, harray⟩ := hlist.field
  obtain ⟨ws, rfl, hws⟩ := array_of_reordered harray
  rw [read?, hnode]
  simp [hfunc, hfield, readList?_of_reordered hargs hws]

theorem readsBack_error (message : String) : ReadsBack (.error message) := by
  intro inner v h
  obtain ⟨r, hnode, hholds⟩ := node?_of_reordered kinds inner rfl rfl h
  have hmessage : r.required? "message" string? = some message :=
    Record.Holds.required?_string (by simpa using hholds "message" (by decide))
  rw [read?, hnode]
  simp [hmessage]

mutual

theorem readsBack : (e : Expr) → ReadsBack e
  | name n => readsBack_name n
  | quote text => readsBack_quote text
  | const parts => readsBack_const parts
  | date tokens => readsBack_date tokens
  | binary op left right => readsBack_binary op (readsBack left) (readsBack right)
  | unary op operand => readsBack_unary op (readsBack operand)
  | product factors => readsBack_product (readsBack_of_mem factors)
  | property p operand => readsBack_property p (readsBack operand)
  | call f args => readsBack_call f (readsBack_of_mem args)
  | error message => readsBack_error message

theorem readsBack_of_mem : (es : List Expr) → ∀ e ∈ es, ReadsBack e
  | [] => List.forall_mem_nil _
  | e :: es => List.forall_mem_cons.2 ⟨readsBack e, readsBack_of_mem es⟩

end

/-- **Expressions survive their exchange.** Every expression is read back from its JSON form, with
the members of the objects in the order in which they were written or in any other. -/
theorem read_back_from_json (e : Expr) :
    ofJson? e.toJson = some e ∧ ∀ v, Reordered e.toJson v → ofJson? v = some e :=
  ⟨readsBack e _ _ (.refl _), fun v h => readsBack e _ v h⟩

/-- The negative of an unreduced fraction, with the members sorted by name. -/
theorem read_back_from_sorted_json :
    let e : Expr := .unary .negative (.fraction 2 6)
    let v : Json := .object [
      ("expr", .object [("type", .string "const"),
        ("value", .object [("denom", .string "6"), ("numer", .string "2")])]),
      ("op", .string "negative"), ("type", .string "unaryop")]
    Reordered e.toJson v ∧ ofJson? v = some e := by
  have hparts : Reordered (NumberParts.fraction 2 6).toJson
      (.object [("denom", .string "6"), ("numer", .string "2")]) :=
    .object (.insert [("denom", .string "6")] [] (.refl _) (.refl _))
  have hconst : Reordered (Expr.fraction 2 6).toJson (.object [("type", .string "const"),
      ("value", .object [("denom", .string "6"), ("numer", .string "2")])]) :=
    .object (.insert [] _ (.refl _) (.insert [] [] hparts .nil))
  have hall : Reordered (Expr.unary .negative (.fraction 2 6)).toJson (.object [
      ("expr", .object [("type", .string "const"),
        ("value", .object [("denom", .string "6"), ("numer", .string "2")])]),
      ("op", .string "negative"), ("type", .string "unaryop")]) :=
    .object (.insert [_, _] [] (.refl _) (.insert [_] [] (.refl _) (.insert [] [] hconst .nil)))
  exact ⟨hall, (read_back_from_json _).2 _ hall⟩

end Expr

end Reckoner
