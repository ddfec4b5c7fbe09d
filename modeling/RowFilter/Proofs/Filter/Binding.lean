import RowFilter.Filter.Bound
import RowFilter.Proofs.Expr.Fields
import RowFilter.Proofs.Fault
import RowFilter.Proofs.Schema.Lookup

/-!
# Binding is a check and a placement

`Bound.bind` checks every field against the schema and at the same time hands out positions in a
growing list of inputs. The two do not interfere: `bind_eq` says that binding is `Bound.place`,
which does not look at any schema, unless `Bound.fault?` finds a fault. So an expression that can be
bound to two schemas is bound to the same thing (`Bound.place`), the inputs are the fields of the
expression (`place_inputs`), and once an expression was bound, what a second schema can still object
to are its leaves (`fault?_eq_findSome?`). Whether it does, and with which kind of error, can be
read off the fields alone (`kind_findSome?_fields`).
-/

namespace RowFilter

namespace Bound

mutual

/-- The bound form of an expression and the inputs after it, without any check. -/
def place : Expr → List Field → Bound × List Field
  | .field f, inputs => (.input (inputOf f inputs).1, (inputOf f inputs).2)
  | .literal v _, inputs => (.literal v, inputs)
  | .call signature args, inputs =>
    (.call signature (placeList args inputs).1, (placeList args inputs).2)

/-- The bound forms of expressions, from left to right, and the inputs after them. -/
def placeList : List Expr → List Field → List Bound × List Field
  | [], inputs => ([], inputs)
  | e :: es, inputs =>
    ((place e inputs).1 :: (placeList es (place e inputs).2).1,
      (placeList es (place e inputs).2).2)

end

mutual

/-- The first thing in an expression, from left to right, that keeps it from being bound. -/
def fault? (schema : Schema) : Expr → Option Error
  | .field f => schema.fault? .filter f
  | .literal _ _ => none
  | .call signature args =>
    if maxOperands < args.length then
      some (.tooManyOperands signature.name args.length maxOperands)
    else faultList? schema args

def faultList? (schema : Schema) : List Expr → Option Error
  | [] => none
  | e :: es => (fault? schema e).or (faultList? schema es)

end

mutual

/-- Binding is the placement, unless there is a fault. -/
theorem bind_eq (schema : Schema) : ∀ (e : Expr) (inputs : List Field),
    bind schema e inputs = unlessFault (fault? schema e) (place e inputs)
  | .field f, inputs => by
    rw [bind, fault?, Schema.fault?, place]
    cases schema.find? f.name with
    | none => rfl
    | some declared =>
      by_cases h : f.type = declared.type
      · simp only [checkType, h, if_true]
        rfl
      · simp only [checkType, h, if_false]
        rfl
  | .literal v type, inputs => by
    rw [bind, fault?, place]
    rfl
  | .call signature args, inputs => by
    rw [bind, fault?, place]
    by_cases h : maxOperands < args.length
    · rw [if_pos h, if_pos h]
      rfl
    · rw [if_neg h, if_neg h, bindList_eq schema args inputs, unlessFault_bind]
      cases faultList? schema args with
      | none => rfl
      | some e => rfl

theorem bindList_eq (schema : Schema) : ∀ (es : List Expr) (inputs : List Field),
    bindList schema es inputs = unlessFault (faultList? schema es) (placeList es inputs)
  | [], inputs => by
    rw [bindList, faultList?, placeList]
    rfl
  | e :: es, inputs => by
    rw [bindList, faultList?, placeList, bind_eq schema e inputs]
    cases fault? schema e with
    | some err => rfl
    | none =>
      rw [unlessFault_none, Option.none_or]
      show (bindList schema es (place e inputs).2 >>= _) = _
      rw [bindList_eq schema es, unlessFault_bind]
      cases faultList? schema es with
      | none => rfl
      | some err => rfl

end

/-! ## The inputs -/

/-- The inputs grow as the fields of an expression do. -/
theorem inputOf_inputs (f : Field) (inputs : List Field) :
    (inputOf f inputs).2 = Expr.addField inputs f := by
  rw [inputOf, Expr.addField]
  cases h : inputs.findIdx? (·.name == f.name) with
  | none =>
    have hany : inputs.any (·.name == f.name) = false := by
      rw [List.any_eq_false]
      intro g hg
      simpa using List.findIdx?_eq_none_iff.mp h g hg
    rw [hany]
    rfl
  | some position =>
    have hany : inputs.any (·.name == f.name) = true := by
      obtain ⟨hlt, hname, _⟩ := List.findIdx?_eq_some_iff_getElem.mp h
      exact List.any_eq_true.mpr ⟨_, List.getElem_mem hlt, hname⟩
    rw [hany]
    rfl

/-- The position that a field is given holds its name. -/
theorem inputOf_position (f : Field) (inputs : List Field) :
    ∃ g, (inputOf f inputs).2[(inputOf f inputs).1]? = some g ∧ g.name = f.name := by
  rw [inputOf]
  cases h : inputs.findIdx? (·.name == f.name) with
  | none => exact ⟨f, List.getElem?_concat_length, rfl⟩
  | some position =>
    obtain ⟨hlt, hname, _⟩ := List.findIdx?_eq_some_iff_getElem.mp h
    exact ⟨inputs[position], List.getElem?_eq_getElem hlt, eq_of_beq hname⟩

mutual

/-- Placing an expression adds its leaves to the inputs, one for each name. -/
theorem place_inputs : ∀ (e : Expr) (inputs : List Field),
    (place e inputs).2 = e.leaves.foldl Expr.addField inputs
  | .field f, inputs => by
    rw [place, Expr.leaves]
    exact inputOf_inputs f inputs
  | .literal v type, inputs => by
    rw [place, Expr.leaves]
    rfl
  | .call signature args, inputs => by
    rw [place, Expr.leaves]
    exact placeList_inputs args inputs

theorem placeList_inputs : ∀ (es : List Expr) (inputs : List Field),
    (placeList es inputs).2 = (Expr.leavesList es).foldl Expr.addField inputs
  | [], inputs => by
    rw [placeList, Expr.leavesList]
    rfl
  | e :: es, inputs => by
    rw [placeList, Expr.leavesList, List.foldl_append, ← place_inputs e inputs]
    exact placeList_inputs es _

end

theorem place_inputs_nil (e : Expr) : (place e []).2 = e.fields := place_inputs e []

theorem prefix_placeList (es : List Expr) (inputs : List Field) :
    inputs <+: (placeList es inputs).2 := by
  rw [placeList_inputs]
  exact Expr.prefix_foldl_addField (Expr.leavesList es) inputs

/-! ## The faults -/

/-- There is no fault among expressions if there is none in each. -/
theorem faultList?_eq_none_iff {schema : Schema} {es : List Expr} :
    faultList? schema es = none ↔ ∀ e ∈ es, fault? schema e = none := by
  induction es with
  | nil => simp [faultList?]
  | cons e es ih => rw [faultList?, Option.or_eq_none_iff, ih, List.forall_mem_cons]

/-- The first fault among expressions is the first among their leaves, if this is so of each. -/
theorem faultList?_eq_of_forall {schema : Schema} {es : List Expr}
    (h : ∀ e ∈ es, fault? schema e = e.leaves.findSome? (schema.fault? .filter)) :
    faultList? schema es = (Expr.leavesList es).findSome? (schema.fault? .filter) := by
  induction es with
  | nil => rfl
  | cons e es ih =>
    rw [faultList?, Expr.leavesList, List.findSome?_append, h e (List.mem_cons_self ..),
      ih fun a ha => h a (List.mem_cons_of_mem _ ha)]

/-- An expression that some schema accepts has no call with too many operands, so any other schema
can only object to a leaf. -/
theorem fault?_eq_findSome? {schema other : Schema} {e : Expr} (h : fault? schema e = none) :
    fault? other e = e.leaves.findSome? (other.fault? .filter) := by
  induction e with
  | field f => rw [fault?, Expr.leaves, List.findSome?_singleton]
  | literal v type => rfl
  | call signature args ih =>
    rw [fault?] at h
    by_cases hmany : maxOperands < args.length
    · -- the first schema would have been refused as well
      rw [if_pos hmany] at h
      cases h
    · rw [if_neg hmany, faultList?_eq_none_iff] at h
      rw [fault?, if_neg hmany, Expr.leaves]
      exact faultList?_eq_of_forall fun a ha => ih a ha (h a ha)

/-- A schema that an expression can be bound to declares all its leaves. -/
theorem declares_of_fault?_eq_none {schema : Schema} {e : Expr} (h : fault? schema e = none) :
    ∀ f ∈ e.leaves, schema.Declares f := by
  intro f hf
  have hnone : fault? schema e = e.leaves.findSome? (schema.fault? .filter) :=
    fault?_eq_findSome? h
  rw [h, eq_comm, Schema.findSome?_fault?_eq_none_iff] at hnone
  exact hnone f hf

/-- Once an expression was bound, walking its fields against another schema finds a fault of the
same kind as binding it to that schema, or both find none. Leaves of one name may differ in whether
they may be null, but not in their types, because the first schema declares them all. -/
theorem kind_findSome?_fields {schema : Schema} {e : Expr} (h : fault? schema e = none)
    (other : Schema) (scope : FieldScope) :
    (e.fields.findSome? (other.fault? scope)).map Error.kind =
      (fault? other e).map Error.kind := by
  have alike : ∀ f ∈ e.leaves, ∀ g ∈ [] ++ e.leaves, g.name = f.name →
      (other.fault? scope g).map Error.kind = (other.fault? scope f).map Error.kind := by
    intro f hf g hg hname
    -- both leaves have the type that the first schema declares under their name
    obtain ⟨declared, hfind, htype⟩ := declares_of_fault?_eq_none h f hf
    obtain ⟨declared', hfind', htype'⟩ := declares_of_fault?_eq_none h g hg
    rw [hname, hfind] at hfind'
    cases hfind'
    exact Schema.kind_fault?_congr scope scope hname (htype'.symm.trans htype)
  calc (e.fields.findSome? (other.fault? scope)).map Error.kind
      = e.fields.findSome? fun f => (other.fault? scope f).map Error.kind := List.map_findSome?
    _ = e.leaves.findSome? fun f => (other.fault? scope f).map Error.kind :=
        Expr.findSome?_foldl_addField alike
    _ = e.leaves.findSome? fun f => (other.fault? .filter f).map Error.kind := by
        congr 1
        funext f
        exact Schema.kind_fault?_congr scope .filter rfl rfl
    _ = (e.leaves.findSome? (other.fault? .filter)).map Error.kind := List.map_findSome?.symm
    _ = (fault? other e).map Error.kind := by rw [fault?_eq_findSome? h]

/-- If an expression was bound and a schema declares its fields, then it declares all leaves, those
included that repeat the name of a field. -/
theorem fault?_eq_none_of_fields {schema other : Schema} {e : Expr} (h : fault? schema e = none)
    (hall : ∀ f ∈ e.fields, other.Declares f) : fault? other e = none := by
  have hkind := kind_findSome?_fields h other .filter
  rw [Schema.findSome?_fault?_eq_none_iff.mpr hall] at hkind
  exact Option.map_eq_none_iff.mp hkind.symm

end Bound

end RowFilter
