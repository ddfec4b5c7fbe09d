import RowFilter.Proofs.Filter.Making

/-!
# What a filter is made of

`Bound.Represents` relates an expression to a bound form of it: the same tree, where each field has
become the position of an input of its name. Positions that were handed out early stay right,
because inputs only join at the end. Main result: `make_exact`. A condition that was built makes a
filter of a schema just if the schema declares its leaves, the first leaf that is not declared is
what is reported, and the filter reads the fields of the condition from their places in the schema.
-/

namespace RowFilter

namespace Bound

/-- The bound form has the shape, the literals and the signatures of the expression, and where the
expression has a field, it has the position of an input of that name. -/
inductive Represents (inputs : List Field) : Expr → Bound → Prop
  | field {f g : Field} {position : Nat} (there : inputs[position]? = some g)
      (named : g.name = f.name) : Represents inputs (.field f) (.input position)
  | literal (v : Value) (type : DataType) : Represents inputs (.literal v type) (.literal v)
  | call {signature : Signature} {args : List Expr} {bounds : List Bound}
      (operands : List.Forall₂ (Represents inputs) args bounds) :
      Represents inputs (.call signature args) (.call signature bounds)

variable {all : List Field}

mutual

/-- A placed expression is represented among all inputs there will be, because those that it was
placed among are the first of them. -/
theorem represents_place : ∀ (e : Expr) (inputs : List Field), (place e inputs).2 <+: all →
    Represents all e (place e inputs).1
  | .field f, inputs, hpre => by
    rw [place] at hpre ⊢
    obtain ⟨g, hg, hname⟩ := inputOf_position f inputs
    obtain ⟨rest, hrest⟩ := hpre
    refine .field ?_ hname
    rw [← hrest, List.getElem?_append_left (List.getElem?_eq_some_iff.mp hg).1]
    exact hg
  | .literal v type, inputs, _ => by
    rw [place]
    exact .literal v type
  | .call signature args, inputs, hpre => by
    rw [place] at hpre ⊢
    exact .call (represents_placeList args inputs hpre)

theorem represents_placeList : ∀ (es : List Expr) (inputs : List Field),
    (placeList es inputs).2 <+: all →
      List.Forall₂ (Represents all) es (placeList es inputs).1
  | [], inputs, _ => by
    rw [placeList]
    exact .nil
  | e :: es, inputs, hpre => by
    rw [placeList] at hpre ⊢
    -- the operands to the right only add inputs
    have hfirst : (place e inputs).2 <+: all := (prefix_placeList es _).trans hpre
    exact .cons (represents_place e inputs hfirst) (represents_placeList es _ hpre)

end

end Bound

namespace Filter

/-- The filter reads the fields of the condition, each from its place in the schema. -/
structure BoundTo (schema : Schema) (c : Condition) (f : Filter) : Prop where
  schema_eq : f.schema = schema
  condition_eq : f.condition = c
  inputs_eq : f.inputs = c.fields
  /-- No name is read twice. -/
  namesDistinct : (f.inputs.map (·.name)).Nodup
  /-- Every input has its slot, which is where the schema has the name. -/
  slots : List.Forall₂ (fun g slot => schema.index? g.name = some slot ∧
    ∃ declared, schema.fields[slot]? = some declared ∧ declared.name = g.name) f.inputs f.slots
  represents : Bound.Represents f.inputs c.root f.expr

/-- Declared fields are in the slots that the schema has them in. -/
theorem forall₂_slotOf {schema : Schema} {fields : List Field}
    (h : ∀ g ∈ fields, schema.Declares g) :
    List.Forall₂ (fun g slot => schema.index? g.name = some slot ∧
      ∃ declared, schema.fields[slot]? = some declared ∧ declared.name = g.name)
      fields (fields.map schema.slotOf) := by
  rw [List.forall₂_map_right_iff, List.forall₂_same]
  intro g hg
  have hslot := Schema.index?_of_declares (h g hg)
  exact ⟨hslot, Schema.index?_eq_some_iff.mp hslot⟩

theorem boundTo_bound {schema : Schema} {c : Condition} (h : Bound.fault? schema c.root = none) :
    (bound schema c).BoundTo schema c where
  schema_eq := rfl
  condition_eq := rfl
  inputs_eq := rfl
  namesDistinct := c.root.nodup_names_fields
  slots := forall₂_slotOf fun _ hg => declares_of_mem_fields h hg
  represents := Bound.represents_place c.root [] (Bound.place_inputs_nil c.root ▸ List.prefix_rfl)

/-- **Binding is exact**: a condition that was built makes a filter of a schema just if every leaf
is declared with its name and type. If not, the first leaf from the left that is not declared is
reported, for its name or else for its type. The filter reads the fields of the condition, each name
once, from the slots that they have in the schema. -/
theorem make_exact {c : Condition} (built : c.root.Built) (schema : Schema) :
    ((∃ f, make schema c = .ok f) ↔ ∀ leaf ∈ c.root.leaves,
      ∃ declared ∈ schema.fields, declared.name = leaf.name ∧ declared.type = leaf.type) ∧
    (∀ e, make schema c = .error e ↔ ∃ earlier leaf later,
      c.root.leaves = earlier ++ leaf :: later ∧
      (∀ g ∈ earlier, ∃ declared ∈ schema.fields,
        declared.name = g.name ∧ declared.type = g.type) ∧
      (((∀ declared ∈ schema.fields, declared.name ≠ leaf.name) ∧
          e = .unknownField leaf.name .filter schema.fields) ∨
        ∃ declared ∈ schema.fields, declared.name = leaf.name ∧ declared.type ≠ leaf.type ∧
          e = .fieldTypeDiffers leaf declared.type)) ∧
    ∀ f, make schema c = .ok f → f.BoundTo schema c := by
  have typed := built.wellTyped
  refine ⟨?_, fun e => ?_, fun f made => ?_⟩
  · simp only [make_eq_ok_iff, exists_and_left, exists_eq', and_true,
      Bound.fault?_eq_none_iff typed, Schema.declares_iff_mem]
  · rw [make_eq, unlessFault_eq_error_iff, Bound.fault?_of_wellTyped typed,
      List.findSome?_eq_some_iff]
    simp only [Schema.fault?_eq_some_iff, Schema.fault?_eq_none_iff, Schema.declares_iff_mem]
    refine exists_congr fun earlier => exists_congr fun leaf => exists_congr fun later => ?_
    rw [and_comm (a := _ ∨ _)]
  · obtain ⟨hfault, rfl⟩ := make_eq_ok_iff.mp made
    exact boundTo_bound hfault

/-- The sample reads its two fields, one of which occurs twice, from the slots 0 and 1. With a
schema that has the amount as a boolean, the first leaf is reported. -/
theorem sample_bound :
    (∃ f, make Sample.schema Sample.condition = .ok f ∧ f.BoundTo Sample.schema Sample.condition ∧
      f.inputs = [Sample.amount, Sample.active] ∧ f.slots = [0, 1]) ∧
    make ⟨[Sample.active, ⟨"amount", .bool, true⟩], by decide, by decide⟩ Sample.condition =
      .error (.fieldTypeDiffers Sample.amount .bool) := by
  obtain ⟨-, -, hbound⟩ := make_exact Sample.built Sample.schema
  obtain ⟨-, herror, -⟩ :=
    make_exact Sample.built ⟨[Sample.active, ⟨"amount", .bool, true⟩], by decide, by decide⟩
  refine ⟨⟨Sample.filter, rfl, hbound _ rfl, rfl, rfl⟩, (herror _).mpr ?_⟩
  refine ⟨[], Sample.amount, [Sample.active, Sample.amount], rfl, nofun, Or.inr ?_⟩
  exact ⟨⟨"amount", .bool, true⟩, List.mem_cons_of_mem _ (List.mem_singleton_self _), rfl,
    by decide, rfl⟩

end Filter

end RowFilter
