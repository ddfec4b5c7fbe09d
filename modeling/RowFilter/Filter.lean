import RowFilter.Condition
import RowFilter.Filter.Bound
import RowFilter.Selection

/-!
# Filters

A `Filter` is a condition bound to a schema. Evaluating it on a batch stores the rows for which the
condition is true in a selection; a row for which it is null is left out. The batch may have
another schema than the filter, as long as it has the fields that the condition reads, with their
types: their columns are then found by name.
-/

namespace RowFilter

structure Filter where
  schema : Schema
  condition : Condition
  /-- The fields that the condition reads. -/
  inputs : List Field
  /-- The position of each input in the schema. -/
  slots : List Nat
  expr : Bound

namespace Filter

/-- What is reported of a field whose name has no position. The schema that a filter is bound to is
only asked for names that binding has found in it. -/
def noPosition (schema : Schema) (f : Field) : FieldScope → Error
  | .filter => .fieldVanished f.name
  | .batch => .unknownField f.name .batch schema.fields

/-- The position of a field's name in a schema. -/
def slotIn (schema : Schema) (scope : FieldScope) (f : Field) : Except Error Nat :=
  match schema.index? f.name with
  | some slot => .ok slot
  | none => .error (noPosition schema f scope)

/-- Binds a condition to a schema. -/
def make (schema : Schema) (condition : Condition) : Except Error Filter := do
  let (expr, inputs) ← Bound.bind schema condition.root []
  let slots ← inputs.mapM (slotIn schema .filter)
  return { schema, condition, inputs, slots, expr }

/-- The column in a slot of a batch. -/
def columnAt (batch : Batch) (slot : Nat) : Except Error Column :=
  match batch.column? slot with
  | some c => .ok c
  | none => .error (.columnMissing slot)

/-- The column of an input, by its name. -/
def columnFor (batch : Batch) (f : Field) : Except Error Column := do
  let slot ← slotIn batch.schema .batch f
  match batch.schema.fields[slot]? with
  | some declared =>
    Bound.checkType f declared.type
    columnAt batch slot
  | none => throw (.fieldMissing slot)

/-- The columns of all inputs: by their positions in the filter's own schema, by name in another. -/
def resolve (f : Filter) (batch : Batch) : Except Error (List Column) :=
  if batch.schema = f.schema then f.slots.mapM (columnAt batch)
  else f.inputs.mapM (columnFor batch)

/-- Whether a row is to be selected. -/
def selects (f : Filter) (columns : Array Column) (row : Nat) : Except Error Bool := do
  match ← f.expr.evaluate columns row with
  | .bool b => return b
  | .null => return false
  | v => throw (.resultNotBoolean v.type row)

/-- How it is reported that a matching row was refused: a full selection with the row. -/
def matchRefused (row : Nat) : Error → Error
  | .selectionFull capacity => .noRoomForMatch row capacity
  | e => e

/-- Looks at `count` rows from `row` on, appends those that are to be selected, and stops at the
first error. The selection that is returned is the one reached. -/
def selectRows (selects : Nat → Except Error Bool) (count row : Nat) (s : Selection) :
    Except Error Unit × Selection :=
  match count with
  | 0 => (.ok (), s)
  | count + 1 =>
    match selects row with
    | .error e => (.error e, s)
    | .ok false => selectRows selects count (row + 1) s
    | .ok true =>
      match s.refusal? row with
      | some e => (.error (matchRefused row e), s)
      | none => selectRows selects count (row + 1) (s.push row)

/-- Replaces the rows of a selection by those of the batch for which the condition is true, and
returns their count. After an error the selection holds the rows reached so far, or what it held
before if no row was looked at. -/
def evaluate (f : Filter) (batch : Batch) (s : Selection) : Except Error Nat × Selection :=
  match f.resolve batch with
  | .error e => (.error e, s)
  | .ok columns =>
    if 0 < batch.rows ∧ s.maxRow < batch.rows - 1 then
      (.error (.batchTooLong batch.rows s.type), s)
    else
      match selectRows (f.selects columns.toArray) batch.rows 0 s.reset with
      | (.error e, s) => (.error e, s)
      | (.ok _, s) => (.ok s.length, s)

end Filter

end RowFilter
