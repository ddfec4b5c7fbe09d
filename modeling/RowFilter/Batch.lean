import RowFilter.Interchange.Batch

/-!
# Batches

A `Batch` is a piece of a table: a schema, a row count and a column for each field. That the
columns agree with the other two is part of the type, and `Batch.firstFault_eq_none_iff` says that
`Batch.make` refuses nothing else. A batch without columns still has its row count.

The arrow library has a batch constructor of its own, which is given the same arrays and, as an
option, the row count. It is no further step here: it demands no more than `firstFault` has checked
(`Interchange.Batch.isConsistent`, which holds of every `Batch.toArrays`), and it keeps what it is
given. So `rows` is the count that was declared, and `toArrays` is what that constructor holds.
-/

namespace RowFilter

namespace Batch

/-- A column agrees with its field and the row count. -/
structure Fits (rows : Nat) (f : Field) (c : Column) : Prop where
  type : c.type = f.type
  length : c.length = rows
  nulls : f.nullable = false → c.nullCount = 0

/-- There is one column for each field, and it agrees with the field. -/
structure Consistent (fields : List Field) (rows : Nat) (columns : List Column) : Prop where
  count : columns.length = fields.length
  fits : ∀ p ∈ fields.zip columns, Fits rows p.1 p.2

/-- What is wrong with a column. -/
def fault? (rows : Nat) (f : Field) (c : Column) : Option Error :=
  if c.type ≠ f.type then some (.columnTypeDiffers f c.type)
  else if c.length ≠ rows then some (.rowCountDiffers f.name c.length rows)
  else if !f.nullable && c.nullCount != 0 then some (.unexpectedNulls f.name c.nullCount)
  else none

/-- Nothing is wrong with the columns that agree, and with no others. -/
theorem fault?_eq_none_iff {rows : Nat} {f : Field} {c : Column} :
    fault? rows f c = none ↔ Fits rows f c := by
  constructor
  · intro h
    constructor <;> grind [fault?]
  · intro ⟨_, _, _⟩
    grind [fault?]

/-- What is wrong with the first column that does not agree with its field. -/
def firstFault (fields : List Field) (rows : Nat) (columns : List Column) : Option Error :=
  if columns.length ≠ fields.length then
    some (.columnCountDiffers fields.length columns.length)
  else (fields.zip columns).findSome? fun (f, c) => fault? rows f c

/-- No fault is found just if all columns agree with the schema and the row count. -/
theorem firstFault_eq_none_iff {fields : List Field} {rows : Nat} {columns : List Column} :
    firstFault fields rows columns = none ↔ Consistent fields rows columns := by
  have h : (∀ p ∈ fields.zip columns, fault? rows p.1 p.2 = none) ↔
      ∀ p ∈ fields.zip columns, Fits rows p.1 p.2 := by
    simp only [fault?_eq_none_iff]
  constructor
  · intro none
    by_cases count : columns.length = fields.length
    · refine ⟨count, h.mp ?_⟩
      simpa [firstFault, count] using none
    · simp [firstFault, count] at none
  · intro ⟨count, fits⟩
    simpa [firstFault, count] using h.mpr fits

end Batch

/-- Columns that agree with a schema and a row count. -/
structure Batch where
  schema : Schema
  rows : Nat
  columns : List Column
  consistent : Batch.Consistent schema.fields rows columns
  deriving DecidableEq

namespace Batch

/-- The batch of the columns, if they agree with the schema and the row count. -/
def make (schema : Schema) (rows : Nat) (columns : List Column) : Except Error Batch :=
  match h : firstFault schema.fields rows columns with
  | some e => .error e
  | none => .ok { schema, rows, columns, consistent := firstFault_eq_none_iff.mp h }

def column? (b : Batch) (slot : Nat) : Option Column := b.columns[slot]?

/-- The column whose field has the name. -/
def columnNamed? (b : Batch) (name : String) : Option Column :=
  (b.schema.index? name).bind b.column?

/-! ## Exchange -/

/-- The batch of the given arrays: first the declarations must make a schema, then each array must
be a column, and then both must agree. -/
def ofArrays (b : Interchange.Batch) : Except Error Batch := do
  let schema ← Schema.ofArrayFields b.fields
  let columns ← b.arrays.mapM Column.ofArray
  make schema b.rows columns

def toArrays (b : Batch) : Interchange.Batch :=
  ⟨b.schema.toArrayFields, b.columns.map Column.toArray, b.rows⟩

end Batch

end RowFilter
