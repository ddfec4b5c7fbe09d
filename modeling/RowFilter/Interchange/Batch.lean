import RowFilter.Interchange.ArrayData
import RowFilter.Schema

/-!
# Batches and schemas of the interchange format

What the arrow library demands of the arrays of a batch is `Batch.isConsistent`. A schema is made of
declarations if each of their types has an equivalent here.
-/

namespace RowFilter

namespace Interchange

/-- The declaration of an array in a batch. -/
structure ArrayField where
  name : String
  type : ArrayType
  nullable : Bool
  deriving DecidableEq, Inhabited

/-- Arrays with their declarations and a row count, which arrays that there are must have. -/
structure Batch where
  fields : List ArrayField
  arrays : List ArrayData
  rows : Nat
  deriving DecidableEq

/-- Whether every array fits its declaration and the row count. -/
def Batch.isConsistent (b : Batch) : Bool :=
  b.fields.length == b.arrays.length
    && (b.fields.zip b.arrays).all fun (f, a) =>
      a.type == f.type && a.length == b.rows && (f.nullable || a.nullCount == 0)

end Interchange

open Interchange

/-- The type with the same layout. -/
def DataType.ofArrayType (t : ArrayType) : Except Error DataType :=
  match t.toDataType? with
  | some type => .ok type
  | none => .error (.foreignType t)

namespace Field

def ofArrayField (f : ArrayField) : Except Error Field :=
  (DataType.ofArrayType f.type).map fun type => ⟨f.name, type, f.nullable⟩

def toArrayField (f : Field) : ArrayField := ⟨f.name, .ofDataType f.type, f.nullable⟩

end Field

namespace Schema

/-- The schema of array declarations: every type must have an equivalent, and then the fields must
make a schema. -/
def ofArrayFields (fields : List ArrayField) : Except Error Schema :=
  fields.mapM Field.ofArrayField >>= make

def toArrayFields (s : Schema) : List ArrayField := s.fields.map Field.toArrayField

end Schema

end RowFilter
