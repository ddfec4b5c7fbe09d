import RowFilter.Json
import RowFilter.Json.TypedReader
import RowFilter.Schema

/-!
# Schemas as JSON

A type is written as its name, a field and a schema as objects. What is read as a schema is held to
the rules of `Schema.make`.
-/

namespace RowFilter

open Json Reader

namespace DataType

def toJson (t : DataType) : Json := .string t.name

def reader : Reader DataType :=
  oneOf ([null, bool, int64, float64].map fun t => .plain t.name t)

end DataType

namespace Field

def toJson (f : Field) : Json :=
  .object [("name", .string f.name), ("data_type", f.type.toJson), ("nullable", .bool f.nullable)]

/-- A field of which not every member is known yet. -/
structure Partial where
  name : Option String := none
  type : Option DataType := none
  nullable : Option Bool := none

def members : List (Member Partial) :=
  [{ key := "name"
     isThere := fun f => f.name.isSome
     read := fun f => do return { f with name := some (← Reader.string) } },
    { key := "data_type"
      isThere := fun f => f.type.isSome
      read := fun f => do return { f with type := some (← DataType.reader) } },
    { key := "nullable"
      isThere := fun f => f.nullable.isSome
      read := fun f => do return { f with nullable := some (← Reader.bool) } }]

/-- A field needs all its members. -/
def Partial.finish (f : Partial) : Except Fault Field :=
  match f.name, f.type, f.nullable with
  | some name, some type, some nullable => .ok ⟨name, type, nullable⟩
  | _, _, _ => .error .unsuitable

def reader : Reader Field := record members {} Partial.finish

end Field

namespace Schema

def toJson (s : Schema) : Json := .object [("fields", .array (s.fields.map Field.toJson))]

/-- The list of fields, if it was read. -/
def members : List (Member (Option (List Field))) :=
  [{ key := "fields"
     isThere := Option.isSome
     read := fun _ => some <$> list Field.reader }]

/-- The fields as they stand in the text. -/
def fieldsReader : Reader (List Field) :=
  record members none fun
    | some fields => .ok fields
    | none => .error .unsuitable

def reader : Reader Schema := do
  match make (← fieldsReader) with
  | .ok s => return s
  | .error e => fail (.refused e)

end Schema

end RowFilter
