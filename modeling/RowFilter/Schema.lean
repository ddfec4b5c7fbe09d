import RowFilter.Error

/-!
# Schemas

A `Schema` is a list of fields with distinct names and column types. It is made by `Schema.make`,
which reports the first field that breaks one of the two rules; `Schema.firstFault_eq_none_iff`
says that there is no such field exactly when both rules hold.
-/

namespace RowFilter

namespace Schema

/-- What is wrong with the first field that repeats a seen name or has no column type. -/
def firstFault (seen : List String) : List Field → Option Error
  | [] => none
  | f :: rest =>
    if f.name ∈ seen then some (.duplicateField f.name)
    else if !f.type.isColumnType then some (.untypedField f)
    else firstFault (f.name :: seen) rest

/-- No fault is found just if the names are new and distinct and all types are of columns. -/
theorem firstFault_eq_none_iff {seen : List String} {fields : List Field} :
    firstFault seen fields = none ↔
      (∀ f ∈ fields, f.name ∉ seen) ∧ (fields.map (·.name)).Nodup ∧
        ∀ f ∈ fields, f.type.isColumnType = true := by
  induction fields generalizing seen with
  | nil => simp [firstFault]
  | cons f rest ih => by_cases h : f.name ∈ seen <;> grind [firstFault]

end Schema

/-- Fields with distinct names and column types. -/
structure Schema where
  fields : List Field
  namesDistinct : (fields.map (·.name)).Nodup
  columnTypes : ∀ f ∈ fields, f.type.isColumnType = true
  deriving DecidableEq

namespace Schema

def empty : Schema := ⟨[], by simp, by simp⟩

instance : Inhabited Schema := ⟨empty⟩

/-- The schema of the fields, if there is one. -/
def make (fields : List Field) : Except Error Schema :=
  match h : firstFault [] fields with
  | some e => .error e
  | none => .ok
      { fields
        namesDistinct := (firstFault_eq_none_iff.mp h).2.1
        columnTypes := (firstFault_eq_none_iff.mp h).2.2 }

def length (s : Schema) : Nat := s.fields.length

def names (s : Schema) : List String := s.fields.map (·.name)

/-- The position of the field of a name. -/
def index? (s : Schema) (name : String) : Option Nat := s.fields.findIdx? (·.name == name)

/-- The field of a name. -/
def find? (s : Schema) (name : String) : Option Field := s.fields.find? (·.name == name)

def text (s : Schema) : String := Field.listText s.fields

end Schema

end RowFilter
