import RowFilter.Selection

/-!
# Views

A `View` shows the rows of a source that a selection names, without copying them. A source is
anything that can be read by row: a column, another view, or a source of the caller's own. Its rows
are read one after another by the cursor `Source.cursor`. That every selected row is in the source
is checked once, when the view is made.
-/

namespace RowFilter

/-- Values of one type that can be read by row. -/
structure Source where
  type : DataType
  length : Nat
  get : Nat → Except Error Value
  /-- The array that holds the rows, if one does. -/
  stored : Option Interchange.ArrayData

/-- A column is read from its array. -/
def Column.toSource (c : Column) : Source where
  type := c.type
  length := c.length
  get := c.get
  stored := some c.toArray

/-- A source of the caller's own, which no array holds. Reading a row may fail for a reason of the
caller's. -/
def Source.custom (type : DataType) (length : Nat)
    (read : Nat → Except (ErrorKind × String) Value) : Source where
  type := type
  length := length
  get := fun row => (read row).mapError fun (kind, detail) => .reported kind detail
  stored := none

namespace Source

/-- Whether the value in a row is null. -/
def isNull (s : Source) (row : Nat) : Except Error Bool := (s.get row).map Value.isNull

/-- The values of all rows, in order; a row that cannot be read gives its error. -/
def values (s : Source) : List (Except Error Value) := (List.range s.length).map s.get

/-- A cursor before the first row. It does not stop at a row that cannot be read. -/
def cursor (s : Source) : Cursor (Except Error Value) where
  read? := fun row => if s.length ≤ row then none else some (s.get row)
  length := s.length
  read?_eq_none_iff := fun row => by simp
  position := 0

end Source

/-- Every selected row is below a length; otherwise the first position where it is not. -/
def Selection.checkBounds (s : Selection) (length : Nat) : Except Error Unit :=
  match s.rows.zipIdx.find? (fun p => decide (length ≤ p.1)) with
  | some (row, position) => .error (.selectionOutOfBounds position row length)
  | none => .ok ()

/-- The rows of an array that a selection names. That they are all there is checked first. -/
def Interchange.ArrayData.take (a : Interchange.ArrayData) (s : Selection) :
    Except Error Interchange.ArrayData := do
  s.checkBounds a.length
  return a.gather s.rows

structure View where
  source : Source
  selection : Selection

namespace View

/-- The view of a source through a selection. -/
def make (source : Source) (selection : Selection) : Except Error View := do
  selection.checkBounds source.length
  return ⟨source, selection⟩

def type (v : View) : DataType := v.source.type

def length (v : View) : Nat := v.selection.length

/-- The value at a position of the selection. -/
def get (v : View) (position : Nat) : Except Error Value :=
  match v.selection.get? position with
  | some row => v.source.get row
  | none => .error (.outOfBounds .view position v.length)

/-- A view is a source in its turn; no array holds its rows. -/
def toSource (v : View) : Source where
  type := v.type
  length := v.length
  get := v.get
  stored := none

/-- The values in order. -/
def values (v : View) : List (Except Error Value) := v.toSource.values

/-- The view through several selections, each of which selects from the view before. -/
def through (source : Source) (first : Selection) (rest : List Selection) : Except Error View := do
  rest.foldlM (fun v s => make v.toSource s) (← make source first)

/-- The array of some values, in which a value of another type is null. -/
def collect {α : Type} (values : List (Except Error Value)) (cell : Value → Option α) :
    Except Error (Array (Option α)) := do
  let values ← values.mapM id
  return (values.map cell).toArray

/-- The viewed rows as an array of their own: gathered from the array of the source if it has one,
and otherwise value by value. -/
def toArray (v : View) : Except Error Interchange.ArrayData :=
  match v.source.stored with
  | some a => a.take v.selection
  | none =>
    match v.type with
    | .int64 => .int64 <$> collect v.values Value.asInt64?
    | .float64 => .float64 <$> collect v.values Value.asFloat64?
    | .bool => .boolean <$> collect v.values Value.asBool?
    | .null => .error .untypedView

end View

end RowFilter
