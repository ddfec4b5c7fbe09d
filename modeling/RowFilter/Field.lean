import RowFilter.DataType

/-!
# Fields
-/

namespace RowFilter

/-- The declaration of a column: its name, its type, and whether it may hold nulls. -/
structure Field where
  name : String
  type : DataType
  nullable : Bool
  deriving DecidableEq, Inhabited

namespace Field

def text (f : Field) : String := f.name ++ ": " ++ f.type.name

/-- Several declarations, in brackets. -/
def listText (fields : List Field) : String := "[" ++ ", ".intercalate (fields.map text) ++ "]"

end Field

end RowFilter
