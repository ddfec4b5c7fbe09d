import RowFilter.Json
import RowFilter.Json.TypedReader
import RowFilter.Selection

/-!
# Configuration

A `Config` says how selections are allocated and how much memory they may take. It is read from
JSON, where every section and every key may be left out and unknown keys are skipped, and it is
written with all of them.
-/

namespace RowFilter

open Json Reader

/-- How wide the rows of a selection are stored. -/
inductive IndexWidth
  /-- As narrow as the capacity allows. -/
  | auto
  | int16
  | int32
  | int64
  deriving DecidableEq, Inhabited

namespace IndexWidth

def name : IndexWidth → String
  | auto => "auto"
  | int16 => "int16"
  | int32 => "int32"
  | int64 => "int64"

/-- Every width. -/
def all : List IndexWidth := [auto, int16, int32, int64]

def ofName? (name : String) : Option IndexWidth := all.find? (·.name == name)

/-- The index type for a capacity. -/
def indexType (capacity : Nat) : IndexWidth → IndexType
  | auto => .narrowestFor capacity
  | int16 => .uint16
  | int32 => .uint32
  | int64 => .uint64

def reader : Reader IndexWidth := oneOf (all.map fun w => .plain w.name w)

end IndexWidth

/-- How selections are allocated. -/
structure SelectionConfig where
  indexWidth : IndexWidth := .auto
  deriving DecidableEq, Inhabited

/-- How much memory may be reserved; without a limit, all there is. -/
structure MemoryConfig where
  limit : Option Nat := none
  deriving DecidableEq, Inhabited

structure Config where
  selection : SelectionConfig := {}
  memory : MemoryConfig := {}
  deriving DecidableEq, Inhabited

/-- A budget as configured; the limit `0` counts as no limit. -/
def MemoryConfig.budget (c : MemoryConfig) : Budget := .limited (c.limit.getD 0)

namespace SelectionConfig

def members : List (Member (Option IndexWidth)) :=
  [{ key := "index_width"
     isThere := Option.isSome
     read := fun _ => some <$> IndexWidth.reader }]

def reader : Reader SelectionConfig :=
  record members none fun width => .ok { indexWidth := width.getD .auto }

end SelectionConfig

namespace MemoryConfig

def members : List (Member (Option (Option Nat))) :=
  [{ key := "limit"
     isThere := Option.isSome
     read := fun _ => some <$> option natural }]

def reader : Reader MemoryConfig :=
  record members none fun limit => .ok { limit := limit.getD none }

end MemoryConfig

namespace Config

/-- A configuration of which not every section is read yet. -/
structure Partial where
  selection : Option SelectionConfig := none
  memory : Option MemoryConfig := none

def members : List (Member Partial) :=
  [{ key := "selection"
     isThere := fun c => c.selection.isSome
     read := fun c => do return { c with selection := some (← SelectionConfig.reader) } },
    { key := "memory"
      isThere := fun c => c.memory.isSome
      read := fun c => do return { c with memory := some (← MemoryConfig.reader) } }]

def reader : Reader Config :=
  record members {} fun c =>
    .ok { selection := c.selection.getD {}, memory := c.memory.getD {} }

/-- Reads a configuration from JSON. -/
def ofText (text : String) : Except Fault Config := reader.run text

def toJson (c : Config) : Json :=
  .object
    [("selection", .object [("index_width", .string c.selection.indexWidth.name)]),
      ("memory", .object [("limit", c.memory.limit.elim .null fun n => .integer n)])]

/-- The text of a configuration, one member to a line. -/
def toText (c : Config) : String := c.toJson.pretty

end Config

end RowFilter
