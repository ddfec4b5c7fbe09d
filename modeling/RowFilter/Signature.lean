import RowFilter.Kernel

/-!
# Signatures

A `Signature` is one overload of a named function: its operand types, its result type and the
kernel that computes it.
-/

namespace RowFilter

structure Signature where
  name : String
  args : List DataType
  ret : DataType
  kernel : Kernel
  deriving DecidableEq, Inhabited

namespace Signature

def nullHandling (s : Signature) : NullHandling := s.kernel.nullHandling

/-- Whether the kernel can run with the declared types. -/
def fits (s : Signature) : Bool := s.kernel.accepts s.args s.ret

/-- A function name with operand types, as in a call. -/
def callText (name : String) (args : List DataType) : String :=
  name ++ "(" ++ DataType.listText args ++ ")"

def text (s : Signature) : String := callText s.name s.args ++ " -> " ++ s.ret.name

end Signature

end RowFilter
