import Microkernel.System

/-! The printing of the init program: the system calls that its functions make, each with its number
in `rax` and its argument in `rdi`. -/

namespace Microkernel

namespace User

/-- `s.as_bytes()`. -/
def asBytes (s : String) : List UInt8 := s.toUTF8.data.toList

def sysPrintChar (c : UInt8) : UInt64 × UInt64 := (1, c.toUInt64)

def printStr (s : String) : List (UInt64 × UInt64) := (asBytes s).map sysPrintChar

end User

end Microkernel
