import Microkernel.Machine

/-! The transfer of control that is written by hand besides the wrappers: `switch_context`, by which
one flow of kernel code hands the processor to another.  `fork_ret` is the end of a wrapper,
`returnTo`. -/

namespace Microkernel

open Lib

/-- The processor in kernel code, and the memory. -/
structure Core where
  regs : Reg → UInt64
  rip : UInt64
  rsp : UInt64
  mem : Memory

/-- The registers that `switch_context` saves, in the order of its pushes. -/
def savedOrder : List Reg := [.rbp, .rbx, .r12, .r13, .r14, .r15]

/-- A call `switch_context(old_rsp, new_rsp)` that is to return to `ret`, up to the `ret` of the
callee. -/
def Core.switchContext (ret oldRsp newRsp : UInt64) (c : Core) : Core :=
  let regs := Function.update (Function.update c.regs .rdi oldRsp) .rsi newRsp
  let (mem, sp) := (c.mem.write64 (c.rsp - 8) ret).pushAll (c.rsp - 8) (savedOrder.map regs)
  let mem := mem.write64 (regs .rdi) sp
  let (regs, sp) := popRegs mem savedOrder.reverse regs (regs .rsi)
  ⟨regs, mem.read64 sp, sp + 8, mem⟩

/-- What a caller of `switch_context` relies on when the call returns: the registers that a call
keeps, where it goes on, and its stack pointer. -/
structure Resume where
  saved : List UInt64
  rip : UInt64
  rsp : UInt64

def Core.resume (c : Core) : Resume := ⟨savedOrder.map c.regs, c.rip, c.rsp⟩

/-- The byte at `a` is one of those in which the call waits: the word of its stack pointer, or the
seven words on its stack. -/
def Core.Waits (c : Core) (oldRsp a : UInt64) : Prop :=
  Memory.Within oldRsp 8 a ∨ Memory.Within (c.rsp - 56) 56 a

end Microkernel
