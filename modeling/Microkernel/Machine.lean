import Microkernel.Boot

/-! The processor under the handlers: how an interrupt is entered through its wrapper, how the
wrapper's pops and `iretq` return from it, and how user code runs in between. -/

namespace Microkernel

open Lib

/-- The general registers other than the stack pointer. -/
inductive Reg
  | rax | rbx | rcx | rdx | rdi | rsi | rbp | r8 | r9 | r10 | r11 | r12 | r13 | r14 | r15
deriving DecidableEq, Repr

/-- What the processor holds of the program it runs. -/
structure Context where
  regs : Reg → UInt64
  rip : UInt64
  cs : UInt64
  rflags : UInt64
  rsp : UInt64
  ss : UInt64

/-! ### `handler_wrapper` -/

/-- The registers in the order of the pushes. -/
def pushOrder : List Reg :=
  [.rax, .rbx, .rcx, .rdx, .rdi, .rsi, .rbp, .r8, .r9, .r10, .r11, .r12, .r13, .r14, .r15]

/-- The registers in the order of the pops. -/
def popOrder : List Reg :=
  [.r15, .r14, .r13, .r12, .r11, .r10, .r9, .r8, .rbp, .rsi, .rdi, .rdx, .rcx, .rbx, .rax]

/-- Pops into the registers, in order, from the stack at `sp`. -/
def popRegs (m : Memory) : List Reg → (Reg → UInt64) → UInt64 → (Reg → UInt64) × UInt64
  | [], regs, sp => (regs, sp)
  | r :: rs, regs, sp => popRegs m rs (Function.update regs r (m.read64 sp)) (sp + 8)

/-- `iretq` with the stack at `sp`. -/
def iretq (m : Memory) (regs : Reg → UInt64) (sp : UInt64) : Context where
  regs := regs
  rip := m.read64 sp
  cs := m.read64 (sp + 8)
  rflags := m.read64 (sp + 16)
  rsp := m.read64 (sp + 24)
  ss := m.read64 (sp + 32)

/-- The end of the wrapper, with the stack at `rsp` and `regs` left by the handler: fifteen pops and
`iretq`.  The entry into the first process at the end of `kernel_main` is the same code. -/
def returnTo (m : Memory) (regs : Reg → UInt64) (rsp : UInt64) : Context :=
  let (regs, sp) := popRegs m popOrder regs rsp
  iretq m regs sp

/-- What the processor pushes for an interrupt: some faults come with an error code. -/
def hardwareFrame (c : Context) (errorCode : Option UInt64) : List UInt64 :=
  [c.ss, c.rsp, c.rflags, c.cs, c.rip] ++ errorCode.toList

/-- An interrupt or a fault whose gate leads to a wrapper. -/
inductive Interrupt
  | timer (scripts : List PollScript)
  | keyboard (data : UInt8) (scripts : List PollScript)
  | serial (data : UInt8) (scripts : List PollScript)
  | gpf (errorCode : UInt64)
  | pageFault (errorCode : UInt64)

namespace Interrupt

def errorCode : Interrupt → Option UInt64
  | gpf code | pageFault code => some code
  | _ => none

/-- The handler that the wrapper calls with the stack pointer `rsp`. -/
def event (rsp : UInt64) : Interrupt → Event
  | timer scripts => .timer scripts rsp
  | keyboard data scripts => .keyboard data scripts rsp
  | serial data scripts => .serial data scripts rsp
  | gpf _ => .gpf rsp
  | pageFault _ => .pageFault rsp

end Interrupt

/-! ### The machine -/

structure Machine where
  cpu : Context
  kernel : Kernel

inductive Action
  | user (c : Context) (f : Memory)
  | interrupt (i : Interrupt)

def Action.isFault : Action → Bool
  | .user _ _ => false
  | .interrupt i => i.errorCode.isSome

namespace Machine

/-- Where the processor pushes the frame of an interrupt: in user mode on the stack of the TSS,
otherwise on its own, and in both cases at a multiple of 16. -/
def entryStack (m : Machine) : UInt64 :=
  let sp := if m.cpu.cs % 4 = 3 then m.kernel.rsp0 else m.cpu.rsp
  sp - sp % 16

/-- The memory and the stack pointer when the wrapper calls the handler. -/
def enter (m : Machine) (i : Interrupt) : Memory × UInt64 :=
  m.kernel.mem.pushAll m.entryStack (hardwareFrame m.cpu i.errorCode ++ pushOrder.map m.cpu.regs)

/-- Code that runs on the kernel stack of the current process below `rsp` has left the memory `mem'`
where `mem` was: it has stored to nothing else, and not below the bottom of that stack. -/
def StackUsed (k : Kernel) (rsp : UInt64) (mem mem' : Memory) : Prop :=
  ∀ t bottom, k.taskList[k.currentTaskIdx]? = some t →
    bottom = (k.task t).kernelStackTop - kstackSize →
    ∀ a, ¬ Memory.Within bottom (rsp - bottom).toNat a → mem' a = mem a

/-- User code leaves any context that stays in user mode, and stores where it may.  An interrupt
runs from the push of its frame to the return of the wrapper. -/
def Step (m : Machine) : Action → Machine → Prop
  | .user c f, m' => c.cs % 4 = 3 ∧ m' = ⟨c, m.kernel.userWrites f⟩
  | .interrupt i, m' => ∃ r k mem regs,
      { m.kernel with mem := (m.enter i).1 }.step (i.event (m.enter i).2) = .ok (some r, k) ∧
        StackUsed m.kernel (m.enter i).2 k.mem mem ∧
        m' = ⟨returnTo mem regs r, { k with mem := mem }⟩

/-- The machine at the end of `kernel_main`, after the entry into the first process. -/
def Boots (images : List Image) (monitorStackTop : UInt64) (mem : Memory)
    (pages : UInt64 → Option PageFlags) (m : Machine) : Prop :=
  ∃ k t regs, Kernel.kernelMain images monitorStackTop mem pages = .ok k ∧
    k.taskList[0]? = some t ∧ m = ⟨returnTo k.mem regs (k.task t).kernelRsp, k⟩

end Machine

/-! ### What the machine is for -/

/-- Processes that each have a context of their own, of which one runs. -/
structure Processes where
  running : Nat
  context : Nat → Context

namespace Processes

/-- The context in which a process begins. -/
def firstContext (image : Image) : Context where
  regs := fun _ => 0
  rip := image.entry
  cs := userCodeSelector ||| 3
  rflags := 0x202
  rsp := image.userStackTop
  ss := userDataSelector ||| 3

def start (images : List Image) : Processes where
  running := 0
  context i := firstContext (images[i]?.getD ⟨0, 0, 0⟩)

/-- User code changes the context of the process that runs.  An interrupt changes no context: it
lets process `next` run. -/
def after (p : Processes) (next : Nat) : Action → Processes
  | .user c _ => { p with context := Function.update p.context p.running c }
  | .interrupt _ => { p with running := next }

end Processes

end Microkernel
