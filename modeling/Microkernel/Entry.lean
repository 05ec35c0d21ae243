import Microkernel.Machine

/-! The processor in a system call.  `syscall_entry` does not change the stack: it pushes on the
stack of its caller, where `handle_syscall` then runs in ring 0 and has its return address.
`SYS_YIELD` halts there with interrupts enabled, and the frame of an interrupt that comes in ring 0
is pushed on the same stack. -/

namespace Microkernel

open Lib

/-! ### `syscall_entry` -/

/-- The registers in the order of its pushes. -/
def entryOrder : List Reg :=
  [.r11, .rcx, .rbp, .rbx, .rdi, .rsi, .rdx, .r10, .r8, .r9, .r12, .r13, .r14, .r15]

/-- The registers in the order of its pops. -/
def exitOrder : List Reg :=
  [.r15, .r14, .r13, .r12, .r9, .r8, .r10, .rdx, .rsi, .rdi, .rbx, .rbp, .rcx, .r11]

def kernelCodeSelector : UInt64 := 0x08
def kernelDataSelector : UInt64 := 0x10
def interruptFlag : UInt64 := 0x200

/-- The instruction `syscall` leaves the return address in `rcx` and the flags in `r11`. -/
def syscallRegs (c : Context) : Reg → UInt64 :=
  Function.update (Function.update c.regs .rcx c.rip) .r11 c.rflags

/-- The moves that put the arguments of a system call where a C function takes them. -/
def moveArguments (regs : Reg → UInt64) : Reg → UInt64 :=
  let regs := Function.update regs .rdx (regs .rsi)
  let regs := Function.update regs .rsi (regs .rdi)
  Function.update regs .rdi (regs .rax)

/-- Ring 0, with the stack at `sp`. -/
def kernelAt (rflags : UInt64) (regs : Reg → UInt64) (rip sp : UInt64) : Context where
  regs := regs
  rip := rip
  cs := kernelCodeSelector
  rflags := rflags
  rsp := sp
  ss := kernelDataSelector

/-- `SYS_YIELD` where it halts. -/
def haltedAt (regs : Reg → UInt64) (rip sp : UInt64) : Context :=
  kernelAt interruptFlag regs rip sp

/-- A `ret` at `rip` with the stack at `sp`.  With an address that is not canonical it faults: the
processor stays where it is. -/
def retAt (m : Memory) (rflags : UInt64) (regs : Reg → UInt64) (rip sp : UInt64) : Context :=
  if Kernel.canonical (m.read64 sp) then kernelAt rflags regs (m.read64 sp) (sp + 8)
  else kernelAt rflags regs rip sp

/-- A `sysretq` in context `c`, which faults with an address that is not canonical. -/
def sysretq (c : Context) : Context :=
  if Kernel.canonical (c.regs .rcx) then
    { regs := c.regs
      rip := c.regs .rcx
      cs := userCodeSelector ||| 3
      rflags := c.regs .r11
      rsp := c.rsp
      ss := userDataSelector ||| 3 }
  else c

/-- The end of `syscall_entry`, with the saved registers at `sp`, and `regs` left by the handler;
`rip` is the place of its `sysretq`. -/
def exitTo (m : Memory) (regs : Reg → UInt64) (rip sp : UInt64) : Context :=
  let (regs, sp) := popRegs m exitOrder regs sp
  sysretq (kernelAt 0 regs rip sp)

/-! ### The machine with system calls -/

/-- What the compiler has made of `handle_syscall`: how many bytes of stack system call `id` has in
use, below its return address, where it accesses a message or halts; and that address, which
`call {handler}` pushes. -/
structure Compiled where
  depth : UInt64 → UInt64
  back : UInt64

/-- User code runs on, an interrupt or a fault is taken, user code executes `syscall`, the call that
was in `SYS_YIELD` goes on, or returns to user code. -/
inductive Trap
  | user (c : Context) (f : Memory)
  | interrupt (i : Interrupt)
  | syscall
  | onward
  | leave

namespace Machine

variable (code : Compiled)

def inUser (m : Machine) : Prop := m.cpu.cs % 4 = 3

instance (m : Machine) : Decidable m.inUser := inferInstanceAs (Decidable (_ = _))

/-- Code that runs on the stack below `sp` has left the memory `mem'` where `mem` was.  A stack has
at most the `2 ^ 48` canonical addresses. -/
def UsedBelow (sp : UInt64) (mem mem' : Memory) : Prop :=
  ∃ n : UInt64, n ≤ 0x1000000000000 ∧ ∀ a, ¬ Memory.Within (sp - n) n.toNat a → mem' a = mem a

/-- The `n` bytes from `sp` can be pushed in ring 0.  Otherwise the push faults, and so does the
push of that fault's frame: the handler of double faults panics. -/
def Pushed (k : Kernel) (sp : UInt64) (n : Nat) : Prop :=
  ∀ i < n, k.canWrite (sp + UInt64.ofNat i)

/-- An interrupt or a fault in ring 0 runs from the push of its frame, on the stack in use, to the
return of the wrapper. -/
def Nested (m : Machine) (i : Interrupt) (m' : Machine) : Prop := ∃ r k mem regs,
  Pushed m.kernel (m.enter i).2 (m.entryStack - (m.enter i).2).toNat ∧
    { m.kernel with mem := (m.enter i).1 }.step (i.event (m.enter i).2) = .ok (some r, k) ∧
    UsedBelow (m.enter i).2 k.mem mem ∧ m' = ⟨returnTo mem regs r, { k with mem := mem }⟩

/-- The memory and the stack pointer where `handle_syscall` is entered: the registers have been
pushed, and the return address. -/
def enterSyscall (m : Machine) : Memory × UInt64 :=
  m.kernel.mem.pushAll m.cpu.rsp (entryOrder.map (syscallRegs m.cpu) ++ [code.back])

/-- The stack pointer of the frame that a fault in system call `id` pushes, which has an error
code. -/
def faultFrame (m : Machine) (id : UInt64) : UInt64 :=
  let sp := (m.enterSyscall code).2 - code.depth id
  sp - sp % 16 - 8 * 21

/-- The registers with which `syscall_entry` calls `handle_syscall`. -/
def arguments (m : Machine) : Reg → UInt64 := moveArguments (syscallRegs m.cpu)

/-- The system call that the registers of the caller name. -/
def call (m : Machine) : Event :=
  .syscall (m.arguments .rdi) (m.arguments .rsi) (m.arguments .rdx)
    (m.faultFrame code (m.arguments .rdi))

/-- Where a call that has returned `value` goes on, with its return address at `sp`: `syscall_entry`
pops the registers, unless `ret` has found another address. -/
def backTo (mem : Memory) (regs : Reg → UInt64) (rip value sp : UInt64) : Context :=
  let regs := Function.update regs .rax value
  if mem.read64 sp = code.back then exitTo mem regs rip (sp + 8) else retAt mem 0 regs rip sp

/-- A system call runs with interrupts masked to its return, to the halt of `SYS_YIELD`, or to the
return of the handler of a fault in it. -/
def Calls (m m' : Machine) : Prop :=
  let id := m.arguments .rdi
  let sp := (m.enterSyscall code).2
  Pushed m.kernel sp 120 ∧
    match (Kernel.handleSyscall id (m.arguments .rsi) (m.arguments .rdx)).run
        { m.kernel with mem := (m.enterSyscall code).1 } with
    | .done value k => ∃ regs rip mem, UsedBelow sp k.mem mem ∧
        m' = ⟨if id = 12 then haltedAt regs rip (sp - code.depth id)
          else backTo code mem regs rip value sp, { k with mem := mem }⟩
    | .fault k => ∃ r k' mem regs, Pushed k (m.faultFrame code id) 168 ∧
        k.faultHandlerInner (m.faultFrame code id) = .ok (r, k') ∧ UsedBelow sp k'.mem mem ∧
        m' = ⟨returnTo mem regs r, { k' with mem := mem }⟩
    | .stop _ => False

/-! ### The way back from the halt

`SYS_YIELD` leaves interrupts enabled, so that on the way back from the halt they also come between
the instructions. -/

/-- Where a process is in its call of `SYS_YIELD`: in `handle_syscall`, or in `syscall_entry` with
the registers `rest` still to be popped. -/
inductive Place
  | handler
  | exit (rest : List Reg)

/-- Code of the call runs on, with the return address at `sp`.  It is followed as long as `ret`
finds that address: code elsewhere is not code of the call. -/
inductive Onward (sp : UInt64) (m : Machine) : Place → Option Place → Machine → Prop
  | handler {c : Context} {mem : Memory} {n : UInt64} (ring0 : c.cs = kernelCodeSelector)
      (enabled : c.rflags &&& interruptFlag ≠ 0) (few : n ≤ 0x1000000000000)
      (pointer : c.rsp = sp - n) (used : UsedBelow sp m.kernel.mem mem) :
      Onward sp m .handler (some .handler) ⟨c, { m.kernel with mem := mem }⟩
  | ret {c : Context} {mem : Memory} (used : UsedBelow sp m.kernel.mem mem)
      (found : mem.read64 sp = code.back) (ring0 : c.cs = kernelCodeSelector)
      (enabled : c.rflags &&& interruptFlag ≠ 0) (pointer : c.rsp = sp + 8)
      (result : c.regs .rax = 0) :
      Onward sp m .handler (some (.exit exitOrder)) ⟨c, { m.kernel with mem := mem }⟩
  | astray {regs : Reg → UInt64} {rip : UInt64} {mem : Memory}
      (used : UsedBelow sp m.kernel.mem mem) (other : mem.read64 sp ≠ code.back) :
      Onward sp m .handler none
        ⟨retAt mem interruptFlag regs rip sp, { m.kernel with mem := mem }⟩
  | pop {r : Reg} {rest : List Reg} (rip : UInt64) :
      Onward sp m (.exit (r :: rest)) (some (.exit rest))
        ⟨{ m.cpu with
            regs := Function.update m.cpu.regs r (m.kernel.mem.read64 m.cpu.rsp)
            rip := rip
            rsp := m.cpu.rsp + 8 }, m.kernel⟩

end Machine

/-- The machine, with the place of every process that is in `SYS_YIELD` and the stack pointer of its
return address. -/
structure Placed where
  machine : Machine
  place : TaskRef → Option (UInt64 × Machine.Place)

namespace Placed

variable (code : Compiled)

/-- No process has made a call yet. -/
def start (m : Machine) : Placed := ⟨m, fun _ => none⟩

/-- The process that runs. -/
def Runs (s : Placed) (t : TaskRef) : Prop :=
  s.machine.kernel.taskList[s.machine.kernel.currentTaskIdx]? = some t

/-- In ring 0 interrupts come only while they are enabled, and a fault may come anywhere. -/
def Trapped (s : Placed) : Trap → Placed → Prop
  | .user c f, s' =>
    s.machine.inUser ∧ s.machine.Step (.user c f) s'.machine ∧ s'.place = s.place
  | .interrupt i, s' => s'.place = s.place ∧
    if s.machine.inUser then s.machine.Step (.interrupt i) s'.machine
    else (i.errorCode = none → s.machine.cpu.rflags &&& interruptFlag ≠ 0) ∧
      s.machine.Nested i s'.machine
  | .syscall, s' => ∃ t, s.Runs t ∧ s.machine.inUser ∧
    s.machine.Calls code s'.machine ∧
    s'.place = Function.update s.place t
      (if s.machine.arguments .rdi = 12 then some ((s.machine.enterSyscall code).2, .handler)
        else none)
  | .onward, s' => ∃ t sp p p', s.Runs t ∧ ¬ s.machine.inUser ∧
    s.place t = some (sp, p) ∧ s.machine.Onward code sp p p' s'.machine ∧
    s'.place = Function.update s.place t (p'.map fun p' => (sp, p'))
  | .leave, s' => ∃ t sp, s.Runs t ∧ ¬ s.machine.inUser ∧
    s.place t = some (sp, .exit []) ∧
    s' = ⟨⟨sysretq s.machine.cpu, s.machine.kernel⟩, Function.update s.place t none⟩

end Placed

end Microkernel
