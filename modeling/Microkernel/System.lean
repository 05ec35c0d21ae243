import Microkernel.Interrupts
import Microkernel.Lib.Run
import Microkernel.Syscall

/-! The kernel as a system: everything that can happen to its state, and runs of such events.  The
handlers run with interrupts masked, so an event is one handler from its entry to its return. -/

namespace Microkernel

open Lib

/-- What can happen: an interrupt or a fault, with the stack pointer of the frame that the wrapper
pushed; a call of `handle_syscall`, with the stack pointer of the frame that a fault in it pushes;
stores by user code; and what kernel code does outside the handlers.  The state before an interrupt
or a call is the one after the pushes of its entry code. -/
inductive Event
  | timer (scripts : List PollScript) (rsp : UInt64)
  | keyboard (data : UInt8) (scripts : List PollScript) (rsp : UInt64)
  | serial (data : UInt8) (scripts : List PollScript) (rsp : UInt64)
  | gpf (rsp : UInt64)
  | pageFault (rsp : UInt64)
  | syscall (id arg1 arg2 rsp : UInt64)
  | userWrites (f : Memory)
  | spawn (kstackTop : UInt64)
  | wake (id : TaskId)
  | receive (t : TaskRef) (cx : TaskWaker)
  | pollTasks (scripts : List PollScript)

namespace Kernel

/-- A system call with what follows a fault in it: the handlers of the two faults do the same. -/
def syscall (id arg1 arg2 rsp : UInt64) (k : Kernel) : Except Stop (Option UInt64 × Kernel) :=
  match (handleSyscall id arg1 arg2).run k with
  | .done _ k => .ok (none, k)
  | .fault k => (faultHandlerInner rsp k).map fun (rsp, k) => (some rsp, k)
  | .stop reason => .error reason

/-- The stack pointer that a wrapper loads, when the event is handled by one, and the state. -/
def step : Event → Kernel → Except Stop (Option UInt64 × Kernel)
  | .timer scripts rsp, k => (timerHandlerInner scripts rsp k).map fun (rsp, k) => (some rsp, k)
  | .keyboard data scripts rsp, k =>
    (keyboardHandlerInner data scripts rsp k).map fun (rsp, k) => (some rsp, k)
  | .serial data scripts rsp, k =>
    (serialHandlerInner data scripts rsp k).map fun (rsp, k) => (some rsp, k)
  | .gpf rsp, k => (gpfHandlerInner rsp k).map fun (rsp, k) => (some rsp, k)
  | .pageFault rsp, k => (pageFaultHandlerInner rsp k).map fun (rsp, k) => (some rsp, k)
  | .syscall id arg1 arg2 rsp, k => k.syscall id arg1 arg2 rsp
  | .userWrites f, k => .ok (none, k.userWrites f)
  | .spawn kstackTop, k => (k.spawnStatic kstackTop).map fun k => (none, k)
  | .wake id, k => .ok (none, k.wakeTask id)
  | .receive t cx, k => .ok (none, (k.ipcReceivePoll t cx).2)
  | .pollTasks scripts, k => (k.pollKernelTasks scripts).map fun k => (none, k)

/-- The event leads from `k` to `k'`. -/
def Step (k : Kernel) (e : Event) (k' : Kernel) : Prop := ∃ rsp, k.step e = .ok (rsp, k')

end Kernel

end Microkernel
