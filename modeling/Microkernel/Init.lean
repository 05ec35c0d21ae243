import Microkernel.Boot
import Microkernel.User

/-! The init program, which both processes of `kernel_main` run, and the session of the two over the
kernel.  Process A echoes what arrives on the serial line; process B looks process A up and then
executes an instruction that only the kernel may.  A process is at a control point, from which it
makes a system call or runs code of its own up to the next point, and an interrupt may come between
any two points. -/

namespace Microkernel

open Lib

namespace Init

open User

/-! ### The program -/

/-- `SERVICE_NAME_SERIAL`. -/
def serviceNameSerial : UInt64 := 0x20204C4149524553

def greeting : List UInt8 :=
  asBytes "\x1b[32;1m[Process A] SERIAL server online. Type something!\x1b[0m\n> "

/-- What process A prints for a byte from the serial line. -/
def echo (c : UInt8) : List UInt8 := asBytes "\x1b[32;1m" ++ [c] ++ asBytes "\x1b[0m"

def announcement : List UInt8 :=
  asBytes "\x1b[33m[Process B] Started. Target: Search & Die.\x1b[0m\n"

/-- What process B prints about the process that it has found. -/
def report (pid : UInt64) : List UInt8 :=
  asBytes "[Process B] Service SERIAL is at PID " ++ [pid.toUInt8 + 0x30] ++ asBytes "\n"

def farewell : List UInt8 :=
  asBytes "\x1b[31;1m[Process B] Executing 'hlt' to test Fault Isolation...\x1b[0m\n"

/-- What a process does at a control point: a system call with its number and its first argument,
`hlt`, or code that makes no call. -/
inductive Act
  | call (id arg1 : UInt64)
  | hlt
  | own
deriving DecidableEq

/-- Process A: at `sys_reg_service`; with the rest of a text to print, and at `sys_recv` when none
is left; where `sys_recv` has returned 1; at `sys_yield`. -/
inductive Server
  | registering
  | printing (rest : List UInt8)
  | received
  | yielding
deriving DecidableEq

/-- Process B: with the rest of its first line to print; with the turns of the loop of `pause` left;
at `sys_get_service_pid`; with the rest of its report; with the rest of its last line, and at `hlt`
when nothing is left of it. -/
inductive Client
  | starting (rest : List UInt8)
  | pausing (left : Nat)
  | looking
  | reporting (rest : List UInt8)
  | leaving (rest : List UInt8)
deriving DecidableEq

/-- A control point of `_start`. -/
inductive Point
  | server (p : Server)
  | client (p : Client)
deriving DecidableEq

/-- `_start` up to its branch, with the stack pointer that the process begins with. -/
def start (rsp : UInt64) : Point :=
  if rsp > 0x35000000 then .client (.starting announcement) else .server .registering

/-- What process A does, with `msg` at `buf`. -/
def Server.act (buf : UInt64) : Server → Act
  | .registering => .call 14 serviceNameSerial
  | .printing (b :: _) => .call 1 b.toUInt64
  | .printing [] => .call 11 buf
  | .received => .own
  | .yielding => .call 12 0

def Client.act : Client → Act
  | .starting (b :: _) | .reporting (b :: _) | .leaving (b :: _) => .call 1 b.toUInt64
  | .starting [] | .reporting [] | .pausing _ => .own
  | .looking => .call 15 serviceNameSerial
  | .leaving [] => .hlt

/-- The next control point of process A, where a call returned `result` and the memory is `mem`. -/
def Server.next (buf result : UInt64) (mem : Memory) : Server → Server
  | .registering => .printing greeting
  | .printing (_ :: rest) => .printing rest
  | .printing [] => if result = 1 then .received else .yielding
  | .received =>
    -- `msg.label` and `msg.payload[0]`.
    if mem.read64 (buf + 16) = 3 then .printing (echo (mem.read64 (buf + 24)).toUInt8)
    else .printing []
  | .yielding => .printing []

def Client.next (result : UInt64) : Client → Client
  | .starting (_ :: rest) => .starting rest
  | .starting [] => .pausing 5000000
  | .pausing (left + 1) => .pausing left
  | .pausing 0 => .looking
  | .looking =>
    if result ≠ 0xFFFFFFFFFFFFFFFF then .reporting (report result) else .leaving farewell
  | .reporting (_ :: rest) => .reporting rest
  | .reporting [] => .leaving farewell
  | .leaving (_ :: rest) => .leaving rest
  | .leaving [] => .leaving []

def Point.act (buf : UInt64) : Point → Act
  | .server p => p.act buf
  | .client p => p.act

def Point.next (buf result : UInt64) (mem : Memory) : Point → Point
  | .server p => .server (p.next buf result mem)
  | .client p => .client (p.next result)

/-! ### The session -/

/-- The kernel with the control point of each process.  `halted` says that the process that runs is
in the `hlt` of its `SYS_YIELD`. -/
structure Session where
  kernel : Kernel
  point : Nat → Point
  halted : Bool

/-- What happens in the session.  Process `i` does what it does at its control point, with `arg2` in
the register of the second argument; it stores to memory; an interrupt comes.  `rsp` is the stack
pointer of the frame that an interrupt or a fault pushes. -/
inductive Event
  | user (i : Nat) (arg2 rsp : UInt64)
  | stores (i : Nat) (f : Memory)
  | timer (rsp : UInt64)
  | keyboard (data : UInt8) (rsp : UInt64)
  | serial (data : UInt8) (rsp : UInt64)

namespace Session

/-- The process that runs goes on to its next control point. -/
def advance (buf result : UInt64) (s : Session) : Session :=
  let i := s.kernel.currentTaskIdx
  { s with point := Function.update s.point i ((s.point i).next buf result s.kernel.mem) }

/-- The interrupt ends a halt.  The one kernel task is the monitor, whose future returns
`Poll::Ready` when it is polled. -/
def interrupted (e : Microkernel.Event) (s : Session) : Except Stop Session :=
  (s.kernel.step e).map fun (_, k) => { s with kernel := k, halted := false }

/-- The process that runs does what it does at its control point. -/
def userStep (buf arg2 rsp : UInt64) (s : Session) : Except Stop Session :=
  match (s.point s.kernel.currentTaskIdx).act buf with
  | .own => .ok (s.advance buf 0)
  | .hlt => (s.kernel.gpfHandlerInner rsp).map fun (_, k) => { s with kernel := k }
  | .call id arg1 =>
    match (Kernel.handleSyscall id arg1 arg2).run s.kernel with
    | .done value k => .ok { advance buf value { s with kernel := k } with halted := id = 12 }
    | .fault k => (k.faultHandlerInner rsp).map fun (_, k) => { s with kernel := k }
    | .stop reason => .error reason

def step (buf : UInt64) : Event → Session → Except Stop Session
  | .user _ arg2 rsp, s => s.userStep buf arg2 rsp
  | .stores _ f, s => .ok { s with kernel := s.kernel.userWrites f }
  | .timer rsp, s => s.interrupted (.timer [.ready] rsp)
  | .keyboard data rsp, s => s.interrupted (.keyboard data [.ready] rsp)
  | .serial data rsp, s => s.interrupted (.serial data [.ready] rsp)

/-- A process acts while it runs and is not halted, and its stores leave `msg` alone. -/
def Enabled (buf : UInt64) (s : Session) : Event → Prop
  | .user i _ _ => i = s.kernel.currentTaskIdx ∧ s.halted = false
  | .stores i f => i = s.kernel.currentTaskIdx ∧ s.halted = false ∧
      ∀ n < 40, f (buf + UInt64.ofNat n) = s.kernel.mem (buf + UInt64.ofNat n)
  | _ => True

def Step (buf : UInt64) (s : Session) (e : Event) (s' : Session) : Prop :=
  s.Enabled buf e ∧ s.step buf e = .ok s'

/-- The session begins when `kernel_main` has handed over to the first process. -/
def Begins (entry kstackA kstackB monitorStackTop : UInt64) (mem : Memory)
    (pages : UInt64 → Option PageFlags) (s : Session) : Prop :=
  Kernel.kernelMain (Kernel.processImages entry kstackA kstackB) monitorStackTop mem pages =
      .ok s.kernel ∧
    (∀ i image, (Kernel.processImages entry kstackA kstackB)[i]? = some image →
      s.point i = start image.userStackTop) ∧
    s.halted = false

end Session

end Init

end Microkernel
