import Microkernel.Executor

/-! The system calls.  A handler may end in a fault at an access through a user pointer, and then
the guards it holds are not dropped: the result of a call says whether it returned, faulted or gave
no result, with the kernel's state at that moment. -/

namespace Microkernel

open Lib

/-- How a computation that may fault ends. -/
inductive Outcome (α : Type)
  | done (value : α) (k : Kernel)
  | fault (k : Kernel)
  | stop (reason : Stop)

/-- Code of a system call handler. -/
def Sys (α : Type) := Kernel → Outcome α

namespace Sys

variable {α β : Type}

def run (x : Sys α) (k : Kernel) : Outcome α := x k

instance : Monad Sys where
  pure a := fun k => .done a k
  bind x f := fun k =>
    match x k with
    | .done a k => f a k
    | .fault k => .fault k
    | .stop reason => .stop reason

def read (f : Kernel → α) : Sys α := fun k => .done (f k) k

def modify (f : Kernel → Kernel) : Sys Unit := fun k => .done () (f k)

/-- The body run with the guard `g` held, which its end drops and a fault does not. -/
def guarded (g : Guard) (body : Sys α) : Sys α := fun k =>
  match body (k.acquire g) with
  | .done a k => .done a (k.release g)
  | .fault k => .fault k
  | .stop reason => .stop reason

/-- `Mutex::lock` or `RwLock::write`. -/
def lock (l : Lock) (body : Sys α) : Sys α := fun k =>
  if k.isHeld l then .stop .spins else guarded ⟨l, false⟩ body k

/-- `RwLock::read`. -/
def lockShared (l : Lock) (body : Sys α) : Sys α := fun k =>
  if k.isHeldExclusively l then .stop .spins else guarded ⟨l, true⟩ body k

/-- `Mutex::try_lock`. -/
def tryLock (l : Lock) (body otherwise : Sys α) : Sys α := fun k =>
  if k.isHeld l then otherwise k else guarded ⟨l, false⟩ body k

/-! ### User pointers -/

/-- `*msg_ptr`, a load of the 40 bytes of a message. -/
def loadMessage (ptr : UInt64) : Sys Message := fun k =>
  if ∀ i < 40, k.canRead (ptr + UInt64.ofNat i) then
    .done
      (.ofWords (k.mem.read64 ptr) (k.mem.read64 (ptr + 8)) (k.mem.read64 (ptr + 16))
        (k.mem.read64 (ptr + 24)) (k.mem.read64 (ptr + 32))) k
  else
    .fault k

/-- Words stored from `ptr` on: all of them, or none where one of their bytes cannot be stored
to. -/
def storeWords (ptr : UInt64) (ws : List UInt64) : Sys Unit := fun k =>
  if ∀ i < 8 * ws.length, k.canWrite (ptr + UInt64.ofNat i) then
    .done () { k with mem := k.mem.storeAll ptr ws }
  else
    .fault k

/-- `write_volatile(msg_ptr, msg)`. -/
def storeMessage (ptr : UInt64) (msg : Message) : Sys Unit := storeWords ptr msg.words

end Sys

namespace Kernel

open Sys

/-- `SYS_PRINT`: `print!` sends the UTF-8 bytes of the character. -/
def sysPrint (arg1 : UInt64) : Sys UInt64 := do
  modify fun k =>
    { k with printed := k.printed ++ String.utf8EncodeChar (Char.ofUInt8 arg1.toUInt8) }
  pure 0

def sysExit : Sys UInt64 := do
  let currentId ← read Kernel.currentTaskId
  lockShared .taskRegistry do
    match ← read fun k => k.taskRegistry ⟨currentId⟩ with
    | some task => lock (.state task) (modify fun k => k.setState task .terminated)
    | none => pure ()
  pure 0

/-- The part of `SYS_SEND` after the target's mailbox is stored: a target that waits is made
`Ready` and woken. -/
def wakeTarget (target : TaskRef) : Sys Unit :=
  lock (.state target) do
    if (← read fun k => (k.task target).state) = .blocked then
      modify fun k => k.setState target .ready
      lock (.waker target) do
        match ← read fun k => (k.task target).waker with
        | some waker => do
          modify fun k => k.modifyTask target fun task => { task with waker := none }
          modify fun k => k.wakeTask waker.taskId
        | none => pure ()

def sysSend (arg1 arg2 : UInt64) : Sys UInt64 :=
  if arg2 < 0x20000000 then
    pure 2
  else do
    let msg ← loadMessage arg2
    lockShared .taskRegistry do
      match ← read fun k => k.taskRegistry ⟨arg1⟩ with
      | some target => do
        lock (.mailbox target) do
          modify fun k => k.modifyTask target fun task => { task with mailbox := some msg }
          wakeTarget target
        modify fun k => k.observe (.acknowledged target msg)
        pure 0
      | none => pure 1

def sysRecv (arg1 : UInt64) : Sys UInt64 :=
  tryLock .initMailbox
    (do
      match ← read Kernel.initMailbox with
      | some msg => do
        modify fun k => { k with initMailbox := none }
        storeMessage arg1 msg
        modify fun k => k.observe (.received msg)
        pure 1
      | none => pure 0)
    (pure 0)

/-- `SYS_YIELD`: the processor halts with interrupts enabled.  The interrupt that ends the halt is
the next event of a run. -/
def sysYield : Sys UInt64 := pure 0

def sysSetPriority (arg1 : UInt64) : Sys UInt64 := do
  let currentId ← read Kernel.currentTaskId
  lockShared .taskRegistry do
    match ← read fun k => k.taskRegistry ⟨currentId⟩ with
    | some task => do
      modify fun k => k.modifyTask task fun task => { task with priority := arg1 }
      pure 0
    | none => pure 1

/-- The heap always has room for the entry. -/
def sysRegService (arg1 : UInt64) : Sys UInt64 := do
  let pid ← read Kernel.currentTaskId
  lock .serviceRegistry
    (modify fun k =>
      { k with serviceRegistry := Function.update k.serviceRegistry arg1 (some ⟨pid⟩) })
  pure 0

def sysGetServicePid (arg1 : UInt64) : Sys UInt64 :=
  lockShared .serviceRegistry do
    match ← read fun k => k.serviceRegistry arg1 with
    | some pid => pure pid.val
    | none => pure 0xFFFFFFFFFFFFFFFF

def handleSyscall (id arg1 arg2 : UInt64) : Sys UInt64 :=
  if id = 1 then sysPrint arg1
  else if id = 2 then sysExit
  else if id = 10 then sysSend arg1 arg2
  else if id = 11 then sysRecv arg1
  else if id = 12 then sysYield
  else if id = 13 then sysSetPriority arg1
  else if id = 14 then sysRegService arg1
  else if id = 15 then sysGetServicePid arg1
  else pure 0xFFFFFFFFFFFFFFFF

end Kernel

end Microkernel
