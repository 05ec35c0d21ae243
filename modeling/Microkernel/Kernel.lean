import Mathlib.Logic.Function.Basic
import Microkernel.Lib.ArrayQueue
import Microkernel.Lib.Memory
import Microkernel.Task

/-! The kernel's state: its globals, the heap of task objects, the memory that system calls access
through user pointers, the locks that are held, and a history of what happened.

Interrupt gates and the system call entry mask interrupts, so on the one processor a lock that is
taken and released without running other code in between is never seen held, and its accesses are
written here as plain accesses.  The locks that are recorded are those held across something that
can end the code or run other code: an access through a user pointer, a poll of a kernel task, a
search of the task list. -/

namespace Microkernel

open Lib

inductive Lock
  | taskList
  | kernelExecutor
  | initMailbox
  | taskRegistry
  | serviceRegistry
  | mailbox (t : TaskRef)
  | state (t : TaskRef)
  | waker (t : TaskRef)
deriving DecidableEq, Repr

/-- A lock that is held: a read guard of a `RwLock` is shared, every other guard excludes. -/
structure Guard where
  lock : Lock
  shared : Bool
deriving DecidableEq, Repr

/-- Why a computation of the kernel gives no result: it waits for a lock that is never released, it
panics, or it has not ended after the polls it was given. -/
inductive Stop
  | spins
  | panics
  | running
deriving DecidableEq, Repr

/-- What happened, for statements about whole runs; no function of the kernel reads it.  A device
handler posted a message, `SYS_RECV` returned 1 with one, `SYS_SEND` to a task returned 0, and
`IpcReceiveFuture` on a task returned a message.  A waker pushed its identifier into the executor's
queue, which held `queue`.  The executor took an identifier from the queue and polled its task, or
dropped it, with the state of the task if it is live; a future returned `Poll::Ready`;
`run_ready_tasks` returned. -/
inductive Observation
  | posted (m : Message)
  | received (m : Message)
  | acknowledged (t : TaskRef) (m : Message)
  | yielded (t : TaskRef) (m : Message)
  | woken (id : TaskId) (queue : List TaskId)
  | polled (id : TaskId)
  | dropped (id : TaskId) (state : Option TaskState)
  | finished (id : TaskId)
  | drained
deriving DecidableEq, Repr

structure Executor where
  tasks : TaskId → Option TaskRef
  taskQueue : ArrayQueue TaskId 100
  wakerCache : TaskId → Option TaskWaker

structure PageFlags where
  writable : Bool
  userAccessible : Bool
  noExecute : Bool
deriving DecidableEq, Repr

/-- The kernel's globals.  `task` is the heap of task objects, of which those below `nextRef` are
in use; `nextId` is `NEXT_ID` of `TaskId::new`; `rsp0` is `privilege_stack_table[0]` of the TSS;
`pages` gives the flags of the present pages by page number; `printed` is what `SYS_PRINT` has sent
to the serial port.  The other fields are not in `mem`: neither a store by user code nor one through
the pointer of a `SYS_RECV` changes them. -/
structure Kernel where
  task : TaskRef → Task
  nextRef : TaskRef
  nextId : UInt64
  taskList : List TaskRef
  currentTaskIdx : Nat
  currentTaskId : UInt64
  tickCount : UInt64
  taskRegistry : TaskId → Option TaskRef
  serviceRegistry : UInt64 → Option TaskId
  initMailbox : Option Message
  executor : Executor
  rsp0 : UInt64
  mem : Memory
  pages : UInt64 → Option PageFlags
  printed : List UInt8
  held : List Guard
  history : List Observation

namespace Kernel

/-! ### Task objects -/

def modifyTask (k : Kernel) (t : TaskRef) (f : Task → Task) : Kernel :=
  { k with task := Function.update k.task t (f (k.task t)) }

def setState (k : Kernel) (t : TaskRef) (s : TaskState) : Kernel :=
  k.modifyTask t fun task => { task with state := s }

def observe (k : Kernel) (o : Observation) : Kernel := { k with history := k.history ++ [o] }

@[simp] theorem modifyTask_task_self (k : Kernel) (t : TaskRef) (f : Task → Task) :
    (k.modifyTask t f).task t = f (k.task t) := by simp [modifyTask]

theorem modifyTask_task_ne (k : Kernel) {t u : TaskRef} (f : Task → Task) (h : u ≠ t) :
    (k.modifyTask t f).task u = k.task u := by simp [modifyTask, h]

/-- A change that keeps a field of the task it changes keeps that field of every task. -/
theorem modifyTask_keeps {α : Type} (g : Task → α) {k : Kernel} {t : TaskRef} {f : Task → Task}
    (h : g (f (k.task t)) = g (k.task t)) (u : TaskRef) :
    g ((k.modifyTask t f).task u) = g (k.task u) := by
  by_cases same : u = t
  · subst same
    simpa using h
  · rw [modifyTask_task_ne k f same]

/-! ### Locks -/

def isHeld (k : Kernel) (l : Lock) : Bool := k.held.any fun g => g.lock = l

def isHeldExclusively (k : Kernel) (l : Lock) : Bool :=
  k.held.any fun g => g.lock = l ∧ g.shared = false

def acquire (k : Kernel) (g : Guard) : Kernel := { k with held := g :: k.held }

def release (k : Kernel) (g : Guard) : Kernel := { k with held := k.held.erase g }

/-! ### Memory through user pointers

A system call runs in ring 0, so an access through a user pointer needs a page that is present,
and writable for a store: the page's `USER_ACCESSIBLE` flag is not looked at. -/

/-- An address that the processor accepts: bits 47 to 63 are equal. -/
def canonical (a : UInt64) : Bool := a < 0x800000000000 || 0xFFFF800000000000 ≤ a

def canRead (k : Kernel) (a : UInt64) : Bool := canonical a && (k.pages (a / 4096)).isSome

def canWrite (k : Kernel) (a : UInt64) : Bool :=
  canonical a && ((k.pages (a / 4096)).map PageFlags.writable).getD false

/-- A store by user code, which also needs a page that is `USER_ACCESSIBLE`. -/
def userCanWrite (k : Kernel) (a : UInt64) : Bool :=
  k.canWrite a && ((k.pages (a / 4096)).map PageFlags.userAccessible).getD false

/-- User code has stored bytes of `f` wherever it may. -/
def userWrites (k : Kernel) (f : Memory) : Kernel :=
  { k with mem := fun a => if k.userCanWrite a then f a else k.mem a }

end Kernel

end Microkernel
