/-! The kernel's data: messages, task states and identifiers, and the task control block. -/

namespace Microkernel

/-- An IPC message: five words in memory, in the order of the fields. -/
structure Message where
  «from» : UInt64
  «to» : UInt64
  label : UInt64
  payload : UInt64 × UInt64
deriving DecidableEq, Repr

namespace Message

def words (m : Message) : List UInt64 := [m.from, m.to, m.label, m.payload.1, m.payload.2]

def ofWords (from' to' label p0 p1 : UInt64) : Message := ⟨from', to', label, (p0, p1)⟩

end Message

inductive TaskState
  | ready
  | blocked
  | terminated
deriving DecidableEq, Repr

structure TaskId where
  val : UInt64
deriving DecidableEq, Repr

/-- A waker: it pushes the identifier of its task into the executor's queue. -/
structure TaskWaker where
  taskId : TaskId
deriving DecidableEq, Repr

/-- A shared task object (`Arc<Task>`): its place in the kernel's heap. -/
abbrev TaskRef := Nat

/-- The task control block.  `priority` is the ticks of a time slice, `kernelRsp` the stack pointer
saved when the task was last switched away from, and `kernelStackTop` the top of its kernel stack.
The kernel future is not a field: what its polls do is given by the scripts of `PollScript`. -/
structure Task where
  id : TaskId
  state : TaskState
  priority : UInt64
  kernelRsp : UInt64
  kernelStackTop : UInt64
  mailbox : Option Message
  waker : Option TaskWaker

end Microkernel
