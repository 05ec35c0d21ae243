import Microkernel.Interleaving

/-! The scancode pipeline: `add_scancode`, which an interrupt handler calls, the stream that a task
of the executor reads in a loop, and `Executor::run` between them.  Interrupts come between any two
atomic accesses, while the interrupt flag is set; a handler runs with the flag clear, so as a
whole. -/

namespace Microkernel

open Lib

/-- What the task does next: it makes its stream, and then calls `poll_next` in a loop.  A `yield`
is the return of `Poll::Ready` with a scancode, a `pend` that of `Poll::Pending`, with which the
poll of the task ends; the next poll of the task calls `poll_next` again. -/
inductive StreamPoint
  | create
  | tryGet
  | pop
  | register
  | popAgain
  | take (scancode : UInt8)
  | yield (scancode : UInt8)
  | pend
deriving DecidableEq, Repr

/-- The executor with its task, and the statics of the keyboard driver.  `accepted` are the
scancodes whose push succeeded, `yielded` those that `poll_next` has returned; both are for
statements only. -/
structure Pipeline where
  flow : Flow
  scancodeQueue : Option (ArrayQueue UInt8 100)
  waker : Option TaskWaker
  stream : StreamPoint
  accepted : List UInt8
  yielded : List UInt8

namespace Pipeline

/-- `AtomicWaker::wake`. -/
def wake (p : Pipeline) : Pipeline :=
  match p.waker with
  | none => p
  | some waker =>
    { p with waker := none, flow := { p.flow with k := p.flow.k.wakeTask waker.taskId } }

def addScancode (scancode : UInt8) (p : Pipeline) : Pipeline :=
  match p.scancodeQueue with
  | none => p
  | some queue =>
    match queue.push scancode with
    | none => p
    | some queue =>
      wake { p with scancodeQueue := some queue, accepted := p.accepted ++ [scancode] }

/-- `queue.pop()` on `SCANCODE_QUEUE`. -/
def popScancode (p : Pipeline) : Option (UInt8 × Pipeline) :=
  (p.scancodeQueue.bind ArrayQueue.pop).map fun (scancode, queue) =>
    (scancode, { p with scancodeQueue := some queue })

/-- The next access of the task's code, in a context whose waker is `cx`; there is none where it
panics, since the queue is created twice or not at all. -/
def read (cx : TaskWaker) (p : Pipeline) : Option Pipeline :=
  match p.stream with
  | .create =>
    if p.scancodeQueue.isSome then none
    else some { p with scancodeQueue := some .empty, stream := .tryGet }
  | .tryGet => if p.scancodeQueue.isSome then some { p with stream := .pop } else none
  | .pop =>
    match p.popScancode with
    | some (scancode, p) => some { p with stream := .yield scancode }
    | none => some { p with stream := .register }
  | .register => some { p with waker := some cx, stream := .popAgain }
  | .popAgain =>
    match p.popScancode with
    | some (scancode, p) => some { p with stream := .take scancode }
    | none => some { p with stream := .pend }
  | .take scancode => some { p with waker := none, stream := .yield scancode }
  | .yield scancode => some { p with yielded := p.yielded ++ [scancode], stream := .tryGet }
  | .pend => some { p with flow := { p.flow with point := .pop }, stream := .tryGet }

/-- The next access of the processor's code: the task's, while it is polled, or the executor's. -/
def advance (p : Pipeline) : Option Pipeline :=
  match p.flow.point with
  | .poll _ _ cx => p.read cx
  | _ => p.flow.advance.map fun flow => { p with flow := flow }

/-- The return from an interrupt, which ends a `hlt`. -/
def resume (p : Pipeline) : Pipeline :=
  if p.flow.point = .halted then { p with flow := { p.flow with point := .pop } } else p

end Pipeline

/-- The next access, an interrupt whose handler calls `add_scancode`, or another interrupt. -/
inductive PipelineEvent
  | cpu
  | scancode (b : UInt8)
  | interrupt

/-- The event leads from `p` to `p'`. -/
inductive Pipeline.Step (p : Pipeline) : PipelineEvent → Pipeline → Prop
  | cpu {p' : Pipeline} : p.advance = some p' → Step p .cpu p'
  | scancode (b : UInt8) : p.flow.interrupts = true →
      Step p (.scancode b) (p.addScancode b).resume
  | interrupt : p.flow.interrupts = true → Step p .interrupt p.resume

end Microkernel
