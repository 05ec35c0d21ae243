import Microkernel.Interleaving

/-! `Executor::run` on a processor that takes interrupts.  While the interrupt flag is set a handler
may come between any two accesses of the executor, and may run wakers; its return ends a `hlt`. -/

namespace Microkernel

open Lib

/-- The identifier that the executor has done with: it polled its task, or the task is gone or not
`Ready`. -/
def Observation.answered : Observation → Option TaskId
  | .polled id => some id
  | .dropped id state => if state = some .ready then none else some id
  | _ => none

/-- A change that leaves the executor alone, in which no waker runs. -/
structure Kernel.Elsewhere (k k' : Kernel) : Prop where
  executor : k'.executor = k.executor
  history : ∃ os, k'.history = k.history ++ os ∧
    ∀ o ∈ os, o.answered = none ∧ ∀ id queue, o ≠ .woken id queue

/-- The next access of `run`; a waker that the polled future runs, and its return; an interrupt in
which the wakers of `ids` run; whatever else the kernel does. -/
inductive RunEvent
  | cpu
  | wake (id : TaskId)
  | ready
  | pending
  | interrupt (ids : List TaskId)
  | other (k : Kernel)

namespace Flow

def wakeAll (ids : List TaskId) (f : Flow) : Flow :=
  { f with k := ids.foldl (fun k id => k.wakeTask id) f.k }

/-- The return from an interrupt, which ends a `hlt`. -/
def resume (f : Flow) : Flow := if f.point = .halted then { f with point := .pop } else f

/-- The event leads from `f` to `f'`. -/
inductive Driven (f : Flow) : RunEvent → Flow → Prop
  | cpu {f' : Flow} : f.advance = some f' → Driven f .cpu f'
  | wake {id : TaskId} {t : TaskRef} {cx : TaskWaker} (woken : TaskId) :
      f.point = .poll id t cx → Driven f (.wake woken) { f with k := f.k.wakeTask woken }
  | ready {id : TaskId} {t : TaskRef} {cx : TaskWaker} : f.point = .poll id t cx →
      Driven f .ready { f with point := .remove id, log := f.log ++ [.ready t] }
  | pending {id : TaskId} {t : TaskRef} {cx : TaskWaker} : f.point = .poll id t cx →
      Driven f .pending { f with point := .pop }
  | interrupt (ids : List TaskId) : f.interrupts = true →
      Driven f (.interrupt ids) (f.wakeAll ids).resume
  | other {k : Kernel} : f.k.Elsewhere k → Driven f (.other k) { f with k := k }

/-- `run` has been called, and is about to look at its queue.  The history begins here. -/
structure Begun (f : Flow) : Prop where
  point : f.point = .pop
  inRun : f.inRun = true
  history : f.k.history = []

end Flow

end Microkernel
