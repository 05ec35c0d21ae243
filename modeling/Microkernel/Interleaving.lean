import Microkernel.Executor

/-! The executor between its atomic accesses.  The handlers of `Executor.lean` run as a whole; here
`spawn`, `run_ready_tasks` and `run` take one access at a time, and wakers may run between any two
of them, from an interrupt or from the future that is polled. -/

namespace Microkernel

open Lib

/-- What the executor's code does next.  `outside` is outside of its functions; the code of a
future runs at `poll`, and the processor waits at `halted`. -/
inductive Point
  | outside
  | insert (t : TaskRef)
  | register (t : TaskRef)
  | enqueue (t : TaskRef)
  | pop
  | lookup (id : TaskId)
  | check (id : TaskId) (t : TaskRef)
  | store (id : TaskId) (t : TaskRef)
  | cache (id : TaskId) (t : TaskRef)
  | poll (id : TaskId) (t : TaskRef) (cx : TaskWaker)
  | remove (id : TaskId)
  | unregister (id : TaskId)
  | uncache (id : TaskId)
  | clear
  | disable
  | isEmpty
  | enableAndHlt
  | halted
  | enable
deriving DecidableEq, Repr

/-- What happened to a task object, for statements about runs: it was given to `spawn`, its future
was polled, its future returned `Poll::Ready`. -/
inductive Mark
  | spawned (t : TaskRef)
  | polled (t : TaskRef)
  | ready (t : TaskRef)
deriving DecidableEq, Repr

/-- The kernel with the executor at `point`; `inRun` says that `run` is active, which never
returns, and `interrupts` is the interrupt flag. -/
structure Flow where
  k : Kernel
  point : Point
  inRun : Bool
  interrupts : Bool
  log : List Mark

namespace Kernel

/-! ### The accesses to the tables -/

def insertTask (t : TaskRef) (k : Kernel) : Kernel :=
  { k with executor.tasks := Function.update k.executor.tasks (k.task t).id (some t) }

def registerTask (t : TaskRef) (k : Kernel) : Kernel :=
  { k with taskRegistry := Function.update k.taskRegistry (k.task t).id (some t) }

def removeTask (id : TaskId) (k : Kernel) : Kernel :=
  { k with executor.tasks := Function.update k.executor.tasks id none }

def unregisterTask (id : TaskId) (k : Kernel) : Kernel :=
  { k with taskRegistry := Function.update k.taskRegistry id none }

def uncacheWaker (id : TaskId) (k : Kernel) : Kernel :=
  { k with executor.wakerCache := Function.update k.executor.wakerCache id none }

end Kernel

namespace Flow

/-- The next access of the executor's code; there is none where it waits, and where it panics. -/
def advance (f : Flow) : Option Flow :=
  match f.point with
  | .outside | .poll .. | .halted => none
  | .insert t =>
    if (f.k.executor.tasks (f.k.task t).id).isSome then none
    else some { f with k := f.k.insertTask t, point := .register t }
  | .register t => some { f with k := f.k.registerTask t, point := .enqueue t }
  | .enqueue t =>
    (f.k.executor.taskQueue.push (f.k.task t).id).map fun q =>
      { f with k := { f.k with executor.taskQueue := q }, point := .outside }
  | .pop =>
    match f.k.executor.taskQueue.pop with
    | none => some { f with point := .clear }
    | some (id, q) =>
      some { f with k := { f.k with executor.taskQueue := q }, point := .lookup id }
  | .lookup id =>
    match f.k.executor.tasks id with
    | none => some { f with k := f.k.observe (.dropped id none), point := .pop }
    | some t => some { f with point := .check id t }
  | .check id t =>
    if (f.k.task t).state ≠ .ready then
      some { f with k := f.k.observe (.dropped id (some (f.k.task t).state)), point := .pop }
    else
      some { f with point := .store id t }
  | .store id t => some { f with k := { f.k with currentTaskId := id.val }, point := .cache id t }
  | .cache id t =>
    let (waker, k) := f.k.cachedWaker id
    some { f with
      k := k.observe (.polled id)
      point := .poll id t waker
      log := f.log ++ [.polled t] }
  | .remove id => some { f with k := f.k.removeTask id, point := .unregister id }
  | .unregister id => some { f with k := f.k.unregisterTask id, point := .uncache id }
  | .uncache id =>
    some { f with k := (f.k.uncacheWaker id).observe (.finished id), point := .pop }
  | .clear =>
    some { f with
      k := { f.k with currentTaskId := 0 }.observe .drained
      point := if f.inRun then .disable else .outside }
  | .disable => some { f with interrupts := false, point := .isEmpty }
  | .isEmpty =>
    if f.k.executor.taskQueue.items = [] then some { f with point := .enableAndHlt }
    else some { f with point := .enable }
  | .enableAndHlt => some { f with interrupts := true, point := .halted }
  | .enable => some { f with interrupts := true, point := .pop }

end Flow

/-- What can happen: a call of one of the executor's functions, its next access, the return of the
future that is polled, the end of `hlt`, a waker, and whatever else the kernel does. -/
inductive FlowEvent
  | spawn (t : TaskRef)
  | runReadyTasks
  | run
  | cpu
  | ready
  | pending
  | resume
  | wake (id : TaskId)
  | other (k : Kernel)

/-- A change that leaves the executor, the registry, and the identifiers of the task objects alone.
-/
structure Kernel.SameTables (k k' : Kernel) : Prop where
  executor : k'.executor = k.executor
  registry : k'.taskRegistry = k.taskRegistry
  created : k.nextRef ≤ k'.nextRef
  ids : ∀ t, t < k.nextRef → (k'.task t).id = (k.task t).id

/-- The event leads from `f` to `f'`.  A task object is given to `spawn` once, and the executor's
functions are not called from within each other. -/
inductive Flow.Step (f : Flow) : FlowEvent → Flow → Prop
  | spawn {t : TaskRef} : f.point = .outside → t < f.k.nextRef → .spawned t ∉ f.log →
      Step f (.spawn t) { f with point := .insert t, log := f.log ++ [.spawned t] }
  | runReadyTasks : f.point = .outside → Step f .runReadyTasks { f with point := .pop }
  | run : f.point = .outside → Step f .run { f with point := .pop, inRun := true }
  | cpu {f' : Flow} : f.advance = some f' → Step f .cpu f'
  | ready {id : TaskId} {t : TaskRef} {cx : TaskWaker} : f.point = .poll id t cx →
      Step f .ready { f with point := .remove id, log := f.log ++ [.ready t] }
  | pending {id : TaskId} {t : TaskRef} {cx : TaskWaker} : f.point = .poll id t cx →
      Step f .pending { f with point := .pop }
  | resume : f.point = .halted → Step f .resume { f with point := .pop }
  | wake (id : TaskId) : Step f (.wake id) { f with k := f.k.wakeTask id }
  | other {k : Kernel} : f.k.SameTables k → Step f (.other k) { f with k := k }

/-! What the executor does to futures is in the kernel's history and in the executor's log. -/

/-- The executor polled a future, or its future returned `Poll::Ready`. -/
def Observation.ofFuture : Observation → Bool
  | .polled _ | .finished _ => true
  | _ => false

/-- These observations, in order. -/
def Kernel.futures (k : Kernel) : List Observation := k.history.filter Observation.ofFuture

/-- The observation that a mark stands for. -/
def Mark.observation (k : Kernel) : Mark → Option Observation
  | .spawned _ => none
  | .polled t => some (.polled (k.task t).id)
  | .ready t => some (.finished (k.task t).id)

/-- The condition that what else the kernel does is nothing to a future. -/
def Flow.Aside (f : Flow) : FlowEvent → Prop
  | .other k => k.futures = f.k.futures
  | _ => True

end Microkernel
