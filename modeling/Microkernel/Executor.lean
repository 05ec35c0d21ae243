import Microkernel.Kernel

/-! The kernel's executor: task creation, the run queue, the wakers, `IpcReceiveFuture`, and
`run_ready_tasks`.  A future is arbitrary code, so a poll is a script: what the future does to the
kernel until the poll returns, with the messages it receives deciding what it does next. -/

namespace Microkernel

open Lib

/-- One poll of a kernel future.  It ends with `Poll::Ready` or `Poll::Pending`; before that it may
run wakers, poll an `IpcReceiveFuture` on any task, and spawn tasks. -/
inductive PollScript
  | ready
  | pending
  | wake (id : TaskId) (rest : PollScript)
  | receive (t : TaskRef) (next : Option Message → PollScript)
  | spawn (kstackTop : UInt64) (rest : PollScript)

namespace Kernel

/-! ### Wakers -/

/-- `TaskWaker::wake_task`: a push into a full queue is ignored. -/
def wakeTask (id : TaskId) (k : Kernel) : Kernel :=
  let queue := k.executor.taskQueue
  { k with executor.taskQueue := (queue.push id).getD queue }.observe (.woken id queue.items)

/-! ### Task creation -/

/-- `Task::new`, whose kernel stack ends at `kstackTop`.  The heap always has room for it. -/
def newTask (kstackTop : UInt64) (k : Kernel) : TaskRef × Kernel :=
  (k.nextRef,
    { k with
      task := Function.update k.task k.nextRef
        { id := ⟨k.nextId⟩, state := .ready, priority := 5, kernelRsp := kstackTop,
          kernelStackTop := kstackTop, mailbox := none, waker := none }
      nextRef := k.nextRef + 1
      nextId := k.nextId + 1 })

/-- `Executor::spawn`. -/
def spawn (t : TaskRef) (k : Kernel) : Except Stop Kernel :=
  let taskId := (k.task t).id
  if (k.executor.tasks taskId).isSome then
    .error .panics
  else
    match k.executor.taskQueue.push taskId with
    | none => .error .panics
    | some q =>
      .ok { k with
        executor := { k.executor with
          tasks := Function.update k.executor.tasks taskId (some t)
          taskQueue := q }
        taskRegistry := Function.update k.taskRegistry taskId (some t) }

/-- `Executor::spawn_static(Task::new(..))`, which waits for the executor's lock. -/
def spawnStatic (kstackTop : UInt64) (k : Kernel) : Except Stop Kernel :=
  let (t, k) := k.newTask kstackTop
  if k.isHeld .kernelExecutor then .error .spins else k.spawn t

/-! ### Polls -/

/-- `IpcReceiveFuture::poll` on task `t`, in a context whose waker is `cx`. -/
def ipcReceivePoll (t : TaskRef) (cx : TaskWaker) (k : Kernel) : Option Message × Kernel :=
  match (k.task t).mailbox with
  | some msg =>
    (some msg,
      (k.modifyTask t fun task => { task with mailbox := none, state := .ready }).observe
        (.yielded t msg))
  | none =>
    (none, k.modifyTask t fun task => { task with waker := some cx, state := .blocked })

/-- The effect of a poll, and whether it returned `Poll::Ready`. -/
def poll (cx : TaskWaker) : PollScript → Kernel → Except Stop (Bool × Kernel)
  | .ready, k => .ok (true, k)
  | .pending, k => .ok (false, k)
  | .wake id rest, k => poll cx rest (k.wakeTask id)
  | .receive t next, k =>
    let (msg, k) := k.ipcReceivePoll t cx
    poll cx (next msg) k
  | .spawn kstackTop rest, k => do
    let k ← k.spawnStatic kstackTop
    poll cx rest k

/-! ### The run queue -/

/-- `waker_cache.entry(task_id).or_insert_with(..)`: the waker, now in the cache. -/
def cachedWaker (id : TaskId) (k : Kernel) : TaskWaker × Kernel :=
  let waker := (k.executor.wakerCache id).getD ⟨id⟩
  (waker, { k with
    executor.wakerCache := Function.update k.executor.wakerCache id (some waker) })

/-- The task whose future returned `Poll::Ready` leaves the executor and the registry. -/
def finishTask (id : TaskId) (k : Kernel) : Kernel :=
  { k with
    executor := { k.executor with
      tasks := Function.update k.executor.tasks id none
      wakerCache := Function.update k.executor.wakerCache id none }
    taskRegistry := Function.update k.taskRegistry id none }.observe (.finished id)

/-- The body of the loop of `run_ready_tasks` for an identifier taken from the queue. -/
def runTask (id : TaskId) (script : PollScript) (k : Kernel) : Except Stop Kernel :=
  match k.executor.tasks id with
  | none => .ok (k.observe (.dropped id none))
  | some t =>
    if (k.task t).state ≠ .ready then
      .ok (k.observe (.dropped id (some (k.task t).state)))
    else do
      let k := { k with currentTaskId := id.val }
      let (waker, k) := k.cachedWaker id
      let (done, k) ← poll waker script (k.observe (.polled id))
      if done then .ok (k.finishTask id) else .ok k

/-- `Executor::run_ready_tasks`.  Each identifier taken from the queue uses up one script, which
says what the poll does if the task is polled. -/
def runReadyTasks : List PollScript → Kernel → Except Stop Kernel
  | scripts, k =>
    match k.executor.taskQueue.pop with
    | none => .ok ({ k with currentTaskId := 0 }.observe .drained)
    | some (id, q) =>
      match scripts with
      | [] => .error .running
      | script :: rest => do
        let k ← runTask id script { k with executor.taskQueue := q }
        runReadyTasks rest k

def executorGuard : Guard := ⟨.kernelExecutor, false⟩

/-- `poll_kernel_tasks`. -/
def pollKernelTasks (scripts : List PollScript) (k : Kernel) : Except Stop Kernel :=
  if k.isHeld .kernelExecutor then
    .ok k
  else do
    let k ← runReadyTasks scripts (k.acquire executorGuard)
    .ok (k.release executorGuard)

end Kernel

end Microkernel
