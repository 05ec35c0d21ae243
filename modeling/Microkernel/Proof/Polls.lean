import Microkernel.Lib.Series
import Microkernel.Executor

/-! What the executor's activity can do to the kernel.  A property that each elementary effect of a
poll keeps is kept by `run_ready_tasks` and `poll_kernel_tasks`. -/

namespace Microkernel

open Lib

namespace Kernel

/-- `P` is kept by every effect of a poll.  There is no effect of a spawn: under the executor's lock
it waits forever. -/
structure ScriptKeeps (P : Kernel → Prop) : Prop where
  wake : ∀ {k} id, P k → P (k.wakeTask id)
  receive : ∀ {k} t cx, P k → P (k.ipcReceivePoll t cx).2

/-- `P` is kept by every elementary effect of the executor. -/
structure PollKeeps (P : Kernel → Prop) : Prop extends ScriptKeeps P where
  current : ∀ {k} id, P k → P { k with currentTaskId := id }
  cache : ∀ {k} id, P k → P (k.cachedWaker id).2
  finish : ∀ {k} id, P k → P (k.finishTask id)
  polled : ∀ {k} id, P k → P (k.observe (.polled id))
  dropped : ∀ {k} id state, P k → P (k.observe (.dropped id state))
  drained : ∀ {k}, P k → P (k.observe .drained)
  pop : ∀ {k id q}, k.executor.taskQueue.pop = some (id, q) → P k →
    P { k with executor.taskQueue := q }

/-- `P` is kept by everything that the executor does, with any scripts. -/
structure ExecutorKeeps (P : Kernel → Prop) : Prop extends ScriptKeeps P where
  polls : ∀ {k k' scripts}, P k → k.pollKernelTasks scripts = .ok k' → P k'

variable {P : Kernel → Prop} {k k' : Kernel} {scripts : List PollScript}

theorem isHeld_congr (same : k'.held = k.held) (l : Lock) : k'.isHeld l = k.isHeld l := by
  rw [isHeld, isHeld, same]

theorem spawnStatic_locked {top : UInt64} (locked : k.isHeld .kernelExecutor) :
    k.spawnStatic top = .error .spins := by
  unfold spawnStatic
  exact if_pos locked

def takeMail (k : Kernel) (t : TaskRef) : Kernel :=
  k.modifyTask t fun task => { task with mailbox := none, state := .ready }

def awaitMail (k : Kernel) (t : TaskRef) (cx : TaskWaker) : Kernel :=
  k.modifyTask t fun task => { task with waker := some cx, state := .blocked }

theorem ipcReceivePoll_some {t : TaskRef} {cx : TaskWaker} {m : Message}
    (waiting : (k.task t).mailbox = some m) :
    k.ipcReceivePoll t cx = (some m, (k.takeMail t).observe (.yielded t m)) := by
  simp only [ipcReceivePoll, waiting, takeMail]

theorem ipcReceivePoll_none {t : TaskRef} {cx : TaskWaker} (empty : (k.task t).mailbox = none) :
    k.ipcReceivePoll t cx = (none, k.awaitMail t cx) := by
  simp only [ipcReceivePoll, empty, awaitMail]

theorem awaitMail_mailbox (t u : TaskRef) (cx : TaskWaker) :
    ((k.awaitMail t cx).task u).mailbox = (k.task u).mailbox :=
  modifyTask_keeps (f := fun task => { task with waker := some cx, state := .blocked })
    Task.mailbox rfl u

theorem ipcReceivePoll_held (t : TaskRef) (cx : TaskWaker) :
    (k.ipcReceivePoll t cx).2.held = k.held := by
  unfold ipcReceivePoll
  split <;> rfl

theorem ScriptKeeps.poll (keeps : ScriptKeeps P) {cx : TaskWaker} {script : PollScript}
    {done : Bool} (start : P k) (locked : k.isHeld .kernelExecutor)
    (run : Kernel.poll cx script k = .ok (done, k')) : P k' ∧ k'.held = k.held := by
  induction script generalizing k with
  | ready | pending =>
    cases run
    exact ⟨start, rfl⟩
  | wake id rest ih =>
    obtain ⟨kept, held⟩ := ih (keeps.wake id start) locked run
    exact ⟨kept, held⟩
  | receive t next ih =>
    have same := ipcReceivePoll_held (k := k) t cx
    obtain ⟨kept, held⟩ := ih _ (keeps.receive t cx start)
      (by rw [isHeld_congr same, locked]) run
    exact ⟨kept, held.trans same⟩
  | spawn top rest ih =>
    obtain ⟨mid, spawned, -⟩ := bind_ok run
    rw [spawnStatic_locked locked] at spawned
    cases spawned

namespace PollKeeps

theorem runTask (keeps : PollKeeps P) {id : TaskId} {script : PollScript} (start : P k)
    (locked : k.isHeld .kernelExecutor)
    (run : Kernel.runTask id script k = .ok k') : P k' ∧ k'.held = k.held := by
  unfold Kernel.runTask at run
  split at run
  · cases run
    exact ⟨keeps.dropped id _ start, rfl⟩
  · split at run
    · cases run
      exact ⟨keeps.dropped id _ start, rfl⟩
    · obtain ⟨⟨done, after⟩, polled, finished⟩ := bind_ok run
      obtain ⟨kept, held⟩ := keeps.toScriptKeeps.poll
        (keeps.polled id (keeps.cache id (keeps.current id.val start))) locked polled
      cases done <;> cases finished
      · exact ⟨kept, held⟩
      · exact ⟨keeps.finish id kept, held⟩

theorem runReadyTasks (keeps : PollKeeps P) (start : P k) (locked : k.isHeld .kernelExecutor)
    (run : Kernel.runReadyTasks scripts k = .ok k') : P k' ∧ k'.held = k.held := by
  induction scripts generalizing k with
  | nil =>
    unfold Kernel.runReadyTasks at run
    split at run
    · cases run
      exact ⟨keeps.drained (keeps.current 0 start), rfl⟩
    · cases run
  | cons script rest ih =>
    unfold Kernel.runReadyTasks at run
    split at run
    · cases run
      exact ⟨keeps.drained (keeps.current 0 start), rfl⟩
    next popped =>
      obtain ⟨mid, once, more⟩ := bind_ok run
      obtain ⟨kept, same⟩ := keeps.runTask (keeps.pop popped start) locked once
      obtain ⟨final, held⟩ := ih kept (by rw [isHeld_congr same]; exact locked) more
      exact ⟨final, held.trans same⟩

end PollKeeps

theorem isHeld_acquire (g : Guard) : (k.acquire g).isHeld g.lock = true := by
  simp [isHeld, acquire]

/-- `poll_kernel_tasks` does nothing while the executor is locked, and otherwise runs its tasks
with the lock held. -/
theorem pollKernelTasks_cases (run : k.pollKernelTasks scripts = .ok k') :
    (k.isHeld .kernelExecutor ∧ k' = k) ∨
      (k.isHeld .kernelExecutor = false ∧ ∃ after,
        runReadyTasks scripts (k.acquire executorGuard) = .ok after ∧
          k' = after.release executorGuard) := by
  unfold pollKernelTasks at run
  split at run
  next locked =>
    cases run
    exact .inl ⟨locked, rfl⟩
  next free =>
    obtain ⟨after, ran, released⟩ := bind_ok run
    cases released
    exact .inr ⟨by simpa using free, after, ran, rfl⟩

/-- A property that does not depend on the locks that are held is kept by `poll_kernel_tasks`. -/
theorem PollKeeps.pollKernelTasks (keeps : PollKeeps P)
    (held : ∀ {k} gs, P k → P { k with held := gs }) (start : P k)
    (run : k.pollKernelTasks scripts = .ok k') : P k' := by
  rcases pollKernelTasks_cases run with ⟨-, rfl⟩ | ⟨-, after, ran, rfl⟩
  · exact start
  · exact held _ (keeps.runReadyTasks (held _ start)
      (isHeld_acquire executorGuard) ran).1

theorem PollKeeps.executor (keeps : PollKeeps P)
    (held : ∀ {k} gs, P k → P { k with held := gs }) : ExecutorKeeps P where
  toScriptKeeps := keeps.toScriptKeeps
  polls start run := keeps.pollKernelTasks held start run

/-- `run_ready_tasks` returns with an empty queue and with `CURRENT_TASK_ID` 0. -/
theorem runReadyTasks_drained (run : runReadyTasks scripts k = .ok k') :
    ∃ mid : Kernel, k'.currentTaskId = 0 ∧ k'.executor.taskQueue.items = [] ∧
      k' = { mid with currentTaskId := 0 }.observe .drained := by
  induction scripts generalizing k with
  | nil =>
    unfold runReadyTasks at run
    split at run
    next empty =>
      cases run
      exact ⟨k, rfl, ArrayQueue.pop_none.mp empty, rfl⟩
    next => cases run
  | cons script rest ih =>
    unfold runReadyTasks at run
    split at run
    next empty =>
      cases run
      exact ⟨k, rfl, ArrayQueue.pop_none.mp empty, rfl⟩
    next =>
      obtain ⟨mid, -, more⟩ := bind_ok run
      exact ih more

/-! ### What no poll changes -/

/-- The part of the kernel that polls by a locked executor leave alone: everything but the states,
mailboxes and wakers of tasks, the executor, the registry, `CURRENT_TASK_ID` and the history. -/
structure Fixed where
  identity : TaskRef → TaskId × UInt64 × UInt64 × UInt64
  nextRef : TaskRef
  nextId : UInt64
  taskList : List TaskRef
  currentTaskIdx : Nat
  tickCount : UInt64
  serviceRegistry : UInt64 → Option TaskId
  initMailbox : Option Message
  rsp0 : UInt64
  mem : Memory
  pages : UInt64 → Option PageFlags
  printed : List UInt8
  held : List Guard

def fixed (k : Kernel) : Fixed where
  identity t :=
    ((k.task t).id, (k.task t).priority, (k.task t).kernelRsp, (k.task t).kernelStackTop)
  nextRef := k.nextRef
  nextId := k.nextId
  taskList := k.taskList
  currentTaskIdx := k.currentTaskIdx
  tickCount := k.tickCount
  serviceRegistry := k.serviceRegistry
  initMailbox := k.initMailbox
  rsp0 := k.rsp0
  mem := k.mem
  pages := k.pages
  printed := k.printed
  held := k.held

theorem fixed_modifyTask {t : TaskRef} {f : Task → Task}
    (h : ∀ task : Task, (f task).id = task.id ∧ (f task).priority = task.priority ∧
      (f task).kernelRsp = task.kernelRsp ∧ (f task).kernelStackTop = task.kernelStackTop) :
    (k.modifyTask t f).fixed = k.fixed := by
  have same : (k.modifyTask t f).fixed.identity = k.fixed.identity := by
    funext u
    obtain ⟨h1, h2, h3, h4⟩ := h (k.task t)
    refine modifyTask_keeps
      (fun task => (task.id, task.priority, task.kernelRsp, task.kernelStackTop)) ?_ u
    simp only [h1, h2, h3, h4]
  unfold fixed at same ⊢
  rw [Fixed.mk.injEq]
  exact ⟨same, rfl, rfl, rfl, rfl, rfl, rfl, rfl, rfl, rfl, rfl, rfl, rfl⟩

theorem fixed_setState (t : TaskRef) (s : TaskState) : (k.setState t s).fixed = k.fixed :=
  fixed_modifyTask fun _ => ⟨rfl, rfl, rfl, rfl⟩

theorem fixed_wakeTask (id : TaskId) : (k.wakeTask id).fixed = k.fixed := rfl

theorem fixed_ipcReceivePoll (t : TaskRef) (cx : TaskWaker) :
    (k.ipcReceivePoll t cx).2.fixed = k.fixed := by
  unfold ipcReceivePoll
  split
  · exact fixed_modifyTask (f := fun task => { task with mailbox := none, state := .ready })
      fun _ => ⟨rfl, rfl, rfl, rfl⟩
  · exact fixed_modifyTask (f := fun task => { task with waker := some cx, state := .blocked })
      fun _ => ⟨rfl, rfl, rfl, rfl⟩

theorem fixed_keeps : PollKeeps fun after => after.fixed = k.fixed where
  wake id h := (fixed_wakeTask id).trans h
  receive t cx h := (fixed_ipcReceivePoll t cx).trans h
  current _ h := h
  cache _ h := h
  finish _ h := h
  polled _ h := h
  dropped _ _ h := h
  drained h := h
  pop _ h := h

theorem fixed_pollKernelTasks (run : k.pollKernelTasks scripts = .ok k') :
    k'.fixed = k.fixed := by
  rcases pollKernelTasks_cases run with ⟨-, rfl⟩ | ⟨-, after, ran, rfl⟩
  · rfl
  · have same : after.fixed = (k.acquire executorGuard).fixed :=
      (fixed_keeps.runReadyTasks rfl (isHeld_acquire executorGuard) ran).1
    have held : (after.release executorGuard).held = k.held := by
      have during : after.held = executorGuard :: k.held := congrArg Fixed.held same
      show after.held.erase executorGuard = k.held
      rw [during]
      exact List.erase_cons_head executorGuard k.held
    unfold fixed at same ⊢
    rw [Fixed.mk.injEq] at same ⊢
    obtain ⟨h1, h2, h3, h4, h5, h6, h7, h8, h9, h10, h11, h12, -⟩ := same
    exact ⟨h1, h2, h3, h4, h5, h6, h7, h8, h9, h10, h11, h12, held⟩

end Kernel

end Microkernel
