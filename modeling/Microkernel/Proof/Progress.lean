import Microkernel.Proof.Draining
import Microkernel.Proof.Usable

/-! How the kernel stops.  A handler or a call gives no result when it panics, when it waits for a
lock for ever, or when the loop of `run_ready_tasks` does not end.  Each of the three has one cause,
in every state that a run reaches: no order of events makes a handler wait for a lock of another.
-/

namespace Microkernel

open Lib

namespace Kernel

variable {k k' : Kernel} {scripts : List PollScript} {reason : Stop} {e : Event}

/-! ### The polls of an event -/

/-- A future calls `spawn_static` at one of the moments. -/
def Spawning (ms : List Moment) : Prop := ∃ m ∈ ms, ∃ top rest, m.1 = .spawn top rest

theorem Spawning.append_left {ms : List Moment} (spawning : Spawning ms) (ms' : List Moment) :
    Spawning (ms ++ ms') := by
  obtain ⟨m, mem, call⟩ := spawning
  exact ⟨m, List.mem_append_left ms' mem, call⟩

theorem Spawning.append_right {ms' : List Moment} (spawning : Spawning ms') (ms : List Moment) :
    Spawning (ms ++ ms') := by
  obtain ⟨m, mem, call⟩ := spawning
  exact ⟨m, List.mem_append_right ms mem, call⟩

/-- No effect of a poll under the executor's lock fails but a spawn. -/
theorem poll_error {cx : TaskWaker} {script : PollScript} (locked : k.isHeld .kernelExecutor)
    (run : poll cx script k = .error reason) :
    reason = .spins ∧ Spawning (moments cx script k) := by
  induction script generalizing k with
  | ready | pending => cases run
  | wake id rest ih =>
    obtain ⟨spins, spawning⟩ := ih (k := k.wakeTask id) locked run
    exact ⟨spins, spawning.append_right [_]⟩
  | receive t next ih =>
    have held := (isHeld_congr (ipcReceivePoll_held (k := k) t cx) .kernelExecutor).trans locked
    obtain ⟨spins, spawning⟩ := ih _ held run
    exact ⟨spins, spawning.append_right [_]⟩
  | spawn top rest ih =>
    rw [poll, spawnStatic_locked locked] at run
    cases run
    exact ⟨rfl, _, List.mem_cons_self, top, rest, rfl⟩

theorem runTask_error {id : TaskId} {script : PollScript} (locked : k.isHeld .kernelExecutor)
    (run : runTask id script k = .error reason) :
    reason = .spins ∧ Spawning (taskMoments id script k) := by
  unfold runTask at run
  unfold taskMoments
  cases found : k.executor.tasks id with
  | none =>
    rw [found] at run
    cases run
  | some t =>
    rw [found] at run
    dsimp only at run ⊢
    by_cases ready : (k.task t).state ≠ .ready
    · rw [if_pos ready] at run
      cases run
    · rw [if_neg ready] at run
      rw [if_neg ready]
      let named := { k with currentTaskId := id.val }
      cases polled : poll (named.cachedWaker id).1 script
          ((named.cachedWaker id).2.observe (.polled id)) with
      | error failed =>
        rw [polled] at run
        cases run
        exact poll_error (k := (named.cachedWaker id).2.observe (.polled id)) locked polled
      | ok result =>
        obtain ⟨done, after⟩ := result
        rw [polled] at run
        cases done <;> cases run

/-- The loop of `run_ready_tasks` gives no result: a future spawns, or there are fewer polls than
identifiers that were in the queue or were put there by a waker. -/
theorem runReadyTasks_error (locked : k.isHeld .kernelExecutor)
    (run : runReadyTasks scripts k = .error reason) :
    reason = .spins ∧ Spawning (runMoments scripts k) ∨
      reason = .running ∧
        scripts.length < k.executor.taskQueue.items.length + wakeCount (runMoments scripts k) := by
  induction scripts generalizing k with
  | nil =>
    unfold runReadyTasks at run
    cases popped : k.executor.taskQueue.pop with
    | none =>
      rw [popped] at run
      cases run
    | some item =>
      rw [popped] at run
      cases run
      refine .inr ⟨rfl, ?_⟩
      rw [ArrayQueue.pop_some.mp popped, List.length_cons]
      exact Nat.lt_of_lt_of_le (Nat.succ_pos _) (Nat.le_add_right _ _)
  | cons script rest ih =>
    unfold runReadyTasks at run
    unfold runMoments
    cases popped : k.executor.taskQueue.pop with
    | none =>
      rw [popped] at run
      cases run
    | some item =>
      obtain ⟨id, q⟩ := item
      rw [popped] at run
      let left := { k with executor.taskQueue := q }
      cases once : runTask id script left with
      | error failed =>
        dsimp only at run ⊢
        rw [once] at run
        cases run
        obtain ⟨spins, spawning⟩ := runTask_error (k := left) locked once
        exact .inl ⟨spins, spawning.append_left _⟩
      | ok mid =>
        dsimp only at run ⊢
        rw [once] at run ⊢
        have kept := (fixed_keeps.runTask (k := left) rfl locked once).2
        have held := (isHeld_congr kept .kernelExecutor).trans locked
        have longer : mid.executor.taskQueue.items.length ≤
            q.items.length + wakeCount (taskMoments id script left) :=
          queue_traces.runTask (k := left) locked once
        rcases ih held run with ⟨spins, spawning⟩ | ⟨unfinished, less⟩
        · exact .inl ⟨spins, spawning.append_right _⟩
        · refine .inr ⟨unfinished, ?_⟩
          show rest.length + 1 < _ + wakeCount (taskMoments id script left ++ runMoments rest mid)
          rw [ArrayQueue.pop_some.mp popped, List.length_cons, wakeCount_append]
          omega

theorem pollKernelTasks_error (run : k.pollKernelTasks scripts = .error reason) :
    reason = .spins ∧ Spawning (k.pollMoments scripts) ∨
      reason = .running ∧ scripts.length <
        k.executor.taskQueue.items.length + wakeCount (k.pollMoments scripts) := by
  unfold pollKernelTasks at run
  unfold pollMoments
  split at run
  · cases run
  next free =>
    rw [if_neg free]
    cases ran : runReadyTasks scripts (k.acquire executorGuard) with
    | error failed =>
      rw [ran] at run
      cases run
      exact runReadyTasks_error (isHeld_acquire executorGuard) ran
    | ok mid =>
      rw [ran] at run
      cases run

/-- The timer's handler gives no result only because its polls give none. -/
theorem timerHandlerInner_error {rsp : UInt64} (sound : k.Sound) :
    k.timerHandlerInner scripts rsp = .error reason ↔
      k.pollKernelTasks scripts = .error reason := by
  unfold timerHandlerInner
  cases ran : k.pollKernelTasks scripts with
  | error failed => exact ⟨fun h => by cases h; rfl, fun h => by cases h; rfl⟩
  | ok polled =>
    have ticked : Sound { polled with tickCount := polled.tickCount + 1 } :=
      (sound.fixed (fixed_pollKernelTasks ran)).tick
    obtain ⟨t, cur⟩ := ticked.current
    obtain ⟨new, -, result⟩ := scheduleNext_eq rsp false ticked.taskList_free cur
    refine iff_of_false (fun failed => ?_) nofun
    change scheduleNext rsp false { polled with tickCount := polled.tickCount + 1 } =
      .error reason at failed
    rw [result] at failed
    cases failed

theorem deviceHandlerInner_error {label rsp : UInt64} {data : UInt8} :
    k.deviceHandlerInner label data scripts rsp = .error reason ↔
      (k.postInitMailbox (deviceMessage label data)).pollKernelTasks scripts = .error reason := by
  unfold deviceHandlerInner
  cases (k.postInitMailbox (deviceMessage label data)).pollKernelTasks scripts with
  | error failed => exact ⟨fun h => by cases h; rfl, fun h => by cases h; rfl⟩
  | ok polled => exact iff_of_false nofun nofun

theorem map_error {α β : Type} {x : Except Stop α} {f : α → β} :
    x.map f = .error reason ↔ x = .error reason := by
  cases x with
  | error failed => exact ⟨fun h => by cases h; rfl, fun h => by cases h; rfl⟩
  | ok a => exact iff_of_false nofun nofun

theorem postInitMailbox_executor (m : Message) : (k.postInitMailbox m).executor = k.executor := by
  unfold postInitMailbox
  split <;> rfl

end Kernel

end Microkernel
