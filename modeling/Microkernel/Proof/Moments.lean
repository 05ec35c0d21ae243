import Microkernel.Proof.Steps

/-! What the polls of an event do, one effect after another.  A property of the effects of the polls
that composes follows, for `run_ready_tasks` and for `poll_kernel_tasks`, from what it says of one
effect. -/

namespace Microkernel

open Lib

namespace Kernel

/-- A moment of a poll: what the poll does from then on, and the state. -/
abbrev Moment := PollScript × Kernel

variable {k k' : Kernel} {scripts more : List PollScript}

/-- The moments of a poll, up to the effect that does not return if there is one. -/
def moments (cx : TaskWaker) : PollScript → Kernel → List Moment
  | .ready, k => [(.ready, k)]
  | .pending, k => [(.pending, k)]
  | .wake id rest, k => (.wake id rest, k) :: moments cx rest (k.wakeTask id)
  | .receive t next, k =>
    let (msg, after) := k.ipcReceivePoll t cx
    (.receive t next, k) :: moments cx (next msg) after
  | .spawn kstackTop rest, k =>
    (.spawn kstackTop rest, k) ::
      match k.spawnStatic kstackTop with
      | .ok after => moments cx rest after
      | .error _ => []

/-- Those of the poll of `runTask`. -/
def taskMoments (id : TaskId) (script : PollScript) (k : Kernel) : List Moment :=
  match k.executor.tasks id with
  | none => []
  | some t =>
    if (k.task t).state ≠ .ready then []
    else
      let (waker, k) := { k with currentTaskId := id.val }.cachedWaker id
      moments waker script (k.observe (.polled id))

/-- Those of the polls of `runReadyTasks`. -/
def runMoments : List PollScript → Kernel → List Moment
  | scripts, k =>
    match k.executor.taskQueue.pop with
    | none => []
    | some (id, q) =>
      match scripts with
      | [] => []
      | script :: rest =>
        taskMoments id script { k with executor.taskQueue := q } ++
          match runTask id script { k with executor.taskQueue := q } with
          | .ok k => runMoments rest k
          | .error _ => []

def pollMoments (scripts : List PollScript) (k : Kernel) : List Moment :=
  if k.isHeld .kernelExecutor then [] else runMoments scripts (k.acquire executorGuard)

/-- `R ms k k'` says what polls with the moments `ms` do from `k` to `k'`: it composes, and it holds
of every effect of the executor.  A spawn under the executor's lock has none. -/
structure Traces (R : List Moment → Kernel → Kernel → Prop) : Prop where
  trans : ∀ {k mid k' ms ms'}, R ms k mid → R ms' mid k' → R (ms ++ ms') k k'
  ready : ∀ k, R [(.ready, k)] k k
  pending : ∀ k, R [(.pending, k)] k k
  wake : ∀ k id rest, R [(.wake id rest, k)] k (k.wakeTask id)
  receive : ∀ k t next cx, R [(.receive t next, k)] k (k.ipcReceivePoll t cx).2
  current : ∀ k id, R [] k { k with currentTaskId := id }
  cache : ∀ k id, R [] k (k.cachedWaker id).2
  finish : ∀ k id, R [] k (k.finishTask id)
  observe : ∀ k o, R [] k (k.observe o)
  pop : ∀ {k id q}, k.executor.taskQueue.pop = some (id, q) →
    R [] k { k with executor.taskQueue := q }

namespace Traces

variable {R : List Moment → Kernel → Kernel → Prop}

theorem poll (traces : Traces R) {cx : TaskWaker} {script : PollScript} {done : Bool}
    (locked : k.isHeld .kernelExecutor) (run : Kernel.poll cx script k = .ok (done, k')) :
    R (moments cx script k) k k' := by
  induction script generalizing k with
  | ready =>
    cases run
    exact traces.ready _
  | pending =>
    cases run
    exact traces.pending _
  | wake id rest ih => exact traces.trans (traces.wake k id rest) (ih locked run)
  | receive t next ih =>
    have held := (isHeld_congr (ipcReceivePoll_held (k := k) t cx) .kernelExecutor).trans locked
    exact traces.trans (traces.receive k t next cx) (ih _ held run)
  | spawn top rest ih =>
    obtain ⟨mid, spawned, -⟩ := bind_ok run
    rw [spawnStatic_locked locked] at spawned
    cases spawned

theorem runTask (traces : Traces R) {id : TaskId} {script : PollScript}
    (locked : k.isHeld .kernelExecutor) (run : Kernel.runTask id script k = .ok k') :
    R (taskMoments id script k) k k' := by
  unfold Kernel.runTask at run
  unfold taskMoments
  cases found : k.executor.tasks id with
  | none =>
    rw [found] at run
    cases run
    exact traces.observe k _
  | some t =>
    rw [found] at run
    dsimp only at run ⊢
    by_cases ready : (k.task t).state ≠ .ready
    · rw [if_pos ready] at run
      cases run
      rw [if_pos ready]
      exact traces.observe k _
    · rw [if_neg ready] at run
      rw [if_neg ready]
      obtain ⟨⟨done, after⟩, polled, finished⟩ := bind_ok run
      let named := { k with currentTaskId := id.val }
      let start := (named.cachedWaker id).2.observe (.polled id)
      have before : R [] k start := traces.trans (traces.current k id.val)
        (traces.trans (traces.cache named id) (traces.observe _ _))
      have during := traces.trans before (traces.poll (k := start) locked polled)
      cases done <;> cases finished
      · exact during
      · simpa using traces.trans during (traces.finish after id)

theorem runReadyTasks (traces : Traces R) (locked : k.isHeld .kernelExecutor)
    (run : Kernel.runReadyTasks scripts k = .ok k') : R (runMoments scripts k) k k' := by
  have drained : R [] k ({ k with currentTaskId := 0 }.observe .drained) :=
    traces.trans (traces.current k 0) (traces.observe _ _)
  induction scripts generalizing k with
  | nil =>
    unfold Kernel.runReadyTasks at run
    unfold runMoments
    cases popped : k.executor.taskQueue.pop with
    | none =>
      rw [popped] at run
      cases run
      exact drained
    | some item =>
      rw [popped] at run
      cases run
  | cons script rest ih =>
    unfold Kernel.runReadyTasks at run
    unfold runMoments
    cases popped : k.executor.taskQueue.pop with
    | none =>
      rw [popped] at run
      cases run
      exact drained
    | some item =>
      obtain ⟨id, q⟩ := item
      rw [popped] at run
      obtain ⟨mid, once, more⟩ := bind_ok run
      let left := { k with executor.taskQueue := q }
      have kept := (fixed_keeps.runTask (k := left) rfl locked once).2
      have held := (isHeld_congr kept .kernelExecutor).trans locked
      dsimp only
      rw [once]
      have first := traces.trans (traces.pop popped) (traces.runTask (k := left) locked once)
      exact traces.trans first
        (ih held more (traces.trans (traces.current mid 0) (traces.observe _ _)))

end Traces

/-! ### The lock under which they happen -/

theorem moments_locked {cx : TaskWaker} {script : PollScript} (locked : k.isHeld .kernelExecutor) :
    ∀ m ∈ moments cx script k, m.2.isHeld .kernelExecutor := by
  induction script generalizing k with
  | ready | pending =>
    intro m mem
    rw [List.mem_singleton.mp mem]
    exact locked
  | wake id rest ih =>
    intro m mem
    rcases List.mem_cons.mp mem with rfl | later
    · exact locked
    · exact ih (k := k.wakeTask id) locked m later
  | receive t next ih =>
    intro m mem
    rcases List.mem_cons.mp mem with rfl | later
    · exact locked
    · have held := (isHeld_congr (ipcReceivePoll_held (k := k) t cx) .kernelExecutor).trans locked
      exact ih _ held m later
  | spawn top rest ih =>
    intro m mem
    rw [moments, spawnStatic_locked locked] at mem
    rw [List.mem_singleton.mp mem]
    exact locked

theorem taskMoments_locked {id : TaskId} {script : PollScript}
    (locked : k.isHeld .kernelExecutor) :
    ∀ m ∈ taskMoments id script k, m.2.isHeld .kernelExecutor := by
  unfold taskMoments
  split
  · exact fun m mem => absurd mem List.not_mem_nil
  · split
    · exact fun m mem => absurd mem List.not_mem_nil
    · let named := { k with currentTaskId := id.val }
      exact moments_locked (k := (named.cachedWaker id).2.observe (.polled id)) locked

theorem runMoments_locked (locked : k.isHeld .kernelExecutor) :
    ∀ m ∈ runMoments scripts k, m.2.isHeld .kernelExecutor := by
  induction scripts generalizing k with
  | nil =>
    unfold runMoments
    split
    · exact fun m mem => absurd mem List.not_mem_nil
    · exact fun m mem => absurd mem List.not_mem_nil
  | cons script rest ih =>
    unfold runMoments
    split
    · exact fun m mem => absurd mem List.not_mem_nil
    next id q popped =>
      intro m mem
      rcases List.mem_append.mp mem with now | later
      · exact taskMoments_locked (k := { k with executor.taskQueue := q }) locked m now
      · cases once : runTask id script { k with executor.taskQueue := q } with
        | error reason =>
          rw [once] at later
          cases later
        | ok mid =>
          rw [once] at later
          have kept :=
            (fixed_keeps.runTask (k := { k with executor.taskQueue := q }) rfl locked once).2
          exact ih ((isHeld_congr kept .kernelExecutor).trans locked) m later

theorem pollMoments_locked : ∀ m ∈ k.pollMoments scripts, m.2.isHeld .kernelExecutor := by
  unfold pollMoments
  split
  · exact fun m mem => absurd mem List.not_mem_nil
  · exact runMoments_locked (isHeld_acquire executorGuard)

end Kernel

end Microkernel
