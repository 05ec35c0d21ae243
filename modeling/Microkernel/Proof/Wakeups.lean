import Microkernel.Lib.Promise
import Microkernel.Proof.Handover

/-! Which wakes the executor answers.  A wake that finds room in the queue, or its identifier there,
leaves the identifier in the queue until the executor takes it from there, and the executor returns
only with an empty queue. -/

namespace Microkernel

open Lib

namespace Kernel

variable {k k' : Kernel} {taken : Option TaskId} {id : TaskId} {o : Observation}
  {scripts : List PollScript}

/-- What a wake that the queue can take promises: that the executor polls the task, or finds that it
is not `Ready`. -/
def wakePromise (id : TaskId) : Promise Observation where
  makes o := ∃ queue : List TaskId, o = .woken id queue ∧ (queue.length < 100 ∨ id ∈ queue)
  keeps o := o = .polled id ∨ ∃ state, o = .dropped id state ∧ state ≠ some .ready

def IsDrained (o : Observation) : Prop := o = .drained

/-- The wakes that are not answered yet are in the queue, apart from the identifier that the
executor has just taken, and none was open when `run_ready_tasks` returned. -/
structure Awaited (taken : Option TaskId) (k : Kernel) : Prop where
  queued : ∀ id, (wakePromise id).Open k.history → taken = some id ∨ id ∈ k.executor.taskQueue.items
  answered : ∀ id, (wakePromise id).KeptBy IsDrained k.history

/-- An event that makes no promise and that is not the return of `run_ready_tasks`. -/
theorem Awaited.other (awaited : k.Awaited taken) (history : k'.history = k.history ++ [o])
    (silent : ∀ id, ¬ (wakePromise id).makes o) (unmarked : ¬ IsDrained o)
    (queue : k'.executor.taskQueue = k.executor.taskQueue) : k'.Awaited taken where
  queued id waits := by
    rw [history, Promise.open_snoc] at waits
    rw [queue]
    exact awaited.queued id (waits.resolve_left (silent id)).1
  answered id := by
    rw [history]
    exact (awaited.answered id).snoc fun marked => absurd marked unmarked

theorem Awaited.same (awaited : k.Awaited taken) (history : k'.history = k.history)
    (queue : k'.executor.taskQueue = k.executor.taskQueue) : k'.Awaited taken where
  queued id waits := by
    rw [history] at waits
    rw [queue]
    exact awaited.queued id waits
  answered id := by
    rw [history]
    exact awaited.answered id

/-- A wake leaves its identifier in the queue when there is room for it, or when it is there. -/
theorem mem_wakeTask {other : TaskId} :
    other ∈ (k.wakeTask id).executor.taskQueue.items ↔
      other ∈ k.executor.taskQueue.items ∨
        other = id ∧ k.executor.taskQueue.items.length < 100 := by
  show other ∈ ((k.executor.taskQueue.push id).getD k.executor.taskQueue).items ↔ _
  cases pushed : k.executor.taskQueue.push id with
  | none =>
    have full := ArrayQueue.push_none.mp pushed
    simp [full]
  | some q =>
    obtain ⟨room, items⟩ := ArrayQueue.push_some pushed
    simp [items, room]

theorem Awaited.wake (awaited : k.Awaited taken) (id : TaskId) : (k.wakeTask id).Awaited taken where
  queued other waits := by
    rw [mem_wakeTask]
    rcases Promise.open_snoc.mp waits with ⟨queue, same, room⟩ | ⟨before, -⟩
    · cases same
      rcases room with room | here
      · exact .inr (.inr ⟨rfl, room⟩)
      · exact .inr (.inl here)
    · rcases awaited.queued other before with gone | here
      · exact .inl gone
      · exact .inr (.inl here)
  answered other := (awaited.answered other).snoc fun marked => by cases marked

theorem not_makes (other : ∀ queue id, o ≠ .woken id queue) (id : TaskId) :
    ¬ (wakePromise id).makes o := by
  rintro ⟨queue, same, -⟩
  exact other queue id same

theorem awaited_scripts : ScriptKeeps (Awaited taken) where
  wake id awaited := awaited.wake id
  receive {k} t cx awaited := by
    unfold ipcReceivePoll
    split
    · exact awaited.other rfl (not_makes fun _ _ => by simp) (by simp [IsDrained]) rfl
    · exact awaited.same rfl rfl

/-- The identifier that has been taken from the queue is answered for. -/
theorem Awaited.answer (awaited : k.Awaited (some id)) (history : k'.history = k.history ++ [o])
    (keeps : (wakePromise id).keeps o) (silent : ∀ id, ¬ (wakePromise id).makes o)
    (unmarked : ¬ IsDrained o) (queue : k'.executor.taskQueue = k.executor.taskQueue) :
    k'.Awaited none where
  queued other waits := by
    rw [history, Promise.open_snoc] at waits
    obtain ⟨before, unkept⟩ := waits.resolve_left (silent other)
    rw [queue]
    rcases awaited.queued other before with same | here
    · cases same
      exact absurd keeps unkept
    · exact .inr here
  answered other := by
    rw [history]
    exact (awaited.answered other).snoc fun marked => absurd marked unmarked

theorem Awaited.runTask {script : PollScript} (awaited : k.Awaited (some id))
    (locked : k.isHeld .kernelExecutor) (run : Kernel.runTask id script k = .ok k') :
    k'.Awaited none ∧ k'.held = k.held := by
  unfold Kernel.runTask at run
  split at run
  · cases run
    exact ⟨awaited.answer rfl (.inr ⟨none, rfl, by simp⟩) (not_makes fun _ _ => by simp)
      (by simp [IsDrained]) rfl, rfl⟩
  · split at run
    next state =>
      cases run
      exact ⟨awaited.answer rfl (.inr ⟨_, rfl, by simpa using state⟩)
        (not_makes fun _ _ => by simp) (by simp [IsDrained]) rfl, rfl⟩
    next =>
      obtain ⟨⟨done, after⟩, polled, finished⟩ := bind_ok run
      have start : Awaited none (({ k with currentTaskId := id.val }.cachedWaker id).2.observe
          (.polled id)) :=
        awaited.answer rfl (.inl rfl) (not_makes fun _ _ => by simp) (by simp [IsDrained]) rfl
      obtain ⟨kept, held⟩ := awaited_scripts.poll start locked polled
      cases done <;> cases finished
      · exact ⟨kept, held⟩
      · exact ⟨kept.other rfl (not_makes fun _ _ => by simp) (by simp [IsDrained]) rfl, held⟩

theorem Awaited.pop {q : ArrayQueue TaskId 100} (awaited : k.Awaited none)
    (popped : k.executor.taskQueue.pop = some (id, q)) :
    Awaited (some id) { k with executor.taskQueue := q } where
  queued other waits := by
    rcases awaited.queued other waits with absurd | here
    · cases absurd
    · rw [ArrayQueue.pop_some.mp popped] at here
      rcases List.mem_cons.mp here with rfl | later
      · exact .inl rfl
      · exact .inr later
  answered := awaited.answered

/-- `run_ready_tasks` returns with an empty queue, so no wake is left open. -/
theorem Awaited.drained (awaited : k.Awaited none) (empty : k.executor.taskQueue.pop = none) :
    ({ k with currentTaskId := 0 }.observe .drained).Awaited none where
  queued id waits :=
    awaited.queued id ((Promise.open_snoc.mp waits).resolve_left
      (not_makes (fun _ _ => by simp) id)).1
  answered id := by
    refine (awaited.answered id).snoc fun _ waits => ?_
    rcases awaited.queued id waits with absurd | here
    · cases absurd
    · rw [ArrayQueue.pop_none.mp empty] at here
      cases here

theorem Awaited.runReadyTasks (awaited : k.Awaited none) (locked : k.isHeld .kernelExecutor)
    (run : Kernel.runReadyTasks scripts k = .ok k') : k'.Awaited none := by
  induction scripts generalizing k with
  | nil =>
    unfold Kernel.runReadyTasks at run
    split at run
    next empty =>
      cases run
      exact awaited.drained empty
    next => cases run
  | cons script rest ih =>
    unfold Kernel.runReadyTasks at run
    split at run
    next empty =>
      cases run
      exact awaited.drained empty
    next popped =>
      obtain ⟨mid, once, more⟩ := bind_ok run
      obtain ⟨kept, held⟩ := (awaited.pop popped).runTask locked once
      exact ih kept (by rw [isHeld_congr held]; exact locked) more

theorem awaited_executor : ExecutorKeeps (Awaited none) where
  toScriptKeeps := awaited_scripts
  polls awaited run := by
    rcases pollKernelTasks_cases run with ⟨-, rfl⟩ | ⟨-, after, ran, rfl⟩
    · exact awaited
    · have start : (Kernel.acquire _ executorGuard).Awaited none := awaited.same rfl rfl
      exact (start.runReadyTasks (isHeld_acquire executorGuard) ran).same rfl rfl

theorem awaken_awaited {t : TaskRef} (awaited : k.Awaited none) : (k.awaken t).Awaited none := by
  unfold awaken
  split
  · have readied : (k.setState t .ready).Awaited none := awaited.same rfl rfl
    split
    next waker _ =>
      have cleared : Awaited none ((k.setState t .ready).modifyTask t fun task =>
          { task with waker := none }) := readied.same rfl rfl
      exact cleared.wake waker.taskId
    · exact readied
  · exact awaited

theorem awaited_keeps : StepKeeps (fun _ _ => True) (Awaited none) where
  executor := awaited_executor
  tick awaited := awaited.same rfl rfl
  move _ _ awaited := awaited.same rfl rfl
  kill _ awaited := awaited.same rfl rfl
  post _ awaited := by
    unfold postInitMailbox
    split
    · exact awaited
    · exact awaited.other rfl (not_makes fun _ _ => by simp) (by simp [IsDrained]) rfl
  call {k id arg1 arg2 rsp o} _ _ call awaited := by
    cases call with
    | idle | sendFault => exact awaited
    | print | regService | recvFault | exit | setPriority => exact awaited.same rfl rfl
    | recv => exact awaited.other rfl (not_makes fun _ _ => by simp) (by simp [IsDrained]) rfl
    | @send t =>
      have put : (k.putMailbox t (k.messageAt arg2)).Awaited none := awaited.same rfl rfl
      exact (awaken_awaited (t := t) put).other rfl (not_makes fun _ _ => by simp)
        (by simp [IsDrained]) rfl
  user _ awaited := awaited.same rfl rfl
  spawn _ awaited run := by
    obtain ⟨-, q, pushed, rfl⟩ := spawnStatic_cases run
    refine ⟨fun id waits => ?_, awaited.answered⟩
    rcases awaited.queued id waits with absurd | here
    · cases absurd
    · refine .inr ?_
      show id ∈ q.items
      rw [(ArrayQueue.push_some pushed).2]
      exact List.mem_append_left _ here

/-- In every run, a wake that finds fewer than 100 identifiers in the queue, or its own there, is
answered before `run_ready_tasks`, be it the call in progress or the next one, returns: the executor
polls the task, or it takes the identifier while the task is not `Ready`. -/
theorem wake_answered {k0 : Kernel} {es : List Event} (rested : k0.Rested)
    (run : Run Step k0 es k) {queue : List TaskId} {past between later : List Observation}
    (woken : k.history = past ++ .woken id queue :: (between ++ .drained :: later))
    (room : queue.length < 100 ∨ id ∈ queue) :
    .polled id ∈ between ∨ ∃ state, state ≠ some .ready ∧ .dropped id state ∈ between := by
  have start : k0.Awaited none := by
    constructor
    · intro id waits
      rw [rested.silent] at waits
      exact absurd waits Promise.open_nil
    · intro id
      rw [rested.silent]
      exact Promise.keptBy_nil
  have awaited := awaited_keeps.run rested.sound start (run.mono fun _ _ _ step => ⟨trivial, step⟩)
  have kept := awaited.answered id
  rw [woken] at kept
  obtain ⟨o, inside, rfl | ⟨state, rfl, unready⟩⟩ := kept.kept_before ⟨queue, rfl, room⟩ rfl
  · exact .inl inside
  · exact .inr ⟨state, unready, inside⟩

/-- The monitor task is woken before its first poll, and polled. -/
theorem wake_answered_monitor : ∃ k0 k, heapBoot = .ok k0 ∧
    Run Step k0 [.wake ⟨3⟩, .pollTasks [.pending, .pending]] k ∧
    (.polled ⟨3⟩ ∈ [Observation.polled ⟨3⟩, .polled ⟨3⟩] ∨
      ∃ state, state ≠ some .ready ∧
        .dropped ⟨3⟩ state ∈ [Observation.polled ⟨3⟩, .polled ⟨3⟩]) := by
  have evaluated : ∃ k0 k1 k, heapBoot = .ok k0 ∧ k0.Step (.wake ⟨3⟩) k1 ∧
      k1.Step (.pollTasks [.pending, .pending]) k ∧
      k.history = [] ++ .woken ⟨3⟩ [⟨3⟩] :: ([.polled ⟨3⟩, .polled ⟨3⟩] ++ .drained :: []) :=
    ⟨_, _, _, rfl, ⟨_, rfl⟩, ⟨_, rfl⟩, rfl⟩
  obtain ⟨k0, k1, k, boot, first, second, history⟩ := evaluated
  have run := (Run.single first).snoc second
  exact ⟨k0, k, boot, run, wake_answered (heapBoot_booted boot).toRested run history
    (.inl (by decide))⟩

/-- The monitor task waits for a message.  It is woken then, and not polled. -/
theorem wake_dropped : ∃ k0 k1 k, heapBoot = .ok k0 ∧ k0.Rested ∧
    Run Step k0 [.pollTasks [.receive 2 fun _ => .pending]] k1 ∧
    k1.executor.tasks ⟨3⟩ = some 2 ∧ (k1.task 2).state ≠ .terminated ∧
    Run Step k1 [.wake ⟨3⟩, .pollTasks [.pending]] k ∧
    k.history = k1.history ++ [.woken ⟨3⟩ [], .dropped ⟨3⟩ (some .blocked), .drained] := by
  have evaluated : ∃ k0 k1 k2 k, heapBoot = .ok k0 ∧
      k0.Step (.pollTasks [.receive 2 fun _ => .pending]) k1 ∧
      k1.executor.tasks ⟨3⟩ = some 2 ∧ (k1.task 2).state = .blocked ∧
      k1.Step (.wake ⟨3⟩) k2 ∧ k2.Step (.pollTasks [.pending]) k ∧
      k.history = k1.history ++ [.woken ⟨3⟩ [], .dropped ⟨3⟩ (some .blocked), .drained] :=
    ⟨_, _, _, _, rfl, ⟨_, rfl⟩, rfl, rfl, ⟨_, rfl⟩, ⟨_, rfl⟩, rfl⟩
  obtain ⟨k0, k1, k2, k, boot, waits, live, blocked, wakes, polls, history⟩ := evaluated
  exact ⟨k0, k1, k, boot, (heapBoot_booted boot).toRested, .single waits, live,
    by rw [blocked]; decide, (Run.single wakes).snoc polls, history⟩

end Kernel

end Microkernel
