import Microkernel.Proof.Handover
import Microkernel.Proof.Moments

/-! Whether `run_ready_tasks` returns.  Each turn of its loop takes one identifier from the queue,
and wakers put identifiers back: it returns when the wakers stop.  A future that spawns a task
through `spawn_static` waits for the lock that `poll_kernel_tasks` holds around it. -/

namespace Microkernel

open Lib

namespace Kernel

variable {k k' : Kernel} {scripts more : List PollScript}

/-! ### Wakers -/

/-- A waker runs at the moment. -/
def wakesAt : Moment → Bool
  | (.wake _ _, _) => true
  | _ => false

def wakeCount (ms : List Moment) : Nat := ms.countP wakesAt

theorem wakeCount_append (ms ms' : List Moment) :
    wakeCount (ms ++ ms') = wakeCount ms + wakeCount ms' := List.countP_append

/-- The poll returns whenever the executor makes it from an interrupt handler. -/
def PollReturns (script : PollScript) : Prop :=
  ∀ cx k, k.isHeld .kernelExecutor → ∃ result, poll cx script k = .ok result

/-- The first `n` polls of a sequence. -/
def firstPolls (n : Nat) (polls : Nat → PollScript) : List PollScript := (List.range n).map polls

theorem firstPolls_add (n d : Nat) (polls : Nat → PollScript) :
    ∃ more, firstPolls (n + d) polls = firstPolls n polls ++ more := by
  refine ⟨(List.range d).map fun i => polls (n + i), ?_⟩
  rw [firstPolls, firstPolls, List.range_add, List.map_append, List.map_map]
  rfl

/-- A poll makes the queue longer by its wakers at most. -/
theorem queue_traces : Traces fun ms k k' =>
    k'.executor.taskQueue.items.length ≤ k.executor.taskQueue.items.length + wakeCount ms where
  trans first second := by
    rw [wakeCount_append]
    omega
  ready _ := Nat.le_add_right _ _
  pending _ := Nat.le_add_right _ _
  wake k id rest := by
    show ((k.executor.taskQueue.push id).getD k.executor.taskQueue).items.length ≤ _ + 1
    cases pushed : k.executor.taskQueue.push id with
    | none => exact Nat.le_succ _
    | some q =>
      rw [Option.getD_some, (ArrayQueue.push_some pushed).2, List.length_append]
      exact Nat.le_refl _
  receive k t next cx := by
    have same : (k.ipcReceivePoll t cx).2.executor = k.executor := by
      unfold ipcReceivePoll
      split <;> rfl
    rw [same]
    exact Nat.le_add_right _ _
  current _ _ := Nat.le_add_right _ _
  cache _ _ := Nat.le_add_right _ _
  finish _ _ := Nat.le_add_right _ _
  observe _ _ := Nat.le_add_right _ _
  pop {k id q} popped := by
    show q.items.length ≤ k.executor.taskQueue.items.length + _
    rw [ArrayQueue.pop_some.mp popped, List.length_cons]
    omega

theorem runTask_total {id : TaskId} {script : PollScript} (returns : PollReturns script)
    (locked : k.isHeld .kernelExecutor) : ∃ k', runTask id script k = .ok k' := by
  unfold runTask
  split
  · exact ⟨_, rfl⟩
  · split
    · exact ⟨_, rfl⟩
    · let named := { k with currentTaskId := id.val }
      obtain ⟨⟨done, after⟩, polled⟩ := returns (named.cachedWaker id).1
        ((named.cachedWaker id).2.observe (.polled id)) locked
      dsimp only
      rw [polled]
      cases done
      · exact ⟨after, rfl⟩
      · exact ⟨after.finishTask id, rfl⟩

/-- The loop returns, or it has used up its polls, each on an identifier that was in the queue or
was put there by a waker. -/
theorem runReadyTasks_total (returns : ∀ script ∈ scripts, PollReturns script)
    (locked : k.isHeld .kernelExecutor) :
    (∃ k', runReadyTasks scripts k = .ok k') ∨
      runReadyTasks scripts k = .error .running ∧
        scripts.length <
          k.executor.taskQueue.items.length + wakeCount (runMoments scripts k) := by
  induction scripts generalizing k with
  | nil =>
    unfold runReadyTasks
    cases popped : k.executor.taskQueue.pop with
    | none => exact .inl ⟨_, rfl⟩
    | some item =>
      obtain ⟨id, q⟩ := item
      refine .inr ⟨rfl, ?_⟩
      rw [ArrayQueue.pop_some.mp popped, List.length_cons]
      exact Nat.lt_of_lt_of_le (Nat.succ_pos _) (Nat.le_add_right _ _)
  | cons script rest ih =>
    unfold runReadyTasks runMoments
    cases popped : k.executor.taskQueue.pop with
    | none => exact .inl ⟨_, rfl⟩
    | some item =>
      obtain ⟨id, q⟩ := item
      dsimp only
      let left := { k with executor.taskQueue := q }
      obtain ⟨mid, once⟩ : ∃ mid, runTask id script left = .ok mid :=
        runTask_total (returns script List.mem_cons_self) locked
      have kept := (fixed_keeps.runTask (k := left) rfl locked once).2
      have held := (isHeld_congr kept .kernelExecutor).trans locked
      have longer : mid.executor.taskQueue.items.length ≤
          q.items.length + wakeCount (taskMoments id script left) :=
        queue_traces.runTask (k := left) locked once
      rw [once]
      rcases ih (fun s mem => returns s (List.mem_cons_of_mem script mem)) held with
        ⟨after, done⟩ | ⟨unfinished, less⟩
      · exact .inl ⟨after, done⟩
      · refine .inr ⟨unfinished, ?_⟩
        show rest.length + 1 <
          _ + wakeCount (taskMoments id script left ++ runMoments rest mid)
        rw [ArrayQueue.pop_some.mp popped, List.length_cons, wakeCount_append]
        omega

/-- More polls for the loop add moments at the end, and none once it has returned. -/
theorem runMoments_append (scripts more : List PollScript) (k : Kernel) :
    ∃ later, runMoments (scripts ++ more) k = runMoments scripts k ++ later ∧
      ∀ k', runReadyTasks scripts k = .ok k' → later = [] := by
  induction scripts generalizing k with
  | nil =>
    cases popped : k.executor.taskQueue.pop with
    | none =>
      refine ⟨[], ?_, fun _ _ => rfl⟩
      rw [List.nil_append, List.append_nil, runMoments, runMoments, popped]
    | some item =>
      refine ⟨runMoments more k, ?_, fun k' done => ?_⟩
      · rw [List.nil_append, show runMoments [] k = [] by rw [runMoments, popped], List.nil_append]
      · rw [runReadyTasks, popped] at done
        cases done
  | cons script rest ih =>
    rw [List.cons_append]
    unfold runMoments runReadyTasks
    cases popped : k.executor.taskQueue.pop with
    | none => exact ⟨[], rfl, fun _ _ => rfl⟩
    | some item =>
      obtain ⟨id, q⟩ := item
      dsimp only
      cases once : runTask id script { k with executor.taskQueue := q } with
      | error reason => exact ⟨[], by simp, fun _ _ => rfl⟩
      | ok mid =>
        obtain ⟨later, longer, ended⟩ := ih mid
        refine ⟨later, ?_, ended⟩
        show _ ++ runMoments (rest ++ more) mid = _
        rw [longer, List.append_assoc]

/-- A bound on the wakers is a bound on the polls: more of them than the identifiers that can ever
be in the queue are enough. -/
theorem pollKernelTasks_total {polls : Nat → PollScript} {most : Nat}
    (returns : ∀ n, PollReturns (polls n))
    (bounded : ∀ n, wakeCount (k.pollMoments (firstPolls n polls)) ≤ most) :
    ∃ n k', k.pollKernelTasks (firstPolls n polls) = .ok k' := by
  unfold pollKernelTasks
  unfold pollMoments at bounded
  by_cases busy : k.isHeld .kernelExecutor
  · exact ⟨0, k, if_pos busy⟩
  simp only [if_neg busy] at bounded ⊢
  have locked := isHeld_acquire (k := k) executorGuard
  let n := (k.acquire executorGuard).executor.taskQueue.items.length + most
  have listed : ∀ script ∈ firstPolls n polls, PollReturns script := by
    intro script mem
    obtain ⟨i, -, rfl⟩ := List.mem_map.mp mem
    exact returns i
  have length : (firstPolls n polls).length = n := by simp [firstPolls]
  rcases runReadyTasks_total listed locked with ⟨after, done⟩ | ⟨-, less⟩
  · refine ⟨n, after.release executorGuard, ?_⟩
    rw [done]
    rfl
  · have := bounded n
    omega

/-- `run_ready_tasks`, called by a handler, with polls that return: it returns exactly when only
finitely many wakers run in the polls that it makes. -/
theorem drains_iff {polls : Nat → PollScript} (returns : ∀ n, PollReturns (polls n)) :
    (∃ n k', k.pollKernelTasks (firstPolls n polls) = .ok k') ↔
      ∃ most, ∀ n, wakeCount (k.pollMoments (firstPolls n polls)) ≤ most := by
  refine ⟨?_, fun ⟨most, bounded⟩ => pollKernelTasks_total returns bounded⟩
  unfold pollKernelTasks pollMoments
  by_cases busy : k.isHeld .kernelExecutor
  · simp only [if_pos busy]
    exact fun _ => ⟨0, fun _ => Nat.le_refl 0⟩
  simp only [if_neg busy]
  rintro ⟨n, k', run⟩
  obtain ⟨after, done, -⟩ := bind_ok run
  refine ⟨wakeCount (runMoments (firstPolls n polls) (k.acquire executorGuard)), fun m => ?_⟩
  rcases Nat.le_total n m with longer | shorter
  · obtain ⟨d, rfl⟩ := Nat.exists_eq_add_of_le longer
    obtain ⟨more, split⟩ := firstPolls_add n d polls
    obtain ⟨later, same, ended⟩ :=
      runMoments_append (firstPolls n polls) more (k.acquire executorGuard)
    rw [split, same, ended after done, List.append_nil]
  · obtain ⟨d, rfl⟩ := Nat.exists_eq_add_of_le shorter
    obtain ⟨more, split⟩ := firstPolls_add m d polls
    obtain ⟨later, same, -⟩ :=
      runMoments_append (firstPolls m polls) more (k.acquire executorGuard)
    rw [split, same, wakeCount_append]
    exact Nat.le_add_right _ _

/-- The first poll wakes the monitor task, and no later poll wakes anything. -/
def wakeOnce : Nat → PollScript
  | 0 => .wake ⟨3⟩ .pending
  | _ + 1 => .pending

theorem drains_iff_wake : ∃ k0, heapBoot = .ok k0 ∧
    wakeCount (k0.pollMoments (firstPolls 2 wakeOnce)) = 1 ∧
    ∃ most, ∀ n, wakeCount (k0.pollMoments (firstPolls n wakeOnce)) ≤ most := by
  have evaluated : ∃ k0 k1, heapBoot = .ok k0 ∧
      k0.pollKernelTasks (firstPolls 2 wakeOnce) = .ok k1 ∧
      wakeCount (k0.pollMoments (firstPolls 2 wakeOnce)) = 1 := ⟨_, _, rfl, rfl, rfl⟩
  obtain ⟨k0, k1, boot, drained, once⟩ := evaluated
  have returns : ∀ n, PollReturns (wakeOnce n) := by
    intro n cx k _
    cases n with
    | zero => exact ⟨(false, k.wakeTask ⟨3⟩), rfl⟩
    | succ n => exact ⟨(false, k), rfl⟩
  exact ⟨k0, boot, once, (drains_iff returns).mp ⟨2, k1, drained⟩⟩

/-! #### A condition on the polls alone -/

/-- Whatever it receives, the poll runs at most `n` wakers. -/
def WakesAtMost : PollScript → Nat → Prop
  | .ready, _ | .pending, _ => True
  | .wake _ rest, n => ∃ m, n = m + 1 ∧ WakesAtMost rest m
  | .receive _ next, n => ∀ msg, WakesAtMost (next msg) n
  | .spawn _ rest, n => WakesAtMost rest n

theorem moments_wakes {cx : TaskWaker} {script : PollScript} {n : Nat}
    (few : WakesAtMost script n) : wakeCount (moments cx script k) ≤ n := by
  induction script generalizing k n with
  | ready | pending => exact Nat.zero_le n
  | wake id rest ih =>
    obtain ⟨m, rfl, few⟩ := few
    rw [moments, wakeCount, List.countP_cons]
    exact Nat.succ_le_succ (ih few)
  | receive t next ih =>
    rw [moments, wakeCount, List.countP_cons]
    exact ih _ (few _)
  | spawn top rest ih =>
    rw [moments, wakeCount, List.countP_cons]
    split
    · exact ih few
    · exact Nat.zero_le n

theorem taskMoments_wakes {id : TaskId} {script : PollScript} {n : Nat}
    (few : WakesAtMost script n) : wakeCount (taskMoments id script k) ≤ n := by
  unfold taskMoments
  split
  · exact Nat.zero_le n
  · split
    · exact Nat.zero_le n
    · exact moments_wakes few

theorem runMoments_wakes {counts : List Nat} (few : List.Forall₂ WakesAtMost scripts counts) :
    wakeCount (runMoments scripts k) ≤ counts.sum := by
  induction few generalizing k with
  | nil =>
    unfold runMoments
    split <;> exact Nat.zero_le _
  | @cons script n rest counts first few ih =>
    unfold runMoments
    split
    · exact Nat.zero_le _
    · dsimp only
      rw [wakeCount_append, List.sum_cons]
      refine Nat.add_le_add (taskMoments_wakes first) ?_
      split
      · exact ih
      · exact Nat.zero_le _

/-- `run_ready_tasks`, called by a handler, returns whenever the polls return and have finitely many
wakers between them. -/
theorem pollKernelTasks_few {polls : Nat → PollScript} {wakes : Nat → Nat} {most : Nat}
    (returns : ∀ n, PollReturns (polls n)) (few : ∀ n, WakesAtMost (polls n) (wakes n))
    (bounded : ∀ n, ((List.range n).map wakes).sum ≤ most) :
    ∃ n k', k.pollKernelTasks (firstPolls n polls) = .ok k' := by
  have counted : ∀ n, wakeCount (k.pollMoments (firstPolls n polls)) ≤ most := by
    intro n
    unfold pollMoments
    split
    · exact Nat.zero_le most
    have each : List.Forall₂ WakesAtMost (firstPolls n polls) ((List.range n).map wakes) := by
      rw [firstPolls, List.forall₂_map_left_iff, List.forall₂_map_right_iff, List.forall₂_same]
      exact fun i _ => few i
    exact (runMoments_wakes each).trans (bounded n)
  exact pollKernelTasks_total returns counted

/-- A task that is alone in the queue and wakes itself at every poll is in the queue again after
each. -/
theorem runReadyTasks_self_waking {id : TaskId} {t : TaskRef} (n : Nat)
    (queued : k.executor.taskQueue.items = [id]) (found : k.executor.tasks id = some t)
    (ready : (k.task t).state = .ready) :
    runReadyTasks (List.replicate n (.wake id .pending)) k = .error .running := by
  induction n generalizing k with
  | zero =>
    have popped := ArrayQueue.pop_some (r := .empty).mpr queued
    rw [List.replicate_zero, runReadyTasks, popped]
  | succ n ih =>
    have popped := ArrayQueue.pop_some (r := .empty).mpr queued
    have run : runTask id (.wake id .pending) { k with executor.taskQueue := .empty } =
        .ok ((({ { k with executor.taskQueue := .empty } with
          currentTaskId := id.val }.cachedWaker id).2.observe (.polled id)).wakeTask id) := by
      simp only [runTask, found, ready, not_true, ne_eq, if_false]
      rfl
    rw [List.replicate_succ, runReadyTasks, popped]
    dsimp only
    rw [run]
    exact ih rfl found ready

/-- The monitor task wakes itself at every poll: no number of polls is enough. -/
theorem drains_never : ∃ k0, heapBoot = .ok k0 ∧
    PollReturns (.wake ⟨3⟩ .pending) ∧
    ∀ n, k0.pollKernelTasks (firstPolls n fun _ => .wake ⟨3⟩ .pending) = .error .running := by
  have evaluated : ∃ k0, heapBoot = .ok k0 ∧ k0.held = [] ∧
      k0.executor.taskQueue.items = [⟨3⟩] ∧ k0.executor.tasks ⟨3⟩ = some 2 ∧
      (k0.task 2).state = .ready := ⟨_, rfl, rfl, rfl, rfl, rfl⟩
  obtain ⟨k0, boot, free, queued, found, ready⟩ := evaluated
  refine ⟨k0, boot, fun cx k _ => ⟨(false, k.wakeTask ⟨3⟩), rfl⟩, fun n => ?_⟩
  have same : firstPolls n (fun _ => PollScript.wake ⟨3⟩ .pending) =
      List.replicate n (.wake ⟨3⟩ .pending) := by simp [firstPolls]
  rw [same, pollKernelTasks, if_neg (by simp [isHeld, free])]
  rw [runReadyTasks_self_waking (k := k0.acquire executorGuard) n queued found ready]
  rfl

/-! ### Spawns during a poll -/

theorem moments_spawn {cx : TaskWaker} {script rest : PollScript} {top : UInt64} {kc : Kernel}
    (locked : k.isHeld .kernelExecutor) (mem : (.spawn top rest, kc) ∈ moments cx script k) :
    poll cx script k = .error .spins := by
  induction script generalizing k with
  | ready | pending => cases List.mem_singleton.mp mem
  | wake id rest ih =>
    rcases List.mem_cons.mp mem with now | later
    · cases now
    · exact ih (k := k.wakeTask id) locked later
  | receive t next ih =>
    rcases List.mem_cons.mp mem with now | later
    · cases now
    · have held := (isHeld_congr (ipcReceivePoll_held (k := k) t cx) .kernelExecutor).trans locked
      exact ih _ held later
  | spawn top rest ih =>
    rw [poll, spawnStatic_locked locked]
    rfl

theorem taskMoments_spawn {id : TaskId} {script rest : PollScript} {top : UInt64} {kc : Kernel}
    (locked : k.isHeld .kernelExecutor) (mem : (.spawn top rest, kc) ∈ taskMoments id script k) :
    runTask id script k = .error .spins := by
  unfold taskMoments at mem
  split at mem
  · cases mem
  next t found =>
    split at mem
    · cases mem
    next ready =>
      let named := { k with currentTaskId := id.val }
      have spins : poll (named.cachedWaker id).1 script
          ((named.cachedWaker id).2.observe (.polled id)) = .error .spins :=
        moments_spawn (k := (named.cachedWaker id).2.observe (.polled id)) locked mem
      unfold runTask
      rw [found]
      dsimp only
      rw [if_neg ready, spins]
      rfl

theorem runMoments_spawn {rest : PollScript} {top : UInt64} {kc : Kernel}
    (locked : k.isHeld .kernelExecutor) (mem : (.spawn top rest, kc) ∈ runMoments scripts k) :
    runReadyTasks scripts k = .error .spins := by
  induction scripts generalizing k with
  | nil =>
    unfold runMoments at mem
    split at mem <;> cases mem
  | cons script others ih =>
    unfold runMoments at mem
    split at mem
    · cases mem
    next id q popped =>
      let left := { k with executor.taskQueue := q }
      unfold runReadyTasks
      rw [popped]
      dsimp only
      rcases List.mem_append.mp mem with now | later
      · rw [taskMoments_spawn (k := left) locked now]
        rfl
      · cases once : runTask id script left with
        | error reason =>
          rw [once] at later
          cases later
        | ok mid =>
          rw [once] at later
          have kept := (fixed_keeps.runTask (k := left) rfl locked once).2
          exact ih ((isHeld_congr kept .kernelExecutor).trans locked) later

theorem pollMoments_spawn {rest : PollScript} {top : UInt64} {kc : Kernel}
    (mem : (.spawn top rest, kc) ∈ k.pollMoments scripts) :
    k.pollKernelTasks scripts = .error .spins := by
  unfold pollMoments at mem
  split at mem
  · cases mem
  next free =>
    unfold pollKernelTasks
    rw [if_neg free, runMoments_spawn (isHeld_acquire executorGuard) mem]
    rfl

/-- `spawn_static` is called at the moment for a task with the kernel stack `top`, with room for the
task in the queue. -/
def SpawnsAt (top : UInt64) (m : Moment) : Prop :=
  (∃ rest, m.1 = .spawn top rest) ∧ m.2.executor.taskQueue.items.length < 100

/-- Every call of `spawn_static` in the polls returns, and the new task is polled by this call of
`run_ready_tasks` or by the next one. -/
def SpawnsServed (k : Kernel) (scripts : List PollScript) : Prop :=
  ∀ m ∈ k.pollMoments scripts, ∀ top, SpawnsAt top m →
    (∃ after, m.2.spawnStatic top = .ok after) ∧
    ∃ k1, k.pollKernelTasks scripts = .ok k1 ∧ ∀ next k2, k1.pollKernelTasks next = .ok k2 →
      .polled ⟨m.2.nextId⟩ ∈ k2.history.drop k.history.length

/-- A future that calls `spawn_static` in a poll of `poll_kernel_tasks` waits for the executor's
lock for ever, and with it the handler.  So the calls are served exactly when there are none. -/
theorem spawns_spin (k : Kernel) (scripts : List PollScript) :
    (∀ m ∈ k.pollMoments scripts, ∀ top rest, m.1 = .spawn top rest →
      m.2.spawnStatic top = .error .spins ∧ k.pollKernelTasks scripts = .error .spins) ∧
    (k.SpawnsServed scripts ↔ ∀ m ∈ k.pollMoments scripts, ∀ top, ¬ SpawnsAt top m) := by
  have spins : ∀ m ∈ k.pollMoments scripts, ∀ top rest, m.1 = .spawn top rest →
      m.2.spawnStatic top = .error .spins ∧ k.pollKernelTasks scripts = .error .spins := by
    rintro ⟨script, kc⟩ mem top rest rfl
    exact ⟨spawnStatic_locked (pollMoments_locked _ mem), pollMoments_spawn mem⟩
  refine ⟨spins, fun served m mem top spawn => ?_, fun silent m mem top spawn => ?_⟩
  · obtain ⟨rest, call⟩ := spawn.1
    obtain ⟨⟨after, spawned⟩, -⟩ := served m mem top spawn
    rw [(spins m mem top rest call).1] at spawned
    cases spawned
  · exact absurd spawn (silent m mem top)

/-- The monitor task spawns a task when it is polled at the first timer tick. -/
theorem spawn_unserved : ∃ k0, heapBoot = .ok k0 ∧
    ¬ k0.SpawnsServed [.spawn 0x444444458000 .pending] ∧
    k0.step (.timer [.spawn 0x444444458000 .pending] 0x444444447f58) = .error .spins := by
  have evaluated : ∃ k0 kc, heapBoot = .ok k0 ∧
      k0.pollMoments [.spawn 0x444444458000 .pending] = [(.spawn 0x444444458000 .pending, kc)] ∧
      kc.executor.taskQueue.items = [] ∧ kc.spawnStatic 0x444444458000 = .error .spins ∧
      k0.step (.timer [.spawn 0x444444458000 .pending] 0x444444447f58) = .error .spins :=
    ⟨_, _, rfl, rfl, rfl, rfl, rfl⟩
  obtain ⟨k0, kc, boot, moment, empty, spins, tick⟩ := evaluated
  refine ⟨k0, boot, fun served => ?_, tick⟩
  have room : SpawnsAt 0x444444458000 (.spawn 0x444444458000 .pending, kc) :=
    ⟨⟨_, rfl⟩, by simp [empty]⟩
  obtain ⟨⟨after, spawned⟩, -⟩ := served _ (moment ▸ List.mem_singleton_self _) _ room
  rw [spins] at spawned
  cases spawned

end Kernel

end Microkernel
