import Microkernel.Lib.Promise
import Microkernel.Proof.Handover

/-! A task whose future has returned `Poll::Ready` is gone for good: `TaskId::new` gives its
identifier to no other task, so that the tables never hold it again. -/

namespace Microkernel

open Lib

namespace Kernel

variable {k k' k0 : Kernel} {id : TaskId} {t : TaskRef} {o : Observation}
  {scripts : List PollScript}

/-- `TaskId::new` has returned the identifier. -/
def Issued (k : Kernel) (id : TaskId) : Prop :=
  ∃ n : Nat, n < k.nextRef ∧ id = ⟨UInt64.ofNat (n + 1)⟩

/-- Identifiers are issued in order.  One whose task has finished is in no table, and was not polled
after that. -/
structure Retires (k : Kernel) : Prop where
  next : k.nextId = UInt64.ofNat (k.nextRef + 1)
  ids : ∀ t, t < k.nextRef → (k.task t).id = ⟨UInt64.ofNat (t + 1)⟩
  issued : ∀ id, k.executor.tasks id ≠ none → k.Issued id
  gone : ∀ id, .finished id ∈ k.history →
    k.executor.tasks id = none ∧ k.taskRegistry id = none ∧ k.Issued id
  once : ∀ past id later, k.history = past ++ .polled id :: later → .finished id ∉ past

/-- An identifier that was issued is not the next one. -/
theorem Issued.ne_next (issued : k.Issued id) (few : k.nextRef + 1 < 2 ^ 64) :
    id ≠ ⟨UInt64.ofNat (k.nextRef + 1)⟩ := by
  obtain ⟨n, bound, rfl⟩ := issued
  intro same
  have values := congrArg (fun id => id.val.toNat) same
  have small : (n + 1) % 2 ^ 64 = n + 1 := Nat.mod_eq_of_lt ((Nat.succ_lt_succ bound).trans few)
  rw [UInt64.toNat_ofNat', UInt64.toNat_ofNat', small, Nat.mod_eq_of_lt few] at values
  exact Nat.ne_of_lt bound (Nat.succ.inj values)

namespace Retires

/-! ### Single effects -/

theorem congr (retires : k.Retires) (tasks : k'.executor.tasks = k.executor.tasks)
    (registry : k'.taskRegistry = k.taskRegistry) (nextRef : k'.nextRef = k.nextRef)
    (nextId : k'.nextId = k.nextId) (history : k'.history = k.history)
    (ids : ∀ t, (k'.task t).id = (k.task t).id) : k'.Retires where
  next := by rw [nextId, nextRef, retires.next]
  ids t created := by
    rw [nextRef] at created
    rw [ids, retires.ids t created]
  issued id live := by
    rw [tasks] at live
    rw [Issued, nextRef]
    exact retires.issued id live
  gone id finished := by
    rw [history] at finished
    rw [tasks, registry, Issued, nextRef]
    exact retires.gone id finished
  once past id later split := by
    rw [history] at split
    exact retires.once past id later split

theorem modifyTask (retires : k.Retires) (t : TaskRef) {f : Task → Task}
    (id : ∀ task : Task, (f task).id = task.id) : (k.modifyTask t f).Retires :=
  retires.congr rfl rfl rfl rfl rfl fun u => modifyTask_keeps Task.id (id _) u

/-- An observation that is no `Poll::Ready` and no poll of a finished task. -/
theorem observe (retires : k.Retires) (unfinished : ∀ id, o ≠ .finished id)
    (polled : ∀ id, o = .polled id → .finished id ∉ k.history) : (k.observe o).Retires where
  next := retires.next
  ids := retires.ids
  issued := retires.issued
  gone id finished := by
    rcases List.mem_append.mp finished with before | last
    · exact retires.gone id before
    · exact absurd (List.mem_singleton.mp last).symm (unfinished id)
  once past id later split := by
    rcases Promise.snoc_split split with ⟨-, rfl, same⟩ | ⟨before, -, earlier⟩
    · exact polled id same.symm
    · exact retires.once past id before earlier

/-- An observation that is neither a `Poll::Ready` nor a poll. -/
theorem plain (retires : k.Retires) (unfinished : ∀ id, o ≠ .finished id)
    (unpolled : ∀ id, o ≠ .polled id) : (k.observe o).Retires :=
  retires.observe unfinished fun id same => absurd same (unpolled id)

theorem wake (retires : k.Retires) (id : TaskId) : (k.wakeTask id).Retires := by
  let queue := k.executor.taskQueue
  have queued : Retires { k with executor.taskQueue := (queue.push id).getD queue } :=
    retires.congr rfl rfl rfl rfl rfl fun _ => rfl
  exact queued.plain (fun _ => by simp) fun _ => by simp

theorem receive (retires : k.Retires) (t : TaskRef) (cx : TaskWaker) :
    (k.ipcReceivePoll t cx).2.Retires := by
  cases waiting : (k.task t).mailbox with
  | none =>
    rw [ipcReceivePoll_none waiting]
    have awaiting : (k.awaitMail t cx).Retires := retires.modifyTask t fun _ => rfl
    exact awaiting
  | some msg =>
    rw [ipcReceivePoll_some waiting]
    have taken : (k.takeMail t).Retires := retires.modifyTask t fun _ => rfl
    exact taken.plain (fun _ => by simp) fun _ => by simp

theorem deliver (retires : k.Retires) (t : TaskRef) (msg : Message) :
    (k.deliver t msg).Retires := by
  have put : (k.putMailbox t msg).Retires := retires.modifyTask t fun _ => rfl
  have awakened : ((k.putMailbox t msg).awaken t).Retires := by
    unfold awaken
    split
    · have readied : ((k.putMailbox t msg).setState t .ready).Retires :=
        put.modifyTask t fun _ => rfl
      split
      next waker _ =>
        refine wake ?_ waker.taskId
        exact readied.modifyTask t fun _ => rfl
      next => exact readied
    · exact put
  exact awakened.plain (fun _ => by simp) fun _ => by simp

theorem inScripts : ScriptKeeps Retires where
  wake id retires := retires.wake id
  receive t cx retires := retires.receive t cx

/-- A task that finishes leaves the tables under an identifier that was issued. -/
theorem finish (retires : k.Retires) (issued : k.Issued id) : (k.finishTask id).Retires where
  next := retires.next
  ids := retires.ids
  issued other live := by
    change Function.update k.executor.tasks id none other ≠ none at live
    by_cases here : other = id
    · rw [here, Function.update_self] at live
      exact absurd rfl live
    · rw [Function.update_of_ne here] at live
      exact retires.issued other live
  gone other finished := by
    change Function.update k.executor.tasks id none other = none ∧
      Function.update k.taskRegistry id none other = none ∧ k.Issued other
    by_cases here : other = id
    · rw [here, Function.update_self, Function.update_self]
      exact ⟨rfl, rfl, issued⟩
    · rw [Function.update_of_ne here, Function.update_of_ne here]
      rcases List.mem_append.mp finished with before | last
      · exact retires.gone other before
      · cases List.mem_singleton.mp last
        exact absurd rfl here
  once past other later split := by
    rcases Promise.snoc_split split with ⟨-, rfl, same⟩ | ⟨before, -, earlier⟩
    · cases same
    · exact retires.once past other before earlier

/-- A new task is in the tables under an identifier that no finished task had. -/
theorem spawn {top : UInt64} (retires : k.Retires) (few : k.nextRef + 1 < 2 ^ 64)
    (run : k.spawnStatic top = .ok k') : k'.Retires := by
  obtain ⟨-, q, -, rfl⟩ := spawnStatic_cases run
  have later : ∀ id, k.Issued id → (k.spawned top q).Issued id := fun id ⟨n, bound, same⟩ =>
    ⟨n, Nat.lt_succ_of_lt bound, same⟩
  constructor
  · show k.nextId + 1 = UInt64.ofNat (k.nextRef + 1 + 1)
    rw [retires.next, UInt64.ofNat_add (k.nextRef + 1)]
    rfl
  · intro t created
    change ((k.newTask top).2.task t).id = _
    by_cases new : t = k.nextRef
    · rw [new, newTask_id, retires.next]
    · have old : t < k.nextRef := Nat.lt_of_le_of_ne (Nat.le_of_lt_succ created) new
      rw [newTask_task top old, retires.ids t old]
  · intro id live
    change Function.update k.executor.tasks ⟨k.nextId⟩ (some k.nextRef) id ≠ none at live
    by_cases new : id = ⟨k.nextId⟩
    · rw [new, retires.next]
      exact ⟨k.nextRef, Nat.lt_succ_self _, rfl⟩
    · rw [Function.update_of_ne new] at live
      exact later id (retires.issued id live)
  · intro id finished
    obtain ⟨tasks, registry, issued⟩ := retires.gone id finished
    have old : id ≠ ⟨k.nextId⟩ := by
      rw [retires.next]
      exact issued.ne_next few
    change Function.update k.executor.tasks ⟨k.nextId⟩ (some k.nextRef) id = none ∧
      Function.update k.taskRegistry ⟨k.nextId⟩ (some k.nextRef) id = none ∧ _
    rw [Function.update_of_ne old, Function.update_of_ne old]
    exact ⟨tasks, registry, later id issued⟩
  · exact retires.once

/-! ### Polls -/

theorem runTask {script : PollScript} (retires : k.Retires) (locked : k.isHeld .kernelExecutor)
    (run : Kernel.runTask id script k = .ok k') : k'.Retires := by
  unfold Kernel.runTask at run
  split at run
  · cases run
    exact retires.plain (fun _ => by simp) fun _ => by simp
  next t found =>
    have live : k.executor.tasks id ≠ none := by
      rw [found]
      exact Option.some_ne_none t
    split at run
    · cases run
      exact retires.plain (fun _ => by simp) fun _ => by simp
    · obtain ⟨⟨done, after⟩, polled, finished⟩ := bind_ok run
      let cached := ({ k with currentTaskId := id.val }.cachedWaker id).2
      have quiet : cached.Retires := retires.congr rfl rfl rfl rfl rfl fun _ => rfl
      have start : (cached.observe (.polled id)).Retires :=
        quiet.observe (fun _ => by simp) fun other same => by
          cases same
          exact fun ended => live (retires.gone id ended).1
      have kept : after.Retires := (inScripts.poll start locked polled).1
      cases done <;> cases finished
      · exact kept
      · have fixed : after.fixed = k.fixed := by
          have keeps := (fixed_keeps (k := k)).toScriptKeeps
          exact (keeps.poll (k := cached.observe (.polled id)) rfl locked polled).1
        refine kept.finish ?_
        rw [Issued, show after.nextRef = k.nextRef from congrArg Fixed.nextRef fixed]
        exact retires.issued id live

theorem runReadyTasks (retires : k.Retires) (locked : k.isHeld .kernelExecutor)
    (run : Kernel.runReadyTasks scripts k = .ok k') : k'.Retires := by
  have drained : ({ k with currentTaskId := 0 }.observe .drained).Retires :=
    plain (k := { k with currentTaskId := 0 }) (retires.congr rfl rfl rfl rfl rfl fun _ => rfl)
      (fun _ => by simp) fun _ => by simp
  induction scripts generalizing k with
  | nil =>
    unfold Kernel.runReadyTasks at run
    split at run
    · cases run
      exact drained
    next => cases run
  | cons script rest ih =>
    unfold Kernel.runReadyTasks at run
    split at run
    · cases run
      exact drained
    next id q popped =>
      obtain ⟨mid, once, more⟩ := bind_ok run
      let left := { k with executor.taskQueue := q }
      have taken : left.Retires := retires.congr rfl rfl rfl rfl rfl fun _ => rfl
      have kept : mid.Retires := taken.runTask locked once
      have held : mid.held = k.held := (fixed_keeps.runTask (k := left) rfl locked once).2
      have locked' : mid.isHeld .kernelExecutor := by
        rw [isHeld_congr held]
        exact locked
      refine ih kept locked' more ?_
      exact plain (k := { mid with currentTaskId := 0 })
        (kept.congr rfl rfl rfl rfl rfl fun _ => rfl) (fun _ => by simp) fun _ => by simp

theorem polls (retires : k.Retires) (run : k.pollKernelTasks scripts = .ok k') : k'.Retires := by
  rcases pollKernelTasks_cases run with ⟨-, rfl⟩ | ⟨-, after, ran, rfl⟩
  · exact retires
  · have start : (k.acquire executorGuard).Retires := retires.congr rfl rfl rfl rfl rfl fun _ => rfl
    exact (start.runReadyTasks (isHeld_acquire executorGuard) ran).congr rfl rfl rfl rfl rfl
      fun _ => rfl

end Retires

/-! ### Whole runs -/

/-- The identifiers that `TaskId::new` has returned are distinct while there are few. -/
theorem retires_keeps : StepKeeps (fun _ _ => True) fun k => k.nextRef < 2 ^ 64 → k.Retires where
  executor :=
    { wake := fun id retires few => (retires few).wake id
      receive := fun {k} t cx retires few => by
        have same : (k.ipcReceivePoll t cx).2.nextRef = k.nextRef :=
          congrArg Fixed.nextRef (fixed_ipcReceivePoll t cx)
        rw [same] at few
        exact (retires few).receive t cx
      polls := fun {k k' scripts} retires run few => by
        have same : k'.nextRef = k.nextRef := congrArg Fixed.nextRef (fixed_pollKernelTasks run)
        exact (retires (same ▸ few)).polls run }
  tick retires few := (retires few).congr rfl rfl rfl rfl rfl fun _ => rfl
  move _ _ retires few :=
    (retires few).congr rfl rfl rfl rfl rfl fun _ => movedTo_keeps Task.id fun _ => rfl
  kill _ retires few := (retires few).modifyTask _ fun _ => rfl
  post {k label data} _ retires := by
    unfold postInitMailbox
    split
    · exact retires
    · intro few
      have posted : Retires { k with initMailbox := some (deviceMessage label data) } :=
        (retires few).congr rfl rfl rfl rfl rfl fun _ => rfl
      exact posted.plain (fun _ => by simp) fun _ => by simp
  call {k id arg1 arg2 rsp o} _ _ call retires := by
    cases call with
    | idle | sendFault => exact retires
    | print | regService | recvFault =>
      exact fun few => (retires few).congr rfl rfl rfl rfl rfl fun _ => rfl
    | setPriority | exit => exact fun few => (retires few).modifyTask _ fun _ => rfl
    | @recv msg =>
      intro few
      have taken : Retires { k with initMailbox := none, mem := k.mem.storeAll arg1 msg.words } :=
        (retires few).congr rfl rfl rfl rfl rfl fun _ => rfl
      exact taken.plain (fun _ => by simp) fun _ => by simp
    | @send t =>
      have same : (k.deliver t (k.messageAt arg2)).nextRef = k.nextRef :=
        congrArg Fixed.nextRef (fixed_deliver t _)
      exact fun few => (retires (same ▸ few)).deliver t _
  user _ retires few := (retires few).congr rfl rfl rfl rfl rfl fun _ => rfl
  spawn _ retires run few := by
    obtain ⟨-, q, -, same⟩ := spawnStatic_cases run
    rw [same] at few
    exact (retires ((Nat.lt_succ_self _).trans few)).spawn few run

variable {images : List Image} {top : UInt64} {mem : Memory} {pages : UInt64 → Option PageFlags}
  {es : List Event}

theorem kernelMain_retires (boot : kernelMain images top mem pages = .ok k0)
    (few : k0.nextRef < 2 ^ 64) : k0.Retires := by
  have created := createProcesses_created images mem pages
  obtain ⟨k1, spawned, rest⟩ := bind_ok boot
  obtain ⟨first, -, done⟩ := bind_ok rest
  cases done
  have before : ((initial mem pages).createProcesses images).Retires := by
    refine ⟨?_, fun t below => ?_, fun id live => ?_, fun id finished => ?_,
      fun past id later split => ?_⟩
    · rw [created.nextId, created.nextRef]
    · rw [created.nextRef] at below
      rw [created.process t _ (List.getElem?_eq_getElem below)]
      rfl
    · rw [created.executor] at live
      exact absurd rfl live
    · rw [created.silent] at finished
      cases finished
    · rw [created.silent] at split
      simp at split
  obtain ⟨-, q, -, same⟩ := spawnStatic_cases spawned
  change k1.nextRef < 2 ^ 64 at few
  rw [same] at few
  exact (before.spawn few spawned).congr rfl rfl rfl rfl rfl fun _ => rfl

/-- The identifiers that `TaskId::new` has returned are distinct. -/
theorem Retires.distinct (retires : k.Retires) (few : k.nextRef < 2 ^ 64) {t u : TaskRef}
    (created : t < k.nextRef) (created' : u < k.nextRef) (same : (k.task t).id = (k.task u).id) :
    t = u := by
  rw [retires.ids t created, retires.ids u created'] at same
  have values := congrArg (fun id => id.val.toNat) same
  have small : ∀ {n : Nat}, n < k.nextRef → (n + 1) % 2 ^ 64 = n + 1 := fun below =>
    Nat.mod_eq_of_lt (Nat.lt_of_le_of_lt below few)
  rw [UInt64.toNat_ofNat', UInt64.toNat_ofNat', small created, small created'] at values
  exact Nat.succ.inj values

/-- In every run from boot in which fewer than 2^64 tasks are created, `TaskId::new` returns no
identifier twice; one whose task has finished is not polled again, the executor holds no task under
it, and `SYS_SEND` to it is refused and changes nothing. -/
theorem finished_gone (boot : kernelMain images top mem pages = .ok k0) (run : Run Step k0 es k)
    (few : k.nextRef < 2 ^ 64) :
    (∀ t u, t < k.nextRef → u < k.nextRef → (k.task t).id = (k.task u).id → t = u) ∧
      (∀ past id later, k.history = past ++ .polled id :: later → .finished id ∉ past) ∧
      ∀ id, .finished id ∈ k.history → k.executor.tasks id = none ∧
        ∀ ptr value k', (handleSyscall 10 id.val ptr).run k = .done value k' →
          value ≠ 0 ∧ k' = k := by
  have sound0 := (kernelMain_rested boot).sound
  have guarded : Run (Guarded (fun _ _ => True) Step) k0 es k :=
    run.mono fun _ _ _ step => ⟨trivial, step⟩
  have retires := retires_keeps.run sound0 (kernelMain_retires boot) guarded few
  refine ⟨fun t u => retires.distinct few, retires.once, fun id finished => ?_⟩
  obtain ⟨tasks, registry, -⟩ := retires.gone id finished
  refine ⟨tasks, fun ptr value k' call => ?_⟩
  rw [show handleSyscall 10 id.val ptr = sysSend id.val ptr from rfl,
    sysSend_eq (sound0.run run).quiet] at call
  split at call
  · cases call
    exact ⟨by decide, rfl⟩
  · split at call
    · rw [registry] at call
      cases call
      exact ⟨by decide, rfl⟩
    · cases call

/-- The monitor task finishes when the first timer interrupt polls it.  It is woken after that, and
nothing polls it. -/
theorem finished_gone_monitor : ∃ k0 k, heapBoot = .ok k0 ∧
    Run Step k0 [.timer [.ready] 0x444444447f00, .wake ⟨3⟩, .pollTasks [.pending]] k ∧
    k.executor.tasks ⟨3⟩ = none ∧
    ∀ ptr value k', (handleSyscall 10 3 ptr).run k = .done value k' → value ≠ 0 ∧ k' = k := by
  have evaluated : ∃ k0 k1 k2 k, heapBoot = .ok k0 ∧
      k0.Step (.timer [.ready] 0x444444447f00) k1 ∧ k1.Step (.wake ⟨3⟩) k2 ∧
      k2.Step (.pollTasks [.pending]) k ∧ k.nextRef = 3 ∧ .finished ⟨3⟩ ∈ k.history :=
    ⟨_, _, _, _, rfl, ⟨_, rfl⟩, ⟨_, rfl⟩, ⟨_, rfl⟩, rfl, by decide⟩
  obtain ⟨k0, k1, k2, k, boot, timer, wakes, polls, refs, finished⟩ := evaluated
  have run := ((Run.single timer).snoc wakes).snoc polls
  have few : k.nextRef < 2 ^ 64 := by
    rw [refs]
    decide
  obtain ⟨tasks, refused⟩ := (finished_gone boot run few).2.2 ⟨3⟩ finished
  exact ⟨k0, k, boot, run, tasks, refused⟩

end Kernel

end Microkernel
