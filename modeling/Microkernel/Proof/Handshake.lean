import Mathlib.Data.Finset.Dedup
import Microkernel.Proof.Handover

/-! How `SYS_SEND`, `IpcReceiveFuture` and the executor work together while every task waits only
for its own messages: a live task waits with its waker stored, or it is in the queue. -/

namespace Microkernel

open Lib

/-- The future suspends only by awaiting `IpcReceiveFuture` on task `t`. -/
def PollScript.AwaitsOwn (t : TaskRef) : PollScript → Prop
  | .ready => True
  | .receive u next => u = t ∧ next none = .pending ∧ ∀ msg, (next (some msg)).AwaitsOwn t
  | .pending | .wake _ _ | .spawn _ _ => False

namespace Kernel

variable {k k' : Kernel} {taken : Option TaskId} {id : TaskId} {t : TaskRef}
  {scripts : List PollScript}

/-- Each task that `run_ready_tasks` polls awaits its own messages only. -/
def AwaitOwn : List PollScript → Kernel → Prop
  | [], _ => True
  | script :: rest, k => ∀ id q, k.executor.taskQueue.pop = some (id, q) →
      (∀ t, k.executor.tasks id = some t → script.AwaitsOwn t) ∧
        ∀ k', runTask id script { k with executor.taskQueue := q } = .ok k' → AwaitOwn rest k'

def LiveAtMost (n : Nat) (k : Kernel) : Prop :=
  ∃ ids : Finset TaskId, ids.card ≤ n ∧ ∀ id, (k.executor.tasks id).isSome → id ∈ ids

/-- The task waits for a message: it is `Blocked`, and its waker is stored and has not run. -/
structure Waits (k : Kernel) (id : TaskId) (t : TaskRef) : Prop where
  blocked : (k.task t).state = .blocked
  empty : (k.task t).mailbox = none
  waker : (k.task t).waker = some ⟨id⟩
  absent : id ∉ k.executor.taskQueue.items

/-- The task can run, and no waker of it is stored. -/
structure Runs (k : Kernel) (t : TaskRef) : Prop where
  ready : (k.task t).state = .ready
  waker : (k.task t).waker = none

/-- The task waits, or it can run and its identifier is in the queue. -/
def Settled (k : Kernel) (id : TaskId) (t : TaskRef) : Prop :=
  k.Waits id t ∨ k.Runs t ∧ id ∈ k.executor.taskQueue.items

/-- Every live task waits, or it can run and is in the queue.  While `run_ready_tasks` handles an
identifier `taken` from the queue, its task can run and is not in the queue. -/
structure Handshake (taken : Option TaskId) (k : Kernel) : Prop where
  registry : k.taskRegistry = k.executor.tasks
  owned : ∀ id t, k.executor.tasks id = some t →
    (k.task t).id = id ∧ t < k.nextRef ∧ t ∉ k.taskList
  wakers : ∀ id w, k.executor.wakerCache id = some w → w = ⟨id⟩
  live : ∀ id ∈ k.executor.taskQueue.items, (k.executor.tasks id).isSome
  nodup : k.executor.taskQueue.items.Nodup
  others : ∀ id t, k.executor.tasks id = some t → taken ≠ some id → k.Settled id t
  own : ∀ id, taken = some id → id ∉ k.executor.taskQueue.items ∧
    ∃ t, k.executor.tasks id = some t ∧ k.Runs t
  few : k.LiveAtMost 100
  accepted : ∀ id queue, .woken id queue ∈ k.history → queue.length < 100

theorem Runs.congr (runs : k.Runs t) (kept : k'.task t = k.task t) : k'.Runs t :=
  ⟨by rw [kept, runs.ready], by rw [kept, runs.waker]⟩

theorem Settled.congr (settled : k.Settled id t) (kept : k'.task t = k.task t)
    (queue : id ∈ k'.executor.taskQueue.items ↔ id ∈ k.executor.taskQueue.items) :
    k'.Settled id t := by
  rcases settled with waits | ⟨runs, queued⟩
  · refine .inl ⟨?_, ?_, ?_, fun queued => waits.absent (queue.mp queued)⟩
    · rw [kept, waits.blocked]
    · rw [kept, waits.empty]
    · rw [kept, waits.waker]
  · exact .inr ⟨runs.congr kept, queue.mpr queued⟩

/-- Two live tasks are different objects. -/
theorem Handshake.apart (hand : k.Handshake taken) {other : TaskId} {u : TaskRef}
    (here : k.executor.tasks id = some t) (there : k.executor.tasks other = some u)
    (ne : other ≠ id) : u ≠ t := by
  rintro rfl
  exact ne ((hand.owned other u there).1.symm.trans (hand.owned id u here).1)

/-- The queue has room for the identifier of a live task that it does not hold. -/
theorem Handshake.room (hand : k.Handshake taken) (here : k.executor.tasks id = some t)
    (absent : id ∉ k.executor.taskQueue.items) : k.executor.taskQueue.items.length < 100 := by
  obtain ⟨ids, few, all⟩ := hand.few
  have nodup : (id :: k.executor.taskQueue.items).Nodup := List.nodup_cons.mpr ⟨absent, hand.nodup⟩
  have sub : (id :: k.executor.taskQueue.items).toFinset ⊆ ids := by
    intro other listed
    rcases List.mem_cons.mp (List.mem_toFinset.mp listed) with rfl | queued
    · exact all other (by rw [here]; rfl)
    · exact all other (hand.live other queued)
  have bound := Finset.card_le_card sub
  rw [List.toFinset_card_of_nodup nodup, List.length_cons] at bound
  omega

/-- A change to one live task, which then waits or is in the queue, where the queue differs only in
its identifier. -/
theorem Handshake.settle (hand : k.Handshake taken) (here : k.executor.tasks id = some t)
    (free : ∀ other, taken = some other → other = id)
    (tasks : k'.executor.tasks = k.executor.tasks) (registry : k'.taskRegistry = k.taskRegistry)
    (cache : k'.executor.wakerCache = k.executor.wakerCache) (refs : k'.nextRef = k.nextRef)
    (taskList : k'.taskList = k.taskList) (ids : ∀ u, (k'.task u).id = (k.task u).id)
    (same : ∀ u, u ≠ t → k'.task u = k.task u)
    (queue : ∀ other, other ≠ id →
      (other ∈ k'.executor.taskQueue.items ↔ other ∈ k.executor.taskQueue.items))
    (nodup : k'.executor.taskQueue.items.Nodup)
    (settled : k'.Settled id t)
    (accepted : ∀ id queue, .woken id queue ∈ k'.history → queue.length < 100) :
    k'.Handshake none where
  registry := by rw [registry, tasks, hand.registry]
  owned other u found := by
    rw [tasks] at found
    rw [ids u, refs, taskList]
    exact hand.owned other u found
  wakers := by
    rw [cache]
    exact hand.wakers
  live other queued := by
    rw [tasks]
    by_cases this : other = id
    · rw [this, here]
      rfl
    · exact hand.live other ((queue other this).mp queued)
  nodup := nodup
  others other u found _ := by
    rw [tasks] at found
    by_cases this : other = id
    · subst this
      rw [here] at found
      cases found
      exact settled
    · have untaken : taken ≠ some other := fun absurd => this (free other absurd)
      exact (hand.others other u found untaken).congr (same u (hand.apart here found this))
        (queue other this)
  own other absurd := by cases absurd
  few := by
    obtain ⟨ids, few, all⟩ := hand.few
    exact ⟨ids, few, fun id => by rw [tasks]; exact all id⟩
  accepted := accepted

/-- What leaves the executor, the registry and the live tasks alone. -/
theorem Handshake.congr (hand : k.Handshake taken) (executor : k'.executor = k.executor)
    (registry : k'.taskRegistry = k.taskRegistry) (refs : k'.nextRef = k.nextRef)
    (taskList : k'.taskList = k.taskList)
    (history : ∀ id queue, .woken id queue ∈ k'.history → .woken id queue ∈ k.history)
    (task : ∀ t, t ∉ k.taskList → k'.task t = k.task t) : k'.Handshake taken where
  registry := by rw [registry, executor, hand.registry]
  owned id t found := by
    rw [executor] at found
    have owned := hand.owned id t found
    rw [task t owned.2.2, refs, taskList]
    exact owned
  wakers := by
    rw [executor]
    exact hand.wakers
  live := by
    rw [executor]
    exact hand.live
  nodup := by
    rw [executor]
    exact hand.nodup
  others id t found untaken := by
    rw [executor] at found
    exact (hand.others id t found untaken).congr (task t (hand.owned id t found).2.2)
      (by rw [executor])
  own id this := by
    obtain ⟨absent, t, found, runs⟩ := hand.own id this
    rw [executor]
    exact ⟨absent, t, found, runs.congr (task t (hand.owned id t found).2.2)⟩
  few := by
    obtain ⟨ids, few, all⟩ := hand.few
    exact ⟨ids, few, fun id => by rw [executor]; exact all id⟩
  accepted id queue woken := hand.accepted id queue (history id queue woken)

/-- An observation that is not that of a wake. -/
theorem Handshake.observe (hand : k.Handshake taken) {o : Observation}
    (other : ∀ id queue, o ≠ .woken id queue) : (k.observe o).Handshake taken := by
  refine hand.congr rfl rfl rfl rfl (fun id queue woken => ?_) fun _ _ => rfl
  rcases List.mem_append.mp woken with before | last
  · exact before
  · exact absurd (List.mem_singleton.mp last).symm (other id queue)

/-! ### Polls -/

/-- A task that is polled receives a message that waits for it, and can still run. -/
theorem Handshake.takeMail (hand : k.Handshake (some id)) (here : k.executor.tasks id = some t) :
    (k.takeMail t).Handshake (some id) where
  registry := hand.registry
  owned other u found := by
    rw [show ((k.takeMail t).task u).id = (k.task u).id from modifyTask_keeps Task.id rfl u]
    exact hand.owned other u found
  wakers := hand.wakers
  live := hand.live
  nodup := hand.nodup
  others other u found untaken := by
    have this : other ≠ id := fun absurd => untaken (by rw [absurd])
    have kept : (k.takeMail t).task u = k.task u :=
      modifyTask_task_ne k _ (hand.apart here found this)
    exact (hand.others other u found untaken).congr kept Iff.rfl
  own other same := by
    cases same
    obtain ⟨absent, u, found, runs⟩ := hand.own id rfl
    rw [here] at found
    cases found
    refine ⟨absent, t, here, ?_, ?_⟩
    · rw [Kernel.takeMail, modifyTask_task_self]
    · rw [Kernel.takeMail, modifyTask_task_self]
      exact runs.waker
  few := hand.few
  accepted := hand.accepted

/-- A task that is polled and has no message waits. -/
theorem Handshake.awaitMail (hand : k.Handshake (some id)) (here : k.executor.tasks id = some t)
    (empty : (k.task t).mailbox = none) : (k.awaitMail t ⟨id⟩).Handshake none := by
  have waits : (k.awaitMail t ⟨id⟩).Waits id t := by
    refine ⟨?_, ?_, ?_, (hand.own id rfl).1⟩
    · rw [Kernel.awaitMail, modifyTask_task_self]
    · rw [Kernel.awaitMail, modifyTask_task_self]
      exact empty
    · rw [Kernel.awaitMail, modifyTask_task_self]
  refine hand.settle here (fun _ same => (Option.some.inj same).symm) rfl rfl rfl rfl rfl
    (fun u => modifyTask_keeps Task.id rfl u) (fun u ne => modifyTask_task_ne k _ ne)
    (fun _ _ => Iff.rfl) hand.nodup (.inl waits) hand.accepted

/-- A poll of a task that awaits its own messages returns.  Unless the task is then done, it
waits. -/
theorem Handshake.poll {script : PollScript} (hand : k.Handshake (some id))
    (here : k.executor.tasks id = some t) (own : script.AwaitsOwn t) :
    ∃ done k', Kernel.poll ⟨id⟩ script k = .ok (done, k') ∧
      k'.executor = k.executor ∧ k'.held = k.held ∧
      k'.Handshake (if done then some id else none) := by
  induction script generalizing k with
  | ready => exact ⟨true, k, rfl, rfl, rfl, hand⟩
  | pending | wake | spawn => cases own
  | receive u next ih =>
    obtain ⟨rfl, suspends, goes_on⟩ := own
    cases waiting : (k.task u).mailbox with
    | some m =>
      have received : ((k.takeMail u).observe (.yielded u m)).Handshake (some id) :=
        (hand.takeMail here).observe fun _ _ => by simp
      obtain ⟨done, k', ran, executor, held, after⟩ := ih (some m) received here (goes_on m)
      refine ⟨done, k', ?_, executor, held, after⟩
      simp only [Kernel.poll, ipcReceivePoll_some waiting]
      exact ran
    | none =>
      refine ⟨false, k.awaitMail u ⟨id⟩, ?_, rfl, rfl, hand.awaitMail here waiting⟩
      simp only [Kernel.poll, ipcReceivePoll_none waiting, suspends]

/-- A task that is done leaves the executor and the registry. -/
theorem Handshake.finish (hand : k.Handshake (some id)) : (k.finishTask id).Handshake none := by
  have gone : ∀ {other u}, (k.finishTask id).executor.tasks other = some u →
      other ≠ id ∧ k.executor.tasks other = some u := by
    intro other u found
    change Function.update k.executor.tasks id none other = some u at found
    by_cases this : other = id
    · rw [this, Function.update_self] at found
      cases found
    · rw [Function.update_of_ne this] at found
      exact ⟨this, found⟩
  have absent := (hand.own id rfl).1
  refine
    { registry := ?_
      owned := fun other u found => hand.owned other u (gone found).2
      wakers := fun other w cached => ?_
      live := fun other queued => ?_
      nodup := hand.nodup
      others := fun other u found _ => ?_
      own := fun other same => by cases same
      few := ?_
      accepted := (hand.observe (o := .finished id) fun _ _ => by simp).accepted }
  · show Function.update k.taskRegistry id none = Function.update k.executor.tasks id none
    rw [hand.registry]
  · change Function.update k.executor.wakerCache id none other = some w at cached
    by_cases this : other = id
    · rw [this, Function.update_self] at cached
      cases cached
    · rw [Function.update_of_ne this] at cached
      exact hand.wakers other w cached
  · have this : other ≠ id := by
      rintro rfl
      exact absent queued
    show (Function.update k.executor.tasks id none other).isSome
    rw [Function.update_of_ne this]
    exact hand.live other queued
  · obtain ⟨this, found'⟩ := gone found
    have untaken : some id ≠ some other := fun same => this (Option.some.inj same).symm
    exact (hand.others other u found' untaken).congr rfl Iff.rfl
  · obtain ⟨ids, few, all⟩ := hand.few
    refine ⟨ids, few, fun other found => ?_⟩
    obtain ⟨u, found⟩ := Option.isSome_iff_exists.mp found
    exact all other (by rw [(gone found).2]; rfl)

/-- The executor takes an identifier whose task can run. -/
theorem Handshake.pop {q : ArrayQueue TaskId 100} (hand : k.Handshake none)
    (popped : k.executor.taskQueue.pop = some (id, q)) :
    Handshake (some id) { k with executor.taskQueue := q } := by
  have items := ArrayQueue.pop_some.mp popped
  have nodup := hand.nodup
  have live := hand.live
  rw [items] at nodup live
  obtain ⟨absent, nodup⟩ := List.nodup_cons.mp nodup
  refine
    { registry := hand.registry
      owned := hand.owned
      wakers := hand.wakers
      live := fun other queued => live other (List.mem_cons_of_mem _ queued)
      nodup := nodup
      others := fun other u found untaken => ?_
      own := ?_
      few := hand.few
      accepted := hand.accepted }
  · have this : other ≠ id := fun same => untaken (by rw [same])
    refine (hand.others other u found (by simp)).congr rfl ?_
    rw [items, List.mem_cons]
    exact (or_iff_right this).symm
  · rintro _ ⟨⟩
    obtain ⟨t, here⟩ := Option.isSome_iff_exists.mp (live id List.mem_cons_self)
    refine ⟨absent, t, here, ?_⟩
    rcases hand.others id t here (by simp) with waits | ⟨runs, -⟩
    · have missing := waits.absent
      rw [items] at missing
      exact absurd List.mem_cons_self missing
    · exact runs.congr rfl

theorem Handshake.cachedWaker (hand : k.Handshake taken) (id : TaskId) :
    (k.cachedWaker id).1 = ⟨id⟩ ∧ (k.cachedWaker id).2.Handshake taken := by
  have waker : (k.cachedWaker id).1 = ⟨id⟩ := by
    show (k.executor.wakerCache id).getD ⟨id⟩ = ⟨id⟩
    cases cached : k.executor.wakerCache id with
    | none => rfl
    | some w => exact hand.wakers id w cached
  refine ⟨waker, hand.registry, hand.owned, fun other w cached => ?_, hand.live, hand.nodup,
    fun other u found untaken => ?_, fun other same => ?_, hand.few, hand.accepted⟩
  · change Function.update k.executor.wakerCache id (some (k.cachedWaker id).1) other =
      some w at cached
    by_cases this : other = id
    · rw [this, Function.update_self, waker] at cached
      rw [this]
      exact (Option.some.inj cached).symm
    · rw [Function.update_of_ne this] at cached
      exact hand.wakers other w cached
  · exact (hand.others other u found untaken).congr rfl Iff.rfl
  · obtain ⟨absent, u, found, runs⟩ := hand.own other same
    exact ⟨absent, u, found, runs.congr rfl⟩

/-- The loop body of `run_ready_tasks` ends, with the rest of the queue as it was. -/
theorem Handshake.runTask {script : PollScript} (hand : k.Handshake (some id))
    (own : ∀ t, k.executor.tasks id = some t → script.AwaitsOwn t) :
    ∃ k', Kernel.runTask id script k = .ok k' ∧
      k'.executor.taskQueue = k.executor.taskQueue ∧ k'.Handshake none := by
  obtain ⟨-, t, here, runs⟩ := hand.own id rfl
  have current : Handshake (some id) { k with currentTaskId := id.val } :=
    hand.congr rfl rfl rfl rfl (fun _ _ woken => woken) fun _ _ => rfl
  obtain ⟨waker, cached⟩ := current.cachedWaker id
  have polled := cached.observe (o := .polled id) fun _ _ => by simp
  obtain ⟨done, after, ran, executor, -, settled⟩ := polled.poll here (own t here)
  have queue := congrArg Executor.taskQueue executor
  unfold Kernel.runTask
  rw [here]
  simp only
  rw [if_neg (by rw [runs.ready]; simp), waker, ran]
  cases done with
  | false => exact ⟨after, rfl, queue, settled⟩
  | true => exact ⟨after.finishTask id, rfl, queue, settled.finish⟩

theorem Handshake.drained (hand : k.Handshake none) :
    ({ k with currentTaskId := 0 }.observe .drained).Handshake none := by
  have current : Handshake none { k with currentTaskId := 0 } :=
    hand.congr rfl rfl rfl rfl (fun _ _ woken => woken) fun _ _ => rfl
  exact current.observe fun _ _ => by simp

theorem Handshake.runReadyTasks (hand : k.Handshake none) (own : AwaitOwn scripts k)
    (run : Kernel.runReadyTasks scripts k = .ok k') : k'.Handshake none := by
  induction scripts generalizing k with
  | nil =>
    unfold Kernel.runReadyTasks at run
    split at run
    · cases run
      exact hand.drained
    · cases run
  | cons script rest ih =>
    unfold Kernel.runReadyTasks at run
    split at run
    · cases run
      exact hand.drained
    next id q popped =>
      obtain ⟨mid, once, more⟩ := bind_ok run
      obtain ⟨this, others⟩ := own id q popped
      obtain ⟨mid', once', -, settled⟩ := (hand.pop popped).runTask this
      rw [once] at once'
      cases once'
      exact ih settled (others mid once) more

/-- `run_ready_tasks` returns: no task that it polls comes back into the queue. -/
theorem Handshake.returns (hand : k.Handshake none) (own : AwaitOwn scripts k)
    (enough : k.executor.taskQueue.items.length ≤ scripts.length) :
    ∃ k', Kernel.runReadyTasks scripts k = .ok k' := by
  induction scripts generalizing k with
  | nil =>
    have empty := ArrayQueue.pop_none.mpr (List.length_eq_zero_iff.mp (Nat.le_zero.mp enough))
    unfold Kernel.runReadyTasks
    rw [empty]
    exact ⟨_, rfl⟩
  | cons script rest ih =>
    unfold Kernel.runReadyTasks
    split
    · exact ⟨_, rfl⟩
    next id q popped =>
      obtain ⟨this, others⟩ := own id q popped
      obtain ⟨mid, once, queue, settled⟩ := (hand.pop popped).runTask this
      have shorter : mid.executor.taskQueue.items.length ≤ rest.length := by
        have items := congrArg List.length (ArrayQueue.pop_some.mp popped)
        simp only [List.length_cons] at items enough
        have same : mid.executor.taskQueue.items.length = q.items.length := by rw [queue]
        omega
      obtain ⟨k', more⟩ := ih settled (others mid once) shorter
      refine ⟨k', ?_⟩
      show (Kernel.runTask id script { k with executor.taskQueue := q } >>=
        Kernel.runReadyTasks rest) = .ok k'
      rw [once]
      exact more

/-! ### The steps -/

/-- The steps that the handshake is about: spawns while fewer than 100 tasks are live, sends, and
calls of `run_ready_tasks` whose tasks await their own messages. -/
def Handshaking (k : Kernel) : Event → Prop
  | .spawn _ => k.LiveAtMost 99
  | .syscall id _ _ _ => id = 10
  | .pollTasks scripts => AwaitOwn scripts (k.acquire executorGuard)
  | _ => False

theorem Handshake.acquire (hand : k.Handshake taken) (g : Guard) :
    (k.acquire g).Handshake taken :=
  hand.congr rfl rfl rfl rfl (fun _ _ woken => woken) fun _ _ => rfl

theorem Handshake.pollKernelTasks (hand : k.Handshake none) (sound : k.Sound)
    (own : AwaitOwn scripts (k.acquire executorGuard))
    (run : k.pollKernelTasks scripts = .ok k') :
    k'.Handshake none ∧ k'.executor.taskQueue.items = [] := by
  rcases pollKernelTasks_cases run with ⟨locked, -⟩ | ⟨-, after, ran, rfl⟩
  · rw [sound.quiet.free (by decide)] at locked
    cases locked
  · have settled := (hand.acquire executorGuard).runReadyTasks own ran
    obtain ⟨-, -, empty, -⟩ := runReadyTasks_drained ran
    exact ⟨settled.congr rfl rfl rfl rfl (fun _ _ woken => woken) fun _ _ => rfl, empty⟩

theorem Handshake.pollKernelTasks_returns (hand : k.Handshake none) (sound : k.Sound)
    (own : AwaitOwn scripts (k.acquire executorGuard))
    (enough : k.executor.taskQueue.items.length ≤ scripts.length) :
    ∃ k', k.pollKernelTasks scripts = .ok k' := by
  obtain ⟨after, ran⟩ := (hand.acquire executorGuard).returns own enough
  unfold Kernel.pollKernelTasks
  rw [if_neg (by simp [sound.quiet.free]), ran]
  exact ⟨_, rfl⟩

theorem spawned_tasks {top : UInt64} {q : ArrayQueue TaskId 100} :
    (k.spawned top q).executor.tasks =
      Function.update k.executor.tasks ⟨k.nextId⟩ (some k.nextRef) := rfl

theorem spawned_task_self {top : UInt64} {q : ArrayQueue TaskId 100} :
    (k.spawned top q).task k.nextRef =
      { id := ⟨k.nextId⟩, state := .ready, priority := 5, kernelRsp := top,
        kernelStackTop := top, mailbox := none, waker := none } :=
  Function.update_self k.nextRef _ k.task

theorem Handshake.spawn {top : UInt64} (hand : k.Handshake none) (sound : k.Sound)
    (few : k.LiveAtMost 99) (run : k.spawnStatic top = .ok k') : k'.Handshake none := by
  obtain ⟨fresh, q, pushed, rfl⟩ := spawnStatic_cases run
  have items := (ArrayQueue.push_some pushed).2
  have absent : ⟨k.nextId⟩ ∉ k.executor.taskQueue.items := by
    intro queued
    have live := hand.live _ queued
    rw [fresh] at live
    cases live
  have old : ∀ {u}, u < k.nextRef → (k.spawned top q).task u = k.task u := newTask_task top
  have queue : (k.spawned top q).executor.taskQueue.items =
      k.executor.taskQueue.items ++ [⟨k.nextId⟩] := items
  have found : ∀ {id t}, (k.spawned top q).executor.tasks id = some t →
      id = ⟨k.nextId⟩ ∧ t = k.nextRef ∨ id ≠ ⟨k.nextId⟩ ∧ k.executor.tasks id = some t := by
    intro id t here
    rw [spawned_tasks] at here
    by_cases new : id = ⟨k.nextId⟩
    · rw [new, Function.update_self] at here
      exact .inl ⟨new, (Option.some.inj here).symm⟩
    · rw [Function.update_of_ne new] at here
      exact .inr ⟨new, here⟩
  refine
    { registry := ?_
      owned := fun id t here => ?_
      wakers := hand.wakers
      live := fun id queued => ?_
      nodup := ?_
      others := fun id t here _ => ?_
      own := fun id absurd => by cases absurd
      few := ?_
      accepted := hand.accepted }
  · show Function.update k.taskRegistry _ _ = Function.update k.executor.tasks _ _
    rw [hand.registry]
  · rcases found here with ⟨rfl, rfl⟩ | ⟨-, here⟩
    · rw [spawned_task_self]
      exact ⟨rfl, Nat.lt_succ_self _, fun listed => Nat.lt_irrefl _ (sound.processes _ listed)⟩
    · have owned := hand.owned id t here
      rw [old owned.2.1]
      exact ⟨owned.1, Nat.lt_succ_of_lt owned.2.1, owned.2.2⟩
  · rw [spawned_tasks]
    by_cases new : id = ⟨k.nextId⟩
    · rw [new, Function.update_self]
      rfl
    · rw [Function.update_of_ne new]
      rw [queue] at queued
      exact hand.live id ((List.mem_append.mp queued).resolve_right fun last =>
        new (List.mem_singleton.mp last))
  · rw [queue]
    exact List.Nodup.append hand.nodup (List.nodup_singleton _)
      (List.disjoint_singleton.mpr absent)
  · rcases found here with ⟨rfl, rfl⟩ | ⟨new, here⟩
    · refine .inr ⟨⟨?_, ?_⟩, ?_⟩
      · rw [spawned_task_self]
      · rw [spawned_task_self]
      · rw [queue]
        exact List.mem_append_right _ List.mem_cons_self
    · refine (hand.others id t here (by simp)).congr (old (hand.owned id t here).2.1) ?_
      rw [queue, List.mem_append, List.mem_singleton]
      exact or_iff_left new
  · obtain ⟨ids, few, all⟩ := few
    refine ⟨insert ⟨k.nextId⟩ ids, (Finset.card_insert_le _ _).trans (by omega), fun id here => ?_⟩
    obtain ⟨t, here⟩ := Option.isSome_iff_exists.mp here
    rcases found here with ⟨rfl, -⟩ | ⟨-, here⟩
    · exact Finset.mem_insert_self _ _
    · exact Finset.mem_insert_of_mem (all id (by rw [here]; rfl))

/-- A spawn of a task with a fresh identifier finds room while fewer than 100 tasks are live. -/
theorem Handshake.spawns (hand : k.Handshake none) (sound : k.Sound) (few : k.LiveAtMost 99)
    (fresh : k.executor.tasks ⟨k.nextId⟩ = none) (top : UInt64) :
    ∃ k', k.spawnStatic top = .ok k' := by
  obtain ⟨ids, few, all⟩ := few
  have sub : k.executor.taskQueue.items.toFinset ⊆ ids := fun id listed =>
    all id (hand.live id (List.mem_toFinset.mp listed))
  have bound := Finset.card_le_card sub
  rw [List.toFinset_card_of_nodup hand.nodup] at bound
  obtain ⟨q, pushed, -⟩ := ArrayQueue.push_room (a := TaskId.mk k.nextId)
    (show k.executor.taskQueue.items.length < 100 by omega)
  rw [spawnStatic_eq, if_neg (by simp [sound.quiet.free]), fresh, pushed]
  exact ⟨_, rfl⟩

theorem modifyTask_modifyTask (f g : Task → Task) :
    (k.modifyTask t f).modifyTask t g = k.modifyTask t fun task => g (f task) := by
  simp [modifyTask]

/-- What a send does to the target that waits for it. -/
def handOver (k : Kernel) (t : TaskRef) (msg : Message) : Kernel :=
  k.modifyTask t fun task => { task with mailbox := some msg, state := .ready, waker := none }

/-- A send to a task that waits makes it run and runs its waker. -/
theorem Waits.deliver (waits : k.Waits id t) (msg : Message) :
    k.deliver t msg = ((k.handOver t msg).wakeTask id).observe (.acknowledged t msg) := by
  have stored : ((k.putMailbox t msg).task t).waker = some ⟨id⟩ := by
    rw [putMailbox, modifyTask_task_self]
    exact waits.waker
  unfold Kernel.deliver awaken
  rw [if_pos ((putMailbox_state t t msg).trans waits.blocked), stored]
  simp only [putMailbox, setState, handOver, modifyTask_modifyTask]

theorem Handshake.deliver (hand : k.Handshake none) (here : k.executor.tasks id = some t)
    (msg : Message) : (k.deliver t msg).Handshake none := by
  rcases hand.others id t here (by simp) with waits | ⟨runs, queued⟩
  · have room := hand.room here waits.absent
    obtain ⟨q, pushed, items⟩ := ArrayQueue.push_room (a := id) room
    rw [waits.deliver]
    have ids : ∀ u, ((k.handOver t msg).task u).id = (k.task u).id :=
      fun u => modifyTask_keeps Task.id rfl u
    have same : ∀ u, u ≠ t → (k.handOver t msg).task u = k.task u :=
      fun u ne => modifyTask_task_ne k _ ne
    have queue : ((k.handOver t msg).wakeTask id).executor.taskQueue = q := by
      show (k.executor.taskQueue.push id).getD k.executor.taskQueue = q
      rw [pushed]
      rfl
    refine Handshake.observe ?_ fun _ _ => by simp
    refine hand.settle here (fun _ absurd => by cases absurd) rfl rfl rfl rfl rfl ids same
      (fun other ne => ?_) ?_ (.inr ⟨⟨?_, ?_⟩, ?_⟩) fun other queue woken => ?_
    · rw [queue, items, List.mem_append, List.mem_singleton]
      exact or_iff_left ne
    · rw [queue, items]
      exact List.Nodup.append hand.nodup (List.nodup_singleton _)
        (List.disjoint_singleton.mpr waits.absent)
    · show ((k.handOver t msg).task t).state = .ready
      rw [handOver, modifyTask_task_self]
    · show ((k.handOver t msg).task t).waker = none
      rw [handOver, modifyTask_task_self]
    · rw [queue, items]
      exact List.mem_append_right _ List.mem_cons_self
    · rcases List.mem_append.mp woken with before | last
      · exact hand.accepted other queue before
      · cases List.mem_singleton.mp last
        exact room
  · rw [deliver_ready (by rw [runs.ready]; simp)]
    refine Handshake.observe ?_ fun _ _ => by simp
    refine hand.settle here (fun _ absurd => by cases absurd) rfl rfl rfl rfl rfl
      (fun u => modifyTask_keeps Task.id rfl u) (fun u ne => modifyTask_task_ne k _ ne)
      (fun _ _ => Iff.rfl) hand.nodup (.inr ⟨⟨?_, ?_⟩, queued⟩) hand.accepted
    · exact (putMailbox_state t t msg).trans runs.ready
    · rw [putMailbox, modifyTask_task_self]
      exact runs.waker

/-- A fault handler changes only tasks in `TASK_LIST`, where no live task is. -/
theorem Handshake.fault {rsp r : UInt64} (hand : k.Handshake none) (sound : k.Sound)
    (run : k.faultHandlerInner rsp = .ok (r, k')) : k'.Handshake none := by
  obtain ⟨u, cur⟩ := sound.current
  have scheduled := faultHandlerInner_cases sound cur run
  have killed : ∀ t, t ∉ k.taskList → (k.setState u .terminated).task t = k.task t := by
    intro t apart
    apply modifyTask_task_ne k _
    rintro rfl
    exact apart cur.mem
  have cur' : (k.setState u .terminated).Current u := cur
  rcases scheduleNext_cases (sound.kill u).taskList_free cur' scheduled with
    ⟨-, -, rfl⟩ | ⟨-, new, -, -, rfl⟩
  · exact hand.congr rfl rfl rfl rfl (fun _ _ woken => woken) killed
  · refine hand.congr rfl rfl rfl rfl (fun _ _ woken => woken) fun t apart => ?_
    have ne : t ≠ u := by
      rintro rfl
      exact apart cur.mem
    have kept : ((k.setState u .terminated).modifyTask u fun task =>
        { task with kernelRsp := rsp }).task t = (k.setState u .terminated).task t :=
      modifyTask_task_ne _ _ ne
    exact kept.trans (killed t apart)

theorem Handshake.step {e : Event} (hand : k.Handshake none) (sound : k.Sound)
    (cond : k.Handshaking e) (step : k.Step e k') : k'.Handshake none := by
  obtain ⟨out, run⟩ := step
  cases step_happens sound run with
  | spawn spawned => exact hand.spawn sound cond spawned
  | returned call =>
    cases cond
    cases call with
    | idle => exact hand
    | send found =>
      rw [hand.registry] at found
      exact hand.deliver found _
  | killed call handled =>
    cases cond
    cases call with
    | sendFault => exact hand.fault sound handled
  | pollTasks ran => exact (hand.pollKernelTasks sound cond ran).1
  | timer | keyboard | serial | gpf | pageFault | userWrites | wake | receive => cases cond

/-- A kernel whose executor has not run: the live tasks are as `Executor::spawn` left them. -/
structure Unpolled (k : Kernel) : Prop extends Rested k where
  registry : k.taskRegistry = k.executor.tasks
  apart : ∀ id t, k.executor.tasks id = some t → (k.task t).id = id ∧ t ∉ k.taskList
  runs : ∀ id t, k.executor.tasks id = some t → k.Runs t
  cache : ∀ id, k.executor.wakerCache id = none
  nodup : k.executor.taskQueue.items.Nodup
  queued : ∀ id, id ∈ k.executor.taskQueue.items ↔ (k.executor.tasks id).isSome

theorem Unpolled.handshake (unpolled : k.Unpolled) : k.Handshake none where
  registry := unpolled.registry
  owned id t found := by
    obtain ⟨own, apart⟩ := unpolled.apart id t found
    exact ⟨own, unpolled.registered id t (by rw [unpolled.registry, found]), apart⟩
  wakers id w cached := by
    rw [unpolled.cache id] at cached
    cases cached
  live id queued := (unpolled.queued id).mp queued
  nodup := unpolled.nodup
  others id t found _ :=
    .inr ⟨unpolled.runs id t found, (unpolled.queued id).mpr (by rw [found]; rfl)⟩
  own id absurd := by cases absurd
  few := by
    refine ⟨k.executor.taskQueue.items.toFinset, ?_, fun id live => ?_⟩
    · exact (List.toFinset_card_le _).trans k.executor.taskQueue.bounded
    · exact List.mem_toFinset.mpr ((unpolled.queued id).mpr live)
  accepted id queue woken := by
    rw [unpolled.silent] at woken
    cases woken

/-- `kernel_main` hands over a kernel whose executor holds the monitor task. -/
theorem kernelMain_unpolled {images : List Image} {top : UInt64} {mem : Memory}
    {pages : UInt64 → Option PageFlags} (run : kernelMain images top mem pages = .ok k) :
    k.Unpolled := by
  have rested := kernelMain_rested run
  obtain ⟨k1, q, image, created, -, -, pushed, rfl⟩ := kernelMain_eq run
  have empty : k1.executor = ⟨fun _ => none, .empty, fun _ => none⟩ := created.executor
  have items : q.items = [⟨k1.nextId⟩] := by
    rw [(ArrayQueue.push_some pushed).2, empty]
    rfl
  have made : (k1.spawned top q).task k1.nextRef = _ := spawned_task_self
  have live : ∀ {id t}, (k1.spawned top q).executor.tasks id = some t →
      id = ⟨k1.nextId⟩ ∧ t = k1.nextRef := by
    intro id t found
    rw [spawned_tasks, empty] at found
    by_cases new : id = ⟨k1.nextId⟩
    · rw [new, Function.update_self] at found
      exact ⟨new, (Option.some.inj found).symm⟩
    · rw [Function.update_of_ne new] at found
      cases found
  refine
    { rested with
      registry := ?_
      apart := fun id t found => ?_
      runs := fun id t found => ?_
      cache := fun id => ?_
      nodup := ?_
      queued := fun id => ?_ }
  · show Function.update k1.taskRegistry _ _ = Function.update k1.executor.tasks _ _
    rw [created.registry, empty]
  · obtain ⟨rfl, rfl⟩ := live found
    refine ⟨congrArg Task.id made, fun listed => ?_⟩
    change k1.nextRef ∈ k1.taskList at listed
    rw [created.taskList, created.nextRef] at listed
    exact Nat.lt_irrefl _ (List.mem_range.mp listed)
  · obtain ⟨rfl, rfl⟩ := live found
    exact ⟨congrArg Task.state made, congrArg Task.waker made⟩
  · show k1.executor.wakerCache id = none
    rw [empty]
  · show q.items.Nodup
    rw [items]
    exact List.nodup_singleton _
  · show id ∈ q.items ↔ ((k1.spawned top q).executor.tasks id).isSome
    rw [items, List.mem_singleton]
    constructor
    · rintro rfl
      rw [spawned_tasks, Function.update_self]
      rfl
    · intro some_task
      obtain ⟨t, found⟩ := Option.isSome_iff_exists.mp some_task
      exact (live found).1

/-- In every run of spawns, with at most 100 live tasks, sends, and calls of `run_ready_tasks`,
where each task awaits its own messages only: every live task waits, `Blocked` with an empty
mailbox and its waker stored, or it is `Ready` and in the queue once.  Every push into the queue
has room, and `run_ready_tasks` returns and leaves every live task waiting. -/
theorem handshake_kept {k0 : Kernel} {es : List Event} (unpolled : k0.Unpolled)
    (run : Run (Guarded Handshaking Step) k0 es k) :
    (∀ id t, k.executor.tasks id = some t →
      ((k.task t).state = .blocked ∧ (k.task t).mailbox = none ∧ (k.task t).waker.isSome ∧
          id ∉ k.executor.taskQueue.items) ∨
        ((k.task t).state = .ready ∧ (k.task t).waker = none ∧
          k.executor.taskQueue.items.count id = 1)) ∧
    (∀ id queue, .woken id queue ∈ k.history → queue.length < 100) ∧
    (∀ top, k.LiveAtMost 99 → k.executor.tasks ⟨k.nextId⟩ = none → ∃ k', k.Step (.spawn top) k') ∧
    ∀ scripts, k.Handshaking (.pollTasks scripts) →
      (k.executor.taskQueue.items.length ≤ scripts.length →
        ∃ k', k.Step (.pollTasks scripts) k') ∧
      ∀ k', k.Step (.pollTasks scripts) k' → ∀ id t, k'.executor.tasks id = some t →
        (k'.task t).state = .blocked ∧ (k'.task t).mailbox = none := by
  have all : k.Sound ∧ k.Handshake none := by
    refine run.invariant (I := fun k => k.Sound ∧ k.Handshake none)
      ⟨unpolled.sound, unpolled.handshake⟩ ?_
    rintro a e b ⟨sound, hand⟩ ⟨cond, step⟩
    exact ⟨sound.step step, hand.step sound cond step⟩
  obtain ⟨sound, hand⟩ := all
  refine ⟨fun id t found => ?_, hand.accepted, fun top few fresh => ?_, fun scripts own => ⟨?_, ?_⟩⟩
  · rcases hand.others id t found (by simp) with waits | ⟨runs, queued⟩
    · exact .inl ⟨waits.blocked, waits.empty, by rw [waits.waker]; rfl, waits.absent⟩
    · exact .inr ⟨runs.ready, runs.waker, List.count_eq_one_of_mem hand.nodup queued⟩
  · obtain ⟨k', spawned⟩ := hand.spawns sound few fresh top
    exact ⟨k', none, by simp only [Kernel.step, spawned]; rfl⟩
  · intro enough
    obtain ⟨k', ran⟩ := hand.pollKernelTasks_returns sound own enough
    exact ⟨k', none, by simp only [Kernel.step, ran]; rfl⟩
  · rintro k' ⟨out, run⟩ id t found
    cases step_happens sound run with
    | pollTasks ran =>
      obtain ⟨settled, empty⟩ := hand.pollKernelTasks sound own ran
      rcases settled.others id t found (by simp) with waits | ⟨-, queued⟩
      · exact ⟨waits.blocked, waits.empty⟩
      · rw [empty] at queued
        cases queued

/-- The monitor task waits for a message, and a send puts it into the queue again. -/
theorem handshake_kept_send : ∃ k0 k, heapBoot = .ok k0 ∧
    Run (Guarded Handshaking Step) k0
      [.pollTasks [.receive 2 fun msg => if msg.isSome then .ready else .pending],
        .syscall 10 3 0x30007000 0x30007f58] k ∧
    k.executor.taskQueue.items.count ⟨3⟩ = 1 := by
  let script : PollScript := .receive 2 fun msg => if msg.isSome then .ready else .pending
  have evaluated : ∃ k0 k1, heapBoot = .ok k0 ∧ k0.executor.taskQueue.items = [⟨3⟩] ∧
      k0.executor.tasks ⟨3⟩ = some 2 ∧ k0.Step (.pollTasks [script]) k1 ∧
      k1.pages = heapPages ∧ k1.taskRegistry ⟨3⟩ = some 2 ∧ k1.executor.tasks ⟨3⟩ = some 2 ∧
      (k1.task 2).state = .blocked ∧ (k1.task 2).mailbox = none ∧
      (k1.task 2).waker = some ⟨⟨3⟩⟩ ∧ k1.executor.taskQueue.items = [] :=
    ⟨_, _, rfl, rfl, rfl, ⟨_, rfl⟩, rfl, rfl, rfl, rfl, rfl, rfl, rfl⟩
  obtain ⟨k0, k1, boot, items, first, polls, pages, found, live, blocked, empty, waker, drained⟩ :=
    evaluated
  have unpolled := kernelMain_unpolled boot
  have own : k0.Handshaking (.pollTasks [script]) := by
    intro id q popped
    refine ⟨fun t here => ?_, fun _ _ => trivial⟩
    have listed : k0.executor.taskQueue.items = id :: q.items := ArrayQueue.pop_some.mp popped
    rw [items] at listed
    obtain ⟨rfl, -⟩ := List.cons.inj listed
    have same : some 2 = some t := first.symm.trans here
    cases same
    exact ⟨rfl, rfl, fun _ => trivial⟩
  have sends := send_step 0x30007f58 (unpolled.sound.step polls).quiet (by decide)
    (heapPages_stack pages).1 found
  have send : k1.Handshaking (.syscall 10 3 0x30007000 0x30007f58) := rfl
  have run := (Run.single (R := Guarded Handshaking Step) ⟨own, polls⟩).snoc ⟨send, sends⟩
  have waits : k1.Waits ⟨3⟩ 2 := ⟨blocked, empty, waker, by rw [drained]; simp⟩
  have ready : ((k1.deliver 2 (k1.messageAt 0x30007000)).task 2).state = .ready := by
    rw [waits.deliver]
    show ((k1.handOver 2 _).task 2).state = .ready
    rw [handOver, modifyTask_task_self]
  have live' : (k1.deliver 2 (k1.messageAt 0x30007000)).executor.tasks ⟨3⟩ = some 2 := by
    rw [waits.deliver]
    exact live
  refine ⟨k0, _, boot, run, ?_⟩
  rcases (handshake_kept unpolled run).1 ⟨3⟩ 2 live' with ⟨still, -⟩ | ⟨-, -, once⟩
  · rw [ready] at still
    cases still
  · exact once

end Kernel

end Microkernel
