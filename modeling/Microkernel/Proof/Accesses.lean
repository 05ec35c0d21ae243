import Microkernel.Proof.Bookkeeping
import Microkernel.Proof.Handover

/-! The two levels at which the executor is modelled agree.  Whatever whole handlers, system calls
and user code do to the kernel, the executor does one access at a time. -/

namespace Microkernel

open Lib

/-! ### `run` never returns -/

/-- The executor is at a place that `run` passes through. -/
def Point.InRun : Point → Prop
  | .outside | .insert _ | .register _ | .enqueue _ => False
  | _ => True

namespace Flow

variable {f f' : Flow} {e : FlowEvent} {es : List FlowEvent}

/-- No access leaves `run`. -/
theorem inRun_advance (step : f.advance = some f') :
    f'.inRun = f.inRun ∧ (f.inRun → f.point.InRun → f'.point.InRun) := by
  obtain ⟨k, point, inRun, interrupts, log⟩ := f
  cases point
  all_goals dsimp only [advance] at step
  case «outside» | poll | halted => cases step
  case insert t =>
    split at step
    · cases step
    · cases step
      exact ⟨rfl, fun _ here => here⟩
  case register t =>
    cases step
    exact ⟨rfl, fun _ here => here⟩
  case enqueue t =>
    obtain ⟨q, -, rfl⟩ := Option.map_eq_some_iff.mp step
    exact ⟨rfl, fun _ here => here⟩
  case pop | lookup | check | isEmpty =>
    split at step
    all_goals
      cases step
      exact ⟨rfl, fun _ _ => trivial⟩
  case clear =>
    cases step
    refine ⟨rfl, fun active _ => ?_⟩
    rw [show inRun = true from active]
    trivial
  all_goals
    cases step
    exact ⟨rfl, fun _ _ => trivial⟩

theorem inRun_step (stays : f.inRun → f.point.InRun) (step : f.Step e f') :
    f'.inRun → f'.point.InRun := by
  cases step with
  | spawn here =>
    intro active
    have := stays active
    rw [here] at this
    exact this
  | runReadyTasks | run | ready | pending | resume => exact fun _ => trivial
  | cpu next =>
    obtain ⟨same, kept⟩ := inRun_advance next
    rw [same]
    exact fun active => kept active (stays active)
  | wake | other => exact stays

/-- Outside of its functions the executor is not in `run` either. -/
theorem outside_idle {f0 : Flow} (idle : f0.inRun = false) (run : Run Flow.Step f0 es f)
    (here : f.point = .outside) : f.inRun = false := by
  have stays : f.inRun → f.point.InRun :=
    run.invariant (fun active => by rw [idle] at active; cases active)
      fun _ _ _ kept step => inRun_step kept step
  rw [here] at stays
  exact Bool.eq_false_iff.mpr stays

end Flow

/-! ### Whole events -/

namespace Kernel

variable {k k' k0 : Kernel} {f0 : Flow} {top : UInt64} {scripts : List PollScript}

theorem SameTables.modifyTask (t : TaskRef) {f : Task → Task}
    (id : (f (k.task t)).id = (k.task t).id) : k.SameTables (k.modifyTask t f) :=
  ⟨rfl, rfl, le_rfl, fun u _ => modifyTask_keeps Task.id id u⟩

/-- Accesses of the executor lead from `f0` to the kernel `k`, where none of its functions is under
way. -/
def Interleaves (f0 : Flow) (k : Kernel) : Prop :=
  ∃ es f, Run (Guarded Flow.Aside Flow.Step) f0 es f ∧ f.k = k ∧ f.point = .outside

namespace Interleaves

theorem other (inter : Interleaves f0 k) (same : k.SameTables k')
    (futures : k'.futures = k.futures) : Interleaves f0 k' := by
  obtain ⟨es, f, run, rfl, here⟩ := inter
  have aside : Guarded Flow.Aside Flow.Step f (.other k') { f with k := k' } :=
    ⟨futures, .other same⟩
  exact ⟨_, { f with k := k' }, run.snoc aside, rfl, here⟩

/-- A change of fields that the executor does not have. -/
theorem plain (inter : Interleaves f0 k) (executor : k'.executor = k.executor)
    (registry : k'.taskRegistry = k.taskRegistry) (created : k'.nextRef = k.nextRef)
    (task : k'.task = k.task) (futures : k'.futures = k.futures) : Interleaves f0 k' :=
  inter.other ⟨executor, registry, created.ge, fun t _ => by rw [task]⟩ futures

theorem modifyTask (inter : Interleaves f0 k) (t : TaskRef) {f : Task → Task}
    (id : (f (k.task t)).id = (k.task t).id) : Interleaves f0 (k.modifyTask t f) :=
  inter.other (.modifyTask t id) rfl

theorem wake (inter : Interleaves f0 k) (id : TaskId) : Interleaves f0 (k.wakeTask id) := by
  obtain ⟨es, f, run, rfl, here⟩ := inter
  have woken : Guarded Flow.Aside Flow.Step f (.wake id) { f with k := f.k.wakeTask id } :=
    ⟨trivial, .wake id⟩
  exact ⟨_, _, run.snoc woken, rfl, here⟩

theorem spawnStatic (sound : f0.Sound) (inter : Interleaves f0 k)
    (run : k.spawnStatic top = .ok k') : Interleaves f0 k' := by
  obtain ⟨es, f, before, rfl, here⟩ := inter
  have created := (Flow.sound_run sound (before.mono fun _ _ _ step => step.2)).ledger.created
  rw [here] at created
  let made := (f.k.newTask top).2
  have new : f.k.SameTables made := by
    refine ⟨rfl, rfl, Nat.le_succ _, fun t old => ?_⟩
    rw [newTask_task top old]
  have fresh : .spawned f.k.nextRef ∉ f.log := fun mem => Nat.lt_irrefl _ (created _ mem)
  let called : Flow :=
    { f with k := made, point := .insert f.k.nextRef, log := f.log ++ [.spawned f.k.nextRef] }
  have creates : Guarded Flow.Aside Flow.Step f (.other made) { f with k := made } :=
    ⟨rfl, .other new⟩
  have call : Guarded Flow.Aside Flow.Step { f with k := made } (.spawn f.k.nextRef) called :=
    ⟨trivial, .spawn here (Nat.lt_succ_self _) fresh⟩
  by_cases locked : f.k.isHeld .kernelExecutor
  · rw [spawnStatic_locked locked] at run
    cases run
  · have spawned : made.spawn f.k.nextRef = .ok k' := (if_neg locked).symm.trans run
    have inside := Flow.spawn_flow (f := called) rfl spawned
    exact ⟨_, _, ((before.snoc creates).snoc call).append inside, rfl, rfl⟩

theorem polls (idle : f0.inRun = false) (inter : Interleaves f0 k)
    (run : k.pollKernelTasks scripts = .ok k') : Interleaves f0 k' := by
  rcases pollKernelTasks_cases run with ⟨-, rfl⟩ | ⟨-, after, ran, rfl⟩
  · exact inter
  · obtain ⟨es, f, before, rfl, here⟩ := inter
    have outer := Flow.outside_idle idle (before.mono fun _ _ _ step => step.2) here
    let locked : Flow := { f with k := f.k.acquire executorGuard }
    let called : Flow := { locked with point := .pop }
    have lock : Guarded Flow.Aside Flow.Step f (.other locked.k) locked :=
      ⟨rfl, .other ⟨rfl, rfl, le_rfl, fun _ _ => rfl⟩⟩
    have call : Guarded Flow.Aside Flow.Step locked .runReadyTasks called :=
      ⟨trivial, .runReadyTasks here⟩
    obtain ⟨fs, f', during, rfl, back⟩ :=
      Flow.runReadyTasks_flow (f := called) rfl (isHeld_acquire executorGuard) ran
    have outside : f'.point = .outside := by
      rw [back, show called.inRun = false from outer]
      rfl
    have inter' : Interleaves f0 f'.k :=
      ⟨_, f', ((before.snoc lock).snoc call).append during, rfl, outside⟩
    exact inter'.plain rfl rfl rfl rfl rfl

theorem deliver (inter : Interleaves f0 k) (t : TaskRef) (msg : Message) :
    Interleaves f0 (k.deliver t msg) := by
  have put : Interleaves f0 (k.putMailbox t msg) := inter.modifyTask t rfl
  have awakened : Interleaves f0 ((k.putMailbox t msg).awaken t) := by
    unfold awaken
    split
    · have readied : Interleaves f0 ((k.putMailbox t msg).setState t .ready) :=
        put.modifyTask t rfl
      split
      next waker _ => exact Interleaves.wake (readied.modifyTask t rfl) waker.taskId
      next => exact readied
    · exact put
  exact awakened.plain rfl rfl rfl rfl (futures_observe rfl)

end Interleaves

theorem interleaves_keeps (sound : f0.Sound) (idle : f0.inRun = false) :
    StepKeeps (fun _ _ => True) (Interleaves f0) where
  executor :=
    { wake := fun id inter => inter.wake id
      receive := fun t cx inter => inter.other (Flow.sameTables_receive t cx) (futures_receive t cx)
      polls := fun inter run => inter.polls idle run }
  tick inter := inter.plain rfl rfl rfl rfl rfl
  move {k rsp old new j} _ _ inter :=
    inter.other ⟨rfl, rfl, le_rfl, fun _ _ => movedTo_keeps Task.id fun _ => rfl⟩ rfl
  kill _ inter := inter.modifyTask _ rfl
  post _ inter := by
    unfold postInitMailbox
    split
    · exact inter
    · exact inter.plain rfl rfl rfl rfl (futures_observe rfl)
  call _ _ call inter := by
    cases call with
    | idle | sendFault => exact inter
    | print | regService | recvFault => exact inter.plain rfl rfl rfl rfl rfl
    | recv => exact inter.plain rfl rfl rfl rfl (futures_observe rfl)
    | setPriority | exit => exact inter.modifyTask _ rfl
    | send => exact inter.deliver _ _
  user _ inter := inter.plain rfl rfl rfl rfl rfl
  spawn _ inter run := inter.spawnStatic sound run

/-! ### Whole runs -/

variable {images : List Image} {mem : Memory} {pages : UInt64 → Option PageFlags}
  {es : List Event}

/-- The executor, which is new, when `kernel_main` has created the processes. -/
def newExecutor (images : List Image) (mem : Memory) (pages : UInt64 → Option PageFlags) :
    Flow where
  k := (initial mem pages).createProcesses images
  point := .outside
  inRun := false
  interrupts := false
  log := []

theorem newExecutor_fresh : (newExecutor images mem pages).Fresh :=
  have created := createProcesses_created images mem pages
  ⟨rfl, rfl, created.executor, created.registry⟩

theorem newExecutor_tied : (newExecutor images mem pages).Tied where
  marks := by
    have silent := (createProcesses_created images mem pages).silent
    show ((initial mem pages).createProcesses images).history.filter _ ++ [] = []
    rw [silent]
    rfl
  created t mem := nomatch mem

theorem kernelMain_interleaves (boot : kernelMain images top mem pages = .ok k0) :
    Interleaves (newExecutor images mem pages) k0 := by
  obtain ⟨k1, spawned, rest⟩ := bind_ok boot
  obtain ⟨first, -, done⟩ := bind_ok rest
  cases done
  have start : Interleaves (newExecutor images mem pages) (newExecutor images mem pages).k :=
    ⟨[], _, .nil, rfl, rfl⟩
  have monitor := start.spawnStatic newExecutor_fresh.sound spawned
  exact monitor.plain rfl rfl rfl rfl rfl

/-- A task that has finished, as the kernel's history tells, is in neither table. -/
theorem finished_tabled {f : Flow} (tied : f.Tied) (books : f.Books) (here : f.point = .outside)
    {id : TaskId} (finished : .finished id ∈ f.k.history) : ∃ t, (f.k.task t).id = id ∧
      (∀ other, f.k.executor.tasks other ≠ some t) ∧ ∀ other, f.k.taskRegistry other ≠ some t := by
  have marks := tied.marks
  rw [here, show Point.owed .outside = [] from rfl, List.append_nil] at marks
  have told : .finished id ∈ f.k.futures := List.mem_filter.mpr ⟨finished, rfl⟩
  rw [marks] at told
  obtain ⟨m, logged, same⟩ := List.mem_filterMap.mp told
  cases m with
  | spawned t => cases same
  | polled t => cases same
  | ready t =>
    cases same
    obtain ⟨tasks, registry, -⟩ := books.finished t logged
    exact ⟨t, rfl, tasks, registry⟩

/-- Every run of the kernel from boot is an interleaving of the accesses of the executor with wakers
and with changes that leave its tables and futures alone; the polls and the `Poll::Ready`s of its
history are those of the accesses, in order.  So the tables are in order in every state that it
reaches, and a task that has finished is in neither of them. -/
theorem runs_interleave (boot : kernelMain images top mem pages = .ok k0)
    (run : Run Step k0 es k) :
    (∃ fs f, Run (Guarded Flow.Aside Flow.Step) (newExecutor images mem pages) fs f ∧ f.k = k ∧
      f.point = .outside ∧ f.Books ∧ k.futures = f.log.filterMap (Mark.observation k)) ∧
    ∀ id, .finished id ∈ k.history → ∃ t, (k.task t).id = id ∧
      (∀ other, k.executor.tasks other ≠ some t) ∧ ∀ other, k.taskRegistry other ≠ some t := by
  have sound : (newExecutor images mem pages).Sound := newExecutor_fresh.sound
  have guarded : Run (Guarded (fun _ _ => True) Step) k0 es k :=
    run.mono fun _ _ _ step => ⟨trivial, step⟩
  obtain ⟨fs, f, accesses, same, here⟩ := (interleaves_keeps sound rfl).run
    (kernelMain_rested boot).sound (kernelMain_interleaves boot) guarded
  have after := Flow.sound_run sound (accesses.mono fun _ _ _ step => step.2)
  have books := after.books (by rw [here]; trivial)
  have tied := Flow.tied_run sound newExecutor_tied accesses
  have marks := tied.marks
  rw [here, show Point.owed .outside = [] from rfl, List.append_nil] at marks
  subst same
  exact ⟨⟨fs, f, accesses, rfl, here, books, marks⟩, fun id => finished_tabled tied books here⟩

/-- The monitor task is polled by the first timer interrupt, and finishes. -/
theorem runs_interleave_timer : ∃ k0 k, heapBoot = .ok k0 ∧
    Run Step k0 [.timer [.ready] 0x444444447f00] k ∧ .finished ⟨3⟩ ∈ k.history ∧
    (∃ fs f, Run (Guarded Flow.Aside Flow.Step) (newExecutor heapImages (fun _ => 0) heapPages) fs
      f ∧ f.k = k ∧ f.point = .outside ∧ f.Books ∧
      k.futures = f.log.filterMap (Mark.observation k)) ∧
    ∃ t, (k.task t).id = ⟨3⟩ ∧ ∀ other, k.executor.tasks other ≠ some t := by
  have evaluated : ∃ k0 k, heapBoot = .ok k0 ∧
      k0.Step (.timer [.ready] 0x444444447f00) k ∧ .finished ⟨3⟩ ∈ k.history :=
    ⟨_, _, rfl, ⟨_, rfl⟩, by decide⟩
  obtain ⟨k0, k, boot, step, finished⟩ := evaluated
  obtain ⟨accesses, gone⟩ := runs_interleave boot (.single step)
  obtain ⟨t, same, tasks, -⟩ := gone ⟨3⟩ finished
  exact ⟨k0, k, boot, .single step, finished, accesses, t, same, tasks⟩

end Kernel

end Microkernel
