import Microkernel.Proof.Calls
import Microkernel.Proof.Polls
import Microkernel.Proof.Schedule
import Microkernel.System

/-! What a step of the kernel keeps.  `Sound` holds in every state that a run reaches; any other
property that each elementary effect keeps is kept by every step from a sound state. -/

namespace Microkernel

open Lib

theorem map_ok {α β : Type} {x : Except Stop α} {f : α → β} {b : β} (h : x.map f = .ok b) :
    ∃ a, x = .ok a ∧ f a = b := by
  cases x with
  | error reason => cases h
  | ok a =>
    cases h
    exact ⟨a, rfl, rfl⟩

/-- The computation ends, and `P` holds of the state in which it does. -/
def Outcome.Ends {α : Type} (P : Kernel → Prop) : Outcome α → Prop
  | .done _ k => P k
  | .fault k => P k
  | .stop _ => False

namespace Kernel

variable {k k' : Kernel} {rsp r : UInt64} {scripts : List PollScript}

/-- The current process exists, the processes are task objects in use, and no lock is held but that
of `INIT_MAILBOX`, which a fault in `SYS_RECV` leaves locked. -/
structure Sound (k : Kernel) : Prop where
  current : ∃ t, k.Current t
  processes : ∀ t ∈ k.taskList, t < k.nextRef
  quiet : k.Quiet

theorem Current.mem {t : TaskRef} (cur : k.Current t) : t ∈ k.taskList :=
  List.mem_of_getElem? cur

theorem Sound.taskList_free (sound : k.Sound) : k.isHeld .taskList = false :=
  sound.quiet.free (by decide)

/-- Soundness looks at fields that most effects leave alone. -/
theorem Sound.congr (sound : k.Sound) (taskList : k'.taskList = k.taskList)
    (idx : k'.currentTaskIdx = k.currentTaskIdx) (refs : k.nextRef ≤ k'.nextRef)
    (held : k'.held = k.held) : k'.Sound where
  current := by
    obtain ⟨t, cur⟩ := sound.current
    exact ⟨t, by rw [Current, taskList, idx]; exact cur⟩
  processes t ht := by
    rw [taskList] at ht
    exact Nat.lt_of_lt_of_le (sound.processes t ht) refs
  quiet := by
    rw [Quiet, held]
    exact sound.quiet

theorem Sound.fixed (sound : k.Sound) (same : k'.fixed = k.fixed) : k'.Sound :=
  sound.congr (congrArg Fixed.taskList same) (congrArg Fixed.currentTaskIdx same)
    (Nat.le_of_eq (congrArg Fixed.nextRef same).symm) (congrArg Fixed.held same)

theorem Sound.movedTo (sound : k.Sound) {old new : TaskRef} {j : Nat}
    (selected : k.taskList[j]? = some new) : (k.movedTo rsp old new j).Sound where
  current := ⟨new, selected⟩
  processes := sound.processes
  quiet := sound.quiet

theorem Sound.scheduleNext {force : Bool} (sound : k.Sound)
    (run : k.scheduleNext rsp force = .ok (r, k')) : k'.Sound := by
  obtain ⟨old, cur⟩ := sound.current
  rcases scheduleNext_cases sound.taskList_free cur run with ⟨-, -, rfl⟩ | ⟨-, new, sel, -, rfl⟩
  · exact sound
  · exact sound.movedTo sel

theorem Sound.tick (sound : k.Sound) : { k with tickCount := k.tickCount + 1 }.Sound :=
  ⟨sound.current, sound.processes, sound.quiet⟩

theorem Sound.kill (sound : k.Sound) (t : TaskRef) : (k.setState t .terminated).Sound :=
  ⟨sound.current, sound.processes, sound.quiet⟩

/-- The timer's handler polls, counts the tick, and schedules. -/
theorem timerHandlerInner_cases (run : k.timerHandlerInner scripts rsp = .ok (r, k')) :
    ∃ polled, k.pollKernelTasks scripts = .ok polled ∧
      scheduleNext rsp false { polled with tickCount := polled.tickCount + 1 } = .ok (r, k') :=
  bind_ok run

/-- When the timer's handler schedules, the current process is the one that it interrupted. -/
theorem Current.polled {t : TaskRef} {polled : Kernel} (cur : k.Current t)
    (ran : k.pollKernelTasks scripts = .ok polled) :
    Current { polled with tickCount := polled.tickCount + 1 } t := by
  have fixed := fixed_pollKernelTasks ran
  show polled.taskList[polled.currentTaskIdx]? = some t
  rw [show polled.taskList = k.taskList from congrArg Fixed.taskList fixed,
    show polled.currentTaskIdx = k.currentTaskIdx from congrArg Fixed.currentTaskIdx fixed]
  exact cur

/-- A fault handler kills the current process and schedules. -/
theorem faultHandlerInner_cases {t : TaskRef} (sound : k.Sound) (cur : k.Current t)
    (run : k.faultHandlerInner rsp = .ok (r, k')) :
    scheduleNext rsp true (k.setState t .terminated) = .ok (r, k') := by
  unfold faultHandlerInner at run
  rw [if_neg (by simp [sound.taskList_free])] at run
  simpa only [taskAt, show k.taskList[k.currentTaskIdx]? = some t from cur, bind, Except.bind]
    using run

/-- A device's handler posts its message and polls. -/
theorem deviceHandlerInner_cases {label : UInt64} {data : UInt8}
    (run : k.deviceHandlerInner label data scripts rsp = .ok (r, k')) :
    r = rsp ∧ (k.postInitMailbox (deviceMessage label data)).pollKernelTasks scripts = .ok k' := by
  obtain ⟨polled, ran, done⟩ := bind_ok run
  cases done
  exact ⟨rfl, ran⟩

theorem Sound.faultHandlerInner (sound : k.Sound)
    (run : k.faultHandlerInner rsp = .ok (r, k')) : k'.Sound := by
  obtain ⟨t, cur⟩ := sound.current
  exact (sound.kill t).scheduleNext (faultHandlerInner_cases sound cur run)

theorem Sound.postInitMailbox (sound : k.Sound) (m : Message) : (k.postInitMailbox m).Sound := by
  unfold Kernel.postInitMailbox
  split
  · exact sound
  · exact ⟨sound.current, sound.processes, sound.quiet⟩

/-- The kernel with a new task in the executor, in the registry and in the queue `q`. -/
def spawned (k : Kernel) (top : UInt64) (q : ArrayQueue TaskId 100) : Kernel :=
  { (k.newTask top).2 with
    executor := { k.executor with
      tasks := Function.update k.executor.tasks ⟨k.nextId⟩ (some k.nextRef)
      taskQueue := q }
    taskRegistry := Function.update k.taskRegistry ⟨k.nextId⟩ (some k.nextRef) }

theorem newTask_task (top : UInt64) {t : TaskRef} (old : t < k.nextRef) :
    (k.newTask top).2.task t = k.task t :=
  Function.update_of_ne (Nat.ne_of_lt old) _ _

theorem newTask_id (top : UInt64) : ((k.newTask top).2.task k.nextRef).id = ⟨k.nextId⟩ := by
  show (Function.update k.task k.nextRef _ k.nextRef).id = _
  rw [Function.update_self]

/-- A spawn gives a result unless the executor is locked, the identifier is in use, or the queue is
full. -/
theorem spawnStatic_eq (top : UInt64) :
    k.spawnStatic top =
      if k.isHeld .kernelExecutor then .error .spins
      else if (k.executor.tasks ⟨k.nextId⟩).isSome then .error .panics
      else match k.executor.taskQueue.push ⟨k.nextId⟩ with
        | none => .error .panics
        | some q => .ok (k.spawned top q) := by
  unfold Kernel.spawnStatic
  show (if k.isHeld .kernelExecutor then _ else Kernel.spawn k.nextRef (k.newTask top).2) = _
  unfold Kernel.spawn
  rw [newTask_id]
  rfl

theorem spawnStatic_cases {top : UInt64} (run : k.spawnStatic top = .ok k') :
    k.executor.tasks ⟨k.nextId⟩ = none ∧
      ∃ q, k.executor.taskQueue.push ⟨k.nextId⟩ = some q ∧ k' = k.spawned top q := by
  rw [spawnStatic_eq] at run
  split at run
  · cases run
  · split at run
    · cases run
    next absent =>
      split at run
      · cases run
      next q pushed =>
        cases run
        exact ⟨by simpa using absent, q, pushed, rfl⟩

theorem Sound.spawnStatic {top : UInt64} (sound : k.Sound)
    (run : k.spawnStatic top = .ok k') : k'.Sound := by
  obtain ⟨-, q, -, rfl⟩ := spawnStatic_cases run
  exact sound.congr rfl rfl (Nat.le_succ k.nextRef) rfl

/-- What a fault handler leaves alone: it changes the state of the process that it kills and what
belongs to the switch to another one. -/
structure Switched (k k' : Kernel) : Prop where
  held : k'.held = k.held
  initMailbox : k'.initMailbox = k.initMailbox
  history : k'.history = k.history
  mailbox : ∀ t, (k'.task t).mailbox = (k.task t).mailbox

theorem scheduleNext_switched {force : Bool} (sound : k.Sound)
    (run : k.scheduleNext rsp force = .ok (r, k')) : Switched k k' := by
  obtain ⟨old, cur⟩ := sound.current
  rcases scheduleNext_cases sound.taskList_free cur run with ⟨-, -, rfl⟩ | ⟨-, new, -, -, rfl⟩
  · exact ⟨rfl, rfl, rfl, fun _ => rfl⟩
  · exact ⟨rfl, rfl, rfl, fun _ => movedTo_keeps Task.mailbox fun _ => rfl⟩

theorem faultHandlerInner_switched (sound : k.Sound)
    (run : k.faultHandlerInner rsp = .ok (r, k')) : Switched k k' := by
  obtain ⟨t, cur⟩ := sound.current
  have scheduled := faultHandlerInner_cases sound cur run
  obtain ⟨held, initMailbox, history, mailbox⟩ := scheduleNext_switched (sound.kill t) scheduled
  have kept : ∀ u, ((k.setState t .terminated).task u).mailbox = (k.task u).mailbox :=
    fun u => modifyTask_keeps Task.mailbox rfl u
  exact ⟨held, initMailbox, history, fun u => (mailbox u).trans (kept u)⟩

/-- A fault handler always returns. -/
theorem faultHandlerInner_total (sound : k.Sound) (rsp : UInt64) :
    ∃ r k', k.faultHandlerInner rsp = .ok (r, k') := by
  obtain ⟨t, cur⟩ := sound.current
  obtain ⟨new, -, result⟩ := scheduleNext_eq rsp true (sound.kill t).taskList_free
    (show (k.setState t .terminated).Current t from cur)
  unfold Kernel.faultHandlerInner
  rw [if_neg (by simp [sound.taskList_free])]
  simp only [taskAt, show k.taskList[k.currentTaskIdx]? = some t from cur, bind, Except.bind,
    result]
  split <;> exact ⟨_, _, rfl⟩

/-! ### System calls -/

theorem fixed_deliver (t : TaskRef) (msg : Message) : (k.deliver t msg).fixed = k.fixed := by
  have put : (k.putMailbox t msg).fixed = k.fixed := fixed_modifyTask fun _ => ⟨rfl, rfl, rfl, rfl⟩
  have woken : ∀ k : Kernel, (k.awaken t).fixed = k.fixed := by
    intro k
    unfold awaken
    split
    · split
      · have cleared : ((k.setState t .ready).modifyTask t fun task =>
            { task with waker := none }).fixed = (k.setState t .ready).fixed :=
          fixed_modifyTask fun _ => ⟨rfl, rfl, rfl, rfl⟩
        exact (fixed_wakeTask _).trans (cleared.trans (fixed_setState t .ready))
      · exact fixed_setState t .ready
    · rfl
  exact (woken _).trans put

theorem Call.sound {arg1 arg2 id : UInt64} {o : Outcome UInt64} (call : Call k arg1 arg2 id o)
    (sound : k.Sound) : o.Ends Sound := by
  cases call with
  | idle | sendFault => exact sound
  | print | regService | recv | setPriority | exit =>
    exact sound.congr rfl rfl (Nat.le_refl _) rfl
  | send => exact sound.fixed (fixed_deliver _ _)
  | recvFault =>
    refine ⟨sound.current, sound.processes, ?_⟩
    intro g hg
    rcases List.mem_cons.mp hg with rfl | before
    · rfl
    · exact sound.quiet g before

/-- A system call returns, or it faults and the fault's handler kills the process. -/
theorem syscall_cases {id arg1 arg2 : UInt64} {out : Option UInt64} (sound : k.Sound)
    (run : k.syscall id arg1 arg2 rsp = .ok (out, k')) :
    ∃ o, Call k arg1 arg2 id o ∧
      ((out = none ∧ ∃ value, o = .done value k') ∨
        ∃ mid r, out = some r ∧ o = .fault mid ∧ mid.faultHandlerInner rsp = .ok (r, k')) := by
  have call := handleSyscall_call sound.quiet id arg1 arg2
  unfold Kernel.syscall at run
  generalize (handleSyscall id arg1 arg2).run k = o at call run
  refine ⟨o, call, ?_⟩
  cases o with
  | done value mid =>
    cases run
    exact .inl ⟨rfl, value, rfl⟩
  | fault mid =>
    obtain ⟨⟨r, after⟩, handled, same⟩ := map_ok run
    cases same
    exact .inr ⟨mid, r, rfl, rfl, handled⟩
  | stop reason => cases run

/-- A send to a registered task with a message that can be loaded. -/
theorem send_step {arg1 arg2 : UInt64} {t : TaskRef} (rsp : UInt64) (quiet : k.Quiet)
    (high : ¬ arg2 < 0x20000000) (readable : k.Readable arg2 40)
    (found : k.taskRegistry ⟨arg1⟩ = some t) :
    k.Step (.syscall 10 arg1 arg2 rsp) (k.deliver t (k.messageAt arg2)) := by
  have result := sysSend_eq quiet arg1 arg2
  rw [if_neg high, if_pos readable, found] at result
  have call : (handleSyscall 10 arg1 arg2).run k = .done 0 (k.deliver t (k.messageAt arg2)) :=
    result
  exact ⟨none, by simp only [Kernel.step, Kernel.syscall, call]⟩

/-- A receive of a message that can be stored. -/
theorem recv_step {arg1 : UInt64} {msg : Message} (arg2 rsp : UInt64)
    (free : k.isHeld .initMailbox = false) (waiting : k.initMailbox = some msg)
    (writable : Sys.Writable k arg1 40) :
    k.Step (.syscall 11 arg1 arg2 rsp)
      ({ k with initMailbox := none, mem := k.mem.storeAll arg1 msg.words }.observe
        (.received msg)) := by
  have call : (handleSyscall 11 arg1 arg2).run k = _ := sysRecv_done free waiting writable
  exact ⟨none, by simp only [Kernel.step, Kernel.syscall, call]⟩

theorem putMailbox_state (t u : TaskRef) (msg : Message) :
    ((k.putMailbox t msg).task u).state = (k.task u).state :=
  modifyTask_keeps (f := fun task => { task with mailbox := some msg }) Task.state rfl u

theorem deliver_ready {t : TaskRef} {msg : Message} (ready : (k.task t).state ≠ .blocked) :
    k.deliver t msg = (k.putMailbox t msg).observe (.acknowledged t msg) := by
  rw [deliver, awaken, if_neg (by rw [putMailbox_state]; exact ready)]

/-! ### Every step -/

/-- Everything that an event can do, with the stack pointer that its wrapper loads, if it has one.
-/
inductive Happens (k : Kernel) : Event → Option UInt64 → Kernel → Prop
  | timer {scripts : List PollScript} {rsp r : UInt64} {polled k' : Kernel}
      (ran : k.pollKernelTasks scripts = .ok polled)
      (scheduled : scheduleNext rsp false { polled with tickCount := polled.tickCount + 1 } =
        .ok (r, k')) :
      Happens k (.timer scripts rsp) (some r) k'
  | keyboard {data : UInt8} {scripts : List PollScript} {rsp : UInt64} {k' : Kernel}
      (ran : (k.postInitMailbox (deviceMessage 2 data)).pollKernelTasks scripts = .ok k') :
      Happens k (.keyboard data scripts rsp) (some rsp) k'
  | serial {data : UInt8} {scripts : List PollScript} {rsp : UInt64} {k' : Kernel}
      (ran : (k.postInitMailbox (deviceMessage 3 data)).pollKernelTasks scripts = .ok k') :
      Happens k (.serial data scripts rsp) (some rsp) k'
  | gpf {rsp r : UInt64} {k' : Kernel} (handled : k.faultHandlerInner rsp = .ok (r, k')) :
      Happens k (.gpf rsp) (some r) k'
  | pageFault {rsp r : UInt64} {k' : Kernel} (handled : k.faultHandlerInner rsp = .ok (r, k')) :
      Happens k (.pageFault rsp) (some r) k'
  | returned {id arg1 arg2 rsp value : UInt64} {k' : Kernel}
      (call : Call k arg1 arg2 id (.done value k')) :
      Happens k (.syscall id arg1 arg2 rsp) none k'
  | killed {id arg1 arg2 rsp r : UInt64} {mid k' : Kernel} (call : Call k arg1 arg2 id (.fault mid))
      (handled : mid.faultHandlerInner rsp = .ok (r, k')) :
      Happens k (.syscall id arg1 arg2 rsp) (some r) k'
  | userWrites (f : Memory) : Happens k (.userWrites f) none (k.userWrites f)
  | spawn {top : UInt64} {k' : Kernel} (spawned : k.spawnStatic top = .ok k') :
      Happens k (.spawn top) none k'
  | wake (id : TaskId) : Happens k (.wake id) none (k.wakeTask id)
  | receive (t : TaskRef) (cx : TaskWaker) :
      Happens k (.receive t cx) none (k.ipcReceivePoll t cx).2
  | pollTasks {scripts : List PollScript} {k' : Kernel}
      (ran : k.pollKernelTasks scripts = .ok k') : Happens k (.pollTasks scripts) none k'

theorem step_happens {e : Event} {out : Option UInt64} (sound : k.Sound)
    (run : k.step e = .ok (out, k')) : Happens k e out k' := by
  cases e with
  | timer scripts rsp =>
    obtain ⟨⟨r, after⟩, handled, same⟩ := map_ok run
    cases same
    obtain ⟨polled, ran, scheduled⟩ := timerHandlerInner_cases handled
    exact .timer ran scheduled
  | keyboard data scripts rsp =>
    obtain ⟨⟨r, after⟩, handled, same⟩ := map_ok run
    cases same
    obtain ⟨rfl, ran⟩ := deviceHandlerInner_cases handled
    exact .keyboard ran
  | serial data scripts rsp =>
    obtain ⟨⟨r, after⟩, handled, same⟩ := map_ok run
    cases same
    obtain ⟨rfl, ran⟩ := deviceHandlerInner_cases handled
    exact .serial ran
  | gpf rsp =>
    obtain ⟨⟨r, after⟩, handled, same⟩ := map_ok run
    cases same
    exact .gpf handled
  | pageFault rsp =>
    obtain ⟨⟨r, after⟩, handled, same⟩ := map_ok run
    cases same
    exact .pageFault handled
  | syscall id arg1 arg2 rsp =>
    obtain ⟨o, call, ⟨rfl, value, rfl⟩ | ⟨mid, r, rfl, rfl, handled⟩⟩ := syscall_cases sound run
    · exact .returned call
    · exact .killed call handled
  | userWrites f =>
    cases run
    exact .userWrites f
  | spawn top =>
    obtain ⟨after, spawned, same⟩ := map_ok run
    cases same
    exact .spawn spawned
  | wake id =>
    cases run
    exact .wake id
  | receive t cx =>
    cases run
    exact .receive t cx
  | pollTasks scripts =>
    obtain ⟨after, ran, same⟩ := map_ok run
    cases same
    exact .pollTasks ran

theorem Sound.step {e : Event} (sound : k.Sound) (step : k.Step e k') : k'.Sound := by
  obtain ⟨out, run⟩ := step
  cases step_happens sound run with
  | timer ran scheduled =>
    exact (sound.fixed (fixed_pollKernelTasks ran)).tick.scheduleNext scheduled
  | keyboard ran | serial ran =>
    exact (sound.postInitMailbox _).fixed (fixed_pollKernelTasks ran)
  | gpf handled | pageFault handled => exact sound.faultHandlerInner handled
  | returned call => exact call.sound sound
  | killed call handled => exact Sound.faultHandlerInner (call.sound sound) handled
  | userWrites f => exact sound.congr rfl rfl (Nat.le_refl _) rfl
  | spawn spawned => exact sound.spawnStatic spawned
  | wake id => exact sound.fixed (fixed_wakeTask id)
  | receive t cx => exact sound.fixed (fixed_ipcReceivePoll t cx)
  | pollTasks ran => exact sound.fixed (fixed_pollKernelTasks ran)

theorem Sound.run {es : List Event} (sound : k.Sound) (run : Run Step k es k') : k'.Sound :=
  run.invariant sound fun _ _ _ sound step => sound.step step

/-- `P`, which does not look at the locks, is kept by each effect that an event can have in a sound
state.  Of the events, only those that meet `C` in the state before them count. -/
structure StepKeeps (C : Kernel → Event → Prop) (P : Kernel → Prop) : Prop where
  executor : ExecutorKeeps P
  tick : ∀ {k}, P k → P { k with tickCount := k.tickCount + 1 }
  move : ∀ {k rsp old new j}, k.Current old → k.taskList[j]? = some new → P k →
    P (k.movedTo rsp old new j)
  kill : ∀ {k t}, k.Current t → P k → P (k.setState t .terminated)
  post : ∀ {k label data}, label = 2 ∨ label = 3 → P k →
    P (k.postInitMailbox (deviceMessage label data))
  call : ∀ {k id arg1 arg2 rsp o}, k.Sound → C k (.syscall id arg1 arg2 rsp) →
    Call k arg1 arg2 id o → P k → o.Ends P
  user : ∀ {k} f, P k → P (k.userWrites f)
  spawn : ∀ {k k' top}, k.Sound → P k → k.spawnStatic top = .ok k' → P k'

namespace StepKeeps

variable {C : Kernel → Event → Prop} {P : Kernel → Prop} {e : Event} {es : List Event}

theorem scheduleNext (keeps : StepKeeps C P) {force : Bool} (sound : k.Sound) (start : P k)
    (run : k.scheduleNext rsp force = .ok (r, k')) : P k' := by
  obtain ⟨old, cur⟩ := sound.current
  rcases scheduleNext_cases sound.taskList_free cur run with ⟨-, -, rfl⟩ | ⟨-, new, sel, -, rfl⟩
  · exact start
  · exact keeps.move cur sel start

theorem faultHandlerInner (keeps : StepKeeps C P) (sound : k.Sound) (start : P k)
    (run : k.faultHandlerInner rsp = .ok (r, k')) : P k' := by
  obtain ⟨t, cur⟩ := sound.current
  exact keeps.scheduleNext (sound.kill t) (keeps.kill cur start)
    (faultHandlerInner_cases sound cur run)

theorem step (keeps : StepKeeps C P) (sound : k.Sound) (start : P k) (cond : C k e)
    (step : k.Step e k') : P k' := by
  obtain ⟨out, run⟩ := step
  cases step_happens sound run with
  | timer ran scheduled =>
    exact keeps.scheduleNext (sound.fixed (fixed_pollKernelTasks ran)).tick
      (keeps.tick (keeps.executor.polls start ran)) scheduled
  | keyboard ran => exact keeps.executor.polls (keeps.post (.inl rfl) start) ran
  | serial ran => exact keeps.executor.polls (keeps.post (.inr rfl) start) ran
  | gpf handled | pageFault handled => exact keeps.faultHandlerInner sound start handled
  | returned call => exact keeps.call sound cond call start
  | killed call handled =>
    exact keeps.faultHandlerInner (call.sound sound) (keeps.call sound cond call start) handled
  | userWrites f => exact keeps.user f start
  | spawn spawned => exact keeps.spawn sound start spawned
  | wake id => exact keeps.executor.wake id start
  | receive t cx => exact keeps.executor.receive t cx start
  | pollTasks ran => exact keeps.executor.polls start ran

/-- What the effects keep holds in every state that a run of such events reaches. -/
theorem run (keeps : StepKeeps C P) (sound : k.Sound) (start : P k)
    (run : Run (Guarded C Step) k es k') : P k' :=
  (run.invariant (I := fun k => k.Sound ∧ P k) ⟨sound, start⟩ fun _ _ _ both guarded =>
    ⟨both.1.step guarded.2, keeps.step both.1 both.2 guarded.1 guarded.2⟩).2

end StepKeeps

/-! ### What no step changes -/

/-- The task list is the same, and so are the identifier and the kernel stack of every task object
in use. -/
structure SameTasks (k k' : Kernel) : Prop where
  taskList : k'.taskList = k.taskList
  refs : k.nextRef ≤ k'.nextRef
  id : ∀ t < k.nextRef, (k'.task t).id = (k.task t).id
  stack : ∀ t < k.nextRef, (k'.task t).kernelStackTop = (k.task t).kernelStackTop

variable {k0 : Kernel}

theorem SameTasks.refl (k : Kernel) : SameTasks k k :=
  ⟨rfl, Nat.le_refl _, fun _ _ => rfl, fun _ _ => rfl⟩

theorem SameTasks.modifyTask {t : TaskRef} {f : Task → Task} (same : SameTasks k0 k)
    (id : (f (k.task t)).id = (k.task t).id)
    (stack : (f (k.task t)).kernelStackTop = (k.task t).kernelStackTop) :
    SameTasks k0 (k.modifyTask t f) where
  taskList := same.taskList
  refs := same.refs
  id u hu := (modifyTask_keeps Task.id id u).trans (same.id u hu)
  stack u hu := (modifyTask_keeps Task.kernelStackTop stack u).trans (same.stack u hu)

theorem SameTasks.fixed (same : SameTasks k0 k) (fixed : k'.fixed = k.fixed) :
    SameTasks k0 k' where
  taskList := (congrArg Fixed.taskList fixed).trans same.taskList
  refs := same.refs.trans (Nat.le_of_eq (congrArg Fixed.nextRef fixed).symm)
  id u hu :=
    (congrArg (fun f => (f.identity u).1) fixed).trans (same.id u hu)
  stack u hu :=
    (congrArg (fun f => (f.identity u).2.2.2) fixed).trans (same.stack u hu)

theorem sameTasks_polls : PollKeeps (SameTasks k0) where
  wake id same := same.fixed (fixed_wakeTask id)
  receive t cx same := same.fixed (fixed_ipcReceivePoll t cx)
  current _ same := same.fixed rfl
  cache _ same := same.fixed rfl
  finish _ same := same.fixed rfl
  polled _ same := same.fixed rfl
  dropped _ _ same := same.fixed rfl
  drained same := same.fixed rfl
  pop _ same := same.fixed rfl

theorem sameTasks_keeps : StepKeeps (fun _ _ => True) (SameTasks k0) where
  executor := sameTasks_polls.executor fun _ same =>
    ⟨same.taskList, same.refs, same.id, same.stack⟩
  tick same := ⟨same.taskList, same.refs, same.id, same.stack⟩
  move {k rsp old new j} _ _ same :=
    have moved :=
      same.modifyTask (t := old) (f := fun task => { task with kernelRsp := rsp }) rfl rfl
    ⟨moved.taskList, moved.refs, moved.id, moved.stack⟩
  kill _ same := same.modifyTask rfl rfl
  post _ same := by
    unfold postInitMailbox
    split
    · exact same
    · exact ⟨same.taskList, same.refs, same.id, same.stack⟩
  call _ _ call same := by
    cases call with
    | idle | sendFault => exact same
    | print | regService | recv | recvFault =>
      exact ⟨same.taskList, same.refs, same.id, same.stack⟩
    | setPriority | exit => exact same.modifyTask rfl rfl
    | send => exact same.fixed (fixed_deliver _ _)
  user _ same := ⟨same.taskList, same.refs, same.id, same.stack⟩
  spawn {k k' top} _ same run := by
    obtain ⟨-, q, -, rfl⟩ := spawnStatic_cases run
    have old : ∀ t < k0.nextRef, (k.spawned top q).task t = k.task t :=
      fun t ht => newTask_task top (Nat.lt_of_lt_of_le ht same.refs)
    refine ⟨same.taskList, same.refs.trans (Nat.le_succ _), fun t ht => ?_, fun t ht => ?_⟩
    · rw [old t ht, same.id t ht]
    · rw [old t ht, same.stack t ht]

theorem Sound.sameTasks {e : Event} (sound : k.Sound) (step : k.Step e k') : SameTasks k k' :=
  sameTasks_keeps.step sound (.refl k) trivial step

end Kernel

end Microkernel
