import Microkernel.Proof.Moments
import Microkernel.Proof.Registry

/-! Whether a task that is terminated stays so.  `SYS_SEND` looks at the state of its target before
it makes it `Ready`; `IpcReceiveFuture` makes its task `Ready` or `Blocked` whatever its state is.
So a task stays terminated until a future that receives for it is polled. -/

namespace Microkernel

open Lib

namespace Kernel

variable {k k' : Kernel} {t u : TaskRef} {rs rs' : List TaskRef} {scripts : List PollScript}

/-! ### The futures that a step polls -/

/-- The task for which a future is polled at a moment. -/
def receivedAt : Moment → Option TaskRef
  | (.receive t _, _) => some t
  | _ => none

/-- The tasks for which the futures receive that an event polls. -/
def eventReceives (k : Kernel) : Event → List TaskRef
  | .timer scripts _ | .pollTasks scripts => (k.pollMoments scripts).filterMap receivedAt
  | .keyboard data scripts _ =>
    ((k.postInitMailbox (deviceMessage 2 data)).pollMoments scripts).filterMap receivedAt
  | .serial data scripts _ =>
    ((k.postInitMailbox (deviceMessage 3 data)).pollMoments scripts).filterMap receivedAt
  | .receive t _ => [t]
  | _ => []

/-- No future is polled that receives for a task that is terminated. -/
def SparesDead (k : Kernel) (e : Event) : Prop :=
  ∀ t ∈ k.eventReceives e, t < k.nextRef → (k.task t).state ≠ .terminated

/-! ### What they do to the state of a task -/

/-- Task `u` is not terminated if it is one of `rs`; otherwise its state is as before. -/
def StateAfter (u : TaskRef) (rs : List TaskRef) (k k' : Kernel) : Prop :=
  if u ∈ rs then (k'.task u).state ≠ .terminated else (k'.task u).state = (k.task u).state

theorem StateAfter.same (same : (k'.task u).state = (k.task u).state) : StateAfter u [] k k' := by
  rw [StateAfter, if_neg List.not_mem_nil]
  exact same

theorem StateAfter.trans {mid : Kernel} (first : StateAfter u rs k mid)
    (second : StateAfter u rs' mid k') : StateAfter u (rs ++ rs') k k' := by
  unfold StateAfter at *
  by_cases later : u ∈ rs'
  · rw [if_pos later] at second
    rw [if_pos (List.mem_append_right rs later)]
    exact second
  · rw [if_neg later] at second
    rw [second]
    simpa only [List.mem_append, later, or_false] using first

theorem StateAfter.terminated (after : StateAfter u rs k k')
    (dead : (k.task u).state = .terminated) : (k'.task u).state = .terminated ↔ u ∉ rs := by
  unfold StateAfter at after
  by_cases received : u ∈ rs
  · rw [if_pos received] at after
    exact iff_of_false after (not_not.mpr received)
  · rw [if_neg received] at after
    exact iff_of_true (after.trans dead) received

theorem receive_stateAfter (t : TaskRef) (cx : TaskWaker) :
    StateAfter u [t] k (k.ipcReceivePoll t cx).2 := by
  have changed : ∃ f : Task → Task, (k.ipcReceivePoll t cx).2.task = (k.modifyTask t f).task ∧
      (f (k.task t)).state ≠ .terminated := by
    unfold ipcReceivePoll
    split
    · exact ⟨fun task => { task with mailbox := none, state := .ready }, rfl, by simp⟩
    · exact ⟨fun task => { task with waker := some cx, state := .blocked }, rfl, by simp⟩
  obtain ⟨f, same, alive⟩ := changed
  rw [StateAfter, same]
  by_cases this : u = t
  · subst this
    rw [if_pos List.mem_cons_self, modifyTask_task_self]
    exact alive
  · rw [if_neg (by simpa using this), modifyTask_task_ne k f this]

theorem stateAfter_traces :
    Traces fun ms k k' => StateAfter u (ms.filterMap receivedAt) k k' where
  trans first second := by
    rw [List.filterMap_append]
    exact first.trans second
  ready _ := .same rfl
  pending _ := .same rfl
  wake _ _ _ := .same rfl
  receive _ t _ cx := receive_stateAfter t cx
  current _ _ := .same rfl
  cache _ _ := .same rfl
  finish _ _ := .same rfl
  observe _ _ := .same rfl
  pop _ := .same rfl

theorem pollKernelTasks_stateAfter (run : k.pollKernelTasks scripts = .ok k') :
    StateAfter u ((k.pollMoments scripts).filterMap receivedAt) k k' := by
  unfold pollMoments
  rcases pollKernelTasks_cases run with ⟨locked, rfl⟩ | ⟨free, after, ran, rfl⟩
  · rw [if_pos locked]
    exact .same rfl
  · rw [if_neg (by simp [free])]
    have states := stateAfter_traces.runReadyTasks (R := fun ms k k' =>
      StateAfter u (ms.filterMap receivedAt) k k') (isHeld_acquire executorGuard) ran
    exact states

/-! ### Every step -/

theorem scheduleNext_state {rsp r : UInt64} {force : Bool} (sound : k.Sound)
    (run : k.scheduleNext rsp force = .ok (r, k')) : (k'.task u).state = (k.task u).state := by
  obtain ⟨old, cur⟩ := sound.current
  rcases scheduleNext_cases sound.taskList_free cur run with ⟨-, -, rfl⟩ | ⟨-, new, -, -, rfl⟩
  · rfl
  · exact movedTo_keeps Task.state fun _ => rfl

theorem setState_terminated (dead : (k.task u).state = .terminated) :
    ((k.setState t .terminated).task u).state = .terminated := by
  by_cases same : u = t
  · subst same
    simp [setState]
  · rw [setState, modifyTask_task_ne k _ same]
    exact dead

theorem faultHandlerInner_terminated {rsp r : UInt64} (sound : k.Sound)
    (run : k.faultHandlerInner rsp = .ok (r, k')) (dead : (k.task u).state = .terminated) :
    (k'.task u).state = .terminated := by
  obtain ⟨t, cur⟩ := sound.current
  rw [scheduleNext_state (sound.kill t) (faultHandlerInner_cases sound cur run)]
  exact setState_terminated dead

/-- A send wakes its target only if that is blocked. -/
theorem deliver_terminated {msg : Message} (dead : (k.task u).state = .terminated) :
    ((k.deliver t msg).task u).state = .terminated := by
  have put := (putMailbox_state (k := k) t u msg).trans dead
  by_cases blocked : ((k.putMailbox t msg).task t).state = .blocked
  · have ne : u ≠ t := by
      rintro rfl
      rw [put] at blocked
      cases blocked
    show ((Kernel.awaken _ t).task u).state = .terminated
    rw [awaken, if_pos blocked]
    have readied : ((k.putMailbox t msg).setState t .ready).task u = (k.putMailbox t msg).task u :=
      modifyTask_task_ne _ _ ne
    split
    · have cleared := modifyTask_task_ne ((k.putMailbox t msg).setState t .ready)
        (fun task => { task with waker := none }) ne
      exact (congrArg Task.state (cleared.trans readied)).trans put
    · exact (congrArg Task.state readied).trans put
  · show ((Kernel.awaken _ t).task u).state = .terminated
    rw [awaken, if_neg blocked]
    exact put

theorem call_terminated {id arg1 arg2 : UInt64} {o : Outcome UInt64} (call : Call k arg1 arg2 id o)
    (dead : (k.task u).state = .terminated) :
    o.Ends fun k' => (k'.task u).state = .terminated := by
  cases call with
  | idle | sendFault | print | regService | recv | recvFault => exact dead
  | exit => exact setState_terminated dead
  | send => exact deliver_terminated dead
  | @setPriority t =>
    refine Eq.trans ?_ dead
    exact modifyTask_keeps (f := fun task => { task with priority := arg1 }) Task.state rfl u

/-- A task that is terminated stays so in a step exactly when no future that receives for it is
polled. -/
theorem terminated_step {e : Event} (sound : k.Sound) (inUse : t < k.nextRef)
    (dead : (k.task t).state = .terminated) (step : k.Step e k') :
    (k'.task t).state = .terminated ↔ t ∉ k.eventReceives e := by
  have alone : (k'.task t).state = .terminated → k.eventReceives e = [] →
      ((k'.task t).state = .terminated ↔ t ∉ k.eventReceives e) := by
    intro still none_polled
    rw [none_polled]
    exact iff_of_true still List.not_mem_nil
  have posted : ∀ m, ((k.postInitMailbox m).task t).state = .terminated := by
    intro m
    unfold postInitMailbox
    split
    · exact dead
    · exact dead
  obtain ⟨out, run⟩ := step
  cases step_happens sound run with
  | timer ran scheduled =>
    rw [scheduleNext_state (sound.fixed (fixed_pollKernelTasks ran)).tick scheduled]
    exact (pollKernelTasks_stateAfter ran).terminated dead
  | keyboard ran | serial ran => exact (pollKernelTasks_stateAfter ran).terminated (posted _)
  | gpf handled | pageFault handled =>
    exact alone (faultHandlerInner_terminated sound handled dead) rfl
  | returned call => exact alone (call_terminated call dead) rfl
  | killed call handled =>
    have before := call_terminated call dead
    exact alone (faultHandlerInner_terminated (call.sound sound) handled before) rfl
  | userWrites f => exact alone dead rfl
  | spawn spawned =>
    obtain ⟨-, q, -, rfl⟩ := spawnStatic_cases spawned
    refine alone ?_ rfl
    show (((k.newTask _).2.task t)).state = .terminated
    rw [newTask_task _ inUse]
    exact dead
  | wake id => exact alone dead rfl
  | receive u cx => exact (receive_stateAfter u cx).terminated dead
  | pollTasks ran => exact (pollKernelTasks_stateAfter ran).terminated dead

/-- While some process is `Ready`, `schedule_next` ends at no process that is terminated. -/
theorem dead_not_selected {rsp r : UInt64} {force : Bool} {w : Nat} (sound : k.Sound)
    (dead : (k.task t).state = .terminated) (ready : k.readyAt w)
    (run : k.scheduleNext rsp force = .ok (r, k')) : ¬ k'.Current t := by
  obtain ⟨old, cur⟩ := sound.current
  by_cases same : t = old
  · subst same
    exact terminated_not_selected sound cur dead ready run
  · rcases scheduleNext_cases sound.taskList_free cur run with
      ⟨-, -, rfl⟩ | ⟨-, new, selected, -, rfl⟩
    · exact fun again => same (cur.unique again)
    · intro again
      obtain ⟨v, here, alive⟩ := readyAt_iff.mp (nextIdx_ready cur ready)
      rw [Option.some.inj (here.symm.trans again), dead] at alive
      cases alive

/-- In a run in which no future is polled that receives for a terminated task, a task that is
terminated stays so, and the scheduler does not select it while another one is `Ready`.  After such
a run every terminated task stays so for one more step exactly when that step polls no such
future. -/
theorem terminated_final {k0 : Kernel} {es : List Event} (sound : k0.Sound)
    (run : Run (Guarded SparesDead Step) k0 es k) :
    (∀ t < k0.nextRef, (k0.task t).state = .terminated → (k.task t).state = .terminated ∧
      ∀ w rsp force r after, k.readyAt w → k.scheduleNext rsp force = .ok (r, after) →
        ¬ after.Current t) ∧
    ∀ e k', k.Step e k' →
      ((∀ t < k.nextRef, (k.task t).state = .terminated → (k'.task t).state = .terminated) ↔
        k.SparesDead e) := by
  have all : k.Sound ∧ k0.nextRef ≤ k.nextRef ∧
      ∀ t < k0.nextRef, (k0.task t).state = .terminated → (k.task t).state = .terminated := by
    refine run.invariant (I := fun k => k.Sound ∧ k0.nextRef ≤ k.nextRef ∧
      ∀ t < k0.nextRef, (k0.task t).state = .terminated → (k.task t).state = .terminated)
      ⟨sound, Nat.le_refl _, fun _ _ dead => dead⟩ ?_
    rintro a e b ⟨sound, refs, dead⟩ ⟨spares, step⟩
    refine ⟨sound.step step, refs.trans (sound.sameTasks step).refs, fun t inUse was => ?_⟩
    have inUse' := Nat.lt_of_lt_of_le inUse refs
    refine (terminated_step sound inUse' (dead t inUse was) step).mpr fun received => ?_
    exact spares t received inUse' (dead t inUse was)
  obtain ⟨sound', -, dead⟩ := all
  refine ⟨fun t inUse was => ⟨dead t inUse was, fun w rsp force r after ready scheduled => ?_⟩,
    fun e k' step => ⟨fun final t received inUse was => ?_, fun spares t inUse was => ?_⟩⟩
  · exact dead_not_selected sound' (dead t inUse was) ready scheduled
  · exact (terminated_step sound' inUse was step).mp (final t inUse was) received
  · exact (terminated_step sound' inUse was step).mpr fun received => spares t received inUse was

/-- The first process faults, and then the monitor task is polled. -/
theorem terminated_final_fault : ∃ k0 k1 k2, heapBoot = .ok k0 ∧
    k0.Step (.gpf 0x444444447f58) k1 ∧ k1.Step (.timer [.ready] 0x44444444ff60) k2 ∧
    (k1.task 0).state = .terminated ∧ (k2.task 0).state = .terminated := by
  have evaluated : ∃ k0 k1 k2, heapBoot = .ok k0 ∧ k0.Step (.gpf 0x444444447f58) k1 ∧
      k1.Step (.timer [.ready] 0x44444444ff60) k2 ∧ 0 < k1.nextRef ∧
      (k1.task 0).state = .terminated ∧
      k1.eventReceives (.timer [.ready] 0x44444444ff60) = [] :=
    ⟨_, _, _, rfl, ⟨_, rfl⟩, ⟨_, rfl⟩, by decide, rfl, rfl⟩
  obtain ⟨k0, k1, k2, boot, fault, tick, inUse, dead, polled⟩ := evaluated
  have spares : k1.SparesDead (.timer [.ready] 0x44444444ff60) := by
    intro t received
    rw [polled] at received
    cases received
  have sound := (heapBoot_booted boot).sound.step fault
  have final := (terminated_final sound (.single ⟨spares, tick⟩)).1 0 inUse dead
  exact ⟨k0, k1, k2, boot, fault, tick, dead, final.1⟩

/-- The first process faults, and the monitor task then polls an `IpcReceiveFuture` for it. -/
theorem terminated_revived : ∃ k0 k1 k2, heapBoot = .ok k0 ∧
    k0.Step (.gpf 0x444444447f58) k1 ∧
    k1.Step (.timer [.receive 0 fun _ => .pending] 0x44444444ff60) k2 ∧
    (k1.task 0).state = .terminated ∧ (k2.task 0).state = .blocked :=
  ⟨_, _, _, rfl, ⟨_, rfl⟩, ⟨_, rfl⟩, rfl, rfl⟩

end Kernel

end Microkernel
