import Microkernel.Proof.Handover

/-! Whose identifier is in `CURRENT_TASK_ID` when a handler returns to user code.  The executor
stores 0 there whenever it has run, and only a move of the scheduler stores the identifier of a
process again. -/

namespace Microkernel

open Lib

namespace Kernel

variable {k k' : Kernel} {rsp r : UInt64} {old new : TaskRef} {scripts : List PollScript}

/-- `CURRENT_TASK_ID` is the identifier of the process that `CURRENT_TASK_IDX` names. -/
def Coherent (k : Kernel) : Prop := ∃ t, k.Current t ∧ k.currentTaskId = (k.task t).id.val

def Named (k : Kernel) : Prop := ∀ t ∈ k.taskList, (k.task t).id.val ≠ 0

/-- `schedule_next`, called by the timer, leaves process `t` for another one or for itself. -/
def Leaves (k : Kernel) (t : TaskRef) : Prop :=
  (k.task t).state = .terminated ∨
    k.SliceOver t ∧
      ((∃ j, j ≠ k.currentTaskIdx ∧ k.readyAt j) ∨
        (¬ k.readyAt k.currentTaskIdx ∧ 2 ≤ k.taskList.length))

/-- The condition under which an event leaves `CURRENT_TASK_ID` as it should be: a tick makes the
processor leave the current process once the kernel tasks have run, and no other interrupt runs
them. -/
def KeepsIdentity (k : Kernel) : Event → Prop
  | .timer scripts _ => ∀ polled t, k.pollKernelTasks scripts = .ok polled → k.Current t →
      Leaves { polled with tickCount := polled.tickCount + 1 } t
  | .keyboard _ _ _ | .serial _ _ _ | .pollTasks _ => k.isHeld .kernelExecutor
  | _ => True

theorem leaves_iff (cur : k.Current old) : k.Leaves old ↔ k.Moves false old := by
  rw [Leaves, ← nextIdx_ne_iff cur, Moves, Searches]
  constructor
  · rintro (dead | ⟨ends, elsewhere⟩)
    · exact ⟨.inr (.inl dead), .inr dead⟩
    · exact ⟨.inl ends, .inl elsewhere⟩
  · rintro ⟨ends | dead | absurd, elsewhere | dead'⟩
    · exact .inr ⟨ends, elsewhere⟩
    · exact .inl dead'
    · exact .inl dead
    · exact .inl dead
    · cases absurd
    · exact .inl dead'

theorem Named.sameTasks (named : k.Named) (sound : k.Sound) (same : SameTasks k k') :
    k'.Named := by
  intro t ht
  rw [same.taskList] at ht
  rw [same.id t (sound.processes t ht)]
  exact named t ht

theorem not_coherent (named : k.Named) (idle : k.currentTaskId = 0) : ¬ k.Coherent := by
  rintro ⟨t, cur, same⟩
  exact named t cur.mem (same.symm.trans idle)

theorem movedTo_coherent {j : Nat} (selected : k.taskList[j]? = some new) :
    (k.movedTo rsp old new j).Coherent := by
  refine ⟨new, selected, ?_⟩
  rw [movedTo_keeps Task.id fun _ => rfl]
  rfl

/-- The identity is kept by what keeps the place in the task list and `CURRENT_TASK_ID`. -/
theorem Coherent.sameTasks (coherent : k.Coherent) (sound : k.Sound) (same : SameTasks k k')
    (idx : k'.currentTaskIdx = k.currentTaskIdx) (id : k'.currentTaskId = k.currentTaskId) :
    k'.Coherent := by
  obtain ⟨t, cur, eq⟩ := coherent
  refine ⟨t, ?_, ?_⟩
  · rw [Current, same.taskList, idx]
    exact cur
  · rw [id, same.id t (sound.processes t cur.mem), eq]

theorem polled_idle (sound : k.Sound) (run : k.pollKernelTasks scripts = .ok k') :
    k'.currentTaskId = 0 := by
  rcases pollKernelTasks_cases run with ⟨locked, -⟩ | ⟨-, after, ran, rfl⟩
  · rw [sound.quiet.free (by decide)] at locked
    cases locked
  · obtain ⟨-, idle, -⟩ := runReadyTasks_drained ran
    exact idle

/-- A fault handler leaves the processor with a process that runs under its own identifier. -/
theorem faultHandlerInner_coherent (sound : k.Sound)
    (run : k.faultHandlerInner rsp = .ok (r, k')) : k'.Coherent := by
  obtain ⟨t, cur⟩ := sound.current
  have scheduled := faultHandlerInner_cases sound cur run
  have dead : ((k.setState t .terminated).task t).state = .terminated := by simp [setState]
  rcases scheduleNext_cases (sound.kill t).taskList_free cur scheduled with
    ⟨stays, -, -⟩ | ⟨-, new, selected, -, rfl⟩
  · exact absurd ⟨.inr (.inl dead), .inr dead⟩ stays
  · exact movedTo_coherent selected

theorem call_identity {arg1 arg2 id : UInt64} {o : Outcome UInt64} (call : Call k arg1 arg2 id o) :
    o.Ends fun k' => k'.currentTaskIdx = k.currentTaskIdx ∧ k'.currentTaskId = k.currentTaskId := by
  cases call with
  | idle | sendFault | print | regService | recv | recvFault | setPriority | exit =>
    exact ⟨rfl, rfl⟩
  | @send t =>
    refine ⟨congrArg Fixed.currentTaskIdx (fixed_deliver t _), ?_⟩
    unfold deliver awaken
    split
    · split <;> rfl
    · rfl

/-- After one event from a coherent state, the state is coherent exactly when the event meets the
condition. -/
theorem coherent_step {e : Event} (sound : k.Sound) (named : k.Named) (coherent : k.Coherent)
    (step : k.Step e k') : k'.Coherent ↔ k.KeepsIdentity e := by
  have same := sound.sameTasks step
  have named' := named.sameTasks sound same
  have unlocked : k.isHeld .kernelExecutor = false := sound.quiet.free (by decide)
  have polled_out : ∀ {k1 : Kernel} {scripts}, k1.Sound → k1.pollKernelTasks scripts = .ok k' →
      (k'.Coherent ↔ k.isHeld .kernelExecutor) := by
    intro k1 scripts sound1 ran
    simp [unlocked, not_coherent named' (polled_idle sound1 ran)]
  obtain ⟨out, run⟩ := step
  cases step_happens sound run with
  | @timer scripts rsp r polled _ ran scheduled =>
    have sound1 := (sound.fixed (fixed_pollKernelTasks ran)).tick
    obtain ⟨t, cur⟩ := sound.current
    have cur1 := cur.polled ran
    have condition : k.KeepsIdentity (.timer scripts rsp) ↔
        Moves { polled with tickCount := polled.tickCount + 1 } false t := by
      rw [← leaves_iff cur1]
      constructor
      · intro keeps
        exact keeps polled t ran cur
      · intro leaves polled' t' ran' cur'
        rw [ran] at ran'
        cases ran'
        rw [cur.unique cur']
        exact leaves
    rw [condition]
    rcases scheduleNext_cases sound1.taskList_free cur1 scheduled with
      ⟨stays, -, rfl⟩ | ⟨moves, new, selected, -, rfl⟩
    · simp only [stays, iff_false]
      have idle : polled.currentTaskId = 0 := polled_idle sound ran
      exact not_coherent named' idle
    · simp only [moves, iff_true]
      exact movedTo_coherent selected
  | keyboard ran | serial ran => exact polled_out (sound.postInitMailbox _) ran
  | pollTasks ran => exact polled_out sound ran
  | gpf handled | pageFault handled =>
    exact iff_of_true (faultHandlerInner_coherent sound handled) trivial
  | returned call =>
    obtain ⟨idx, kept⟩ := call_identity call
    exact iff_of_true (coherent.sameTasks sound same idx kept) trivial
  | killed call handled =>
    exact iff_of_true (faultHandlerInner_coherent (call.sound sound) handled) trivial
  | userWrites f => exact iff_of_true (coherent.sameTasks sound same rfl rfl) trivial
  | spawn spawned =>
    obtain ⟨-, q, -, rfl⟩ := spawnStatic_cases spawned
    exact iff_of_true (coherent.sameTasks sound same rfl rfl) trivial
  | wake id => exact iff_of_true (coherent.sameTasks sound same rfl rfl) trivial
  | receive t cx =>
    have kept : (k.ipcReceivePoll t cx).2.currentTaskId = k.currentTaskId := by
      unfold ipcReceivePoll
      split <;> rfl
    have idx := congrArg Fixed.currentTaskIdx (fixed_ipcReceivePoll (k := k) t cx)
    exact iff_of_true (coherent.sameTasks sound same idx kept) trivial

/-- In a run from boot whose events all meet the condition, the process that runs is the one that
`CURRENT_TASK_ID` names, and so it is after one more event exactly when that meets it too. -/
theorem identity_coherent {k0 : Kernel} {es : List Event} (booted : k0.Booted)
    (run : Run (Guarded KeepsIdentity Step) k0 es k) :
    k.Coherent ∧ ∀ e k', k.Step e k' → (k'.Coherent ↔ k.KeepsIdentity e) := by
  have all : k.Sound ∧ k.Named ∧ k.Coherent := by
    refine run.invariant (I := fun k => k.Sound ∧ k.Named ∧ k.Coherent)
      ⟨booted.sound, booted.named, booted.identity⟩ ?_
    rintro a e b ⟨sound, named, coherent⟩ ⟨keeps, step⟩
    exact ⟨sound.step step, named.sameTasks sound (sound.sameTasks step),
      (coherent_step sound named coherent step).mpr keeps⟩
  obtain ⟨sound, named, coherent⟩ := all
  exact ⟨coherent, fun e k' step => coherent_step sound named coherent step⟩

/-- The first process faults, and the second one runs under its own identifier. -/
theorem identity_coherent_fault : ∃ k0 k, heapBoot = .ok k0 ∧
    Run (Guarded KeepsIdentity Step) k0 [.gpf 0x444444447f58] k ∧ k.Coherent := by
  have evaluated : ∃ k0 k, heapBoot = .ok k0 ∧ k0.Step (.gpf 0x444444447f58) k :=
    ⟨_, _, rfl, ⟨_, rfl⟩⟩
  obtain ⟨k0, k, boot, step⟩ := evaluated
  have run : Run (Guarded KeepsIdentity Step) k0 [.gpf 0x444444447f58] k :=
    .single ⟨trivial, step⟩
  exact ⟨k0, k, boot, run, (identity_coherent (heapBoot_booted boot) run).1⟩

/-- The first tick after boot leaves the first process running under identifier 0. -/
theorem identity_lost : ∃ k0 k, heapBoot = .ok k0 ∧ k0.Booted ∧
    Run Step k0 [.timer [.ready] 0x444444447f60] k ∧ ¬ k.Coherent := by
  have evaluated : ∃ k0 k, heapBoot = .ok k0 ∧
      k0.Step (.timer [.ready] 0x444444447f60) k ∧ k.currentTaskId = 0 :=
    ⟨_, _, rfl, ⟨_, rfl⟩, rfl⟩
  obtain ⟨k0, k, boot, step, idle⟩ := evaluated
  have booted := heapBoot_booted boot
  have named0 : k0.Named := booted.named
  have named := named0.sameTasks booted.sound (booted.sound.sameTasks step)
  exact ⟨k0, k, boot, booted, .single step, not_coherent named idle⟩

end Kernel

end Microkernel
