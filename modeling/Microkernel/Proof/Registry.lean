import Microkernel.Proof.Handover

/-! Which tasks the system calls can find.  They look a task up in `TASK_REGISTRY`, which only
`Executor::spawn` fills; the scheduler reads `TASK_LIST`, which `kernel_main` fills.  No run brings
a process of the list into the registry. -/

namespace Microkernel

open Lib

namespace Kernel

open Sys

variable {k k' : Kernel} {p : TaskRef}

/-- The scheduler and the system calls agree on process `p`, which runs: `SYS_EXIT` terminates it
for the scheduler, which then goes to another process when one is ready, `SYS_SET_PRIORITY` sets the
priority that the scheduler uses for it, and `SYS_SEND` finds it. -/
structure Agrees (k : Kernel) (p : TaskRef) : Prop where
  exit : ∀ arg1 arg2, ∃ value k', (handleSyscall 2 arg1 arg2).run k = .done value k' ∧
    (k'.task p).state = .terminated ∧
    ∀ w rsp force r after, k'.readyAt w → k'.scheduleNext rsp force = .ok (r, after) →
      ¬ after.Current p
  setPriority : ∀ n arg2, ∃ k', (handleSyscall 13 n arg2).run k = .done 0 k' ∧
    (k'.task p).priority = n
  send : ∀ arg2, 0x20000000 ≤ arg2 → k.Readable arg2 40 → ∃ value k',
    (handleSyscall 10 (k.task p).id.val arg2).run k = .done value k' ∧ value ≠ 1

/-- A search for a ready process does not end at the current one, if that is terminated. -/
theorem terminated_not_selected {rsp r : UInt64} {force : Bool} {w : Nat} (sound : k.Sound)
    (cur : k.Current p) (dead : (k.task p).state = .terminated) (ready : k.readyAt w)
    (run : k.scheduleNext rsp force = .ok (r, k')) : ¬ k'.Current p := by
  rcases scheduleNext_cases sound.taskList_free cur run with
    ⟨stays, -, -⟩ | ⟨-, new, selected, -, rfl⟩
  · exact absurd ⟨.inr (.inl dead), .inr dead⟩ stays
  · intro again
    obtain ⟨t, here, alive⟩ := readyAt_iff.mp (nextIdx_ready cur ready)
    have same : t = p := Option.some.inj (here.symm.trans again)
    rw [same, dead] at alive
    cases alive

theorem exit_agrees (sound : k.Sound) (cur : k.Current p)
    (found : k.taskRegistry ⟨k.currentTaskId⟩ = some p) (arg1 arg2 : UInt64) :
    ∃ value k', (handleSyscall 2 arg1 arg2).run k = .done value k' ∧
      (k'.task p).state = .terminated ∧
      ∀ w rsp force r after, k'.readyAt w → k'.scheduleNext rsp force = .ok (r, after) →
        ¬ after.Current p := by
  have call : (handleSyscall 2 arg1 arg2).run k = .done 0 (k.setState p .terminated) := by
    have result := sysExit_eq sound.quiet
    rw [found] at result
    exact result
  have dead : ((k.setState p .terminated).task p).state = .terminated := by simp [setState]
  exact ⟨0, _, call, dead, fun w rsp force r after ready run =>
    terminated_not_selected (sound.kill p) cur dead ready run⟩

/-- The two tables agree on a process exactly when the registry holds it under its identifier. -/
theorem agrees_iff (sound : k.Sound) (cur : k.Current p)
    (own : k.currentTaskId = (k.task p).id.val) :
    k.Agrees p ↔ k.taskRegistry (k.task p).id = some p := by
  have lookup : k.taskRegistry ⟨k.currentTaskId⟩ = k.taskRegistry (k.task p).id := by rw [own]
  constructor
  · intro agrees
    obtain ⟨k', call, changed⟩ := agrees.setPriority ((k.task p).priority + 1) 0
    change (sysSetPriority ((k.task p).priority + 1)).run k = _ at call
    rw [sysSetPriority_eq sound.quiet, lookup] at call
    cases found : k.taskRegistry (k.task p).id with
    | none =>
      rw [found] at call
      cases call
    | some t =>
      rw [found] at call
      cases call
      by_cases same : t = p
      · rw [same]
      · rw [modifyTask_task_ne k _ (Ne.symm same)] at changed
        have next := congrArg UInt64.toNat changed
        simp only [UInt64.toNat_add, UInt64.reduceToNat] at next
        omega
  · intro found
    have registered := lookup.trans found
    refine ⟨exit_agrees sound cur registered, fun n arg2 => ?_, fun arg2 high readable => ?_⟩
    · have result := sysSetPriority_eq sound.quiet n
      rw [registered] at result
      exact ⟨_, result, by simp⟩
    · have result := sysSend_eq sound.quiet (k.task p).id.val arg2
      rw [if_neg (UInt64.not_lt.mpr high), if_pos readable,
        show k.taskRegistry ⟨(k.task p).id.val⟩ = some p from found] at result
      exact ⟨0, _, result, by decide⟩

/-! ### What is registered -/

/-- No process of the task list is in the registry. -/
def Unlisted (k : Kernel) : Prop := ∀ id t, k.taskRegistry id = some t → t ∉ k.taskList

theorem Unlisted.congr (unlisted : k.Unlisted) (registry : k'.taskRegistry = k.taskRegistry)
    (list : k'.taskList = k.taskList) : k'.Unlisted := by
  intro id t found
  rw [registry] at found
  rw [list]
  exact unlisted id t found

theorem Unlisted.finish (unlisted : k.Unlisted) (id : TaskId) : (k.finishTask id).Unlisted := by
  intro other t found
  change Function.update k.taskRegistry id none other = some t at found
  by_cases same : other = id
  · rw [same, Function.update_self] at found
    cases found
  · rw [Function.update_of_ne same] at found
    exact unlisted other t found

theorem Unlisted.spawnStatic {top : UInt64} (unlisted : k.Unlisted) (sound : k.Sound)
    (run : k.spawnStatic top = .ok k') : k'.Unlisted := by
  obtain ⟨-, q, -, rfl⟩ := spawnStatic_cases run
  intro id t found
  change Function.update k.taskRegistry ⟨k.nextId⟩ (some k.nextRef) id = some t at found
  by_cases new : id = ⟨k.nextId⟩
  · rw [new, Function.update_self] at found
    cases found
    intro listed
    exact absurd (sound.processes k.nextRef listed) (Nat.lt_irrefl _)
  · rw [Function.update_of_ne new] at found
    exact unlisted id t found

theorem unlisted_polls : PollKeeps Unlisted where
  wake _ unlisted := unlisted.congr rfl rfl
  receive t cx unlisted := by
    refine unlisted.congr ?_ (congrArg Fixed.taskList (fixed_ipcReceivePoll t cx))
    unfold ipcReceivePoll
    split <;> rfl
  current _ unlisted := unlisted.congr rfl rfl
  cache _ unlisted := unlisted.congr rfl rfl
  finish id unlisted := unlisted.finish id
  polled _ unlisted := unlisted.congr rfl rfl
  dropped _ _ unlisted := unlisted.congr rfl rfl
  drained unlisted := unlisted.congr rfl rfl
  pop _ unlisted := unlisted.congr rfl rfl

theorem awaken_taskRegistry (t : TaskRef) : (k.awaken t).taskRegistry = k.taskRegistry := by
  unfold awaken
  split
  · split <;> rfl
  · rfl

theorem unlisted_keeps : StepKeeps (fun _ _ => True) Unlisted where
  executor := unlisted_polls.executor fun _ unlisted => unlisted.congr rfl rfl
  tick unlisted := unlisted.congr rfl rfl
  move _ _ unlisted := unlisted.congr rfl rfl
  kill _ unlisted := unlisted.congr rfl rfl
  post _ unlisted := by
    unfold postInitMailbox
    split
    · exact unlisted
    · exact unlisted.congr rfl rfl
  call {k id arg1 arg2 rsp o} _ _ call unlisted := by
    cases call with
    | idle | sendFault => exact unlisted
    | print | regService | recv | recvFault | setPriority | exit => exact unlisted.congr rfl rfl
    | @send t _ =>
      refine unlisted.congr ?_ (congrArg Fixed.taskList (fixed_deliver t (k.messageAt arg2)))
      exact awaken_taskRegistry (k := k.putMailbox t (k.messageAt arg2)) t
  user _ unlisted := unlisted.congr rfl rfl
  spawn sound unlisted run := unlisted.spawnStatic sound run

/-- `kernel_main` registers the monitor task only. -/
theorem kernelMain_unlisted {images : List Image} {monitorStackTop : UInt64} {mem : Memory}
    {pages : UInt64 → Option PageFlags}
    (run : kernelMain images monitorStackTop mem pages = .ok k) : k.Unlisted := by
  obtain ⟨k1, q, image, created, -, -, -, rfl⟩ := kernelMain_eq run
  intro id t found
  change Function.update k1.taskRegistry ⟨k1.nextId⟩ (some k1.nextRef) id = some t at found
  by_cases new : id = ⟨k1.nextId⟩
  · rw [new, Function.update_self] at found
    cases found
    change k1.nextRef ∉ k1.taskList
    rw [created.taskList, created.nextRef]
    exact List.not_mem_range_self
  · rw [Function.update_of_ne new, created.registry] at found
    cases found

/-- In no state of any run from boot do the two tables agree on the process that runs, even under
its own identifier: the registry holds no process of the task list. -/
theorem processes_unregistered {images : List Image} {monitorStackTop : UInt64} {mem : Memory}
    {pages : UInt64 → Option PageFlags} {k0 : Kernel} {es : List Event}
    (boot : kernelMain images monitorStackTop mem pages = .ok k0) (run : Run Step k0 es k)
    (cur : k.Current p) (own : k.currentTaskId = (k.task p).id.val) :
    (∀ id, k.taskRegistry id ≠ some p) ∧ ¬ k.Agrees p := by
  have sound0 := (kernelMain_rested boot).sound
  have guarded : Run (Guarded (fun _ _ => True) Step) k0 es k :=
    run.mono fun _ _ _ step => ⟨trivial, step⟩
  have unlisted := unlisted_keeps.run sound0 (kernelMain_unlisted boot) guarded
  have absent : ∀ id, k.taskRegistry id ≠ some p := fun id found => unlisted id p found cur.mem
  exact ⟨absent, fun agrees => absent _ ((agrees_iff (sound0.run run) cur own).mp agrees)⟩

/-- The first process, just after boot. -/
theorem processes_unregistered_first : ∃ k0, heapBoot = .ok k0 ∧ k0.Current 0 ∧
    (∀ id, k0.taskRegistry id ≠ some 0) ∧ ¬ k0.Agrees 0 := by
  have evaluated : ∃ k0, heapBoot = .ok k0 ∧ k0.Current 0 ∧
      k0.currentTaskId = (k0.task 0).id.val := ⟨_, rfl, rfl, rfl⟩
  obtain ⟨k0, boot, cur, own⟩ := evaluated
  exact ⟨k0, boot, cur, processes_unregistered boot .nil cur own⟩

/-- Just after boot `SYS_SET_PRIORITY` of the first process fails. -/
theorem setPriority_refused : ∃ k0 k', heapBoot = .ok k0 ∧ k0.Current 0 ∧
    k0.currentTaskId = (k0.task 0).id.val ∧ (handleSyscall 13 1 0).run k0 = .done 1 k' ∧
    (k'.task 0).priority = 5 ∧ ¬ k0.Agrees 0 := by
  have evaluated : ∃ k0 k', heapBoot = .ok k0 ∧ k0.Current 0 ∧
      k0.currentTaskId = (k0.task 0).id.val ∧ (handleSyscall 13 1 0).run k0 = .done 1 k' ∧
      (k'.task 0).priority = 5 := ⟨_, _, rfl, rfl, rfl, rfl, rfl⟩
  obtain ⟨k0, k', boot, cur, own, call, kept⟩ := evaluated
  refine ⟨k0, k', boot, cur, own, call, kept, fun agrees => ?_⟩
  obtain ⟨after, accepted, -⟩ := agrees.setPriority 1 0
  rw [call] at accepted
  cases accepted

end Kernel

end Microkernel
