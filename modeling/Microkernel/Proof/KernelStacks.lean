import Microkernel.Entry
import Microkernel.Proof.Contexts
import Microkernel.Proof.Faults

/-! Where the contexts of the processes that do not run are saved.  An interrupt of user code leaves
its frame on the kernel stack of the process; an interrupt or a fault in a system call leaves it on
the stack of the caller, so that it must not make the scheduler leave the process. -/

namespace Microkernel

open Lib

/-- The frame of twenty words at `rsp` is on the kernel stack of the task. -/
def FrameOn (task : Task) (rsp : UInt64) : Prop := ∀ a, Memory.Within rsp 160 a → OnStack task a

theorem frameOn_congr {task task' : Task} (top : task'.kernelStackTop = task.kernelStackTop)
    {rsp : UInt64} : FrameOn task' rsp ↔ FrameOn task rsp := by
  simp only [FrameOn, Kernel.onStack_congr top]

namespace Kernel

variable {k k' : Kernel} {rsp r : UInt64} {force : Bool} {old : TaskRef}

/-- Every process that does not run is resumed from a frame on its own kernel stack. -/
def Stacked (k : Kernel) : Prop :=
  ∀ t ∈ k.taskList, ¬ k.Current t → FrameOn (k.task t) (k.task t).kernelRsp

/-- `schedule_next` leaves process `old` for another one. -/
def Departs (k : Kernel) (force : Bool) (old : TaskRef) : Prop :=
  k.Searches force old ∧ k.nextIdx ≠ k.currentTaskIdx

/-- The condition under which an event keeps the frames on the kernel stacks: when it makes the
scheduler leave the current process, its frame is on the kernel stack of that process. -/
def SavesOn (k : Kernel) : Event → Prop
  | .timer scripts rsp => ∀ polled t, k.pollKernelTasks scripts = .ok polled → k.Current t →
      Departs { polled with tickCount := polled.tickCount + 1 } false t → FrameOn (k.task t) rsp
  | .gpf rsp | .pageFault rsp =>
    2 ≤ k.taskList.length → ∀ t, k.Current t → FrameOn (k.task t) rsp
  | .syscall id arg1 arg2 rsp => (∃ mid, (handleSyscall id arg1 arg2).run k = .fault mid) →
      2 ≤ k.taskList.length → ∀ t, k.Current t → FrameOn (k.task t) rsp
  | _ => True

/-! ### Steps -/

/-- What leaves the list, the place in it and the saved stack pointers keeps the frames. -/
theorem Stacked.congr (stacked : k.Stacked) (list : k'.taskList = k.taskList)
    (idx : k'.currentTaskIdx = k.currentTaskIdx)
    (saved : ∀ t ∈ k.taskList, (k'.task t).kernelRsp = (k.task t).kernelRsp)
    (top : ∀ t ∈ k.taskList, (k'.task t).kernelStackTop = (k.task t).kernelStackTop) :
    k'.Stacked := by
  intro t listed elsewhere
  rw [list] at listed
  rw [Current, list, idx] at elsewhere
  rw [frameOn_congr (top t listed), saved t listed]
  exact stacked t listed elsewhere

theorem Stacked.fixed (stacked : k.Stacked) (same : k'.fixed = k.fixed) : k'.Stacked :=
  stacked.congr (congrArg Fixed.taskList same) (congrArg Fixed.currentTaskIdx same)
    (fun t _ => congrArg (fun f => (f.identity t).2.2.1) same)
    fun t _ => congrArg (fun f => (f.identity t).2.2.2) same

theorem Stacked.modifyTask (stacked : k.Stacked) {t : TaskRef} {f : Task → Task}
    (saved : ∀ task : Task, (f task).kernelRsp = task.kernelRsp)
    (top : ∀ task : Task, (f task).kernelStackTop = task.kernelStackTop) :
    (k.modifyTask t f).Stacked :=
  stacked.congr rfl rfl (fun u _ => modifyTask_keeps Task.kernelRsp (saved _) u)
    fun u _ => modifyTask_keeps Task.kernelStackTop (top _) u

/-- A move to another place saves the frame of the process that it leaves. -/
theorem movedTo_stacked {new : TaskRef} (nodup : k.taskList.Nodup) (cur : k.Current old)
    (stacked : k.Stacked) :
    (k.movedTo rsp old new k.nextIdx).Stacked ↔
      (k.nextIdx ≠ k.currentTaskIdx → FrameOn (k.task old) rsp) := by
  have top : ∀ t, ((k.movedTo rsp old new k.nextIdx).task t).kernelStackTop =
      (k.task t).kernelStackTop := fun t => movedTo_keeps Task.kernelStackTop fun _ => rfl
  have left : (k.movedTo rsp old new k.nextIdx).Current old ↔ k.nextIdx = k.currentTaskIdx := by
    constructor
    · intro again
      exact (cur.index nodup again).symm
    · intro same
      show k.taskList[k.nextIdx]? = some old
      rw [same]
      exact cur
  constructor
  · intro after elsewhere
    have frame := after old cur.mem fun again => elsewhere (left.mp again)
    rw [frameOn_congr (top old), movedTo_kernelRsp_self] at frame
    exact frame
  · intro own t listed away
    rw [frameOn_congr (top t)]
    by_cases same : t = old
    · subst same
      rw [movedTo_kernelRsp_self]
      exact own fun idx => away (left.mpr idx)
    · rw [movedTo_kernelRsp_ne same]
      exact stacked t listed fun here => same (cur.unique here)

theorem scheduleNext_stacked (sound : k.Sound) (nodup : k.taskList.Nodup) (cur : k.Current old)
    (stacked : k.Stacked) (run : k.scheduleNext rsp force = .ok (r, k')) :
    k'.Stacked ↔ (k.Departs force old → FrameOn (k.task old) rsp) := by
  rcases scheduleNext_cases sound.taskList_free cur run with
    ⟨stays, -, rfl⟩ | ⟨moves, new, selected, -, rfl⟩
  · exact iff_of_true stacked fun departs => absurd ⟨departs.1, .inl departs.2⟩ stays
  · rw [movedTo_stacked nodup cur stacked, Departs, and_iff_right moves.1]

/-- A fault leaves the process that it kills whenever there is another one. -/
theorem killed_departs (cur : k.Current old) :
    (k.setState old .terminated).Departs true old ↔ 2 ≤ k.taskList.length := by
  have cur' : (k.setState old .terminated).Current old := cur
  have dead : ¬ (k.setState old .terminated).readyAt k.currentTaskIdx := by
    rw [readyAt_iff]
    rintro ⟨t, here, alive⟩
    rw [cur.unique here] at alive
    simp [setState] at alive
  rw [Departs, and_iff_right (.inr (.inr rfl)), nextIdx_ne_iff cur']
  constructor
  · rintro (⟨j, ne, ready⟩ | ⟨-, many⟩)
    · have inside : j < k.taskList.length :=
        readyAt_lt (k := k.setState old .terminated) ready
      have here := cur.lt
      change j ≠ k.currentTaskIdx at ne
      omega
    · exact many
  · exact fun many => .inr ⟨dead, many⟩

theorem faultHandlerInner_stacked (sound : k.Sound) (nodup : k.taskList.Nodup)
    (stacked : k.Stacked) (run : k.faultHandlerInner rsp = .ok (r, k')) :
    k'.Stacked ↔ (2 ≤ k.taskList.length → ∀ t, k.Current t → FrameOn (k.task t) rsp) := by
  obtain ⟨old, cur⟩ := sound.current
  have killed : (k.setState old .terminated).Stacked :=
    stacked.modifyTask (fun _ => rfl) fun _ => rfl
  have top : ((k.setState old .terminated).task old).kernelStackTop =
      (k.task old).kernelStackTop := modifyTask_keeps Task.kernelStackTop rfl old
  rw [scheduleNext_stacked (sound.kill old) nodup cur killed
      (faultHandlerInner_cases sound cur run),
    killed_departs cur, frameOn_congr top]
  refine imp_congr Iff.rfl ⟨fun own t here => ?_, fun all => all old cur⟩
  rw [cur.unique here]
  exact own

theorem Call.stacked {arg1 arg2 id : UInt64} {o : Outcome UInt64} (call : Call k arg1 arg2 id o)
    (stacked : k.Stacked) : o.Ends Stacked := by
  cases call with
  | idle | sendFault => exact stacked
  | print | regService | recv | recvFault =>
    exact stacked.congr rfl rfl (fun _ _ => rfl) fun _ _ => rfl
  | exit | setPriority => exact stacked.modifyTask (fun _ => rfl) fun _ => rfl
  | send => exact stacked.fixed (fixed_deliver _ _)

/-- A call that faults has changed no task. -/
theorem Call.fault_tasks {arg1 arg2 id : UInt64} {mid : Kernel}
    (call : Call k arg1 arg2 id (.fault mid)) : mid.taskList = k.taskList ∧
      mid.currentTaskIdx = k.currentTaskIdx ∧ mid.task = k.task := by
  cases call <;> exact ⟨rfl, rfl, rfl⟩

theorem syscall_stacked {id arg1 arg2 : UInt64} {out : Option UInt64} (sound : k.Sound)
    (nodup : k.taskList.Nodup) (stacked : k.Stacked)
    (run : k.syscall id arg1 arg2 rsp = .ok (out, k')) :
    k'.Stacked ↔ k.SavesOn (.syscall id arg1 arg2 rsp) := by
  have call := handleSyscall_call sound.quiet id arg1 arg2
  have ends := call.stacked stacked
  unfold Kernel.syscall at run
  show k'.Stacked ↔ ((∃ mid, (handleSyscall id arg1 arg2).run k = .fault mid) → _)
  generalize (handleSyscall id arg1 arg2).run k = o at call ends run
  cases o with
  | done value mid =>
    cases run
    exact iff_of_true ends fun ⟨mid, faulted⟩ => nomatch faulted
  | fault mid =>
    obtain ⟨⟨r, after⟩, handled, same⟩ := map_ok run
    cases same
    obtain ⟨list, idx, task⟩ := call.fault_tasks
    have nodup' : mid.taskList.Nodup := by
      rw [list]
      exact nodup
    rw [faultHandlerInner_stacked (call.sound sound) nodup' ends handled]
    simp only [Current, list, idx, task]
    exact ⟨fun own _ => own, fun own => own ⟨mid, rfl⟩⟩
  | stop reason => cases run

/-- An event keeps the frames on the kernel stacks exactly when it meets the condition. -/
theorem stacked_step {e : Event} {out : Option UInt64} (sound : k.Sound)
    (nodup : k.taskList.Nodup) (stacked : k.Stacked) (run : k.step e = .ok (out, k')) :
    k'.Stacked ↔ k.SavesOn e := by
  obtain ⟨old, cur⟩ := sound.current
  cases step_happens sound run with
  | @timer scripts rsp r polled _ ran scheduled =>
    have fixed := fixed_pollKernelTasks ran
    have taskList : polled.taskList = k.taskList := congrArg Fixed.taskList fixed
    have top : (polled.task old).kernelStackTop = (k.task old).kernelStackTop :=
      congrArg (fun f => (f.identity old).2.2.2) fixed
    have nodup1 : polled.taskList.Nodup := by
      rw [taskList]
      exact nodup
    have stacked1 : Stacked { polled with tickCount := polled.tickCount + 1 } :=
      (stacked.fixed fixed).congr rfl rfl (fun _ _ => rfl) fun _ _ => rfl
    rw [scheduleNext_stacked (sound.fixed fixed).tick nodup1 (cur.polled ran) stacked1 scheduled,
      frameOn_congr top]
    constructor
    · intro own polled' t ran' here departs
      rw [ran] at ran'
      cases ran'
      rw [cur.unique here] at departs ⊢
      exact own departs
    · exact fun saves => saves polled old ran cur
  | keyboard ran | serial ran =>
    refine iff_of_true (Stacked.fixed ?_ (fixed_pollKernelTasks ran)) trivial
    unfold postInitMailbox
    split
    · exact stacked
    · exact stacked.congr rfl rfl (fun _ _ => rfl) fun _ _ => rfl
  | gpf handled | pageFault handled =>
    exact faultHandlerInner_stacked sound nodup stacked handled
  | returned | killed => exact syscall_stacked sound nodup stacked run
  | userWrites f =>
    exact iff_of_true (stacked.congr rfl rfl (fun _ _ => rfl) fun _ _ => rfl) trivial
  | @spawn top _ spawned =>
    obtain ⟨-, q, -, rfl⟩ := spawnStatic_cases spawned
    have same : ∀ t ∈ k.taskList, (k.spawned top q).task t = k.task t :=
      fun t listed => newTask_task top (sound.processes t listed)
    exact iff_of_true (stacked.congr rfl rfl (fun t listed => by rw [same t listed])
      fun t listed => by rw [same t listed]) trivial
  | wake id => exact iff_of_true (stacked.fixed (fixed_wakeTask id)) trivial
  | receive t cx => exact iff_of_true (stacked.fixed (fixed_ipcReceivePoll t cx)) trivial
  | pollTasks ran => exact iff_of_true (stacked.fixed (fixed_pollKernelTasks ran)) trivial

/-! ### The stack of the TSS -/

/-- RSP0 is the top of the kernel stack of the process that runs. -/
def Rsp0 (k : Kernel) : Prop := ∀ t, k.Current t → k.rsp0 = (k.task t).kernelStackTop

theorem Rsp0.congr (rsp0 : k.Rsp0) (list : k'.taskList = k.taskList)
    (idx : k'.currentTaskIdx = k.currentTaskIdx) (same : k'.rsp0 = k.rsp0)
    (top : ∀ t ∈ k.taskList, (k'.task t).kernelStackTop = (k.task t).kernelStackTop) :
    k'.Rsp0 := by
  intro t cur
  rw [Current, list, idx] at cur
  rw [same, top t (List.mem_of_getElem? cur)]
  exact rsp0 t cur

theorem Rsp0.fixed (rsp0 : k.Rsp0) (same : k'.fixed = k.fixed) : k'.Rsp0 :=
  rsp0.congr (congrArg Fixed.taskList same) (congrArg Fixed.currentTaskIdx same)
    (congrArg Fixed.rsp0 same) fun t _ => congrArg (fun f => (f.identity t).2.2.2) same

theorem Rsp0.modifyTask (rsp0 : k.Rsp0) {t : TaskRef} {f : Task → Task}
    (top : ∀ task : Task, (f task).kernelStackTop = task.kernelStackTop) :
    (k.modifyTask t f).Rsp0 :=
  rsp0.congr rfl rfl rfl fun u _ => modifyTask_keeps Task.kernelStackTop (top _) u

theorem rsp0_polls : PollKeeps Rsp0 where
  wake id h := h.fixed (fixed_wakeTask id)
  receive t cx h := h.fixed (fixed_ipcReceivePoll t cx)
  current _ h := h.fixed rfl
  cache _ h := h.fixed rfl
  finish _ h := h.fixed rfl
  polled _ h := h.fixed rfl
  dropped _ _ h := h.fixed rfl
  drained h := h.fixed rfl
  pop _ h := h.fixed rfl

theorem rsp0_keeps : StepKeeps (fun _ _ => True) Rsp0 where
  executor := rsp0_polls.executor fun _ h => h.congr rfl rfl rfl fun _ _ => rfl
  tick h := h.congr rfl rfl rfl fun _ _ => rfl
  move {k rsp old new j} _ selected _ := by
    intro t cur
    have same : t = new := Option.some.inj (cur.symm.trans selected)
    rw [same, movedTo_keeps Task.kernelStackTop fun _ => rfl]
    rfl
  kill _ h := h.modifyTask fun _ => rfl
  post _ h := by
    unfold postInitMailbox
    split
    · exact h
    · exact h.congr rfl rfl rfl fun _ _ => rfl
  call _ _ call h := by
    cases call with
    | idle | sendFault => exact h
    | print | regService | recv | recvFault => exact h.congr rfl rfl rfl fun _ _ => rfl
    | setPriority | exit => exact h.modifyTask fun _ => rfl
    | send => exact h.fixed (fixed_deliver _ _)
  user _ h := h.congr rfl rfl rfl fun _ _ => rfl
  spawn {k k' top} sound h run := by
    obtain ⟨-, q, -, rfl⟩ := spawnStatic_cases run
    refine h.congr rfl rfl rfl fun t listed => ?_
    show ((k.newTask top).2.task t).kernelStackTop = (k.task t).kernelStackTop
    rw [newTask_task top (sound.processes t listed)]

/-- What every run keeps, whatever happens to the frames. -/
structure Steady (k : Kernel) : Prop where
  sound : k.Sound
  nodup : k.taskList.Nodup
  rsp0 : k.Rsp0

theorem Steady.step {e : Event} (steady : k.Steady) (step : k.Step e k') : k'.Steady where
  sound := steady.sound.step step
  nodup := by
    rw [(steady.sound.sameTasks step).taskList]
    exact steady.nodup
  rsp0 := rsp0_keeps.step steady.sound steady.rsp0 trivial step

theorem Steady.setMem (steady : k.Steady) (mem : Memory) : { k with mem := mem }.Steady where
  sound := steady.sound.congr rfl rfl (Nat.le_refl _) rfl
  nodup := steady.nodup
  rsp0 := steady.rsp0

end Kernel

/-! ### The machine -/

/-- The processes run in user mode. -/
theorem Represents.inUser {faulted : Bool} {m : Machine} {p : Processes}
    (rep : Represents faulted m p) : m.inUser := by
  rw [Machine.inUser, rep.cpu]
  exact rep.userMode _

namespace Machine

open Kernel

variable {code : Compiled} {m m' : Machine} {images : List Image}

/-- The frame of an interrupt in user mode is on the kernel stack of the current process. -/
theorem enter_frameOn (rsp0 : m.kernel.Rsp0) (user : m.inUser) (i : Interrupt) {t : TaskRef}
    (cur : m.kernel.Current t) : FrameOn (m.kernel.task t) (m.enter i).2 := by
  have stack : m.entryStack = (m.kernel.task t).kernelStackTop -
      (m.kernel.task t).kernelStackTop % 16 := by
    rw [entryStack, if_pos (show m.cpu.cs % 4 = 3 from user), rsp0 t cur]
  have fits := pushed_offset (m.kernel.task t).kernelStackTop (enter_length m.cpu i)
  have words : 20 ≤ (hardwareFrame m.cpu i.errorCode ++ pushOrder.map m.cpu.regs).length := by
    cases i <;> exact Nat.le_of_ble_eq_true rfl
  rw [enter, Memory.pushAll_pointer, stack]
  exact fun a inside => inside.inside (by omega) (by decide)

/-- An interrupt whose frame is on the kernel stack of the current process keeps the frames. -/
theorem savesOn_interrupt {k : Kernel} {i : Interrupt} {rsp : UInt64}
    (own : ∀ t, k.Current t → FrameOn (k.task t) rsp) : k.SavesOn (i.event rsp) := by
  cases i with
  | timer scripts => exact fun _ t _ cur _ => own t cur
  | keyboard data scripts | serial data scripts => exact trivial
  | gpf code | pageFault code => exact fun _ t cur => own t cur

theorem step_done {k k' : Kernel} {id arg1 arg2 rsp value : UInt64}
    (ran : (handleSyscall id arg1 arg2).run k = .done value k') :
    k.step (.syscall id arg1 arg2 rsp) = .ok (none, k') := by
  simp only [Kernel.step, Kernel.syscall, ran]

theorem step_fault {k mid k' : Kernel} {id arg1 arg2 rsp r : UInt64}
    (ran : (handleSyscall id arg1 arg2).run k = .fault mid)
    (handled : mid.faultHandlerInner rsp = .ok (r, k')) :
    k.step (.syscall id arg1 arg2 rsp) = .ok (some r, k') := by
  simp only [Kernel.step, Kernel.syscall, ran, handled, Except.map]

/-- The words that `syscall_entry` pushes for its caller, the last one first. -/
def savedWords (c : Context) : List UInt64 := exitOrder.map (syscallRegs c)

theorem enterSyscall_pointer : (m.enterSyscall code).2 = m.cpu.rsp - 120 :=
  Memory.pushAll_pointer

theorem enterSyscall_top : (m.enterSyscall code).2 + 8 + 112 = m.cpu.rsp := by
  rw [enterSyscall_pointer]
  grind

theorem enterSyscall_words :
    (m.enterSyscall code).1.readWords (m.enterSyscall code).2 15 =
      code.back :: savedWords m.cpu := by
  have length : (entryOrder.map (syscallRegs m.cpu) ++ [code.back]).length = 15 := rfl
  have pushed := Memory.pushAll_words m.kernel.mem m.cpu.rsp
    (show 8 * (entryOrder.map (syscallRegs m.cpu) ++ [code.back]).length ≤ 2 ^ 64 by
      rw [length]
      decide)
  rw [length] at pushed
  exact pushed

/-- A system call of the machine is one of the kernel, on the memory with what has been pushed. -/
theorem Calls.step (calls : m.Calls code m') : ∃ out k mem,
    { m.kernel with mem := (m.enterSyscall code).1 }.step (m.call code) = .ok (out, k) ∧
      m'.kernel = { k with mem := mem } := by
  obtain ⟨-, ends⟩ := calls
  split at ends
  next value k ran =>
    obtain ⟨regs, rip, mem, -, rfl⟩ := ends
    exact ⟨none, k, mem, step_done ran, rfl⟩
  next k ran =>
    obtain ⟨r, k', mem, regs, -, handled, -, rfl⟩ := ends
    exact ⟨some r, k', mem, step_fault ran handled, rfl⟩
  next => exact ends.elim

/-- Code of a call changes nothing of the kernel but its memory. -/
theorem Onward.kernel {sp : UInt64} {p : Place} {p' : Option Place}
    (step : m.Onward code sp p p' m') : ∃ mem, m'.kernel = { m.kernel with mem := mem } := by
  cases step <;> exact ⟨_, rfl⟩

theorem stacked_setMem {k : Kernel} {mem : Memory} : { k with mem := mem }.Stacked ↔ k.Stacked :=
  Iff.rfl

end Machine

namespace Placed

open Kernel

variable {code : Compiled} {s s' : Placed} {images : List Image}

/-- The condition under which an action keeps the frames on the kernel stacks: an interrupt or a
fault is taken in user mode, and what comes in a system call makes the scheduler leave no process
whose kernel stack its frame is not on. -/
def Shielded (code : Compiled) (s : Placed) : Trap → Prop
  | .interrupt i => s.machine.inUser ∨
    SavesOn { s.machine.kernel with mem := (s.machine.enter i).1 }
      (i.event (s.machine.enter i).2)
  | .syscall =>
    SavesOn { s.machine.kernel with mem := (s.machine.enterSyscall code).1 } (s.machine.call code)
  | _ => True

theorem interrupt_step {i : Interrupt} (step : s.Trapped code (.interrupt i) s') :
    ∃ r k mem regs,
      { s.machine.kernel with mem := (s.machine.enter i).1 }.step
          (i.event (s.machine.enter i).2) = .ok (some r, k) ∧
        s'.machine = ⟨returnTo mem regs r, { k with mem := mem }⟩ := by
  obtain ⟨-, step⟩ := step
  split at step
  · obtain ⟨r, k, mem, regs, ran, -, after⟩ := step
    exact ⟨r, k, mem, regs, ran, after⟩
  · obtain ⟨-, r, k, mem, regs, -, ran, -, after⟩ := step
    exact ⟨r, k, mem, regs, ran, after⟩

theorem steady_trapped {a : Trap} (steady : s.machine.kernel.Steady)
    (step : s.Trapped code a s') : s'.machine.kernel.Steady := by
  cases a with
  | user c f =>
    obtain ⟨-, ⟨-, after⟩, -⟩ := step
    have written : s.machine.kernel.Step (.userWrites f) (s.machine.kernel.userWrites f) :=
      ⟨none, rfl⟩
    rw [after]
    exact steady.step written
  | interrupt i =>
    obtain ⟨r, k, mem, regs, ran, after⟩ := interrupt_step step
    rw [after]
    exact ((steady.setMem (s.machine.enter i).1).step ⟨_, ran⟩).setMem mem
  | syscall =>
    obtain ⟨t, -, -, calls, -⟩ := step
    obtain ⟨out, k, mem, ran, after⟩ := calls.step
    rw [after]
    exact ((steady.setMem (s.machine.enterSyscall code).1).step ⟨_, ran⟩).setMem mem
  | onward =>
    obtain ⟨t, sp, p, p', -, -, -, onward, -⟩ := step
    obtain ⟨mem, after⟩ := onward.kernel
    rw [after]
    exact steady.setMem mem
  | leave =>
    obtain ⟨t, sp, -, -, -, rfl⟩ := step
    exact steady

/-- An action keeps the frames on the kernel stacks exactly when it meets the condition. -/
theorem stacked_trapped {a : Trap} (steady : s.machine.kernel.Steady)
    (stacked : s.machine.kernel.Stacked) (step : s.Trapped code a s') :
    s'.machine.kernel.Stacked ↔ s.Shielded code a := by
  cases a with
  | user c f =>
    obtain ⟨-, ⟨-, after⟩, -⟩ := step
    rw [after]
    exact iff_of_true stacked trivial
  | interrupt i =>
    obtain ⟨r, k, mem, regs, ran, after⟩ := interrupt_step step
    have pushed := steady.setMem (s.machine.enter i).1
    rw [after, Machine.stacked_setMem, stacked_step pushed.sound pushed.nodup stacked ran, Shielded]
    refine ⟨.inr, fun shielded => shielded.elim (fun user => ?_) id⟩
    exact Machine.savesOn_interrupt fun t cur =>
      Machine.enter_frameOn steady.rsp0 user i cur
  | syscall =>
    obtain ⟨t, -, -, calls, -⟩ := step
    obtain ⟨out, k, mem, ran, after⟩ := calls.step
    have pushed := steady.setMem (s.machine.enterSyscall code).1
    rw [after, Machine.stacked_setMem, stacked_step pushed.sound pushed.nodup stacked ran, Shielded]
  | onward =>
    obtain ⟨t, sp, p, p', -, -, -, onward, -⟩ := step
    obtain ⟨mem, after⟩ := onward.kernel
    rw [after]
    exact iff_of_true stacked trivial
  | leave =>
    obtain ⟨t, sp, -, -, -, rfl⟩ := step
    exact iff_of_true stacked trivial

end Placed

/-! ### Runs from boot -/

namespace Machine

open Kernel

variable {m : Machine} {images : List Image}

/-- The first frame of a process is at the top of its kernel stack. -/
theorem processOf_frameOn (i : Nat) (image : Image) :
    FrameOn (processOf i image) (processOf i image).kernelRsp := by
  intro a inside
  rw [onStack_process]
  exact inside.inside (firstFrame_fits image.kstack) (by decide)

theorem boots_stacked {top : UInt64} {mem : Memory} {pages : UInt64 → Option PageFlags}
    (boots : Boots images top mem pages m) : m.kernel.Steady ∧ m.kernel.Stacked := by
  obtain ⟨k, first, regs, main, -, rfl⟩ := boots
  obtain ⟨taskList, idx, -, process⟩ := kernelMain_processes main
  have listed : ∀ t ∈ k.taskList, ∃ image, images[t]? = some image ∧
      k.task t = processOf t image := by
    intro t ht
    rw [taskList] at ht
    have here := List.getElem?_eq_getElem (List.mem_range.mp ht)
    exact ⟨_, here, process t _ here⟩
  refine ⟨⟨(kernelMain_rested main).sound, ?_, fun t cur => ?_⟩, fun t ht _ => ?_⟩
  · show k.taskList.Nodup
    rw [taskList]
    exact List.nodup_range
  · obtain ⟨image, here, same⟩ := listed t cur.mem
    have zero : t = 0 := by
      change k.taskList[k.currentTaskIdx]? = some t at cur
      rw [taskList, idx] at cur
      obtain ⟨inside, at_zero⟩ := List.getElem?_eq_some_iff.mp cur
      rw [List.getElem_range] at at_zero
      exact at_zero.symm
    subst zero
    show k.rsp0 = (k.task 0).kernelStackTop
    rw [same]
    obtain ⟨k1, q, image', -, -, here', -, rfl⟩ := kernelMain_eq main
    rw [here] at here'
    cases here'
    rfl
  · obtain ⟨image, -, same⟩ := listed t ht
    show FrameOn (k.task t) (k.task t).kernelRsp
    rw [same]
    exact processOf_frameOn t image

end Machine

namespace Placed

open Kernel

variable {code : Compiled} {s s' : Placed} {m : Machine} {images : List Image}

/-- In a run from boot whose actions all meet the condition, every process that does not run is
resumed from a frame on its own kernel stack, and so it is after one more action exactly when that
meets it too. -/
theorem frames_on_kernel_stacks {top : UInt64} {mem : Memory} {pages : UInt64 → Option PageFlags}
    {actions : List Trap} (boots : m.Boots images top mem pages)
    (run : Run (Guarded (Shielded code) (Trapped code)) (start m) actions s) :
    s.machine.kernel.Stacked ∧
      ∀ a s', s.Trapped code a s' → (s'.machine.kernel.Stacked ↔ s.Shielded code a) := by
  have all : s.machine.kernel.Steady ∧ s.machine.kernel.Stacked := by
    refine run.invariant (I := fun s => s.machine.kernel.Steady ∧ s.machine.kernel.Stacked)
      (Machine.boots_stacked boots) ?_
    rintro a e b ⟨steady, stacked⟩ ⟨shielded, step⟩
    exact ⟨steady_trapped steady step, (stacked_trapped steady stacked step).mpr shielded⟩
  obtain ⟨steady, stacked⟩ := all
  exact ⟨stacked, fun a s' step => stacked_trapped steady stacked step⟩

/-! A process that is interrupted in `SYS_YIELD`. -/

/-- A handler that has 64 bytes of stack in use in every call. -/
def sample : Compiled := ⟨fun _ => 64, 0xffff800000001000⟩

/-- An interrupt that comes in user mode, not a fault. -/
theorem plain_trapped {p : Processes} {i : Interrupt} {m' : Machine} (plain : i.errorCode = none)
    (rep : Represents false s.machine p) (step : s.machine.Step (.interrupt i) m') :
    s.Trapped code (.interrupt i) ⟨m', s.place⟩ ∧ ∃ p', Represents false m' p' := by
  have rep' := rep.interrupt step fun faulted => by
    rw [plain] at faulted
    cases faulted
  rw [plain] at rep'
  refine ⟨⟨rfl, ?_⟩, _, rep'⟩
  rw [if_pos rep.inUser]
  exact step

/-- User code runs on. -/
theorem user_trapped {p : Processes} {c : Context} {f : Memory} (rep : Represents false s.machine p)
    (ring3 : c.cs % 4 = 3) :
    s.Trapped code (.user c f) ⟨⟨c, s.machine.kernel.userWrites f⟩, s.place⟩ :=
  ⟨rep.inUser, ⟨ring3, rfl⟩, rfl⟩

/-- The stack pointer of the frame that an interrupt of `c` in ring 0 pushes. -/
def ringFrame (c : Context) : UInt64 := c.rsp - c.rsp % 16 - 160

/-- An interrupt in ring 0 pushes its frame on the stack in use, and nothing else. -/
theorem enter_ring0 {i : Interrupt} (ring0 : m.cpu.cs = kernelCodeSelector)
    (plain : i.errorCode = none) :
    (m.enter i).2 = ringFrame m.cpu ∧ (m.entryStack - (m.enter i).2).toNat = 160 ∧
      ∀ x, ¬ Memory.Within (ringFrame m.cpu) 160 x → (m.enter i).1 x = m.kernel.mem x := by
  have length := enter_plain m.cpu plain
  have few : 8 * (hardwareFrame m.cpu i.errorCode ++ pushOrder.map m.cpu.regs).length ≤ 2 ^ 64 := by
    rw [length]
    decide
  have stack : m.entryStack = m.cpu.rsp - m.cpu.rsp % 16 := by
    rw [Machine.entryStack, ring0]
    rfl
  have pointer : (m.enter i).2 = ringFrame m.cpu := by
    rw [Machine.enter, Memory.pushAll_pointer, length, stack]
    rfl
  have down : ∀ a : UInt64, a - (a - 160) = 160 := by
    intro a
    grind
  refine ⟨pointer, ?_, fun x outside => ?_⟩
  · rw [pointer, stack, ringFrame, down]
    rfl
  · apply Memory.pushAll_outside few
    rw [length]
    show ¬ Memory.Within (m.enter i).2 160 x
    rwa [pointer]

/-- An interrupt in ring 0 whose handler returns to the frame at `r`. -/
theorem nested_trapped {k : Kernel} {i : Interrupt} {r : UInt64}
    (ring0 : s.machine.cpu.cs = kernelCodeSelector)
    (enabled : s.machine.cpu.rflags &&& interruptFlag ≠ 0) (plain : i.errorCode = none)
    (room : Machine.Pushed s.machine.kernel (s.machine.enter i).2 160)
    (ran : { s.machine.kernel with mem := (s.machine.enter i).1 }.step
      (i.event (s.machine.enter i).2) = .ok (some r, k)) :
    s.Trapped code (.interrupt i) ⟨⟨returnTo k.mem (fun _ => 0) r, k⟩, s.place⟩ := by
  have not_user : ¬ s.machine.inUser := by
    rw [Machine.inUser, ring0]
    decide
  refine ⟨rfl, ?_⟩
  rw [if_neg not_user]
  refine ⟨fun _ => enabled, r, k, k.mem, fun _ => 0, ?_, ran, ⟨0, by decide, fun _ _ => rfl⟩, rfl⟩
  rw [(enter_ring0 ring0 plain).2.1]
  exact room

/-- It goes on with what it interrupted, when that is the frame that it pushed. -/
theorem returned_trapped {k : Kernel} {i : Interrupt}
    (ring0 : s.machine.cpu.cs = kernelCodeSelector)
    (enabled : s.machine.cpu.rflags &&& interruptFlag ≠ 0) (plain : i.errorCode = none)
    (room : Machine.Pushed s.machine.kernel (s.machine.enter i).2 160)
    (ran : { s.machine.kernel with mem := (s.machine.enter i).1 }.step
      (i.event (s.machine.enter i).2) = .ok (some (s.machine.enter i).2, k))
    (same : k.mem = (s.machine.enter i).1) :
    s.Trapped code (.interrupt i) ⟨⟨s.machine.cpu, k⟩, s.place⟩ := by
  have words := enter_words s.machine plain
  have back : returnTo k.mem (fun _ => 0) (s.machine.enter i).2 = s.machine.cpu := by
    rw [same]
    exact returnTo_frame words
  have trapped : s.Trapped code (.interrupt i) _ := nested_trapped ring0 enabled plain room ran
  rwa [back] at trapped

/-- User code about to call `SYS_YIELD`, with an empty stack. -/
def yielding : Context where
  regs r := if r = .rax then 12 else 0
  rip := 0x400000
  cs := userCodeSelector ||| 3
  rflags := 0x202
  rsp := 0x30008000
  ss := userDataSelector ||| 3

/-- The first process calls `SYS_YIELD`. -/
def beforeYield (m : Machine) : Placed := start ⟨yielding, m.kernel.userWrites fun _ => 0⟩

/-- The first process is in the halt of its `SYS_YIELD`. -/
def inYield (m : Machine) : Placed where
  machine := ⟨haltedAt (fun _ => 0) 0 (0x30007f88 - 64),
    { m.kernel.userWrites fun _ => 0 with
      mem := ((beforeYield m).machine.enterSyscall sample).1 }⟩
  place := Function.update (fun _ => none) 0 (some (0x30007f88, .handler))

/-- It has gone on to the pops of `syscall_entry`. -/
def inExit (m : Machine) (k : Kernel) : Placed where
  machine := ⟨kernelAt interruptFlag (fun _ => 0) sample.back 0x30007f90, k⟩
  place := Function.update (inYield m).place 0 (some (0x30007f88, .exit exitOrder))

theorem heapPages_pushed {k : Kernel} (pages : k.pages = heapPages) {sp : UInt64} {n : Nat}
    (low : 0x30000000 ≤ sp.toNat) (high : sp.toNat + n ≤ 0x30008000) : Machine.Pushed k sp n := by
  intro i hi
  have small : (sp + UInt64.ofNat i).toNat = sp.toNat + i := by
    rw [UInt64.toNat_add, UInt64.toNat_ofNat']
    omega
  refine (heapPages_canWrite pages ?_ ?_).1
  · simp only [UInt64.le_iff_toNat_le, small, UInt64.reduceToNat]
    omega
  · simp only [UInt64.lt_iff_toNat_lt, small, UInt64.reduceToNat]
    omega

theorem beforeYield_pointer (m : Machine) :
    ((beforeYield m).machine.enterSyscall sample).2 = 0x30007f88 := by
  rw [Machine.enterSyscall, Memory.pushAll_pointer]
  show (0x30008000 : UInt64) - 8 * UInt64.ofNat 15 = 0x30007f88
  decide

/-- The call halts. -/
theorem yield_halts (cur : m.kernel.Current 0) (pages : m.kernel.pages = heapPages) :
    (beforeYield m).Trapped sample .syscall (inYield m) := by
  have sp := beforeYield_pointer m
  have room : Machine.Pushed (beforeYield m).machine.kernel 0x30007f88 120 :=
    heapPages_pushed pages (by decide) (by decide)
  refine ⟨0, cur, show yielding.cs % 4 = 3 by decide, ⟨?_, ?_⟩, ?_⟩
  · rw [sp]
    exact room
  · rw [show (beforeYield m).machine.arguments .rdi = 12 from rfl]
    refine ⟨fun _ => 0, 0, _, ⟨0, by decide, fun _ _ => rfl⟩, ?_⟩
    rw [if_pos rfl, sp]
    rfl
  · rw [if_pos (show (beforeYield m).machine.arguments .rdi = 12 from rfl), sp]
    rfl

theorem inYield_ring0 (m : Machine) : ¬ (inYield m).machine.inUser := by
  show ¬ kernelCodeSelector % 4 = 3
  decide

/-- The frame of an interrupt in the halt is on the user stack. -/
theorem inYield_frame (m : Machine) {i : Interrupt} (plain : i.errorCode = none) :
    ((inYield m).machine.enter i).2 = 0x30007ea0 := by
  rw [(enter_ring0 rfl plain).1]
  show (0x30007f88 - 64 : UInt64) - (0x30007f88 - 64) % 16 - 160 = 0x30007ea0
  decide

/-- An interrupt in the halt leaves the return address of the call. -/
theorem inYield_back (m : Machine) {i : Interrupt} (plain : i.errorCode = none) :
    ((inYield m).machine.enter i).1.read64 0x30007f88 = sample.back := by
  have words : ((beforeYield m).machine.enterSyscall sample).1.readWords 0x30007f88 15 =
      sample.back :: Machine.savedWords yielding := by
    rw [← beforeYield_pointer m]
    exact Machine.enterSyscall_words
  have frame : ringFrame (inYield m).machine.cpu = 0x30007ea0 := by
    show (0x30007f88 - 64 : UInt64) - (0x30007f88 - 64) % 16 - 160 = 0x30007ea0
    decide
  have kept : ((inYield m).machine.enter i).1.readWords 0x30007f88 1 =
      ((beforeYield m).machine.enterSyscall sample).1.readWords 0x30007f88 1 := by
    refine Memory.readWords_congr (by decide) fun x inside => ?_
    refine (enter_ring0 rfl plain).2.2 x fun on => ?_
    rw [frame] at on
    have := x.toNat_lt
    simp only [Memory.Within, UInt64.toNat_sub, UInt64.reduceToNat] at inside on
    omega
  rw [Memory.readWords, Memory.readWords, Memory.readWords, Memory.readWords] at kept
  rw [Memory.readWords] at words
  exact (List.cons.inj kept).1.trans (List.cons.inj words).1

/-- The call goes on from the halt to the pops of `syscall_entry`. -/
theorem yield_returns {k : Kernel} (cur : k.Current 0)
    (found : k.mem.read64 0x30007f88 = sample.back) :
    (⟨⟨(inYield m).machine.cpu, k⟩, (inYield m).place⟩ : Placed).Trapped sample .onward
      (inExit m k) := by
  have used : Machine.UsedBelow 0x30007f88 k.mem k.mem := ⟨0, by decide, fun _ _ => rfl⟩
  exact ⟨0, 0x30007f88, .handler, some (.exit exitOrder), cur, inYield_ring0 m, rfl,
    .ret used found rfl (by decide) (by decide) rfl, rfl⟩

/-- A tick that ends no turn leaves no process. -/
theorem tick_saves {k polled : Kernel} {scripts : List PollScript} {rsp : UInt64} {t : TaskRef}
    (cur : k.Current t) (ran : k.pollKernelTasks scripts = .ok polled)
    (early : ¬ Searches { polled with tickCount := polled.tickCount + 1 } false t) :
    k.SavesOn (.timer scripts rsp) := by
  intro polled' u ran' here departs
  rw [ran] at ran'
  cases ran'
  rw [here.unique cur] at early
  exact absurd departs.1 early

/-- An interrupt in the halt that leaves the process the processor. -/
theorem halt_interrupted {i : Interrupt} {k : Kernel} (plain : i.errorCode = none)
    (pages : m.kernel.pages = heapPages)
    (ran : { m.kernel with mem := ((inYield m).machine.enter i).1 }.step
      (i.event 0x30007ea0) = .ok (some 0x30007ea0, k))
    (same : k.mem = ((inYield m).machine.enter i).1) :
    (inYield m).Trapped sample (.interrupt i)
      ⟨⟨(inYield m).machine.cpu, k⟩, (inYield m).place⟩ := by
  have frame := inYield_frame m plain
  refine returned_trapped rfl (show interruptFlag &&& interruptFlag ≠ 0 by decide) plain ?_ ?_ same
  · rw [frame]
    exact heapPages_pushed pages (by decide) (by decide)
  · rw [frame]
    exact ran

/-- The frame of an interrupt before the pops is on the user stack. -/
theorem inExit_frame {k : Kernel} {i : Interrupt} (plain : i.errorCode = none) :
    ((inExit m k).machine.enter i).2 = 0x30007ef0 := by
  rw [(enter_ring0 rfl plain).1]
  show (0x30007f90 : UInt64) - 0x30007f90 % 16 - 160 = 0x30007ef0
  decide

/-- An interrupt before the pops that leaves the process the processor. -/
theorem exit_interrupted {i : Interrupt} {k k' : Kernel} (plain : i.errorCode = none)
    (pages : k.pages = heapPages)
    (ran : { k with mem := ((inExit m k).machine.enter i).1 }.step
      (i.event 0x30007ef0) = .ok (some 0x30007ef0, k'))
    (same : k'.mem = ((inExit m k).machine.enter i).1) :
    (inExit m k).Trapped sample (.interrupt i)
      ⟨⟨(inExit m k).machine.cpu, k'⟩, (inExit m k).place⟩ := by
  refine returned_trapped rfl (show interruptFlag &&& interruptFlag ≠ 0 by decide) plain ?_ ?_ same
  · rw [inExit_frame plain]
    exact heapPages_pushed pages (by decide) (by decide)
  · rw [inExit_frame plain]
    exact ran

/-- The first process is interrupted in the halt of its `SYS_YIELD` and again on the way back, by
interrupts that leave it the processor. -/
theorem frames_on_kernel_stacks_yield : ∃ m s,
    Machine.Boots heapImages 0x444444454000 (fun _ => 0) heapPages m ∧
      Run (Guarded (Shielded sample) (Trapped sample)) (start m)
        [.user yielding fun _ => 0, .syscall, .interrupt (.timer [.ready]), .onward,
          .interrupt (.keyboard 0x1e [])] s ∧
      ¬ s.machine.inUser ∧ s.machine.kernel.Stacked := by
  have evaluated : ∃ m : Machine, Machine.Boots heapImages 0x444444454000 (fun _ => 0) heapPages m ∧
      m.kernel.Current 0 ∧ m.kernel.pages = heapPages ∧ ∀ mem rsp, ∃ polled k1,
        { m.kernel with mem := mem }.pollKernelTasks [.ready] = .ok polled ∧
        ¬ Searches { polled with tickCount := polled.tickCount + 1 } false 0 ∧
        { m.kernel with mem := mem }.step (.timer [.ready] rsp) = .ok (some rsp, k1) ∧
        k1.mem = mem ∧ k1.pages = heapPages ∧ k1.Current 0 ∧
        ∀ mem rsp, ∃ k2, { k1 with mem := mem }.step (.keyboard 0x1e [] rsp) =
          .ok (some rsp, k2) ∧ k2.mem = mem :=
    ⟨_, ⟨_, 0, fun _ => 0, rfl, rfl, rfl⟩, rfl, rfl, fun _ _ => ⟨_, _, rfl,
      of_decide_eq_false rfl, rfl, rfl, rfl, rfl, fun _ _ => ⟨_, rfl, rfl⟩⟩⟩
  obtain ⟨m, boots, cur, pages, ticks⟩ := evaluated
  obtain ⟨polled, k1, ran, early, tick, mem1, pages1, cur1, keys⟩ :=
    ticks ((inYield m).machine.enter (.timer [.ready])).1 0x30007ea0
  have calling : (start m).Trapped sample (.user yielding fun _ => 0) (beforeYield m) :=
    user_trapped (boots_represents heapBoot_stacks boots) (by decide)
  have returns : (beforeYield m).Shielded sample .syscall := by
    rintro ⟨mid, faulted⟩
    cases faulted
  have ticked : (inYield m).Trapped sample (.interrupt (.timer [.ready])) _ :=
    halt_interrupted rfl pages tick mem1
  have saves : (inYield m).Shielded sample (.interrupt (.timer [.ready])) := by
    right
    rw [inYield_frame m rfl]
    exact tick_saves cur ran early
  have found : k1.mem.read64 0x30007f88 = sample.back := by
    rw [mem1]
    exact inYield_back m rfl
  have onward : Placed.Trapped sample ⟨⟨(inYield m).machine.cpu, k1⟩, (inYield m).place⟩ .onward
      (inExit m k1) := yield_returns cur1 found
  have onwards : Shielded sample ⟨⟨(inYield m).machine.cpu, k1⟩, (inYield m).place⟩ .onward :=
    trivial
  obtain ⟨k2, key, mem2⟩ := keys ((inExit m k1).machine.enter (.keyboard 0x1e [])).1 0x30007ef0
  have pressed : (inExit m k1).Trapped sample (.interrupt (.keyboard 0x1e [])) _ :=
    exit_interrupted rfl pages1 key mem2
  have presses : (inExit m k1).Shielded sample (.interrupt (.keyboard 0x1e [])) := .inr trivial
  have calls : (start m).Shielded sample (.user yielding fun _ => 0) := trivial
  have called : Guarded (Shielded sample) (Trapped sample) (start m) (.user yielding fun _ => 0)
      (beforeYield m) := ⟨calls, calling⟩
  have run := (Run.single called).snoc ⟨returns, yield_halts cur pages⟩ |>.snoc ⟨saves, ticked⟩
    |>.snoc ⟨onwards, onward⟩ |>.snoc ⟨presses, pressed⟩
  refine ⟨m, _, boots, run, ?_, (frames_on_kernel_stacks boots run).1⟩
  show ¬ kernelCodeSelector % 4 = 3
  decide

/-- Four ticks in user mode, and whatever follows the halt of a `SYS_YIELD` after them. -/
theorem yield_ticks {m0 m1 m2 m3 m4 : Machine} {p0 : Processes} (rep0 : Represents false m0 p0)
    (ran1 : m0.Step (.interrupt (.timer [.ready])) m1)
    (ran2 : m1.Step (.interrupt (.timer [])) m2) (ran3 : m2.Step (.interrupt (.timer [])) m3)
    (ran4 : m3.Step (.interrupt (.timer [])) m4) (cur : m4.kernel.Current 0)
    (pages : m4.kernel.pages = heapPages) :
    Run (Trapped sample) (start m0)
      [.interrupt (.timer [.ready]), .interrupt (.timer []), .interrupt (.timer []),
        .interrupt (.timer []), .user yielding fun _ => 0, .syscall] (inYield m4) ∧
      ∃ p, Represents false m4 p := by
  obtain ⟨step1, p1, rep1⟩ := plain_trapped (s := start m0) rfl rep0 ran1
  obtain ⟨step2, p2, rep2⟩ := plain_trapped (s := start m1) rfl rep1 ran2
  obtain ⟨step3, p3, rep3⟩ := plain_trapped (s := start m2) rfl rep2 ran3
  obtain ⟨step4, p4, rep4⟩ := plain_trapped (s := start m3) rfl rep3 ran4
  have calling : (start m4).Trapped sample (.user yielding fun _ => 0) (beforeYield m4) :=
    user_trapped (s := start m4) rep4 (by decide)
  have ticks := (Run.single (R := Trapped sample) step1).snoc step2 |>.snoc step3 |>.snoc step4
  exact ⟨(ticks.snoc calling).snoc (yield_halts cur pages), p4, rep4⟩

/-- The fifth tick comes while the first process is in `SYS_YIELD`, and leaves its frame on its user
stack. -/
theorem frame_on_user_stack : ∃ m s,
    Machine.Boots heapImages 0x444444454000 (fun _ => 0) heapPages m ∧
      Run (Trapped sample) (start m)
        ([.interrupt (.timer [.ready]), .interrupt (.timer []), .interrupt (.timer []),
          .interrupt (.timer []), .user yielding fun _ => 0, .syscall] ++
          [.interrupt (.timer [])]) s ∧
      0 ∈ s.machine.kernel.taskList ∧ ¬ s.machine.kernel.Current 0 ∧
      (s.machine.kernel.task 0).state = .ready ∧
      (s.machine.kernel.task 0).kernelRsp = 0x30007ea0 ∧ ¬ s.machine.kernel.Stacked := by
  have evaluated : ∃ (m0 m1 m2 m3 m4 : Machine) (r : UInt64) (k : Kernel),
      Machine.Boots heapImages 0x444444454000 (fun _ => 0) heapPages m0 ∧
      m0.Step (.interrupt (.timer [.ready])) m1 ∧ m1.Step (.interrupt (.timer [])) m2 ∧
      m2.Step (.interrupt (.timer [])) m3 ∧ m3.Step (.interrupt (.timer [])) m4 ∧
      m4.kernel.Current 0 ∧ m4.kernel.pages = heapPages ∧
      { m4.kernel with mem := ((inYield m4).machine.enter (.timer [])).1 }.step
        (.timer [] ((inYield m4).machine.enter (.timer [])).2) = .ok (some r, k) ∧
      k.taskList = [0, 1] ∧ k.currentTaskIdx = 1 ∧ (k.task 0).state = .ready ∧
      (k.task 0).kernelRsp = ((inYield m4).machine.enter (.timer [])).2 :=
    ⟨_, _, _, _, _, _, _, ⟨_, 0, fun _ => 0, rfl, rfl, rfl⟩, clean_step rfl, clean_step rfl,
      clean_step rfl, clean_step rfl, rfl, rfl, rfl, rfl, rfl, rfl, rfl⟩
  obtain ⟨m0, m1, m2, m3, m4, r, k, boots, ran1, ran2, ran3, ran4, cur, pages, ran, list, idx,
    ready, saved⟩ := evaluated
  obtain ⟨run, p4, rep4⟩ :=
    yield_ticks (boots_represents heapBoot_stacks boots) ran1 ran2 ran3 ran4 cur pages
  have frame : ((inYield m4).machine.enter (.timer [])).2 = 0x30007ea0 := inYield_frame m4 rfl
  have room : Machine.Pushed (inYield m4).machine.kernel
      ((inYield m4).machine.enter (.timer [])).2 160 := by
    rw [frame]
    exact heapPages_pushed pages (by decide) (by decide)
  have interrupted : (inYield m4).Trapped sample (.interrupt (.timer [])) _ :=
    nested_trapped rfl (show interruptFlag &&& interruptFlag ≠ 0 by decide) rfl room ran
  have left : ¬ k.Current 0 := by
    rw [Current, list, idx]
    decide
  have placed : 0 ∈ k.taskList := by
    rw [list]
    decide
  refine ⟨m0, _, boots, run.snoc interrupted, placed, left, ready, saved.trans frame,
    fun stacked => ?_⟩
  have sound : { m4.kernel with mem := ((inYield m4).machine.enter (.timer [])).1 }.Sound :=
    rep4.sound.congr rfl rfl (Nat.le_refl _) rfl
  have same := sound.sameTasks ⟨_, ran⟩
  have listed4 : 0 ∈ m4.kernel.taskList := same.taskList ▸ placed
  have on := stacked 0 placed left 0x30007ea0
  change Memory.Within (k.task 0).kernelRsp 160 _ → OnStack (k.task 0) _ at on
  rw [saved, frame, onStack_congr (same.stack 0 (sound.processes 0 listed4))] at on
  have hidden := rep4.layout.shielded 0 listed4 0x30007ea0 (on (by decide))
  simp only [userCanWrite, canWrite, pages] at hidden
  exact absurd hidden (by decide)

end Placed

end Microkernel
