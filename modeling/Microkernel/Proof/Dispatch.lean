import Microkernel.Machine
import Microkernel.Proof.Handover

/-! The frames of interrupts on the kernel stacks, and what a handler does to the processes: which
frame it returns to, which it saves, and what it leaves alone. -/

namespace Microkernel

open Lib

/-! ### Frames -/

/-- The words of a frame from its lowest address: what the pops and `iretq` read, in order. -/
def frameWords (c : Context) : List UInt64 :=
  popOrder.map c.regs ++ [c.rip, c.cs, c.rflags, c.rsp, c.ss]

theorem pushed_frameWords (c : Context) :
    (hardwareFrame c none ++ pushOrder.map c.regs).reverse = frameWords c := rfl

theorem popRegs_pointer (m : Memory) (rs : List Reg) (regs : Reg → UInt64) (sp : UInt64) :
    (popRegs m rs regs sp).2 = sp + 8 * UInt64.ofNat rs.length := by
  induction rs generalizing regs sp with
  | nil => simp [popRegs]
  | cons r rs ih =>
    rw [popRegs, ih, List.length_cons, UInt64.ofNat_add]
    grind

theorem popRegs_other {m : Memory} {regs : Reg → UInt64} {rs : List Reg} {sp : UInt64} {r : Reg}
    (other : r ∉ rs) : (popRegs m rs regs sp).1 r = regs r := by
  induction rs generalizing regs sp with
  | nil => rfl
  | cons s rs ih =>
    obtain ⟨ne, rest⟩ := not_or.mp (mt List.mem_cons.mpr other)
    rw [popRegs, ih rest, Function.update_of_ne ne]

/-- The words on the stack, in order, are what pops of distinct registers leave in them. -/
theorem popRegs_words {m : Memory} (regs : Reg → UInt64) {rs : List Reg} {sp : UInt64}
    (nodup : rs.Nodup) : m.readWords sp rs.length = rs.map (popRegs m rs regs sp).1 := by
  induction rs generalizing regs sp with
  | nil => rfl
  | cons r rs ih =>
    obtain ⟨fresh, nodup⟩ := List.nodup_cons.mp nodup
    rw [List.length_cons, Memory.readWords, List.map_cons, popRegs, popRegs_other fresh,
      Function.update_self, ih _ nodup]

/-- Pops of distinct registers from a stack that holds their values leave them there. -/
theorem popRegs_regs {m : Memory} {f regs : Reg → UInt64} {rs : List Reg} {sp : UInt64}
    (nodup : rs.Nodup) (held : m.readWords sp rs.length = rs.map f) {r : Reg} (popped : r ∈ rs) :
    (popRegs m rs regs sp).1 r = f r := by
  rw [popRegs_words regs nodup] at held
  exact List.map_inj_left.mp held r popped

theorem mem_popOrder (r : Reg) : r ∈ popOrder := by cases r <;> decide

/-- The wrapper returns to the context of the frame it pops. -/
theorem returnTo_frame {m : Memory} {regs : Reg → UInt64} {rsp : UInt64} {c : Context}
    (held : m.readWords rsp 20 = frameWords c) : returnTo m regs rsp = c := by
  have parts := Memory.readWords_append (m := m) (a := rsp) (n := 15) 5
  rw [show 15 + 5 = 20 from rfl, held, frameWords] at parts
  obtain ⟨low, high⟩ := List.append_inj parts (by simp [popOrder])
  have popped : (popRegs m popOrder regs rsp).1 = c.regs := by
    funext r
    exact popRegs_regs (by decide) low.symm (mem_popOrder r)
  have pointer : (popRegs m popOrder regs rsp).2 = rsp + 8 * UInt64.ofNat 15 :=
    popRegs_pointer m popOrder regs rsp
  simp only [Memory.readWords, List.cons.injEq, UInt64.add_assoc, UInt64.reduceAdd] at high
  obtain ⟨rip, cs, rflags, sp, ss, -⟩ := high
  simp only [returnTo, iretq, popped, pointer, UInt64.add_assoc]
  rw [← rip, ← cs, ← rflags, ← sp, ← ss]

/-! ### Kernel stacks -/

/-- The address is in the task's kernel stack. -/
def OnStack (task : Task) (a : UInt64) : Prop :=
  Memory.Within (task.kernelStackTop - kstackSize) kstackSize.toNat a

/-- The context is saved on the task's kernel stack, at its `kernel_rsp`. -/
def Framed (mem : Memory) (task : Task) (c : Context) : Prop :=
  mem.readWords task.kernelRsp 20 = frameWords c ∧
    (task.kernelRsp - (task.kernelStackTop - kstackSize)).toNat + 8 * 20 ≤ kstackSize.toNat

theorem Framed.congr {mem mem' : Memory} {task : Task} {c : Context} (framed : Framed mem task c)
    (same : ∀ a, OnStack task a → mem' a = mem a) : Framed mem' task c := by
  obtain ⟨held, fits⟩ := framed
  refine ⟨?_, fits⟩
  rw [Memory.readWords_congr (by decide) fun a inside => same a ?_, held]
  exact inside.inside fits (by decide)

theorem Framed.task {mem : Memory} {task task' : Task} {c : Context} (framed : Framed mem task c)
    (rsp : task'.kernelRsp = task.kernelRsp) (top : task'.kernelStackTop = task.kernelStackTop) :
    Framed mem task' c := by
  rw [Framed, rsp, top]
  exact framed

/-- Where `n` words pushed from the top of a stack, aligned to 16, end. -/
theorem pushed_offset (top : UInt64) {n : Nat} (few : n ≤ 21) :
    (top - top % 16 - 8 * UInt64.ofNat n - (top - kstackSize)).toNat + 8 * n ≤
      kstackSize.toNat := by
  have size : kstackSize = 32768 := rfl
  have := top.toNat_lt
  rw [size]
  simp only [UInt64.toNat_sub, UInt64.toNat_mul, UInt64.toNat_mod, UInt64.toNat_ofNat',
    UInt64.reduceToNat]
  omega

namespace Kernel

variable {k k' k1 : Kernel} {rsp r : UInt64} {old : TaskRef}

/-- The kernel stacks of the processes are apart from one another, and user code cannot store to
them. -/
structure Layout (k : Kernel) : Prop where
  nodup : k.taskList.Nodup
  apart : ∀ t ∈ k.taskList, ∀ u ∈ k.taskList, t ≠ u →
    ∀ a, OnStack (k.task t) a → ¬ OnStack (k.task u) a
  shielded : ∀ t ∈ k.taskList, ∀ a, OnStack (k.task t) a → k.userCanWrite a = false

theorem onStack_congr {task task' : Task} (top : task'.kernelStackTop = task.kernelStackTop)
    {a : UInt64} : OnStack task' a ↔ OnStack task a := by
  rw [OnStack, OnStack, top]

theorem Layout.sameTasks (layout : k.Layout) (sound : k.Sound) (same : SameTasks k k')
    (pages : k'.pages = k.pages) : k'.Layout := by
  have stack : ∀ t ∈ k.taskList, ∀ a, OnStack (k'.task t) a ↔ OnStack (k.task t) a :=
    fun t ht a => onStack_congr (same.stack t (sound.processes t ht))
  obtain ⟨nodup, apart, shielded⟩ := layout
  rw [← same.taskList] at nodup apart shielded
  have stack' : ∀ t ∈ k'.taskList, ∀ a, OnStack (k'.task t) a ↔ OnStack (k.task t) a := by
    rw [same.taskList]
    exact stack
  refine ⟨nodup, fun t ht u hu ne a on => ?_, fun t ht a on => ?_⟩
  · rw [stack' u hu]
    exact apart t ht u hu ne a ((stack' t ht a).mp on)
  · have shield := shielded t ht a ((stack' t ht a).mp on)
    simpa only [userCanWrite, canWrite, pages] using shield

/-! ### What a handler does to the processes -/

/-- The handler of an interrupt of process `old`, whose frame is at `rsp`, returns to that frame, or
it saves `rsp` and returns to the saved context of the process that runs next. -/
inductive Dispatch (k : Kernel) (rsp : UInt64) (old : TaskRef) (fault : Bool) (k' : Kernel) :
    UInt64 → Prop
  | stays (quiet : fault = false) (idx : k'.currentTaskIdx = k.currentTaskIdx)
      (rsp0 : k'.rsp0 = k.rsp0) (saved : ∀ t, (k'.task t).kernelRsp = (k.task t).kernelRsp) :
      Dispatch k rsp old fault k' rsp
  | moves {new : TaskRef} (selected : k'.Current new)
      (rsp0 : k'.rsp0 = (k'.task new).kernelStackTop) (frame : (k'.task old).kernelRsp = rsp)
      (saved : ∀ t, t ≠ old → (k'.task t).kernelRsp = (k.task t).kernelRsp)
      (dead : fault → (k'.task old).state = .terminated)
      (ready : (∃ i, k'.readyAt i) → (k'.task new).state = .ready)
      (itself : new = old → (k'.task old).state = .terminated) :
      Dispatch k rsp old fault k' (k'.task new).kernelRsp

theorem Dispatch.before {fault : Bool} (dispatch : Dispatch k1 rsp old fault k' r)
    (idx : k1.currentTaskIdx = k.currentTaskIdx) (rsp0 : k1.rsp0 = k.rsp0)
    (saved : ∀ t, (k1.task t).kernelRsp = (k.task t).kernelRsp) :
    Dispatch k rsp old fault k' r := by
  cases dispatch with
  | stays quiet idx' rsp0' saved' =>
    exact .stays quiet (idx'.trans idx) (rsp0'.trans rsp0) fun t => (saved' t).trans (saved t)
  | moves selected rsp0' frame saved' dead ready itself =>
    exact .moves selected rsp0' frame (fun t ne => (saved' t ne).trans (saved t)) dead ready itself

theorem movedTo_readyAt {new : TaskRef} {j i : Nat} :
    (k.movedTo rsp old new j).readyAt i = k.readyAt i := by
  have same : ∀ t, ((k.movedTo rsp old new j).task t).state = (k.task t).state :=
    fun t => movedTo_keeps Task.state fun _ => rfl
  simp only [readyAt, movedTo_taskList, same]

theorem scheduleNext_dispatch {force fault : Bool} (sound : k.Sound) (nodup : k.taskList.Nodup)
    (cur : k.Current old) (dead : fault → (k.task old).state = .terminated)
    (run : k.scheduleNext rsp force = .ok (r, k')) : Dispatch k rsp old fault k' r := by
  rcases scheduleNext_cases sound.taskList_free cur run with
    ⟨stays, rfl, rfl⟩ | ⟨moves, new, selected, rfl, rfl⟩
  · refine .stays ?_ rfl rfl fun _ => rfl
    by_contra faulted
    have gone := dead (by simpa using faulted)
    exact stays ⟨.inr (.inl gone), .inr gone⟩
  · have state : ∀ t, ((k.movedTo rsp old new k.nextIdx).task t).state = (k.task t).state :=
      fun t => movedTo_keeps Task.state fun _ => rfl
    refine .moves selected ?_ ?_ (fun t ne => ?_) (fun faulted => ?_) (fun some_ready => ?_) ?_
    · rw [movedTo_keeps Task.kernelStackTop fun _ => rfl]
      rfl
    · show ((k.modifyTask old fun task => { task with kernelRsp := rsp }).task old).kernelRsp = _
      rw [modifyTask_task_self]
    · show ((k.modifyTask old fun task => { task with kernelRsp := rsp }).task t).kernelRsp = _
      rw [modifyTask_task_ne k _ ne]
    · rw [state]
      exact dead faulted
    · obtain ⟨i, ready⟩ := some_ready
      rw [movedTo_readyAt] at ready
      obtain ⟨t, found, alive⟩ := readyAt_iff.mp (nextIdx_ready cur ready)
      rw [selected] at found
      cases found
      rw [state]
      exact alive
    · rintro rfl
      rw [state]
      refine moves.2.resolve_left fun elsewhere => ?_
      exact elsewhere (cur.index nodup selected).symm

/-- From `k` to `k'` no memory and no page has changed, all mailboxes are empty, no task has become
`Ready`, and without a fault none has become `Terminated`. -/
structure Kept (fault : Bool) (k k' : Kernel) : Prop where
  mem : k'.mem = k.mem
  pages : k'.pages = k.pages
  mailboxes : ∀ t, (k'.task t).mailbox = none
  ready : ∀ t, (k'.task t).state = .ready → (k.task t).state = .ready
  ended : fault = false → ∀ t, (k'.task t).state = .terminated → (k.task t).state = .terminated

variable {fault : Bool}

theorem Kept.refl (empty : ∀ t, (k.task t).mailbox = none) : Kept fault k k :=
  ⟨rfl, rfl, empty, fun _ h => h, fun _ _ h => h⟩

theorem Kept.congr (kept : Kept fault k k1) (mem : k'.mem = k1.mem) (pages : k'.pages = k1.pages)
    (mailbox : ∀ t, (k'.task t).mailbox = (k1.task t).mailbox)
    (state : ∀ t, (k'.task t).state = (k1.task t).state) : Kept fault k k' where
  mem := mem.trans kept.mem
  pages := pages.trans kept.pages
  mailboxes t := (mailbox t).trans (kept.mailboxes t)
  ready t h := kept.ready t ((state t).symm.trans h)
  ended quiet t h := kept.ended quiet t ((state t).symm.trans h)

/-- A change of the state of one task that makes it neither `Ready` nor, without a fault,
`Terminated`. -/
theorem Kept.modifyTask (kept : Kept fault k k1) {t : TaskRef} {f : Task → Task}
    (mailbox : (f (k1.task t)).mailbox = (k1.task t).mailbox)
    (ready : (f (k1.task t)).state ≠ .ready)
    (ended : fault = false → (f (k1.task t)).state ≠ .terminated) :
    Kept fault k (k1.modifyTask t f) where
  mem := kept.mem
  pages := kept.pages
  mailboxes u := (modifyTask_keeps Task.mailbox mailbox u).trans (kept.mailboxes u)
  ready u h := by
    by_cases same : u = t
    · subst same
      rw [modifyTask_task_self] at h
      exact absurd h ready
    · rw [modifyTask_task_ne k1 f same] at h
      exact kept.ready u h
  ended quiet u h := by
    by_cases same : u = t
    · subst same
      rw [modifyTask_task_self] at h
      exact absurd h (ended quiet)
    · rw [modifyTask_task_ne k1 f same] at h
      exact kept.ended quiet u h

theorem Kept.receive (kept : Kept fault k k1) (t : TaskRef) (cx : TaskWaker) :
    Kept fault k (k1.ipcReceivePoll t cx).2 := by
  unfold ipcReceivePoll
  rw [kept.mailboxes t]
  exact kept.modifyTask (f := fun task => { task with waker := some cx, state := .blocked }) rfl
    (fun h => by cases h) fun _ h => by cases h

theorem kept_polls : PollKeeps (Kept fault k) where
  wake _ h := h.congr rfl rfl (fun _ => rfl) fun _ => rfl
  receive t cx h := h.receive t cx
  current _ h := h.congr rfl rfl (fun _ => rfl) fun _ => rfl
  cache _ h := h.congr rfl rfl (fun _ => rfl) fun _ => rfl
  finish _ h := h.congr rfl rfl (fun _ => rfl) fun _ => rfl
  polled _ h := h.congr rfl rfl (fun _ => rfl) fun _ => rfl
  dropped _ _ h := h.congr rfl rfl (fun _ => rfl) fun _ => rfl
  drained h := h.congr rfl rfl (fun _ => rfl) fun _ => rfl
  pop _ h := h.congr rfl rfl (fun _ => rfl) fun _ => rfl

theorem Kept.polled {scripts : List PollScript} (kept : Kept fault k k1)
    (run : k1.pollKernelTasks scripts = .ok k') : Kept fault k k' :=
  kept_polls.pollKernelTasks (fun _ h => h.congr rfl rfl (fun _ => rfl) fun _ => rfl) kept run

theorem Kept.scheduled {force : Bool} (kept : Kept fault k k1) (sound : k1.Sound)
    (run : k1.scheduleNext rsp force = .ok (r, k')) : Kept fault k k' := by
  obtain ⟨old, cur⟩ := sound.current
  rcases scheduleNext_cases sound.taskList_free cur run with ⟨-, -, rfl⟩ | ⟨-, new, -, -, rfl⟩
  · exact kept
  · exact kept.congr rfl rfl (fun t => movedTo_keeps Task.mailbox fun _ => rfl)
      fun t => movedTo_keeps Task.state fun _ => rfl

theorem fault_dispatch (sound : k.Sound) (nodup : k.taskList.Nodup) (cur : k.Current old)
    (run : k.faultHandlerInner rsp = .ok (r, k')) : Dispatch k rsp old true k' r := by
  have scheduled := faultHandlerInner_cases sound cur run
  have killed : ((k.setState old .terminated).task old).state = .terminated := by simp [setState]
  exact (scheduleNext_dispatch (sound.kill old) nodup cur (fun _ => killed) scheduled).before rfl
    rfl fun t => modifyTask_keeps Task.kernelRsp rfl t

theorem fault_kept (sound : k.Sound) (empty : ∀ t, (k.task t).mailbox = none)
    (run : k.faultHandlerInner rsp = .ok (r, k')) : Kept true k k' := by
  obtain ⟨old, cur⟩ := sound.current
  have kept : Kept true k (k.setState old .terminated) :=
    (Kept.refl empty).modifyTask rfl (fun h => by cases h) fun h => by cases h
  exact kept.scheduled (sound.kill old) (faultHandlerInner_cases sound cur run)

/-- The message of a device changes nothing of the processes. -/
theorem postInitMailbox_processes (m : Message) :
    (k.postInitMailbox m).currentTaskIdx = k.currentTaskIdx ∧
      (k.postInitMailbox m).rsp0 = k.rsp0 ∧ (k.postInitMailbox m).task = k.task ∧
      (k.postInitMailbox m).mem = k.mem := by
  unfold postInitMailbox
  split <;> exact ⟨rfl, rfl, rfl, rfl⟩

theorem interrupt_dispatch {i : Interrupt} (sound : k.Sound) (nodup : k.taskList.Nodup)
    (cur : k.Current old) (step : k.step (i.event rsp) = .ok (some r, k')) :
    Dispatch k rsp old i.errorCode.isSome k' r := by
  cases i with
  | timer scripts =>
    obtain @⟨_, _, _, polled, _, ran, scheduled⟩ := step_happens sound step
    have fixed := fixed_pollKernelTasks ran
    have taskList : polled.taskList = k.taskList := congrArg Fixed.taskList fixed
    have idx : polled.currentTaskIdx = k.currentTaskIdx := congrArg Fixed.currentTaskIdx fixed
    have nodup1 : polled.taskList.Nodup := by
      rw [taskList]
      exact nodup
    refine (scheduleNext_dispatch (sound.fixed fixed).tick nodup1 (cur.polled ran)
      (fun h => by cases h) scheduled).before idx (congrArg Fixed.rsp0 fixed) fun t => ?_
    exact congrArg (fun f => (f.identity t).2.2.1) fixed
  | keyboard data scripts | serial data scripts =>
    obtain ⟨⟨r, after⟩, handled, same⟩ := map_ok step
    cases same
    obtain ⟨rfl, ran⟩ := deviceHandlerInner_cases handled
    have fixed := fixed_pollKernelTasks ran
    obtain ⟨idx, rsp0, task, -⟩ := postInitMailbox_processes (k := k) (deviceMessage _ data)
    refine .stays rfl ((congrArg Fixed.currentTaskIdx fixed).trans idx)
      ((congrArg Fixed.rsp0 fixed).trans rsp0) fun t => ?_
    rw [show (k'.task t).kernelRsp = _ from congrArg (fun f => (f.identity t).2.2.1) fixed]
    exact congrArg (fun task => (task t).kernelRsp) task
  | gpf code | pageFault code =>
    obtain ⟨⟨r, after⟩, handled, same⟩ := map_ok step
    cases same
    exact fault_dispatch sound nodup cur handled

theorem interrupt_kept {i : Interrupt} (sound : k.Sound) (empty : ∀ t, (k.task t).mailbox = none)
    (step : k.step (i.event rsp) = .ok (some r, k')) : Kept i.errorCode.isSome k k' := by
  cases i with
  | timer scripts =>
    obtain @⟨_, _, _, polled, _, ran, scheduled⟩ := step_happens sound step
    have ticked : Kept false k { polled with tickCount := polled.tickCount + 1 } :=
      ((Kept.refl empty).polled ran).congr rfl rfl (fun _ => rfl) fun _ => rfl
    exact ticked.scheduled (sound.fixed (fixed_pollKernelTasks ran)).tick scheduled
  | keyboard data scripts | serial data scripts =>
    obtain ⟨⟨r, after⟩, handled, same⟩ := map_ok step
    cases same
    obtain ⟨rfl, ran⟩ := deviceHandlerInner_cases handled
    have posted : ∀ m, Kept false k (k.postInitMailbox m) := by
      intro m
      unfold postInitMailbox
      split
      · exact .refl empty
      · exact (Kept.refl empty).congr rfl rfl (fun _ => rfl) fun _ => rfl
    exact (posted _).polled ran
  | gpf code | pageFault code =>
    obtain ⟨⟨r, after⟩, handled, same⟩ := map_ok step
    cases same
    exact fault_kept sound empty handled

theorem scheduleNext_mem {force : Bool} (sound : k.Sound)
    (run : k.scheduleNext rsp force = .ok (r, k')) : k'.mem = k.mem := by
  obtain ⟨old, cur⟩ := sound.current
  rcases scheduleNext_cases sound.taskList_free cur run with
    ⟨-, -, rfl⟩ | ⟨-, new, -, -, rfl⟩ <;> rfl

/-- No handler of an interrupt stores to the memory of the processes. -/
theorem interrupt_mem {i : Interrupt} (sound : k.Sound)
    (step : k.step (i.event rsp) = .ok (some r, k')) : k'.mem = k.mem := by
  cases i with
  | timer scripts =>
    obtain @⟨_, _, _, polled, _, ran, scheduled⟩ := step_happens sound step
    have fixed := fixed_pollKernelTasks ran
    exact (scheduleNext_mem (sound.fixed fixed).tick scheduled).trans (congrArg Fixed.mem fixed)
  | keyboard data scripts | serial data scripts =>
    obtain ⟨⟨r, after⟩, handled, same⟩ := map_ok step
    cases same
    obtain ⟨-, ran⟩ := deviceHandlerInner_cases handled
    exact (congrArg Fixed.mem (fixed_pollKernelTasks ran)).trans (postInitMailbox_processes _).2.2.2
  | gpf code | pageFault code =>
    obtain ⟨⟨r, after⟩, handled, same⟩ := map_ok step
    cases same
    obtain ⟨old, cur⟩ := sound.current
    have scheduled := faultHandlerInner_cases sound cur handled
    exact scheduleNext_mem (k := k.setState old .terminated) (sound.kill old) scheduled

end Kernel

end Microkernel
