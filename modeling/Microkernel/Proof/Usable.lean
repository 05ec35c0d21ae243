import Microkernel.Proof.Mailbox

/-! What a system call leaves behind, also one that faults in the kernel and is abandoned there. -/

namespace Microkernel

open Lib

namespace Kernel

variable {k k' mid : Kernel} {id arg1 arg2 rsp r : UInt64} {out : Option UInt64}

/-- From `k` to `k'` no lock has been taken and kept, and no message has left a mailbox without
being received. -/
structure LeavesUsable (k k' : Kernel) : Prop where
  unlocked : ∀ g ∈ k'.held, g ∈ k.held
  received : ∀ m, k.initMailbox = some m → k'.initMailbox ≠ some m →
    k'.history = k.history ++ [.received m]
  mailboxes : ∀ t m, (k.task t).mailbox = some m → (k'.task t).mailbox ≠ none

theorem LeavesUsable.switched (usable : LeavesUsable k mid) (switched : Switched mid k') :
    LeavesUsable k k' where
  unlocked g hg := by
    rw [switched.held] at hg
    exact usable.unlocked g hg
  received m waiting gone := by
    rw [switched.initMailbox] at gone
    rw [switched.history]
    exact usable.received m waiting gone
  mailboxes t m waiting := by
    rw [switched.mailbox t]
    exact usable.mailboxes t m waiting

/-- What changes neither the locks nor `INIT_MAILBOX` nor the mailboxes of tasks. -/
theorem LeavesUsable.same (held : k'.held = k.held) (init : k'.initMailbox = k.initMailbox)
    (mailbox : ∀ t, (k'.task t).mailbox = (k.task t).mailbox) : LeavesUsable k k' where
  unlocked g hg := by rwa [held] at hg
  received m waiting gone := by
    rw [init] at gone
    exact absurd waiting gone
  mailboxes t m waiting := by
    rw [mailbox t, waiting]
    simp

/-- A call that is not cut short leaves the kernel usable when it ends. -/
theorem call_usable {o : Outcome UInt64} (call : Call k arg1 arg2 id o)
    (whole : ¬ k.CutShort (.syscall id arg1 arg2 rsp)) : o.Ends (LeavesUsable k) := by
  cases call with
  | idle | sendFault | print | regService => exact .same rfl rfl fun _ => rfl
  | exit | setPriority =>
    exact .same rfl rfl fun u => modifyTask_keeps Task.mailbox rfl u
  | @send t =>
    have fixed := fixed_deliver (k := k) t (k.messageAt arg2)
    refine ⟨fun g hg => ?_, fun m waiting gone => ?_, fun u m waiting => ?_⟩
    · rwa [show (k.deliver t (k.messageAt arg2)).held = k.held from
        congrArg Fixed.held fixed] at hg
    · rw [show (k.deliver t (k.messageAt arg2)).initMailbox = k.initMailbox from
        congrArg Fixed.initMailbox fixed] at gone
      exact absurd waiting gone
    · rw [deliver_mailbox]
      split
      · simp
      · rw [waiting]
        simp
  | @recv msg free waiting =>
    refine ⟨fun _ hg => hg, fun m waiting' _ => ?_, fun t m waiting => ?_⟩
    · rw [waiting] at waiting'
      cases waiting'
      rfl
    · show (k.task t).mailbox ≠ none
      rw [waiting]
      simp
  | recvFault free waiting bad => exact absurd ⟨rfl, free, by rw [waiting]; rfl, bad⟩ whole

/-- A `SYS_RECV` that is cut short leaves `INIT_MAILBOX` locked. -/
theorem cutShort_locks (sound : k.Sound) (cut : k.CutShort (.syscall id arg1 arg2 rsp))
    (run : k.syscall id arg1 arg2 rsp = .ok (out, k')) :
    initMailboxGuard ∈ k'.held ∧ initMailboxGuard ∉ k.held := by
  obtain ⟨rfl, free, some_waits, bad⟩ := cut
  obtain ⟨msg, waiting⟩ := Option.isSome_iff_exists.mp some_waits
  have call : (handleSyscall 11 arg1 arg2).run k =
      .fault { k.acquire initMailboxGuard with initMailbox := none } :=
    sysRecv_fault free waiting bad
  unfold Kernel.syscall at run
  rw [call] at run
  obtain ⟨⟨r, after⟩, handled, same⟩ := map_ok run
  cases same
  have cutCall : Call k arg1 arg2 11
      (.fault { k.acquire initMailboxGuard with initMailbox := none }) :=
    .recvFault free waiting bad
  have sound' : Sound { k.acquire initMailboxGuard with initMailbox := none } :=
    cutCall.sound sound
  have switched := faultHandlerInner_switched sound' handled
  refine ⟨?_, fun held => ?_⟩
  · rw [switched.held]
    exact List.mem_cons_self
  · have none_held := List.any_eq_false.mp free initMailboxGuard held
    exact none_held (decide_eq_true rfl)

theorem syscall_total (sound : k.Sound) (id arg1 arg2 rsp : UInt64) :
    ∃ out k', k.syscall id arg1 arg2 rsp = .ok (out, k') := by
  have call := handleSyscall_call sound.quiet id arg1 arg2
  unfold Kernel.syscall
  generalize (handleSyscall id arg1 arg2).run k = o at call
  have ends := call.sound sound
  cases o with
  | done value mid => exact ⟨none, mid, rfl⟩
  | fault mid =>
    obtain ⟨r, after, handled⟩ := faultHandlerInner_total (k := mid) ends rsp
    exact ⟨some r, after, by simp only [handled]; rfl⟩
  | stop reason => cases ends

/-- A call replaces a message in the mailbox of a task only by sending to it. -/
theorem syscall_replaces (sound : k.Sound) (run : k.syscall id arg1 arg2 rsp = .ok (out, k'))
    {t : TaskRef} (changed : (k'.task t).mailbox ≠ (k.task t).mailbox) :
    id = 10 ∧ k.taskRegistry ⟨arg1⟩ = some t := by
  obtain ⟨o, call, ⟨-, value, rfl⟩ | ⟨mid, r, -, rfl, handled⟩⟩ := syscall_cases sound run
  · cases call with
    | idle | print | regService | recv => exact absurd rfl changed
    | exit | setPriority => exact absurd (modifyTask_keeps Task.mailbox rfl t) changed
    | @send u found =>
      refine ⟨rfl, ?_⟩
      by_cases here : t = u
      · rw [here, found]
      · rw [deliver_mailbox, if_neg here] at changed
        exact absurd rfl changed
  · have switched := faultHandlerInner_switched (call.sound sound) handled
    rw [switched.mailbox t] at changed
    cases call with
    | sendFault | recvFault => exact absurd rfl changed

theorem call_held {o : Outcome UInt64} (call : Call k arg1 arg2 id o)
    (whole : ¬ k.CutShort (.syscall id arg1 arg2 rsp)) :
    o.Ends fun after => after.held = k.held := by
  cases call with
  | idle | sendFault | print | regService | exit | setPriority | recv => exact rfl
  | send => exact congrArg Fixed.held (fixed_deliver _ _)
  | recvFault free waiting bad => exact absurd ⟨rfl, free, by rw [waiting]; rfl, bad⟩ whole

theorem postInitMailbox_held (m : Message) : (k.postInitMailbox m).held = k.held := by
  unfold postInitMailbox
  split <;> rfl

/-- The locks that are held are the same after every event that is not cut short. -/
theorem step_held {e : Event} (sound : k.Sound) (whole : ¬ k.CutShort e) (step : k.Step e k') :
    k'.held = k.held := by
  obtain ⟨out, run⟩ := step
  cases step_happens sound run with
  | timer ran scheduled =>
    have fixed := fixed_pollKernelTasks ran
    exact (scheduleNext_switched (sound.fixed fixed).tick scheduled).held.trans
      (congrArg Fixed.held fixed)
  | keyboard ran | serial ran =>
    exact (congrArg Fixed.held (fixed_pollKernelTasks ran)).trans (postInitMailbox_held _)
  | gpf handled | pageFault handled => exact (faultHandlerInner_switched sound handled).held
  | returned call => exact call_held call whole
  | killed call handled =>
    exact (faultHandlerInner_switched (call.sound sound) handled).held.trans (call_held call whole)
  | userWrites | wake => rfl
  | spawn spawned =>
    obtain ⟨-, q, -, rfl⟩ := spawnStatic_cases spawned
    rfl
  | receive t cx => exact ipcReceivePoll_held t cx
  | pollTasks ran => exact congrArg Fixed.held (fixed_pollKernelTasks ran)

/-- A system call leaves the kernel usable exactly when it is not cut short. -/
theorem syscall_usable (sound : k.Sound) (run : k.syscall id arg1 arg2 rsp = .ok (out, k')) :
    LeavesUsable k k' ↔ ¬ k.CutShort (.syscall id arg1 arg2 rsp) := by
  constructor
  · intro usable cut
    obtain ⟨held, free⟩ := cutShort_locks sound cut run
    exact free (usable.unlocked initMailboxGuard held)
  · intro whole
    obtain ⟨o, call, ⟨-, value, rfl⟩ | ⟨mid, r, -, rfl, handled⟩⟩ := syscall_cases sound run
    · exact call_usable call whole
    · have usable : LeavesUsable k mid := call_usable call whole
      exact usable.switched (faultHandlerInner_switched (call.sound sound) handled)

/-- In every state that a run reaches, every system call ends, in its return or in the switch away
from the process that it killed.  It leaves the kernel usable exactly when it is not a `SYS_RECV`
that faults at the store of its message, and it replaces a message in the mailbox of a task only by
a send to that task.  No lock is held as long as no `SYS_RECV` has faulted so. -/
theorem syscall_leaves_usable {k0 : Kernel} {es : List Event} (rested : k0.Rested)
    (run : Run Step k0 es k) :
    (∀ id arg1 arg2 rsp, ∃ out k', k.syscall id arg1 arg2 rsp = .ok (out, k') ∧
      (LeavesUsable k k' ↔ ¬ k.CutShort (.syscall id arg1 arg2 rsp)) ∧
      ∀ t, (k'.task t).mailbox ≠ (k.task t).mailbox →
        id = 10 ∧ k.taskRegistry ⟨arg1⟩ = some t) ∧
    (Run (Guarded (fun k e => ¬ k.CutShort e) Step) k0 es k → k.held = []) := by
  have sound := rested.sound.run run
  refine ⟨fun id arg1 arg2 rsp => ?_, fun guarded => ?_⟩
  · obtain ⟨out, k', ended⟩ := syscall_total sound id arg1 arg2 rsp
    exact ⟨out, k', ended, syscall_usable sound ended, fun t => syscall_replaces sound ended⟩
  · refine (guarded.invariant (I := fun k => k.Sound ∧ k.held = []) ⟨rested.sound, rested.unlocked⟩
      ?_).2
    rintro a e b ⟨sound, none_held⟩ ⟨whole, step⟩
    exact ⟨sound.step step, (step_held sound whole step).trans none_held⟩

/-- A byte has arrived. -/
theorem byte_waits : ∃ k0 k, heapBoot = .ok k0 ∧
    Run Step k0 [.serial 0x41 [.ready] 0x444444447f60] k ∧ k.pages = heapPages ∧
    k.isHeld .initMailbox = false ∧ k.initMailbox = some (deviceMessage 3 0x41) := by
  have evaluated : ∃ k0 k, heapBoot = .ok k0 ∧
      k0.Step (.serial 0x41 [.ready] 0x444444447f60) k ∧ k.pages = heapPages ∧
      k.isHeld .initMailbox = false ∧ k.initMailbox = some (deviceMessage 3 0x41) :=
    ⟨_, _, rfl, ⟨_, rfl⟩, rfl, rfl, rfl⟩
  obtain ⟨k0, k, boot, arrives, facts⟩ := evaluated
  exact ⟨k0, k, boot, .single arrives, facts⟩

/-- A receive of the byte into a page that is not mapped faults, and its process is killed. -/
theorem recv_locks : ∃ k0 k out k', heapBoot = .ok k0 ∧
    Run Step k0 [.serial 0x41 [.ready] 0x444444447f60] k ∧
    k.syscall 11 0x50000000 0 0x30007f58 = .ok (out, k') ∧ ¬ LeavesUsable k k' := by
  obtain ⟨k0, k, boot, run, pages, free, waiting⟩ := byte_waits
  have sound := (heapBoot_booted boot).sound.run run
  have bad : ¬ Sys.Writable k 0x50000000 40 := by
    intro writable
    have first := writable 0 (by decide)
    rw [canWrite, pages] at first
    cases first
  obtain ⟨out, k', ended⟩ := syscall_total sound 11 0x50000000 0 0x30007f58
  refine ⟨k0, k, out, k', boot, run, ended, fun usable => ?_⟩
  exact (syscall_usable sound ended).mp usable ⟨rfl, free, by rw [waiting]; rfl, bad⟩

/-- A receive of the byte into the stack of the process leaves the kernel usable. -/
theorem syscall_leaves_usable_byte : ∃ k0 k out k', heapBoot = .ok k0 ∧
    Run Step k0 [.serial 0x41 [.ready] 0x444444447f60] k ∧
    k.syscall 11 0x30007000 0 0x30007f58 = .ok (out, k') ∧ LeavesUsable k k' := by
  obtain ⟨k0, k, boot, run, pages, -, -⟩ := byte_waits
  have result := syscall_leaves_usable (heapBoot_booted boot).toRested run
  obtain ⟨out, k', ended, usable, -⟩ := result.1 11 0x30007000 0 0x30007f58
  refine ⟨k0, k, out, k', boot, run, ended, usable.mpr fun cut => ?_⟩
  exact cut.2.2.2 (heapPages_stack pages).2

end Kernel

end Microkernel
