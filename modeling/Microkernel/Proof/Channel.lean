import Microkernel.Proof.Mailbox

/-! Where the messages of `SYS_SEND` and `SYS_RECV` are.  `SYS_RECV` reads `INIT_MAILBOX`, into
which only the device handlers put messages; `SYS_SEND` fills the mailbox of a task, which
`SYS_RECV` does not look at. -/

namespace Microkernel

open Lib

namespace Kernel

variable {k k' : Kernel}

/-- The message in `INIT_MAILBOX`, if any, is that of a device. -/
def FromDevice (k : Kernel) : Prop :=
  ∀ m, k.initMailbox = some m → ∃ label data, (label = 2 ∨ label = 3) ∧ m = deviceMessage label data

theorem FromDevice.same (device : k.FromDevice) (same : k'.initMailbox = k.initMailbox) :
    k'.FromDevice := by
  rw [FromDevice, same]
  exact device

theorem fromDevice_polls : PollKeeps FromDevice where
  wake _ device := device
  receive t cx device := device.same (congrArg Fixed.initMailbox (fixed_ipcReceivePoll t cx))
  current _ device := device
  cache _ device := device
  finish _ device := device
  polled _ device := device
  dropped _ _ device := device
  drained device := device
  pop _ device := device

theorem fromDevice_keeps : StepKeeps (fun _ _ => True) FromDevice where
  executor := fromDevice_polls.executor fun _ device => device
  tick device := device
  move _ _ device := device
  kill _ device := device
  post {k label data} kind device := by
    unfold postInitMailbox
    split
    · exact device
    · intro m posted
      cases posted
      exact ⟨label, data, kind, rfl⟩
  call _ _ call device := by
    cases call with
    | idle | sendFault | print | regService | setPriority | exit => exact device
    | send => exact device.same (congrArg Fixed.initMailbox (fixed_deliver _ _))
    | recv | recvFault =>
      intro m absent
      cases absent
  user _ device := device
  spawn _ device run := by
    obtain ⟨-, q, -, rfl⟩ := spawnStatic_cases run
    exact device

/-- A load finds the message whose words are there. -/
theorem messageAt_words {ptr : UInt64} {msg : Message}
    (words : k.mem.readWords ptr 5 = msg.words) : k.messageAt ptr = msg := by
  simp only [Memory.readWords, Message.words, List.cons.injEq, UInt64.add_assoc,
    UInt64.reduceAdd] at words
  obtain ⟨from_eq, to_eq, label_eq, first_eq, second_eq, -⟩ := words
  rw [messageAt, from_eq, to_eq, label_eq, first_eq, second_eq]
  rfl

theorem messageAt_stored {ptr : UInt64} {msg : Message}
    (stored : k'.mem = k.mem.storeAll ptr msg.words) : k'.messageAt ptr = msg := by
  apply messageAt_words
  rw [stored]
  exact Memory.storeAll_words k.mem ptr msg.words (Nat.le_of_ble_eq_true rfl)

/-- What `SYS_RECV` does: with a message and a buffer it stores the message and returns 1, without
a message it returns 0, and with a bad buffer it faults. -/
theorem recv_cases (arg1 arg2 : UInt64) :
    (∃ msg, k.isHeld .initMailbox = false ∧ k.initMailbox = some msg ∧
      Sys.Writable k arg1 40 ∧ (handleSyscall 11 arg1 arg2).run k = .done 1
        ({ k with initMailbox := none, mem := k.mem.storeAll arg1 msg.words }.observe
          (.received msg))) ∨
    ((k.isHeld .initMailbox ∨ k.initMailbox = none) ∧
      (handleSyscall 11 arg1 arg2).run k = .done 0 k) ∨
    (∃ msg, k.isHeld .initMailbox = false ∧ k.initMailbox = some msg ∧
      ¬ Sys.Writable k arg1 40 ∧ (handleSyscall 11 arg1 arg2).run k =
        .fault { k.acquire initMailboxGuard with initMailbox := none }) := by
  by_cases held : k.isHeld .initMailbox
  · exact .inr (.inl ⟨.inl held, sysRecv_empty (.inl held)⟩)
  · have free : k.isHeld .initMailbox = false := by simpa using held
    cases waiting : k.initMailbox with
    | none => exact .inr (.inl ⟨.inr rfl, sysRecv_empty (.inr waiting)⟩)
    | some msg =>
      by_cases writable : Sys.Writable k arg1 40
      · exact .inl ⟨msg, free, rfl, writable, sysRecv_done free waiting writable⟩
      · exact .inr (.inr ⟨msg, free, rfl, writable, sysRecv_fault free waiting writable⟩)

/-- In every run, `SYS_RECV` by any process with a buffer returns 1 exactly when `INIT_MAILBOX` is
free and holds a message.  It then stores the message of a device, addressed to 1, and never one
that was sent: the messages sent to a task and neither received nor replaced since are in the
mailbox of the task, where `SYS_RECV` leaves them. -/
theorem recv_only_devices {k0 : Kernel} {es : List Event} (rested : k0.Rested)
    (run : Run Step k0 es k) :
    (∀ arg1 arg2, Sys.Writable k arg1 40 →
      ((∃ k', (handleSyscall 11 arg1 arg2).run k = .done 1 k') ↔
        k.isHeld .initMailbox = false ∧ k.initMailbox.isSome)) ∧
    (∀ arg1 arg2 k', (handleSyscall 11 arg1 arg2).run k = .done 1 k' →
      ∃ label data, (label = 2 ∨ label = 3) ∧ k'.messageAt arg1 = deviceMessage label data) ∧
    (∀ t m, (k.history.filterMap (mailboxEvent t)).getLast? = some (.put m) ↔
      (k.task t).mailbox = some m) ∧
    ∀ arg1 arg2 v k', (handleSyscall 11 arg1 arg2).run k = .done v k' →
      ∀ t, (k'.task t).mailbox = (k.task t).mailbox := by
  have device : k.FromDevice := by
    refine fromDevice_keeps.run rested.sound ?_ (run.mono fun _ _ _ step => ⟨trivial, step⟩)
    intro m absent
    rw [rested.initMailbox] at absent
    cases absent
  refine ⟨fun arg1 arg2 writable => ?_, fun arg1 arg2 k' returned => ?_, fun t m => ?_,
    fun arg1 arg2 v k' returned t => ?_⟩
  · rcases recv_cases (k := k) arg1 arg2 with ⟨msg, free, waiting, -, done⟩ |
      ⟨absent, done⟩ | ⟨_, -, -, bad, -⟩
    · exact iff_of_true ⟨_, done⟩ ⟨free, by rw [waiting]; rfl⟩
    · refine iff_of_false ?_ ?_
      · rintro ⟨k', one⟩
        rw [done] at one
        cases one
      · rintro ⟨free, some_waits⟩
        rcases absent with held | empty
        · rw [held] at free
          cases free
        · rw [empty] at some_waits
          cases some_waits
    · exact absurd writable bad
  · rcases recv_cases (k := k) arg1 arg2 with ⟨msg, free, waiting, -, done⟩ |
      ⟨-, done⟩ | ⟨_, -, -, -, faulted⟩
    · rw [done] at returned
      cases returned
      obtain ⟨label, data, kind, rfl⟩ := device msg waiting
      exact ⟨label, data, kind, messageAt_stored rfl⟩
    · rw [done] at returned
      cases returned
    · rw [faulted] at returned
      cases returned
  · exact ((rested.run_mailFollows run).follows t).pending.symm
  · rcases recv_cases (k := k) arg1 arg2 with ⟨msg, -, -, -, done⟩ | ⟨-, done⟩ |
      ⟨_, -, -, -, faulted⟩
    · rw [done] at returned
      cases returned
      rfl
    · rw [done] at returned
      cases returned
      rfl
    · rw [faulted] at returned
      cases returned

/-- Five ticks bring the second process to the processor, and then a byte arrives. -/
theorem second_process : ∃ k0 k, heapBoot = .ok k0 ∧
    Run Step k0 [.timer [.ready] 0x444444447f60, .timer [] 0x444444447f60,
      .timer [] 0x444444447f60, .timer [] 0x444444447f60, .timer [] 0x444444447f60,
      .serial 0x41 [] 0x44444444ff60] k ∧
    k.Current 1 ∧ (k.task 1).id.val = 2 ∧ k.pages = heapPages ∧
    k.isHeld .initMailbox = false ∧ k.initMailbox = some (deviceMessage 3 0x41) := by
  have evaluated : ∃ k0 k1 k2 k3 k4 k5 k6, heapBoot = .ok k0 ∧
      k0.Step (.timer [.ready] 0x444444447f60) k1 ∧ k1.Step (.timer [] 0x444444447f60) k2 ∧
      k2.Step (.timer [] 0x444444447f60) k3 ∧ k3.Step (.timer [] 0x444444447f60) k4 ∧
      k4.Step (.timer [] 0x444444447f60) k5 ∧ k5.Step (.serial 0x41 [] 0x44444444ff60) k6 ∧
      k6.taskList[k6.currentTaskIdx]? = some 1 ∧ (k6.task 1).id.val = 2 ∧ k6.pages = heapPages ∧
      k6.isHeld .initMailbox = false ∧ k6.initMailbox = some (deviceMessage 3 0x41) :=
    ⟨_, _, _, _, _, _, _, rfl, ⟨_, rfl⟩, ⟨_, rfl⟩, ⟨_, rfl⟩, ⟨_, rfl⟩, ⟨_, rfl⟩, ⟨_, rfl⟩, rfl,
      rfl, rfl, rfl, rfl⟩
  obtain ⟨k0, k1, k2, k3, k4, k5, k6, boot, s1, s2, s3, s4, s5, s6, facts⟩ := evaluated
  exact ⟨k0, k6, boot, (((((Run.single s1).snoc s2).snoc s3).snoc s4).snoc s5).snoc s6, facts⟩

/-- The second process receives a message that is addressed to the first one. -/
theorem recv_misaddressed : ∃ k0 k k', heapBoot = .ok k0 ∧
    Run Step k0 [.timer [.ready] 0x444444447f60, .timer [] 0x444444447f60,
      .timer [] 0x444444447f60, .timer [] 0x444444447f60, .timer [] 0x444444447f60,
      .serial 0x41 [] 0x44444444ff60] k ∧
    k.Current 1 ∧ (k.task 1).id.val = 2 ∧
    (handleSyscall 11 0x30007000 0).run k = .done 1 k' ∧ (k'.messageAt 0x30007000).to = 1 := by
  obtain ⟨k0, k, boot, run, cur, second, pages, free, waiting⟩ := second_process
  have done := sysRecv_done free waiting (heapPages_stack pages).2
  refine ⟨k0, k, _, boot, run, cur, second, done, ?_⟩
  rw [messageAt_stored rfl]
  rfl

/-- The message that the second process receives is that of the serial port. -/
theorem recv_only_devices_serial : ∃ k0 k, heapBoot = .ok k0 ∧
    (∃ k', (handleSyscall 11 0x30007000 0).run k = .done 1 k') ∧
    Run Step k0 [.timer [.ready] 0x444444447f60, .timer [] 0x444444447f60,
      .timer [] 0x444444447f60, .timer [] 0x444444447f60, .timer [] 0x444444447f60,
      .serial 0x41 [] 0x44444444ff60] k := by
  obtain ⟨k0, k, boot, run, -, -, pages, free, waiting⟩ := second_process
  have result := recv_only_devices (heapBoot_booted boot).toRested run
  refine ⟨k0, k, boot, ?_, run⟩
  exact (result.1 0x30007000 0 (heapPages_stack pages).2).mpr ⟨free, by rw [waiting]; rfl⟩

end Kernel

end Microkernel
