import Microkernel.Syscall

/-! What each system call does in a kernel where no lock but that of `INIT_MAILBOX` is held: the
value it returns or the fault, and the state at that moment. -/

namespace Microkernel

open Lib

namespace Sys

variable {α β : Type} {k c : Kernel} {l : Lock} {body otherwise : Sys α} {a : α}

@[simp] theorem run_bind (x : Sys α) (f : α → Sys β) (k : Kernel) :
    (x >>= f).run k = match x.run k with
      | .done a k => (f a).run k
      | .fault k => .fault k
      | .stop reason => .stop reason := rfl

@[simp] theorem run_pure (a : α) (k : Kernel) : (pure a : Sys α).run k = .done a k := rfl

@[simp] theorem run_read (f : Kernel → α) (k : Kernel) : (read f).run k = .done (f k) k := rfl

@[simp] theorem run_modify (f : Kernel → Kernel) (k : Kernel) :
    (modify f).run k = .done () (f k) := rfl

theorem run_lock (free : k.isHeld l = false) :
    (lock l body).run k = (guarded ⟨l, false⟩ body).run k := by simp [run, lock, free]

theorem run_lockShared (free : k.isHeldExclusively l = false) :
    (lockShared l body).run k = (guarded ⟨l, true⟩ body).run k := by simp [run, lockShared, free]

theorem run_tryLock (free : k.isHeld l = false) :
    (tryLock l body otherwise).run k = (guarded ⟨l, false⟩ body).run k := by
  simp [run, tryLock, free]

theorem run_tryLock_held (held : k.isHeld l = true) :
    (tryLock l body otherwise).run k = otherwise.run k := by simp [run, tryLock, held]

/-- The end of a guarded body that returns drops the guard. -/
theorem run_guarded {g : Guard} (result : body.run (k.acquire g) = .done a (c.acquire g)) :
    (guarded g body).run k = .done a c := by
  have dropped : (c.acquire g).release g = c := by
    simp only [Kernel.release, Kernel.acquire, List.erase_cons_head]
  unfold run at result
  simp only [run, guarded, result, dropped]

theorem run_lock_modify {f : Kernel → Kernel} (free : k.isHeld l = false)
    (apart : f (k.acquire ⟨l, false⟩) = (f k).acquire ⟨l, false⟩) :
    (lock l (modify f)).run k = .done () (f k) := by
  rw [run_lock free]
  exact run_guarded (by rw [run_modify, apart])

theorem run_guarded_fault {g : Guard} (result : body.run (k.acquire g) = .fault c) :
    (guarded g body).run k = .fault c := by
  unfold run at result
  simp [run, guarded, result]

/-- The `n` bytes from `ptr` can be stored to. -/
def Writable (k : Kernel) (ptr : UInt64) (n : Nat) : Prop :=
  ∀ i < n, k.canWrite (ptr + UInt64.ofNat i)

instance (ptr : UInt64) (n : Nat) : Decidable (Writable k ptr n) :=
  inferInstanceAs (Decidable (∀ i < n, _))

theorem storeWords_done {ws : List UInt64} {ptr : UInt64}
    (writable : Writable k ptr (8 * ws.length)) :
    (storeWords ptr ws).run k = .done () { k with mem := k.mem.storeAll ptr ws } :=
  if_pos writable

theorem storeWords_fault {ws : List UInt64} {ptr : UInt64}
    (bad : ¬ Writable k ptr (8 * ws.length)) : (storeWords ptr ws).run k = .fault k :=
  if_neg bad

end Sys

namespace Kernel

open Sys

variable {k : Kernel}

/-- No lock is held but that of `INIT_MAILBOX`. -/
def Quiet (k : Kernel) : Prop := ∀ g ∈ k.held, g.lock = .initMailbox

theorem isHeld_acquire_eq (g : Guard) (l : Lock) :
    (k.acquire g).isHeld l = (decide (g.lock = l) || k.isHeld l) := by simp [isHeld, acquire]

theorem Quiet.free (quiet : k.Quiet) {l : Lock} (other : l ≠ .initMailbox) :
    k.isHeld l = false := by
  simp only [isHeld, List.any_eq_false]
  intro g hg same
  exact other ((of_decide_eq_true same).symm.trans (quiet g hg))

theorem Quiet.freeShared (quiet : k.Quiet) {l : Lock} (other : l ≠ .initMailbox) :
    k.isHeldExclusively l = false := by
  simp only [isHeldExclusively, List.any_eq_false]
  intro g hg same
  exact other ((of_decide_eq_true same).1.symm.trans (quiet g hg))

theorem sysExit_eq (quiet : k.Quiet) :
    sysExit.run k = .done 0
      (match k.taskRegistry ⟨k.currentTaskId⟩ with
        | some t => k.setState t .terminated
        | none => k) := by
  simp only [sysExit, run_bind, run_read, run_pure]
  rw [run_lockShared (quiet.freeShared (by decide))]
  cases found : k.taskRegistry ⟨k.currentTaskId⟩ with
  | none =>
    rw [run_guarded (c := k) (a := ())]
    simp only [run_bind, run_read, show (k.acquire _).taskRegistry _ = none from found, run_pure]
  | some t =>
    have free : (k.acquire ⟨.taskRegistry, true⟩).isHeld (.state t) = false := by
      simp [isHeld_acquire_eq, quiet.free]
    rw [run_guarded (c := k.setState t .terminated) (a := ())]
    simp only [run_bind, run_read, show (k.acquire _).taskRegistry _ = some t from found]
    exact run_lock_modify free rfl

/-- What `SYS_SEND` does to a target that waits: it is made `Ready` and its waker runs. -/
def awaken (k : Kernel) (t : TaskRef) : Kernel :=
  if (k.task t).state = .blocked then
    match (k.task t).waker with
    | some waker =>
      ((k.setState t .ready).modifyTask t fun task => { task with waker := none }).wakeTask
        waker.taskId
    | none => k.setState t .ready
  else k

def putMailbox (k : Kernel) (t : TaskRef) (msg : Message) : Kernel :=
  k.modifyTask t fun task => { task with mailbox := some msg }

/-- What `SYS_SEND` does with a message for task `t`. -/
def deliver (k : Kernel) (t : TaskRef) (msg : Message) : Kernel :=
  ((k.putMailbox t msg).awaken t).observe (.acknowledged t msg)

theorem awaken_acquire (g : Guard) (t : TaskRef) :
    (k.acquire g).awaken t = (k.awaken t).acquire g := by
  have same : (k.acquire g).task = k.task := rfl
  simp only [awaken, same]
  by_cases blocked : (k.task t).state = .blocked
  · rw [if_pos blocked, if_pos blocked]
    cases (k.task t).waker <;> rfl
  · rw [if_neg blocked, if_neg blocked]

theorem wakeTarget_eq {t : TaskRef} (state_free : k.isHeld (.state t) = false)
    (waker_free : k.isHeld (.waker t) = false) :
    (wakeTarget t).run k = .done () (k.awaken t) := by
  unfold wakeTarget
  rw [run_lock state_free]
  apply run_guarded
  rw [← awaken_acquire]
  have task_eq : (k.acquire ⟨.state t, false⟩).task = k.task := rfl
  simp only [run_bind, run_read, task_eq, awaken]
  by_cases blocked : (k.task t).state = .blocked
  · have free : ((k.acquire ⟨.state t, false⟩).setState t .ready).isHeld (.waker t) = false := by
      show (k.acquire ⟨.state t, false⟩).isHeld (.waker t) = false
      simp [isHeld_acquire_eq, waker_free]
    rw [if_pos blocked, if_pos blocked, run_bind, run_modify]
    simp only
    rw [run_lock free]
    apply run_guarded
    have waker_eq : ((((k.acquire ⟨.state t, false⟩).setState t .ready).acquire
        ⟨.waker t, false⟩).task t).waker = (k.task t).waker := by
      show ((k.setState t .ready).task t).waker = _
      simp [setState]
    simp only [run_bind, run_read, waker_eq]
    cases (k.task t).waker with
    | none => rfl
    | some waker => rfl
  · rw [if_neg blocked, if_neg blocked]
    rfl

/-- The guarded part of `SYS_SEND`. -/
theorem stored_and_woken {t : TaskRef} {msg : Message} (state_free : k.isHeld (.state t) = false)
    (waker_free : k.isHeld (.waker t) = false) :
    (guarded ⟨.mailbox t, false⟩ do
        modify fun k => k.modifyTask t fun task => { task with mailbox := some msg }
        wakeTarget t).run k = .done () ((k.putMailbox t msg).awaken t) := by
  apply run_guarded
  rw [run_bind, run_modify]
  simp only
  rw [wakeTarget_eq, ← awaken_acquire]
  · rfl
  · show (k.acquire ⟨.mailbox t, false⟩).isHeld (.state t) = false
    simp [isHeld_acquire_eq, state_free]
  · show (k.acquire ⟨.mailbox t, false⟩).isHeld (.waker t) = false
    simp [isHeld_acquire_eq, waker_free]

/-- The message that a load from `ptr` finds. -/
def messageAt (k : Kernel) (ptr : UInt64) : Message :=
  .ofWords (k.mem.read64 ptr) (k.mem.read64 (ptr + 8)) (k.mem.read64 (ptr + 16))
    (k.mem.read64 (ptr + 24)) (k.mem.read64 (ptr + 32))

/-- The `n` bytes from `ptr` can be loaded. -/
def Readable (k : Kernel) (ptr : UInt64) (n : Nat) : Prop :=
  ∀ i < n, k.canRead (ptr + UInt64.ofNat i)

instance (ptr : UInt64) (n : Nat) : Decidable (k.Readable ptr n) :=
  inferInstanceAs (Decidable (∀ i < n, _))

theorem sysSend_eq (quiet : k.Quiet) (arg1 arg2 : UInt64) :
    (sysSend arg1 arg2).run k =
      if arg2 < 0x20000000 then .done 2 k
      else if k.Readable arg2 40 then
        match k.taskRegistry ⟨arg1⟩ with
        | some t => .done 0 (k.deliver t (k.messageAt arg2))
        | none => .done 1 k
      else .fault k := by
  unfold sysSend
  split
  · rfl
  · have loaded : (loadMessage arg2).run k =
        if k.Readable arg2 40 then .done (k.messageAt arg2) k else .fault k := rfl
    rw [run_bind, loaded]
    by_cases readable : k.Readable arg2 40
    · rw [if_pos readable, if_pos readable]
      simp only
      rw [run_lockShared (quiet.freeShared (by decide))]
      cases found : k.taskRegistry ⟨arg1⟩ with
      | none =>
        apply run_guarded
        simp only [run_bind, run_read, show (k.acquire _).taskRegistry _ = none from found,
          run_pure]
      | some t =>
        apply run_guarded
        simp only [run_bind, run_read, show (k.acquire _).taskRegistry _ = some t from found]
        have free : ∀ l : Lock, l ≠ .taskRegistry → l ≠ .initMailbox →
            (k.acquire ⟨.taskRegistry, true⟩).isHeld l = false := by
          intro l registry other
          simp [isHeld_acquire_eq, quiet.free other, registry.symm]
        rw [run_lock (free _ (by simp) (by simp)), stored_and_woken (free _ (by simp) (by simp))
          (free _ (by simp) (by simp))]
        have moved : ((k.acquire ⟨.taskRegistry, true⟩).putMailbox t (k.messageAt arg2)).awaken t =
            ((k.putMailbox t (k.messageAt arg2)).awaken t).acquire ⟨.taskRegistry, true⟩ :=
          awaken_acquire (k := k.putMailbox t (k.messageAt arg2)) _ t
        rw [moved]
        rfl
    · rw [if_neg readable, if_neg readable]

def initMailboxGuard : Guard := ⟨.initMailbox, false⟩

/-- The guarded part of `SYS_RECV`. -/
def takeMessage (arg1 : UInt64) : Sys UInt64 := do
  match ← read Kernel.initMailbox with
  | some msg => do
    modify fun k => { k with initMailbox := none }
    storeMessage arg1 msg
    modify fun k => k.observe (.received msg)
    pure 1
  | none => pure 0

theorem run_takeMessage {arg1 : UInt64} {msg : Message} (waiting : k.initMailbox = some msg) :
    (takeMessage arg1).run k =
      match (storeMessage arg1 msg).run { k with initMailbox := none } with
      | .done _ k => .done 1 (k.observe (.received msg))
      | .fault k => .fault k
      | .stop reason => .stop reason := by
  unfold takeMessage
  rw [run_bind, run_read, waiting]
  simp only [run_bind, run_modify, run_pure]
  cases (storeMessage arg1 msg).run { k with initMailbox := none } <;> rfl

/-- `SYS_RECV` with a message that it can store. -/
theorem sysRecv_done {arg1 : UInt64} {msg : Message} (free : k.isHeld .initMailbox = false)
    (waiting : k.initMailbox = some msg) (writable : Writable k arg1 40) :
    (sysRecv arg1).run k = .done 1
      ({ k with initMailbox := none, mem := k.mem.storeAll arg1 msg.words }.observe
        (.received msg)) := by
  have same : (k.acquire initMailboxGuard).initMailbox = some msg := waiting
  have done := storeWords_done (k := { k.acquire initMailboxGuard with initMailbox := none })
    (show Writable k arg1 (8 * msg.words.length) from writable)
  rw [sysRecv, run_tryLock free]
  apply run_guarded
  show (takeMessage arg1).run (k.acquire initMailboxGuard) = _
  rw [run_takeMessage same, storeMessage, done]
  rfl

/-- `SYS_RECV` with a message that it cannot store faults with the message taken and `INIT_MAILBOX`
locked. -/
theorem sysRecv_fault {arg1 : UInt64} {msg : Message} (free : k.isHeld .initMailbox = false)
    (waiting : k.initMailbox = some msg) (bad : ¬ Writable k arg1 40) :
    (sysRecv arg1).run k = .fault { k.acquire initMailboxGuard with initMailbox := none } := by
  have same : (k.acquire initMailboxGuard).initMailbox = some msg := waiting
  have faulted := storeWords_fault (k := { k.acquire initMailboxGuard with initMailbox := none })
    (show ¬ Writable k arg1 (8 * msg.words.length) from bad)
  rw [sysRecv, run_tryLock free]
  apply run_guarded_fault
  show (takeMessage arg1).run (k.acquire initMailboxGuard) = _
  rw [run_takeMessage same, storeMessage, faulted]

theorem sysRecv_empty {arg1 : UInt64} (none_waits : k.isHeld .initMailbox ∨ k.initMailbox = none) :
    (sysRecv arg1).run k = .done 0 k := by
  by_cases held : k.isHeld .initMailbox
  · rw [sysRecv, run_tryLock_held held]
    rfl
  · have empty : (k.acquire ⟨.initMailbox, false⟩).initMailbox = none :=
      none_waits.resolve_left held
    rw [sysRecv, run_tryLock (by simpa using held)]
    apply run_guarded
    simp only [run_bind, run_read, empty, run_pure]

theorem sysSetPriority_eq (quiet : k.Quiet) (arg1 : UInt64) :
    (sysSetPriority arg1).run k =
      match k.taskRegistry ⟨k.currentTaskId⟩ with
      | some t => .done 0 (k.modifyTask t fun task => { task with priority := arg1 })
      | none => .done 1 k := by
  unfold sysSetPriority
  rw [run_bind, run_read]
  simp only
  rw [run_lockShared (quiet.freeShared (by decide))]
  cases found : k.taskRegistry ⟨k.currentTaskId⟩ with
  | none =>
    apply run_guarded
    simp only [run_bind, run_read, show (k.acquire _).taskRegistry _ = none from found, run_pure]
  | some t =>
    apply run_guarded
    simp only [run_bind, run_read, show (k.acquire _).taskRegistry _ = some t from found]
    rfl

theorem sysRegService_eq (quiet : k.Quiet) (arg1 : UInt64) :
    (sysRegService arg1).run k = .done 0
      { k with serviceRegistry :=
          Function.update k.serviceRegistry arg1 (some ⟨k.currentTaskId⟩) } := by
  unfold sysRegService
  rw [run_bind, run_read]
  simp only
  rw [run_bind, run_lock_modify (quiet.free (by decide)) rfl]
  rfl

theorem sysGetServicePid_eq (quiet : k.Quiet) (arg1 : UInt64) :
    (sysGetServicePid arg1).run k = .done
      (match k.serviceRegistry arg1 with
        | some pid => pid.val
        | none => 0xFFFFFFFFFFFFFFFF) k := by
  unfold sysGetServicePid
  rw [run_lockShared (quiet.freeShared (by decide))]
  apply run_guarded
  rw [run_bind, run_read]
  show Sys.run (match k.serviceRegistry arg1 with | some pid => _ | none => _) _ = _
  cases k.serviceRegistry arg1 <;> rfl

/-! ### Every call -/

/-- Everything that a system call can do in a quiet kernel. -/
inductive Call (k : Kernel) (arg1 arg2 : UInt64) : UInt64 → Outcome UInt64 → Prop
  | idle (id value : UInt64) : Call k arg1 arg2 id (.done value k)
  | print (bytes : List UInt8) : Call k arg1 arg2 1 (.done 0 { k with printed := bytes })
  | exit {t : TaskRef} (found : k.taskRegistry ⟨k.currentTaskId⟩ = some t) :
      Call k arg1 arg2 2 (.done 0 (k.setState t .terminated))
  | send {t : TaskRef} (found : k.taskRegistry ⟨arg1⟩ = some t) :
      Call k arg1 arg2 10 (.done 0 (k.deliver t (k.messageAt arg2)))
  | sendFault (bad : ¬ k.Readable arg2 40) : Call k arg1 arg2 10 (.fault k)
  | recv {msg : Message} (free : k.isHeld .initMailbox = false)
      (waiting : k.initMailbox = some msg) (writable : Writable k arg1 40) :
      Call k arg1 arg2 11 (.done 1
        ({ k with initMailbox := none, mem := k.mem.storeAll arg1 msg.words }.observe
          (.received msg)))
  | recvFault {msg : Message} (free : k.isHeld .initMailbox = false)
      (waiting : k.initMailbox = some msg) (bad : ¬ Writable k arg1 40) :
      Call k arg1 arg2 11 (.fault { k.acquire initMailboxGuard with initMailbox := none })
  | setPriority {t : TaskRef} (found : k.taskRegistry ⟨k.currentTaskId⟩ = some t) :
      Call k arg1 arg2 13 (.done 0 (k.modifyTask t fun task => { task with priority := arg1 }))
  | regService : Call k arg1 arg2 14 (.done 0
      { k with serviceRegistry :=
          Function.update k.serviceRegistry arg1 (some ⟨k.currentTaskId⟩) })

theorem call_send (quiet : k.Quiet) (arg1 arg2 : UInt64) :
    Call k arg1 arg2 10 ((sysSend arg1 arg2).run k) := by
  rw [sysSend_eq quiet]
  split
  · exact .idle 10 2
  · split
    · cases found : k.taskRegistry ⟨arg1⟩ with
      | none => exact .idle 10 1
      | some t => exact .send found
    next bad => exact .sendFault bad

theorem call_recv (arg1 arg2 : UInt64) : Call k arg1 arg2 11 ((sysRecv arg1).run k) := by
  by_cases held : k.isHeld .initMailbox
  · rw [sysRecv_empty (.inl held)]
    exact .idle 11 0
  · have free : k.isHeld .initMailbox = false := by simpa using held
    cases waiting : k.initMailbox with
    | none =>
      rw [sysRecv_empty (.inr waiting)]
      exact .idle 11 0
    | some msg =>
      by_cases writable : Writable k arg1 40
      · rw [sysRecv_done free waiting writable]
        exact .recv free waiting writable
      · rw [sysRecv_fault free waiting writable]
        exact .recvFault free waiting writable

theorem handleSyscall_call (quiet : k.Quiet) (id arg1 arg2 : UInt64) :
    Call k arg1 arg2 id ((handleSyscall id arg1 arg2).run k) := by
  unfold handleSyscall
  by_cases h1 : id = 1
  · subst h1
    exact .print _
  by_cases h2 : id = 2
  · subst h2
    rw [if_neg (by decide), if_pos rfl, sysExit_eq quiet]
    cases found : k.taskRegistry ⟨k.currentTaskId⟩ with
    | none => exact .idle 2 0
    | some t => exact .exit found
  by_cases h10 : id = 10
  · subst h10
    exact call_send quiet arg1 arg2
  by_cases h11 : id = 11
  · subst h11
    exact call_recv arg1 arg2
  by_cases h12 : id = 12
  · subst h12
    exact .idle 12 0
  by_cases h13 : id = 13
  · subst h13
    show Call k arg1 arg2 13 ((sysSetPriority arg1).run k)
    rw [sysSetPriority_eq quiet]
    cases found : k.taskRegistry ⟨k.currentTaskId⟩ with
    | none => exact .idle 13 1
    | some t => exact .setPriority found
  by_cases h14 : id = 14
  · subst h14
    show Call k arg1 arg2 14 ((sysRegService arg1).run k)
    rw [sysRegService_eq quiet]
    exact .regService
  by_cases h15 : id = 15
  · subst h15
    show Call k arg1 arg2 15 ((sysGetServicePid arg1).run k)
    rw [sysGetServicePid_eq quiet]
    exact .idle 15 _
  · simp only [h1, h2, h10, h11, h12, h13, h14, h15, if_false]
    exact .idle id _

end Kernel

end Microkernel
