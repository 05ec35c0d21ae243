import Microkernel.Lib.Slot
import Microkernel.Proof.Handover

/-! What is put into a mailbox and what is taken from it.  Both `INIT_MAILBOX` and the mailbox of a
task hold one message, which the next message replaces: over a whole run, the messages received are
those that were not replaced first. -/

namespace Microkernel

open Lib

namespace Kernel

variable {k k' : Kernel} {t u : TaskRef} {h : List Observation} {o : Observation}
  {ev : Observation → Option (SlotEvent Message)} {e : SlotEvent Message}

/-- What an observation is for `INIT_MAILBOX`. -/
def initEvent : Observation → Option (SlotEvent Message)
  | .posted m => some (.put m)
  | .received m => some (.take m)
  | _ => none

/-- What an observation is for the mailbox of task `t`. -/
def mailboxEvent (t : TaskRef) : Observation → Option (SlotEvent Message)
  | .acknowledged u m => if u = t then some (.put m) else none
  | .yielded u m => if u = t then some (.take m) else none
  | _ => none

theorem events_other (other : ev o = none) : (h ++ [o]).filterMap ev = h.filterMap ev := by
  rw [List.filterMap_append, List.filterMap_cons_none other, List.filterMap_nil, List.append_nil]

theorem events_snoc (this : ev o = some e) :
    (h ++ [o]).filterMap ev = h.filterMap ev ++ [e] := by
  rw [List.filterMap_append, List.filterMap_cons_some this, List.filterMap_nil]

theorem awaken_mailbox (t u : TaskRef) : ((k.awaken t).task u).mailbox = (k.task u).mailbox := by
  unfold awaken
  split
  · have readied : ∀ u, ((k.setState t .ready).task u).mailbox = (k.task u).mailbox :=
      fun u => modifyTask_keeps Task.mailbox rfl u
    split
    · have cleared := modifyTask_keeps (k := k.setState t .ready) (t := t)
        (f := fun task => { task with waker := none }) Task.mailbox rfl u
      exact cleared.trans (readied u)
    · exact readied u
  · rfl

theorem deliver_mailbox (t u : TaskRef) (m : Message) :
    ((k.deliver t m).task u).mailbox = if u = t then some m else (k.task u).mailbox := by
  have same : ((k.deliver t m).task u).mailbox = ((k.putMailbox t m).task u).mailbox :=
    awaken_mailbox (k := k.putMailbox t m) t u
  rw [same, putMailbox]
  by_cases here : u = t
  · subst here
    rw [if_pos rfl, modifyTask_task_self]
  · rw [if_neg here, modifyTask_task_ne k _ here]

theorem awaken_events (other : ∀ id queue, ev (.woken id queue) = none) :
    (k.awaken t).history.filterMap ev = k.history.filterMap ev := by
  unfold awaken
  split
  · split
    · exact events_other (other _ _)
    · rfl
  · rfl

/-! ### `INIT_MAILBOX` -/

/-- The history of `INIT_MAILBOX` leads to what it holds. -/
def InitFollows (k : Kernel) : Prop :=
  SlotEvent.History (k.history.filterMap initEvent) k.initMailbox

/-- `SYS_RECV` faults when it stores the message that it has taken. -/
def CutShort (k : Kernel) : Event → Prop
  | .syscall id arg1 _ _ => id = 11 ∧ k.isHeld .initMailbox = false ∧ k.initMailbox.isSome ∧
      ¬ Sys.Writable k arg1 40
  | _ => False

theorem InitFollows.other (follows : k.InitFollows) (history : k'.history = k.history ++ [o])
    (other : initEvent o = none) (mailbox : k'.initMailbox = k.initMailbox) : k'.InitFollows := by
  rw [InitFollows, history, events_other other, mailbox]
  exact follows

theorem InitFollows.put (follows : k.InitFollows) {m : Message}
    (history : k'.history = k.history ++ [.posted m]) (mailbox : k'.initMailbox = some m) :
    k'.InitFollows := by
  rw [InitFollows, history, events_snoc (e := .put m) rfl, mailbox]
  exact .put m follows

theorem InitFollows.take (follows : k.InitFollows) {m : Message} (waiting : k.initMailbox = some m)
    (history : k'.history = k.history ++ [.received m]) (mailbox : k'.initMailbox = none) :
    k'.InitFollows := by
  rw [InitFollows, waiting] at follows
  rw [InitFollows, history, events_snoc (e := .take m) rfl, mailbox]
  exact .take follows

theorem initFollows_polls : PollKeeps InitFollows where
  wake _ follows := follows.other rfl rfl rfl
  receive {k} t cx follows := by
    unfold ipcReceivePoll
    split
    · exact follows.other rfl rfl rfl
    · exact follows
  current _ follows := follows
  cache _ follows := follows
  finish _ follows := follows.other rfl rfl rfl
  polled _ follows := follows.other rfl rfl rfl
  dropped _ _ follows := follows.other rfl rfl rfl
  drained follows := follows.other rfl rfl rfl
  pop _ follows := follows

theorem initFollows_keeps : StepKeeps (fun k e => ¬ k.CutShort e) InitFollows where
  executor := initFollows_polls.executor fun _ follows => follows
  tick follows := follows
  move _ _ follows := follows
  kill _ follows := follows
  post {k label data} _ follows := by
    unfold postInitMailbox
    split
    · exact follows
    · exact follows.put rfl rfl
  call {k id arg1 arg2 rsp o} _ whole call follows := by
    cases call with
    | idle | sendFault | print | regService | setPriority | exit => exact follows
    | @send t =>
      refine InitFollows.other (k := (k.putMailbox t (k.messageAt arg2)).awaken t) ?_ rfl rfl rfl
      rw [InitFollows, awaken_events fun _ _ => rfl]
      have mailbox := congrArg Fixed.initMailbox (fixed_deliver (k := k) t (k.messageAt arg2))
      rw [show ((k.putMailbox t (k.messageAt arg2)).awaken t).initMailbox = k.initMailbox from
        mailbox]
      exact follows
    | recv free waiting => exact InitFollows.take follows waiting rfl rfl
    | recvFault free waiting bad =>
      exact absurd ⟨rfl, free, by rw [waiting]; rfl, bad⟩ whole
  user _ follows := follows
  spawn _ follows run := by
    obtain ⟨-, q, -, rfl⟩ := spawnStatic_cases run
    exact follows

/-- In every run in which no `SYS_RECV` faults at its store, the messages that `SYS_RECV` has
returned, and then the one that waits, are the posted messages that the next post did not replace,
in order.  They are all the posted messages exactly when a receipt came between any two posts. -/
theorem init_mailbox_latest {k0 : Kernel} {es : List Event} (rested : k0.Rested)
    (run : Run (Guarded (fun k e => ¬ k.CutShort e) Step) k0 es k) :
    SlotEvent.takes (k.history.filterMap initEvent) ++ k.initMailbox.toList =
        SlotEvent.kept (k.history.filterMap initEvent) ∧
      (SlotEvent.takes (k.history.filterMap initEvent) ++ k.initMailbox.toList =
          SlotEvent.puts (k.history.filterMap initEvent) ↔
        (k.history.filterMap initEvent).IsChain fun e f => ¬ SlotEvent.Replaces e f) := by
  have start : k0.InitFollows := by
    rw [InitFollows, rested.silent, rested.initMailbox]
    exact .nil
  have follows := initFollows_keeps.run rested.sound start run
  exact ⟨follows.received, by rw [follows.received]; exact SlotEvent.kept_eq_puts⟩

/-- One byte arrives, and a receive from the stack of the first process takes it. -/
theorem init_mailbox_latest_byte : ∃ k0 k, heapBoot = .ok k0 ∧
    Run (Guarded (fun k e => ¬ k.CutShort e) Step) k0
      [.serial 0x41 [.ready] 0x444444447f60, .syscall 11 0x30007000 0 0x30007f58] k ∧
    SlotEvent.takes (k.history.filterMap initEvent) ++ k.initMailbox.toList =
      SlotEvent.kept (k.history.filterMap initEvent) := by
  have evaluated : ∃ k0 k1, heapBoot = .ok k0 ∧
      k0.Step (.serial 0x41 [.ready] 0x444444447f60) k1 ∧ k1.pages = heapPages ∧
      k1.isHeld .initMailbox = false ∧ k1.initMailbox = some (deviceMessage 3 0x41) :=
    ⟨_, _, rfl, ⟨_, rfl⟩, rfl, rfl, rfl⟩
  obtain ⟨k0, k1, boot, arrives, pages, free, waiting⟩ := evaluated
  have writable := (heapPages_stack pages).2
  have takes := recv_step 0 0x30007f58 free waiting writable
  have run := Run.snoc (Run.single (R := Guarded (fun k e => ¬ k.CutShort e) Step)
    ⟨fun h => h.elim, arrives⟩) ⟨fun h => h.2.2.2 writable, takes⟩
  exact ⟨k0, _, boot, run, (init_mailbox_latest (heapBoot_booted boot).toRested run).1⟩

/-- Two bytes arrive without a receive between them, and the first one is lost. -/
theorem init_mailbox_overwritten : ∃ k0 k, heapBoot = .ok k0 ∧ k0.Rested ∧
    Run Step k0 [.serial 0x41 [.ready] 0x444444447f60, .serial 0x42 [] 0x444444447f60] k ∧
    SlotEvent.takes (k.history.filterMap initEvent) ++ k.initMailbox.toList ≠
      SlotEvent.puts (k.history.filterMap initEvent) := by
  have evaluated : ∃ k0 k1 k2, heapBoot = .ok k0 ∧
      k0.Step (.serial 0x41 [.ready] 0x444444447f60) k1 ∧
      k1.Step (.serial 0x42 [] 0x444444447f60) k2 ∧
      k2.initMailbox = some (deviceMessage 3 0x42) ∧
      k2.history.filterMap initEvent =
        [.put (deviceMessage 3 0x41), .put (deviceMessage 3 0x42)] :=
    ⟨_, _, _, rfl, ⟨_, rfl⟩, ⟨_, rfl⟩, rfl, rfl⟩
  obtain ⟨k0, k1, k2, boot, first, second, pending, events⟩ := evaluated
  refine ⟨k0, k2, boot, (heapBoot_booted boot).toRested, (Run.single first).snoc second, ?_⟩
  rw [pending, events]
  decide

/-! ### The mailboxes of tasks -/

/-- The registered tasks are in use, the histories of the mailboxes lead to what they hold, and
nothing has happened to the mailbox of a task that does not exist yet. -/
structure MailFollows (k : Kernel) : Prop where
  registered : ∀ id t, k.taskRegistry id = some t → t < k.nextRef
  follows : ∀ t, SlotEvent.History (k.history.filterMap (mailboxEvent t)) (k.task t).mailbox
  fresh : ∀ t, k.nextRef ≤ t → k.history.filterMap (mailboxEvent t) = []

theorem MailFollows.other (mail : k.MailFollows) (history : k'.history = k.history ++ [o])
    (other : ∀ t, mailboxEvent t o = none) (mailbox : ∀ t, (k'.task t).mailbox = (k.task t).mailbox)
    (refs : k'.nextRef = k.nextRef)
    (registry : ∀ id t, k'.taskRegistry id = some t → k.taskRegistry id = some t) :
    k'.MailFollows where
  registered id t found := by
    rw [refs]
    exact mail.registered id t (registry id t found)
  follows t := by
    rw [history, events_other (other t), mailbox t]
    exact mail.follows t
  fresh t bound := by
    rw [history, events_other (other t)]
    exact mail.fresh t (by rw [← refs]; exact bound)

theorem MailFollows.same (mail : k.MailFollows) (history : k'.history = k.history)
    (mailbox : ∀ t, (k'.task t).mailbox = (k.task t).mailbox) (refs : k'.nextRef = k.nextRef)
    (registry : k'.taskRegistry = k.taskRegistry) : k'.MailFollows where
  registered := by
    rw [refs, registry]
    exact mail.registered
  follows t := by
    rw [history, mailbox t]
    exact mail.follows t
  fresh t bound := by
    rw [history]
    exact mail.fresh t (by rw [← refs]; exact bound)

/-- An observation of what happens to the mailbox of task `t`, which exists. -/
theorem MailFollows.event (mail : k.MailFollows) {cell : Option Message} (inUse : t < k.nextRef)
    (history : k'.history = k.history ++ [o]) (this : mailboxEvent t o = some e)
    (others : ∀ u, u ≠ t → mailboxEvent u o = none) (here : (k'.task t).mailbox = cell)
    (step : SlotEvent.History (k.history.filterMap (mailboxEvent t) ++ [e]) cell)
    (mailbox : ∀ u, u ≠ t → (k'.task u).mailbox = (k.task u).mailbox)
    (refs : k'.nextRef = k.nextRef) (registry : k'.taskRegistry = k.taskRegistry) :
    k'.MailFollows where
  registered := by
    rw [refs, registry]
    exact mail.registered
  follows u := by
    rcases eq_or_ne u t with rfl | ne
    · rw [history, events_snoc this, here]
      exact step
    · rw [history, events_other (others u ne), mailbox u ne]
      exact mail.follows u
  fresh u bound := by
    rw [refs] at bound
    have ne : u ≠ t := (Nat.lt_of_lt_of_le inUse bound).ne'
    rw [history, events_other (others u ne)]
    exact mail.fresh u bound

/-- A mailbox that holds a message is that of a task that exists. -/
theorem MailFollows.inUseof_mail (mail : k.MailFollows) {m : Message}
    (waiting : (k.task t).mailbox = some m) : t < k.nextRef := by
  by_contra beyond
  have follows := mail.follows t
  rw [mail.fresh t (Nat.le_of_not_lt beyond), waiting] at follows
  generalize past : ([] : List (SlotEvent Message)) = es at follows
  cases follows with
  | put => simp at past

theorem mailboxEvent_acknowledged {m : Message} :
    mailboxEvent t (.acknowledged t m) = some (.put m) ∧
      ∀ u, u ≠ t → mailboxEvent u (.acknowledged t m) = none :=
  ⟨if_pos rfl, fun _ ne => if_neg ne.symm⟩

theorem mailboxEvent_yielded {m : Message} :
    mailboxEvent t (.yielded t m) = some (.take m) ∧
      ∀ u, u ≠ t → mailboxEvent u (.yielded t m) = none :=
  ⟨if_pos rfl, fun _ ne => if_neg ne.symm⟩

/-- A receive takes the message that waits in the mailbox of the task. -/
theorem MailFollows.receive (mail : k.MailFollows) (t : TaskRef) (cx : TaskWaker) :
    (k.ipcReceivePoll t cx).2.MailFollows := by
  cases waiting : (k.task t).mailbox with
  | some m =>
    have here := mail.follows t
    rw [waiting] at here
    rw [ipcReceivePoll_some waiting]
    refine mail.event (e := .take m) (mail.inUseof_mail waiting) rfl mailboxEvent_yielded.1
      mailboxEvent_yielded.2 ?_ (.take here) (fun u ne => ?_) rfl rfl
    · show ((k.takeMail t).task t).mailbox = none
      rw [takeMail, modifyTask_task_self]
    · show ((k.takeMail t).task u).mailbox = _
      rw [takeMail, modifyTask_task_ne k _ ne]
  | none =>
    rw [ipcReceivePoll_none waiting]
    exact mail.same rfl (fun u => awaitMail_mailbox t u cx) rfl rfl

/-- `SYS_SEND` puts its message into the mailbox of the task, whatever was there. -/
theorem MailFollows.deliver (mail : k.MailFollows) (inUse : t < k.nextRef) (m : Message) :
    (k.deliver t m).MailFollows := by
  have mailbox : ∀ u, ((k.deliver t m).task u).mailbox = ((k.putMailbox t m).task u).mailbox :=
    fun u => awaken_mailbox (k := k.putMailbox t m) t u
  have refs : (k.deliver t m).nextRef = k.nextRef := congrArg Fixed.nextRef (fixed_deliver t m)
  have registry : (k.deliver t m).taskRegistry = k.taskRegistry := by
    unfold Kernel.deliver awaken
    split
    · split <;> rfl
    · rfl
  have woken : ∀ u, ((k.putMailbox t m).awaken t).history.filterMap (mailboxEvent u) =
      k.history.filterMap (mailboxEvent u) := fun u => awaken_events fun _ _ => rfl
  have events : ∀ u, (k.deliver t m).history.filterMap (mailboxEvent u) =
      (k.history ++ [Observation.acknowledged t m]).filterMap (mailboxEvent u) := by
    intro u
    have split : (k.deliver t m).history =
        ((k.putMailbox t m).awaken t).history ++ [.acknowledged t m] := rfl
    rw [split, List.filterMap_append, List.filterMap_append, woken u]
  -- The same observations without that of the waker.
  have plain : Kernel.MailFollows
      { k.deliver t m with history := k.history ++ [.acknowledged t m] } := by
    refine mail.event (e := .put m) inUse rfl mailboxEvent_acknowledged.1
      mailboxEvent_acknowledged.2 ?_ (.put m (mail.follows t)) (fun u ne => ?_) refs registry
    · show ((k.deliver t m).task t).mailbox = some m
      rw [mailbox t, putMailbox, modifyTask_task_self]
    · show ((k.deliver t m).task u).mailbox = _
      rw [mailbox u, putMailbox, modifyTask_task_ne k _ ne]
  refine ⟨plain.registered, fun u => ?_, fun u bound => ?_⟩
  · rw [events u]
    exact plain.follows u
  · rw [events u]
    exact plain.fresh u bound

theorem mailFollows_polls : PollKeeps MailFollows where
  wake _ mail := mail.other rfl (fun _ => rfl) (fun _ => rfl) rfl fun _ _ found => found
  receive t cx mail := mail.receive t cx
  current _ mail := mail.same rfl (fun _ => rfl) rfl rfl
  cache _ mail := mail.same rfl (fun _ => rfl) rfl rfl
  finish {k} id mail := by
    refine mail.other rfl (fun _ => rfl) (fun _ => rfl) rfl fun id' t found => ?_
    change Function.update k.taskRegistry id none id' = some t at found
    by_cases gone : id' = id
    · rw [gone, Function.update_self] at found
      cases found
    · rwa [Function.update_of_ne gone] at found
  polled _ mail := mail.other rfl (fun _ => rfl) (fun _ => rfl) rfl fun _ _ found => found
  dropped _ _ mail := mail.other rfl (fun _ => rfl) (fun _ => rfl) rfl fun _ _ found => found
  drained mail := mail.other rfl (fun _ => rfl) (fun _ => rfl) rfl fun _ _ found => found
  pop _ mail := mail.same rfl (fun _ => rfl) rfl rfl

theorem MailFollows.spawn (mail : k.MailFollows) {top : UInt64}
    (run : k.spawnStatic top = .ok k') : k'.MailFollows := by
  obtain ⟨-, q, -, rfl⟩ := spawnStatic_cases run
  refine ⟨fun id t found => ?_, fun t => ?_, fun t bound => ?_⟩
  · change Function.update k.taskRegistry ⟨k.nextId⟩ (some k.nextRef) id = some t at found
    show t < k.nextRef + 1
    by_cases new : id = ⟨k.nextId⟩
    · rw [new, Function.update_self] at found
      cases found
      exact Nat.lt_succ_self _
    · rw [Function.update_of_ne new] at found
      exact Nat.lt_succ_of_lt (mail.registered id t found)
  · rcases eq_or_ne t k.nextRef with rfl | ne
    · have empty : ((k.newTask top).2.task k.nextRef).mailbox = none := by
        show (Function.update k.task k.nextRef _ k.nextRef).mailbox = none
        rw [Function.update_self]
      rw [show ((k.spawned top q).task k.nextRef).mailbox = none from empty,
        show (k.spawned top q).history = k.history from rfl, mail.fresh _ (Nat.le_refl _)]
      exact .nil
    · have kept : (k.newTask top).2.task t = k.task t := Function.update_of_ne ne _ _
      rw [show (k.spawned top q).task t = k.task t from kept]
      exact mail.follows t
  · exact mail.fresh t (Nat.le_of_succ_le bound)

theorem mailFollows_keeps : StepKeeps (fun _ _ => True) MailFollows where
  executor := mailFollows_polls.executor fun _ mail => mail.same rfl (fun _ => rfl) rfl rfl
  tick mail := mail.same rfl (fun _ => rfl) rfl rfl
  move _ _ mail := mail.same rfl (fun _ => movedTo_keeps Task.mailbox fun _ => rfl) rfl rfl
  kill {k t} _ mail := mail.same rfl (fun u => modifyTask_keeps Task.mailbox rfl u) rfl rfl
  post _ mail := by
    unfold postInitMailbox
    split
    · exact mail
    · exact mail.other rfl (fun _ => rfl) (fun _ => rfl) rfl fun _ _ found => found
  call _ _ call mail := by
    cases call with
    | idle | sendFault => exact mail
    | print | regService | recvFault => exact mail.same rfl (fun _ => rfl) rfl rfl
    | recv => exact mail.other rfl (fun _ => rfl) (fun _ => rfl) rfl fun _ _ found => found
    | exit | setPriority =>
      exact mail.same rfl (fun u => modifyTask_keeps Task.mailbox rfl u) rfl rfl
    | send found => exact mail.deliver (mail.registered _ _ found) _
  user _ mail := mail.same rfl (fun _ => rfl) rfl rfl
  spawn _ mail run := mail.spawn run

theorem Rested.mailFollows (rested : k.Rested) : k.MailFollows where
  registered := rested.registered
  follows t := by
    rw [rested.silent, rested.mailboxes t]
    exact .nil
  fresh t _ := by
    rw [rested.silent]
    rfl

theorem Rested.run_mailFollows {k0 : Kernel} {es : List Event} (rested : k0.Rested)
    (run : Run Step k0 es k) : k.MailFollows :=
  mailFollows_keeps.run rested.sound rested.mailFollows (run.mono fun _ _ _ step => ⟨trivial, step⟩)

/-- In every run, for each task, the messages that `IpcReceiveFuture` on it has returned, and then
the one in its mailbox, are the messages that `SYS_SEND` has acknowledged and the next one did not
replace, in order.  They are all of them exactly when a receipt came between any two. -/
theorem task_mailbox_latest {k0 : Kernel} {es : List Event} (rested : k0.Rested)
    (run : Run Step k0 es k) (t : TaskRef) :
    SlotEvent.takes (k.history.filterMap (mailboxEvent t)) ++ (k.task t).mailbox.toList =
        SlotEvent.kept (k.history.filterMap (mailboxEvent t)) ∧
      (SlotEvent.takes (k.history.filterMap (mailboxEvent t)) ++ (k.task t).mailbox.toList =
          SlotEvent.puts (k.history.filterMap (mailboxEvent t)) ↔
        (k.history.filterMap (mailboxEvent t)).IsChain fun e f => ¬ SlotEvent.Replaces e f) := by
  have follows := (rested.run_mailFollows run).follows t
  exact ⟨follows.received, by rw [follows.received]; exact SlotEvent.kept_eq_puts⟩

/-- Two sends to the monitor task without a receipt between them. -/
theorem two_sends : ∃ k0 k m, heapBoot = .ok k0 ∧
    Run Step k0 [.syscall 10 3 0x30007000 0x30007f58, .syscall 10 3 0x30007000 0x30007f58] k ∧
    (k.task 2).mailbox = some m ∧
    k.history.filterMap (mailboxEvent 2) = [.put m, .put m] := by
  have evaluated : ∃ k0, heapBoot = .ok k0 ∧ k0.pages = heapPages ∧
      k0.taskRegistry ⟨3⟩ = some 2 ∧ (k0.task 2).state = .ready :=
    ⟨_, rfl, rfl, rfl, rfl⟩
  obtain ⟨k0, boot, pages, found, ready⟩ := evaluated
  have booted := heapBoot_booted boot
  have readable := (heapPages_stack pages).1
  let m := k0.messageAt 0x30007000
  let k1 := (k0.putMailbox 2 m).observe (.acknowledged 2 m)
  let k2 := (k1.putMailbox 2 m).observe (.acknowledged 2 m)
  have high : ¬ (0x30007000 : UInt64) < 0x20000000 := by decide
  have first : k0.Step (.syscall 10 3 0x30007000 0x30007f58) k1 := by
    have sent := send_step 0x30007f58 booted.sound.quiet high readable found
    rwa [deliver_ready (by rw [ready]; decide)] at sent
  have ready1 : (k1.task 2).state = .ready := (putMailbox_state 2 2 m).trans ready
  have second : k1.Step (.syscall 10 3 0x30007000 0x30007f58) k2 := by
    have sent := send_step (k := k1) 0x30007f58 (booted.sound.step first).quiet high
      readable found
    rwa [deliver_ready (by rw [ready1]; decide)] at sent
  refine ⟨k0, k2, m, boot, (Run.single first).snoc second, ?_, ?_⟩
  · show ((k1.putMailbox 2 m).task 2).mailbox = some m
    rw [putMailbox, modifyTask_task_self]
  · have history : k2.history =
        k0.history ++ [Observation.acknowledged 2 m] ++ [.acknowledged 2 m] := rfl
    rw [history, booted.silent]
    rfl

/-- The first of the two messages is lost. -/
theorem task_mailbox_overwritten : ∃ k0 k, heapBoot = .ok k0 ∧ k0.Rested ∧
    Run Step k0 [.syscall 10 3 0x30007000 0x30007f58, .syscall 10 3 0x30007000 0x30007f58] k ∧
    SlotEvent.takes (k.history.filterMap (mailboxEvent 2)) ++ (k.task 2).mailbox.toList ≠
      SlotEvent.puts (k.history.filterMap (mailboxEvent 2)) := by
  obtain ⟨k0, k, m, boot, run, pending, events⟩ := two_sends
  refine ⟨k0, k, boot, (heapBoot_booted boot).toRested, run, ?_⟩
  rw [pending, events]
  simp

/-- The second one is kept. -/
theorem task_mailbox_latest_sends : ∃ k0 k, heapBoot = .ok k0 ∧
    Run Step k0 [.syscall 10 3 0x30007000 0x30007f58, .syscall 10 3 0x30007000 0x30007f58] k ∧
    SlotEvent.takes (k.history.filterMap (mailboxEvent 2)) ++ (k.task 2).mailbox.toList =
      SlotEvent.kept (k.history.filterMap (mailboxEvent 2)) := by
  obtain ⟨k0, k, m, boot, run, -, -⟩ := two_sends
  exact ⟨k0, k, boot, run, (task_mailbox_latest (heapBoot_booted boot).toRested run 2).1⟩

end Kernel

end Microkernel
