import Microkernel.Proof.Channel
import Microkernel.Proof.Identity

/-! Who posted the messages in the mailboxes, and what the messages say about it.  The device
handlers fill in the sender and the addressee themselves; `SYS_SEND` stores the words that it finds
at the user's pointer. -/

namespace Microkernel

open Lib

namespace Kernel

variable {k k' : Kernel} {e : Event} {t p : TaskRef} {senders : TaskRef → Option TaskRef}

/-- The task into whose mailbox an event puts a message. -/
def sendsTo (k : Kernel) : Event → Option TaskRef
  | .syscall id arg1 arg2 _ =>
    if id = 10 ∧ ¬ arg2 < 0x20000000 ∧ k.Readable arg2 40 then k.taskRegistry ⟨arg1⟩ else none
  | _ => none

/-- The message that it puts there. -/
def sentMessage (k : Kernel) : Event → Message
  | .syscall _ _ arg2 _ => k.messageAt arg2
  | _ => ⟨0, 0, 0, (0, 0)⟩

/-- The record of the process that last sent to each task. -/
def noteSender (k : Kernel) (e : Event) (senders : TaskRef → Option TaskRef) :
    TaskRef → Option TaskRef :=
  match k.sendsTo e with
  | some t => Function.update senders t k.taskList[k.currentTaskIdx]?
  | none => senders

/-- Every message in the mailbox of a task carries the identifiers of the process that sent it and
of the task, and every message in `INIT_MAILBOX` the sender 0 and the identifier of the first
process. -/
structure Provenance (k : Kernel) (senders : TaskRef → Option TaskRef) : Prop where
  task : ∀ t m, (k.task t).mailbox = some m → ∃ p ∈ k.taskList, senders t = some p ∧
    m.from = (k.task p).id.val ∧ m.from ≠ 0 ∧ m.to = (k.task t).id.val
  init : ∀ m, k.initMailbox = some m →
    m.from = 0 ∧ ∃ t, k.taskList[0]? = some t ∧ m.to = (k.task t).id.val

/-- A process that sends a message has written its own identifier and that of the target into it. -/
def Honest (k : Kernel) (e : Event) : Prop :=
  ∀ t p, k.sendsTo e = some t → k.Current p →
    (k.sentMessage e).from = (k.task p).id.val ∧ (k.sentMessage e).to = (k.task t).id.val

/-! ### What an event puts into the mailboxes of tasks -/

def IsSend : Event → Prop
  | .syscall id _ _ _ => id = 10
  | _ => False

/-- The messages in the mailboxes of tasks were there before. -/
def NoNewMail (k k' : Kernel) : Prop :=
  ∀ t m, (k'.task t).mailbox = some m → (k.task t).mailbox = some m

theorem NoNewMail.same {mid : Kernel} (old : NoNewMail k mid)
    (same : ∀ t, (k'.task t).mailbox = (mid.task t).mailbox) : NoNewMail k k' := by
  intro t m waiting
  rw [same] at waiting
  exact old t m waiting

theorem NoNewMail.receive {mid : Kernel} (old : NoNewMail k mid) (t : TaskRef) (cx : TaskWaker) :
    NoNewMail k (mid.ipcReceivePoll t cx).2 := by
  cases found : (mid.task t).mailbox with
  | none =>
    rw [ipcReceivePoll_none found]
    exact old.same fun u => awaitMail_mailbox t u cx
  | some taken =>
    rw [ipcReceivePoll_some found]
    intro u m waiting
    change ((mid.takeMail t).task u).mailbox = some m at waiting
    by_cases this : u = t
    · subst this
      rw [takeMail, modifyTask_task_self] at waiting
      cases waiting
    · rw [takeMail, modifyTask_task_ne mid _ this] at waiting
      exact old u m waiting

theorem noNewMail_polls : PollKeeps (NoNewMail k) where
  wake _ old := old
  receive t cx old := old.receive t cx
  current _ old := old
  cache _ old := old
  finish _ old := old
  polled _ old := old
  dropped _ _ old := old
  drained old := old
  pop _ old := old

theorem noNewMail_keeps : StepKeeps (fun _ e => ¬ IsSend e) (NoNewMail k) where
  executor := noNewMail_polls.executor fun _ old => old
  tick old := old
  move _ _ old := old.same fun _ => movedTo_keeps Task.mailbox fun _ => rfl
  kill _ old := old.same fun u => modifyTask_keeps Task.mailbox rfl u
  post _ old := by
    unfold postInitMailbox
    split
    · exact old
    · exact old
  call _ other call old := by
    cases call with
    | idle | sendFault | print | regService | recv | recvFault => exact old
    | setPriority | exit => exact old.same fun u => modifyTask_keeps Task.mailbox rfl u
    | send => exact absurd rfl other
  user _ old := old
  spawn {mid after top} _ old run := by
    obtain ⟨-, q, -, rfl⟩ := spawnStatic_cases run
    intro t m waiting
    by_cases new : t = mid.nextRef
    · subst new
      change (Function.update mid.task mid.nextRef _ mid.nextRef).mailbox = some m at waiting
      rw [Function.update_self] at waiting
      cases waiting
    · change (Function.update mid.task mid.nextRef _ t).mailbox = some m at waiting
      rw [Function.update_of_ne new] at waiting
      exact old t m waiting

/-- What a system call `SYS_SEND` leads to: it delivers, or it leaves the mailboxes as they are. -/
theorem send_mail {arg1 arg2 rsp : UInt64} (sound : k.Sound)
    (step : k.Step (.syscall 10 arg1 arg2 rsp) k') :
    match k.sendsTo (.syscall 10 arg1 arg2 rsp) with
    | some t => k' = k.deliver t (k.messageAt arg2)
    | none => NoNewMail k k' := by
  obtain ⟨out, run⟩ := step
  change k.syscall 10 arg1 arg2 rsp = .ok (out, k') at run
  have call : (handleSyscall 10 arg1 arg2).run k = _ := sysSend_eq sound.quiet arg1 arg2
  unfold Kernel.syscall at run
  rw [call] at run
  have same : NoNewMail k k := fun _ _ waiting => waiting
  have target : k.sendsTo (.syscall 10 arg1 arg2 rsp) =
      if 10 = (10 : UInt64) ∧ ¬ arg2 < 0x20000000 ∧ k.Readable arg2 40 then
        k.taskRegistry ⟨arg1⟩
      else none := rfl
  rw [target]
  by_cases low : arg2 < 0x20000000
  · rw [if_pos low] at run
    cases run
    rw [if_neg fun h => h.2.1 low]
    exact same
  · rw [if_neg low] at run
    by_cases readable : k.Readable arg2 40
    · rw [if_pos readable] at run
      rw [if_pos ⟨rfl, low, readable⟩]
      cases found : k.taskRegistry ⟨arg1⟩ with
      | none =>
        rw [found] at run
        cases run
        exact same
      | some t =>
        rw [found] at run
        cases run
        rfl
    · rw [if_neg readable] at run
      rw [if_neg fun h => readable h.2.2]
      obtain ⟨⟨r, after⟩, handled, eq⟩ := map_ok run
      cases eq
      exact same.same (faultHandlerInner_switched sound handled).mailbox

theorem noNewMail_step (sound : k.Sound) (silent : k.sendsTo e = none) (step : k.Step e k') :
    NoNewMail k k' := by
  by_cases send : IsSend e
  · cases e with
    | syscall id arg1 arg2 rsp =>
      obtain rfl : id = 10 := send
      have mail := send_mail sound step
      rw [silent] at mail
      exact mail
    | _ => cases send
  · exact noNewMail_keeps.step sound (fun _ _ waiting => waiting) send step

theorem sendsTo_some (sends : k.sendsTo e = some t) :
    ∃ arg1 arg2 rsp, e = .syscall 10 arg1 arg2 rsp ∧ k.taskRegistry ⟨arg1⟩ = some t := by
  unfold sendsTo at sends
  split at sends
  next id arg1 arg2 rsp =>
    split at sends
    next cond =>
      obtain ⟨rfl, -, -⟩ := cond
      exact ⟨arg1, arg2, rsp, rfl, sends⟩
    next => cases sends
  next => cases sends

theorem delivered_step (sound : k.Sound) (sends : k.sendsTo e = some t) (step : k.Step e k') :
    k' = k.deliver t (k.sentMessage e) := by
  obtain ⟨arg1, arg2, rsp, rfl, -⟩ := sendsTo_some sends
  have mail := send_mail sound step
  rw [sends] at mail
  exact mail

/-! ### Runs -/

/-- The first process has the identifier to which the device handlers address their messages. -/
def FirstNamed (k : Kernel) : Prop :=
  ∃ t, k.taskList[0]? = some t ∧ (k.task t).id.val = 1

theorem FirstNamed.sameTasks (first : k.FirstNamed) (sound : k.Sound) (same : SameTasks k k') :
    k'.FirstNamed := by
  obtain ⟨t, listed, named⟩ := first
  refine ⟨t, by rw [same.taskList, listed], ?_⟩
  rw [same.id t (sound.processes t (List.mem_of_getElem? listed)), named]

/-- What runs from boot keep, whatever the processes send. -/
structure Posted (k : Kernel) : Prop where
  sound : k.Sound
  mail : k.MailFollows
  device : k.FromDevice
  named : k.Named
  first : k.FirstNamed

theorem Posted.step (posted : k.Posted) (step : k.Step e k') : k'.Posted where
  sound := posted.sound.step step
  mail := mailFollows_keeps.step posted.sound posted.mail trivial step
  device := fromDevice_keeps.step posted.sound posted.device trivial step
  named := posted.named.sameTasks posted.sound (posted.sound.sameTasks step)
  first := posted.first.sameTasks posted.sound (posted.sound.sameTasks step)

theorem Posted.init (posted : k.Posted) (m : Message) (waiting : k.initMailbox = some m) :
    m.from = 0 ∧ ∃ t, k.taskList[0]? = some t ∧ m.to = (k.task t).id.val := by
  obtain ⟨label, data, -, rfl⟩ := posted.device m waiting
  obtain ⟨t, listed, named⟩ := posted.first
  exact ⟨rfl, t, listed, named.symm⟩

/-- A message that was there before still says what it said. -/
theorem Provenance.old (prov : k.Provenance senders) (posted : k.Posted) (same : SameTasks k k')
    {m : Message} (waiting : (k.task t).mailbox = some m) :
    ∃ p ∈ k'.taskList, senders t = some p ∧ m.from = (k'.task p).id.val ∧ m.from ≠ 0 ∧
      m.to = (k'.task t).id.val := by
  obtain ⟨p, listed, sent, own, some_one, target⟩ := prov.task t m waiting
  refine ⟨p, by rw [same.taskList]; exact listed, sent, ?_, some_one, ?_⟩
  · rw [same.id p (posted.sound.processes p listed), own]
  · rw [same.id t (posted.mail.inUseof_mail waiting), target]

/-- The messages in the mailboxes carry their senders and addressees after a step exactly when the
step is honest. -/
theorem provenance_step (posted : k.Posted) (prov : k.Provenance senders) (step : k.Step e k') :
    k'.Provenance (k.noteSender e senders) ↔ k.Honest e := by
  have same := posted.sound.sameTasks step
  have init := (posted.step step).init
  cases sends : k.sendsTo e with
  | none =>
    have old := noNewMail_step posted.sound sends step
    refine iff_of_true ⟨fun t m waiting => ?_, init⟩ fun t p sent => ?_
    · rw [noteSender, sends]
      exact prov.old posted same (old t m waiting)
    · rw [sends] at sent
      cases sent
  | some t =>
    obtain ⟨p, cur⟩ := posted.sound.current
    obtain ⟨arg1, arg2, rsp, -, registered⟩ := sendsTo_some sends
    have inUse := posted.mail.registered _ _ registered
    have delivered := delivered_step posted.sound sends step
    have mailbox : ∀ u, (k'.task u).mailbox =
        if u = t then some (k.sentMessage e) else (k.task u).mailbox := by
      rw [delivered]
      exact fun u => deliver_mailbox t u _
    have sender : k.noteSender e senders = Function.update senders t (some p) := by
      rw [noteSender, sends, show k.taskList[k.currentTaskIdx]? = some p from cur]
    have own := same.id p (posted.sound.processes p cur.mem)
    have target := same.id t inUse
    rw [sender]
    constructor
    · intro after t' p' sent' cur'
      obtain rfl : t = t' := Option.some.inj (sends.symm.trans sent')
      obtain rfl := cur.unique cur'
      obtain ⟨p', -, sent, from_eq, -, to_eq⟩ :=
        after.task t (k.sentMessage e) (by rw [mailbox, if_pos rfl])
      rw [Function.update_self] at sent
      cases sent
      exact ⟨by rw [from_eq, own], by rw [to_eq, target]⟩
    · intro honest
      obtain ⟨from_eq, to_eq⟩ := honest t p sends cur
      refine ⟨fun u m waiting => ?_, init⟩
      rw [mailbox] at waiting
      by_cases this : u = t
      · subst this
        rw [if_pos rfl] at waiting
        cases waiting
        refine ⟨p, by rw [same.taskList]; exact cur.mem, Function.update_self .., ?_, ?_, ?_⟩
        · rw [from_eq, own]
        · rw [from_eq]
          exact posted.named p cur.mem
        · rw [to_eq, target]
      · rw [if_neg this] at waiting
        rw [Function.update_of_ne this]
        exact prov.old posted same waiting

section Boot

variable {images : List Image} {monitorStackTop : UInt64} {mem : Memory}
  {pages : UInt64 → Option PageFlags} {k0 : Kernel} {es : List Event}

theorem kernelMain_posted (few : images.length < 2 ^ 64)
    (boot : kernelMain images monitorStackTop mem pages = .ok k0) : k0.Posted := by
  have booted := kernelMain_booted few boot
  obtain ⟨taskList, idx, -, process⟩ := kernelMain_processes boot
  refine ⟨booted.sound, booted.toRested.mailFollows, fun m waiting => ?_, booted.named, 0, ?_, ?_⟩
  · rw [booted.initMailbox] at waiting
    cases waiting
  · obtain ⟨t, cur⟩ := booted.current
    have listed : k0.taskList[0]? = some t := by
      rw [← idx]
      exact cur
    rw [listed]
    rw [taskList] at listed
    obtain ⟨bound, here⟩ := List.getElem?_eq_some_iff.mp listed
    rw [List.getElem_range] at here
    rw [here]
  · obtain ⟨k1, q, image, -, -, first, -, -⟩ := kernelMain_eq boot
    rw [process 0 image first]
    rfl

/-- In a run from boot in which every process that sends a message writes its own identifier and
that of the target into it, every message in a mailbox carries who posted it and whose mailbox it is
in.  After such a run one more step keeps that exactly when it is honest too. -/
theorem mail_provenance (few : images.length < 2 ^ 64)
    (boot : kernelMain images monitorStackTop mem pages = .ok k0)
    (run : Run (Recorded noteSender (Guarded Honest Step)) (k0, fun _ => none) es (k, senders)) :
    k.Provenance senders ∧
      ∀ e k', k.Step e k' → (k'.Provenance (k.noteSender e senders) ↔ k.Honest e) := by
  have booted := kernelMain_booted few boot
  have start : k0.Provenance fun _ => none := by
    refine ⟨fun t m waiting => ?_, (kernelMain_posted few boot).init⟩
    rw [booted.mailboxes] at waiting
    cases waiting
  have all : k.Posted ∧ k.Provenance senders := by
    refine run.invariant (I := fun s => s.1.Posted ∧ s.1.Provenance s.2)
      ⟨kernelMain_posted few boot, start⟩ ?_
    rintro ⟨a, s⟩ e ⟨b, s'⟩ ⟨posted, prov⟩ ⟨⟨honest, step⟩, noted⟩
    obtain rfl : s' = a.noteSender e s := noted
    exact ⟨posted.step step, (provenance_step posted prov step).mpr honest⟩
  exact ⟨all.2, fun e k' step => provenance_step all.1 all.2 step⟩

end Boot

/-- User code writes a message where it may. -/
theorem userWrites_message {ptr : UInt64} {m : Message}
    (may : ∀ x, Memory.Within ptr 40 x → k.userCanWrite x) :
    (k.userWrites (Memory.storeAll (fun _ => 0) ptr m.words)).messageAt ptr = m := by
  apply messageAt_words
  have same : ∀ x, Memory.Within ptr 40 x →
      (k.userWrites (Memory.storeAll (fun _ => 0) ptr m.words)).mem x =
        Memory.storeAll (fun _ => 0) ptr m.words x := fun x inside => if_pos (may x inside)
  rw [Memory.readWords_congr (Nat.le_of_ble_eq_true rfl) same]
  exact Memory.storeAll_words _ ptr m.words (Nat.le_of_ble_eq_true rfl)

/-- The first process writes a message and sends it to the monitor task. -/
theorem letter_sent (m : Message) : ∃ k0 k1, heapBoot = .ok k0 ∧
    k0.Step (.userWrites (Memory.storeAll (fun _ => 0) 0x30007000 m.words)) k1 ∧ k1.Sound ∧
    k1.Current 0 ∧ (k1.task 0).id = ⟨1⟩ ∧ (k1.task 2).id = ⟨3⟩ ∧
    k1.sendsTo (.syscall 10 3 0x30007000 0x30007f58) = some 2 ∧
    k1.sentMessage (.syscall 10 3 0x30007000 0x30007f58) = m ∧
    k1.Step (.syscall 10 3 0x30007000 0x30007f58) (k1.deliver 2 m) := by
  have evaluated : ∃ k0, heapBoot = .ok k0 ∧ k0.pages = heapPages ∧ k0.Current 0 ∧
      (k0.task 0).id = ⟨1⟩ ∧ (k0.task 2).id = ⟨3⟩ ∧ k0.taskRegistry ⟨3⟩ = some 2 :=
    ⟨_, rfl, rfl, rfl, rfl, rfl, rfl⟩
  obtain ⟨k0, boot, pages, cur, first, monitor, found⟩ := evaluated
  let k1 := k0.userWrites (Memory.storeAll (fun _ => 0) 0x30007000 m.words)
  have step : k0.Step (.userWrites (Memory.storeAll (fun _ => 0) 0x30007000 m.words)) k1 :=
    ⟨_, rfl⟩
  have sound := (heapBoot_booted boot).sound.step step
  have words : k1.messageAt 0x30007000 = m := by
    refine userWrites_message fun x inside => (heapPages_canWrite pages ?_ ?_).2
    · simp only [Memory.Within, UInt64.toNat_sub, UInt64.le_iff_toNat_le, UInt64.reduceToNat]
        at inside ⊢
      omega
    · simp only [Memory.Within, UInt64.toNat_sub, UInt64.lt_iff_toNat_lt, UInt64.reduceToNat]
        at inside ⊢
      have := x.toNat_lt
      omega
  have readable := (heapPages_stack (k := k1) pages).1
  have high : ¬ (0x30007000 : UInt64) < 0x20000000 := by decide
  have sent := send_step (k := k1) 0x30007f58 sound.quiet high readable found
  rw [words] at sent
  exact ⟨k0, k1, boot, step, sound, cur, first, monitor,
    (if_pos ⟨rfl, high, readable⟩).trans found, words, sent⟩

/-- The first process signs its message, which is then in the mailbox of the monitor task. -/
theorem mail_provenance_signed : ∃ k0 k senders, heapBoot = .ok k0 ∧
    Run (Recorded noteSender (Guarded Honest Step)) (k0, fun _ => none)
      [.userWrites (Memory.storeAll (fun _ => 0) 0x30007000 (Message.words ⟨1, 3, 7, (0, 0)⟩)),
        .syscall 10 3 0x30007000 0x30007f58] (k, senders) ∧
    (k.task 2).mailbox = some ⟨1, 3, 7, (0, 0)⟩ ∧ k.Provenance senders := by
  obtain ⟨k0, k1, boot, write, sound, cur, first, monitor, sends, words, sent⟩ :=
    letter_sent ⟨1, 3, 7, (0, 0)⟩
  have honest : k1.Honest (.syscall 10 3 0x30007000 0x30007f58) := by
    intro t p sends' cur'
    rw [sends] at sends'
    cases sends'
    cases cur.unique cur'
    rw [words, first, monitor]
    exact ⟨rfl, rfl⟩
  have silent : k0.Honest
      (.userWrites (Memory.storeAll (fun _ => 0) 0x30007000 (Message.words ⟨1, 3, 7, (0, 0)⟩))) :=
    fun t p sends' _ => by cases sends'
  have written : Run (Recorded noteSender (Guarded Honest Step)) (k0, fun _ => none) _
      (k1, fun _ => none) := .single ⟨⟨silent, write⟩, rfl⟩
  have run := written.snoc (u := (k1.deliver 2 _, _)) ⟨⟨honest, sent⟩, rfl⟩
  refine ⟨k0, _, _, boot, run, ?_, (mail_provenance (by decide) boot run).1⟩
  rw [deliver_mailbox, if_pos rfl]

/-- The first process writes the identifier of the second one as the sender. -/
theorem provenance_forged : ∃ k0 k senders, heapBoot = .ok k0 ∧
    Run (Recorded noteSender Step) (k0, fun _ => none)
      [.userWrites (Memory.storeAll (fun _ => 0) 0x30007000 (Message.words ⟨2, 3, 7, (0, 0)⟩)),
        .syscall 10 3 0x30007000 0x30007f58] (k, senders) ∧
    senders 2 = some 0 ∧ (k.task 0).id = ⟨1⟩ ∧
    (k.task 2).mailbox = some ⟨2, 3, 7, (0, 0)⟩ ∧ ¬ k.Provenance senders := by
  obtain ⟨k0, k1, boot, write, sound, cur, first, -, sends, words, sent⟩ :=
    letter_sent ⟨2, 3, 7, (0, 0)⟩
  have written : Run (Recorded noteSender Step) (k0, fun _ => none) _ (k1, fun _ => none) :=
    .single ⟨write, rfl⟩
  have run := written.snoc (u := (k1.deliver 2 _, _)) ⟨sent, rfl⟩
  have sender : k1.noteSender (.syscall 10 3 0x30007000 0x30007f58) (fun _ => none) 2 =
      some 0 := by
    rw [noteSender, sends, show k1.taskList[k1.currentTaskIdx]? = some 0 from cur]
    exact Function.update_self ..
  have mailbox : ((k1.deliver 2 ⟨2, 3, 7, (0, 0)⟩).task 2).mailbox = some ⟨2, 3, 7, (0, 0)⟩ := by
    rw [deliver_mailbox, if_pos rfl]
  have own : ((k1.deliver 2 ⟨2, 3, 7, (0, 0)⟩).task 0).id = ⟨1⟩ := by
    rw [(sound.sameTasks sent).id 0 (sound.processes 0 cur.mem), first]
  refine ⟨k0, _, _, boot, run, sender, own, mailbox, fun prov => ?_⟩
  obtain ⟨p, -, noted, signed, -⟩ := prov.task 2 _ mailbox
  cases sender.symm.trans noted
  rw [own] at signed
  cases signed

end Kernel

end Microkernel
