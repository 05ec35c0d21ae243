import Microkernel.Proof.Echo

/-! How soon process A answers.  Its loop alternates receipts and prints, so a message that waits is
echoed after a number of its own steps that its position in the program bounds, whatever process B
and the timer do in between. -/

namespace Microkernel

open Lib

namespace Init

open User

namespace Session

variable {buf : UInt64} {s s' : Session} {e : Event} {log log' : List (Nat × UInt8)}

/-- A device posts a message. -/
def Posts : Event → Prop
  | .keyboard _ _ | .serial _ _ => True
  | _ => False

/-- Process A makes a step. -/
def serverStep : Event → Bool
  | .user i _ _ => i = 0
  | _ => false

/-- What process A has to print before it halts, if no device posts. -/
def left (buf : UInt64) (s : Session) : List UInt8 :=
  (match s.point 0 with
    | .server p => p.rest buf s.kernel.mem
    | .client _ => []) ++ s.kernel.initMailbox.toList.flatMap echoed

theorem left_eq {p : Server} (point : s.point 0 = .server p) :
    s.left buf = p.rest buf s.kernel.mem ++ s.kernel.initMailbox.toList.flatMap echoed := by
  rw [left, point]

/-- What neither process A nor a device does leaves to process A what it has to print. -/
structure Aside (buf : UInt64) (s s' : Session) : Prop where
  point : s'.point 0 = s.point 0
  msg : ∀ n < 40, s'.kernel.mem (buf + UInt64.ofNat n) = s.kernel.mem (buf + UInt64.ofNat n)
  mailbox : s'.kernel.initMailbox = s.kernel.initMailbox
  receipts : s'.kernel.receipts = s.kernel.receipts

theorem Aside.left (aside : Aside buf s s') : s'.left buf = s.left buf := by
  unfold Session.left
  rw [aside.point, aside.mailbox]
  cases s.point 0 with
  | server p =>
    dsimp only
    rw [Server.rest_congr p aside.msg]
  | client => rfl

theorem Aside.framed {k : Kernel} (framed : Kernel.Framed s.kernel k)
    (mailbox : k.initMailbox = s.kernel.initMailbox) (point : s'.point 0 = s.point 0)
    (kernel : s'.kernel = k) : Aside buf s s' := by
  subst kernel
  exact ⟨point, fun n _ => by rw [framed.mem], mailbox, framed.receipts⟩

theorem timer_mailbox {k k' : Kernel} {rsp : UInt64} (sound : k.Sound)
    (step : k.Step (.timer [.ready] rsp) k') : k'.initMailbox = k.initMailbox := by
  obtain ⟨out, run⟩ := step
  cases Kernel.step_happens sound run with
  | timer ran scheduled =>
    have fixed := Kernel.fixed_pollKernelTasks ran
    exact (Kernel.scheduleNext_switched (sound.fixed fixed).tick scheduled).initMailbox.trans
      (congrArg Kernel.Fixed.initMailbox fixed)

/-- A step of process B. -/
theorem Acts.aside (idx : s.kernel.currentTaskIdx = 1) {c : Client}
    (acts : Acts buf s c.act s') (sound : s.kernel.Sound) : Aside buf s s' := by
  have other : ∀ value k, k.currentTaskIdx = 1 → (s.moved buf value k).point 0 = s.point 0 :=
    fun value k here => moved_point_ne here (by decide)
  cases acts with
  | own | find =>
    exact .framed (k := s.kernel) (.refl _) rfl (other _ s.kernel idx) rfl
  | print => exact ⟨other _ _ idx, fun _ _ => rfl, rfl, rfl⟩
  | die here handled =>
    exact .framed (Kernel.faultHandlerInner_framed sound handled)
      (Kernel.faultHandlerInner_switched sound handled).initMailbox rfl rfl
  | register here | receive here | empty here | yield here =>
    unfold Client.act at here
    split at here
    all_goals cases here

end Session

/-! ### The steps that are left -/

/-- The steps that process A makes before it halts, if no device posts: one for each byte, one for a
point at which it neither prints nor receives, and two for the receipt of a message that waits. -/
def Server.work (buf : UInt64) (mem : Memory) (mail : Option Message) (p : Server) : Nat :=
  (p.rest buf mem ++ mail.toList.flatMap echoed).length +
    (match p with
      | .printing _ => 0
      | _ => 1) + if mail.isSome then 2 else 0

section Work

variable {buf value : UInt64} {mem : Memory} {mail : Option Message} {m : Message} {b : UInt8}
  {rest : List UInt8}

theorem Server.work_registering : (Server.registering.next buf value mem).work buf mem mail + 1 =
    Server.registering.work buf mem mail := by
  simp only [Server.work, Server.next, Server.rest]
  omega

theorem Server.work_printing :
    ((Server.printing (b :: rest)).next buf value mem).work buf mem mail + 1 =
      (Server.printing (b :: rest)).work buf mem mail := by
  simp only [Server.work, Server.next, Server.rest, List.cons_append, List.length_cons]
  omega

theorem Server.work_receive : ((Server.printing []).next buf 1 (mem.storeAll buf m.words)).work buf
      (mem.storeAll buf m.words) none + 1 = (Server.printing []).work buf mem (some m) := by
  have next : (Server.printing []).next buf 1 (mem.storeAll buf m.words) = .received := by
    rw [Server.next, if_pos rfl]
  have before : (Server.printing []).work buf mem (some m) = (echoed m).length + 2 := by
    simp [Server.work, Server.rest]
  rw [next, before]
  unfold Server.work
  rw [Server.rest_received]
  simp

theorem Server.work_received : (Server.received.next buf value mem).work buf mem mail + 1 =
    Server.received.work buf mem mail := by
  have printing : ∃ rest, Server.received.next buf value mem = .printing rest := by
    rw [Server.next]
    split
    next => exact ⟨_, rfl⟩
    next => exact ⟨[], rfl⟩
  obtain ⟨rest, next⟩ := printing
  have same : (Server.received.next buf value mem).rest buf mem = _ := Server.rest_next_received
  rw [next] at same ⊢
  unfold Server.work
  rw [same]
  dsimp only
  omega

theorem Server.work_yielding : (Server.yielding.next buf value mem).work buf mem mail + 1 =
    Server.yielding.work buf mem mail := by
  simp only [Server.work, Server.next, Server.rest]
  omega

end Work

namespace Session

def work (buf : UInt64) (s : Session) : Nat :=
  match s.point 0 with
  | .server p => p.work buf s.kernel.mem s.kernel.initMailbox
  | .client _ => 0

variable {buf : UInt64} {s s' : Session} {e : Event} {log log' : List (Nat × UInt8)}

theorem work_eq {p : Server} (point : s.point 0 = .server p) :
    s.work buf = p.work buf s.kernel.mem s.kernel.initMailbox := by
  rw [work, point]

theorem Aside.work (aside : Aside buf s s') : s'.work buf = s.work buf := by
  unfold Session.work
  rw [aside.point, aside.mailbox]
  cases s.point 0 with
  | server p =>
    dsimp only
    unfold Server.work
    rw [Server.rest_congr p aside.msg]
  | client => rfl

/-- A step of process A is one of those that are left. -/
theorem Acts.work (idx : s.kernel.currentTaskIdx = 0) {p : Server}
    (point : s.point 0 = .server p) (acts : Acts buf s (p.act buf) s') (more : 0 < s.work buf) :
    s'.work buf + 1 = s.work buf := by
  have next : ∀ value, s'.kernel.currentTaskIdx = 0 →
      s'.point = (s.moved buf value s'.kernel).point →
      s'.work buf = (p.next buf value s'.kernel.mem).work buf s'.kernel.mem
        s'.kernel.initMailbox := by
    intro value here goes
    apply work_eq
    rw [goes, moved_point here, point]
    rfl
  rw [work_eq point] at more ⊢
  cases acts.server with
  | registers =>
    rw [next 0 idx rfl]
    exact Server.work_registering
  | prints =>
    rw [next 0 idx rfl]
    exact Server.work_printing
  | receives waiting =>
    rw [next 1 idx rfl, waiting]
    exact Server.work_receive
  | finds_none waiting =>
    rw [waiting] at more
    exact absurd more (Nat.lt_irrefl 0)
  | goes_on =>
    rw [next 0 idx rfl]
    exact Server.work_received
  | yields =>
    rw [next 0 idx rfl]
    exact Server.work_yielding

/-- Without a post, the messages that have been received or wait are the same. -/
theorem Orderly.mail (orderly : s.Orderly buf) (step : s.Step buf e s') (quiet : ¬ Posts e) :
    s'.kernel.receipts ++ s'.kernel.initMailbox.toList =
      s.kernel.receipts ++ s.kernel.initMailbox.toList := by
  obtain ⟨enabled, run⟩ := step
  cases e with
  | user i arg2 rsp =>
    cases orderly.userStep run with
    | own | print | register | find | empty | yield => rfl
    | @receive m here waiting =>
      show SlotEvent.takes ((s.kernel.history ++ [Observation.received m]).filterMap _) ++ _ = _
      rw [Kernel.events_snoc (e := .take m) rfl, SlotEvent.takes_append, waiting, List.append_assoc]
      rfl
    | die here handled =>
      have mailbox := (Kernel.faultHandlerInner_switched orderly.sound handled).initMailbox
      show Kernel.receipts _ ++ Option.toList (Kernel.initMailbox _) = _
      rw [(Kernel.faultHandlerInner_framed orderly.sound handled).receipts, mailbox]
  | stores i f =>
    cases run
    rfl
  | timer rsp =>
    obtain ⟨happened, -⟩ := interrupted_cases run
    rw [(orderly.handled (e := .timer rsp) rfl happened).framed.receipts,
      timer_mailbox orderly.sound happened]
  | keyboard | serial => exact absurd trivial quiet

/-- What process A has printed and what it has to print are the greeting and the echoes of the
messages that have been received or wait. -/
theorem Told.left (told : s.Told buf log) (orderly : s.Orderly buf) :
    said 0 log ++ s.left buf =
      greeting ++ (s.kernel.receipts ++ s.kernel.initMailbox.toList).flatMap echoed := by
  obtain ⟨⟨p, point⟩, -⟩ := orderly.server
  rw [left_eq point, ← List.append_assoc, told.server p point, List.append_assoc,
    List.flatMap_append]

/-- A step without a post is one of those that process A has left, or leaves them. -/
theorem Orderly.works (orderly : s.Orderly buf) (more : 0 < s.work buf) (step : s.Step buf e s')
    (quiet : ¬ Posts e) : s'.work buf + (if serverStep e then 1 else 0) = s.work buf := by
  obtain ⟨enabled, run⟩ := step
  cases e with
  | user i arg2 rsp =>
    obtain ⟨rfl, -⟩ := enabled
    have acts := orderly.userStep run
    rcases orderly.running with ⟨idx, -⟩ | ⟨idx, -, -⟩
    · obtain ⟨⟨p, point⟩, -⟩ := orderly.server
      rw [idx, point] at acts
      rw [if_pos (by simp [serverStep, idx])]
      exact acts.work idx point more
    · obtain ⟨c, point, -⟩ := orderly.client
      rw [idx, point] at acts
      rw [if_neg (by simp [serverStep, idx])]
      exact (acts.aside idx orderly.sound).work
  | stores i f =>
    cases run
    have aside : Aside buf s { s with kernel := s.kernel.userWrites f } :=
      ⟨rfl, fun n inside => by
        show (if s.kernel.userCanWrite _ then f _ else _) = _
        rw [enabled.2.2 n inside, ite_self], rfl, rfl⟩
    exact aside.work
  | timer rsp =>
    obtain ⟨happened, point⟩ := interrupted_cases run
    exact (Aside.framed (orderly.handled (e := .timer rsp) rfl happened).framed
      (timer_mailbox orderly.sound happened) (congrFun point 0) rfl).work
  | keyboard | serial => exact absurd trivial quiet

/-- The steps of process A among events. -/
def serverSteps (es : List Event) : Nat := es.countP serverStep

theorem serverSteps_eq (es : List Event) :
    (es.map fun e => if serverStep e then 1 else 0).sum = serverSteps es := by
  induction es with
  | nil => rfl
  | cons e es ih =>
    rw [List.map_cons, List.sum_cons, ih, serverSteps, serverSteps, List.countP_cons, Nat.add_comm]

/-- The session without posts. -/
def Undisturbed (buf : UInt64) : Session × List (Nat × UInt8) → Event →
    Session × List (Nat × UInt8) → Prop :=
  Recorded (noteOutput buf) (Guarded (fun _ e => ¬ Posts e) (Step buf))

/-- Without posts, process A prints all that it has to print within the steps that it has left. -/
theorem works_off (orderly : s.Orderly buf) (told : s.Told buf log) {fs : List Event}
    {last : Session × List (Nat × UInt8)} (run : Run (Undisturbed buf) (s, log) fs last)
    (enough : s.work buf ≤ serverSteps fs) :
    ∃ xs ys t log', fs = xs ++ ys ∧ Run (Undisturbed buf) (s, log) xs (t, log') ∧
      said 0 log' = said 0 log ++ s.left buf ∧ serverSteps xs ≤ s.work buf := by
  let all := (s.kernel.receipts ++ s.kernel.initMailbox.toList).flatMap echoed
  -- Every state is in order, and has the same messages to echo.
  let I : Session × List (Nat × UInt8) → Prop := fun a => a.1.Orderly buf ∧ a.1.Told buf a.2 ∧
    (a.1.kernel.receipts ++ a.1.kernel.initMailbox.toList).flatMap echoed = all
  have keep : ∀ a e b, I a → Undisturbed buf a e b → I b := by
    rintro a e b ⟨before, said, same⟩ ⟨⟨quiet, step⟩, noted⟩
    refine ⟨before.step step, ?_, ?_⟩
    · rw [noted]
      exact said.step before step
    · rw [before.mail step quiet]
      exact same
  have busy : ∀ a, I a → ¬ a.1.left buf = [] → 0 < a.1.work buf := by
    rintro a ⟨before, -, -⟩ more
    obtain ⟨⟨p, point⟩, -⟩ := before.server
    rw [left_eq point] at more
    rw [work_eq point]
    unfold Server.work
    have := List.length_pos_iff.mpr more
    omega
  have pay : ∀ a e b, I a → ¬ a.1.left buf = [] → Undisturbed buf a e b →
      b.1.work buf + (if serverStep e then 1 else 0) ≤ a.1.work buf := by
    intro a e b before more step
    exact Nat.le_of_eq (before.1.works (busy a before more) step.1.2 step.1.1)
  have start : I (s, log) := ⟨orderly, told, rfl⟩
  have steps : s.work buf ≤ (fs.map fun e => if serverStep e then 1 else 0).sum := by
    rw [serverSteps_eq]
    exact enough
  obtain ⟨xs, ys, ⟨t, log'⟩, split, before, printed, within⟩ :=
    run.reaches (f := fun a => a.1.work buf) start keep pay busy steps
  obtain ⟨orderly', told', same⟩ := before.invariant start keep
  refine ⟨xs, ys, t, log', split, before, ?_, ?_⟩
  · have ended := told'.left orderly'
    change t.left buf = [] at printed
    rw [printed, List.append_nil, same] at ended
    rw [ended, told.left orderly]
  · rw [← serverSteps_eq]
    exact within

section Beginning

variable {entry kstackA kstackB monitorStackTop : UInt64} {mem : Memory}
  {pages : UInt64 → Option PageFlags} {s0 : Session} {es fs : List Event}

/-- In every state that the session reaches in which a message waits, process A prints what it is
printing and then the echo of the message, as long as no device posts another one, before it has
made three steps more than there are bytes to print: whatever process B and the timer do. -/
theorem echo_answered (begins : Begins entry kstackA kstackB monitorStackTop mem pages s0)
    (writable : Sys.Writable s0.kernel buf 40)
    (run : Run (Recorded (noteOutput buf) (Step buf)) (s0, []) es (s, log)) {p : Server}
    {m : Message} (point : s.point 0 = .server p) (waiting : s.kernel.initMailbox = some m)
    {last : Session × List (Nat × UInt8)} (later : Run (Undisturbed buf) (s, log) fs last)
    (enough : (p.rest buf s.kernel.mem ++ echoed m).length + 3 ≤ serverSteps fs) :
    ∃ xs ys t log', fs = xs ++ ys ∧ Run (Undisturbed buf) (s, log) xs (t, log') ∧
      said 0 log' = said 0 log ++ p.rest buf s.kernel.mem ++ echoed m ∧
      serverSteps xs ≤ (p.rest buf s.kernel.mem ++ echoed m).length + 3 := by
  obtain ⟨orderly, told⟩ := begins.run writable run
  have left : s.left buf = p.rest buf s.kernel.mem ++ echoed m := by
    rw [left_eq point, waiting, Option.toList_some, List.flatMap_singleton]
  have work : s.work buf ≤ (p.rest buf s.kernel.mem ++ echoed m).length + 3 := by
    rw [work_eq point, waiting]
    unfold Server.work
    rw [Option.toList_some, List.flatMap_singleton]
    split <;> simp
  obtain ⟨xs, ys, t, log', split, before, printed, within⟩ :=
    works_off orderly told later (work.trans enough)
  refine ⟨xs, ys, t, log', split, before, ?_, within.trans work⟩
  rw [printed, left, List.append_assoc]

end Beginning

/-! ### Left alone -/

/-- Process A runs, and it is not about to yield. -/
structure AtWork (buf : UInt64) (s : Session) : Prop where
  orderly : s.Orderly buf
  idx : s.kernel.currentTaskIdx = 0
  awake : s.halted = false
  busy : s.point 0 ≠ .server .yielding

theorem Server.next_yielding {value : UInt64} {mem : Memory} {p : Server}
    (receipt : p = .printing [] → value = 1) : p.next buf value mem ≠ .yielding := by
  cases p with
  | registering | yielding => simp [Server.next]
  | printing rest =>
    cases rest with
    | nil =>
      rw [Server.next, if_pos (receipt rfl)]
      simp
    | cons => simp [Server.next]
  | received =>
    rw [Server.next]
    split <;> simp

/-- While it has something to do, process A can go on. -/
theorem AtWork.goes_on (at_work : s.AtWork buf) (more : 0 < s.work buf) (rsp : UInt64) :
    ∃ s', s.Step buf (.user 0 0 rsp) s' ∧ s'.AtWork buf ∧ s'.work buf + 1 = s.work buf := by
  obtain ⟨orderly, idx, awake, busy⟩ := at_work
  have enabled : s.Enabled buf (.user 0 0 rsp) := ⟨idx.symm, awake⟩
  obtain ⟨s', step⟩ := orderly.progress enabled
  obtain ⟨⟨p, point⟩, -⟩ := orderly.server
  have acts := orderly.userStep step.2
  rw [idx, point] at acts
  have goes : ∀ value, (p = .printing [] → value = 1) → s'.kernel.currentTaskIdx = 0 →
      s'.point = (s.moved buf value s'.kernel).point → s'.halted = false → s'.AtWork buf := by
    intro value receipt here next awake'
    refine ⟨orderly.step step, here, awake', ?_⟩
    rw [next, moved_point here, point]
    intro yields
    injection yields with yields
    exact Server.next_yielding receipt yields
  refine ⟨s', step, ?_, acts.work idx point more⟩
  change Acts buf s (p.act buf) s' at acts
  cases acts.server with
  | registers | prints => exact goes 0 (by simp) idx rfl rfl
  | receives => exact goes 1 (fun _ => rfl) idx rfl rfl
  | finds_none waiting =>
    rw [work_eq point, waiting] at more
    exact absurd more (Nat.lt_irrefl 0)
  | goes_on => exact goes 0 (by simp) idx rfl awake
  | yields => exact absurd point busy

theorem AtWork.alone (at_work : s.AtWork buf) (rsp : UInt64) {n : Nat} (less : n ≤ s.work buf)
    (log : List (Nat × UInt8)) :
    ∃ last, Run (Undisturbed buf) (s, log) (List.replicate n (.user 0 0 rsp)) last := by
  induction n generalizing s log with
  | zero => exact ⟨_, .nil⟩
  | succ n ih =>
    obtain ⟨s', step, at_work', paid⟩ :=
      at_work.goes_on (Nat.lt_of_lt_of_le (Nat.succ_pos n) less) rsp
    obtain ⟨last, rest⟩ := ih at_work' (by omega) (noteOutput buf s (.user 0 0 rsp) log)
    have first : Undisturbed buf (s, log) (.user 0 0 rsp)
        (s', noteOutput buf s (.user 0 0 rsp) log) := ⟨⟨not_false, step⟩, rfl⟩
    exact ⟨last, (Run.single first).append rest⟩

/-- A byte arrives before process A has begun, and is echoed after the greeting. -/
theorem echo_answered_byte : ∃ s0 s : Session, Kernel.heapBoot = .ok s0.kernel ∧
    Run (Recorded (noteOutput 0x30007000) (Step 0x30007000)) (s0, [])
      [.serial 0x41 0x444444447f60] (s, []) ∧
    ∃ xs t log, Run (Undisturbed 0x30007000) (s, []) xs (t, log) ∧
      said 0 log = greeting ++ echo 0x41 := by
  obtain ⟨s0, boot, begins, writable⟩ := heapBoot_begins
  obtain ⟨k0, k, boot', arrives, -, -, waiting⟩ := Kernel.byte_waits
  obtain rfl : s0.kernel = k0 := by
    rw [boot] at boot'
    injection boot'
  obtain ⟨mid, ⟨out, handled⟩, rest⟩ := arrives.cons_inv
  obtain rfl := rest.nil_inv
  let s : Session := ⟨k, s0.point, false⟩
  have posted : s0.Step 0x30007000 (.serial 0x41 0x444444447f60) s := by
    refine ⟨trivial, ?_⟩
    show (s0.kernel.step _).map _ = _
    rw [handled]
    rfl
  have run : Run (Recorded (noteOutput 0x30007000) (Step 0x30007000)) (s0, [])
      [.serial 0x41 0x444444447f60] (s, []) := .single ⟨posted, rfl⟩
  have orderly := (begins.run writable run).1
  have point : s.point 0 = .server .registering := begins.points.1
  have idx : s.kernel.currentTaskIdx = 0 := by
    have first := (Kernel.kernelMain_processes begins.1).2.1
    cases Kernel.step_happens (begins.orderly writable).sound handled with
    | serial ran =>
      refine (congrArg Kernel.Fixed.currentTaskIdx (Kernel.fixed_pollKernelTasks ran)).trans ?_
      show (s0.kernel.postInitMailbox _).currentTaskIdx = 0
      unfold Kernel.postInitMailbox
      split <;> exact first
  have at_work : s.AtWork 0x30007000 := ⟨orderly, idx, rfl, by rw [point]; simp⟩
  have work : s.work 0x30007000 =
      (greeting ++ echoed (Kernel.deviceMessage 3 0x41)).length + 3 := by
    rw [work_eq point, show s.kernel.initMailbox = _ from waiting]
    unfold Server.work
    rw [Option.toList_some, List.flatMap_singleton]
    rfl
  obtain ⟨last, later⟩ := at_work.alone 0x30007f58 (Nat.le_of_eq work.symm) []
  have count : serverSteps (List.replicate
      ((greeting ++ echoed (Kernel.deviceMessage 3 0x41)).length + 3) (.user 0 0 0x30007f58)) =
        (greeting ++ echoed (Kernel.deviceMessage 3 0x41)).length + 3 :=
    (List.countP_replicate ..).trans (if_pos rfl)
  obtain ⟨xs, ys, t, log, -, answered, said_all, -⟩ :=
    echo_answered begins writable run point waiting later (Nat.le_of_eq count.symm)
  exact ⟨s0, s, boot, run, xs, t, log, answered, said_all⟩

end Session

end Init

end Microkernel
