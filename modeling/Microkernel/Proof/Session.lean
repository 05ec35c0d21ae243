import Microkernel.Init
import Microkernel.Proof.Finality
import Microkernel.Proof.Identity
import Microkernel.Proof.Printing
import Microkernel.Proof.Progress

/-! The session of the init program's two processes over the kernel: what an interrupt does in it,
and what holds in every state that it reaches. -/

namespace Microkernel

open Lib

namespace Kernel

variable {k k' mid : Kernel} {scripts : List PollScript} {rsp r : UInt64} {t : TaskRef}

/-! ### Interrupts whose polls wake nothing -/

/-- The messages that `SYS_RECV` has returned, in order. -/
def receipts (k : Kernel) : List Message := SlotEvent.takes (k.history.filterMap initEvent)

/-- What an interrupt leaves alone, of what processes see. -/
structure Framed (k k' : Kernel) : Prop where
  mem : k'.mem = k.mem
  printed : k'.printed = k.printed
  services : k'.serviceRegistry = k.serviceRegistry
  pages : k'.pages = k.pages
  receipts : k'.receipts = k.receipts

theorem Framed.refl (k : Kernel) : Framed k k := ⟨rfl, rfl, rfl, rfl, rfl⟩

theorem Framed.trans (first : Framed k mid) (second : Framed mid k') : Framed k k' :=
  ⟨second.mem.trans first.mem, second.printed.trans first.printed,
    second.services.trans first.services, second.pages.trans first.pages,
    second.receipts.trans first.receipts⟩

theorem receipts_other {o : Observation} (other : initEvent o = none) :
    (k.observe o).receipts = k.receipts :=
  congrArg SlotEvent.takes (events_other other)

theorem receipts_polls : PollKeeps fun after => after.receipts = k.receipts where
  wake _ same := (receipts_other rfl).trans same
  receive t cx same := by
    unfold ipcReceivePoll
    split
    · exact (receipts_other rfl).trans same
    · exact same
  current _ same := same
  cache _ same := same
  finish _ same := (receipts_other rfl).trans same
  polled _ same := (receipts_other rfl).trans same
  dropped _ _ same := (receipts_other rfl).trans same
  drained same := (receipts_other rfl).trans same
  pop _ same := same

theorem pollKernelTasks_framed (run : k.pollKernelTasks scripts = .ok k') : Framed k k' where
  mem := congrArg Fixed.mem (fixed_pollKernelTasks run)
  printed := congrArg Fixed.printed (fixed_pollKernelTasks run)
  services := congrArg Fixed.serviceRegistry (fixed_pollKernelTasks run)
  pages := congrArg Fixed.pages (fixed_pollKernelTasks run)
  receipts := receipts_polls.pollKernelTasks (fun _ same => same) rfl run

theorem postInitMailbox_framed (m : Message) : Framed k (k.postInitMailbox m) := by
  unfold postInitMailbox
  split
  · exact .refl k
  · refine ⟨rfl, rfl, rfl, rfl, ?_⟩
    show SlotEvent.takes ((k.history ++ [Observation.posted m]).filterMap initEvent) = _
    rw [events_snoc (e := .put m) rfl, SlotEvent.takes_append]
    exact List.append_nil _

theorem scheduleNext_framed {force : Bool} (sound : k.Sound)
    (run : k.scheduleNext rsp force = .ok (r, k')) : Framed k k' := by
  obtain ⟨old, cur⟩ := sound.current
  rcases scheduleNext_cases sound.taskList_free cur run with ⟨-, -, rfl⟩ | ⟨-, new, -, -, rfl⟩
  · exact .refl _
  · exact ⟨rfl, rfl, rfl, rfl, rfl⟩

theorem faultHandlerInner_framed (sound : k.Sound)
    (run : k.faultHandlerInner rsp = .ok (r, k')) : Framed k k' := by
  obtain ⟨t, cur⟩ := sound.current
  have killed : Framed k (k.setState t .terminated) := ⟨rfl, rfl, rfl, rfl, rfl⟩
  exact killed.trans (scheduleNext_framed (sound.kill t) (faultHandlerInner_cases sound cur run))

/-- A future that returns `Poll::Ready` at once does nothing else. -/
theorem runMoments_ready (ready : ∀ script ∈ scripts, script = .ready) :
    ∀ m ∈ runMoments scripts k, m.1 = .ready := by
  induction scripts generalizing k with
  | nil =>
    unfold runMoments
    split <;> exact fun m mem => absurd mem List.not_mem_nil
  | cons script rest ih =>
    have first : script = .ready := ready script List.mem_cons_self
    have others : ∀ script ∈ rest, script = .ready :=
      fun s mem => ready s (List.mem_cons_of_mem script mem)
    subst first
    unfold runMoments
    split
    · exact fun m mem => absurd mem List.not_mem_nil
    next id q popped =>
      intro m mem
      rcases List.mem_append.mp mem with now | later
      · unfold taskMoments at now
        split at now
        · cases now
        · split at now
          · cases now
          · rw [List.mem_singleton.mp now]
      · split at later
        · exact ih others m later
        · cases later

theorem pollMoments_ready : ∀ m ∈ k.pollMoments [.ready], m.1 = .ready := by
  unfold pollMoments
  split
  · exact fun m mem => absurd mem List.not_mem_nil
  · exact runMoments_ready fun script mem => List.mem_singleton.mp mem

/-- At most one task is queued, and its future is told to return: the polls end. -/
theorem pollKernelTasks_ready (short : k.executor.taskQueue.items.length ≤ 1) :
    ∃ k', k.pollKernelTasks [.ready] = .ok k' := by
  cases run : k.pollKernelTasks [.ready] with
  | ok k' => exact ⟨k', rfl⟩
  | error reason =>
    rcases pollKernelTasks_error run with ⟨-, m, mem, top, rest, spawn⟩ | ⟨-, less⟩
    · rw [pollMoments_ready m mem] at spawn
      cases spawn
    · have silent : wakeCount (k.pollMoments [.ready]) = 0 := by
        refine List.countP_eq_zero.mpr fun m mem => ?_
        obtain ⟨script, state⟩ := m
        have this : script = .ready := pollMoments_ready _ mem
        subst this
        exact Bool.false_ne_true
      rw [silent, List.length_singleton] at less
      omega

theorem pollKernelTasks_states (run : k.pollKernelTasks [.ready] = .ok k') (t : TaskRef) :
    (k'.task t).state = (k.task t).state := by
  have states := pollKernelTasks_stateAfter (u := t) run
  have none_received : (k.pollMoments [.ready]).filterMap receivedAt = [] := by
    refine List.filterMap_eq_nil_iff.mpr fun m mem => ?_
    obtain ⟨script, state⟩ := m
    have this : script = .ready := pollMoments_ready _ mem
    subst this
    rfl
  rwa [none_received, StateAfter, if_neg List.not_mem_nil] at states

theorem pollKernelTasks_queue (sound : k.Sound) (run : k.pollKernelTasks scripts = .ok k') :
    k'.executor.taskQueue.items = [] := by
  rcases pollKernelTasks_cases run with ⟨locked, -⟩ | ⟨-, after, ran, rfl⟩
  · rw [sound.quiet.free (by decide)] at locked
    cases locked
  · obtain ⟨-, -, empty, -⟩ := runReadyTasks_drained ran
    exact empty

/-- `CURRENT_TASK_ID` is 0, or it is that of the process that runs. -/
def Identifies (k : Kernel) : Prop := k.currentTaskId = 0 ∨ k.Coherent

/-- The process that runs is `Ready`. -/
def Lives (k : Kernel) : Prop := ∃ t, k.Current t ∧ (k.task t).state = .ready

/-- What an interrupt of a session does: the queue is empty after it, no process has changed its
state, and the process that runs is `Ready` if the one before it was. -/
structure Interrupted (k k' : Kernel) : Prop where
  framed : Framed k k'
  queue : k'.executor.taskQueue.items = []
  states : ∀ t, (k'.task t).state = (k.task t).state
  identifies : k'.Identifies
  lives : k.Lives → k'.Lives

theorem timer_interrupted (sound : k.Sound)
    (step : k.Step (.timer [.ready] rsp) k') : Interrupted k k' := by
  obtain ⟨out, run⟩ := step
  cases step_happens sound run with
  | @timer scripts rsp r polled _ ran scheduled =>
    have sound1 := (sound.fixed (fixed_pollKernelTasks ran)).tick
    have ticked : Framed k { polled with tickCount := polled.tickCount + 1 } :=
      (pollKernelTasks_framed ran).trans ⟨rfl, rfl, rfl, rfl, rfl⟩
    have empty := pollKernelTasks_queue sound ran
    have states : ∀ t, (polled.task t).state = (k.task t).state := pollKernelTasks_states ran
    have idle : polled.currentTaskId = 0 := polled_idle sound ran
    obtain ⟨old, cur⟩ := sound.current
    have cur1 := cur.polled ran
    rcases scheduleNext_cases sound1.taskList_free cur1 scheduled with
      ⟨-, -, rfl⟩ | ⟨-, new, selected, -, rfl⟩
    · refine ⟨ticked, empty, states, .inl idle, ?_⟩
      rintro ⟨t, running, alive⟩
      exact ⟨t, running.polled ran, (states t).trans alive⟩
    · refine ⟨ticked.trans ⟨rfl, rfl, rfl, rfl, rfl⟩, empty, fun t => ?_,
        .inr (movedTo_coherent selected), ?_⟩
      · exact (movedTo_keeps Task.state fun _ => rfl).trans (states t)
      · rintro ⟨t, running, alive⟩
        have ready := readyAt_iff.mpr ⟨t, running.polled ran, (states t).trans alive⟩
        obtain ⟨v, there, chosen⟩ := readyAt_iff.mp (nextIdx_ready cur1 ready)
        exact ⟨v, there, (movedTo_keeps Task.state fun _ => rfl).trans chosen⟩

theorem polled_interrupted (sound : k.Sound) (run : k.pollKernelTasks [.ready] = .ok k') :
    Interrupted k k' where
  framed := pollKernelTasks_framed run
  queue := pollKernelTasks_queue sound run
  states := pollKernelTasks_states run
  identifies := .inl (polled_idle sound run)
  lives := by
    rintro ⟨t, running, alive⟩
    exact ⟨t, running.polled run, (pollKernelTasks_states run t).trans alive⟩

theorem Interrupted.after (framed : Framed k mid) (tasks : mid.task = k.task)
    (list : mid.taskList = k.taskList) (idx : mid.currentTaskIdx = k.currentTaskIdx)
    (rest : Interrupted mid k') : Interrupted k k' where
  framed := framed.trans rest.framed
  queue := rest.queue
  states t := (rest.states t).trans (by rw [tasks])
  identifies := rest.identifies
  lives := by
    rintro ⟨t, running, alive⟩
    refine rest.lives ⟨t, ?_, by rw [tasks]; exact alive⟩
    rw [Current, list, idx]
    exact running

theorem device_interrupted {m : Message} (sound : k.Sound)
    (ran : (k.postInitMailbox m).pollKernelTasks [.ready] = .ok k') : Interrupted k k' := by
  have rest := polled_interrupted (sound.postInitMailbox m) ran
  refine rest.after (postInitMailbox_framed m) ?_ ?_ ?_ <;>
    · unfold postInitMailbox
      split <;> rfl

/-- A fault kills the process that runs, and no other one changes its state. -/
theorem fault_states (sound : k.Sound) (cur : k.Current t)
    (run : k.faultHandlerInner rsp = .ok (r, k')) {u : TaskRef} (other : u ≠ t) :
    (k'.task t).state = .terminated ∧ (k'.task u).state = (k.task u).state := by
  have scheduled := faultHandlerInner_cases sound cur run
  constructor
  · rw [scheduleNext_state (sound.kill t) scheduled]
    simp [setState]
  · rw [scheduleNext_state (sound.kill t) scheduled, setState, modifyTask_task_ne k _ other]

end Kernel

namespace Init

open User

variable {buf : UInt64} {s s' : Session} {e : Event}

/-! ### What the running process does -/

namespace Session

/-- The process that runs at its next control point, where a call has returned `value` and left the
kernel `k`. -/
def moved (buf value : UInt64) (k : Kernel) (s : Session) : Session :=
  { advance buf value { s with kernel := k } with halted := false }

/-- Everything that the process that runs can do while no message waits to be stored where it cannot
be. -/
inductive Acts (buf : UInt64) (s : Session) (act : Act) : Session → Prop
  | own (here : act = .own) : Acts buf s act (s.advance buf 0)
  | print {b : UInt8} (here : act = .call 1 b.toUInt64) : Acts buf s act
      (s.moved buf 0 { s.kernel with printed := s.kernel.printed ++ encoded b })
  | register (here : act = .call 14 serviceNameSerial) : Acts buf s act
      (s.moved buf 0 { s.kernel with
        serviceRegistry := Function.update s.kernel.serviceRegistry serviceNameSerial
          (some ⟨s.kernel.currentTaskId⟩) })
  | find (here : act = .call 15 serviceNameSerial) : Acts buf s act
      (s.moved buf (match s.kernel.serviceRegistry serviceNameSerial with
        | some pid => pid.val
        | none => 0xFFFFFFFFFFFFFFFF) s.kernel)
  | receive {m : Message} (here : act = .call 11 buf) (waiting : s.kernel.initMailbox = some m) :
      Acts buf s act (s.moved buf 1 ({ s.kernel with
        initMailbox := none
        mem := s.kernel.mem.storeAll buf m.words }.observe (.received m)))
  | empty (here : act = .call 11 buf) (waiting : s.kernel.initMailbox = none) :
      Acts buf s act (s.moved buf 0 s.kernel)
  | yield (here : act = .call 12 0) :
      Acts buf s act { s.moved buf 0 s.kernel with halted := true }
  | die {rsp r : UInt64} {k : Kernel} (here : act = .hlt)
      (handled : s.kernel.faultHandlerInner rsp = .ok (r, k)) :
      Acts buf s act { s with kernel := k }

/-- What process A does at each of its control points. -/
inductive ServerActs (buf : UInt64) (s : Session) : Server → Session → Prop
  | registers : ServerActs buf s .registering
      (s.moved buf 0 { s.kernel with
        serviceRegistry := Function.update s.kernel.serviceRegistry serviceNameSerial
          (some ⟨s.kernel.currentTaskId⟩) })
  | prints {b : UInt8} {rest : List UInt8} : ServerActs buf s (.printing (b :: rest))
      (s.moved buf 0 { s.kernel with printed := s.kernel.printed ++ encoded b })
  | receives {m : Message} (waiting : s.kernel.initMailbox = some m) :
      ServerActs buf s (.printing []) (s.moved buf 1 ({ s.kernel with
        initMailbox := none
        mem := s.kernel.mem.storeAll buf m.words }.observe (.received m)))
  | finds_none (waiting : s.kernel.initMailbox = none) :
      ServerActs buf s (.printing []) (s.moved buf 0 s.kernel)
  | goes_on : ServerActs buf s .received (s.advance buf 0)
  | yields : ServerActs buf s .yielding { s.moved buf 0 s.kernel with halted := true }

theorem Acts.server {p : Server} (acts : Acts buf s (p.act buf) s') : ServerActs buf s p s' := by
  cases p with
  | registering =>
    cases acts with
    | register => exact .registers
    | own here | die here => cases here
    | print here | find here | receive here | empty here | yield here =>
      simp [Server.act] at here
  | printing rest =>
    cases rest with
    | nil =>
      cases acts with
      | receive here waiting => exact .receives waiting
      | empty here waiting => exact .finds_none waiting
      | own here | die here => cases here
      | print here | find here | register here | yield here => simp [Server.act] at here
    | cons b rest =>
      cases acts with
      | @print c here =>
        obtain rfl : c = b := by
          injection here with _ bytes
          rw [← UInt8.toUInt8_toUInt64 c, ← bytes, UInt8.toUInt8_toUInt64]
        exact .prints
      | own here | die here => cases here
      | register here | find here | receive here | empty here | yield here =>
        simp [Server.act] at here
  | received =>
    cases acts with
    | own => exact .goes_on
    | die here => cases here
    | print here | register here | find here | receive here | empty here | yield here => cases here
  | yielding =>
    cases acts with
    | yield => exact .yields
    | own here | die here => cases here
    | print here | register here | find here | receive here | empty here =>
      simp [Server.act] at here

/-- The system calls of the program. -/
theorem act_cases (buf : UInt64) (p : Point) :
    p.act buf = .own ∨ p.act buf = .hlt ∨ (∃ b : UInt8, p.act buf = .call 1 b.toUInt64) ∨
      p.act buf = .call 14 serviceNameSerial ∨ p.act buf = .call 15 serviceNameSerial ∨
      p.act buf = .call 11 buf ∨ p.act buf = .call 12 0 := by
  unfold Point.act
  split
  next p =>
    unfold Server.act
    split <;> simp
  next c =>
    unfold Client.act
    split <;> simp

/-- What the kernel does for one of the program's calls, and the process after it. -/
theorem userStep_call {id arg1 arg2 rsp value : UInt64} {k : Kernel}
    (here : (s.point s.kernel.currentTaskIdx).act buf = .call id arg1)
    (call : (Kernel.handleSyscall id arg1 arg2).run s.kernel = .done value k) :
    s.userStep buf arg2 rsp =
      .ok { advance buf value { s with kernel := k } with halted := id = 12 } := by
  unfold userStep
  rw [here]
  dsimp only
  rw [call]

/-- The process that runs can always do what it does, if no message waits to be stored where it
cannot be. -/
theorem userStep_acts (sound : s.kernel.Sound) (free : s.kernel.isHeld .initMailbox = false)
    (writable : Sys.Writable s.kernel buf 40) (arg2 rsp : UInt64) :
    ∃ s', s.userStep buf arg2 rsp = .ok s' ∧
      Acts buf s ((s.point s.kernel.currentTaskIdx).act buf) s' := by
  rcases act_cases buf (s.point s.kernel.currentTaskIdx) with
    here | here | ⟨b, here⟩ | here | here | here | here
  · refine ⟨s.advance buf 0, ?_, .own here⟩
    unfold userStep
    rw [here]
  · obtain ⟨r, k, handled⟩ := Kernel.faultHandlerInner_total sound rsp
    refine ⟨{ s with kernel := k }, ?_, .die here handled⟩
    unfold userStep
    rw [here]
    show (s.kernel.faultHandlerInner rsp).map _ = _
    rw [handled]
    rfl
  · have call : (Kernel.handleSyscall 1 b.toUInt64 arg2).run s.kernel =
        .done 0 { s.kernel with printed := s.kernel.printed ++ encoded b } := by
      have same : b.toUInt64.toUInt8 = b := UInt8.toUInt8_toUInt64 b
      show Outcome.done 0 { s.kernel with
        printed := s.kernel.printed ++ String.utf8EncodeChar (Char.ofUInt8 b.toUInt64.toUInt8) } = _
      rw [same]
      rfl
    exact ⟨_, userStep_call here call, .print here⟩
  · have call : (Kernel.handleSyscall 14 serviceNameSerial arg2).run s.kernel = _ :=
      Kernel.sysRegService_eq sound.quiet serviceNameSerial
    exact ⟨_, userStep_call here call, .register here⟩
  · have call : (Kernel.handleSyscall 15 serviceNameSerial arg2).run s.kernel = _ :=
      Kernel.sysGetServicePid_eq sound.quiet serviceNameSerial
    exact ⟨_, userStep_call here call, .find here⟩
  · cases waiting : s.kernel.initMailbox with
    | none =>
      have call : (Kernel.handleSyscall 11 buf arg2).run s.kernel = _ :=
        Kernel.sysRecv_empty (.inr waiting)
      exact ⟨_, userStep_call here call, .empty here waiting⟩
    | some m =>
      have call : (Kernel.handleSyscall 11 buf arg2).run s.kernel = _ :=
        Kernel.sysRecv_done free waiting writable
      exact ⟨_, userStep_call here call, .receive here waiting⟩
  · have call : (Kernel.handleSyscall 12 0 arg2).run s.kernel = .done 0 s.kernel := rfl
    exact ⟨_, userStep_call here call, .yield here⟩

/-! ### What holds throughout -/

/-- The two processes are in order: the kernel is sound and no lock is held, `msg` can be stored,
process A is `Ready`, and process B is too unless it has reached its `hlt`. -/
structure Orderly (buf : UInt64) (s : Session) : Prop where
  sound : s.kernel.Sound
  unlocked : s.kernel.held = []
  follows : s.kernel.InitFollows
  processes : s.kernel.taskList = [0, 1]
  inUse : 1 < s.kernel.nextRef
  named : (s.kernel.task 0).id = ⟨1⟩ ∧ (s.kernel.task 1).id = ⟨2⟩
  identifies : s.kernel.Identifies
  writable : Sys.Writable s.kernel buf 40
  queue : s.kernel.executor.taskQueue.items.length ≤ 1
  lives : s.kernel.Lives
  server : (∃ p, s.point 0 = .server p) ∧ (s.kernel.task 0).state = .ready
  client : ∃ c, s.point 1 = .client c ∧
    ((s.kernel.task 1).state = .ready ∨ (s.kernel.task 1).state = .terminated ∧ c = .leaving [])

theorem Orderly.free (orderly : s.Orderly buf) (l : Lock) : s.kernel.isHeld l = false := by
  simp [Kernel.isHeld, orderly.unlocked]

/-- One of the two runs, and it is `Ready`. -/
theorem Orderly.running (orderly : s.Orderly buf) :
    s.kernel.currentTaskIdx = 0 ∧ s.kernel.Current 0 ∨
      s.kernel.currentTaskIdx = 1 ∧ s.kernel.Current 1 ∧ (s.kernel.task 1).state = .ready := by
  obtain ⟨t, cur, alive⟩ := orderly.lives
  have here : [0, 1][s.kernel.currentTaskIdx]? = some t := by
    rw [← orderly.processes]
    exact cur
  have inside : s.kernel.currentTaskIdx < 2 := (List.getElem?_eq_some_iff.mp here).1
  rcases Nat.lt_succ_iff_lt_or_eq.mp inside with less | last
  · have first : s.kernel.currentTaskIdx = 0 := Nat.lt_one_iff.mp less
    rw [first] at here
    cases here
    exact .inl ⟨first, cur⟩
  · rw [last] at here
    cases here
    exact .inr ⟨last, cur, alive⟩

/-- What the program's calls leave alone. -/
structure Keeps (k k' : Kernel) : Prop where
  task : k'.task = k.task
  taskList : k'.taskList = k.taskList
  idx : k'.currentTaskIdx = k.currentTaskIdx
  id : k'.currentTaskId = k.currentTaskId
  refs : k'.nextRef = k.nextRef
  held : k'.held = k.held
  pages : k'.pages = k.pages
  executor : k'.executor = k.executor

theorem Keeps.identifies {k k' : Kernel} (keeps : Keeps k k') (identifies : k.Identifies) :
    k'.Identifies := by
  rcases identifies with idle | ⟨t, cur, same⟩
  · exact .inl (keeps.id.trans idle)
  · refine .inr ⟨t, ?_, by rw [keeps.id, keeps.task, same]⟩
    rw [Kernel.Current, keeps.taskList, keeps.idx]
    exact cur

theorem Keeps.lives {k k' : Kernel} (keeps : Keeps k k') (lives : k.Lives) : k'.Lives := by
  obtain ⟨t, cur, alive⟩ := lives
  refine ⟨t, ?_, by rw [keeps.task]; exact alive⟩
  rw [Kernel.Current, keeps.taskList, keeps.idx]
  exact cur

theorem writable_congr {k k' : Kernel} (pages : k'.pages = k.pages)
    (writable : Sys.Writable k buf 40) : Sys.Writable k' buf 40 := by
  intro i hi
  have before := writable i hi
  unfold Kernel.canWrite at before ⊢
  rwa [pages]

/-- Order is kept by what keeps the processes, while the control points keep their sides. -/
theorem Orderly.keeps (orderly : s.Orderly buf) (keeps : Keeps s.kernel s'.kernel)
    (follows : s'.kernel.InitFollows) (server : ∃ p, s'.point 0 = .server p)
    (client : ∃ c, s'.point 1 = .client c ∧
      ((s.kernel.task 1).state = .ready ∨
        (s.kernel.task 1).state = .terminated ∧ c = .leaving [])) : s'.Orderly buf where
  sound := orderly.sound.congr keeps.taskList keeps.idx (Nat.le_of_eq keeps.refs.symm) keeps.held
  unlocked := keeps.held.trans orderly.unlocked
  follows := follows
  processes := keeps.taskList.trans orderly.processes
  inUse := by
    rw [keeps.refs]
    exact orderly.inUse
  named := by
    rw [keeps.task]
    exact orderly.named
  identifies := keeps.identifies orderly.identifies
  writable := writable_congr keeps.pages orderly.writable
  queue := by
    rw [keeps.executor]
    exact orderly.queue
  lives := keeps.lives orderly.lives
  server := ⟨server, by rw [keeps.task]; exact orderly.server.2⟩
  client := by
    rw [keeps.task]
    exact client

/-- The process that runs goes on to its next control point. -/
theorem Orderly.moves (orderly : s.Orderly buf) {value : UInt64}
    (keeps : Keeps s.kernel s'.kernel) (follows : s'.kernel.InitFollows)
    (point : s'.point = Function.update s.point s.kernel.currentTaskIdx
      ((s.point s.kernel.currentTaskIdx).next buf value s'.kernel.mem)) : s'.Orderly buf := by
  obtain ⟨⟨p, here⟩, -⟩ := orderly.server
  obtain ⟨c, there, state⟩ := orderly.client
  rcases orderly.running with ⟨idx, -⟩ | ⟨idx, -, alive⟩
  · refine orderly.keeps keeps follows ⟨p.next buf value s'.kernel.mem, ?_⟩ ⟨c, ?_, state⟩
    · rw [point, idx, Function.update_self, here]
      rfl
    · rw [point, idx, Function.update_of_ne (by decide), there]
  · refine orderly.keeps keeps follows ⟨p, ?_⟩ ⟨c.next value, ?_, .inl alive⟩
    · rw [point, idx, Function.update_of_ne (by decide), here]
    · rw [point, idx, Function.update_self, there]
      rfl

/-- `hlt` is what process B does with nothing left to print. -/
theorem hlt_point (orderly : s.Orderly buf)
    (here : (s.point s.kernel.currentTaskIdx).act buf = .hlt) :
    s.kernel.Current 1 ∧ s.point 1 = .client (.leaving []) := by
  obtain ⟨⟨p, server⟩, -⟩ := orderly.server
  obtain ⟨c, client, -⟩ := orderly.client
  rcases orderly.running with ⟨idx, -⟩ | ⟨idx, cur, -⟩
  · rw [idx, server] at here
    change p.act buf = .hlt at here
    unfold Server.act at here
    split at here <;> cases here
  · refine ⟨cur, ?_⟩
    rw [idx, client] at here
    rw [client]
    change c.act = .hlt at here
    unfold Client.act at here
    split at here <;> first | rfl | cases here

/-- The `hlt` of process B kills it, and process A runs. -/
theorem Orderly.dies (orderly : s.Orderly buf) {rsp r : UInt64} {k : Kernel}
    (here : (s.point s.kernel.currentTaskIdx).act buf = .hlt)
    (handled : s.kernel.faultHandlerInner rsp = .ok (r, k)) :
    Orderly buf { s with kernel := k } ∧ (k.task 1).state = .terminated := by
  obtain ⟨cur, client⟩ := hlt_point orderly here
  have step : s.kernel.Step (.gpf rsp) k := ⟨some r, by
    show (s.kernel.faultHandlerInner rsp).map _ = _
    rw [handled]
    rfl⟩
  have same := orderly.sound.sameTasks step
  have switched := Kernel.faultHandlerInner_switched orderly.sound handled
  have scheduled := Kernel.faultHandlerInner_cases orderly.sound cur handled
  have framed := Kernel.faultHandlerInner_framed orderly.sound handled
  obtain ⟨dead, kept⟩ := Kernel.fault_states orderly.sound cur handled (u := 0) (by decide)
  have ready : (s.kernel.setState 1 .terminated).readyAt 0 := by
    refine Kernel.readyAt_iff.mpr ⟨0, ?_, ?_⟩
    · show s.kernel.taskList[0]? = some 0
      rw [orderly.processes]
      rfl
    · rw [Kernel.setState, Kernel.modifyTask_task_ne s.kernel _ (by decide)]
      exact orderly.server.2
  have left : ¬ k.Current 1 := Kernel.dead_not_selected (orderly.sound.kill 1)
    (by simp [Kernel.setState]) ready scheduled
  have executor : k.executor = s.kernel.executor := by
    rcases Kernel.scheduleNext_cases (orderly.sound.kill 1).taskList_free cur scheduled with
      ⟨-, -, rfl⟩ | ⟨-, new, -, -, rfl⟩ <;> rfl
  have sound := orderly.sound.faultHandlerInner handled
  have processes : k.taskList = [0, 1] := same.taskList.trans orderly.processes
  refine ⟨
    { sound := sound
      unlocked := switched.held.trans orderly.unlocked
      follows := ?_
      processes := processes
      inUse := Nat.lt_of_lt_of_le orderly.inUse same.refs
      named := ?_
      identifies := .inr (Kernel.faultHandlerInner_coherent orderly.sound handled)
      writable := writable_congr framed.pages orderly.writable
      queue := ?_
      lives := ?_
      server := ⟨orderly.server.1, kept.trans orderly.server.2⟩
      client := ⟨.leaving [], client, .inr ⟨dead, rfl⟩⟩ }, dead⟩
  · rw [Kernel.InitFollows]
    show SlotEvent.History (k.history.filterMap Kernel.initEvent) k.initMailbox
    rw [switched.history, switched.initMailbox]
    exact orderly.follows
  · show (k.task 0).id = _ ∧ (k.task 1).id = _
    rw [same.id 0 (Nat.lt_trans Nat.zero_lt_one orderly.inUse), same.id 1 orderly.inUse]
    exact orderly.named
  · show k.executor.taskQueue.items.length ≤ 1
    rw [executor]
    exact orderly.queue
  · obtain ⟨t, running⟩ := sound.current
    have listed : t ∈ k.taskList := running.mem
    rw [processes, List.mem_pair] at listed
    rcases listed with rfl | rfl
    · exact ⟨0, running, kept.trans orderly.server.2⟩
    · exact absurd running left

/-- The kernel's event for an interrupt of the session. -/
def interrupt? : Event → Option Microkernel.Event
  | .timer rsp => some (.timer [.ready] rsp)
  | .keyboard data rsp => some (.keyboard data [.ready] rsp)
  | .serial data rsp => some (.serial data [.ready] rsp)
  | _ => none

variable {ev : Microkernel.Event}

theorem interrupted_cases (run : s.interrupted ev = .ok s') :
    s.kernel.Step ev s'.kernel ∧ s'.point = s.point := by
  obtain ⟨⟨out, k⟩, handled, rfl⟩ := map_ok run
  exact ⟨⟨out, handled⟩, rfl⟩

theorem Orderly.handled (orderly : s.Orderly buf) {k : Kernel} (interrupt : interrupt? e = some ev)
    (step : s.kernel.Step ev k) : Kernel.Interrupted s.kernel k := by
  have sound := orderly.sound
  cases e with
  | timer rsp =>
    cases interrupt
    exact Kernel.timer_interrupted sound step
  | keyboard data rsp =>
    cases interrupt
    obtain ⟨out, run⟩ := step
    cases Kernel.step_happens sound run with
    | keyboard ran => exact Kernel.device_interrupted sound ran
  | serial data rsp =>
    cases interrupt
    obtain ⟨out, run⟩ := step
    cases Kernel.step_happens sound run with
    | serial ran => exact Kernel.device_interrupted sound ran
  | user | stores => cases interrupt

/-- An interrupt always returns. -/
theorem Orderly.interrupts (orderly : s.Orderly buf) (interrupt : interrupt? e = some ev) :
    ∃ s', s.interrupted ev = .ok s' := by
  have sound := orderly.sound
  have posted : ∀ m, (s.kernel.postInitMailbox m).executor.taskQueue.items.length ≤ 1 := by
    intro m
    rw [Kernel.postInitMailbox_executor]
    exact orderly.queue
  have returns : ∃ result, s.kernel.step ev = .ok result := by
    cases failed : s.kernel.step ev with
    | ok result => exact ⟨result, rfl⟩
    | error reason =>
      cases e with
      | timer rsp =>
        cases interrupt
        obtain ⟨k, ran⟩ := Kernel.pollKernelTasks_ready orderly.queue
        have polls := (Kernel.timerHandlerInner_error sound).mp (Kernel.map_error.mp failed)
        rw [ran] at polls
        cases polls
      | keyboard data rsp =>
        cases interrupt
        obtain ⟨k, ran⟩ := Kernel.pollKernelTasks_ready (posted (Kernel.deviceMessage 2 data))
        have polls := Kernel.deviceHandlerInner_error.mp (Kernel.map_error.mp failed)
        rw [ran] at polls
        cases polls
      | serial data rsp =>
        cases interrupt
        obtain ⟨k, ran⟩ := Kernel.pollKernelTasks_ready (posted (Kernel.deviceMessage 3 data))
        have polls := Kernel.deviceHandlerInner_error.mp (Kernel.map_error.mp failed)
        rw [ran] at polls
        cases polls
      | user | stores => cases interrupt
  obtain ⟨⟨out, k⟩, handled⟩ := returns
  refine ⟨{ s with kernel := k, halted := false }, ?_⟩
  unfold interrupted
  rw [handled]
  rfl

theorem Orderly.interrupted (orderly : s.Orderly buf) (interrupt : interrupt? e = some ev)
    (run : s.interrupted ev = .ok s') : s'.Orderly buf := by
  obtain ⟨step, point⟩ := interrupted_cases run
  have sound := orderly.sound
  have handled := orderly.handled interrupt step
  have same := sound.sameTasks step
  have whole : ¬ s.kernel.CutShort ev := by
    cases e <;> cases interrupt <;> exact not_false
  refine
    { sound := sound.step step
      unlocked := (Kernel.step_held sound whole step).trans orderly.unlocked
      follows := Kernel.initFollows_keeps.step sound orderly.follows whole step
      processes := same.taskList.trans orderly.processes
      inUse := Nat.lt_of_lt_of_le orderly.inUse same.refs
      named := ?_
      identifies := handled.identifies
      writable := writable_congr handled.framed.pages orderly.writable
      queue := ?_
      lives := handled.lives orderly.lives
      server := ⟨by rw [point]; exact orderly.server.1,
        (handled.states 0).trans orderly.server.2⟩
      client := ?_ }
  · rw [same.id 0 (Nat.lt_trans Nat.zero_lt_one orderly.inUse), same.id 1 orderly.inUse]
    exact orderly.named
  · rw [handled.queue]
    exact Nat.zero_le 1
  · rw [point, handled.states 1]
    exact orderly.client

/-- Whatever the process that runs does, the processes stay in order. -/
theorem Orderly.acts (orderly : s.Orderly buf)
    (acts : Acts buf s ((s.point s.kernel.currentTaskIdx).act buf) s') : s'.Orderly buf := by
  cases acts with
  | own | empty | find | yield =>
    exact orderly.moves ⟨rfl, rfl, rfl, rfl, rfl, rfl, rfl, rfl⟩ orderly.follows rfl
  | print | register =>
    exact orderly.moves ⟨rfl, rfl, rfl, rfl, rfl, rfl, rfl, rfl⟩ orderly.follows rfl
  | receive here waiting =>
    exact orderly.moves ⟨rfl, rfl, rfl, rfl, rfl, rfl, rfl, rfl⟩
      (orderly.follows.take waiting rfl rfl) rfl
  | die here handled => exact (orderly.dies here handled).1

theorem Orderly.userStep (orderly : s.Orderly buf) {arg2 rsp : UInt64}
    (run : s.userStep buf arg2 rsp = .ok s') :
    Acts buf s ((s.point s.kernel.currentTaskIdx).act buf) s' := by
  obtain ⟨s1, same, acts⟩ :=
    userStep_acts orderly.sound (orderly.free _) orderly.writable arg2 rsp
  rw [run] at same
  cases same
  exact acts

theorem Orderly.step (orderly : s.Orderly buf) (step : s.Step buf e s') : s'.Orderly buf := by
  obtain ⟨enabled, run⟩ := step
  cases e with
  | user i arg2 rsp => exact orderly.acts (orderly.userStep run)
  | stores i f =>
    cases run
    exact orderly.keeps ⟨rfl, rfl, rfl, rfl, rfl, rfl, rfl, rfl⟩ orderly.follows orderly.server.1
      orderly.client
  | timer rsp => exact orderly.interrupted (e := .timer rsp) rfl run
  | keyboard data rsp => exact orderly.interrupted (e := .keyboard data rsp) rfl run
  | serial data rsp => exact orderly.interrupted (e := .serial data rsp) rfl run

/-- Everything that is enabled can happen. -/
theorem Orderly.progress (orderly : s.Orderly buf) (enabled : s.Enabled buf e) :
    ∃ s', s.Step buf e s' := by
  have some_step : ∃ s', s.step buf e = .ok s' := by
    cases e with
    | user i arg2 rsp =>
      obtain ⟨s', run, -⟩ :=
        userStep_acts orderly.sound (orderly.free _) orderly.writable arg2 rsp
      exact ⟨s', run⟩
    | stores i f => exact ⟨_, rfl⟩
    | timer rsp => exact orderly.interrupts (e := .timer rsp) rfl
    | keyboard data rsp => exact orderly.interrupts (e := .keyboard data rsp) rfl
    | serial data rsp => exact orderly.interrupts (e := .serial data rsp) rfl
  obtain ⟨s', run⟩ := some_step
  exact ⟨s', enabled, run⟩

/-- Process B is killed by its `hlt` and by nothing else. -/
theorem Orderly.dead_step (orderly : s.Orderly buf) (step : s.Step buf e s') :
    (s'.kernel.task 1).state = .terminated ↔ (s.kernel.task 1).state = .terminated ∨
      s.point 1 = .client (.leaving []) ∧ ∃ arg2 rsp, e = .user 1 arg2 rsp := by
  obtain ⟨enabled, run⟩ := step
  have interrupted : ∀ ev, interrupt? e = some ev → s.interrupted ev = .ok s' →
      ((s'.kernel.task 1).state = .terminated ↔ (s.kernel.task 1).state = .terminated) := by
    intro ev interrupt ran
    rw [(orderly.handled interrupt (interrupted_cases ran).1).states 1]
  cases e with
  | user i arg2 rsp =>
    obtain ⟨rfl, awake⟩ := enabled
    have acts := orderly.userStep run
    -- The process that runs is alive, and its calls change no state.
    have alive : ∀ act, (s.point s.kernel.currentTaskIdx).act buf = act → act ≠ .hlt →
        s'.kernel.task = s.kernel.task → ((s'.kernel.task 1).state = .terminated ↔
          (s.kernel.task 1).state = .terminated ∨ s.point 1 = .client (.leaving []) ∧
            ∃ a r, Event.user s.kernel.currentTaskIdx arg2 rsp = .user 1 a r) := by
      rintro act here other same
      rw [same]
      refine ⟨.inl, ?_⟩
      rintro (dead | ⟨last, a, r, this⟩)
      · exact dead
      · injection this with idx
        rw [idx, last] at here
        exact absurd here.symm other
    cases acts with
    | own here | empty here | find here | yield here | print here | register here | receive here =>
      exact alive _ here nofun rfl
    | die here handled =>
      have idx : s.kernel.currentTaskIdx = 1 := by
        obtain ⟨cur, -⟩ := hlt_point orderly here
        rcases orderly.running with ⟨-, other⟩ | ⟨idx, -⟩
        · exact absurd (cur.unique other) (by decide)
        · exact idx
      refine iff_of_true (orderly.dies here handled).2 (.inr ⟨(hlt_point orderly here).2, ?_⟩)
      exact ⟨arg2, rsp, by rw [idx]⟩
  | stores i f =>
    cases run
    exact ⟨.inl, fun h => h.elim id fun ⟨_, a, r, this⟩ => nomatch this⟩
  | timer rsp =>
    rw [interrupted (.timer [.ready] rsp) rfl run]
    exact ⟨.inl, fun h => h.elim id fun ⟨_, a, r, this⟩ => nomatch this⟩
  | keyboard data rsp =>
    rw [interrupted (.keyboard data [.ready] rsp) rfl run]
    exact ⟨.inl, fun h => h.elim id fun ⟨_, a, r, this⟩ => nomatch this⟩
  | serial data rsp =>
    rw [interrupted (.serial data [.ready] rsp) rfl run]
    exact ⟨.inl, fun h => h.elim id fun ⟨_, a, r, this⟩ => nomatch this⟩

/-- Where process B is dead, process A runs. -/
theorem Orderly.survivor (orderly : s.Orderly buf)
    (dead : (s.kernel.task 1).state = .terminated) : s.kernel.currentTaskIdx = 0 := by
  rcases orderly.running with ⟨idx, -⟩ | ⟨-, -, alive⟩
  · exact idx
  · rw [dead] at alive
    cases alive

/-! ### From the beginning -/

section Beginning

variable {entry kstackA kstackB monitorStackTop : UInt64} {mem : Memory}
  {pages : UInt64 → Option PageFlags} {s0 : Session} {es : List Event}

theorem Begins.points (begins : Begins entry kstackA kstackB monitorStackTop mem pages s0) :
    s0.point 0 = .server .registering ∧ s0.point 1 = .client (.starting announcement) := by
  obtain ⟨-, points, -⟩ := begins
  have first := points 0 _ rfl
  have second := points 1 _ rfl
  have low : ¬ (0x30000000 + 8 * 4096 : UInt64) > 0x35000000 := by decide
  have high : (0x40000000 + 8 * 4096 : UInt64) > 0x35000000 := by decide
  rw [start, if_neg low] at first
  rw [start, if_pos high] at second
  exact ⟨first, second⟩

theorem Begins.orderly (begins : Begins entry kstackA kstackB monitorStackTop mem pages s0)
    (writable : Sys.Writable s0.kernel buf 40) : s0.Orderly buf := by
  obtain ⟨server, client⟩ := begins.points
  obtain ⟨boot, -, -⟩ := begins
  obtain ⟨list, idx, refs, process⟩ := Kernel.kernelMain_processes boot
  have rested := Kernel.kernelMain_rested boot
  have few : (Kernel.processImages entry kstackA kstackB).length < 2 ^ 64 :=
    show 2 < 2 ^ 64 by decide
  have booted := Kernel.kernelMain_booted few boot
  have first := process 0 _ rfl
  have second := process 1 _ rfl
  obtain ⟨k1, q, image, created, -, -, pushed, eq⟩ := Kernel.kernelMain_eq boot
  have alone : s0.kernel.executor.taskQueue.items.length ≤ 1 := by
    rw [eq]
    show q.items.length ≤ 1
    rw [(ArrayQueue.push_some pushed).2, created.executor]
    exact Nat.le_refl 1
  have running : s0.kernel.Current 0 := by
    rw [Kernel.Current, list, idx]
    rfl
  exact
    { sound := rested.sound
      unlocked := rested.unlocked
      follows := by
        rw [Kernel.InitFollows, rested.silent, rested.initMailbox]
        exact .nil
      processes := list
      inUse := Nat.lt_trans (show 1 < 2 by decide) refs
      named := by
        rw [first, second]
        exact ⟨rfl, rfl⟩
      identifies := .inr booted.identity
      writable := writable
      queue := alone
      lives := ⟨0, running, by rw [first]; rfl⟩
      server := ⟨⟨_, server⟩, by rw [first]; rfl⟩
      client := ⟨_, client, .inl (by rw [second]; rfl)⟩ }

/-- In every state that the session reaches, whatever is enabled can happen: an interrupt returns,
and the process that runs goes on.  Process A is `Ready`.  Process B is killed by its `hlt` and by
nothing else, and from then on only process A runs. -/
theorem client_isolated (begins : Begins entry kstackA kstackB monitorStackTop mem pages s0)
    (writable : Sys.Writable s0.kernel buf 40) (run : Run (Step buf) s0 es s) :
    (s.kernel.task 0).state = .ready ∧
    (∀ e, s.Enabled buf e → ∃ s', s.Step buf e s') ∧
    (∀ e s', s.Step buf e s' → ((s'.kernel.task 1).state = .terminated ↔
      (s.kernel.task 1).state = .terminated ∨
        s.point 1 = .client (.leaving []) ∧ ∃ arg2 rsp, e = .user 1 arg2 rsp)) ∧
    ((s.kernel.task 1).state = .terminated → ∀ fs t, Run (Step buf) s fs t →
      t.kernel.currentTaskIdx = 0 ∧ ∀ arg2 rsp, .user 1 arg2 rsp ∉ fs) := by
  have orderly : s.Orderly buf :=
    run.invariant (begins.orderly writable) fun _ _ _ orderly step => orderly.step step
  refine ⟨orderly.server.2, fun e enabled => orderly.progress enabled,
    fun e s' step => orderly.dead_step step, fun dead fs t later => ?_⟩
  have kept : t.Orderly buf ∧ (t.kernel.task 1).state = .terminated ∧
      ∀ arg2 rsp, Event.user 1 arg2 rsp ∉ fs := by
    induction later with
    | nil => exact ⟨orderly, dead, fun _ _ => List.not_mem_nil⟩
    | snoc _ step ih =>
      obtain ⟨before, gone, silent⟩ := ih
      refine ⟨before.step step, (before.dead_step step).mpr (.inl gone), fun arg2 rsp mem => ?_⟩
      rcases List.mem_append.mp mem with earlier | now
      · exact silent arg2 rsp earlier
      · obtain rfl := List.mem_singleton.mp now
        have idx := step.1.1
        rw [before.survivor gone] at idx
        exact absurd idx (by decide)
  exact ⟨kept.1.survivor kept.2.1, kept.2.2⟩

end Beginning

/-- A session at the boot, with `msg` in the stack of process A. -/
theorem heapBoot_begins : ∃ s0 : Session, Kernel.heapBoot = .ok s0.kernel ∧
    Begins 0x400000 0x444444440000 0x444444448000 0x444444454000 (fun _ => 0) Kernel.heapPages s0 ∧
    Sys.Writable s0.kernel 0x30007000 40 := by
  have evaluated : ∃ k0, Kernel.heapBoot = .ok k0 ∧ k0.pages = Kernel.heapPages := ⟨_, rfl, rfl⟩
  obtain ⟨k0, boot, pages⟩ := evaluated
  let s0 : Session := ⟨k0, fun i => match Kernel.heapImages[i]? with
    | some image => start image.userStackTop
    | none => start 0, false⟩
  have begins : Begins 0x400000 0x444444440000 0x444444448000 0x444444454000 (fun _ => 0)
      Kernel.heapPages s0 := by
    refine ⟨boot, fun i image found => ?_, rfl⟩
    show (match Kernel.heapImages[i]? with
      | some image => start image.userStackTop
      | none => start 0) = _
    rw [show Kernel.heapImages[i]? = some image from found]
  exact ⟨s0, boot, begins, (Kernel.heapPages_stack pages).2⟩

/-- Process A registers, the fifth tick ends its turn, and process B prints two bytes. -/
theorem client_isolated_turn : ∃ s0 s : Session, Kernel.heapBoot = .ok s0.kernel ∧
    Run (Step 0x30007000) s0
      (.user 0 0 0x30007f58 :: (List.replicate 5 (.timer 0x444444447f60) ++
        List.replicate 2 (.user 1 0 0x40007f58))) s ∧
    s.kernel.currentTaskIdx = 1 ∧ s.kernel.printed.length = 2 ∧
    (s.kernel.task 0).state = .ready := by
  have evaluated : ∃ s0 s1 s2 s3 s4 s5 s6 s7 s : Session, Kernel.heapBoot = .ok s0.kernel ∧
      s0.point = (fun i => ((Kernel.heapImages[i]?).map fun image =>
        start image.userStackTop).getD (start 0)) ∧ s0.halted = false ∧
      s0.kernel.pages = Kernel.heapPages ∧ s0.Step 0x30007000 (.user 0 0 0x30007f58) s1 ∧
      s1.Step 0x30007000 (.timer 0x444444447f60) s2 ∧
      s2.Step 0x30007000 (.timer 0x444444447f60) s3 ∧
      s3.Step 0x30007000 (.timer 0x444444447f60) s4 ∧
      s4.Step 0x30007000 (.timer 0x444444447f60) s5 ∧
      s5.Step 0x30007000 (.timer 0x444444447f60) s6 ∧
      s6.Step 0x30007000 (.user 1 0 0x40007f58) s7 ∧
      s7.Step 0x30007000 (.user 1 0 0x40007f58) s ∧ s.kernel.currentTaskIdx = 1 ∧
      s.kernel.printed.length = 2 :=
    ⟨⟨_, _, _⟩, _, _, _, _, _, _, _, _, rfl, rfl, rfl, rfl, ⟨⟨rfl, rfl⟩, rfl⟩, ⟨trivial, rfl⟩,
      ⟨trivial, rfl⟩, ⟨trivial, rfl⟩, ⟨trivial, rfl⟩, ⟨trivial, rfl⟩, ⟨⟨rfl, rfl⟩, rfl⟩,
      ⟨⟨rfl, rfl⟩, rfl⟩, rfl, rfl⟩
  obtain ⟨s0, s1, s2, s3, s4, s5, s6, s7, s, boot, point, halted, pages, registers, tick1, tick2,
    tick3, tick4, tick5, prints1, prints2, idx, printed⟩ := evaluated
  have begins : Begins 0x400000 0x444444440000 0x444444448000 0x444444454000 (fun _ => 0)
      Kernel.heapPages s0 := by
    refine ⟨boot, fun i image found => ?_, halted⟩
    have here : Kernel.heapImages[i]? = some image := found
    simp only [point, here, Option.map_some, Option.getD_some]
  have run := (Run.single registers).snoc tick1 |>.snoc tick2 |>.snoc tick3 |>.snoc tick4
    |>.snoc tick5 |>.snoc prints1 |>.snoc prints2
  exact ⟨s0, s, boot, run, idx, printed,
    (client_isolated begins (Kernel.heapPages_stack pages).2 run).1⟩

end Session

end Init

end Microkernel
