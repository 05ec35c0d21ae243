import Microkernel.Lib.Rota
import Microkernel.Proof.Services
import Microkernel.Proof.Shares

/-! The scheduler as a rota.  No process is in the registry, so no system call changes a priority
and every slice is that of `create_user_process`; and the state of a process changes only when a
fault kills it.  So the processes that live take turns of five ticks, in the order of the task list,
and one that is killed leaves its place to the next. -/

namespace Microkernel

open Lib

namespace Kernel

variable {k k' : Kernel} {e : Event} {t u old : TaskRef} {rsp r : UInt64} {force : Bool}
  {rota : Rota TaskRef}

/-- The processes that are `Ready`, in the order in which the scheduler comes to them. -/
def turnOrder (k : Kernel) : List TaskRef :=
  around (fun t => (k.task t).state = .ready) k.taskList k.currentTaskIdx

/-- The rota of the processes: a tick counts for the turns, and a process that is killed leaves. -/
def noteRota (k : Kernel) (e : Event) (rota : Rota TaskRef) : Rota TaskRef :=
  match e with
  | .timer _ _ => rota.tick 5 (2 ^ 64)
  | _ => if (k.kills e).isSome then rota.leave else rota

/-- No future is polled that receives for a process. -/
def Undisturbed (k : Kernel) (e : Event) : Prop := ∀ t ∈ k.eventReceives e, t ∉ k.taskList

/-! ### The order of the turns -/

/-- The walk to the next process passes over those that are not ready. -/
theorem turnOrder_next (cur : k.Current old) :
    around (fun t => (k.task t).state = .ready) k.taskList k.nextIdx =
      if (k.task old).state = .ready then k.turnOrder.rotate 1 else k.turnOrder := by
  let ready : TaskRef → Bool := fun t => (k.task t).state = .ready
  have next : around ready k.taskList (k.currentTaskIdx + 1) =
      if ready old then k.turnOrder.rotate 1 else k.turnOrder := around_succ cur
  simp only [ready, decide_eq_true_eq] at next
  rw [← next]
  have inside := cur.lt
  by_cases some_ready : ∃ w, k.readyAt w
  · obtain ⟨w, here⟩ := some_ready
    have begins := Cyclic.next_lt inside
    obtain ⟨d, -, stop, -, passed⟩ := Cyclic.search_place begins (readyAt_lt here) here
      (Cyclic.dist_lt begins (readyAt_lt here))
    have skipped : ∀ f < d, ∃ b, k.taskList[(Cyclic.next k.taskList.length k.currentTaskIdx + f) %
        k.taskList.length]? = some b ∧ ¬ ready b := by
      intro f less
      have place := Nat.mod_lt (Cyclic.next k.taskList.length k.currentTaskIdx + f)
        (Nat.lt_of_le_of_lt (Nat.zero_le _) inside)
      refine ⟨_, List.getElem?_eq_getElem place, fun holds => passed f less ?_⟩
      exact readyAt_iff.mpr ⟨_, List.getElem?_eq_getElem place, of_decide_eq_true holds⟩
    rw [nextIdx, stop, around_mod, around_skip skipped, Cyclic.next, around_mod]
  · have none_ready : ∀ i, around ready k.taskList i = [] := by
      intro i
      refine List.eq_nil_iff_forall_not_mem.mpr fun b mem => some_ready ?_
      obtain ⟨listed, holds⟩ := mem_around.mp mem
      obtain ⟨w, bound, here⟩ := List.getElem_of_mem listed
      refine ⟨w, readyAt_iff.mpr ⟨b, ?_, of_decide_eq_true holds⟩⟩
      rw [List.getElem?_eq_getElem bound, here]
    exact (none_ready _).trans (none_ready _).symm

theorem turnOrder_congr (list : k'.taskList = k.taskList)
    (idx : k'.currentTaskIdx = k.currentTaskIdx)
    (states : ∀ t ∈ k.taskList, (k'.task t).state = (k.task t).state) :
    k'.turnOrder = k.turnOrder := by
  rw [turnOrder, list, idx]
  exact around_congr fun t mem => by rw [states t mem]

/-- The process whose turn it is runs. -/
def Led (k : Kernel) : Prop := ∀ t, k.turnOrder.head? = some t → k.Current t

theorem Led.ready (led : k.Led) (cur : k.Current old) (some_turn : k.turnOrder ≠ []) :
    (k.task old).state = .ready := by
  obtain ⟨first, rest, order⟩ := List.exists_cons_of_ne_nil some_turn
  have head : k.turnOrder.head? = some first := by rw [order, List.head?_cons]
  have mem : first ∈ k.turnOrder := by
    rw [order]
    exact List.mem_cons_self
  rw [← cur.unique (led first head)]
  exact of_decide_eq_true (mem_around.mp mem).2

/-- A search passes the turn on, and leads to the process whose turn it then is. -/
theorem scheduleNext_turns (sound : k.Sound) (cur : k.Current old)
    (run : k.scheduleNext rsp force = .ok (r, k')) :
    k'.turnOrder = (if k.Searches force old ∧ (k.task old).state = .ready then k.turnOrder.rotate 1
      else k.turnOrder) ∧ (k.Searches force old ∨ k.Led → k'.Led) := by
  let ready : TaskRef → Bool := fun t => (k.task t).state = .ready
  have next := turnOrder_next cur
  have leads : ∀ {k' : Kernel}, k'.taskList = k.taskList → k'.currentTaskIdx = k.nextIdx →
      k'.turnOrder = around ready k.taskList k.nextIdx → k'.Led := by
    intro k' list idx order t head
    rw [order] at head
    have mem := mem_around.mp (List.mem_of_head? head)
    obtain ⟨w, bound, here⟩ := List.getElem_of_mem mem.1
    have at_w : k.readyAt w :=
      readyAt_iff.mpr ⟨t, by rw [List.getElem?_eq_getElem bound, here], of_decide_eq_true mem.2⟩
    obtain ⟨v, selected, alive⟩ := readyAt_iff.mp (nextIdx_ready cur at_w)
    rw [around_head (p := ready) selected (decide_eq_true alive)] at head
    rw [Current, list, idx, selected]
    exact head
  rcases scheduleNext_cases sound.taskList_free cur run with
    ⟨stays, -, rfl⟩ | ⟨moves, new, selected, -, rfl⟩
  · by_cases searches : k'.Searches force old
    · have home : k'.nextIdx = k'.currentTaskIdx := by
        by_contra elsewhere
        exact stays ⟨searches, .inl elsewhere⟩
      have same : k'.turnOrder = around ready k'.taskList k'.nextIdx := by rw [home, turnOrder]
      refine ⟨same.trans (next.trans ?_), fun _ => leads rfl home.symm same⟩
      by_cases alive : (k'.task old).state = .ready
      · rw [if_pos alive, if_pos ⟨searches, alive⟩]
      · rw [if_neg alive, if_neg fun both => alive both.2]
    · rw [if_neg fun both => searches both.1]
      exact ⟨rfl, fun either => either.resolve_left searches⟩
  · have same : (k.movedTo rsp old new k.nextIdx).turnOrder =
        around ready k.taskList k.nextIdx :=
      around_congr fun t _ => by rw [movedTo_keeps Task.state fun _ => rfl]
    refine ⟨same.trans (next.trans ?_), fun _ => leads rfl rfl same⟩
    by_cases alive : (k.task old).state = .ready
    · rw [if_pos alive, if_pos ⟨moves.1, alive⟩]
    · rw [if_neg alive, if_neg fun both => alive both.2]

/-! ### Priorities -/

/-- Every process has the priority that `create_user_process` gives. -/
def Even (k : Kernel) : Prop := ∀ t ∈ k.taskList, (k.task t).priority = 5

theorem Even.fixed (even : k.Even) (same : k'.fixed = k.fixed) : k'.Even := by
  intro t mem
  rw [show k'.taskList = k.taskList from congrArg Fixed.taskList same] at mem
  exact (congrArg (fun f => (f.identity t).2.1) same).trans (even t mem)

/-- No step changes the priority of a process: `SYS_SET_PRIORITY` does not find it. -/
theorem even_keeps : StepKeeps (fun k _ => k.Unlisted) Even where
  executor :=
    { wake := fun id even => even.fixed (fixed_wakeTask id)
      receive := fun t cx even => even.fixed (fixed_ipcReceivePoll t cx)
      polls := fun even ran => even.fixed (fixed_pollKernelTasks ran) }
  tick even := even
  move _ _ even t mem := (movedTo_keeps Task.priority fun _ => rfl).trans (even t mem)
  kill _ even t mem := (modifyTask_keeps Task.priority rfl t).trans (even t mem)
  post _ even := by
    unfold postInitMailbox
    split <;> exact even
  call {k id arg1 arg2 rsp o} _ unlisted call even := by
    cases call with
    | idle | sendFault | print | regService | recv | recvFault => exact even
    | exit => exact fun t mem => (modifyTask_keeps Task.priority rfl t).trans (even t mem)
    | @setPriority p found =>
      intro t mem
      have other : t ≠ p := fun this => unlisted _ p found (this ▸ mem)
      exact (congrArg Task.priority (modifyTask_task_ne k _ other)).trans (even t mem)
    | @send p => exact even.fixed (fixed_deliver p (k.messageAt arg2))
  user _ even := even
  spawn {k k' top} sound even run := by
    obtain ⟨-, q, -, rfl⟩ := spawnStatic_cases run
    intro t mem
    have old := newTask_task (k := k) top (sound.processes t mem)
    exact (congrArg Task.priority old).trans (even t mem)

theorem Even.slice (even : k.Even) (cur : k.Current old) :
    k.SliceOver old ↔ k.tickCount.toNat % 5 = 0 := by
  rw [SliceOver, even old cur.mem, show max (5 : UInt64) 1 = 5 from rfl, ← UInt64.toNat_inj,
    UInt64.toNat_mod]
  rfl

/-! ### States -/

theorem deliver_task_ne {p : TaskRef} (msg : Message) (other : t ≠ p) :
    (k.deliver p msg).task t = k.task t := by
  have put : (k.putMailbox p msg).task t = k.task t := modifyTask_task_ne k _ other
  show ((k.putMailbox p msg).awaken p).task t = k.task t
  unfold awaken
  split
  · have readied : ((k.putMailbox p msg).setState p .ready).task t = k.task t :=
      (modifyTask_task_ne _ _ other).trans put
    split
    next waker =>
      have cleared := modifyTask_task_ne ((k.putMailbox p msg).setState p .ready)
        (fun task => { task with waker := none }) other
      exact cleared.trans readied
    next => exact readied
  · exact put

/-- A system call changes the state of no process: it does not find one. -/
theorem call_states {id arg1 arg2 : UInt64} {o : Outcome UInt64} (unlisted : k.Unlisted)
    (call : Call k arg1 arg2 id o) : o.Ends fun k' => k'.taskList = k.taskList ∧
      k'.currentTaskIdx = k.currentTaskIdx ∧ k'.tickCount = k.tickCount ∧
      ∀ t ∈ k.taskList, (k'.task t).state = (k.task t).state := by
  cases call with
  | idle | sendFault | print | regService | recv | recvFault =>
    exact ⟨rfl, rfl, rfl, fun _ _ => rfl⟩
  | @exit p found =>
    refine ⟨rfl, rfl, rfl, fun t mem => ?_⟩
    have other : t ≠ p := fun this => unlisted _ p found (this ▸ mem)
    exact congrArg Task.state (modifyTask_task_ne k _ other)
  | @setPriority p =>
    exact ⟨rfl, rfl, rfl, fun t _ => modifyTask_keeps Task.state rfl t⟩
  | @send p found =>
    have fixed := fixed_deliver (k := k) p (k.messageAt arg2)
    refine ⟨congrArg Fixed.taskList fixed, congrArg Fixed.currentTaskIdx fixed,
      congrArg Fixed.tickCount fixed, fun t mem => ?_⟩
    have other : t ≠ p := fun this => unlisted _ p found (this ▸ mem)
    exact congrArg Task.state (deliver_task_ne _ other)

/-! ### The rota -/

/-- The processes take their turns as the rota says. -/
structure Follows (k : Kernel) (rota : Rota TaskRef) : Prop where
  order : k.turnOrder = rota.order
  clock : k.tickCount.toNat = rota.clock
  led : k.Led

theorem Follows.same (follows : k.Follows rota) (list : k'.taskList = k.taskList)
    (idx : k'.currentTaskIdx = k.currentTaskIdx) (count : k'.tickCount = k.tickCount)
    (states : ∀ t ∈ k.taskList, (k'.task t).state = (k.task t).state) : k'.Follows rota := by
  have order := turnOrder_congr list idx states
  refine ⟨order.trans follows.order, by rw [count, follows.clock], fun t head => ?_⟩
  rw [order] at head
  rw [Current, list, idx]
  exact follows.led t head

theorem Follows.polled {scripts : List PollScript} (follows : k.Follows rota)
    (undisturbed : ∀ t ∈ (k.pollMoments scripts).filterMap receivedAt, t ∉ k.taskList)
    (ran : k.pollKernelTasks scripts = .ok k') : k'.Follows rota := by
  have fixed := fixed_pollKernelTasks ran
  refine follows.same (congrArg Fixed.taskList fixed) (congrArg Fixed.currentTaskIdx fixed)
    (congrArg Fixed.tickCount fixed) fun t mem => ?_
  have after := pollKernelTasks_stateAfter (u := t) ran
  rwa [StateAfter, if_neg fun received => undisturbed t received mem] at after

theorem Follows.tick (follows : k.Follows rota) (sound : k.Sound) (even : k.Even)
    (run : scheduleNext rsp false { k with tickCount := k.tickCount + 1 } = .ok (r, k')) :
    k'.Follows (rota.tick 5 (2 ^ 64)) := by
  obtain ⟨old, cur⟩ := sound.current
  let counted : Kernel := { k with tickCount := k.tickCount + 1 }
  have clock : counted.tickCount.toNat = (rota.clock + 1) % 2 ^ 64 := by
    rw [← follows.clock]
    exact UInt64.toNat_add k.tickCount 1
  have ends : counted.SliceOver old ↔ (rota.clock + 1) % 2 ^ 64 % 5 = 0 := by
    rw [← clock]
    exact Even.slice (k := counted) even cur
  obtain ⟨order, led⟩ := scheduleNext_turns sound.tick (k := counted) cur run
  have count : k'.tickCount = counted.tickCount := by
    rcases scheduleNext_cases (k := counted) sound.taskList_free cur run with
      ⟨-, -, rfl⟩ | ⟨-, new, -, -, rfl⟩ <;> rfl
  refine ⟨?_, by rw [count, clock, Rota.tick], led (.inr follows.led)⟩
  rw [order, Rota.tick, ← follows.order]
  show (if counted.Searches false old ∧ (k.task old).state = .ready then k.turnOrder.rotate 1
    else k.turnOrder) = if _ then k.turnOrder.rotate 1 else k.turnOrder
  by_cases idle : k.turnOrder = []
  · simp [idle]
  · have alive := follows.led.ready cur idle
    have searches : counted.Searches false old ↔ counted.SliceOver old := by
      have living : ¬ (counted.task old).state = .terminated := by
        rw [show (counted.task old).state = .ready from alive]
        simp
      simp [Searches, living]
    simp only [searches, ends, alive, and_true]

/-- A process that a fault kills leaves its turn to the next. -/
theorem Follows.fault (follows : k.Follows rota) (sound : k.Sound) (nodup : k.taskList.Nodup)
    (run : k.faultHandlerInner rsp = .ok (r, k')) : k'.Follows rota.leave := by
  obtain ⟨old, cur⟩ := sound.current
  have scheduled := faultHandlerInner_cases sound cur run
  let killed := k.setState old .terminated
  have dead : (killed.task old).state = .terminated := by simp [killed, setState]
  have tail : killed.turnOrder = k.turnOrder.tail := by
    have left := around_tail (p := fun t => (k.task t).state = .ready)
      (q := fun t => (killed.task t).state = .ready) nodup cur (by simp [dead])
      fun b _ other => by rw [show killed.task b = k.task b from modifyTask_task_ne k _ other]
    refine left.trans ?_
    split
    · rfl
    next dying =>
      have idle : k.turnOrder = [] := by
        by_contra some_turn
        exact dying (decide_eq_true (follows.led.ready cur some_turn))
      exact idle.trans (by rw [idle, List.tail_nil])
  obtain ⟨order, led⟩ := scheduleNext_turns (k := killed) (sound.kill old) cur scheduled
  have count : k'.tickCount = k.tickCount := by
    rcases scheduleNext_cases (k := killed) (sound.kill old).taskList_free cur scheduled with
      ⟨-, -, rfl⟩ | ⟨-, new, -, -, rfl⟩ <;> rfl
  rw [if_neg (by simp [dead]), tail, follows.order] at order
  exact ⟨order, by rw [count, follows.clock]; rfl, led (.inl (.inr (.inr rfl)))⟩

theorem syscall_spares {id arg1 arg2 rsp : UInt64}
    (run : k.syscall id arg1 arg2 rsp = .ok (none, k')) :
    k.kills (.syscall id arg1 arg2 rsp) = none := by
  unfold Kernel.syscall at run
  cases outcome : (handleSyscall id arg1 arg2).run k with
  | done value after => simp only [kills, outcome]
  | fault mid =>
    rw [outcome] at run
    obtain ⟨⟨r, after⟩, -, same⟩ := map_ok run
    cases same
  | stop reason => simp only [kills, outcome]

theorem follows_step (sound : k.Sound) (unlisted : k.Unlisted) (nodup : k.taskList.Nodup)
    (even : k.Even) (follows : k.Follows rota) (undisturbed : k.Undisturbed e)
    (step : k.Step e k') : k'.Follows (k.noteRota e rota) := by
  have posted : ∀ m, (k.postInitMailbox m).Follows rota ∧
      (k.postInitMailbox m).taskList = k.taskList := by
    intro m
    unfold postInitMailbox
    split
    · exact ⟨follows, rfl⟩
    · exact ⟨follows.same rfl rfl rfl fun _ _ => rfl, rfl⟩
  obtain ⟨out, run⟩ := step
  cases step_happens sound run with
  | timer ran scheduled =>
    have fixed := fixed_pollKernelTasks ran
    exact (follows.polled undisturbed ran).tick (sound.fixed fixed) (even.fixed fixed) scheduled
  | keyboard ran | serial ran =>
    refine (posted _).1.polled (fun t received => ?_) ran
    rw [(posted _).2]
    exact undisturbed t received
  | gpf handled | pageFault handled =>
    obtain ⟨old, cur⟩ := sound.current
    have leaves : k.taskList[k.currentTaskIdx]?.isSome := by
      rw [show k.taskList[k.currentTaskIdx]? = some old from cur]
      rfl
    show k'.Follows (if k.taskList[k.currentTaskIdx]?.isSome then rota.leave else rota)
    rw [if_pos leaves]
    exact follows.fault sound nodup handled
  | @returned id arg1 arg2 rsp value _ call =>
    obtain ⟨list, idx, count, states⟩ := call_states unlisted call
    have spared := syscall_spares run
    show k'.Follows (if (k.kills _).isSome then rota.leave else rota)
    rw [spared]
    exact follows.same list idx count states
  | @killed id arg1 arg2 rsp r mid _ call handled =>
    obtain ⟨list, idx, count, states⟩ := call_states unlisted call
    obtain ⟨old, cur⟩ := sound.current
    have killed : (k.kills (.syscall id arg1 arg2 rsp)).isSome := by
      rw [syscall_kills run, show k.taskList[k.currentTaskIdx]? = some old from cur]
      rfl
    show k'.Follows (if (k.kills _).isSome then rota.leave else rota)
    rw [if_pos killed]
    exact (follows.same list idx count states).fault (call.sound sound) (list ▸ nodup) handled
  | userWrites f => exact follows.same rfl rfl rfl fun _ _ => rfl
  | @spawn top _ spawned =>
    obtain ⟨-, q, -, rfl⟩ := spawnStatic_cases spawned
    exact follows.same rfl rfl rfl fun t mem =>
      congrArg Task.state (newTask_task (k := k) top (sound.processes t mem))
  | wake id => exact follows.same rfl rfl rfl fun _ _ => rfl
  | receive u cx =>
    have fixed := fixed_ipcReceivePoll (k := k) u cx
    refine follows.same (congrArg Fixed.taskList fixed) (congrArg Fixed.currentTaskIdx fixed)
      (congrArg Fixed.tickCount fixed) fun t mem => ?_
    have after := receive_stateAfter (k := k) (u := t) u cx
    have other : t ∉ [u] := fun received => undisturbed t received mem
    rwa [StateAfter, if_neg other] at after
  | pollTasks ran => exact follows.polled undisturbed ran

/-! ### Runs -/

/-- What a run keeps: the processes take turns as the rota says, each for five ticks. -/
structure Rostered (k : Kernel) (rota : Rota TaskRef) : Prop where
  sound : k.Sound
  unlisted : k.Unlisted
  nodup : k.taskList.Nodup
  even : k.Even
  follows : k.Follows rota

theorem Rostered.step (rostered : k.Rostered rota) (undisturbed : k.Undisturbed e)
    (step : k.Step e k') : k'.Rostered (k.noteRota e rota) where
  sound := rostered.sound.step step
  unlisted := unlisted_keeps.step rostered.sound rostered.unlisted trivial step
  nodup := by
    rw [(rostered.sound.sameTasks step).taskList]
    exact rostered.nodup
  even := even_keeps.step rostered.sound rostered.even rostered.unlisted step
  follows := follows_step rostered.sound rostered.unlisted rostered.nodup rostered.even
    rostered.follows undisturbed step

section Boot

variable {images : List Image} {monitorStackTop : UInt64} {mem : Memory}
  {pages : UInt64 → Option PageFlags} {k0 : Kernel} {es : List Event}

/-- The processes as `kernel_main` has created them. -/
def firstRota (images : List Image) : Rota TaskRef := ⟨List.range images.length, 0⟩

theorem createProcesses_tickCount (images : List Image) :
    ((initial mem pages).createProcesses images).tickCount = 0 := by
  induction images using List.reverseRecOn with
  | nil => rfl
  | append_singleton images image ih =>
    rw [createProcesses_snoc]
    exact ih

theorem kernelMain_rostered (boot : kernelMain images monitorStackTop mem pages = .ok k0) :
    k0.Rostered (firstRota images) := by
  have rested := kernelMain_rested boot
  obtain ⟨taskList, idx, -, process⟩ := kernelMain_processes boot
  obtain ⟨k1, q, image, -, eq, -, -, main⟩ := kernelMain_eq boot
  have made : ∀ t ∈ k0.taskList, ∃ image, k0.task t = processOf t image := by
    intro t mem
    rw [taskList, List.mem_range] at mem
    exact ⟨_, process t images[t] (List.getElem?_eq_getElem mem)⟩
  have alive : ∀ t ∈ k0.taskList, (k0.task t).state = .ready := by
    intro t mem
    obtain ⟨image, this⟩ := made t mem
    rw [this]
    rfl
  have order : k0.turnOrder = k0.taskList := by
    rw [turnOrder, idx, around, List.rotate_zero]
    exact List.filter_eq_self.mpr fun t mem => decide_eq_true (alive t mem)
  refine ⟨rested.sound, kernelMain_unlisted boot, ?_, fun t mem => ?_, ?_, ?_, fun t head => ?_⟩
  · rw [taskList]
    exact List.nodup_range
  · obtain ⟨image, this⟩ := made t mem
    rw [this]
    rfl
  · rw [order, taskList, firstRota]
  · rw [main]
    show k1.tickCount.toNat = 0
    rw [eq, createProcesses_tickCount]
    rfl
  · rw [Current, idx, ← List.head?_eq_getElem?, ← order]
    exact head

theorem rostered_run (boot : kernelMain images monitorStackTop mem pages = .ok k0)
    (run : Run (Recorded noteRota (Guarded Undisturbed Step)) (k0, firstRota images) es (k, rota)) :
    k.Rostered rota := by
  refine run.invariant (I := fun s => s.1.Rostered s.2) (kernelMain_rostered boot) ?_
  rintro ⟨a, s⟩ e ⟨b, s'⟩ rostered ⟨⟨undisturbed, step⟩, noted⟩
  obtain rfl : s' = a.noteRota e s := noted
  exact rostered.step undisturbed step

/-- In every run from boot in which no future receives for a process, the processes that are
`Ready` take turns in the order of the task list, each for the ticks up to the next multiple of
five, and one that a fault kills leaves its turn to the next: they are the parties of the rota, of
which the first one runs. -/
theorem processes_take_turns (boot : kernelMain images monitorStackTop mem pages = .ok k0)
    (run : Run (Recorded noteRota (Guarded Undisturbed Step)) (k0, firstRota images) es (k, rota)) :
    k.turnOrder = rota.order ∧ k.tickCount.toNat = rota.clock ∧
      ∀ t, rota.order.head? = some t → k.Current t := by
  have follows := (rostered_run boot run).follows
  exact ⟨follows.order, follows.clock, fun t head => follows.led t (follows.order ▸ head)⟩

/-- After a tick the first process faults, and the turn is the second one's. -/
theorem processes_take_turns_fault : ∃ k0 k, heapBoot = .ok k0 ∧
    Run Step k0 [.timer [.ready] 0x444444447f60, .gpf 0x444444447f58] k ∧ k.turnOrder = [1] ∧
    k.Current 1 := by
  have evaluated : ∃ k0 k1 k, heapBoot = .ok k0 ∧ k0.Step (.timer [.ready] 0x444444447f60) k1 ∧
      k1.Step (.gpf 0x444444447f58) k ∧ k0.eventReceives (.timer [.ready] 0x444444447f60) = [] ∧
      (k1.kills (.gpf 0x444444447f58)).isSome := ⟨_, _, _, rfl, ⟨_, rfl⟩, ⟨_, rfl⟩, rfl, rfl⟩
  obtain ⟨k0, k1, k, boot, tick, fault, received, killed⟩ := evaluated
  have ticked : Recorded noteRota (Guarded Undisturbed Step) (k0, firstRota heapImages)
      (.timer [.ready] 0x444444447f60) (k1, (firstRota heapImages).tick 5 (2 ^ 64)) := by
    refine ⟨⟨fun t mem => ?_, tick⟩, rfl⟩
    rw [received] at mem
    cases mem
  have left : Recorded noteRota (Guarded Undisturbed Step)
      (k1, (firstRota heapImages).tick 5 (2 ^ 64)) (.gpf 0x444444447f58)
      (k, ((firstRota heapImages).tick 5 (2 ^ 64)).leave) :=
    ⟨⟨fun t mem => (List.not_mem_nil mem).elim, fault⟩, (if_pos killed).symm⟩
  obtain ⟨order, -, led⟩ := processes_take_turns boot ((Run.single ticked).snoc left)
  exact ⟨k0, k, boot, (Run.single tick).snoc fault, order, led 1 rfl⟩

/-- An event that no future disturbs and in which no process is killed. -/
def Calm (k : Kernel) (e : Event) : Prop := k.Undisturbed e ∧ k.kills e = none

def isTimer : Event → Bool
  | .timer _ _ => true
  | _ => false

/-- The processes have had the ticks of the first `n` turns of the rota. -/
structure Ticked (k : Kernel) (rota : Rota TaskRef) (ticks : TaskRef → Nat) (n : Nat) : Prop where
  rostered : k.Rostered ((Rota.tick 5 (2 ^ 64))^[n] rota)
  counts : ∀ t, ticks t =
    Nat.count (fun m => ((Rota.tick 5 (2 ^ 64))^[m] rota).order.head? = some t) n

theorem Ticked.step {ticks : TaskRef → Nat} {n : Nat} (ticked : k.Ticked rota ticks n)
    (some_party : rota.order ≠ []) (calm : k.Calm e) (step : k.Step e k') :
    k'.Ticked rota (k.noteTick e ticks) (n + [e].countP isTimer) := by
  have rostered := ticked.rostered.step calm.1 step
  by_cases timer : IsTimer e
  · cases e with
    | timer scripts rsp =>
      have follows := ticked.rostered.follows
      have turning : ((Rota.tick 5 (2 ^ 64))^[n] rota).order ≠ [] := by
        intro idle
        have length : ((Rota.tick 5 (2 ^ 64))^[n] rota).order.length = rota.order.length :=
          Rota.length_ticks
        rw [idle, List.length_nil] at length
        exact some_party (List.length_eq_zero_iff.mp length.symm)
      obtain ⟨first, rest, order⟩ := List.exists_cons_of_ne_nil turning
      have head : ((Rota.tick 5 (2 ^ 64))^[n] rota).order.head? = some first := by
        rw [order, List.head?_cons]
      have cur : k.Current first := follows.led first (follows.order ▸ head)
      refine ⟨?_, fun t => ?_⟩
      · show k'.Rostered ((Rota.tick 5 (2 ^ 64))^[n + 1] rota)
        rw [Function.iterate_succ_apply']
        exact rostered
      · show _ = Nat.count _ (n + 1)
        rw [noteTick_timer cur, Nat.count_succ, ← ticked.counts, head]
        by_cases this : t = first
        · rw [this, Function.update_self, if_pos rfl]
        · rw [Function.update_of_ne this, if_neg fun same => this (Option.some.inj same).symm,
            Nat.add_zero]
    | _ => cases timer
  · have quiet : [e].countP isTimer = 0 := by
      cases e with
      | timer => exact absurd trivial timer
      | _ => rfl
    have same : k.noteRota e ((Rota.tick 5 (2 ^ 64))^[n] rota) =
        (Rota.tick 5 (2 ^ 64))^[n] rota := by
      unfold noteRota
      split
      · exact absurd trivial timer
      · rw [calm.2]
        rfl
    rw [quiet, Nat.add_zero, noteTick_other timer]
    exact ⟨same ▸ rostered, ticked.counts⟩

/-- While no process is killed and the tick count does not wrap, each of the processes that are
`Ready` runs for five ticks of every five times as many as there are of them, from whichever tick on
and whatever else happens. -/
theorem processes_share_ticks {fs : List Event} {ticks : TaskRef → Nat}
    (boot : kernelMain images monitorStackTop mem pages = .ok k0)
    (run : Run (Recorded noteRota (Guarded Undisturbed Step)) (k0, firstRota images) es (k, rota))
    (later : Run (Recorded noteTick (Guarded Calm Step)) (k, fun _ => 0) fs (k', ticks))
    (round : fs.countP isTimer = 5 * k.turnOrder.length)
    (room : k.tickCount.toNat + 5 * k.turnOrder.length ≤ 2 ^ 64) (turn : t ∈ k.turnOrder) :
    ticks t = 5 := by
  have begins := rostered_run boot run
  rw [begins.follows.order] at round room turn
  rw [begins.follows.clock] at room
  have all : k'.Ticked rota ticks (fs.countP isTimer) := by
    clear round
    generalize final : (k', ticks) = s at later
    induction later generalizing k' ticks with
    | nil =>
      cases final
      exact ⟨begins, fun _ => (Nat.count_zero _).symm⟩
    | @snoc es e mid after before step ih =>
      cases final
      obtain ⟨⟨calm, stepped⟩, noted⟩ := step
      have ticked := (ih (show (mid.1, mid.2) = mid from rfl)).step (List.ne_nil_of_mem turn) calm
        stepped
      rw [List.countP_append]
      rw [show ticks = mid.1.noteTick e mid.2 from noted]
      exact ticked
  rw [all.counts, round]
  exact Rota.share (begins.follows.order ▸ around_nodup begins.nodup) turn room

end Boot

/-- A tick that polls no task. -/
theorem recorded_idle (ticks : TaskRef → Nat) (tick : k.Step (.timer [] rsp) k') :
    Recorded noteTick (Guarded Calm Step) (k, ticks) (.timer [] rsp)
      (k', k.noteTick (.timer [] rsp) ticks) := by
  refine ⟨⟨⟨fun t mem => ?_, rfl⟩, tick⟩, rfl⟩
  have none_polled : k.pollMoments [] = [] := by
    unfold pollMoments runMoments
    split
    · rfl
    · split <;> rfl
  rw [eventReceives, none_polled] at mem
  cases mem

/-- Both processes are `Ready`, and each of them has five of the first ten ticks. -/
theorem processes_share_ticks_both : ∃ k0 k ticks, heapBoot = .ok k0 ∧ k0.turnOrder = [0, 1] ∧
    Run (Recorded noteTick (Guarded Calm Step)) (k0, fun _ => 0)
      (.timer [.ready] 0x444444447f60 :: (List.replicate 4 (.timer [] 0x444444447f60) ++
        List.replicate 5 (.timer [] 0x44444444ff60))) (k, ticks) ∧
    ticks 0 = 5 ∧ ticks 1 = 5 := by
  have evaluated : ∃ k0 k1 k2 k3 k4 k5 k6 k7 k8 k9 k, heapBoot = .ok k0 ∧
      k0.Step (.timer [.ready] 0x444444447f60) k1 ∧ k1.Step (.timer [] 0x444444447f60) k2 ∧
      k2.Step (.timer [] 0x444444447f60) k3 ∧ k3.Step (.timer [] 0x444444447f60) k4 ∧
      k4.Step (.timer [] 0x444444447f60) k5 ∧ k5.Step (.timer [] 0x44444444ff60) k6 ∧
      k6.Step (.timer [] 0x44444444ff60) k7 ∧ k7.Step (.timer [] 0x44444444ff60) k8 ∧
      k8.Step (.timer [] 0x44444444ff60) k9 ∧ k9.Step (.timer [] 0x44444444ff60) k ∧
      k0.eventReceives (.timer [.ready] 0x444444447f60) = [] ∧ k0.turnOrder = [0, 1] ∧
      k0.tickCount = 0 :=
    ⟨_, _, _, _, _, _, _, _, _, _, _, rfl, ⟨_, rfl⟩, ⟨_, rfl⟩, ⟨_, rfl⟩, ⟨_, rfl⟩, ⟨_, rfl⟩,
      ⟨_, rfl⟩, ⟨_, rfl⟩, ⟨_, rfl⟩, ⟨_, rfl⟩, ⟨_, rfl⟩, rfl, rfl, rfl⟩
  obtain ⟨k0, k1, k2, k3, k4, k5, k6, k7, k8, k9, k, boot, tick1, tick2, tick3, tick4, tick5, tick6,
    tick7, tick8, tick9, tick10, received, order, count⟩ := evaluated
  have calm : k0.Calm (.timer [.ready] 0x444444447f60) := by
    refine ⟨fun t mem => ?_, rfl⟩
    rw [received] at mem
    cases mem
  have first : Recorded noteTick (Guarded Calm Step) (k0, fun _ => 0)
      (.timer [.ready] 0x444444447f60) (k1, _) := ⟨⟨calm, tick1⟩, rfl⟩
  have later := (Run.single first).snoc (recorded_idle _ tick2) |>.snoc (recorded_idle _ tick3)
    |>.snoc (recorded_idle _ tick4) |>.snoc (recorded_idle _ tick5)
    |>.snoc (recorded_idle _ tick6) |>.snoc (recorded_idle _ tick7)
    |>.snoc (recorded_idle _ tick8) |>.snoc (recorded_idle _ tick9)
    |>.snoc (recorded_idle _ tick10)
  have round : 10 = 5 * k0.turnOrder.length := by
    rw [order]
    rfl
  have room : k0.tickCount.toNat + 5 * k0.turnOrder.length ≤ 2 ^ 64 := by
    rw [order, count]
    decide
  have turns : ∀ t ∈ [0, 1], t ∈ k0.turnOrder := fun t listed => by rwa [order]
  exact ⟨k0, k, _, boot, order, later,
    processes_share_ticks boot .nil later round room (turns 0 (by decide)),
    processes_share_ticks boot .nil later round room (turns 1 (by decide))⟩

end Kernel

end Microkernel
