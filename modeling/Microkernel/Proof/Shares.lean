import Microkernel.Lib.Rotation
import Microkernel.Proof.Finality
import Microkernel.Proof.Identity

/-! How the scheduler shares the ticks between two processes that are always ready.  A process is
left at the ticks whose number is a multiple of its own priority, whichever tick it began at, so the
two take turns as the parties of `Rotation` do. -/

namespace Microkernel

open Lib

namespace Kernel

variable {k k' : Kernel} {e : Event} {P Q t : TaskRef} {p q : UInt64} {first : Bool}

/-- The record of the ticks by the process that runs when they arrive. -/
def noteTick (k : Kernel) (e : Event) (ticks : TaskRef → Nat) : TaskRef → Nat :=
  match e, k.taskList[k.currentTaskIdx]? with
  | .timer _ _, some t => Function.update ticks t (ticks t + 1)
  | _, _ => ticks

/-- The processes are `P` with priority `p` and `Q` with priority `q`, of which `P` comes first in
the task list if `first`, and both are `Ready`. -/
structure Rivals (P Q : TaskRef) (p q : UInt64) (first : Bool) (k : Kernel) : Prop where
  taskList : k.taskList = if first then [P, Q] else [Q, P]
  ready : (k.task P).state = .ready ∧ (k.task Q).state = .ready
  priority : (k.task P).priority = p ∧ (k.task Q).priority = q

/-- A step after which both processes are still `Ready` with their priorities. -/
def StayRivals (P Q : TaskRef) (p q : UInt64) (first : Bool) (k : Kernel) (e : Event)
    (k' : Kernel) : Prop :=
  k.Step e k' ∧ Rivals P Q p q first k'

instance (t : TaskRef) : Decidable (k.Current t) := inferInstanceAs (Decidable (_ = some t))

/-- The counter, and whether `P` runs. -/
def turn (k : Kernel) (P : TaskRef) : Nat × Bool := (k.tickCount.toNat, k.Current P)

/-! ### A tick -/

theorem Rivals.mem (rivals : Rivals P Q p q first k) : t ∈ k.taskList ↔ t = P ∨ t = Q := by
  rw [rivals.taskList]
  cases first
  · exact List.mem_pair.trans or_comm
  · exact List.mem_pair

theorem Rivals.current (rivals : Rivals P Q p q first k) (cur : k.Current t) : t = P ∨ t = Q :=
  rivals.mem.mp cur.mem

theorem Rivals.nodup (rivals : Rivals P Q p q first k) (ne : P ≠ Q) : k.taskList.Nodup := by
  rw [rivals.taskList]
  cases first
  · simp [ne.symm]
  · simp [ne]

theorem Rivals.alive (rivals : Rivals P Q p q first k) (cur : k.Current t) :
    (k.task t).state = .ready := by
  rcases rivals.current cur with rfl | rfl
  · exact rivals.ready.1
  · exact rivals.ready.2

/-- The process that does not run is ready at another place. -/
theorem Rivals.other (rivals : Rivals P Q p q first k) (ne : P ≠ Q) (cur : k.Current t) :
    ∃ w, k.readyAt w ∧ k.currentTaskIdx ≠ w := by
  have found : ∀ u ∈ k.taskList, (k.task u).state = .ready → u ≠ t →
      ∃ w, k.readyAt w ∧ k.currentTaskIdx ≠ w := by
    intro u mem ready other
    obtain ⟨w, inside, here⟩ := List.getElem_of_mem mem
    have at_w : k.taskList[w]? = some u := by rw [List.getElem?_eq_getElem inside, here]
    refine ⟨w, readyAt_iff.mpr ⟨u, at_w, ready⟩, ?_⟩
    rintro rfl
    exact other (cur.unique at_w)
  rcases rivals.current cur with rfl | rfl
  · exact found Q (rivals.mem.mpr (.inr rfl)) rivals.ready.2 ne.symm
  · exact found P (rivals.mem.mpr (.inl rfl)) rivals.ready.1 ne

/-- The scheduler passes the turn to the other process exactly when the slice of the one that runs
is over. -/
theorem Rivals.scheduled {rsp r : UInt64} (rivals : Rivals P Q p q first k) (ne : P ≠ Q)
    (sound : k.Sound) (cur : k.Current t) (run : k.scheduleNext rsp false = .ok (r, k')) :
    (k'.Current P ↔ (t = P ↔ ¬ k.SliceOver t)) ∧ k'.tickCount = k.tickCount := by
  obtain ⟨w, ready, elsewhere⟩ := rivals.other ne cur
  have leaves := nextIdx_ne cur ready elsewhere
  have alive := rivals.alive cur
  have moves_iff : k.Moves false t ↔ k.SliceOver t := by
    constructor
    · rintro ⟨ends | dead | forced, -⟩
      · exact ends
      · rw [alive] at dead
        cases dead
      · cases forced
    · exact fun ends => ⟨.inl ends, .inl leaves⟩
  rw [← moves_iff]
  rcases scheduleNext_cases sound.taskList_free cur run with
    ⟨stays, -, rfl⟩ | ⟨moves, new, selected, -, rfl⟩
  · simp only [stays, not_false_eq_true, iff_true, and_true]
    exact ⟨fun this => (cur.unique this).symm, fun same => same ▸ cur⟩
  · simp only [moves, not_true_eq_false, iff_false]
    refine ⟨?_, rfl⟩
    have other : new ≠ t := by
      rintro rfl
      exact leaves (cur.index (rivals.nodup ne) selected).symm
    have after : (k.movedTo rsp t new k.nextIdx).Current P ↔ new = P :=
      ⟨fun this => Option.some.inj (selected.symm.trans this), fun same => same ▸ selected⟩
    rw [after]
    rcases rivals.current cur with rfl | rfl
    · exact iff_of_false other fun absurd => absurd rfl
    · have here := rivals.mem.mp (List.mem_of_getElem? selected)
      exact iff_of_true (here.resolve_right other) ne.symm

/-- The scheduler changes nothing that the two processes are known by. -/
theorem Rivals.unscheduled {rsp r : UInt64} {force : Bool} (sound : k.Sound)
    (run : k.scheduleNext rsp force = .ok (r, k')) (rivals : Rivals P Q p q first k') :
    Rivals P Q p q first k := by
  obtain ⟨old, cur⟩ := sound.current
  rcases scheduleNext_cases sound.taskList_free cur run with ⟨-, -, rfl⟩ | ⟨-, new, -, -, rfl⟩
  · exact rivals
  · obtain ⟨list, ⟨ready, ready'⟩, priority, priority'⟩ := rivals
    refine ⟨list, ⟨?_, ?_⟩, ?_, ?_⟩
    · rwa [movedTo_keeps Task.state fun _ => rfl] at ready
    · rwa [movedTo_keeps Task.state fun _ => rfl] at ready'
    · rwa [movedTo_keeps Task.priority fun _ => rfl] at priority
    · rwa [movedTo_keeps Task.priority fun _ => rfl] at priority'

theorem max_one {n : UInt64} (pos : 1 ≤ n) : max n 1 = n := by
  simp only [max]
  split
  next low => exact UInt64.le_antisymm pos low
  next => rfl

/-- One tick passes the turn as the rotation does. -/
theorem timer_turn {scripts : List PollScript} {rsp : UInt64} (sound : k.Sound) (pos : 1 ≤ p)
    (less : p < q) (ne : P ≠ Q) (stays : StayRivals P Q p q first k (.timer scripts rsp) k') :
    k'.turn P = Rotation.tick p.toNat q.toNat (2 ^ 64) (k.turn P) := by
  obtain ⟨⟨out, run⟩, rivals'⟩ := stays
  cases step_happens sound run with
  | @timer _ _ r polled _ ran scheduled =>
    obtain ⟨t, cur⟩ := sound.current
    have fixed := fixed_pollKernelTasks ran
    have sound1 := (sound.fixed fixed).tick
    have cur1 := cur.polled ran
    have rivals := rivals'.unscheduled sound1 scheduled
    obtain ⟨next, counted⟩ := rivals.scheduled ne sound1 cur1 scheduled
    have count : polled.tickCount = k.tickCount := congrArg Fixed.tickCount fixed
    have ticks : k'.tickCount.toNat = (k.tickCount.toNat + 1) % 2 ^ 64 := by
      rw [counted, count, UInt64.toNat_add]
      rfl
    have holder : k.Current P ↔ t = P :=
      ⟨fun this => (cur.unique this).symm, fun same => same ▸ cur⟩
    have period : (polled.task t).priority = if t = P then p else q := by
      rcases rivals.current cur1 with rfl | rfl
      · rw [if_pos rfl]
        exact rivals.priority.1
      · rw [if_neg ne.symm]
        exact rivals.priority.2
    have slice : SliceOver { polled with tickCount := polled.tickCount + 1 } t ↔
        k'.tickCount.toNat % (if t = P then p.toNat else q.toNat) = 0 := by
      show (polled.tickCount + 1) % max (polled.task t).priority 1 = 0 ↔ _
      have at_least : 1 ≤ (polled.task t).priority := by
        rw [period]
        split
        · exact pos
        · exact UInt64.le_trans pos (UInt64.le_of_lt less)
      rw [max_one at_least, period, ← UInt64.toNat_inj, UInt64.toNat_mod, counted]
      split <;> rfl
    rw [slice, ticks] at next
    unfold turn Rotation.tick
    refine Prod.ext ticks ?_
    simp only [next, holder, decide_eq_true_eq]
    by_cases own : t = P <;> simp [own]

/-! ### Other events -/

theorem faultHandlerInner_kills {rsp r : UInt64} (sound : k.Sound) (cur : k.Current t)
    (run : k.faultHandlerInner rsp = .ok (r, k')) : (k'.task t).state = .terminated := by
  rw [scheduleNext_state (sound.kill t) (faultHandlerInner_cases sound cur run), setState,
    modifyTask_task_self]

theorem call_tickCount {arg1 arg2 id : UInt64} {o : Outcome UInt64} (call : Call k arg1 arg2 id o) :
    o.Ends fun k' => k'.tickCount = k.tickCount := by
  cases call with
  | idle | sendFault | print | regService | recv | recvFault | setPriority | exit => rfl
  | @send t => exact congrArg Fixed.tickCount (fixed_deliver t _)

def IsTimer : Event → Prop
  | .timer _ _ => True
  | _ => False

theorem turn_congr (list : k'.taskList = k.taskList) (idx : k'.currentTaskIdx = k.currentTaskIdx)
    (count : k'.tickCount = k.tickCount) : k'.turn P = k.turn P := by
  refine Prod.ext (congrArg UInt64.toNat count) (decide_eq_decide.mpr ?_)
  rw [Current, Current, list, idx]

theorem turn_fixed (same : k'.fixed = k.fixed) : k'.turn P = k.turn P :=
  turn_congr (congrArg Fixed.taskList same) (congrArg Fixed.currentTaskIdx same)
    (congrArg Fixed.tickCount same)

/-- No fault happens, since it would terminate one of the two, and the other events leave the turn
as it is. -/
theorem other_turn (sound : k.Sound) (stays : StayRivals P Q p q first k e k')
    (other : ¬ IsTimer e) : k'.turn P = k.turn P := by
  obtain ⟨step, rivals⟩ := stays
  have same := sound.sameTasks step
  have faults : ∀ {mid : Kernel} {rsp r}, mid.Sound → mid.taskList = k.taskList →
      mid.faultHandlerInner rsp = .ok (r, k') → False := by
    intro mid rsp r sound1 list handled
    obtain ⟨t, cur⟩ := sound1.current
    have dead := faultHandlerInner_kills sound1 cur handled
    have listed : t ∈ k'.taskList := by
      rw [same.taskList, ← list]
      exact cur.mem
    rcases rivals.mem.mp listed with rfl | rfl
    · rw [rivals.ready.1] at dead
      cases dead
    · rw [rivals.ready.2] at dead
      cases dead
  obtain ⟨out, run⟩ := step
  cases step_happens sound run with
  | timer => exact absurd trivial other
  | keyboard ran | serial ran =>
    refine (turn_fixed (fixed_pollKernelTasks ran)).trans ?_
    unfold postInitMailbox
    split <;> rfl
  | gpf handled | pageFault handled => exact (faults sound rfl handled).elim
  | returned call =>
    exact turn_congr same.taskList (call_identity call).1 (call_tickCount call)
  | killed call handled =>
    refine (faults (call.sound sound) ?_ handled).elim
    cases call with
    | sendFault | recvFault => rfl
  | userWrites f => rfl
  | spawn spawned =>
    obtain ⟨-, q, -, rfl⟩ := spawnStatic_cases spawned
    rfl
  | wake id => rfl
  | receive t cx => exact turn_fixed (fixed_ipcReceivePoll t cx)
  | pollTasks ran => exact turn_fixed (fixed_pollKernelTasks ran)

/-! ### Runs -/

theorem noteTick_other {ticks : TaskRef → Nat} (other : ¬ IsTimer e) :
    k.noteTick e ticks = ticks := by
  unfold noteTick
  split
  next scripts rsp t => exact absurd trivial other
  next => rfl

theorem noteTick_timer {ticks : TaskRef → Nat} {scripts : List PollScript} {rsp : UInt64}
    (cur : k.Current t) :
    k.noteTick (.timer scripts rsp) ticks = Function.update ticks t (ticks t + 1) := by
  unfold noteTick
  rw [show k.taskList[k.currentTaskIdx]? = some t from cur]

/-- After `n` ticks the turn is where the rotation has brought it, and `P` has had its share. -/
structure Rotated (P Q : TaskRef) (p q : UInt64) (first : Bool) (k : Kernel)
    (ticks : TaskRef → Nat) (n : Nat) : Prop where
  total : ticks P + ticks Q = n
  turn : k.turn P =
    (n % 2 ^ 64, Rotation.holds p.toNat q.toNat (2 ^ 64) first n)
  share : ticks P = Rotation.share p.toNat q.toNat (2 ^ 64) first n

theorem rotated_step {ticks : TaskRef → Nat} {n : Nat} (sound : k.Sound)
    (rivals : Rivals P Q p q first k) (pos : 1 ≤ p) (less : p < q) (ne : P ≠ Q)
    (rotated : Rotated P Q p q first k ticks n) (stays : StayRivals P Q p q first k e k') :
    ∃ n', Rotated P Q p q first k' (k.noteTick e ticks) n' := by
  by_cases timer : IsTimer e
  · cases e with
    | timer scripts rsp =>
      obtain ⟨t, cur⟩ := sound.current
      have counts : 0 < p.toNat ∧ p.toNat < q.toNat ∧ q.toNat < 2 ^ 64 :=
        ⟨UInt64.le_iff_toNat_le.mp pos, UInt64.lt_iff_toNat_lt.mp less, q.toNat_lt⟩
      have turn := timer_turn sound pos less ne stays
      rw [rotated.turn, Rotation.tick_holds counts.1 counts.2.1 counts.2.2] at turn
      have holder : Rotation.holds p.toNat q.toNat (2 ^ 64) first n = decide (t = P) := by
        have now : decide (k.Current P) = Rotation.holds p.toNat q.toNat (2 ^ 64) first n :=
          congrArg Prod.snd rotated.turn
        rw [← now]
        exact decide_eq_decide.mpr ⟨fun this => (cur.unique this).symm, fun same => same ▸ cur⟩
      rw [noteTick_timer cur]
      have total := rotated.total
      have share := rotated.share
      refine ⟨n + 1, ?_, turn, ?_⟩
      · rcases rivals.current cur with rfl | rfl
        · rw [Function.update_self, Function.update_of_ne ne.symm]
          omega
        · rw [Function.update_self, Function.update_of_ne ne]
          omega
      · rw [Rotation.share, Nat.count_succ, holder, ← Rotation.share, ← share]
        rcases rivals.current cur with rfl | rfl
        · rw [Function.update_self]
          simp
        · rw [Function.update_of_ne ne]
          simp [ne.symm]
    | _ => cases timer
  · rw [noteTick_other timer]
    exact ⟨n, rotated.total, (other_turn sound stays timer).trans rotated.turn, rotated.share⟩

/-- Two processes that stay `Ready` with priorities `p < q`, from the first tick on.  Over `n`
periods of `p * q` ticks the one with priority `p` runs at least as often as the other one exactly
when its share in the rotation is at least a half; before the tick count wraps, that is when it
comes first in the task list and `q - p` divides `p`. -/
theorem priority_order {k0 : Kernel} {es : List Event} {ticks : TaskRef → Nat} {n : Nat}
    (sound : k0.Sound) (idx : k0.currentTaskIdx = 0) (count : k0.tickCount = 0)
    (rivals : Rivals P Q p q first k0) (pos : 1 ≤ p) (less : p < q) (ne : P ≠ Q) (periods : 1 ≤ n)
    (run : Run (Recorded noteTick (StayRivals P Q p q first)) (k0, fun _ => 0) es (k, ticks))
    (length : ticks P + ticks Q = n * p.toNat * q.toNat) :
    (ticks Q ≤ ticks P ↔ n * p.toNat * q.toNat ≤
      2 * Rotation.share p.toNat q.toNat (2 ^ 64) first (n * p.toNat * q.toNat)) ∧
    (n * p.toNat * q.toNat ≤ 2 ^ 64 →
      (ticks Q ≤ ticks P ↔ first = true ∧ q.toNat - p.toNat ∣ p.toNat)) := by
  have counts : 0 < p.toNat ∧ p.toNat < q.toNat :=
    ⟨UInt64.le_iff_toNat_le.mp pos, UInt64.lt_iff_toNat_lt.mp less⟩
  have start : Rotated P Q p q first k0 (fun _ => 0) 0 := by
    refine ⟨rfl, Prod.ext ?_ ?_, ?_⟩
    · show k0.tickCount.toNat = _
      rw [count]
      rfl
    · have begins : k0.Current P ↔ first = true := by
        rw [Current, idx, rivals.taskList]
        cases first
        · simp [ne.symm]
        · simp
      show decide (k0.Current P) = Rotation.holdsFrom _ _ first 0
      rw [Rotation.holdsFrom_zero counts.1 counts.2]
      simp [begins]
    · simp [Rotation.share]
  have all : k.Sound ∧ Rivals P Q p q first k ∧ ∃ n, Rotated P Q p q first k ticks n := by
    refine run.invariant (I := fun s => s.1.Sound ∧ Rivals P Q p q first s.1 ∧
      ∃ n, Rotated P Q p q first s.1 s.2 n) ⟨sound, rivals, 0, start⟩ ?_
    rintro ⟨a, s⟩ e ⟨b, s'⟩ ⟨sound, rivals, n, rotated⟩ ⟨stays, noted⟩
    obtain rfl : s' = a.noteTick e s := noted
    exact ⟨sound.step stays.1, stays.2, rotated_step sound rivals pos less ne rotated stays⟩
  obtain ⟨-, -, m, rotated⟩ := all
  obtain rfl : m = n * p.toNat * q.toNat := rotated.total.symm.trans length
  have half : ticks Q ≤ ticks P ↔ n * p.toNat * q.toNat ≤
      2 * Rotation.share p.toNat q.toNat (2 ^ 64) first (n * p.toNat * q.toNat) := by
    rw [← rotated.share]
    omega
  refine ⟨half, fun fits => ?_⟩
  rw [half]
  exact Rotation.share_iff counts.1 counts.2 periods fits

/-! ### Runs of two and three ticks -/

/-- The kernel whose first two processes have priorities `p` and `q`. -/
def withPriorities (k : Kernel) (p q : UInt64) : Kernel :=
  (k.modifyTask 0 fun task => { task with priority := p }).modifyTask 1
    fun task => { task with priority := q }

theorem withPriorities_sound (sound : k.Sound) : (k.withPriorities p q).Sound :=
  ⟨sound.current, sound.processes, sound.quiet⟩

/-- With priorities 1 and 2 each of the two processes runs for one tick of the first two. -/
theorem priority_order_halves : ∃ k0 k ticks, heapBoot = .ok k0 ∧
    Run (Recorded noteTick (StayRivals 0 1 1 2 true)) (k0.withPriorities 1 2, fun _ => 0)
      [.timer [.ready] 0x444444447f60, .timer [] 0x44444444ff60] (k, ticks) ∧
    ticks 1 ≤ ticks 0 := by
  have evaluated : ∃ k0 k1 k2, heapBoot = .ok k0 ∧
      StayRivals 0 1 1 2 true (k0.withPriorities 1 2) (.timer [.ready] 0x444444447f60) k1 ∧
      StayRivals 0 1 1 2 true k1 (.timer [] 0x44444444ff60) k2 ∧
      (k0.withPriorities 1 2).Current 0 ∧ k1.Current 1 ∧
      Rivals 0 1 1 2 true (k0.withPriorities 1 2) ∧
      (k0.withPriorities 1 2).currentTaskIdx = 0 ∧ (k0.withPriorities 1 2).tickCount = 0 :=
    ⟨_, _, _, rfl, ⟨⟨_, rfl⟩, ⟨rfl, ⟨rfl, rfl⟩, rfl, rfl⟩⟩, ⟨⟨_, rfl⟩, ⟨rfl, ⟨rfl, rfl⟩, rfl, rfl⟩⟩,
      rfl, rfl, ⟨rfl, ⟨rfl, rfl⟩, rfl, rfl⟩, rfl, rfl⟩
  obtain ⟨k0, k1, k2, boot, first, second, cur, cur', rivals, idx, count⟩ := evaluated
  have sound := withPriorities_sound (p := 1) (q := 2) (heapBoot_booted boot).sound
  have one : Run (Recorded noteTick (StayRivals 0 1 1 2 true)) (k0.withPriorities 1 2, fun _ => 0)
      [.timer [.ready] 0x444444447f60] (k1, Function.update (fun _ => 0) 0 1) :=
    .single ⟨first, (noteTick_timer cur).symm⟩
  have run := one.snoc (u := (k2, _)) ⟨second, (noteTick_timer cur').symm⟩
  exact ⟨k0, k2, _, boot, run, ((priority_order sound idx count rivals (by decide) (by decide)
    (by decide) (Nat.le_refl 1) run rfl).2 (by decide)).mpr ⟨rfl, by decide⟩⟩

/-- With priorities 1 and 3 the first process runs for one tick of the first three, and the second
one for two. -/
theorem priority_inverted : ∃ k0 k ticks, heapBoot = .ok k0 ∧
    Rivals 0 1 1 3 true (k0.withPriorities 1 3) ∧
    Run (Recorded noteTick (StayRivals 0 1 1 3 true)) (k0.withPriorities 1 3, fun _ => 0)
      [.timer [.ready] 0x444444447f60, .timer [] 0x44444444ff60, .timer [] 0x44444444ff60]
      (k, ticks) ∧ ticks 0 = 1 ∧ ticks 1 = 2 := by
  have evaluated : ∃ k0 k1 k2 k3, heapBoot = .ok k0 ∧
      StayRivals 0 1 1 3 true (k0.withPriorities 1 3) (.timer [.ready] 0x444444447f60) k1 ∧
      StayRivals 0 1 1 3 true k1 (.timer [] 0x44444444ff60) k2 ∧
      StayRivals 0 1 1 3 true k2 (.timer [] 0x44444444ff60) k3 ∧
      (k0.withPriorities 1 3).Current 0 ∧ k1.Current 1 ∧ k2.Current 1 ∧
      Rivals 0 1 1 3 true (k0.withPriorities 1 3) :=
    ⟨_, _, _, _, rfl, ⟨⟨_, rfl⟩, ⟨rfl, ⟨rfl, rfl⟩, rfl, rfl⟩⟩,
      ⟨⟨_, rfl⟩, ⟨rfl, ⟨rfl, rfl⟩, rfl, rfl⟩⟩, ⟨⟨_, rfl⟩, ⟨rfl, ⟨rfl, rfl⟩, rfl, rfl⟩⟩,
      rfl, rfl, rfl, ⟨rfl, ⟨rfl, rfl⟩, rfl, rfl⟩⟩
  obtain ⟨k0, k1, k2, k3, boot, first, second, third, cur, cur1, cur2, rivals⟩ := evaluated
  have one : Run (Recorded noteTick (StayRivals 0 1 1 3 true)) (k0.withPriorities 1 3, fun _ => 0)
      [.timer [.ready] 0x444444447f60] (k1, Function.update (fun _ => 0) 0 1) :=
    .single ⟨first, (noteTick_timer cur).symm⟩
  have two := one.snoc (u := (k2, _)) ⟨second, (noteTick_timer cur1).symm⟩
  have run := two.snoc (u := (k3, _)) ⟨third, (noteTick_timer cur2).symm⟩
  exact ⟨k0, k3, _, boot, rivals, run, rfl, rfl⟩

end Kernel

end Microkernel
