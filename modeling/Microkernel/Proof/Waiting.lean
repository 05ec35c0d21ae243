import Microkernel.Proof.Handover

/-! How long a process that is `Ready` waits for the processor.  Each tick is paid from a budget:
the slices of the processes between the current one and the one that waits, and what is left of the
slice of the current one. -/

namespace Microkernel

open Lib

/-- What can happen while a process waits: an event, or any change of the states of tasks. -/
inductive Turn
  | event (e : Event)
  | states (f : TaskRef → TaskState)

def Turn.ticks : Turn → Nat
  | .event (.timer _ _) => 1
  | _ => 0

namespace Kernel

variable {k k' mid : Kernel} {rsp r : UInt64} {force : Bool} {w : Nat}

/-- The slice of the process at place `i`. -/
def slice (k : Kernel) (i : Nat) : Nat :=
  ((k.taskList[i]?).map fun t => (max (k.task t).priority 1).toNat).getD 1

/-- The ticks after which a count that starts at `ticks`, and that wraps at 2^64, is a multiple
of `p`. -/
def due (p : Nat) (ticks : UInt64) : Nat := min (p - ticks.toNat % p) (2 ^ 64 - ticks.toNat)

/-- The ticks that the process at place `w` may have to wait. -/
def budget (w : Nat) (k : Kernel) : Nat :=
  if k.currentTaskIdx = w then 0
  else
    Cyclic.weight k.slice k.taskList.length w
        (Cyclic.dist k.taskList.length k.currentTaskIdx w - 1) +
      due (k.slice k.currentTaskIdx) k.tickCount

theorem slice_pos (k : Kernel) (i : Nat) : 0 < k.slice i := by
  unfold slice
  cases k.taskList[i]? with
  | none => exact Nat.one_pos
  | some t =>
    refine Nat.pos_of_ne_zero fun zero => max_one_ne_zero (k.task t).priority ?_
    exact UInt64.toNat_inj.mp zero

theorem slice_congr (taskList : k'.taskList = k.taskList)
    (fixed : ∀ t ∈ k.taskList, (k'.task t).priority = (k.task t).priority) :
    k'.slice = k.slice := by
  funext i
  unfold slice
  rw [taskList]
  cases found : k.taskList[i]? with
  | none => rfl
  | some t =>
    simp only [Option.map_some]
    rw [fixed t (List.mem_of_getElem? found)]

theorem sliceOver_iff {t : TaskRef} (cur : k.Current t) :
    k.SliceOver t ↔ k.tickCount.toNat % k.slice k.currentTaskIdx = 0 := by
  have here : k.slice k.currentTaskIdx = (max (k.task t).priority 1).toNat := by
    rw [slice, show k.taskList[k.currentTaskIdx]? = some t from cur]
    rfl
  rw [here, SliceOver, ← UInt64.toNat_inj, UInt64.toNat_mod]
  rfl

/-! ### The ticks to the end of a slice -/

theorem due_pos {p : Nat} (positive : 0 < p) (ticks : UInt64) : 0 < due p ticks := by
  have := ticks.toNat_lt
  have := Nat.mod_lt ticks.toNat positive
  unfold due
  omega

theorem due_le {p : Nat} (ticks : UInt64) : due p ticks ≤ p := by
  unfold due
  omega

/-- A tick that is no multiple of `p` brings the next multiple nearer. -/
theorem due_tick {p : Nat} {ticks : UInt64} (positive : 0 < p)
    (inside : (ticks + 1).toNat % p ≠ 0) : due p (ticks + 1) + 1 ≤ due p ticks := by
  have below := ticks.toNat_lt
  have value : (ticks + 1).toNat = (ticks.toNat + 1) % 2 ^ 64 := by
    simp only [UInt64.toNat_add, UInt64.reduceToNat]
  -- The count does not wrap here: 0 is a multiple of every slice.
  have unwrapped : ticks.toNat + 1 < 2 ^ 64 := by
    by_contra wraps
    have full : ticks.toNat + 1 = 2 ^ 64 := by omega
    rw [value, full, Nat.mod_self, Nat.zero_mod] at inside
    exact inside rfl
  rw [value, Nat.mod_eq_of_lt unwrapped] at inside
  have part := Nat.mod_lt ticks.toNat positive
  have next : (ticks.toNat + 1) % p = ticks.toNat % p + 1 := by
    have wrap : (ticks.toNat + 1) % p = (ticks.toNat % p + 1) % p := by rw [Nat.mod_add_mod]
    have room : ticks.toNat % p + 1 ≠ p := by
      intro full
      rw [wrap, full, Nat.mod_self] at inside
      exact inside rfl
    rw [wrap, Nat.mod_eq_of_lt (by omega)]
  unfold due
  rw [value, Nat.mod_eq_of_lt unwrapped, next]
  omega

/-! ### The budget -/

theorem budget_pos (elsewhere : k.currentTaskIdx ≠ w) : 0 < k.budget w := by
  unfold budget
  rw [if_neg elsewhere]
  have := due_pos (k.slice_pos k.currentTaskIdx) k.tickCount
  omega

/-- A process nearer to `w` leaves at most the slices of those between. -/
theorem budget_closer (taskList : k'.taskList = k.taskList) (slice : k'.slice = k.slice)
    (valid : k'.currentTaskIdx < k.taskList.length)
    (closer : Cyclic.dist k.taskList.length k'.currentTaskIdx w <
      Cyclic.dist k.taskList.length k.currentTaskIdx w) :
    k'.budget w ≤ Cyclic.weight k.slice k.taskList.length w
      (Cyclic.dist k.taskList.length k.currentTaskIdx w - 1) := by
  unfold budget
  split
  · exact Nat.zero_le _
  next elsewhere =>
    rw [taskList, slice]
    have short := due_le (p := k.slice k'.currentTaskIdx) k'.tickCount
    have between := Cyclic.weight_between k.slice valid elsewhere
    have fewer := Cyclic.weight_mono k.slice (n := k.taskList.length) (w := w)
      (show Cyclic.dist k.taskList.length k'.currentTaskIdx w ≤
        Cyclic.dist k.taskList.length k.currentTaskIdx w - 1 by omega)
    omega

/-- At first the budget is at most the slices of all the others. -/
theorem budget_le (sound : k.Sound) (ready : k.readyAt w) :
    k.budget w ≤ ∑ j ∈ (Finset.range k.taskList.length).erase w, k.slice j := by
  obtain ⟨t, cur⟩ := sound.current
  have inside := readyAt_lt ready
  rw [← Cyclic.weight_around k.slice inside]
  unfold budget
  split
  · exact Nat.zero_le _
  next elsewhere =>
    have short := due_le (p := k.slice k.currentTaskIdx) k.tickCount
    have between := Cyclic.weight_between k.slice cur.lt elsewhere
    have far := Cyclic.dist_lt cur.lt inside
    have fewer := Cyclic.weight_mono k.slice (n := k.taskList.length) (w := w)
      (show Cyclic.dist k.taskList.length k.currentTaskIdx w ≤ k.taskList.length - 1 by omega)
    omega

/-! ### What a turn does to the place of the processor -/

/-- The current place, the list and the tick count are the same. -/
structure SamePlace (k k' : Kernel) : Prop where
  taskList : k'.taskList = k.taskList
  idx : k'.currentTaskIdx = k.currentTaskIdx
  ticks : k'.tickCount = k.tickCount

/-- What an event does to the place of the processor, and the ticks that it counts: it leaves it
alone, or it calls `schedule_next` after a fault, or after a tick. -/
inductive Placed (k k' : Kernel) : Nat → Prop
  | stays (same : SamePlace k k') : Placed k k' 0
  | forced {mid : Kernel} {rsp r : UInt64} (same : SamePlace k mid) (sound : mid.Sound)
      (run : mid.scheduleNext rsp true = .ok (r, k')) : Placed k k' 0
  | ticked {mid : Kernel} {rsp r : UInt64} (same : SamePlace k mid) (sound : mid.Sound)
      (run : scheduleNext rsp false { mid with tickCount := mid.tickCount + 1 } = .ok (r, k')) :
      Placed k k' 1

theorem SamePlace.fixed (same : k'.fixed = k.fixed) : SamePlace k k' :=
  ⟨congrArg Fixed.taskList same, congrArg Fixed.currentTaskIdx same, congrArg Fixed.tickCount same⟩

theorem SamePlace.trans (first : SamePlace k mid) (second : SamePlace mid k') : SamePlace k k' :=
  ⟨second.taskList.trans first.taskList, second.idx.trans first.idx,
    second.ticks.trans first.ticks⟩

theorem postInitMailbox_place (m : Message) : SamePlace k (k.postInitMailbox m) := by
  unfold postInitMailbox
  split <;> exact ⟨rfl, rfl, rfl⟩

theorem faultHandlerInner_placed (sound : mid.Sound) (same : SamePlace k mid)
    (run : mid.faultHandlerInner rsp = .ok (r, k')) : Placed k k' 0 := by
  obtain ⟨t, cur⟩ := sound.current
  have killed : SamePlace k (mid.setState t .terminated) := same.trans ⟨rfl, rfl, rfl⟩
  exact .forced killed (sound.kill t) (faultHandlerInner_cases sound cur run)

theorem call_place {id arg1 arg2 : UInt64} {o : Outcome UInt64} (call : Call k arg1 arg2 id o) :
    o.Ends (SamePlace k) := by
  cases call with
  | idle | sendFault | print | regService | exit | setPriority | recv | recvFault =>
    exact ⟨rfl, rfl, rfl⟩
  | send => exact .fixed (fixed_deliver _ _)

theorem step_placed {e : Event} (sound : k.Sound) (step : k.Step e k') :
    Placed k k' (Turn.event e).ticks := by
  obtain ⟨out, run⟩ := step
  cases step_happens sound run with
  | timer ran scheduled =>
    have fixed := fixed_pollKernelTasks ran
    exact .ticked (.fixed fixed) (sound.fixed fixed) scheduled
  | keyboard ran | serial ran =>
    exact .stays ((postInitMailbox_place _).trans (.fixed (fixed_pollKernelTasks ran)))
  | gpf handled | pageFault handled => exact faultHandlerInner_placed sound ⟨rfl, rfl, rfl⟩ handled
  | returned call => exact .stays (call_place call)
  | killed call handled =>
    exact faultHandlerInner_placed (call.sound sound) (call_place call) handled
  | userWrites | wake => exact .stays ⟨rfl, rfl, rfl⟩
  | spawn spawned =>
    obtain ⟨-, q, -, rfl⟩ := spawnStatic_cases spawned
    exact .stays ⟨rfl, rfl, rfl⟩
  | receive t cx => exact .stays (.fixed (fixed_ipcReceivePoll t cx))
  | pollTasks ran => exact .stays (.fixed (fixed_pollKernelTasks ran))

/-- `schedule_next` brings the processor nearer to a process that is `Ready`, unless the slice of
the current one is not over. -/
theorem scheduleNext_place (sound : k.Sound) (elsewhere : k.currentTaskIdx ≠ w)
    (ready : k'.readyAt w) (run : k.scheduleNext rsp force = .ok (r, k')) :
    k'.taskList = k.taskList ∧ k'.tickCount = k.tickCount ∧ k'.slice = k.slice ∧
      ((k'.currentTaskIdx = k.currentTaskIdx ∧ force = false ∧
          k.tickCount.toNat % k.slice k.currentTaskIdx ≠ 0) ∨
        Cyclic.dist k.taskList.length k'.currentTaskIdx w <
          Cyclic.dist k.taskList.length k.currentTaskIdx w) := by
  obtain ⟨old, cur⟩ := sound.current
  rcases scheduleNext_cases sound.taskList_free cur run with
    ⟨stays, -, rfl⟩ | ⟨-, new, -, -, rfl⟩
  · have waits : ¬ k'.Searches force old := fun searches =>
      stays ⟨searches, .inl (nextIdx_ne cur ready elsewhere)⟩
    refine ⟨rfl, rfl, rfl, .inl ⟨rfl, ?_, fun ended => ?_⟩⟩
    · exact Bool.eq_false_iff.mpr fun forced => waits (.inr (.inr forced))
    · exact waits (.inl ((sliceOver_iff cur).mpr ended))
  · have same : ∀ t, ((k.movedTo rsp old new k.nextIdx).task t).state = (k.task t).state :=
      fun t => movedTo_keeps Task.state fun _ => rfl
    have ready' : k.readyAt w := by
      obtain ⟨t, here, alive⟩ := readyAt_iff.mp ready
      exact readyAt_iff.mpr ⟨t, here, (same t).symm.trans alive⟩
    have slices : (k.movedTo rsp old new k.nextIdx).slice = k.slice :=
      slice_congr rfl fun t _ => movedTo_keeps Task.priority fun _ => rfl
    exact ⟨rfl, rfl, slices, .inr (nextIdx_closer cur ready' elsewhere)⟩

/-- A turn during which the process at place `w` stays `Ready` and no priority changes. -/
structure Waiting (w : Nat) (k : Kernel) (turn : Turn) (k' : Kernel) : Prop where
  turns : match turn with
    | .event e => k.Step e k'
    | .states f => k' = { k with task := fun t => { k.task t with state := f t } }
  ready : k'.readyAt w
  fixed : ∀ t ∈ k.taskList, (k'.task t).priority = (k.task t).priority

theorem Waiting.placed {turn : Turn} (sound : k.Sound) (waiting : Waiting w k turn k') :
    Placed k k' turn.ticks := by
  obtain ⟨turns, -, -⟩ := waiting
  cases turn with
  | event e => exact step_placed sound turns
  | states f =>
    cases turns
    exact .stays ⟨rfl, rfl, rfl⟩

theorem Waiting.sound {turn : Turn} (sound : k.Sound) (waiting : Waiting w k turn k') :
    k'.Sound := by
  obtain ⟨turns, -, -⟩ := waiting
  cases turn with
  | event e => exact sound.step turns
  | states f =>
    cases turns
    exact ⟨sound.current, sound.processes, sound.quiet⟩

/-- While the process waits, every turn pays its ticks from the budget. -/
theorem Waiting.pays {turn : Turn} (sound : k.Sound) (elsewhere : k.currentTaskIdx ≠ w)
    (waiting : Waiting w k turn k') : k'.budget w + turn.ticks ≤ k.budget w := by
  have placed := waiting.placed sound
  have sound' := waiting.sound sound
  obtain ⟨-, ready, fixed⟩ := waiting
  generalize turn.ticks = n at placed
  have full : k.budget w = Cyclic.weight k.slice k.taskList.length w
      (Cyclic.dist k.taskList.length k.currentTaskIdx w - 1) +
        due (k.slice k.currentTaskIdx) k.tickCount := if_neg elsewhere
  have left := due_pos (k.slice_pos k.currentTaskIdx) k.tickCount
  obtain ⟨t', cur'⟩ := sound'.current
  cases placed with
  | stays same =>
    have slices := slice_congr same.taskList fixed
    have unchanged : k'.budget w = k.budget w := by
      unfold budget
      rw [same.taskList, same.idx, same.ticks, slices]
    omega
  | @forced mid rsp r same sound run =>
    have away : mid.currentTaskIdx ≠ w := by rwa [same.idx]
    obtain ⟨taskList, -, -, ⟨-, absurd, -⟩ | closer⟩ := scheduleNext_place sound away ready run
    · cases absurd
    · rw [same.taskList] at taskList closer
      rw [same.idx] at closer
      have valid := cur'.lt
      rw [taskList] at valid
      have most := budget_closer taskList (slice_congr taskList fixed) valid closer
      omega
  | @ticked mid rsp r same sound run =>
    have away : mid.currentTaskIdx ≠ w := by rwa [same.idx]
    obtain ⟨taskList, ticks, slices, placed⟩ := scheduleNext_place sound.tick away ready run
    change k'.taskList = mid.taskList at taskList
    change k'.tickCount = mid.tickCount + 1 at ticks
    change k'.slice = mid.slice at slices
    rw [same.taskList] at taskList
    have slices' : k'.slice = k.slice := slice_congr taskList fixed
    rcases placed with ⟨idx, -, inside⟩ | closer
    · change k'.currentTaskIdx = mid.currentTaskIdx at idx
      change (mid.tickCount + 1).toNat % mid.slice mid.currentTaskIdx ≠ 0 at inside
      rw [← slices, slices', same.idx, same.ticks] at inside
      have nearer := due_tick (k.slice_pos k.currentTaskIdx) inside
      have less : k'.budget w = Cyclic.weight k.slice k.taskList.length w
          (Cyclic.dist k.taskList.length k.currentTaskIdx w - 1) +
            due (k.slice k.currentTaskIdx) (k.tickCount + 1) := by
        unfold budget
        rw [idx, same.idx, if_neg elsewhere, taskList, slices', ticks, same.ticks]
      omega
    · change Cyclic.dist mid.taskList.length k'.currentTaskIdx w <
        Cyclic.dist mid.taskList.length mid.currentTaskIdx w at closer
      rw [same.taskList, same.idx] at closer
      have valid := cur'.lt
      rw [taskList] at valid
      have most := budget_closer taskList slices' valid closer
      omega

theorem timerHandlerInner_total {scripts : List PollScript} {polled : Kernel} (sound : k.Sound)
    (ran : k.pollKernelTasks scripts = .ok polled) (rsp : UInt64) :
    ∃ r k', k.timerHandlerInner scripts rsp = .ok (r, k') := by
  have sound' := (sound.fixed (fixed_pollKernelTasks ran)).tick
  obtain ⟨t, cur⟩ := sound'.current
  obtain ⟨new, -, result⟩ := scheduleNext_eq rsp false sound'.taskList_free cur
  unfold timerHandlerInner
  rw [ran]
  show ∃ r k', scheduleNext rsp false { polled with tickCount := polled.tickCount + 1 } =
    .ok (r, k')
  rw [result]
  split <;> exact ⟨_, _, rfl⟩

/-- The handlers of the timer and of the faults return, whatever the state of the processes. -/
theorem handlers_return (sound : k.Sound) :
    (∀ scripts rsp, (∃ polled, k.pollKernelTasks scripts = .ok polled) →
      ∃ k', k.Step (.timer scripts rsp) k') ∧
    (∀ rsp, ∃ k', k.Step (.gpf rsp) k') ∧ ∀ rsp, ∃ k', k.Step (.pageFault rsp) k' := by
  refine ⟨fun scripts rsp ⟨polled, ran⟩ => ?_, fun rsp => ?_, fun rsp => ?_⟩
  · obtain ⟨r, k', handled⟩ := timerHandlerInner_total sound ran rsp
    exact ⟨k', some r, by rw [Kernel.step, handled]; rfl⟩
  · obtain ⟨r, k', handled⟩ := faultHandlerInner_total sound rsp
    exact ⟨k', some r, by rw [Kernel.step, gpfHandlerInner, handled]; rfl⟩
  · obtain ⟨r, k', handled⟩ := faultHandlerInner_total sound rsp
    exact ⟨k', some r, by rw [Kernel.step, pageFaultHandlerInner, handled]; rfl⟩

/-- A process that stays `Ready` becomes the current one within as many ticks as all the other
processes have in their slices, whatever else happens, and no handler keeps the processor from it.
-/
theorem bounded_waiting {k0 : Kernel} {turns : List Turn} (sound : k0.Sound)
    (ready : k0.readyAt w) (run : Run (Waiting w) k0 turns k) :
    (∑ j ∈ (Finset.range k0.taskList.length).erase w, k0.slice j ≤ (turns.map Turn.ticks).sum →
      ∃ first rest mid, turns = first ++ rest ∧ Run (Waiting w) k0 first mid ∧
        mid.currentTaskIdx = w ∧
        (first.map Turn.ticks).sum ≤
          ∑ j ∈ (Finset.range k0.taskList.length).erase w, k0.slice j) ∧
    (∀ scripts rsp, (∃ polled, k.pollKernelTasks scripts = .ok polled) →
      ∃ k', k.Step (.timer scripts rsp) k') ∧
    (∀ rsp, ∃ k', k.Step (.gpf rsp) k') ∧ ∀ rsp, ∃ k', k.Step (.pageFault rsp) k' := by
  refine ⟨fun enough => ?_, handlers_return (run.invariant sound fun _ _ _ sound waiting =>
    waiting.sound sound)⟩
  have most := budget_le sound ready
  have reaches : ∃ first rest mid, turns = first ++ rest ∧ Run (Waiting w) k0 first mid ∧
      mid.currentTaskIdx = w ∧ (first.map Turn.ticks).sum ≤ k0.budget w :=
    run.reaches (I := Kernel.Sound) (f := budget w) sound
      (fun _ _ _ sound waiting => waiting.sound sound)
      (fun _ _ _ sound elsewhere waiting => waiting.pays sound elsewhere)
      (fun _ _ elsewhere => budget_pos elsewhere) (most.trans enough)
  obtain ⟨first, rest, mid, split, before, reached, within⟩ := reaches
  exact ⟨first, rest, mid, split, before, reached, within.trans most⟩

/-- The two processes of `kernel_main`, with their priorities, of which the second one is `Ready`.
-/
structure Pair (k : Kernel) : Prop where
  taskList : k.taskList = [0, 1]
  first : (k.task 0).priority = 5
  second : (k.task 1).priority = 5
  ready : k.readyAt 1

theorem Pair.waiting {e : Event} (before : k.Pair) (after : k'.Pair) (step : k.Step e k') :
    Waiting 1 k (.event e) k' where
  turns := step
  ready := after.ready
  fixed t listed := by
    rw [before.taskList] at listed
    rcases List.mem_pair.mp listed with rfl | rfl
    · rw [before.first, after.first]
    · rw [before.second, after.second]

/-- The second process of `kernel_main` runs after at most five ticks. -/
theorem bounded_waiting_second : ∃ k0 mid, heapBoot = .ok k0 ∧
    ∃ first, Run (Waiting 1) k0 first mid ∧ mid.currentTaskIdx = 1 ∧
      (first.map Turn.ticks).sum ≤ 5 := by
  have evaluated : ∃ k0 k1 k2 k3 k4 k5, heapBoot = .ok k0 ∧
      (k0.Pair ∧ k1.Pair ∧ k2.Pair ∧ k3.Pair ∧ k4.Pair ∧ k5.Pair) ∧
      k0.Step (.timer [.ready] 0x444444447f60) k1 ∧ k1.Step (.timer [] 0x444444447f60) k2 ∧
      k2.Step (.timer [] 0x444444447f60) k3 ∧ k3.Step (.timer [] 0x444444447f60) k4 ∧
      k4.Step (.timer [] 0x444444447f60) k5 :=
    ⟨_, _, _, _, _, _, rfl, ⟨⟨rfl, rfl, rfl, rfl⟩, ⟨rfl, rfl, rfl, rfl⟩, ⟨rfl, rfl, rfl, rfl⟩,
      ⟨rfl, rfl, rfl, rfl⟩, ⟨rfl, rfl, rfl, rfl⟩, ⟨rfl, rfl, rfl, rfl⟩⟩, ⟨_, rfl⟩, ⟨_, rfl⟩,
      ⟨_, rfl⟩, ⟨_, rfl⟩, ⟨_, rfl⟩⟩
  obtain ⟨k0, k1, k2, k3, k4, k5, boot, ⟨p0, p1, p2, p3, p4, p5⟩, s1, s2, s3, s4, s5⟩ := evaluated
  have run := ((((Run.single (p0.waiting p1 s1)).snoc (p1.waiting p2 s2)).snoc
    (p2.waiting p3 s3)).snoc (p3.waiting p4 s4)).snoc (p4.waiting p5 s5)
  have others : ∑ j ∈ (Finset.range k0.taskList.length).erase 1, k0.slice j = 5 := by
    have single : (Finset.range [0, 1].length).erase 1 = {0} := by decide
    have five : k0.slice 0 = 5 := by
      rw [slice, p0.taskList]
      show (max (k0.task 0).priority 1).toNat = 5
      rw [p0.first]
      rfl
    rw [p0.taskList, single, Finset.sum_singleton, five]
  have result := (bounded_waiting (heapBoot_booted boot).sound p0.ready run).1
  rw [others] at result
  obtain ⟨first, rest, mid, -, before, reached, within⟩ := result (Nat.le_of_eq rfl)
  exact ⟨k0, mid, boot, first, before, reached, within⟩

end Kernel

end Microkernel
