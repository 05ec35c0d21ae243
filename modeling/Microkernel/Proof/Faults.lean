import Microkernel.Proof.Handover

/-! Which context a handler returns to.  The contexts of the processes are at different addresses,
and the scheduler returns to the context of a dead process exactly when its search fails and the
process after the current one is dead. -/

namespace Microkernel

open Lib

namespace Kernel

variable {k k' : Kernel} {rsp r : UInt64} {old new : TaskRef} {force : Bool}

/-- No two processes have their saved contexts at one address. -/
def Distinct (k : Kernel) : Prop :=
  ∀ t ∈ k.taskList, ∀ u ∈ k.taskList, t ≠ u → (k.task t).kernelRsp ≠ (k.task u).kernelRsp

/-- A frame at `rsp` is at no address where a process other than `old` has its saved context. -/
def OffOthers (k : Kernel) (old : TaskRef) (rsp : UInt64) : Prop :=
  ∀ t ∈ k.taskList, t ≠ old → (k.task t).kernelRsp ≠ rsp

/-- The event is a tick or a fault of the current process, whose frame is on that process's own
stack. -/
def OwnFrame (k : Kernel) : Event → Prop
  | .timer _ rsp | .gpf rsp | .pageFault rsp => ∀ t, k.Current t → k.OffOthers t rsp
  | _ => False

/-- The stack pointer `r` is not the saved context of a process that is `Terminated`. -/
def NeverDead (k : Kernel) (r : UInt64) : Prop :=
  ∀ t ∈ k.taskList, (k.task t).state = .terminated → (k.task t).kernelRsp ≠ r

/-- A search of `schedule_next` does not end at a dead process: some process is `Ready`, or the one
after the current one, where a failed search ends, is not `Terminated`. -/
def Lands (k : Kernel) : Prop :=
  (∃ i, k.readyAt i) ∨
    ∃ t, k.taskList[Cyclic.next k.taskList.length k.currentTaskIdx]? = some t ∧
      (k.task t).state ≠ .terminated

/-- The condition under which a handler does not return to a dead process. -/
def Survives (k : Kernel) : Event → Prop
  | .timer scripts _ => ∀ polled t, k.pollKernelTasks scripts = .ok polled → k.Current t →
      Searches { polled with tickCount := polled.tickCount + 1 } false t →
      Lands { polled with tickCount := polled.tickCount + 1 }
  | .gpf _ | .pageFault _ => ∀ t, k.Current t → Lands (k.setState t .terminated)
  | _ => True

theorem lands_iff (cur : k.Current old) (selected : k.taskList[k.nextIdx]? = some new) :
    k.Lands ↔ (k.task new).state ≠ .terminated := by
  by_cases some_ready : ∃ i, k.readyAt i
  · obtain ⟨i, ready⟩ := some_ready
    obtain ⟨t, found, alive⟩ := readyAt_iff.mp (nextIdx_ready cur ready)
    rw [selected] at found
    cases found
    exact iff_of_true (.inl ⟨i, ready⟩) (by rw [alive]; decide)
  · have last := nextIdx_none cur fun i ready => some_ready ⟨i, ready⟩
    rw [last] at selected
    simp only [Lands, some_ready, selected, false_or, Option.some.injEq, exists_eq_left']

theorem movedTo_kernelRsp_ne {t : TaskRef} {j : Nat} (ne : t ≠ old) :
    ((k.movedTo rsp old new j).task t).kernelRsp = (k.task t).kernelRsp := by
  show ((k.modifyTask old fun task => { task with kernelRsp := rsp }).task t).kernelRsp = _
  rw [modifyTask_task_ne k _ ne]

theorem movedTo_kernelRsp_self {j : Nat} :
    ((k.movedTo rsp old new j).task old).kernelRsp = rsp := by
  show ((k.modifyTask old fun task => { task with kernelRsp := rsp }).task old).kernelRsp = _
  rw [modifyTask_task_self]

theorem Distinct.movedTo (distinct : k.Distinct) (own : k.OffOthers old rsp) {j : Nat} :
    (k.movedTo rsp old new j).Distinct := by
  intro t ht u hu ne
  rcases eq_or_ne t old with rfl | ht'
  · rw [movedTo_kernelRsp_self, movedTo_kernelRsp_ne ne.symm]
    exact (own u hu ne.symm).symm
  · rcases eq_or_ne u old with rfl | hu'
    · rw [movedTo_kernelRsp_self, movedTo_kernelRsp_ne ne]
      exact own t ht ne
    · rw [movedTo_kernelRsp_ne ht', movedTo_kernelRsp_ne hu']
      exact distinct t ht u hu ne

/-- The scheduler returns to no dead process exactly when its search, if it makes one, ends at a
process that is not dead. -/
theorem scheduleNext_neverDead (sound : k.Sound) (distinct : k.Distinct) (cur : k.Current old)
    (own : k.OffOthers old rsp) (run : k.scheduleNext rsp force = .ok (r, k')) :
    (k'.NeverDead r ↔ (k.Searches force old → k.Lands)) ∧ k'.Distinct := by
  rcases scheduleNext_cases sound.taskList_free cur run with
    ⟨stays, rfl, rfl⟩ | ⟨moves, new, selected, rfl, rfl⟩
  · -- The current process goes on, which is alive: a dead one is left for itself at least.
    have alive : k'.Searches force old → (k'.task old).state ≠ .terminated :=
      fun searches dead => stays ⟨searches, .inr dead⟩
    refine ⟨iff_of_true ?_ fun searches => ?_, distinct⟩
    · intro t ht dead
      apply own t ht
      rintro rfl
      exact alive (.inr (.inl dead)) dead
    · have same : k'.nextIdx = k'.currentTaskIdx :=
        Decidable.of_not_not fun elsewhere => stays ⟨searches, .inl elsewhere⟩
      have here : k'.taskList[k'.nextIdx]? = some old := by
        rw [same]
        exact cur
      exact (lands_iff cur here).mpr (alive searches)
  · refine ⟨?_, distinct.movedTo own⟩
    have condition : (k.Searches force old → k.Lands) ↔ (k.task new).state ≠ .terminated := by
      rw [← lands_iff cur selected]
      exact ⟨fun h => h moves.1, fun h _ => h⟩
    rw [condition]
    constructor
    · intro safe dead
      refine safe new (List.mem_of_getElem? selected) ?_ rfl
      rw [movedTo_keeps Task.state fun _ => rfl]
      exact dead
    · intro alive t ht dead
      rw [movedTo_keeps Task.state fun _ => rfl] at dead
      have ne : t ≠ new := by
        rintro rfl
        exact alive dead
      exact distinct.movedTo own t ht new (List.mem_of_getElem? selected) ne

theorem setState_kernelRsp {t u : TaskRef} {s : TaskState} :
    ((k.setState t s).task u).kernelRsp = (k.task u).kernelRsp :=
  modifyTask_keeps Task.kernelRsp rfl u

theorem Distinct.of_kernelRsp (distinct : k.Distinct) (taskList : k'.taskList = k.taskList)
    (same : ∀ t, (k'.task t).kernelRsp = (k.task t).kernelRsp) : k'.Distinct := by
  intro t ht u hu ne
  rw [taskList] at ht hu
  rw [same t, same u]
  exact distinct t ht u hu ne

theorem OffOthers.of_kernelRsp (own : k.OffOthers old rsp) (taskList : k'.taskList = k.taskList)
    (same : ∀ t, (k'.task t).kernelRsp = (k.task t).kernelRsp) : k'.OffOthers old rsp := by
  intro t ht ne
  rw [taskList] at ht
  rw [same t]
  exact own t ht ne

theorem fault_neverDead (sound : k.Sound) (distinct : k.Distinct)
    (own : ∀ t, k.Current t → k.OffOthers t rsp)
    (run : k.faultHandlerInner rsp = .ok (r, k')) :
    (k'.NeverDead r ↔ ∀ t, k.Current t → Lands (k.setState t .terminated)) ∧ k'.Distinct := by
  obtain ⟨t, cur⟩ := sound.current
  have scheduled := faultHandlerInner_cases sound cur run
  have keeps : ∀ u, ((k.setState t .terminated).task u).kernelRsp = (k.task u).kernelRsp :=
    fun u => setState_kernelRsp
  obtain ⟨safe, distinct'⟩ := scheduleNext_neverDead (sound.kill t)
    (distinct.of_kernelRsp rfl keeps) cur ((own t cur).of_kernelRsp rfl keeps) scheduled
  refine ⟨safe.trans ⟨fun h u cur' => ?_, fun h _ => h t cur⟩, distinct'⟩
  rw [cur.unique cur']
  exact h (.inr (.inr rfl))

theorem timer_neverDead {scripts : List PollScript} {polled : Kernel} (sound : k.Sound)
    (distinct : k.Distinct) (own : ∀ t, k.Current t → k.OffOthers t rsp)
    (ran : k.pollKernelTasks scripts = .ok polled)
    (scheduled : scheduleNext rsp false { polled with tickCount := polled.tickCount + 1 } =
      .ok (r, k')) :
    (k'.NeverDead r ↔ k.Survives (.timer scripts rsp)) ∧ k'.Distinct := by
  obtain ⟨t, cur⟩ := sound.current
  have fixed := fixed_pollKernelTasks ran
  have taskList : polled.taskList = k.taskList := congrArg Fixed.taskList fixed
  have keeps : ∀ u, (polled.task u).kernelRsp = (k.task u).kernelRsp :=
    fun u => congrArg (fun f => (f.identity u).2.2.1) fixed
  obtain ⟨safe, distinct'⟩ := scheduleNext_neverDead (sound.fixed fixed).tick
    (distinct.of_kernelRsp taskList keeps) (cur.polled ran)
    ((own t cur).of_kernelRsp taskList keeps) scheduled
  refine ⟨safe.trans ⟨fun h polled' u ran' cur' => ?_, fun h => h polled t ran cur⟩, distinct'⟩
  rw [ran] at ran'
  cases ran'
  rw [cur.unique cur']
  exact h

theorem ownFrame_step {e : Event} {out : Option UInt64} (sound : k.Sound) (distinct : k.Distinct)
    (own : k.OwnFrame e) (step : k.step e = .ok (out, k')) :
    ∃ r, out = some r ∧ (k'.NeverDead r ↔ k.Survives e) ∧ k'.Distinct := by
  cases step_happens sound step with
  | timer ran scheduled => exact ⟨_, rfl, timer_neverDead sound distinct own ran scheduled⟩
  | gpf handled | pageFault handled => exact ⟨_, rfl, fault_neverDead sound distinct own handled⟩
  | keyboard | serial | returned | killed | userWrites | spawn | wake | receive | pollTasks =>
    cases own

/-- In every run of ticks and faults, the stack pointer that the next handler returns is not the
context of a dead process exactly when the event meets the condition. -/
theorem dead_not_resumed {k0 : Kernel} {es : List Event} {e : Event} (sound : k0.Sound)
    (distinct : k0.Distinct) (run : Run (Guarded OwnFrame Step) k0 es k) (own : k.OwnFrame e)
    (step : k.step e = .ok (some r, k')) : k'.NeverDead r ↔ k.Survives e := by
  have all : k.Sound ∧ k.Distinct := by
    refine run.invariant (I := fun k => k.Sound ∧ k.Distinct) ⟨sound, distinct⟩ ?_
    rintro a e b ⟨sound, distinct⟩ ⟨own, out, step⟩
    obtain ⟨-, -, -, distinct'⟩ := ownFrame_step sound distinct own step
    exact ⟨sound.step ⟨out, step⟩, distinct'⟩
  obtain ⟨r', same, safe, -⟩ := ownFrame_step all.1 all.2 own step
  cases same
  exact safe

theorem offOthers_pair {a b t u : TaskRef} (list : k.taskList = [a, b])
    (both : t = a ∧ u = b ∨ t = b ∧ u = a) (apart : (k.task u).kernelRsp ≠ rsp) :
    k.OffOthers t rsp := by
  intro v hv ne
  rw [list] at hv
  rcases both with ⟨rfl, rfl⟩ | ⟨rfl, rfl⟩ <;> rcases List.mem_pair.mp hv with rfl | rfl
  · exact absurd rfl ne
  · exact apart
  · exact apart
  · exact absurd rfl ne

theorem heapBoot_distinct (run : heapBoot = .ok k) : k.Distinct := by
  have evaluated : ∃ k0, heapBoot = .ok k0 ∧ k0.taskList = [0, 1] ∧
      (k0.task 0).kernelRsp = 0x444444447f60 ∧ (k0.task 1).kernelRsp = 0x44444444ff60 :=
    ⟨_, rfl, rfl, rfl, rfl⟩
  obtain ⟨k0, boot, list, first, second⟩ := evaluated
  rw [boot] at run
  cases run
  intro t ht u hu ne
  rw [list] at ht hu
  rcases List.mem_pair.mp ht with rfl | rfl <;> rcases List.mem_pair.mp hu with rfl | rfl
  · exact absurd rfl ne
  · rw [first, second]
    decide
  · rw [first, second]
    decide
  · exact absurd rfl ne

/-- The first process of `kernel_main` faults, and the second one goes on. -/
theorem dead_not_resumed_first : ∃ k0 r k, heapBoot = .ok k0 ∧
    k0.step (.gpf 0x444444447f58) = .ok (some r, k) ∧ k.NeverDead r := by
  have evaluated : ∃ k0 r k, heapBoot = .ok k0 ∧ k0.taskList = [0, 1] ∧ k0.currentTaskIdx = 0 ∧
      (k0.task 1).kernelRsp = 0x44444444ff60 ∧ (k0.task 1).state = .ready ∧
      k0.step (.gpf 0x444444447f58) = .ok (some r, k) :=
    ⟨_, _, _, rfl, rfl, rfl, rfl, rfl, rfl⟩
  obtain ⟨k0, r, k, boot, list, idx, second, ready, step⟩ := evaluated
  have first : ∀ t, k0.Current t → t = 0 := by
    intro t cur
    rw [Current, list, idx] at cur
    cases cur
    rfl
  have own : k0.OwnFrame (.gpf 0x444444447f58) := by
    intro t cur
    rw [first t cur]
    exact offOthers_pair list (.inl ⟨rfl, rfl⟩) (by rw [second]; decide)
  have survives : k0.Survives (.gpf 0x444444447f58) := by
    intro t cur
    rw [first t cur]
    refine .inl ⟨1, readyAt_iff.mpr ⟨1, ?_, ?_⟩⟩
    · show k0.taskList[1]? = some 1
      rw [list]
      rfl
    · rw [setState, modifyTask_task_ne k0 _ (by decide), ready]
  have safe := dead_not_resumed (heapBoot_booted boot).sound (heapBoot_distinct boot) .nil own step
  exact ⟨k0, r, k, boot, step, safe.mpr survives⟩

/-- Both processes of `kernel_main` fault, and the second fault returns to the frame of the
first. -/
theorem dead_resumed : ∃ k0 k k', heapBoot = .ok k0 ∧
    Run (Guarded OwnFrame Step) k0 [.gpf 0x444444447f58] k ∧ k.OwnFrame (.gpf 0x44444444ff58) ∧
    k.step (.gpf 0x44444444ff58) = .ok (some 0x444444447f58, k') ∧
    ¬ k'.NeverDead 0x444444447f58 := by
  have evaluated : ∃ k0 k k', heapBoot = .ok k0 ∧
      (k0.taskList = [0, 1] ∧ k0.currentTaskIdx = 0 ∧
        (k0.task 1).kernelRsp = 0x44444444ff60) ∧
      k0.Step (.gpf 0x444444447f58) k ∧
      (k.taskList = [0, 1] ∧ k.currentTaskIdx = 1 ∧
        (k.task 0).kernelRsp = 0x444444447f58) ∧
      k.step (.gpf 0x44444444ff58) = .ok (some 0x444444447f58, k') ∧
      k'.taskList = [0, 1] ∧ (k'.task 0).state = .terminated ∧
        (k'.task 0).kernelRsp = 0x444444447f58 :=
    ⟨_, _, _, rfl, ⟨rfl, rfl, rfl⟩, ⟨_, rfl⟩, ⟨rfl, rfl, rfl⟩, rfl, rfl, rfl, rfl⟩
  obtain ⟨k0, k, k', boot, ⟨list0, idx0, saved0⟩, step0, ⟨list, idx, saved⟩, step, list', dead,
    frame⟩ := evaluated
  have own0 : k0.OwnFrame (.gpf 0x444444447f58) := by
    intro t cur
    rw [Current, list0, idx0] at cur
    cases cur
    exact offOthers_pair list0 (.inl ⟨rfl, rfl⟩) (by rw [saved0]; decide)
  have own : k.OwnFrame (.gpf 0x44444444ff58) := by
    intro t cur
    rw [Current, list, idx] at cur
    cases cur
    exact offOthers_pair list (.inr ⟨rfl, rfl⟩) (by rw [saved]; decide)
  refine ⟨k0, k, k', boot, .single ⟨own0, step0⟩, own, step, fun safe => ?_⟩
  exact safe 0 (by rw [list']; decide) dead frame

end Kernel

end Microkernel
