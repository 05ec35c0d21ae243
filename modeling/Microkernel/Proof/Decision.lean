import Microkernel.Proof.Handover

/-! The decision of the scheduler, in full: when it looks for another process, which one it selects,
and what the switch to it changes. -/

namespace Microkernel

open Lib

namespace Kernel

variable {k k' : Kernel} {rsp r : UInt64} {force : Bool} {old new : TaskRef} {j w : Nat}

/-- Place `j` is the first one that is `Ready` in the order in which the places follow the current
one around the task list; the current one itself comes last. -/
def FirstReady (k : Kernel) (j : Nat) : Prop :=
  ∃ d, 1 ≤ d ∧ d ≤ k.taskList.length ∧ j = (k.currentTaskIdx + d) % k.taskList.length ∧
    k.readyAt j ∧
    ∀ e, 1 ≤ e → e < d → ¬ k.readyAt ((k.currentTaskIdx + e) % k.taskList.length)

/-- The switch from task `old`, whose frame is at `rsp`, to `new` at place `j`: the state it leaves,
and the stack pointer `r` that it returns. -/
structure SwitchesTo (k : Kernel) (rsp : UInt64) (old new : TaskRef) (j : Nat) (r : UInt64)
    (k' : Kernel) : Prop where
  returned : r = (k'.task new).kernelRsp
  saved : k'.task old = { k.task old with kernelRsp := rsp }
  others : ∀ t, t ≠ old → k'.task t = k.task t
  rest : k' = { k with
    task := k'.task
    currentTaskIdx := j
    currentTaskId := (k.task new).id.val
    rsp0 := (k.task new).kernelStackTop }

theorem nextIdx_first (cur : k.Current old) (ready : k.readyAt w) : k.FirstReady k.nextIdx := by
  have inside := readyAt_lt ready
  have start := Cyclic.next_lt cur.lt
  obtain ⟨d, less, stop, there, first⟩ :=
    Cyclic.search_place start inside ready (Cyclic.dist_lt start inside)
  have shift : ∀ e, (Cyclic.next k.taskList.length k.currentTaskIdx + e) % k.taskList.length =
      (k.currentTaskIdx + (e + 1)) % k.taskList.length := by
    intro e
    rw [Cyclic.next, Nat.mod_add_mod, Nat.add_assoc, Nat.add_comm 1 e]
  rw [shift] at stop
  refine ⟨d + 1, Nat.succ_pos d, less, stop, nextIdx_ready cur ready, fun e one before => ?_⟩
  obtain ⟨e, rfl⟩ := Nat.exists_eq_add_of_le' one
  rw [← shift]
  exact first e (by omega)

theorem movedTo_switches : k.SwitchesTo rsp old new j ((k.movedTo rsp old new j).task new).kernelRsp
    (k.movedTo rsp old new j) where
  returned := rfl
  saved := modifyTask_task_self k old fun task => { task with kernelRsp := rsp }
  others _ ne := modifyTask_task_ne k (fun task => { task with kernelRsp := rsp }) ne
  rest := rfl

/-- With a process that is `Ready`, the selected place is the current one exactly when the scheduler
stays after a search. -/
theorem moves_iff (cur : k.Current old) (ready : k.readyAt w) :
    k.Moves force old ↔ k.Searches force old ∧ k.nextIdx ≠ k.currentTaskIdx := by
  constructor
  · rintro ⟨searches, elsewhere | dead⟩
    · exact ⟨searches, elsewhere⟩
    · refine ⟨searches, fun same => ?_⟩
      obtain ⟨t, found, alive⟩ := readyAt_iff.mp (nextIdx_ready cur ready)
      rw [same] at found
      rw [cur.unique found, dead] at alive
      cases alive
  · rintro ⟨searches, elsewhere⟩
    exact ⟨searches, .inl elsewhere⟩

theorem scheduleNext_exact (free : k.isHeld .taskList = false) (cur : k.Current old)
    (ready : k.readyAt w) (rsp : UInt64) (force : Bool) :
    ∃ j new r k', k.FirstReady j ∧ k.taskList[j]? = some new ∧
      k.scheduleNext rsp force = .ok (r, k') ∧
      if k.Searches force old ∧ j ≠ k.currentTaskIdx then k.SwitchesTo rsp old new j r k'
      else r = rsp ∧ k' = k := by
  obtain ⟨new, selected, result⟩ := scheduleNext_eq rsp force free cur
  simp only [moves_iff cur ready] at result
  by_cases moves : k.Searches force old ∧ k.nextIdx ≠ k.currentTaskIdx
  · rw [if_pos moves] at result
    refine ⟨k.nextIdx, new, _, _, nextIdx_first cur ready, selected, result, ?_⟩
    rw [if_pos moves]
    exact movedTo_switches
  · rw [if_neg moves] at result
    refine ⟨k.nextIdx, new, _, _, nextIdx_first cur ready, selected, result, ?_⟩
    rw [if_neg moves]
    exact ⟨rfl, rfl⟩

/-- In every state that a run from boot reaches, and after whatever has since happened to the tick
count, to the tasks and to the end of the task list, `schedule_next` returns.  When the slice of the
current process is over, or it is terminated, or a switch is forced, it selects the first process
that is `Ready`, and if that is not the current one it switches to it; otherwise it changes
nothing. -/
theorem schedule_exact {images : List Image} {monitorStackTop : UInt64} {mem : Memory}
    {pages : UInt64 → Option PageFlags} {k0 : Kernel} {es : List Event}
    (boot : kernelMain images monitorStackTop mem pages = .ok k0) (run : Run Step k0 es k)
    (grown : k.taskList <+: k'.taskList) (idx : k'.currentTaskIdx = k.currentTaskIdx)
    (free : k'.isHeld .taskList = false) (ready : k'.readyAt w) (rsp : UInt64) (force : Bool) :
    ∃ old, k'.Current old ∧ ∃ j new r after, k'.FirstReady j ∧ k'.taskList[j]? = some new ∧
      k'.scheduleNext rsp force = .ok (r, after) ∧
      if k'.Searches force old ∧ j ≠ k'.currentTaskIdx then k'.SwitchesTo rsp old new j r after
      else r = rsp ∧ after = k' := by
  obtain ⟨old, cur⟩ := ((kernelMain_rested boot).sound.run run).current
  obtain ⟨more, longer⟩ := grown
  have cur' : k'.Current old := by
    rw [Current, idx, ← longer, List.getElem?_append_left cur.lt]
    exact cur
  exact ⟨old, cur', scheduleNext_exact free cur' ready rsp force⟩

/-- The first tick, when the first process has priority 0. -/
theorem schedule_exact_zero : ∃ k0 k, heapBoot = .ok k0 ∧ k.readyAt 1 ∧
    k = { k0.modifyTask 0 (fun task => { task with priority := 0 }) with tickCount := 1 } ∧
    ∃ old, k.Current old ∧ ∃ j new r after, k.FirstReady j ∧ k.taskList[j]? = some new ∧
      k.scheduleNext 0x444444447f60 false = .ok (r, after) ∧
      if k.Searches false old ∧ j ≠ k.currentTaskIdx then
        k.SwitchesTo 0x444444447f60 old new j r after
      else r = 0x444444447f60 ∧ after = k := by
  have evaluated : ∃ k0, heapBoot = .ok k0 ∧ k0.taskList = [0, 1] ∧ k0.held = [] ∧
      (k0.task 1).state = .ready := ⟨_, rfl, rfl, rfl, rfl⟩
  obtain ⟨k0, boot, list, held, alive⟩ := evaluated
  let k : Kernel :=
    { k0.modifyTask 0 (fun task => { task with priority := 0 }) with tickCount := 1 }
  have ready : k.readyAt 1 := by
    refine readyAt_iff.mpr ⟨1, ?_, ?_⟩
    · show k0.taskList[1]? = some 1
      rw [list]
      rfl
    · show ((k0.modifyTask 0 fun task => { task with priority := 0 }).task 1).state = .ready
      rw [modifyTask_task_ne k0 _ (by decide), alive]
  have free : k.isHeld .taskList = false := by
    show k0.held.any _ = false
    rw [held]
    rfl
  have longer : k0.taskList <+: k.taskList := List.prefix_refl _
  exact ⟨k0, k, boot, ready, rfl,
    schedule_exact boot .nil longer rfl free ready 0x444444447f60 false⟩

end Kernel

end Microkernel
