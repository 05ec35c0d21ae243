import Microkernel.Interrupts

/-! What `schedule_next` does: the decision it takes, the task it selects, and the state it leaves.
Everything else about the scheduler follows from `scheduleNext_cases`. -/

namespace Microkernel

open Lib

namespace Kernel

variable {k k' : Kernel} {rsp r : UInt64} {force : Bool} {old : TaskRef}

/-- The process that `CURRENT_TASK_IDX` names. -/
def Current (k : Kernel) (t : TaskRef) : Prop := k.taskList[k.currentTaskIdx]? = some t

theorem Current.lt (cur : k.Current old) : k.currentTaskIdx < k.taskList.length :=
  (List.getElem?_eq_some_iff.mp cur).1

theorem Current.unique {t : TaskRef} (cur : k.Current old) (cur' : k.Current t) : t = old :=
  Option.some.inj (cur'.symm.trans cur)

theorem Current.index {t : TaskRef} {i : Nat} (cur : k.Current t) (nodup : k.taskList.Nodup)
    (found : k.taskList[i]? = some t) : k.currentTaskIdx = i :=
  (List.getElem?_inj cur.lt nodup).mp (cur.trans found.symm)

def readyAt (k : Kernel) (i : Nat) : Bool :=
  (k.taskList[i]?).any fun t => (k.task t).state = .ready

theorem readyAt_iff {i : Nat} :
    k.readyAt i ↔ ∃ t, k.taskList[i]? = some t ∧ (k.task t).state = .ready := by
  simp [readyAt, Option.any_eq_true]

theorem readyAt_lt {i : Nat} (h : k.readyAt i) : i < k.taskList.length := by
  obtain ⟨t, here, -⟩ := readyAt_iff.mp h
  exact (List.getElem?_eq_some_iff.mp here).1

/-- The place that `schedule_next` selects: the first ready process after the current one, around
the task list. -/
def nextIdx (k : Kernel) : Nat :=
  Cyclic.search k.readyAt k.taskList.length k.taskList.length
    (Cyclic.next k.taskList.length k.currentTaskIdx)

/-- The slice of task `t` ends at the present tick. -/
def SliceOver (k : Kernel) (t : TaskRef) : Prop := k.tickCount % max (k.task t).priority 1 = 0

instance (t : TaskRef) : Decidable (k.SliceOver t) := inferInstanceAs (Decidable (_ = _))

/-- `schedule_next` looks for another process. -/
def Searches (k : Kernel) (force : Bool) (old : TaskRef) : Prop :=
  k.SliceOver old ∨ (k.task old).state = .terminated ∨ force

instance : Decidable (k.Searches force old) := inferInstanceAs (Decidable (_ ∨ _))

/-- `schedule_next` leaves the current process, though maybe for itself. -/
def Moves (k : Kernel) (force : Bool) (old : TaskRef) : Prop :=
  k.Searches force old ∧ (k.nextIdx ≠ k.currentTaskIdx ∨ (k.task old).state = .terminated)

instance : Decidable (k.Moves force old) := inferInstanceAs (Decidable (_ ∧ _))

/-- The state after a move from `old`, whose frame is at `rsp`, to `new` at place `j`. -/
def movedTo (k : Kernel) (rsp : UInt64) (old new : TaskRef) (j : Nat) : Kernel :=
  { k.modifyTask old fun task => { task with kernelRsp := rsp } with
    currentTaskIdx := j
    currentTaskId := (k.task new).id.val
    rsp0 := (k.task new).kernelStackTop }

theorem findReady_eq {fuel i : Nat} (hi : i < k.taskList.length) :
    k.findReady fuel i = .ok (Cyclic.search k.readyAt k.taskList.length fuel i) := by
  induction fuel generalizing i with
  | zero => rfl
  | succ fuel ih =>
    have here : k.taskList[i]? = some k.taskList[i] := List.getElem?_eq_getElem hi
    have rest := ih (Cyclic.next_lt hi)
    rw [Cyclic.next] at rest
    simp only [findReady, taskAt, here, Cyclic.search, readyAt, Option.any_some, Cyclic.next, rest]
    split <;> simp_all [bind, Except.bind]

theorem nextIdx_lt (cur : k.Current old) : k.nextIdx < k.taskList.length :=
  Cyclic.search_lt (Cyclic.next_lt cur.lt)

/-- A full search finds a ready process when there is one. -/
theorem nextIdx_ready (cur : k.Current old) {i : Nat} (ready : k.readyAt i) :
    k.readyAt k.nextIdx :=
  Cyclic.search_found (Cyclic.next_lt cur.lt) (readyAt_lt ready) ready

theorem nextIdx_none (cur : k.Current old) (none_ready : ∀ i, ¬ k.readyAt i) :
    k.nextIdx = Cyclic.next k.taskList.length k.currentTaskIdx :=
  Cyclic.search_none (fun i _ => none_ready i) (Cyclic.next_lt cur.lt)

/-- While another process is ready, the search brings the processor nearer to it. -/
theorem nextIdx_closer (cur : k.Current old) {w : Nat} (ready : k.readyAt w)
    (ne : k.currentTaskIdx ≠ w) :
    Cyclic.dist k.taskList.length k.nextIdx w <
      Cyclic.dist k.taskList.length k.currentTaskIdx w :=
  Cyclic.search_next_closer cur.lt (readyAt_lt ready) ready ne

theorem nextIdx_ne (cur : k.Current old) {w : Nat} (ready : k.readyAt w)
    (ne : k.currentTaskIdx ≠ w) : k.nextIdx ≠ k.currentTaskIdx := by
  intro same
  have closer := nextIdx_closer cur ready ne
  rw [same] at closer
  exact Nat.lt_irrefl _ closer

/-- The search ends elsewhere when another process is ready, or when none is and there is another
one. -/
theorem nextIdx_ne_iff (cur : k.Current old) :
    k.nextIdx ≠ k.currentTaskIdx ↔
      (∃ j, j ≠ k.currentTaskIdx ∧ k.readyAt j) ∨
        (¬ k.readyAt k.currentTaskIdx ∧ 2 ≤ k.taskList.length) := by
  constructor
  · intro elsewhere
    by_cases some_ready : ∃ i, k.readyAt i
    · obtain ⟨i, ready⟩ := some_ready
      exact .inl ⟨k.nextIdx, elsewhere, nextIdx_ready cur ready⟩
    · have absent : ∀ i, ¬ k.readyAt i := fun i ready => some_ready ⟨i, ready⟩
      rw [nextIdx_none cur absent, Cyclic.next_eq cur.lt] at elsewhere
      refine .inr ⟨absent _, ?_⟩
      have := cur.lt
      split at elsewhere <;> omega
  · rintro (⟨j, other, ready⟩ | ⟨unready, many⟩)
    · exact nextIdx_ne cur ready other.symm
    · by_cases some_ready : ∃ i, k.readyAt i
      · obtain ⟨i, ready⟩ := some_ready
        apply nextIdx_ne cur ready
        rintro rfl
        exact unready ready
      · rw [nextIdx_none cur fun i ready => some_ready ⟨i, ready⟩]
        exact Cyclic.next_ne cur.lt many

theorem max_one_ne_zero (p : UInt64) : max p 1 ≠ 0 := by
  intro h
  simp only [max] at h
  split at h
  next => exact absurd h (by decide)
  next big =>
    rw [h] at big
    exact big (by decide)

theorem movedTo_eq {new : TaskRef} {j : Nat} :
    ({ ({ k with currentTaskIdx := j, currentTaskId := (k.task new).id.val }).modifyTask old
        (fun task => { task with kernelRsp := rsp }) with
      rsp0 := ((({ k with currentTaskIdx := j, currentTaskId := (k.task new).id.val }).modifyTask
        old fun task => { task with kernelRsp := rsp }).task new).kernelStackTop } : Kernel) =
      k.movedTo rsp old new j := by
  rw [modifyTask_keeps Task.kernelStackTop rfl]
  rfl

/-- `schedule_next` always gives a result, and this is it. -/
theorem scheduleNext_eq (rsp : UInt64) (force : Bool) (free : k.isHeld .taskList = false)
    (cur : k.Current old) :
    ∃ new, k.taskList[k.nextIdx]? = some new ∧
      k.scheduleNext rsp force =
        .ok (if k.Moves force old then
          (((k.movedTo rsp old new k.nextIdx).task new).kernelRsp,
            k.movedTo rsp old new k.nextIdx)
        else (rsp, k)) := by
  have hn := nextIdx_lt cur
  have selected : k.taskList[k.nextIdx]? = some k.taskList[k.nextIdx] :=
    List.getElem?_eq_getElem hn
  have found : k.findReady k.taskList.length ((k.currentTaskIdx + 1) % k.taskList.length) =
      .ok k.nextIdx :=
    findReady_eq (Cyclic.next_lt cur.lt)
  have old_found : k.taskAt k.currentTaskIdx = .ok old := by
    simp only [taskAt, show k.taskList[k.currentTaskIdx]? = some old from cur]
  have new_found : k.taskAt k.nextIdx = .ok k.taskList[k.nextIdx] := by
    simp only [taskAt, selected]
  refine ⟨_, selected, ?_⟩
  unfold scheduleNext
  rw [if_neg (by simp [free]), if_pos (show 1 ≤ k.taskList.length by omega)]
  simp only [old_found, checkedRem, if_neg (max_one_ne_zero _), bind, Except.bind, found, new_found]
  by_cases searches : k.Searches force old
  · rw [if_pos (by simpa [Searches, SliceOver] using searches)]
    by_cases moves : k.nextIdx ≠ k.currentTaskIdx ∨ (k.task old).state = .terminated
    · rw [if_pos (by simpa using moves), if_pos ⟨searches, moves⟩, movedTo_eq]
      rfl
    · rw [if_neg (by simpa using moves), if_neg fun h => moves h.2]
  · rw [if_neg (by simpa [Searches, SliceOver] using searches), if_neg fun h => searches h.1]

@[simp] theorem movedTo_taskList {new : TaskRef} {j : Nat} :
    (k.movedTo rsp old new j).taskList = k.taskList := rfl

/-- A move saves the old task's stack pointer and changes nothing else of any task. -/
theorem movedTo_keeps {α : Type} (g : Task → α) {new t : TaskRef} {j : Nat}
    (h : ∀ task : Task, g { task with kernelRsp := rsp } = g task) :
    g ((k.movedTo rsp old new j).task t) = g (k.task t) := by
  show g ((k.modifyTask old fun task => { task with kernelRsp := rsp }).task t) = g (k.task t)
  exact modifyTask_keeps g (h _) t

/-- What `schedule_next` does: it stays, or it moves to the process at `nextIdx`. -/
theorem scheduleNext_cases (free : k.isHeld .taskList = false) (cur : k.Current old)
    (run : k.scheduleNext rsp force = .ok (r, k')) :
    (¬ k.Moves force old ∧ r = rsp ∧ k' = k) ∨
      (k.Moves force old ∧ ∃ new, k.taskList[k.nextIdx]? = some new ∧
        r = ((k.movedTo rsp old new k.nextIdx).task new).kernelRsp ∧
        k' = k.movedTo rsp old new k.nextIdx) := by
  obtain ⟨new, selected, result⟩ := scheduleNext_eq rsp force free cur
  rw [result] at run
  by_cases moves : k.Moves force old
  · rw [if_pos moves] at run
    cases run
    exact .inr ⟨moves, new, selected, rfl, rfl⟩
  · rw [if_neg moves] at run
    cases run
    exact .inl ⟨moves, rfl, rfl⟩

end Kernel

end Microkernel
