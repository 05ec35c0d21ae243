import Microkernel.Lib.Fifo
import Microkernel.Proof.Accesses
import Microkernel.Running

/-! No wake-up is lost in `run`, whatever tasks it has and whenever interrupts come: the processor
halts with an empty queue only, and a task that was woken waits for at most a queue of others. -/

namespace Microkernel

open Lib

/-! ### The run queue as a counter -/

/-- The identifier that is taken from the queue, and that the executor is not done with. -/
def Point.hand : Point → Option TaskId
  | .lookup id | .check id _ | .store id _ | .cache id _ => some id
  | _ => none

namespace Observation

def ticket : Observation → Option (Ticket TaskId)
  | .woken id queue => some (.asked id queue)
  | o => o.answered.map .served

theorem ticket_served {o : Observation} {id : TaskId} :
    o.ticket = some (.served id) ↔ o.answered = some id := by
  cases o <;> simp [ticket, answered]

theorem ticket_isServed (o : Observation) :
    (o.ticket.map Ticket.isServed).getD false = o.answered.isSome := by
  cases o
  case dropped id state =>
    by_cases ready : state = some .ready <;> simp [ticket, answered, ready, Ticket.isServed]
  all_goals rfl

theorem ticket_none {o : Observation} (unanswered : o.answered = none)
    (unwoken : ∀ id queue, o ≠ .woken id queue) : o.ticket = none := by
  cases o
  case woken id queue => exact absurd rfl (unwoken id queue)
  all_goals simp [ticket, unanswered]

end Observation

namespace Flow

variable {f f' : Flow} {e : RunEvent} {es : List RunEvent} {id : TaskId}

def counter (f : Flow) : Counter TaskId where
  queue := f.k.executor.taskQueue.items
  hand := f.point.hand
  log := f.k.history.filterMap Observation.ticket

/-- What the executor's accesses are for its counter. -/
abbrev Serves (f f' : Flow) : Prop := ∃ es, Run (Counter.Step 100) f.counter es f'.counter

theorem serves_same (same : f'.counter = f.counter) : f.Serves f' := ⟨[], same ▸ .nil⟩

/-- The executor is done with the identifier in its hand. -/
theorem serves_answer {o : Observation} (hand : f.point.hand = some id)
    (answered : o.ticket = some (.served id)) (idle : f'.point.hand = none)
    (queue : f'.k.executor.taskQueue = f.k.executor.taskQueue)
    (history : f'.k.history = f.k.history ++ [o]) : f.Serves f' := by
  have same : f'.counter =
      { f.counter with hand := none, log := f.counter.log ++ [.served id] } := by
    simp only [counter, idle, queue, history, List.filterMap_append, List.filterMap_cons, answered,
      List.filterMap_nil]
  exact ⟨[.serve], same ▸ .single (.serve hand)⟩

theorem serves_quiet (os : List Observation) (hand : f'.point.hand = f.point.hand)
    (queue : f'.k.executor.taskQueue = f.k.executor.taskQueue)
    (history : f'.k.history = f.k.history ++ os) (unseen : ∀ o ∈ os, o.ticket = none) :
    f.Serves f' := by
  have none_seen : os.filterMap Observation.ticket = [] := List.filterMap_eq_nil_iff.mpr unseen
  refine serves_same ?_
  simp only [counter, hand, queue, history, List.filterMap_append, none_seen, List.append_nil]

theorem Serves.trans {f'' : Flow} (first : f.Serves f') (second : f'.Serves f'') :
    f.Serves f'' := by
  obtain ⟨es, run⟩ := first
  obtain ⟨fs, more⟩ := second
  exact ⟨es ++ fs, run.append more⟩

theorem serves_wake (f : Flow) (id : TaskId) : f.Serves { f with k := f.k.wakeTask id } := by
  have log : ((f.k.wakeTask id).history.filterMap Observation.ticket) =
      f.counter.log ++ [.asked id f.counter.queue] := by
    simp [Kernel.wakeTask, Kernel.observe, counter, Observation.ticket]
  cases pushed : f.k.executor.taskQueue.push id with
  | none =>
    have full := ArrayQueue.push_none.mp pushed
    have same : Flow.counter { f with k := f.k.wakeTask id } =
        { f.counter with log := f.counter.log ++ [.asked id f.counter.queue] } := by
      rw [← log]
      simp [counter, Kernel.wakeTask, Kernel.observe, pushed]
    exact ⟨[.ask id], same ▸ .single (.full full.ge)⟩
  | some q =>
    obtain ⟨room, items⟩ := ArrayQueue.push_some pushed
    have same : Flow.counter { f with k := f.k.wakeTask id } =
        { f.counter with
          queue := f.counter.queue ++ [id]
          log := f.counter.log ++ [.asked id f.counter.queue] } := by
      rw [← log]
      simp [counter, Kernel.wakeTask, Kernel.observe, pushed, items]
    exact ⟨[.ask id], same ▸ .single (.room room)⟩

theorem serves_wakeAll (f : Flow) (ids : List TaskId) : f.Serves (f.wakeAll ids) := by
  induction ids generalizing f with
  | nil => exact serves_same rfl
  | cons id ids ih => exact (serves_wake f id).trans (ih { f with k := f.k.wakeTask id })

theorem serves_resume (f : Flow) : f.Serves f.resume := by
  unfold resume
  split
  next halted => exact serves_same (by simp only [counter, halted, Point.hand])
  next => exact serves_same rfl

theorem serves_advance (here : f.point.InRun) (step : f.advance = some f') : f.Serves f' := by
  obtain ⟨k, point, inRun, interrupts, log⟩ := f
  cases point
  all_goals dsimp only [advance] at step
  case «outside» | poll | halted => cases step
  case insert | register | enqueue => cases here
  case pop =>
    split at step
    next => cases step; exact serves_same rfl
    next id q popped =>
      cases step
      exact ⟨[.take], .single (.take (ArrayQueue.pop_some.mp popped) rfl)⟩
  case lookup id =>
    split at step
    next => cases step; exact serves_answer (o := .dropped id none) rfl rfl rfl rfl rfl
    next => cases step; exact serves_same rfl
  case check id t =>
    split at step
    next asleep =>
      cases step
      have answered : (Observation.dropped id (some (k.task t).state)).ticket =
          some (.served id) := by
        simp [Observation.ticket, Observation.answered, asleep]
      exact serves_answer rfl answered rfl rfl rfl
    next => cases step; exact serves_same rfl
  case cache id t =>
    cases step
    exact serves_answer (o := .polled id) rfl rfl rfl rfl rfl
  case isEmpty =>
    split at step
    all_goals
      cases step
      exact serves_same rfl
  case clear =>
    cases step
    have unseen : Observation.drained.ticket = none := rfl
    refine serves_quiet [.drained] ?_ rfl rfl (by simp [unseen])
    cases inRun <;> rfl
  case uncache id =>
    cases step
    have unseen : (Observation.finished id).ticket = none := rfl
    exact serves_quiet [.finished id] rfl rfl rfl (by simp [unseen])
  all_goals
    cases step
    exact serves_same rfl

theorem serves_step (here : f.point.InRun) (step : f.Driven e f') : f.Serves f' := by
  cases step with
  | cpu next => exact serves_advance here next
  | wake id => exact serves_wake f id
  | ready polled | pending polled =>
    exact serves_same (by simp only [counter, polled, Point.hand])
  | interrupt ids => exact (serves_wakeAll f ids).trans (serves_resume _)
  | other elsewhere =>
    obtain ⟨executor, os, history, unseen⟩ := elsewhere
    exact serves_quiet os rfl (congrArg Executor.taskQueue executor) history fun o mem =>
      Observation.ticket_none (unseen o mem).1 (unseen o mem).2

/-! ### The way to the halt -/

/-- From the look at the queue to the halt no interrupt comes, so the queue is still empty. -/
def Still (f : Flow) : Prop :=
  match f.point with
  | .isEmpty => f.interrupts = false
  | .enableAndHlt => f.interrupts = false ∧ f.k.executor.taskQueue.items = []
  | .halted => f.k.executor.taskQueue.items = []
  | _ => True

theorem still_advance (still : f.Still) (step : f.advance = some f') : f'.Still := by
  obtain ⟨k, point, inRun, interrupts, log⟩ := f
  cases point
  all_goals dsimp only [advance] at step
  case «outside» | poll | halted => cases step
  case enqueue t =>
    obtain ⟨q, -, rfl⟩ := Option.map_eq_some_iff.mp step
    trivial
  case insert | pop | lookup | check =>
    split at step
    all_goals
      cases step
      try trivial
  case isEmpty =>
    split at step
    next empty => cases step; exact ⟨still, empty⟩
    next => cases step; trivial
  case enableAndHlt =>
    cases step
    exact still.2
  case disable =>
    cases step
    rfl
  case clear =>
    cases step
    cases inRun <;> trivial
  all_goals
    cases step
    trivial

theorem still_step (still : f.Still) (step : f.Driven e f') : f'.Still := by
  cases step with
  | cpu next => exact still_advance still next
  | wake id polled => simp only [Still, polled]
  | ready | pending => trivial
  | interrupt ids enabled =>
    obtain ⟨k, point, inRun, interrupts, log⟩ := f
    have flag : interrupts = true := enabled
    unfold resume
    split
    · trivial
    next awake =>
      cases point
      case isEmpty => cases flag.symm.trans still
      case enableAndHlt => cases flag.symm.trans still.1
      case halted => exact absurd rfl awake
      all_goals trivial
  | other elsewhere =>
    have queue := congrArg (fun x => x.taskQueue.items) elsewhere.executor
    unfold Still at still ⊢
    dsimp only at queue ⊢
    rw [queue]
    exact still

/-! ### Whole runs -/

/-- `run` is active, and the flow is on its way through it. -/
structure Runs (f : Flow) : Prop where
  active : f.inRun = true
  here : f.point.InRun
  still : f.Still

theorem Runs.step (runs : f.Runs) (step : f.Driven e f') : f'.Runs := by
  have still := still_step runs.still step
  cases step with
  | cpu next =>
    obtain ⟨same, kept⟩ := inRun_advance next
    exact ⟨same.trans runs.active, kept runs.active runs.here, still⟩
  | wake | other => exact ⟨runs.active, runs.here, still⟩
  | ready | pending => exact ⟨runs.active, trivial, still⟩
  | interrupt ids =>
    refine ⟨?_, ?_, still⟩
    all_goals unfold resume; split
    · exact runs.active
    · exact runs.active
    · trivial
    · exact runs.here

theorem Begun.runs (begun : f.Begun) : f.Runs := by
  refine ⟨begun.inRun, ?_, ?_⟩
  · rw [begun.point]
    trivial
  · rw [Still, begun.point]
    trivial

theorem serves_run (runs : f.Runs) (run : Run Driven f es f') : f.Serves f' ∧ f'.Runs := by
  induction run with
  | nil => exact ⟨serves_same rfl, runs⟩
  | snoc _ step ih =>
    obtain ⟨served, still⟩ := ih
    exact ⟨served.trans (serves_step still.here step), still.step step⟩

/-- No wake-up is lost in `run`, whatever tasks it has and whenever interrupts come.  The processor
halts with an empty run queue only.  After a wake that finds room in the queue, or its task there,
the executor is done with the task before it is done with 101 others, and before the processor
halts. -/
theorem wakes_served (begun : f.Begun) (run : Run Driven f es f') :
    (f'.point = .halted → f'.k.executor.taskQueue.items = []) ∧
    ∀ past id queue before after,
      f'.k.history = past ++ .woken id queue :: (before ++ after) →
      (queue.length < 100 ∨ id ∈ queue) → (∀ o ∈ before, o.answered ≠ some id) →
      before.countP (fun o => o.answered.isSome) ≤ 100 ∧
        (f'.point = .halted → ∃ o ∈ after, o.answered = some id) := by
  obtain ⟨⟨fs, served⟩, runs⟩ := serves_run begun.runs run
  have empty : f'.point = .halted → f'.k.executor.taskQueue.items = [] := by
    intro halted
    have still := runs.still
    rw [Still, halted] at still
    exact still
  refine ⟨empty, fun past id queue before after split accepted unanswered => ?_⟩
  have start : f.counter.log = [] := by
    rw [counter, begun.history]
    rfl
  have asked : f'.counter.log = past.filterMap Observation.ticket ++ .asked id queue ::
      (before.filterMap Observation.ticket ++ after.filterMap Observation.ticket) := by
    rw [counter, split]
    simp [Observation.ticket]
  have served_mem : ∀ os : List Observation, .served id ∈ os.filterMap Observation.ticket ↔
      ∃ o ∈ os, o.answered = some id := by
    intro os
    simp only [List.mem_filterMap, Observation.ticket_served]
  have unserved : .served id ∉ before.filterMap Observation.ticket := by
    rw [served_mem]
    rintro ⟨o, mem, answered⟩
    exact unanswered o mem answered
  obtain ⟨within, done⟩ := Counter.served_within start f.k.executor.taskQueue.bounded served asked
    accepted unserved
  refine ⟨?_, fun halted => ?_⟩
  · rw [List.countP_filterMap] at within
    simpa only [Observation.ticket_isServed] using within
  · have idle : f'.counter.hand = none := by
      rw [counter, halted]
      rfl
    exact (served_mem after).mp (done (empty halted) idle)

/-! A task that is woken by an interrupt while it is polled. -/

def oneWaiter : Flow :=
  { oneTask with
    k := { oneTask.k with
      executor := ⟨Function.update (fun _ => none) ⟨1⟩ (some 0),
        (ArrayQueue.empty.push ⟨1⟩).getD .empty, fun _ => none⟩ }
    point := .pop
    inRun := true }

theorem oneWaiter_run :
    ∃ f', Run Driven oneWaiter (List.replicate 5 .cpu ++ [.interrupt [⟨1⟩], .pending] ++
        List.replicate 5 .cpu ++ [.pending] ++ List.replicate 5 .cpu) f' ∧ f'.point = .halted ∧
      f'.k.history =
        [.polled ⟨1⟩] ++ .woken ⟨1⟩ [] :: ([] ++ [.polled ⟨1⟩, .drained]) := by
  have polled := (Run.single (Driven.cpu (f := oneWaiter) rfl)).snoc (.cpu rfl) |>.snoc (.cpu rfl)
    |>.snoc (.cpu rfl) |>.snoc (.cpu rfl)
  have woken := polled.snoc (.interrupt [⟨1⟩] rfl) |>.snoc (.pending rfl)
  have again := woken.snoc (.cpu rfl) |>.snoc (.cpu rfl) |>.snoc (.cpu rfl) |>.snoc (.cpu rfl)
    |>.snoc (.cpu rfl) |>.snoc (.pending rfl)
  have halted := again.snoc (.cpu rfl) |>.snoc (.cpu rfl) |>.snoc (.cpu rfl) |>.snoc (.cpu rfl)
    |>.snoc (.cpu rfl)
  exact ⟨_, halted, rfl, rfl⟩

theorem wakes_served_oneWaiter : ∃ f' : Flow, f'.point = .halted ∧
    f'.k.executor.taskQueue.items = [] ∧
    ∃ o ∈ [Observation.polled ⟨1⟩, .drained], o.answered = some ⟨1⟩ := by
  obtain ⟨f', run, halted, history⟩ := oneWaiter_run
  obtain ⟨empty, served⟩ := wakes_served ⟨rfl, rfl, rfl⟩ run
  have waits := served [.polled ⟨1⟩] ⟨1⟩ [] [] [.polled ⟨1⟩, .drained] history (.inl (by decide))
    (by simp)
  exact ⟨f', halted, empty halted, waits.2 halted⟩

end Flow

end Microkernel
