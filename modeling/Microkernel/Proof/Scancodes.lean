import Microkernel.Keyboard
import Microkernel.Proof.Bookkeeping

/-! No scancode is lost, and the processor does not halt while one waits.  The task is told of
every scancode that comes after its last look at the queue: it is in the run queue, or its waker is
registered and the queue was empty.  Each window in which an interrupt can come is a point of the
code, and the invariant says what holds there. -/

namespace Microkernel

open Lib

namespace StreamPoint

/-- The scancode that `poll_next` has taken out and not returned yet. -/
def inFlight : StreamPoint → List UInt8
  | .take scancode | .yield scancode => [scancode]
  | _ => []

/-- The task is not being polled. -/
def Resting (s : StreamPoint) : Prop := s = .create ∨ s = .tryGet

/-- The accesses that the task can still do in this poll, if the queue stays empty. -/
def rank : StreamPoint → Nat
  | .take _ => 7
  | .create | .yield _ => 6
  | .tryGet => 5
  | .pop => 4
  | .register => 3
  | .popAgain => 2
  | .pend => 1

theorem Resting.rank_lt {s : StreamPoint} (resting : s.Resting) : s.rank < 7 := by
  rcases resting with rfl | rfl
  · decide
  · decide

end StreamPoint

namespace Pipeline

variable {p p' : Pipeline} {id : TaskId} {t : TaskRef} {b : UInt8} {e : PipelineEvent}
  {es : List PipelineEvent}

/-- The scancodes in the queue. -/
def waiting (p : Pipeline) : List UInt8 := (p.scancodeQueue.map ArrayQueue.items).getD []

/-- The run queue. -/
def runnable (p : Pipeline) : List TaskId := p.flow.k.executor.taskQueue.items

/-- The task will be polled, or a waker is registered for it. -/
def Watched (id : TaskId) (p : Pipeline) : Prop := id ∈ p.runnable ∨ p.waker ≠ none

/-- The task will be polled, or no scancode waits and a waker is registered for it. -/
def Answered (id : TaskId) (p : Pipeline) : Prop :=
  id ∈ p.runnable ∨ p.waiting = [] ∧ p.waker ≠ none

/-- What the two looks at the queue in `poll_next` are for: from the registration on, a scancode
that comes finds the waker; after the second look there was none before. -/
def Window (id : TaskId) (p : Pipeline) : Prop :=
  match p.stream with
  | .popAgain => p.Watched id
  | .pend => p.Answered id
  | _ => True

theorem Window.resting (resting : p.stream.Resting) : p.Window id := by
  rcases resting with unmade | made
  · simp only [Window, unmade]
  · simp only [Window, made]

/-- What holds at each point. -/
def At (id : TaskId) (t : TaskRef) (p : Pipeline) : Prop :=
  match p.flow.point with
  | .lookup i => i = id ∧ p.stream.Resting
  | .check i u | .store i u | .cache i u => i = id ∧ u = t ∧ p.stream.Resting
  | .poll i u cx => i = id ∧ u = t ∧ cx.taskId = id ∧ p.Window id
  | .pop | .clear | .disable => p.stream.Resting ∧ p.Answered id
  | .isEmpty => p.stream.Resting ∧ p.Answered id ∧ p.flow.interrupts = false
  | .enableAndHlt =>
    p.stream.Resting ∧ p.Answered id ∧ p.flow.interrupts = false ∧ p.runnable = []
  | .enable => p.stream.Resting ∧ p.Answered id ∧ p.flow.interrupts = false ∧ p.runnable ≠ []
  | .halted => p.stream.Resting ∧ p.Answered id ∧ p.runnable = []
  | _ => False

/-- `run` is active, and runs task `t` only, under `id`. -/
structure Serves (id : TaskId) (t : TaskRef) (flow : Flow) (waker : Option TaskWaker) : Prop where
  inRun : flow.inRun = true
  task : flow.k.executor.tasks id = some t
  ready : (flow.k.task t).state = .ready
  runnable : ∀ i ∈ flow.k.executor.taskQueue.items, i = id
  cached : ∀ w, flow.k.executor.wakerCache id = some w → w.taskId = id
  waker : ∀ w, waker = some w → w.taskId = id

/-- The waker with which `run_ready_tasks` polls the task wakes it. -/
theorem Serves.own {flow : Flow} {waker : Option TaskWaker} (serves : Serves id t flow waker) :
    ((flow.k.executor.wakerCache id).getD ⟨id⟩).taskId = id := by
  cases cached : flow.k.executor.wakerCache id with
  | none => rfl
  | some w => exact serves.cached w cached

/-- The invariant: every scancode that was accepted was yielded, or is in flight, or waits. -/
structure Sound (id : TaskId) (t : TaskRef) (p : Pipeline) : Prop where
  serves : Serves id t p.flow p.waker
  created : p.scancodeQueue = none ↔ p.stream = .create
  books : p.accepted = p.yielded ++ p.stream.inFlight ++ p.waiting
  here : p.At id t

/-! ### Interrupts -/

/-- What a handler leaves: it may have accepted a scancode and have run the waker. -/
structure Heard (id : TaskId) (p p' : Pipeline) : Prop where
  point : p'.flow.point = p.flow.point
  inRun : p'.flow.inRun = p.flow.inRun
  interrupts : p'.flow.interrupts = p.flow.interrupts
  tasks : p'.flow.k.executor.tasks = p.flow.k.executor.tasks
  cache : p'.flow.k.executor.wakerCache = p.flow.k.executor.wakerCache
  task : p'.flow.k.task = p.flow.k.task
  stream : p'.stream = p.stream
  yielded : p'.yielded = p.yielded
  created : p'.scancodeQueue = none ↔ p.scancodeQueue = none
  accepted : ∃ new, p'.accepted = p.accepted ++ new ∧ p'.waiting = p.waiting ++ new
  runnable : ∀ i ∈ p'.runnable, i = id
  waker : ∀ w, p'.waker = some w → p.waker = some w
  watched : p.Watched id → p'.Watched id
  answered : p.Answered id → p'.Answered id

/-- A waker pushes its task into the run queue, or the queue is full of this task. -/
theorem wakeTask_runnable {k : Kernel} (only : ∀ i ∈ k.executor.taskQueue.items, i = id) :
    id ∈ (k.wakeTask id).executor.taskQueue.items ∧
      ∀ i ∈ (k.wakeTask id).executor.taskQueue.items, i = id := by
  change id ∈ ((k.executor.taskQueue.push id).getD k.executor.taskQueue).items ∧
    ∀ i ∈ ((k.executor.taskQueue.push id).getD k.executor.taskQueue).items, i = id
  cases pushed : k.executor.taskQueue.push id with
  | none =>
    have full := ArrayQueue.push_none.mp pushed
    obtain ⟨i, mem⟩ := List.exists_mem_of_length_pos (l := k.executor.taskQueue.items) (by omega)
    exact ⟨only i mem ▸ mem, only⟩
  | some queue =>
    rw [Option.getD_some, (ArrayQueue.push_some pushed).2]
    refine ⟨List.mem_append_right _ List.mem_cons_self, fun i mem => ?_⟩
    rcases List.mem_append.mp mem with before | last
    · exact only i before
    · exact List.mem_singleton.mp last

theorem Heard.refl (sound : p.Sound id t) : Heard id p p :=
  ⟨rfl, rfl, rfl, rfl, rfl, rfl, rfl, rfl, .rfl, ⟨[], by simp⟩, sound.serves.runnable, fun _ h => h,
    fun h => h, fun h => h⟩

theorem addScancode_heard (sound : p.Sound id t) (b : UInt8) : Heard id p (p.addScancode b) := by
  have same := Heard.refl sound
  obtain ⟨flow, scancodeQueue, waker, stream, accepted, yielded⟩ := p
  unfold addScancode
  cases scancodeQueue with
  | none => exact same
  | some queue =>
    dsimp only
    split
    · exact same
    next queue' pushed =>
      have grown : accepted ++ [b] = accepted ++ [b] ∧ queue'.items = queue.items ++ [b] :=
        ⟨rfl, (ArrayQueue.push_some pushed).2⟩
      have created : (some queue' = none) ↔ (some queue = none) :=
        iff_of_false (Option.some_ne_none _) (Option.some_ne_none _)
      cases waker with
      | none =>
        refine ⟨rfl, rfl, rfl, rfl, rfl, rfl, rfl, rfl, created, ⟨[b], grown⟩,
          sound.serves.runnable, fun _ h => h, fun h => h, fun answered => ?_⟩
        rcases answered with queued | ⟨-, absent⟩
        · exact .inl queued
        · exact absurd rfl absent
      | some waker =>
        obtain rfl : waker.taskId = id := sound.serves.waker waker rfl
        obtain ⟨queued, only⟩ := wakeTask_runnable sound.serves.runnable
        exact ⟨rfl, rfl, rfl, rfl, rfl, rfl, rfl, rfl, created, ⟨[b], grown⟩, only,
          fun _ absent => (nomatch absent), fun _ => .inl queued, fun _ => .inl queued⟩

theorem Heard.window (heard : Heard id p p') (window : p.Window id) : p'.Window id := by
  unfold Window at window ⊢
  rw [heard.stream]
  cases stream : p.stream
  all_goals rw [stream] at window
  case popAgain => exact heard.watched window
  case pend => exact heard.answered window
  all_goals trivial

theorem Heard.at (heard : Heard id p p') (here : p.At id t) (enabled : p.flow.interrupts = true) :
    p'.resume.At id t := by
  cases point : p.flow.point
  case «outside» | insert | register | enqueue | remove | unregister | uncache =>
    simp only [At, point] at here
  case halted =>
    simp only [At, point] at here
    simp only [At, resume, heard.point, point, ↓reduceIte, heard.stream]
    exact ⟨here.1, heard.answered here.2.1⟩
  case isEmpty | enableAndHlt | enable => simp [At, point, enabled] at here
  all_goals
    simp only [At, point] at here
    simp only [resume, heard.point, point, reduceCtorEq, ↓reduceIte, At, heard.stream]
  case lookup | check | store | cache => exact here
  case pop | clear | disable => exact ⟨here.1, heard.answered here.2⟩
  case poll => exact ⟨here.1, here.2.1, here.2.2.1, heard.window here.2.2.2⟩

theorem resume_eq (p : Pipeline) :
    ∃ point, p.resume = { p with flow := { p.flow with point := point } } := by
  unfold resume
  split
  · exact ⟨.pop, rfl⟩
  · exact ⟨p.flow.point, rfl⟩

/-- A handler keeps what holds at every point at which it can come, and ends a `hlt`. -/
theorem Heard.sound (heard : Heard id p p') (sound : p.Sound id t)
    (enabled : p.flow.interrupts = true) : p'.resume.Sound id t := by
  have here := heard.at sound.here enabled
  obtain ⟨point, resumed⟩ := p'.resume_eq
  obtain ⟨new, accepted, waiting⟩ := heard.accepted
  rw [resumed] at here ⊢
  refine ⟨⟨?_, ?_, ?_, ?_, ?_, ?_⟩, ?_, ?_, here⟩
  · exact heard.inRun.trans sound.serves.inRun
  · exact (congrFun heard.tasks id).trans sound.serves.task
  · exact (congrArg (fun task => (task t).state) heard.task).trans sound.serves.ready
  · exact heard.runnable
  · exact fun w cached => sound.serves.cached w ((congrFun heard.cache id).symm.trans cached)
  · exact fun w registered => sound.serves.waker w (heard.waker w registered)
  · change p'.scancodeQueue = none ↔ p'.stream = .create
    rw [heard.created, heard.stream]
    exact sound.created
  · change p'.accepted = p'.yielded ++ p'.stream.inFlight ++ p'.waiting
    rw [accepted, waiting, heard.yielded, heard.stream, sound.books, List.append_assoc]

/-! ### Accesses -/

/-- The accesses of `run_ready_tasks` that are left if no interrupt comes: a bound. -/
def work (p : Pipeline) : Nat := 11 * p.runnable.length + 8 * p.waiting.length + 5

/-- Those of the next `run_ready_tasks`. -/
def later (p : Pipeline) : Nat := if p.runnable = [] then 0 else p.work

/-- The accesses that are left until `hlt`. -/
def cost (p : Pipeline) : Nat :=
  match p.flow.point with
  | .pop => p.work
  | .lookup _ => p.work + 10
  | .check .. => p.work + 9
  | .store .. => p.work + 8
  | .cache .. => p.work + 7
  | .poll .. => p.work + p.stream.rank
  | .clear => p.later + 4
  | .disable => p.later + 3
  | .isEmpty => p.later + 2
  | .enableAndHlt | .enable => p.later + 1
  | _ => 0

theorem popScancode_cases (p : Pipeline) : p.popScancode = none ∧ p.waiting = [] ∨
    ∃ b queue, p.popScancode = some (b, { p with scancodeQueue := some queue }) ∧
      p.waiting = b :: queue.items ∧ p.scancodeQueue ≠ none := by
  unfold popScancode waiting
  cases p.scancodeQueue with
  | none => exact .inl ⟨rfl, rfl⟩
  | some queue =>
    simp only [Option.bind_some, Option.map_some, Option.getD_some]
    cases popped : queue.pop with
    | none => exact .inl ⟨rfl, ArrayQueue.pop_none.mp popped⟩
    | some item =>
      obtain ⟨b, rest⟩ := item
      exact .inr ⟨b, rest, rfl, ArrayQueue.pop_some.mp popped, Option.some_ne_none queue⟩

theorem cost_poll {i : TaskId} {u : TaskRef} {cx : TaskWaker}
    (polled : p.flow.point = .poll i u cx) :
    p.cost = 11 * p.runnable.length + 8 * p.waiting.length + 5 + p.stream.rank := by
  simp only [cost, polled, work]

/-- What is to be shown of a state in which the task is polled and has its stream. -/
theorem Sound.polled {i : TaskId} {u : TaskRef} {cx : TaskWaker}
    (serves : Serves id t p.flow p.waker) (point : p.flow.point = .poll i u cx)
    (own : i = id ∧ u = t ∧ cx.taskId = id) (queue : p.scancodeQueue ≠ none)
    (begun : p.stream ≠ .create) (books : p.accepted = p.yielded ++ p.stream.inFlight ++ p.waiting)
    (window : p.Window id) : p.Sound id t := by
  refine ⟨serves, iff_of_false queue begun, books, ?_⟩
  simp only [At, point]
  exact ⟨own.1, own.2.1, own.2.2, window⟩

/-- The state in which the task has taken a scancode out of the queue. -/
theorem Sound.took {i : TaskId} {u : TaskRef} {cx : TaskWaker} {s : StreamPoint}
    {queue : ArrayQueue UInt8 100} (serves : Serves id t p.flow p.waker)
    (point : p.flow.point = .poll i u cx) (own : i = id ∧ u = t ∧ cx.taskId = id)
    (items : p.waiting = b :: queue.items) (books : p.accepted = p.yielded ++ p.waiting)
    (held : s = .yield b ∨ s = .take b) :
    ({ p with scancodeQueue := some queue, stream := s } : Pipeline).Sound id t ∧
      ({ p with scancodeQueue := some queue, stream := s } : Pipeline).cost < p.work := by
  rw [items] at books
  have moved : p.accepted = p.yielded ++ s.inFlight ++ queue.items := by
    rcases held with rfl | rfl
    · simpa [StreamPoint.inFlight] using books
    · simpa [StreamPoint.inFlight] using books
  have begun : s ≠ .create := by
    rcases held with rfl | rfl
    · simp
    · simp
  have least : s.rank ≤ 7 := by
    rcases held with rfl | rfl
    · exact Nat.le_succ 6
    · exact Nat.le_refl 7
  have window : Window id { p with scancodeQueue := some queue, stream := s } := by
    rcases held with rfl | rfl
    · trivial
    · trivial
  refine ⟨.polled serves point own (Option.some_ne_none queue) begun moved window,
    lt_of_eq_of_lt (cost_poll point) ?_⟩
  have shorter : p.waiting.length = queue.items.length + 1 := congrArg List.length items
  change 11 * p.runnable.length + 8 * queue.items.length + 5 + s.rank < p.work
  unfold work
  omega

/-- Each access of the task keeps the invariant and brings the processor nearer to `hlt`. -/
theorem read_sound {i : TaskId} {u : TaskRef} {cx : TaskWaker} (sound : p.Sound id t)
    (polled : p.flow.point = .poll i u cx) :
    ∃ p', p.read cx = some p' ∧ p'.Sound id t ∧ p'.accepted = p.accepted ∧ p'.cost < p.cost := by
  obtain ⟨serves, created, books, here⟩ := sound
  simp only [At, polled] at here
  obtain ⟨rfl, rfl, own, window⟩ := here
  rw [cost_poll polled]
  unfold read
  have taken := p.popScancode_cases
  have made : p.stream ≠ .create → p.scancodeQueue ≠ none := fun begun absent =>
    begun (created.mp absent)
  cases stream : p.stream
  all_goals
    rw [stream] at created books made
    rw [Window, stream] at window
    dsimp only
  case create =>
    have empty : p.scancodeQueue = none := created.mpr rfl
    have none_waits : p.waiting = [] := by simp [waiting, empty]
    simp only [empty, Option.isSome_none, Bool.false_eq_true, ↓reduceIte]
    rw [none_waits] at books
    refine ⟨_, rfl, .polled serves polled ⟨rfl, rfl, own⟩ (Option.some_ne_none _) (by simp) books
      trivial, rfl, lt_of_eq_of_lt (cost_poll polled) ?_⟩
    simp [waiting, empty, ArrayQueue.empty, StreamPoint.rank, Pipeline.runnable]
  case tryGet =>
    have there := made (by simp)
    rw [if_pos (Option.isSome_iff_ne_none.mpr there)]
    refine ⟨_, rfl, .polled serves polled ⟨rfl, rfl, own⟩ there (by simp) books trivial, rfl,
      lt_of_eq_of_lt (cost_poll polled) ?_⟩
    simp [waiting, StreamPoint.rank, Pipeline.runnable]
  case pop =>
    rcases taken with ⟨absent, -⟩ | ⟨b, queue, found, items, -⟩
    · rw [absent]
      refine ⟨_, rfl, .polled serves polled ⟨rfl, rfl, own⟩ (made (by simp)) (by simp) books
        trivial, rfl, lt_of_eq_of_lt (cost_poll polled) ?_⟩
      simp [waiting, StreamPoint.rank, Pipeline.runnable]
    · rw [found]
      obtain ⟨kept, less⟩ := Sound.took serves polled ⟨rfl, rfl, own⟩ items
        (by simpa [StreamPoint.inFlight] using books) (.inl rfl)
      exact ⟨_, rfl, kept, rfl, Nat.lt_add_right 4 less⟩
  case register =>
    have registered : Serves i u p.flow (some cx) :=
      { serves with waker := fun w same => by cases same; exact own }
    refine ⟨_, rfl, .polled registered polled ⟨rfl, rfl, own⟩ (made (by simp)) (by simp) books
      (.inr (Option.some_ne_none cx)), rfl, lt_of_eq_of_lt (cost_poll polled) ?_⟩
    simp [waiting, StreamPoint.rank, Pipeline.runnable]
  case popAgain =>
    rcases taken with ⟨absent, empty⟩ | ⟨b, queue, found, items, -⟩
    · rw [absent]
      have answered : p.Answered i := window.imp_right fun armed => ⟨empty, armed⟩
      refine ⟨_, rfl, .polled serves polled ⟨rfl, rfl, own⟩ (made (by simp)) (by simp) books
        answered, rfl, lt_of_eq_of_lt (cost_poll polled) ?_⟩
      simp [waiting, StreamPoint.rank, Pipeline.runnable]
    · rw [found]
      obtain ⟨kept, less⟩ := Sound.took serves polled ⟨rfl, rfl, own⟩ items
        (by simpa [StreamPoint.inFlight] using books) (.inr rfl)
      exact ⟨_, rfl, kept, rfl, Nat.lt_add_right 2 less⟩
  case take b =>
    have disarmed : Serves i u p.flow none :=
      { serves with waker := fun w absent => absurd absent.symm (Option.some_ne_none w) }
    refine ⟨_, rfl, .polled disarmed polled ⟨rfl, rfl, own⟩ (made (by simp)) (by simp) books
      trivial, rfl, lt_of_eq_of_lt (cost_poll polled) ?_⟩
    simp [waiting, StreamPoint.rank, Pipeline.runnable]
  case yield b =>
    have moved : p.accepted = p.yielded ++ [b] ++ [] ++ p.waiting := by
      simpa [StreamPoint.inFlight] using books
    refine ⟨_, rfl, .polled serves polled ⟨rfl, rfl, own⟩ (made (by simp)) (by simp) moved trivial,
      rfl, lt_of_eq_of_lt (cost_poll polled) ?_⟩
    simp [waiting, StreamPoint.rank, Pipeline.runnable]
  case pend =>
    refine ⟨_, rfl, ⟨{ serves with }, iff_of_false (made (by simp)) (by simp), books,
      ⟨.inr rfl, window⟩⟩, rfl, ?_⟩
    simp [cost, work, waiting, StreamPoint.rank, Pipeline.runnable]

/-- Each access keeps the invariant and brings the processor nearer to `hlt`. -/
theorem advance_sound (sound : p.Sound id t) (awake : p.flow.point ≠ .halted) :
    ∃ p', p.advance = some p' ∧ p'.Sound id t ∧ p'.accepted = p.accepted ∧ p'.cost < p.cost := by
  cases point : p.flow.point
  case poll i u cx =>
    simp only [advance, point]
    exact read_sound sound point
  all_goals
    obtain ⟨serves, created, books, here⟩ := sound
    simp only [At, point] at here
  case halted => exact absurd point awake
  all_goals simp only [advance, point, Flow.advance]
  case pop =>
    obtain ⟨resting, answered⟩ := here
    split
    next empty =>
      have none_left : p.runnable = [] := ArrayQueue.pop_none.mp empty
      refine ⟨_, rfl, ⟨{ serves with }, created, books, ⟨resting, answered⟩⟩, rfl, ?_⟩
      change p.later + 4 < p.cost
      simp only [cost, point, later, none_left, ↓reduceIte, work]
      omega
    next i queue popped =>
      have items := ArrayQueue.pop_some.mp popped
      have only : ∀ j ∈ i :: queue.items, j = id := items ▸ serves.runnable
      refine ⟨_, rfl, ⟨?_, created, books, ⟨only i List.mem_cons_self, resting⟩⟩, rfl, ?_⟩
      · exact { serves with runnable := fun j mem => only j (List.mem_cons_of_mem i mem) }
      · change 11 * queue.items.length + 8 * p.waiting.length + 5 + 10 < p.cost
        have shorter : p.runnable.length = queue.items.length + 1 := congrArg List.length items
        simp only [cost, point, work]
        omega
  case lookup i =>
    obtain ⟨rfl, resting⟩ := here
    rw [serves.task]
    refine ⟨_, rfl, ⟨{ serves with }, created, books, ⟨rfl, rfl, resting⟩⟩, rfl, ?_⟩
    change p.work + 9 < p.cost
    simp only [cost, point]
    omega
  case check i u =>
    obtain ⟨rfl, rfl, resting⟩ := here
    rw [if_neg (not_not.mpr serves.ready)]
    refine ⟨_, rfl, ⟨{ serves with }, created, books, ⟨rfl, rfl, resting⟩⟩, rfl, ?_⟩
    change p.work + 8 < p.cost
    simp only [cost, point]
    omega
  case store i u =>
    obtain ⟨rfl, rfl, resting⟩ := here
    refine ⟨_, rfl, ⟨{ serves with }, created, books, ⟨rfl, rfl, resting⟩⟩, rfl, ?_⟩
    change p.work + 7 < p.cost
    simp only [cost, point]
    omega
  case cache i u =>
    obtain ⟨rfl, rfl, resting⟩ := here
    refine ⟨_, rfl, ⟨?_, created, books, ⟨rfl, rfl, serves.own, Window.resting resting⟩⟩, rfl, ?_⟩
    · refine { serves with cached := fun w cached => ?_ }
      change Function.update p.flow.k.executor.wakerCache i _ i = some w at cached
      rw [Function.update_self] at cached
      cases cached
      exact serves.own
    · have least := resting.rank_lt
      change p.work + p.stream.rank < p.cost
      simp only [cost, point]
      omega
  case clear =>
    refine ⟨_, rfl, ⟨{ serves with }, created, books, ?_⟩, rfl, ?_⟩
    · simp only [At, serves.inRun]
      exact here
    · simp only [cost, point, serves.inRun, ↓reduceIte]
      exact Nat.lt_succ_self (p.later + 3)
  case disable =>
    refine ⟨_, rfl, ⟨{ serves with }, created, books, ⟨here.1, here.2, rfl⟩⟩, rfl, ?_⟩
    simp only [cost, point]
    exact Nat.lt_succ_self (p.later + 2)
  case isEmpty =>
    obtain ⟨resting, answered, masked⟩ := here
    split
    next empty =>
      refine ⟨_, rfl, ⟨{ serves with }, created, books, ⟨resting, answered, masked, empty⟩⟩, rfl,
        ?_⟩
      simp only [cost, point]
      exact Nat.lt_succ_self (p.later + 1)
    next queued =>
      refine ⟨_, rfl, ⟨{ serves with }, created, books, ⟨resting, answered, masked, queued⟩⟩, rfl,
        ?_⟩
      simp only [cost, point]
      exact Nat.lt_succ_self (p.later + 1)
  case enableAndHlt =>
    obtain ⟨resting, answered, -, empty⟩ := here
    refine ⟨_, rfl, ⟨{ serves with }, created, books, ⟨resting, answered, empty⟩⟩, rfl, ?_⟩
    simp only [cost, point]
    exact Nat.succ_pos p.later
  case enable =>
    obtain ⟨resting, answered, -, queued⟩ := here
    refine ⟨_, rfl, ⟨{ serves with }, created, books, ⟨resting, answered⟩⟩, rfl, ?_⟩
    change p.work < p.cost
    simp only [cost, point, later, queued, ↓reduceIte]
    omega

theorem Sound.step (sound : p.Sound id t) (step : p.Step e p') : p'.Sound id t := by
  cases step with
  | cpu next =>
    have awake : p.flow.point ≠ .halted := by
      intro halted
      simp [advance, halted, Flow.advance] at next
    obtain ⟨q, same, kept, -⟩ := advance_sound sound awake
    rw [next] at same
    cases same
    exact kept
  | scancode b enabled => exact (addScancode_heard sound b).sound sound enabled
  | interrupt enabled => exact (Heard.refl sound).sound sound enabled

theorem Sound.run (sound : p.Sound id t) (run : Run Pipeline.Step p es p') : p'.Sound id t :=
  run.invariant sound fun _ _ _ sound step => sound.step step

/-- At `hlt` every scancode has been yielded. -/
theorem Sound.halted (sound : p.Sound id t) (halted : p.flow.point = .halted) :
    p.waiting = [] ∧ p.yielded = p.accepted := by
  have here := sound.here
  simp only [At, halted] at here
  obtain ⟨resting, answered, empty⟩ := here
  have none_waits : p.waiting = [] := by
    rcases answered with queued | ⟨none_waits, -⟩
    · rw [empty] at queued
      cases queued
    · exact none_waits
  refine ⟨none_waits, ?_⟩
  rw [sound.books, none_waits]
  rcases resting with unmade | made
  · simp [unmade, StreamPoint.inFlight]
  · simp [made, StreamPoint.inFlight]

/-- Without interrupts the processor comes to `hlt`. -/
theorem Sound.halts (sound : p.Sound id t) :
    ∃ n p', Run Pipeline.Step p (List.replicate n .cpu) p' ∧ p'.flow.point = .halted ∧
      p'.accepted = p.accepted := by
  have start : p.Sound id t ∧ p.accepted = p.accepted := ⟨sound, rfl⟩
  obtain ⟨n, p', rest, ⟨-, same⟩, halted⟩ := Run.descends (R := Pipeline.Step) (e := .cpu)
    (f := cost) (I := fun q => q.Sound id t ∧ q.accepted = p.accepted) start
    fun q ⟨kept, same⟩ awake => by
      obtain ⟨next, step, kept', accepted, less⟩ := advance_sound kept awake
      exact ⟨next, .cpu step, ⟨kept', accepted.trans same⟩, less⟩
  exact ⟨n, p', rest, halted, same⟩

/-! ### Runs -/

/-- `run` has been called, on an executor whose one task has just been spawned and reads the
scancodes; the stream is made by the task, or was made before. -/
structure Started (id : TaskId) (t : TaskRef) (p : Pipeline) : Prop where
  point : p.flow.point = .pop
  inRun : p.flow.inRun = true
  executor : p.flow.k.executor.tasks = Function.update (fun _ => none) id (some t) ∧
    p.flow.k.executor.taskQueue.items = [id] ∧ p.flow.k.executor.wakerCache = fun _ => none
  ready : (p.flow.k.task t).state = .ready
  waker : p.waker = none
  stream : p.stream = .create ∧ p.scancodeQueue = none ∨ p.stream = .tryGet ∧ p.scancodeQueue ≠ none
  accepted : p.accepted = p.waiting
  yielded : p.yielded = []

theorem Started.sound (started : p.Started id t) : p.Sound id t := by
  obtain ⟨point, inRun, ⟨tasks, queue, cache⟩, ready, waker, stream, accepted, yielded⟩ := started
  have resting : p.stream.Resting := stream.imp And.left And.left
  refine ⟨⟨inRun, ?_, ready, ?_, ?_, ?_⟩, ?_, ?_, ?_⟩
  · rw [tasks, Function.update_self]
  · rw [queue]
    exact fun i mem => List.mem_singleton.mp mem
  · rw [cache]
    exact fun w absent => nomatch absent
  · rw [waker]
    exact fun w absent => nomatch absent
  · rcases stream with ⟨unmade, empty⟩ | ⟨made, there⟩
    · exact iff_of_true empty unmade
    · exact iff_of_false there (by simp [made])
  · rw [accepted, yielded]
    rcases resting with unmade | made
    · simp [unmade, StreamPoint.inFlight]
    · simp [made, StreamPoint.inFlight]
  · simp only [At, point]
    refine ⟨resting, .inl ?_⟩
    rw [Pipeline.runnable, queue]
    exact List.mem_cons_self

/-- In every run, whenever interrupts come: the scancodes that were accepted are those that were
yielded, the one that `poll_next` holds, and those in the queue, in this order; the processor does
not halt while one is in the queue or held; and if interrupts stop it yields all of them and halts.
-/
theorem scancodes_kept (started : p.Started id t) (run : Run Pipeline.Step p es p') :
    p'.accepted = p'.yielded ++ p'.stream.inFlight ++ p'.waiting ∧
      (p'.flow.point = .halted → p'.waiting = [] ∧ p'.yielded = p'.accepted) ∧
      ∃ n p'', Run Pipeline.Step p' (List.replicate n .cpu) p'' ∧ p''.flow.point = .halted ∧
        p''.yielded = p'.accepted := by
  have sound := started.sound.run run
  obtain ⟨n, p'', rest, halted, same⟩ := sound.halts
  exact ⟨sound.books, sound.halted, n, p'', rest, halted,
    ((sound.run rest).halted halted).2.trans same⟩

/-! An interrupt between the registration of the waker and the second look at the queue. -/

def oneReader : Pipeline where
  flow := {
    k := { ((Kernel.initial (fun _ => 0) fun _ => none).newTask 0x444444454000).2 with
      executor := ⟨Function.update (fun _ => none) ⟨1⟩ (some 0), ⟨[⟨1⟩], by decide⟩, fun _ => none⟩
      taskRegistry := Function.update (fun _ => none) ⟨1⟩ (some 0) }
    point := .pop
    inRun := true
    interrupts := true
    log := [.spawned 0] }
  scancodeQueue := none
  waker := none
  stream := .create
  accepted := []
  yielded := []

theorem oneReader_run :
    ∃ p', Run Pipeline.Step oneReader (List.replicate 9 .cpu ++ [.scancode 0x1e, .cpu]) p' ∧
      p'.stream = .take 0x1e ∧ p'.accepted = [0x1e] := by
  have polled := (Run.single (Step.cpu (p := oneReader) rfl)).snoc (.cpu rfl) |>.snoc (.cpu rfl)
    |>.snoc (.cpu rfl) |>.snoc (.cpu rfl)
  have registered := polled.snoc (.cpu rfl) |>.snoc (.cpu rfl) |>.snoc (.cpu rfl) |>.snoc (.cpu rfl)
  exact ⟨_, registered.snoc (.scancode 0x1e rfl) |>.snoc (.cpu rfl), rfl, rfl⟩

theorem scancodes_kept_oneReader :
    ∃ p' : Pipeline, p'.stream = .take 0x1e ∧ p'.accepted = [0x1e] ∧
      p'.accepted = p'.yielded ++ p'.stream.inFlight ++ p'.waiting ∧
      ∃ n p'', Run Pipeline.Step p' (List.replicate n .cpu) p'' ∧ p''.flow.point = .halted ∧
        p''.yielded = p'.accepted := by
  obtain ⟨p', run, taken, accepted⟩ := oneReader_run
  have started : oneReader.Started ⟨1⟩ 0 :=
    ⟨rfl, rfl, ⟨rfl, rfl, rfl⟩, rfl, rfl, .inl ⟨rfl, rfl⟩, rfl, rfl⟩
  obtain ⟨books, -, halts⟩ := scancodes_kept started run
  exact ⟨p', taken, accepted, books, halts⟩

end Pipeline

end Microkernel
