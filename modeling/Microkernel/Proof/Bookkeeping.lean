import Microkernel.Boot
import Microkernel.Interleaving
import Microkernel.Lib.Promise
import Microkernel.Lib.Run
import Microkernel.Proof.Polls

/-! The executor's tables between its accesses.  Whatever function is under way, the tables that it
is about to leave are in order: this is kept by every access and by every waker, and says at the
end of the function that the tables are in order. -/

namespace Microkernel

open Lib

namespace Kernel

variable {k k' : Kernel} {log : List Mark} {id : TaskId} {t : TaskRef}

/-- The tables are in order: they hold the tasks that were spawned and have not finished, under
their identifiers, and no task was polled after it finished. -/
structure Ledger (k : Kernel) (log : List Mark) : Prop where
  entry : ∀ id t, k.executor.tasks id = some t →
    (k.task t).id = id ∧ .spawned t ∈ log ∧ .ready t ∉ log
  registry : k.taskRegistry = k.executor.tasks
  wakers : ∀ id, k.executor.wakerCache id ≠ none → k.executor.tasks id ≠ none
  created : ∀ t, .spawned t ∈ log → t < k.nextRef
  finished : ∀ t, .ready t ∈ log → .spawned t ∈ log
  once : ∀ past t later, log = past ++ .polled t :: later → .ready t ∉ past

namespace Ledger

theorem congr (ledger : k.Ledger log) (tasks : k'.executor.tasks = k.executor.tasks)
    (wakers : k'.executor.wakerCache = k.executor.wakerCache)
    (registry : k'.taskRegistry = k.taskRegistry) (created : k.nextRef ≤ k'.nextRef)
    (ids : ∀ t, t < k.nextRef → (k'.task t).id = (k.task t).id) : k'.Ledger log where
  entry id t found := by
    rw [tasks] at found
    obtain ⟨same, spawned, live⟩ := ledger.entry id t found
    exact ⟨(ids t (ledger.created t spawned)).trans same, spawned, live⟩
  registry := by rw [registry, tasks, ledger.registry]
  wakers id cached := by
    rw [wakers] at cached
    rw [tasks]
    exact ledger.wakers id cached
  created t spawned := Nat.lt_of_lt_of_le (ledger.created t spawned) created
  finished := ledger.finished
  once := ledger.once

/-- A mark that is no `Poll::Ready` and no poll of a finished task. -/
theorem mark (ledger : k.Ledger log) {m : Mark} (created : ∀ t, m = .spawned t → t < k.nextRef)
    (unfinished : ∀ t, m ≠ .ready t) (polled : ∀ t, m = .polled t → .ready t ∉ log) :
    k.Ledger (log ++ [m]) where
  entry id t found := by
    obtain ⟨same, spawned, live⟩ := ledger.entry id t found
    refine ⟨same, List.mem_append_left _ spawned, fun mem => ?_⟩
    rcases List.mem_append.mp mem with before | last
    · exact live before
    · exact unfinished t (List.mem_singleton.mp last).symm
  registry := ledger.registry
  wakers := ledger.wakers
  created t mem := by
    rcases List.mem_append.mp mem with before | last
    · exact ledger.created t before
    · exact created t (List.mem_singleton.mp last).symm
  finished t mem := by
    rcases List.mem_append.mp mem with before | last
    · exact List.mem_append_left _ (ledger.finished t before)
    · exact absurd (List.mem_singleton.mp last).symm (unfinished t)
  once past t later split := by
    rcases Promise.snoc_split split with ⟨-, rfl, same⟩ | ⟨before, -, earlier⟩
    · exact polled t same.symm
    · exact ledger.once past t before earlier

theorem insert (ledger : k.Ledger log) (spawned : .spawned t ∈ log) (live : .ready t ∉ log) :
    ((k.insertTask t).registerTask t).Ledger log where
  entry id u found := by
    change Function.update k.executor.tasks (k.task t).id (some t) id = some u at found
    by_cases here : id = (k.task t).id
    · rw [here, Function.update_self] at found
      cases found
      exact ⟨here.symm, spawned, live⟩
    · rw [Function.update_of_ne here] at found
      exact ledger.entry id u found
  registry := by
    change Function.update k.taskRegistry _ _ = Function.update k.executor.tasks _ _
    rw [ledger.registry]
    rfl
  wakers id cached := by
    change Function.update k.executor.tasks (k.task t).id (some t) id ≠ none
    by_cases here : id = (k.task t).id
    · rw [here, Function.update_self]
      exact Option.some_ne_none t
    · rw [Function.update_of_ne here]
      exact ledger.wakers id cached
  created := ledger.created
  finished := ledger.finished
  once := ledger.once

theorem cache (ledger : k.Ledger log) (found : k.executor.tasks id = some t) :
    (k.cachedWaker id).2.Ledger (log ++ [.polled t]) := by
  have live := (ledger.entry id t found).2.2
  have marked := ledger.mark (m := .polled t) (fun u same => nomatch same)
    (fun u same => nomatch same) (fun u same => by cases same; exact live)
  refine { marked with wakers := fun other cached => ?_ }
  change Function.update k.executor.wakerCache id _ other ≠ none at cached
  by_cases here : other = id
  · rw [here]
    exact fun absent => nomatch absent.symm.trans found
  · rw [Function.update_of_ne here] at cached
    exact ledger.wakers other cached

/-- The task that finishes is in the tables under its identifier only. -/
theorem finish (ledger : k.Ledger log) (found : k.executor.tasks id = some t) :
    (((k.removeTask id).unregisterTask id).uncacheWaker id).Ledger (log ++ [.ready t]) where
  entry other u there := by
    change Function.update k.executor.tasks id none other = some u at there
    by_cases here : other = id
    · rw [here, Function.update_self] at there
      cases there
    · rw [Function.update_of_ne here] at there
      obtain ⟨same, spawned, live⟩ := ledger.entry other u there
      refine ⟨same, List.mem_append_left _ spawned, fun mem => ?_⟩
      rcases List.mem_append.mp mem with before | last
      · exact live before
      · cases List.mem_singleton.mp last
        exact here (same.symm.trans (ledger.entry id t found).1)
  registry := by
    change Function.update k.taskRegistry id none = Function.update k.executor.tasks id none
    rw [ledger.registry]
  wakers other cached := by
    change Function.update k.executor.wakerCache id none other ≠ none at cached
    change Function.update k.executor.tasks id none other ≠ none
    by_cases here : other = id
    · rw [here, Function.update_self] at cached
      exact absurd rfl cached
    · rw [Function.update_of_ne here] at cached ⊢
      exact ledger.wakers other cached
  created u mem := by
    rcases List.mem_append.mp mem with before | last
    · exact ledger.created u before
    · cases List.mem_singleton.mp last
  finished u mem := by
    rcases List.mem_append.mp mem with before | last
    · exact List.mem_append_left _ (ledger.finished u before)
    · cases List.mem_singleton.mp last
      exact List.mem_append_left _ (ledger.entry id t found).2.1
  once past u later split := by
    rcases Promise.snoc_split split with ⟨-, rfl, same⟩ | ⟨before, -, earlier⟩
    · cases same
    · exact ledger.once past u before earlier

end Ledger

end Kernel

/-! ### Functions under way -/

namespace Point

variable {p : Point} {k k' : Kernel} {log : List Mark}

/-- The tables as the function that is at `p` is about to leave them. -/
def settle : Point → Kernel → Kernel
  | .register t, k => k.registerTask t
  | .remove id, k => ((k.removeTask id).unregisterTask id).uncacheWaker id
  | .unregister id, k => (k.unregisterTask id).uncacheWaker id
  | .uncache id, k => k.uncacheWaker id
  | _, k => k

/-- What is known of the task at hand. -/
def AtHand : Point → Kernel → List Mark → Prop
  | .insert t, _, log => .spawned t ∈ log ∧ .ready t ∉ log
  | .register t, _, log => .spawned t ∈ log
  | .check id t, k, _ | .store id t, k, _ | .cache id t, k, _ | .poll id t _, k, _ =>
    k.executor.tasks id = some t
  | _, _, _ => True

structure Sound (p : Point) (k : Kernel) (log : List Mark) : Prop where
  ledger : (p.settle k).Ledger log
  atHand : p.AtHand k log

/-- No function is under way, or `sleep_if_idle` is, which does not touch the tables. -/
def Between : Point → Prop
  | .outside | .disable | .isEmpty | .enableAndHlt | .halted | .enable => True
  | _ => False

theorem settle_between (between : p.Between) : p.settle k = k := by
  cases p
  case register | remove | unregister | uncache => cases between
  all_goals rfl

/-- A change that leaves the tables and the identifiers of the task objects alone. -/
theorem Sound.congr (sound : p.Sound k log) (tasks : k'.executor.tasks = k.executor.tasks)
    (wakers : k'.executor.wakerCache = k.executor.wakerCache)
    (registry : k'.taskRegistry = k.taskRegistry) (created : k.nextRef ≤ k'.nextRef)
    (ids : ∀ t, t < k.nextRef → (k'.task t).id = (k.task t).id) : p.Sound k' log := by
  obtain ⟨ledger, atHand⟩ := sound
  have wakers' := fun id : TaskId => congrArg (fun g => Function.update g id none) wakers
  have registry' := fun id : TaskId => congrArg (fun g => Function.update g id none) registry
  cases p
  case register t =>
    have same : (k'.task t).id = (k.task t).id := ids t (ledger.created t atHand)
    refine ⟨ledger.congr tasks wakers ?_ created ids, atHand⟩
    change Function.update k'.taskRegistry _ _ = Function.update k.taskRegistry _ _
    rw [registry, same]
  case remove id =>
    have tasks' := congrArg (fun g => Function.update g id none) tasks
    exact ⟨ledger.congr tasks' (wakers' id) (registry' id) created ids, trivial⟩
  case unregister id =>
    exact ⟨ledger.congr tasks (wakers' id) (registry' id) created ids, trivial⟩
  case uncache id => exact ⟨ledger.congr tasks (wakers' id) registry created ids, trivial⟩
  case check | store | cache | poll =>
    exact ⟨ledger.congr tasks wakers registry created ids, (congrFun tasks _).trans atHand⟩
  all_goals exact ⟨ledger.congr tasks wakers registry created ids, atHand⟩

end Point

namespace Flow

variable {f f' : Flow} {e : FlowEvent} {es : List FlowEvent}

abbrev Sound (f : Flow) : Prop := f.point.Sound f.k f.log

/-- Every access keeps the tables in order. -/
theorem sound_advance (sound : f.Sound) (step : f.advance = some f') : f'.Sound := by
  obtain ⟨k, point, inRun, interrupts, log⟩ := f
  obtain ⟨ledger, atHand⟩ := sound
  cases point
  all_goals dsimp only [advance] at step
  case «outside» | poll | halted => cases step
  case insert t =>
    split at step
    · cases step
    · cases step
      exact ⟨ledger.insert atHand.1 atHand.2, atHand.1⟩
  case enqueue t =>
    obtain ⟨q, -, rfl⟩ := Option.map_eq_some_iff.mp step
    exact ⟨ledger.congr rfl rfl rfl le_rfl fun _ _ => rfl, trivial⟩
  case pop =>
    split at step
    all_goals cases step
    · exact ⟨ledger, trivial⟩
    · exact ⟨ledger.congr rfl rfl rfl le_rfl fun _ _ => rfl, trivial⟩
  case lookup id =>
    split at step
    next => cases step; exact ⟨ledger.congr rfl rfl rfl le_rfl fun _ _ => rfl, trivial⟩
    next found => cases step; exact ⟨ledger, found⟩
  case check id t =>
    split at step
    all_goals cases step
    · exact ⟨ledger.congr rfl rfl rfl le_rfl fun _ _ => rfl, trivial⟩
    · exact ⟨ledger, atHand⟩
  case store id t =>
    cases step
    exact ⟨ledger.congr rfl rfl rfl le_rfl fun _ _ => rfl, atHand⟩
  case cache id t =>
    cases step
    exact ⟨(ledger.cache atHand).congr rfl rfl rfl le_rfl fun _ _ => rfl, atHand⟩
  case isEmpty =>
    split at step
    all_goals
      cases step
      exact ⟨ledger, trivial⟩
  case clear =>
    cases step
    have kept : ({ k with currentTaskId := 0 }.observe .drained).Ledger log :=
      ledger.congr rfl rfl rfl le_rfl fun _ _ => rfl
    cases inRun
    · exact ⟨kept, trivial⟩
    · exact ⟨kept, trivial⟩
  case uncache id =>
    cases step
    exact ⟨ledger.congr rfl rfl rfl le_rfl fun _ _ => rfl, trivial⟩
  all_goals
    cases step
    exact ⟨ledger, trivial⟩

/-- So does everything else that can happen. -/
theorem sound_step (sound : f.Sound) (step : f.Step e f') : f'.Sound := by
  cases step with
  | spawn here created fresh =>
    obtain ⟨ledger, -⟩ := sound
    rw [here] at ledger
    have marked := ledger.mark (m := .spawned _) (fun t same => by cases same; exact created)
      (fun t same => nomatch same) (fun t same => nomatch same)
    refine ⟨marked, List.mem_append_right _ List.mem_cons_self, fun mem => ?_⟩
    rcases List.mem_append.mp mem with before | last
    · exact fresh (ledger.finished _ before)
    · cases List.mem_singleton.mp last
  | runReadyTasks here | run here | resume here | pending here =>
    obtain ⟨ledger, -⟩ := sound
    rw [here] at ledger
    exact ⟨ledger, trivial⟩
  | cpu next => exact sound_advance sound next
  | ready here =>
    obtain ⟨ledger, atHand⟩ := sound
    rw [here] at ledger atHand
    exact ⟨ledger.finish atHand, trivial⟩
  | wake id => exact sound.congr rfl rfl rfl le_rfl fun _ _ => rfl
  | other same =>
    exact sound.congr (congrArg Executor.tasks same.executor)
      (congrArg Executor.wakerCache same.executor) same.registry same.created same.ids

theorem sound_run (sound : f.Sound) (run : Run Flow.Step f es f') : f'.Sound :=
  run.invariant sound fun _ _ _ sound step => sound_step sound step

/-! ### The history -/

end Flow

namespace Kernel

variable {k k' : Kernel}

theorem futures_observe {o : Observation} (other : o.ofFuture = false) :
    (k.observe o).futures = k.futures := by
  simp [futures, observe, other]

theorem futures_made {o : Observation} (made : o.ofFuture = true) :
    (k.observe o).futures = k.futures ++ [o] := by
  simp [futures, observe, made]

theorem futures_receive (t : TaskRef) (cx : TaskWaker) :
    (k.ipcReceivePoll t cx).2.futures = k.futures := by
  unfold ipcReceivePoll
  split
  · exact futures_observe rfl
  · rfl

/-- The observations of a log, over another kernel with the same identifiers. -/
theorem observations_congr {log : List Mark}
    (polled : ∀ t, .polled t ∈ log → (k'.task t).id = (k.task t).id)
    (ready : ∀ t, .ready t ∈ log → (k'.task t).id = (k.task t).id) :
    log.filterMap (Mark.observation k') = log.filterMap (Mark.observation k) := by
  refine List.filterMap_congr fun m mem => ?_
  cases m with
  | spawned t => rfl
  | polled t => exact congrArg (fun id => some (Observation.polled id)) (polled t mem)
  | ready t => exact congrArg (fun id => some (Observation.finished id)) (ready t mem)

end Kernel

/-- What the history lacks while a task that has finished leaves the tables. -/
def Point.owed : Point → List Observation
  | .remove id | .unregister id | .uncache id => [.finished id]
  | _ => []

namespace Flow

variable {f f' : Flow} {e : FlowEvent} {es : List FlowEvent}

/-- The history has the observations of the log. -/
structure Tied (f : Flow) : Prop where
  marks : f.k.futures ++ f.point.owed = f.log.filterMap (Mark.observation f.k)
  created : ∀ t, .polled t ∈ f.log → t < f.k.nextRef

theorem Sound.ready_created (sound : f.Sound) {t : TaskRef} (ready : .ready t ∈ f.log) :
    t < f.k.nextRef := by
  have created := sound.ledger.created t (sound.ledger.finished t ready)
  have same : (f.point.settle f.k).nextRef = f.k.nextRef := by cases f.point <;> rfl
  rwa [same] at created

/-- A task in `tasks` is there under its own identifier, whatever is under way. -/
theorem Sound.entry (sound : f.Sound) {id : TaskId} {t : TaskRef}
    (here : f.point.settle f.k = f.k) (found : f.k.executor.tasks id = some t) :
    (f.k.task t).id = id ∧ t < f.k.nextRef := by
  have ledger := sound.ledger
  rw [here] at ledger
  obtain ⟨same, spawned, -⟩ := ledger.entry id t found
  exact ⟨same, ledger.created t spawned⟩

theorem Tied.congr (tied : f.Tied) (sound : f.Sound) (futures : f'.k.futures = f.k.futures)
    (owed : f'.point.owed = f.point.owed) (log : f'.log = f.log)
    (created : f.k.nextRef ≤ f'.k.nextRef)
    (ids : ∀ t, t < f.k.nextRef → (f'.k.task t).id = (f.k.task t).id) : f'.Tied where
  marks := by
    have same : f.log.filterMap (Mark.observation f'.k) = f.log.filterMap (Mark.observation f.k) :=
      Kernel.observations_congr (fun t mem => ids t (tied.created t mem))
        fun t mem => ids t (sound.ready_created mem)
    rw [futures, owed, log, same, tied.marks]
  created t mem := by
    rw [log] at mem
    exact Nat.lt_of_lt_of_le (tied.created t mem) created

/-- A mark whose observation is made, or is owed from now on. -/
theorem Tied.mark (tied : f.Tied) {m : Mark} {k : Kernel} {point : Point}
    (tasks : k.task = f.k.task) (created : k.nextRef = f.k.nextRef)
    (polled : ∀ t, m = .polled t → t < f.k.nextRef)
    (made : k.futures ++ point.owed =
      f.k.futures ++ f.point.owed ++ (Mark.observation f.k m).toList) :
    Tied { f with k := k, point := point, log := f.log ++ [m] } where
  marks := by
    have same : Mark.observation k = Mark.observation f.k := by
      funext m
      simp only [Mark.observation, tasks]
    show k.futures ++ point.owed = (f.log ++ [m]).filterMap (Mark.observation k)
    rw [made, same, tied.marks, List.filterMap_append]
    rfl
  created t mem := by
    show t < k.nextRef
    rw [created]
    rcases List.mem_append.mp mem with before | last
    · exact tied.created t before
    · exact polled t (List.mem_singleton.mp last).symm

theorem tied_advance (sound : f.Sound) (tied : f.Tied) (step : f.advance = some f') : f'.Tied := by
  obtain ⟨k, point, inRun, interrupts, log⟩ := f
  cases point
  all_goals dsimp only [advance] at step
  case «outside» | poll | halted => cases step
  case insert t =>
    split at step
    · cases step
    · cases step
      exact tied.congr sound rfl rfl rfl le_rfl fun _ _ => rfl
  case enqueue t =>
    obtain ⟨q, -, rfl⟩ := Option.map_eq_some_iff.mp step
    exact tied.congr sound rfl rfl rfl le_rfl fun _ _ => rfl
  case pop | isEmpty =>
    split at step
    all_goals
      cases step
      exact tied.congr sound rfl rfl rfl le_rfl fun _ _ => rfl
  case lookup id =>
    split at step
    all_goals cases step
    · exact tied.congr sound (Kernel.futures_observe rfl) rfl rfl le_rfl fun _ _ => rfl
    · exact tied.congr sound rfl rfl rfl le_rfl fun _ _ => rfl
  case check id t =>
    split at step
    all_goals cases step
    · exact tied.congr sound (Kernel.futures_observe rfl) rfl rfl le_rfl fun _ _ => rfl
    · exact tied.congr sound rfl rfl rfl le_rfl fun _ _ => rfl
  case cache id t =>
    cases step
    obtain ⟨same, created⟩ := sound.entry rfl sound.atHand
    refine tied.mark rfl rfl (fun u mark => by cases mark; exact created) ?_
    rw [Kernel.futures_made rfl, Mark.observation, same]
    show k.futures ++ [Observation.polled id] ++ [] = k.futures ++ [] ++ [Observation.polled id]
    rw [List.append_nil, List.append_nil]
  case clear =>
    cases step
    have drained : ({ k with currentTaskId := 0 }.observe .drained).futures = k.futures :=
      Kernel.futures_observe rfl
    refine tied.congr sound drained ?_ rfl le_rfl fun _ _ => rfl
    cases inRun <;> rfl
  case uncache id =>
    cases step
    refine ⟨?_, tied.created⟩
    rw [Kernel.futures_made rfl]
    exact (List.append_nil _).trans tied.marks
  all_goals
    cases step
    exact tied.congr sound rfl rfl rfl le_rfl fun _ _ => rfl

theorem tied_step (sound : f.Sound) (tied : f.Tied) (step : Guarded Aside Flow.Step f e f') :
    f'.Tied := by
  obtain ⟨aside, step⟩ := step
  cases step with
  | spawn here created fresh =>
    have before : f.point.owed = [] := by rw [here]; rfl
    refine tied.mark rfl rfl (fun u mark => nomatch mark) ?_
    rw [before, List.append_nil]
    rfl
  | runReadyTasks here | run here | resume here | pending here =>
    refine tied.congr sound rfl ?_ rfl le_rfl fun _ _ => rfl
    rw [here]
    rfl
  | cpu next => exact tied_advance sound tied next
  | @ready id t cx here =>
    have atHand := sound.atHand
    rw [here] at atHand
    obtain ⟨same, created⟩ := sound.entry (by rw [here]; rfl) atHand
    have before : f.point.owed = [] := by rw [here]; rfl
    refine tied.mark rfl rfl (fun u mark => nomatch mark) ?_
    rw [before, List.append_nil, Mark.observation, same]
    rfl
  | wake id => exact tied.congr sound (Kernel.futures_observe rfl) rfl rfl le_rfl fun _ _ => rfl
  | other same => exact tied.congr sound aside rfl rfl same.created same.ids

theorem tied_run (sound : f.Sound) (tied : f.Tied) (run : Run (Guarded Aside Flow.Step) f es f') :
    f'.Tied := by
  have both : f'.Sound ∧ f'.Tied :=
    run.invariant (I := fun f => f.Sound ∧ f.Tied) ⟨sound, tied⟩ fun _ _ _ kept step =>
      ⟨sound_step kept.1 step.2, tied_step kept.1 kept.2 step⟩
  exact both.2

/-! ### Between the functions -/

/-- The executor's tables are new, and none of its functions has been called. -/
structure Fresh (f : Flow) : Prop where
  point : f.point = .outside
  log : f.log = []
  executor : f.k.executor = ⟨fun _ => none, .empty, fun _ => none⟩
  registry : f.k.taskRegistry = fun _ => none

theorem Fresh.sound (fresh : f.Fresh) : f.Sound := by
  obtain ⟨k, point, inRun, interrupts, log⟩ := f
  obtain ⟨here, empty, executor, registry⟩ := fresh
  cases here
  cases empty
  refine ⟨?_, trivial⟩
  constructor
  · intro id t found
    change k.executor.tasks id = some t at found
    rw [executor] at found
    cases found
  · exact registry.trans (congrArg Executor.tasks executor).symm
  · intro id cached
    change k.executor.wakerCache id ≠ none at cached
    rw [executor] at cached
    exact absurd rfl cached
  · exact fun t mem => nomatch mem
  · exact fun t mem => nomatch mem
  · intro past t later split
    simp at split

/-- Every task in `tasks` is there under its identifier, and in the registry; wakers are cached for
tasks in `tasks` only; a task that has finished is in neither table, and a waker is cached under its
identifier only for a task that has not finished and was given the same one. -/
structure Books (f : Flow) : Prop where
  entry : ∀ id t, f.k.executor.tasks id = some t →
    (f.k.task t).id = id ∧ f.k.taskRegistry id = some t
  wakers : ∀ id, f.k.executor.wakerCache id ≠ none → f.k.executor.tasks id ≠ none
  finished : ∀ t, .ready t ∈ f.log →
    (∀ id, f.k.executor.tasks id ≠ some t) ∧ (∀ id, f.k.taskRegistry id ≠ some t) ∧
      (f.k.executor.wakerCache (f.k.task t).id ≠ none →
        ∃ u, .ready u ∉ f.log ∧ f.k.executor.tasks (f.k.task t).id = some u)

theorem Sound.books (sound : f.Sound) (between : f.point.Between) : f.Books := by
  have ledger := sound.ledger
  rw [Point.settle_between between] at ledger
  have absent : ∀ t, .ready t ∈ f.log → ∀ id, f.k.executor.tasks id ≠ some t :=
    fun t ready id found => (ledger.entry id t found).2.2 ready
  refine ⟨fun id t found => ⟨(ledger.entry id t found).1, ?_⟩, ledger.wakers,
    fun t ready => ⟨absent t ready, ?_, fun cached => ?_⟩⟩
  · rw [ledger.registry, found]
  · rw [ledger.registry]
    exact absent t ready
  · obtain ⟨u, found⟩ := Option.ne_none_iff_exists'.mp (ledger.wakers _ cached)
    exact ⟨u, (ledger.entry _ u found).2.2, found⟩

/-- In every run of a new executor its tables are in order whenever none of its functions is under
way, and no future is polled after it has returned `Poll::Ready`. -/
theorem books_kept (fresh : f.Fresh) (run : Run Flow.Step f es f') :
    (f'.point.Between → f'.Books) ∧
      ∀ past t later, f'.log = past ++ .polled t :: later → .ready t ∉ past := by
  have sound := sound_run fresh.sound run
  exact ⟨sound.books, sound.ledger.once⟩

/-! A task that finishes and is woken once more. -/

def oneTask : Flow where
  k := ((Kernel.initial (fun _ => 0) fun _ => none).newTask 0x444444454000).2
  point := .outside
  inRun := false
  interrupts := true
  log := []

theorem oneTask_run :
    ∃ f', Run Flow.Step oneTask
        ([.spawn 0, .cpu, .cpu, .cpu, .runReadyTasks] ++ List.replicate 5 .cpu ++
          [.ready, .cpu, .cpu, .wake ⟨1⟩] ++ List.replicate 5 .cpu) f' ∧
      f'.point = .outside ∧ f'.log = [.spawned 0, .polled 0, .ready 0] := by
  have spawned := (Run.single (Flow.Step.spawn (f := oneTask) (t := 0) rfl (by decide)
    (by decide))).snoc (.cpu rfl) |>.snoc (.cpu rfl) |>.snoc (.cpu rfl)
  have polled := spawned.snoc (.runReadyTasks rfl) |>.snoc (.cpu rfl) |>.snoc (.cpu rfl)
    |>.snoc (.cpu rfl) |>.snoc (.cpu rfl) |>.snoc (.cpu rfl)
  have finished := polled.snoc (.ready rfl) |>.snoc (.cpu rfl) |>.snoc (.cpu rfl)
    |>.snoc (.wake ⟨1⟩)
  have drained := finished.snoc (.cpu rfl) |>.snoc (.cpu rfl) |>.snoc (.cpu rfl)
    |>.snoc (.cpu rfl) |>.snoc (.cpu rfl)
  exact ⟨_, drained, rfl, rfl⟩

theorem books_kept_oneTask :
    ∃ f' : Flow, f'.log = [.spawned 0, .polled 0, .ready 0] ∧ f'.Books := by
  obtain ⟨f', run, outside, log⟩ := oneTask_run
  have fresh : oneTask.Fresh := ⟨rfl, rfl, rfl, rfl⟩
  exact ⟨f', log, (books_kept fresh run).1 (by rw [outside]; trivial)⟩

/-! ### Whole functions

What `Kernel.spawn` and `Kernel.runReadyTasks` do at once, the accesses do one after another. -/

/-- An access of the executor's own code. -/
theorem access (next : f.advance = some f') : Guarded Aside Flow.Step f .cpu f' :=
  ⟨trivial, .cpu next⟩

theorem spawn_flow {t : TaskRef} {k' : Kernel} (here : f.point = .insert t)
    (run : f.k.spawn t = .ok k') :
    Run (Guarded Aside Flow.Step) f [.cpu, .cpu, .cpu] { f with k := k', point := .outside } := by
  obtain ⟨k, point, inRun, interrupts, log⟩ := f
  cases here
  simp only [Kernel.spawn] at run
  split at run
  · cases run
  next absent =>
    split at run
    · cases run
    next q pushed =>
      cases run
      have inserted : Guarded Aside Flow.Step ⟨k, .insert t, inRun, interrupts, log⟩ .cpu
          ⟨k.insertTask t, .register t, inRun, interrupts, log⟩ := access (if_neg absent)
      refine ((Run.single inserted).snoc (access rfl)).snoc (access ?_)
      exact Option.map_eq_some_iff.mpr ⟨q, pushed, rfl⟩

theorem sameTables_receive {k : Kernel} (t : TaskRef) (cx : TaskWaker) :
    k.SameTables (k.ipcReceivePoll t cx).2 := by
  have fixed := Kernel.fixed_ipcReceivePoll (k := k) t cx
  have created : (k.ipcReceivePoll t cx).2.nextRef = k.nextRef :=
    congrArg Kernel.Fixed.nextRef fixed
  have ids : ∀ u, ((k.ipcReceivePoll t cx).2.task u).id = (k.task u).id := fun u =>
    congrArg Prod.fst (congrFun (congrArg Kernel.Fixed.identity fixed) u)
  refine ⟨?_, ?_, created.ge, fun u _ => ids u⟩
  all_goals
    unfold Kernel.ipcReceivePoll
    split <;> rfl

/-- The code of a future is a series of wakers and of changes elsewhere. -/
theorem poll_flow {id : TaskId} {t : TaskRef} {cx : TaskWaker} {script : PollScript} {done : Bool}
    {k' : Kernel} (here : f.point = .poll id t cx) (locked : f.k.isHeld .kernelExecutor)
    (run : f.k.poll cx script = .ok (done, k')) :
    ∃ es, Run (Guarded Aside Flow.Step) f es { f with k := k' } := by
  induction script generalizing f with
  | ready | pending =>
    cases run
    exact ⟨[], .nil⟩
  | wake other rest ih =>
    obtain ⟨es, more⟩ := ih (f := { f with k := f.k.wakeTask other }) here locked run
    exact ⟨[.wake other] ++ es, (Run.single ⟨trivial, .wake other⟩).append more⟩
  | receive u next ih =>
    have same := Kernel.ipcReceivePoll_held (k := f.k) u cx
    obtain ⟨es, more⟩ := ih _ (f := { f with k := (f.k.ipcReceivePoll u cx).2 }) here
      (by rw [Kernel.isHeld_congr same, locked]) run
    exact ⟨[.other _] ++ es,
      (Run.single ⟨Kernel.futures_receive u cx, .other (sameTables_receive u cx)⟩).append more⟩
  | spawn top rest ih =>
    obtain ⟨mid, spawned, -⟩ := bind_ok run
    rw [Kernel.spawnStatic_locked locked] at spawned
    cases spawned

/-- One turn of the loop of `run_ready_tasks`. -/
theorem runTask_flow {id : TaskId} {script : PollScript} {k' : Kernel} (here : f.point = .lookup id)
    (locked : f.k.isHeld .kernelExecutor) (run : f.k.runTask id script = .ok k') :
    ∃ es f', Run (Guarded Aside Flow.Step) f es f' ∧ f'.k = k' ∧ f'.point = .pop ∧
      f'.inRun = f.inRun := by
  obtain ⟨k, point, inRun, interrupts, log⟩ := f
  cases here
  simp only [Kernel.runTask] at run
  split at run
  next absent =>
    cases run
    have dropped : Guarded Aside Flow.Step ⟨k, .lookup id, inRun, interrupts, log⟩ .cpu
        ⟨k.observe (.dropped id none), .pop, inRun, interrupts, log⟩ :=
      access (by simp only [advance, absent])
    exact ⟨[.cpu], _, .single dropped, rfl, rfl, rfl⟩
  next t found =>
    have looked : Guarded Aside Flow.Step ⟨k, .lookup id, inRun, interrupts, log⟩ .cpu
        ⟨k, .check id t, inRun, interrupts, log⟩ :=
      access (by simp only [advance, found])
    split at run
    next asleep =>
      cases run
      exact ⟨_, _, (Run.single looked).snoc (access (if_pos asleep)), rfl, rfl, rfl⟩
    next awake =>
      obtain ⟨⟨done, after⟩, polled, finished⟩ := bind_ok run
      let cached := Kernel.cachedWaker id { k with currentTaskId := id.val }
      let called : Flow := ⟨cached.2.observe (.polled id), .poll id t cached.1, inRun, interrupts,
        log ++ [.polled t]⟩
      have call : Run (Guarded Aside Flow.Step) ⟨k, .lookup id, inRun, interrupts, log⟩ _ called :=
        (((Run.single looked).snoc (access (if_neg awake))).snoc (access rfl)).snoc
          (access rfl)
      obtain ⟨es, during⟩ := poll_flow (f := called) rfl locked polled
      have returned := call.append during
      cases done <;> cases finished
      · have pending : Guarded Aside Flow.Step { called with k := after } .pending
            { called with k := after, point := .pop } := ⟨trivial, .pending rfl⟩
        exact ⟨_, _, returned.snoc pending, rfl, rfl, rfl⟩
      · have ready : Guarded Aside Flow.Step { called with k := after } .ready
            { called with k := after, point := .remove id, log := called.log ++ [.ready t] } :=
          ⟨trivial, .ready rfl⟩
        have finish := returned.snoc ready |>.snoc (access rfl) |>.snoc (access rfl)
          |>.snoc (access rfl)
        exact ⟨_, _, finish, rfl, rfl, rfl⟩

theorem drained_flow (here : f.point = .pop) (empty : f.k.executor.taskQueue.pop = none) :
    Run (Guarded Aside Flow.Step) f [.cpu, .cpu]
      { f with
        k := { f.k with currentTaskId := 0 }.observe .drained
        point := if f.inRun then .disable else .outside } := by
  obtain ⟨k, point, inRun, interrupts, log⟩ := f
  cases here
  have popped : Guarded Aside Flow.Step ⟨k, .pop, inRun, interrupts, log⟩ .cpu
      ⟨k, .clear, inRun, interrupts, log⟩ := access (by simp only [advance, empty])
  exact (Run.single popped).snoc (access rfl)

/-- `run_ready_tasks`, to the place that it returns to. -/
theorem runReadyTasks_flow {scripts : List PollScript} {k' : Kernel} (here : f.point = .pop)
    (locked : f.k.isHeld .kernelExecutor) (run : f.k.runReadyTasks scripts = .ok k') :
    ∃ es f', Run (Guarded Aside Flow.Step) f es f' ∧ f'.k = k' ∧
      f'.point = if f.inRun then .disable else .outside := by
  induction scripts generalizing f with
  | nil =>
    unfold Kernel.runReadyTasks at run
    split at run
    next empty =>
      cases run
      exact ⟨_, _, drained_flow here empty, rfl, rfl⟩
    next => cases run
  | cons script rest ih =>
    unfold Kernel.runReadyTasks at run
    split at run
    next empty =>
      cases run
      exact ⟨_, _, drained_flow here empty, rfl, rfl⟩
    next id q queue =>
      obtain ⟨mid, once, more⟩ := bind_ok run
      let popped : Flow := { f with k := { f.k with executor.taskQueue := q }, point := .lookup id }
      have took : Guarded Aside Flow.Step f .cpu popped :=
        access (by simp only [advance, here, queue, popped])
      obtain ⟨es, f1, turn, rfl, back, inRun⟩ := runTask_flow (f := popped) rfl locked once
      have held : f1.k.held = popped.k.held :=
        ((Kernel.fixed_keeps (k := popped.k)).runTask rfl locked once).2
      have locked' : f1.k.isHeld .kernelExecutor := by
        rw [Kernel.isHeld_congr held]
        exact locked
      obtain ⟨es', f2, final, same, stop⟩ := ih back locked' more
      exact ⟨_, f2, ((Run.single took).append turn).append final, same, by rw [stop, inRun]⟩

end Flow

end Microkernel
