import Microkernel.Proof.Finality
import Microkernel.Proof.Identity

/-! Whom `SYS_GET_SERVICE_PID` names.  A registration stores the identifier of its caller, and only
another registration under the same name replaces it: it outlives the process. -/

namespace Microkernel

open Lib

namespace Kernel

variable {k k' : Kernel} {e : Event} {p t u : TaskRef}

/-- The process that a fault handler kills in an event. -/
def kills (k : Kernel) : Event → Option TaskRef
  | .gpf _ | .pageFault _ => k.taskList[k.currentTaskIdx]?
  | .syscall id arg1 arg2 _ =>
    match (handleSyscall id arg1 arg2).run k with
    | .fault _ => k.taskList[k.currentTaskIdx]?
    | _ => none
  | _ => none

/-- A record of a run: the process that last registered under each name, and the processes that a
fault handler has killed. -/
structure ServiceBook where
  registrar : UInt64 → Option TaskRef
  killed : List TaskRef

namespace ServiceBook

def empty : ServiceBook := ⟨fun _ => none, []⟩

def noteRegistrar (k : Kernel) : Event → (UInt64 → Option TaskRef) → UInt64 → Option TaskRef
  | .syscall id arg1 _ _, registrar =>
    if id = 14 then Function.update registrar arg1 k.taskList[k.currentTaskIdx]? else registrar
  | _, registrar => registrar

def note (k : Kernel) (e : Event) (book : ServiceBook) : ServiceBook where
  registrar := noteRegistrar k e book.registrar
  killed := (k.kills e).toList ++ book.killed

end ServiceBook

/-- A process that makes a system call runs under its own identifier. -/
def Identified (k : Kernel) : Event → Prop
  | .syscall _ _ _ _ => k.Coherent
  | _ => True

/-- What `SYS_GET_SERVICE_PID` returns is what the book says, and a process that is terminated was
killed. -/
structure Accounted (k : Kernel) (book : ServiceBook) : Prop where
  services : ∀ name, k.serviceRegistry name =
    (book.registrar name).map fun p => (k.task p).id
  registrars : ∀ name p, book.registrar name = some p → p ∈ k.taskList
  dead : ∀ p ∈ k.taskList, (k.task p).state = .terminated → p ∈ book.killed

/-! ### Registrations -/

def Registers : Event → Prop
  | .syscall id _ _ _ => id = 14
  | _ => False

theorem services_keeps : StepKeeps (fun _ e => ¬ Registers e) fun after =>
    after.serviceRegistry = k.serviceRegistry where
  executor :=
    { wake := fun _ same => same
      receive := fun t cx same =>
        (congrArg Fixed.serviceRegistry (fixed_ipcReceivePoll t cx)).trans same
      polls := fun same ran =>
        (congrArg Fixed.serviceRegistry (fixed_pollKernelTasks ran)).trans same }
  tick same := same
  move _ _ same := same
  kill _ same := same
  post _ same := by
    unfold postInitMailbox
    split <;> exact same
  call _ other call same := by
    cases call with
    | idle | sendFault | print | recv | recvFault | setPriority | exit => exact same
    | @send t =>
      exact (congrArg Fixed.serviceRegistry (fixed_deliver t _)).trans same
    | regService => exact absurd rfl other
  user _ same := same
  spawn _ same run := by
    obtain ⟨-, q, -, rfl⟩ := spawnStatic_cases run
    exact same

/-- A registration stores the identifier in `CURRENT_TASK_ID`. -/
theorem register_step {arg1 arg2 rsp : UInt64} (sound : k.Sound)
    (step : k.Step (.syscall 14 arg1 arg2 rsp) k') :
    k' = { k with serviceRegistry :=
      Function.update k.serviceRegistry arg1 (some ⟨k.currentTaskId⟩) } := by
  obtain ⟨out, run⟩ := step
  change k.syscall 14 arg1 arg2 rsp = .ok (out, k') at run
  have call : (handleSyscall 14 arg1 arg2).run k = _ := sysRegService_eq sound.quiet arg1
  unfold Kernel.syscall at run
  rw [call] at run
  cases run
  rfl

theorem services_step {book : ServiceBook} (sound : k.Sound) (accounted : k.Accounted book)
    (identified : k.Identified e) (step : k.Step e k') (name : UInt64) :
    k'.serviceRegistry name =
        ((book.note k e).registrar name).map (fun p => (k'.task p).id) ∧
      ∀ p, (book.note k e).registrar name = some p → p ∈ k'.taskList := by
  have same := sound.sameTasks step
  have ids : ∀ {name p}, book.registrar name = some p → (k'.task p).id = (k.task p).id :=
    fun by_name => same.id _ (sound.processes _ (accounted.registrars _ _ by_name))
  have kept : k'.serviceRegistry name = k.serviceRegistry name →
      k'.serviceRegistry name = (book.registrar name).map (fun p => (k'.task p).id) := by
    intro kept
    rw [kept, accounted.services]
    cases by_name : book.registrar name with
    | none => rfl
    | some p => rw [Option.map_some, Option.map_some, ids by_name]
  have listed : ∀ p, book.registrar name = some p → p ∈ k'.taskList := by
    intro p by_name
    rw [same.taskList]
    exact accounted.registrars name p by_name
  have unnoted : (book.note k e).registrar name = book.registrar name →
      k'.serviceRegistry name = k.serviceRegistry name →
      k'.serviceRegistry name =
          ((book.note k e).registrar name).map (fun p => (k'.task p).id) ∧
        ∀ p, (book.note k e).registrar name = some p → p ∈ k'.taskList := by
    intro unchanged still
    rw [unchanged]
    exact ⟨kept still, listed⟩
  by_cases registers : Registers e
  · cases e with
    | syscall id arg1 arg2 rsp =>
      obtain rfl : id = 14 := registers
      obtain ⟨t, cur, own⟩ := identified
      have noted : (book.note k (.syscall 14 arg1 arg2 rsp)).registrar =
          Function.update book.registrar arg1 (some t) := by
        show Function.update book.registrar arg1 k.taskList[k.currentTaskIdx]? = _
        rw [show k.taskList[k.currentTaskIdx]? = some t from cur]
      have after := register_step sound step
      by_cases this : name = arg1
      · subst this
        rw [noted, Function.update_self, after]
        refine ⟨?_, fun p by_name => ?_⟩
        · show Function.update k.serviceRegistry name _ name = some (k.task t).id
          rw [Function.update_self, own]
        · cases by_name
          exact cur.mem
      · refine unnoted (by rw [noted, Function.update_of_ne this]) ?_
        rw [after]
        exact Function.update_of_ne this _ _
    | _ => cases registers
  · refine unnoted ?_ (congrFun (services_keeps.step sound rfl registers step) name)
    cases e with
    | syscall id arg1 arg2 rsp => exact congrFun (if_neg registers) name
    | _ => rfl

/-! ### Deaths -/

/-- A send terminates no task. -/
theorem deliver_dead {m : Message} (dead : ((k.deliver t m).task u).state = .terminated) :
    (k.task u).state = .terminated := by
  have put := putMailbox_state (k := k) t u m
  change (((k.putMailbox t m).awaken t).task u).state = .terminated at dead
  unfold awaken at dead
  split at dead
  · have readied : ((((k.putMailbox t m).setState t .ready).task u).state = .terminated) →
        (k.task u).state = .terminated := by
      intro dead
      by_cases this : u = t
      · subst this
        rw [setState, modifyTask_task_self] at dead
        cases dead
      · rw [setState, modifyTask_task_ne _ _ this, put] at dead
        exact dead
    split at dead
    · refine readied (Eq.trans (Eq.symm ?_) dead)
      exact modifyTask_keeps (f := fun task => { task with waker := none }) Task.state rfl u
    · exact readied dead
  · rw [put] at dead
    exact dead

theorem faultHandlerInner_dead {rsp r : UInt64} (sound : k.Sound)
    (run : k.faultHandlerInner rsp = .ok (r, k')) (dead : (k'.task u).state = .terminated) :
    (k.task u).state = .terminated ∨ k.taskList[k.currentTaskIdx]? = some u := by
  obtain ⟨t, cur⟩ := sound.current
  rw [scheduleNext_state (sound.kill t) (faultHandlerInner_cases sound cur run)] at dead
  by_cases this : u = t
  · subst this
    exact .inr cur
  · rw [setState, modifyTask_task_ne k _ this] at dead
    exact .inl dead

/-- A poll leaves a task terminated only if it was. -/
theorem StateAfter.dead {rs : List TaskRef} (after : StateAfter u rs k k')
    (dead : (k'.task u).state = .terminated) : (k.task u).state = .terminated := by
  unfold StateAfter at after
  by_cases received : u ∈ rs
  · rw [if_pos received] at after
    exact absurd dead after
  · rw [if_neg received] at after
    exact after ▸ dead

/-- A call that ends leaves a process terminated only if it was: `SYS_EXIT` does not find it. -/
theorem call_dead {id arg1 arg2 : UInt64} {o : Outcome UInt64} (unlisted : k.Unlisted)
    (call : Call k arg1 arg2 id o) (listed : u ∈ k.taskList) :
    o.Ends fun k' => k'.taskList = k.taskList ∧ k'.currentTaskIdx = k.currentTaskIdx ∧
      ((k'.task u).state = .terminated → (k.task u).state = .terminated) := by
  cases call with
  | idle | sendFault | print | regService | recv | recvFault => exact ⟨rfl, rfl, fun dead => dead⟩
  | @exit t found =>
    refine ⟨rfl, rfl, fun dead => ?_⟩
    have other : u ≠ t := fun same => unlisted _ t found (same ▸ listed)
    rwa [setState, modifyTask_task_ne k _ other] at dead
  | @send t =>
    exact ⟨congrArg Fixed.taskList (fixed_deliver t _),
      congrArg Fixed.currentTaskIdx (fixed_deliver t _), deliver_dead⟩
  | @setPriority t =>
    refine ⟨rfl, rfl, fun dead => Eq.trans (Eq.symm ?_) dead⟩
    exact modifyTask_keeps (f := fun task => { task with priority := arg1 }) Task.state rfl u

/-- A system call that a fault has cut short has killed its caller. -/
theorem syscall_kills {id arg1 arg2 rsp r : UInt64}
    (run : k.syscall id arg1 arg2 rsp = .ok (some r, k')) :
    k.kills (.syscall id arg1 arg2 rsp) = k.taskList[k.currentTaskIdx]? := by
  unfold Kernel.syscall at run
  cases outcome : (handleSyscall id arg1 arg2).run k with
  | fault mid => simp only [kills, outcome]
  | done value after =>
    rw [outcome] at run
    cases run
  | stop reason =>
    rw [outcome] at run
    cases run

/-- A process is terminated after a step only if it was before, or a fault handler killed it. -/
theorem dead_step (sound : k.Sound) (unlisted : k.Unlisted) (listed : u ∈ k.taskList)
    (step : k.Step e k') (dead : (k'.task u).state = .terminated) :
    (k.task u).state = .terminated ∨ k.kills e = some u := by
  have posted : ∀ {m}, ((k.postInitMailbox m).task u).state = .terminated →
      (k.task u).state = .terminated := by
    intro m dead
    unfold postInitMailbox at dead
    split at dead <;> exact dead
  obtain ⟨out, run⟩ := step
  cases step_happens sound run with
  | timer ran scheduled =>
    rw [scheduleNext_state (sound.fixed (fixed_pollKernelTasks ran)).tick scheduled] at dead
    exact .inl ((pollKernelTasks_stateAfter ran).dead dead)
  | keyboard ran | serial ran => exact .inl (posted ((pollKernelTasks_stateAfter ran).dead dead))
  | gpf handled | pageFault handled => exact faultHandlerInner_dead sound handled dead
  | returned call => exact .inl ((call_dead unlisted call listed).2.2 dead)
  | @killed id arg1 arg2 rsp r mid _ call handled =>
    obtain ⟨list, idx, before⟩ := call_dead unlisted call listed
    rcases faultHandlerInner_dead (call.sound sound) handled dead with was | this
    · exact .inl (before was)
    · rw [list, idx] at this
      exact .inr ((syscall_kills run).trans this)
  | userWrites f => exact .inl dead
  | spawn spawned =>
    obtain ⟨-, q, -, rfl⟩ := spawnStatic_cases spawned
    change ((k.newTask _).2.task u).state = .terminated at dead
    rw [newTask_task _ (sound.processes u listed)] at dead
    exact .inl dead
  | wake id => exact .inl dead
  | receive t cx => exact .inl ((receive_stateAfter t cx).dead dead)
  | pollTasks ran => exact .inl ((pollKernelTasks_stateAfter ran).dead dead)

/-! ### Runs -/

theorem accounted_step {book : ServiceBook} (sound : k.Sound) (unlisted : k.Unlisted)
    (accounted : k.Accounted book) (identified : k.Identified e) (step : k.Step e k') :
    k'.Accounted (book.note k e) where
  services name := (services_step sound accounted identified step name).1
  registrars name := (services_step sound accounted identified step name).2
  dead p listed dead := by
    rw [(sound.sameTasks step).taskList] at listed
    rcases dead_step sound unlisted listed step dead with was | killed
    · exact List.mem_append_right _ (accounted.dead p listed was)
    · exact List.mem_append_left _ (Option.mem_toList.mpr killed)

section Boot

variable {images : List Image} {monitorStackTop : UInt64} {mem : Memory}
  {pages : UInt64 → Option PageFlags} {k0 : Kernel} {es : List Event} {book : ServiceBook}

theorem createProcesses_services (images : List Image) :
    ((initial mem pages).createProcesses images).serviceRegistry = fun _ => none := by
  induction images using List.reverseRecOn with
  | nil => rfl
  | append_singleton images image ih =>
    rw [createProcesses_snoc]
    exact ih

theorem kernelMain_accounted (boot : kernelMain images monitorStackTop mem pages = .ok k0) :
    k0.Accounted .empty := by
  obtain ⟨taskList, -, -, process⟩ := kernelMain_processes boot
  obtain ⟨k1, q, image, -, eq, -, -, main⟩ := kernelMain_eq boot
  have services : k0.serviceRegistry = fun _ => none := by
    rw [main]
    show k1.serviceRegistry = _
    rw [eq]
    exact createProcesses_services images
  refine ⟨fun name => congrFun services name, ?_, ?_⟩
  · intro name p by_name
    cases by_name
  · intro p listed dead
    rw [taskList] at listed
    have inside := List.mem_range.mp listed
    rw [process p images[p] (List.getElem?_eq_getElem inside)] at dead
    cases dead

/-- In a run from boot in which every system call is made under the caller's own identifier,
`SYS_GET_SERVICE_PID` returns `u64::MAX` for a name under which no process has registered, and
otherwise the identifier of the process that last did.  That process is terminated only if a fault
handler has killed it in the run. -/
theorem service_lookup (boot : kernelMain images monitorStackTop mem pages = .ok k0)
    (run : Run (Recorded ServiceBook.note (Guarded Identified Step)) (k0, .empty) es (k, book))
    (name arg2 : UInt64) :
    match book.registrar name with
    | none => (handleSyscall 15 name arg2).run k = .done 0xFFFFFFFFFFFFFFFF k
    | some p => (handleSyscall 15 name arg2).run k = .done (k.task p).id.val k ∧
        p ∈ k.taskList ∧ ((k.task p).state = .terminated → p ∈ book.killed) := by
  have all : k.Sound ∧ k.Unlisted ∧ k.Accounted book := by
    refine run.invariant (I := fun s => s.1.Sound ∧ s.1.Unlisted ∧ s.1.Accounted s.2)
      ⟨(kernelMain_rested boot).sound, kernelMain_unlisted boot, kernelMain_accounted boot⟩ ?_
    rintro ⟨a, s⟩ e ⟨b, s'⟩ ⟨sound, unlisted, accounted⟩ ⟨⟨identified, step⟩, noted⟩
    obtain rfl : s' = ServiceBook.note a e s := noted
    exact ⟨sound.step step, unlisted_keeps.step sound unlisted trivial step,
      accounted_step sound unlisted accounted identified step⟩
  obtain ⟨sound, -, accounted⟩ := all
  have call : (handleSyscall 15 name arg2).run k = _ := sysGetServicePid_eq sound.quiet name
  rw [accounted.services] at call
  cases by_name : book.registrar name with
  | none =>
    rw [by_name] at call
    exact call
  | some p =>
    rw [by_name] at call
    have listed := accounted.registrars name p by_name
    exact ⟨call, listed, accounted.dead p listed⟩

end Boot

/-- The first process registers under the name 7, and a lookup finds it. -/
theorem service_lookup_first : ∃ k0 k book, heapBoot = .ok k0 ∧
    Run (Recorded ServiceBook.note (Guarded Identified Step)) (k0, .empty)
      [.syscall 14 7 0 0x444444447f58] (k, book) ∧
    book.registrar 7 = some 0 ∧ (handleSyscall 15 7 0).run k = .done (k.task 0).id.val k := by
  have evaluated : ∃ k0 k, heapBoot = .ok k0 ∧ k0.Step (.syscall 14 7 0 0x444444447f58) k ∧
      k0.taskList[k0.currentTaskIdx]? = some 0 := ⟨_, _, rfl, ⟨_, rfl⟩, rfl⟩
  obtain ⟨k0, k, boot, step, cur⟩ := evaluated
  have identified : k0.Identified (.syscall 14 7 0 0x444444447f58) :=
    (heapBoot_booted boot).identity
  have run : Run (Recorded ServiceBook.note (Guarded Identified Step)) (k0, .empty)
      [.syscall 14 7 0 0x444444447f58]
      (k, ServiceBook.empty.note k0 (.syscall 14 7 0 0x444444447f58)) :=
    .single ⟨⟨identified, step⟩, rfl⟩
  have registrar :
      (ServiceBook.empty.note k0 (.syscall 14 7 0 0x444444447f58)).registrar 7 = some 0 := by
    show Function.update (fun _ => none) (7 : UInt64) (k0.taskList[k0.currentTaskIdx]?) 7 = some 0
    rw [Function.update_self, cur]
  have found := service_lookup boot run 7 0
  rw [registrar] at found
  exact ⟨k0, k, _, boot, run, registrar, found.1⟩

/-- The first process registers and faults, and the second one still finds it. -/
theorem service_dangles : ∃ k0 k, heapBoot = .ok k0 ∧
    Run (Guarded Identified Step) k0 [.syscall 14 7 0 0x444444447f58, .gpf 0x444444447f58] k ∧
    k.Current 1 ∧ k.Coherent ∧ (handleSyscall 15 7 0).run k = .done (k.task 0).id.val k ∧
    (k.task 0).state = .terminated := by
  have evaluated : ∃ k0 k1 k, heapBoot = .ok k0 ∧ k0.Step (.syscall 14 7 0 0x444444447f58) k1 ∧
      k1.Step (.gpf 0x444444447f58) k ∧ k.Current 1 ∧ k.currentTaskId = (k.task 1).id.val ∧
      (handleSyscall 15 7 0).run k = .done (k.task 0).id.val k ∧
      (k.task 0).state = .terminated :=
    ⟨_, _, _, rfl, ⟨_, rfl⟩, ⟨_, rfl⟩, rfl, rfl, rfl, rfl⟩
  obtain ⟨k0, k1, k, boot, registers, faults, cur, own, found, dead⟩ := evaluated
  have identified : k0.Identified (.syscall 14 7 0 0x444444447f58) :=
    (heapBoot_booted boot).identity
  have first : Run (Guarded Identified Step) k0 [.syscall 14 7 0 0x444444447f58] k1 :=
    .single ⟨identified, registers⟩
  exact ⟨k0, k, boot, first.snoc ⟨trivial, faults⟩, cur, ⟨1, cur, own⟩, found, dead⟩

end Kernel

end Microkernel
