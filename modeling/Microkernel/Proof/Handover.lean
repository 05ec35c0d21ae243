import Microkernel.Boot
import Microkernel.Proof.Steps

/-! The states that runs start from: what holds of the kernel that `kernel_main` hands over,
whatever is queued in the executor. -/

namespace Microkernel

open Lib

namespace Kernel

variable {k : Kernel} {images : List Image} {image : Image}

/-- A kernel in which nothing has happened yet: no lock is held and every mailbox is empty. -/
structure Rested (k : Kernel) : Prop where
  current : ∃ t, k.Current t
  processes : ∀ t ∈ k.taskList, t < k.nextRef
  registered : ∀ id t, k.taskRegistry id = some t → t < k.nextRef
  unlocked : k.held = []
  silent : k.history = []
  initMailbox : k.initMailbox = none
  mailboxes : ∀ t, (k.task t).mailbox = none

theorem Rested.sound (rested : k.Rested) : k.Sound where
  current := rested.current
  processes := rested.processes
  quiet g hg := by
    rw [rested.unlocked] at hg
    cases hg

/-- The kernel as `kernel_main` hands it over: the first process runs under its own identifier.
Identifier 0 belongs to no process, and everything about the executor is free. -/
structure Booted (k : Kernel) : Prop extends Rested k where
  first : k.currentTaskIdx = 0
  identity : ∃ t, k.Current t ∧ k.currentTaskId = (k.task t).id.val
  named : ∀ t ∈ k.taskList, (k.task t).id.val ≠ 0

/-- The task that `create_user_process` makes of the image at place `i`. -/
def processOf (i : Nat) (image : Image) : Task where
  id := ⟨UInt64.ofNat (i + 1)⟩
  state := .ready
  priority := 5
  kernelRsp := image.kstack + kstackSize - 160
  kernelStackTop := image.kstack + kstackSize
  mailbox := none
  waker := none

/-- The processes of `images` exist, in order, and nothing else has happened. -/
structure Created (images : List Image) (k : Kernel) : Prop where
  taskList : k.taskList = List.range images.length
  nextRef : k.nextRef = images.length
  nextId : k.nextId = UInt64.ofNat (images.length + 1)
  process : ∀ (i : Nat) image, images[i]? = some image → k.task i = processOf i image
  mailboxes : ∀ t, (k.task t).mailbox = none
  idx : k.currentTaskIdx = 0
  registry : k.taskRegistry = fun _ => none
  executor : k.executor = ⟨fun _ => none, .empty, fun _ => none⟩
  unlocked : k.held = []
  silent : k.history = []
  initMailbox : k.initMailbox = none

def addProcess (k : Kernel) (image : Image) : Kernel :=
  let (t, k) := k.createUserProcess image.entry image.userStackTop image.kstack
  { k with taskList := k.taskList ++ [t] }

theorem createProcesses_snoc :
    k.createProcesses (images ++ [image]) = (k.createProcesses images).addProcess image := by
  simp only [createProcesses, List.foldl_append, List.foldl_cons, List.foldl_nil]
  rfl

theorem firstFrame_length (entry userStackTop : UInt64) :
    (firstFrame entry userStackTop).length = 20 := rfl

theorem addProcess_task :
    (k.addProcess image).task = Function.update k.task k.nextRef
      { processOf 0 image with id := ⟨k.nextId⟩ } := by
  have pointer : image.kstack + kstackSize - 8 * UInt64.ofNat 20 =
      image.kstack + kstackSize - 160 := rfl
  simp only [addProcess, createUserProcess, processOf, Memory.pushAll_pointer, firstFrame_length,
    pointer]

theorem Created.snoc (created : Created images k) :
    Created (images ++ [image]) (k.addProcess image) where
  taskList := by
    show k.taskList ++ [k.nextRef] = _
    rw [created.taskList, created.nextRef, List.length_append, List.length_singleton,
      List.range_succ]
  nextRef := by
    show k.nextRef + 1 = _
    rw [created.nextRef, List.length_append, List.length_singleton]
  nextId := by
    show k.nextId + 1 = _
    rw [created.nextId, List.length_append, List.length_singleton,
      UInt64.ofNat_add (images.length + 1)]
    rfl
  process i img found := by
    rw [addProcess_task, created.nextRef, created.nextId]
    by_cases last : i = images.length
    · subst last
      rw [List.getElem?_concat_length] at found
      cases found
      rw [Function.update_self]
      rfl
    · rw [Function.update_of_ne last]
      apply created.process i img
      have bound := (List.getElem?_eq_some_iff.mp found).1
      rw [List.length_append, List.length_singleton] at bound
      have inside : i < images.length := by omega
      rwa [List.getElem?_append_left inside] at found
  mailboxes t := by
    rw [addProcess_task]
    by_cases same : t = k.nextRef
    · subst same
      rw [Function.update_self]
      rfl
    · rw [Function.update_of_ne same]
      exact created.mailboxes t
  idx := created.idx
  registry := created.registry
  executor := created.executor
  unlocked := created.unlocked
  silent := created.silent
  initMailbox := created.initMailbox

theorem createProcesses_created (images : List Image) (mem : Memory)
    (pages : UInt64 → Option PageFlags) :
    Created images ((initial mem pages).createProcesses images) := by
  induction images using List.reverseRecOn with
  | nil =>
    exact ⟨rfl, rfl, rfl, fun _ _ found => by simp at found, fun _ => rfl, rfl, rfl, rfl, rfl,
      rfl, rfl⟩
  | append_singleton images image ih =>
    rw [createProcesses_snoc]
    exact ih.snoc

theorem newTask_mailboxes (top : UInt64) (empty : ∀ t, (k.task t).mailbox = none) (t : TaskRef) :
    ((k.newTask top).2.task t).mailbox = none := by
  by_cases same : t = k.nextRef
  · subst same
    show (Function.update k.task k.nextRef _ k.nextRef).mailbox = none
    rw [Function.update_self]
  · show (Function.update k.task k.nextRef _ t).mailbox = none
    rw [Function.update_of_ne same]
    exact empty t

/-- The state that `kernel_main` hands over: the processes, the monitor task in the executor, and
the first process about to run. -/
theorem kernelMain_eq {monitorStackTop : UInt64} {mem : Memory}
    {pages : UInt64 → Option PageFlags}
    (run : kernelMain images monitorStackTop mem pages = .ok k) :
    ∃ k1 q image, Created images k1 ∧ k1 = (initial mem pages).createProcesses images ∧
      images[0]? = some image ∧ k1.executor.taskQueue.push ⟨k1.nextId⟩ = some q ∧
      k = { k1.spawned monitorStackTop q with
        rsp0 := (processOf 0 image).kernelStackTop
        currentTaskId := (processOf 0 image).id.val } := by
  have created := createProcesses_created images mem pages
  obtain ⟨k2, ran, rest⟩ := bind_ok run
  obtain ⟨first, found, done⟩ := bind_ok rest
  obtain ⟨-, q, pushed, rfl⟩ := spawnStatic_cases ran
  have listed : (List.range images.length)[0]? = some first := by
    rw [← created.taskList]
    unfold taskAt at found
    split at found
    next t here =>
      cases found
      exact here
    next => cases found
  obtain ⟨bound, first_eq⟩ := List.getElem?_eq_some_iff.mp listed
  rw [List.length_range] at bound
  rw [List.getElem_range] at first_eq
  subst first_eq
  have here : images[0]? = some images[0] := List.getElem?_eq_getElem bound
  have old : 0 < ((initial mem pages).createProcesses images).nextRef := by
    rw [created.nextRef]
    exact bound
  have same : (((initial mem pages).createProcesses images).spawned monitorStackTop q).task 0 =
      processOf 0 images[0] :=
    (newTask_task monitorStackTop old).trans (created.process 0 _ here)
  refine ⟨_, q, images[0], created, rfl, here, pushed, ?_⟩
  cases done
  rw [same]

section Handover

variable {monitorStackTop : UInt64} {mem : Memory} {pages : UInt64 → Option PageFlags}

/-- The processes are the tasks 0, 1, 2, and so on, and the first one runs. -/
theorem kernelMain_processes (run : kernelMain images monitorStackTop mem pages = .ok k) :
    k.taskList = List.range images.length ∧ k.currentTaskIdx = 0 ∧
      images.length < k.nextRef ∧
      ∀ (i : Nat) image, images[i]? = some image → k.task i = processOf i image := by
  obtain ⟨k1, q, image, created, -, -, -, rfl⟩ := kernelMain_eq run
  refine ⟨created.taskList, created.idx, ?_, fun i image found => ?_⟩
  · show images.length < k1.nextRef + 1
    rw [created.nextRef]
    exact Nat.lt_succ_self _
  · have bound : i < k1.nextRef := by
      rw [created.nextRef]
      exact (List.getElem?_eq_some_iff.mp found).1
    exact (newTask_task monitorStackTop bound).trans (created.process i image found)

/-- What `kernel_main` hands over is at rest. -/
theorem kernelMain_rested (run : kernelMain images monitorStackTop mem pages = .ok k) :
    k.Rested := by
  obtain ⟨taskList, idx, refs, -⟩ := kernelMain_processes run
  obtain ⟨k1, q, image, created, -, first, -, rfl⟩ := kernelMain_eq run
  have bound : 0 < images.length := (List.getElem?_eq_some_iff.mp first).1
  refine
    { current := ⟨0, by rw [Current, taskList, idx, List.getElem?_range bound]⟩
      processes := fun t ht => ?_
      registered := ?_
      unlocked := created.unlocked
      silent := created.silent
      initMailbox := created.initMailbox
      mailboxes := newTask_mailboxes monitorStackTop created.mailboxes }
  · rw [taskList] at ht
    exact (List.mem_range.mp ht).trans refs
  · intro id t found
    change Function.update k1.taskRegistry ⟨k1.nextId⟩ (some k1.nextRef) id = some t at found
    by_cases new : id = ⟨k1.nextId⟩
    · rw [new, Function.update_self] at found
      cases found
      exact Nat.lt_succ_self _
    · rw [Function.update_of_ne new, created.registry] at found
      cases found

theorem ofNat_ne_zero {n : Nat} (small : n + 1 < 2 ^ 64) : UInt64.ofNat (n + 1) ≠ 0 := by
  intro zero
  have := congrArg UInt64.toNat zero
  simp only [UInt64.toNat_ofNat', UInt64.reduceToNat] at this
  omega

/-- `kernel_main` hands over a booted kernel, whatever the images. -/
theorem kernelMain_booted (few : images.length < 2 ^ 64)
    (run : kernelMain images monitorStackTop mem pages = .ok k) : k.Booted := by
  obtain ⟨taskList, idx, refs, process⟩ := kernelMain_processes run
  obtain ⟨k1, q, image, created, -, first, -, eq⟩ := kernelMain_eq run
  have bound : 0 < images.length := (List.getElem?_eq_some_iff.mp first).1
  refine
    { kernelMain_rested run with
      first := idx
      identity := ⟨0, by rw [Current, taskList, idx, List.getElem?_range bound], ?_⟩
      named := fun t ht => ?_ }
  · rw [process 0 image first, eq]
  · rw [taskList] at ht
    have inside : t < images.length := List.mem_range.mp ht
    rw [process t images[t] (List.getElem?_eq_getElem inside)]
    exact ofNat_ne_zero (Nat.lt_of_le_of_lt (Nat.succ_le_of_lt inside) few)

end Handover

theorem canRead_of_canWrite {a : UInt64} (writable : k.canWrite a) : k.canRead a := by
  rw [canWrite, Bool.and_eq_true] at writable
  rw [canRead, writable.1, Bool.true_and]
  cases found : k.pages (a / 4096) with
  | none => simp [found] at writable
  | some flags => rfl

/-- The user stack of the first process can be stored to, by the kernel and by user code. -/
theorem heapPages_canWrite (pages : k.pages = heapPages) {a : UInt64} (low : 0x30000000 ≤ a)
    (high : a < 0x30008000) : k.canWrite a ∧ k.userCanWrite a := by
  simp only [UInt64.le_iff_toNat_le, UInt64.lt_iff_toNat_lt, UInt64.reduceToNat] at low high
  have valid : canonical a = true := by
    simp only [canonical, Bool.or_eq_true, decide_eq_true_eq, UInt64.lt_iff_toNat_lt,
      UInt64.reduceToNat]
    omega
  have page : (0x30000000 : UInt64) / 4096 ≤ a / 4096 ∧
      a / 4096 < (0x30000000 : UInt64) / 4096 + 8 := by
    simp only [UInt64.le_iff_toNat_le, UInt64.lt_iff_toNat_lt, UInt64.toNat_div, UInt64.toNat_add,
      UInt64.reduceToNat]
    omega
  rw [userCanWrite, canWrite, valid, pages, heapPages, setupUserStack, if_pos page]
  exact ⟨rfl, rfl⟩

/-- The stack of the first process can be loaded and stored. -/
theorem heapPages_stack (pages : k.pages = heapPages) :
    k.Readable 0x30007000 40 ∧ Sys.Writable k 0x30007000 40 := by
  have inside : ∀ i < 40, (0x30000000 : UInt64) ≤ 0x30007000 + UInt64.ofNat i ∧
      0x30007000 + UInt64.ofNat i < (0x30008000 : UInt64) := by decide
  have writable : Sys.Writable k 0x30007000 40 := fun i hi =>
    (heapPages_canWrite pages (inside i hi).1 (inside i hi).2).1
  exact ⟨fun i hi => canRead_of_canWrite (writable i hi), writable⟩

theorem heapBoot_booted (run : heapBoot = .ok k) : k.Booted := kernelMain_booted (by decide) run

end Kernel

end Microkernel
