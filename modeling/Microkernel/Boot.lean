import Microkernel.System

/-! The state in which `kernel_main` hands the processor over to the first user process. -/

namespace Microkernel

open Lib

/-! ### Selectors

The GDT holds, after the null entry, kernel code, kernel data, the two entries of the TSS, user
data, and user code; a user selector carries privilege level 3. -/

def userDataSelector : UInt64 := 0x2b
def userCodeSelector : UInt64 := 0x33

/-- The size of a user process's kernel stack. -/
def kstackSize : UInt64 := 4096 * 8

/-- What `kernel_main` creates a process from. -/
structure Image where
  entry : UInt64
  userStackTop : UInt64
  kstack : UInt64

namespace Kernel

/-- The state before the first process exists. -/
def initial (mem : Memory) (pages : UInt64 → Option PageFlags) : Kernel where
  task := fun _ =>
    { id := ⟨0⟩, state := .terminated, priority := 0, kernelRsp := 0, kernelStackTop := 0,
      mailbox := none, waker := none }
  nextRef := 0
  nextId := 1
  taskList := []
  currentTaskIdx := 0
  currentTaskId := 0
  tickCount := 0
  taskRegistry := fun _ => none
  serviceRegistry := fun _ => none
  initMailbox := none
  executor := ⟨fun _ => none, .empty, fun _ => none⟩
  rsp0 := 0
  mem := mem
  pages := pages
  printed := []
  held := []
  history := []

/-- The words that `create_user_process` pushes, in order: the frame of `iretq` and then fifteen
zero registers. -/
def firstFrame (entry userStackTop : UInt64) : List UInt64 :=
  [userDataSelector ||| 3, userStackTop, 0x202, userCodeSelector ||| 3, entry] ++
    List.replicate 15 0

/-- `Task::create_user_process`, where the heap has handed out the stack that starts at `kstack`. -/
def createUserProcess (entry userStackTop kstack : UInt64) (k : Kernel) : TaskRef × Kernel :=
  let mem : Memory := fun a => if Memory.Within kstack kstackSize.toNat a then 0 else k.mem a
  let kstackTop := kstack + kstackSize
  let (mem, rsp) := mem.pushAll kstackTop (firstFrame entry userStackTop)
  (k.nextRef,
    { k with
      task := Function.update k.task k.nextRef
        { id := ⟨k.nextId⟩, state := .ready, priority := 5, kernelRsp := rsp,
          kernelStackTop := kstackTop, mailbox := none, waker := none }
      nextRef := k.nextRef + 1
      nextId := k.nextId + 1
      mem := mem })

/-- The processes of the images, created in order and put in `TASK_LIST`. -/
def createProcesses (images : List Image) (k : Kernel) : Kernel :=
  images.foldl (fun k image =>
    let (t, k) := k.createUserProcess image.entry image.userStackTop image.kstack
    { k with taskList := k.taskList ++ [t] }) k

/-- `kernel_main` up to the entry into the first process: the processes, the monitor task, RSP0 and
`CURRENT_TASK_ID`. -/
def kernelMain (images : List Image) (monitorStackTop : UInt64) (mem : Memory)
    (pages : UInt64 → Option PageFlags) : Except Stop Kernel := do
  let k := (initial mem pages).createProcesses images
  let k ← k.spawnStatic monitorStackTop
  let first ← k.taskAt 0
  .ok { k with rsp0 := (k.task first).kernelStackTop, currentTaskId := (k.task first).id.val }

/-! ### The processes of `kernel_main` -/

/-- The page table after `setup_user_stack`. -/
def setupUserStack (baseAddr pages : UInt64) (table : UInt64 → Option PageFlags) (page : UInt64) :
    Option PageFlags :=
  if baseAddr / 4096 ≤ page ∧ page < baseAddr / 4096 + pages then some ⟨true, true, false⟩
  else table page

/-- The two processes, which run one program on user stacks of 32 KiB. -/
def processImages (entry kstackA kstackB : UInt64) : List Image :=
  [⟨entry, 0x30000000 + 8 * 4096, kstackA⟩, ⟨entry, 0x40000000 + 8 * 4096, kstackB⟩]

/-! One boot: the heap, which starts at `0x444444440000`, hands out the kernel stacks one after
another. -/

def heapImages : List Image := processImages 0x400000 0x444444440000 0x444444448000

def heapPages : UInt64 → Option PageFlags :=
  setupUserStack 0x30000000 8 (setupUserStack 0x40000000 8 fun _ => none)

def heapBoot : Except Stop Kernel :=
  kernelMain heapImages 0x444444454000 (fun _ => 0) heapPages

end Kernel

end Microkernel
