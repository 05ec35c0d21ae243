import Microkernel.Boot
import Microkernel.Lib.View
import Microkernel.Loader

/-! The whole of `kernel_main` up to the entry into the first process: the heap, the image and the
user stacks in the page table, and the kernel over the memory that the page table shows. -/

namespace Microkernel

open Lib

/-- A store of a byte at privilege level 3, if its kind is `true`, or by the kernel. -/
abbrev Store := Write Bool UInt64 UInt8

namespace World

variable {μ α : Type} [Mapper μ]

/-- The byte of physical memory that the page table shows at `a`. -/
def place (w : World μ α) (a : UInt64) : Option UInt64 :=
  (w.translate a).map fun e => e.byte a

/-- Memory as the page table shows it. -/
def memory (w : World μ α) : Memory := view w.place 0 w.phys

/-- The flags of the present pages by page number. -/
def pages (w : World μ α) (page : UInt64) : Option PageFlags :=
  if page < 0x10000000000000 then (entry w.mapper (page * 4096)).map PageEntry.flags else none

/-- The byte of physical memory that a store at `a` changes, if it is not a page fault. -/
def reach (w : World μ α) (byUser : Bool) (a : UInt64) : Option UInt64 :=
  match w.translate a with
  | some e =>
    if e.flags.writable && (!byUser || e.flags.userAccessible) then some (e.byte a) else none
  | none => none

/-- A store; one that is a page fault stores nothing. -/
def store (w : World μ α) (st : Store) : World μ α :=
  { w with phys := st.toPlace w.reach w.phys }

def stores (w : World μ α) (l : List Store) : World μ α := l.foldl store w

variable [FrameAllocator α]

/-- `kernel_main` from `init_heap` up to the entry into the first process, where `elfData` is
`INIT_ELF` and the heap hands out the stacks of the processes and of the monitor task.  The page
table is complete when the first process is created. -/
def kernelMain (parse : List UInt8 → Except Stop ElfFile) (elfData : Slice)
    (kstackA kstackB monitorStackTop : UInt64) (w : World μ α) :
    Except Stop (World μ α × Kernel) := do
  let w ← w.initHeap
  let (entryPoint, w) ← w.loadElf parse elfData
  let (stackATop, w) ← w.setupUserStack 0x30000000 8
  let (stackBTop, w) ← w.setupUserStack 0x40000000 8
  let k ← Kernel.kernelMain [⟨entryPoint, stackATop, kstackA⟩, ⟨entryPoint, stackBTop, kstackB⟩]
    monitorStackTop w.memory w.pages
  .ok (w, k)

end World

namespace Kernel

/-- Whether the kernel, or user code, may store at `a`. -/
def mayWrite (k : Kernel) (byUser : Bool) (a : UInt64) : Bool :=
  if byUser then k.userCanWrite a else k.canWrite a

def store (k : Kernel) (st : Store) : Kernel := { k with mem := st.toAddr k.mayWrite k.mem }

def stores (k : Kernel) (l : List Store) : Kernel := l.foldl store k

end Kernel

end Microkernel
