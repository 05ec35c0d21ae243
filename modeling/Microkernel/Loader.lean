import Microkernel.Paging

/-! What `kernel_main` does with memory before the first process exists: it maps the heap, loads the
ELF image, and maps the user stacks.  The processor reaches the bytes of a page through its entry;
an access that the page table does not allow is a fault, whose handler finds no task to kill and
panics. -/

namespace Microkernel

open Lib

/-! ### ELF files -/

/-- A slice of bytes in virtual memory. -/
structure Slice where
  ptr : UInt64
  len : UInt64

inductive HeaderType
  | load
  | other
deriving DecidableEq

/-- What `xmas_elf` reports of a program header; `type` is the result of `get_type`, which fails on
numbers that it does not know. -/
structure ProgramHeader where
  type : Option HeaderType
  isWrite : Bool
  isExecute : Bool
  offset : UInt64
  virtualAddr : UInt64
  fileSize : UInt64
  memSize : UInt64
deriving DecidableEq

/-- An ELF file that `ElfFile::new` accepts: the program headers in order, and the entry point. -/
structure ElfFile where
  programs : List ProgramHeader
  entryPoint : UInt64
deriving DecidableEq

/-! ### Memory behind a mapper -/

/-- What happened, for statements about accesses; no function of the kernel reads it.
`load_segment` began; a page was mapped to a frame; the `n` bytes from an address were read, or
written. -/
inductive Access
  | segment (header : ProgramHeader)
  | mapped (page : Page) (frame : PhysFrame)
  | read (a : UInt64) (n : Nat)
  | wrote (a : UInt64) (n : Nat)

/-- Physical memory, the mapper, and the frame allocator. -/
structure World (μ α : Type) where
  phys : Memory
  mapper : μ
  frames : α
  trace : List Access

/-- `Option::expect`, `Result::expect` and `unwrap`. -/
def expect {α : Type} : Option α → Except Stop α
  | some a => .ok a
  | none => .error .panics

/-- The byte of the entry's frame that the page shows at `a`. -/
def PageEntry.byte (e : PageEntry) (a : UInt64) : UInt64 := e.frame.startAddress + a % 4096

namespace World

variable {μ α : Type} [Mapper μ] [FrameAllocator α]

def observe (access : Access) (w : World μ α) : World μ α :=
  { w with trace := w.trace ++ [access] }

/-- The entry through which an access to `a` goes. -/
def translate (w : World μ α) (a : UInt64) : Option PageEntry :=
  if Kernel.canonical a then entry w.mapper (alignDown a) else none

def loadByte (w : World μ α) (a : UInt64) : Except Stop UInt8 :=
  match w.translate a with
  | some e => .ok (w.phys (e.byte a))
  | none => .error .panics

def storeByte (a : UInt64) (b : UInt8) (w : World μ α) : Except Stop (World μ α) :=
  match w.translate a with
  | some e =>
    if e.flags.writable then
      .ok { w with phys := Function.update w.phys (e.byte a) b }
    else
      .error .panics
  | none => .error .panics

def loadBytes (w : World μ α) (a : UInt64) : Nat → Except Stop (List UInt8)
  | 0 => .ok []
  | n + 1 => do
    let b ← w.loadByte a
    let bs ← loadBytes w (a + 1) n
    .ok (b :: bs)

def storeBytes (a : UInt64) : List UInt8 → World μ α → Except Stop (World μ α)
  | [], w => .ok w
  | b :: bs, w => do
    let w ← w.storeByte a b
    storeBytes (a + 1) bs w

/-- `core::ptr::write_bytes`. -/
def writeBytes (dst : UInt64) (val : UInt8) (count : UInt64) (w : World μ α) :
    Except Stop (World μ α) :=
  (w.observe (.wrote dst count.toNat)).storeBytes dst (List.replicate count.toNat val)

/-- `core::ptr::copy_nonoverlapping`. -/
def copyNonoverlapping (src dst : UInt64) (count : UInt64) (w : World μ α) :
    Except Stop (World μ α) := do
  let w := w.observe (.read src count.toNat)
  let bs ← w.loadBytes src count.toNat
  (w.observe (.wrote dst count.toNat)).storeBytes dst bs

/-- A frame from the allocator, and `map_to`; every caller panics when one of them fails. -/
def mapPage (flags : PageFlags) (w : World μ α) (page : Page) : Except Stop (World μ α) := do
  let (frame, frames) ← FrameAllocator.allocateFrame w.frames
  let frame ← expect frame
  let (mapped, frames) ← mapTo w.mapper page frame flags frames
  let mapper ← expect mapped.toOption
  .ok { w with mapper := mapper, frames := frames, trace := w.trace ++ [.mapped page frame] }

/-- `update_flags`, as `load_segment` calls it. -/
def setFlags (flags : PageFlags) (w : World μ α) (page : Page) : Except Stop (World μ α) := do
  let mapper ← expect (updateFlags w.mapper page flags).toOption
  .ok { w with mapper := mapper }

/-! ### The loader -/

def loadSegment (elfData : Slice) (header : ProgramHeader) (w : World μ α) :
    Except Stop (World μ α) := do
  let w := w.observe (.segment header)
  let virtStartAddr ← virtAddr header.virtualAddr
  let endAddr ← virtAdd virtStartAddr header.memSize
  let lastAddr ← virtSub endAddr 1
  let pages := rangeInclusive (alignDown virtStartAddr) (alignDown lastAddr)
  let w ← pages.foldlM (mapPage ⟨true, true, false⟩) w
  let w ← w.writeBytes virtStartAddr 0 header.memSize
  let w ← w.copyNonoverlapping (elfData.ptr + header.offset) virtStartAddr header.fileSize
  if header.isWrite then .ok w else pages.foldlM (setFlags ⟨false, true, false⟩) w

def loadHeader (elfData : Slice) (w : World μ α) (header : ProgramHeader) :
    Except Stop (World μ α) :=
  match header.type with
  | none => .error .panics
  | some .load => w.loadSegment elfData header
  | some .other => .ok w

/-- `load_elf`, where `parse` is `ElfFile::new` and the iteration over its program headers. -/
def loadElf (parse : List UInt8 → Except Stop ElfFile) (elfData : Slice) (w : World μ α) :
    Except Stop (UInt64 × World μ α) := do
  let bytes ← w.loadBytes elfData.ptr elfData.len.toNat
  let elf ← parse bytes
  let w ← elf.programs.foldlM (loadHeader elfData) w
  let entryPoint ← virtAddr elf.entryPoint
  .ok (entryPoint, w)

/-! ### The heap and the stacks -/

def heapStart : UInt64 := 0x444444440000

def heapSize : UInt64 := 100 * 1024

/-- `init_heap`, whose caller panics when it fails. -/
def initHeap (w : World μ α) : Except Stop (World μ α) := do
  let heapStart ← virtAddr heapStart
  let heapEnd ← virtSub (← virtAdd heapStart heapSize) 1
  (rangeInclusive (alignDown heapStart) (alignDown heapEnd)).foldlM (mapPage ⟨true, false, false⟩) w

def setupUserStack (baseAddr pages : UInt64) (w : World μ α) :
    Except Stop (UInt64 × World μ α) := do
  let stackBase ← virtAddr baseAddr
  let w ← (List.range pages.toNat).foldlM (fun w i => do
    let addr ← virtAdd stackBase (UInt64.ofNat i * 4096)
    w.mapPage ⟨true, true, false⟩ (alignDown addr)) w
  let top ← virtAdd stackBase (pages * 4096)
  .ok (top, w)

end World

end Microkernel
