import Microkernel.Mem

/-! The paging library as the kernel uses it: virtual addresses, ranges of pages, the trait that
frame allocators implement, and the trait of the mappers that change the page table.  The laws of a
mapper are what its documentation says; `PageTable` is a mapper that keeps them. -/

namespace Microkernel

open Lib

/-! ### Virtual addresses -/

/-- `VirtAddr::new`: bit 47 is extended into bits that are clear, and the bits above bit 47 must
then equal it. -/
def virtAddr (addr : UInt64) : Except Stop UInt64 :=
  if Kernel.canonical addr then .ok addr
  else if addr < 0x1000000000000 then .ok (addr + 0xFFFF000000000000)
  else .error .panics

/-- `VirtAddr + u64`. -/
def virtAdd (addr rhs : UInt64) : Except Stop UInt64 := virtAddr (addr + rhs)

/-- `VirtAddr - u64`. -/
def virtSub (addr rhs : UInt64) : Except Stop UInt64 :=
  if rhs ≤ addr then virtAddr (addr - rhs) else .error .panics

/-- A page of 4 KiB, by the address at which it starts; `Page::containing_address` is
`alignDown`. -/
abbrev Page := UInt64

/-- `Page::range_inclusive`, which steps from the last page of the lower half of the addresses to
the first one of the upper half. -/
def rangeInclusive (first last : Page) : List Page :=
  ((List.range (last.toNat / 4096 + 1 - first.toNat / 4096)).map fun i =>
    first + 4096 * UInt64.ofNat i).filter Kernel.canonical

/-! ### Frame allocators -/

class FrameAllocator (α : Type) where
  allocateFrame : α → Except Stop (Option PhysFrame × α)

instance : FrameAllocator BootInfoFrameAllocator := ⟨BootInfoFrameAllocator.allocateFrame⟩

/-- The next calls give the frames `fs`. -/
def Taken {α : Type} [FrameAllocator α] (a : α) (fs : List PhysFrame) (b : α) : Prop :=
  calls FrameAllocator.allocateFrame fs.length a = .ok (fs.map some, b)

/-! ### Mappers -/

/-- What the page table says of a page that is present. -/
structure PageEntry where
  frame : PhysFrame
  flags : PageFlags
deriving DecidableEq

inductive MapToError
  | frameAllocationFailed
  | parentEntryHugePage
  | pageAlreadyMapped (frame : PhysFrame)

inductive FlagUpdateError
  | pageNotMapped
  | parentEntryHugePage

/-- `entry` is the entry that the processor finds for a page, and `tables` lists the frames that the
mapper has taken for page tables.  The flags of an entry count as `PRESENT`. -/
class Mapper (μ : Type) where
  entry : μ → Page → Option PageEntry
  tables : μ → List PhysFrame
  mapTo {α : Type} [FrameAllocator α] :
    μ → Page → PhysFrame → PageFlags → α → Except Stop (Except MapToError μ × α)
  updateFlags : μ → Page → PageFlags → Except FlagUpdateError μ

export Mapper (entry tables mapTo updateFlags)

/-- `map_to` maps a page that is not mapped, for which it takes at most three frames, and changes no
other entry; `update_flags` changes the flags of a page that is mapped.  All pages are of 4 KiB: an
entry of a huge page, which makes `update_flags` fail, is not an `entry`. -/
class LawfulMapper (μ : Type) [Mapper μ] : Prop where
  mapTo_ok {α : Type} [FrameAllocator α] {m m' : μ} {page : Page} {frame : PhysFrame}
    {flags : PageFlags} {a b : α} (run : mapTo m page frame flags a = .ok (.ok m', b)) :
    entry m page = none ∧
      entry m' = Function.update (entry m) page (some ⟨frame, flags⟩) ∧
      ∃ fs, fs.length ≤ 3 ∧ Taken a fs b ∧ tables m' = tables m ++ fs
  mapTo_free {α : Type} [FrameAllocator α] {m : μ} {page : Page} (frame : PhysFrame)
    (flags : PageFlags) {a b : α} {fs : List PhysFrame} (free : entry m page = none)
    (enough : fs.length = 3) (taken : Taken a fs b) :
    ∃ m' c, mapTo m page frame flags a = .ok (.ok m', c)
  updateFlags_mapped {m : μ} {page : Page} {e : PageEntry} (flags : PageFlags)
    (mapped : entry m page = some e) :
    ∃ m', updateFlags m page flags = .ok m' ∧
      entry m' = Function.update (entry m) page (some { e with flags := flags }) ∧
      tables m' = tables m

/-! ### Page tables of four levels -/

/-- The entries of the last level, the tables of the three levels below the first one that exist, by
the number of address bits that a table covers and the bits above these, and the frames taken for
them. -/
structure PageTable where
  entries : Page → Option PageEntry
  present : Nat → Nat → Bool
  taken : List PhysFrame

namespace PageTable

variable {α : Type} [FrameAllocator α]

/-- Creates the tables on the way to the page that do not exist. -/
def createNextTables (page : Page) :
    List Nat → PageTable → α → Except Stop (Except MapToError PageTable × α)
  | [], table, allocator => .ok (.ok table, allocator)
  | bits :: levels, table, allocator =>
    if table.present bits (page.toNat / 2 ^ bits) then
      createNextTables page levels table allocator
    else do
      let (frame, allocator) ← FrameAllocator.allocateFrame allocator
      match frame with
      | none => .ok (.error .frameAllocationFailed, allocator)
      | some frame =>
        let present := fun b n =>
          table.present b n || (b == bits && n == page.toNat / 2 ^ bits)
        createNextTables page levels
          { table with present := present, taken := table.taken ++ [frame] } allocator

def mapTo (table : PageTable) (page : Page) (frame : PhysFrame) (flags : PageFlags)
    (allocator : α) : Except Stop (Except MapToError PageTable × α) := do
  let (table, allocator) ← createNextTables page [39, 30, 21] table allocator
  match table with
  | .error e => .ok (.error e, allocator)
  | .ok table =>
    match table.entries page with
    | some old => .ok (.error (.pageAlreadyMapped old.frame), allocator)
    | none =>
      let entries := Function.update table.entries page (some ⟨frame, flags⟩)
      .ok (.ok { table with entries := entries }, allocator)

def updateFlags (table : PageTable) (page : Page) (flags : PageFlags) :
    Except FlagUpdateError PageTable :=
  match table.entries page with
  | none => .error .pageNotMapped
  | some e =>
    .ok { table with
      entries := Function.update table.entries page (some { e with flags := flags }) }

instance : Mapper PageTable where
  entry := entries
  tables := taken
  mapTo := mapTo
  updateFlags := updateFlags

end PageTable

end Microkernel
