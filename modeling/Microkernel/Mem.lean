import Microkernel.Kernel
import Microkernel.Lib.Series

/-! The allocator of physical frames.  It hands out the frames of the memory map's usable regions by
their index among all of them, and enumerates the regions again at each call. -/

namespace Microkernel

open Lib

inductive MemoryRegionKind
  | usable
  | bootloader
  | unknownUefi (tag : UInt32)
  | unknownBios (tag : UInt32)
deriving DecidableEq, Repr

/-- A region of the memory map: the addresses from `start` up to, and without, `stop`. -/
structure MemoryRegion where
  start : UInt64
  stop : UInt64
  kind : MemoryRegionKind
deriving DecidableEq, Repr

/-- `PhysAddr::new`: physical addresses have 52 bits. -/
def physAddr (addr : UInt64) : Except Stop UInt64 :=
  if addr < 0x10000000000000 then .ok addr else .error .panics

/-- `align_down` to 4 KiB. -/
def alignDown (addr : UInt64) : UInt64 := addr / 4096 * 4096

theorem alignDown_toNat (addr : UInt64) : (alignDown addr).toNat = addr.toNat / 4096 * 4096 := by
  have := addr.toNat_lt
  simp only [alignDown, UInt64.toNat_mul, UInt64.toNat_div, UInt64.reduceToNat]
  omega

theorem alignDown_aligned (addr : UInt64) : alignDown addr % 4096 = 0 := by
  apply UInt64.toNat_inj.mp
  rw [UInt64.toNat_mod, alignDown_toNat]
  exact Nat.mul_mod_left _ _

/-- A frame of 4 KiB, which starts at a multiple of its size. -/
structure PhysFrame where
  startAddress : UInt64
  aligned : startAddress % 4096 = 0
deriving DecidableEq, Repr

namespace PhysFrame

theorem ext {f g : PhysFrame} (same : f.startAddress = g.startAddress) : f = g := by
  cases f
  cases g
  cases same
  rfl

/-- `PhysFrame::containing_address`. -/
def containingAddress (addr : UInt64) : PhysFrame := ⟨alignDown addr, alignDown_aligned addr⟩

end PhysFrame

/-- `(start..stop).step_by(step)`. -/
def stepBy (start stop step : UInt64) : List UInt64 :=
  (List.range ((stop.toNat - start.toNat + (step.toNat - 1)) / step.toNat)).map fun i =>
    start + step * UInt64.ofNat i

/-- `Iterator::nth`, which computes the items before the one it returns. -/
def nth {α : Type} : List (Except Stop α) → Nat → Except Stop (Option α)
  | [], _ => .ok none
  | item :: _, 0 => do
    let a ← item
    .ok (some a)
  | item :: items, n + 1 => do
    let _ ← item
    nth items n

structure BootInfoFrameAllocator where
  memoryRegions : List MemoryRegion
  next : UInt64

namespace BootInfoFrameAllocator

def init (memoryRegions : List MemoryRegion) : BootInfoFrameAllocator := ⟨memoryRegions, 0⟩

def usableFrames (allocator : BootInfoFrameAllocator) : List (Except Stop PhysFrame) :=
  let usable := allocator.memoryRegions.filter fun r => r.kind = .usable
  let addresses := usable.flatMap fun r => stepBy r.start r.stop 4096
  addresses.map fun addr => do
    let addr ← physAddr addr
    .ok (.containingAddress addr)

def allocateFrame (allocator : BootInfoFrameAllocator) :
    Except Stop (Option PhysFrame × BootInfoFrameAllocator) := do
  let frame ← nth allocator.usableFrames allocator.next.toNat
  .ok (frame, { allocator with next := allocator.next + 1 })

end BootInfoFrameAllocator

end Microkernel
