import Mathlib.Data.List.Perm.Subperm
import Microkernel.Proof.Frames
import Microkernel.Proof.Segments

/-! Who gets the frames.  The heap, the segments, the stacks and the page tables all take theirs
from one allocator, whose calls give every frame of the usable regions once. -/

namespace Microkernel

open Lib MemoryRegion

/-! ### The allocator's frames -/

namespace BootInfoFrameAllocator

variable {regions : List MemoryRegion} {fs : List PhysFrame} {b : BootInfoFrameAllocator}

/-- There are not more frames than physical addresses divided by the size of a frame. -/
theorem length_le_of_nodup (nodup : fs.Nodup) : fs.length ≤ 2 ^ 52 := by
  have whole : ∀ f : PhysFrame, f.startAddress.toNat % 4096 = 0 :=
    fun f => by simpa using congrArg UInt64.toNat f.aligned
  have numbers : (fs.map fun f => f.startAddress.toNat / 4096).Nodup := by
    apply nodup.map_on
    intro f _ g _ same
    have := whole f
    have := whole g
    apply PhysFrame.ext
    apply UInt64.toNat_inj.mp
    omega
  have below : (fs.map fun f => f.startAddress.toNat / 4096) ⊆ List.range (2 ^ 52) := by
    intro n mem
    obtain ⟨f, -, rfl⟩ := List.mem_map.mp mem
    have := f.startAddress.toNat_lt
    rw [List.mem_range]
    omega
  have shorter := (numbers.subperm below).length_le
  rwa [List.length_map, List.length_range] at shorter

/-- The frames that calls give, none of which fails, are the first ones of the usable regions. -/
theorem taken_eq (disjoint : regions.Pairwise Apart) (aligned : ∀ r ∈ regions, r.Aligned)
    (low : ∀ r ∈ usable regions, r.stop ≤ 0x10000000000000)
    (taken : Taken (init regions) fs b) : fs = (framesInside regions).take fs.length := by
  have few : ∀ {fs : List PhysFrame} {b : BootInfoFrameAllocator}, fs.length < 2 ^ 64 →
      Taken (init regions) fs b → fs = (framesInside regions).take fs.length := by
    intro fs b few taken
    have results := allocations_eq low few
    unfold allocations at results
    have run : calls allocateFrame fs.length (init regions) = .ok (fs.map some, b) := taken
    rw [run, framesOf_inside aligned] at results
    have same : fs.map some = (List.range fs.length).map ((framesInside regions)[·]?) :=
      Except.ok.inj results
    have values := congrArg (List.filterMap id) same
    rw [taken_front] at values
    simpa using values
  have bound := length_le_of_nodup (framesInside_nodup disjoint aligned)
  by_cases small : fs.length < 2 ^ 64
  · exact few small taken
  · have cut : fs.take ((framesInside regions).length + 1) ++
        fs.drop ((framesInside regions).length + 1) = fs := List.take_append_drop _ _
    rw [← cut] at taken
    obtain ⟨c, first, -⟩ := taken.split
    have length : (fs.take ((framesInside regions).length + 1)).length =
        (framesInside regions).length + 1 := by
      rw [List.length_take]
      omega
    have same := congrArg List.length (few (by omega) first)
    rw [length, List.length_take] at same
    omega

end BootInfoFrameAllocator

/-! ### The frames that are handed out -/

namespace World

variable {μ α : Type} [Mapper μ] [FrameAllocator α] {w w' w'' : World μ α}

def Access.frame : Access → Option PhysFrame
  | .mapped _ frame => some frame
  | _ => none

/-- The frames of pages that were mapped, and of page tables. -/
def handed (w : World μ α) : List PhysFrame :=
  w.trace.filterMap Access.frame ++ tables w.mapper

/-- What the allocator has given was handed to pages and page tables. -/
def Hands (w w' : World μ α) : Prop :=
  ∃ fs, Taken w.frames fs w'.frames ∧ w'.handed.Perm (w.handed ++ fs)

theorem Hands.refl (w : World μ α) : Hands w w := ⟨[], .nil _, by simp⟩

theorem Hands.trans (first : Hands w w') (second : Hands w' w'') : Hands w w'' := by
  obtain ⟨fs, taken, perm⟩ := first
  obtain ⟨gs, taken', perm'⟩ := second
  refine ⟨fs ++ gs, taken.append taken', ?_⟩
  rw [← List.append_assoc]
  exact perm'.trans (perm.append_right gs)

theorem Mapped.hands {flags : PageFlags} {maps : List (Page × PhysFrame)} {fs : List PhysFrame}
    (mapped : Mapped flags maps fs w w') : Hands w w' := by
  obtain ⟨ts, tables, perm⟩ := mapped.tables
  refine ⟨fs, mapped.taken, ?_⟩
  have frames : (maps.map fun m => Access.mapped m.1 m.2).filterMap Access.frame =
      maps.map Prod.snd := by
    rw [List.filterMap_map]
    exact congrFun List.filterMap_eq_map' maps
  unfold handed
  rw [mapped.trace, List.filterMap_append, frames, tables, List.append_assoc, List.append_assoc]
  apply List.Perm.append_left
  rw [← List.append_assoc]
  refine (List.perm_append_comm.append_right ts).trans ?_
  rw [List.append_assoc]
  exact perm.append_left _

/-- An access that maps nothing hands out nothing. -/
theorem Hands.same (frames : w'.frames = w.frames) (tables' : tables w'.mapper = tables w.mapper)
    {accesses : List Access} (trace : w'.trace = w.trace ++ accesses)
    (plain : accesses.filterMap Access.frame = []) : Hands w w' := by
  refine ⟨[], ?_, ?_⟩
  · rw [frames]
    exact .nil _
  · unfold handed
    rw [trace, tables', List.filterMap_append, plain, List.append_nil, List.append_nil]

variable [LawfulMapper μ]

theorem mapPage_hands {flags : PageFlags} {page : Page} (run : w.mapPage flags page = .ok w') :
    Hands w w' := by
  obtain ⟨f, fs, -, mapped⟩ := mapPage_ok run
  exact mapped.hands

theorem loadSegment_hands {elfData : Slice} {h : ProgramHeader}
    (run : w.loadSegment elfData h = .ok w') : Hands w w' := by
  obtain ⟨v, last, maps, fs, bs, w1, w2, w3, steps⟩ := loadSegment_ok run
  obtain ⟨-, mapper3, frames3, trace3⟩ := steps.memory
  obtain ⟨mapper, rfl, -, -, tables'⟩ := steps.final
  have began : (w.observe (.segment h)).trace = w.trace ++ [.segment h] := rfl
  have start : Hands w (w.observe (.segment h)) := .same rfl rfl began rfl
  have finish : Hands w1 { w3 with mapper := mapper } := .same frames3 tables' trace3 rfl
  exact (start.trans steps.mapped.hands).trans finish

theorem loadHeader_hands {elfData : Slice} {h : ProgramHeader}
    (run : w.loadHeader elfData h = .ok w') : Hands w w' := by
  unfold loadHeader at run
  split at run
  · cases run
  · exact loadSegment_hands run
  · cases run
    exact .refl _

theorem loadElf_hands {parse : List UInt8 → Except Stop ElfFile} {elfData : Slice} {r : UInt64}
    (run : w.loadElf parse elfData = .ok (r, w')) : Hands w w' := by
  obtain ⟨bytes, -, rest⟩ := bind_ok run
  obtain ⟨elf, -, rest⟩ := bind_ok rest
  obtain ⟨w1, loop, rest⟩ := bind_ok rest
  obtain ⟨entry, -, same⟩ := bind_ok rest
  cases same
  exact foldlM_ok Hands.refl Hands.trans loadHeader_hands loop

theorem initHeap_hands (run : w.initHeap = .ok w') : Hands w w' := by
  obtain ⟨start, -, rest⟩ := bind_ok run
  obtain ⟨next, -, rest⟩ := bind_ok rest
  obtain ⟨last, -, rest⟩ := bind_ok rest
  exact foldlM_ok Hands.refl Hands.trans mapPage_hands rest

theorem setupUserStack_hands {baseAddr pages top : UInt64}
    (run : w.setupUserStack baseAddr pages = .ok (top, w')) : Hands w w' := by
  obtain ⟨base, -, rest⟩ := bind_ok run
  obtain ⟨w1, loop, rest⟩ := bind_ok rest
  obtain ⟨top', -, same⟩ := bind_ok rest
  cases same
  refine foldlM_ok Hands.refl Hands.trans (fun step => ?_) loop
  obtain ⟨addr, -, mapping⟩ := bind_ok step
  exact mapPage_hands mapping

end World

/-! ### Every use of the frames -/

/-- What takes frames from the allocator. -/
inductive FrameUse
  | heap
  | elf (parse : List UInt8 → Except Stop ElfFile) (elfData : Slice)
  | stack (baseAddr pages : UInt64)

def FrameUse.run {μ α : Type} [Mapper μ] [FrameAllocator α] (w : World μ α) :
    FrameUse → Except Stop (World μ α)
  | .heap => w.initHeap
  | .elf parse elfData => do
    let (_, w) ← w.loadElf parse elfData
    .ok w
  | .stack baseAddr pages => do
    let (_, w) ← w.setupUserStack baseAddr pages
    .ok w

theorem FrameUse.run_hands {μ α : Type} [Mapper μ] [LawfulMapper μ] [FrameAllocator α]
    {w w' : World μ α} {item : FrameUse} (run : item.run w = .ok w') : w.Hands w' := by
  cases item with
  | heap => exact World.initHeap_hands run
  | elf parse elfData =>
    obtain ⟨⟨entry, w1⟩, loaded, same⟩ := bind_ok run
    cases same
    exact World.loadElf_hands loaded
  | stack baseAddr pages =>
    obtain ⟨⟨top, w1⟩, mapped, same⟩ := bind_ok run
    cases same
    exact World.setupUserStack_hands mapped

namespace BootInfoFrameAllocator

variable {regions : List MemoryRegion}

/-- On disjoint and aligned regions, those that are usable below the end of the physical addresses,
the calls give every frame of the usable regions, in order, and then nothing, as a cursor that walks
the regions does; and whatever mix of uses takes the frames, none gets a frame that was given
before. -/
theorem allocations_exact (disjoint : regions.Pairwise Apart)
    (aligned : ∀ r ∈ regions, r.Aligned)
    (low : ∀ r ∈ regions, r.kind = .usable → r.stop ≤ 0x10000000000000) :
    (∀ n, n < 2 ^ 64 →
      allocations regions n = .ok ((List.range n).map ((framesInside regions)[·]?)) ∧
      FrameCursor.allocations regions n = allocations regions n) ∧
    (framesInside regions).Nodup ∧
    (∀ f, f ∈ framesInside regions ↔ ∃ r ∈ regions, r.kind = .usable ∧ r.Holds f) ∧
    (∀ r : MemoryRegion, r.inside.Pairwise fun f g => f.startAddress < g.startAddress) ∧
    ∀ (μ : Type) [Mapper μ] [LawfulMapper μ] (w w' : World μ BootInfoFrameAllocator)
      (uses : List FrameUse), w.frames = init regions → uses.foldlM FrameUse.run w = .ok w' →
      ∃ fs, w'.handed.Perm (w.handed ++ fs) ∧ fs.Nodup ∧ ∀ f ∈ fs, f ∈ framesInside regions := by
  have low' : ∀ r ∈ usable regions, r.stop ≤ 0x10000000000000 :=
    fun r mem => low r (mem_usable.mp mem).1 (mem_usable.mp mem).2
  refine ⟨fun n few => ?_, framesInside_nodup disjoint aligned, fun f => mem_framesInside aligned,
    fun r => inside_ascending, fun μ _ _ w w' uses start run => ?_⟩
  · have results := allocations_eq low' few
    rw [framesOf_inside aligned] at results
    rw [results, FrameCursor.allocations_eq]
    exact ⟨rfl, rfl⟩
  · obtain ⟨fs, taken, perm⟩ : w.Hands w' :=
      foldlM_ok World.Hands.refl World.Hands.trans FrameUse.run_hands run
    rw [start] at taken
    have first := taken_eq disjoint aligned low' taken
    refine ⟨fs, perm, ?_, fun f mem => ?_⟩
    · rw [first]
      exact List.Pairwise.take (framesInside_nodup disjoint aligned)
    · rw [first] at mem
      exact List.mem_of_mem_take mem

/-- Two usable regions, of which a reserved one and an empty one keep apart. -/
def pagedMemory : List MemoryRegion :=
  [⟨0, 0x2000, .usable⟩, ⟨0x2000, 0x3000, .bootloader⟩, ⟨0x3000, 0x3000, .usable⟩,
    ⟨0x4000, 0x6000, .usable⟩]

theorem allocations_exact_paged :
    allocations pagedMemory 6 =
      .ok [some ⟨0, rfl⟩, some ⟨0x1000, rfl⟩, some ⟨0x4000, rfl⟩, some ⟨0x5000, rfl⟩, none, none] :=
  ((allocations_exact (ascending_disjoint (by decide)) (by decide) (by decide)).1 6
    (by decide)).1.trans rfl

def highMemory : List MemoryRegion := [⟨0x10000000000000, 0x10000000001000, .usable⟩]

/-- A usable region beyond the physical addresses stops the allocator. -/
theorem high_region_panics :
    highMemory.Pairwise Apart ∧ (∀ r ∈ highMemory, r.Aligned) ∧
      framesInside highMemory ≠ [] ∧ allocations highMemory 1 = .error .panics :=
  ⟨List.pairwise_singleton _ _, by decide, by decide, rfl⟩

end BootInfoFrameAllocator

end Microkernel
