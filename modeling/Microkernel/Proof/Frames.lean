import Mathlib.Data.List.Pairwise
import Microkernel.Mem

/-! Which frames the allocator hands out.  Each call gives the next frame of one list, the frames
that the usable regions reach into, in order; on regions that start and end at frames these are
exactly the frames inside the usable regions. -/

namespace Microkernel

open Lib

namespace MemoryRegion

variable {r s : MemoryRegion} {i n : Nat}

def Contains (r : MemoryRegion) (a : UInt64) : Prop := r.start ≤ a ∧ a < r.stop

def Apart (r s : MemoryRegion) : Prop := ∀ a, ¬ (r.Contains a ∧ s.Contains a)

/-- The frame at `f` lies in the region. -/
def Holds (r : MemoryRegion) (f : PhysFrame) : Prop :=
  r.start ≤ f.startAddress ∧ f.startAddress.toNat + 4096 ≤ r.stop.toNat

instance (f : PhysFrame) : Decidable (r.Holds f) := inferInstanceAs (Decidable (_ ∧ _))

/-- The number of steps of 4096 bytes in the region. -/
def frameCount (r : MemoryRegion) : Nat := (r.stop.toNat - r.start.toNat + 4095) / 4096

/-- The frame of the region's step `i`. -/
def frameAt (r : MemoryRegion) (i : Nat) : PhysFrame :=
  .containingAddress (r.start + 4096 * UInt64.ofNat i)

/-- The frames that the region's steps give. -/
def frames (r : MemoryRegion) : List PhysFrame := (List.range r.frameCount).map r.frameAt

@[simp] theorem frames_length : r.frames.length = r.frameCount := by simp [frames]

theorem frames_eq : r.frames = (stepBy r.start r.stop 4096).map .containingAddress := by
  simp [frames, stepBy, frameCount, frameAt]

theorem step_toNat (step : i < r.frameCount) :
    (r.start + 4096 * UInt64.ofNat i).toNat = r.start.toNat + 4096 * i := by
  have := r.start.toNat_lt
  have := r.stop.toNat_lt
  unfold frameCount at step
  simp only [UInt64.toNat_add, UInt64.toNat_mul, UInt64.toNat_ofNat', UInt64.reduceToNat]
  omega

theorem frameAt_toNat (step : i < r.frameCount) :
    (r.frameAt i).startAddress.toNat = (r.start.toNat + 4096 * i) / 4096 * 4096 := by
  rw [frameAt, PhysFrame.containingAddress, alignDown_toNat, step_toNat step]

instance : Std.Symm Apart where
  symm _ _ apart := fun a both => apart a both.symm

/-- Regions in ascending order, each after the end of those before it. -/
theorem ascending_disjoint {regions : List MemoryRegion}
    (ascending : regions.Pairwise fun r s => r.stop ≤ s.start) : regions.Pairwise Apart := by
  refine ascending.imp fun after a both => ?_
  obtain ⟨⟨-, low⟩, high, -⟩ := both
  rw [UInt64.lt_iff_toNat_lt] at low
  rw [UInt64.le_iff_toNat_le] at after high
  omega

/-- A frame that one of several disjoint regions holds, and that a step of region `r` gives, is held
by `r`. -/
theorem Holds.same {regions : List MemoryRegion} (disjoint : regions.Pairwise Apart)
    (mem : r ∈ regions) (mem' : s ∈ regions) (step : i < r.frameCount)
    (held : s.Holds (r.frameAt i)) : r.Holds (r.frameAt i) := by
  have place := frameAt_toNat step
  have address := step_toNat step
  by_cases same : r = s
  · rw [same]
    rw [same] at held
    exact held
  · have apart : r.Apart s := disjoint.forall mem mem' same
    unfold frameCount at step
    have inside : r.Contains (r.start + 4096 * UInt64.ofNat i) := by
      simp only [Contains, UInt64.le_iff_toNat_le, UInt64.lt_iff_toNat_lt, address]
      omega
    have inside' : s.Contains (r.start + 4096 * UInt64.ofNat i) := by
      obtain ⟨low, high⟩ := held
      rw [UInt64.le_iff_toNat_le] at low
      simp only [Contains, UInt64.le_iff_toNat_le, UInt64.lt_iff_toNat_lt, address]
      omega
    exact absurd ⟨inside, inside'⟩ (apart _)

/-- A region that starts at a frame holds the frames of its steps, apart from the last one when it
does not end at a frame. -/
theorem holds_frameAt (start : r.start % 4096 = 0) (step : i < r.frameCount)
    (whole : i + 1 = r.frameCount → r.stop % 4096 = 0) : r.Holds (r.frameAt i) := by
  have place := frameAt_toNat step
  have start' : r.start.toNat % 4096 = 0 := by simpa using congrArg UInt64.toNat start
  have whole' : i + 1 = r.frameCount → r.stop.toNat % 4096 = 0 :=
    fun last => by simpa using congrArg UInt64.toNat (whole last)
  unfold frameCount at step whole'
  rw [Holds, UInt64.le_iff_toNat_le]
  omega

/-- A region that holds the frame of its first step starts at a frame. -/
theorem Holds.start_aligned (step : 0 < r.frameCount) (held : r.Holds (r.frameAt 0)) :
    r.start % 4096 = 0 := by
  have place := frameAt_toNat step
  obtain ⟨low, -⟩ := held
  rw [UInt64.le_iff_toNat_le] at low
  apply UInt64.toNat_inj.mp
  simp only [UInt64.toNat_mod, UInt64.reduceToNat]
  omega

/-- A region that holds the frames of its first and last step ends at a frame. -/
theorem Holds.stop_aligned (start : r.start % 4096 = 0) (last : i + 1 = r.frameCount)
    (held : r.Holds (r.frameAt i)) : r.stop % 4096 = 0 := by
  have place := frameAt_toNat (show i < r.frameCount by omega)
  have start' : r.start.toNat % 4096 = 0 := by simpa using congrArg UInt64.toNat start
  obtain ⟨-, high⟩ := held
  unfold frameCount at last
  apply UInt64.toNat_inj.mp
  simp only [UInt64.toNat_mod, UInt64.reduceToNat]
  omega

theorem frameAt_inj {j : Nat} (step : i < r.frameCount) (step' : j < r.frameCount)
    (same : r.frameAt i = r.frameAt j) : i = j := by
  have place := frameAt_toNat step
  have place' := frameAt_toNat step'
  rw [same] at place
  omega

theorem frames_nodup : r.frames.Nodup := by
  apply List.Nodup.map_on _ List.nodup_range
  intro i hi j hj same
  exact frameAt_inj (List.mem_range.mp hi) (List.mem_range.mp hj) same

theorem Holds.apart {f : PhysFrame} (disjoint : r.Apart s) (held : r.Holds f) : ¬ s.Holds f := by
  intro held'
  obtain ⟨low, high⟩ := held
  obtain ⟨low', high'⟩ := held'
  refine disjoint f.startAddress ⟨⟨low, ?_⟩, low', ?_⟩ <;>
    rw [UInt64.lt_iff_toNat_lt] <;> omega

/-! ### Several regions -/

/-- The frames that the steps of the regions give. -/
def framesOf (regions : List MemoryRegion) : List PhysFrame := regions.flatMap frames

theorem take_framesOf_cons {rs : List MemoryRegion} :
    (framesOf (r :: rs)).take n = r.frames.take n ++ (framesOf rs).take (n - r.frameCount) := by
  rw [framesOf, List.flatMap_cons, List.take_append, frames_length]
  rfl

theorem mem_frames_take {f : PhysFrame} :
    f ∈ r.frames.take n ↔ ∃ i, i < n ∧ i < r.frameCount ∧ r.frameAt i = f := by
  rw [frames, ← List.map_take, List.take_range, List.mem_map]
  simp [and_assoc]

/-- A region from which `n` calls take a frame starts at a frame, and one that they use up ends at a
frame. -/
def AlignedFor : Nat → List MemoryRegion → Prop
  | _, [] => True
  | n, r :: rs =>
    (0 < n → r.start % 4096 = 0) ∧ (r.frameCount ≤ n → r.stop % 4096 = 0) ∧
      AlignedFor (n - r.frameCount) rs

theorem AlignedFor.holds {rs : List MemoryRegion} (aligned : AlignedFor n rs) {f : PhysFrame}
    (mem : f ∈ (framesOf rs).take n) : ∃ r ∈ rs, r.Holds f := by
  induction rs generalizing n with
  | nil => simp [framesOf] at mem
  | cons r rs ih =>
    obtain ⟨start, stop, rest⟩ := aligned
    rw [take_framesOf_cons, List.mem_append] at mem
    rcases mem with mem | mem
    · obtain ⟨i, early, step, rfl⟩ := mem_frames_take.mp mem
      have whole : i + 1 = r.frameCount → r.stop % 4096 = 0 := fun last => stop (by omega)
      exact ⟨r, List.mem_cons_self, holds_frameAt (start (by omega)) step whole⟩
    · obtain ⟨s, later, held⟩ := ih rest mem
      exact ⟨s, List.mem_cons_of_mem r later, held⟩

theorem AlignedFor.nodup {rs : List MemoryRegion} (disjoint : rs.Pairwise Apart)
    (aligned : AlignedFor n rs) : ((framesOf rs).take n).Nodup := by
  induction rs generalizing n with
  | nil => simp [framesOf]
  | cons r rs ih =>
    obtain ⟨start, stop, rest⟩ := aligned
    obtain ⟨apart, disjoint⟩ := List.pairwise_cons.mp disjoint
    rw [take_framesOf_cons]
    apply List.Nodup.append (List.Pairwise.take frames_nodup) (ih disjoint rest)
    intro f here later
    obtain ⟨i, early, step, rfl⟩ := mem_frames_take.mp here
    have whole : i + 1 = r.frameCount → r.stop % 4096 = 0 := fun last => stop (by omega)
    obtain ⟨s, mem, held⟩ := rest.holds later
    exact Holds.apart (apart s mem) (holds_frameAt (start (by omega)) step whole) held

/-- Where each of the first `n` frames lies in one of the regions, the regions are aligned. -/
theorem AlignedFor.of_holds {regions rs : List MemoryRegion} (disjoint : regions.Pairwise Apart)
    (sub : rs ⊆ regions) (proper : ∀ r ∈ rs, r.start < r.stop)
    (held : ∀ f ∈ (framesOf rs).take n, ∃ s ∈ regions, s.Holds f) : AlignedFor n rs := by
  induction rs generalizing n with
  | nil => trivial
  | cons r rs ih =>
    have mem : r ∈ regions := sub List.mem_cons_self
    have nonempty : 0 < r.frameCount := by
      have := UInt64.lt_iff_toNat_lt.mp (proper r List.mem_cons_self)
      unfold frameCount
      omega
    have own : ∀ i, i < n → i < r.frameCount → r.Holds (r.frameAt i) := by
      intro i early step
      have taken : r.frameAt i ∈ (framesOf (r :: rs)).take n := by
        rw [take_framesOf_cons, List.mem_append]
        exact .inl (mem_frames_take.mpr ⟨i, early, step, rfl⟩)
      obtain ⟨s, mem', held⟩ := held _ taken
      exact held.same disjoint mem mem' step
    have start : 0 < n → r.start % 4096 = 0 := fun some_call =>
      (own 0 some_call nonempty).start_aligned nonempty
    refine ⟨start, fun used => ?_, ih (fun s hs => sub (List.mem_cons_of_mem r hs))
      (fun s hs => proper s (List.mem_cons_of_mem r hs)) fun f later => held f ?_⟩
    · obtain ⟨i, last⟩ : ∃ i, i + 1 = r.frameCount := ⟨r.frameCount - 1, by omega⟩
      exact (own i (by omega) (by omega)).stop_aligned (start (by omega)) last
    · rw [take_framesOf_cons, List.mem_append]
      exact .inr later

end MemoryRegion

open MemoryRegion

def usable (regions : List MemoryRegion) : List MemoryRegion :=
  regions.filter fun r => r.kind = .usable

theorem mem_usable {regions : List MemoryRegion} {r : MemoryRegion} :
    r ∈ usable regions ↔ r ∈ regions ∧ r.kind = .usable := by
  simp [usable]

theorem nth_ok {α : Type} (items : List α) (n : Nat) :
    nth (items.map Except.ok) n = .ok items[n]? := by
  induction items generalizing n with
  | nil => rfl
  | cons a items ih =>
    cases n with
    | zero => rfl
    | succ n => exact ih n

namespace BootInfoFrameAllocator

variable {regions : List MemoryRegion} {n : Nat}

/-- The results of the first `n` calls. -/
def allocations (regions : List MemoryRegion) (n : Nat) : Except Stop (List (Option PhysFrame)) :=
  (calls allocateFrame n (init regions)).map Prod.fst

theorem usableFrames_eq (allocator : BootInfoFrameAllocator)
    (low : ∀ r ∈ usable allocator.memoryRegions, r.stop ≤ 0x10000000000000) :
    allocator.usableFrames = (framesOf (usable allocator.memoryRegions)).map .ok := by
  have steps : framesOf (usable allocator.memoryRegions) =
      ((usable allocator.memoryRegions).flatMap fun r => stepBy r.start r.stop 4096).map
        .containingAddress := by
    rw [framesOf, List.map_flatMap]
    congr 1
    funext r
    exact frames_eq
  rw [steps, usableFrames, List.map_map]
  apply List.map_congr_left
  intro addr mem
  obtain ⟨r, here, step⟩ := List.mem_flatMap.mp mem
  obtain ⟨i, place, rfl⟩ := List.mem_map.mp step
  have inside : i < r.frameCount := by simpa [frameCount] using place
  have address := step_toNat inside
  have bound := UInt64.le_iff_toNat_le.mp (low r here)
  have valid : r.start + 4096 * UInt64.ofNat i < 0x10000000000000 := by
    unfold frameCount at inside
    rw [UInt64.lt_iff_toNat_lt, address]
    simp only [UInt64.reduceToNat] at bound ⊢
    omega
  simp [physAddr, valid, bind, Except.bind]

/-- The frames that are left to an allocator which `n` more calls bring to index `last`. -/
def Leaves (regions : List MemoryRegion) (last n : Nat) (allocator : BootInfoFrameAllocator)
    (left : List PhysFrame) : Prop :=
  allocator.memoryRegions = regions ∧ allocator.next.toNat + n = last ∧
    left = (framesOf (usable regions)).drop allocator.next.toNat

theorem Leaves.step {last : Nat} {allocator : BootInfoFrameAllocator} {left : List PhysFrame}
    (low : ∀ r ∈ usable regions, r.stop ≤ 0x10000000000000) (few : last < 2 ^ 64)
    (leaves : Leaves regions last (n + 1) allocator left) :
    allocator.allocateFrame = .ok (left.head?, { allocator with next := allocator.next + 1 }) ∧
      Leaves regions last n { allocator with next := allocator.next + 1 } left.tail := by
  obtain ⟨rfl, more, rfl⟩ := leaves
  have next : (allocator.next + 1).toNat = allocator.next.toNat + 1 := by
    simp only [UInt64.toNat_add, UInt64.reduceToNat]
    omega
  refine ⟨?_, rfl, ?_, ?_⟩
  · rw [allocateFrame, usableFrames_eq allocator low, nth_ok, List.head?_drop]
    rfl
  · show (allocator.next + 1).toNat + n = last
    omega
  · show _ = (framesOf (usable allocator.memoryRegions)).drop (allocator.next + 1).toNat
    rw [next, List.tail_drop]

/-- Below the end of the physical addresses, calls take the frames of the usable regions from the
front of the list. -/
theorem calls_allocateFrame (low : ∀ r ∈ usable regions, r.stop ≤ 0x10000000000000)
    {last : Nat} {allocator : BootInfoFrameAllocator} {left : List PhysFrame} (few : last < 2 ^ 64)
    (leaves : Leaves regions last n allocator left) :
    ∃ allocator', calls allocateFrame n allocator =
        .ok ((List.range n).map (left[·]?), allocator') ∧
      Leaves regions last 0 allocator' (left.drop n) := by
  have sim : ∀ n s l, Leaves regions last (n + 1) s l →
      ∃ a s' l', allocateFrame s = .ok (a, s') ∧ takeFront (ε := Stop) l = .ok (a, l') ∧
        Leaves regions last n s' l' := by
    intro n s l here
    obtain ⟨call, after⟩ := here.step low few
    exact ⟨_, _, _, call, rfl, after⟩
  obtain ⟨as, s', l', run, front, done⟩ := calls_sim sim leaves
  rw [calls_takeFront] at front
  cases front
  exact ⟨s', run, done⟩

theorem allocations_eq (low : ∀ r ∈ usable regions, r.stop ≤ 0x10000000000000)
    (few : n < 2 ^ 64) :
    allocations regions n =
      .ok ((List.range n).map ((framesOf (usable regions))[·]?)) := by
  have start : Leaves regions n n (init regions) (framesOf (usable regions)) :=
    ⟨rfl, Nat.zero_add n, rfl⟩
  obtain ⟨s, run, -⟩ := calls_allocateFrame low few start
  rw [allocations, run]
  rfl

theorem result_eq {frames : List PhysFrame} {i : Nat} {f : PhysFrame} :
    ((List.range n).map (frames[·]?))[i]? = some (some f) ↔ (frames.take n)[i]? = some f := by
  by_cases early : i < n
  · simp [early]
  · simp [early]

/-- On disjoint regions the frames handed out lie in usable regions, each in one, and are handed out
once, exactly when the usable regions from which they are taken are aligned. -/
theorem allocations_sound (disjoint : regions.Pairwise Apart)
    (proper : ∀ r ∈ regions, r.start < r.stop ∧ r.stop < 0x10000000000000) (few : n < 2 ^ 64) :
    (∃ results, allocations regions n = .ok results ∧
      (∀ f, some f ∈ results → ∃ r ∈ regions, r.kind = .usable ∧ r.Holds f) ∧
      ∀ (i j : Nat) (f : PhysFrame),
        results[i]? = some (some f) → results[j]? = some (some f) → i = j) ↔
    AlignedFor n (usable regions) := by
  have low : ∀ r ∈ usable regions, r.stop ≤ 0x10000000000000 := by
    intro r mem
    exact UInt64.le_of_lt (proper r (mem_usable.mp mem).1).2
  have apart : (usable regions).Pairwise Apart := disjoint.filter _
  rw [allocations_eq low few]
  constructor
  · rintro ⟨results, same, held, -⟩
    cases same
    have sub : usable regions ⊆ regions := fun r mem => (mem_usable.mp mem).1
    refine AlignedFor.of_holds disjoint sub (fun r mem => (proper r (sub mem)).1) fun f mem => ?_
    obtain ⟨i, taken⟩ := List.mem_iff_getElem?.mp mem
    obtain ⟨r, here, -, held⟩ := held f (List.mem_iff_getElem?.mpr ⟨i, result_eq.mpr taken⟩)
    exact ⟨r, here, held⟩
  · intro aligned
    refine ⟨_, rfl, fun f mem => ?_, fun i j f first second => ?_⟩
    · obtain ⟨i, taken⟩ := List.mem_iff_getElem?.mp mem
      obtain ⟨r, here, held⟩ :=
        aligned.holds (List.mem_iff_getElem?.mpr ⟨i, result_eq.mp taken⟩)
      exact ⟨r, (mem_usable.mp here).1, (mem_usable.mp here).2, held⟩
    · rw [result_eq] at first second
      have early := (List.getElem?_eq_some_iff.mp first).1
      exact (List.getElem?_inj early (aligned.nodup apart)).mp (first.trans second.symm)

/-- The low memory of a PC below the reserved area that starts at `0x9fc00`. -/
def lowMemory : List MemoryRegion :=
  [⟨0, 0x9fc00, .usable⟩, ⟨0x9fc00, 0xa0000, .unknownBios 2⟩]

theorem lowMemory_disjoint : lowMemory.Pairwise Apart := ascending_disjoint (by decide)

theorem allocations_sound_lowMemory :
    (∃ results, allocations lowMemory 159 = .ok results ∧
      (∀ f, some f ∈ results → ∃ r ∈ lowMemory, r.kind = .usable ∧ r.Holds f) ∧
      ∀ (i j : Nat) (f : PhysFrame),
        results[i]? = some (some f) → results[j]? = some (some f) → i = j) ↔
    AlignedFor 159 (usable lowMemory) :=
  allocations_sound lowMemory_disjoint (by decide) (by decide)

/-- Call 160 gives a frame whose last KiB is in the reserved area. -/
theorem frame_in_reserved :
    lowMemory.Pairwise Apart ∧
      (∀ r ∈ lowMemory, r.start < r.stop ∧ r.stop < 0x10000000000000) ∧
      ∃ results, allocations lowMemory 160 = .ok results ∧ some ⟨0x9f000, rfl⟩ ∈ results ∧
        ¬ ∃ r ∈ lowMemory, r.kind = .usable ∧ r.Holds ⟨0x9f000, rfl⟩ := by
  refine ⟨lowMemory_disjoint, by decide, _, allocations_eq (by decide) (by decide), ?_, by decide⟩
  exact List.mem_map.mpr ⟨159, by simp, rfl⟩

end BootInfoFrameAllocator

/-! ### Aligned regions -/

namespace MemoryRegion

variable {r : MemoryRegion} {rs : List MemoryRegion} {i n : Nat}

/-- The region starts and ends at frames. -/
def Aligned (r : MemoryRegion) : Prop := r.start % 4096 = 0 ∧ r.stop % 4096 = 0

instance : Decidable r.Aligned := inferInstanceAs (Decidable (_ ∧ _))

/-- The number of frames in the region. -/
def insideCount (r : MemoryRegion) : Nat := (r.stop.toNat - r.start.toNat) / 4096

/-- The frames in the region, in ascending order. -/
def inside (r : MemoryRegion) : List PhysFrame := (List.range r.insideCount).map r.frameAt

theorem inside_step (step : i < r.insideCount) : i < r.frameCount := by
  unfold insideCount at step
  unfold frameCount
  omega

theorem inside_ascending : r.inside.Pairwise fun f g => f.startAddress < g.startAddress := by
  rw [inside, List.pairwise_map]
  refine List.pairwise_lt_range.imp_of_mem fun hi hj less => ?_
  have first := frameAt_toNat (inside_step (List.mem_range.mp hi))
  have second := frameAt_toNat (inside_step (List.mem_range.mp hj))
  rw [UInt64.lt_iff_toNat_lt]
  omega

theorem Aligned.toNat (aligned : r.Aligned) :
    r.start.toNat % 4096 = 0 ∧ r.stop.toNat % 4096 = 0 := by
  constructor
  · simpa using congrArg UInt64.toNat aligned.1
  · simpa using congrArg UInt64.toNat aligned.2

theorem mem_inside (aligned : r.Aligned) {f : PhysFrame} : f ∈ r.inside ↔ r.Holds f := by
  obtain ⟨start, stop⟩ := aligned.toNat
  rw [inside, List.mem_map]
  constructor
  · rintro ⟨i, step, rfl⟩
    rw [List.mem_range] at step
    exact holds_frameAt aligned.1 (inside_step step) fun _ => aligned.2
  · rintro ⟨low, high⟩
    have whole : f.startAddress.toNat % 4096 = 0 := by simpa using congrArg UInt64.toNat f.aligned
    rw [UInt64.le_iff_toNat_le] at low
    have step : (f.startAddress.toNat - r.start.toNat) / 4096 < r.insideCount := by
      unfold insideCount
      omega
    refine ⟨_, List.mem_range.mpr step, PhysFrame.ext (UInt64.toNat_inj.mp ?_)⟩
    rw [frameAt_toNat (inside_step step)]
    omega

/-- The steps of an aligned region give the frames in it. -/
theorem frames_inside (aligned : r.Aligned) : r.frames = r.inside := by
  obtain ⟨start, stop⟩ := aligned.toNat
  have same : r.frameCount = r.insideCount := by
    unfold frameCount insideCount
    omega
  rw [frames, inside, same]

/-- The frames in the usable regions, in the order of the regions. -/
def framesInside (regions : List MemoryRegion) : List PhysFrame := (usable regions).flatMap inside

theorem framesOf_inside (aligned : ∀ r ∈ rs, r.Aligned) :
    framesOf (usable rs) = framesInside rs := by
  apply List.flatMap_congr
  intro r mem
  exact frames_inside (aligned r (mem_usable.mp mem).1)

theorem alignedFor_of_aligned (aligned : ∀ r ∈ rs, r.Aligned) : AlignedFor n rs := by
  induction rs generalizing n with
  | nil => trivial
  | cons r rs ih =>
    have here := aligned r List.mem_cons_self
    exact ⟨fun _ => here.1, fun _ => here.2, ih fun s mem => aligned s (List.mem_cons_of_mem r mem)⟩

theorem framesInside_nodup {regions : List MemoryRegion} (disjoint : regions.Pairwise Apart)
    (aligned : ∀ r ∈ regions, r.Aligned) : (framesInside regions).Nodup := by
  rw [← framesOf_inside aligned]
  have all : (framesOf (usable regions)).take (framesOf (usable regions)).length =
      framesOf (usable regions) := List.take_length
  rw [← all]
  have aligned' : ∀ r ∈ usable regions, r.Aligned := fun r mem => aligned r (mem_usable.mp mem).1
  exact (alignedFor_of_aligned aligned').nodup (disjoint.filter _)

theorem mem_framesInside {regions : List MemoryRegion} (aligned : ∀ r ∈ regions, r.Aligned)
    {f : PhysFrame} :
    f ∈ framesInside regions ↔
      ∃ r ∈ regions, r.kind = .usable ∧ r.Holds f := by
  simp only [framesInside, List.mem_flatMap, mem_usable]
  constructor
  · rintro ⟨r, ⟨mem, kind⟩, here⟩
    exact ⟨r, mem, kind, (mem_inside (aligned r mem)).mp here⟩
  · rintro ⟨r, mem, kind, here⟩
    exact ⟨r, ⟨mem, kind⟩, (mem_inside (aligned r mem)).mpr here⟩

end MemoryRegion

/-! ### A cursor

An allocator that walks the regions once: it remembers the regions that are not used up and how many
frames of the first one it has handed out. -/

structure FrameCursor where
  handedOut : Nat
  regions : List MemoryRegion

namespace FrameCursor

def advance : Nat → List MemoryRegion → Option PhysFrame × FrameCursor
  | _, [] => (none, ⟨0, []⟩)
  | i, r :: rs =>
    if r.kind = .usable ∧ r.start.toNat + 4096 * i + 4096 ≤ r.stop.toNat then
      (some (r.frameAt i), ⟨i + 1, r :: rs⟩)
    else
      advance 0 rs

def allocateFrame (cursor : FrameCursor) : Except Stop (Option PhysFrame × FrameCursor) :=
  .ok (advance cursor.handedOut cursor.regions)

/-- The frames that are left to the cursor. -/
def left : FrameCursor → List PhysFrame
  | ⟨_, []⟩ => []
  | ⟨i, r :: rs⟩ => (if r.kind = .usable then r.inside.drop i else []) ++ framesInside rs

theorem left_start (regions : List MemoryRegion) : left ⟨0, regions⟩ = framesInside regions := by
  cases regions with
  | nil => rfl
  | cons r rs => by_cases kind : r.kind = .usable <;> simp [left, framesInside, usable, kind]

theorem left_cons (i : Nat) (r : MemoryRegion) (rs : List MemoryRegion) :
    left ⟨i, r :: rs⟩ = (if r.kind = .usable then r.inside.drop i else []) ++ framesInside rs := rfl

theorem advance_eq (i : Nat) (regions : List MemoryRegion) :
    (advance i regions).1 = (left ⟨i, regions⟩).head? ∧
      left (advance i regions).2 = (left ⟨i, regions⟩).tail := by
  induction regions generalizing i with
  | nil => exact ⟨rfl, rfl⟩
  | cons r rs ih =>
    have skipped := ih 0
    rw [left_start] at skipped
    rw [left_cons]
    by_cases kind : r.kind = .usable
    · by_cases more : i < r.insideCount
      · have fits : r.start.toNat + 4096 * i + 4096 ≤ r.stop.toNat := by
          unfold insideCount at more
          omega
        have shown : r.inside.drop i = r.frameAt i :: r.inside.drop (i + 1) := by
          rw [List.drop_eq_getElem_cons (by simpa [inside] using more)]
          simp [inside]
        simp [advance, left_cons, kind, fits, shown]
      · have used : ¬ r.start.toNat + 4096 * i + 4096 ≤ r.stop.toNat := by
          unfold insideCount at more
          omega
        have none_left : r.inside.drop i = [] :=
          List.drop_eq_nil_of_le (by simpa [inside] using more)
        simpa [advance, kind, used, none_left] using skipped
    · simpa [advance, kind] using skipped

/-- The results of the first `n` calls. -/
def allocations (regions : List MemoryRegion) (n : Nat) : Except Stop (List (Option PhysFrame)) :=
  (calls allocateFrame n ⟨0, regions⟩).map Prod.fst

theorem allocations_eq (regions : List MemoryRegion) (n : Nat) :
    allocations regions n = .ok ((List.range n).map ((framesInside regions)[·]?)) := by
  have sim : ∀ (_ : Nat) (c : FrameCursor) (l : List PhysFrame), c.left = l →
      ∃ a c' l', c.allocateFrame = .ok (a, c') ∧ takeFront (ε := Stop) l = .ok (a, l') ∧
        c'.left = l' := by
    rintro - c l rfl
    obtain ⟨front, rest⟩ := advance_eq c.handedOut c.regions
    exact ⟨_, _, _, rfl, by rw [takeFront, front], rest⟩
  obtain ⟨as, c', l', run, front, -⟩ :=
    calls_sim (R := fun _ (c : FrameCursor) l => c.left = l) sim (n := n) (left_start regions)
  rw [calls_takeFront] at front
  cases front
  rw [allocations, run]
  rfl

end FrameCursor

end Microkernel
