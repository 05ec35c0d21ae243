import Microkernel.Proof.Loading

/-! Which accesses `load_segment` makes.  It maps the pages that `mem_size` spans, clears `mem_size`
bytes and copies `file_size` bytes from `offset` on, and compares none of these fields with another
one or with the length of the file. -/

namespace Microkernel

open Lib

/-! ### Spans -/

section

variable {v n e last : UInt64} {i : Nat}

theorem offset_toNat (v : UInt64) (i : Nat) :
    (v + UInt64.ofNat i).toNat = (v.toNat + i) % 2 ^ 64 := by
  simp only [UInt64.toNat_add, UInt64.toNat_ofNat']
  omega

/-- The last page of a range that can be stored to, and that does not wrap around. -/
theorem span_last (start : Kernel.canonical v) (next : virtAdd v n = .ok e)
    (back : virtSub e 1 = .ok last) (noWrap : v.toNat + n.toNat ≤ 2 ^ 64)
    (stored : ∀ i, i < n.toNat → Kernel.canonical (v + UInt64.ofNat i)) :
    last.toNat + 1 = v.toNat + n.toNat ∧ last.toNat < 0x800000000000 ∨
      last.toNat + 1 = v.toNat + n.toNat ∧ 0xFFFF800000000000 ≤ v.toNat := by
  have inner := half_end next back
  rw [canonical_iff] at start
  have within : v.toNat < 0x800000000000 → v.toNat + n.toNat ≤ 0x800000000000 := by
    intro low
    by_contra past
    have middle := stored (0x800000000000 - v.toNat) (by omega)
    rw [canonical_iff, offset_toNat] at middle
    omega
  have place : (v + n).toNat = v.toNat + n.toNat := by
    rw [UInt64.toNat_add]
    omega
  have whole : Kernel.canonical (v + n) := by
    rw [canonical_iff, place]
    omega
  rw [virtAdd_canonical whole] at next
  obtain rfl := Except.ok.inj next
  unfold virtSub at back
  split at back
  · rename_i positive
    have less : (v + n - 1).toNat = v.toNat + n.toNat - 1 := by
      rw [UInt64.toNat_sub_of_le _ _ positive, place]
      rfl
    rw [UInt64.le_iff_toNat_le, place] at positive
    simp only [UInt64.reduceToNat] at positive
    obtain ⟨fine, same⟩ := virtAddr_ok back
    rw [canonical_iff] at fine
    have bound := last.toNat_lt
    rw [less] at same
    rcases same with rfl | ⟨high, far⟩
    · rw [less] at fine ⊢
      omega
    · omega
  · cases back

/-- A range that wraps around has no pages. -/
theorem span_wraps (start : Kernel.canonical v) (next : virtAdd v n = .ok e)
    (back : virtSub e 1 = .ok last) (wraps : 2 ^ 64 < v.toNat + n.toNat)
    (stored : ∀ i, i < n.toNat → Kernel.canonical (v + UInt64.ofNat i)) :
    last.toNat / 4096 < v.toNat / 4096 := by
  have size := n.toNat_lt
  have bound := v.toNat_lt
  rw [canonical_iff] at start
  have high : 0xFFFF800000000000 ≤ v.toNat := by
    rcases start with low | high
    · have middle := stored (0x800000000000 - v.toNat) (by omega)
      rw [canonical_iff, offset_toNat] at middle
      omega
    · exact high
  have few : v.toNat + n.toNat ≤ 2 ^ 64 + 0x800000000000 := by
    by_contra past
    have middle := stored (2 ^ 64 - v.toNat + 0x800000000000) (by omega)
    rw [canonical_iff, offset_toNat] at middle
    omega
  have place : (v + n).toNat + 2 ^ 64 = v.toNat + n.toNat := by
    rw [UInt64.toNat_add]
    omega
  obtain ⟨fine, same⟩ := virtAddr_ok next
  unfold virtSub at back
  split at back
  · rename_i positive
    have less : (e - 1).toNat = e.toNat - 1 := by
      rw [UInt64.toNat_sub_of_le _ _ positive]
      rfl
    rw [UInt64.le_iff_toNat_le] at positive
    simp only [UInt64.reduceToNat] at positive
    obtain ⟨fine', same'⟩ := virtAddr_ok back
    have bound' := last.toNat_lt
    rw [canonical_iff] at fine fine'
    rw [less] at same'
    rcases same with rfl | ⟨-, far⟩
    · rcases same' with rfl | ⟨-, far'⟩
      · rw [less]
        omega
      · omega
    · rcases same' with rfl | ⟨-, far'⟩
      · rw [less] at fine'
        omega
      · omega
  · cases back

/-- The number of pages that `n` bytes from `v` on span. -/
def spanned (v n : Nat) : Nat := (v % 4096 + n + 4095) / 4096

/-- The bytes from `v` on, some of which may be beyond the `n` bytes for which pages were mapped,
are in these pages. -/
theorem mem_span {m : UInt64} (start : Kernel.canonical v) (next : virtAdd v n = .ok e)
    (back : virtSub e 1 = .ok last) (noWrap : v.toNat + n.toNat ≤ 2 ^ 64)
    (stored : ∀ i, i < n.toNat → Kernel.canonical (v + UInt64.ofNat i))
    (stored' : ∀ i, i < m.toNat → Kernel.canonical (v + UInt64.ofNat i)) :
    (∀ i, i < m.toNat →
      alignDown (v + UInt64.ofNat i) ∈ rangeInclusive (alignDown v) (alignDown last)) ↔
    v.toNat % 4096 + m.toNat ≤ 4096 * spanned v.toNat n.toNat := by
  have size := m.toNat_lt
  have spans := span_last start next back noWrap stored
  have pages : last.toNat / 4096 + 1 = v.toNat / 4096 + spanned v.toNat n.toNat := by
    unfold spanned
    omega
  constructor
  · intro inside
    by_contra excess
    have mem := inside (4096 * spanned v.toNat n.toNat - v.toNat % 4096) (by omega)
    obtain ⟨-, low, high⟩ := mem_rangeInclusive.mp mem
    rw [offset_toNat] at low high
    omega
  · intro fits i less
    have near : v.toNat + i < 2 ^ 64 := by
      have := last.toNat_lt
      omega
    rw [mem_rangeInclusive, offset_toNat]
    refine ⟨stored' i less, ?_, ?_⟩
    · omega
    · omega

theorem mem_file {ptr len offset m : UInt64} :
    (∀ i, i < m.toNat → Memory.Within ptr len.toNat (ptr + offset + UInt64.ofNat i)) ↔
      m = 0 ∨ offset.toNat + m.toNat ≤ len.toNat := by
  have size := m.toNat_lt
  have bound := len.toNat_lt
  have place : ∀ i, (ptr + offset + UInt64.ofNat i - ptr).toNat =
      (offset.toNat + i) % 2 ^ 64 := by
    intro i
    have := ptr.toNat_lt
    have := offset.toNat_lt
    simp only [UInt64.toNat_sub, UInt64.toNat_add, UInt64.toNat_ofNat']
    omega
  unfold Memory.Within
  simp only [place]
  constructor
  · intro inside
    by_cases none_read : m.toNat = 0
    · exact .inl (UInt64.toNat_inj.mp none_read)
    · right
      by_contra excess
      have first := inside 0 (by omega)
      have last := inside (len.toNat - offset.toNat) (by omega)
      have := offset.toNat_lt
      omega
  · rintro (rfl | fits) i less
    · exact absurd less (Nat.not_lt_zero i)
    · omega

end

/-! ### Traces -/

/-- From pages that are mapped for a segment on, every read is of the file and every write to the
pages that were mapped for the segment. -/
def Contained (elfData : Slice) : List Page → List Access → Prop
  | _, [] => True
  | _, .segment _ :: rest => Contained elfData [] rest
  | pages, .mapped page _ :: rest => Contained elfData (page :: pages) rest
  | pages, .read a n :: rest =>
    (∀ i, i < n → Memory.Within elfData.ptr elfData.len.toNat (a + UInt64.ofNat i)) ∧
      Contained elfData pages rest
  | pages, .wrote a n :: rest =>
    (∀ i, i < n → alignDown (a + UInt64.ofNat i) ∈ pages) ∧ Contained elfData pages rest

/-- The segment's address range does not wrap around, the part from the file fits in the pages that
the segment spans, and it is in the file, if there is one. -/
structure ProgramHeader.Fits (len : UInt64) (h : ProgramHeader) : Prop where
  noWrap : ∀ v, virtAddr h.virtualAddr = .ok v → v.toNat + h.memSize.toNat ≤ 2 ^ 64
  inPages : ∀ v, virtAddr h.virtualAddr = .ok v →
    v.toNat % 4096 + h.fileSize.toNat ≤ 4096 * spanned v.toNat h.memSize.toNat
  inFile : h.fileSize = 0 ∨ h.offset.toNat + h.fileSize.toNat ≤ len.toNat

/-- The trace begins with the next segment, if there is one. -/
def Restarts (accesses : List Access) : Prop :=
  ∀ access rest, accesses = access :: rest → ∃ h, access = .segment h

theorem Contained.restart {elfData : Slice} {pages : List Page} {accesses : List Access}
    (restarts : Restarts accesses) :
    Contained elfData pages accesses ↔ Contained elfData [] accesses := by
  cases accesses with
  | nil => exact Iff.rfl
  | cons access rest =>
    obtain ⟨h, rfl⟩ := restarts access rest rfl
    exact Iff.rfl

theorem contained_maps {elfData : Slice} (maps : List (Page × PhysFrame)) (pages : List Page)
    (rest : List Access) :
    Contained elfData pages ((maps.map fun m => .mapped m.1 m.2) ++ rest) ↔
      Contained elfData ((maps.map Prod.fst).reverse ++ pages) rest := by
  induction maps generalizing pages with
  | nil => exact Iff.rfl
  | cons m maps ih =>
    rw [List.map_cons, List.cons_append, Contained, ih, List.map_cons, List.reverse_cons,
      List.append_assoc]
    exact Iff.rfl

namespace World

variable {μ α : Type} [Mapper μ] [FrameAllocator α] {w w' w1 w2 w3 : World μ α}
  {elfData : Slice} {h : ProgramHeader} {v last : UInt64} {maps : List (Page × PhysFrame)}
  {fs : List PhysFrame} {bs : List UInt8}

/-- A run of `load_segment` stays where it should exactly when the segment fits. -/
theorem SegmentRun.fits (run : SegmentRun elfData h v last maps fs bs w w1 w2 w3 w') :
    ((∀ i, i < h.memSize.toNat → alignDown (v + UInt64.ofNat i) ∈ maps.map Prod.fst) ∧
      (∀ i, i < h.fileSize.toNat →
        Memory.Within elfData.ptr elfData.len.toNat (elfData.ptr + h.offset + UInt64.ofNat i)) ∧
      ∀ i, i < h.fileSize.toNat → alignDown (v + UInt64.ofNat i) ∈ maps.map Prod.fst) ↔
    h.Fits elfData.len := by
  have start := (virtAddr_ok run.start).1
  obtain ⟨e, next, back⟩ := run.stop
  have stored : ∀ i, i < h.memSize.toNat → Kernel.canonical (v + UInt64.ofNat i) := by
    intro i less
    exact ((storeBytes_ok run.zeroed).2.1 i (by simpa using less)).canonical
  have stored' : ∀ i, i < h.fileSize.toNat → Kernel.canonical (v + UInt64.ofNat i) := by
    intro i less
    exact ((storeBytes_ok run.copied).2.1 i ((loadBytes_ok run.loaded).1.symm ▸ less)).canonical
  have same : ∀ u, virtAddr h.virtualAddr = .ok u → u = v :=
    fun u again => Except.ok.inj (again.symm.trans run.start)
  rw [run.pages, mem_file]
  constructor
  · rintro ⟨cleared, inFile, copied⟩
    have noWrap : v.toNat + h.memSize.toNat ≤ 2 ^ 64 := by
      by_contra wraps
      have behind := span_wraps start next back (by omega) stored
      have bound := v.toNat_lt
      obtain ⟨-, -, first⟩ := mem_rangeInclusive.mp (cleared 0 (by omega))
      rw [offset_toNat] at first
      omega
    have inPages := (mem_span start next back noWrap stored stored').mp copied
    exact ⟨fun u again => same u again ▸ noWrap, fun u again => same u again ▸ inPages, inFile⟩
  · intro fits
    have noWrap := fits.noWrap v run.start
    have spans : v.toNat % 4096 + h.memSize.toNat ≤ 4096 * spanned v.toNat h.memSize.toNat := by
      unfold spanned
      omega
    exact ⟨(mem_span start next back noWrap stored stored).mpr spans, fits.inFile,
      (mem_span start next back noWrap stored stored').mpr (fits.inPages v run.start)⟩

variable [LawfulMapper μ]

theorem loadSegment_trace (run : w.loadSegment elfData h = .ok w') :
    ∃ t, w'.trace = w.trace ++ .segment h :: t ∧ ∀ rest, Restarts rest →
      (Contained elfData [] (.segment h :: (t ++ rest)) ↔
        h.Fits elfData.len ∧ Contained elfData [] rest) := by
  obtain ⟨v, last, maps, fs, bs, w1, w2, w3, steps⟩ := loadSegment_ok run
  obtain ⟨mapper, rfl, -⟩ := steps.final
  refine ⟨(maps.map fun m => .mapped m.1 m.2) ++ [.wrote v h.memSize.toNat,
    .read (elfData.ptr + h.offset) h.fileSize.toNat, .wrote v h.fileSize.toNat], ?_, ?_⟩
  · show w3.trace = _
    rw [steps.memory.2.2.2, steps.mapped.trace]
    simp [observe]
  · intro rest restarts
    rw [List.append_assoc]
    simp only [Contained, contained_maps, List.append_nil, List.cons_append, List.nil_append,
      List.mem_reverse]
    rw [Contained.restart restarts, ← steps.fits]
    tauto

/-- Each header that is loaded adds its accesses to the trace. -/
theorem loadHeaders_trace {programs : List ProgramHeader}
    (run : programs.foldlM (loadHeader elfData) w = .ok w') :
    ∃ t, w'.trace = w.trace ++ t ∧ Restarts t ∧
      (Contained elfData [] t ↔
        ∀ h ∈ programs, h.type = some .load → h.Fits elfData.len) := by
  induction programs generalizing w with
  | nil =>
    cases run
    exact ⟨[], by simp, fun access rest => by simp, by simp [Contained]⟩
  | cons h programs ih =>
    rw [List.foldlM_cons] at run
    obtain ⟨mid, first, later⟩ := bind_ok run
    obtain ⟨t, trace, restarts, more⟩ := ih later
    unfold loadHeader at first
    split at first
    · cases first
    · rename_i load
      obtain ⟨s, trace', once⟩ := loadSegment_trace first
      refine ⟨.segment h :: (s ++ t), by simp [trace, trace'], ?_, ?_⟩
      · intro access rest same
        cases same
        exact ⟨h, rfl⟩
      · rw [once t restarts, more]
        simp [load]
    · rename_i other
      cases first
      refine ⟨t, trace, restarts, ?_⟩
      rw [more]
      simp [other]

variable {parse : List UInt8 → Except Stop ElfFile} {elf : ElfFile} {data : List UInt8} {r : UInt64}

/-- A `load_elf` that returns has read only the file, and written only to the pages that it mapped
for each segment, exactly when every segment fits. -/
theorem loadElf_contained (read : w.loadBytes elfData.ptr elfData.len.toNat = .ok data)
    (parsed : parse data = .ok elf) (run : w.loadElf parse elfData = .ok (r, w')) :
    ∃ t, w'.trace = w.trace ++ t ∧
      (Contained elfData [] t ↔ ∀ h ∈ elf.segments, h.Fits elfData.len) := by
  obtain ⟨t, trace, -, contained⟩ := loadHeaders_trace (loadElf_loop read parsed run).1
  refine ⟨t, trace, contained.trans ?_⟩
  simp [ElfFile.segments]

end World

namespace ElfFile

theorem smallFile_loads :
    ∃ w', (smallWorld (smallFile 0x400ffe 2 3)).loadElf read smallSlice = .ok (0x400ffe, w') := by
  obtain ⟨bytes, parsed⟩ := smallFile_read
  simp only [World.loadElf, bytes, parsed, bind, Except.bind]
  exact ⟨_, rfl⟩

theorem loadElf_contained_small :
    ∃ w' t, (smallWorld (smallFile 0x400ffe 2 3)).loadElf read smallSlice = .ok (0x400ffe, w') ∧
      w'.trace = t ∧
      (Contained smallSlice [] t ↔ ∀ h ∈ [smallSegment], h.Fits smallSlice.len) := by
  obtain ⟨w', run⟩ := smallFile_loads
  obtain ⟨t, trace, contained⟩ := World.loadElf_contained smallFile_read.1 smallFile_read.2 run
  exact ⟨w', t, run, trace, contained⟩

/-- A header that says one byte more than the file has makes the loader read the byte behind it. -/
theorem read_past_file :
    ∃ w' t, (smallWorld (smallFile 0x400ffe 3 3)).loadElf read smallSlice = .ok (0x400ffe, w') ∧
      w'.trace = t ∧ ¬ Contained smallSlice [] t := by
  have bytes : (smallWorld (smallFile 0x400ffe 3 3)).loadBytes smallSlice.ptr
      smallSlice.len.toNat = .ok (smallFile 0x400ffe 3 3) := by decide +kernel
  have parsed : read (smallFile 0x400ffe 3 3) =
      .ok ⟨[⟨some .load, false, true, 120, 0x400ffe, 3, 3⟩], 0x400ffe⟩ := by decide +kernel
  obtain ⟨w', run⟩ : ∃ w',
      (smallWorld (smallFile 0x400ffe 3 3)).loadElf read smallSlice = .ok (0x400ffe, w') := by
    simp only [World.loadElf, bytes, parsed, bind, Except.bind]
    exact ⟨_, rfl⟩
  obtain ⟨t, trace, -, contained⟩ :=
    World.loadHeaders_trace (World.loadElf_loop bytes parsed run).1
  refine ⟨w', t, run, trace, fun inside => ?_⟩
  have fits := contained.mp inside _ List.mem_cons_self rfl
  exact absurd fits.inFile (by decide)

end ElfFile

end Microkernel
