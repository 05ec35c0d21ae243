import Microkernel.Proof.Mapping

/-! One run of `load_segment`: what it computes, in which steps, and what it leaves in the pages of
a well-formed segment. -/

namespace Microkernel

open Lib

/-! ### Geometry -/

namespace ProgramHeader

variable {h : ProgramHeader} {data : List UInt8} {p : Page} {i : Nat}

/-- The address of byte `i` of the segment. -/
def at' (h : ProgramHeader) (i : Nat) : UInt64 := h.virtualAddr + UInt64.ofNat i

/-- The segment has a byte in the page. -/
def Touches (h : ProgramHeader) (p : Page) : Prop :=
  ∃ i, i < h.memSize.toNat ∧ alignDown (h.at' i) = p

/-- Byte `i` of the segment's image. -/
def image (h : ProgramHeader) (data : List UInt8) (i : Nat) : UInt8 :=
  if i < h.fileSize.toNat then data.getD (h.offset.toNat + i) 0 else 0

/-- The segment is not empty, its file part is part of it and of the file, and its bytes have
canonical addresses. -/
structure WellFormed (data : List UInt8) (h : ProgramHeader) : Prop where
  nonempty : 1 ≤ h.memSize
  fileSize_le : h.fileSize ≤ h.memSize
  inFile : h.offset.toNat + h.fileSize.toNat ≤ data.length
  noWrap : h.virtualAddr.toNat + h.memSize.toNat ≤ 2 ^ 64
  canonical : ∀ i, i < h.memSize.toNat → Kernel.canonical (h.at' i)

/-- The segment ends where one half of the addresses ends. -/
def EndsHalf (h : ProgramHeader) : Prop :=
  h.virtualAddr.toNat + h.memSize.toNat = 0x800000000000 ∨
    h.virtualAddr.toNat + h.memSize.toNat = 0x10000000000000000

instance : Decidable h.EndsHalf := inferInstanceAs (Decidable (_ ∨ _))

/-- The address of the last byte of the segment. -/
def last (h : ProgramHeader) : UInt64 := h.virtualAddr + h.memSize - 1

/-- The pages that `load_segment` maps for the segment. -/
def pages (h : ProgramHeader) : List Page :=
  rangeInclusive (alignDown h.virtualAddr) (alignDown h.last)

theorem WellFormed.size_pos (fine : h.WellFormed data) : 0 < h.memSize.toNat := by
  have := UInt64.le_iff_toNat_le.mp fine.nonempty
  simp only [UInt64.reduceToNat] at this
  omega

theorem WellFormed.at_toNat (fine : h.WellFormed data) (less : i < h.memSize.toNat) :
    (h.at' i).toNat = h.virtualAddr.toNat + i := by
  have := fine.noWrap
  simp only [at', UInt64.toNat_add, UInt64.toNat_ofNat']
  omega

theorem WellFormed.at_inj (fine : h.WellFormed data) {j : Nat} (less : i < h.memSize.toNat)
    (less' : j < h.memSize.toNat) (same : h.at' i = h.at' j) : i = j := by
  have first := fine.at_toNat less
  rw [same, fine.at_toNat less'] at first
  omega

theorem WellFormed.last_toNat (fine : h.WellFormed data) :
    h.last.toNat = h.virtualAddr.toNat + h.memSize.toNat - 1 := by
  have := fine.noWrap
  have := fine.size_pos
  simp only [last, UInt64.toNat_add, UInt64.toNat_sub, UInt64.reduceToNat]
  omega

/-- The segment lies in one half of the addresses. -/
theorem WellFormed.half (fine : h.WellFormed data) :
    h.virtualAddr.toNat + h.memSize.toNat ≤ 0x800000000000 ∨
      0xFFFF800000000000 ≤ h.virtualAddr.toNat := by
  have first := canonical_iff.mp (fine.canonical 0 fine.size_pos)
  rw [fine.at_toNat fine.size_pos] at first
  by_cases low : h.virtualAddr.toNat < 0x800000000000
  · by_cases past : 0x800000000000 - h.virtualAddr.toNat < h.memSize.toNat
    · have middle := canonical_iff.mp (fine.canonical _ past)
      rw [fine.at_toNat past] at middle
      omega
    · omega
  · omega

theorem WellFormed.last_canonical (fine : h.WellFormed data) : Kernel.canonical h.last := by
  have := fine.size_pos
  have := fine.noWrap
  have := fine.half
  rw [canonical_iff, fine.last_toNat]
  omega

/-- The first address from `v` on in a page that does not end before `v`. -/
theorem page_first {v q : Nat} (whole : q / 4096 * 4096 = q) (low : v / 4096 ≤ q / 4096) :
    (v + (q - v)) / 4096 * 4096 = q := by
  by_cases inside : v ≤ q
  · rw [Nat.add_sub_cancel' inside, whole]
  · have same : v / 4096 = q / 4096 := by omega
    have stay : v + (q - v) = v := by omega
    rw [stay, same, whole]

/-- The pages from the first to the last address of a segment are those that it touches. -/
theorem WellFormed.mem_pages (fine : h.WellFormed data) :
    p ∈ h.pages ↔ h.Touches p := by
  have positive := fine.size_pos
  have last := fine.last_toNat
  constructor
  · intro mem
    have whole := rangeInclusive_page mem
    rw [← whole] at mem
    obtain ⟨-, low, high⟩ := mem_rangeInclusive.mp mem
    have place : p.toNat / 4096 * 4096 = p.toNat := by rw [← alignDown_toNat, whole]
    have less : p.toNat - h.virtualAddr.toNat < h.memSize.toNat := by omega
    refine ⟨_, less, UInt64.toNat_inj.mp ?_⟩
    rw [alignDown_toNat, fine.at_toNat less]
    exact page_first place low
  · rintro ⟨i, less, rfl⟩
    have canon := fine.canonical i less
    have place := fine.at_toNat less
    have low : h.virtualAddr.toNat / 4096 ≤ (h.at' i).toNat / 4096 := by omega
    have high : (h.at' i).toNat / 4096 ≤ h.last.toNat / 4096 := by omega
    exact mem_rangeInclusive.mpr ⟨canon, low, high⟩

theorem WellFormed.start (fine : h.WellFormed data) :
    virtAddr h.virtualAddr = .ok h.virtualAddr := by
  apply virtAddr_canonical
  simpa [at'] using fine.canonical 0 fine.size_pos

theorem WellFormed.addresses (fine : h.WellFormed data) (inner : ¬ h.EndsHalf) :
    virtAdd h.virtualAddr h.memSize = .ok (h.virtualAddr + h.memSize) ∧
      virtSub (h.virtualAddr + h.memSize) 1 = .ok h.last := by
  have positive := fine.size_pos
  have noWrap := fine.noWrap
  have half := fine.half
  unfold EndsHalf at inner
  have place : (h.virtualAddr + h.memSize).toNat = h.virtualAddr.toNat + h.memSize.toNat := by
    rw [UInt64.toNat_add]
    omega
  constructor
  · apply virtAdd_canonical
    rw [canonical_iff, place]
    omega
  · apply virtSub_canonical _ fine.last_canonical
    rw [UInt64.le_iff_toNat_le, place]
    simp only [UInt64.reduceToNat]
    omega

theorem inner_of_last {e l : UInt64} (next : virtAdd h.virtualAddr h.memSize = .ok e)
    (back : virtSub e 1 = .ok l) : ¬ h.EndsHalf := half_end next back

end ProgramHeader

/-! ### One run -/

namespace World

variable {μ α : Type} [Mapper μ] [FrameAllocator α] {w w' : World μ α} {a x : UInt64}
  {elfData : Slice} {h : ProgramHeader} {data : List UInt8} {i : Nat}

/-- The steps of a `load_segment` that returns. -/
structure SegmentRun (elfData : Slice) (h : ProgramHeader) (v last : UInt64)
    (maps : List (Page × PhysFrame)) (fs : List PhysFrame) (bs : List UInt8)
    (w w1 w2 w3 w' : World μ α) : Prop where
  start : virtAddr h.virtualAddr = .ok v
  stop : ∃ e, virtAdd v h.memSize = .ok e ∧ virtSub e 1 = .ok last
  pages : maps.map Prod.fst = rangeInclusive (alignDown v) (alignDown last)
  few : fs.length ≤ 4 * maps.length
  mapped : Mapped ⟨true, true, false⟩ maps fs (w.observe (.segment h)) w1
  zeroed : (w1.observe (.wrote v h.memSize.toNat)).storeBytes v
    (List.replicate h.memSize.toNat 0) = .ok w2
  loaded : (w2.observe (.read (elfData.ptr + h.offset) h.fileSize.toNat)).loadBytes
    (elfData.ptr + h.offset) h.fileSize.toNat = .ok bs
  copied : ((w2.observe (.read (elfData.ptr + h.offset) h.fileSize.toNat)).observe
    (.wrote v h.fileSize.toNat)).storeBytes v bs = .ok w3
  finish : (if h.isWrite then .ok w3
    else (maps.map Prod.fst).foldlM (setFlags ⟨false, true, false⟩) w3) = .ok w'

theorem loadSegment_ok [LawfulMapper μ] (run : w.loadSegment elfData h = .ok w') :
    ∃ v last maps fs bs w1 w2 w3, SegmentRun elfData h v last maps fs bs w w1 w2 w3 w' := by
  obtain ⟨v, start, rest⟩ := bind_ok run
  obtain ⟨e, next, rest⟩ := bind_ok rest
  obtain ⟨last, back, rest⟩ := bind_ok rest
  obtain ⟨w1, mapping, rest⟩ := bind_ok rest
  obtain ⟨w2, zeroed, rest⟩ := bind_ok rest
  obtain ⟨w3, copying, finish⟩ := bind_ok rest
  obtain ⟨bs, loaded, copied⟩ := bind_ok copying
  obtain ⟨maps, fs, pages, few, mapped⟩ := mapPages_ok mapping
  rw [← pages, List.length_map] at few
  rw [← pages] at finish
  exact ⟨v, last, maps, fs, bs, w1, w2, w3, start, ⟨e, next, back⟩, pages, few, mapped,
    zeroed, loaded, copied, finish⟩

/-- The file is in memory that none of the frames `fs` is part of. -/
def Source (elfData : Slice) (data : List UInt8) (fs : List PhysFrame) (w : World μ α) : Prop :=
  ∀ i, i < data.length → ∃ x, w.Shows (elfData.ptr + UInt64.ofNat i) x ∧
    data[i]? = some (w.phys x) ∧ ∀ f ∈ fs, ¬ f.Has x

/-- The segments are in memory and nothing else has changed: `fs` are the frames that the allocator
has given. -/
structure Effect (data : List UInt8) (segments : List ProgramHeader) (fs : List PhysFrame)
    (w w' : World μ α) : Prop where
  taken : Taken w.frames fs w'.frames
  free : ∀ h ∈ segments, ∀ p, h.Touches p → entry w.mapper p = none
  touched : ∀ h ∈ segments, ∀ p, h.Touches p →
    ∃ f ∈ fs, entry w'.mapper p = some ⟨f, ⟨h.isWrite, true, false⟩⟩
  others : ∀ p, (∀ h ∈ segments, ¬ h.Touches p) → entry w'.mapper p = entry w.mapper p
  apart : ∀ p q e e', entry w.mapper p = none → entry w.mapper q = none →
    entry w'.mapper p = some e → entry w'.mapper q = some e' → e.frame = e'.frame → p = q
  bytes : ∀ h ∈ segments, ∀ i, i < h.memSize.toNat →
    ∃ x, w'.Shows (h.at' i) x ∧ w'.phys x = h.image data i
  untouched : ∀ x, (∀ h ∈ segments, ∀ i, i < h.memSize.toNat → ¬ w'.Shows (h.at' i) x) →
    w'.phys x = w.phys x

namespace SegmentRun

variable {v last : UInt64} {maps : List (Page × PhysFrame)} {fs : List PhysFrame} {bs : List UInt8}
  {w1 w2 w3 : World μ α}

/-- The pages that are mapped for a well-formed segment. -/
theorem place (run : SegmentRun elfData h v last maps fs bs w w1 w2 w3 w')
    (fine : h.WellFormed data) : v = h.virtualAddr ∧ maps.map Prod.fst = h.pages := by
  obtain rfl : h.virtualAddr = v := Except.ok.inj (fine.start.symm.trans run.start)
  obtain ⟨e, next, back⟩ := run.stop
  obtain ⟨next', back'⟩ := fine.addresses (h.inner_of_last next back)
  rw [next'] at next
  cases next
  rw [back'] at back
  cases back
  exact ⟨rfl, run.pages⟩

theorem geometry (run : SegmentRun elfData h v last maps fs bs w w1 w2 w3 w')
    (fine : h.WellFormed data) :
    v = h.virtualAddr ∧ ∀ p, p ∈ maps.map Prod.fst ↔ h.Touches p := by
  obtain ⟨start, pages⟩ := run.place fine
  refine ⟨start, fun p => ?_⟩
  rw [pages]
  exact fine.mem_pages

/-- The copy and the zeroing change physical memory only. -/
theorem memory (run : SegmentRun elfData h v last maps fs bs w w1 w2 w3 w') :
    w2.mapper = w1.mapper ∧ w3.mapper = w1.mapper ∧ w3.frames = w1.frames ∧
      w3.trace = w1.trace ++ [.wrote v h.memSize.toNat,
        .read (elfData.ptr + h.offset) h.fileSize.toNat, .wrote v h.fileSize.toNat] := by
  obtain ⟨⟨phys, rfl⟩, -, -⟩ := storeBytes_ok run.zeroed
  obtain ⟨⟨phys', rfl⟩, -, -⟩ := storeBytes_ok run.copied
  exact ⟨rfl, rfl, rfl, by simp [observe]⟩

/-- The flags of the pages are those of the segment in the end. -/
theorem final [LawfulMapper μ] (run : SegmentRun elfData h v last maps fs bs w w1 w2 w3 w') :
    ∃ mapper, w' = { w3 with mapper := mapper } ∧
      (∀ m ∈ maps, entry mapper m.1 = some ⟨m.2, ⟨h.isWrite, true, false⟩⟩) ∧
      (∀ p, p ∉ maps.map Prod.fst → entry mapper p = entry w.mapper p) ∧
      tables mapper = tables w1.mapper := by
  have same := run.memory.2.1
  have finish := run.finish
  by_cases writes : h.isWrite = true
  · rw [if_pos writes] at finish
    cases finish
    refine ⟨_, rfl, fun m mem => ?_, fun p apart => ?_, by rw [same]⟩
    · rw [same, run.mapped.mapped m mem, writes]
    · rw [same, run.mapped.others p apart]
      rfl
  · rw [if_neg writes] at finish
    have present : ∀ p ∈ maps.map Prod.fst, ∃ e, entry w3.mapper p = some e := by
      intro p mem
      obtain ⟨m, inside, rfl⟩ := List.mem_map.mp mem
      exact ⟨_, by rw [same, run.mapped.mapped m inside]⟩
    obtain ⟨mapper, set, inside, outside, kept⟩ :=
      setFlagsAll_mapped ⟨false, true, false⟩ present
    rw [set] at finish
    cases finish
    refine ⟨mapper, rfl, fun m mem => ?_, fun p apart => ?_, by rw [kept, same]⟩
    · have found := run.mapped.mapped m mem
      rw [← same] at found
      have kept : h.isWrite = false := by simpa using writes
      rw [inside _ (List.mem_map_of_mem mem) _ found, kept]
    · rw [outside p apart, same, run.mapped.others p apart]
      rfl

theorem page (run : SegmentRun elfData h v last maps fs bs w w1 w2 w3 w')
    (fine : h.WellFormed data) (less : i < h.memSize.toNat) :
    alignDown (h.at' i) ∈ maps.map Prod.fst :=
  ((run.geometry fine).2 _).mpr ⟨i, less, rfl⟩

theorem separate (run : SegmentRun elfData h v last maps fs bs w w1 w2 w3 w')
    (fine : h.WellFormed data) (nodup : fs.Nodup) {j : Nat} (less : i < h.memSize.toNat)
    (less' : j < h.memSize.toNat) (here : w1.Shows (h.at' i) x) (there : w1.Shows (h.at' j) x) :
    i = j :=
  fine.at_inj less less'
    (run.mapped.separate nodup (run.page fine less) (run.page fine less') here there)

/-- Every byte of the segment is cleared first. -/
theorem zero (run : SegmentRun elfData h v last maps fs bs w w1 w2 w3 w')
    (fine : h.WellFormed data) (nodup : fs.Nodup) (less : i < h.memSize.toNat)
    (here : w1.Shows (h.at' i) x) : w2.phys x = 0 := by
  obtain ⟨rfl, -⟩ := run.geometry fine
  have length : (List.replicate h.memSize.toNat (0 : UInt8)).length = h.memSize.toNat :=
    List.length_replicate
  have stored := storeBytes_inside run.zeroed
    (fun i j x hi hj => run.separate fine nodup (length ▸ hi) (length ▸ hj))
    (i := i) (length.symm ▸ less) here
  rw [List.getElem?_replicate_of_lt less] at stored
  exact (Option.some.inj stored).symm

/-- The clearing leaves the file alone. -/
theorem source_kept (run : SegmentRun elfData h v last maps fs bs w w1 w2 w3 w')
    (fine : h.WellFormed data) (source : Source elfData data fs w) (less : i < data.length) :
    ∃ x, w2.Shows (elfData.ptr + UInt64.ofNat i) x ∧ data[i]? = some (w2.phys x) := by
  obtain ⟨rfl, -⟩ := run.geometry fine
  obtain ⟨x, shown, value, apart⟩ := source i less
  have shown1 : w1.Shows (elfData.ptr + UInt64.ofNat i) x := by
    refine shown.congr fun e found => ⟨e.flags, ?_⟩
    rw [run.mapped.others]
    · exact found
    · intro mem
      obtain ⟨m, inside, page⟩ := List.mem_map.mp mem
      have free := run.mapped.free m inside
      rw [page] at free
      exact absurd (free.symm.trans found) (by simp)
  have kept : w2.phys x = w1.phys x := by
    refine (storeBytes_ok run.zeroed).2.2 x fun j before there => ?_
    rw [List.length_replicate] at before
    obtain ⟨f, inside, has⟩ := run.mapped.has (run.page fine before) there
    exact apart f inside has
  refine ⟨x, shown1.congr fun e found => ⟨e.flags, ?_⟩, ?_⟩
  · rw [run.memory.1]
    exact found
  · rw [kept, run.mapped.phys]
    exact value

theorem copied_bytes (run : SegmentRun elfData h v last maps fs bs w w1 w2 w3 w')
    (fine : h.WellFormed data) (source : Source elfData data fs w) (less : i < h.fileSize.toNat) :
    bs[i]? = data[h.offset.toNat + i]? := by
  have inFile := fine.inFile
  obtain ⟨x, shown, value⟩ :=
    run.source_kept fine source (show h.offset.toNat + i < data.length by omega)
  obtain ⟨y, there, copied⟩ := (loadBytes_ok run.loaded).2 i less
  have address : elfData.ptr + h.offset + UInt64.ofNat i =
      elfData.ptr + UInt64.ofNat (h.offset.toNat + i) := by
    rw [UInt64.ofNat_add, UInt64.ofNat_toNat, UInt64.add_assoc]
  rw [address] at there
  obtain rfl := shown.unique there
  exact copied.trans value.symm

theorem image (run : SegmentRun elfData h v last maps fs bs w w1 w2 w3 w')
    (fine : h.WellFormed data) (nodup : fs.Nodup) (source : Source elfData data fs w)
    (less : i < h.memSize.toNat) (here : w1.Shows (h.at' i) x) :
    w3.phys x = h.image data i := by
  have length := (loadBytes_ok run.loaded).1
  have smaller := UInt64.le_iff_toNat_le.mp fine.fileSize_le
  have same2 : ∀ a y, w2.Shows a y → w1.Shows a y := by
    intro a y there
    refine there.congr fun e found => ⟨e.flags, ?_⟩
    rw [← run.memory.1]
    exact found
  have here2 : w2.Shows (h.at' i) x := by
    refine here.congr fun e found => ⟨e.flags, ?_⟩
    rw [run.memory.1]
    exact found
  have separate2 : ∀ i j x, i < bs.length → j < bs.length → w2.Shows (h.at' i) x →
      w2.Shows (h.at' j) x → i = j := by
    intro i j x hi hj first second
    exact run.separate fine nodup (by omega) (by omega) (same2 _ _ first) (same2 _ _ second)
  have zero := run.zero fine nodup less here
  have copied := run.copied
  obtain ⟨rfl, -⟩ := run.geometry fine
  by_cases part : i < h.fileSize.toNat
  · have stored := storeBytes_inside copied separate2 (by omega) here2
    rw [run.copied_bytes fine source part] at stored
    rw [ProgramHeader.image, if_pos part, List.getD_eq_getElem?_getD, stored]
    rfl
  · have kept : w3.phys x = w2.phys x := by
      refine (storeBytes_ok copied).2.2 x fun j before there => ?_
      have := run.separate fine nodup less (show j < h.memSize.toNat by omega) here
        (same2 _ _ there)
      omega
    rw [kept, zero, ProgramHeader.image, if_neg part]

/-- Nothing but the bytes of the segment is stored to. -/
theorem outside (run : SegmentRun elfData h v last maps fs bs w w1 w2 w3 w')
    (fine : h.WellFormed data) (apart : ∀ i, i < h.memSize.toNat → ¬ w1.Shows (h.at' i) x) :
    w3.phys x = w.phys x := by
  have length := (loadBytes_ok run.loaded).1
  have smaller := UInt64.le_iff_toNat_le.mp fine.fileSize_le
  have same2 : w2.mapper = w1.mapper := run.memory.1
  have copied := run.copied
  have zeroed := run.zeroed
  obtain ⟨rfl, -⟩ := run.geometry fine
  have second : w3.phys x = w2.phys x := by
    refine (storeBytes_ok copied).2.2 x fun j before there => apart j (by omega) ?_
    refine Shows.congr there fun e found => ⟨e.flags, ?_⟩
    rw [← same2]
    exact found
  have first : w2.phys x = w1.phys x := by
    refine (storeBytes_ok zeroed).2.2 x fun j before there => apart j ?_ there
    simpa using before
  rw [second, first, run.mapped.phys]
  rfl

theorem effect [LawfulMapper μ] (run : SegmentRun elfData h v last maps fs bs w w1 w2 w3 w')
    (fine : h.WellFormed data) (nodup : fs.Nodup) (source : Source elfData data fs w) :
    Effect data [h] fs w w' := by
  have touches := (run.geometry fine).2
  have frames : w3.frames = w1.frames := run.memory.2.2.1
  obtain ⟨mapper, rfl, inside, others, -⟩ := run.final
  have shown : ∀ i x, i < h.memSize.toNat →
      (w1.Shows (h.at' i) x ↔ ({ w3 with mapper := mapper } : World μ α).Shows (h.at' i) x) := by
    intro i x less
    obtain ⟨m, mem, page, found⟩ := run.mapped.page_mem (run.page fine less)
    have found' := inside m mem
    rw [page] at found'
    constructor
    · refine fun here => here.congr fun e first => ⟨⟨h.isWrite, true, false⟩, ?_⟩
      rw [found] at first
      cases first
      exact found'
    · refine fun here => here.congr fun e first => ⟨⟨true, true, false⟩, ?_⟩
      rw [found'] at first
      cases first
      exact found
  have new : ∀ p, entry w.mapper p = none → ∀ e, entry mapper p = some e →
      ∃ m ∈ maps, m.1 = p ∧ e.frame = m.2 := by
    intro p free e found
    by_cases mem : p ∈ maps.map Prod.fst
    · obtain ⟨m, here, rfl⟩ := List.mem_map.mp mem
      rw [inside m here] at found
      cases found
      exact ⟨m, here, rfl, rfl⟩
    · rw [others p mem, free] at found
      cases found
  constructor
  · show Taken w.frames fs w3.frames
    rw [frames]
    exact run.mapped.taken
  · intro h' mem p touched
    obtain rfl := List.mem_singleton.mp mem
    obtain ⟨m, here, rfl⟩ := List.mem_map.mp ((touches p).mpr touched)
    exact run.mapped.free m here
  · intro h' mem p touched
    obtain rfl := List.mem_singleton.mp mem
    obtain ⟨m, here, rfl⟩ := List.mem_map.mp ((touches p).mpr touched)
    exact ⟨m.2, run.mapped.frame_mem here, inside m here⟩
  · intro p apart
    exact others p fun mem => apart h List.mem_cons_self ((touches p).mp mem)
  · intro p q e e' free free' found found' same
    obtain ⟨m, here, rfl, frame⟩ := new p free e found
    obtain ⟨m', here', rfl, frame'⟩ := new q free' e' found'
    have both : m.2 = m'.2 := by rw [← frame, ← frame', same]
    rw [run.mapped.frame_inj nodup here here' both]
  · intro h' mem i less
    obtain rfl := List.mem_singleton.mp mem
    obtain ⟨x, here⟩ := run.mapped.shows (fine.canonical i less) (run.page fine less)
    exact ⟨x, (shown i x less).mp here, run.image fine nodup source less here⟩
  · intro x apart
    refine run.outside fine fun i less here => ?_
    exact apart h List.mem_cons_self i less ((shown i x less).mp here)

end SegmentRun

/-- With four frames for each page, a well-formed segment that does not end with a half of the
addresses is loaded into pages that are not mapped. -/
theorem loadSegment_total [LawfulMapper μ] {fs : List PhysFrame} {b : α}
    (fine : h.WellFormed data) (inner : ¬ h.EndsHalf)
    (free : ∀ p, h.Touches p → entry w.mapper p = none)
    (source : ∀ i, i < data.length → ∃ x, w.Shows (elfData.ptr + UInt64.ofNat i) x)
    (enough : 4 * h.pages.length ≤ fs.length) (taken : Taken w.frames fs b) :
    ∃ w', w.loadSegment elfData h = .ok w' := by
  have smaller := UInt64.le_iff_toNat_le.mp fine.fileSize_le
  have inFile := fine.inFile
  obtain ⟨next, back⟩ := fine.addresses inner
  obtain ⟨w1, mapping⟩ : ∃ w1,
      h.pages.foldlM (mapPage ⟨true, true, false⟩) (w.observe (.segment h)) = .ok w1 :=
    mapPages_total rangeInclusive_nodup (fun p mem => free p (fine.mem_pages.mp mem)) enough taken
  obtain ⟨maps, fs', pages, -, mapped⟩ := mapPages_ok mapping
  have page : ∀ i, i < h.memSize.toNat → alignDown (h.at' i) ∈ maps.map Prod.fst := by
    intro i less
    rw [pages]
    exact fine.mem_pages.mpr ⟨i, less, rfl⟩
  have writes : ∀ i, i < h.memSize.toNat → w1.Writes (h.at' i) := by
    intro i less
    obtain ⟨m, -, -, found⟩ := mapped.page_mem (page i less)
    exact ⟨_, by rw [translate, if_pos (fine.canonical i less), found], rfl⟩
  obtain ⟨w2, zeroed, same2⟩ := writeBytes_total 0 writes
  have shown : ∀ i, i < h.fileSize.toNat →
      ∃ x, w2.Shows (elfData.ptr + h.offset + UInt64.ofNat i) x := by
    intro i less
    obtain ⟨x, here⟩ := source (h.offset.toNat + i) (by omega)
    have address : elfData.ptr + h.offset + UInt64.ofNat i =
        elfData.ptr + UInt64.ofNat (h.offset.toNat + i) := by
      rw [UInt64.ofNat_add, UInt64.ofNat_toNat, UInt64.add_assoc]
    rw [address]
    refine ⟨x, here.congr fun e found => ⟨e.flags, ?_⟩⟩
    rw [same2, mapped.others]
    · exact found
    · intro mem
      obtain ⟨m, inside, same⟩ := List.mem_map.mp mem
      have unmapped := mapped.free m inside
      rw [same] at unmapped
      exact absurd (unmapped.symm.trans found) (by simp)
  have writes2 : ∀ i, i < h.fileSize.toNat → w2.Writes (h.at' i) := by
    intro i less
    rw [Writes, translate, same2]
    exact writes i (by omega)
  obtain ⟨w3, copying, same3⟩ := copyNonoverlapping_total shown writes2
  obtain ⟨w', finish⟩ : ∃ w', (if h.isWrite then .ok w3
      else h.pages.foldlM (setFlags ⟨false, true, false⟩) w3) = Except.ok w' := by
    by_cases fixed : h.isWrite = true
    · exact ⟨w3, if_pos fixed⟩
    · have present : ∀ p ∈ h.pages, ∃ e, entry w3.mapper p = some e := by
        intro p mem
        have mem : p ∈ maps.map Prod.fst := pages.symm ▸ mem
        obtain ⟨m, inside, rfl⟩ := List.mem_map.mp mem
        exact ⟨_, by rw [same3, same2, mapped.mapped m inside]⟩
      obtain ⟨mapper, set, -⟩ := setFlagsAll_mapped ⟨false, true, false⟩ present
      exact ⟨_, by rw [if_neg fixed, set]⟩
  refine ⟨w', ?_⟩
  unfold ProgramHeader.pages at mapping finish
  simp only [loadSegment, fine.start, next, back, bind, Except.bind, mapping, zeroed, copying]
  exact finish

end World

end Microkernel
