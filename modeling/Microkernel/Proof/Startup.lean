import Microkernel.Proof.Handover
import Microkernel.Proof.Loading
import Microkernel.Startup

/-! When `kernel_main` reaches the first user process, and with which page table.  The heap, the
segments and the two stacks are ranges of pages that are mapped one after another, and each of them
leaves what was mapped before as it is. -/

namespace Microkernel

open Lib

/-! ### Ranges of pages -/

/-- `n` pages in order, of which the first one starts at `base`. -/
def pagesFrom (base : UInt64) (n : Nat) : List Page :=
  (List.range n).map fun i => base + UInt64.ofNat i * 4096

section

variable {base : UInt64} {n i : Nat} {p : Page}

theorem pagesFrom_step (low : base.toNat + n * 4096 < 2 ^ 47) (step : i < n) :
    (base + UInt64.ofNat i * 4096).toNat = base.toNat + i * 4096 := by
  simp only [UInt64.toNat_add, UInt64.toNat_mul, UInt64.toNat_ofNat', UInt64.reduceToNat]
  omega

theorem pagesFrom_nodup (low : base.toNat + n * 4096 < 2 ^ 47) : (pagesFrom base n).Nodup := by
  apply List.Nodup.map_on _ List.nodup_range
  intro i mem j mem' same
  have first := pagesFrom_step low (List.mem_range.mp mem)
  rw [same, pagesFrom_step low (List.mem_range.mp mem')] at first
  omega

theorem mem_pagesFrom (aligned : base.toNat % 4096 = 0) (low : base.toNat + n * 4096 < 2 ^ 47) :
    p ∈ pagesFrom base n ↔
      p.toNat % 4096 = 0 ∧ base.toNat ≤ p.toNat ∧ p.toNat < base.toNat + n * 4096 := by
  unfold pagesFrom
  rw [List.mem_map]
  constructor
  · rintro ⟨i, mem, rfl⟩
    have step := List.mem_range.mp mem
    rw [pagesFrom_step low step]
    omega
  · rintro ⟨whole, le, less⟩
    have step : (p.toNat - base.toNat) / 4096 < n := by omega
    refine ⟨_, List.mem_range.mpr step, UInt64.toNat_inj.mp ?_⟩
    rw [pagesFrom_step low step]
    omega

end

namespace World

/-- The pages of the heap, and of the two stacks. -/
def heapRange : List Page := pagesFrom heapStart 25

def stackRange : List Page := pagesFrom 0x30000000 8 ++ pagesFrom 0x40000000 8

variable {μ α : Type} [Mapper μ] [FrameAllocator α] {w w' : World μ α}

theorem initHeap_eq (w : World μ α) :
    w.initHeap = heapRange.foldlM (mapPage ⟨true, false, false⟩) w := by
  have range : rangeInclusive (alignDown heapStart) (alignDown (heapStart + heapSize - 1)) =
      heapRange := by decide +kernel
  rw [← range]
  rfl

theorem setupUserStack_eq {baseAddr count : UInt64} (aligned : baseAddr.toNat % 4096 = 0)
    (low : baseAddr.toNat + count.toNat * 4096 < 2 ^ 47) (w : World μ α) :
    w.setupUserStack baseAddr count =
      ((pagesFrom baseAddr count.toNat).foldlM (mapPage ⟨true, true, false⟩) w).map fun w =>
        (baseAddr + count * 4096, w) := by
  have canonical : ∀ a : UInt64, a.toNat < 2 ^ 47 → Kernel.canonical a := by
    intro a small
    rw [canonical_iff]
    omega
  have base : virtAddr baseAddr = .ok baseAddr := virtAddr_canonical (canonical _ (by omega))
  have top : virtAdd baseAddr (count * 4096) = .ok (baseAddr + count * 4096) := by
    apply virtAdd_canonical (canonical _ _)
    simp only [UInt64.toNat_add, UInt64.toNat_mul, UInt64.reduceToNat]
    omega
  have loop : ∀ l : List Nat, (∀ i ∈ l, i < count.toNat) → ∀ w : World μ α,
      l.foldlM (fun w i => do
        let addr ← virtAdd baseAddr (UInt64.ofNat i * 4096)
        w.mapPage ⟨true, true, false⟩ (alignDown addr)) w =
      (l.map fun i => baseAddr + UInt64.ofNat i * 4096).foldlM (mapPage ⟨true, true, false⟩) w := by
    intro l steps
    induction l with
    | nil => exact fun _ => rfl
    | cons i l ih =>
      intro w
      have place := pagesFrom_step low (steps i List.mem_cons_self)
      have addr : virtAdd baseAddr (UInt64.ofNat i * 4096) =
          .ok (baseAddr + UInt64.ofNat i * 4096) :=
        virtAdd_canonical (canonical _ (by
          have := steps i List.mem_cons_self
          omega))
      have whole : alignDown (baseAddr + UInt64.ofNat i * 4096) =
          baseAddr + UInt64.ofNat i * 4096 := by
        apply UInt64.toNat_inj.mp
        rw [alignDown_toNat, place]
        omega
      rw [List.map_cons, List.foldlM_cons, List.foldlM_cons, addr]
      simp only [bind, Except.bind, whole]
      cases w.mapPage ⟨true, true, false⟩ (baseAddr + UInt64.ofNat i * 4096) with
      | error reason => rfl
      | ok mid => exact ih (fun j mem => steps j (List.mem_cons_of_mem i mem)) mid
  unfold setupUserStack pagesFrom
  rw [base]
  simp only [bind, Except.bind]
  have all := loop (List.range count.toNat) (fun i mem => List.mem_range.mp mem) w
  simp only [bind, Except.bind] at all
  rw [all, top]
  cases ((List.range count.toNat).map fun i => baseAddr + UInt64.ofNat i * 4096).foldlM
    (mapPage ⟨true, true, false⟩) w with
  | error reason => rfl
  | ok w' => rfl

end World

/-! ### The phases -/

/-- Two processes are always created: the table and the executor have room for them. -/
theorem Kernel.kernelMain_total (i j : Image) (monitorStackTop : UInt64) (mem : Memory)
    (pages : UInt64 → Option PageFlags) :
    ∃ k, Kernel.kernelMain [i, j] monitorStackTop mem pages = .ok k := ⟨_, rfl⟩

theorem Kernel.createProcesses_pages (images : List Image) (k : Kernel) :
    (k.createProcesses images).pages = k.pages := by
  induction images generalizing k with
  | nil => rfl
  | cons image images ih => exact ih _

/-- The page table is the one that `kernel_main` has built before. -/
theorem Kernel.kernelMain_pages {images : List Image} {monitorStackTop : UInt64} {mem : Memory}
    {pages : UInt64 → Option PageFlags} {k : Kernel}
    (run : Kernel.kernelMain images monitorStackTop mem pages = .ok k) : k.pages = pages := by
  obtain ⟨k1, q, image, -, rfl, -, -, rfl⟩ := Kernel.kernelMain_eq run
  exact Kernel.createProcesses_pages images _

namespace World

variable {μ α : Type} [Mapper μ] [FrameAllocator α] {w w' w1 w2 : World μ α} {k : Kernel}
  {parse : List UInt8 → Except Stop ElfFile} {elfData : Slice}
  {kstackA kstackB monitorStackTop r : UInt64}

/-- Both stacks are one range of pages. -/
theorem stacks_eq (w : World μ α) :
    (do
      let (stackATop, w) ← w.setupUserStack 0x30000000 8
      let (stackBTop, w) ← w.setupUserStack 0x40000000 8
      .ok (stackATop, stackBTop, w)) =
    (stackRange.foldlM (mapPage ⟨true, true, false⟩) w).map fun w =>
      (0x30000000 + 8 * 4096, 0x40000000 + 8 * 4096, w) := by
  have first : w.setupUserStack 0x30000000 8 =
      ((pagesFrom 0x30000000 8).foldlM (mapPage ⟨true, true, false⟩) w).map fun w =>
        (0x30000000 + 8 * 4096, w) := setupUserStack_eq (by decide) (by decide) w
  have second : ∀ w : World μ α, w.setupUserStack 0x40000000 8 =
      ((pagesFrom 0x40000000 8).foldlM (mapPage ⟨true, true, false⟩) w).map fun w =>
        (0x40000000 + 8 * 4096, w) := setupUserStack_eq (by decide) (by decide)
  rw [first, stackRange, List.foldlM_append]
  cases (pagesFrom 0x30000000 8).foldlM (mapPage ⟨true, true, false⟩) w with
  | error reason => rfl
  | ok mid =>
    simp only [Except.map, bind, Except.bind]
    rw [second]
    cases (pagesFrom 0x40000000 8).foldlM (mapPage ⟨true, true, false⟩) mid with
    | error reason => rfl
    | ok last => rfl

theorem kernelMain_ok
    (run : w.kernelMain parse elfData kstackA kstackB monitorStackTop = .ok (w', k)) :
    ∃ r w1 w2, heapRange.foldlM (mapPage ⟨true, false, false⟩) w = .ok w1 ∧
      w1.loadElf parse elfData = .ok (r, w2) ∧
      stackRange.foldlM (mapPage ⟨true, true, false⟩) w2 = .ok w' ∧
      Kernel.kernelMain (Kernel.processImages r kstackA kstackB) monitorStackTop w'.memory
        w'.pages = .ok k := by
  obtain ⟨w1, heap, rest⟩ := bind_ok run
  obtain ⟨⟨r, w2⟩, loaded, rest⟩ := bind_ok rest
  obtain ⟨⟨stackATop, w3⟩, first, rest⟩ := bind_ok rest
  obtain ⟨⟨stackBTop, w4⟩, second, rest⟩ := bind_ok rest
  obtain ⟨k', created, same⟩ := bind_ok rest
  cases same
  have both := stacks_eq w2
  simp only [first, second, bind, Except.bind] at both
  cases mapped : stackRange.foldlM (mapPage ⟨true, true, false⟩) w2 with
  | error reason =>
    rw [mapped] at both
    cases both
  | ok last =>
    rw [mapped] at both
    cases both
    exact ⟨r, w1, w2, by rw [← initHeap_eq, heap], loaded, mapped, created⟩

theorem kernelMain_of_phases
    (heap : heapRange.foldlM (mapPage ⟨true, false, false⟩) w = .ok w1)
    (loaded : w1.loadElf parse elfData = .ok (r, w2))
    (stacked : stackRange.foldlM (mapPage ⟨true, true, false⟩) w2 = .ok w')
    (kstackA kstackB monitorStackTop : UInt64) :
    ∃ k, w.kernelMain parse elfData kstackA kstackB monitorStackTop = .ok (w', k) := by
  have both := stacks_eq w2
  rw [stacked] at both
  obtain ⟨⟨stackATop, w3⟩, first, rest⟩ := bind_ok both
  obtain ⟨⟨stackBTop, w4⟩, second, same⟩ := bind_ok rest
  cases same
  obtain ⟨k, created⟩ := Kernel.kernelMain_total ⟨r, 0x30000000 + 8 * 4096, kstackA⟩
    ⟨r, 0x40000000 + 8 * 4096, kstackB⟩ monitorStackTop w'.memory w'.pages
  refine ⟨k, ?_⟩
  rw [kernelMain, initHeap_eq, heap]
  simp only [loaded, first, second, created, bind, Except.bind]

/-! ### What a phase keeps -/

section

variable {flags : PageFlags} {maps : List (Page × PhysFrame)} {fs : List PhysFrame} {p : Page}
  {e : PageEntry} {a : UInt64} {bs : List UInt8} {n : Nat}

theorem Mapped.kept (done : Mapped flags maps fs w w') (found : entry w.mapper p = some e) :
    entry w'.mapper p = some e := by
  rw [done.others]
  · exact found
  · intro mem
    obtain ⟨m, here, rfl⟩ := List.mem_map.mp mem
    rw [done.free m here] at found
    cases found

theorem Mapped.shows_kept (done : Mapped flags maps fs w w') {x : UInt64} (here : w.Shows a x) :
    w'.Shows a x :=
  here.congr fun e found => ⟨e.flags, done.kept found⟩

theorem Mapped.read (done : Mapped flags maps fs w w') (read : w.loadBytes a n = .ok bs) :
    w'.loadBytes a n = .ok bs := by
  induction n generalizing a bs with
  | zero => exact read
  | succ n ih =>
    obtain ⟨b, first, rest⟩ := bind_ok read
    obtain ⟨bs', more, same⟩ := bind_ok rest
    cases same
    obtain ⟨x, here, value⟩ := loadByte_ok.mp first
    have first' : w'.loadByte a = .ok b :=
      loadByte_ok.mpr ⟨x, done.shows_kept here, by rw [done.phys, value]⟩
    simp only [loadBytes, first', ih more, bind, Except.bind]

theorem Mapped.gives (done : Mapped flags maps fs w w') (gives : w.GivesUnused elfData)
    (read : w.loadBytes elfData.ptr elfData.len.toNat = .ok bs) : w'.GivesUnused elfData := by
  intro gs b taken
  obtain ⟨nodup, apart⟩ := gives (fs ++ gs) b (done.taken.append taken)
  refine ⟨(List.nodup_append.mp nodup).2.1, fun f mem i less x here => ?_⟩
  obtain ⟨y, before, -⟩ := (loadBytes_ok read).2 i less
  obtain rfl := here.unique (done.shows_kept before)
  exact apart f (List.mem_append_right fs mem) i less x before

end

/-! ### The page table -/

variable {data : List UInt8} {elf : ElfFile} {segments : List ProgramHeader} {a : UInt64}

/-- What `kernel_main` finds: the file is in memory that is in use, its segments are well formed and
have pages of their own, and the pages that it maps are not mapped. -/
structure Bootable (parse : List UInt8 → Except Stop ElfFile) (elfData : Slice)
    (data : List UInt8) (elf : ElfFile) (w : World μ α) : Prop where
  read : w.loadBytes elfData.ptr elfData.len.toNat = .ok data
  parsed : parse data = .ok elf
  gives : w.GivesUnused elfData
  fine : ∀ h ∈ elf.segments, h.WellFormed data
  disjoint : elf.segments.Pairwise fun h h' => ∀ p, ¬ (h.Touches p ∧ h'.Touches p)
  free : ∀ p, p ∈ heapRange ∨ p ∈ stackRange ∨ (∃ h ∈ elf.segments, h.Touches p) →
    entry w.mapper p = none

/-- What `kernel_main` leaves: the image in memory, the pages of the heap for the kernel alone,
those of the segments and of the stacks for user code as well, and every other page as it was. -/
structure Built (data : List UInt8) (segments : List ProgramHeader) (w w' : World μ α) : Prop where
  bytes : ∀ h ∈ segments, ∀ i, i < h.memSize.toNat → w'.loadByte (h.at' i) = .ok (h.image data i)
  heapPages : ∀ p ∈ heapRange, ∃ f, entry w'.mapper p = some ⟨f, ⟨true, false, false⟩⟩
  segmentPages : ∀ h ∈ segments, ∀ p, h.Touches p →
    ∃ f, entry w'.mapper p = some ⟨f, ⟨h.isWrite, true, false⟩⟩
  stackPages : ∀ p ∈ stackRange, ∃ f, entry w'.mapper p = some ⟨f, ⟨true, true, false⟩⟩
  others : ∀ p, p ∉ heapRange → p ∉ stackRange → (∀ h ∈ segments, ¬ h.Touches p) →
    entry w'.mapper p = entry w.mapper p

/-- The segments touch no page of the heap and of the stacks. -/
def Clear (segments : List ProgramHeader) : Prop :=
  ∀ h ∈ segments, ∀ p, h.Touches p → p ∉ heapRange ∧ p ∉ stackRange

theorem Mapped.page_mapped {flags : PageFlags} {maps : List (Page × PhysFrame)}
    {fs : List PhysFrame} {p : Page} (done : Mapped flags maps fs w w')
    (mem : p ∈ maps.map Prod.fst) : ∃ f, entry w'.mapper p = some ⟨f, flags⟩ := by
  obtain ⟨m, here, rfl⟩ := List.mem_map.mp mem
  exact ⟨m.2, done.mapped m here⟩

/-- The three phases, each from a state in which what it maps is free. -/
theorem built_of_phases {heap stacked : List (Page × PhysFrame)} {fs gs hs : List PhysFrame}
    (first : Mapped ⟨true, false, false⟩ heap fs w w1) (allHeap : heap.map Prod.fst = heapRange)
    (loaded : Effect data segments gs w1 w2)
    (last : Mapped ⟨true, true, false⟩ stacked hs w2 w')
    (allStack : stacked.map Prod.fst = stackRange) : Clear segments ∧ Built data segments w w' := by
  have clear : Clear segments := by
    intro h mem p touched
    have free := loaded.free h mem p touched
    constructor
    · intro inside
      obtain ⟨f, found⟩ := first.page_mapped (allHeap ▸ inside)
      rw [free] at found
      cases found
    · intro inside
      obtain ⟨f, -, found⟩ := loaded.touched h mem p touched
      obtain ⟨m, here, rfl⟩ := List.mem_map.mp (allStack ▸ inside)
      rw [last.free m here] at found
      cases found
  refine ⟨clear, fun h mem i less => ?_, fun p inside => ?_, fun h mem p touched => ?_,
    fun p inside => last.page_mapped (allStack ▸ inside), fun p noHeap noStack untouched => ?_⟩
  · obtain ⟨x, here, value⟩ := loaded.bytes h mem i less
    exact loadByte_ok.mpr ⟨x, last.shows_kept here, by rw [last.phys, value]⟩
  · obtain ⟨f, found⟩ := first.page_mapped (allHeap ▸ inside)
    refine ⟨f, last.kept ?_⟩
    rw [loaded.others p fun h mem touched => (clear h mem p touched).1 inside, found]
  · obtain ⟨f, -, found⟩ := loaded.touched h mem p touched
    exact ⟨f, last.kept found⟩
  · rw [last.others p (allStack ▸ noStack), loaded.others p untouched,
      first.others p (allHeap ▸ noHeap)]

omit [FrameAllocator α] in
/-- The flags of the page of an address. -/
theorem pages_at (w : World μ α) (a : UInt64) :
    w.pages (a / 4096) = (entry w.mapper (alignDown a)).map PageEntry.flags := by
  have small : a / 4096 < 0x10000000000000 := by
    have := a.toNat_lt
    rw [UInt64.lt_iff_toNat_lt, UInt64.toNat_div]
    simp only [UInt64.reduceToNat]
    omega
  rw [World.pages, if_pos small]
  rfl

omit [FrameAllocator α] in
/-- The stack of the first process can be stored to. -/
theorem Built.writable (built : Built data segments w w') (pages : k.pages = w'.pages)
    (low : 0x30000000 ≤ a.toNat) (high : a.toNat < 0x30008000) : k.canWrite a := by
  have inside : alignDown a ∈ stackRange := by
    refine List.mem_append_left _ ((mem_pagesFrom (by decide) (by decide)).mpr ?_)
    rw [alignDown_toNat]
    simp only [UInt64.reduceToNat]
    omega
  obtain ⟨f, found⟩ := built.stackPages _ inside
  have canonical : Kernel.canonical a := by
    rw [canonical_iff]
    omega
  rw [Kernel.canWrite, pages, pages_at, found, canonical]
  rfl

variable [LawfulMapper μ]

/-- The phases of a `kernel_main` that reaches the first process. -/
theorem Bootable.phases (bootable : Bootable parse elfData data elf w)
    (run : w.kernelMain parse elfData kstackA kstackB monitorStackTop = .ok (w', k)) :
    ∃ r w1 w2, heapRange.foldlM (mapPage ⟨true, false, false⟩) w = .ok w1 ∧
      elf.programs.foldlM (loadHeader elfData) w1 = .ok w2 ∧
      virtAddr elf.entryPoint = .ok r ∧
      Clear elf.segments ∧ Built data elf.segments w w' ∧
      Kernel.kernelMain (Kernel.processImages r kstackA kstackB) monitorStackTop w'.memory
        w'.pages = .ok k := by
  obtain ⟨r, w1, w2, heap, loaded, stacked, created⟩ := kernelMain_ok run
  obtain ⟨heapMaps, fs, allHeap, -, first⟩ := mapPages_ok heap
  have read := first.read bootable.read
  have unused := (first.gives bootable.gives bootable.read).unused read
  obtain ⟨loop, start⟩ := loadElf_loop read bootable.parsed loaded
  obtain ⟨gs, effect⟩ := loadHeaders_effect unused
    (fun h mem type => bootable.fine h (List.mem_filter.mpr ⟨mem, by simpa using type⟩)) loop
  obtain ⟨stackMaps, hs, allStack, -, last⟩ := mapPages_ok stacked
  obtain ⟨clear, built⟩ := built_of_phases first allHeap effect last allStack
  exact ⟨r, w1, w2, heap, loop, start, clear, built, created⟩

/-- The loop over the headers takes at most four frames for each page of its segments. -/
theorem loadHeaders_few {programs : List ProgramHeader} (unused : Unused elfData data w)
    (fine : ∀ h ∈ programs, h.type = some .load → h.WellFormed data)
    (run : programs.foldlM (loadHeader elfData) w = .ok w') :
    ∃ fs, fs.length ≤ 4 * ((programs.filter fun h => h.type = some .load).map fun h =>
        h.pages.length).sum ∧ Taken w.frames fs w'.frames := by
  induction programs generalizing w with
  | nil =>
    cases run
    exact ⟨[], Nat.zero_le _, .nil _⟩
  | cons h programs ih =>
    rw [List.foldlM_cons] at run
    obtain ⟨mid, first, rest⟩ := bind_ok run
    have fine' : ∀ h ∈ programs, h.type = some .load → h.WellFormed data :=
      fun h' mem => fine h' (List.mem_cons_of_mem h mem)
    unfold loadHeader at first
    split at first
    · cases first
    · rename_i load
      obtain ⟨fs, few, once⟩ := loadSegment_effect (fine h List.mem_cons_self load) unused first
      obtain ⟨gs, few', taken⟩ := ih (unused.step once) fine' rest
      refine ⟨fs ++ gs, ?_, once.taken.append taken⟩
      rw [List.filter_cons_of_pos (by simpa using load), List.map_cons, List.sum_cons,
        List.length_append]
      omega
    · rename_i other
      cases first
      rw [List.filter_cons_of_neg (by simp [other])]
      exact ih unused fine' rest

theorem nodup_heapRange : heapRange.Nodup := pagesFrom_nodup (by decide)

theorem nodup_stackRange : stackRange.Nodup := by
  refine List.nodup_append.mpr ⟨pagesFrom_nodup (by decide), pagesFrom_nodup (by decide), ?_⟩
  rintro p low q high rfl
  have below := ((mem_pagesFrom (by decide) (by decide)).mp low).2.2
  have above := ((mem_pagesFrom (by decide) (by decide)).mp high).2.1
  simp only [UInt64.reduceToNat] at below above
  omega

theorem heapRange_stackRange (p : Page) (heap : p ∈ heapRange) : p ∉ stackRange := by
  intro stack
  have high := ((mem_pagesFrom (by decide) (by decide)).mp heap).2.1
  unfold heapStart at high
  rcases List.mem_append.mp stack with first | second
  · have low := ((mem_pagesFrom (by decide) (by decide)).mp first).2.2
    simp only [UInt64.reduceToNat] at low high
    omega
  · have low := ((mem_pagesFrom (by decide) (by decide)).mp second).2.2
    simp only [UInt64.reduceToNat] at low high
    omega

/-- With four frames for each page, `kernel_main` reaches the first process if no segment stops
it. -/
theorem Bootable.total (bootable : Bootable parse elfData data elf w)
    (known : ∀ h ∈ elf.programs, h.type ≠ none) (inner : ∀ h ∈ elf.segments, ¬ h.EndsHalf)
    (clear : Clear elf.segments) (start : virtAddr elf.entryPoint = .ok r)
    {fs : List PhysFrame} {b : α} (taken : Taken w.frames fs b)
    (enough : 4 * (41 + (elf.segments.map fun h => h.pages.length).sum) ≤ fs.length)
    (kstackA kstackB monitorStackTop : UInt64) :
    ∃ w' k, w.kernelMain parse elfData kstackA kstackB monitorStackTop = .ok (w', k) := by
  have segment : ∀ h ∈ elf.programs, h.type = some .load → h ∈ elf.segments :=
    fun h mem type => List.mem_filter.mpr ⟨mem, by simpa using type⟩
  obtain ⟨w1, heap⟩ : ∃ w1, heapRange.foldlM (mapPage ⟨true, false, false⟩) w = .ok w1 :=
    mapPages_total nodup_heapRange (fun p mem => bootable.free p (.inl mem))
      (show 4 * 25 ≤ fs.length by omega) taken
  obtain ⟨heapMaps, gs, allHeap, few, first⟩ := mapPages_ok heap
  obtain ⟨rest, rfl, taken1⟩ := first.taken.extend taken (few.trans (show 4 * 25 ≤ _ by omega))
  have read := first.read bootable.read
  have unused := (first.gives bootable.gives bootable.read).unused read
  have free1 : ∀ h ∈ elf.segments, ∀ p, h.Touches p → entry w1.mapper p = none := by
    intro h mem p touched
    rw [first.others p (allHeap ▸ (clear h mem p touched).1)]
    exact bootable.free p (.inr (.inr ⟨h, mem, touched⟩))
  have few : gs.length ≤ 4 * 25 := few
  rw [List.length_append] at enough
  obtain ⟨w2, loop⟩ : ∃ w2, elf.programs.foldlM (loadHeader elfData) w1 = .ok w2 :=
    loadHeaders_total unused known (fun h mem type => bootable.fine h (segment h mem type))
      (fun h mem type => inner h (segment h mem type))
      (fun h mem type => free1 h (segment h mem type)) bootable.disjoint
      (show 4 * (elf.segments.map fun h => h.pages.length).sum ≤ rest.length by omega) taken1
  obtain ⟨effectFrames, effect⟩ := loadHeaders_effect unused
    (fun h mem type => bootable.fine h (segment h mem type)) loop
  obtain ⟨hs, few2, taken2⟩ := loadHeaders_few unused
    (fun h mem type => bootable.fine h (segment h mem type)) loop
  have few2 : hs.length ≤ 4 * (elf.segments.map fun h => h.pages.length).sum := few2
  obtain ⟨left, rfl, taken3⟩ := taken2.extend taken1 (by omega)
  have free2 : ∀ p ∈ stackRange, entry w2.mapper p = none := by
    intro p mem
    have apart : p ∉ heapRange := fun inside => heapRange_stackRange p inside mem
    rw [effect.others p fun h inside touched => (clear h inside p touched).2 mem,
      first.others p (allHeap ▸ apart)]
    exact bootable.free p (.inr (.inl mem))
  rw [List.length_append] at enough
  obtain ⟨w', stacked⟩ : ∃ w', stackRange.foldlM (mapPage ⟨true, true, false⟩) w2 = .ok w' :=
    mapPages_total nodup_stackRange free2 (show 4 * 16 ≤ left.length by omega) taken3
  have loaded : w1.loadElf parse elfData = .ok (r, w2) := by
    simp only [loadElf, read, bootable.parsed, loop, start, bind, Except.bind]
  exact ⟨w', kernelMain_of_phases heap loaded stacked kstackA kstackB monitorStackTop⟩

/-- `kernel_main` leaves the image, the heap and the stacks in pages of their own whenever it
reaches the first process, which then begins with the entry point and a stack that can be stored to.
With four frames for each page it does so exactly when it knows the types of the headers, no segment
ends with a half of the addresses or has a page of the heap or of a stack, and the entry point is an
address. -/
theorem kernelMain_exact (bootable : Bootable parse elfData data elf w) :
    (∀ w' k, w.kernelMain parse elfData kstackA kstackB monitorStackTop = .ok (w', k) →
      Built data elf.segments w w' ∧
      (∃ r, virtAddr elf.entryPoint = .ok r ∧
        Kernel.kernelMain (Kernel.processImages r kstackA kstackB) monitorStackTop w'.memory
          w'.pages = .ok k) ∧
      ∀ buf : UInt64, 0x30000000 ≤ buf.toNat → buf.toNat + 40 ≤ 0x30008000 →
        Sys.Writable k buf 40) ∧
    ∀ fs b, Taken w.frames fs b →
      4 * (41 + (elf.segments.map fun h => h.pages.length).sum) ≤ fs.length →
      ((∃ w' k, w.kernelMain parse elfData kstackA kstackB monitorStackTop = .ok (w', k)) ↔
        (∀ h ∈ elf.programs, h.type ≠ none) ∧ (∀ h ∈ elf.segments, ¬ h.EndsHalf) ∧
          Clear elf.segments ∧ ∃ r, virtAddr elf.entryPoint = .ok r) := by
  refine ⟨fun w' k run => ?_, fun fs b taken enough => ⟨?_, ?_⟩⟩
  · obtain ⟨r, w1, w2, -, -, start, -, built, created⟩ := bootable.phases run
    refine ⟨built, ⟨r, start, created⟩, fun buf low high i less => ?_⟩
    refine built.writable (Kernel.kernelMain_pages created) ?_ ?_
    all_goals
      simp only [UInt64.toNat_add, UInt64.toNat_ofNat']
      omega
  · rintro ⟨w', k, run⟩
    obtain ⟨r, w1, w2, heap, loop, start, clear, -, -⟩ := bootable.phases run
    have fine : ∀ h ∈ elf.programs, h.type = some .load → h.WellFormed data :=
      fun h mem type => bootable.fine h (List.mem_filter.mpr ⟨mem, by simpa using type⟩)
    refine ⟨fun h mem => (loadHeaders_passed fine loop mem).1, fun h mem => ?_, clear, r, start⟩
    obtain ⟨mem, type⟩ := List.mem_filter.mp mem
    exact (loadHeaders_passed fine loop mem).2 (by simpa using type)
  · rintro ⟨known, inner, clear, r, start⟩
    exact bootable.total known inner clear start taken enough kstackA kstackB monitorStackTop

end World

/-- The first calls of the kernel's allocator give the first frames of the usable regions. -/
theorem BootInfoFrameAllocator.init_taken {regions : List MemoryRegion} {n : Nat}
    (aligned : ∀ r ∈ regions, r.Aligned)
    (low : ∀ r ∈ usable regions, r.stop ≤ 0x10000000000000) (few : n < 2 ^ 64)
    (enough : n ≤ (MemoryRegion.framesInside regions).length) :
    ∃ b, Taken (init regions) ((MemoryRegion.framesInside regions).take n) b := by
  have start : Leaves regions n n (init regions) (MemoryRegion.framesInside regions) := by
    rw [← MemoryRegion.framesOf_inside aligned]
    exact ⟨rfl, Nat.zero_add n, rfl⟩
  obtain ⟨b, run, -⟩ := calls_allocateFrame low few start
  refine ⟨b, ?_⟩
  have length : ((MemoryRegion.framesInside regions).take n).length = n :=
    List.length_take_of_le enough
  have values : (List.range n).map ((MemoryRegion.framesInside regions)[·]?) =
      ((MemoryRegion.framesInside regions).take n).map some := by
    apply List.ext_getElem
    · rw [List.length_map, List.length_range, List.length_map, length]
    · intro i less _
      rw [List.length_map, List.length_range] at less
      rw [List.getElem_map, List.getElem_map, List.getElem_range, List.getElem_take,
        List.getElem?_eq_getElem (by omega)]
  rw [Taken, length, ← values]
  exact run

namespace ElfFile

def roomyRegions : List MemoryRegion := [⟨0x100000, 0x200000, .usable⟩]

/-- As `smallWorld`, with a megabyte of frames. -/
def roomyWorld : World PageTable BootInfoFrameAllocator :=
  { smallWorld (smallFile 0x400ffe 2 3) with frames := .init roomyRegions }

theorem roomyRegions_disjoint : roomyRegions.Pairwise MemoryRegion.Apart :=
  MemoryRegion.ascending_disjoint (by decide)

theorem roomyWorld_gives : roomyWorld.GivesUnused smallSlice := by
  intro fs b taken
  have frames := BootInfoFrameAllocator.taken_eq roomyRegions_disjoint (by decide) (by decide) taken
  refine ⟨?_, fun f mem i less x shown has => ?_⟩
  · rw [frames]
    exact List.Pairwise.take (MemoryRegion.framesInside_nodup roomyRegions_disjoint (by decide))
  · obtain ⟨-, e, found, rfl⟩ := World.shows_iff.mp shown
    have frame : e.frame = ⟨0x200000, rfl⟩ := by
      have found : (if _ then some _ else none) = some e := found
      split at found
      · cases found
        rfl
      · cases found
    rw [frames] at mem
    obtain ⟨r, listed, -, held⟩ :=
      (MemoryRegion.mem_framesInside (by decide)).mp (List.mem_of_mem_take mem)
    obtain rfl := List.mem_singleton.mp listed
    rw [has.same (e.byte_has _), frame] at held
    revert held
    decide

theorem roomyWorld_bootable : World.Bootable read smallSlice (smallFile 0x400ffe 2 3)
    ⟨[smallSegment], 0x400ffe⟩ roomyWorld where
  read := by decide +kernel
  parsed := smallFile_read.2
  gives := roomyWorld_gives
  fine := fun h mem => List.mem_singleton.mp mem ▸ smallSegment_wellFormed
  disjoint := List.pairwise_singleton _ _
  free := by
    intro p place
    have apart : p ≠ 0x8000100000 := by
      rintro rfl
      rcases place with heap | stack | ⟨h, mem, i, less, same⟩
      · revert heap
        decide +kernel
      · revert stack
        decide +kernel
      · obtain rfl := List.mem_singleton.mp mem
        have less : i < 3 := less
        obtain rfl | rfl | rfl : i = 0 ∨ i = 1 ∨ i = 2 := by omega
        all_goals
          revert same
          decide
    exact if_neg apart

theorem roomyWorld_clear : World.Clear [smallSegment] := by
  intro h mem p touched
  obtain rfl := List.mem_singleton.mp mem
  obtain ⟨i, less, rfl⟩ := touched
  have less : i < 3 := less
  obtain rfl | rfl | rfl : i = 0 ∨ i = 1 ∨ i = 2 := by omega
  all_goals
    constructor <;> decide +kernel

/-- `kernel_main` with a megabyte of frames reaches the first process. -/
theorem roomyWorld_boots : ∃ w' k,
    roomyWorld.kernelMain read smallSlice 0x444444440000 0x444444448000 0x444444454000 =
      .ok (w', k) := by
  obtain ⟨b, taken⟩ : ∃ b, Taken (BootInfoFrameAllocator.init roomyRegions)
      ((MemoryRegion.framesInside roomyRegions).take 200) b :=
    BootInfoFrameAllocator.init_taken (by decide) (by decide) (by decide) (by decide +kernel)
  have enough : 4 * (41 + ([smallSegment].map fun h => h.pages.length).sum) ≤
      ((MemoryRegion.framesInside roomyRegions).take 200).length := by decide +kernel
  exact roomyWorld_bootable.total (by decide) (by decide) roomyWorld_clear rfl taken enough _ _ _

/-- The session of the init program can begin, with `msg` in the stack of process A. -/
theorem kernelMain_exact_roomy : ∃ w' k,
    roomyWorld.kernelMain read smallSlice 0x444444440000 0x444444448000 0x444444454000 =
      .ok (w', k) ∧
    World.Built (smallFile 0x400ffe 2 3) [smallSegment] roomyWorld w' ∧
    Sys.Writable k 0x30007000 40 := by
  obtain ⟨w', k, run⟩ := roomyWorld_boots
  obtain ⟨built, -, writable⟩ := (World.kernelMain_exact roomyWorld_bootable).1 w' k run
  exact ⟨w', k, run, built, writable 0x30007000 (by decide) (by decide)⟩

end ElfFile

end Microkernel
