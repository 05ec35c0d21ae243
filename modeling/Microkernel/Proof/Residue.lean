import Microkernel.Proof.Loading

/-! What user pages show of the memory that was in their frames before.  The loader clears the bytes
of a segment and not the rest of its pages, and nothing clears the pages of a user stack. -/

namespace Microkernel

open Lib

/-! ### The edges of a segment -/

namespace ProgramHeader

variable {h : ProgramHeader} {data : List UInt8} {a : UInt64}

/-- The segment starts and ends with a page. -/
def WholePages (h : ProgramHeader) : Prop :=
  h.virtualAddr % 4096 = 0 ∧ (h.virtualAddr + h.memSize) % 4096 = 0

theorem WellFormed.whole (fine : h.WellFormed data) (whole : h.WholePages)
    (touched : h.Touches (alignDown a)) : ∃ i, i < h.memSize.toNat ∧ h.at' i = a := by
  obtain ⟨j, less, page⟩ := touched
  have place := fine.at_toNat less
  have noWrap := fine.noWrap
  have start : h.virtualAddr.toNat % 4096 = 0 := by
    simpa using congrArg UInt64.toNat whole.1
  have stop : (h.virtualAddr.toNat + h.memSize.toNat) % 2 ^ 64 % 4096 = 0 := by
    simpa using congrArg UInt64.toNat whole.2
  have same := congrArg UInt64.toNat page
  rw [alignDown_toNat, alignDown_toNat, place] at same
  have inside : a.toNat - h.virtualAddr.toNat < h.memSize.toNat := by omega
  refine ⟨_, inside, UInt64.toNat_inj.mp ?_⟩
  rw [fine.at_toNat inside]
  omega

/-- A segment that does not start and end with a page leaves a byte of its pages out. -/
theorem WellFormed.edge (fine : h.WellFormed data) (ragged : ¬ h.WholePages) :
    ∃ a, Kernel.canonical a ∧ h.Touches (alignDown a) ∧
      ∀ i, i < h.memSize.toNat → h.at' i ≠ a := by
  have positive := fine.size_pos
  have noWrap := fine.noWrap
  have found : ∃ a i, i < h.memSize.toNat ∧ alignDown (h.at' i) = alignDown a ∧
      ∀ i, i < h.memSize.toNat → h.at' i ≠ a := by
    by_cases start : h.virtualAddr % 4096 = 0
    · have stop : (h.virtualAddr + h.memSize).toNat % 4096 ≠ 0 := by
        intro whole
        refine ragged ⟨start, UInt64.toNat_inj.mp ?_⟩
        simpa using whole
      have inner : h.virtualAddr.toNat + h.memSize.toNat ≠ 2 ^ 64 := by
        intro high
        rw [UInt64.toNat_add, high] at stop
        exact stop rfl
      have place : (h.virtualAddr + h.memSize).toNat = h.virtualAddr.toNat + h.memSize.toNat := by
        rw [UInt64.toNat_add]
        omega
      refine ⟨h.virtualAddr + h.memSize, h.memSize.toNat - 1, by omega, ?_, fun i less same => ?_⟩
      · apply UInt64.toNat_inj.mp
        rw [alignDown_toNat, alignDown_toNat, fine.at_toNat (by omega), place]
        omega
      · have := fine.at_toNat less
        rw [same] at this
        omega
    · have start' : h.virtualAddr.toNat % 4096 ≠ 0 := by
        intro whole
        refine start (UInt64.toNat_inj.mp ?_)
        simpa using whole
      have place : (h.virtualAddr - 1).toNat = h.virtualAddr.toNat - 1 := by
        simp only [UInt64.toNat_sub, UInt64.reduceToNat]
        omega
      refine ⟨h.virtualAddr - 1, 0, positive, ?_, fun i less same => ?_⟩
      · apply UInt64.toNat_inj.mp
        rw [alignDown_toNat, alignDown_toNat, fine.at_toNat positive, place]
        omega
      · have := fine.at_toNat less
        rw [same] at this
        omega
  obtain ⟨a, i, less, page, apart⟩ := found
  refine ⟨a, ?_, ⟨i, less, page⟩, apart⟩
  rw [← canonical_alignDown, ← page, canonical_alignDown]
  exact fine.canonical i less

end ProgramHeader

namespace World

variable {μ α : Type} {w w' v v' : World μ α} {a x : UInt64} {bs cs : List UInt8} {page : Page}
  {flags : PageFlags} {elfData : Slice} {h : ProgramHeader}

/-! ### Runs that differ in memory only -/

/-- The same page table, allocator and trace. -/
def Alike (w v : World μ α) : Prop :=
  v.mapper = w.mapper ∧ v.frames = w.frames ∧ v.trace = w.trace

theorem Alike.observe (alike : Alike w v) (access : Access) :
    Alike (w.observe access) (v.observe access) :=
  ⟨alike.1, alike.2.1, congrArg (· ++ [access]) alike.2.2⟩

variable [Mapper μ]

theorem Alike.translate (alike : Alike w v) : v.translate a = w.translate a := by
  unfold World.translate
  rw [alike.1]

theorem Alike.shows (alike : Alike w v) : v.Shows a x ↔ w.Shows a x := by
  unfold Shows
  rw [alike.translate]

theorem Alike.setFlags (alike : Alike w v) (run : w.setFlags flags page = .ok w') :
    ∃ v', v.setFlags flags page = .ok v' ∧ Alike w' v' := by
  obtain ⟨mapper, frames, trace⟩ := alike
  obtain ⟨mapper', worked, same⟩ := bind_ok run
  cases same
  refine ⟨{ v with mapper := mapper' }, ?_, rfl, frames, trace⟩
  unfold World.setFlags
  rw [mapper, worked]
  rfl

theorem Alike.storeBytes (alike : Alike w v) (length : cs.length = bs.length)
    (run : w.storeBytes a bs = .ok w') : ∃ v', v.storeBytes a cs = .ok v' ∧ Alike w' v' := by
  obtain ⟨⟨phys, rfl⟩, writes, -⟩ := storeBytes_ok run
  obtain ⟨v', stored⟩ : ∃ v', v.storeBytes a cs = .ok v' := by
    refine storeBytes_total fun i less => ?_
    obtain ⟨e, found, writable⟩ := writes i (length ▸ less)
    exact ⟨e, alike.translate.trans found, writable⟩
  obtain ⟨⟨phys', rfl⟩, -, -⟩ := storeBytes_ok stored
  exact ⟨_, stored, alike⟩

theorem Alike.loadBytes (alike : Alike w v) {n : Nat} (run : w.loadBytes a n = .ok bs) :
    ∃ cs, v.loadBytes a n = .ok cs ∧ cs.length = bs.length := by
  obtain ⟨length, shown⟩ := loadBytes_ok run
  obtain ⟨cs, loaded⟩ : ∃ cs, v.loadBytes a n = .ok cs := by
    refine loadBytes_total fun i less => ?_
    obtain ⟨x, here, -⟩ := shown i less
    exact ⟨x, alike.shows.mpr here⟩
  exact ⟨cs, loaded, (loadBytes_ok loaded).1.trans length.symm⟩

/-- Changing memory where it holds nothing of the file leaves the file as it is. -/
theorem read_other {phys : Memory} {data : List UInt8}
    (read : w.loadBytes elfData.ptr elfData.len.toNat = .ok data)
    (same : ∀ i, i < data.length → ∀ x, w.Shows (elfData.ptr + UInt64.ofNat i) x →
      phys x = w.phys x) :
    ({ w with phys := phys } : World μ α).loadBytes elfData.ptr elfData.len.toNat = .ok data := by
  have alike : Alike w { w with phys := phys } := ⟨rfl, rfl, rfl⟩
  obtain ⟨cs, loaded, length⟩ := alike.loadBytes read
  have equal : cs = data := by
    apply List.ext_getElem?
    intro i
    by_cases less : i < data.length
    · obtain ⟨x, here, value⟩ := (loadBytes_ok read).2 i ((loadBytes_ok read).1 ▸ less)
      obtain ⟨y, there, value'⟩ :=
        (loadBytes_ok loaded).2 i ((loadBytes_ok loaded).1 ▸ length ▸ less)
      obtain rfl := here.unique (alike.shows.mp there)
      rw [value, value']
      exact congrArg some (same i less x here)
    · rw [List.getElem?_eq_none (by omega), List.getElem?_eq_none (by omega)]
  rw [← equal]
  exact loaded

variable [FrameAllocator α]

theorem Alike.mapPage (alike : Alike w v) (run : w.mapPage flags page = .ok w') :
    ∃ v', v.mapPage flags page = .ok v' ∧ Alike w' v' := by
  obtain ⟨mapper, frames, trace⟩ := alike
  obtain ⟨⟨frame, frames'⟩, call, rest⟩ := bind_ok run
  obtain ⟨f, got, rest⟩ := bind_ok rest
  obtain ⟨⟨result, frames''⟩, mapping, rest⟩ := bind_ok rest
  obtain ⟨mapper', worked, same⟩ := bind_ok rest
  cases same
  refine ⟨⟨v.phys, mapper', frames'', v.trace ++ [.mapped page f]⟩, ?_, rfl, rfl, ?_⟩
  · unfold World.mapPage
    rw [mapper, frames]
    simp only [call, got, mapping, worked, bind, Except.bind]
  · show v.trace ++ _ = w.trace ++ _
    rw [trace]

theorem Alike.loadSegment (alike : Alike w v) (run : w.loadSegment elfData h = .ok w') :
    ∃ v', v.loadSegment elfData h = .ok v' ∧ Alike w' v' := by
  obtain ⟨start, first, rest⟩ := bind_ok run
  obtain ⟨e, next, rest⟩ := bind_ok rest
  obtain ⟨last, back, rest⟩ := bind_ok rest
  obtain ⟨w1, mapping, rest⟩ := bind_ok rest
  obtain ⟨w2, zeroed, rest⟩ := bind_ok rest
  obtain ⟨w3, copying, finish⟩ := bind_ok rest
  obtain ⟨bs, loaded, copied⟩ := bind_ok copying
  obtain ⟨v1, mapping', alike1⟩ := foldlM_sim Alike.mapPage (alike.observe (.segment h)) mapping
  obtain ⟨v2, zeroed', alike2⟩ := (alike1.observe _).storeBytes rfl zeroed
  obtain ⟨cs, loaded', length⟩ := (alike2.observe _).loadBytes loaded
  obtain ⟨v3, copied', alike3⟩ := ((alike2.observe _).observe _).storeBytes length copied
  have copying' : v2.copyNonoverlapping (elfData.ptr + h.offset) start h.fileSize = .ok v3 := by
    unfold copyNonoverlapping
    simp only [loaded', bind, Except.bind]
    exact copied'
  have cleared' : v1.writeBytes start 0 h.memSize = .ok v2 := zeroed'
  simp only [World.loadSegment, first, next, back, bind, Except.bind, mapping', cleared', copying']
  by_cases writes : h.isWrite = true
  · rw [if_pos writes] at finish ⊢
    cases finish
    exact ⟨v3, rfl, alike3⟩
  · rw [if_neg writes] at finish ⊢
    exact foldlM_sim Alike.setFlags alike3 finish

theorem Alike.loadHeader (alike : Alike w v) (run : w.loadHeader elfData h = .ok w') :
    ∃ v', v.loadHeader elfData h = .ok v' ∧ Alike w' v' := by
  unfold World.loadHeader at run ⊢
  split at run
  · cases run
  · exact alike.loadSegment run
  · cases run
    exact ⟨v, rfl, alike⟩

theorem Alike.setupUserStack {baseAddr count top : UInt64} (alike : Alike w v)
    (run : w.setupUserStack baseAddr count = .ok (top, w')) :
    ∃ v', v.setupUserStack baseAddr count = .ok (top, v') ∧ Alike w' v' := by
  obtain ⟨base, start, rest⟩ := bind_ok run
  obtain ⟨w1, loop, rest⟩ := bind_ok rest
  obtain ⟨top', stop, same⟩ := bind_ok rest
  cases same
  obtain ⟨v1, loop', alike1⟩ := foldlM_sim (g := fun v i => do
      let addr ← virtAdd base (UInt64.ofNat i * 4096)
      v.mapPage ⟨true, true, false⟩ (alignDown addr)) (fun alike step => by
    obtain ⟨addr, place, mapping⟩ := bind_ok step
    obtain ⟨v', mapping', alike'⟩ := alike.mapPage mapping
    exact ⟨v', by simp only [place, bind, Except.bind, mapping'], alike'⟩) alike loop
  refine ⟨v1, ?_, alike1⟩
  simp only [World.setupUserStack, start, bind, Except.bind]
  simp only [bind, Except.bind] at loop'
  simp only [loop', stop]

/-! ### Stacks -/

variable {data : List UInt8} {segments : List ProgramHeader}
  {fs gs : List PhysFrame} {maps : List (Page × PhysFrame)}

/-- The pages of a user stack are mapped and nothing is stored to them. -/
theorem setupUserStack_mapped [LawfulMapper μ] {baseAddr count top : UInt64}
    (run : w.setupUserStack baseAddr count = .ok (top, w')) :
    ∃ maps gs, maps.length = count.toNat ∧
      (∀ m ∈ maps, alignDown m.1 = m.1 ∧ Kernel.canonical m.1) ∧
      Mapped ⟨true, true, false⟩ maps gs w w' := by
  obtain ⟨base, -, looped⟩ := bind_ok run
  obtain ⟨w1, loop, stopped⟩ := bind_ok looped
  obtain ⟨top', -, same⟩ := bind_ok stopped
  cases same
  rw [← List.length_range (n := count.toNat)]
  clear run looped stopped
  generalize List.range count.toNat = l at loop ⊢
  induction l generalizing w with
  | nil =>
    cases loop
    exact ⟨[], [], rfl, fun m mem => absurd mem List.not_mem_nil, .nil _ w'⟩
  | cons i l ih =>
    rw [List.foldlM_cons] at loop
    obtain ⟨mid, first, later⟩ := bind_ok loop
    obtain ⟨addr, place, mapping⟩ := bind_ok first
    obtain ⟨f, hs, -, once⟩ := mapPage_ok mapping
    obtain ⟨maps, gs, length, whole, more⟩ := ih later
    refine ⟨[(alignDown addr, f)] ++ maps, hs ++ gs, by simp [length], ?_, once.append more⟩
    intro m mem
    rcases List.mem_append.mp mem with here | there
    · obtain rfl := List.mem_singleton.mp here
      have fine : Kernel.canonical addr := (virtAddr_ok place).1
      refine ⟨UInt64.toNat_inj.mp ?_, canonical_alignDown.mpr fine⟩
      rw [alignDown_toNat, alignDown_toNat]
      omega
    · exact whole m there

/-! ### What is visible -/

/-- A page was mapped `USER_ACCESSIBLE` at `a`. -/
def UserVisible (w w' : World μ α) (a : UInt64) : Prop :=
  Kernel.canonical a ∧ entry w.mapper (alignDown a) = none ∧
    ∃ e, entry w'.mapper (alignDown a) = some e ∧ e.flags.userAccessible = true

/-- Segments, and a stack that is mapped after them, in frames that hold no byte of the file. -/
structure Prepared (elfData : Slice) (data : List UInt8) (segments : List ProgramHeader)
    (fs gs : List PhysFrame) (maps : List (Page × PhysFrame)) (w w1 w2 : World μ α) : Prop where
  effect : Effect data segments fs w w1
  stack : Mapped ⟨true, true, false⟩ maps gs w1 w2
  nodup : (fs ++ gs).Nodup
  source : Source elfData data (fs ++ gs) w

namespace Prepared

variable {w1 w2 : World μ α}

/-- A page that was mapped for a segment stays as it is. -/
theorem entry_segment (prepared : Prepared elfData data segments fs gs maps w w1 w2)
    (mem : h ∈ segments) (touched : h.Touches page) :
    entry w2.mapper page = entry w1.mapper page := by
  apply prepared.stack.others
  intro inside
  obtain ⟨m, here, rfl⟩ := List.mem_map.mp inside
  obtain ⟨f, -, found⟩ := prepared.effect.touched h mem _ touched
  rw [prepared.stack.free m here] at found
  cases found

theorem shows_segment (prepared : Prepared elfData data segments fs gs maps w w1 w2)
    (mem : h ∈ segments) (touched : h.Touches (alignDown a)) :
    w2.Shows a x ↔ w1.Shows a x := by
  rw [shows_iff, shows_iff, prepared.entry_segment mem touched]

/-- Nothing has been stored to a byte that no segment has, of a page of a segment. -/
theorem stale_segment (prepared : Prepared elfData data segments fs gs maps w w1 w2)
    (disjoint : segments.Pairwise fun h h' => ∀ p, ¬ (h.Touches p ∧ h'.Touches p))
    (mem : h ∈ segments) (touched : h.Touches (alignDown a))
    (apart : ∀ i, i < h.memSize.toNat → h.at' i ≠ a) (here : w2.Shows a x) :
    w2.phys x = w.phys x := by
  rw [prepared.stack.phys]
  have here1 := (prepared.shows_segment mem touched).mp here
  apply prepared.effect.untouched
  intro h' mem' i less there
  obtain ⟨-, e, found, same⟩ := shows_iff.mp here1
  obtain ⟨-, e', found', same'⟩ := shows_iff.mp there
  obtain ⟨frames, offset⟩ := PageEntry.byte_inj (same.trans same'.symm)
  have pages := prepared.effect.apart _ _ e e' (prepared.effect.free h mem _ touched)
    (prepared.effect.free h' mem' _ ⟨i, less, rfl⟩) found found' frames
  have address := page_offset pages offset
  by_cases one : h = h'
  · subst one
    exact apart i less address.symm
  · have symm : Std.Symm fun h h' : ProgramHeader => ∀ p, ¬ (h.Touches p ∧ h'.Touches p) :=
      ⟨fun _ _ none_both p both => none_both p both.symm⟩
    exact disjoint.forall mem mem' one _ ⟨touched, ⟨i, less, by rw [← address]⟩⟩

/-- Nothing has been stored to a page of the stack. -/
theorem stale_stack (prepared : Prepared elfData data segments fs gs maps w w1 w2)
    (free : entry w1.mapper (alignDown a) = none) (here : w2.Shows a x) :
    w2.phys x = w.phys x := by
  have mem : alignDown a ∈ maps.map Prod.fst := by
    by_contra apart
    obtain ⟨-, e, found, -⟩ := shows_iff.mp here
    rw [prepared.stack.others _ apart, free] at found
    cases found
  rw [prepared.stack.phys]
  apply prepared.effect.untouched
  intro h inside i less there
  obtain ⟨g, given, has⟩ := prepared.stack.has mem here
  obtain ⟨f, given', has'⟩ := prepared.effect.has inside less there
  exact (List.nodup_append.mp prepared.nodup).2.2 f given' g given (has'.same has)

/-- A byte of a segment has its value from the file. -/
theorem loadByte_segment (prepared : Prepared elfData data segments fs gs maps w w1 w2)
    (mem : h ∈ segments) {i : Nat} (less : i < h.memSize.toNat) :
    w2.loadByte (h.at' i) = .ok (h.image data i) := by
  obtain ⟨x, here, value⟩ := prepared.effect.bytes h mem i less
  refine loadByte_ok.mpr ⟨x, (prepared.shows_segment mem ⟨i, less, rfl⟩).mpr here, ?_⟩
  rw [prepared.stack.phys, value]

/-- The visible bytes are in frames that hold no byte of the file. -/
theorem not_file (prepared : Prepared elfData data segments fs gs maps w w1 w2)
    (visible : UserVisible w w2 a) (here : w2.Shows a x) {i : Nat} (less : i < data.length) :
    ¬ w.Shows (elfData.ptr + UInt64.ofNat i) x := by
  intro there
  obtain ⟨y, shown, -, apart⟩ := prepared.source i less
  obtain rfl := there.unique shown
  by_cases mem : alignDown a ∈ maps.map Prod.fst
  · obtain ⟨g, given, has⟩ := prepared.stack.has mem here
    exact apart g (List.mem_append_right fs given) has
  · obtain ⟨-, e, found, rfl⟩ := shows_iff.mp here
    rw [prepared.stack.others _ mem] at found
    obtain ⟨-, -, -, given, -⟩ := prepared.effect.new visible.2.1 found
    exact apart e.frame (List.mem_append_left gs given) (e.byte_has a)

end Prepared

variable {parse : List UInt8 → Except Stop ElfFile} {elf : ElfFile}
  {w1 w2 : World μ α} {baseAddr count top r : UInt64}

theorem prepared_of_runs [LawfulMapper μ]
    (read : w.loadBytes elfData.ptr elfData.len.toNat = .ok data)
    (parsed : parse data = .ok elf) (gives : w.GivesUnused elfData)
    (fine : ∀ h ∈ elf.segments, h.WellFormed data)
    (run : w.loadElf parse elfData = .ok (r, w1))
    (stack : w1.setupUserStack baseAddr count = .ok (top, w2)) :
    ∃ fs gs maps, maps.length = count.toNat ∧
      (∀ m ∈ maps, alignDown m.1 = m.1 ∧ Kernel.canonical m.1) ∧
      Prepared elfData data elf.segments fs gs maps w w1 w2 := by
  have unused := gives.unused read
  have fine' : ∀ h ∈ elf.programs, h.type = some .load → h.WellFormed data :=
    fun h mem type => fine h (List.mem_filter.mpr ⟨mem, by simpa using type⟩)
  obtain ⟨fs, effect⟩ := loadHeaders_effect unused fine' (loadElf_loop read parsed run).1
  obtain ⟨maps, gs, length, whole, mapped⟩ := setupUserStack_mapped stack
  obtain ⟨nodup, source⟩ := unused (fs ++ gs) _ (effect.taken.append mapped.taken)
  exact ⟨fs, gs, maps, length, whole, effect, mapped, nodup, source⟩

/-- The runs from the same state with other contents of memory, but the same file. -/
theorem alike_runs {phys : Memory} (read : w.loadBytes elfData.ptr elfData.len.toNat = .ok data)
    (read' : ({ w with phys := phys } : World μ α).loadBytes elfData.ptr elfData.len.toNat =
      .ok data)
    (parsed : parse data = .ok elf) (run : w.loadElf parse elfData = .ok (r, w1))
    (stack : w1.setupUserStack baseAddr count = .ok (top, w2)) :
    ∃ v1 v2, ({ w with phys := phys } : World μ α).loadElf parse elfData = .ok (r, v1) ∧
      v1.setupUserStack baseAddr count = .ok (top, v2) ∧ Alike w1 v1 ∧ Alike w2 v2 := by
  have alike : Alike w { w with phys := phys } := ⟨rfl, rfl, rfl⟩
  obtain ⟨loop, entry⟩ := loadElf_loop read parsed run
  obtain ⟨v1, loop', alike1⟩ := foldlM_sim Alike.loadHeader alike loop
  obtain ⟨v2, stack', alike2⟩ := alike1.setupUserStack stack
  refine ⟨v1, v2, ?_, stack', alike1, alike2⟩
  simp only [loadElf, read', parsed, loop', entry, bind, Except.bind]

/-- A byte that the user can see and that no segment has is what its frame held before. -/
theorem Prepared.stale (prepared : Prepared elfData data elf.segments fs gs maps w w1 w2)
    (disjoint : elf.segments.Pairwise fun h h' => ∀ p, ¬ (h.Touches p ∧ h'.Touches p))
    (free : entry w.mapper (alignDown a) = none) (here : w2.Shows a x)
    (apart : ∀ h ∈ elf.segments, ∀ i, i < h.memSize.toNat → h.at' i ≠ a) :
    w2.phys x = w.phys x := by
  by_cases mapped : entry w1.mapper (alignDown a) = none
  · exact prepared.stale_stack mapped here
  · obtain ⟨e, found⟩ := Option.ne_none_iff_exists'.mp mapped
    obtain ⟨h, mem, touched, -⟩ := prepared.effect.new free found
    exact prepared.stale_segment disjoint mem touched (apart h mem) here

variable [LawfulMapper μ]

/-- The byte at `a` is the same for all contents of memory before. -/
def Fixed (parse : List UInt8 → Except Stop ElfFile) (elfData : Slice) (data : List UInt8)
    (baseAddr count : UInt64) (w w2 : World μ α) (a : UInt64) : Prop :=
  ∀ phys : Memory,
    ({ w with phys := phys } : World μ α).loadBytes elfData.ptr elfData.len.toNat = .ok data →
    ∃ r v1 top v2, ({ w with phys := phys } : World μ α).loadElf parse elfData = .ok (r, v1) ∧
      v1.setupUserStack baseAddr count = .ok (top, v2) ∧ v2.loadByte a = w2.loadByte a

/-- A byte that the user can see is the same for all contents of memory before exactly when a
segment has it. -/
theorem fixed_iff (read : w.loadBytes elfData.ptr elfData.len.toNat = .ok data)
    (parsed : parse data = .ok elf) (gives : w.GivesUnused elfData)
    (fine : ∀ h ∈ elf.segments, h.WellFormed data)
    (disjoint : elf.segments.Pairwise fun h h' => ∀ p, ¬ (h.Touches p ∧ h'.Touches p))
    (run : w.loadElf parse elfData = .ok (r, w1))
    (stack : w1.setupUserStack baseAddr count = .ok (top, w2)) (visible : UserVisible w w2 a) :
    Fixed parse elfData data baseAddr count w w2 a ↔
      ∃ h ∈ elf.segments, ∃ i, i < h.memSize.toNat ∧ h.at' i = a := by
  obtain ⟨fs, gs, maps, -, -, prepared⟩ := prepared_of_runs read parsed gives fine run stack
  constructor
  · intro fixed
    by_contra outside
    have apart : ∀ h ∈ elf.segments, ∀ i, i < h.memSize.toNat → h.at' i ≠ a :=
      fun h mem i less same => outside ⟨h, mem, i, less, same⟩
    -- The same runs with every byte that is not the file's changed.
    let phys : Memory := fun x =>
      open Classical in
      if ∃ i, i < data.length ∧ w.Shows (elfData.ptr + UInt64.ofNat i) x then w.phys x
      else w.phys x + 1
    have read' : ({ w with phys := phys } : World μ α).loadBytes elfData.ptr
        elfData.len.toNat = .ok data :=
      read_other read fun i less x here => if_pos ⟨i, less, here⟩
    obtain ⟨r', v1, top', v2, run', stack', same⟩ := fixed phys read'
    obtain ⟨u1, u2, run'', stack'', -, alike⟩ := alike_runs read read' parsed run stack
    rw [run'] at run''
    cases run''
    rw [stack'] at stack''
    cases stack''
    obtain ⟨fs', gs', maps', -, -, prepared'⟩ :=
      prepared_of_runs read' parsed gives fine run' stack'
    obtain ⟨canonical, free, e, found, user⟩ := visible
    have here : w2.Shows a (e.byte a) := shows_iff.mpr ⟨canonical, e, found, rfl⟩
    have here' : v2.Shows a (e.byte a) := alike.shows.mpr here
    have stale := prepared.stale disjoint free here apart
    have stale' := prepared'.stale disjoint free here' apart
    have changed : phys (e.byte a) = w.phys (e.byte a) + 1 := by
      refine if_neg ?_
      rintro ⟨i, less, there⟩
      exact prepared.not_file ⟨canonical, free, e, found, user⟩ here less there
    rw [loadByte_ok.mpr ⟨_, here, stale⟩, loadByte_ok.mpr ⟨_, here', stale'⟩] at same
    have bytes := congrArg UInt8.toNat (changed.symm.trans (Except.ok.inj same))
    have := (w.phys (e.byte a)).toNat_lt
    simp only [UInt8.toNat_add, UInt8.reduceToNat] at bytes
    omega
  · rintro ⟨h, mem, i, less, rfl⟩ phys read'
    obtain ⟨v1, v2, run', stack', -, -⟩ := alike_runs read read' parsed run stack
    obtain ⟨fs', gs', maps', -, -, prepared'⟩ :=
      prepared_of_runs read' parsed gives fine run' stack'
    refine ⟨r, v1, top, v2, run', stack', ?_⟩
    rw [prepared.loadByte_segment mem less, prepared'.loadByte_segment mem less]

/-- Every byte that the user can see is determined exactly when the stack has no pages and every
segment starts and ends with a page. -/
theorem all_fixed_iff (read : w.loadBytes elfData.ptr elfData.len.toNat = .ok data)
    (parsed : parse data = .ok elf) (gives : w.GivesUnused elfData)
    (fine : ∀ h ∈ elf.segments, h.WellFormed data)
    (disjoint : elf.segments.Pairwise fun h h' => ∀ p, ¬ (h.Touches p ∧ h'.Touches p))
    (run : w.loadElf parse elfData = .ok (r, w1))
    (stack : w1.setupUserStack baseAddr count = .ok (top, w2)) :
    (∀ a, UserVisible w w2 a → Fixed parse elfData data baseAddr count w w2 a) ↔
      count = 0 ∧ ∀ h ∈ elf.segments, h.WholePages := by
  obtain ⟨fs, gs, maps, length, aligned, prepared⟩ :=
    prepared_of_runs read parsed gives fine run stack
  constructor
  · intro fixed
    have inside : ∀ a, UserVisible w w2 a →
        ∃ h ∈ elf.segments, ∃ i, i < h.memSize.toNat ∧ h.at' i = a := fun a visible =>
      (fixed_iff read parsed gives fine disjoint run stack visible).mp (fixed a visible)
    constructor
    · by_contra pages
      have nonempty : maps ≠ [] := by
        rintro rfl
        exact pages (UInt64.toNat_inj.mp length.symm)
      obtain ⟨m, mem⟩ := List.exists_mem_of_ne_nil maps nonempty
      obtain ⟨whole, canonical⟩ := aligned m mem
      have free : entry w1.mapper (alignDown m.1) = none := by
        rw [whole]
        exact prepared.stack.free m mem
      have apart : ∀ h ∈ elf.segments, ¬ h.Touches (alignDown m.1) := by
        intro h inside touched
        obtain ⟨f, -, found⟩ := prepared.effect.touched h inside _ touched
        rw [free] at found
        cases found
      have page : alignDown m.1 ∈ maps.map Prod.fst := by
        rw [whole]
        exact List.mem_map_of_mem mem
      obtain ⟨m', -, -, found⟩ := prepared.stack.page_mem page
      rw [prepared.effect.others _ apart] at free
      obtain ⟨h, mem', i, less, same⟩ := inside m.1 ⟨canonical, free, _, found, rfl⟩
      exact apart h mem' ⟨i, less, by rw [same]⟩
    · intro h mem
      by_contra ragged
      obtain ⟨a, canonical, touched, apart⟩ := (fine h mem).edge ragged
      obtain ⟨f, -, found⟩ := prepared.effect.touched h mem _ touched
      rw [← prepared.entry_segment mem touched] at found
      have free := prepared.effect.free h mem _ touched
      obtain ⟨h', mem', i, less, same⟩ := inside a ⟨canonical, free, _, found, rfl⟩
      have touched' : h'.Touches (alignDown a) := ⟨i, less, by rw [same]⟩
      by_cases one : h = h'
      · subst one
        exact apart i less same
      · have symm : Std.Symm fun h h' : ProgramHeader => ∀ p, ¬ (h.Touches p ∧ h'.Touches p) :=
          ⟨fun _ _ none_both p both => none_both p both.symm⟩
        exact disjoint.forall mem mem' one _ ⟨touched, touched'⟩
  · rintro ⟨rfl, whole⟩ a visible
    apply (fixed_iff read parsed gives fine disjoint run stack visible).mpr
    obtain ⟨canonical, free, e, found, -⟩ := visible
    have none_mapped : maps = [] := List.length_eq_zero_iff.mp length
    rw [prepared.stack.others _ (by simp [none_mapped])] at found
    obtain ⟨h, mem, touched, -⟩ := prepared.effect.new free found
    exact ⟨h, mem, (fine h mem).whole (whole h mem) touched⟩

/-- After `load_elf` and `setup_user_stack` a byte that they show the user is the same for any two
contents of memory before exactly when a segment has it, and is then its byte of the file or
zero; every other byte is what its frame held before.  All bytes are the same exactly when the stack
has no pages and every segment starts and ends with a page. -/
theorem user_pages_determined (read : w.loadBytes elfData.ptr elfData.len.toNat = .ok data)
    (parsed : parse data = .ok elf) (gives : w.GivesUnused elfData)
    (fine : ∀ h ∈ elf.segments, h.WellFormed data)
    (disjoint : elf.segments.Pairwise fun h h' => ∀ p, ¬ (h.Touches p ∧ h'.Touches p))
    (run : w.loadElf parse elfData = .ok (r, w1))
    (stack : w1.setupUserStack baseAddr count = .ok (top, w2)) :
    (∀ a, UserVisible w w2 a →
      (Fixed parse elfData data baseAddr count w w2 a ↔
        ∃ h ∈ elf.segments, ∃ i, i < h.memSize.toNat ∧ h.at' i = a) ∧
      (∀ h ∈ elf.segments, ∀ i, i < h.memSize.toNat → h.at' i = a →
        w2.loadByte a = .ok (h.image data i)) ∧
      ((∀ h ∈ elf.segments, ∀ i, i < h.memSize.toNat → h.at' i ≠ a) →
        ∃ x, w2.Shows a x ∧ w2.loadByte a = .ok (w.phys x))) ∧
    ((∀ a, UserVisible w w2 a → Fixed parse elfData data baseAddr count w w2 a) ↔
      count = 0 ∧ ∀ h ∈ elf.segments, h.WholePages) := by
  obtain ⟨fs, gs, maps, -, -, prepared⟩ := prepared_of_runs read parsed gives fine run stack
  refine ⟨fun a visible => ⟨fixed_iff read parsed gives fine disjoint run stack visible, ?_, ?_⟩,
    all_fixed_iff read parsed gives fine disjoint run stack⟩
  · rintro h mem i less rfl
    exact prepared.loadByte_segment mem less
  · intro apart
    obtain ⟨canonical, free, e, found, -⟩ := visible
    have here : w2.Shows a (e.byte a) := shows_iff.mpr ⟨canonical, e, found, rfl⟩
    exact ⟨_, here, loadByte_ok.mpr ⟨_, here, prepared.stale disjoint free here apart⟩⟩

end World

namespace ElfFile

/-- The page of a stack shows the frame that it is in, whatever was there. -/
theorem smallFile_stacked (phys : Memory)
    (bytes : { smallWorld (smallFile 0x400ffe 2 3) with phys := phys }.loadBytes smallSlice.ptr
      smallSlice.len.toNat = .ok (smallFile 0x400ffe 2 3)) :
    ∃ w1 w2, { smallWorld (smallFile 0x400ffe 2 3) with phys := phys }.loadElf read smallSlice =
        .ok (0x400ffe, w1) ∧
      w1.setupUserStack 0x800000 1 = .ok (0x801000, w2) ∧
      World.UserVisible (smallWorld (smallFile 0x400ffe 2 3)) w2 0x800000 ∧
      w2.loadByte 0x800000 = .ok (phys 0x105000) := by
  obtain ⟨-, parsed⟩ := smallFile_read
  obtain ⟨w1, w2, run, stack, free, found⟩ : ∃ w1 w2,
      { smallWorld (smallFile 0x400ffe 2 3) with phys := phys }.loadElf read smallSlice =
        .ok (0x400ffe, w1) ∧
      w1.setupUserStack 0x800000 1 = .ok (0x801000, w2) ∧
      entry w1.mapper (alignDown 0x800000) = none ∧
      entry w2.mapper (alignDown 0x800000) = some ⟨⟨0x105000, rfl⟩, ⟨true, true, false⟩⟩ := by
    simp only [World.loadElf, bytes, parsed, bind, Except.bind]
    exact ⟨_, _, rfl, rfl, rfl, rfl⟩
  have fine : ∀ h ∈ [smallSegment], h.WellFormed (smallFile 0x400ffe 2 3) :=
    fun h mem => List.mem_singleton.mp mem ▸ smallSegment_wellFormed
  obtain ⟨fs, gs, maps, -, -, prepared⟩ := World.prepared_of_runs bytes parsed
    (smallWorld_gives (smallFile 0x400ffe 2 3)) fine run stack
  have shown : w2.Shows 0x800000 0x105000 := World.shows_iff.mpr ⟨by decide, _, found, rfl⟩
  refine ⟨w1, w2, run, stack, ⟨by decide, rfl, _, found, rfl⟩, World.loadByte_ok.mpr ⟨_, shown, ?_⟩⟩
  exact prepared.stale_stack free shown

theorem user_pages_determined_small :
    ∃ w1 w2, (smallWorld (smallFile 0x400ffe 2 3)).loadElf read smallSlice = .ok (0x400ffe, w1) ∧
      w1.setupUserStack 0x800000 1 = .ok (0x801000, w2) ∧
      (∀ a, World.UserVisible (smallWorld (smallFile 0x400ffe 2 3)) w2 a →
        (World.Fixed read smallSlice (smallFile 0x400ffe 2 3) 0x800000 1
            (smallWorld (smallFile 0x400ffe 2 3)) w2 a ↔
          ∃ h ∈ [smallSegment], ∃ i, i < h.memSize.toNat ∧ h.at' i = a)) := by
  obtain ⟨bytes, parsed⟩ := smallFile_read
  obtain ⟨w1, w2, run, stack, -⟩ := smallFile_stacked _ bytes
  have fine : ∀ h ∈ [smallSegment], h.WellFormed (smallFile 0x400ffe 2 3) :=
    fun h mem => List.mem_singleton.mp mem ▸ smallSegment_wellFormed
  have determined := World.user_pages_determined bytes parsed (smallWorld_gives _) fine
    (List.pairwise_singleton _ _) run stack
  exact ⟨w1, w2, run, stack, fun a visible => (determined.1 a visible).1⟩

/-- The first byte of a user stack is the one that was in its frame before. -/
theorem stack_shows_frame :
    ∃ phys w1 w2 v1 v2,
      { smallWorld (smallFile 0x400ffe 2 3) with phys := phys }.loadBytes smallSlice.ptr
        smallSlice.len.toNat = .ok (smallFile 0x400ffe 2 3) ∧
      (smallWorld (smallFile 0x400ffe 2 3)).loadElf read smallSlice = .ok (0x400ffe, w1) ∧
      w1.setupUserStack 0x800000 1 = .ok (0x801000, w2) ∧
      { smallWorld (smallFile 0x400ffe 2 3) with phys := phys }.loadElf read smallSlice =
        .ok (0x400ffe, v1) ∧
      v1.setupUserStack 0x800000 1 = .ok (0x801000, v2) ∧
      World.UserVisible (smallWorld (smallFile 0x400ffe 2 3)) w2 0x800000 ∧
      w2.loadByte 0x800000 = .ok 0xcc ∧ v2.loadByte 0x800000 = .ok 0xdd := by
  obtain ⟨bytes, -⟩ := smallFile_read
  let phys : Memory := fun x => if x < 0x200000 then 0xdd
    else (smallWorld (smallFile 0x400ffe 2 3)).phys x
  have bytes' : { smallWorld (smallFile 0x400ffe 2 3) with phys := phys }.loadBytes smallSlice.ptr
      smallSlice.len.toNat = .ok (smallFile 0x400ffe 2 3) := by decide +kernel
  obtain ⟨w1, w2, run, stack, visible, shown⟩ := smallFile_stacked _ bytes
  obtain ⟨v1, v2, run', stack', -, shown'⟩ := smallFile_stacked phys bytes'
  exact ⟨phys, w1, w2, v1, v2, bytes', run, stack, run', stack', visible, shown, shown'⟩

end ElfFile

end Microkernel
