import Microkernel.Proof.Handout

/-! The whole of `load_elf`: by induction on the program headers, each segment keeps what the
segments before it have left, since the pages it is loaded into were not mapped and their frames are
new. -/

namespace Microkernel

open Lib

namespace ElfFile

/-- The headers that `load_elf` loads. -/
def segments (elf : ElfFile) : List ProgramHeader :=
  elf.programs.filter fun h => h.type = some .load

end ElfFile

namespace World

variable {μ α : Type} [Mapper μ] [FrameAllocator α] {w w' w'' : World μ α} {a x : UInt64}
  {elfData : Slice} {h : ProgramHeader} {data : List UInt8} {fs gs : List PhysFrame}
  {segments segments' : List ProgramHeader} {p : Page} {e : PageEntry}

namespace Effect

theorem nil (data : List UInt8) (w : World μ α) : Effect data [] [] w w where
  taken := .nil _
  free h mem := absurd mem List.not_mem_nil
  touched h mem := absurd mem List.not_mem_nil
  others _ _ := rfl
  apart p q e e' free _ found _ _ := by
    rw [free] at found
    cases found
  bytes h mem := absurd mem List.not_mem_nil
  untouched _ _ := rfl

/-- The pages that are mapped anew are those of the segments. -/
theorem new (effect : Effect data segments fs w w') (free : entry w.mapper p = none)
    (found : entry w'.mapper p = some e) :
    ∃ h ∈ segments, h.Touches p ∧ e.frame ∈ fs ∧ e.flags = ⟨h.isWrite, true, false⟩ := by
  by_cases touched : ∃ h ∈ segments, h.Touches p
  · obtain ⟨h, mem, touched⟩ := touched
    obtain ⟨f, given, same⟩ := effect.touched h mem p touched
    rw [found] at same
    cases same
    exact ⟨h, mem, touched, given, rfl⟩
  · rw [effect.others p fun h mem here => touched ⟨h, mem, here⟩, free] at found
    cases found

/-- The bytes of a segment are in the frames that the allocator has given. -/
theorem has (effect : Effect data segments fs w w') (mem : h ∈ segments) {i : Nat}
    (less : i < h.memSize.toNat) (here : w'.Shows (h.at' i) x) : ∃ f ∈ fs, f.Has x := by
  obtain ⟨f, given, found⟩ := effect.touched h mem _ ⟨i, less, rfl⟩
  obtain ⟨-, e, found', rfl⟩ := shows_iff.mp here
  rw [found] at found'
  cases found'
  exact ⟨f, given, PageEntry.byte_has _ _⟩

/-- The pages of later segments are none of the earlier ones. -/
theorem later (first : Effect data segments fs w w') (second : Effect data segments' gs w' w'')
    (mem : h ∈ segments) (touched : h.Touches p) :
    entry w''.mapper p = entry w'.mapper p := by
  apply second.others
  intro h' mem' touched'
  obtain ⟨f, -, found⟩ := first.touched h mem p touched
  have free := second.free h' mem' p touched'
  rw [free] at found
  cases found

theorem shows_later (first : Effect data segments fs w w')
    (second : Effect data segments' gs w' w'') (mem : h ∈ segments) {i : Nat}
    (less : i < h.memSize.toNat) :
    w''.Shows (h.at' i) x ↔ w'.Shows (h.at' i) x := by
  have same := first.later second mem ⟨i, less, rfl⟩
  rw [shows_iff, shows_iff, same]

theorem append (first : Effect data segments fs w w') (second : Effect data segments' gs w' w'')
    (nodup : (fs ++ gs).Nodup) : Effect data (segments ++ segments') (fs ++ gs) w w'' := by
  have disjoint := (List.nodup_append.mp nodup).2.2
  have clash : ∀ f g x, f ∈ fs → g ∈ gs → f.Has x → ¬ g.Has x :=
    fun f g x here there has has' => disjoint f here g there (has.same has')
  constructor
  · exact first.taken.append second.taken
  · intro h mem p touched
    rcases List.mem_append.mp mem with here | there
    · exact first.free h here p touched
    · have free := second.free h there p touched
      by_cases earlier : ∃ h' ∈ segments, h'.Touches p
      · obtain ⟨h', here, touched'⟩ := earlier
        obtain ⟨f, -, found⟩ := first.touched h' here p touched'
        rw [free] at found
        cases found
      · rw [← first.others p fun h' here touched' => earlier ⟨h', here, touched'⟩]
        exact free
  · intro h mem p touched
    rcases List.mem_append.mp mem with here | there
    · obtain ⟨f, given, found⟩ := first.touched h here p touched
      refine ⟨f, List.mem_append_left gs given, ?_⟩
      rw [first.later second here touched, found]
    · obtain ⟨f, given, found⟩ := second.touched h there p touched
      exact ⟨f, List.mem_append_right fs given, found⟩
  · intro p apart
    rw [second.others p fun h mem => apart h (List.mem_append_right segments mem),
      first.others p fun h mem => apart h (List.mem_append_left segments' mem)]
  · have origin : ∀ p e, entry w.mapper p = none → entry w''.mapper p = some e →
        (entry w'.mapper p = some e ∧ e.frame ∈ fs) ∨
          (entry w'.mapper p = none ∧ e.frame ∈ gs) := by
      intro p e free found
      cases middle : entry w'.mapper p with
      | none =>
        obtain ⟨-, -, -, given, -⟩ := second.new middle found
        exact .inr ⟨rfl, given⟩
      | some e' =>
        obtain ⟨h, mem, touched, given, -⟩ := first.new free middle
        rw [first.later second mem touched, middle] at found
        cases found
        exact .inl ⟨rfl, given⟩
    intro p q e e' free free' found found' same
    rcases origin p e free found with ⟨middle, given⟩ | ⟨middle, given⟩
    · rcases origin q e' free' found' with ⟨middle', given'⟩ | ⟨middle', given'⟩
      · exact first.apart p q e e' free free' middle middle' same
      · exact absurd same (disjoint _ given _ given')
    · rcases origin q e' free' found' with ⟨middle', given'⟩ | ⟨middle', given'⟩
      · exact absurd same.symm (disjoint _ given' _ given)
      · exact second.apart p q e e' middle middle' found found' same
  · intro h mem i less
    rcases List.mem_append.mp mem with here | there
    · obtain ⟨x, shown, value⟩ := first.bytes h here i less
      refine ⟨x, (first.shows_later second here less).mpr shown, ?_⟩
      rw [second.untouched x, value]
      intro h' there j less' shown'
      obtain ⟨f, given, has⟩ := first.has here less shown
      obtain ⟨g, given', has'⟩ := second.has there less' shown'
      exact clash f g x given given' has has'
    · exact second.bytes h there i less
  · intro x apart
    rw [second.untouched x fun h mem => apart h (List.mem_append_right segments mem),
      first.untouched x]
    intro h mem i less shown
    exact apart h (List.mem_append_left segments' mem) i less
      ((first.shows_later second mem less).mpr shown)

end Effect

/-! ### The promise of the allocator -/

/-- What the allocator promises: whatever frames it gives are different, and the file is in none of
them. -/
def Unused (elfData : Slice) (data : List UInt8) (w : World μ α) : Prop :=
  ∀ fs b, Taken w.frames fs b → fs.Nodup ∧ Source elfData data fs w

theorem Unused.readable (unused : Unused elfData data w) {i : Nat} (less : i < data.length) :
    ∃ x, w.Shows (elfData.ptr + UInt64.ofNat i) x := by
  obtain ⟨x, shown, -⟩ := (unused [] w.frames (.nil _)).2 i less
  exact ⟨x, shown⟩

/-- The promise holds again after a load. -/
theorem Unused.step (unused : Unused elfData data w) (effect : Effect data segments fs w w') :
    Unused elfData data w' := by
  intro gs b taken
  obtain ⟨nodup, source⟩ := unused (fs ++ gs) b (effect.taken.append taken)
  refine ⟨(List.nodup_append.mp nodup).2.1, fun i less => ?_⟩
  obtain ⟨x, shown, value, apart⟩ := source i less
  refine ⟨x, shown.congr fun e found => ⟨e.flags, ?_⟩, ?_, fun g mem => ?_⟩
  · rw [effect.others]
    · exact found
    · intro h mem touched
      rw [effect.free h mem _ touched] at found
      cases found
  · rw [effect.untouched x, value]
    intro h mem j before there
    obtain ⟨f, given, has⟩ := effect.has mem before there
    exact apart f (List.mem_append_left gs given) has
  · exact apart g (List.mem_append_right fs mem)

/-! ### The image -/

/-- What `load_elf` is to leave: the bytes of the segments, their pages with their flags, and every
other page as it was. -/
structure Loaded (data : List UInt8) (segments : List ProgramHeader) (w w' : World μ α) : Prop where
  bytes : ∀ h ∈ segments, ∀ i, i < h.memSize.toNat → w'.loadByte (h.at' i) = .ok (h.image data i)
  pages : ∀ h ∈ segments, ∀ p, h.Touches p →
    ∃ f, entry w'.mapper p = some ⟨f, ⟨h.isWrite, true, false⟩⟩
  others : ∀ p, (∀ h ∈ segments, ¬ h.Touches p) → entry w'.mapper p = entry w.mapper p

/-- The contract of a frame allocator: the frames that it gives are different, and no byte of the
file is in one of them. -/
def GivesUnused (elfData : Slice) (w : World μ α) : Prop :=
  ∀ fs b, Taken w.frames fs b → fs.Nodup ∧ ∀ f ∈ fs, ∀ i, i < elfData.len.toNat →
    ∀ x, w.Shows (elfData.ptr + UInt64.ofNat i) x → ¬ f.Has x

theorem GivesUnused.unused (gives : w.GivesUnused elfData)
    (read : w.loadBytes elfData.ptr elfData.len.toNat = .ok data) : w.Unused elfData data := by
  obtain ⟨length, shown⟩ := loadBytes_ok read
  intro fs b taken
  obtain ⟨nodup, apart⟩ := gives fs b taken
  refine ⟨nodup, fun i less => ?_⟩
  rw [length] at less
  obtain ⟨x, here, value⟩ := shown i less
  exact ⟨x, here, value, fun f mem => apart f mem i less x here⟩

theorem Effect.loaded (effect : Effect data segments fs w w') : Loaded data segments w w' where
  bytes h mem i less := by
    obtain ⟨x, shown, value⟩ := effect.bytes h mem i less
    exact loadByte_ok.mpr ⟨x, shown, value⟩
  pages h mem p touched := by
    obtain ⟨f, -, found⟩ := effect.touched h mem p touched
    exact ⟨f, found⟩
  others := effect.others

variable {parse : List UInt8 → Except Stop ElfFile} {elf : ElfFile} {r : UInt64}

theorem loadElf_loop (read : w.loadBytes elfData.ptr elfData.len.toNat = .ok data)
    (parsed : parse data = .ok elf) (run : w.loadElf parse elfData = .ok (r, w')) :
    elf.programs.foldlM (loadHeader elfData) w = .ok w' ∧ virtAddr elf.entryPoint = .ok r := by
  obtain ⟨bytes, read', rest⟩ := bind_ok run
  rw [read] at read'
  cases read'
  obtain ⟨elf', parsed', rest⟩ := bind_ok rest
  rw [parsed] at parsed'
  cases parsed'
  obtain ⟨w1, loop, rest⟩ := bind_ok rest
  obtain ⟨r', entry, same⟩ := bind_ok rest
  cases same
  exact ⟨loop, entry⟩

/-! ### Runs -/

variable [LawfulMapper μ]

theorem loadSegment_effect (fine : h.WellFormed data) (unused : Unused elfData data w)
    (run : w.loadSegment elfData h = .ok w') :
    ∃ fs, fs.length ≤ 4 * h.pages.length ∧ Effect data [h] fs w w' := by
  obtain ⟨v, last, maps, fs, bs, w1, w2, w3, steps⟩ := loadSegment_ok run
  have frames : w'.frames = w1.frames := by
    obtain ⟨mapper, rfl, -⟩ := steps.final
    exact steps.memory.2.2.1
  have taken : Taken w.frames fs w'.frames := frames ▸ steps.mapped.taken
  obtain ⟨nodup, source⟩ := unused fs _ taken
  refine ⟨fs, ?_, steps.effect fine nodup source⟩
  rw [← (steps.place fine).2, List.length_map]
  exact steps.few

/-- A loop over the headers that returns has loaded the segments among them. -/
theorem loadHeaders_effect {programs : List ProgramHeader} (unused : Unused elfData data w)
    (fine : ∀ h ∈ programs, h.type = some .load → h.WellFormed data)
    (run : programs.foldlM (loadHeader elfData) w = .ok w') :
    ∃ fs, Effect data (programs.filter fun h => h.type = some .load) fs w w' := by
  induction programs generalizing w with
  | nil =>
    cases run
    exact ⟨[], .nil data w'⟩
  | cons h programs ih =>
    rw [List.foldlM_cons] at run
    obtain ⟨mid, first, rest⟩ := bind_ok run
    have fine' : ∀ h ∈ programs, h.type = some .load → h.WellFormed data :=
      fun h' mem => fine h' (List.mem_cons_of_mem h mem)
    unfold loadHeader at first
    split at first
    · cases first
    · rename_i load
      obtain ⟨fs, -, once⟩ := loadSegment_effect (fine h List.mem_cons_self load) unused first
      obtain ⟨gs, more⟩ := ih (unused.step once) fine' rest
      have nodup := (unused (fs ++ gs) _ (once.taken.append more.taken)).1
      rw [List.filter_cons_of_pos (by simpa using load)]
      exact ⟨fs ++ gs, once.append more nodup⟩
    · rename_i other
      cases first
      rw [List.filter_cons_of_neg (by simp [other])]
      exact ih unused fine' rest

/-- The loop over the headers returns if no segment stops it. -/
theorem loadHeaders_total {programs : List ProgramHeader} {b : α} (unused : Unused elfData data w)
    (known : ∀ h ∈ programs, h.type ≠ none)
    (fine : ∀ h ∈ programs, h.type = some .load → h.WellFormed data)
    (inner : ∀ h ∈ programs, h.type = some .load → ¬ h.EndsHalf)
    (free : ∀ h ∈ programs, h.type = some .load → ∀ p, h.Touches p → entry w.mapper p = none)
    (disjoint : (programs.filter fun h => h.type = some .load).Pairwise fun h h' =>
      ∀ p, ¬ (h.Touches p ∧ h'.Touches p))
    (enough : 4 * ((programs.filter fun h => h.type = some .load).map fun h =>
      h.pages.length).sum ≤ fs.length)
    (taken : Taken w.frames fs b) : ∃ w', programs.foldlM (loadHeader elfData) w = .ok w' := by
  induction programs generalizing w fs with
  | nil => exact ⟨w, rfl⟩
  | cons h programs ih =>
    have known' : ∀ h ∈ programs, h.type ≠ none :=
      fun h' mem => known h' (List.mem_cons_of_mem h mem)
    have fine' : ∀ h ∈ programs, h.type = some .load → h.WellFormed data :=
      fun h' mem => fine h' (List.mem_cons_of_mem h mem)
    have inner' : ∀ h ∈ programs, h.type = some .load → ¬ h.EndsHalf :=
      fun h' mem => inner h' (List.mem_cons_of_mem h mem)
    rcases type : h.type with _ | _ | _
    · exact absurd type (known h List.mem_cons_self)
    · rw [List.filter_cons_of_pos (by simpa using type)] at disjoint enough
      obtain ⟨apart, disjoint⟩ := List.pairwise_cons.mp disjoint
      simp only [List.map_cons, List.sum_cons] at enough
      obtain ⟨mid, first⟩ : ∃ mid, w.loadSegment elfData h = .ok mid :=
        loadSegment_total (fine h List.mem_cons_self type) (inner h List.mem_cons_self type)
          (free h List.mem_cons_self type) (fun i less => unused.readable less) (by omega) taken
      obtain ⟨gs, few, once⟩ := loadSegment_effect (fine h List.mem_cons_self type) unused first
      obtain ⟨hs, rfl, left⟩ := once.taken.extend taken (by omega)
      have free' : ∀ h ∈ programs, h.type = some .load → ∀ p, h.Touches p →
          entry mid.mapper p = none := by
        intro h' mem type' p touched
        rw [once.others p]
        · exact free h' (List.mem_cons_of_mem h mem) type' p touched
        · intro h'' mem'' touched'
          obtain rfl := List.mem_singleton.mp mem''
          have loads : h' ∈ programs.filter fun h => h.type = some .load :=
            List.mem_filter.mpr ⟨mem, by simpa using type'⟩
          exact apart h' loads p ⟨touched', touched⟩
      rw [List.length_append] at enough
      obtain ⟨w', rest⟩ := ih (unused.step once) known' fine' inner' free' disjoint (by omega) left
      refine ⟨w', ?_⟩
      rw [List.foldlM_cons, loadHeader, type]
      simp only [first, bind, Except.bind]
      exact rest
    · rw [List.filter_cons_of_neg (by simp [type])] at disjoint enough
      obtain ⟨w', rest⟩ := ih unused known' fine' inner'
        (fun h' mem => free h' (List.mem_cons_of_mem h mem)) disjoint enough taken
      refine ⟨w', ?_⟩
      rw [List.foldlM_cons, loadHeader, type]
      exact rest

/-- A header that the loop has passed has a known type, and a segment does not end with a half of
the addresses. -/
theorem loadHeaders_passed {programs : List ProgramHeader}
    (fine : ∀ h ∈ programs, h.type = some .load → h.WellFormed data)
    (run : programs.foldlM (loadHeader elfData) w = .ok w') (mem : h ∈ programs) :
    h.type ≠ none ∧ (h.type = some .load → ¬ h.EndsHalf) := by
  induction programs generalizing w with
  | nil => cases mem
  | cons g programs ih =>
    rw [List.foldlM_cons] at run
    obtain ⟨mid, first, rest⟩ := bind_ok run
    rcases List.mem_cons.mp mem with rfl | later
    · unfold loadHeader at first
      split at first
      · cases first
      · rename_i load
        refine ⟨by simp [load], fun _ => ?_⟩
        obtain ⟨v, last, maps, fs, bs, w1, w2, w3, steps⟩ := loadSegment_ok first
        obtain ⟨rfl, -⟩ := steps.geometry (fine h List.mem_cons_self load)
        obtain ⟨e, next, back⟩ := steps.stop
        exact h.inner_of_last next back
      · rename_i other
        exact ⟨by simp [other], fun load => by simp [other] at load⟩
    · exact ih (fun h' mem => fine h' (List.mem_cons_of_mem g mem)) rest later

/-- `load_elf` leaves the image in memory whenever it returns; with four frames for each page it
does so, and returns the entry point, exactly when it knows the types of the headers, no segment
ends with a half of the addresses, and the entry point is canonical. -/
theorem loadElf_correct (read : w.loadBytes elfData.ptr elfData.len.toNat = .ok data)
    (parsed : parse data = .ok elf) (gives : w.GivesUnused elfData)
    (fine : ∀ h ∈ elf.segments, h.WellFormed data)
    (disjoint : elf.segments.Pairwise fun h h' => ∀ p, ¬ (h.Touches p ∧ h'.Touches p))
    (free : ∀ h ∈ elf.segments, ∀ p, h.Touches p → entry w.mapper p = none) :
    (∀ r w', w.loadElf parse elfData = .ok (r, w') →
      Loaded data elf.segments w w' ∧ (Kernel.canonical elf.entryPoint → r = elf.entryPoint)) ∧
    ∀ fs b, Taken w.frames fs b → 4 * (elf.segments.map fun h => h.pages.length).sum ≤ fs.length →
      ((∃ w', w.loadElf parse elfData = .ok (elf.entryPoint, w') ∧
          Loaded data elf.segments w w') ↔
        (∀ h ∈ elf.programs, h.type ≠ none) ∧ (∀ h ∈ elf.segments, ¬ h.EndsHalf) ∧
          Kernel.canonical elf.entryPoint) := by
  have unused := gives.unused read
  have loads : ∀ {h}, h ∈ elf.programs → h.type = some .load → h ∈ elf.segments :=
    fun mem type => List.mem_filter.mpr ⟨mem, by simpa using type⟩
  have fine' : ∀ h ∈ elf.programs, h.type = some .load → h.WellFormed data :=
    fun h mem type => fine h (loads mem type)
  have image : ∀ r w', w.loadElf parse elfData = .ok (r, w') → Loaded data elf.segments w w' := by
    intro r w' run
    obtain ⟨fs, effect⟩ := loadHeaders_effect unused fine' (loadElf_loop read parsed run).1
    exact effect.loaded
  refine ⟨fun r w' run => ⟨image r w' run, fun canonical => ?_⟩, fun fs b taken enough => ⟨?_, ?_⟩⟩
  · have entry := (loadElf_loop read parsed run).2
    rw [virtAddr_canonical canonical] at entry
    exact (Except.ok.inj entry).symm
  · rintro ⟨w', run, -⟩
    obtain ⟨loop, entry⟩ := loadElf_loop read parsed run
    refine ⟨fun h mem => (loadHeaders_passed fine' loop mem).1, fun h mem => ?_,
      (virtAddr_ok entry).1⟩
    obtain ⟨mem, type⟩ := List.mem_filter.mp mem
    exact (loadHeaders_passed fine' loop mem).2 (by simpa using type)
  · rintro ⟨known, inner, canonical⟩
    obtain ⟨w', loop⟩ : ∃ w', elf.programs.foldlM (loadHeader elfData) w = .ok w' :=
      loadHeaders_total unused known fine' (fun h mem type => inner h (loads mem type))
        (fun h mem type => free h (loads mem type)) disjoint enough taken
    have run : w.loadElf parse elfData = .ok (elf.entryPoint, w') := by
      simp only [loadElf, read, parsed, loop, virtAddr_canonical canonical, bind, Except.bind]
    exact ⟨w', run, image _ _ run⟩

end World

/-! ### A file

A 64-bit ELF file of one segment, with the two bytes of its file part after the headers, in a page
of the kernel; the frames come from one region. -/

namespace ElfFile

/-- The number in the `size` bytes from `offset`. -/
def field (bytes : List UInt8) (offset size : Nat) : Nat :=
  Memory.ofBytes ((bytes.drop offset).take size)

/-- The program header at `place`. -/
def readHeader (bytes : List UInt8) (place : Nat) : ProgramHeader where
  type :=
    if field bytes place 4 = 1 then some .load
    else if field bytes place 4 ≤ 7 then some .other
    else none
  isWrite := field bytes (place + 4) 4 / 2 % 2 = 1
  isExecute := field bytes (place + 4) 4 % 2 = 1
  offset := .ofNat (field bytes (place + 8) 8)
  virtualAddr := .ofNat (field bytes (place + 16) 8)
  fileSize := .ofNat (field bytes (place + 32) 8)
  memSize := .ofNat (field bytes (place + 40) 8)

/-- The headers and the entry point of a 64-bit file. -/
def read (bytes : List UInt8) : Except Stop ElfFile :=
  if bytes.take 5 = [0x7f, 0x45, 0x4c, 0x46, 2] then
    .ok {
      programs := (List.range (field bytes 56 2)).map fun i =>
        readHeader bytes (field bytes 32 8 + field bytes 54 2 * i)
      entryPoint := .ofNat (field bytes 24 8) }
  else
    .error .panics

def smallFile (virtualAddr fileSize memSize : Nat) : List UInt8 :=
  [0x7f, 0x45, 0x4c, 0x46, 2, 1, 1, 0] ++ List.replicate 8 0 ++ [2, 0, 0x3e, 0, 1, 0, 0, 0] ++
    Memory.toBytes 8 0x400ffe ++ Memory.toBytes 8 64 ++ List.replicate 12 0 ++
    [64, 0, 56, 0, 1, 0, 64, 0, 0, 0, 0, 0] ++ [1, 0, 0, 0, 5, 0, 0, 0] ++ Memory.toBytes 8 120 ++
    Memory.toBytes 8 virtualAddr ++ Memory.toBytes 8 virtualAddr ++ Memory.toBytes 8 fileSize ++
    Memory.toBytes 8 memSize ++ Memory.toBytes 8 1 ++ [0xaa, 0xbb]

def smallSlice : Slice := ⟨0x8000100000, 122⟩

/-- The physical memory with the file in the frame at `0x200000`. -/
def smallWorld (file : List UInt8) : World PageTable BootInfoFrameAllocator where
  phys := fun x => file.getD (x - 0x200000).toNat 0xcc
  mapper := {
    entries := fun p =>
      if p = 0x8000100000 then some ⟨⟨0x200000, rfl⟩, ⟨false, false, false⟩⟩ else none
    present := fun bits n => n == 0x8000100000 / 2 ^ bits
    taken := [] }
  frames := .init [⟨0x100000, 0x110000, .usable⟩]
  trace := []

/-- The one page that is mapped at first is in a frame that the allocator does not have. -/
theorem smallWorld_gives (file : List UInt8) : (smallWorld file).GivesUnused smallSlice := by
  intro fs b taken
  have frames := BootInfoFrameAllocator.taken_eq (MemoryRegion.ascending_disjoint (by decide))
    (by decide) (by decide) taken
  refine ⟨?_, fun f mem i less x shown has => ?_⟩
  · rw [frames]
    exact List.Pairwise.take
      (MemoryRegion.framesInside_nodup (MemoryRegion.ascending_disjoint (by decide)) (by decide))
  · obtain ⟨-, e, found, rfl⟩ := World.shows_iff.mp shown
    have frame : e.frame = ⟨0x200000, rfl⟩ := by
      have found : (if _ then some _ else none) = some e := found
      split at found
      · cases found
        rfl
      · cases found
    have given : f ∈ MemoryRegion.framesInside [⟨0x100000, 0x110000, .usable⟩] := by
      rw [frames] at mem
      exact List.mem_of_mem_take mem
    rw [has.same (e.byte_has _), frame] at given
    revert given
    decide

theorem smallFile_read :
    (smallWorld (smallFile 0x400ffe 2 3)).loadBytes smallSlice.ptr smallSlice.len.toNat =
        .ok (smallFile 0x400ffe 2 3) ∧
      read (smallFile 0x400ffe 2 3) =
        .ok ⟨[⟨some .load, false, true, 120, 0x400ffe, 2, 3⟩], 0x400ffe⟩ := by
  decide +kernel

def smallSegment : ProgramHeader := ⟨some .load, false, true, 120, 0x400ffe, 2, 3⟩

theorem smallSegment_wellFormed : smallSegment.WellFormed (smallFile 0x400ffe 2 3) where
  nonempty := by decide
  fileSize_le := by decide
  inFile := by decide
  noWrap := by decide
  canonical := by decide

theorem smallSegment_free {p : Page} (touched : smallSegment.Touches p) (file : List UInt8) :
    entry (smallWorld file).mapper p = none := by
  obtain ⟨i, less, rfl⟩ := touched
  have less : i < 3 := less
  obtain rfl | rfl | rfl : i = 0 ∨ i = 1 ∨ i = 2 := by omega
  all_goals rfl

theorem small_taken : Taken (BootInfoFrameAllocator.init [⟨0x100000, 0x110000, .usable⟩])
    ((MemoryRegion.framesInside [⟨0x100000, 0x110000, .usable⟩]).take 8)
    ⟨[⟨0x100000, 0x110000, .usable⟩], 8⟩ := rfl

theorem loadElf_correct_small :
    ∃ w', (smallWorld (smallFile 0x400ffe 2 3)).loadElf read smallSlice = .ok (0x400ffe, w') ∧
      World.Loaded (smallFile 0x400ffe 2 3) [smallSegment] (smallWorld (smallFile 0x400ffe 2 3))
        w' := by
  obtain ⟨bytes, parsed⟩ := smallFile_read
  have fine : ∀ h ∈ [smallSegment], h.WellFormed (smallFile 0x400ffe 2 3) :=
    fun h mem => List.mem_singleton.mp mem ▸ smallSegment_wellFormed
  have free : ∀ h ∈ [smallSegment], ∀ p, h.Touches p →
      entry (smallWorld (smallFile 0x400ffe 2 3)).mapper p = none :=
    fun h mem p touched => smallSegment_free (List.mem_singleton.mp mem ▸ touched) _
  have correct := World.loadElf_correct bytes parsed (smallWorld_gives _) fine
    (List.pairwise_singleton _ _) free
  have enough : 4 * ([smallSegment].map fun h => h.pages.length).sum ≤
      ((MemoryRegion.framesInside [⟨0x100000, 0x110000, .usable⟩]).take 8).length := by
    decide +kernel
  exact (correct.2 _ _ small_taken enough).mpr ⟨by decide, by decide, by decide⟩

/-- A segment whose last byte has the last address of the lower half is not loaded. -/
theorem top_segment_panics :
    (smallWorld (smallFile 0x7ffffffffffe 2 2)).loadBytes smallSlice.ptr smallSlice.len.toNat =
        .ok (smallFile 0x7ffffffffffe 2 2) ∧
      read (smallFile 0x7ffffffffffe 2 2) =
        .ok ⟨[⟨some .load, false, true, 120, 0x7ffffffffffe, 2, 2⟩], 0x400ffe⟩ ∧
      (∀ i, i < 2 → Kernel.canonical (0x7ffffffffffe + UInt64.ofNat i)) ∧
      (smallWorld (smallFile 0x7ffffffffffe 2 2)).GivesUnused smallSlice ∧
      4 ≤ ((MemoryRegion.framesInside [⟨0x100000, 0x110000, .usable⟩]).take 8).length ∧
      (∃ stop, (smallWorld (smallFile 0x7ffffffffffe 2 2)).loadElf read smallSlice =
        .error stop) := by
  refine ⟨by decide +kernel, by decide +kernel, by decide, smallWorld_gives _, by decide,
    .panics, ?_⟩
  have bytes : (smallWorld (smallFile 0x7ffffffffffe 2 2)).loadBytes smallSlice.ptr
      smallSlice.len.toNat = .ok (smallFile 0x7ffffffffffe 2 2) := by decide +kernel
  have parsed : read (smallFile 0x7ffffffffffe 2 2) =
      .ok ⟨[⟨some .load, false, true, 120, 0x7ffffffffffe, 2, 2⟩], 0x400ffe⟩ := by decide +kernel
  simp only [World.loadElf, bytes, parsed, bind, Except.bind]
  rfl

end ElfFile

end Microkernel
