import Microkernel.Proof.Loading

/-! What user code may do with the pages that `load_elf` maps.  The loader takes back the right to
write; `NO_EXECUTE` it never sets. -/

namespace Microkernel

open Lib

namespace PageFlags

def executable (flags : PageFlags) : Bool := !flags.noExecute

/-- A page grants the rights of its segment, and no others. -/
structure Grants (flags : PageFlags) (h : ProgramHeader) : Prop where
  write : flags.writable = h.isWrite
  execute : flags.executable = h.isExecute

end PageFlags

theorem ProgramHeader.WellFormed.touches {data : List UInt8} {h : ProgramHeader}
    (fine : h.WellFormed data) : h.Touches (alignDown (h.at' 0)) := ⟨0, fine.size_pos, rfl⟩

namespace World

variable {μ α : Type} [Mapper μ] [FrameAllocator α] [LawfulMapper μ] {w w' : World μ α}
  {elfData : Slice} {data : List UInt8} {parse : List UInt8 → Except Stop ElfFile} {elf : ElfFile}
  {r : UInt64}

/-- Every page of a segment is mapped, writable if the segment is, and executable. -/
theorem loadElf_flags (read : w.loadBytes elfData.ptr elfData.len.toNat = .ok data)
    (parsed : parse data = .ok elf) (gives : w.GivesUnused elfData)
    (fine : ∀ h ∈ elf.segments, h.WellFormed data)
    (run : w.loadElf parse elfData = .ok (r, w')) :
    ∀ h ∈ elf.segments, ∀ p, h.Touches p →
      ∃ f, entry w'.mapper p = some ⟨f, ⟨h.isWrite, true, false⟩⟩ := by
  have fine' : ∀ h ∈ elf.programs, h.type = some .load → h.WellFormed data :=
    fun h mem type => fine h (List.mem_filter.mpr ⟨mem, by simpa using type⟩)
  obtain ⟨fs, effect⟩ :=
    loadHeaders_effect (gives.unused read) fine' (loadElf_loop read parsed run).1
  exact effect.loaded.pages

/-- When `load_elf` returns, the pages grant the rights of their segments exactly when every segment
is executable.  A page of a segment that is not both writable and executable is not both exactly
when every segment that is writable is executable as well. -/
theorem rights_exact (read : w.loadBytes elfData.ptr elfData.len.toNat = .ok data)
    (parsed : parse data = .ok elf) (gives : w.GivesUnused elfData)
    (fine : ∀ h ∈ elf.segments, h.WellFormed data)
    (run : w.loadElf parse elfData = .ok (r, w')) :
    ((∀ h ∈ elf.segments, ∀ p, h.Touches p →
        ∃ e, entry w'.mapper p = some e ∧ e.flags.Grants h) ↔
      ∀ h ∈ elf.segments, h.isExecute) ∧
    ((∀ h ∈ elf.segments, ¬ (h.isWrite ∧ h.isExecute) → ∀ p, h.Touches p →
        ∀ e, entry w'.mapper p = some e → ¬ (e.flags.writable ∧ e.flags.executable)) ↔
      ∀ h ∈ elf.segments, h.isWrite → h.isExecute) := by
  have flags := loadElf_flags read parsed gives fine run
  refine ⟨⟨fun exact' h mem => ?_, fun all h mem p touched => ?_⟩,
    fun apart h mem writes => ?_, fun both h mem less p touched e found rights => ?_⟩
  · obtain ⟨e, found, grants⟩ := exact' h mem _ (fine h mem).touches
    obtain ⟨f, same⟩ := flags h mem _ (fine h mem).touches
    cases found.symm.trans same
    exact grants.execute.symm
  · obtain ⟨f, found⟩ := flags h mem p touched
    exact ⟨_, found, rfl, (all h mem).symm⟩
  · by_contra only
    obtain ⟨f, found⟩ := flags h mem _ (fine h mem).touches
    exact apart h mem (fun rights => only rights.2) _ (fine h mem).touches _ found ⟨writes, rfl⟩
  · obtain ⟨f, same⟩ := flags h mem p touched
    cases found.symm.trans same
    exact less ⟨rights.1, both h mem rights.1⟩

end World

namespace ElfFile

/-- The file of one segment that is executable and not writable. -/
theorem rights_exact_small : ∃ w',
    (smallWorld (smallFile 0x400ffe 2 3)).loadElf read smallSlice = .ok (0x400ffe, w') ∧
    ∀ p, smallSegment.Touches p →
      ∃ e, entry w'.mapper p = some e ∧ e.flags.Grants smallSegment := by
  obtain ⟨bytes, parsed⟩ := smallFile_read
  obtain ⟨w', run⟩ : ∃ w',
      (smallWorld (smallFile 0x400ffe 2 3)).loadElf read smallSlice = .ok (0x400ffe, w') := by
    simp only [World.loadElf, bytes, parsed, bind, Except.bind]
    exact ⟨_, rfl⟩
  have fine : ∀ h ∈ [smallSegment], h.WellFormed (smallFile 0x400ffe 2 3) :=
    fun h mem => List.mem_singleton.mp mem ▸ smallSegment_wellFormed
  have rights := World.rights_exact bytes parsed (smallWorld_gives _) fine run
  have all : ∀ h ∈ [smallSegment], h.isExecute := by decide
  exact ⟨w', run, rights.1.mpr all smallSegment List.mem_cons_self⟩

/-- The same file with the flags of a segment of data, `PF_R` and `PF_W`. -/
def dataFile : List UInt8 := (smallFile 0x400ffe 2 3).set 68 6

def dataSegment : ProgramHeader := ⟨some .load, true, false, 120, 0x400ffe, 2, 3⟩

/-- The pages of a segment of data are writable and executable. -/
theorem data_executable : ∃ w' f,
    read dataFile = .ok ⟨[dataSegment], 0x400ffe⟩ ∧
    (smallWorld dataFile).loadElf read smallSlice = .ok (0x400ffe, w') ∧
    dataSegment.Touches 0x400000 ∧ dataSegment.isExecute = false ∧
    entry w'.mapper 0x400000 = some ⟨f, ⟨true, true, false⟩⟩ ∧
    ¬ PageFlags.Grants ⟨true, true, false⟩ dataSegment := by
  have bytes : (smallWorld dataFile).loadBytes smallSlice.ptr smallSlice.len.toNat =
      .ok dataFile := by decide +kernel
  have parsed : read dataFile = .ok ⟨[dataSegment], 0x400ffe⟩ := by decide +kernel
  obtain ⟨w', f, run, found⟩ : ∃ w' f,
      (smallWorld dataFile).loadElf read smallSlice = .ok (0x400ffe, w') ∧
      entry w'.mapper 0x400000 = some ⟨f, ⟨true, true, false⟩⟩ := by
    simp only [World.loadElf, bytes, parsed, bind, Except.bind]
    exact ⟨_, _, rfl, rfl⟩
  refine ⟨w', f, parsed, run, ⟨0, by decide, by decide⟩, rfl, found, fun grants => ?_⟩
  cases grants.execute

end ElfFile

end Microkernel
