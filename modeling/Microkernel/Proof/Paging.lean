import Microkernel.Paging

/-! Facts about the paging library: the frames that an allocator gives, the page table of four
levels as a mapper that keeps the laws, and the arithmetic of addresses and page ranges. -/

namespace Microkernel

open Lib

section

variable {α : Type} [FrameAllocator α] {a b c : α} {fs gs : List PhysFrame}

theorem Taken.nil (a : α) : Taken a [] a := rfl

theorem Taken.cons {f : PhysFrame} (call : FrameAllocator.allocateFrame a = .ok (some f, b))
    (rest : Taken b fs c) : Taken a (f :: fs) c := by
  unfold Taken at rest ⊢
  simp [calls, call, rest, bind, Except.bind]

theorem Taken.cons_inv {f : PhysFrame} (taken : Taken a (f :: fs) c) :
    ∃ b, FrameAllocator.allocateFrame a = .ok (some f, b) ∧ Taken b fs c := by
  unfold Taken at taken
  obtain ⟨⟨f', b⟩, call, rest⟩ := bind_ok taken
  obtain ⟨⟨fs', c'⟩, more, same⟩ := bind_ok rest
  cases same
  exact ⟨b, call, more⟩

theorem Taken.append (first : Taken a fs b) (second : Taken b gs c) : Taken a (fs ++ gs) c := by
  induction fs generalizing a with
  | nil =>
    cases first
    exact second
  | cons f fs ih =>
    obtain ⟨b', call, rest⟩ := first.cons_inv
    exact .cons call (ih rest)

theorem Taken.split (taken : Taken a (fs ++ gs) c) : ∃ b, Taken a fs b ∧ Taken b gs c := by
  induction fs generalizing a with
  | nil => exact ⟨a, .nil a, taken⟩
  | cons f fs ih =>
    obtain ⟨b', call, rest⟩ := taken.cons_inv
    obtain ⟨b, first, second⟩ := ih rest
    exact ⟨b, .cons call first, second⟩

/-- The allocator gives one sequence of frames: of two ways to take frames from it, the longer one
goes on from the shorter one. -/
theorem Taken.extend (first : Taken a fs b) (second : Taken a gs c) (le : fs.length ≤ gs.length) :
    ∃ hs, gs = fs ++ hs ∧ Taken b hs c := by
  induction fs generalizing a gs with
  | nil =>
    cases first
    exact ⟨gs, rfl, second⟩
  | cons f fs ih =>
    cases gs with
    | nil => simp at le
    | cons g gs =>
      obtain ⟨b', call, rest⟩ := first.cons_inv
      obtain ⟨c', call', rest'⟩ := second.cons_inv
      rw [call] at call'
      cases call'
      obtain ⟨hs, rfl, last⟩ := ih rest rest' (by simpa using le)
      exact ⟨hs, rfl, last⟩

end

/-! ### Page tables -/

namespace PageTable

variable {α : Type} [FrameAllocator α] {page : Page} {levels : List Nat} {table table' : PageTable}
  {a b : α}

theorem createNextTables_ok (run : createNextTables page levels table a = .ok (.ok table', b)) :
    table'.entries = table.entries ∧
      ∃ fs, fs.length ≤ levels.length ∧ Taken a fs b ∧ table'.taken = table.taken ++ fs := by
  induction levels generalizing table a with
  | nil =>
    cases run
    exact ⟨rfl, [], Nat.le_refl _, .nil b, by simp⟩
  | cons bits levels ih =>
    unfold createNextTables at run
    split at run
    · obtain ⟨same, fs, few, taken, more⟩ := ih run
      exact ⟨same, fs, Nat.le_succ_of_le few, taken, more⟩
    · obtain ⟨⟨frame, a'⟩, call, rest⟩ := bind_ok run
      cases frame with
      | none => cases rest
      | some frame =>
        obtain ⟨same, fs, few, taken, more⟩ := ih rest
        exact ⟨same, frame :: fs, Nat.succ_le_succ few, .cons call taken, by simp [more]⟩

theorem createNextTables_free {fs : List PhysFrame} (enough : levels.length ≤ fs.length)
    (taken : Taken a fs b) :
    ∃ table' c, createNextTables page levels table a = .ok (.ok table', c) := by
  induction levels generalizing table a fs with
  | nil => exact ⟨table, a, rfl⟩
  | cons bits levels ih =>
    unfold createNextTables
    split
    · exact ih (Nat.le_of_succ_le enough) taken
    · cases fs with
      | nil => simp at enough
      | cons f fs =>
        obtain ⟨a', call, rest⟩ := taken.cons_inv
        simp only [call, bind, Except.bind]
        exact ih (Nat.le_of_succ_le_succ enough) rest

instance : LawfulMapper PageTable where
  mapTo_ok {α _ m m' page frame flags a b} run := by
    obtain ⟨⟨created, a'⟩, walk, rest⟩ := bind_ok run
    cases created with
    | error e => cases rest
    | ok created =>
      obtain ⟨same, fs, few, taken, more⟩ := createNextTables_ok walk
      cases old : created.entries page with
      | some e =>
        simp only [old] at rest
        cases rest
      | none =>
        simp only [old] at rest
        cases rest
        rw [same] at old
        refine ⟨old, ?_, fs, few, taken, more⟩
        show Function.update created.entries page _ = _
        rw [same]
        rfl
  mapTo_free {α _ m page} frame flags {a b fs} free enough taken := by
    have walks : ∃ table' c, createNextTables page [39, 30, 21] m a = .ok (.ok table', c) :=
      createNextTables_free (Nat.le_of_eq enough.symm) taken
    obtain ⟨created, c, walk⟩ := walks
    have same := (createNextTables_ok walk).1
    have free' : created.entries page = none := by
      rw [same]
      exact free
    refine ⟨{ created with
      entries := Function.update created.entries page (some ⟨frame, flags⟩) }, c, ?_⟩
    show PageTable.mapTo m page frame flags a = _
    simp only [PageTable.mapTo, walk, bind, Except.bind, free']
  updateFlags_mapped {m page e} flags mapped := by
    have mapped' : m.entries page = some e := mapped
    refine ⟨{ m with
      entries := Function.update m.entries page (some { e with flags := flags }) }, ?_, rfl, rfl⟩
    show PageTable.updateFlags m page flags = _
    simp only [PageTable.updateFlags, mapped']

end PageTable

/-! ### Addresses -/

section

variable {a b v e r : UInt64} {p : Page}

theorem canonical_iff :
    Kernel.canonical a ↔ a.toNat < 0x800000000000 ∨ 0xFFFF800000000000 ≤ a.toNat := by
  simp [Kernel.canonical, UInt64.lt_iff_toNat_lt, UInt64.le_iff_toNat_le]

theorem canonical_alignDown : Kernel.canonical (alignDown a) ↔ Kernel.canonical a := by
  rw [canonical_iff, canonical_iff, alignDown_toNat]
  omega

theorem virtAddr_canonical (fine : Kernel.canonical a) : virtAddr a = .ok a := by
  simp [virtAddr, fine]

theorem virtAddr_ok (run : virtAddr a = .ok r) :
    Kernel.canonical r ∧
      (r = a ∨ 0x800000000000 ≤ a.toNat ∧ r.toNat = a.toNat + 0xFFFF000000000000) := by
  unfold virtAddr at run
  split at run
  · cases run
    exact ⟨‹_›, .inl rfl⟩
  · split at run
    · rename_i odd low
      obtain rfl : a + 0xFFFF000000000000 = r := Except.ok.inj run
      have place : (a + 0xFFFF000000000000).toNat = a.toNat + 0xFFFF000000000000 := by
        rw [UInt64.lt_iff_toNat_lt] at low
        simp only [UInt64.toNat_add, UInt64.reduceToNat] at low ⊢
        omega
      rw [canonical_iff] at odd
      rw [canonical_iff, place]
      omega
    · cases run

theorem virtAdd_canonical (fine : Kernel.canonical (a + b)) : virtAdd a b = .ok (a + b) :=
  virtAddr_canonical fine

theorem virtSub_canonical (le : b ≤ a) (fine : Kernel.canonical (a - b)) :
    virtSub a b = .ok (a - b) := by
  rw [virtSub, if_pos le, virtAddr_canonical fine]

theorem rangeInclusive_step {i : Nat}
    (step : i < (alignDown e).toNat / 4096 + 1 - (alignDown v).toNat / 4096) :
    (alignDown v + 4096 * UInt64.ofNat i).toNat = (alignDown v).toNat + 4096 * i := by
  have := e.toNat_lt
  rw [alignDown_toNat, alignDown_toNat] at step
  simp only [UInt64.toNat_add, UInt64.toNat_mul, UInt64.toNat_ofNat', UInt64.reduceToNat,
    alignDown_toNat]
  omega

theorem rangeInclusive_nodup : (rangeInclusive (alignDown v) (alignDown e)).Nodup := by
  apply List.Nodup.filter
  apply List.Nodup.map_on _ List.nodup_range
  intro i hi j hj same
  have first := rangeInclusive_step (List.mem_range.mp hi)
  have second := rangeInclusive_step (List.mem_range.mp hj)
  rw [same] at first
  omega

/-- The pages from the page of `v` to the page of `e` are those of the canonical addresses between
them. -/
theorem mem_rangeInclusive :
    alignDown a ∈ rangeInclusive (alignDown v) (alignDown e) ↔
      Kernel.canonical a ∧ v.toNat / 4096 ≤ a.toNat / 4096 ∧ a.toNat / 4096 ≤ e.toNat / 4096 := by
  rw [rangeInclusive, List.mem_filter, canonical_alignDown, List.mem_map, and_comm]
  refine and_congr_right fun _ => ⟨?_, ?_⟩
  · rintro ⟨i, step, same⟩
    rw [List.mem_range] at step
    have place := rangeInclusive_step step
    rw [same] at place
    rw [alignDown_toNat, alignDown_toNat] at step place
    omega
  · rintro ⟨low, high⟩
    have step : a.toNat / 4096 - v.toNat / 4096 <
        (alignDown e).toNat / 4096 + 1 - (alignDown v).toNat / 4096 := by
      rw [alignDown_toNat, alignDown_toNat]
      omega
    refine ⟨_, List.mem_range.mpr step, UInt64.toNat_inj.mp ?_⟩
    rw [rangeInclusive_step step, alignDown_toNat, alignDown_toNat]
    omega

/-- Every page of a range is the page of its own start. -/
theorem rangeInclusive_page (mem : p ∈ rangeInclusive (alignDown v) (alignDown e)) :
    alignDown p = p := by
  obtain ⟨i, step, rfl⟩ := List.mem_map.mp (List.mem_filter.mp mem).1
  have place := rangeInclusive_step (List.mem_range.mp step)
  apply UInt64.toNat_inj.mp
  rw [alignDown_toNat, place, alignDown_toNat]
  omega

/-- The addresses of a range that ends with one half of the addresses: the address after it is not
the one after its last byte, and the subtraction of one fails. -/
theorem half_end {n l : UInt64} (next : virtAdd v n = .ok e) (back : virtSub e 1 = .ok l) :
    ¬ (v.toNat + n.toNat = 0x800000000000 ∨ v.toNat + n.toNat = 0x10000000000000000) := by
  obtain ⟨fineE, same⟩ := virtAddr_ok next
  unfold virtSub at back
  split at back
  · rename_i positive
    obtain ⟨fineL, same'⟩ := virtAddr_ok back
    have less : (e - 1).toNat = e.toNat - 1 := by
      rw [UInt64.toNat_sub_of_le _ _ positive]
      rfl
    rw [UInt64.le_iff_toNat_le] at positive
    have bound := l.toNat_lt
    rintro (low | high)
    · have place : (v + n).toNat = 0x800000000000 := by
        rw [UInt64.toNat_add]
        omega
      rw [canonical_iff] at fineE fineL
      rw [less] at same'
      rcases same with rfl | ⟨-, top⟩
      · omega
      · rw [place] at top
        rcases same' with rfl | ⟨-, top'⟩
        · rw [less] at fineL
          omega
        · omega
    · have place : (v + n).toNat = 0 := by
        rw [UInt64.toNat_add]
        omega
      rw [place] at same
      simp only [UInt64.reduceToNat] at positive
      rcases same with rfl | ⟨high, -⟩
      · omega
      · omega
  · cases back

end

end Microkernel
