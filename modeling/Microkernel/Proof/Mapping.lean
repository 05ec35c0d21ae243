import Microkernel.Loader
import Microkernel.Proof.Paging

/-! Accesses through a mapper, and the loops that map pages and set their flags. -/

namespace Microkernel

open Lib

/-! ### Bytes of frames -/

/-- The byte at `x` is in the frame. -/
def PhysFrame.Has (f : PhysFrame) (x : UInt64) : Prop := alignDown x = f.startAddress

theorem PageEntry.byte_toNat (e : PageEntry) (a : UInt64) :
    (e.byte a).toNat = e.frame.startAddress.toNat + a.toNat % 4096 ∧
      e.frame.startAddress.toNat % 4096 = 0 := by
  have whole : e.frame.startAddress.toNat % 4096 = 0 := by
    simpa using congrArg UInt64.toNat e.frame.aligned
  have := e.frame.startAddress.toNat_lt
  simp only [PageEntry.byte, UInt64.toNat_add, UInt64.toNat_mod, UInt64.reduceToNat]
  omega

theorem PageEntry.byte_has (e : PageEntry) (a : UInt64) : e.frame.Has (e.byte a) := by
  obtain ⟨place, whole⟩ := e.byte_toNat a
  apply UInt64.toNat_inj.mp
  rw [alignDown_toNat, place]
  omega

theorem PhysFrame.Has.same {f g : PhysFrame} {x : UInt64} (here : f.Has x) (there : g.Has x) :
    f = g :=
  PhysFrame.ext (here.symm.trans there)

/-- Two bytes that pages show are one only if they are at one place in one frame. -/
theorem PageEntry.byte_inj {e e' : PageEntry} {a a' : UInt64} (same : e.byte a = e'.byte a') :
    e.frame = e'.frame ∧ a.toNat % 4096 = a'.toNat % 4096 := by
  have frames : e.frame = e'.frame := (e.byte_has a).same (same ▸ e'.byte_has a')
  have place := (e.byte_toNat a).1
  have place' := (e'.byte_toNat a').1
  rw [same, frames] at place
  exact ⟨frames, by omega⟩

namespace World

/-! ### Accesses -/

section

variable {μ α : Type} [Mapper μ] {w w' : World μ α} {a x : UInt64} {b : UInt8} {bs : List UInt8}
  {n i : Nat}

theorem add_succ (a : UInt64) (i : Nat) : a + UInt64.ofNat (i + 1) = a + 1 + UInt64.ofNat i := by
  rw [UInt64.ofNat_add, UInt64.add_assoc, UInt64.add_comm 1]
  rfl

/-- The page table shows byte `x` of physical memory at `a`. -/
def Shows (w : World μ α) (a x : UInt64) : Prop := ∃ e, w.translate a = some e ∧ e.byte a = x

theorem Shows.unique {y : UInt64} (here : w.Shows a x) (there : w.Shows a y) : x = y := by
  obtain ⟨e, found, rfl⟩ := here
  obtain ⟨e', found', rfl⟩ := there
  rw [found] at found'
  cases found'
  rfl

theorem shows_iff :
    w.Shows a x ↔
      Kernel.canonical a ∧ ∃ e, entry w.mapper (alignDown a) = some e ∧ e.byte a = x := by
  unfold Shows translate
  by_cases fine : Kernel.canonical a = true
  · simp [fine]
  · simp [fine]

/-- What is shown at an address depends on the frame of its page only. -/
theorem Shows.congr (here : w.Shows a x)
    (same : ∀ e, entry w.mapper (alignDown a) = some e →
      ∃ flags, entry w'.mapper (alignDown a) = some ⟨e.frame, flags⟩) : w'.Shows a x := by
  obtain ⟨fine, e, found, rfl⟩ := shows_iff.mp here
  obtain ⟨flags, found'⟩ := same e found
  exact shows_iff.mpr ⟨fine, _, found', rfl⟩

theorem loadByte_ok : w.loadByte a = .ok b ↔ ∃ x, w.Shows a x ∧ w.phys x = b := by
  unfold loadByte
  cases found : w.translate a with
  | none => simp [Shows, found]
  | some e => simp [Shows, found]

theorem loadBytes_ok (run : w.loadBytes a n = .ok bs) :
    bs.length = n ∧
      ∀ i, i < n → ∃ x, w.Shows (a + UInt64.ofNat i) x ∧ bs[i]? = some (w.phys x) := by
  induction n generalizing a bs with
  | zero =>
    cases run
    exact ⟨rfl, fun i less => absurd less (Nat.not_lt_zero i)⟩
  | succ n ih =>
    obtain ⟨b, first, rest⟩ := bind_ok run
    obtain ⟨bs', more, same⟩ := bind_ok rest
    cases same
    obtain ⟨length, shown⟩ := ih more
    refine ⟨by simp [length], fun i less => ?_⟩
    cases i with
    | zero =>
      obtain ⟨x, here, value⟩ := loadByte_ok.mp first
      exact ⟨x, by simpa using here, by simp [value]⟩
    | succ i =>
      obtain ⟨x, here, value⟩ := shown i (by omega)
      rw [add_succ]
      exact ⟨x, here, by simpa using value⟩

theorem loadBytes_total (shown : ∀ i, i < n → ∃ x, w.Shows (a + UInt64.ofNat i) x) :
    ∃ bs, w.loadBytes a n = .ok bs := by
  induction n generalizing a with
  | zero => exact ⟨[], rfl⟩
  | succ n ih =>
    obtain ⟨x, here⟩ := shown 0 (Nat.succ_pos n)
    have first : w.loadByte a = .ok (w.phys x) := loadByte_ok.mpr ⟨x, by simpa using here, rfl⟩
    have rest : ∀ i, i < n → ∃ x, w.Shows (a + 1 + UInt64.ofNat i) x := by
      intro i less
      rw [← add_succ]
      exact shown (i + 1) (by omega)
    obtain ⟨bs, more⟩ := ih rest
    exact ⟨w.phys x :: bs, by simp [loadBytes, first, more, bind, Except.bind]⟩

/-- A store through the page table is allowed at `a`. -/
def Writes (w : World μ α) (a : UInt64) : Prop :=
  ∃ e, w.translate a = some e ∧ e.flags.writable = true

theorem Writes.canonical {a : UInt64} (writes : w.Writes a) : Kernel.canonical a := by
  obtain ⟨e, found, -⟩ := writes
  exact (shows_iff.mp ⟨e, found, rfl⟩).1

theorem storeByte_allowed (b : UInt8) (allowed : w.Writes a) :
    ∃ x, w.Shows a x ∧ w.storeByte a b = .ok { w with phys := Function.update w.phys x b } := by
  obtain ⟨e, found, writable⟩ := allowed
  refine ⟨e.byte a, ⟨e, found, rfl⟩, ?_⟩
  unfold storeByte
  rw [found]
  exact if_pos writable

theorem storeByte_ok (run : w.storeByte a b = .ok w') :
    w.Writes a ∧ ∃ x, w.Shows a x ∧ w' = { w with phys := Function.update w.phys x b } := by
  have run' := run
  unfold storeByte at run'
  split at run'
  · rename_i e found
    split at run'
    · rename_i writable
      have allowed : w.Writes a := ⟨e, found, writable⟩
      obtain ⟨x, here, stored⟩ := storeByte_allowed b allowed
      rw [run] at stored
      exact ⟨allowed, x, here, Except.ok.inj stored⟩
    · cases run'
  · cases run'

/-- Stores change physical memory only, and only at the bytes that are shown at their addresses. -/
theorem storeBytes_ok (run : w.storeBytes a bs = .ok w') :
    (∃ phys, w' = { w with phys := phys }) ∧
      (∀ i, i < bs.length → w.Writes (a + UInt64.ofNat i)) ∧
      ∀ x, (∀ i, i < bs.length → ¬ w.Shows (a + UInt64.ofNat i) x) → w'.phys x = w.phys x := by
  induction bs generalizing a w with
  | nil =>
    cases run
    exact ⟨⟨_, rfl⟩, fun i less => absurd less (Nat.not_lt_zero i), fun _ _ => rfl⟩
  | cons b bs ih =>
    obtain ⟨mid, first, rest⟩ := bind_ok run
    obtain ⟨allowed, y, here, rfl⟩ := storeByte_ok first
    obtain ⟨⟨phys, rfl⟩, writes, same⟩ := ih rest
    refine ⟨⟨phys, rfl⟩, fun i less => ?_, fun x apart => ?_⟩
    · cases i with
      | zero => simpa using allowed
      | succ i =>
        rw [add_succ]
        exact writes i (by simpa using less)
    · have ne : x ≠ y := by
        rintro rfl
        exact apart 0 (Nat.succ_pos _) (by simpa using here)
      have later : ∀ i, i < bs.length → ¬ w.Shows (a + 1 + UInt64.ofNat i) x := by
        intro i less
        rw [← add_succ]
        exact apart (i + 1) (by simpa using less)
      exact (same x later).trans (Function.update_of_ne ne _ _)

/-- Stores to addresses that show different bytes leave there what they store. -/
theorem storeBytes_inside (run : w.storeBytes a bs = .ok w')
    (separate : ∀ i j x, i < bs.length → j < bs.length → w.Shows (a + UInt64.ofNat i) x →
      w.Shows (a + UInt64.ofNat j) x → i = j)
    (less : i < bs.length) (here : w.Shows (a + UInt64.ofNat i) x) :
    bs[i]? = some (w'.phys x) := by
  induction bs generalizing a w i with
  | nil => simp at less
  | cons b bs ih =>
    obtain ⟨mid, first, rest⟩ := bind_ok run
    obtain ⟨-, y, there, rfl⟩ := storeByte_ok first
    have separate' : ∀ i j x, i < bs.length → j < bs.length →
        w.Shows (a + 1 + UInt64.ofNat i) x → w.Shows (a + 1 + UInt64.ofNat j) x → i = j := by
      intro i j x hi hj here there
      rw [← add_succ] at here there
      exact Nat.succ.inj
        (separate (i + 1) (j + 1) x (Nat.succ_lt_succ hi) (Nat.succ_lt_succ hj) here there)
    cases i with
    | zero =>
      obtain rfl := here.unique (y := y) (by simpa using there)
      have kept := (storeBytes_ok rest).2.2 x fun j before shown => by
        have shown : w.Shows (a + 1 + UInt64.ofNat j) x := shown
        rw [← add_succ] at shown
        have := separate 0 (j + 1) x less (Nat.succ_lt_succ before) here shown
        omega
      rw [kept]
      simp
    | succ i =>
      rw [add_succ] at here
      exact ih rest separate' (by simpa using less) here

theorem storeBytes_total (allowed : ∀ i, i < bs.length → w.Writes (a + UInt64.ofNat i)) :
    ∃ w', w.storeBytes a bs = .ok w' := by
  induction bs generalizing a w with
  | nil => exact ⟨w, rfl⟩
  | cons b bs ih =>
    have here : w.Writes a := by simpa using allowed 0 (Nat.succ_pos _)
    obtain ⟨x, -, first⟩ := storeByte_allowed b here
    have rest : ∀ i, i < bs.length → w.Writes (a + 1 + UInt64.ofNat i) := by
      intro i less
      rw [← add_succ]
      exact allowed (i + 1) (by simpa using less)
    obtain ⟨w', more⟩ := ih (w := { w with phys := Function.update w.phys x b }) rest
    refine ⟨w', ?_⟩
    rw [storeBytes, first]
    exact more

theorem storeBytes_mapper {w' : World μ α} (stored : w.storeBytes a bs = .ok w') :
    w'.mapper = w.mapper := by
  obtain ⟨⟨phys, rfl⟩, -, -⟩ := storeBytes_ok stored
  rfl

theorem writeBytes_total {n : UInt64} (val : UInt8)
    (allowed : ∀ i, i < n.toNat → w.Writes (a + UInt64.ofNat i)) :
    ∃ w', w.writeBytes a val n = .ok w' ∧ w'.mapper = w.mapper := by
  have each : ∀ i, i < (List.replicate n.toNat val).length →
      (w.observe (.wrote a n.toNat)).Writes (a + UInt64.ofNat i) := by
    intro i less
    rw [List.length_replicate] at less
    exact allowed i less
  obtain ⟨w', stored⟩ := storeBytes_total each
  have same := storeBytes_mapper stored
  exact ⟨w', stored, same⟩

theorem copyNonoverlapping_total {src n : UInt64}
    (shown : ∀ i, i < n.toNat → ∃ x, w.Shows (src + UInt64.ofNat i) x)
    (allowed : ∀ i, i < n.toNat → w.Writes (a + UInt64.ofNat i)) :
    ∃ w', w.copyNonoverlapping src a n = .ok w' ∧ w'.mapper = w.mapper := by
  obtain ⟨bs, loaded⟩ := loadBytes_total (w := w.observe (.read src n.toNat)) shown
  have each : ∀ i, i < bs.length →
      ((w.observe (.read src n.toNat)).observe (.wrote a n.toNat)).Writes (a + UInt64.ofNat i) := by
    intro i less
    rw [(loadBytes_ok loaded).1] at less
    exact allowed i less
  obtain ⟨w', stored⟩ := storeBytes_total each
  have same := storeBytes_mapper stored
  refine ⟨w', ?_, same⟩
  show (World.loadBytes _ _ _ >>= _) = _
  rw [loaded]
  exact stored

end

/-! ### Mapping pages -/

section

variable {μ α : Type} [Mapper μ] [FrameAllocator α] {w w' w'' : World μ α} {page : Page}
  {pages : List Page} {flags : PageFlags} {fs gs : List PhysFrame}
  {maps maps' : List (Page × PhysFrame)}

/-- The pages of `maps` were not mapped and now are, to their frames; `fs` are the frames that the
allocator has given for them and for page tables. -/
structure Mapped (flags : PageFlags) (maps : List (Page × PhysFrame)) (fs : List PhysFrame)
    (w w' : World μ α) : Prop where
  phys : w'.phys = w.phys
  trace : w'.trace = w.trace ++ maps.map fun m => .mapped m.1 m.2
  taken : Taken w.frames fs w'.frames
  tables : ∃ ts, tables w'.mapper = tables w.mapper ++ ts ∧ (maps.map Prod.snd ++ ts).Perm fs
  free : ∀ m ∈ maps, entry w.mapper m.1 = none
  mapped : ∀ m ∈ maps, entry w'.mapper m.1 = some ⟨m.2, flags⟩
  others : ∀ p, p ∉ maps.map Prod.fst → entry w'.mapper p = entry w.mapper p

theorem Mapped.nil (flags : PageFlags) (w : World μ α) : Mapped flags [] [] w w where
  phys := rfl
  trace := by simp
  taken := .nil _
  tables := ⟨[], by simp, .refl _⟩
  free m mem := absurd mem List.not_mem_nil
  mapped m mem := absurd mem List.not_mem_nil
  others _ _ := rfl

theorem Mapped.append (first : Mapped flags maps fs w w') (second : Mapped flags maps' gs w' w'') :
    Mapped flags (maps ++ maps') (fs ++ gs) w w'' where
  phys := second.phys.trans first.phys
  trace := by simp [second.trace, first.trace]
  taken := first.taken.append second.taken
  tables := by
    obtain ⟨ts, tables, perm⟩ := first.tables
    obtain ⟨ts', tables', perm'⟩ := second.tables
    refine ⟨ts ++ ts', by simp [tables', tables], ?_⟩
    rw [List.map_append]
    have swap : (maps.map Prod.snd ++ maps'.map Prod.snd ++ (ts ++ ts')).Perm
        (maps.map Prod.snd ++ ts ++ (maps'.map Prod.snd ++ ts')) := by
      simp only [List.append_assoc]
      apply List.Perm.append_left
      rw [← List.append_assoc, ← List.append_assoc]
      exact List.perm_append_comm.append_right _
    exact swap.trans (perm.append perm')
  free m mem := by
    rcases List.mem_append.mp mem with here | there
    · exact first.free m here
    · have free := second.free m there
      by_cases both : m.1 ∈ maps.map Prod.fst
      · obtain ⟨m', mem', same⟩ := List.mem_map.mp both
        rw [← same, first.mapped m' mem'] at free
        cases free
      · rw [← first.others _ both]
        exact free
  mapped m mem := by
    by_cases later : m ∈ maps'
    · exact second.mapped m later
    · have here : m ∈ maps := (List.mem_append.mp mem).resolve_right later
      rw [second.others, first.mapped m here]
      intro both
      obtain ⟨m', mem', same⟩ := List.mem_map.mp both
      have free := second.free m' mem'
      rw [same, first.mapped m here] at free
      cases free
  others p apart := by
    rw [List.map_append, List.mem_append, not_or] at apart
    rw [second.others p apart.2, first.others p apart.1]

/-- The pages of one `Mapped` are mapped to different frames, if the allocator gives different
ones. -/
theorem Mapped.frame_inj (done : Mapped flags maps fs w w') (nodup : fs.Nodup)
    {m m' : Page × PhysFrame} (mem : m ∈ maps) (mem' : m' ∈ maps) (same : m.2 = m'.2) : m = m' := by
  obtain ⟨ts, -, perm⟩ := done.tables
  have frames : (maps.map Prod.snd).Nodup := (List.nodup_append.mp (perm.nodup_iff.mpr nodup)).1
  exact List.inj_on_of_nodup_map frames mem mem' same

theorem Mapped.frame_mem (done : Mapped flags maps fs w w') {m : Page × PhysFrame}
    (mem : m ∈ maps) : m.2 ∈ fs := by
  obtain ⟨ts, -, perm⟩ := done.tables
  exact perm.mem_iff.mp (List.mem_append_left ts (List.mem_map_of_mem mem))

theorem Mapped.page_mem (done : Mapped flags maps fs w w') {a : UInt64}
    (mem : alignDown a ∈ maps.map Prod.fst) :
    ∃ m ∈ maps, m.1 = alignDown a ∧ entry w'.mapper (alignDown a) = some ⟨m.2, flags⟩ := by
  obtain ⟨m, here, same⟩ := List.mem_map.mp mem
  exact ⟨m, here, same, same ▸ done.mapped m here⟩

theorem Mapped.shows (done : Mapped flags maps fs w w') {a : UInt64} (fine : Kernel.canonical a)
    (mem : alignDown a ∈ maps.map Prod.fst) : ∃ x, w'.Shows a x := by
  obtain ⟨m, -, -, found⟩ := done.page_mem mem
  exact ⟨_, shows_iff.mpr ⟨fine, _, found, rfl⟩⟩

/-- The bytes that the new pages show are in the frames that the allocator has given. -/
theorem Mapped.has (done : Mapped flags maps fs w w') {a x : UInt64}
    (mem : alignDown a ∈ maps.map Prod.fst) (here : w'.Shows a x) : ∃ f ∈ fs, f.Has x := by
  obtain ⟨m, inside, -, found⟩ := done.page_mem mem
  obtain ⟨-, e, found', rfl⟩ := shows_iff.mp here
  rw [found] at found'
  cases found'
  exact ⟨m.2, done.frame_mem inside, PageEntry.byte_has _ a⟩

theorem page_offset {a b : UInt64} (page : alignDown a = alignDown b)
    (offset : a.toNat % 4096 = b.toNat % 4096) : a = b := by
  apply UInt64.toNat_inj.mp
  have first := alignDown_toNat a
  have second := alignDown_toNat b
  rw [page] at first
  omega

/-- Different addresses in the new pages show different bytes. -/
theorem Mapped.separate (done : Mapped flags maps fs w w') (nodup : fs.Nodup) {a b x : UInt64}
    (mem : alignDown a ∈ maps.map Prod.fst) (mem' : alignDown b ∈ maps.map Prod.fst)
    (here : w'.Shows a x) (there : w'.Shows b x) : a = b := by
  obtain ⟨m, inside, page, found⟩ := done.page_mem mem
  obtain ⟨m', inside', page', found'⟩ := done.page_mem mem'
  obtain ⟨-, e, first, same⟩ := shows_iff.mp here
  obtain ⟨-, e', second, same'⟩ := shows_iff.mp there
  rw [found] at first
  rw [found'] at second
  cases first
  cases second
  obtain ⟨frames, offset⟩ := PageEntry.byte_inj (same.trans same'.symm)
  obtain rfl := done.frame_inj nodup inside inside' frames
  exact page_offset (page.symm.trans page') offset

variable [LawfulMapper μ]

theorem mapPage_ok (run : w.mapPage flags page = .ok w') :
    ∃ f fs, fs.length ≤ 4 ∧ Mapped flags [(page, f)] fs w w' := by
  obtain ⟨⟨frame, frames⟩, call, rest⟩ := bind_ok run
  obtain ⟨f, got, rest⟩ := bind_ok rest
  obtain ⟨⟨result, frames'⟩, mapping, rest⟩ := bind_ok rest
  obtain ⟨mapper, worked, same⟩ := bind_ok rest
  cases frame with
  | none => cases got
  | some f' =>
    cases got
    cases result with
    | error e => cases worked
    | ok m =>
      cases worked
      cases same
      obtain ⟨free, update, ts, few, taken, tables⟩ := LawfulMapper.mapTo_ok mapping
      refine ⟨f, f :: ts, Nat.succ_le_succ few, rfl, rfl, .cons call taken, ⟨ts, tables, .refl _⟩,
        ?_, ?_, ?_⟩
      · simpa using free
      · simp [update]
      · intro p apart
        rw [update]
        exact Function.update_of_ne (by simpa using apart) _ _

theorem mapPages_ok (run : pages.foldlM (mapPage flags) w = .ok w') :
    ∃ maps fs, maps.map Prod.fst = pages ∧ fs.length ≤ 4 * pages.length ∧
      Mapped flags maps fs w w' := by
  induction pages generalizing w with
  | nil =>
    cases run
    exact ⟨[], [], rfl, Nat.le_refl _, .nil flags w'⟩
  | cons page pages ih =>
    rw [List.foldlM_cons] at run
    obtain ⟨mid, first, rest⟩ := bind_ok run
    obtain ⟨f, fs, few, once⟩ := mapPage_ok first
    obtain ⟨maps, gs, same, few', more⟩ := ih rest
    refine ⟨[(page, f)] ++ maps, fs ++ gs, by simp [same], ?_, once.append more⟩
    simp only [List.length_append, List.length_cons]
    omega

theorem mapPage_total {b : α} (free : entry w.mapper page = none) (enough : 4 ≤ fs.length)
    (taken : Taken w.frames fs b) : ∃ w', w.mapPage flags page = .ok w' := by
  cases fs with
  | nil => simp at enough
  | cons f fs =>
    obtain ⟨a', call, rest⟩ := taken.cons_inv
    have cut : fs.take 3 ++ fs.drop 3 = fs := List.take_append_drop 3 fs
    rw [← cut] at rest
    obtain ⟨c, three, -⟩ := rest.split
    have length : (fs.take 3).length = 3 := by
      rw [List.length_take]
      simp only [List.length_cons] at enough
      omega
    obtain ⟨m', frames, mapping⟩ := LawfulMapper.mapTo_free f flags free length three
    exact ⟨_, by simp [mapPage, call, mapping, expect, bind, Except.bind, Except.toOption]; rfl⟩

theorem mapPages_total {b : α} (nodup : pages.Nodup)
    (free : ∀ p ∈ pages, entry w.mapper p = none) (enough : 4 * pages.length ≤ fs.length)
    (taken : Taken w.frames fs b) : ∃ w', pages.foldlM (mapPage flags) w = .ok w' := by
  induction pages generalizing w fs with
  | nil => exact ⟨w, rfl⟩
  | cons page pages ih =>
    simp only [List.length_cons] at enough
    obtain ⟨apart, nodup⟩ := List.nodup_cons.mp nodup
    obtain ⟨mid, first⟩ : ∃ mid, w.mapPage flags page = .ok mid :=
      mapPage_total (free page List.mem_cons_self) (by omega) taken
    obtain ⟨f, gs, few, once⟩ := mapPage_ok first
    obtain ⟨hs, rfl, left⟩ := once.taken.extend taken (by omega)
    have free' : ∀ p ∈ pages, entry mid.mapper p = none := by
      intro p mem
      rw [once.others p]
      · exact free p (List.mem_cons_of_mem page mem)
      · have ne : p ≠ page := by
          rintro rfl
          exact apart mem
        simpa using ne
    rw [List.length_append] at enough
    obtain ⟨w', rest⟩ := ih nodup free' (by omega) left
    refine ⟨w', ?_⟩
    rw [List.foldlM_cons, first]
    exact rest

end

/-! ### Setting flags -/

section

variable {μ α : Type} [Mapper μ] [LawfulMapper μ] {w : World μ α} {page : Page} {pages : List Page}

theorem setFlags_mapped (flags : PageFlags) {e : PageEntry}
    (mapped : entry w.mapper page = some e) :
    ∃ mapper, w.setFlags flags page = .ok { w with mapper := mapper } ∧
      entry mapper = Function.update (entry w.mapper) page (some { e with flags := flags }) ∧
      tables mapper = tables w.mapper := by
  obtain ⟨m', run, update, same⟩ := LawfulMapper.updateFlags_mapped flags mapped
  exact ⟨m', by simp [setFlags, run, expect, bind, Except.bind, Except.toOption], update, same⟩

theorem setFlagsAll_mapped (flags : PageFlags)
    (mapped : ∀ p ∈ pages, ∃ e, entry w.mapper p = some e) :
    ∃ mapper, pages.foldlM (setFlags flags) w = .ok { w with mapper := mapper } ∧
      (∀ p ∈ pages, ∀ e, entry w.mapper p = some e →
        entry mapper p = some { e with flags := flags }) ∧
      (∀ p, p ∉ pages → entry mapper p = entry w.mapper p) ∧ tables mapper = tables w.mapper := by
  induction pages generalizing w with
  | nil => exact ⟨w.mapper, rfl, by simp, fun _ _ => rfl, rfl⟩
  | cons page pages ih =>
    obtain ⟨e, found⟩ := mapped page List.mem_cons_self
    obtain ⟨m1, first, update, same⟩ := setFlags_mapped flags found
    have mapped' : ∀ p ∈ pages, ∃ e, entry m1 p = some e := by
      intro p mem
      rw [update]
      by_cases here : p = page
      · exact ⟨_, by rw [here, Function.update_self]⟩
      · rw [Function.update_of_ne here]
        exact mapped p (List.mem_cons_of_mem page mem)
    obtain ⟨m2, rest, inside, outside, same'⟩ := ih (w := { w with mapper := m1 }) mapped'
    refine ⟨m2, ?_, fun p mem e' found' => ?_, fun p apart => ?_, same'.trans same⟩
    · rw [List.foldlM_cons, first]
      exact rest
    · by_cases here : p = page
      · subst here
        rw [found'] at found
        cases found
        by_cases again : p ∈ pages
        · have next : entry m1 p = some { e with flags := flags } := by
            rw [update, Function.update_self]
          exact inside p again { e with flags := flags } next
        · rw [outside p again, update, Function.update_self]
      · have later := (List.mem_cons.mp mem).resolve_left here
        have next : entry m1 p = some e' := by rw [update, Function.update_of_ne here, found']
        exact inside p later e' next
    · rw [List.mem_cons, not_or] at apart
      rw [outside p apart.2, update, Function.update_of_ne apart.1]

end

end World

end Microkernel
