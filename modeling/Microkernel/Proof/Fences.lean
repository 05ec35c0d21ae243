import Microkernel.Proof.Contexts
import Microkernel.Proof.Handout
import Microkernel.Proof.Startup

/-! What the page table of `kernel_main` keeps apart.  Every page that it maps has a frame of its
own, which is no page table, so user code reaches the pages of the processes alone, and the memory
that the pages show behaves like memory of its own. -/

namespace Microkernel

open Lib

namespace World

/-! ### New pages -/

section

variable {μ α : Type} [Mapper μ] {w w' w'' : World μ α} {p q : Page} {e e' : PageEntry}

/-- What was mapped stays as it is, and the trace tells of every page that was mapped since. -/
structure Grows (w w' : World μ α) : Prop where
  kept : ∀ p e, entry w.mapper p = some e → entry w'.mapper p = some e
  traced : ∃ accesses, w'.trace = w.trace ++ accesses ∧
    ∀ p e, entry w.mapper p = none → entry w'.mapper p = some e → .mapped p e.frame ∈ accesses

theorem Grows.refl (w : World μ α) : Grows w w where
  kept _ _ found := found
  traced := ⟨[], by simp, fun p e free found => by
    rw [free] at found
    cases found⟩

theorem Grows.trans (first : Grows w w') (second : Grows w' w'') : Grows w w'' where
  kept p e found := second.kept p e (first.kept p e found)
  traced := by
    obtain ⟨before, trace, traced⟩ := first.traced
    obtain ⟨after, trace', traced'⟩ := second.traced
    refine ⟨before ++ after, by rw [trace', trace, List.append_assoc], fun p e free found => ?_⟩
    cases middle : entry w'.mapper p with
    | none => exact List.mem_append_right before (traced' p e middle found)
    | some e' =>
      rw [second.kept p e' middle] at found
      cases found
      exact List.mem_append_left after (traced p e free middle)

/-- An access that changes neither the page table nor the trace's pages. -/
theorem Grows.same (mapper : w'.mapper = w.mapper) {accesses : List Access}
    (trace : w'.trace = w.trace ++ accesses) : Grows w w' where
  kept p e found := by
    rw [mapper]
    exact found
  traced := ⟨accesses, trace, fun p e free found => by
    rw [mapper, free] at found
    cases found⟩

variable [FrameAllocator α]

theorem Mapped.grows {flags : PageFlags} {maps : List (Page × PhysFrame)} {fs : List PhysFrame}
    (mapped : Mapped flags maps fs w w') : Grows w w' where
  kept p e found := mapped.kept found
  traced := by
    refine ⟨_, mapped.trace, fun p e free found => ?_⟩
    by_cases mem : p ∈ maps.map Prod.fst
    · obtain ⟨m, here, rfl⟩ := List.mem_map.mp mem
      rw [mapped.mapped m here] at found
      cases found
      exact List.mem_map.mpr ⟨m, here, rfl⟩
    · rw [mapped.others p mem, free] at found
      cases found

variable [LawfulMapper μ]

theorem loadSegment_grows {elfData : Slice} {h : ProgramHeader}
    (run : w.loadSegment elfData h = .ok w') : Grows w w' := by
  obtain ⟨v, last, maps, fs, bs, w1, w2, w3, steps⟩ := loadSegment_ok run
  obtain ⟨-, -, -, trace3⟩ := steps.memory
  obtain ⟨mapper, rfl, inside, others, -⟩ := steps.final
  have began : (w.observe (.segment h)).trace = w.trace ++ [.segment h] := rfl
  have start : Grows w (w.observe (.segment h)) := .same rfl began
  refine start.trans ⟨fun p e found => ?_, ?_⟩
  · show entry mapper p = some e
    rw [others p]
    · exact found
    · intro mem
      obtain ⟨m, here, rfl⟩ := List.mem_map.mp mem
      have free := steps.mapped.free m here
      rw [free] at found
      cases found
  · refine ⟨_, by rw [show _ = _ from trace3, steps.mapped.trace, List.append_assoc],
      fun p e free found => ?_⟩
    have found : entry mapper p = some e := found
    by_cases mem : p ∈ maps.map Prod.fst
    · obtain ⟨m, here, rfl⟩ := List.mem_map.mp mem
      rw [inside m here] at found
      cases found
      exact List.mem_append_left _ (List.mem_map.mpr ⟨m, here, rfl⟩)
    · have free : entry w.mapper p = none := free
      rw [others p mem, free] at found
      cases found

theorem loadHeader_grows {elfData : Slice} {h : ProgramHeader}
    (run : w.loadHeader elfData h = .ok w') : Grows w w' := by
  unfold loadHeader at run
  split at run
  · cases run
  · exact loadSegment_grows run
  · cases run
    exact .refl _

theorem loadElf_grows {parse : List UInt8 → Except Stop ElfFile} {elfData : Slice} {r : UInt64}
    (run : w.loadElf parse elfData = .ok (r, w')) : Grows w w' := by
  obtain ⟨bytes, -, rest⟩ := bind_ok run
  obtain ⟨elf, -, rest⟩ := bind_ok rest
  obtain ⟨w1, loop, rest⟩ := bind_ok rest
  obtain ⟨entry, -, same⟩ := bind_ok rest
  cases same
  exact foldlM_ok Grows.refl Grows.trans loadHeader_grows loop

end

/-! ### The frames of new pages -/

section

variable {μ : Type} [Mapper μ] {regions : List MemoryRegion} {w w' : World μ BootInfoFrameAllocator}
  {p q : Page} {e e' : PageEntry} {a : UInt64}

/-- Items that one function maps to one value are one item, if its values are different. -/
theorem filterMap_inj {β γ : Type} {f : β → Option γ} {l : List β} {c : γ} {b b' : β}
    (nodup : (l.filterMap f).Nodup) (mem : b ∈ l) (mem' : b' ∈ l) (here : f b = some c)
    (there : f b' = some c) : b = b' := by
  by_contra different
  have apart := List.pairwise_filterMap.mp nodup
  have symm : Std.Symm fun b b' : β => ∀ c, f b = some c → ∀ c', f b' = some c' → c ≠ c' :=
    ⟨fun _ _ ne c found c' found' same => ne c' found' c found same.symm⟩
  exact apart.forall mem mem' different c here c there rfl

/-- The page is mapped in `w'` and was not in `w`. -/
def New (w w' : World μ BootInfoFrameAllocator) (p : Page) (e : PageEntry) : Prop :=
  entry w.mapper p = none ∧ entry w'.mapper p = some e

/-- Every new page has a frame of its own of the usable regions, which is no page table. -/
structure Fenced (regions : List MemoryRegion) (w w' : World μ BootInfoFrameAllocator) : Prop where
  usable : ∀ p e, New w w' p e → ∃ r ∈ regions, r.kind = .usable ∧ r.Holds e.frame
  tables : ∀ p e, New w w' p e → e.frame ∉ tables w'.mapper
  apart : ∀ p q e e', New w w' p e → New w w' q e' → e.frame = e'.frame → p = q

theorem Grows.fenced (grows : Grows w w') (hands : Hands w w')
    (disjoint : regions.Pairwise MemoryRegion.Apart) (aligned : ∀ r ∈ regions, r.Aligned)
    (low : ∀ r ∈ regions, r.kind = .usable → r.stop ≤ 0x10000000000000)
    (start : w.frames = .init regions) (fresh : w.handed = []) : Fenced regions w w' := by
  obtain ⟨accesses, trace, traced⟩ := grows.traced
  obtain ⟨fs, taken, perm⟩ := hands
  rw [start] at taken
  have low' : ∀ r ∈ usable regions, r.stop ≤ 0x10000000000000 :=
    fun r mem => low r (mem_usable.mp mem).1 (mem_usable.mp mem).2
  have first := BootInfoFrameAllocator.taken_eq disjoint aligned low' taken
  have different : fs.Nodup := by
    rw [first]
    exact List.Pairwise.take (MemoryRegion.framesInside_nodup disjoint aligned)
  rw [fresh, List.nil_append] at perm
  obtain ⟨pages, -, tables'⟩ := List.nodup_append.mp (perm.nodup_iff.mpr different)
  have listed : ∀ p e, New w w' p e → .mapped p e.frame ∈ w'.trace := by
    intro p e new
    rw [trace]
    exact List.mem_append_right _ (traced p e new.1 new.2)
  have given : ∀ p e, New w w' p e → e.frame ∈ w'.trace.filterMap Access.frame :=
    fun p e new => List.mem_filterMap.mpr ⟨_, listed p e new, rfl⟩
  refine ⟨fun p e new => ?_, fun p e new mem => ?_, fun p q e e' new new' same => ?_⟩
  · apply (MemoryRegion.mem_framesInside aligned).mp
    have mem : e.frame ∈ fs := perm.mem_iff.mp (List.mem_append_left _ (given p e new))
    rw [first] at mem
    exact List.mem_of_mem_take mem
  · exact tables' _ (given p e new) _ mem rfl
  · have one := filterMap_inj pages (listed p e new) (listed q e' new') rfl
      (by rw [Access.frame, same])
    exact (Access.mapped.inj one).1

theorem place_iff {α : Type} {w : World μ α} {x : UInt64} :
    w.place a = some x ↔ w.Shows a x := Option.map_eq_some_iff

/-- Different addresses in new pages have different places. -/
theorem Fenced.separate (fenced : Fenced regions w w') :
    Separate w'.place fun a => entry w.mapper (alignDown a) = none := by
  intro a b x free free' here there
  obtain ⟨-, e, found, byte⟩ := shows_iff.mp (place_iff.mp here)
  obtain ⟨-, e', found', byte'⟩ := shows_iff.mp (place_iff.mp there)
  obtain ⟨frames, offset⟩ := PageEntry.byte_inj (byte.trans byte'.symm)
  have page := fenced.apart _ _ e e' ⟨free, found⟩ ⟨free', found'⟩ frames
  exact page_offset page offset

/-! ### Stores -/

/-- A store that is no page fault goes to the place of its address, in a page that allows it. -/
theorem reach_some {α : Type} {w : World μ α} {byUser : Bool} {x : UInt64}
    (reached : w.reach byUser a = some x) :
    w.place a = some x ∧ ∃ e, entry w.mapper (alignDown a) = some e ∧ e.frame.Has x ∧
      e.flags.writable = true ∧ (byUser = true → e.flags.userAccessible = true) := by
  unfold reach at reached
  split at reached
  · rename_i e found
    split at reached
    · rename_i allowed
      cases reached
      have shown : w.Shows a (e.byte a) := ⟨e, found, rfl⟩
      obtain ⟨-, e', entry', -⟩ := shows_iff.mp shown
      have same : e = e' := by
        unfold translate at found
        split at found
        · exact Option.some.inj (found.symm.trans entry')
        · cases found
      subst same
      simp only [Bool.and_eq_true, Bool.or_eq_true, Bool.not_eq_true'] at allowed
      refine ⟨place_iff.mpr shown, e, entry', e.byte_has a, allowed.1, fun user => ?_⟩
      exact allowed.2.resolve_left (by simp [user])
    · cases reached
  · cases reached

theorem stores_eq {α : Type} (w : World μ α) (l : List Store) :
    w.stores l = { w with phys := l.foldl (Write.toPlace w.reach) w.phys } := by
  induction l generalizing w with
  | nil => rfl
  | cons st l ih => exact ih (w.store st)

end

end World

/-- The stores of the kernel's model are stores to its memory. -/
theorem Kernel.stores_eq (k : Kernel) (l : List Store) :
    k.stores l = { k with mem := l.foldl (Write.toAddr k.mayWrite) k.mem } := by
  induction l generalizing k with
  | nil => rfl
  | cons st l ih => exact ih (k.store st)

namespace Kernel

variable {k : Kernel} {l : List Store}

/-- Stores by user code change what user code may store to. -/
theorem userStores_eq (byUser : ∀ st ∈ l, st.kind = true) :
    k.stores l = k.userWrites (k.stores l).mem := by
  rw [stores_eq, userWrites]
  congr 1
  funext a
  by_cases allowed : k.userCanWrite a
  · rw [if_pos allowed]
  · rw [if_neg allowed]
    have places : (Write.toAddr k.mayWrite : Memory → Store → Memory) = fun mem st =>
        st.toPlace (fun kind a => if k.mayWrite kind a then some a else none) mem := by
      funext mem st
      exact Write.toAddr_eq
    rw [places]
    refine writes_apart fun st mem reached => allowed ?_
    have kind := byUser st mem
    rw [kind] at reached
    split at reached
    · rename_i may
      cases reached
      exact may
    · cases reached

end Kernel

namespace World

section

variable {μ : Type} [Mapper μ] [LawfulMapper μ] {regions : List MemoryRegion}
  {w w' v : World μ BootInfoFrameAllocator} {k m : Kernel}
  {parse : List UInt8 → Except Stop ElfFile} {elfData : Slice}
  {kstackA kstackB monitorStackTop : UInt64} {l : List Store} {a : UInt64}

theorem kernelMain_grows
    (run : w.kernelMain parse elfData kstackA kstackB monitorStackTop = .ok (w', k)) :
    Grows w w' ∧ Hands w w' ∧
      ∀ p ∈ heapRange, ∃ f, New w w' p ⟨f, ⟨true, false, false⟩⟩ := by
  obtain ⟨r, w1, w2, heap, loaded, stacked, -⟩ := kernelMain_ok run
  obtain ⟨heapMaps, fs, allHeap, -, first⟩ := mapPages_ok heap
  obtain ⟨stackMaps, gs, -, -, last⟩ := mapPages_ok stacked
  have later : Grows w1 w' := (loadElf_grows loaded).trans last.grows
  refine ⟨first.grows.trans later, (first.hands.trans (loadElf_hands loaded)).trans last.hands,
    fun p mem => ?_⟩
  obtain ⟨m, here, rfl⟩ := List.mem_map.mp (allHeap ▸ mem)
  exact ⟨m.2, first.free m here, later.kept _ _ (first.mapped m here)⟩

theorem heap_address (low : heapStart.toNat ≤ a.toNat)
    (high : a.toNat < heapStart.toNat + heapSize.toNat) :
    Kernel.canonical a ∧ alignDown a ∈ heapRange := by
  have first : heapStart.toNat = 0x444444440000 := rfl
  have size : heapSize.toNat = 102400 := rfl
  constructor
  · rw [canonical_iff]
    omega
  · refine (mem_pagesFrom (by decide) (by decide)).mpr ?_
    rw [alignDown_toNat]
    omega

omit [LawfulMapper μ] in
/-- A page for user code is new, if no page was for user code before. -/
theorem Grows.user_new (grows : Grows w w')
    (closed : ∀ p e, entry w.mapper p = some e → e.flags.userAccessible = false) {p : Page}
    {e : PageEntry} (found : entry w'.mapper p = some e) (user : e.flags.userAccessible = true) :
    New w w' p e := by
  cases before : entry w.mapper p with
  | none => exact ⟨before, found⟩
  | some e' =>
    have same := grows.kept p e' before
    rw [found] at same
    cases same
    rw [closed p e before] at user
    cases user

omit [LawfulMapper μ] in
/-- Stores by user code change bytes of new pages for user code alone. -/
theorem Grows.user_stores_new (grows : Grows w w')
    (closed : ∀ p e, entry w.mapper p = some e → e.flags.userAccessible = false)
    (later : v.mapper = w'.mapper) (byUser : ∀ st ∈ l, st.kind = true) {x : UInt64}
    (change : (v.stores l).phys x ≠ v.phys x) :
    ∃ p e, New w w' p e ∧ e.frame.Has x ∧ e.flags.writable = true ∧
      e.flags.userAccessible = true := by
  by_contra none_reached
  apply change
  rw [stores_eq]
  refine writes_apart fun st mem reached => none_reached ?_
  obtain ⟨-, e, found, has, writable, user⟩ := reach_some reached
  rw [later] at found
  have user := user (byUser st mem)
  exact ⟨_, e, grows.user_new closed found user, has, writable, user⟩

omit [LawfulMapper μ] in
/-- An address reads as before, if the stores leave its place alone. -/
theorem loadByte_stores {x : UInt64} (shown : v.Shows a x)
    (kept : (v.stores l).phys x = v.phys x) :
    ∃ b, v.loadByte a = .ok b ∧ (v.stores l).loadByte a = .ok b := by
  have shown' : (v.stores l).Shows a x := by
    rw [stores_eq]
    exact shown
  exact ⟨_, loadByte_ok.mpr ⟨_, shown, rfl⟩, loadByte_ok.mpr ⟨_, shown', kept⟩⟩

/-- Regions that are aligned and apart, and no page for user code before: whatever user code stores
once `kernel_main` has built the page table, a byte of memory that changes is in the frame of one
page, which `kernel_main` has mapped for user code: a frame of a usable region that is no page table
and that no other page has.  The heap reads as before. -/
theorem user_stores_confined (disjoint : regions.Pairwise MemoryRegion.Apart)
    (aligned : ∀ r ∈ regions, r.Aligned)
    (low : ∀ r ∈ regions, r.kind = .usable → r.stop ≤ 0x10000000000000)
    (start : w.frames = .init regions) (fresh : w.handed = [])
    (closed : ∀ p e, entry w.mapper p = some e → e.flags.userAccessible = false)
    (run : w.kernelMain parse elfData kstackA kstackB monitorStackTop = .ok (w', k))
    (later : v.mapper = w'.mapper) (byUser : ∀ st ∈ l, st.kind = true) :
    (∀ x, (v.stores l).phys x ≠ v.phys x → ∃ p e, entry w.mapper p = none ∧
      entry w'.mapper p = some e ∧ e.frame.Has x ∧
      e.flags.writable = true ∧ e.flags.userAccessible = true ∧
      (∃ r ∈ regions, r.kind = .usable ∧ r.Holds e.frame) ∧ e.frame ∉ tables w'.mapper ∧
      ∀ q e', entry w.mapper q = none → entry w'.mapper q = some e' → e'.frame = e.frame → q = p) ∧
    ∀ n, n < heapSize.toNat → ∃ b, v.loadByte (heapStart + UInt64.ofNat n) = .ok b ∧
      (v.stores l).loadByte (heapStart + UInt64.ofNat n) = .ok b := by
  obtain ⟨grows, hands, heap⟩ := kernelMain_grows run
  have fenced := grows.fenced hands disjoint aligned low start fresh
  refine ⟨fun x change => ?_, fun n less => ?_⟩
  · obtain ⟨p, e, new, has, writable, user⟩ := grows.user_stores_new closed later byUser change
    exact ⟨p, e, new.1, new.2, has, writable, user, fenced.usable p e new, fenced.tables p e new,
      fun q e' free found same => fenced.apart q p e' e ⟨free, found⟩ new same⟩
  · have size : heapSize.toNat = 102400 := rfl
    have place : (heapStart + UInt64.ofNat n).toNat = heapStart.toNat + n := by
      simp only [heapStart, UInt64.toNat_add, UInt64.toNat_ofNat', UInt64.reduceToNat]
      omega
    obtain ⟨canonical, page⟩ : Kernel.canonical (heapStart + UInt64.ofNat n) ∧
        alignDown (heapStart + UInt64.ofNat n) ∈ heapRange := heap_address (by omega) (by omega)
    obtain ⟨f, new⟩ := heap _ page
    have shown : v.Shows (heapStart + UInt64.ofNat n) (PageEntry.byte ⟨f, ⟨true, false, false⟩⟩
        (heapStart + UInt64.ofNat n)) :=
      shows_iff.mpr ⟨canonical, _, by rw [later, new.2], rfl⟩
    refine loadByte_stores shown ?_
    by_contra change
    -- a byte that changes would be in the frame of a page for user code, which no heap page has
    obtain ⟨p, e, new', has, -, user⟩ := grows.user_stores_new closed later byUser change
    have frames : e.frame = f := has.same (PageEntry.byte_has _ _)
    obtain rfl := fenced.apart _ _ _ _ new' new frames
    cases new'.2.symm.trans new.2
    cases user

end

end World

namespace ElfFile

theorem roomyWorld_closed (p : Page) (e : PageEntry) (found : entry roomyWorld.mapper p = some e) :
    e.flags.userAccessible = false := by
  have found : (if _ then some _ else none) = some e := found
  split at found
  · cases found
    rfl
  · cases found

/-- A store to the stack of process A leaves the heap alone. -/
theorem user_stores_confined_roomy : ∃ w' k,
    roomyWorld.kernelMain read smallSlice 0x444444440000 0x444444448000 0x444444454000 =
      .ok (w', k) ∧
    ∀ n, n < World.heapSize.toNat → ∃ b,
      w'.loadByte (World.heapStart + UInt64.ofNat n) = .ok b ∧
      (w'.stores [⟨true, 0x30007000, 0x41⟩]).loadByte (World.heapStart + UInt64.ofNat n) =
        .ok b := by
  obtain ⟨w', k, run⟩ := roomyWorld_boots
  have confined := World.user_stores_confined roomyRegions_disjoint (by decide) (by decide) rfl rfl
    roomyWorld_closed run rfl (l := [⟨true, 0x30007000, 0x41⟩]) (by decide)
  exact ⟨w', k, run, confined.2⟩

end ElfFile

namespace World

section

variable {μ : Type} [Mapper μ] [LawfulMapper μ] {regions : List MemoryRegion}
  {w w' v : World μ BootInfoFrameAllocator} {k m : Kernel}
  {parse : List UInt8 → Except Stop ElfFile} {elfData : Slice}
  {kstackA kstackB monitorStackTop : UInt64} {l : List Store} {a : UInt64}

omit [LawfulMapper μ] in
/-- The kernel's model allows a store exactly when it is no page fault. -/
theorem mayWrite_eq (pages : m.pages = v.pages) (byUser : Bool) :
    m.mayWrite byUser a = (v.reach byUser a).isSome := by
  unfold reach translate Kernel.mayWrite Kernel.userCanWrite Kernel.canWrite
  rw [pages, pages_at]
  by_cases canonical : Kernel.canonical a
  · rw [if_pos canonical]
    cases entry v.mapper (alignDown a) with
    | none => cases byUser <;> simp
    | some e =>
      obtain ⟨f, ⟨writable, user, noExecute⟩⟩ := e
      cases byUser <;> cases writable <;> cases user <;> simp [canonical]
  · rw [if_neg canonical]
    cases byUser <;> simp [canonical]

/-- The pages that `kernel_main` has mapped, from regions that are aligned and apart, behave like
memory of their own: whatever the kernel stores to them and user code stores anywhere, they show
what the kernel's model has in its memory after the same stores, and stores by user code alone are
one `userWrites` of the model. -/
theorem stores_flat (disjoint : regions.Pairwise MemoryRegion.Apart)
    (aligned : ∀ r ∈ regions, r.Aligned)
    (low : ∀ r ∈ regions, r.kind = .usable → r.stop ≤ 0x10000000000000)
    (start : w.frames = .init regions) (fresh : w.handed = [])
    (closed : ∀ p e, entry w.mapper p = some e → e.flags.userAccessible = false)
    (run : w.kernelMain parse elfData kstackA kstackB monitorStackTop = .ok (w', k))
    (later : v.mapper = w'.mapper) (pages : m.pages = w'.pages)
    (agree : ∀ a, entry w.mapper (alignDown a) = none → v.memory a = m.mem a)
    (inside : ∀ st ∈ l, st.kind = false → entry w.mapper (alignDown st.addr) = none) :
    (∀ a, entry w.mapper (alignDown a) = none → (v.stores l).memory a = (m.stores l).mem a) ∧
    ((∀ st ∈ l, st.kind = true) → m.stores l = m.userWrites (m.stores l).mem) := by
  obtain ⟨grows, hands, -⟩ := kernelMain_grows run
  have fenced := grows.fenced hands disjoint aligned low start fresh
  have sameTranslate : v.translate = w'.translate := by
    funext a
    rw [translate, translate, later]
  have samePlace : v.place = w'.place := by
    funext a
    rw [place, place, sameTranslate]
  have samePages : m.pages = v.pages := by
    funext page
    rw [pages, World.pages, World.pages, later]
  refine ⟨fun a free => ?_, fun byUser => Kernel.userStores_eq byUser⟩
  have separate : Separate v.place fun a => entry w.mapper (alignDown a) = none := by
    rw [samePlace]
    exact fenced.separate
  have within : ∀ st ∈ l, st.Within v.place v.reach m.mayWrite
      fun a => entry w.mapper (alignDown a) = none := by
    intro st mem
    refine ⟨mayWrite_eq samePages st.kind, fun x reached => ?_⟩
    obtain ⟨here, e, found, -, -, user⟩ := reach_some reached
    refine ⟨?_, here⟩
    cases kind : st.kind with
    | false => exact inside st mem kind
    | true =>
      rw [later] at found
      exact (grows.user_new closed found (user kind)).1
  have shown := writes_view separate free within agree
  rw [Kernel.stores_eq, World.stores_eq]
  exact shown

end

end World

namespace ElfFile

/-- A store of user code to its stack, and one of the kernel to its heap. -/
theorem stores_flat_roomy : ∃ w' k,
    roomyWorld.kernelMain read smallSlice 0x444444440000 0x444444448000 0x444444454000 =
      .ok (w', k) ∧
    ∀ a, entry roomyWorld.mapper (alignDown a) = none →
      (w'.stores [⟨true, 0x30007000, 0x41⟩, ⟨false, 0x444444440000, 7⟩]).memory a =
        ((Kernel.initial w'.memory w'.pages).stores
          [⟨true, 0x30007000, 0x41⟩, ⟨false, 0x444444440000, 7⟩]).mem a := by
  obtain ⟨w', k, run⟩ := roomyWorld_boots
  have inside : ∀ st ∈ ([⟨true, 0x30007000, 0x41⟩, ⟨false, 0x444444440000, 7⟩] : List Store),
      st.kind = false → entry roomyWorld.mapper (alignDown st.addr) = none := by
    intro st mem kind
    simp only [List.mem_cons, List.not_mem_nil, or_false] at mem
    rcases mem with rfl | rfl
    · cases kind
    · rfl
  have flat := World.stores_flat roomyRegions_disjoint (by decide) (by decide) rfl rfl
    roomyWorld_closed run rfl (m := Kernel.initial w'.memory w'.pages) rfl (fun _ _ => rfl) inside
  exact ⟨w', k, run, flat.1⟩

end ElfFile

/-! ### Processes -/

/-- The heap has handed out the kernel stacks: they are in it, and apart. -/
structure HeapStacks (kstackA kstackB : UInt64) : Prop where
  first : World.heapStart.toNat ≤ kstackA.toNat ∧
    kstackA.toNat + kstackSize.toNat ≤ World.heapStart.toNat + World.heapSize.toNat
  second : World.heapStart.toNat ≤ kstackB.toNat ∧
    kstackB.toNat + kstackSize.toNat ≤ World.heapStart.toNat + World.heapSize.toNat
  apart : kstackA.toNat + kstackSize.toNat ≤ kstackB.toNat ∨
    kstackB.toNat + kstackSize.toNat ≤ kstackA.toNat

namespace World

section

variable {μ α : Type} [Mapper μ] [FrameAllocator α] {w w' : World μ α} {data : List UInt8}
  {segments : List ProgramHeader} {elf : ElfFile} {k : Kernel}
  {parse : List UInt8 → Except Stop ElfFile} {elfData : Slice}
  {kstackA kstackB monitorStackTop r : UInt64}

omit [FrameAllocator α] in
/-- The pages of the heap are not for user code. -/
theorem Built.shielded (built : Built data segments w w') {x : UInt64}
    (low : heapStart.toNat ≤ x.toNat) (high : x.toNat < heapStart.toNat + heapSize.toNat) :
    ((w'.pages (x / 4096)).map PageFlags.userAccessible).getD false = false := by
  obtain ⟨f, found⟩ := built.heapPages _ (heap_address low high).2
  rw [pages_at, found]
  rfl

omit [FrameAllocator α] in
/-- The kernel stacks are apart, and out of the reach of user code. -/
theorem Built.kernelStacks (built : Built data segments w w') (heap : HeapStacks kstackA kstackB)
    (r : UInt64) : KernelStacks (Kernel.processImages r kstackA kstackB) w'.pages := by
  have within : ∀ kstack x : UInt64, kstack.toNat + kstackSize.toNat ≤
      heapStart.toNat + heapSize.toNat → Memory.Within kstack kstackSize.toNat x →
      kstack.toNat ≤ x.toNat ∧ x.toNat < kstack.toNat + kstackSize.toNat := by
    intro kstack x small inside
    have size : kstackSize.toNat = 32768 := rfl
    have top : heapStart.toNat + heapSize.toNat = 0x444444440000 + 102400 := rfl
    have := x.toNat_lt
    simp only [Memory.Within, UInt64.toNat_sub] at inside
    omega
  constructor
  · refine List.pairwise_pair.mpr fun x inA inB => ?_
    have a := within kstackA x heap.first.2 inA
    have b := within kstackB x heap.second.2 inB
    have apart := heap.apart
    omega
  · intro image listed x inside
    rcases List.mem_pair.mp listed with rfl | rfl
    · have place := within kstackA x heap.first.2 inside
      have bounds := heap.first
      exact built.shielded (by omega) (by omega)
    · have place := within kstackB x heap.second.2 inside
      have bounds := heap.second
      exact built.shielded (by omega) (by omega)

variable [LawfulMapper μ]

/-- The frame of a process is where user code stores nothing. -/
theorem framed_shielded {k : Kernel} {t : TaskRef} {c : Context} {x : UInt64}
    (layout : k.Layout) (listed : t ∈ k.taskList) (framed : Framed k.mem (k.task t) c)
    (inside : Memory.Within (k.task t).kernelRsp 160 x) : k.userCanWrite x = false :=
  layout.shielded t listed x (inside.inside framed.2 (by decide))

/-- From the physical memory that the bootloader leaves to the processes: the processor that
`kernel_main` hands over runs two processes with contexts of their own, in lockstep, which begin at
the entry point of the file and at the tops of their stacks; and user code cannot store to a context
that is saved. -/
theorem kernelMain_refines (bootable : Bootable parse elfData data elf w)
    (run : w.kernelMain parse elfData kstackA kstackB monitorStackTop = .ok (w', k))
    (heap : HeapStacks kstackA kstackB) {regs : Reg → UInt64} :
    ∃ r, virtAddr elf.entryPoint = .ok r ∧
      (∀ actions s, Run LiveStep (⟨returnTo k.mem regs (k.task 0).kernelRsp, k⟩, false) actions s →
        ∃ p, Run Lockstep ((⟨returnTo k.mem regs (k.task 0).kernelRsp, k⟩, false),
          .start (Kernel.processImages r kstackA kstackB)) actions (s, p)) ∧
      ∀ actions m faulted p,
        Run Lockstep ((⟨returnTo k.mem regs (k.task 0).kernelRsp, k⟩, false),
          .start (Kernel.processImages r kstackA kstackB)) actions ((m, faulted), p) →
        m.cpu = p.context p.running ∧ m.kernel.currentTaskIdx = p.running ∧
        ∀ (i : Nat) t, m.kernel.taskList[i]? = some t → i ≠ p.running →
          (faulted → (m.kernel.task t).state = .ready) →
          Framed m.kernel.mem (m.kernel.task t) (p.context i) ∧
          ∀ x, Memory.Within (m.kernel.task t).kernelRsp 160 x →
            m.kernel.userCanWrite x = false := by
  obtain ⟨r, w1, w2, -, -, start, -, built, created⟩ := bootable.phases run
  have first : k.taskList[0]? = some 0 := by
    rw [(Kernel.kernelMain_processes created).1]
    rfl
  have boots : Machine.Boots (Kernel.processImages r kstackA kstackB) monitorStackTop w'.memory
      w'.pages ⟨returnTo k.mem regs (k.task 0).kernelRsp, k⟩ := ⟨k, 0, regs, created, first, rfl⟩
  refine ⟨r, start, fun actions s => lockstep_run _, fun actions m faulted p together => ?_⟩
  have rep : Represents faulted m p :=
    together.invariant (I := fun s => Represents s.1.2 s.1.1 s.2)
      (boots_represents (built.kernelStacks heap r) boots) fun _ _ _ rep step =>
        represents_step rep step
  refine ⟨rep.cpu, rep.running, fun i t found other alive => ?_⟩
  have framed := rep.saved i t found other alive
  exact ⟨framed, fun x => framed_shielded rep.layout (List.mem_of_getElem? found) framed⟩

end

end World

namespace ElfFile

/-- Process A has run on and has stored what it could. -/
theorem kernelMain_refines_roomy : ∃ w' k, ∃ m : Machine, ∃ p,
    roomyWorld.kernelMain read smallSlice 0x444444440000 0x444444448000 0x444444454000 =
      .ok (w', k) ∧
    Run Lockstep ((⟨returnTo k.mem (fun _ => 0) (k.task 0).kernelRsp, k⟩, false),
        .start (Kernel.processImages 0x400ffe 0x444444440000 0x444444448000))
      [.user (Processes.firstContext ⟨0x401000, 0x30007000, 0⟩) fun _ => 0x41] ((m, false), p) ∧
    m.cpu = p.context p.running ∧ m.cpu.rip = 0x401000 := by
  obtain ⟨w', k, run⟩ := roomyWorld_boots
  let m0 : Machine := ⟨returnTo k.mem (fun _ => 0) (k.task 0).kernelRsp, k⟩
  let m : Machine :=
    ⟨Processes.firstContext ⟨0x401000, 0x30007000, 0⟩, k.userWrites fun _ => 0x41⟩
  have machine : Run LiveStep (m0, false)
      [.user (Processes.firstContext ⟨0x401000, 0x30007000, 0⟩) fun _ => 0x41] (m, false) :=
    .single ⟨⟨by decide, rfl⟩, rfl, fun faulted => nomatch faulted⟩
  obtain ⟨r, start, follows, refines⟩ := World.kernelMain_refines roomyWorld_bootable run
    ⟨by decide, by decide, by decide⟩
  obtain rfl : 0x400ffe = r := Except.ok.inj start
  obtain ⟨p, together⟩ := follows _ _ machine
  exact ⟨w', k, m, p, run, together, (refines _ _ _ _ together).1, rfl⟩

end ElfFile

end Microkernel
