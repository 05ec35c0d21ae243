import Microkernel.Proof.Dispatch

/-! The machine runs processes that have a context each: whatever interrupts come, a process that is
resumed finds the registers that it had when it was interrupted. -/

namespace Microkernel

open Lib Kernel

variable {m m' : Machine} {p : Processes} {images : List Image} {faulted : Bool}

/-- The machine stands for the processes `p`: the processor holds the context of the one that runs,
and the kernel stack of every other one holds its context, unless a fault has killed it; then it is
not `Ready`. -/
structure Represents (faulted : Bool) (m : Machine) (p : Processes) : Prop where
  sound : m.kernel.Sound
  layout : m.kernel.Layout
  mailboxes : ∀ t, (m.kernel.task t).mailbox = none
  alive : faulted = false → ∀ t ∈ m.kernel.taskList, (m.kernel.task t).state ≠ .terminated
  userMode : ∀ i, (p.context i).cs % 4 = 3
  running : m.kernel.currentTaskIdx = p.running
  cpu : m.cpu = p.context p.running
  rsp0 : ∀ t, m.kernel.Current t → m.kernel.rsp0 = (m.kernel.task t).kernelStackTop
  saved : ∀ i t, m.kernel.taskList[i]? = some t → i ≠ p.running →
    (faulted → (m.kernel.task t).state = .ready) →
    Framed m.kernel.mem (m.kernel.task t) (p.context i)

/-- User code changes the running context, and no frame. -/
theorem Represents.user (rep : Represents faulted m p) {c : Context} {f : Memory}
    (step : m.Step (.user c f) m') :
    Represents faulted m' (p.after m'.kernel.currentTaskIdx (.user c f)) := by
  obtain ⟨ring3, rfl⟩ := step
  have untouched : ∀ t ∈ m.kernel.taskList, ∀ a, OnStack (m.kernel.task t) a →
      (m.kernel.userWrites f).mem a = m.kernel.mem a := by
    intro t ht a on
    have shield := rep.layout.shielded t ht a on
    simp [userWrites, shield]
  refine
    { sound := rep.sound.congr rfl rfl (Nat.le_refl _) rfl
      layout := ⟨rep.layout.nodup, rep.layout.apart, rep.layout.shielded⟩
      mailboxes := rep.mailboxes
      alive := rep.alive
      userMode := fun i => ?_
      running := rep.running
      cpu := (Function.update_self p.running c p.context).symm
      rsp0 := rep.rsp0
      saved := fun i t found ne ready => ?_ }
  · show (Function.update p.context p.running c i).cs % 4 = 3
    by_cases same : i = p.running
    · subst same
      rw [Function.update_self]
      exact ring3
    · rw [Function.update_of_ne same]
      exact rep.userMode i
  · change i ≠ p.running at ne
    show Framed _ _ (Function.update p.context p.running c i)
    rw [Function.update_of_ne ne]
    exact (rep.saved i t found ne ready).congr (untouched t (List.mem_of_getElem? found))

/-! ### Interrupts -/

theorem enter_length (c : Context) (i : Interrupt) :
    (hardwareFrame c i.errorCode ++ pushOrder.map c.regs).length ≤ 21 := by
  cases i <;> exact Nat.le_of_ble_eq_true rfl

/-- The words that an interrupt of process `old` pushes are on its kernel stack. -/
theorem enter_fits (rep : Represents faulted m p) (i : Interrupt) {old : TaskRef}
    (cur : m.kernel.Current old) :
    ((m.enter i).2 - ((m.kernel.task old).kernelStackTop - kstackSize)).toNat +
        8 * (hardwareFrame m.cpu i.errorCode ++ pushOrder.map m.cpu.regs).length ≤
      kstackSize.toNat := by
  have ring3 : m.cpu.cs % 4 = 3 := by
    rw [rep.cpu]
    exact rep.userMode _
  have stack : m.entryStack = (m.kernel.task old).kernelStackTop -
      (m.kernel.task old).kernelStackTop % 16 := by
    rw [Machine.entryStack, if_pos ring3, rep.rsp0 old cur]
  rw [Machine.enter, Memory.pushAll_pointer, stack]
  exact pushed_offset _ (enter_length m.cpu i)

/-- What an interrupt of process `old` pushes, and what its handler stores below that, changes
nothing but the kernel stack of `old`. -/
theorem enter_outside (rep : Represents faulted m p) {i : Interrupt} {old : TaskRef}
    (cur : m.kernel.Current old) {mem : Memory}
    (used : Machine.StackUsed m.kernel (m.enter i).2 (m.enter i).1 mem) {a : UInt64}
    (off : ¬ OnStack (m.kernel.task old) a) : mem a = m.kernel.mem a := by
  have fits := enter_fits rep i cur
  have below : ¬ Memory.Within ((m.kernel.task old).kernelStackTop - kstackSize)
      ((m.enter i).2 - ((m.kernel.task old).kernelStackTop - kstackSize)).toNat a := by
    intro inside
    exact off (Nat.lt_of_lt_of_le inside (by omega))
  rw [used old _ cur rfl a below]
  refine Memory.pushAll_outside ?_ fun inside => off (inside.inside fits (by decide))
  have := enter_length m.cpu i
  omega

theorem enter_plain (c : Context) {i : Interrupt} (plain : i.errorCode = none) :
    (hardwareFrame c i.errorCode ++ pushOrder.map c.regs).length = 20 := by
  rw [plain]
  rfl

/-- An interrupt without error code pushes the frame of the context that it interrupts. -/
theorem enter_words (m : Machine) {i : Interrupt} (plain : i.errorCode = none) :
    (m.enter i).1.readWords (m.enter i).2 20 = frameWords m.cpu := by
  have length := enter_plain m.cpu plain
  have small : 8 * (hardwareFrame m.cpu i.errorCode ++ pushOrder.map m.cpu.regs).length ≤
      2 ^ 64 := by
    rw [length]
    decide
  have pushed := Memory.pushAll_words m.kernel.mem m.entryStack small
  rw [length] at pushed
  apply pushed.trans
  rw [plain]
  exact pushed_frameWords m.cpu

/-- The handler of an interrupt without error code runs above the frame of the context that it
interrupted. -/
theorem enter_frame (rep : Represents faulted m p) {i : Interrupt} {old : TaskRef}
    (cur : m.kernel.Current old) {mem : Memory}
    (used : Machine.StackUsed m.kernel (m.enter i).2 (m.enter i).1 mem)
    (plain : i.errorCode = none) : mem.readWords (m.enter i).2 20 = frameWords m.cpu := by
  have fits := enter_fits rep i cur
  rw [enter_plain m.cpu plain] at fits
  have size : kstackSize.toNat = 32768 := rfl
  have kept : mem.readWords (m.enter i).2 20 = (m.enter i).1.readWords (m.enter i).2 20 := by
    refine Memory.readWords_congr (by decide) fun a inside => ?_
    exact used old _ cur rfl a (inside.above (by omega))
  rw [kept]
  exact enter_words m plain

/-- The interrupt of process `old` leaves the saved contexts of the others. -/
theorem others_framed (rep : Represents faulted m p) {i : Interrupt} {old t : TaskRef} {j : Nat}
    (cur : m.kernel.Current old) {mem : Memory}
    (used : Machine.StackUsed m.kernel (m.enter i).2 (m.enter i).1 mem)
    (found : m.kernel.taskList[j]? = some t) (ne : t ≠ old)
    (ready : faulted → (m.kernel.task t).state = .ready) :
    Framed mem (m.kernel.task t) (p.context j) := by
  have elsewhere : j ≠ p.running := by
    rintro rfl
    rw [← rep.running] at found
    exact ne (Option.some.inj (found.symm.trans cur))
  refine (rep.saved j t found elsewhere ready).congr fun a on => ?_
  exact enter_outside rep cur used
    (rep.layout.apart t (List.mem_of_getElem? found) old cur.mem ne a on)

/-- What an interrupt of process `old` leaves, whichever process runs next: of every other one, what
it has saved is still there. -/
structure Carried (faulted : Bool) (m : Machine) (p : Processes) (old : TaskRef) (k : Kernel) :
    Prop where
  sound : k.Sound
  layout : k.Layout
  mailboxes : ∀ t, (k.task t).mailbox = none
  alive : faulted = false → ∀ t ∈ k.taskList, (k.task t).state ≠ .terminated
  taskList : k.taskList = m.kernel.taskList
  top : ∀ t ∈ k.taskList, (k.task t).kernelStackTop = (m.kernel.task t).kernelStackTop
  others : ∀ j t, k.taskList[j]? = some t → t ≠ old →
    (k.task t).kernelRsp = (m.kernel.task t).kernelRsp →
    (faulted → (k.task t).state = .ready) → Framed k.mem (k.task t) (p.context j)

section

variable {old : TaskRef} {k : Kernel}

theorem Represents.carried (rep : Represents faulted m p) {i : Interrupt} {r : UInt64}
    {mem : Memory} (cur : m.kernel.Current old)
    (handled : { m.kernel with mem := (m.enter i).1 }.step (i.event (m.enter i).2) =
      .ok (some r, k))
    (kept : Kept i.errorCode.isSome { m.kernel with mem := (m.enter i).1 } k)
    (used : Machine.StackUsed m.kernel (m.enter i).2 (m.enter i).1 mem) :
    Carried (faulted || i.errorCode.isSome) m p old { k with mem := mem } := by
  have sound0 : Sound { m.kernel with mem := (m.enter i).1 } :=
    rep.sound.congr rfl rfl (Nat.le_refl _) rfl
  have sound : k.Sound := sound0.step ⟨_, handled⟩
  have same := sound0.sameTasks ⟨_, handled⟩
  have layout0 : Layout { m.kernel with mem := (m.enter i).1 } :=
    ⟨rep.layout.nodup, rep.layout.apart, rep.layout.shielded⟩
  have layout : k.Layout := layout0.sameTasks sound0 same kept.pages
  have taskList : k.taskList = m.kernel.taskList := same.taskList
  have top : ∀ t ∈ m.kernel.taskList,
      (k.task t).kernelStackTop = (m.kernel.task t).kernelStackTop :=
    fun t ht => same.stack t (rep.sound.processes t ht)
  refine
    { sound := sound.congr rfl rfl (Nat.le_refl _) rfl
      layout := ⟨layout.nodup, layout.apart, layout.shielded⟩
      mailboxes := kept.mailboxes
      alive := fun none_yet t ht dead => ?_
      taskList := taskList
      top := fun t ht => top t (taskList ▸ ht)
      others := fun j t found ne saved ready => ?_ }
  · obtain ⟨before, quiet⟩ := Bool.or_eq_false_iff.mp none_yet
    have listed : t ∈ m.kernel.taskList := taskList ▸ ht
    exact rep.alive before t listed (kept.ended quiet t dead)
  · have found0 : m.kernel.taskList[j]? = some t := taskList ▸ found
    have ready0 : faulted → (m.kernel.task t).state = .ready :=
      fun before => kept.ready t (ready (by rw [before, Bool.true_or]))
    have framed := others_framed rep cur used found0 ne ready0
    exact framed.task saved (top t (List.mem_of_getElem? found0))

/-- The handler returns to the process that it interrupted. -/
theorem Represents.stays (rep : Represents faulted m p) (cur : m.kernel.Current old) {late : Bool}
    (carried : Carried late m p old k) (idx : k.currentTaskIdx = m.kernel.currentTaskIdx)
    (rsp0 : k.rsp0 = m.kernel.rsp0)
    (saved : ∀ t, (k.task t).kernelRsp = (m.kernel.task t).kernelRsp) :
    Represents late ⟨m.cpu, k⟩ p := by
  have cur' : k.Current old := by
    rw [Kernel.Current, carried.taskList, idx]
    exact cur
  refine
    { sound := carried.sound
      layout := carried.layout
      mailboxes := carried.mailboxes
      alive := carried.alive
      userMode := rep.userMode
      running := idx.trans rep.running
      cpu := rep.cpu
      rsp0 := fun t again => ?_
      saved := fun j t found ne ready => carried.others j t found ?_ (saved t) ready }
  · obtain rfl := cur'.unique again
    exact rsp0.trans ((rep.rsp0 t cur).trans (carried.top t cur'.mem).symm)
  · rintro rfl
    exact ne ((cur'.index carried.layout.nodup found).symm.trans (idx.trans rep.running))

/-- The handler saves the frame of `old` and returns to the saved context of `new`. -/
theorem Represents.moves (rep : Represents faulted m p) {i : Interrupt} {mem : Memory}
    {new : TaskRef} (cur : m.kernel.Current old) {late : Bool}
    (carried : Carried late m p old { k with mem := mem })
    (used : Machine.StackUsed m.kernel (m.enter i).2 (m.enter i).1 mem) (selected : k.Current new)
    (other : new ≠ old) (rsp0 : k.rsp0 = (k.task new).kernelStackTop)
    (frame : (k.task old).kernelRsp = (m.enter i).2)
    (saved : ∀ t, t ≠ old → (k.task t).kernelRsp = (m.kernel.task t).kernelRsp)
    (dead : i.errorCode.isSome → late ∧ (k.task old).state = .terminated)
    (ready : late → (k.task new).state = .ready) (regs : Reg → UInt64) :
    Represents late ⟨returnTo mem regs (k.task new).kernelRsp, { k with mem := mem }⟩
      { p with running := k.currentTaskIdx } := by
  have framed := carried.others _ new selected other (saved new other) ready
  refine
    { sound := carried.sound
      layout := carried.layout
      mailboxes := carried.mailboxes
      alive := carried.alive
      userMode := rep.userMode
      running := rfl
      cpu := returnTo_frame framed.1
      rsp0 := fun t again => ?_
      saved := fun j t found ne unblocked => ?_ }
  · obtain rfl := selected.unique again
    exact rsp0
  · rcases eq_or_ne t old with rfl | ne_old
    · -- A fault leaves `old` dead, so here the frame of `old` has no error code.
      have plain : i.errorCode = none := by
        by_contra faulty
        obtain ⟨fault, gone⟩ := dead (Option.isSome_iff_ne_none.mpr faulty)
        rw [show (k.task t).state = .ready from unblocked fault] at gone
        cases gone
      have here : m.kernel.currentTaskIdx = j :=
        cur.index rep.layout.nodup (carried.taskList ▸ found)
      have fits := enter_fits rep i cur
      rw [enter_plain m.cpu plain] at fits
      show Framed mem (k.task t) (p.context j)
      rw [← here, rep.running, ← rep.cpu, Framed, frame,
        carried.top t (List.mem_of_getElem? found)]
      exact ⟨enter_frame rep cur used plain, fits⟩
    · exact carried.others j t found ne_old (saved t ne_old) unblocked

end

/-- An interrupt lets the process run that `CURRENT_TASK_IDX` names after it, in the context that it
has. -/
theorem Represents.interrupt (rep : Represents faulted m p) {i : Interrupt}
    (step : m.Step (.interrupt i) m')
    (live : faulted || i.errorCode.isSome → ∃ j, m'.kernel.readyAt j) :
    Represents (faulted || i.errorCode.isSome) m'
      (p.after m'.kernel.currentTaskIdx (.interrupt i)) := by
  obtain ⟨r, k, mem, regs, handled, used, rfl⟩ := step
  obtain ⟨old, cur⟩ := rep.sound.current
  have sound0 : Sound { m.kernel with mem := (m.enter i).1 } :=
    rep.sound.congr rfl rfl (Nat.le_refl _) rfl
  have dispatch := interrupt_dispatch sound0 rep.layout.nodup cur handled
  have kept := interrupt_kept sound0 rep.mailboxes handled
  rw [kept.mem] at used
  have carried := rep.carried cur handled kept used
  cases dispatch with
  | stays quiet idx rsp0 saved =>
    have plain : i.errorCode = none := by simpa using quiet
    have same : p.after k.currentTaskIdx (.interrupt i) = p := by
      rw [show k.currentTaskIdx = p.running from idx.trans rep.running]
      rfl
    show Represents _ _ (p.after k.currentTaskIdx (.interrupt i))
    rw [returnTo_frame (enter_frame rep cur used plain), same]
    exact rep.stays cur carried idx rsp0 saved
  | @moves new selected rsp0 frame saved dead ready itself =>
    have other : new ≠ old := by
      intro again
      have gone := itself again
      by_cases clean : (faulted || i.errorCode.isSome) = false
      · exact carried.alive clean old (again ▸ selected.mem) gone
      · have unblocked := ready (live (Bool.eq_true_of_not_eq_false clean))
        rw [again, gone] at unblocked
        cases unblocked
    have fault : i.errorCode.isSome →
        (faulted || i.errorCode.isSome) ∧ (k.task old).state = .terminated :=
      fun isSome => ⟨by rw [isSome, Bool.or_true], dead isSome⟩
    exact rep.moves cur carried used selected other rsp0 frame saved fault
      (fun late => ready (live late)) regs

/-! ### Boot -/

/-- The kernel stacks that the heap hands out are apart, and on pages that user code cannot
access. -/
structure KernelStacks (images : List Image) (pages : UInt64 → Option PageFlags) : Prop where
  apart : images.Pairwise fun a b => ∀ x, Memory.Within a.kstack kstackSize.toNat x →
    ¬ Memory.Within b.kstack kstackSize.toNat x
  shielded : ∀ image ∈ images, ∀ x, Memory.Within image.kstack kstackSize.toNat x →
    ((pages (x / 4096)).map PageFlags.userAccessible).getD false = false

theorem firstFrame_words (image : Image) :
    (firstFrame image.entry image.userStackTop).reverse =
      frameWords (Processes.firstContext image) := rfl

theorem firstFrame_small (image : Image) :
    8 * (firstFrame image.entry image.userStackTop).length ≤ 2 ^ 64 := by
  rw [firstFrame_length]
  decide

theorem firstFrame_fits (kstack : UInt64) :
    (kstack + kstackSize - 160 - kstack).toNat + 8 * 20 ≤ kstackSize.toNat := by
  have := kstack.toNat_lt
  rw [show kstackSize = 32768 from rfl]
  simp only [UInt64.toNat_sub, UInt64.toNat_add, UInt64.reduceToNat]
  omega

theorem firstFrame_pointer (mem : Memory) (image : Image) :
    (mem.pushAll (image.kstack + kstackSize) (firstFrame image.entry image.userStackTop)).2 =
      image.kstack + kstackSize - 160 :=
  Memory.pushAll_pointer

theorem addProcess_outside {k : Kernel} {image : Image} {x : UInt64}
    (off : ¬ Memory.Within image.kstack kstackSize.toNat x) :
    (k.addProcess image).mem x = k.mem x := by
  refine (Memory.pushAll_outside (firstFrame_small image) fun inside => off ?_).trans (if_neg off)
  rw [firstFrame_pointer] at inside
  exact inside.inside (firstFrame_fits image.kstack) (by decide)

theorem addProcess_frame (k : Kernel) (image : Image) :
    (k.addProcess image).mem.readWords (image.kstack + kstackSize - 160) 20 =
      frameWords (Processes.firstContext image) := by
  have pushed := Memory.pushAll_words
    (fun a => if Memory.Within image.kstack kstackSize.toNat a then 0 else k.mem a)
    (image.kstack + kstackSize) (firstFrame_small image)
  rw [firstFrame_pointer, firstFrame_words] at pushed
  exact pushed

/-- Every process that `kernel_main` has created has its first context on its kernel stack. -/
theorem createProcesses_frames {mem : Memory} {pages : UInt64 → Option PageFlags}
    (apart : images.Pairwise fun a b => ∀ x, Memory.Within a.kstack kstackSize.toNat x →
      ¬ Memory.Within b.kstack kstackSize.toNat x) {image : Image} (listed : image ∈ images) :
    ((initial mem pages).createProcesses images).mem.readWords
        (image.kstack + kstackSize - 160) 20 = frameWords (Processes.firstContext image) := by
  induction images using List.reverseRecOn with
  | nil => cases listed
  | append_singleton images last ih =>
    obtain ⟨before, -, off_last⟩ := List.pairwise_append.mp apart
    rw [createProcesses_snoc]
    rcases List.mem_append.mp listed with old | new
    · rw [Memory.readWords_congr (by decide) fun x inside => ?_, ih before old]
      apply addProcess_outside
      have on : Memory.Within image.kstack kstackSize.toNat x :=
        inside.inside (firstFrame_fits image.kstack) (by decide)
      exact off_last image old last List.mem_cons_self x on
    · rw [List.mem_singleton.mp new]
      exact addProcess_frame _ last

theorem createProcesses_pages (images : List Image) (mem : Memory)
    (pages : UInt64 → Option PageFlags) :
    ((initial mem pages).createProcesses images).pages = pages := by
  induction images using List.reverseRecOn with
  | nil => rfl
  | append_singleton images image ih =>
    rw [createProcesses_snoc]
    exact ih

theorem onStack_process (i : Nat) (image : Image) (a : UInt64) :
    OnStack (processOf i image) a ↔ Memory.Within image.kstack kstackSize.toNat a := by
  rw [OnStack, show (processOf i image).kernelStackTop = image.kstack + kstackSize from rfl,
    UInt64.add_sub_cancel]

theorem kernelMain_layout {k : Kernel} {top : UInt64} {mem : Memory}
    {pages : UInt64 → Option PageFlags} (apart : KernelStacks images pages)
    (main : kernelMain images top mem pages = .ok k) : k.Layout := by
  obtain ⟨taskList, -, -, process⟩ := kernelMain_processes main
  have pages_eq : k.pages = pages := by
    obtain ⟨k1, q, image, -, rfl, -, -, rfl⟩ := kernelMain_eq main
    exact createProcesses_pages images mem pages
  have on : ∀ t (inside : t < images.length) a, OnStack (k.task t) a ↔
      Memory.Within images[t].kstack kstackSize.toNat a := by
    intro t inside a
    rw [process t images[t] (List.getElem?_eq_getElem inside)]
    exact onStack_process t images[t] a
  have listed : ∀ t ∈ k.taskList, t < images.length := by
    intro t ht
    rw [taskList] at ht
    exact List.mem_range.mp ht
  have pairs := List.pairwise_iff_getElem.mp apart.apart
  refine ⟨by rw [taskList]; exact List.nodup_range, fun t ht u hu ne a here there => ?_,
    fun t ht a here => ?_⟩
  · have it := listed t ht
    have iu := listed u hu
    rw [on t it] at here
    rw [on u iu] at there
    rcases Nat.lt_or_gt_of_ne ne with lt | gt
    · exact pairs t u it iu lt a here there
    · exact pairs u t iu it gt a there here
  · have it := listed t ht
    have hidden := apart.shielded images[t] (List.getElem_mem it) a ((on t it a).mp here)
    rw [userCanWrite, pages_eq, hidden, Bool.and_false]

theorem kernelMain_frames {k : Kernel} {top : UInt64} {mem : Memory}
    {pages : UInt64 → Option PageFlags} (apart : KernelStacks images pages)
    (main : kernelMain images top mem pages = .ok k) {i : Nat} {image : Image}
    (found : images[i]? = some image) :
    Framed k.mem (k.task i) (Processes.firstContext image) := by
  obtain ⟨-, -, -, process⟩ := kernelMain_processes main
  rw [Framed, process i image found]
  obtain ⟨k1, q, -, -, rfl, -, -, rfl⟩ := kernelMain_eq main
  refine ⟨createProcesses_frames apart.apart (List.mem_of_getElem? found), ?_⟩
  show (image.kstack + kstackSize - 160 - (image.kstack + kstackSize - kstackSize)).toNat + _ ≤ _
  rw [UInt64.add_sub_cancel]
  exact firstFrame_fits image.kstack

theorem boots_represents {top : UInt64} {mem : Memory} {pages : UInt64 → Option PageFlags}
    (apart : KernelStacks images pages) (boots : Machine.Boots images top mem pages m) :
    Represents false m (.start images) := by
  obtain ⟨k, first, regs, main, found, rfl⟩ := boots
  have rested := kernelMain_rested main
  obtain ⟨taskList, idx, -, process⟩ := kernelMain_processes main
  have listed : ∀ {i : Nat} {t : TaskRef}, k.taskList[i]? = some t →
      ∃ image, images[i]? = some image ∧ t = i := by
    intro i t here
    rw [taskList] at here
    obtain ⟨inside, same⟩ := List.getElem?_eq_some_iff.mp here
    rw [List.length_range] at inside
    rw [List.getElem_range] at same
    exact ⟨images[i], List.getElem?_eq_getElem inside, same.symm⟩
  have context : ∀ {i : Nat} {image}, images[i]? = some image →
      (Processes.start images).context i = Processes.firstContext image := by
    intro i image here
    simp only [Processes.start, here, Option.getD_some]
  refine
    { sound := rested.sound
      layout := kernelMain_layout apart main
      mailboxes := rested.mailboxes
      alive := fun _ t ht => ?_
      userMode := fun i => by show (userCodeSelector ||| 3) % 4 = 3; decide
      running := idx
      cpu := ?_
      rsp0 := fun t cur => ?_
      saved := fun i t here _ _ => ?_ }
  · obtain ⟨i, there⟩ := List.mem_iff_getElem?.mp ht
    obtain ⟨image, here, rfl⟩ := listed there
    show (k.task t).state ≠ .terminated
    rw [process t image here]
    exact TaskState.noConfusion
  · obtain ⟨image, here, rfl⟩ := listed found
    show returnTo k.mem regs (k.task 0).kernelRsp = (Processes.start images).context 0
    rw [context here]
    exact returnTo_frame (kernelMain_frames apart main here).1
  · have at_zero : k.taskList[0]? = some t := by
      rw [← idx]
      exact cur
    obtain ⟨image, here, rfl⟩ := listed at_zero
    rw [process 0 image here]
    obtain ⟨k1, q, image', -, -, here', -, rfl⟩ := kernelMain_eq main
    rw [here] at here'
    cases here'
    rfl
  · obtain ⟨image, there, rfl⟩ := listed here
    rw [context there]
    exact kernelMain_frames apart main there

/-! ### Runs -/

/-- A step of the machine, with whether a fault has happened yet.  From the first fault on, some
process remains `Ready`. -/
def LiveStep (s : Machine × Bool) (a : Action) (s' : Machine × Bool) : Prop :=
  s.1.Step a s'.1 ∧ s'.2 = (s.2 || a.isFault) ∧ (s'.2 → ∃ i, s'.1.kernel.readyAt i)

/-- The machine and its processes take a step together: after an interrupt the process runs that
`CURRENT_TASK_IDX` names. -/
def Lockstep (s : (Machine × Bool) × Processes) (a : Action) (s' : (Machine × Bool) × Processes) :
    Prop :=
  LiveStep s.1 a s'.1 ∧ s'.2 = s.2.after s'.1.1.kernel.currentTaskIdx a

theorem represents_step {s s' : (Machine × Bool) × Processes} {a : Action}
    (rep : Represents s.1.2 s.1.1 s.2) (step : Lockstep s a s') :
    Represents s'.1.2 s'.1.1 s'.2 := by
  obtain ⟨⟨step, late, live⟩, follows⟩ := step
  rw [late] at live ⊢
  rw [follows]
  cases a with
  | user c f =>
    rw [show (Action.user c f).isFault = false from rfl, Bool.or_false]
    exact rep.user step
  | interrupt i => exact rep.interrupt step live

/-- The processes follow every run of the machine. -/
theorem lockstep_run {s0 s : Machine × Bool} {actions : List Action} (p0 : Processes)
    (run : Run LiveStep s0 actions s) : ∃ p, Run Lockstep (s0, p0) actions (s, p) := by
  induction run with
  | nil => exact ⟨p0, .nil⟩
  | @snoc actions a mid last _ step ih =>
    obtain ⟨p, before⟩ := ih
    have both : Lockstep (mid, p) a (last, p.after last.1.kernel.currentTaskIdx a) := ⟨step, rfl⟩
    exact ⟨_, before.snoc both⟩

/-- The machine that `kernel_main` starts refines its processes, in lockstep.  Whatever state a run
has reached, the processor holds the context of the process that runs, which `CURRENT_TASK_IDX`
names and on whose kernel stack the next interrupt is taken; and every other process, unless it is
not `Ready` after a fault, has the context that it was interrupted in on its own kernel stack. -/
theorem contexts_preserved {top : UInt64} {mem : Memory} {pages : UInt64 → Option PageFlags}
    {actions : List Action} {m0 : Machine} (apart : KernelStacks images pages)
    (boots : Machine.Boots images top mem pages m0)
    (run : Run Lockstep ((m0, false), .start images) actions ((m, faulted), p)) :
    m.cpu = p.context p.running ∧ m.kernel.currentTaskIdx = p.running ∧
      (∃ t, m.kernel.taskList[p.running]? = some t ∧
        m.kernel.rsp0 = (m.kernel.task t).kernelStackTop) ∧
      ∀ (i : Nat) t, m.kernel.taskList[i]? = some t → i ≠ p.running →
        (faulted → (m.kernel.task t).state = .ready) →
        Framed m.kernel.mem (m.kernel.task t) (p.context i) := by
  have rep : Represents faulted m p :=
    run.invariant (I := fun s => Represents s.1.2 s.1.1 s.2) (boots_represents apart boots)
      fun _ _ _ rep step => represents_step rep step
  obtain ⟨t, cur⟩ := rep.sound.current
  refine ⟨rep.cpu, rep.running, ⟨t, ?_, rep.rsp0 t cur⟩, rep.saved⟩
  rw [← rep.running]
  exact cur

theorem heapBoot_stacks : KernelStacks heapImages heapPages where
  apart := by
    refine List.pairwise_pair.mpr fun x first second => ?_
    have := x.toNat_lt
    simp only [Memory.Within, UInt64.toNat_sub, UInt64.reduceToNat] at first second
    have size : kstackSize.toNat = 32768 := rfl
    omega
  shielded := by
    have high : ∀ x : UInt64, 0x444444440000 ≤ x.toNat → heapPages (x / 4096) = none := by
      intro x above
      simp only [heapPages, setupUserStack, UInt64.le_iff_toNat_le, UInt64.lt_iff_toNat_lt,
        UInt64.toNat_div, UInt64.toNat_add, UInt64.reduceToNat]
      rw [if_neg (by omega), if_neg (by omega)]
    intro image listed x inside
    have size : kstackSize.toNat = 32768 := rfl
    have := x.toNat_lt
    rcases List.mem_pair.mp listed with rfl | rfl
    all_goals
      simp only [Memory.Within, UInt64.toNat_sub, UInt64.reduceToNat] at inside
      rw [high x (by omega)]
      rfl

/-! A process that is interrupted, and is resumed after another one has run. -/

/-- User code of a process, with `r` in every register. -/
def userContext (r rsp : UInt64) : Context where
  regs _ := r
  rip := 0x400010
  cs := userCodeSelector ||| 3
  rflags := 0x202
  rsp := rsp
  ss := userDataSelector ||| 3

/-- User code runs, and the fifth tick from then on ends the turn. -/
def turn (scripts : List PollScript) (c : Context) : List Action :=
  [.user c fun _ => 0, .interrupt (.timer scripts)] ++ List.replicate 4 (.interrupt (.timer []))

/-- What the turn of a process leaves is its context, and the process that runs next. -/
theorem turn_run {m1 m2 m3 m4 m5 : Machine} {c : Context} {scripts : List PollScript}
    (ring3 : c.cs % 4 = 3)
    (tick1 : Machine.Step ⟨c, m.kernel.userWrites fun _ => 0⟩ (.interrupt (.timer scripts)) m1)
    (tick2 : m1.Step (.interrupt (.timer [])) m2) (tick3 : m2.Step (.interrupt (.timer [])) m3)
    (tick4 : m3.Step (.interrupt (.timer [])) m4) (tick5 : m4.Step (.interrupt (.timer [])) m5) :
    Run Lockstep ((m, false), p) (turn scripts c)
      ((m5, false), ⟨m5.kernel.currentTaskIdx, Function.update p.context p.running c⟩) := by
  have together : ∀ {m m' : Machine} {p : Processes} {a : Action}, a.isFault = false →
      m.Step a m' → Lockstep ((m, false), p) a
        ((m', false), p.after m'.kernel.currentTaskIdx a) := by
    intro m m' p a plain step
    refine ⟨⟨step, ?_, fun faulted => nomatch faulted⟩, rfl⟩
    rw [plain]
    rfl
  have runs : m.Step (.user c fun _ => 0) ⟨c, m.kernel.userWrites fun _ => 0⟩ := ⟨ring3, rfl⟩
  exact (Run.single (together rfl runs)).snoc (together rfl tick1) |>.snoc (together rfl tick2)
    |>.snoc (together rfl tick3) |>.snoc (together rfl tick4) |>.snoc (together rfl tick5)

/-- A handler that leaves the stack below its frame as it was. -/
theorem clean_step {i : Interrupt} {r : UInt64} {k : Kernel}
    (handled : { m.kernel with mem := (m.enter i).1 }.step (i.event (m.enter i).2) =
      .ok (some r, k)) : m.Step (.interrupt i) ⟨returnTo k.mem (fun _ => 0) r, k⟩ :=
  ⟨r, k, k.mem, fun _ => 0, handled, fun _ _ _ _ _ _ => rfl, rfl⟩

/-- The first process is interrupted, the second one has a turn, and the first one goes on with the
registers that it had. -/
theorem contexts_preserved_turns : ∃ m0 m p,
    Machine.Boots heapImages 0x444444454000 (fun _ => 0) heapPages m0 ∧
      Run Lockstep ((m0, false), .start heapImages)
        (turn [.ready] (userContext 7 0x30007000) ++ turn [] (userContext 9 0x40007000))
        ((m, false), p) ∧
      m.cpu = userContext 7 0x30007000 := by
  have evaluated : ∃ m0 m1 m2 m3 m4 m5 m6 m7 m8 m9 m : Machine,
      Machine.Boots heapImages 0x444444454000 (fun _ => 0) heapPages m0 ∧
      Machine.Step ⟨userContext 7 0x30007000, m0.kernel.userWrites fun _ => 0⟩
        (.interrupt (.timer [.ready])) m1 ∧
      m1.Step (.interrupt (.timer [])) m2 ∧ m2.Step (.interrupt (.timer [])) m3 ∧
      m3.Step (.interrupt (.timer [])) m4 ∧ m4.Step (.interrupt (.timer [])) m5 ∧
      m5.kernel.currentTaskIdx = 1 ∧
      Machine.Step ⟨userContext 9 0x40007000, m5.kernel.userWrites fun _ => 0⟩
        (.interrupt (.timer [])) m6 ∧
      m6.Step (.interrupt (.timer [])) m7 ∧ m7.Step (.interrupt (.timer [])) m8 ∧
      m8.Step (.interrupt (.timer [])) m9 ∧ m9.Step (.interrupt (.timer [])) m ∧
      m.kernel.currentTaskIdx = 0 :=
    ⟨_, _, _, _, _, _, _, _, _, _, _, ⟨_, 0, fun _ => 0, rfl, rfl, rfl⟩, clean_step rfl,
      clean_step rfl, clean_step rfl, clean_step rfl, clean_step rfl, rfl, clean_step rfl,
      clean_step rfl, clean_step rfl, clean_step rfl, clean_step rfl, rfl⟩
  obtain ⟨m0, m1, m2, m3, m4, m5, m6, m7, m8, m9, m, boots, tick1, tick2, tick3, tick4, tick5,
    second, tick6, tick7, tick8, tick9, tick10, first⟩ := evaluated
  have run := (turn_run (p := .start heapImages) (by decide) tick1 tick2 tick3 tick4 tick5).append
    (turn_run (by decide) tick6 tick7 tick8 tick9 tick10)
  obtain ⟨cpu, -⟩ := contexts_preserved heapBoot_stacks boots run
  refine ⟨m0, m, _, boots, run, cpu.trans ?_⟩
  show Function.update (Function.update _ 0 _) m5.kernel.currentTaskIdx _
    m.kernel.currentTaskIdx = _
  rw [second, first, Function.update_of_ne (by decide), Function.update_self]

end Microkernel
