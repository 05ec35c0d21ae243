import Microkernel.Proof.Handover

/-! The message pointers of `SYS_SEND` and `SYS_RECV`.  They are used in ring 0, where any page
that is present can be read and any writable one written: what confines a call to the pages of the
user is its pointer. -/

namespace Microkernel

open Lib

namespace Kernel

open Sys

variable {k : Kernel} {ptr id arg1 arg2 : UInt64}

/-- The byte at `a` is in a page mapped `USER_ACCESSIBLE`. -/
def userByte (k : Kernel) (a : UInt64) : Bool :=
  canonical a && ((k.pages (a / 4096)).map PageFlags.userAccessible).getD false

/-- The forty bytes of a message at `ptr` are in such pages. -/
def UserMessage (k : Kernel) (ptr : UInt64) : Prop := ∀ i < 40, k.userByte (ptr + UInt64.ofNat i)

instance (ptr : UInt64) : Decidable (k.UserMessage ptr) := inferInstanceAs (Decidable (∀ i < 40, _))

/-- The kernel with only the pages of the user, all of them writable: there a call faults when it
accesses a byte that is not in one of them, and only then. -/
def userOnly (k : Kernel) : Kernel :=
  { k with pages := fun page =>
      if ((k.pages page).map PageFlags.userAccessible).getD false then some ⟨true, true, false⟩
      else none }

/-- The argument of a system call that is a message pointer. -/
def messagePointer (id arg1 arg2 : UInt64) : Option UInt64 :=
  if id = 10 then some arg2 else if id = 11 then some arg1 else none

/-- What a system call returns once it has used its message pointer. -/
def success (id : UInt64) : UInt64 := if id = 10 then 0 else 1

/-- Every byte that the call accesses through its message pointer is in a page of the user, and with
any other pointer it reports no success and changes nothing. -/
structure Confined (k : Kernel) (id arg1 arg2 : UInt64) : Prop where
  accesses : ∀ mid, (handleSyscall id arg1 arg2).run k.userOnly ≠ .fault mid
  refused : ∀ ptr, messagePointer id arg1 arg2 = some ptr → ¬ k.UserMessage ptr →
    ∃ value, value ≠ success id ∧ (handleSyscall id arg1 arg2).run k = .done value k

/-- A pointer that the call uses points at pages of the user: `SYS_SEND` uses one that it does not
find too low, and `SYS_RECV` one for which a message waits. -/
def PointsAtUser (k : Kernel) (id arg1 arg2 : UInt64) : Prop :=
  (id = 10 → 0x20000000 ≤ arg2 → k.UserMessage arg2) ∧
    (id = 11 → k.isHeld .initMailbox = false → k.initMailbox ≠ none → k.UserMessage arg1)

theorem userOnly_canRead (a : UInt64) : k.userOnly.canRead a = k.userByte a := by
  simp only [canRead, userOnly, userByte]
  split
  next user => rw [user, Option.isSome_some]
  next hidden => rw [Option.isSome_none, Bool.eq_false_of_not_eq_true hidden]

theorem userOnly_canWrite (a : UInt64) : k.userOnly.canWrite a = k.userByte a := by
  simp only [canWrite, userOnly, userByte]
  split
  next user => rw [user, Option.map_some, Option.getD_some]
  next hidden => rw [Option.map_none, Option.getD_none, Bool.eq_false_of_not_eq_true hidden]

theorem userOnly_readable : k.userOnly.Readable ptr 40 ↔ k.UserMessage ptr := by
  simp only [Readable, UserMessage, userOnly_canRead]

theorem userOnly_writable : Writable k.userOnly ptr 40 ↔ k.UserMessage ptr := by
  simp only [Writable, UserMessage, userOnly_canWrite]

/-- `SYS_SEND` reads its message before it looks for the target. -/
theorem send_confined (quiet : k.Quiet) :
    k.Confined 10 arg1 arg2 ↔ (0x20000000 ≤ arg2 → k.UserMessage arg2) := by
  have real : (handleSyscall 10 arg1 arg2).run k = _ := sysSend_eq quiet arg1 arg2
  have trapped : (handleSyscall 10 arg1 arg2).run k.userOnly = _ :=
    sysSend_eq (k := k.userOnly) quiet arg1 arg2
  by_cases low : arg2 < 0x20000000
  · rw [if_pos low] at real trapped
    refine iff_of_true ⟨fun mid faulted => ?_, fun ptr _ _ => ⟨2, by decide, real⟩⟩ fun high => ?_
    · rw [trapped] at faulted
      cases faulted
    · exact absurd low (UInt64.not_lt.mpr high)
  · rw [if_neg low] at trapped
    have high : 0x20000000 ≤ arg2 := UInt64.not_lt.mp low
    constructor
    · intro confined _
      by_contra other
      rw [if_neg fun readable => other (userOnly_readable.mp readable)] at trapped
      exact confined.accesses _ trapped
    · intro points
      have user := points high
      rw [if_pos (userOnly_readable.mpr user)] at trapped
      refine ⟨fun mid faulted => ?_, fun ptr found other => ?_⟩
      · rw [trapped] at faulted
        split at faulted <;> cases faulted
      · obtain rfl : arg2 = ptr := Option.some.inj found
        exact absurd user other

/-- `SYS_RECV` stores the message that waits. -/
theorem recv_confined :
    k.Confined 11 arg1 arg2 ↔
      (k.isHeld .initMailbox = false → k.initMailbox ≠ none → k.UserMessage arg1) := by
  have call : handleSyscall 11 arg1 arg2 = sysRecv arg1 := rfl
  by_cases idle : k.isHeld .initMailbox = true ∨ k.initMailbox = none
  · have real : (sysRecv arg1).run k = .done 0 k := sysRecv_empty idle
    have trapped : (sysRecv arg1).run k.userOnly = .done 0 k.userOnly :=
      sysRecv_empty (k := k.userOnly) idle
    refine iff_of_true ⟨fun mid faulted => ?_, fun ptr _ _ => ⟨0, by decide, ?_⟩⟩
      fun free waits => ?_
    · rw [call, trapped] at faulted
      cases faulted
    · rw [call, real]
    · rcases idle with held | empty
      · rw [free] at held
        cases held
      · exact absurd empty waits
  · obtain ⟨free, waits⟩ := not_or.mp idle
    have free : k.isHeld .initMailbox = false := by simpa using free
    obtain ⟨msg, waiting⟩ := Option.ne_none_iff_exists'.mp waits
    constructor
    · intro confined _ _
      by_contra other
      have faulted := sysRecv_fault (k := k.userOnly) free waiting
        fun writable => other (userOnly_writable.mp writable)
      exact confined.accesses _ faulted
    · intro points
      have user := points free waits
      have stored := sysRecv_done (k := k.userOnly) free waiting (userOnly_writable.mpr user)
      refine ⟨fun mid faulted => ?_, fun ptr found other => ?_⟩
      · rw [call, stored] at faulted
        cases faulted
      · obtain rfl : arg1 = ptr := Option.some.inj found
        exact absurd user other

theorem confined_iff (quiet : k.Quiet) : k.Confined id arg1 arg2 ↔ k.PointsAtUser id arg1 arg2 := by
  by_cases send : id = 10
  · subst send
    rw [send_confined quiet]
    exact ⟨fun points => ⟨fun _ => points, fun recv => absurd recv (by decide)⟩,
      fun points => points.1 rfl⟩
  by_cases recv : id = 11
  · subst recv
    rw [recv_confined]
    exact ⟨fun points => ⟨fun send => absurd send (by decide), fun _ => points⟩,
      fun points => points.2 rfl⟩
  · have call := handleSyscall_call (k := k.userOnly) quiet id arg1 arg2
    refine iff_of_true ⟨fun mid faulted => ?_, fun ptr found => ?_⟩
      ⟨fun same => absurd same send, fun same => absurd same recv⟩
    · rw [faulted] at call
      cases call with
      | sendFault => exact send rfl
      | recvFault => exact recv rfl
    · rw [messagePointer, if_neg send, if_neg recv] at found
      cases found

/-- In every state that a run reaches, a system call is confined to the pages of the user exactly
when the message pointer that it uses points at them. -/
theorem pointers_confined {k0 : Kernel} {es : List Event} (rested : k0.Rested)
    (run : Run Step k0 es k) (id arg1 arg2 : UInt64) :
    k.Confined id arg1 arg2 ↔ k.PointsAtUser id arg1 arg2 :=
  confined_iff (rested.sound.run run).quiet

/-- The first process sends a message from its stack, just after boot. -/
theorem pointers_confined_stack : ∃ k0, heapBoot = .ok k0 ∧ k0.Confined 10 3 0x30007000 := by
  have evaluated : ∃ k0, heapBoot = .ok k0 ∧ k0.pages = heapPages := ⟨_, rfl, rfl⟩
  obtain ⟨k0, boot, pages⟩ := evaluated
  have user : k0.UserMessage 0x30007000 := by
    simp only [UserMessage, userByte, pages]
    decide +kernel
  refine ⟨k0, boot, (pointers_confined (heapBoot_booted boot).toRested .nil 10 3 _).mpr ?_⟩
  exact ⟨fun _ _ => user, fun recv => absurd recv (by decide)⟩

/-- The pages of a boot in which the kernel's heap of 100 KiB is mapped, for the kernel. -/
def kernelPages (page : UInt64) : Option PageFlags :=
  if 0x444444440 ≤ page ∧ page < 0x444444440 + 25 then some ⟨true, false, false⟩ else heapPages page

/-- A key is pressed, and `SYS_RECV` stores its message in the kernel's heap. -/
theorem recv_into_kernel : ∃ k0 k1 k2,
    kernelMain heapImages 0x444444454000 (fun _ => 0) kernelPages = .ok k0 ∧
      Run Step k0 [.keyboard 30 [.ready] 0x444444447f60] k1 ∧
      k1.Step (.syscall 11 0x444444440000 0 0x30007f00) k2 ∧
      k1.pages (0x444444440000 / 4096) = some ⟨true, false, false⟩ ∧
      k2.mem.readWords 0x444444440000 5 = [0, 1, 2, 30, 0] ∧
      ¬ k1.Confined 11 0x444444440000 0 := by
  have evaluated : ∃ k0 k1,
      kernelMain heapImages 0x444444454000 (fun _ => 0) kernelPages = .ok k0 ∧
      k0.Step (.keyboard 30 [.ready] 0x444444447f60) k1 ∧ k1.pages = kernelPages ∧
      k1.isHeld .initMailbox = false ∧ k1.initMailbox = some (deviceMessage 2 30) :=
    ⟨_, _, rfl, ⟨_, rfl⟩, rfl, rfl, rfl⟩
  obtain ⟨k0, k1, boot, step, pages, free, waiting⟩ := evaluated
  have writable : Writable k1 0x444444440000 40 := by
    simp only [Writable, canWrite, pages]
    decide +kernel
  have hidden : ¬ k1.UserMessage 0x444444440000 := by
    intro user
    have first := user 0 (by decide)
    simp only [userByte, pages] at first
    exact absurd first (by decide)
  have sound := (kernelMain_rested boot).sound.step step
  refine ⟨k0, k1, _, boot, .single step, recv_step 0 _ free waiting writable, ?_, ?_, ?_⟩
  · rw [pages]
    decide
  · exact (Memory.storeAll_words k1.mem _ (deviceMessage 2 30).words (by decide)).trans (by decide)
  · intro confined
    have points := (confined_iff sound.quiet).mp confined
    exact hidden (points.2 rfl free (by rw [waiting]; exact Option.some_ne_none _))

end Kernel

end Microkernel
