import Microkernel.Proof.Handover
import Microkernel.User

/-! What the serial port receives when the init program prints a string.  The program sends a byte
at a time; the kernel takes each for a character and sends that character's encoding. -/

namespace Microkernel

open Lib

/-! ### Bytes taken for characters -/

namespace User

/-- What the kernel sends for a byte: the encoding of the character with its number. -/
def encoded (b : UInt8) : List UInt8 := String.utf8EncodeChar (Char.ofUInt8 b)

theorem ofUInt8_size (b : UInt8) : (Char.ofUInt8 b).utf8Size = if b < 0x80 then 1 else 2 := by
  have bound := b.toNat_lt
  have value : (Char.ofUInt8 b).val.toNat = b.toNat := rfl
  unfold Char.utf8Size
  simp only [UInt32.le_iff_toNat_le, UInt32.toNat_ofNatLT, value, UInt8.lt_iff_toNat_lt,
    UInt8.reduceToNat]
  split
  · rw [if_pos (by omega)]
  · rw [if_pos (by omega), if_neg (by omega)]

theorem encoded_length (b : UInt8) : (encoded b).length = if b < 0x80 then 1 else 2 := by
  rw [encoded, String.length_utf8EncodeChar, ofUInt8_size]

theorem encoded_ascii {b : UInt8} (ascii : b < 0x80) : encoded b = [b] := by
  have size : (Char.ofUInt8 b).utf8Size = 1 := by rw [ofUInt8_size, if_pos ascii]
  have value : (Char.ofUInt8 b).val.toUInt8 = b := UInt8.toUInt8_toUInt32 b
  rw [encoded, String.utf8EncodeChar_eq_singleton size, value]

theorem encoded_longer (bs : List UInt8) : bs.length ≤ (bs.flatMap encoded).length := by
  induction bs with
  | nil => exact Nat.le_refl 0
  | cons b bs ih =>
    rw [List.flatMap_cons, List.length_append, encoded_length, List.length_cons]
    split <;> omega

/-- Bytes come out as they are exactly when each of them is ASCII: every other one comes out as
two. -/
theorem encoded_same_iff (bs : List UInt8) : bs.flatMap encoded = bs ↔ ∀ b ∈ bs, b < 0x80 := by
  induction bs with
  | nil => simp
  | cons b bs ih =>
    rw [List.flatMap_cons, List.forall_mem_cons]
    by_cases ascii : b < 0x80
    · rw [encoded_ascii ascii, List.singleton_append, List.cons_inj_right, ih]
      exact (and_iff_right ascii).symm
    · refine iff_of_false (fun same => ?_) fun all => ascii all.1
      have length := congrArg List.length same
      have longer := encoded_longer bs
      rw [List.length_append, encoded_length, if_neg ascii, List.length_cons] at length
      omega

end User

namespace Kernel

open User

variable {k k' : Kernel} {e : Event} {es : List Event}

/-! ### The port over a run -/

/-- The registers of a system call `SYS_PRINT`. -/
def printCall : Event → Option (UInt64 × UInt64)
  | .syscall id arg1 _ _ => if id = 1 then some (id, arg1) else none
  | _ => none

/-- What the kernel sends for a call. -/
def sends (call : UInt64 × UInt64) : List UInt8 := encoded call.2.toUInt8

theorem printed_keeps : StepKeeps (fun _ e => printCall e = none) fun after =>
    after.printed = k.printed where
  executor :=
    { wake := fun _ same => same
      receive := fun t cx same => (congrArg Fixed.printed (fixed_ipcReceivePoll t cx)).trans same
      polls := fun same ran => (congrArg Fixed.printed (fixed_pollKernelTasks ran)).trans same }
  tick same := same
  move _ _ same := same
  kill _ same := same
  post _ same := by
    unfold postInitMailbox
    split <;> exact same
  call _ silent call same := by
    cases call with
    | idle | sendFault | regService | recv | recvFault | setPriority | exit => exact same
    | @send t => exact (congrArg Fixed.printed (fixed_deliver t _)).trans same
    | print => cases silent
  user _ same := same
  spawn _ same run := by
    obtain ⟨-, q, -, rfl⟩ := spawnStatic_cases run
    exact same

theorem printed_step (sound : k.Sound) (step : k.Step e k') :
    k'.printed = k.printed ++ (printCall e).toList.flatMap sends := by
  cases call : printCall e with
  | none =>
    rw [printed_keeps.step sound rfl call step]
    exact (List.append_nil _).symm
  | some c =>
    unfold printCall at call
    split at call
    next id arg1 arg2 rsp =>
      split at call
      next print =>
        cases print
        cases call
        obtain ⟨out, run⟩ := step
        cases run
        exact congrArg (k.printed ++ ·) (List.append_nil _).symm
      next => cases call
    next => cases call

/-- The port receives the encodings of the bytes that are printed, in order. -/
theorem printed_run (sound : k.Sound) (run : Run Step k es k') :
    k'.printed = k.printed ++ (es.filterMap printCall).flatMap sends := by
  induction run with
  | nil => exact (List.append_nil _).symm
  | @snoc es e mid after before step ih =>
    rw [printed_step (sound.run before) step, ih, List.append_assoc, List.filterMap_append,
      List.flatMap_append]
    congr 2

theorem printStr_sends (s : String) : (printStr s).flatMap sends = (asBytes s).flatMap encoded := by
  rw [printStr, List.flatMap_map]
  congr 1
  funext b
  exact congrArg encoded (UInt8.toUInt8_toUInt64 b)

/-- In a run whose printing is that of `print_str(s)`, between any other events, the serial port
receives the bytes of `s` exactly when these are ASCII. -/
theorem print_transparent (sound : k.Sound) (run : Run Step k es k') (s : String)
    (calls : es.filterMap printCall = printStr s) :
    k'.printed = k.printed ++ asBytes s ↔ ∀ b ∈ asBytes s, b < 0x80 := by
  rw [printed_run sound run, calls, printStr_sends, List.append_right_inj, encoded_same_iff]

/-- The prompt of the init program. -/
theorem print_transparent_prompt : ∃ k0 k, heapBoot = .ok k0 ∧
    Run Step k0 [.syscall 1 0x3e 0 0x444444447f58, .syscall 1 0x20 0 0x444444447f58] k ∧
    k.printed = k0.printed ++ asBytes "> " := by
  have evaluated : ∃ k0 k1 k, heapBoot = .ok k0 ∧
      k0.Step (.syscall 1 0x3e 0 0x444444447f58) k1 ∧
      k1.Step (.syscall 1 0x20 0 0x444444447f58) k := ⟨_, _, _, rfl, ⟨_, rfl⟩, ⟨_, rfl⟩⟩
  obtain ⟨k0, k1, k, boot, first, second⟩ := evaluated
  have run := (Run.single first).snoc second
  have bytes : asBytes "> " = [0x3e, 0x20] := rfl
  have ascii : ∀ b ∈ asBytes "> ", b < 0x80 := by
    rw [bytes]
    exact List.forall_mem_cons.mpr ⟨by decide, List.forall_mem_singleton.mpr (by decide)⟩
  exact ⟨k0, k, boot, run,
    (print_transparent (heapBoot_booted boot).sound run "> " rfl).mpr ascii⟩

/-- The two bytes of a letter with an accent come out as four. -/
theorem print_doubled : ∃ k0 k, heapBoot = .ok k0 ∧
    Run Step k0 [.syscall 1 0xc3 0 0x444444447f58, .syscall 1 0xa9 0 0x444444447f58] k ∧
    printStr "é" = [(1, 0xc3), (1, 0xa9)] ∧ k0.printed = [] ∧
    k.printed = [0xc3, 0x83, 0xc2, 0xa9] ∧ k.printed ≠ k0.printed ++ asBytes "é" := by
  have evaluated : ∃ k0 k1 k, heapBoot = .ok k0 ∧
      k0.Step (.syscall 1 0xc3 0 0x444444447f58) k1 ∧
      k1.Step (.syscall 1 0xa9 0 0x444444447f58) k ∧ k0.printed = [] ∧
      k.printed = [0xc3, 0x83, 0xc2, 0xa9] :=
    ⟨_, _, _, rfl, ⟨_, rfl⟩, ⟨_, rfl⟩, rfl, rfl⟩
  obtain ⟨k0, k1, k, boot, first, second, empty, printed⟩ := evaluated
  refine ⟨k0, k, boot, (Run.single first).snoc second, by decide, empty, printed, ?_⟩
  rw [empty, printed]
  decide

end Kernel

end Microkernel
