import Microkernel.Proof.Dispatch
import Microkernel.Switch

/-! A call of `switch_context` returns, when another one goes back to it, with what it was made
with: it waits in seven words on its stack and in the word where its stack pointer is kept. -/

namespace Microkernel

open Lib

namespace Core

variable {c d : Core} {ret oldRsp newRsp ret' oldRsp' : UInt64}

/-! ### One call -/

/-- What `switch_context` stores: the return address and six registers on the stack, and the stack
pointer. -/
theorem switchContext_mem : (c.switchContext ret oldRsp newRsp).mem =
    (c.mem.pushAll c.rsp (ret :: savedOrder.map c.regs)).1.write64 oldRsp (c.rsp - 56) := by
  let words := ret :: savedOrder.map c.regs
  have pointer : (c.mem.pushAll c.rsp words).2 = c.rsp - 56 := Memory.pushAll_pointer
  show (c.mem.pushAll c.rsp words).1.write64 oldRsp (c.mem.pushAll c.rsp words).2 = _
  rw [pointer]

/-- It stores to nothing else than what the call waits in. -/
theorem switchContext_outside {a : UInt64} (other : ¬ c.Waits oldRsp a) :
    (c.switchContext ret oldRsp newRsp).mem a = c.mem a := by
  let words := ret :: savedOrder.map c.regs
  have sp : (c.mem.pushAll c.rsp words).2 = c.rsp - 56 := Memory.pushAll_pointer
  rw [switchContext_mem, Memory.write64_outside fun here => other (.inl here)]
  have apart : ¬ Memory.Within (c.mem.pushAll c.rsp words).2 (8 * words.length) a := by
    rw [sp]
    exact fun here => other (.inr here)
  exact Memory.pushAll_outside (show 8 * 7 ≤ 2 ^ 64 by decide) apart

/-- `switch_context` goes on with the seven words at the stack pointer that it is given. -/
theorem switchContext_resume {saved : List UInt64} {rip : UInt64} (six : saved.length = 6)
    (words : (c.switchContext ret oldRsp newRsp).mem.readWords newRsp 7 = saved.reverse ++ [rip]) :
    (c.switchContext ret oldRsp newRsp).resume = ⟨saved, rip, newRsp + 56⟩ := by
  let regs := Function.update (Function.update c.regs .rdi oldRsp) .rsi newRsp
  let mem := (c.switchContext ret oldRsp newRsp).mem
  have nodup : savedOrder.reverse.Nodup := by decide
  have popped : mem.readWords newRsp 6 =
      savedOrder.reverse.map (popRegs mem savedOrder.reverse regs newRsp).1 :=
    popRegs_words regs nodup
  have pointer : (popRegs mem savedOrder.reverse regs newRsp).2 = newRsp + 48 :=
    popRegs_pointer mem savedOrder.reverse regs newRsp
  have parts : mem.readWords newRsp 7 = mem.readWords newRsp 6 ++ mem.readWords (newRsp + 48) 1 :=
    Memory.readWords_append 1
  rw [show mem.readWords newRsp 7 = _ from words] at parts
  obtain ⟨low, high⟩ := List.append_inj parts (by simp [six])
  have first : savedOrder.map (popRegs mem savedOrder.reverse regs newRsp).1 = saved := by
    rw [popped, List.map_reverse] at low
    exact (List.reverse_inj.mp low).symm
  have last : mem.read64 (newRsp + 48) = rip := (List.cons.inj high).1.symm
  show Resume.mk (savedOrder.map (popRegs mem savedOrder.reverse regs newRsp).1)
    (mem.read64 (popRegs mem savedOrder.reverse regs newRsp).2)
    ((popRegs mem savedOrder.reverse regs newRsp).2 + 8) = _
  rw [first, pointer, last, UInt64.add_assoc]
  rfl

/-! ### A call that waits -/

/-- The word where the stack pointer is kept is not among those pushed. -/
def SlotApart (c : Core) (oldRsp : UInt64) : Prop :=
  ∀ a, Memory.Within oldRsp 8 a → ¬ Memory.Within (c.rsp - 56) 56 a

theorem switchContext_pointer : (c.switchContext ret oldRsp newRsp).mem.read64 oldRsp =
    c.rsp - 56 := by
  rw [switchContext_mem, Memory.read64_write64]

theorem switchContext_words (apart : c.SlotApart oldRsp) :
    (c.switchContext ret oldRsp newRsp).mem.readWords (c.rsp - 56) 7 =
      c.resume.saved.reverse ++ [ret] := by
  let pushed := c.mem.pushAll c.rsp (ret :: savedOrder.map c.regs)
  have sp : pushed.2 = c.rsp - 56 := Memory.pushAll_pointer
  have kept : (pushed.1.write64 oldRsp (c.rsp - 56)).readWords (c.rsp - 56) 7 =
      pushed.1.readWords (c.rsp - 56) 7 :=
    Memory.readWords_congr (by decide) fun a here =>
      Memory.write64_outside fun inSlot => apart a inSlot here
  have words : pushed.1.readWords pushed.2 7 = (ret :: savedOrder.map c.regs).reverse :=
    Memory.pushAll_words c.mem c.rsp (show 8 * 7 ≤ 2 ^ 64 by decide)
  rw [switchContext_mem, kept, ← sp, words, List.reverse_cons]
  rfl

/-- A call returns when another one, made with the stack pointer that the first has stored, goes
back to it: with the registers and the stack pointer that it had, whatever has run in between, on
whatever stack, if that has left alone what the call waits in. -/
theorem switchContext_returns (apart : c.SlotApart oldRsp)
    (kept : ∀ a, c.Waits oldRsp a → d.mem a = (c.switchContext ret oldRsp newRsp).mem a)
    (other : ∀ a, c.Waits oldRsp a → ¬ d.Waits oldRsp' a) :
    (d.switchContext ret' oldRsp' (d.mem.read64 oldRsp)).resume = { c.resume with rip := ret } := by
  have pointer : d.mem.read64 oldRsp = c.rsp - 56 := by
    have same : d.mem.read64 oldRsp = (c.switchContext ret oldRsp newRsp).mem.read64 oldRsp := by
      unfold Memory.read64
      rw [Memory.readBytes_congr (by decide) fun a here => kept a (.inl here)]
    rw [same, switchContext_pointer]
  have words : (d.switchContext ret' oldRsp' (c.rsp - 56)).mem.readWords (c.rsp - 56) 7 =
      c.resume.saved.reverse ++ [ret] := by
    have same : (d.switchContext ret' oldRsp' (c.rsp - 56)).mem.readWords (c.rsp - 56) 7 =
        (c.switchContext ret oldRsp newRsp).mem.readWords (c.rsp - 56) 7 := by
      refine Memory.readWords_congr (by decide) fun a here => ?_
      rw [switchContext_outside (other a (.inr here)), kept a (.inr here)]
    rw [same, switchContext_words apart]
  rw [pointer, switchContext_resume rfl words, UInt64.sub_add_cancel]
  rfl

/-- A flow of kernel code on the stack below `0x10000`. -/
def sample : Core := ⟨fun _ => 7, 0x1000, 0x10000, fun _ => 0⟩

/-- Another flow, on the stack below `0x20000`, that runs after the first has switched. -/
def otherSample : Core :=
  ⟨fun _ => 9, 0x2000, 0x20000, (sample.switchContext 0x1004 0x30000 0x1ffc8).mem⟩

theorem switchContext_returns_sample :
    (otherSample.switchContext 0x2004 0x30008 (otherSample.mem.read64 0x30000)).resume =
      ⟨List.replicate 6 7, 0x1004, 0x10000⟩ := by
  refine switchContext_returns (c := sample) (d := otherSample) ?_ (fun a _ => rfl) ?_
  · intro a inSlot onStack
    simp only [Memory.Within, sample, UInt64.toNat_sub, UInt64.reduceToNat] at inSlot onStack
    omega
  · intro a waits waits'
    simp only [Waits, Memory.Within, sample, otherSample, UInt64.toNat_sub, UInt64.reduceToNat]
      at waits waits'
    omega

end Core

end Microkernel
