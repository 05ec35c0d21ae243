import Microkernel.Proof.KernelStacks

/-! What a system call leaves of the registers of its caller.  `syscall_entry` saves them in the 112
bytes below the stack pointer of its caller, with the return address of `handle_syscall` under them,
and `SYS_RECV` can be told to store its message there. -/

namespace Microkernel

open Lib Kernel Machine

/-! ### The saved registers -/

/-- The caller in context `c` goes on in `c'`, with `value` for a result. -/
structure Preserved (c c' : Context) (value : UInt64) : Prop where
  general : ∀ r, r ≠ .rax → r ≠ .rcx → r ≠ .r11 → c'.regs r = c.regs r
  result : c'.regs .rax = value
  rip : c'.rip = c.rip
  rflags : c'.rflags = c.rflags
  rsp : c'.rsp = c.rsp

theorem mem_exitOrder {r : Reg} (other : r ≠ .rax) : r ∈ exitOrder := by
  cases r <;> first | decide | exact absurd rfl other

theorem sysretq_regs (now : Context) : (sysretq now).regs = now.regs := by
  unfold sysretq
  split <;> rfl

/-- `sysretq` returns to the caller with its registers exactly when they have been restored and the
return address is canonical. -/
theorem sysretq_preserved {c now : Context} {value : UInt64} (ring0 : now.cs = kernelCodeSelector)
    (result : now.regs .rax = value) (pointer : now.rsp = c.rsp) :
    ((sysretq now).cs % 4 = 3 ∧ Preserved c (sysretq now) value) ↔
      (∀ r, r ≠ .rax → now.regs r = syscallRegs c r) ∧ canonical c.rip := by
  by_cases valid : canonical (now.regs .rcx)
  · rw [sysretq, if_pos valid]
    constructor
    · rintro ⟨-, kept⟩
      have rip : now.regs .rcx = c.rip := kept.rip
      refine ⟨fun r not_rax => ?_, rip ▸ valid⟩
      cases r with
      | rax => exact absurd rfl not_rax
      | rcx => exact rip
      | r11 => exact kept.rflags
      | _ => exact kept.general _ (by decide) (by decide) (by decide)
    · rintro ⟨same, -⟩
      refine ⟨show (userCodeSelector ||| 3) % 4 = 3 by decide, fun r not_rax not_rcx not_r11 => ?_,
        result, same .rcx (by decide), same .r11 (by decide), pointer⟩
      have kept := same r not_rax
      rwa [syscallRegs, Function.update_of_ne not_r11, Function.update_of_ne not_rcx] at kept
  · rw [sysretq, if_neg valid, ring0]
    refine iff_of_false (fun back => absurd back.1 (by decide)) ?_
    rintro ⟨same, rip⟩
    rw [same .rcx (by decide)] at valid
    exact valid rip

theorem exitTo_eq (mem : Memory) (regs : Reg → UInt64) (rip sp : UInt64) :
    exitTo mem regs rip sp = sysretq (kernelAt 0 (popRegs mem exitOrder regs sp).1 rip
      (popRegs mem exitOrder regs sp).2) := rfl

/-- The exit of `syscall_entry` restores the registers of a caller exactly when it pops what the
entry has pushed. -/
theorem exitTo_preserved {c : Context} {mem : Memory} {regs : Reg → UInt64}
    {rip sp value : UInt64} (top : sp + 112 = c.rsp) (result : regs .rax = value) :
    ((exitTo mem regs rip sp).cs % 4 = 3 ∧ Preserved c (exitTo mem regs rip sp) value) ↔
      mem.readWords sp 14 = savedWords c ∧ canonical c.rip := by
  have nodup : exitOrder.Nodup := by decide
  have words : mem.readWords sp 14 = exitOrder.map (popRegs mem exitOrder regs sp).1 :=
    popRegs_words _ nodup
  have pointer : (popRegs mem exitOrder regs sp).2 = sp + 112 :=
    popRegs_pointer mem exitOrder regs sp
  have left : (popRegs mem exitOrder regs sp).1 .rax = value := by
    rw [popRegs_other (by decide), result]
  rw [exitTo_eq, pointer, top, words, savedWords, List.map_inj_left]
  generalize (popRegs mem exitOrder regs sp).1 = popped at left
  have restored : ((sysretq (kernelAt 0 popped rip c.rsp)).cs % 4 = 3 ∧
      Preserved c (sysretq (kernelAt 0 popped rip c.rsp)) value) ↔
        (∀ r, r ≠ .rax → popped r = syscallRegs c r) ∧ canonical c.rip :=
    sysretq_preserved rfl left rfl
  refine restored.trans (and_congr_left fun _ => ?_)
  exact ⟨fun same r on => same r (by rintro rfl; exact absurd on (by decide)),
    fun same r other => same r (mem_exitOrder other)⟩

namespace Machine

variable {code : Compiled} {m m' : Machine}

/-- A call that has returned `value` restores the registers of its caller exactly when what the
entry has pushed is on the stack, the return address of the call included. -/
theorem backTo_preserved {c : Context} {sp : UInt64} (mem : Memory) (regs : Reg → UInt64)
    (rip value : UInt64) (top : sp + 8 + 112 = c.rsp) :
    ((backTo code mem regs rip value sp).cs % 4 = 3 ∧
        Preserved c (backTo code mem regs rip value sp) value) ↔
      mem.readWords sp 15 = code.back :: savedWords c ∧ canonical c.rip := by
  rw [Memory.readWords, List.cons.injEq, backTo]
  by_cases found : mem.read64 sp = code.back
  · rw [if_pos found, exitTo_preserved top (Function.update_self ..), and_iff_right found]
  · rw [if_neg found, retAt]
    refine iff_of_false (fun back => ?_) fun kept => found kept.1.1
    split at back <;> exact absurd back.1 (show ¬ kernelCodeSelector % 4 = 3 by decide)

/-- What code below `sp` leaves alone: everything near above it. -/
theorem UsedBelow.above {sp a : UInt64} {mem mem' : Memory} (used : UsedBelow sp mem mem')
    (near : (a - sp).toNat < 2 ^ 63) : mem' a = mem a := by
  obtain ⟨n, few, same⟩ := used
  apply same
  have := a.toNat_lt
  have := sp.toNat_lt
  simp only [UInt64.le_iff_toNat_le, UInt64.reduceToNat] at few
  simp only [Memory.Within, UInt64.toNat_sub] at near ⊢
  omega

/-- What code below the saved registers leaves of them. -/
theorem UsedBelow.words {sp : UInt64} {mem mem' : Memory} {n : Nat}
    (used : UsedBelow sp mem mem') (few : 8 * n ≤ 2 ^ 63) :
    mem'.readWords sp n = mem.readWords sp n :=
  Memory.readWords_congr (few.trans (by decide)) fun _ inside =>
    used.above (Nat.lt_of_lt_of_le inside few)

end Machine

/-! ### Calls that return at once -/

namespace Kernel

variable {k k' : Kernel} {id arg1 arg2 value : UInt64}

/-- The message that system call `id` takes from `INIT_MAILBOX`. -/
def taken (k : Kernel) (id : UInt64) : Option Message :=
  if id = 11 ∧ k.isHeld .initMailbox = false then k.initMailbox else none

/-- A call that returns has stored the message that it took, and nothing else. -/
theorem done_mem (quiet : k.Quiet) (ran : (handleSyscall id arg1 arg2).run k = .done value k') :
    k'.mem = (k.taken id).elim k.mem fun msg => k.mem.storeAll arg1 msg.words := by
  by_cases recv : id = 11
  · subst recv
    change (sysRecv arg1).run k = .done value k' at ran
    rcases Bool.eq_false_or_eq_true (k.isHeld .initMailbox) with held | free
    · rw [sysRecv_empty (.inl held)] at ran
      cases ran
      rw [taken, held, if_neg (fun h => by cases h.2)]
      rfl
    · rw [taken, if_pos ⟨rfl, free⟩]
      cases waiting : k.initMailbox with
      | none =>
        rw [sysRecv_empty (.inr waiting)] at ran
        cases ran
        rfl
      | some msg =>
        by_cases writable : Sys.Writable k arg1 40
        · rw [sysRecv_done free waiting writable] at ran
          cases ran
          rfl
        · rw [sysRecv_fault free waiting writable] at ran
          cases ran
  · have call := handleSyscall_call quiet id arg1 arg2
    rw [ran] at call
    rw [taken, if_neg fun h => recv h.1]
    cases call with
    | idle | print | exit | setPriority | regService => rfl
    | send => exact congrArg Fixed.mem (fixed_deliver _ _)
    | recv => exact absurd rfl recv

end Kernel

namespace Machine

variable {code : Compiled} {m m' : Machine}

/-- The condition under which a system call restores the registers of its caller: a message that it
stores changes none of the 120 bytes in which they are saved, with the return address of the call
under them. -/
def Spares (code : Compiled) (m : Machine) : Prop :=
  ∀ msg ∈ m.kernel.taken (m.cpu.regs .rax), ∀ a, Memory.Within (m.cpu.rsp - 120) 120 a →
    (m.enterSyscall code).1.storeAll (m.cpu.regs .rdi) msg.words a = (m.enterSyscall code).1 a

theorem spares_of_ne (other : m.cpu.regs .rax ≠ 11) : m.Spares code := by
  intro msg waits
  rw [Kernel.taken, if_neg fun h => other h.1] at waits
  cases waits

/-- A call that returns leaves what has been pushed exactly when it meets the condition. -/
theorem done_words {k : Kernel} {value : UInt64} (quiet : m.kernel.Quiet)
    (ran : (handleSyscall (m.arguments .rdi) (m.arguments .rsi) (m.arguments .rdx)).run
      { m.kernel with mem := (m.enterSyscall code).1 } = .done value k) :
    k.mem.readWords (m.enterSyscall code).2 15 = code.back :: savedWords m.cpu ↔
      m.Spares code := by
  have after : k.mem = (m.kernel.taken (m.cpu.regs .rax)).elim (m.enterSyscall code).1
      fun msg => (m.enterSyscall code).1.storeAll (m.cpu.regs .rdi) msg.words :=
    done_mem (k := { m.kernel with mem := (m.enterSyscall code).1 }) quiet ran
  have pointer : (m.enterSyscall code).2 = m.cpu.rsp - 120 := enterSyscall_pointer
  rw [after, Spares, ← pointer]
  cases m.kernel.taken (m.cpu.regs .rax) with
  | none => exact iff_of_true enterSyscall_words fun msg waits => by cases waits
  | some msg =>
    rw [← enterSyscall_words, Option.elim_some, Memory.readWords_eq_iff (by decide)]
    simp

/-- A call that returns at once restores the registers exactly when it meets the condition. -/
theorem direct_preserved {k : Kernel} {value : UInt64} (quiet : m.kernel.Quiet)
    (other : m.cpu.regs .rax ≠ 12) (calls : m.Calls code m')
    (ran : (handleSyscall (m.arguments .rdi) (m.arguments .rsi) (m.arguments .rdx)).run
      { m.kernel with mem := (m.enterSyscall code).1 } = .done value k) :
    (m'.inUser ∧ Preserved m.cpu m'.cpu value) ↔ m.Spares code ∧ canonical m.cpu.rip := by
  obtain ⟨-, ends⟩ := calls
  rw [ran] at ends
  obtain ⟨regs, rip, mem, used, rfl⟩ := ends
  have not_yield : m.arguments .rdi ≠ 12 := other
  have top : (m.enterSyscall code).2 + 8 + 112 = m.cpu.rsp := enterSyscall_top
  rw [← done_words quiet ran, ← used.words (by decide), if_neg not_yield]
  generalize (m.enterSyscall code).2 = sp at top
  have kept := @backTo_preserved code m.cpu sp mem regs rip value top
  generalize backTo code mem regs rip value sp = now at kept ⊢
  exact kept

end Machine

/-! ### `SYS_YIELD` -/

namespace Kernel

variable {k k' : Kernel} {rsp r : UInt64} {old t : TaskRef} {fault : Bool}

/-- A handler that leaves another process than `t` goes to `t` at the frame that `t` has saved. -/
theorem Dispatch.away (dispatch : Dispatch k rsp old fault k' r) (cur : k.Current old)
    (list : k'.taskList = k.taskList) (away : ¬ k.Current t) :
    (k'.task t).kernelRsp = (k.task t).kernelRsp ∧
      (k'.Current t → r = (k'.task t).kernelRsp) := by
  cases dispatch with
  | stays quiet idx rsp0 saved =>
    refine ⟨saved t, fun here => absurd ?_ away⟩
    rwa [Current, list, idx] at here
  | moves selected rsp0 frame saved dead ready itself =>
    have ne : t ≠ old := by
      rintro rfl
      exact away cur
    refine ⟨saved t ne, fun here => ?_⟩
    rw [selected.unique here]

/-- A handler that interrupts `t` at `rsp` returns there, or saves `rsp` as the frame of `t`. -/
theorem Dispatch.interrupted (dispatch : Dispatch k rsp t fault k' r) (cur : k.Current t)
    (list : k'.taskList = k.taskList) :
    (k'.Current t → r = rsp) ∧ (¬ k'.Current t → (k'.task t).kernelRsp = rsp) := by
  cases dispatch with
  | stays quiet idx rsp0 saved =>
    refine ⟨fun _ => rfl, fun away => absurd ?_ away⟩
    rwa [Current, list, idx]
  | moves selected rsp0 frame saved dead ready itself =>
    refine ⟨fun here => ?_, fun _ => frame⟩
    rw [← selected.unique here]
    exact frame

/-- A call moves no process and no saved frame. -/
theorem Call.processes {arg1 arg2 id : UInt64} {o : Outcome UInt64} (call : Call k arg1 arg2 id o) :
    o.Ends fun k' => k'.taskList = k.taskList ∧ k'.currentTaskIdx = k.currentTaskIdx ∧
      ∀ t, (k'.task t).kernelRsp = (k.task t).kernelRsp := by
  cases call with
  | idle | sendFault | print | regService | recv | recvFault => exact ⟨rfl, rfl, fun _ => rfl⟩
  | exit | setPriority => exact ⟨rfl, rfl, fun t => modifyTask_keeps Task.kernelRsp rfl t⟩
  | send =>
    have fixed := fixed_deliver (k := k)
    exact ⟨congrArg Fixed.taskList (fixed _ _), congrArg Fixed.currentTaskIdx (fixed _ _),
      fun t => congrArg (fun f => (f.identity t).2.2.1) (fixed _ _)⟩

/-- A system call of another process than `t` that faults goes to `t` at its frame. -/
theorem fault_away {mid : Kernel} {id arg1 arg2 : UInt64} (steady : k.Steady)
    (call : Call k arg1 arg2 id (.fault mid)) (handled : mid.faultHandlerInner rsp = .ok (r, k'))
    (away : ¬ k.Current t) :
    (k'.task t).kernelRsp = (k.task t).kernelRsp ∧
      (k'.Current t → r = (k'.task t).kernelRsp) := by
  obtain ⟨old, cur⟩ := steady.sound.current
  obtain ⟨list, idx, saved⟩ := call.processes
  have sound : mid.Sound := call.sound steady.sound
  have nodup : mid.taskList.Nodup := by
    rw [list]
    exact steady.nodup
  have current : ∀ u, mid.Current u ↔ k.Current u := by
    intro u
    rw [Current, Current, list, idx]
  have faulted : mid.Step (.gpf rsp) k' := ⟨_, congrArg (Except.map _) handled⟩
  have dispatch := fault_dispatch sound nodup ((current old).mpr cur) handled
  obtain ⟨same, back⟩ := dispatch.away ((current old).mpr cur) (sound.sameTasks faulted).taskList
    fun here => away ((current t).mp here)
  exact ⟨same.trans (saved t), back⟩

end Kernel

/-! #### The call underway -/

namespace Machine

/-- The registers that are still on the stack. -/
def Place.rest : Place → List Reg
  | handler => exitOrder
  | exit rest => rest

/-- The number of words of the call that are still on the stack. -/
def Place.size : Place → Nat
  | handler => 15
  | exit rest => rest.length

/-- Those words. -/
def Place.words (code : Compiled) (c : Context) : Place → List UInt64
  | handler => code.back :: savedWords c
  | exit rest => rest.map (syscallRegs c)

/-- The context `now` of a call of `SYS_YIELD` from context `c`: the registers that are not on the
stack any more are those of the caller. -/
structure Underway (code : Compiled) (c : Context) (place : Place) (now : Context) (mem : Memory) :
    Prop where
  ring0 : now.cs = kernelCodeSelector
  suffix : place.rest <:+ exitOrder
  pointer : ∃ n : UInt64, n ≤ 0x1000000000000 ∧ (place ≠ .handler → n = 0) ∧
    now.rsp = c.rsp - 8 * UInt64.ofNat place.size - n
  popped : ∀ r, r ≠ .rax → r ∉ place.rest → now.regs r = syscallRegs c r
  result : place ≠ .handler → now.regs .rax = 0
  words : mem.readWords (c.rsp - 8 * UInt64.ofNat place.size) place.size = place.words code c

variable {code : Compiled} {m m' : Machine} {c now : Context} {place : Place} {mem mem' : Memory}
  {x : UInt64}

theorem Underway.few (underway : Underway code c place now mem) : place.size ≤ 15 := by
  cases place with
  | handler => exact Nat.le_refl 15
  | exit rest => exact underway.suffix.length_le.trans (by decide)

/-- The words on the stack are above the frame. -/
theorem Underway.above (underway : Underway code c place now mem)
    (inside : Memory.Within (c.rsp - 8 * UInt64.ofNat place.size) (8 * place.size) x) :
    ¬ Memory.Within (Placed.ringFrame now) 160 x ∧ (x - Placed.ringFrame now).toNat < 2 ^ 63 ∧
      Memory.Within (Placed.ringFrame now) (c.rsp - Placed.ringFrame now).toNat x := by
  obtain ⟨n, small, -, rsp⟩ := underway.pointer
  have := underway.few
  have := c.rsp.toNat_lt
  have := x.toNat_lt
  simp only [UInt64.le_iff_toNat_le, UInt64.reduceToNat] at small
  rw [Placed.ringFrame, rsp]
  simp only [Memory.Within, UInt64.toNat_sub, UInt64.toNat_mod, UInt64.toNat_mul,
    UInt64.toNat_ofNat', UInt64.reduceToNat] at inside ⊢
  omega

theorem Underway.frame (underway : Underway code c place now mem)
    (inside : Memory.Within (Placed.ringFrame now) 160 x) :
    Memory.Within (Placed.ringFrame now) (c.rsp - Placed.ringFrame now).toNat x := by
  obtain ⟨n, small, -, rsp⟩ := underway.pointer
  have := underway.few
  have := c.rsp.toNat_lt
  simp only [UInt64.le_iff_toNat_le, UInt64.reduceToNat] at small
  rw [Placed.ringFrame, rsp] at inside ⊢
  simp only [Memory.Within, UInt64.toNat_sub, UInt64.toNat_mod, UInt64.toNat_mul,
    UInt64.toNat_ofNat', UInt64.reduceToNat] at inside ⊢
  omega

theorem Underway.congr (underway : Underway code c place now mem)
    (same : ∀ x, Memory.Within (c.rsp - 8 * UInt64.ofNat place.size) (8 * place.size) x →
      mem' x = mem x) : Underway code c place now mem' where
  ring0 := underway.ring0
  suffix := underway.suffix
  pointer := underway.pointer
  popped := underway.popped
  result := underway.result
  words := by
    have := underway.few
    rw [Memory.readWords_congr (by omega) same]
    exact underway.words

/-- The call begins in `handle_syscall`. -/
theorem underway_handler {n : UInt64} (ring0 : now.cs = kernelCodeSelector)
    (few : n ≤ 0x1000000000000) (pointer : now.rsp = c.rsp - 120 - n)
    (words : mem.readWords (c.rsp - 120) 15 = code.back :: savedWords c) :
    Underway code c .handler now mem where
  ring0 := ring0
  suffix := List.suffix_rfl
  pointer := ⟨n, few, fun other => absurd rfl other, pointer⟩
  popped _ not_rax off := absurd (mem_exitOrder not_rax) off
  result other := absurd rfl other
  words := words

/-- `handle_syscall` has returned to `syscall_entry`. -/
theorem underway_exit (ring0 : now.cs = kernelCodeSelector) (pointer : now.rsp = c.rsp - 112)
    (result : now.regs .rax = 0) (words : mem.readWords (c.rsp - 112) 14 = savedWords c) :
    Underway code c (.exit exitOrder) now mem where
  ring0 := ring0
  suffix := List.suffix_rfl
  pointer := ⟨0, by decide, fun _ => rfl, pointer.trans (UInt64.sub_zero _).symm⟩
  popped _ not_rax off := absurd (mem_exitOrder not_rax) off
  result _ := result
  words := words

/-- A pop moves the word at the stack pointer into its register. -/
theorem Underway.pop {r : Reg} {rest : List Reg} (rip : UInt64)
    (underway : Underway code c (.exit (r :: rest)) now mem) :
    Underway code c (.exit rest) { now with
      regs := Function.update now.regs r (mem.read64 now.rsp), rip := rip, rsp := now.rsp + 8 }
      mem := by
  obtain ⟨n, -, zero, rsp⟩ := underway.pointer
  have zero := zero (by simp)
  have words := underway.words
  have suffix : r :: rest <:+ exitOrder := underway.suffix
  have not_rax : .rax ≠ r := by
    rintro rfl
    exact absurd (suffix.subset List.mem_cons_self) (by decide)
  have length : UInt64.ofNat (r :: rest).length = UInt64.ofNat rest.length + 1 :=
    UInt64.ofNat_add rest.length 1
  have up : c.rsp - 8 * (UInt64.ofNat rest.length + 1) + 8 =
      c.rsp - 8 * UInt64.ofNat rest.length := by grind
  rw [zero, UInt64.sub_zero] at rsp
  simp only [Place.size, Place.words, length, List.map_cons] at rsp words
  rw [List.length_cons, Memory.readWords, List.cons.injEq, up, ← rsp] at words
  refine
    { ring0 := underway.ring0
      suffix := (List.suffix_cons r rest).trans suffix
      pointer := ⟨0, by decide, fun _ => rfl, ?_⟩
      popped := fun s other off => ?_
      result := fun _ => (Function.update_of_ne not_rax ..).trans (underway.result (by simp))
      words := words.2 }
  · show now.rsp + 8 = _
    rw [rsp, up, UInt64.sub_zero]
    rfl
  · show Function.update now.regs r (mem.read64 now.rsp) s = _
    by_cases same : s = r
    · rw [same, Function.update_self, words.1]
    · rw [Function.update_of_ne same]
      exact underway.popped s other fun listed => (List.mem_cons.mp listed).elim same off

/-- The code of the call keeps what is on the stack until it pops it, so that its `ret` finds the
return address. -/
theorem Underway.onward {next : Option Place}
    (underway : Underway code c place m.cpu m.kernel.mem)
    (step : m.Onward code (c.rsp - 120) place next m') :
    ∃ place', next = some place' ∧ Underway code c place' m'.cpu m'.kernel.mem := by
  cases step with
  | handler ring0 enabled few pointer used =>
    refine ⟨_, rfl, underway_handler ring0 few pointer ?_⟩
    exact (used.words (by decide)).trans underway.words
  | @ret left mem used found ring0 enabled pointer result =>
    have words : mem.readWords (c.rsp - 120) 15 = code.back :: savedWords c :=
      (used.words (by decide)).trans underway.words
    have up : c.rsp - 120 + 8 = c.rsp - 112 := by grind
    rw [Memory.readWords, List.cons.injEq, up] at words
    exact ⟨_, rfl, underway_exit ring0 (pointer.trans up) result words.2⟩
  | @astray regs rip mem used other =>
    have words : mem.readWords (c.rsp - 120) 15 = code.back :: savedWords c :=
      (used.words (by decide)).trans underway.words
    rw [Memory.readWords, List.cons.injEq] at words
    exact absurd words.1 other
  | pop rip => exact ⟨_, rfl, underway.pop rip⟩

/-- `sysretq` with nothing left on the stack. -/
theorem Underway.returns (underway : Underway code c (.exit []) now mem) :
    ((sysretq now).cs % 4 = 3 ∧ Preserved c (sysretq now) 0) ↔ canonical c.rip := by
  have same : ∀ r, r ≠ .rax → now.regs r = syscallRegs c r :=
    fun r not_rax => underway.popped r not_rax List.not_mem_nil
  obtain ⟨n, -, zero, rsp⟩ := underway.pointer
  have zero := zero (by simp)
  have pointer : now.rsp = c.rsp := by
    rw [rsp, zero]
    simp [Place.size]
  rw [sysretq_preserved underway.ring0 (underway.result (by simp)) pointer, and_iff_right same]

end Machine

/-! #### Suspended in the call -/

namespace Placed

variable {code : Compiled} {s s' : Placed} {t : TaskRef} {a : Trap}

/-- While another process runs, the frame of `t` stays where it is, and a switch to `t` returns to
it. -/
theorem away_step (steady : s.machine.kernel.Steady) (away : ¬ s.machine.kernel.Current t)
    (step : s.Trapped code a s') :
    s'.place t = s.place t ∧
      (s'.machine.kernel.task t).kernelRsp = (s.machine.kernel.task t).kernelRsp ∧
      (s'.machine.kernel.Current t → ∃ regs, s'.machine.cpu =
        returnTo s'.machine.kernel.mem regs (s'.machine.kernel.task t).kernelRsp) := by
  obtain ⟨old, cur⟩ := steady.sound.current
  have elsewhere : ∀ {u : TaskRef}, s.Runs u → t ≠ u := by
    rintro u runs rfl
    exact away runs
  cases a with
  | user c f =>
    obtain ⟨-, ⟨-, after⟩, place⟩ := step
    rw [after, place]
    exact ⟨rfl, rfl, fun here => absurd here away⟩
  | interrupt i =>
    have entered := steady.setMem (s.machine.enter i).1
    obtain ⟨r, k, mem, regs, ran, after⟩ := interrupt_step step
    have dispatch := interrupt_dispatch entered.sound entered.nodup cur ran
    obtain ⟨saved, back⟩ := dispatch.away cur (entered.sound.sameTasks ⟨_, ran⟩).taskList away
    rw [after, step.1]
    refine ⟨rfl, saved, fun here => ⟨regs, ?_⟩⟩
    rw [back here]
  | syscall =>
    obtain ⟨u, runs, -, ⟨-, ends⟩, place⟩ := step
    rw [place, Function.update_of_ne (elsewhere runs)]
    have entered := steady.setMem (s.machine.enterSyscall code).1
    have call := handleSyscall_call entered.sound.quiet (s.machine.arguments .rdi)
      (s.machine.arguments .rsi) (s.machine.arguments .rdx)
    split at ends
    next value k ran =>
      obtain ⟨regs, rip, mem, -, after⟩ := ends
      rw [ran] at call
      obtain ⟨list, idx, saved⟩ := call.processes
      rw [after]
      refine ⟨rfl, saved t, fun here => absurd ?_ away⟩
      rwa [Current, list, idx] at here
    next k ran =>
      obtain ⟨r, k', mem, regs, -, handled, -, after⟩ := ends
      rw [ran] at call
      obtain ⟨saved, back⟩ := fault_away entered call handled away
      rw [after]
      refine ⟨rfl, saved, fun here => ⟨regs, ?_⟩⟩
      rw [back here]
    next => exact ends.elim
  | onward =>
    obtain ⟨u, sp, p, p', runs, -, -, onward, place⟩ := step
    obtain ⟨mem, after⟩ := onward.kernel
    rw [place, after, Function.update_of_ne (elsewhere runs)]
    exact ⟨rfl, rfl, fun here => absurd here away⟩
  | leave =>
    obtain ⟨u, sp, runs, -, -, rfl⟩ := step
    exact ⟨Function.update_of_ne (elsewhere runs) _ _, rfl, fun here => absurd here away⟩

/-- The byte at `x` is in the part of its stack that `t` has in use while it does not run: from its
frame up to the stack pointer of the caller. -/
def InUse (c : Context) (t : TaskRef) (k : Kernel) (x : UInt64) : Prop :=
  Memory.Within (k.task t).kernelRsp (c.rsp - (k.task t).kernelRsp).toNat x

/-- A step while process `t` is in the `SYS_YIELD` that it has called in context `c`.  While `t`
runs it does not fault, and it has not returned yet; while other processes run, nothing is stored to
the part of its stack that `t` has in use. -/
def Suspended (code : Compiled) (c : Context) (t : TaskRef) (s : Placed) (a : Trap) (s' : Placed) :
    Prop :=
  s.Trapped code a s' ∧
    (s.Runs t → a ≠ .leave ∧ ∀ i, a = .interrupt i → i.errorCode = none) ∧
    (¬ s.Runs t → ∀ x, InUse c t s.machine.kernel x →
      s'.machine.kernel.mem x = s.machine.kernel.mem x)

/-- Process `t` is in the `SYS_YIELD` that it has called from context `c`: how far it has come is on
the processor while `t` runs, and otherwise in the frame of `t`. -/
structure Yields (code : Compiled) (c : Context) (t : TaskRef) (place : Place) (now : Context)
    (s : Placed) : Prop where
  steady : s.machine.kernel.Steady
  placed : s.place t = some (c.rsp - 120, place)
  underway : Underway code c place now s.machine.kernel.mem
  here : s.machine.kernel.Current t → s.machine.cpu = now
  away : ¬ s.machine.kernel.Current t → (s.machine.kernel.task t).kernelRsp = ringFrame now ∧
    s.machine.kernel.mem.readWords (ringFrame now) 20 = frameWords now

variable {c now : Context} {place : Place} {mem : Memory}

theorem Yields.ring0 (yields : Yields code c t place now s) (cur : s.machine.kernel.Current t) :
    ¬ s.machine.inUser := by
  rw [inUser, yields.here cur, yields.underway.ring0]
  decide

theorem Yields.interrupt {i : Interrupt} (yields : Yields code c t place now s)
    (cur : s.machine.kernel.Current t) (plain : i.errorCode = none)
    (step : s.Trapped code (.interrupt i) s') : Yields code c t place now s' := by
  have cpu := yields.here cur
  have steady' := steady_trapped yields.steady step
  obtain ⟨same, step⟩ := step
  rw [if_neg (yields.ring0 cur)] at step
  obtain ⟨-, r, k, mem, left, -, ran, used, after⟩ := step
  have ring0 : s.machine.cpu.cs = kernelCodeSelector := by rw [cpu, yields.underway.ring0]
  have frame := enter_words s.machine plain
  obtain ⟨pointer, -, outside⟩ := enter_ring0 ring0 plain
  rw [cpu] at pointer frame outside
  have entered := yields.steady.setMem (s.machine.enter i).1
  have unchanged : k.mem = (s.machine.enter i).1 := interrupt_mem entered.sound ran
  rw [unchanged, pointer] at used
  rw [pointer] at frame
  have words : mem.readWords (ringFrame now) 20 = frameWords now := by
    rw [used.words (by decide), frame]
  obtain ⟨back, saved⟩ := (interrupt_dispatch entered.sound entered.nodup cur ran).interrupted cur
    (entered.sound.sameTasks ⟨_, ran⟩).taskList
  rw [pointer] at back saved
  refine
    { steady := steady'
      placed := same ▸ yields.placed
      underway := ?_
      here := fun here => ?_
      away := fun gone => ?_ }
  · rw [after]
    refine yields.underway.congr fun x inside => ?_
    obtain ⟨off, near, -⟩ := yields.underway.above inside
    exact (used.above near).trans (outside x off)
  · rw [after] at here ⊢
    show returnTo mem left r = now
    rw [back here]
    exact returnTo_frame words
  · rw [after] at gone ⊢
    exact ⟨saved gone, words⟩

theorem Yields.other (yields : Yields code c t place now s) (away : ¬ s.machine.kernel.Current t)
    (step : s.Trapped code a s')
    (kept : ∀ x, InUse c t s.machine.kernel x →
      s'.machine.kernel.mem x = s.machine.kernel.mem x) :
    Yields code c t place now s' := by
  obtain ⟨frame, words⟩ := yields.away away
  obtain ⟨untouched, same, back⟩ := away_step yields.steady away step
  simp only [InUse, frame] at kept
  have words' : s'.machine.kernel.mem.readWords (ringFrame now) 20 = frameWords now := by
    rw [← words]
    exact Memory.readWords_congr (by decide) fun x inside => kept x (yields.underway.frame inside)
  refine
    { steady := steady_trapped yields.steady step
      placed := untouched.trans yields.placed
      underway := yields.underway.congr fun x inside => kept x (yields.underway.above inside).2.2
      here := fun here => ?_
      away := fun _ => ⟨same.trans frame, words'⟩ }
  obtain ⟨regs, cpu⟩ := back here
  rw [cpu, same, frame]
  exact returnTo_frame words'

theorem Yields.onward (yields : Yields code c t place now s)
    (cur : s.machine.kernel.Current t) (step : s.Trapped code .onward s') :
    ∃ place', Yields code c t place' s'.machine.cpu s' := by
  have steady' := steady_trapped yields.steady step
  obtain ⟨u, sp, p, p', runs, -, placed, onward, after⟩ := step
  have itself : u = t := cur.unique runs
  subst itself
  have there := placed.symm.trans yields.placed
  cases there
  have underway := yields.underway
  rw [← yields.here cur] at underway
  obtain ⟨mem, kernel⟩ := onward.kernel
  obtain ⟨place', rfl, underway'⟩ := underway.onward onward
  refine ⟨place',
    { steady := steady'
      placed := ?_
      underway := underway'
      here := fun _ => rfl
      away := fun gone => absurd ?_ gone }⟩
  · rw [after]
    exact Function.update_self ..
  · rw [kernel]
    exact cur

theorem Yields.step (yields : Yields code c t place now s) (step : Suspended code c t s a s') :
    ∃ place' now', Yields code c t place' now' s' := by
  obtain ⟨trapped, runs, others⟩ := step
  by_cases cur : s.machine.kernel.Current t
  · have ring0 := yields.ring0 cur
    obtain ⟨stays, plain⟩ := runs cur
    cases a with
    | user c f => exact absurd trapped.1 ring0
    | interrupt i => exact ⟨place, now, yields.interrupt cur (plain i rfl) trapped⟩
    | syscall =>
      obtain ⟨u, -, user, -⟩ := trapped
      exact absurd user ring0
    | onward =>
      obtain ⟨place', yields'⟩ := yields.onward cur trapped
      exact ⟨place', _, yields'⟩
    | leave => exact absurd rfl stays
  · exact ⟨place, now, yields.other cur trapped (others cur)⟩

theorem Yields.run {actions : List Trap} (yields : Yields code c t place now s)
    (run : Run (Suspended code c t) s actions s') :
    ∃ place' now', Yields code c t place' now' s' := by
  refine run.invariant (I := fun s => ∃ place now, Yields code c t place now s)
    ⟨place, now, yields⟩ ?_
  rintro b label b' ⟨place, now, yields⟩ step
  exact yields.step step

/-- The call of `SYS_YIELD` halts. -/
theorem yield_calls (shallow : code.depth 12 ≤ 0x1000000000000) (steady : s.machine.kernel.Steady)
    (id : s.machine.cpu.regs .rax = 12) (cur : s.machine.kernel.Current t)
    (step : s.Trapped code .syscall s') :
    ∃ now, Yields code s.machine.cpu t .handler now s' := by
  have steady' := steady_trapped steady step
  obtain ⟨u, runs, -, ⟨-, ends⟩, place⟩ := step
  have itself : u = t := cur.unique runs
  subst itself
  have pointer : (s.machine.enterSyscall code).2 = s.machine.cpu.rsp - 120 := enterSyscall_pointer
  have called : s.machine.arguments .rdi = 12 := id
  rw [called, if_pos rfl, pointer] at place
  rw [called] at ends
  obtain ⟨regs, rip, mem, used, after⟩ := ends
  rw [if_pos rfl] at after
  refine ⟨haltedAt regs rip ((s.machine.enterSyscall code).2 - code.depth 12), steady', ?_, ?_,
    fun _ => ?_, fun away => absurd ?_ away⟩
  · rw [place]
    exact Function.update_self ..
  · rw [after]
    refine underway_handler rfl shallow ?_ ?_
    · rw [← pointer]
      rfl
    · rw [← enterSyscall_words, ← pointer]
      exact used.words (by decide)
  · rw [after]
  · rw [after]
    exact cur

/-! ### Every call -/

/-- The system call that process `t` makes in `s` has come to its end in `s'`: `handle_syscall` has
returned and, if that was to `syscall_entry`, so has this.  In `SYS_YIELD` any steps come before,
while `t` is suspended there. -/
inductive Returns (code : Compiled) (t : TaskRef) (s s' : Placed) : Prop
  | direct {value : UInt64} {k : Kernel} (other : s.machine.cpu.regs .rax ≠ 12)
      (call : s.Trapped code .syscall s')
      (ran : (handleSyscall (s.machine.arguments .rdi) (s.machine.arguments .rsi)
        (s.machine.arguments .rdx)).run
          { s.machine.kernel with mem := (s.machine.enterSyscall code).1 } = .done value k)
  | yield {halted resumed : Placed} {actions : List Trap} (id : s.machine.cpu.regs .rax = 12)
      (call : s.Trapped code .syscall halted)
      (suspended : Run (Suspended code s.machine.cpu t) halted actions resumed)
      (cur : resumed.Runs t) (returned : resumed.Trapped code .leave s')

/-- `SYS_YIELD` restores the registers of its caller, whatever happens while it is suspended. -/
theorem yield_preserved {halted resumed : Placed} {actions : List Trap}
    (shallow : code.depth 12 ≤ 0x1000000000000) (steady : s.machine.kernel.Steady)
    (id : s.machine.cpu.regs .rax = 12) (here : s.machine.kernel.Current t)
    (call : s.Trapped code .syscall halted)
    (suspended : Run (Suspended code s.machine.cpu t) halted actions resumed)
    (cur : resumed.machine.kernel.Current t) (returned : resumed.Trapped code .leave s') :
    (s'.machine.inUser ∧ Preserved s.machine.cpu s'.machine.cpu 0) ↔
      canonical s.machine.cpu.rip := by
  obtain ⟨now, yields⟩ := yield_calls shallow steady id here call
  obtain ⟨place, now', yields'⟩ := yields.run suspended
  obtain ⟨u, sp, runs, -, placed, rfl⟩ := returned
  have itself : u = t := cur.unique runs
  subst itself
  have there := placed.symm.trans yields'.placed
  cases there
  have underway := yields'.underway
  rw [← yields'.here cur] at underway
  exact underway.returns

/-- A system call of any process, in any run from boot, that returns: `handle_syscall` has received
the number and the arguments from `rax`, `rdi` and `rsi` of the caller, and the caller goes on in
user mode with its registers and the result exactly when the call meets the condition. -/
theorem registers_preserved {images : List Image} {top : UInt64} {mem : Memory}
    {pages : UInt64 → Option PageFlags} {m : Machine} {actions : List Trap}
    (shallow : code.depth 12 ≤ 0x1000000000000) (boots : m.Boots images top mem pages)
    (run : Run (Trapped code) (start m) actions s) (cur : s.Runs t)
    (returns : s.Returns code t s') :
    (s.machine.arguments .rdi = s.machine.cpu.regs .rax ∧
        s.machine.arguments .rsi = s.machine.cpu.regs .rdi ∧
        s.machine.arguments .rdx = s.machine.cpu.regs .rsi) ∧
      ∃ value k, (handleSyscall (s.machine.arguments .rdi) (s.machine.arguments .rsi)
          (s.machine.arguments .rdx)).run
            { s.machine.kernel with mem := (s.machine.enterSyscall code).1 } = .done value k ∧
        ((s'.machine.inUser ∧ Preserved s.machine.cpu s'.machine.cpu value) ↔
          s.machine.Spares code ∧ canonical s.machine.cpu.rip) := by
  have steady : s.machine.kernel.Steady :=
    run.invariant (I := fun s => s.machine.kernel.Steady) (boots_stacked boots).1
      fun _ _ _ steady step => steady_trapped steady step
  refine ⟨⟨rfl, rfl, rfl⟩, ?_⟩
  cases returns with
  | @direct value k other call ran =>
    obtain ⟨u, -, -, calls, -⟩ := call
    exact ⟨value, k, ran, direct_preserved steady.sound.quiet other calls ran⟩
  | yield id call suspended cur' returned =>
    have ran : (handleSyscall (s.machine.arguments .rdi) (s.machine.arguments .rsi)
        (s.machine.arguments .rdx)).run
          { s.machine.kernel with mem := (s.machine.enterSyscall code).1 } =
        .done 0 { s.machine.kernel with mem := (s.machine.enterSyscall code).1 } := by
      rw [show s.machine.arguments .rdi = 12 from id]
      rfl
    have spares : s.machine.Spares code := spares_of_ne (by rw [id]; decide)
    refine ⟨0, _, ran, ?_⟩
    rw [and_iff_right spares]
    exact yield_preserved shallow steady id cur call suspended cur' returned

/-- What the process itself does in its call. -/
theorem suspended_here (cur : s.Runs t) (stays : a ≠ .leave)
    (plain : ∀ i, a = .interrupt i → i.errorCode = none) (step : s.Trapped code a s') :
    Suspended code c t s a s' :=
  ⟨step, fun _ => ⟨stays, plain⟩, fun away => absurd cur away⟩

/-- The pops of `syscall_entry`, when no interrupt comes between them. -/
theorem pops_run {sp : UInt64} (rest : List Reg) (cur : s.Runs t)
    (ring0 : s.machine.cpu.cs = kernelCodeSelector) (placed : s.place t = some (sp, .exit rest)) :
    ∃ actions s', Run (Suspended code c t) s actions s' ∧ s'.Runs t ∧
      s'.machine.cpu.cs = kernelCodeSelector ∧ s'.place t = some (sp, .exit []) := by
  induction rest generalizing s with
  | nil => exact ⟨[], s, .nil, cur, ring0, placed⟩
  | cons r rest ih =>
    let popped : Machine := ⟨{ s.machine.cpu with
      regs := Function.update s.machine.cpu.regs r (s.machine.kernel.mem.read64 s.machine.cpu.rsp)
      rsp := s.machine.cpu.rsp + 8 }, s.machine.kernel⟩
    have not_user : ¬ s.machine.inUser := by
      rw [inUser, ring0]
      decide
    have pops : s.machine.Onward code sp (.exit (r :: rest)) (some (.exit rest)) popped :=
      .pop s.machine.cpu.rip
    have step : s.Trapped code .onward
        ⟨popped, Function.update s.place t (some (sp, .exit rest))⟩ :=
      ⟨t, sp, _, _, cur, not_user, placed, pops, rfl⟩
    obtain ⟨actions, s', run, rest⟩ := ih (s := ⟨popped, Function.update s.place t _⟩) cur ring0
      (Function.update_self ..)
    have first := suspended_here (c := c) cur (by simp) (fun i same => by cases same) step
    exact ⟨[.onward] ++ actions, s', (Run.single first).append run, rest⟩

/-- The first process calls `SYS_YIELD`, and a tick comes in the halt. -/
theorem registers_preserved_yield : ∃ m s s' value,
    Boots heapImages 0x444444454000 (fun _ => 0) heapPages m ∧
      Run (Trapped sample) (start m) [.user yielding fun _ => 0] s ∧ s.Returns sample 0 s' ∧
      s'.machine.inUser ∧ Preserved s.machine.cpu s'.machine.cpu value := by
  have evaluated : ∃ m, Boots heapImages 0x444444454000 (fun _ => 0) heapPages m ∧
      m.kernel.Current 0 ∧ m.kernel.pages = heapPages ∧ ∀ mem rsp, ∃ k,
        { m.kernel with mem := mem }.step (.timer [.ready] rsp) = .ok (some rsp, k) ∧
          k.mem = mem ∧ k.Current 0 :=
    ⟨_, ⟨_, 0, fun _ => 0, rfl, rfl, rfl⟩, rfl, rfl, fun _ _ => ⟨_, rfl, rfl, rfl⟩⟩
  obtain ⟨m, boots, cur, pages, ticks⟩ := evaluated
  obtain ⟨k, ran, same, back⟩ := ticks ((inYield m).machine.enter (.timer [.ready])).1 0x30007ea0
  have calling : (start m).Trapped sample (.user yielding fun _ => 0) (beforeYield m) :=
    user_trapped (boots_represents heapBoot_stacks boots) (by decide)
  have tick : (inYield m).Trapped sample (.interrupt (.timer [.ready])) _ :=
    halt_interrupted rfl pages ran same
  have found : k.mem.read64 0x30007f88 = sample.back := by
    rw [same]
    exact inYield_back m rfl
  have ticked : Suspended sample yielding 0 (inYield m) (.interrupt (.timer [.ready])) _ :=
    suspended_here cur (by simp) (fun i same => by cases same; rfl) tick
  have ret : Suspended sample yielding 0 ⟨⟨(inYield m).machine.cpu, k⟩, (inYield m).place⟩ .onward
      (inExit m k) :=
    suspended_here back (by simp) (fun i same => by cases same) (yield_returns back found)
  have returning : (inExit m k).place 0 = some (0x30007f88, .exit exitOrder) := rfl
  have back' : (inExit m k).Runs 0 := back
  obtain ⟨actions, s, popped, cur', ring0, placed⟩ := pops_run exitOrder back' rfl returning
  have not_user : ¬ s.machine.inUser := by
    rw [inUser, ring0]
    decide
  have returns : (beforeYield m).Returns sample 0 _ :=
    .yield rfl (yield_halts cur pages) (((Run.single ticked).snoc ret).append popped) cur'
      ⟨0, 0x30007f88, cur', not_user, placed, rfl⟩
  have run : Run (Trapped sample) (start m) [.user yielding fun _ => 0] (beforeYield m) :=
    .single calling
  obtain ⟨-, value, -, -, kept⟩ := registers_preserved (by decide) boots run cur returns
  have spares : (beforeYield m).machine.Spares sample :=
    spares_of_ne (show yielding.regs .rax ≠ 11 by decide)
  obtain ⟨user, preserved⟩ := kept.mpr ⟨spares, show canonical yielding.rip by decide⟩
  exact ⟨m, beforeYield m, _, value, boots, run, returns, user, preserved⟩

/-! A message over the saved registers. -/

/-- User code about to call `SYS_RECV` with a buffer just below its stack pointer. -/
def receiving : Context where
  regs r := if r = .rax then 11 else if r = .rdi then 0x30007f90 else 0
  rip := 0x400000
  cs := userCodeSelector ||| 3
  rflags := 0x202
  rsp := 0x30008000
  ss := userDataSelector ||| 3

def beforeRecv (m : Machine) : Placed := start ⟨receiving, m.kernel.userWrites fun _ => 0⟩

/-- The second word of a message that is stored over the saved registers is popped into `r14`. -/
theorem popRegs_message (mem : Memory) (regs : Reg → UInt64) (sp : UInt64) (msg : Message) :
    (popRegs (mem.storeAll sp msg.words) exitOrder regs sp).1 .r14 = msg.to := by
  have few : 8 * msg.words.length ≤ 2 ^ 64 := show 8 * 5 ≤ 2 ^ 64 by decide
  have words : (mem.storeAll sp msg.words).readWords sp 5 = msg.words :=
    Memory.storeAll_words mem sp msg.words few
  have nodup : exitOrder.Nodup := by decide
  have popped : (mem.storeAll sp msg.words).readWords sp 14 = exitOrder.map
      (popRegs (mem.storeAll sp msg.words) exitOrder regs sp).1 := popRegs_words _ nodup
  generalize (popRegs (mem.storeAll sp msg.words) exitOrder regs sp).1 = after at popped ⊢
  generalize mem.storeAll sp msg.words = stored at words popped
  simp only [Memory.readWords, Message.words, exitOrder, List.map_cons, List.cons.injEq]
    at words popped
  rw [← popped.2.1, words.2.1]

/-- The exit after a message has been stored just above the return address. -/
theorem backTo_message {mem : Memory} {sp buffer : UInt64} (regs : Reg → UInt64)
    (rip value : UInt64) (msg : Message) (found : mem.read64 sp = code.back)
    (above : sp + 8 = buffer) :
    (backTo code (mem.storeAll buffer msg.words) regs rip value sp).regs .r14 = msg.to := by
  subst above
  have few : 8 * msg.words.length ≤ 2 ^ 64 := show 8 * 5 ≤ 2 ^ 64 by decide
  have below : (mem.storeAll (sp + 8) msg.words).readWords sp 1 = mem.readWords sp 1 := by
    refine Memory.readWords_congr (by decide) fun x inside => Memory.storeAll_outside few ?_
    show ¬ Memory.Within (sp + 8) (8 * 5) x
    have := x.toNat_lt
    have := sp.toNat_lt
    simp only [Memory.Within, UInt64.toNat_sub, UInt64.toNat_add, UInt64.reduceToNat] at inside ⊢
    omega
  have kept : (mem.storeAll (sp + 8) msg.words).read64 sp = code.back :=
    (List.cons.inj below).1.trans found
  rw [backTo, if_pos kept, exitTo_eq, sysretq_regs]
  simp only [kernelAt, popRegs_message]

/-- A call that `handle_syscall` returns from at once. -/
theorem calls_done {m : Machine} {k : Kernel} {value : UInt64} (regs : Reg → UInt64)
    (room : Pushed m.kernel (m.enterSyscall code).2 120) (other : m.arguments .rdi ≠ 12)
    (ran : (handleSyscall (m.arguments .rdi) (m.arguments .rsi) (m.arguments .rdx)).run
      { m.kernel with mem := (m.enterSyscall code).1 } = .done value k) :
    m.Calls code ⟨backTo code k.mem regs 0 value (m.enterSyscall code).2, k⟩ := by
  refine ⟨room, ?_⟩
  rw [ran]
  refine ⟨regs, 0, k.mem, ⟨0, by decide, fun _ _ => rfl⟩, ?_⟩
  rw [if_neg other]

theorem beforeRecv_returns {m : Machine} {msg : Message} (cur : m.kernel.Current t)
    (pages : m.kernel.pages = heapPages) (free : m.kernel.isHeld .initMailbox = false)
    (waiting : m.kernel.initMailbox = some msg) :
    ∃ s', (beforeRecv m).Returns code t s' ∧ s'.machine.cpu.regs .r14 = msg.to := by
  let caller : Machine := (beforeRecv m).machine
  have sp : (caller.enterSyscall code).2 = 0x30007f88 := by
    rw [enterSyscall_pointer]
    show (0x30008000 : UInt64) - 120 = 0x30007f88
    decide
  have words : (caller.enterSyscall code).1.readWords (caller.enterSyscall code).2 15 =
      code.back :: savedWords caller.cpu := enterSyscall_words
  rw [sp, Memory.readWords, List.cons.injEq] at words
  have room : Pushed caller.kernel (caller.enterSyscall code).2 120 := by
    rw [sp]
    exact heapPages_pushed pages (by decide) (by decide)
  have writable : Sys.Writable { caller.kernel with mem := (caller.enterSyscall code).1 }
      0x30007f90 40 := heapPages_pushed pages (by decide) (by decide)
  obtain ⟨k, stored, ran⟩ : ∃ k : Kernel,
      k.mem = (caller.enterSyscall code).1.storeAll 0x30007f90 msg.words ∧
        (handleSyscall 11 0x30007f90 0).run
          { caller.kernel with mem := (caller.enterSyscall code).1 } = .done 1 k :=
    ⟨_, rfl, sysRecv_done free waiting writable⟩
  have other : receiving.regs .rax ≠ 12 := by decide
  have user : caller.inUser := show receiving.cs % 4 = 3 by decide
  have calls := calls_done (fun _ => 0) room other ran
  have popped : (backTo code k.mem (fun _ => 0) 0 1 0x30007f88).regs .r14 = msg.to := by
    rw [stored]
    exact backTo_message (fun _ => 0) 0 1 msg words.1 (by decide)
  rw [sp] at calls
  generalize backTo code k.mem (fun _ => 0) 0 1 0x30007f88 = now at calls popped
  exact ⟨⟨⟨now, k⟩, _⟩, .direct other ⟨t, cur, user, calls, rfl⟩ ran, popped⟩

/-- A key press posts a message, and the first process receives it over its saved registers. -/
theorem registers_overwritten : ∃ m s s',
    Boots heapImages 0x444444454000 (fun _ => 0) heapPages m ∧
      Run (Trapped sample) (start m)
        [.interrupt (.keyboard 0x1e [.ready]), .user receiving fun _ => 0] s ∧
      s.Runs 0 ∧ s.Returns sample 0 s' ∧ s.machine.cpu.regs .r14 = 0 ∧
      s'.machine.cpu.regs .r14 = 1 ∧ ∀ value, ¬ Preserved s.machine.cpu s'.machine.cpu value := by
  have evaluated : ∃ m0 m1, Boots heapImages 0x444444454000 (fun _ => 0) heapPages m0 ∧
      m0.Step (.interrupt (.keyboard 0x1e [.ready])) m1 ∧ m1.kernel.pages = heapPages ∧
      m1.kernel.isHeld .initMailbox = false ∧
      m1.kernel.initMailbox = some ⟨0, 1, 2, (0x1e, 0)⟩ ∧ m1.kernel.Current 0 :=
    ⟨_, _, ⟨_, 0, fun _ => 0, rfl, rfl, rfl⟩, clean_step rfl, rfl, rfl, rfl, rfl⟩
  obtain ⟨m0, m1, boots, pressed, pages, free, waiting, cur⟩ := evaluated
  obtain ⟨posted, p, rep⟩ :=
    plain_trapped (s := start m0) rfl (boots_represents heapBoot_stacks boots) pressed
  have calling : (start m1).Trapped sample (.user receiving fun _ => 0) (beforeRecv m1) :=
    user_trapped (s := start m1) rep (by decide)
  obtain ⟨s', returns, lost⟩ : ∃ s', (beforeRecv m1).Returns sample 0 s' ∧
      s'.machine.cpu.regs .r14 = 1 := beforeRecv_returns cur pages free waiting
  have before : (beforeRecv m1).machine.cpu.regs .r14 = 0 := rfl
  refine ⟨m0, beforeRecv m1, s', boots, (Run.single posted).snoc calling, cur, returns, before,
    lost, fun value kept => ?_⟩
  have same := kept.general .r14 (by decide) (by decide) (by decide)
  rw [lost, before] at same
  exact absurd same (by decide)

end Placed

end Microkernel
