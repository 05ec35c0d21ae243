import Mathlib.Data.List.Basic
import Mathlib.Tactic.Ring

/-! Byte-addressed memory with 64-bit addresses that wrap, little-endian words in it, and a stack
that grows down through it. -/

namespace Microkernel.Lib

abbrev Memory := UInt64 → UInt8

namespace Memory

variable {m m' : Memory} {a x : UInt64} {v : UInt64} {n : Nat}

/-- The byte at `x` is one of the `n` bytes from `a`. -/
def Within (a : UInt64) (n : Nat) (x : UInt64) : Prop := (x - a).toNat < n

instance : Decidable (Within a n x) := inferInstanceAs (Decidable (_ < _))

/-- A region inside another one. -/
theorem Within.inside {b : UInt64} {k : Nat} (h : Within a n x) (fits : (a - b).toNat + n ≤ k)
    (bound : k ≤ 2 ^ 64) : Within b k x := by
  have := x.toNat_lt
  have := a.toNat_lt
  have := b.toNat_lt
  simp only [Within, UInt64.toNat_sub] at h fits ⊢
  omega

/-- A region that starts at `a` has nothing below `a`. -/
theorem Within.above {b : UInt64} (h : Within a n x) (fits : (a - b).toNat + n ≤ 2 ^ 64) :
    ¬ Within b (a - b).toNat x := by
  have := x.toNat_lt
  have := a.toNat_lt
  have := b.toNat_lt
  simp only [Within, UInt64.toNat_sub] at h fits ⊢
  omega

/-! ### Bytes -/

def readBytes (m : Memory) (a : UInt64) : Nat → List UInt8
  | 0 => []
  | n + 1 => m a :: readBytes m (a + 1) n

def writeBytes (m : Memory) (a : UInt64) (bs : List UInt8) : Memory :=
  fun x => bs[(x - a).toNat]?.getD (m x)

theorem writeBytes_outside {bs : List UInt8} (h : ¬ Within a bs.length x) :
    m.writeBytes a bs x = m x := by
  unfold Within at h
  simp [writeBytes, List.getElem?_eq_none (Nat.le_of_not_lt h)]

theorem readBytes_congr (bound : n ≤ 2 ^ 64) (same : ∀ x, Within a n x → m' x = m x) :
    m'.readBytes a n = m.readBytes a n := by
  induction n generalizing a with
  | zero => rfl
  | succ n ih =>
    have first : m' a = m a := same a (by simp [Within])
    have rest : ∀ x, Within (a + 1) n x → m' x = m x := by
      intro x hx
      apply same x
      have := a.toNat_lt
      simp only [Within, UInt64.toNat_sub, UInt64.toNat_add, UInt64.reduceToNat] at hx ⊢
      omega
    rw [readBytes, readBytes, first, ih (by omega) rest]

theorem readBytes_getElem {i : Nat} (h : i < n) :
    (m.readBytes a n)[i]? = some (m (a + UInt64.ofNat i)) := by
  induction n generalizing a i with
  | zero => omega
  | succ n ih =>
    cases i with
    | zero => simp [readBytes]
    | succ i =>
      rw [readBytes, List.getElem?_cons_succ, ih (by omega)]
      congr 2
      rw [UInt64.ofNat_add, UInt64.add_assoc, UInt64.add_comm 1]
      rfl

@[simp] theorem readBytes_length : (m.readBytes a n).length = n := by
  induction n generalizing a with
  | zero => rfl
  | succ n ih => simp [readBytes, ih]

theorem readBytes_writeBytes {bs : List UInt8} (bound : bs.length ≤ 2 ^ 64) :
    (m.writeBytes a bs).readBytes a bs.length = bs := by
  apply List.ext_getElem?
  intro i
  by_cases inside : i < bs.length
  · rw [readBytes_getElem inside, writeBytes]
    have offset : (a + UInt64.ofNat i - a).toNat = i := by
      have := a.toNat_lt
      simp only [UInt64.toNat_sub, UInt64.toNat_add, UInt64.toNat_ofNat']
      omega
    rw [offset, List.getElem?_eq_getElem inside]
    rfl
  · rw [List.getElem?_eq_none (by simpa using inside), List.getElem?_eq_none (by omega)]

/-! ### Words -/

/-- The number whose bytes are `bs`, least significant first. -/
def ofBytes : List UInt8 → Nat
  | [] => 0
  | b :: bs => b.toNat + 256 * ofBytes bs

/-- The `n` least significant bytes of a number, least significant first. -/
def toBytes : Nat → Nat → List UInt8
  | 0, _ => []
  | n + 1, v => UInt8.ofNat v :: toBytes n (v / 256)

@[simp] theorem toBytes_length (n v : Nat) : (toBytes n v).length = n := by
  induction n generalizing v with
  | zero => rfl
  | succ n ih => simp [toBytes, ih]

theorem ofBytes_toBytes (n v : Nat) : ofBytes (toBytes n v) = v % 256 ^ n := by
  induction n generalizing v with
  | zero => simp [toBytes, ofBytes, Nat.mod_one]
  | succ n ih =>
    rw [toBytes, ofBytes, ih, pow_succ, Nat.mul_comm (256 ^ n), Nat.mod_mul, UInt8.toNat_ofNat']

theorem toBytes_ofBytes (bs : List UInt8) : toBytes bs.length (ofBytes bs) = bs := by
  induction bs with
  | nil => rfl
  | cons b bs ih =>
    have small := b.toNat_lt
    have low : UInt8.ofNat (b.toNat + 256 * ofBytes bs) = b := by
      apply UInt8.toNat_inj.mp
      rw [UInt8.toNat_ofNat']
      omega
    have high : (b.toNat + 256 * ofBytes bs) / 256 = ofBytes bs := by omega
    rw [List.length_cons, ofBytes, toBytes, low, high, ih]

theorem ofBytes_lt (bs : List UInt8) : ofBytes bs < 256 ^ bs.length := by
  induction bs with
  | nil => simp [ofBytes]
  | cons b bs ih =>
    have small := b.toNat_lt
    rw [List.length_cons, ofBytes, pow_succ]
    omega

def read64 (m : Memory) (a : UInt64) : UInt64 := UInt64.ofNat (ofBytes (m.readBytes a 8))

def write64 (m : Memory) (a v : UInt64) : Memory := m.writeBytes a (toBytes 8 v.toNat)

theorem write64_outside (h : ¬ Within a 8 x) : m.write64 a v x = m x :=
  writeBytes_outside (by simpa using h)

@[simp] theorem read64_write64 : (m.write64 a v).read64 a = v := by
  have same : (m.write64 a v).readBytes a (toBytes 8 v.toNat).length = toBytes 8 v.toNat :=
    readBytes_writeBytes (by simp)
  rw [toBytes_length] at same
  have small : v.toNat < 256 ^ 8 := v.toNat_lt
  rw [read64, same, ofBytes_toBytes, Nat.mod_eq_of_lt small, UInt64.ofNat_toNat]

/-- Equal words have equal bytes. -/
theorem read64_inj (same : m'.read64 a = m.read64 a) (inside : Within a 8 x) : m' x = m x := by
  have small : ∀ m : Memory, ofBytes (m.readBytes a 8) < 2 ^ 64 := by
    intro m
    have bound := ofBytes_lt (m.readBytes a 8)
    rwa [readBytes_length] at bound
  have numbers : ofBytes (m'.readBytes a 8) = ofBytes (m.readBytes a 8) := by
    have words := congrArg UInt64.toNat same
    rw [read64, read64, UInt64.toNat_ofNat_of_lt' (small m'), UInt64.toNat_ofNat_of_lt' (small m)]
      at words
    exact words
  have bytes : m'.readBytes a 8 = m.readBytes a 8 := by
    rw [← toBytes_ofBytes (m'.readBytes a 8), ← toBytes_ofBytes (m.readBytes a 8), numbers]
    simp only [readBytes_length]
  have at_x : ∀ m : Memory, (m.readBytes a 8)[(x - a).toNat]? = some (m x) := by
    intro m
    rw [readBytes_getElem inside, UInt64.ofNat_toNat, UInt64.add_comm, UInt64.sub_add_cancel]
  have both := congrArg (fun bs => bs[(x - a).toNat]?) bytes
  rw [at_x, at_x] at both
  exact Option.some.inj both

def readWords (m : Memory) (a : UInt64) : Nat → List UInt64
  | 0 => []
  | n + 1 => m.read64 a :: readWords m (a + 8) n

@[simp] theorem readWords_length : (m.readWords a n).length = n := by
  induction n generalizing a with
  | zero => rfl
  | succ n ih => simp [readWords, ih]

theorem readWords_congr (bound : 8 * n ≤ 2 ^ 64) (same : ∀ x, Within a (8 * n) x → m' x = m x) :
    m'.readWords a n = m.readWords a n := by
  induction n generalizing a with
  | zero => rfl
  | succ n ih =>
    have first : m'.read64 a = m.read64 a := by
      unfold read64
      rw [readBytes_congr (by decide) fun x hx => same x (Nat.lt_of_lt_of_le hx (by omega))]
    have rest : ∀ x, Within (a + 8) (8 * n) x → m' x = m x := by
      intro x hx
      apply same x
      have := a.toNat_lt
      simp only [Within, UInt64.toNat_sub, UInt64.toNat_add, UInt64.reduceToNat] at hx ⊢
      omega
    rw [readWords, readWords, first, ih (by omega) rest]

/-- Two memories hold the same words exactly when they hold the same bytes. -/
theorem readWords_eq_iff (bound : 8 * n ≤ 2 ^ 64) :
    m'.readWords a n = m.readWords a n ↔ ∀ x, Within a (8 * n) x → m' x = m x := by
  refine ⟨fun same => ?_, readWords_congr bound⟩
  induction n generalizing a with
  | zero => exact fun x inside => absurd inside (Nat.not_lt_zero _)
  | succ n ih =>
    rw [readWords, readWords, List.cons.injEq] at same
    intro x inside
    by_cases first : Within a 8 x
    · exact read64_inj same.1 first
    · apply ih (by omega) same.2 x
      have := a.toNat_lt
      simp only [Within, UInt64.toNat_sub, UInt64.toNat_add, UInt64.reduceToNat] at inside first ⊢
      omega

theorem readWords_append (k : Nat) :
    m.readWords a (n + k) = m.readWords a n ++ m.readWords (a + 8 * UInt64.ofNat n) k := by
  induction n generalizing a with
  | zero => simp [readWords]
  | succ n ih =>
    rw [Nat.succ_add, readWords, readWords, ih, List.cons_append]
    congr 3
    rw [UInt64.ofNat_add, UInt64.mul_add, ← UInt64.add_assoc, UInt64.add_assoc,
      UInt64.add_comm 8, ← UInt64.add_assoc]
    rfl

/-! ### Words stored one after another -/

def storeAll (m : Memory) : UInt64 → List UInt64 → Memory
  | _, [] => m
  | a, w :: ws => storeAll (m.write64 a w) (a + 8) ws

theorem storeAll_outside {ws : List UInt64} (bound : 8 * ws.length ≤ 2 ^ 64)
    (h : ¬ Within a (8 * ws.length) x) : m.storeAll a ws x = m x := by
  induction ws generalizing m a with
  | nil => rfl
  | cons w ws ih =>
    have far : ¬ Within a 8 x ∧ ¬ Within (a + 8) (8 * ws.length) x := by
      have := a.toNat_lt
      have := x.toNat_lt
      simp only [Within, List.length_cons, UInt64.toNat_sub, UInt64.toNat_add,
        UInt64.reduceToNat] at h bound ⊢
      omega
    rw [List.length_cons] at bound
    rw [storeAll, ih (by omega) far.2, write64_outside far.1]

/-- The words stored are read back. -/
theorem storeAll_words (m : Memory) (a : UInt64) (ws : List UInt64)
    (bound : 8 * ws.length ≤ 2 ^ 64) :
    (m.storeAll a ws).readWords a ws.length = ws := by
  induction ws generalizing m a with
  | nil => rfl
  | cons w ws ih =>
    rw [List.length_cons] at bound
    have first : (storeAll (m.write64 a w) (a + 8) ws).read64 a = w := by
      have kept : (storeAll (m.write64 a w) (a + 8) ws).readBytes a 8 =
          (m.write64 a w).readBytes a 8 := by
        refine readBytes_congr (by decide) fun x inside => storeAll_outside (by omega) ?_
        have := a.toNat_lt
        have := x.toNat_lt
        simp only [Within, UInt64.toNat_sub, UInt64.toNat_add, UInt64.reduceToNat] at inside ⊢
        omega
      have written : (m.write64 a w).read64 a = w := read64_write64
      rwa [read64, kept]
    rw [storeAll, List.length_cons, readWords, first, ih _ _ (by omega)]

/-! ### A stack that grows down -/

/-- The values of `vs` pushed in order on the stack at `sp`: the memory and the stack pointer. -/
def pushAll (m : Memory) (sp : UInt64) : List UInt64 → Memory × UInt64
  | [] => (m, sp)
  | v :: vs => pushAll (m.write64 (sp - 8) v) (sp - 8) vs

variable {sp : UInt64} {vs ws : List UInt64}

theorem pushAll_pointer : (m.pushAll sp vs).2 = sp - 8 * UInt64.ofNat vs.length := by
  induction vs generalizing m sp with
  | nil => simp [pushAll]
  | cons v vs ih =>
    rw [pushAll, ih, List.length_cons, UInt64.ofNat_add]
    grind

/-- Pushing changes the bytes below the stack pointer that it fills, and no others. -/
theorem pushAll_outside (bound : 8 * vs.length ≤ 2 ^ 64)
    (h : ¬ Within (m.pushAll sp vs).2 (8 * vs.length) x) : (m.pushAll sp vs).1 x = m x := by
  induction vs generalizing m sp with
  | nil => rfl
  | cons v vs ih =>
    have far : ¬ Within (sp - 8) 8 x ∧
        ¬ Within (pushAll (m.write64 (sp - 8) v) (sp - 8) vs).2 (8 * vs.length) x := by
      rw [pushAll, pushAll_pointer] at h
      rw [pushAll_pointer]
      have := sp.toNat_lt
      simp only [Within, List.length_cons, UInt64.toNat_sub, UInt64.toNat_mul, UInt64.toNat_ofNat',
        UInt64.reduceToNat] at h bound ⊢
      omega
    simp only [List.length_cons] at bound
    rw [pushAll, ih (by omega) far.2, write64_outside far.1]

/-- Words on the stack, and then those pushed on it, are read back from the new stack pointer, the
last pushed first. -/
theorem pushAll_readWords (bound : 8 * (vs.length + ws.length) ≤ 2 ^ 64)
    (held : m.readWords sp ws.length = ws) :
    (m.pushAll sp vs).1.readWords (m.pushAll sp vs).2 (vs.length + ws.length) =
      vs.reverse ++ ws := by
  induction vs generalizing m sp ws with
  | nil => simpa [pushAll] using held
  | cons v vs ih =>
    have held' : (m.write64 (sp - 8) v).readWords (sp - 8) (v :: ws).length = v :: ws := by
      rw [List.length_cons, readWords, read64_write64, UInt64.sub_add_cancel]
      congr 1
      rw [readWords_congr (m := m) (by simp at bound; omega), held]
      intro x hx
      apply write64_outside
      have := sp.toNat_lt
      simp only [Within, List.length_cons, UInt64.toNat_sub, UInt64.reduceToNat] at hx bound ⊢
      omega
    have all := ih (by simp at bound ⊢; omega) held'
    rw [pushAll]
    simp only [List.length_cons, List.reverse_cons, List.append_assoc, List.singleton_append]
      at all ⊢
    rw [← all]
    congr 1
    omega

/-- The words pushed are read back from the new stack pointer, the last pushed first. -/
theorem pushAll_words (m : Memory) (sp : UInt64) {vs : List UInt64}
    (bound : 8 * vs.length ≤ 2 ^ 64) :
    (m.pushAll sp vs).1.readWords (m.pushAll sp vs).2 vs.length = vs.reverse := by
  have all := @pushAll_readWords m sp vs [] bound rfl
  rwa [List.length_nil, Nat.add_zero, List.append_nil] at all

end Memory

end Microkernel.Lib
