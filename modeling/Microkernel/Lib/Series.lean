import Mathlib.Data.List.Nodup
import Mathlib.Tactic.Common

/-! Computations that may fail: what a sequence of two gives, and successive calls of a function
with a state, of which the simplest takes what is left of a list from its front. -/

namespace Microkernel.Lib

/-- From a bind that gives a result, the result of its first part. -/
theorem bind_ok {ε α β : Type} {x : Except ε α} {f : α → Except ε β} {b : β}
    (h : x >>= f = .ok b) : ∃ a, x = .ok a ∧ f a = .ok b := by
  cases x with
  | error reason => cases h
  | ok a => exact ⟨a, rfl, h⟩

/-- A relation that every step of a loop keeps, from each state to the next one, holds from the
state before the loop to the one after it. -/
theorem foldlM_ok {ε σ α : Type} {R : σ → σ → Prop} {f : σ → α → Except ε σ} {l : List α} {s t : σ}
    (refl : ∀ s, R s s) (trans : ∀ {s t u}, R s t → R t u → R s u)
    (step : ∀ {s a t}, f s a = .ok t → R s t) (run : l.foldlM f s = .ok t) : R s t := by
  induction l generalizing s with
  | nil =>
    cases run
    exact refl t
  | cons a l ih =>
    rw [List.foldlM_cons] at run
    obtain ⟨mid, first, rest⟩ := bind_ok run
    exact trans (step first) (ih rest)

/-- A loop follows another one when each step does. -/
theorem foldlM_sim {ε σ τ α : Type} {R : σ → τ → Prop} {f : σ → α → Except ε σ}
    {g : τ → α → Except ε τ} {l : List α} {s s' : σ} {t : τ}
    (step : ∀ {s t a s'}, R s t → f s a = .ok s' → ∃ t', g t a = .ok t' ∧ R s' t')
    (start : R s t) (run : l.foldlM f s = .ok s') : ∃ t', l.foldlM g t = .ok t' ∧ R s' t' := by
  induction l generalizing s t with
  | nil =>
    cases run
    exact ⟨t, rfl, start⟩
  | cons a l ih =>
    rw [List.foldlM_cons] at run
    obtain ⟨mid, first, rest⟩ := bind_ok run
    obtain ⟨mid', first', rel⟩ := step start first
    obtain ⟨t', rest', rel'⟩ := ih rel rest
    refine ⟨t', ?_, rel'⟩
    rw [List.foldlM_cons, first']
    exact rest'

variable {σ τ α ε : Type*}

/-- The results of `n` calls, in order, and the state after them. -/
def calls (f : σ → Except ε (α × σ)) : Nat → σ → Except ε (List α × σ)
  | 0, s => .ok ([], s)
  | n + 1, s => do
    let (a, s) ← f s
    let (as, s) ← calls f n s
    .ok (a :: as, s)

/-- Two functions give the same results when their calls keep a relation between their states, which
may depend on how many calls are left. -/
theorem calls_sim {f : σ → Except ε (α × σ)} {g : τ → Except ε (α × τ)} {R : Nat → σ → τ → Prop}
    (sim : ∀ n s t, R (n + 1) s t → ∃ a s' t', f s = .ok (a, s') ∧ g t = .ok (a, t') ∧ R n s' t')
    {n : Nat} {s : σ} {t : τ} (start : R n s t) :
    ∃ as s' t', calls f n s = .ok (as, s') ∧ calls g n t = .ok (as, t') ∧ R 0 s' t' := by
  induction n generalizing s t with
  | zero => exact ⟨[], s, t, rfl, rfl, start⟩
  | succ n ih =>
    obtain ⟨a, s1, t1, first, first', rel⟩ := sim n s t start
    obtain ⟨as, s2, t2, rest, rest', done⟩ := ih rel
    refine ⟨a :: as, s2, t2, ?_, ?_, done⟩
    · simp [calls, first, rest, bind, Except.bind]
    · simp [calls, first', rest', bind, Except.bind]

/-- The front of a list, if it has one, and the rest. -/
def takeFront (left : List α) : Except ε (Option α × List α) := .ok (left.head?, left.tail)

/-- Call `i` gives item `i`, and nothing once the list is used up. -/
theorem calls_takeFront (n : Nat) (left : List α) :
    calls (ε := ε) takeFront n left = .ok ((List.range n).map (left[·]?), left.drop n) := by
  induction n generalizing left with
  | zero => rfl
  | succ n ih =>
    rw [List.range_succ_eq_map]
    cases left with
    | nil => simp [calls, takeFront, ih, bind, Except.bind, Function.comp_def]
    | cons a left => simp [calls, takeFront, ih, bind, Except.bind]

/-- The items that `n` calls take from the front of a list. -/
theorem taken_front (n : Nat) (left : List α) :
    ((List.range n).map (left[·]?)).filterMap id = left.take n := by
  induction n generalizing left with
  | zero => rfl
  | succ n ih =>
    rw [List.range_succ_eq_map]
    cases left with
    | nil => simp
    | cons a left => simpa using ih left

end Microkernel.Lib
