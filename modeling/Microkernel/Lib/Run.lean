import Mathlib.Algebra.Ring.Nat
import Mathlib.Data.List.Induction

/-! Runs of a labelled transition system: the events in order, and the rules that lift what one
step preserves to what a whole run preserves. -/

namespace Microkernel.Lib

variable {σ ε : Type*}

/-- The events `es`, in order, lead from `s` to `t` by steps of `R`. -/
inductive Run (R : σ → ε → σ → Prop) (s : σ) : List ε → σ → Prop
  | nil : Run R s [] s
  | snoc {es : List ε} {e : ε} {t u : σ} : Run R s es t → R t e u → Run R s (es ++ [e]) u

/-- The steps of `R` whose event meets the condition `C` in the state before it. -/
def Guarded (C : σ → ε → Prop) (R : σ → ε → σ → Prop) (s : σ) (e : ε) (t : σ) : Prop :=
  C s e ∧ R s e t

/-- The steps of `R` with a record beside the state, which `note` brings up to date from the state
before the step and the event. -/
def Recorded {ρ : Type*} (note : σ → ε → ρ → ρ) (R : σ → ε → σ → Prop) (s : σ × ρ) (e : ε)
    (t : σ × ρ) : Prop :=
  R s.1 e t.1 ∧ t.2 = note s.1 e s.2

namespace Run

variable {R S : σ → ε → σ → Prop} {s t u : σ} {es fs : List ε} {e : ε}

theorem invariant {I : σ → Prop} (run : Run R s es t) (start : I s)
    (keep : ∀ a e b, I a → R a e b → I b) : I t := by
  induction run with
  | nil => exact start
  | snoc _ step ih => exact keep _ _ _ ih step

theorem mono (run : Run R s es t) (sub : ∀ a e b, R a e b → S a e b) : Run S s es t := by
  induction run with
  | nil => exact .nil
  | snoc _ step ih => exact .snoc ih (sub _ _ _ step)

theorem single (step : R s e t) : Run R s [e] t := .snoc .nil step

theorem append (first : Run R s es t) (second : Run R t fs u) : Run R s (es ++ fs) u := by
  induction second with
  | nil => simpa using first
  | snoc _ step ih =>
    rw [← List.append_assoc]
    exact .snoc ih step

theorem nil_inv (run : Run R s [] t) : t = s := by
  generalize h : ([] : List ε) = es at run
  cases run with
  | nil => rfl
  | snoc _ _ => simp at h

theorem snoc_inv (run : Run R s (es ++ [e]) u) : ∃ t, Run R s es t ∧ R t e u := by
  generalize h : es ++ [e] = xs at run
  cases run with
  | nil => simp at h
  | snoc before step =>
    obtain ⟨rfl, last⟩ := List.append_inj' h rfl
    obtain rfl : e = _ := by simpa using last
    exact ⟨_, before, step⟩

/-- A run passes through a state wherever its events are cut. -/
theorem split (run : Run R s (es ++ fs) u) : ∃ t, Run R s es t ∧ Run R t fs u := by
  induction fs using List.reverseRecOn generalizing u with
  | nil => exact ⟨u, by simpa using run, .nil⟩
  | append_singleton fs e ih =>
    rw [← List.append_assoc] at run
    obtain ⟨v, before, step⟩ := run.snoc_inv
    obtain ⟨t, first, second⟩ := ih before
    exact ⟨t, first, .snoc second step⟩

theorem cons_inv (run : Run R s (e :: es) u) : ∃ t, R s e t ∧ Run R t es u := by
  rw [← List.singleton_append] at run
  obtain ⟨t, first, rest⟩ := run.split
  rw [← List.nil_append [e]] at first
  obtain ⟨t', before, step⟩ := first.snoc_inv
  rw [before.nil_inv] at step
  exact ⟨t, step, rest⟩

/-- While the goal is not reached, every step pays the cost of its event from the budget `f`, which
is positive.  Then events that cost at least the first state's budget have a prefix within that
budget that reaches the goal. -/
theorem reaches {I goal : σ → Prop} {cost : ε → Nat} {f : σ → Nat} (run : Run R s es t)
    (start : I s) (keep : ∀ a e b, I a → R a e b → I b)
    (pay : ∀ a e b, I a → ¬ goal a → R a e b → f b + cost e ≤ f a)
    (positive : ∀ a, I a → ¬ goal a → 0 < f a) (enough : f s ≤ (es.map cost).sum) :
    ∃ xs ys m, es = xs ++ ys ∧ Run R s xs m ∧ goal m ∧ (xs.map cost).sum ≤ f s := by
  induction es generalizing s with
  | nil =>
    by_cases reached : goal s
    · exact ⟨[], [], s, rfl, .nil, reached, by simp⟩
    · have := positive s start reached
      simp at enough
      omega
  | cons e es ih =>
    by_cases reached : goal s
    · exact ⟨[], e :: es, s, rfl, .nil, reached, by simp⟩
    · obtain ⟨b, step, rest⟩ := run.cons_inv
      have paid := pay s e b start reached step
      simp only [List.map_cons, List.sum_cons] at enough
      obtain ⟨xs, ys, m, rfl, before, hm, within⟩ :=
        ih rest (keep s e b start step) (by omega)
      refine ⟨e :: xs, ys, m, rfl, (single step).append before, hm, ?_⟩
      simp only [List.map_cons, List.sum_cons]
      omega

/-- Where the goal is not reached, the event `e` can happen and brings the rank down.  Then the goal
is reached by repeating it. -/
theorem descends {I goal : σ → Prop} {f : σ → Nat} (start : I s)
    (down : ∀ a, I a → ¬ goal a → ∃ b, R a e b ∧ I b ∧ f b < f a) :
    ∃ n t, Run R s (List.replicate n e) t ∧ I t ∧ goal t := by
  induction bound : f s using Nat.strongRecOn generalizing s with
  | ind m ih =>
    by_cases reached : goal s
    · exact ⟨0, s, .nil, start, reached⟩
    · obtain ⟨b, step, kept, less⟩ := down s start reached
      obtain ⟨n, t, rest, final, arrived⟩ := ih (f b) (bound ▸ less) kept rfl
      exact ⟨n + 1, t, (single step).append rest, final, arrived⟩

end Run

end Microkernel.Lib
