import Mathlib.Algebra.BigOperators.Intervals
import Mathlib.Data.Nat.Count
import Mathlib.Data.Nat.Factorization.Basic
import Mathlib.Tactic.Ring

/-! Two parties with periods `p < q` take turns by one counter: the one that holds the turn passes
it on when the counter reaches a multiple of its own period.  In each window of `q` counts the party
with period `p` holds the turn first, up to the next multiple of `p`. -/

namespace Microkernel.Lib.Rotation

open Finset

/-- One count.  The counter wraps at `wrap`; the party with period `p` holds the turn if the flag is
set. -/
def tick (p q wrap : Nat) (s : Nat × Bool) : Nat × Bool :=
  let t := (s.1 + 1) % wrap
  (t, if t % (if s.2 then p else q) = 0 then !s.2 else s.2)

/-- The counts from the start of window `a` to the next multiple of `p`. -/
def part (p q a : Nat) : Nat := p - a * q % p

/-- Count `t` is in the part of its window that belongs to the party with period `p`. -/
def inPart (p q t : Nat) : Bool := t % q < part p q (t / q)

/-- The party with period `p` holds the turn at count `t`, where it holds the turn at 0 if `s`. -/
def holdsFrom (p q : Nat) (s : Bool) (t : Nat) : Bool := (s || q ≤ t) && inPart p q t

/-- The party with period `p` holds the turn after `i` counts, where it holds it at first if
`first`.  When the counter wraps, the turn is passed on. -/
def holds (p q wrap : Nat) (first : Bool) (i : Nat) : Bool :=
  holdsFrom p q (if i / wrap = 0 then first else !inPart p q (wrap - 1)) (i % wrap)

variable {p q wrap i t n k a r : Nat} {s first : Bool}

theorem part_pos (pos : 0 < p) (a : Nat) : 0 < part p q a := Nat.sub_pos_of_lt (Nat.mod_lt _ pos)

theorem part_le (a : Nat) : part p q a ≤ p := Nat.sub_le _ _

/-- In its part of a window the party comes to a multiple of its period exactly at the end. -/
theorem multiple_iff (pos : 0 < p) (inside : r < part p q a) :
    (a * q + r + 1) % p = 0 ↔ r + 1 = part p q a := by
  unfold part at *
  have small := Nat.mod_lt (a * q) pos
  rw [Nat.add_assoc, Nat.add_mod, Nat.add_mod_mod]
  constructor
  · intro multiple
    by_contra before
    rw [Nat.mod_eq_of_lt (show a * q % p + (r + 1) < p by omega)] at multiple
    omega
  · intro last
    rw [show a * q % p + (r + 1) = p by omega, Nat.mod_self]

theorem inPart_window (inside : r < q) : inPart p q (a * q + r) = decide (r < part p q a) := by
  have width : 0 < q := Nat.lt_of_le_of_lt (Nat.zero_le r) inside
  have place : (a * q + r) / q = a := by
    rw [Nat.add_comm, Nat.add_mul_div_right _ _ width, Nat.div_eq_of_lt inside, Nat.zero_add]
  rw [inPart, Nat.mul_add_mod', Nat.mod_eq_of_lt inside, place]

theorem le_window (inside : r < q) : q ≤ a * q + r ↔ 1 ≤ a := by
  constructor
  · intro late
    by_contra early
    obtain rfl : a = 0 := by omega
    omega
  · intro late
    exact Nat.le_trans (Nat.le_mul_of_pos_left q late) (Nat.le_add_right _ _)

theorem holdsFrom_window (inside : r < q) :
    holdsFrom p q s (a * q + r) = ((s || 1 ≤ a) && r < part p q a) := by
  rw [holdsFrom, inPart_window inside]
  congr 2
  exact decide_eq_decide.mpr (le_window inside)

theorem holdsFrom_zero (pos : 0 < p) (less : p < q) : holdsFrom p q s 0 = s := by
  have width : 0 < q := Nat.lt_trans pos less
  have start := holdsFrom_window (p := p) (s := s) (a := 0) width
  rw [Nat.zero_mul] at start
  simp [start, part_pos pos]

/-- While the counter does not wrap, the turn passes as the windows say. -/
theorem holdsFrom_succ (pos : 0 < p) (less : p < q) :
    holdsFrom p q s (t + 1) =
      if (t + 1) % (if holdsFrom p q s t then p else q) = 0 then !holdsFrom p q s t
      else holdsFrom p q s t := by
  have width : 0 < q := Nat.lt_trans pos less
  obtain ⟨a, r, inside, rfl⟩ : ∃ a r, r < q ∧ t = a * q + r :=
    ⟨t / q, t % q, Nat.mod_lt t width, (Nat.div_add_mod' t q).symm⟩
  have bound := part_le (p := p) (q := q) a
  cases holding : holdsFrom p q s (a * q + r) with
  | true =>
    rw [holdsFrom_window inside, Bool.and_eq_true, decide_eq_true_eq] at holding
    -- The window does not end in the part of the party with period `p`.
    have next : r + 1 < q := by omega
    rw [if_pos rfl, Nat.add_assoc, holdsFrom_window next, holding.1, Bool.true_and, ← Nat.add_assoc]
    by_cases last : r + 1 = part p q a
    · rw [if_pos ((multiple_iff pos holding.2).mpr last)]
      simp [last]
    · rw [if_neg fun multiple => last ((multiple_iff pos holding.2).mp multiple)]
      exact decide_eq_true (by omega)
  | false =>
    rw [holdsFrom_window inside] at holding
    rw [if_neg Bool.false_ne_true]
    by_cases last : r + 1 = q
    · have wraps : a * q + r + 1 = (a + 1) * q + 0 := by
        rw [Nat.add_mul, Nat.one_mul]
        omega
      rw [wraps, holdsFrom_window width, Nat.mul_add_mod', Nat.zero_mod, if_pos rfl]
      simp [part_pos pos]
    · have next : r + 1 < q := by omega
      rw [Nat.add_assoc, holdsFrom_window next, Nat.mul_add_mod', Nat.mod_eq_of_lt next,
        if_neg (Nat.succ_ne_zero r)]
      rw [Bool.and_eq_false_iff] at holding ⊢
      refine holding.imp_right fun after => ?_
      simp at after ⊢
      omega

/-- The state after `i` counts, and the next one. -/
theorem tick_holds (pos : 0 < p) (less : p < q) (wide : q < wrap) :
    tick p q wrap (i % wrap, holds p q wrap first i) =
      ((i + 1) % wrap, holds p q wrap first (i + 1)) := by
  have positive : 0 < wrap := by omega
  obtain ⟨e, t, inside, rfl⟩ : ∃ e t, t < wrap ∧ i = e * wrap + t :=
    ⟨i / wrap, i % wrap, Nat.mod_lt i positive, (Nat.div_add_mod' i wrap).symm⟩
  have era : ∀ {e t}, t < wrap → (e * wrap + t) / wrap = e ∧ (e * wrap + t) % wrap = t := by
    intro e t inside
    rw [Nat.mul_add_mod', Nat.mod_eq_of_lt inside, Nat.add_comm,
      Nat.add_mul_div_right _ _ positive, Nat.div_eq_of_lt inside, Nat.zero_add]
    exact ⟨rfl, rfl⟩
  unfold tick holds
  rw [(era inside).1, (era inside).2]
  by_cases last : t + 1 = wrap
  · have wraps : e * wrap + t + 1 = (e + 1) * wrap + 0 := by
      rw [Nat.add_mul, Nat.one_mul]
      omega
    rw [wraps, (era positive).1, (era positive).2, last, Nat.mod_self]
    simp only [Nat.zero_mod, if_true, Nat.succ_ne_zero, if_false, holdsFrom_zero pos less]
    have late : q ≤ t := by omega
    rw [show wrap - 1 = t by omega]
    simp [holdsFrom, late]
  · have next : t + 1 < wrap := by omega
    rw [Nat.add_assoc, (era next).1, (era next).2, Nat.mod_eq_of_lt next]
    exact congrArg (Prod.mk _) (holdsFrom_succ pos less).symm

/-! ### Shares -/

/-- Of the first `n` counts, those at which the party with period `p` holds the turn. -/
def share (p q wrap : Nat) (first : Bool) (n : Nat) : Nat := Nat.count (holds p q wrap first ·) n

theorem count_congr {f g : Nat → Bool} (same : ∀ i < n, f i = g i) :
    Nat.count (f ·) n = Nat.count (g ·) n := by
  induction n with
  | zero => rfl
  | succ n ih =>
    rw [Nat.count_succ, Nat.count_succ, ih fun i less => same i (Nat.lt_succ_of_lt less),
      same n (Nat.lt_succ_self n)]

theorem count_below (d : Nat) (fits : d ≤ n) : Nat.count (fun r => decide (r < d)) n = d := by
  have chosen : (range n).filter (fun r => decide (r < d) = true) = range d := by
    ext r
    simp only [mem_filter, mem_range, decide_eq_true_eq]
    omega
  rw [Nat.count_eq_card_filter_range, chosen, card_range]

/-- The counts of the party in the first `m` windows. -/
theorem count_windows (less : p < q) (m : Nat) :
    Nat.count (inPart p q ·) (m * q) = ∑ a ∈ range m, part p q a := by
  induction m with
  | zero => simp
  | succ m ih =>
    have window : Nat.count (fun r => inPart p q (m * q + r)) q = part p q m := by
      rw [count_congr fun r inside => inPart_window inside]
      exact count_below _ ((part_le m).trans less.le)
    rw [Nat.succ_mul, Nat.count_add, ih, window, sum_range_succ]

/-- Two numbers of windows that add up to a multiple of `p` leave parts that add up. -/
theorem mod_add_mod (pos : 0 < p) {b : Nat} (sum : a + b = p) :
    a * q % p + b * q % p = if p ∣ a * q then 0 else p := by
  have multiple : (a * q % p + b * q % p) % p = 0 := by
    rw [← Nat.add_mod, ← Nat.add_mul, sum]
    exact Nat.mul_mod_right p q
  have small := Nat.mod_lt (a * q) pos
  have small' := Nat.mod_lt (b * q) pos
  split
  next divides =>
    rw [Nat.mod_eq_zero_of_dvd divides, Nat.zero_add] at multiple ⊢
    rwa [Nat.mod_eq_of_lt small'] at multiple
  next rest =>
    have positive : 0 < a * q % p :=
      Nat.pos_of_ne_zero fun zero => rest (Nat.dvd_of_mod_eq_zero zero)
    obtain ⟨c, value⟩ := Nat.dvd_of_mod_eq_zero multiple
    have one : c = 1 := by
      have : 0 < c := by
        by_contra zero
        obtain rfl : c = 0 := by omega
        omega
      have : c < 2 := by
        by_contra two
        have := Nat.mul_le_mul_left p (Nat.le_of_not_lt two)
        omega
      omega
    rw [value, one, Nat.mul_one]

/-- Of the first `p` multiples of `q`, `gcd p q` are multiples of `p`. -/
theorem card_multiples_gcd (pos : 0 < p) :
    #{j ∈ range p | p ∣ (j + 1) * q} = Nat.gcd p q := by
  have common : 0 < Nat.gcd p q := Nat.gcd_pos_of_pos_left q pos
  have reduced : ∀ j, p ∣ (j + 1) * q ↔ p / Nat.gcd p q ∣ j + 1 := by
    intro j
    rw [← Nat.dvd_mul_gcd_iff_dvd_mul, Nat.mul_comm,
      Nat.div_dvd_iff_dvd_mul (Nat.gcd_dvd_left p q) common]
  simp only [reduced]
  rw [Nat.card_multiples, Nat.div_div_self (Nat.gcd_dvd_left p q) pos.ne']

/-- What is left over of the windows, each with the one that mirrors it. -/
theorem sum_mod (pos : 0 < p) :
    2 * ∑ a ∈ range p, a * q % p + p * Nat.gcd p q = p * p := by
  have shifted : ∑ j ∈ range p, (j + 1) * q % p = ∑ a ∈ range p, a * q % p := by
    have first := sum_range_succ' (fun a => a * q % p) p
    rw [sum_range_succ, Nat.mul_mod_right, Nat.zero_mul, Nat.zero_mod] at first
    exact first.symm
  have mirrored : ∑ j ∈ range p, (p - 1 - j) * q % p = ∑ a ∈ range p, a * q % p :=
    sum_range_reflect (fun a => a * q % p) p
  have pairs : ∑ j ∈ range p, ((j + 1) * q % p + (p - 1 - j) * q % p) +
      ∑ j ∈ range p, (if p ∣ (j + 1) * q then p else 0) = p * p := by
    rw [← sum_add_distrib]
    have each : ∀ j ∈ range p, (j + 1) * q % p + (p - 1 - j) * q % p +
        (if p ∣ (j + 1) * q then p else 0) = p := by
      intro j mem
      have inside := mem_range.mp mem
      rw [mod_add_mod pos (show j + 1 + (p - 1 - j) = p by omega)]
      split
      · exact Nat.zero_add p
      · exact Nat.add_zero p
    rw [sum_congr rfl each, sum_const, card_range, smul_eq_mul]
  rw [sum_add_distrib, shifted, mirrored, ← sum_filter, sum_const, card_multiples_gcd pos,
    smul_eq_mul, Nat.mul_comm (Nat.gcd p q)] at pairs
  omega

theorem sum_part (pos : 0 < p) :
    2 * ∑ a ∈ range p, part p q a = p * (p + Nat.gcd p q) := by
  have both : ∑ a ∈ range p, part p q a + ∑ a ∈ range p, a * q % p = p * p := by
    rw [← sum_add_distrib]
    have each : ∀ a ∈ range p, part p q a + a * q % p = p := fun a _ =>
      Nat.sub_add_cancel (Nat.mod_lt _ pos).le
    rw [sum_congr rfl each, sum_const, card_range, smul_eq_mul]
  have left := sum_mod (q := q) pos
  rw [Nat.mul_add]
  omega

/-- The parts repeat after `p` windows. -/
theorem sum_parts (pos : 0 < p) (k : Nat) :
    2 * ∑ a ∈ range (k * p), part p q a = k * (p * (p + Nat.gcd p q)) := by
  induction k with
  | zero => simp
  | succ k ih =>
    have again : ∀ a, part p q (k * p + a) = part p q a := by
      intro a
      rw [part, part, Nat.add_mul, Nat.mul_right_comm, Nat.mul_add_mod']
    rw [Nat.add_mul k 1 p, Nat.one_mul, sum_range_add, Nat.mul_add, ih]
    simp only [again]
    rw [sum_part pos, Nat.add_mul k 1, Nat.one_mul]

/-! ### Who has the larger share -/

theorem share_inside (fits : n ≤ wrap) :
    share p q wrap first n = Nat.count (holdsFrom p q first ·) n := by
  refine count_congr fun i less => ?_
  have inside : i < wrap := Nat.lt_of_lt_of_le less fits
  rw [holds, Nat.div_eq_of_lt inside, Nat.mod_eq_of_lt inside, if_pos rfl]

/-- The party that begins with the turn has all of its part of the first window, and the other one
loses it. -/
theorem count_holdsFrom (less : p < q) (long : q ≤ n) :
    Nat.count (holdsFrom p q first ·) n + (if first then 0 else p) =
      Nat.count (inPart p q ·) n := by
  cases first with
  | true =>
    rw [if_pos rfl, Nat.add_zero]
    exact count_congr fun i _ => by rw [holdsFrom, Bool.true_or, Bool.true_and]
  | false =>
    obtain ⟨d, rfl⟩ := Nat.exists_eq_add_of_le long
    have early : Nat.count (holdsFrom p q false ·) q = 0 := by
      rw [count_congr (g := fun _ => false) fun i inside => by
        rw [holdsFrom, decide_eq_false (Nat.not_le_of_lt inside), Bool.or_false, Bool.false_and]]
      simp
    have late : Nat.count (fun i => holdsFrom p q false (q + i)) d =
        Nat.count (fun i => inPart p q (q + i)) d := count_congr fun i _ => by
      rw [holdsFrom, decide_eq_true (Nat.le_add_right q i), Bool.or_true, Bool.true_and]
    have window : Nat.count (inPart p q ·) q = p := by
      have one := count_windows less 1
      rw [Nat.one_mul] at one
      rw [one, sum_range_one, part, Nat.zero_mul, Nat.zero_mod, Nat.sub_zero]
    rw [Nat.count_add, Nat.count_add, early, late, window]
    simp
    omega

theorem le_add_gcd_iff (less : p < q) : q ≤ p + Nat.gcd p q ↔ q - p ∣ p := by
  have divides : Nat.gcd p q ∣ q - p := Nat.dvd_sub (Nat.gcd_dvd_right p q) (Nat.gcd_dvd_left p q)
  have small := Nat.le_of_dvd (Nat.sub_pos_of_lt less) divides
  constructor
  · intro most
    have same : Nat.gcd p q = q - p := by omega
    exact same ▸ Nat.gcd_dvd_left p q
  · intro common
    have other : q - p ∣ q := by
      have sum := Nat.dvd_add common (Nat.dvd_refl (q - p))
      rwa [Nat.add_sub_cancel' less.le] at sum
    have := Nat.le_of_dvd (Nat.gcd_pos_of_pos_right p (by omega)) (Nat.dvd_gcd common other)
    omega

/-- Over whole periods before the counter wraps, the party with the smaller period holds the turn at
least half of the time exactly when it begins and the difference of the periods divides its own. -/
theorem share_iff (pos : 0 < p) (less : p < q) (some_periods : 0 < k) (fits : k * p * q ≤ wrap) :
    k * p * q ≤ 2 * share p q wrap first (k * p * q) ↔ first = true ∧ q - p ∣ p := by
  have windows : 0 < k * p := Nat.mul_pos some_periods pos
  have long : q ≤ k * p * q := Nat.le_mul_of_pos_left q windows
  have counted : Nat.count (holdsFrom p q first ·) (k * p * q) + (if first then 0 else p) =
      Nat.count (inPart p q ·) (k * p * q) := count_holdsFrom less long
  have total := sum_parts (q := q) pos k
  rw [count_windows less] at counted
  rw [share_inside fits, ← le_add_gcd_iff less]
  have small : p + Nat.gcd p q ≤ q := by
    have divides : Nat.gcd p q ∣ q - p :=
      Nat.dvd_sub (Nat.gcd_dvd_right p q) (Nat.gcd_dvd_left p q)
    have := Nat.le_of_dvd (Nat.sub_pos_of_lt less) divides
    omega
  have all : k * (p * (p + Nat.gcd p q)) = k * p * (p + Nat.gcd p q) := by ring
  have bound := Nat.mul_le_mul_left (k * p) small
  cases first with
  | true =>
    rw [if_pos rfl, Nat.add_zero] at counted
    rw [counted, total, all, Nat.mul_le_mul_left_iff windows]
    exact (and_iff_right rfl).symm
  | false =>
    rw [if_neg Bool.false_ne_true] at counted
    refine iff_of_false (fun most => ?_) fun both => Bool.false_ne_true both.1
    omega

end Microkernel.Lib.Rotation
