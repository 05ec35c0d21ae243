import Mathlib.Algebra.BigOperators.Group.Finset.Basic
import Mathlib.Algebra.Order.BigOperators.Group.Finset

/-! Positions on a ring of `n` places, the distance from one forward to another, and the walk that
stops at the first place where a test succeeds. -/

namespace Microkernel.Lib.Cyclic

def next (n i : Nat) : Nat := (i + 1) % n

/-- The number of places forward from `i` to `j`. -/
def dist (n i j : Nat) : Nat := if i ≤ j then j - i else j + n - i

/-- The walk from `i` that stops where `p` holds, or after `fuel` places. -/
def search (p : Nat → Bool) (n : Nat) : Nat → Nat → Nat
  | 0, i => i
  | fuel + 1, i => if p i then i else search p n fuel (next n i)

variable {p : Nat → Bool} {n i j w fuel : Nat}

theorem next_eq (hi : i < n) : next n i = if i + 1 = n then 0 else i + 1 := by
  unfold next
  split
  next last => rw [last, Nat.mod_self]
  next inner => exact Nat.mod_eq_of_lt (by omega)

theorem next_lt (hi : i < n) : next n i < n := by
  rw [next_eq hi]
  split <;> omega

theorem next_ne (hi : i < n) (many : 2 ≤ n) : next n i ≠ i := by
  rw [next_eq hi]
  split <;> omega

theorem dist_lt (hi : i < n) (hj : j < n) : dist n i j < n := by
  unfold dist
  split <;> omega

theorem dist_eq_zero (hi : i < n) : dist n i j = 0 ↔ i = j := by
  unfold dist
  split <;> omega

theorem dist_self : dist n i i = 0 := by simp [dist]

theorem dist_next (hi : i < n) (hw : w < n) (ne : i ≠ w) :
    dist n i w = dist n (next n i) w + 1 := by
  rw [next_eq hi]
  unfold dist
  split <;> split <;> split <;> omega

theorem search_lt (hi : i < n) : search p n fuel i < n := by
  induction fuel generalizing i with
  | zero => exact hi
  | succ fuel ih =>
    unfold search
    split
    · exact hi
    · exact ih (next_lt hi)

/-- A walk that has the fuel to reach a place `w` where `p` holds stops where `p` holds, and no
farther than `w`. -/
theorem search_reaches (hi : i < n) (hw : w < n) (found : p w) (enough : dist n i w < fuel) :
    p (search p n fuel i) ∧ dist n (search p n fuel i) w ≤ dist n i w := by
  induction fuel generalizing i with
  | zero => omega
  | succ fuel ih =>
    unfold search
    split
    next here => exact ⟨here, Nat.le_refl _⟩
    next absent =>
      have ne : i ≠ w := by
        rintro rfl
        exact absent found
      have closer := dist_next hi hw ne
      obtain ⟨stops, near⟩ := ih (next_lt hi) (by omega)
      exact ⟨stops, by omega⟩

theorem search_found (hi : i < n) (hw : w < n) (found : p w) : p (search p n n i) :=
  (search_reaches hi hw found (dist_lt hi hw)).1

theorem search_first (hi : i < n) (hw : w < n) (found : p w) :
    dist n (search p n n i) w ≤ dist n i w :=
  (search_reaches hi hw found (dist_lt hi hw)).2

/-- A walk that can reach a place where `p` holds stops at the first one. -/
theorem search_place (hi : i < n) (hw : w < n) (found : p w) (enough : dist n i w < fuel) :
    ∃ d < fuel, search p n fuel i = (i + d) % n ∧ p ((i + d) % n) ∧
      ∀ e < d, ¬ p ((i + e) % n) := by
  induction fuel generalizing i with
  | zero => omega
  | succ fuel ih =>
    unfold search
    have self : (i + 0) % n = i := Nat.mod_eq_of_lt hi
    split
    next here =>
      refine ⟨0, Nat.succ_pos fuel, self.symm, by rwa [self], fun e before => ?_⟩
      exact absurd before (Nat.not_lt_zero e)
    next absent =>
      have ne : i ≠ w := by
        rintro rfl
        exact absent found
      have closer := dist_next hi hw ne
      obtain ⟨d, less, stop, there, first⟩ := ih (next_lt hi) (by omega)
      have shift : ∀ e, (next n i + e) % n = (i + (e + 1)) % n := by
        intro e
        rw [next, Nat.mod_add_mod, Nat.add_assoc, Nat.add_comm 1 e]
      rw [shift] at stop there
      refine ⟨d + 1, by omega, stop, there, fun e before => ?_⟩
      cases e with
      | zero => rwa [self]
      | succ e =>
        rw [← shift]
        exact first e (by omega)

theorem search_absent (absent : ∀ j < n, ¬ p j) (hi : i < n) :
    search p n fuel i = (i + fuel) % n := by
  induction fuel generalizing i with
  | zero => exact (Nat.mod_eq_of_lt hi).symm
  | succ fuel ih =>
    unfold search
    rw [if_neg (absent i hi), ih (next_lt hi), next, Nat.mod_add_mod]
    congr 1
    omega

/-- A full walk of a ring where `p` holds nowhere ends where it began. -/
theorem search_none (absent : ∀ j < n, ¬ p j) (hi : i < n) : search p n n i = i := by
  rw [search_absent absent hi, Nat.add_mod_right, Nat.mod_eq_of_lt hi]

/-- A walk from the place after `i` comes nearer to a place `w` other than `i` where `p` holds. -/
theorem search_next_closer (hi : i < n) (hw : w < n) (found : p w) (ne : i ≠ w) :
    dist n (search p n n (next n i)) w < dist n i w := by
  have first := search_first (next_lt hi) hw found
  have closer := dist_next hi hw ne
  omega

/-! ### Weights along the ring -/

def before (n w d : Nat) : Nat := if d ≤ w then w - d else w + n - d

theorem before_dist (hi : i < n) : before n w (dist n i w) = i := by
  unfold before dist
  split <;> split <;> omega

theorem dist_before {d : Nat} (hd : d < n) : dist n (before n w d) w = d := by
  unfold before dist
  split <;> split <;> omega

theorem before_lt {d : Nat} (hd : d < n) (hw : w < n) : before n w d < n := by
  unfold before
  split <;> omega

/-- The weight of the places that come before `w` within distance `d`. -/
def weight (f : Nat → Nat) (n w d : Nat) : Nat :=
  ∑ e ∈ Finset.range d, f (before n w (e + 1))

theorem weight_mono (f : Nat → Nat) {d e : Nat} (h : d ≤ e) : weight f n w d ≤ weight f n w e :=
  Finset.sum_le_sum_of_subset (Finset.range_subset_range.mpr h)

theorem weight_succ (f : Nat → Nat) (d : Nat) :
    weight f n w (d + 1) = weight f n w d + f (before n w (d + 1)) :=
  Finset.sum_range_succ _ _

/-- The places strictly between `j` and `w`, and then `j` itself. -/
theorem weight_between (f : Nat → Nat) (hj : j < n) (ne : j ≠ w) :
    weight f n w (dist n j w - 1) + f j = weight f n w (dist n j w) := by
  have away : dist n j w - 1 + 1 = dist n j w := by
    have := (dist_eq_zero (j := w) hj).not.mpr ne
    omega
  have succ := weight_succ (n := n) (w := w) f (dist n j w - 1)
  rw [away, before_dist hj] at succ
  exact succ.symm

/-- Once around the ring, every place but `w` weighs in. -/
theorem weight_around (f : Nat → Nat) (hw : w < n) :
    weight f n w (n - 1) = ∑ j ∈ (Finset.range n).erase w, f j := by
  refine Finset.sum_bij' (fun e _ => before n w (e + 1)) (fun j _ => dist n j w - 1) ?_ ?_ ?_ ?_ ?_
  · intro e he
    have he := Finset.mem_range.mp he
    have far := dist_before (n := n) (w := w) (d := e + 1) (by omega)
    refine Finset.mem_erase.mpr ⟨?_, Finset.mem_range.mpr (before_lt (by omega) hw)⟩
    intro same
    rw [same, dist_self] at far
    omega
  · intro j hj
    obtain ⟨ne, hj⟩ := Finset.mem_erase.mp hj
    have hj := Finset.mem_range.mp hj
    have := dist_lt hj hw
    have := (dist_eq_zero hj).not.mpr ne
    exact Finset.mem_range.mpr (by omega)
  · intro e he
    have he := Finset.mem_range.mp he
    rw [dist_before (by omega), Nat.add_sub_cancel]
  · intro j hj
    obtain ⟨ne, hj⟩ := Finset.mem_erase.mp hj
    have hj := Finset.mem_range.mp hj
    have := (dist_eq_zero hj).not.mpr ne
    rw [Nat.sub_add_cancel (by omega), before_dist hj]
  · intro e he
    rfl

end Microkernel.Lib.Cyclic
