import Mathlib.Data.List.Rotate
import Mathlib.Data.Nat.Count
import Mathlib.Data.Nat.Periodic

/-! A rota: parties that take turns by a clock, the first of them having the turn.  The parties may
be the places of a ring at which a test holds, in the order in which a walk meets them. -/

namespace Microkernel.Lib

/-! ### Walks around a ring -/

section Around

variable {α : Type*} {p q : α → Bool} {l : List α} {a : α} {i d : Nat}

/-- The members of `l` for which `p` holds, in the order in which a walk from place `i` meets them.
-/
def around (p : α → Bool) (l : List α) (i : Nat) : List α := (l.rotate i).filter p

theorem around_mod : around p l (i % l.length) = around p l i := by
  rw [around, List.rotate_mod, around]

theorem mem_around : a ∈ around p l i ↔ a ∈ l ∧ p a := by
  rw [around, List.mem_filter, List.mem_rotate]

theorem around_nodup (nodup : l.Nodup) : (around p l i).Nodup :=
  (List.nodup_rotate.mpr nodup).filter p

/-- The walk from a place begins with what is there. -/
theorem rotate_cons (here : l[i]? = some a) : ∃ t, l.rotate i = a :: t := by
  have inside := (List.getElem?_eq_some_iff.mp here).1
  have first := (List.head?_rotate inside).trans here
  cases walk : l.rotate i with
  | nil =>
    rw [walk] at first
    cases first
  | cons b t =>
    rw [walk, List.head?_cons] at first
    cases first
    exact ⟨t, rfl⟩

theorem around_head (here : l[i]? = some a) (holds : p a) : (around p l i).head? = some a := by
  obtain ⟨t, walk⟩ := rotate_cons here
  rw [around, walk, List.filter_cons_of_pos holds, List.head?_cons]

/-- One place on, the member that was first comes last. -/
theorem around_succ (here : l[i]? = some a) :
    around p l (i + 1) = if p a then (around p l i).rotate 1 else around p l i := by
  obtain ⟨t, walk⟩ := rotate_cons here
  have next : l.rotate (i + 1) = t ++ [a] := by
    rw [← List.rotate_rotate, walk, List.rotate_cons_succ, List.rotate_zero]
  rw [around, next, List.filter_append, around, walk]
  by_cases holds : p a
  · rw [if_pos holds, List.filter_cons_of_pos holds, List.filter_cons_of_pos holds,
      List.rotate_cons_succ, List.rotate_zero, List.filter_nil]
  · rw [if_neg holds, List.filter_cons_of_neg holds, List.filter_cons_of_neg holds,
      List.filter_nil, List.append_nil]

/-- Places where `p` does not hold are passed over. -/
theorem around_skip (passed : ∀ e < d, ∃ b, l[(i + e) % l.length]? = some b ∧ ¬ p b) :
    around p l (i + d) = around p l i := by
  induction d with
  | zero => rfl
  | succ d ih =>
    obtain ⟨b, here, fails⟩ := passed d (Nat.lt_succ_self d)
    have before := ih fun e less => passed e (Nat.lt_succ_of_lt less)
    have next := around_succ (p := p) here
    rw [if_neg fails, ← around_mod, Nat.mod_add_mod, around_mod, around_mod, before] at next
    exact next

/-- When the test comes to fail for the first member alone, that member leaves. -/
theorem around_tail (nodup : l.Nodup) (here : l[i]? = some a) (fails : ¬ q a)
    (others : ∀ b ∈ l, b ≠ a → q b = p b) :
    around q l i = if p a then (around p l i).tail else around p l i := by
  obtain ⟨t, walk⟩ := rotate_cons here
  have apart : ∀ b ∈ t, b ∈ l ∧ b ≠ a := by
    intro b mem
    have whole := List.nodup_rotate (n := i).mpr nodup
    rw [walk, List.nodup_cons] at whole
    have listed : b ∈ l.rotate i := by
      rw [walk]
      exact List.mem_cons_of_mem a mem
    exact ⟨List.mem_rotate.mp listed, fun same => whole.1 (same ▸ mem)⟩
  have rest : t.filter q = t.filter p :=
    List.filter_congr fun b mem => others b (apart b mem).1 (apart b mem).2
  rw [around, around, walk, List.filter_cons_of_neg fails, rest]
  by_cases held : p a
  · rw [if_pos held, List.filter_cons_of_pos held, List.tail_cons]
  · rw [if_neg held, List.filter_cons_of_neg held]

theorem around_congr (same : ∀ b ∈ l, q b = p b) : around q l i = around p l i :=
  List.filter_congr fun b mem => same b (List.mem_rotate.mp mem)

end Around

/-! ### Turns by the clock -/

/-- Parties in the order of their turns, and the clock. -/
structure Rota (α : Type*) where
  order : List α
  clock : Nat

namespace Rota

variable {α : Type*} {r : Rota α} {slice w n : Nat} {a : α}

/-- A tick of a clock with `w` values.  The turn passes on at the multiples of `slice`. -/
def tick (slice w : Nat) (r : Rota α) : Rota α where
  order := if (r.clock + 1) % w % slice = 0 then r.order.rotate 1 else r.order
  clock := (r.clock + 1) % w

/-- The party that has the turn leaves for good. -/
def leave (r : Rota α) : Rota α := { r with order := r.order.tail }

theorem length_ticks : ((tick slice w)^[n] r).order.length = r.order.length := by
  induction n with
  | zero => rfl
  | succ n ih =>
    rw [Function.iterate_succ_apply', tick]
    dsimp only
    split
    · rw [List.length_rotate, ih]
    · exact ih

/-- The number of turns that end in `n` ticks from the clock value `c`. -/
def ends (slice c n : Nat) : Nat := (c + n) / slice - c / slice

theorem ends_succ (c n : Nat) :
    ends slice c (n + 1) = ends slice c n + if (c + n + 1) % slice = 0 then 1 else 0 := by
  have grows : c / slice ≤ (c + n) / slice := Nat.div_le_div_right (Nat.le_add_right c n)
  have next := Nat.succ_div (a := c + n) (b := slice)
  simp only [ends, ← Nat.add_assoc, next, Nat.dvd_iff_mod_eq_zero]
  omega

/-- The rota after `n` ticks in which the clock does not wrap. -/
theorem ticks (room : r.clock + n < w) :
    (tick slice w)^[n] r = ⟨r.order.rotate (ends slice r.clock n), r.clock + n⟩ := by
  induction n with
  | zero => simp [ends]
  | succ n ih =>
    have clock : (r.clock + n + 1) % w = r.clock + n + 1 := Nat.mod_eq_of_lt room
    rw [Function.iterate_succ_apply', ih (Nat.lt_of_succ_lt room), tick]
    simp only [clock, ends_succ, ← Nat.add_assoc]
    split
    · rw [List.rotate_rotate]
    · rfl

theorem count_shift {P : Nat → Prop} [DecidablePred P] {m : Nat} (b : Nat)
    (periodic : Function.Periodic P m) :
    Nat.count (fun x => P (b + x)) m = Nat.count P m := by
  have cut := Nat.count_add P b m
  have back : Nat.count (fun x => P (m + x)) b = Nat.count P b := by
    congr 1
    funext x
    rw [Nat.add_comm]
    exact periodic x
  rw [Nat.add_comm b m, Nat.count_add, back] at cut
  omega

/-- Each of `k` places is met `slice` times by the turns of a round. -/
theorem count_round {k j : Nat} (inside : j < k) :
    Nat.count (fun x => x / slice % k = j) (slice * k) = slice := by
  rcases Nat.eq_zero_or_pos slice with rfl | pos
  · simp
  have turns : (Finset.range (slice * k)).filter (fun x => x / slice % k = j) =
      Finset.Ico (slice * j) (slice * j + slice) := by
    ext x
    rw [Finset.mem_filter, Finset.mem_range, Finset.mem_Ico]
    have place : x / slice = j ↔ slice * j ≤ x ∧ x < slice * j + slice := by
      rw [Nat.div_eq_iff pos]
      have := Nat.mul_comm j slice
      omega
    have room : slice * j + slice ≤ slice * k := by
      rw [← Nat.mul_succ]
      exact Nat.mul_le_mul_left slice inside
    constructor
    · rintro ⟨less, here⟩
      rw [Nat.mod_eq_of_lt (Nat.div_lt_of_lt_mul less)] at here
      exact place.mp here
    · intro bounds
      refine ⟨Nat.lt_of_lt_of_le bounds.2 room, ?_⟩
      rw [place.mpr bounds, Nat.mod_eq_of_lt inside]
  rw [Nat.count_eq_card_filter_range, turns, Nat.card_Ico, Nat.add_sub_cancel_left]

/-- In a round of ticks every party has the turn for `slice` of them. -/
theorem share [DecidableEq α] (nodup : r.order.Nodup) (mem : a ∈ r.order)
    (room : r.clock + slice * r.order.length ≤ w) :
    Nat.count (fun m => ((tick slice w)^[m] r).order.head? = some a) (slice * r.order.length) =
      slice := by
  obtain ⟨j, inside, here⟩ := List.getElem_of_mem mem
  rcases Nat.eq_zero_or_pos slice with rfl | pos
  · simp
  have holder : ∀ m < slice * r.order.length,
      ((tick slice w)^[m] r).order.head? = some a ↔
        (r.clock % slice + m) / slice % r.order.length = j := by
    intro m less
    have offset : ends slice r.clock m = (r.clock % slice + m) / slice := by
      have split := Nat.div_add_mod r.clock slice
      rw [ends]
      nth_rewrite 1 [← split]
      rw [Nat.add_assoc, Nat.mul_add_div pos, Nat.add_sub_cancel_left]
    have some_party : 0 < r.order.length := Nat.lt_of_le_of_lt (Nat.zero_le j) inside
    rw [ticks (by omega), offset, ← List.rotate_mod, List.head?_rotate (Nat.mod_lt _ some_party),
      ← here, ← List.getElem?_eq_getElem inside]
    exact List.getElem?_inj (Nat.mod_lt _ some_party) nodup
  have same : Nat.count (fun m => ((tick slice w)^[m] r).order.head? = some a)
      (slice * r.order.length) =
      Nat.count (fun m => (r.clock % slice + m) / slice % r.order.length = j)
        (slice * r.order.length) := by
    rw [Nat.count_eq_card_filter_range, Nat.count_eq_card_filter_range]
    congr 1
    exact Finset.filter_congr fun m mem => holder m (Finset.mem_range.mp mem)
  have periodic : Function.Periodic (fun x => x / slice % r.order.length = j)
      (slice * r.order.length) := by
    intro x
    show ((x + slice * r.order.length) / slice % r.order.length = j) = _
    rw [Nat.add_mul_div_left _ _ pos, Nat.add_mod_right]
  rw [same, count_shift _ periodic, count_round inside]

end Rota

end Microkernel.Lib
