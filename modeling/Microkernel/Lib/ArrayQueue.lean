import Mathlib.Data.List.Basic

/-! A bounded first-in first-out queue.  The bound is part of the type: a queue longer than its
capacity cannot be built, and a push into a full queue fails. -/

namespace Microkernel.Lib

/-- A queue of at most `capacity` items, the oldest first. -/
structure ArrayQueue (α : Type*) (capacity : Nat) where
  items : List α
  bounded : items.length ≤ capacity

namespace ArrayQueue

variable {α : Type*} {capacity : Nat}

theorem ext_items {q r : ArrayQueue α capacity} (h : q.items = r.items) : q = r := by
  cases q
  cases r
  cases h
  rfl

def empty : ArrayQueue α capacity := ⟨[], Nat.zero_le _⟩

def push (q : ArrayQueue α capacity) (a : α) : Option (ArrayQueue α capacity) :=
  if h : q.items.length < capacity then
    some ⟨q.items ++ [a], by simpa [Nat.succ_le_iff] using h⟩
  else
    none

def pop (q : ArrayQueue α capacity) : Option (α × ArrayQueue α capacity) :=
  match q with
  | ⟨[], _⟩ => none
  | ⟨a :: rest, h⟩ => some (a, ⟨rest, Nat.le_of_succ_le h⟩)

theorem push_room {q : ArrayQueue α capacity} {a : α} (room : q.items.length < capacity) :
    ∃ r, q.push a = some r ∧ r.items = q.items ++ [a] := by
  simp [push, room]

theorem push_some {q r : ArrayQueue α capacity} {a : α} (h : q.push a = some r) :
    q.items.length < capacity ∧ r.items = q.items ++ [a] := by
  unfold push at h
  split at h
  next room =>
    cases h
    exact ⟨room, rfl⟩
  next => cases h

theorem push_none {q : ArrayQueue α capacity} {a : α} :
    q.push a = none ↔ q.items.length = capacity := by
  have := q.bounded
  unfold push
  split <;> simp <;> omega

theorem pop_some {q r : ArrayQueue α capacity} {a : α} :
    q.pop = some (a, r) ↔ q.items = a :: r.items := by
  obtain ⟨items, bounded⟩ := q
  cases items with
  | nil => simp [pop]
  | cons b rest =>
    simp only [pop, Option.some.injEq, Prod.mk.injEq, List.cons.injEq]
    constructor
    · rintro ⟨rfl, rfl⟩
      exact ⟨rfl, rfl⟩
    · rintro ⟨rfl, same⟩
      exact ⟨rfl, ext_items same⟩

theorem pop_none {q : ArrayQueue α capacity} : q.pop = none ↔ q.items = [] := by
  obtain ⟨items, bounded⟩ := q
  cases items <;> simp [pop]

end ArrayQueue

end Microkernel.Lib
