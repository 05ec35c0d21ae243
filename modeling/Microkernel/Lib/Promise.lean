import Mathlib.Data.List.Basic

/-! Promises in a trace of events: one event makes a promise, and a later one keeps it. -/

namespace Microkernel.Lib

/-- A kind of promise: the events that make it, and those that keep it. -/
structure Promise (α : Type*) where
  makes : α → Prop
  keeps : α → Prop

namespace Promise

variable {α : Type*} {p : Promise α} {mark : α → Prop} {h past later : List α} {a b m : α}

/-- The promise has been made, and not kept since. -/
def Open (p : Promise α) (h : List α) : Prop :=
  ∃ past a later, h = past ++ a :: later ∧ p.makes a ∧ ∀ b ∈ later, ¬ p.keeps b

/-- The promise is not open at any event of the kind `mark`. -/
def KeptBy (p : Promise α) (mark : α → Prop) (h : List α) : Prop :=
  ∀ past m later, h = past ++ m :: later → mark m → ¬ p.Open past

/-- An event of a longer trace is the last one, or it is in the trace before. -/
theorem snoc_split (split : h ++ [a] = past ++ b :: later) :
    (later = [] ∧ past = h ∧ b = a) ∨
      ∃ before, later = before ++ [a] ∧ h = past ++ b :: before := by
  rcases List.eq_nil_or_concat later with rfl | ⟨before, c, rfl⟩
  · obtain ⟨rfl, last⟩ := List.append_inj' split rfl
    cases last
    exact .inl ⟨rfl, rfl, rfl⟩
  · rw [List.concat_eq_append, ← List.cons_append, ← List.append_assoc] at split
    obtain ⟨earlier, last⟩ := List.append_inj' split rfl
    cases last
    exact .inr ⟨before, List.concat_eq_append, earlier⟩

theorem open_nil : ¬ p.Open [] := by
  rintro ⟨past, a, later, split, -, -⟩
  simp at split

theorem open_snoc : p.Open (h ++ [a]) ↔ p.makes a ∨ p.Open h ∧ ¬ p.keeps a := by
  constructor
  · rintro ⟨past, b, later, split, made, unkept⟩
    rcases snoc_split split with ⟨rfl, rfl, rfl⟩ | ⟨before, rfl, earlier⟩
    · exact .inl made
    · simp only [List.mem_append, List.mem_singleton] at unkept
      exact .inr ⟨⟨past, b, before, earlier, made, fun c hc => unkept c (.inl hc)⟩,
        unkept a (.inr rfl)⟩
  · rintro (made | ⟨⟨past, b, later, rfl, made, unkept⟩, last⟩)
    · exact ⟨h, a, [], rfl, made, fun _ absent => by cases absent⟩
    · refine ⟨past, b, later ++ [a], by simp, made, fun c hc => ?_⟩
      rcases List.mem_append.mp hc with hc | hc
      · exact unkept c hc
      · rw [List.mem_singleton.mp hc]
        exact last

theorem keptBy_nil : p.KeptBy mark [] := by
  intro past m later split
  simp at split

theorem KeptBy.snoc (kept : p.KeptBy mark h) (last : mark a → ¬ p.Open h) :
    p.KeptBy mark (h ++ [a]) := by
  intro past m later split marked
  rcases snoc_split split with ⟨-, rfl, rfl⟩ | ⟨before, -, earlier⟩
  · exact last marked
  · exact kept past m before earlier marked

/-- A promise made before a mark has been kept before it. -/
theorem KeptBy.kept_before {between : List α}
    (kept : p.KeptBy mark (past ++ a :: (between ++ m :: later))) (made : p.makes a)
    (marked : mark m) : ∃ b ∈ between, p.keeps b := by
  by_contra unkept
  refine kept (past ++ a :: between) m later (by simp) marked ⟨past, a, between, rfl, made, ?_⟩
  intro b hb keeps
  exact unkept ⟨b, hb, keeps⟩

end Promise

end Microkernel.Lib
