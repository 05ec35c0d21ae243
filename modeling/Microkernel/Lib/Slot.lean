import Mathlib.Data.List.Basic

/-! A slot that holds one value, where a put replaces the value that waits.  A history of puts and
takes determines which values were received: exactly the values put that the next event did not
replace, in order. -/

namespace Microkernel.Lib

/-- What happens to a slot: a value is put into it, or the value in it is taken. -/
inductive SlotEvent (α : Type*)
  | put (a : α)
  | take (a : α)

namespace SlotEvent

variable {α : Type*} {h t : List (SlotEvent α)} {c : Option α} {a b : α}

def put? : SlotEvent α → Option α
  | put a => some a
  | take _ => none

def take? : SlotEvent α → Option α
  | put _ => none
  | take a => some a

def puts (h : List (SlotEvent α)) : List α := h.filterMap put?

def takes (h : List (SlotEvent α)) : List α := h.filterMap take?

@[simp] theorem puts_nil : puts ([] : List (SlotEvent α)) = [] := rfl

@[simp] theorem puts_put : puts (put a :: h) = a :: puts h := rfl

@[simp] theorem puts_take : puts (take a :: h) = puts h := rfl

@[simp] theorem puts_append : puts (h ++ t) = puts h ++ puts t := List.filterMap_append

@[simp] theorem takes_nil : takes ([] : List (SlotEvent α)) = [] := rfl

@[simp] theorem takes_put : takes (put a :: h) = takes h := rfl

@[simp] theorem takes_take : takes (take a :: h) = a :: takes h := rfl

@[simp] theorem takes_append : takes (h ++ t) = takes h ++ takes t := List.filterMap_append

def startsWithPut : List (SlotEvent α) → Bool
  | put _ :: _ => true
  | _ => false

/-- The values put that the next event did not replace, in order. -/
def kept : List (SlotEvent α) → List α
  | [] => []
  | take _ :: h => kept h
  | put a :: h => if startsWithPut h then kept h else a :: kept h

/-- The histories of a slot that starts empty, with what it holds after them. -/
inductive History : List (SlotEvent α) → Option α → Prop
  | nil : History [] none
  | put {past : List (SlotEvent α)} {held : Option α} (a : α) :
      History past held → History (past ++ [.put a]) (some a)
  | take {past : List (SlotEvent α)} {a : α} :
      History past (some a) → History (past ++ [.take a]) none

theorem startsWithPut_append (ht : startsWithPut t = false) :
    startsWithPut (h ++ t) = startsWithPut h := by
  cases h with
  | nil => exact ht
  | cons e h => cases e <;> rfl

theorem kept_append (ht : startsWithPut t = false) : kept (h ++ t) = kept h ++ kept t := by
  induction h with
  | nil => rfl
  | cons e h ih =>
    cases e with
    | take a => exact ih
    | put a =>
      simp only [List.cons_append, kept, startsWithPut_append ht, ih]
      split <;> rfl

/-- The last put is kept, whatever its value, and whether it replaces an earlier one does not
depend on that value. -/
theorem kept_append_put : ∃ l, ∀ a, kept (h ++ [put a]) = l ++ [a] := by
  induction h with
  | nil => exact ⟨[], fun _ => rfl⟩
  | cons e h ih =>
    obtain ⟨l, hl⟩ := ih
    cases e with
    | take _ => exact ⟨l, hl⟩
    | put b =>
      cases h with
      | nil => exact ⟨[], fun _ => rfl⟩
      | cons f h =>
        cases f with
        | put _ => exact ⟨l, hl⟩
        | take _ => exact ⟨b :: l, fun a => congrArg (b :: ·) (hl a)⟩

/-- A put that another put follows at once leaves no trace. -/
theorem kept_replaced : kept (h ++ [put b, put a]) = kept (h ++ [put a]) := by
  induction h with
  | nil => rfl
  | cons e h ih =>
    cases e with
    | take _ => exact ih
    | put _ =>
      have starts : startsWithPut (h ++ [put b, put a]) = startsWithPut (h ++ [put a]) := by
        cases h with
        | nil => rfl
        | cons e h => cases e <;> rfl
      simp only [List.cons_append, kept, starts, ih]

theorem kept_append_take : kept (h ++ [take a]) = kept h := by
  rw [kept_append rfl]
  simp [kept]

/-- The values received so far, and then the one that waits, are the values put and not
replaced. -/
theorem History.received (hist : History h c) : takes h ++ c.toList = kept h := by
  induction hist with
  | nil => rfl
  | @take h a _ ih =>
    rw [kept_append_take, ← ih]
    simp
  | @put h c a before ih =>
    cases before with
    | nil => rfl
    | @put h _ b =>
      obtain ⟨l, hl⟩ := kept_append_put (h := h)
      have same : takes h = l := by
        rw [hl b] at ih
        simpa using ih
      rw [List.append_assoc, List.singleton_append, kept_replaced, hl a, ← same]
      simp
    | @take h b =>
      rw [List.append_assoc, List.singleton_append, kept_append rfl, ← kept_append_take (a := b),
        ← ih]
      simp [kept, startsWithPut]

/-- The slot holds the value of the last event, when that is a put. -/
theorem History.pending (hist : History h c) :
    c = some a ↔ h.getLast? = some (SlotEvent.put a) := by
  cases hist <;> simp

theorem kept_sublist : (kept h).Sublist (puts h) := by
  induction h with
  | nil => exact .slnil
  | cons e h ih =>
    cases e with
    | take _ => exact ih
    | put a =>
      simp only [kept, puts_put]
      split
      · exact .cons _ ih
      · exact .cons_cons _ ih

def Replaces (e f : SlotEvent α) : Prop := e.put?.isSome ∧ f.put?.isSome

/-- Nothing is lost exactly when no put follows a put at once. -/
theorem kept_eq_puts : kept h = puts h ↔ h.IsChain fun e f => ¬ Replaces e f := by
  induction h with
  | nil => simp [kept, puts]
  | cons e h ih =>
    cases e with
    | take b =>
      have frame : kept (take b :: h) = puts (take b :: h) ↔ kept h = puts h := Iff.rfl
      rw [frame, ih]
      cases h <;> simp [Replaces, put?]
    | put a =>
      cases h with
      | nil => simp [kept, puts, put?, startsWithPut]
      | cons f h =>
        cases f with
        | take b =>
          have frame : kept (put a :: take b :: h) = puts (put a :: take b :: h) ↔
              kept (take b :: h) = puts (take b :: h) :=
            List.cons_inj_right a
          rw [frame, ih]
          simp [Replaces, put?]
        | put b =>
          have short : (kept (put b :: h)).length ≤ (puts (put b :: h)).length :=
            kept_sublist.length_le
          constructor
          · intro same
            have long := congrArg List.length same
            simp only [kept, startsWithPut, if_true, puts_put, List.length_cons] at long short
            omega
          · intro chain
            simp [Replaces, put?] at chain

end SlotEvent

end Microkernel.Lib
