import Mathlib.Logic.Function.Basic

/-! Memory that is seen through a map of addresses to places.  Where no two addresses have one
place, what is seen behaves like memory of its own. -/

namespace Microkernel.Lib

section

variable {α β γ : Type}

/-- What is seen at `a` of the contents `phys` of the places. -/
def view (place : α → Option β) (blank : γ) (phys : β → γ) (a : α) : γ :=
  match place a with
  | some x => phys x
  | none => blank

/-- No two addresses of `S` have one place. -/
def Separate (place : α → Option β) (S : α → Prop) : Prop :=
  ∀ a b x, S a → S b → place a = some x → place b = some x → a = b

theorem view_place {place : α → Option β} {a : α} {x : β} (found : place a = some x) (blank : γ)
    (phys : β → γ) : view place blank phys a = phys x := by
  rw [view, found]

end

section

variable {ι α β γ : Type} [DecidableEq α] [DecidableEq β]

/-- A write of a value to an address, by someone of a kind that decides what it may write to. -/
structure Write (ι α γ : Type) where
  kind : ι
  addr : α
  value : γ

/-- The write to the place that it reaches. -/
def Write.toPlace (reach : ι → α → Option β) (phys : β → γ) (write : Write ι α γ) : β → γ :=
  match reach write.kind write.addr with
  | some x => Function.update phys x write.value
  | none => phys

/-- The write to the address itself, where it may be made. -/
def Write.toAddr (may : ι → α → Bool) (mem : α → γ) (write : Write ι α γ) : α → γ :=
  if may write.kind write.addr then Function.update mem write.addr write.value else mem

variable {place : α → Option β} {reach : ι → α → Option β} {may : ι → α → Bool} {blank : γ}
  {S : α → Prop} {phys : β → γ} {mem : α → γ} {write : Write ι α γ}
  {writes : List (Write ι α γ)} {a : α} {x : β}

/-- The write may be made exactly when it reaches a place, which is then that of its address, an
address of `S`. -/
structure Write.Within (place : α → Option β) (reach : ι → α → Option β) (may : ι → α → Bool)
    (S : α → Prop) (write : Write ι α γ) : Prop where
  allowed : may write.kind write.addr = (reach write.kind write.addr).isSome
  inside : ∀ x, reach write.kind write.addr = some x → S write.addr ∧ place write.addr = some x

omit [DecidableEq α] in
theorem Write.toPlace_reached (found : reach write.kind write.addr = some x) :
    write.toPlace reach phys = Function.update phys x write.value := by
  rw [Write.toPlace, found]

omit [DecidableEq α] in
/-- What is at a place that the write does not reach stays. -/
theorem Write.toPlace_apart (apart : reach write.kind write.addr ≠ some x) :
    write.toPlace reach phys x = phys x := by
  cases found : reach write.kind write.addr with
  | none => rw [Write.toPlace, found]
  | some y =>
    have ne : x ≠ y := by
      rintro rfl
      exact apart found
    rw [toPlace_reached found, Function.update_of_ne ne]

/-- A write to an address of `S` shows at that address alone. -/
theorem Write.toPlace_view (separate : Separate place S) (here : S a)
    (within : write.Within place reach may S) (same : view place blank phys a = mem a) :
    view place blank (write.toPlace reach phys) a = write.toAddr may mem a := by
  rw [Write.toAddr, within.allowed]
  cases found : reach write.kind write.addr with
  | none =>
    rw [Write.toPlace, found]
    exact same
  | some x =>
    obtain ⟨there, placed⟩ := within.inside x found
    rw [toPlace_reached found, Option.isSome_some, if_pos rfl]
    by_cases one : a = write.addr
    · subst one
      rw [view_place placed, Function.update_self, Function.update_self]
    · rw [Function.update_of_ne one, ← same]
      cases seen : place a with
      | none => rw [view, view, seen]
      | some y =>
        have ne : y ≠ x := by
          rintro rfl
          exact one (separate a write.addr y here there seen placed)
        rw [view_place seen, view_place seen, Function.update_of_ne ne]

/-- Writes one after another to addresses of `S` show as writes to the addresses themselves. -/
theorem writes_view (separate : Separate place S) (here : S a)
    (within : ∀ write ∈ writes, write.Within place reach may S)
    (same : ∀ a, S a → view place blank phys a = mem a) :
    view place blank (writes.foldl (Write.toPlace reach) phys) a =
      writes.foldl (Write.toAddr may) mem a := by
  induction writes generalizing phys mem with
  | nil => exact same a here
  | cons write writes ih =>
    rw [List.foldl_cons, List.foldl_cons]
    have later : ∀ write ∈ writes, write.Within place reach may S :=
      fun next listed => within next (List.mem_cons_of_mem write listed)
    refine ih later fun b there => ?_
    exact Write.toPlace_view separate there (within write List.mem_cons_self) (same b there)

omit [DecidableEq α] in
/-- What is at a place that no write reaches stays. -/
theorem writes_apart (apart : ∀ write ∈ writes, reach write.kind write.addr ≠ some x) :
    writes.foldl (Write.toPlace reach) phys x = phys x := by
  induction writes generalizing phys with
  | nil => rfl
  | cons write writes ih =>
    rw [List.foldl_cons, ih fun later listed => apart later (List.mem_cons_of_mem write listed)]
    exact Write.toPlace_apart (apart write List.mem_cons_self)

omit [DecidableEq β] in
/-- A write to the address itself is one to a place where every address is its own. -/
theorem Write.toAddr_eq : write.toAddr may mem =
    write.toPlace (fun kind a => if may kind a then some a else none) mem := by
  by_cases allowed : may write.kind write.addr
  · rw [Write.toAddr, if_pos allowed]
    exact (Write.toPlace_reached (if_pos allowed)).symm
  · rw [Write.toAddr, if_neg allowed, Write.toPlace, if_neg allowed]

end

end Microkernel.Lib
