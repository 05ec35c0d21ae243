import Microkernel.Lib.Promise
import Microkernel.Lib.Run

/-! One server and a bounded first-in first-out queue of requests, which come at any time.  A
request that finds room is served before more others than the queue has room for. -/

namespace Microkernel.Lib

variable {ι : Type*}

/-- What happened: a request, with the queue that it found, and a service. -/
inductive Ticket (ι : Type*)
  | asked (i : ι) (queue : List ι)
  | served (i : ι)

def Ticket.isServed : Ticket ι → Bool
  | .served _ => true
  | .asked _ _ => false

/-- The requests that wait, the one that the server has taken, and what happened. -/
structure Counter (ι : Type*) where
  queue : List ι
  hand : Option ι
  log : List (Ticket ι)

namespace Counter

inductive Event (ι : Type*)
  | ask (i : ι)
  | take
  | serve

/-- A request that finds the queue full is lost. -/
inductive Step (capacity : Nat) (c : Counter ι) : Event ι → Counter ι → Prop
  | room {i : ι} : c.queue.length < capacity → Step capacity c (.ask i)
      { c with queue := c.queue ++ [i], log := c.log ++ [.asked i c.queue] }
  | full {i : ι} : capacity ≤ c.queue.length → Step capacity c (.ask i)
      { c with log := c.log ++ [.asked i c.queue] }
  | take {i : ι} {rest : List ι} : c.queue = i :: rest → c.hand = none →
      Step capacity c .take { c with queue := rest, hand := some i }
  | serve {i : ι} : c.hand = some i →
      Step capacity c .serve { c with hand := none, log := c.log ++ [.served i] }

/-- The request finds room, or an equal one that waits. -/
def Accepted (capacity : Nat) (i : ι) (queue : List ι) : Prop :=
  queue.length < capacity ∨ i ∈ queue

/-- The request waits where the services since it came, and those that come before its own, are at
most `capacity`. -/
def Waits (capacity : Nat) (c : Counter ι) (i : ι) (served : Nat) : Prop :=
  c.hand = some i ∧ served ≤ capacity ∨
    ∃ n, c.queue[n]? = some i ∧ served + c.hand.toList.length + n ≤ capacity

theorem Waits.within {capacity : Nat} {c : Counter ι} {i : ι} {served : Nat}
    (waits : c.Waits capacity i served) : served ≤ capacity := by
  rcases waits with ⟨-, within⟩ | ⟨n, -, within⟩
  · exact within
  · omega

structure Fair (capacity : Nat) (c : Counter ι) : Prop where
  bounded : c.queue.length ≤ capacity
  ahead : ∀ past i queue later, c.log = past ++ .asked i queue :: later →
    Accepted capacity i queue → .served i ∉ later →
      c.Waits capacity i (later.countP Ticket.isServed)
  within : ∀ past i queue before after, c.log = past ++ .asked i queue :: (before ++ after) →
    Accepted capacity i queue → .served i ∉ before → before.countP Ticket.isServed ≤ capacity

variable {capacity : Nat} {c c' : Counter ι} {e : Event ι} {es : List (Event ι)} {t : Ticket ι}

/-- What holds of the longer log's own end holds of every cut of it. -/
theorem Fair.snoc (fair : c.Fair capacity) (log : c'.log = c.log ++ [t])
    (bounded : c'.queue.length ≤ capacity)
    (ahead : ∀ past i queue later, c'.log = past ++ .asked i queue :: later →
      Accepted capacity i queue → .served i ∉ later →
        c'.Waits capacity i (later.countP Ticket.isServed)) : c'.Fair capacity := by
  refine ⟨bounded, ahead, fun past i queue before after split accepted unserved => ?_⟩
  rcases List.eq_nil_or_concat after with rfl | ⟨rest, last, rfl⟩
  · rw [List.append_nil] at split
    exact (ahead past i queue before split accepted unserved).within
  · rw [log] at split
    have cut : c.log = past ++ .asked i queue :: (before ++ rest) := by
      rw [List.concat_eq_append, ← List.append_assoc, ← List.cons_append, ← List.append_assoc]
        at split
      exact (List.append_inj' split rfl).1
    exact fair.within past i queue before rest cut accepted unserved

/-- A request joins those that wait. -/
theorem Fair.ask {i : ι} {queue : List ι} (fair : c.Fair capacity)
    (bounded : queue.length ≤ capacity) (more : c.queue <+: queue)
    (joined : Accepted capacity i c.queue →
      ∃ n, queue[n]? = some i ∧ c.hand.toList.length + n ≤ capacity) :
    Fair capacity { c with queue := queue, log := c.log ++ [.asked i c.queue] } := by
  refine fair.snoc rfl bounded fun past j found later split accepted unserved => ?_
  rcases Promise.snoc_split split with ⟨rfl, -, same⟩ | ⟨before, rfl, earlier⟩
  · cases same
    obtain ⟨n, place, within⟩ := joined accepted
    exact .inr ⟨n, place, by simpa using within⟩
  · have old : .served j ∉ before := fun mem => unserved (List.mem_append_left _ mem)
    have count : (before ++ [Ticket.asked i c.queue]).countP Ticket.isServed =
        before.countP Ticket.isServed := by simp [Ticket.isServed]
    rw [count]
    rcases fair.ahead past j found before earlier accepted old with hand | ⟨n, place, within⟩
    · exact .inl hand
    · have bound := (List.getElem?_eq_some_iff.mp place).1
      obtain ⟨new, rfl⟩ := more
      exact .inr ⟨n, (List.getElem?_append_left bound).trans place, within⟩

/-- The server takes the oldest request. -/
theorem Fair.take {i : ι} {rest : List ι} (fair : c.Fair capacity) (queue : c.queue = i :: rest)
    (empty : c.hand = none) : Fair capacity { c with queue := rest, hand := some i } where
  bounded := by
    have bounded := fair.bounded
    rw [queue, List.length_cons] at bounded
    exact Nat.le_of_succ_le bounded
  ahead past j found later split accepted unserved := by
    rcases fair.ahead past j found later split accepted unserved with ⟨hand, -⟩ | ⟨n, place, within⟩
    · rw [empty] at hand
      cases hand
    · rw [queue] at place
      rw [empty] at within
      cases n with
      | zero =>
        cases place
        exact .inl ⟨rfl, by simpa using within⟩
      | succ n =>
        refine .inr ⟨n, by simpa using place, ?_⟩
        simp only [Option.toList_none, List.length_nil, Option.toList_some,
          List.length_singleton] at within ⊢
        omega
  within := fair.within

/-- The server serves the request that it has taken. -/
theorem Fair.serve {i : ι} (fair : c.Fair capacity) (hand : c.hand = some i) :
    Fair capacity { c with hand := none, log := c.log ++ [.served i] } := by
  refine fair.snoc rfl fair.bounded fun past j found later split accepted unserved => ?_
  rcases Promise.snoc_split split with ⟨-, -, same⟩ | ⟨before, rfl, earlier⟩
  · cases same
  · have other : i ≠ j := by
      rintro rfl
      exact unserved (List.mem_append_right _ List.mem_cons_self)
    have old : .served j ∉ before := fun mem => unserved (List.mem_append_left _ mem)
    have count : (before ++ [Ticket.served i]).countP Ticket.isServed =
        before.countP Ticket.isServed + 1 := by simp [Ticket.isServed]
    rw [count]
    rcases fair.ahead past j found before earlier accepted old with ⟨mine, -⟩ | ⟨n, place, within⟩
    · rw [hand] at mine
      exact absurd (Option.some.inj mine) other
    · refine .inr ⟨n, place, ?_⟩
      rw [hand] at within
      simp only [Option.toList_none, List.length_nil, Option.toList_some,
        List.length_singleton] at within ⊢
      omega

theorem Fair.step (fair : c.Fair capacity) (step : c.Step capacity e c') : c'.Fair capacity := by
  have few : c.hand.toList.length ≤ 1 := by cases c.hand <;> simp
  cases step with
  | @room i free =>
    have fits : (c.queue ++ [i]).length ≤ capacity := by
      rw [List.length_append]
      exact free
    refine fair.ask fits (List.prefix_append _ _) fun _ => ?_
    exact ⟨c.queue.length, by simp, by omega⟩
  | @full i taken =>
    refine fair.ask fair.bounded List.prefix_rfl fun accepted => ?_
    obtain ⟨n, bound, place⟩ := List.mem_iff_getElem.mp (accepted.resolve_left (by omega))
    have := fair.bounded
    exact ⟨n, by rw [List.getElem?_eq_getElem bound, place], by omega⟩
  | take queue empty => exact fair.take queue empty
  | serve hand => exact fair.serve hand

/-- Of the services since a request that was accepted, at most `capacity` come before its own, and
it has been served when the queue is empty and the server idle. -/
theorem served_within (start : c.log = []) (bounded : c.queue.length ≤ capacity)
    (run : Run (Step capacity) c es c') {past before after : List (Ticket ι)} {i : ι}
    {queue : List ι} (asked : c'.log = past ++ .asked i queue :: (before ++ after))
    (accepted : Accepted capacity i queue) (unserved : .served i ∉ before) :
    before.countP Ticket.isServed ≤ capacity ∧
      (c'.queue = [] → c'.hand = none → .served i ∈ after) := by
  have fair : c.Fair capacity :=
    ⟨bounded, fun past i queue later split => by simp [start] at split,
      fun past i queue before after split => by simp [start] at split⟩
  have after' : c'.Fair capacity := run.invariant fair fun _ _ _ fair step => fair.step step
  refine ⟨after'.within past i queue before after asked accepted unserved, fun none_left idle => ?_⟩
  by_contra absent
  have never : .served i ∉ before ++ after := fun mem =>
    (List.mem_append.mp mem).elim unserved absent
  rcases after'.ahead past i queue _ asked accepted never with ⟨mine, -⟩ | ⟨n, place, -⟩
  · rw [idle] at mine
    cases mine
  · rw [none_left] at place
    simp at place

end Counter

end Microkernel.Lib
