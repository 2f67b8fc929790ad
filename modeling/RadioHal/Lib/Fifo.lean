import RadioHal.Lib.Steps

/-!
# Bounded queues

A queue of bounded capacity between a writer that does not wait and a reader that may be
interrupted: writing to a full queue fails and leaves it as it is, and so does a read that fails.

## Main definitions

* `Fifo.Event`, `Fifo.Step` — what happens to the queue.
* `Fifo.accepted`, `Fifo.taken` — the items written, and the items read.

## Main results

* `Fifo.accepted_eq` — **what was written is what was read, in the same order, and what the queue
  still holds.**
* `Fifo.length_le` — the capacity is kept.
-/

namespace Fifo

variable {α : Type}

/-- What happens at the two ends of a queue, whether it succeeds or not. -/
inductive Event (α : Type)
  /-- An item is written. -/
  | put (a : α)
  /-- An item finds no room. -/
  | full (a : α)
  /-- An item is read. -/
  | got (a : α)
  /-- A read fails. -/
  | failed

/-- The steps of a queue: an item that finds no room is not put in, and the first item is the one
that is read. -/
inductive Step (capacity : ℕ) : List α → Option (Event α) → List α → Prop
  | put {q : List α} (a : α) : q.length < capacity → Step capacity q (some (.put a)) (q ++ [a])
  | full {q : List α} (a : α) : ¬ q.length < capacity → Step capacity q (some (.full a)) q
  | got (a : α) (q : List α) : Step capacity (a :: q) (some (.got a)) q
  | failed (q : List α) : Step capacity q (some .failed) q

/-- The item that an event puts into the queue, if it does. -/
def Event.accepted? : Event α → Option α
  | put a => some a
  | _ => none

/-- The item that an event takes out of the queue, if it does. -/
def Event.taken? : Event α → Option α
  | got a => some a
  | _ => none

/-- The items that were put in along a run, in their order. -/
def accepted (log : List (Event α)) : List α := log.filterMap Event.accepted?

/-- The items that were taken out along a run, in their order. -/
def taken (log : List (Event α)) : List α := log.filterMap Event.taken?

theorem accepted_append (log log' : List (Event α)) :
    accepted (log ++ log') = accepted log ++ accepted log' := List.filterMap_append

theorem taken_append (log log' : List (Event α)) : taken (log ++ log') = taken log ++ taken log' :=
  List.filterMap_append

variable {capacity : ℕ} {log : List (Event α)} {q : List α}

/-- **What was written is what was read, in the same order, and what the queue still holds.** -/
theorem accepted_eq (h : Trace (Step capacity) [] log q) : accepted log = taken log ++ q := by
  apply h.log_invariant fun log q => accepted log = taken log ++ q
  · intro log q label q' hinv hstep
    rw [accepted_append, taken_append, hinv]
    cases hstep with
    | put a _ =>
      show taken log ++ q ++ [a] = taken log ++ [] ++ (q ++ [a])
      simp
    | full a _ =>
      show taken log ++ q ++ [] = taken log ++ [] ++ q
      simp
    | got a =>
      show taken log ++ a :: q' ++ [] = taken log ++ [a] ++ q'
      simp
    | failed =>
      show taken log ++ q ++ [] = taken log ++ [] ++ q
      simp
  · rfl

theorem taken_prefix (h : Trace (Step capacity) [] log q) : taken log <+: accepted log :=
  ⟨q, (accepted_eq h).symm⟩

theorem length_le (h : Trace (Step capacity) [] log q) : q.length ≤ capacity := by
  apply h.invariant fun q => q.length ≤ capacity
  · intro q label q' hinv hstep
    cases hstep with
    | put a hroom =>
      rw [List.length_append, List.length_singleton]
      omega
    | full a _ => exact hinv
    | got a q =>
      rw [List.length_cons] at hinv
      omega
    | failed q => exact hinv
  · exact Nat.zero_le capacity

end Fifo
