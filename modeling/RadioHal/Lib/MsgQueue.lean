import Mathlib.Data.Int.Notation
import Mathlib.Data.List.Basic

/-!
# Queues of typed messages

The message queues of System V.  A message has a type, which is positive, and a text; `msgsnd` puts
a message behind the others, and `msgrcv` for a type takes the oldest message of that type.  A
message that is longer than the receiver allows is refused and stays.

## Main definitions

* `MsgQueue.Message`, `MsgQueue.ofType` — messages, and those of a type in a queue.
* `MsgQueue.msgsnd`, `MsgQueue.msgrcv` — the two calls.

## Main results

* `MsgQueue.msgrcv_spec` — **where all messages fit, a call for a type takes the first message of
  that type, and waits when there is none.**
-/

namespace MsgQueue

variable {β : Type}

/-- A message, with the type by which `msgrcv` picks it. -/
structure Message (β : Type) where
  mtype : ℤ
  mtext : List β

/-- The messages of a type, the oldest first. -/
def ofType (t : ℤ) (q : List (Message β)) : List (Message β) := q.filter fun m => m.mtype = t

/-- `msgsnd`; a type that is not positive is refused with `EINVAL`. -/
def msgsnd (q : List (Message β)) (m : Message β) : Option (List (Message β)) :=
  if 0 < m.mtype then some (q ++ [m]) else none

/-- What comes of `msgrcv`: it waits, it fails, or it takes a message out of the queue. -/
inductive Rcv (β : Type)
  /-- There is no message to take, and the call waits for one. -/
  | waits
  /-- `E2BIG`. -/
  | tooBig
  | taken (m : Message β) (q : List (Message β))

/-- `msgrcv` with a positive type and without flags. -/
def msgrcv (q : List (Message β)) (size : ℕ) (t : ℤ) : Rcv β :=
  match q.find? fun m => m.mtype = t with
  | none => .waits
  | some m =>
    if m.mtext.length ≤ size then .taken m (q.eraseP fun m => m.mtype = t) else .tooBig

/-- The messages of a queue fit a receiver. -/
def Fits (size : ℕ) (q : List (Message β)) : Prop := ∀ m ∈ q, m.mtext.length ≤ size

section Rules

variable {q q' : List (Message β)} {m : Message β} {size : ℕ} {t : ℤ}

theorem msgsnd_of_pos (h : 0 < m.mtype) : msgsnd q m = some (q ++ [m]) := if_pos h

/-- What is found first is what is taken out. -/
theorem filter_eq_cons {α : Type} {p : α → Bool} {l : List α} {a : α} (h : l.find? p = some a) :
    l.filter p = a :: (l.eraseP p).filter p := by
  induction l with
  | nil => exact absurd h (by simp)
  | cons x l ih =>
    by_cases hx : p x = true
    · rw [List.find?_cons_of_pos hx] at h
      obtain rfl := Option.some.inj h
      rw [List.filter_cons_of_pos hx, List.eraseP_cons_of_pos hx]
    · rw [List.find?_cons_of_neg hx] at h
      rw [List.filter_cons_of_neg hx, List.eraseP_cons_of_neg hx, List.filter_cons_of_neg hx, ih h]

/-- **Where all messages fit, a call for a type takes the first message of that type, and waits when
there is none.** -/
theorem msgrcv_spec (hq : Fits size q) (t : ℤ) :
    (msgrcv q size t = .waits ∧ ofType t q = []) ∨
      ∃ m q', msgrcv q size t = .taken m q' ∧ ofType t q = m :: ofType t q' ∧ q' ⊆ q := by
  cases h : q.find? fun m => m.mtype = t with
  | none =>
    left
    refine ⟨by simp [msgrcv, h], ?_⟩
    rw [List.find?_eq_none] at h
    exact List.filter_eq_nil_iff.mpr h
  | some m =>
    right
    have hfits := hq m (List.mem_of_find?_eq_some h)
    exact ⟨m, _, by simp [msgrcv, h, hfits], filter_eq_cons h, List.eraseP_subset⟩

theorem Fits.mono (hq : Fits size q) (hsub : q' ⊆ q) : Fits size q' := fun m hm => hq m (hsub hm)

end Rules

end MsgQueue
