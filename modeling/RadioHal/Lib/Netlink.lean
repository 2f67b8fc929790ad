import Mathlib.Data.List.Basic
import Mathlib.Data.Int.Notation

/-!
# Waiting for the answer to a netlink request

A program that has sent a request sets a flag and calls `nl_recvmsgs` until one of the callbacks
it registered clears the flag.  The kernel answers with messages of data and ends the answer by
`NLMSG_DONE`, by an acknowledgement or by an error; whether the flag is ever cleared depends on
which of these endings have a callback.

## Main definitions

* `Answer δ` — an answer of the kernel, with data of type `δ`, as it arrives in datagrams.
* `Libnl δ` — what `nl_recvmsgs` does with one message, with its documented behaviour.
* `Callbacks σ δ` — the callbacks a program registers; the one for data changes a state `σ`.
* `recvmsgs`, `wait` — one call of `nl_recvmsgs`, and the waiting loop.

## Main results

* `wait_answer` — **what becomes of the loop depends on the data and on the ending alone.**
* `foldlM_isSome_iff` — a callback gets through all data when each message is readable.
* `foldlM_keeps`, `foldlM_comm` — an invariant of the callback is kept on all data, and what does
  not matter to it can be changed before or behind.
-/

namespace Netlink

/-! ### Answers -/

/-- The code of an error; the code zero makes an acknowledgement. -/
abbrev ErrorCode : Type := {e : ℤ // e ≠ 0}

/-- A message of the kernel, by what `libnl` tells apart. -/
inductive Message (δ : Type)
  /-- A message of data. -/
  | data (d : δ)
  /-- `NLMSG_DONE`. -/
  | done
  /-- `NLMSG_ERROR` with code zero. -/
  | ack
  /-- `NLMSG_ERROR` with another code. -/
  | error (e : ErrorCode)

/-- What the kernel puts behind the data of an answer: the end of a dump, an acknowledgement or an
error. -/
inductive Ending
  | done | ack | error (e : ErrorCode)
  deriving DecidableEq

def Ending.message {δ : Type} : Ending → Message δ
  | done => .done
  | ack => .ack
  | error e => .error e

/-- An answer, as it arrives in datagrams: the last one holds the ending. -/
structure Answer (δ : Type) where
  /-- The datagrams before the last one, which hold data only. -/
  parts : List (List δ)
  /-- The data in front of the ending. -/
  last : List δ
  /-- The ending. -/
  ending : Ending

variable {σ δ : Type}

/-- The datagrams of an answer.  Only the last of them holds the message that ends it. -/
def Answer.datagrams (a : Answer δ) : List (List (Message δ)) :=
  a.parts.map (·.map .data) ++ [a.last.map .data ++ [a.ending.message]]

/-- The data of an answer, in order. -/
def Answer.data (a : Answer δ) : List δ := a.parts.flatten ++ a.last

/-! ### Receiving -/

/-- The callbacks that `nl_recvmsgs` may call. -/
inductive Kind
  | valid | finish | ack
  deriving DecidableEq

/-- `nl_recvmsgs`, as far as a program relies on it. -/
structure Libnl (δ : Type) where
  /-- The callback called for a message. -/
  callback : Message δ → Option Kind
  /-- The value returned when a message has no callback at all. -/
  result : Message δ → ℤ
  callback_data : ∀ d, callback (.data d) = some .valid
  callback_done : callback .done = some .finish
  callback_ack : callback .ack = some .ack
  callback_error : ∀ e, callback (.error e) = none
  result_error : ∀ e, result (.error e) < 0

/-- A library that behaves as its documentation describes. -/
def Libnl.standard : Libnl δ where
  callback
    | .data _ => some .valid
    | .done => some .finish
    | .ack => some .ack
    | .error _ => none
  result _ := -1
  callback_data _ := rfl
  callback_done := rfl
  callback_ack := rfl
  callback_error _ := rfl
  result_error _ := by decide

/-- What a callback returns: go on with the next message, or leave the datagram. -/
inductive Verdict
  | skip | stop
  deriving DecidableEq

/-- The callbacks of a program.  The one for data may crash; the others clear the flag. -/
structure Callbacks (σ δ : Type) where
  valid : Option (σ → δ → Option σ)
  finish : Option Verdict
  ack : Option Verdict

/-- The flag and the state of a program that waits. -/
structure Waiting (σ : Type) where
  flag : ℤ
  state : σ

namespace Callbacks

/-- The data callback on one message; without one nothing happens. -/
def handle (cb : Callbacks σ δ) (s : σ) (d : δ) : Option σ :=
  match cb.valid with
  | none => some s
  | some handler => handler s d

/-- The data callback called for a message; only data has something for it. -/
def handleMessage (cb : Callbacks σ δ) (s : σ) : Message δ → Option σ
  | .data d => cb.handle s d
  | _ => some s

/-- Some callback clears the flag at this ending. -/
def clears (cb : Callbacks σ δ) : Ending → Bool
  | .done => cb.finish.isSome
  | .ack => cb.ack.isSome
  | .error _ => false

end Callbacks

/-- A callback that clears the flag, if there is one, in front of the messages `rest`. -/
def clearing (handler : Option Verdict) (rest : Waiting σ → Option (ℤ × Waiting σ))
    (w : Waiting σ) : Option (ℤ × Waiting σ) :=
  match handler with
  | none => rest w
  | some .skip => rest { w with flag := 0 }
  | some .stop => some (0, { w with flag := 0 })

/-- One call of `nl_recvmsgs` on one datagram; `none` when a callback crashes. -/
def recvmsgs (nl : Libnl δ) (cb : Callbacks σ δ) :
    List (Message δ) → Waiting σ → Option (ℤ × Waiting σ)
  | [], w => some (0, w)
  | m :: ms, w =>
    match nl.callback m with
    | none => some (nl.result m, w)
    | some .finish => clearing cb.finish (recvmsgs nl cb ms) w
    | some .ack => clearing cb.ack (recvmsgs nl cb ms) w
    | some .valid =>
      (cb.handleMessage w.state m).bind fun s => recvmsgs nl cb ms { w with state := s }

/-- What becomes of the loop that waits for the flag to be cleared. -/
inductive Outcome (σ δ : Type)
  /-- The loop is left, with these datagrams unread. -/
  | exits (state : σ) (unread : List (List (Message δ)))
  /-- The flag is still set, and nothing is left to read. -/
  | blocked
  /-- A callback crashed. -/
  | crashed

/-- `while (flag > 0) nl_recvmsgs(sock, cb);` on the datagrams of one answer. -/
def wait (nl : Libnl δ) (cb : Callbacks σ δ) :
    List (List (Message δ)) → Waiting σ → Outcome σ δ
  | [], w => if 0 < w.flag then .blocked else .exits w.state []
  | d :: ds, w =>
    if 0 < w.flag then
      match recvmsgs nl cb d w with
      | none => .crashed
      | some r => wait nl cb ds r.2
    else .exits w.state (d :: ds)

/-! ### What becomes of the loop -/

section Results

variable (nl : Libnl δ) (cb : Callbacks σ δ)

theorem recvmsgs_data (ds : List δ) (rest : List (Message δ)) (w : Waiting σ) :
    recvmsgs nl cb (ds.map .data ++ rest) w =
      (ds.foldlM cb.handle w.state).bind fun s => recvmsgs nl cb rest { w with state := s } := by
  induction ds generalizing w with
  | nil => rfl
  | cons d ds ih =>
    rw [List.map_cons, List.cons_append, recvmsgs, nl.callback_data, List.foldlM_cons]
    show (cb.handle w.state d).bind _ = _
    cases cb.handle w.state d with
    | none => rfl
    | some s => exact ih { w with state := s }

/-- The ending clears the flag when it has a callback. -/
theorem recvmsgs_ending (e : Ending) (w : Waiting σ) :
    ∃ r, recvmsgs nl cb [e.message] w =
      some (r, { w with flag := if cb.clears e then 0 else w.flag }) := by
  cases e with
  | done =>
    have hcall : recvmsgs nl cb [Message.done] w = clearing cb.finish (recvmsgs nl cb []) w := by
      rw [recvmsgs, nl.callback_done]
    rw [Ending.message, hcall]
    rcases hf : cb.finish with _ | (_ | _) <;>
      exact ⟨0, by simp [hf, clearing, recvmsgs, Callbacks.clears]⟩
  | ack =>
    have hcall : recvmsgs nl cb [Message.ack] w = clearing cb.ack (recvmsgs nl cb []) w := by
      rw [recvmsgs, nl.callback_ack]
    rw [Ending.message, hcall]
    rcases ha : cb.ack with _ | (_ | _) <;>
      exact ⟨0, by simp [ha, clearing, recvmsgs, Callbacks.clears]⟩
  | error e =>
    refine ⟨nl.result (.error e), ?_⟩
    rw [Ending.message, recvmsgs, nl.callback_error]
    rfl

/-- Datagrams of data leave the flag set, so the loop goes through all of them. -/
theorem wait_data (parts : List (List δ)) (rest : List (List (Message δ))) {w : Waiting σ}
    (hw : 0 < w.flag) :
    wait nl cb (parts.map (·.map .data) ++ rest) w =
      match parts.flatten.foldlM cb.handle w.state with
      | none => .crashed
      | some s => wait nl cb rest { w with state := s } := by
  induction parts generalizing w with
  | nil => rfl
  | cons ds parts ih =>
    have hdata := recvmsgs_data nl cb ds [] w
    rw [List.append_nil] at hdata
    rw [List.map_cons, List.cons_append, wait, if_pos hw, hdata, List.flatten_cons,
      List.foldlM_append]
    cases h : ds.foldlM cb.handle w.state with
    | none => rfl
    | some s => exact ih (w := { w with state := s }) hw

/-- **The loop crashes with a data callback; else it is left, with nothing unread, exactly when
the ending has a callback.** -/
theorem wait_answer (a : Answer δ) (s : σ) :
    wait nl cb a.datagrams ⟨1, s⟩ =
      match a.data.foldlM cb.handle s with
      | none => .crashed
      | some s' => if cb.clears a.ending then .exits s' [] else .blocked := by
  have hflag : (0 : ℤ) < 1 := by decide
  unfold Answer.datagrams Answer.data
  rw [wait_data nl cb a.parts _ hflag, List.foldlM_append]
  cases a.parts.flatten.foldlM cb.handle s with
  | none => rfl
  | some s₁ =>
    simp only [Option.bind_eq_bind, Option.bind_some]
    rw [wait, if_pos hflag, recvmsgs_data]
    cases a.last.foldlM cb.handle s₁ with
    | none => rfl
    | some s₂ =>
      obtain ⟨r, hr⟩ := recvmsgs_ending nl cb a.ending ⟨1, s₂⟩
      simp only [Option.bind_some, hr, wait]
      cases cb.clears a.ending <;> rfl

end Results

/-- A callback gets through all data exactly when each message is readable, where an invariant of
the state settles what is readable. -/
theorem foldlM_isSome_iff (Inv : σ → Prop) {f : σ → δ → Option σ} {P : δ → Prop}
    (hf : ∀ s d, Inv s → ((f s d).isSome = true ↔ P d))
    (hkeep : ∀ s d s', Inv s → f s d = some s' → Inv s') (ds : List δ) {s : σ} (hs : Inv s) :
    (ds.foldlM f s).isSome = true ↔ ∀ d ∈ ds, P d := by
  induction ds generalizing s with
  | nil => simp
  | cons d ds ih =>
    rw [List.foldlM_cons, List.forall_mem_cons, ← hf s d hs]
    cases h : f s d with
    | none => simp
    | some s' => simpa using ih (hkeep s d s' hs h)

/-- What does not matter to the callback does not matter to it on all data. -/
theorem foldlM_comm {f : σ → δ → Option σ} {g : σ → σ} (hf : ∀ s d, f (g s) d = (f s d).map g)
    (ds : List δ) (s : σ) : ds.foldlM f (g s) = (ds.foldlM f s).map g := by
  induction ds generalizing s with
  | nil => rfl
  | cons d ds ih =>
    rw [List.foldlM_cons, List.foldlM_cons, hf]
    cases f s d with
    | none => rfl
    | some s' => exact ih s'

/-- An invariant that the callback keeps on each message is kept on all data. -/
theorem foldlM_keeps (Inv : σ → Prop) {f : σ → δ → Option σ} {ds : List δ}
    (hkeep : ∀ d ∈ ds, ∀ s s', Inv s → f s d = some s' → Inv s') {s s' : σ} (hs : Inv s)
    (h : ds.foldlM f s = some s') : Inv s' := by
  induction ds generalizing s with
  | nil =>
    obtain rfl := Option.some.inj h
    exact hs
  | cons d ds ih =>
    rw [List.foldlM_cons] at h
    obtain ⟨s₁, hs₁, h⟩ := Option.bind_eq_some_iff.mp h
    obtain ⟨hfirst, hrest⟩ := List.forall_mem_cons.mp hkeep
    exact ih hrest (hfirst s s₁ hs hs₁) h

end Netlink
