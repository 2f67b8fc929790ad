import Mathlib.Data.List.Basic
import RadioHal.Lib.Fifo
import RadioHal.Modem.DataSession
import RadioHal.Modem.EventHandler

/-!
# The pipe between the reader thread and the event loop

The reader thread calls `at_event_handler` for the lines the modem sends of its own accord, and
`modem_events` reads the messages on another thread.  The two go on in any order, one question at a
time.  Writing does not wait for room, and a read may be interrupted.

## Main definitions

* `Pipeline`, `PipeStep` — the two threads with the pipe between them, and their steps.
* `PipeEvent` — a message that is written, one that is processed, an error that is reported.
* `KeepsMessages log s` — what is processed is what was produced, in the same order and once each,
  and what could not be queued has been reported.

## Main results

* `consumer_runs_modemEvents`, `round_of_read` — the consumer is the event loop, and processes the
  message of its step.
* `PipeStep.fifo`, `pipe_log_eq` — the pipe is a queue of bounded capacity: what was queued is what
  was read, and what it still holds.
* `never_reported` — no error is ever reported behind a write.
* `messages_kept_iff` — **messages are kept in every state of a run exactly when it never finds the
  pipe full and no read of it fails.**
-/

namespace RadioHal

open CLib Dialogue

/-! ### The two threads -/

/-- `sizeof(struct radio_hal_msg_buffer)` where a `long` has eight bytes. -/
def msgBufferSize : ℤ := 120

/-- What happens at the pipe between the two threads. -/
inductive PipeEvent
  /-- `at_event_handler` writes a message, and it is queued or finds the pipe full. -/
  | produced (msg : RadioHalMsgBuffer) (queued : Bool)
  /-- `at_event_handler` reports an error behind its write. -/
  | reported
  /-- `modem_events` goes on with a message: the one it has read, or the one it still has in its
  buffer where the read has failed. -/
  | processed (msg : RadioHalMsgBuffer) (fresh : Bool)

/-- The two threads and the pipe between them. -/
structure Pipeline where
  /-- The messages in the pipe. -/
  fifo : List RadioHalMsgBuffer
  /-- What is left of the call of `at_event_handler` under way. -/
  handler : HandlerM Unit
  /-- The variables of `modem_events` as its round found them. -/
  loop : EventLoop
  /-- What is left of the round. -/
  round : ModemM EventLoop

/-- The variables of `modem_events` ahead of its loop. -/
def EventLoop.start : EventLoop := ⟨.init, ModemSystemEvent.startupEvent.code, .zero⟩

/-- Nothing has been done yet: `modem_events` is about to send its first command. -/
def Pipeline.start : Pipeline where
  fifo := []
  handler := ret ()
  loop := EventLoop.start
  round := do
    let _ ← atSendCommand "AT+CGREG?\n".toList none
    return EventLoop.start

/-- The steps, on a pipe with room for `capacity` messages. -/
inductive PipeStep (capacity : ℕ) (ctx : ModemContext) :
    Pipeline → Option PipeEvent → Pipeline → Prop
  /-- The reader thread calls the handler. -/
  | called {s : Pipeline} (line : Text) : s.handler = ret () →
      PipeStep capacity ctx s none { s with handler := atEventHandler line }
  /-- There is room for the message. -/
  | queued {s : Pipeline} {msg : RadioHalMsgBuffer} {k : ℤ → HandlerM Unit} :
      s.handler = ask (.write msg) k → s.fifo.length < capacity →
      PipeStep capacity ctx s (some (.produced msg true))
        { s with fifo := s.fifo ++ [msg], handler := k msgBufferSize }
  /-- There is none. -/
  | full {s : Pipeline} {msg : RadioHalMsgBuffer} {k : ℤ → HandlerM Unit} :
      s.handler = ask (.write msg) k → ¬ s.fifo.length < capacity →
      PipeStep capacity ctx s (some (.produced msg false)) { s with handler := k (-1) }
  /-- The handler reports an error behind its write. -/
  | reported {s : Pipeline} {k : Unit → HandlerM Unit} : s.handler = ask writeError k →
      PipeStep capacity ctx s (some .reported) { s with handler := k () }
  /-- The handler goes on. -/
  | handlerGoesOn {s : Pipeline} {q : HandlerQ} {k : HandlerA q → HandlerM Unit} (a : HandlerA q) :
      s.handler = ask q k → (∀ msg, q ≠ .write msg) → q ≠ writeError →
      PipeStep capacity ctx s none { s with handler := k a }
  /-- `modem_events` starts the next round. -/
  | nextRound {s : Pipeline} {l : EventLoop} : s.round = ret l →
      PipeStep capacity ctx s none { s with loop := l, round := modemEventsRound ctx l }
  /-- The event loop reads a message. -/
  | read {s : Pipeline} {msg : RadioHalMsgBuffer} {rest : List RadioHalMsgBuffer}
      {k : Option RadioHalMsgBuffer → ModemM EventLoop} :
      s.round = ask .readEvent k → s.fifo = msg :: rest →
      PipeStep capacity ctx s (some (.processed msg true))
        { s with fifo := rest, round := k (some msg) }
  /-- The read fails. -/
  | readFails {s : Pipeline} {k : Option RadioHalMsgBuffer → ModemM EventLoop} :
      s.round = ask .readEvent k →
      PipeStep capacity ctx s (some (.processed s.loop.buffer false)) { s with round := k none }
  /-- The event loop goes on. -/
  | loopGoesOn {s : Pipeline} {q : ModemQ} {k : ModemA q → ModemM EventLoop} (a : ModemA q) :
      s.round = ask q k → q ≠ .readEvent →
      PipeStep capacity ctx s none { s with round := k a }

/-! ### What a run does -/

/-- The messages that `at_event_handler` has produced, whether they were queued or not. -/
def producedOf (log : List PipeEvent) : List RadioHalMsgBuffer :=
  log.filterMap fun e =>
    match e with
    | .produced msg _ => some msg
    | _ => none

/-- The messages that `modem_events` has processed, in their order. -/
def processedOf (log : List PipeEvent) : List RadioHalMsgBuffer :=
  log.filterMap fun e =>
    match e with
    | .processed msg _ => some msg
    | _ => none

/-- The event is one of `at_event_handler`, and not of `modem_events`. -/
def PipeEvent.ofHandler : PipeEvent → Bool
  | processed _ _ => false
  | _ => true

/-- Behind every message that could not be queued the handler reports an error, before it produces
another one. -/
def AllReported : List PipeEvent → Prop
  | [] => True
  | .produced _ false :: rest =>
    (rest.find? PipeEvent.ofHandler) = some .reported ∧ AllReported rest
  | _ :: rest => AllReported rest

/-- What is processed is what was produced, in the same order, each message once; and when no call
of the handler is under way, what could not be queued has been reported. -/
structure KeepsMessages (log : List PipeEvent) (s : Pipeline) : Prop where
  processed_prefix : processedOf log <+: producedOf log
  once : ∀ msg, .processed msg false ∉ log
  reported : s.handler = ret () → AllReported log

/-- A write that finds no room, or a read that fails. -/
def PipeEvent.Fails : PipeEvent → Prop
  | produced _ queued => queued = false
  | reported => False
  | processed _ fresh => fresh = false

/-! ### The consumer is the event loop -/

variable {capacity : ℕ} {ctx : ModemContext} {log : List PipeEvent} {s : Pipeline}

/-- The question leaves the pipe alone. -/
def ModemQ.NoRead (q : ModemQ) : Prop := q ≠ .readEvent

theorem onlyAsks_modemStateMachine (state : ModemState) (newEvent : ℤ) :
    OnlyAsks ModemQ.NoRead (modemStateMachine ctx state newEvent) := by
  have hcommand : ∀ command type responsePrefix,
      ModemQ.NoRead (.atCommand command type responsePrefix) := by simp [ModemQ.NoRead]
  have hconnect : OnlyAsks ModemQ.NoRead (modemHalConnect ctx) :=
    onlyAsks_modemHalConnect ctx hcommand (by simp [ModemQ.NoRead]) (by simp [ModemQ.NoRead])
      (by simp [ModemQ.NoRead]) (by simp [ModemQ.NoRead])
  unfold modemStateMachine
  split
  · unfold initHandler
    apply hconnect.bind
    intro ret
    split
    · exact ⟨by simp [ModemQ.NoRead], fun _ => trivial⟩
    · trivial
  · split
    · trivial
    · trivial

theorem onlyAsks_handleEvent (l : EventLoop) : OnlyAsks ModemQ.NoRead (handleEvent ctx l) := by
  unfold handleEvent
  split
  · exact (onlyAsks_modemStateMachine _ _).bind fun _ => trivial
  · trivial

/-- The variables once a read is over. -/
def EventLoop.received (l : EventLoop) (msg : Option RadioHalMsgBuffer) : EventLoop :=
  { l with buffer := msg.getD l.buffer, newEvent := (msg.getD l.buffer).event }

theorem modemEventsRound_of_init {l : EventLoop} (h : l.state = .init) :
    modemEventsRound ctx l = handleEvent ctx l := by
  unfold modemEventsRound
  rw [if_neg (by simp [h])]

theorem modemEventsRound_of_ne {l : EventLoop} (h : l.state ≠ .init) :
    modemEventsRound ctx l = ask .readEvent fun msg => handleEvent ctx (l.received msg) := by
  unfold modemEventsRound
  rw [if_pos h]
  rfl

/-- A round that is to read its message is at its beginning, and outside `MODEM_INIT_STATE`. -/
def ReadsFirst (ctx : ModemContext) (s : Pipeline) : Prop :=
  (s.loop.state ≠ .init ∧ s.round = modemEventsRound ctx s.loop) ∨
    OnlyAsks ModemQ.NoRead s.round

theorem readsFirst_step {s' : Pipeline} {label : Option PipeEvent} (h : ReadsFirst ctx s)
    (hstep : PipeStep capacity ctx s label s') : ReadsFirst ctx s' := by
  -- behind a question of the round nothing is read any more
  have hnext : ∀ {q : ModemQ} {k : ModemA q → ModemM EventLoop} (a : ModemA q),
      s.round = ask q k → OnlyAsks ModemQ.NoRead (k a) := by
    intro q k a hq
    rcases h with ⟨hstate, hround⟩ | hquiet
    · rw [modemEventsRound_of_ne hstate, hq] at hround
      cases hround
      exact onlyAsks_handleEvent _
    · rw [hq] at hquiet
      exact hquiet.2 a
  cases hstep with
  | called line _ => exact h
  | queued _ _ => exact h
  | full _ _ => exact h
  | reported _ => exact h
  | handlerGoesOn a _ _ _ => exact h
  | @nextRound l _ =>
    by_cases hstate : l.state = .init
    · right
      show OnlyAsks ModemQ.NoRead (modemEventsRound ctx l)
      rw [modemEventsRound_of_init hstate]
      exact onlyAsks_handleEvent l
    · exact Or.inl ⟨hstate, rfl⟩
  | read hq _ => exact Or.inr (hnext (some _) hq)
  | readFails hq => exact Or.inr (hnext none hq)
  | loopGoesOn a hq _ => exact Or.inr (hnext a hq)

/-- **The message of a read is the one the round goes on with**, and it does so outside
`MODEM_INIT_STATE` only. -/
theorem round_of_read (hrun : Trace (PipeStep capacity ctx) .start log s)
    {k : Option RadioHalMsgBuffer → ModemM EventLoop} (hq : s.round = ask .readEvent k) :
    s.loop.state ≠ .init ∧ ∀ msg, k msg = handleEvent ctx (s.loop.received msg) := by
  have hstart : ReadsFirst ctx .start := Or.inr ⟨by simp [ModemQ.NoRead], fun _ => trivial⟩
  have hinv := hrun.invariant (ReadsFirst ctx) (fun _ _ _ => readsFirst_step) hstart
  rcases hinv with ⟨hstate, hround⟩ | hquiet
  · rw [modemEventsRound_of_ne hstate, hq] at hround
    cases hround
    exact ⟨hstate, fun msg => rfl⟩
  · rw [hq] at hquiet
    exact absurd rfl hquiet.1

/-- **The consumer is `modem_events`**: whatever it has come to, so has the event loop, after the
rounds begun so far and with any number of rounds to come. -/
theorem consumer_runs_modemEvents (hrun : Trace (PipeStep capacity ctx) .start log s) :
    ∃ n, ∀ k, ∃ t, After (modemEvents ctx (n + k)) t
      (s.round >>= iterate (modemEventsRound ctx) k) := by
  apply hrun.invariant fun s => ∃ n, ∀ k, ∃ t, After (modemEvents ctx (n + k)) t
    (s.round >>= iterate (modemEventsRound ctx) k)
  · intro s label s' hinv hstep
    obtain ⟨n, hn⟩ := hinv
    -- an answer brings the round under way one question further
    have hnext : ∀ {q : ModemQ} {f : ModemA q → ModemM EventLoop} (a : ModemA q),
        s.round = ask q f → ∃ n, ∀ k, ∃ t, After (modemEvents ctx (n + k)) t
          (f a >>= iterate (modemEventsRound ctx) k) := by
      intro q f a hq
      refine ⟨n, fun k => ?_⟩
      obtain ⟨t, ht⟩ := hn k
      rw [hq, ask_bind] at ht
      exact ⟨t ++ [⟨q, a⟩], ht.trans (.reply a (.start _))⟩
    cases hstep with
    -- the steps of the handler leave the round where it is
    | called line _ => exact ⟨n, hn⟩
    | queued _ _ => exact ⟨n, hn⟩
    | full _ _ => exact ⟨n, hn⟩
    | reported _ => exact ⟨n, hn⟩
    | handlerGoesOn a _ _ _ => exact ⟨n, hn⟩
    | @nextRound l hl =>
      -- one more round has begun
      refine ⟨n + 1, fun k => ?_⟩
      obtain ⟨t, ht⟩ := hn (k + 1)
      rw [hl, ret_bind, iterate_succ] at ht
      have hcount : n + 1 + k = n + (k + 1) := by omega
      rw [hcount]
      exact ⟨t, ht⟩
    | read hq _ => exact hnext (some _) hq
    | readFails hq => exact hnext none hq
    | loopGoesOn a hq _ => exact hnext a hq
  · refine ⟨0, fun k => ⟨[], ?_⟩⟩
    rw [Nat.zero_add]
    exact .start _

/-! ### The pipe is a bounded queue -/

/-- What an event is to the pipe. -/
def PipeEvent.toFifo : PipeEvent → Option (Fifo.Event RadioHalMsgBuffer)
  | produced msg true => some (.put msg)
  | produced msg false => some (.full msg)
  | reported => none
  | processed msg true => some (.got msg)
  | processed _ false => some .failed

theorem PipeStep.fifo {s' : Pipeline} {label : Option PipeEvent}
    (h : PipeStep capacity ctx s label s') :
    Fifo.Step capacity s.fifo (label.bind PipeEvent.toFifo) s'.fifo ∨
      (label.bind PipeEvent.toFifo = none ∧ s'.fifo = s.fifo) := by
  cases h with
  | called line _ => exact Or.inr ⟨rfl, rfl⟩
  | queued _ hroom => exact Or.inl (.put _ hroom)
  | full _ hroom => exact Or.inl (.full _ hroom)
  | reported _ => exact Or.inr ⟨rfl, rfl⟩
  | handlerGoesOn a _ _ _ => exact Or.inr ⟨rfl, rfl⟩
  | nextRound _ => exact Or.inr ⟨rfl, rfl⟩
  | read _ hfifo =>
    left
    rw [hfifo]
    exact .got _ _
  | readFails _ => exact Or.inl (.failed _)
  | loopGoesOn a _ _ => exact Or.inr ⟨rfl, rfl⟩

/-- **What was queued is what was read, in the same order, and what the pipe still holds.** -/
theorem pipe_log_eq (hrun : Trace (PipeStep capacity ctx) .start log s) :
    Fifo.accepted (log.filterMap PipeEvent.toFifo) =
      Fifo.taken (log.filterMap PipeEvent.toFifo) ++ s.fifo := by
  have hfifo := hrun.map Pipeline.fifo PipeEvent.toFifo fun _ _ _ hstep => hstep.fifo
  exact Fifo.accepted_eq hfifo

/-- Without a failure all that is produced is queued. -/
theorem producedOf_eq (h : ∀ e ∈ log, ¬ e.Fails) :
    producedOf log = Fifo.accepted (log.filterMap PipeEvent.toFifo) := by
  unfold producedOf Fifo.accepted
  rw [List.filterMap_filterMap]
  apply List.filterMap_congr
  intro e he
  cases e with
  | produced msg queued =>
    cases queued with
    | true => rfl
    | false => exact absurd rfl (h _ he)
  | reported => rfl
  | processed msg fresh => cases fresh <;> rfl

/-- The messages that were processed are those that were read. -/
theorem processedOf_eq (h : ∀ e ∈ log, ¬ e.Fails) :
    processedOf log = Fifo.taken (log.filterMap PipeEvent.toFifo) := by
  unfold processedOf Fifo.taken
  rw [List.filterMap_filterMap]
  apply List.filterMap_congr
  intro e he
  cases e with
  | produced msg queued => cases queued <;> rfl
  | reported => rfl
  | processed msg fresh =>
    cases fresh with
    | true => rfl
    | false => exact absurd rfl (h _ he)

/-! ### What is reported -/

/-- A message that could not be queued, with nothing behind it yet, has not been reported. -/
theorem not_allReported_concat (log : List PipeEvent) (msg : RadioHalMsgBuffer) :
    ¬ AllReported (log ++ [.produced msg false]) := by
  induction log with
  | nil =>
    rintro ⟨h, -⟩
    exact absurd h (by simp)
  | cons e log ih =>
    intro h
    cases e with
    | produced msg' queued =>
      cases queued with
      | true => exact ih h
      | false => exact ih h.2
    | reported => exact ih h
    | processed msg' fresh => exact ih h

theorem allReported_of_forall (h : ∀ e ∈ log, ¬ e.Fails) : AllReported log := by
  induction log with
  | nil => trivial
  | cons e log ih =>
    obtain ⟨he, hlog⟩ := List.forall_mem_cons.mp h
    cases e with
    | produced msg queued =>
      cases queued with
      | true => exact ih hlog
      | false => exact absurd rfl he
    | reported => exact ih hlog
    | processed msg fresh => exact ih hlog

/-- Behind a write that does not return zero nothing is left to do. -/
def EndsAtWrite (q : HandlerQ) (k : HandlerA q → HandlerM Unit) : Prop :=
  match q, k with
  | .write _, k => ∀ retval : ℤ, retval ≠ 0 → k retval = ret ()
  | _, _ => True

theorem endsAtWrite_of_ne {q : HandlerQ} (k : HandlerA q → HandlerM Unit)
    (h : ∀ msg, q ≠ .write msg) : EndsAtWrite q k := by
  cases q with
  | write msg => exact absurd rfl (h msg)
  | _ => trivial

/-- Once it has written, whatever comes of it but zero, the handler is done. -/
def WritesLast : HandlerM Unit → Prop := AtEvery EndsAtWrite

theorem writesLast_atEventHandler (line : Text) : WritesLast (atEventHandler line) := by
  have hwrite : ∀ msg, WritesLast (writeMessage msg) := by
    intro msg
    refine ⟨fun retval hne => ?_, fun retval => ?_⟩
    · show (if retval = 0 then _ else _) = _
      rw [if_neg hne]
      rfl
    · show WritesLast (if (retval : ℤ) = 0 then _ else _)
      split
      · exact ⟨trivial, fun _ => trivial⟩
      · trivial
  unfold atEventHandler
  apply atEvery_bind_of_onlyAsks (fun q k => endsAtWrite_of_ne k)
    (onlyAsks_atEventMessage (by simp) (by simp) line)
  intro msg
  refine ⟨trivial, fun flags => ⟨trivial, fun retval => ?_⟩⟩
  show WritesLast (if (retval : ℤ) ≠ 0 then _ else _)
  split
  · exact ⟨trivial, fun _ => hwrite msg⟩
  · exact hwrite msg

theorem writesLast_step {s' : Pipeline} {label : Option PipeEvent} (h : WritesLast s.handler)
    (hstep : PipeStep capacity ctx s label s') : WritesLast s'.handler := by
  have hnext : ∀ {q : HandlerQ} {k : HandlerA q → HandlerM Unit} (a : HandlerA q),
      s.handler = ask q k → WritesLast (k a) := by
    intro q k a hq
    rw [hq] at h
    exact h.2 a
  cases hstep with
  | called line _ => exact writesLast_atEventHandler line
  | queued hq _ => exact hnext msgBufferSize hq
  | full hq _ => exact hnext (-1 : ℤ) hq
  | reported hq => exact hnext () hq
  | handlerGoesOn a hq _ _ => exact hnext a hq
  | nextRound _ => exact h
  | read _ _ => exact h
  | readFails _ => exact h
  | loopGoesOn a _ _ => exact h

/-- Behind a write that found no room the handler is done at once. -/
theorem handler_of_full {s' : Pipeline} {msg : RadioHalMsgBuffer}
    (hrun : Trace (PipeStep capacity ctx) .start log s)
    (hstep : PipeStep capacity ctx s (some (.produced msg false)) s') : s'.handler = ret () := by
  have hstart : WritesLast Pipeline.start.handler := trivial
  have hlast := hrun.invariant (fun s => WritesLast s.handler) (fun _ _ _ => writesLast_step) hstart
  cases hstep with
  | full hq _ =>
    rw [hq] at hlast
    exact hlast.1 (-1) (by decide)

/-- As long as `write` returns a size or `-1`, nothing is reported. -/
def Silent (p : HandlerM Unit) : Prop :=
  wp writeWorld (fun _ q => q.NoReport) (fun _ _ => True) p ()

theorem silent_step {s' : Pipeline} {label : Option PipeEvent} (h : Silent s.handler)
    (hstep : PipeStep capacity ctx s label s') : Silent s'.handler := by
  have hnext : ∀ {q : HandlerQ} {k : HandlerA q → HandlerM Unit} (a : HandlerA q),
      s.handler = ask q k → writeWorld () q a () → Silent (k a) := by
    intro q k a hq hworld
    rw [hq] at h
    exact h.2 a () hworld
  cases hstep with
  | called line _ => exact wp_atEventHandler line
  | queued hq _ => exact hnext msgBufferSize hq (by simp [writeWorld, msgBufferSize])
  | full hq _ => exact hnext (-1 : ℤ) hq (by simp [writeWorld])
  | reported hq => exact hnext () hq trivial
  | @handlerGoesOn q k a hq hwrite _ =>
    refine hnext a hq ?_
    cases q with
    | write msg => exact absurd rfl (hwrite msg)
    | _ => trivial
  | nextRound _ => exact h
  | read _ _ => exact h
  | readFails _ => exact h
  | loopGoesOn a _ _ => exact h

/-- **No error is ever reported behind a write.**  So a message that finds the pipe full is lost
without a trace. -/
theorem never_reported (hrun : Trace (PipeStep capacity ctx) .start log s) :
    .reported ∉ log := by
  have hstart : Silent Pipeline.start.handler := trivial
  have hlabel : ∀ s e s', Silent s.handler → PipeStep capacity ctx s (some e) s' →
      e ≠ .reported := by
    intro s e s' hsilent hstep he
    subst he
    cases hstep with
    | reported hq =>
      unfold Silent at hsilent
      rw [hq] at hsilent
      exact hsilent.1 rfl
  intro hmem
  exact hrun.forall_mem (fun s => Silent s.handler) (fun _ _ _ => silent_step) hlabel hstart _ hmem
    rfl

/-! ### Runs -/

/-- The handler goes on as it would by itself. -/
theorem trace_of_handler {p p' : HandlerM Unit} {t : List (Exchange HandlerQ HandlerA)}
    (h : After p t p') (hquiet : ∀ x ∈ t, (∀ msg, x.1 ≠ .write msg) ∧ x.1 ≠ writeError)
    (s : Pipeline) :
    Trace (PipeStep capacity ctx) { s with handler := p } [] { s with handler := p' } := by
  induction h with
  | start p => exact .refl
  | @reply q k t p' a _ ih =>
    obtain ⟨hq, hrest⟩ := List.forall_mem_cons.mp hquiet
    have hstep : PipeStep capacity ctx { s with handler := ask q k } none
        { s with handler := k a } := .handlerGoesOn a rfl hq.1 hq.2
    exact (Trace.refl.snoc hstep).trans (ih hrest)

/-- What a round of `modem_events` asks of anything but the pipe is a run of the two threads, in
which the handler rests. -/
theorem trace_of_round {p p' : ModemM EventLoop} {t : List (Exchange ModemQ ModemA)}
    (h : After p t p') (hquiet : ∀ x ∈ t, ModemQ.NoRead x.1) (s : Pipeline) :
    Trace (PipeStep capacity ctx) { s with round := p } [] { s with round := p' } := by
  induction h with
  | start p => exact .refl
  | @reply q k t p' a _ ih =>
    obtain ⟨hq, hrest⟩ := List.forall_mem_cons.mp hquiet
    have hstep : PipeStep capacity ctx { s with round := ask q k } none { s with round := k a } :=
      .loopGoesOn a rfl hq
    exact (Trace.refl.snoc hstep).trans (ih hrest)

/-- The message that the line `+CREG: 1` is reported by. -/
def registrationMessage : RadioHalMsgBuffer :=
  ⟨0, .modem, ModemSystemEvent.registrationEvent.code, CharArray.strncpy 100 "+CREG: 1".toList⟩

/-- The handler of a line gets to the write of its message. -/
theorem trace_to_write (hidle : s.handler = ret ()) :
    Trace (PipeStep capacity ctx) s [] { s with handler := writeMessage registrationMessage } := by
  have hrun : After (atEventHandler "+CREG: 1".toList)
      [⟨.getFlags, (0 : ℤ)⟩, ⟨.setNonblock 0, (0 : ℤ)⟩] (writeMessage registrationMessage) :=
    .reply _ (.reply _ (.start _))
  have hcalled : Trace (PipeStep capacity ctx) s []
      { s with handler := atEventHandler "+CREG: 1".toList } :=
    Trace.refl.snoc (PipeStep.called _ hidle)
  exact hcalled.trans (trace_of_handler hrun (by simp) s)

/-- A message is queued where there is room in the pipe. -/
theorem trace_queued (hidle : s.handler = ret ()) (hroom : s.fifo.length < capacity) :
    Trace (PipeStep capacity ctx) s [.produced registrationMessage true]
      { s with fifo := s.fifo ++ [registrationMessage], handler := ret () } :=
  (trace_to_write hidle).snoc (.queued rfl hroom)

/-- A message is lost where there is no room in the pipe. -/
theorem trace_full (hidle : s.handler = ret ()) (hroom : ¬ s.fifo.length < capacity) :
    Trace (PipeStep capacity ctx) s [.produced registrationMessage false]
      { s with handler := ret () } :=
  (trace_to_write hidle).snoc (.full rfl hroom)

/-- The modem tells that it is registered. -/
def registeredDelivery : Delivery where
  lines := ["+CGREG: 1,1".toList, "OK".toList]
  final := ⟨_, List.mem_cons_of_mem _ List.mem_cons_self, rfl⟩

/-- A modem that is ready and registered; every other command is refused. -/
def registeredScript (q : ModemQ) : Option (ModemA q) :=
  match q with
  | .atCommand command type responsePrefix =>
    if command = cgregCommand then some (.delivered registeredDelivery)
    else deniedScript (.atCommand command type responsePrefix)
  | q => deniedScript q

/-- The variables of `modem_events` once it is connected. -/
def EventLoop.connected : EventLoop := { EventLoop.start with state := .ifUp }

/-- The event loop of that modem gets to its first read. -/
theorem trace_connected (s : Pipeline) (hround : s.round = Pipeline.start.round) :
    Trace (PipeStep capacity plainContext) s []
      { s with
        loop := .connected
        round := modemEventsRound plainContext .connected } := by
  have hfirst : PipeStep capacity plainContext s none { s with round := ret EventLoop.start } :=
    .loopGoesOn (AtAnswer.refused .generic) hround (by simp)
  have hnext : PipeStep capacity plainContext { s with round := ret EventLoop.start } none
      { s with loop := .start, round := modemEventsRound plainContext .start } := .nextRound rfl
  have hrun := after_play registeredScript 25 (modemEventsRound plainContext .start)
  have hret : (play registeredScript 25 (modemEventsRound plainContext .start)).2 =
      ret EventLoop.connected := rfl
  have hhandle : OnlyAsks ModemQ.NoRead (modemEventsRound plainContext .start) :=
    onlyAsks_handleEvent EventLoop.start
  have hquiet := hhandle.of_mem hrun
  rw [hret] at hrun
  have hconnects : Trace (PipeStep capacity plainContext)
      { s with loop := .start, round := modemEventsRound plainContext .start } []
      { s with loop := .start, round := ret EventLoop.connected } :=
    trace_of_round hrun hquiet { s with loop := .start }
  have hlast : PipeStep capacity plainContext
      { s with loop := .start, round := ret EventLoop.connected } none
      { s with loop := .connected, round := modemEventsRound plainContext .connected } :=
    .nextRound rfl
  exact ((Trace.refl.snoc hfirst).snoc hnext).trans (hconnects.snoc hlast)

/-! ### Messages are kept -/

/-- **In every state of a run messages are kept, exactly when no write of the run found the pipe
full and no read of it failed.** A message that finds no room is lost, and behind a read that fails
the message that is still in the buffer is processed once more. -/
theorem messages_kept_iff (hrun : Trace (PipeStep capacity ctx) .start log s) :
    (∀ log₁ log₂ s₁, log = log₁ ++ log₂ → Trace (PipeStep capacity ctx) .start log₁ s₁ →
      Trace (PipeStep capacity ctx) s₁ log₂ s → KeepsMessages log₁ s₁) ↔
    ∀ e ∈ log, ¬ e.Fails := by
  constructor
  · intro h e he hfails
    obtain ⟨log₁, log₂, rfl⟩ := List.append_of_mem he
    obtain ⟨s₁, s₂, h₁, hstep, h₂⟩ := hrun.exists_step
    -- the state right behind the failure
    have hkept : KeepsMessages (log₁ ++ [e]) s₂ :=
      h (log₁ ++ [e]) log₂ s₂ (by simp) (h₁.snoc hstep) h₂
    cases e with
    | produced msg queued =>
      obtain rfl : queued = false := hfails
      exact not_allReported_concat log₁ msg (hkept.reported (handler_of_full h₁ hstep))
    | reported => exact hfails
    | processed msg fresh =>
      obtain rfl : fresh = false := hfails
      exact hkept.once msg (by simp)
  · intro h log₁ log₂ s₁ hlog h₁ _
    subst hlog
    have hsound : ∀ e ∈ log₁, ¬ e.Fails := fun e he => h e (List.mem_append_left _ he)
    refine ⟨?_, fun msg hmem => hsound _ hmem rfl, fun _ => allReported_of_forall hsound⟩
    rw [producedOf_eq hsound, processedOf_eq hsound, pipe_log_eq h₁]
    exact List.prefix_append _ _

/-- A message that is queued, and read by a modem HAL that is connected. -/
theorem messages_kept_connected : ∃ s, Trace (PipeStep 1 plainContext) .start
      [.produced registrationMessage true, .processed registrationMessage true] s ∧
    KeepsMessages
      [.produced registrationMessage true, .processed registrationMessage true] s := by
  have hqueued : Trace (PipeStep 1 plainContext) .start [.produced registrationMessage true]
      { Pipeline.start with fifo := [registrationMessage] } := trace_queued rfl (by decide)
  have hconnected := hqueued.trans (trace_connected _ rfl)
  have hround : modemEventsRound plainContext .connected = ask .readEvent fun msg =>
      handleEvent plainContext (EventLoop.connected.received msg) :=
    modemEventsRound_of_ne (by decide)
  have hrun := hconnected.snoc (.read hround rfl)
  refine ⟨_, hrun, ?_⟩
  refine (messages_kept_iff hrun).mpr ?_ _ [] _ (by simp) hrun .refl
  intro e he
  simp only [List.append_nil, Option.toList_some, List.cons_append, List.nil_append,
    List.mem_cons, List.not_mem_nil, or_false] at he
  rcases he with rfl | rfl
  · exact Bool.noConfusion
  · exact Bool.noConfusion

/-- Two lines come while the modem HAL is still connecting, and the pipe has room for one. -/
theorem not_all_messages_kept : ¬ ∀ (capacity : ℕ) (ctx : ModemContext) (log : List PipeEvent)
    (s : Pipeline), Trace (PipeStep capacity ctx) .start log s → KeepsMessages log s := by
  intro h
  have hqueued : Trace (PipeStep 1 plainContext) .start [.produced registrationMessage true]
      { Pipeline.start with fifo := [registrationMessage] } := trace_queued rfl (by decide)
  have hrun := hqueued.trans (trace_full rfl (by decide))
  have hkept := h 1 plainContext _ _ hrun
  exact not_allReported_concat [.produced registrationMessage true] _ (hkept.reported rfl)

end RadioHal
