import RadioHal.Modem.Wakeups

/-!
# Closing a modem that is gone

`modem_hal_close` sends `AT+CFUN=4`, which waits for its answer as long as it takes, and calls
`at_close` behind it.  When the stream of the modem has ended there is no answer, and only
`at_close` would wake the thread: it waits for a call that it is to make itself.

## Main definitions

* `cfunRequest` — the command.
* `ClosePhase`, `CloseStep` — a thread in `modem_hal_close`, beside the others.

## Main results

* `CloseInv.step` — what a step keeps.
* `close_hangs` — **behind the end of the stream `modem_hal_close` comes back only if its command
  could not be written.**
-/

namespace RadioHal

open CLib

/-- `at_send_command("AT+CFUN=4", nullptr)` -/
def cfunRequest : AtRequest := ⟨"AT+CFUN=4".toList, .noResult, [], none, 0, none⟩

/-- Where `modem_hal_close` is: its command has yet to be sent, or waits, then `at_close` follows.
-/
inductive ClosePhase
  | sending | waiting | closing | closed
  deriving DecidableEq, Repr

variable {ι : Type} {log log' : List (ChannelEvent ι)} {s s' : Channel ι} {i : ι}

/-- The thread that something is done by, other than waiting or waking up. -/
def ChannelEvent.thread? : ChannelEvent ι → Option ι
  | sent i _ => some i
  | refused i _ _ => some i
  | returned i _ _ => some i
  | _ => none

section Closing

variable [DecidableEq ι]

/-- Thread `i` goes through `modem_hal_close`.  Nobody else calls `at_close`; all else goes on. -/
inductive CloseStep (i : ι) :
    ClosePhase × Channel ι → Option (ChannelEvent ι) → ClosePhase × Channel ι → Prop
  | sent {s s' : Channel ι} : ChannelStep false s (some (.sent i cfunRequest)) s' →
      CloseStep i (.sending, s) (some (.sent i cfunRequest)) (.waiting, s')
  /-- An error of the command is not looked at. -/
  | refused {s s' : Channel ι} {e : AtError} :
      ChannelStep false s (some (.refused i cfunRequest e)) s' →
      CloseStep i (.sending, s) (some (.refused i cfunRequest e)) (.closing, s')
  | returned {s s' : Channel ι} {res : AtOutcome} :
      ChannelStep false s (some (.returned i cfunRequest res)) s' →
      CloseStep i (.waiting, s) (some (.returned i cfunRequest res)) (.closing, s')
  /-- `at_close` -/
  | close {s s' : Channel ι} :
      Channel.Signals { s with fdOpen := false, readerClosed := true } s' →
      CloseStep i (.closing, s) none (.closed, s')
  | others {phase : ClosePhase} {s s' : Channel ι} {label : Option (ChannelEvent ι)} :
      ChannelStep false s label s' → (∀ e ∈ label, e.thread? ≠ some i) →
      s'.readerClosed = s.readerClosed → CloseStep i (phase, s) label (phase, s')

/-- The stream has ended, and the thread has not sent its command yet or waits for the answer. -/
structure Gone (log : List (ChannelEvent ι)) (i : ι) (phase : ClosePhase) (s : Channel ι) :
    Prop where
  account : ChannelInv log s
  reader : s.reader = .ended
  isOpen : s.readerClosed = false
  place : phase = .sending ∨ phase = .waiting ∧ Stranded s i cfunRequest

/-- So it is, unless the command was refused. -/
def CloseInv (i : ι) (log log' : List (ChannelEvent ι)) (x : ClosePhase × Channel ι) : Prop :=
  NoneRefused (log ++ log') →
    (∃ e, .refused i cfunRequest e ∈ log') ∨ Gone (log ++ log') i x.1 x.2

/-- A stream that has ended does not go on. -/
theorem reader_of_step {label : Option (ChannelEvent ι)} (hs : ChannelStep false s label s')
    (hended : s.reader = .ended) : s'.reader = .ended := by
  cases hs with
  | line hrunning _ _ => rw [hended] at hrunning; cases hrunning
  | final hrunning _ _ _ => rw [hended] at hrunning; cases hrunning
  | smsBegins hrunning _ => rw [hended] at hrunning; cases hrunning
  | sms hsms => rw [hended] at hsms; cases hsms
  | ended hreader _ => exact absurd hended hreader
  | endedCloses hreader _ _ => exact absurd hended hreader
  | close hsignal => exact hsignal.frame.2.1.trans hended
  | _ => exact hended

/-- The command that is sent waits for what will not come. -/
theorem stranded_of_sent {r : AtRequest} (hinv : ChannelInv log s)
    (hs : ChannelStep false s (some (.sent i r)) s') (hended : s.reader = .ended) :
    Stranded s' i r ∧ s'.readerClosed = s.readerClosed := by
  cases hs with
  | send _ hpending _ =>
    refine ⟨⟨hended, ?_, fun j hj => ?_, ⟨_, rfl, rfl⟩⟩, rfl⟩
    · simp [Channel.pend, CommandThread.command]
    · by_contra hji
      refine hj ?_
      have hidle := hinv.command_eq_none hpending j
      simpa [Channel.pend, Function.update_of_ne hji] using hidle

theorem Stranded.not_returned {r r' : AtRequest} {res : AtOutcome} (h : Stranded s i r)
    (htime : r.timeoutMsec = 0) (hopen : s.readerClosed = false)
    (hs : ChannelStep false s (some (.returned i r' res)) s') : False := by
  obtain ⟨p, hp, hfinal⟩ := h.response
  cases hs with
  | finish _ hp' hloop =>
    rw [hp] at hp'
    cases hp'
    rcases hloop with hloop | hloop
    · exact hloop hfinal
    · rw [hopen] at hloop
      cases hloop
  | timeout hwaits htime' =>
    have hcommand := h.command
    rcases hwaits with hwaits | hwaits
    · rw [hwaits] at hcommand
      cases hcommand
      exact htime' htime
    · rw [hwaits] at hcommand
      cases hcommand
      exact htime' htime

/-- **One step** keeps the account of the closing thread, whoever makes it: the command was refused,
or the reader is gone and the thread is at the command. -/
theorem CloseInv.step {x x' : ClosePhase × Channel ι} {label : Option (ChannelEvent ι)}
    (h : CloseInv i log log' x) (hs : CloseStep i x label x') :
    CloseInv i log (log' ++ label.toList) x' := by
  intro hnone
  rw [← List.append_assoc] at hnone ⊢
  rcases h hnone.of_append with ⟨e, he⟩ | hgone
  · exact Or.inl ⟨e, List.mem_append_left _ he⟩
  cases hs with
  | sent hstep =>
    -- `AT+CFUN=4` has been sent, and nobody is left to answer it
    obtain ⟨hstranded, hclosed⟩ := stranded_of_sent hgone.account hstep hgone.reader
    exact Or.inr ⟨hgone.account.step hstep hnone, hstranded.reader, hclosed.trans hgone.isOpen,
      Or.inr ⟨rfl, hstranded⟩⟩
  -- the command was refused, and `modem_hal_close` goes on
  | @refused _ _ e _ => exact Or.inl ⟨e, List.mem_append_right _ List.mem_cons_self⟩
  | returned hstep =>
    -- a stranded command does not return
    rcases hgone.place with hplace | ⟨-, hstranded⟩
    · cases hplace
    · exact (hstranded.not_returned rfl hgone.isOpen hstep).elim
  | close _ =>
    -- the thread that waits does not come to `at_close`
    rcases hgone.place with hplace | ⟨hplace, -⟩ <;> cases hplace
  | others hstep hlabel hclosed =>
    -- the other threads cannot answer the command, and do not close the channel
    have hopen := hclosed.trans hgone.isOpen
    refine Or.inr ⟨hgone.account.step hstep hnone, reader_of_step hstep hgone.reader, hopen, ?_⟩
    refine hgone.place.imp_right fun ⟨hwaiting, hstranded⟩ => ⟨hwaiting, ?_⟩
    have hpending : ∀ j r', label ≠ some (.refused j r' .commandPending) := by
      rintro j r' rfl
      exact hnone j r' (by simp)
    refine (hstranded.step rfl hstep hpending hgone.isOpen).resolve_left ?_
    rw [hopen]
    decide

/-- **Behind the end of the stream `modem_hal_close` comes back only if its command was refused**,
whatever else goes on.  Its own `at_close`, which would wake it, comes behind the command.  No
command is sent while another one is pending, for that would be refused as well. -/
theorem close_hangs (hrun : Trace (ChannelStep false) (Channel.opened ι) log s)
    (hended : s.reader = .ended) (hopen : s.readerClosed = false)
    (hclose : Trace (CloseStep i) (.sending, s) log' (.closed, s'))
    (hnone : NoneRefused (log ++ log')) : ∃ e, .refused i cfunRequest e ∈ log' := by
  have hinv : CloseInv i log log' (.closed, s') := by
    refine hclose.log_invariant (CloseInv i log) (fun log' x label x' h hs => h.step hs) ?_
    intro hnone'
    rw [List.append_nil] at hnone' ⊢
    exact Or.inr ⟨channelInv_of_trace hrun hnone', hended, hopen, Or.inl rfl⟩
  rcases hinv hnone with h | hgone
  · exact h
  · rcases hgone.place with hplace | ⟨hplace, -⟩ <;> cases hplace

end Closing

/-- A channel whose stream has ended, and that nobody has closed. -/
def endedChannel : Channel Unit := { Channel.opened Unit with reader := .ended }

/-- The command cannot be written to it, and the channel is closed. -/
theorem close_hangs_refused : ∃ s', Trace (CloseStep ()) (.sending, endedChannel)
    [.refused () cfunRequest .generic] (.closed, s') ∧
      ∃ e, .refused () cfunRequest e ∈ [ChannelEvent.refused () cfunRequest .generic] := by
  have hended : ChannelStep false (Channel.opened Unit) none endedChannel :=
    ChannelStep.ended (by decide) (Or.inl rfl)
  have hrefused : CloseStep () (.sending, endedChannel)
      (some (.refused () cfunRequest .generic)) (.closing, endedChannel.clearPendingCommand) :=
    CloseStep.refused (ChannelStep.unwritten rfl rfl ⟨rfl, rfl⟩)
  have hclosed := CloseStep.close (i := ()) (s := endedChannel.clearPendingCommand)
    (Channel.Signals.nobody fun _ _ h => by cases h)
  have hclose := (Trace.single hrefused).snoc hclosed
  refine ⟨_, hclose, close_hangs (Trace.refl.snoc hended) rfl rfl hclose ?_⟩
  intro j r
  simp

end RadioHal
