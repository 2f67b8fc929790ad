import Mathlib.Data.List.Forall2
import RadioHal.Modem.Classified
import RadioHal.Modem.EventPipe
import RadioHal.Modem.Framing
import RadioHal.Modem.Wakeups

/-!
# From the wire to the event loop

`readerLoop` gets the lines of the modem from `readline`, and hands them to `processLine`, one after
another.  What is for no command goes to `at_event_handler`, which writes a message to the pipe;
`modem_events` reads the messages on another thread, and more threads send commands.

## Main definitions

* `ModemInput`, `InputStep` — the line reader, the channel and the pipe, as `readerLoop` puts them
  together.
* `consumed`, `handed` — the lines that were consumed, and those that went to the handler.
* `MessageOf` — what `at_event_handler` makes of a line.
* `Writes` — a call of the handler writes about the lines that are pending.
* `WrittenUpTo` — the lines of which a message has been written, and the one that is pending.

## Main results

* `pipe_of_trace`, `channel_of_trace`, `buffer_of_trace` — each part takes its own steps.
* `writes_atEventHandler` — a call of the handler writes one message.
* `events_of_reading` — the events of the messages are those of their lines.
* `lines_delivered` — **every line of the stream is consumed once, in order, and those for no
  command come to the event loop as a message each, in the same order.**
-/

namespace RadioHal

open CLib Dialogue Lines

/-! ### The threads together -/

/-- Where the reader thread is in `readerLoop`. -/
inductive ReaderPlace
  /-- It is in `readline`. -/
  | reading
  /-- `readline` has returned, a line or `NULL`. -/
  | took (line : Option Text)
  /-- It is in `at_event_handler`, with `s_commandmutex` or without it. -/
  | handling (locked : Bool)
  deriving DecidableEq

/-- The line that it has in hand. -/
def ReaderPlace.inHand : ReaderPlace → Option Text
  | took line => line
  | _ => none

/-- The line reader, the AT channel, and the pipe with the threads on both sides of it. -/
structure ModemInput (ι : Type) where
  place : ReaderPlace
  buffer : ATBuffer
  channel : Channel ι
  pipe : Pipeline

/-- What happens in the input of the HAL: in the line reader, in the channel or at the pipe. -/
inductive InputEvent (ι : Type)
  | buffer (x : ATBuffer × ReaderInput)
  | channel (e : ChannelEvent ι)
  | pipe (e : PipeEvent)

variable {ι : Type}

/-- The line that is consumed in this step. -/
def ChannelEvent.consumed : ChannelEvent ι → Option Text
  | line text _ => some text
  | smsBegins line₁ => some line₁
  | sms _ line₂ => some line₂
  | _ => none

/-- The line that the handler is called with; the second line of an SMS it only logs. -/
def ChannelEvent.handed : ChannelEvent ι → Option Text
  | line text .unsolicited => some text
  | sms line₁ _ => some line₁
  | _ => none

/-- The handler is called from `processLine`, which has the mutex. -/
def ChannelEvent.locked : ChannelEvent ι → Bool
  | line _ _ => true
  | _ => false

/-- `readerLoop` has handed on a line.  Where the line is unsolicited the thread is in the handler
now. -/
def ModemInput.handOn (s : ModemInput ι) (e : ChannelEvent ι) (channel : Channel ι) :
    ModemInput ι :=
  match e.handed with
  | none => { s with place := .reading, channel := channel }
  | some line =>
    { s with
      place := .handling e.locked
      channel := channel
      pipe := { s.pipe with handler := atEventHandler line } }

/-- The state before anything has come in. -/
def ModemInput.start (ι : Type) : ModemInput ι := ⟨.reading, .init, .opened ι, .start⟩

/-- What one of the threads does, in any order. -/
inductive InputStep [DecidableEq ι] (onReaderClosed : Bool) (capacity : ℕ) (ctx : ModemContext) :
    ModemInput ι → Option (InputEvent ι) → ModemInput ι → Prop
  /-- `readline` is called, or goes on, and may come to its end. -/
  | reads {s : ModemInput ι} {input : ReaderInput} {o : ReaderOutcome}
      (hplace : s.place = .reading) (hread : s.buffer.step input = some o) :
      InputStep onReaderClosed capacity ctx s (some (.buffer (s.buffer, input)))
        { s with place := o.returned.elim .reading .took, buffer := o.state }
  /-- A line goes to `processLine`, or is one of an SMS. -/
  | consumes {s : ModemInput ι} {line : Text} {e : ChannelEvent ι} {channel : Channel ι}
      (hplace : s.place = .took (some line))
      (hstep : ChannelStep onReaderClosed s.channel (some e) channel)
      (he : e.consumed = some line) :
      InputStep onReaderClosed capacity ctx s (some (.channel e)) (s.handOn e channel)
  /-- `readline` has returned `NULL`. -/
  | ends {s : ModemInput ι} {channel : Channel ι} (hplace : s.place = .took none)
      (hstep : ChannelStep onReaderClosed s.channel none channel)
      (hended : s.channel.reader ≠ .ended ∧ channel.reader = .ended) :
      InputStep onReaderClosed capacity ctx s none { s with channel := channel }
  /-- The handler goes on, or the event loop; neither calls the handler. -/
  | pipe {s : ModemInput ι} {label : Option PipeEvent} {pipe : Pipeline}
      (hstep : PipeStep capacity ctx s.pipe label pipe)
      (hcall : s.pipe.handler = ret () → pipe.handler = ret ()) :
      InputStep onReaderClosed capacity ctx s (label.map .pipe) { s with pipe := pipe }
  /-- The handler has returned. -/
  | returns {s : ModemInput ι} {locked : Bool} (hplace : s.place = .handling locked)
      (hidle : s.pipe.handler = ret ()) :
      InputStep onReaderClosed capacity ctx s none { s with place := .reading }
  /-- Another thread has the mutex. -/
  | others {s : ModemInput ι} {label : Option (ChannelEvent ι)} {channel : Channel ι}
      (hmutex : s.place ≠ .handling true)
      (hstep : ChannelStep onReaderClosed s.channel label channel)
      (hlabel : label.bind ChannelEvent.consumed = none)
      (hreader : channel.reader = s.channel.reader) :
      InputStep onReaderClosed capacity ctx s (label.map .channel) { s with channel := channel }

/-! ### The parts -/

def InputEvent.buffer? : InputEvent ι → Option (ATBuffer × ReaderInput)
  | buffer x => some x
  | _ => none

def InputEvent.channel? : InputEvent ι → Option (ChannelEvent ι)
  | channel e => some e
  | _ => none

def InputEvent.pipe? : InputEvent ι → Option PipeEvent
  | pipe e => some e
  | _ => none

/-- The bytes that `read` has brought along a run. -/
def stream (log : List (InputEvent ι)) : Text := received (log.filterMap InputEvent.buffer?)

/-- The lines that `readerLoop` has consumed along a run. -/
def consumed (log : List (InputEvent ι)) : List Text :=
  (log.filterMap InputEvent.channel?).filterMap ChannelEvent.consumed

/-- The lines that the handler was called with. -/
def handed (log : List (InputEvent ι)) : List Text :=
  (log.filterMap InputEvent.channel?).filterMap ChannelEvent.handed

/-- The messages that the handler has written. -/
def written (log : List (InputEvent ι)) : List RadioHalMsgBuffer :=
  producedOf (log.filterMap InputEvent.pipe?)

/-- The messages that `modem_events` has processed along a run. -/
def processed (log : List (InputEvent ι)) : List RadioHalMsgBuffer :=
  processedOf (log.filterMap InputEvent.pipe?)

section Parts

variable [DecidableEq ι] {onReaderClosed : Bool} {capacity : ℕ} {ctx : ModemContext}
  {s s' : ModemInput ι} {label : Option (InputEvent ι)} {log : List (InputEvent ι)}

omit [DecidableEq ι] in
theorem label_map_pipe (label : Option PipeEvent) :
    (label.map InputEvent.pipe : Option (InputEvent ι)).bind InputEvent.pipe? = label := by
  cases label <;> rfl

omit [DecidableEq ι] in
theorem label_map_channel (label : Option (ChannelEvent ι)) :
    (label.map InputEvent.channel).bind InputEvent.channel? = label := by
  cases label <;> rfl

/-- No call of the handler is under way unless `readerLoop` waits for it. -/
def ModemInput.Calls (s : ModemInput ι) : Prop :=
  (∀ locked, s.place ≠ .handling locked) → s.pipe.handler = ret ()

theorem InputStep.calls (h : s.Calls) (hstep : InputStep onReaderClosed capacity ctx s label s') :
    s'.Calls := by
  cases hstep with
  | reads hplace hread => exact fun _ => h (by simp [hplace])
  | @consumes line e channel hplace hstep he =>
    unfold ModemInput.handOn
    cases e.handed with
    | none => exact fun _ => h (by simp [hplace])
    | some line => exact fun hnot => absurd rfl (hnot e.locked)
  | ends hplace hstep hended => exact fun _ => h (by simp [hplace])
  | pipe hstep hcall => exact fun hnot => hcall (h hnot)
  | returns hplace hidle => exact fun _ => hidle
  | others hmutex hstep hlabel hreader => exact h

/-- **A step is one of the line reader**, or does not concern it. -/
theorem InputStep.buffer (hstep : InputStep onReaderClosed capacity ctx s label s') :
    ReaderStep s.buffer (label.bind InputEvent.buffer?) s'.buffer ∨
      label.bind InputEvent.buffer? = none ∧ s'.buffer = s.buffer := by
  cases hstep with
  | reads hplace hread => exact Or.inl (.take hread)
  | @consumes line e channel hplace hstep he =>
    refine Or.inr ⟨rfl, ?_⟩
    unfold ModemInput.handOn
    cases e.handed <;> rfl
  | ends hplace hstep hended => exact Or.inr ⟨rfl, rfl⟩
  | @pipe label pipe hstep hcall => exact Or.inr ⟨by cases label <;> rfl, rfl⟩
  | returns hplace hidle => exact Or.inr ⟨rfl, rfl⟩
  | @others label channel hmutex hstep hlabel hreader =>
    exact Or.inr ⟨by cases label <;> rfl, rfl⟩

/-- **A step is one of the channel**, or does not concern it. -/
theorem InputStep.channel (hstep : InputStep onReaderClosed capacity ctx s label s') :
    ChannelStep onReaderClosed s.channel (label.bind InputEvent.channel?) s'.channel ∨
      label.bind InputEvent.channel? = none ∧ s'.channel = s.channel := by
  cases hstep with
  | reads hplace hread => exact Or.inr ⟨rfl, rfl⟩
  | @consumes line e channel hplace hstep he =>
    have hchannel : (s.handOn e channel).channel = channel := by
      unfold ModemInput.handOn
      cases e.handed <;> rfl
    rw [hchannel]
    exact Or.inl hstep
  | ends hplace hstep hended => exact Or.inl hstep
  | @pipe label pipe hstep hcall => exact Or.inr ⟨by cases label <;> rfl, rfl⟩
  | returns hplace hidle => exact Or.inr ⟨rfl, rfl⟩
  | others hmutex hstep hlabel hreader =>
    rw [label_map_channel]
    exact Or.inl hstep

/-- **A step is one of the pipe**, or does not concern it. -/
theorem InputStep.pipeline (h : s.Calls)
    (hstep : InputStep onReaderClosed capacity ctx s label s') :
    PipeStep capacity ctx s.pipe (label.bind InputEvent.pipe?) s'.pipe ∨
      label.bind InputEvent.pipe? = none ∧ s'.pipe = s.pipe := by
  cases hstep with
  | reads hplace hread => exact Or.inr ⟨rfl, rfl⟩
  | @consumes line e channel hplace hstep he =>
    unfold ModemInput.handOn
    cases e.handed with
    | none => exact Or.inr ⟨rfl, rfl⟩
    | some line => exact Or.inl (.called line (h (by simp [hplace])))
  | ends hplace hstep hended => exact Or.inr ⟨rfl, rfl⟩
  | pipe hstep hcall =>
    rw [label_map_pipe]
    exact Or.inl hstep
  | returns hplace hidle => exact Or.inr ⟨rfl, rfl⟩
  | @others label channel hmutex hstep hlabel hreader =>
    exact Or.inr ⟨by cases label <;> rfl, rfl⟩

variable (hrun : Trace (InputStep onReaderClosed capacity ctx) (.start ι) log s)
include hrun

theorem calls_of_trace : s.Calls :=
  hrun.invariant ModemInput.Calls (fun _ _ _ h hstep => hstep.calls h) fun _ => rfl

theorem buffer_of_trace :
    Trace ReaderStep .init (log.filterMap InputEvent.buffer?) s.buffer :=
  hrun.map ModemInput.buffer InputEvent.buffer? fun _ _ _ hstep => hstep.buffer

theorem channel_of_trace : Trace (ChannelStep onReaderClosed) (.opened ι)
    (log.filterMap InputEvent.channel?) s.channel :=
  hrun.map ModemInput.channel InputEvent.channel? fun _ _ _ hstep => hstep.channel

theorem pipe_of_trace :
    Trace (PipeStep capacity ctx) .start (log.filterMap InputEvent.pipe?) s.pipe :=
  hrun.map_under ModemInput.pipe InputEvent.pipe? ModemInput.Calls
    (fun _ _ _ h hstep => hstep.calls h) (fun _ _ _ h hstep => hstep.pipeline h) fun _ => rfl

end Parts

/-! ### The lines that are consumed -/

section Lines

variable [DecidableEq ι] {onReaderClosed : Bool} {capacity : ℕ} {ctx : ModemContext}
  {s s' : ModemInput ι} {label : Option (InputEvent ι)} {log : List (InputEvent ι)}

omit [DecidableEq ι] in
theorem consumed_concat (log : List (InputEvent ι)) (label : Option (InputEvent ι)) :
    consumed (log ++ label.toList) = consumed log ++
      ((label.bind InputEvent.channel?).bind ChannelEvent.consumed).toList := by
  unfold consumed
  rw [Trace.filterMap_concat, Trace.filterMap_concat]

omit [DecidableEq ι] in
theorem handed_concat (log : List (InputEvent ι)) (label : Option (InputEvent ι)) :
    handed (log ++ label.toList) = handed log ++
      ((label.bind InputEvent.channel?).bind ChannelEvent.handed).toList := by
  unfold handed
  rw [Trace.filterMap_concat, Trace.filterMap_concat]

omit [DecidableEq ι] in
theorem inHand_handOn (s : ModemInput ι) (e : ChannelEvent ι) (channel : Channel ι) :
    (s.handOn e channel).place.inHand = none := by
  unfold ModemInput.handOn
  cases e.handed <;> rfl

/-- What `readline` has returned is consumed, but for the line in hand. -/
def InOrderOfReturn (log : List (InputEvent ι)) (s : ModemInput ι) : Prop :=
  returnedLines (log.filterMap InputEvent.buffer?) = consumed log ++ s.place.inHand.toList

omit [DecidableEq ι] in
/-- A step in which nothing is read and nothing is consumed keeps what was returned in its order. -/
theorem InOrderOfReturn.same (h : InOrderOfReturn log s)
    (hbuffer : label.bind InputEvent.buffer? = none)
    (hconsumed : (label.bind InputEvent.channel?).bind ChannelEvent.consumed = none)
    (hhand : s'.place.inHand = s.place.inHand) : InOrderOfReturn (log ++ label.toList) s' := by
  unfold InOrderOfReturn at h ⊢
  rw [consumed_concat, Trace.filterMap_concat, hbuffer, hconsumed, hhand, Option.toList_none,
    Option.toList_none, List.append_nil, List.append_nil]
  exact h

theorem InOrderOfReturn.step (h : InOrderOfReturn log s)
    (hstep : InputStep onReaderClosed capacity ctx s label s') :
    InOrderOfReturn (log ++ label.toList) s' := by
  cases hstep with
  | @reads input o hplace hread =>
    -- what `readline` returns is in hand from now on
    unfold InOrderOfReturn at h ⊢
    rw [hplace] at h
    have hreturned : (o.returned.elim ReaderPlace.reading ReaderPlace.took).inHand =
        o.returned.join := by
      cases o.returned <;> rfl
    rw [consumed_concat, Trace.filterMap_concat]
    show returnedLines (_ ++ [(s.buffer, input)]) = consumed log ++ [] ++ _
    rw [returnedLines_concat hread, h, hreturned]
    rfl
  | @consumes line e channel hplace hstep he =>
    -- the line in hand is consumed
    unfold InOrderOfReturn at h ⊢
    rw [hplace] at h
    rw [consumed_concat, Trace.filterMap_concat, inHand_handOn]
    show returnedLines (_ ++ []) = consumed log ++ e.consumed.toList ++ []
    rw [List.append_nil, List.append_nil, h, he]
    rfl
  -- the end of the stream returns no line
  | ends hplace hstep hended => exact h.same rfl rfl rfl
  | @pipe label pipe hstep hcall =>
    exact h.same (by cases label <;> rfl) (by cases label <;> rfl) rfl
  | returns hplace hidle => exact h.same rfl rfl (by rw [hplace]; rfl)
  | @others label channel hmutex hstep hlabel hreader =>
    exact h.same (by cases label <;> rfl) (by rw [label_map_channel, hlabel]) rfl

theorem inOrderOfReturn_of_trace
    (hrun : Trace (InputStep onReaderClosed capacity ctx) (.start ι) log s) :
    InOrderOfReturn log s :=
  hrun.log_invariant InOrderOfReturn (fun _ _ _ _ h hstep => h.step hstep) rfl

end Lines

/-! ### The lines that are handed on -/

/-- The first line of an SMS, as long as the second one has not come. -/
def ReaderThread.firstLine : ReaderThread → Option Text
  | sms line₁ => some line₁
  | _ => none

/-- The handler was called with lines that were consumed, in their order, and not with the first
line of an SMS before the second one has come. -/
def InOrderOfLines (log : List (ChannelEvent ι)) (s : Channel ι) : Prop :=
  ∃ before, log.filterMap ChannelEvent.consumed = before ++ s.reader.firstLine.toList ∧
    (log.filterMap ChannelEvent.handed).Sublist before

section Order

variable {s s' : Channel ι} {log : List (ChannelEvent ι)} {label : Option (ChannelEvent ι)}

/-- A step in which no line comes in keeps the lines in their order. -/
theorem InOrderOfLines.same (h : InOrderOfLines log s)
    (hconsumed : label.bind ChannelEvent.consumed = none)
    (hhanded : label.bind ChannelEvent.handed = none)
    (hreader : s'.reader = s.reader ∨ s'.reader = .ended) :
    InOrderOfLines (log ++ label.toList) s' := by
  obtain ⟨before, hlines, hsub⟩ := h
  unfold InOrderOfLines
  rw [Trace.filterMap_concat, Trace.filterMap_concat, hconsumed, hhanded, Option.toList_none,
    List.append_nil, List.append_nil]
  rcases hreader with hreader | hreader
  · exact ⟨before, by rw [hreader, hlines], hsub⟩
  · -- the first line of an SMS stays alone
    rw [hreader]
    exact ⟨_, (List.append_nil _).symm, hlines ▸ hsub.trans (List.sublist_append_left _ _)⟩

/-- A line that is none of an SMS is consumed behind those before it. -/
theorem InOrderOfLines.line (h : InOrderOfLines log s) (hreader : s.reader = .running)
    (hreader' : s'.reader = .running) (text : Text) (place : LinePlace) :
    InOrderOfLines (log ++ [.line text place]) s' := by
  obtain ⟨before, hlines, hsub⟩ := h
  rw [hreader] at hlines
  have hbefore : log.filterMap ChannelEvent.consumed = before :=
    hlines.trans (List.append_nil before)
  have hthis : ((ChannelEvent.line text place : ChannelEvent ι).handed.toList).Sublist [text] := by
    cases place with
    | unsolicited => exact .refl _
    | _ => exact List.nil_sublist _
  refine ⟨before ++ [text], ?_, ?_⟩
  · rw [hreader', List.filterMap_append, hbefore]
    exact (List.append_nil _).symm
  · have hconcat := Trace.filterMap_concat log (some (.line text place)) ChannelEvent.handed
    rw [Option.toList_some] at hconcat
    rw [hconcat]
    exact hsub.append hthis

variable [DecidableEq ι] {onReaderClosed : Bool}

theorem InOrderOfLines.step (h : InOrderOfLines log s)
    (hstep : ChannelStep onReaderClosed s label s') : InOrderOfLines (log ++ label.toList) s' := by
  cases hstep with
  -- no step of a command thread consumes a line
  | pending _ _ => exact h.same rfl rfl (Or.inl rfl)
  | closed _ _ _ => exact h.same rfl rfl (Or.inl rfl)
  | unwritten _ _ _ => exact h.same rfl rfl (Or.inl rfl)
  | send _ _ _ => exact h.same rfl rfl (Or.inl rfl)
  | line hrunning _ _ => exact h.line hrunning ((processLine_frame s _).2.1.trans hrunning) _ _
  | final hrunning _ _ hsignal =>
    exact h.line hrunning (hsignal.frame.2.1.trans ((processLine_frame s _).2.1.trans hrunning)) _ _
  | smsBegins hrunning _ =>
    -- the announcement is held back until its text is there
    obtain ⟨before, hlines, hsub⟩ := h
    rw [hrunning] at hlines
    refine ⟨before, ?_, ?_⟩
    · rw [Option.toList_some, List.filterMap_append, hlines]
      exact congrArg (· ++ _) (List.append_nil before)
    · rw [Option.toList_some, List.filterMap_append]
      exact (List.append_nil _).symm ▸ hsub
  | @sms line₁ line₂ hsms =>
    -- both lines of the SMS are consumed now, and the first is handed on
    obtain ⟨before, hlines, hsub⟩ := h
    rw [hsms] at hlines
    refine ⟨before ++ [line₁] ++ [line₂], ?_, ?_⟩
    · rw [Option.toList_some, List.filterMap_append, hlines]
      exact (List.append_nil _).symm
    · rw [Option.toList_some, List.filterMap_append]
      exact (hsub.append_right _).trans (List.sublist_append_left _ _)
  | ended _ _ => exact h.same rfl rfl (Or.inr rfl)
  | endedCloses _ _ hsignal => exact h.same rfl rfl (Or.inr hsignal.frame.2.1)
  | close hsignal => exact h.same rfl rfl (Or.inl hsignal.frame.2.1)
  | spurious _ => exact h.same rfl rfl (Or.inl rfl)
  | waitAgain _ _ _ => exact h.same rfl rfl (Or.inl rfl)
  | finish _ _ _ => exact h.same rfl rfl (Or.inl rfl)
  | timeout _ _ => exact h.same rfl rfl (Or.inl rfl)

/-- **What is handed on has been consumed, in the same order.**  A line that is taken for a response
is not handed on. -/
theorem handed_sublist_of_trace (hrun : Trace (ChannelStep onReaderClosed) (.opened ι) log s) :
    (log.filterMap ChannelEvent.handed).Sublist (log.filterMap ChannelEvent.consumed) := by
  obtain ⟨before, hlines, hsub⟩ :=
    hrun.log_invariant InOrderOfLines (fun _ _ _ _ h hstep => h.step hstep) ⟨[], rfl, .refl _⟩
  rw [hlines]
  exact hsub.trans (List.sublist_append_left _ _)

end Order

/-! ### What the handler writes -/

/-- The handler makes the message of the line. -/
def MessageOf (line : Text) (msg : RadioHalMsgBuffer) : Prop :=
  ∃ t, After (atEventMessage line) t (ret msg)

/-- What holds of all that is written for a line holds of its messages. -/
theorem MessageOf.of_posts {R : RadioHalMsgBuffer → Prop} {S : ℤ → Prop} {line : Text}
    {msg : RadioHalMsgBuffer} (h : MessageOf line msg) (hposts : Posts R S line) : R msg := by
  obtain ⟨t, ht⟩ := h
  exact (posts_iff.mp hposts).2.of_after ht

/-- The lines that there is still to write about. -/
def pendingWorld : World HandlerQ HandlerA (List Text) := fun pending q _ pending' =>
  match q with
  | .write _ => pending' = []
  | _ => pending' = pending

/-- What is written is the message of the one line there is still to write about. -/
def WritesPending (pending : List Text) (q : HandlerQ) : Prop :=
  ∀ msg, q = .write msg → ∃ line, pending = [line] ∧ MessageOf line msg

/-- The handler writes about all that is pending, once each. -/
def Writes (pending : List Text) (p : HandlerM Unit) : Prop :=
  wp pendingWorld WritesPending (fun _ pending => pending = []) p pending

theorem writes_writeMessage {line : Text} {msg : RadioHalMsgBuffer} (h : MessageOf line msg) :
    Writes [line] (writeMessage msg) := by
  refine ⟨?_, ?_⟩
  · rintro _ ⟨⟩
    exact ⟨line, rfl, h⟩
  · rintro (retval : ℤ) pending hpending
    obtain rfl : pending = [] := hpending
    show wp _ _ _ (if retval = 0 then _ else _) _
    split
    · refine ⟨?_, fun _ pending hpending => hpending⟩
      rintro _ ⟨⟩
    · exact rfl

/-- **A call of the handler writes one message**, that of its line.  A line of which nothing is
understood is written as well, with the message as it was initialised. -/
theorem writes_atEventHandler (line : Text) : Writes [line] (atEventHandler line) := by
  have hmessage : wp pendingWorld WritesPending
      (fun msg pending => MessageOf line msg ∧ pending = [line]) (atEventMessage line) [line] := by
    refine wp_of_yields (P := fun q => ∀ msg, q ≠ .write msg) (fun pending => pending = [line])
      (onlyAsks_atEventMessage (by simp) (by simp) line) (yields_after _) ?_ ?_ rfl
    · exact fun q _ hq _ msg hmsg => absurd hmsg (hq msg)
    · rintro q a pending pending' hq rfl hanswer
      cases q with
      | write msg => exact absurd rfl (hq msg)
      | _ => exact hanswer
  unfold Writes atEventHandler
  rw [wp_bind]
  refine wp_consequence hmessage ?_
  rintro msg pending ⟨hmsg, rfl⟩
  refine ⟨(by rintro _ ⟨⟩), fun flags pending hpending => ?_⟩
  obtain rfl : pending = [line] := hpending
  refine ⟨(by rintro _ ⟨⟩), ?_⟩
  rintro (retval : ℤ) pending hpending
  obtain rfl : pending = [line] := hpending
  show wp _ _ _ (if retval ≠ 0 then _ else _) _
  split
  · refine ⟨(by rintro _ ⟨⟩), fun _ pending hpending => ?_⟩
    obtain rfl : pending = [line] := hpending
    exact writes_writeMessage hmsg
  · exact writes_writeMessage hmsg

/-! ### The messages along a run -/

section Messages

variable {onReaderClosed : Bool} {capacity : ℕ} {ctx : ModemContext} {s s' : ModemInput ι}
  {label : Option (InputEvent ι)} {log : List (InputEvent ι)}

/-- A message has been written of each of the lines `done`, and the call that is under way is to
write that of `pending`. -/
structure WrittenUpTo (log : List (InputEvent ι)) (s : ModemInput ι) (done pending : List Text) :
    Prop where
  handed_eq : handed log = done ++ pending
  written : List.Forall₂ MessageOf done (written log)
  writes : Writes pending s.pipe.handler
  length_le : pending.length ≤ 1

namespace WrittenUpTo

variable {done pending : List Text}

/-- What is pending is what the call under way is about. -/
theorem pending_eq_nil (h : WrittenUpTo log s done pending) (hidle : s.pipe.handler = ret ()) :
    pending = [] := by
  have hwrites := h.writes
  rw [hidle] at hwrites
  exact hwrites

/-- A step in which the handler is neither called nor writes keeps the account. -/
theorem same (h : WrittenUpTo log s done pending)
    (hhanded : (label.bind InputEvent.channel?).bind ChannelEvent.handed = none)
    (hwritten : RadioHal.written (log ++ label.toList) = RadioHal.written log)
    (hwrites : Writes pending s'.pipe.handler) :
    WrittenUpTo (log ++ label.toList) s' done pending := by
  refine ⟨?_, ?_, hwrites, h.length_le⟩
  · rw [handed_concat, hhanded, Option.toList_none, List.append_nil]
    exact h.handed_eq
  · rw [hwritten]
    exact h.written

/-- A line is handed on to the handler, and is the one that has still to be written. -/
theorem call (h : WrittenUpTo log s done pending) (hidle : s.pipe.handler = ret ())
    {e : ChannelEvent ι} {line : Text} (he : e.handed = some line)
    (hhandler : s'.pipe.handler = atEventHandler line) :
    WrittenUpTo (log ++ [.channel e]) s' done [line] := by
  have hhanded := handed_concat log (some (.channel e))
  obtain rfl := h.pending_eq_nil hidle
  refine ⟨?_, ?_, ?_, le_rfl⟩
  · rw [Option.toList_some] at hhanded
    rw [hhanded, h.handed_eq, List.append_nil]
    show _ ++ e.handed.toList = _
    rw [he]
    rfl
  · unfold RadioHal.written
    rw [List.filterMap_append]
    exact (List.append_nil _).symm ▸ h.written
  · rw [hhandler]
    exact writes_atEventHandler line

/-- The handler writes its message, which is queued or not. -/
theorem write (h : WrittenUpTo log s done pending) {msg : RadioHalMsgBuffer}
    {k : ℤ → HandlerM Unit} (hq : s.pipe.handler = ask (.write msg) k) (retval : ℤ) (queued : Bool)
    (hhandler : s'.pipe.handler = k retval) : ∃ done pending,
      WrittenUpTo (log ++ [.pipe (.produced msg queued)]) s' done pending := by
  have hwrites := h.writes
  rw [hq] at hwrites
  obtain ⟨line, rfl, hmsg⟩ := hwrites.1 msg rfl
  have hhanded := handed_concat log (some (.pipe (.produced msg queued)))
  refine ⟨done ++ [line], [], ?_, ?_, ?_, Nat.zero_le _⟩
  · rw [Option.toList_some] at hhanded
    rw [hhanded, h.handed_eq, List.append_nil]
    exact List.append_nil _
  · have hwritten : RadioHal.written (log ++ [.pipe (.produced msg queued)]) =
        RadioHal.written log ++ [msg] := by
      unfold RadioHal.written producedOf
      rw [List.filterMap_append, List.filterMap_append]
      rfl
    rw [hwritten]
    exact List.rel_append h.written (.cons hmsg .nil)
  · rw [hhandler]
    exact hwrites.2 retval [] rfl

/-- A step of the handler or of the event loop. -/
theorem pipe (h : WrittenUpTo log s done pending) {label : Option PipeEvent} {pipe : Pipeline}
    (hstep : PipeStep capacity ctx s.pipe label pipe)
    (hcall : s.pipe.handler = ret () → pipe.handler = ret ()) :
    ∃ done pending, WrittenUpTo (log ++ (label.map InputEvent.pipe).toList)
      { s with pipe := pipe } done pending := by
  -- only a message that is produced is written
  have hquiet : ∀ e : PipeEvent, (∀ msg queued, e ≠ .produced msg queued) →
      RadioHal.written (log ++ [.pipe e]) = RadioHal.written log := by
    intro e he
    unfold RadioHal.written producedOf
    rw [List.filterMap_append, List.filterMap_append]
    cases e with
    | produced msg queued => exact absurd rfl (he msg queued)
    | _ => exact List.append_nil _
  have hsilent : RadioHal.written (log ++ []) = RadioHal.written log := by rw [List.append_nil]
  have hwrites := h.writes
  cases hstep with
  | called line hidle =>
    -- a call within the pipe is excluded, unless it does nothing
    refine ⟨done, pending, h.same rfl hsilent ?_⟩
    have hreturns : atEventHandler line = ret () := hcall hidle
    show Writes pending (atEventHandler line)
    rwa [hreturns, ← hidle]
  -- the message of the line under way is written, and queued or lost
  | queued hq hroom => exact h.write hq msgBufferSize true rfl
  | full hq hroom => exact h.write hq (-1) false rfl
  | reported hq =>
    rw [hq] at hwrites
    exact ⟨done, pending, h.same rfl (hquiet _ nofun) (hwrites.2 () pending rfl)⟩
  | @handlerGoesOn q k a hq hwrite hreport =>
    -- the question is none of a write, so the message is still to come
    rw [hq] at hwrites
    refine ⟨done, pending, h.same rfl hsilent (hwrites.2 a pending ?_)⟩
    cases q with
    | write msg => exact absurd rfl (hwrite msg)
    | _ => rfl
  -- what `modem_events` does leaves the handler alone
  | nextRound hround => exact ⟨done, pending, h.same rfl hsilent hwrites⟩
  | read hq hfifo => exact ⟨done, pending, h.same rfl (hquiet _ nofun) hwrites⟩
  | readFails hq => exact ⟨done, pending, h.same rfl (hquiet _ nofun) hwrites⟩
  | loopGoesOn a hq hread => exact ⟨done, pending, h.same rfl hsilent hwrites⟩

theorem step [DecidableEq ι] (h : WrittenUpTo log s done pending) (hcalls : s.Calls)
    (hstep : InputStep onReaderClosed capacity ctx s label s') :
    ∃ done pending, WrittenUpTo (log ++ label.toList) s' done pending := by
  -- a step that neither hands on a line nor moves the pipe changes nothing
  have hsame : ∀ {label : Option (InputEvent ι)} {s' : ModemInput ι}, s'.pipe = s.pipe →
      label.bind InputEvent.pipe? = none →
      (label.bind InputEvent.channel?).bind ChannelEvent.handed = none →
      ∃ done pending, WrittenUpTo (log ++ label.toList) s' done pending := by
    intro label s' hpipe hnone hhanded
    refine ⟨done, pending, h.same hhanded ?_ (hpipe ▸ h.writes)⟩
    unfold RadioHal.written
    rw [Trace.filterMap_concat, hnone, Option.toList_none, List.append_nil]
  cases hstep with
  | reads hplace hread => exact hsame rfl rfl rfl
  | @consumes line e channel hplace hstep he =>
    -- a line that is handed on becomes the one to be written
    unfold ModemInput.handOn
    cases hhanded : e.handed with
    | none => exact hsame rfl rfl hhanded
    | some line => exact ⟨done, [line], h.call (hcalls (by simp [hplace])) hhanded rfl⟩
  | ends hplace hstep hended => exact hsame rfl rfl rfl
  | pipe hstep hcall => exact h.pipe hstep hcall
  | returns hplace hidle => exact hsame rfl rfl rfl
  | @others label channel hmutex hstep hlabel hreader =>
    refine hsame rfl (by cases label <;> rfl) ?_
    rw [label_map_channel]
    -- what is not consumed is not handed on
    cases label with
    | none => rfl
    | some e => cases e <;> first | rfl | cases hlabel

end WrittenUpTo

theorem writtenUpTo_of_trace [DecidableEq ι]
    (hrun : Trace (InputStep onReaderClosed capacity ctx) (.start ι) log s) :
    ∃ done pending, WrittenUpTo log s done pending := by
  have hinv : s.Calls ∧ ∃ done pending, WrittenUpTo log s done pending := by
    refine hrun.log_invariant
      (fun log s => s.Calls ∧ ∃ done pending, WrittenUpTo log s done pending) ?_
      ⟨fun _ => rfl, [], [], rfl, .nil, rfl, Nat.zero_le _⟩
    rintro log s label s' ⟨hcalls, done, pending, h⟩ hstep
    exact ⟨hstep.calls hcalls, h.step hcalls hstep⟩
  exact hinv.2

/-- When `readerLoop` is in `readline`, there is a message of every line that was handed on. -/
theorem written_of_reading [DecidableEq ι]
    (hrun : Trace (InputStep onReaderClosed capacity ctx) (.start ι) log s)
    (hplace : s.place = .reading) : List.Forall₂ MessageOf (handed log) (written log) := by
  obtain ⟨done, pending, hwritten⟩ := writtenUpTo_of_trace hrun
  have hidle : s.pipe.handler = ret () := by
    apply calls_of_trace hrun
    intro locked h
    rw [hplace] at h
    cases h
  obtain rfl := hwritten.pending_eq_nil hidle
  rw [hwritten.handed_eq, List.append_nil]
  exact hwritten.written

/-- **The events of the messages are those of the lines**, where these are classified as they should
be. -/
theorem events_of_reading [DecidableEq ι]
    (hrun : Trace (InputStep onReaderClosed capacity ctx) (.start ι) log s)
    (hplace : s.place = .reading) (hlines : ∀ line ∈ handed log, Classified line) :
    (written log).map RadioHalMsgBuffer.event =
      (handed log).map fun line => (classify line).code := by
  have hall : ∀ {lines msgs}, List.Forall₂ MessageOf lines msgs →
      (∀ line ∈ lines, Classified line) →
      msgs.map RadioHalMsgBuffer.event = lines.map fun line => (classify line).code := by
    intro lines msgs h
    induction h with
    | nil => exact fun _ => rfl
    | cons hmsg _ ih =>
      intro hlines
      obtain ⟨hline, hrest⟩ := List.forall_mem_cons.mp hlines
      rw [List.map_cons, List.map_cons, ih hrest, (hmsg.of_posts hline).1]
  exact hall (written_of_reading hrun hplace) hlines

end Messages

/-- **Every line of the stream is consumed once, in order, and those for no command come to the
event loop as a message each, in the same order**: at every moment what is missing is in the hands
of a thread, and nothing is when `read` waits for the modem. -/
theorem lines_delivered [DecidableEq ι] {onReaderClosed : Bool} {capacity : ℕ} {ctx : ModemContext}
    {log : List (InputEvent ι)} {s : ModemInput ι}
    (hrun : Trace (InputStep onReaderClosed capacity ctx) (.start ι) log s)
    (hstream : Orderly (stream log)) :
    consumed log <+: complete isLineChange (stream log) ∧
      (handed log).Sublist (consumed log) ∧
      (∃ done, done <+: handed log ∧ (handed log).length ≤ done.length + 1 ∧
        List.Forall₂ MessageOf done (written log)) ∧
      ((∀ e ∈ log.filterMap InputEvent.pipe?, ¬ e.Fails) →
        written log = processed log ++ s.pipe.fifo) ∧
      ∀ p, s.place = .reading → s.buffer.phase = .reading p →
        consumed log = complete isLineChange (stream log) ∧
          List.Forall₂ MessageOf (handed log) (written log) := by
  obtain ⟨unread, hcut, hwaits⟩ := complete_received (buffer_of_trace hrun) hstream
  have hreturned := inOrderOfReturn_of_trace hrun
  obtain ⟨done, pending, hwritten⟩ := writtenUpTo_of_trace hrun
  refine ⟨?_, handed_sublist_of_trace (channel_of_trace hrun), ?_, ?_, ?_⟩
  -- what has been consumed is what has been returned, but for a line in hand
  · refine ⟨s.place.inHand.toList ++ complete isLineChange unread, ?_⟩
    rw [← List.append_assoc, ← hreturned]
    exact hcut.symm
  -- all lines that were handed on have their messages, but for the one under way
  · refine ⟨done, ⟨pending, hwritten.handed_eq.symm⟩, ?_, hwritten.written⟩
    rw [hwritten.handed_eq, List.length_append]
    exact Nat.add_le_add_left hwritten.length_le _
  -- without failures, what was written has been processed or is in the pipe
  · intro hsound
    unfold written processed
    rw [producedOf_eq hsound, processedOf_eq hsound]
    exact pipe_log_eq (pipe_of_trace hrun)
  -- a reader that waits for bytes has consumed every complete line
  · intro p hplace hphase
    constructor
    · unfold InOrderOfReturn at hreturned
      rw [hplace] at hreturned
      show _ = complete isLineChange (received _)
      rw [hcut, hwaits p hphase, List.append_nil, hreturned]
      exact (List.append_nil _).symm
    · exact written_of_reading hrun hplace

/-! ### A report of the modem -/

/-- The bytes of a report of the registration. -/
def reportBytes : Text := "+CREG: 1\r\n".toList

/-- It comes in when no command is pending. -/
def reportLog : List (InputEvent Unit) :=
  [.buffer (.init, .call), .buffer (calledBuffer, .chunk reportBytes),
    .channel (.line "+CREG: 1".toList .unsolicited), .pipe (.produced registrationMessage true),
    .buffer ((calledBuffer.receive 0 reportBytes).state, .call)]

/-- From the start `readline` gets the bytes of the report, and returns its line. -/
theorem trace_report_read : Trace (InputStep false 1 plainContext) (.start Unit)
    [.buffer (.init, .call), .buffer (calledBuffer, .chunk reportBytes)]
    { ModemInput.start Unit with
      place := .took (some "+CREG: 1".toList)
      buffer := (calledBuffer.receive 0 reportBytes).state } := by
  have hcall : InputStep false 1 plainContext (.start Unit) (some (.buffer (.init, .call)))
      { ModemInput.start Unit with buffer := calledBuffer } :=
    .reads (o := ATBuffer.init.enter) rfl rfl
  have hchunk : InputStep false 1 plainContext { ModemInput.start Unit with buffer := calledBuffer }
      (some (.buffer (calledBuffer, .chunk reportBytes)))
      { ModemInput.start Unit with
        place := .took (some "+CREG: 1".toList)
        buffer := (calledBuffer.receive 0 reportBytes).state } :=
    .reads (o := calledBuffer.receive 0 reportBytes) rfl rfl
  exact (Trace.single hcall).snoc hchunk

section Report

variable {place : ReaderPlace} {buffer : ATBuffer} {channel : Channel Unit} {loop : EventLoop}
  {round : ModemM EventLoop}

/-- The handler goes on as it would by itself. -/
theorem trace_of_call {p p' : HandlerM Unit} {t : List (Exchange HandlerQ HandlerA)}
    (h : After p t p') (hquiet : ∀ x ∈ t, (∀ msg, x.1 ≠ .write msg) ∧ x.1 ≠ writeError) :
    Trace (InputStep false 1 plainContext) ⟨place, buffer, channel, ⟨[], p, loop, round⟩⟩ []
      ⟨place, buffer, channel, ⟨[], p', loop, round⟩⟩ := by
  induction h with
  | start p => exact .refl
  | @reply q k t p' a _ ih =>
    obtain ⟨⟨hwrite, hreport⟩, hrest⟩ := List.forall_mem_cons.mp hquiet
    have hstep : PipeStep 1 plainContext ⟨[], ask q k, loop, round⟩ none ⟨[], k a, loop, round⟩ :=
      .handlerGoesOn a rfl hwrite hreport
    have hinput : InputStep false 1 plainContext
        ⟨place, buffer, channel, ⟨[], ask q k, loop, round⟩⟩ none
        ⟨place, buffer, channel, ⟨[], k a, loop, round⟩⟩ := by
      refine .pipe (s := ⟨place, buffer, channel, ⟨[], ask q k, loop, round⟩⟩) hstep fun hret => ?_
      cases (hret : ask q k = ret ())
    exact (Trace.refl.snoc hinput).trans (ih hrest)

/-- The handler writes the message of the report, and gets to its end. -/
theorem trace_report_handled : Trace (InputStep false 1 plainContext)
    ⟨place, buffer, channel, ⟨[], atEventHandler "+CREG: 1".toList, loop, round⟩⟩
    [.pipe (.produced registrationMessage true)]
    ⟨place, buffer, channel, ⟨[registrationMessage], ret (), loop, round⟩⟩ := by
  have hrun : After (atEventHandler "+CREG: 1".toList)
      [⟨.getFlags, (0 : ℤ)⟩, ⟨.setNonblock 0, (0 : ℤ)⟩] (writeMessage registrationMessage) :=
    .reply _ (.reply _ (.start _))
  have hqueued : PipeStep 1 plainContext ⟨[], writeMessage registrationMessage, loop, round⟩
      (some (.produced registrationMessage true)) ⟨[registrationMessage], ret (), loop, round⟩ := by
    have hroom : PipeStep 1 plainContext _ _ _ :=
      .queued (s := ⟨[], writeMessage registrationMessage, loop, round⟩) rfl Nat.zero_lt_one
    exact hroom
  have hwrite : InputStep false 1 plainContext
      ⟨place, buffer, channel, ⟨[], writeMessage registrationMessage, loop, round⟩⟩
      (some (.pipe (.produced registrationMessage true)))
      ⟨place, buffer, channel, ⟨[registrationMessage], ret (), loop, round⟩⟩ := by
    have hinput : InputStep false 1 plainContext _ _ _ :=
      .pipe (s := ⟨place, buffer, channel, ⟨[], writeMessage registrationMessage, loop, round⟩⟩)
        hqueued fun _ => rfl
    exact hinput
  exact (trace_of_call hrun (by simp)).snoc hwrite

end Report

theorem exists_reportRun : ∃ s : ModemInput Unit,
    Trace (InputStep false 1 plainContext) (.start Unit) reportLog s ∧ s.place = .reading ∧
      s.buffer.phase = .reading 0 := by
  have hline : ChannelStep false (Channel.opened Unit)
      (some (.line "+CREG: 1".toList .unsolicited)) (Channel.opened Unit) :=
    .line rfl (by decide) (by decide)
  have hconsumed := trace_report_read.snoc (.consumes rfl hline rfl)
  have hhandled := hconsumed.trans trace_report_handled
  have hreturned := hhandled.snoc (.returns rfl rfl)
  have hcall : (calledBuffer.receive 0 reportBytes).state.step .call =
      some (calledBuffer.receive 0 reportBytes).state.enter := rfl
  exact ⟨_, hreturned.snoc (.reads rfl hcall), rfl, rfl⟩

/-- The event loop gets a message of it. -/
theorem lines_delivered_report : ∃ s : ModemInput Unit,
    Trace (InputStep false 1 plainContext) (.start Unit) reportLog s ∧
      complete isLineChange reportBytes = ["+CREG: 1".toList] ∧
      List.Forall₂ MessageOf ["+CREG: 1".toList] [registrationMessage] := by
  obtain ⟨s, hrun, hplace, hphase⟩ := exists_reportRun
  have hstream : Orderly (stream reportLog) :=
    orderly_of_short (by decide) (by decide) (by decide)
  obtain ⟨-, -, -, -, hrest⟩ := lines_delivered hrun hstream
  obtain ⟨hall, hmessages⟩ := hrest 0 hplace hphase
  exact ⟨s, hrun, hall.symm, hmessages⟩

end RadioHal
