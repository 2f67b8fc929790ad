import Mathlib.Data.List.Infix
import RadioHal.Modem.Channel

/-!
# Waiting on the AT channel

A command thread waits until it is signalled.  The reader signals with a final response, `at_close`
does, and so does the end of the stream if `at_set_on_reader_closed` was called; the modem HAL does
not call it.

## Main definitions

* `Awaits` — no thread waits for what is there already.
* `answers`, `sents` — the final responses that came in, and the number of commands sent.
* `OneAnswerEach` — the modem answers a command once, and nothing it was not asked.

## Main results

* `no_lost_wakeup` — **a thread that waits has not missed its signal.**
* `waits_for_ever` — without `at_set_on_reader_closed` a command that is pending when the stream
  ends comes back only when the channel is closed.
* `own_answers` — **while no command times out, each gets the final response to itself.**
-/

namespace RadioHal

open CLib

variable {ι : Type} {onReaderClosed : Bool} {log : List (ChannelEvent ι)} {s s' : Channel ι}

/-- `processLine` moves no thread, and leaves the reader as it is. -/
theorem processLine_frame (s : Channel ι) (line : Text) :
    (s.processLine line).threads = s.threads ∧ (s.processLine line).reader = s.reader ∧
      (s.processLine line).readerClosed = s.readerClosed := by
  unfold Channel.processLine
  split <;> exact ⟨rfl, rfl, rfl⟩

/-- A line goes to the final response when a command is pending and the text is a final one. -/
theorem place_eq_final_iff (s : Channel ι) (line : Text) :
    s.place line = .final ↔ s.spResponse ≠ none ∧ isFinalResponse line = true := by
  unfold Channel.place
  cases s.spResponse with
  | none => simp
  | some r =>
    dsimp only
    split
    · next hfin => simp [hfin]
    · next hfin =>
      constructor
      · intro h
        split at h
        · cases h
        · split at h <;> cases h
      · intro h
        exact absurd h.2 hfin

/-- A line that is not final leaves the final response alone. -/
theorem finalResponse_processLine {line : Text} {p : ATResponse} (h : s.place line ≠ .final)
    (hp : (s.processLine line).spResponse = some p) :
    ∃ q, s.spResponse = some q ∧ q.finalResponse = p.finalResponse := by
  unfold Channel.processLine at hp
  split at hp
  · exact ⟨p, hp, rfl⟩
  · next hplace => exact absurd hplace h
  · exact ⟨p, hp, rfl⟩
  · obtain ⟨q, hq, rfl⟩ := Option.map_eq_some_iff.mp hp
    exact ⟨q, hq, rfl⟩

/-! ### Signals -/

/-- No thread waits for what is there already. -/
structure Awaits (onReaderClosed : Bool) (s : Channel ι) : Prop where
  isOpen : ∀ i r, s.threads i = .waiting r → s.readerClosed = false
  final : ∀ i r p, s.threads i = .waiting r → s.spResponse = some p → p.finalResponse = none
  reader : onReaderClosed = true → s.reader = .ended → s.readerClosed = true

/-- Where nobody waits there is only the reader to look at. -/
theorem Awaits.of_ne_waiting (h : ∀ i r, s.threads i ≠ .waiting r)
    (hreader : onReaderClosed = true → s.reader = .ended → s.readerClosed = true) :
    Awaits onReaderClosed s :=
  ⟨fun i r hi => absurd hi (h i r), fun i r _ hi => absurd hi (h i r), hreader⟩

/-- A command that is cleared is not waited for. -/
theorem Awaits.clearPendingCommand (h : Awaits onReaderClosed s) :
    Awaits onReaderClosed s.clearPendingCommand :=
  ⟨h.isOpen, (fun _ _ _ _ hp => by cases hp), h.reader⟩

section Signals

variable [DecidableEq ι]

theorem threads_setThread (s : Channel ι) (i j : ι) (t : CommandThread) :
    (s.setThread i t).threads j = if j = i then t else s.threads j :=
  Function.update_apply ..

/-- Where one thread at most has a command, a signal reaches it. -/
theorem Channel.Signals.ne_waiting (h : s.Signals s')
    (hunique : ∀ i j, (s.threads i).command ≠ none → (s.threads j).command ≠ none → i = j)
    (i : ι) (r : AtRequest) : s'.threads i ≠ .waiting r := by
  cases h with
  | nobody hnone => exact hnone i r
  | @wake j r' hwaits =>
    rw [threads_setThread]
    split
    · exact fun heq => by cases heq
    · next hne =>
      intro hi
      apply hne
      apply hunique i j
      · rw [hi]
        exact Option.some_ne_none r
      · rw [hwaits]
        exact Option.some_ne_none r'

/-- A signal leaves everything but the threads alone. -/
theorem Channel.Signals.frame (h : s.Signals s') :
    s'.spResponse = s.spResponse ∧ s'.reader = s.reader ∧ s'.readerClosed = s.readerClosed := by
  cases h with
  | wake _ => exact ⟨rfl, rfl, rfl⟩
  | nobody _ => exact ⟨rfl, rfl, rfl⟩

namespace Awaits

/-- A thread that does not wait comes to another place. -/
theorem setThread {i : ι} {t : CommandThread} (h : Awaits onReaderClosed s)
    (ht : ∀ r, t = .waiting r → s.readerClosed = false ∧
      ∀ p, s.spResponse = some p → p.finalResponse = none) :
    Awaits onReaderClosed (s.setThread i t) := by
  refine ⟨?_, ?_, h.reader⟩
  · intro j r hj
    rw [threads_setThread] at hj
    split at hj
    · exact (ht r hj).1
    · exact h.isOpen j r hj
  · intro j r p hj hp
    rw [threads_setThread] at hj
    split at hj
    · exact (ht r hj).2 p hp
    · exact h.final j r p hj hp

/-- **One step**: whatever a thread waits for comes with a signal, and the signal finds it. -/
theorem step {label : Option (ChannelEvent ι)} (h : Awaits onReaderClosed s)
    (hinv : ChannelInv log s) (hs : ChannelStep onReaderClosed s label s') :
    Awaits onReaderClosed s' := by
  cases hs with
  -- a command that is not sent leaves nobody waiting behind it
  | pending _ _ => exact h.clearPendingCommand
  | closed _ _ _ => exact h.clearPendingCommand
  | unwritten _ _ _ => exact h.clearPendingCommand
  | @send i r hidle hpending hopen =>
    -- the new response has no final line yet, and the channel was found open
    have hnew : Awaits onReaderClosed { s with
        spResponse := some atResponseNew, type := r.type, responsePrefix := r.responsePrefix
        smsPDU := r.smspdu } := by
      refine ⟨fun _ _ _ => hopen.2, ?_, h.reader⟩
      intro j r' p _ hp
      cases hp
      rfl
    apply hnew.setThread
    intro r' _
    refine ⟨hopen.2, ?_⟩
    intro p hp
    cases hp
    rfl
  | @line line hrunning hsms hplace =>
    -- the line is not the final one, so no response gets its final line here
    obtain ⟨hthreads, hreader, hclosed⟩ := processLine_frame s line
    refine ⟨?_, ?_, ?_⟩
    · intro i r hi
      rw [hthreads] at hi
      rw [hclosed]
      exact h.isOpen i r hi
    · intro i r p hi hp
      rw [hthreads] at hi
      obtain ⟨q, hq, hfinal⟩ := finalResponse_processLine hplace hp
      rw [← hfinal]
      exact h.final i r q hi hq
    · rw [hreader, hclosed]
      exact h.reader
  | @final _ line hrunning hsms hplace hsignal =>
    -- the thread that waited has been woken, and there was no other
    obtain ⟨hthreads, hreader, hclosed⟩ := processLine_frame s line
    obtain ⟨-, hreader', hclosed'⟩ := hsignal.frame
    refine of_ne_waiting (hsignal.ne_waiting ?_) ?_
    · rw [hthreads]
      exact hinv.unique
    · rw [hreader', hclosed', hreader, hclosed]
      exact h.reader
  -- the text of an SMS goes past the response
  | smsBegins _ _ => exact ⟨h.isOpen, h.final, fun _ hended => by cases hended⟩
  | sms _ => exact ⟨h.isOpen, h.final, fun _ hended => by cases hended⟩
  | ended _ hdone =>
    -- the reader may only end like this where nothing is to be called, or has been closed
    refine ⟨h.isOpen, h.final, ?_⟩
    intro hcalled _
    rcases hdone with hdone | hdone
    · rw [hcalled] at hdone
      cases hdone
    · exact hdone
  | endedCloses _ _ hsignal =>
    -- whoever waited is woken together with the closing
    refine of_ne_waiting (hsignal.ne_waiting hinv.unique) ?_
    intro _ _
    exact hsignal.frame.2.2
  | close hsignal =>
    refine of_ne_waiting (hsignal.ne_waiting hinv.unique) ?_
    intro _ _
    exact hsignal.frame.2.2
  -- a thread that wakes by chance does not wait any more
  | spurious _ => exact h.setThread fun r heq => by cases heq
  | waitAgain _ hp hloop =>
    -- it waits again only because the loop condition has been found true
    apply h.setThread
    intro r _
    refine ⟨hloop.2, ?_⟩
    intro q hq
    rw [hp] at hq
    cases hq
    exact hloop.1
  -- who returns has taken the response away
  | finish _ _ _ => exact h.clearPendingCommand.setThread fun r heq => by cases heq
  | timeout _ _ => exact h.clearPendingCommand.setThread fun r heq => by cases heq

omit [DecidableEq ι] in
/-- A command that waits has a response without a final line. -/
theorem unanswered (h : Awaits onReaderClosed s) (hinv : ChannelInv log s) {i : ι} {r : AtRequest}
    (hwaits : s.threads i = .waiting r) :
    ∃ p, s.spResponse = some p ∧ p.finalResponse = none := by
  obtain ⟨_, _, -, -, hp, -⟩ := (hinv.pending i r (by rw [hwaits]; rfl)).lines
  exact ⟨_, hp, h.final i r _ hwaits hp⟩

end Awaits

theorem awaits_of_trace (hrun : Trace (ChannelStep onReaderClosed) (Channel.opened ι) log s)
    (hnone : NoneRefused log) : ChannelInv log s ∧ Awaits onReaderClosed s := by
  have hboth : NoneRefused log → ChannelInv log s ∧ Awaits onReaderClosed s := by
    refine hrun.log_invariant
      (fun log s => NoneRefused log → ChannelInv log s ∧ Awaits onReaderClosed s) ?_ ?_
    · intro log s label s' ih hs hnone
      obtain ⟨hinv, h⟩ := ih hnone.of_append
      exact ⟨hinv.step hs hnone, h.step hinv hs⟩
    · intro _
      exact ⟨channelInv_opened, Awaits.of_ne_waiting (fun _ _ heq => by cases heq) nofun⟩
  exact hboth hnone

/-- **A thread that waits has not missed its signal**: its channel is open, its response is there
and has no final line yet, and the stream goes on, if its end is to be reported. -/
theorem no_lost_wakeup (hrun : Trace (ChannelStep onReaderClosed) (Channel.opened ι) log s)
    (hnone : NoneRefused log) {i : ι} {r : AtRequest} (hwaits : s.threads i = .waiting r) :
    s.readerClosed = false ∧ (∃ p, s.spResponse = some p ∧ p.finalResponse = none) ∧
      (onReaderClosed = true → s.reader ≠ .ended) := by
  obtain ⟨hinv, h⟩ := awaits_of_trace hrun hnone
  have hopen := h.isOpen i r hwaits
  refine ⟨hopen, h.unanswered hinv hwaits, ?_⟩
  intro hcalled hended
  rw [h.reader hcalled hended] at hopen
  cases hopen

/-- A bare command that has just been sent waits, with its response still to come. -/
theorem no_lost_wakeup_bareCommand :
    bareWaits.readerClosed = false ∧
      (∃ p, bareWaits.spResponse = some p ∧ p.finalResponse = none) ∧
      (false = true → bareWaits.reader ≠ .ended) := by
  have hsend : ChannelStep false (Channel.opened Unit) (some (.sent () bareCommand)) bareWaits :=
    ChannelStep.send rfl rfl ⟨rfl, rfl⟩
  refine no_lost_wakeup (i := ()) (r := bareCommand) (Trace.single hsend) ?_ rfl
  intro i r
  simp

end Signals

/-! ### The end of the stream -/

/-- A command waits for what will not come: there are no more lines, and nobody else has sent
anything. -/
structure Stranded (s : Channel ι) (i : ι) (r : AtRequest) : Prop where
  reader : s.reader = .ended
  command : (s.threads i).command = some r
  others : ∀ j, (s.threads j).command ≠ none → j = i
  response : ∃ p, s.spResponse = some p ∧ p.finalResponse = none

theorem Stranded.of_same {i : ι} {r : AtRequest} (h : Stranded s i r) (hsame : SameAccount s s')
    (hreader : s'.reader = s.reader) : Stranded s' i r := by
  refine ⟨hreader.trans h.reader, ?_, ?_, ?_⟩
  · rw [hsame.commands, h.command]
  · intro j hj
    rw [hsame.commands] at hj
    exact h.others j hj
  · rw [hsame.spResponse]
    exact h.response

section Stranding

variable [DecidableEq ι]

theorem readerClosed_of_step {label : Option (ChannelEvent ι)}
    (hs : ChannelStep onReaderClosed s label s') (hclosed : s.readerClosed = true) :
    s'.readerClosed = true := by
  cases hs with
  | @line line _ _ _ => rw [(processLine_frame s line).2.2, hclosed]
  | @final _ line _ _ _ hsignal =>
    rw [hsignal.frame.2.2, (processLine_frame s line).2.2, hclosed]
  | endedCloses _ _ hsignal => exact hsignal.frame.2.2
  | close hsignal => exact hsignal.frame.2.2
  | _ => exact hclosed

/-- A step leaves it so, or closes the channel. -/
theorem Stranded.step {i : ι} {r : AtRequest} {label : Option (ChannelEvent ι)}
    (h : Stranded s i r) (htime : r.timeoutMsec = 0) (hs : ChannelStep false s label s')
    (hnone : ∀ j r', label ≠ some (.refused j r' .commandPending))
    (hopen : s.readerClosed = false) :
    s'.readerClosed = true ∨ Stranded s' i r := by
  obtain ⟨p, hp, hfinal⟩ := h.response
  cases hs with
  | @pending j r' _ _ => exact absurd rfl (hnone j r')
  | closed _ hpending _ => rw [hp] at hpending; cases hpending
  | unwritten _ hpending _ => rw [hp] at hpending; cases hpending
  | send _ hpending _ => rw [hp] at hpending; cases hpending
  | line hrunning _ _ => rw [h.reader] at hrunning; cases hrunning
  | final hrunning _ _ _ => rw [h.reader] at hrunning; cases hrunning
  | smsBegins hrunning _ => rw [h.reader] at hrunning; cases hrunning
  | sms hsms => rw [h.reader] at hsms; cases hsms
  | ended hreader _ => exact absurd h.reader hreader
  | endedCloses hreader _ _ => exact absurd h.reader hreader
  | close hsignal => exact Or.inl hsignal.frame.2.2
  | spurious hwaits => exact Or.inr (h.of_same (sameAccount_setThread (by rw [hwaits]; rfl)) rfl)
  | waitAgain hwoken _ _ =>
    exact Or.inr (h.of_same (sameAccount_setThread (by rw [hwoken]; rfl)) rfl)
  | finish _ hp' hloop =>
    -- the loop is not left without a final line
    rw [hp] at hp'
    cases hp'
    rcases hloop with hloop | hloop
    · exact absurd hfinal hloop
    · rw [hopen] at hloop
      cases hloop
  | @timeout j r' hwaits htime' =>
    have hj : (s.threads j).command = some r' := by
      rcases hwaits with hwaits | hwoken
      · rw [hwaits]
        rfl
      · rw [hwoken]
        rfl
    obtain rfl := h.others j (by rw [hj]; exact Option.some_ne_none r')
    rw [h.command] at hj
    cases hj
    exact absurd htime htime'

/-- **A command that is pending when the stream ends comes back only when the channel is closed**,
where `at_set_on_reader_closed` was not called.  For nobody else signals the condition it waits for.
No command is refused in the run because of another one, as such a command would clear the response.
-/
theorem waits_for_ever {log' : List (ChannelEvent ι)} {i : ι} {r : AtRequest}
    (hrun : Trace (ChannelStep false) (Channel.opened ι) log s) (hended : s.reader = .ended)
    (hwaits : s.threads i = .waiting r) (htime : r.timeoutMsec = 0)
    (hrun' : Trace (ChannelStep false) s log' s') (hnone : NoneRefused (log ++ log')) :
    s'.readerClosed = true ∨ (s'.threads i).command = some r := by
  obtain ⟨hstart, hawaits⟩ := awaits_of_trace hrun hnone.of_append
  have hresponse := hawaits.unanswered hstart hwaits
  have hi : (s.threads i).command = some r := by rw [hwaits]; rfl
  -- nobody is left to bring the final line of the command
  have hstranded : Stranded s i r := by
    refine ⟨hended, hi, ?_, hresponse⟩
    intro j hj
    exact hstart.unique j i hj (by rw [hi]; exact Option.some_ne_none r)
  -- this stays so as long as nobody closes the channel
  have hkeep : NoneRefused (log ++ log') → s'.readerClosed = true ∨ Stranded s' i r := by
    refine hrun'.log_invariant
      (fun log' s' => NoneRefused (log ++ log') → s'.readerClosed = true ∨ Stranded s' i r) ?_ ?_
    · intro log' s₁ label s₂ ih hs hnone
      rw [← List.append_assoc] at hnone
      rcases Bool.eq_false_or_eq_true s₁.readerClosed with hclosed | hopen
      · exact Or.inl (readerClosed_of_step hs hclosed)
      · have hlabel : ∀ j r', label ≠ some (.refused j r' .commandPending) := by
          rintro j r' rfl
          exact hnone j r' (by simp)
        have h := (ih hnone.of_append).resolve_left (by rw [hopen]; decide)
        exact h.step htime hs hlabel hopen
    · intro _
      exact Or.inr hstranded
  exact (hkeep hnone).imp_right Stranded.command

end Stranding

/-- The stream has ended behind a bare command. -/
def bareStranded : Channel Unit := { bareWaits with reader := .ended }

/-- A bare command without a time limit waits on when the stream has ended. -/
theorem waits_for_ever_bareCommand :
    (bareStranded.setThread () (.woken bareCommand)).readerClosed = true ∨
      ((bareStranded.setThread () (.woken bareCommand)).threads ()).command =
        some bareCommand := by
  have hsend : ChannelStep false (Channel.opened Unit) (some (.sent () bareCommand)) bareWaits :=
    ChannelStep.send rfl rfl ⟨rfl, rfl⟩
  have hended : ChannelStep false bareWaits none bareStranded :=
    ChannelStep.ended (by decide) (Or.inl rfl)
  have hchance : ChannelStep false bareStranded none
      (bareStranded.setThread () (.woken bareCommand)) := ChannelStep.spurious rfl
  refine waits_for_ever (r := bareCommand) ((Trace.single hsend).snoc hended) rfl rfl rfl
    (Trace.refl.snoc hchance) ?_
  intro i r
  simp

/-! ### Answers in order -/

/-- The final responses that came in along a run. -/
def answers (log : List (ChannelEvent ι)) : List Text :=
  log.filterMap fun
    | .line line _ => if isFinalResponse line then some line else none
    | _ => none

/-- The number of commands that were sent. -/
def sents (log : List (ChannelEvent ι)) : ℕ :=
  log.countP fun
    | .sent _ _ => true
    | _ => false

/-- The modem answers a command once, and nothing it was not asked. -/
def OneAnswerEach (log : List (ChannelEvent ι)) : Prop :=
  ∀ log', log' <+: log → (answers log').length ≤ sents log'

theorem answers_append (log log' : List (ChannelEvent ι)) :
    answers (log ++ log') = answers log ++ answers log' :=
  List.filterMap_append ..

theorem sents_append (log log' : List (ChannelEvent ι)) :
    sents (log ++ log') = sents log + sents log' :=
  List.countP_append

/-- The final line of the response that is pending, if one is. -/
def Channel.final? (s : Channel ι) : Option (Option Text) := s.spResponse.map (·.finalResponse)

/-- What has been answered, by the final line of the response that is pending. -/
def AnsweredInv (log : List (ChannelEvent ι)) : Option (Option Text) → Prop
  | none => (answers log).length = sents log
  | some none => (answers log).length + 1 = sents log
  | some (some line) => (answers log).length = sents log ∧ (answers log).getLast? = some line

/-- What neither sends a command nor brings an answer changes nothing. -/
theorem AnsweredInv.snoc {e : ChannelEvent ι} {final : Option (Option Text)}
    (h : AnsweredInv log final) (hanswers : answers [e] = []) (hsents : sents [e] = 0) :
    AnsweredInv (log ++ [e]) final := by
  have hsame : answers (log ++ [e]) = answers log := by
    rw [answers_append, hanswers, List.append_nil]
  have hcount : sents (log ++ [e]) = sents log := by rw [sents_append, hsents, Nat.add_zero]
  unfold AnsweredInv at h ⊢
  rw [hsame, hcount]
  exact h

/-- A line that is not put into the final response leaves it alone. -/
theorem final?_processLine {line : Text} (h : s.place line ≠ .final) :
    (s.processLine line).final? = s.final? := by
  unfold Channel.processLine Channel.final?
  split
  · rfl
  · next hplace => exact absurd hplace h
  · rfl
  · rw [Option.map_map]
    rfl

theorem final?_processLine_of_final {line : Text} (h : s.place line = .final) :
    (s.processLine line).final? = some (some line) := by
  obtain ⟨hpending, -⟩ := (place_eq_final_iff s line).mp h
  obtain ⟨p, hp⟩ := Option.ne_none_iff_exists'.mp hpending
  unfold Channel.processLine Channel.final?
  rw [h, hp]
  rfl

theorem answers_line {line : Text} {place : LinePlace} (h : isFinalResponse line = true) :
    answers [ChannelEvent.line (ι := ι) line place] = [line] := by
  unfold answers
  rw [List.filterMap_cons]
  simp [h]

theorem answers_line_of_not {line : Text} {place : LinePlace} (h : isFinalResponse line = false) :
    answers [ChannelEvent.line (ι := ι) line place] = [] := by
  unfold answers
  rw [List.filterMap_cons]
  simp [h]

/-- An answer that nobody waits for is one too many. -/
theorem OneAnswerEach.lt {line : Text} {place : LinePlace}
    (hone : OneAnswerEach (log ++ [.line line place])) (hfin : isFinalResponse line = true) :
    (answers log).length < sents log := by
  have hle := hone _ List.prefix_rfl
  rw [answers_append, sents_append, answers_line hfin, List.length_append] at hle
  exact hle

/-- A command that returns without an error has a final line. -/
theorem exists_final_of_err {r : AtRequest} {p : ATResponse}
    (hloop : p.finalResponse ≠ none ∨ s.readerClosed = true) (herr : (s.outcome r p).err = 0) :
    ∃ line, p.finalResponse = some line := by
  apply Option.ne_none_iff_exists'.mp
  apply hloop.resolve_right
  intro hclosed
  rw [Channel.outcome, hclosed] at herr
  cases herr

/-- **One step**: a command raises the one count, its answer the other.  When a command returns the
two agree again. -/
theorem AnsweredInv.step [DecidableEq ι] {label : Option (ChannelEvent ι)}
    (h : AnsweredInv log s.final?) (hs : ChannelStep onReaderClosed s label s')
    (hnone : NoneRefused (log ++ label.toList)) (hone : OneAnswerEach (log ++ label.toList))
    (hzero : ∀ i r res, ChannelEvent.returned i r res ∈ label → res.err = 0) :
    AnsweredInv (log ++ label.toList) s'.final? := by
  cases hs with
  | @pending i r _ _ =>
    exact absurd (List.mem_append_right log List.mem_cons_self) (hnone i r)
  | closed _ hpending _ =>
    rw [Channel.final?, hpending] at h
    exact h.snoc rfl rfl
  | unwritten _ hpending _ =>
    rw [Channel.final?, hpending] at h
    exact h.snoc rfl rfl
  | @send i r _ hpending _ =>
    rw [Channel.final?, hpending] at h
    have hcount : (answers log).length = sents log := h
    show (answers (log ++ [.sent i r])).length + 1 = sents (log ++ [.sent i r])
    rw [answers_append, sents_append, List.length_append, hcount]
    rfl
  | @line line _ _ hplace =>
    rw [final?_processLine hplace]
    cases hfin : isFinalResponse line with
    | false => exact h.snoc (answers_line_of_not hfin) rfl
    | true =>
      -- nobody waits, so everything has been answered
      have hidle : s.spResponse = none := by
        by_contra hpending
        exact hplace ((place_eq_final_iff s line).mpr ⟨hpending, hfin⟩)
      rw [Channel.final?, hidle] at h
      have hcount : (answers log).length = sents log := h
      exact absurd hcount (hone.lt hfin).ne
  | @final _ line _ _ hplace hsignal =>
    have hfinal : s'.final? = (s.processLine line).final? := by
      rw [Channel.final?, hsignal.frame.1]
      rfl
    obtain ⟨-, hfin⟩ := (place_eq_final_iff s line).mp hplace
    have hlt := hone.lt hfin
    rw [hfinal, final?_processLine_of_final hplace]
    show (answers (log ++ [.line line .final])).length = sents (log ++ [.line line .final]) ∧
      (answers (log ++ [.line line .final])).getLast? = some line
    rw [answers_append, sents_append, answers_line hfin, List.length_append,
      List.getLast?_concat]
    refine ⟨?_, rfl⟩
    -- the response had no final line, or the answer would be the second
    unfold AnsweredInv at h
    split at h
    · omega
    · exact h
    · omega
  | smsBegins _ _ => exact h.snoc rfl rfl
  | sms _ => exact h.snoc rfl rfl
  | ended _ _ => exact (List.append_nil log).symm ▸ h
  | endedCloses _ _ hsignal =>
    have hfinal : s'.final? = s.final? := by rw [Channel.final?, hsignal.frame.1]; rfl
    exact hfinal ▸ (List.append_nil log).symm ▸ h
  | close hsignal =>
    have hfinal : s'.final? = s.final? := by rw [Channel.final?, hsignal.frame.1]; rfl
    exact hfinal ▸ (List.append_nil log).symm ▸ h
  | spurious _ => exact (List.append_nil log).symm ▸ h
  | waitAgain _ _ _ => exact (List.append_nil log).symm ▸ h
  | @finish i r p _ hp hloop =>
    obtain ⟨line, hline⟩ := exists_final_of_err hloop (hzero i r _ rfl)
    rw [Channel.final?, hp, Option.map_some, hline] at h
    have hdone : AnsweredInv log none := h.1
    exact hdone.snoc rfl rfl
  | @timeout i r _ _ =>
    have herr : (-4 : ℤ) = 0 := hzero i r _ rfl
    cases herr

/-- **While no command times out, each gets the final response to itself**: when the n-th command
returns, n answers have come in, and its final response is the last of them.  The modem gives one
final line for each command, and no command is sent while another one is pending. -/
theorem own_answers [DecidableEq ι] {s₀ : Channel ι}
    (hrun : Trace (ChannelStep onReaderClosed) s₀ log s) (hidle : s₀.spResponse = none)
    (hnone : NoneRefused log) (hone : OneAnswerEach log)
    (hzero : ∀ i r res, ChannelEvent.returned i r res ∈ log → res.err = 0)
    {before after : List (ChannelEvent ι)} {i : ι} {r : AtRequest} {res : AtOutcome}
    (hlog : log = before ++ .returned i r res :: after) :
    (answers before).length = sents before ∧
      ∃ line, (answers before).getLast? = some line ∧
        ∀ p, res.ppOutResponse = some (some p) → p.finalResponse = some line := by
  subst hlog
  -- the account of the answers is kept along the run up to the return
  obtain ⟨s₁, s₂, hbefore, hstep, -⟩ := hrun.exists_step
  have hinv : NoneRefused before → OneAnswerEach before →
      (∀ i r res, ChannelEvent.returned i r res ∈ before → res.err = 0) →
      AnsweredInv before s₁.final? := by
    refine hbefore.log_invariant (fun log s => NoneRefused log → OneAnswerEach log →
      (∀ i r res, ChannelEvent.returned i r res ∈ log → res.err = 0) →
      AnsweredInv log s.final?) ?_ ?_
    · intro log s label s' ih hs hnone hone hzero
      have h := ih hnone.of_append (fun log' hpre => hone log' (hpre.trans (List.prefix_append ..)))
        fun i r res hmem => hzero i r res (List.mem_append_left _ hmem)
      apply h.step hs hnone hone
      intro i r res hmem
      exact hzero i r res (List.mem_append_right _ (Option.mem_toList.mpr hmem))
    · intro _ _ _
      rw [Channel.final?, hidle]
      rfl
  have h := hinv hnone.of_append (fun log' hpre => hone log' (hpre.trans (List.prefix_append ..)))
    fun i r res hmem => hzero i r res (List.mem_append_left _ hmem)
  -- the return is that of a command that was answered, so its response is there
  have herr := hzero i r res (by simp)
  cases hstep with
  | @finish _ _ p _ hp hloop =>
    obtain ⟨line, hline⟩ := exists_final_of_err hloop herr
    rw [Channel.final?, hp, Option.map_some, hline] at h
    refine ⟨h.1, line, h.2, ?_⟩
    intro q hq
    obtain ⟨_, _, heq⟩ := Option.map_eq_some_iff.mp hq
    cases heq
    exact hline
  -- a command that has timed out returns an error
  | timeout _ _ => cases herr

/-- A bare command on an idle channel gets the `OK` that comes behind it. -/
theorem own_answers_bareCommand :
    (answers [ChannelEvent.sent () bareCommand, .line "OK".toList .final]).length =
        sents [ChannelEvent.sent () bareCommand, .line "OK".toList .final] ∧
      ∃ line, (answers [ChannelEvent.sent () bareCommand, .line "OK".toList .final]).getLast? =
          some line ∧
        ∀ p, bareOutcome.ppOutResponse = some (some p) → p.finalResponse = some line := by
  have hall : ∀ log' ∈ [ChannelEvent.sent () bareCommand, .line "OK".toList .final,
      .returned () bareCommand bareOutcome].inits, (answers log').length ≤ sents log' := by
    decide
  have hlog : [ChannelEvent.sent () bareCommand, .line "OK".toList .final,
      .returned () bareCommand bareOutcome] =
      [.sent () bareCommand, .line "OK".toList .final] ++
        .returned () bareCommand bareOutcome :: [] := rfl
  refine own_answers trace_bareCommand rfl ?_ ?_ ?_ hlog
  · intro i r
    simp
  · intro log' hpre
    exact hall log' ((List.mem_inits log' _).mpr hpre)
  · intro i r res hmem
    obtain ⟨-, rfl⟩ : r = bareCommand ∧ res = bareOutcome := by simpa using hmem
    rfl

end RadioHal
