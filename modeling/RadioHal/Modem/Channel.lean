import Mathlib.Logic.Function.Basic
import Mathlib.Data.List.Induction
import RadioHal.Lib.Steps
import RadioHal.Modem.AtChannel

/-!
# The threads of the AT channel

One thread reads lines and puts them into `sp_response`; the threads that send commands wait for it
on `s_commandcond`.  They share `s_commandmutex`, which a thread that waits has given back, and
nothing keeps two of them from sending: `s_writeMutex` is never locked.

## Main definitions

* `Channel` — the static variables, the reader, and where each of the command threads is.
* `Channel.place`, `Channel.processLine` — what becomes of a line.
* `ChannelStep` — what one of the threads does while it holds the mutex.
* `NoneRefused` — no command met another one that was pending.
* `ChannelInv` — the thread that waits, and the lines that its response is made of.

## Main results

* `ChannelInv.step` — a step keeps the account of the lines.
* `command_answered` — **a command returns what the lines read since it was sent make of it**, as
  long as no command is refused because another one is pending.
* `channel_safe_iff` — **the response a thread looks at is there, whatever the others do, exactly
  when there is one command thread at most.**
-/

namespace RadioHal

open CLib

/-! ### The source -/

/-- The arguments of `at_send_command_full`, with the time limit in milliseconds. -/
structure AtRequest where
  command : Text
  type : ATCommandType
  /-- `responsePrefix`; a null pointer, which comes with types that have no use for it, is empty. -/
  responsePrefix : Text
  smspdu : Option Text
  /-- `0` for a command that waits for ever. -/
  timeoutMsec : ℕ
  /-- `pp_outResponse`, and what it points to. -/
  ppOutResponse : Option (Option ATResponse)
  deriving DecidableEq, Repr

/-- What `at_send_command_full` returns, and what `pp_outResponse` points to then. -/
structure AtOutcome where
  err : ℤ
  ppOutResponse : Option (Option ATResponse)
  deriving DecidableEq, Repr

/-- Where a command thread is: it has no command, or waits on `s_commandcond`, or has been woken and
comes back to the head of the loop as soon as it gets the mutex. -/
inductive CommandThread
  | idle
  | waiting (r : AtRequest)
  | woken (r : AtRequest)
  deriving DecidableEq, Repr

/-- Where `readerLoop` is: at the first line or the second of an SMS, or at its end. -/
inductive ReaderThread
  | running
  | sms (line₁ : Text)
  | ended
  deriving DecidableEq, Repr

/-- The AT channel, with a command thread for each `i : ι`. -/
structure Channel (ι : Type) where
  spResponse : Option ATResponse
  type : ATCommandType
  responsePrefix : Text
  smsPDU : Option Text
  readerClosed : Bool
  /-- `s_fd` is not `-1`. -/
  fdOpen : Bool
  reader : ReaderThread
  threads : ι → CommandThread

/-- The command that a thread waits for, or has been woken from waiting for. -/
def CommandThread.command : CommandThread → Option AtRequest
  | idle => none
  | waiting r => some r
  | woken r => some r

/-- What becomes of a line: where it goes is decided by the pending command. -/
inductive LinePlace
  | unsolicited | final | prompt | intermediate
  deriving DecidableEq, Repr

variable {ι : Type}

namespace Channel

/-- The channel behind `at_open`: no command is pending, and the reader thread runs. -/
def opened (ι : Type) : Channel ι :=
  ⟨none, .noResult, [], none, false, true, .running, fun _ => .idle⟩

/-- `clearPendingCommand`. -/
def clearPendingCommand (s : Channel ι) : Channel ι :=
  { s with spResponse := none, responsePrefix := [], smsPDU := none }

/-- The `switch` of `processLine`: the line is an intermediate one of the command. -/
def isIntermediate (type : ATCommandType) (responsePrefix : Text) (r : ATResponse) (line : Text) :
    Bool :=
  match type with
  | .noResult => false
  | .numeric => r.pIntermediates.isEmpty && line.head?.any isdigit
  | .singleline => r.pIntermediates.isEmpty && strStarts line responsePrefix
  | .multiline => strStarts line responsePrefix

/-- Where `processLine` puts a line.  Without a pending response every line is unsolicited. -/
def place (s : Channel ι) (line : Text) : LinePlace :=
  match s.spResponse with
  | none => .unsolicited
  | some r =>
    if isFinalResponse line then .final
    else if s.smsPDU.isSome && line == "> ".toList then .prompt
    else if isIntermediate s.type s.responsePrefix r line then .intermediate
    else .unsolicited

/-- `processLine`; an unsolicited line goes to the handler. -/
def processLine (s : Channel ι) (line : Text) : Channel ι :=
  match s.place line with
  | .unsolicited => s
  | .final => { s with spResponse := s.spResponse.map fun r =>
      { r with success := isFinalResponseSuccess line, finalResponse := some line } }
  | .prompt => { s with smsPDU := none }
  | .intermediate => { s with spResponse := s.spResponse.map (·.addIntermediate line) }

/-- A command is written, and waits for its response. -/
def pend [DecidableEq ι] (s : Channel ι) (i : ι) (r : AtRequest) : Channel ι :=
  { s with
    spResponse := some atResponseNew, type := r.type, responsePrefix := r.responsePrefix
    smsPDU := r.smspdu, threads := Function.update s.threads i (.waiting r) }

/-- A thread comes to another place of `at_send_command_full`. -/
def setThread [DecidableEq ι] (s : Channel ι) (i : ι) (t : CommandThread) : Channel ι :=
  { s with threads := Function.update s.threads i t }

/-- The end of `at_send_command_full_nolock` behind its loop. -/
def outcome (s : Channel ι) (r : AtRequest) (p : ATResponse) : AtOutcome :=
  ⟨if s.readerClosed then -3 else 0, r.ppOutResponse.map fun _ => some p.reverseIntermediates⟩

/-- `pthread_cond_signal`: one of the threads that wait is woken, if there is one. -/
inductive Signals [DecidableEq ι] (s : Channel ι) : Channel ι → Prop
  | wake {i : ι} {r : AtRequest} (hwaits : s.threads i = .waiting r) :
      Signals s (s.setThread i (.woken r))
  | nobody (hnone : ∀ i r, s.threads i ≠ .waiting r) : Signals s s

end Channel

/-- What a step does for all to see. -/
inductive ChannelEvent (ι : Type)
  /-- A command is written. -/
  | sent (i : ι) (r : AtRequest)
  /-- A command returns at once, with an error. -/
  | refused (i : ι) (r : AtRequest) (e : AtError)
  /-- A line comes in. -/
  | line (line : Text) (place : LinePlace)
  /-- The first line of an SMS comes in. -/
  | smsBegins (line₁ : Text)
  /-- The second one comes in, and both go to the handler. -/
  | sms (line₁ line₂ : Text)
  /-- A command that has waited returns. -/
  | returned (i : ι) (r : AtRequest) (res : AtOutcome)

/-- What one of the threads does while it holds the mutex; `onReaderClosed` says whether
`at_set_on_reader_closed` was called. -/
inductive ChannelStep [DecidableEq ι] (onReaderClosed : Bool) :
    Channel ι → Option (ChannelEvent ι) → Channel ι → Prop
  /-- Another command is pending; the way out clears it. -/
  | pending {s : Channel ι} {i : ι} {r : AtRequest} (hidle : s.threads i = .idle)
      (hpending : s.spResponse ≠ none) :
      ChannelStep onReaderClosed s (some (.refused i r .commandPending)) s.clearPendingCommand
  | closed {s : Channel ι} {i : ι} {r : AtRequest} (hidle : s.threads i = .idle)
      (hpending : s.spResponse = none) (hclosed : s.fdOpen = false ∨ s.readerClosed = true) :
      ChannelStep onReaderClosed s (some (.refused i r .channelClosed)) s.clearPendingCommand
  /-- `write` fails. -/
  | unwritten {s : Channel ι} {i : ι} {r : AtRequest} (hidle : s.threads i = .idle)
      (hpending : s.spResponse = none) (hopen : s.fdOpen = true ∧ s.readerClosed = false) :
      ChannelStep onReaderClosed s (some (.refused i r .generic)) s.clearPendingCommand
  | send {s : Channel ι} {i : ι} {r : AtRequest} (hidle : s.threads i = .idle)
      (hpending : s.spResponse = none) (hopen : s.fdOpen = true ∧ s.readerClosed = false) :
      ChannelStep onReaderClosed s (some (.sent i r)) (s.pend i r)
  | line {s : Channel ι} {line : Text} (hrunning : s.reader = .running)
      (hsms : isSMSUnsolicited line = false) (hplace : s.place line ≠ .final) :
      ChannelStep onReaderClosed s (some (.line line (s.place line))) (s.processLine line)
  /-- `handleFinalResponse` signals. -/
  | final {s s' : Channel ι} {line : Text} (hrunning : s.reader = .running)
      (hsms : isSMSUnsolicited line = false) (hplace : s.place line = .final)
      (hsignal : (s.processLine line).Signals s') :
      ChannelStep onReaderClosed s (some (.line line .final)) s'
  | smsBegins {s : Channel ι} {line₁ : Text} (hrunning : s.reader = .running)
      (hsms : isSMSUnsolicited line₁ = true) :
      ChannelStep onReaderClosed s (some (.smsBegins line₁)) { s with reader := .sms line₁ }
  | sms {s : Channel ι} {line₁ line₂ : Text} (hsms : s.reader = .sms line₁) :
      ChannelStep onReaderClosed s (some (.sms line₁ line₂)) { s with reader := .running }
  /-- There are no more lines, and `onReaderClosed` has nothing to do. -/
  | ended {s : Channel ι} (hreader : s.reader ≠ .ended)
      (hdone : onReaderClosed = false ∨ s.readerClosed = true) :
      ChannelStep onReaderClosed s none { s with reader := .ended }
  /-- There are no more lines, and `onReaderClosed` signals. -/
  | endedCloses {s s' : Channel ι} (hreader : s.reader ≠ .ended)
      (hopen : onReaderClosed = true ∧ s.readerClosed = false)
      (hsignal : Channel.Signals { s with reader := .ended, readerClosed := true } s') :
      ChannelStep onReaderClosed s none s'
  /-- `at_close`. -/
  | close {s s' : Channel ι}
      (hsignal : Channel.Signals { s with fdOpen := false, readerClosed := true } s') :
      ChannelStep onReaderClosed s none s'
  /-- A thread may be woken by nothing at all. -/
  | spurious {s : Channel ι} {i : ι} {r : AtRequest} (hwaits : s.threads i = .waiting r) :
      ChannelStep onReaderClosed s none (s.setThread i (.woken r))
  /-- The head of the loop: there is no final response yet. -/
  | waitAgain {s : Channel ι} {i : ι} {r : AtRequest} {p : ATResponse}
      (hwoken : s.threads i = .woken r) (hp : s.spResponse = some p)
      (hloop : p.finalResponse = none ∧ s.readerClosed = false) :
      ChannelStep onReaderClosed s none (s.setThread i (.waiting r))
  /-- The loop is left. -/
  | finish {s : Channel ι} {i : ι} {r : AtRequest} {p : ATResponse}
      (hwoken : s.threads i = .woken r) (hp : s.spResponse = some p)
      (hloop : p.finalResponse ≠ none ∨ s.readerClosed = true) :
      ChannelStep onReaderClosed s (some (.returned i r (s.outcome r p)))
        (s.clearPendingCommand.setThread i .idle)
  /-- The time is over, woken or not. -/
  | timeout {s : Channel ι} {i : ι} {r : AtRequest}
      (hwaits : s.threads i = .waiting r ∨ s.threads i = .woken r) (htime : r.timeoutMsec ≠ 0) :
      ChannelStep onReaderClosed s (some (.returned i r ⟨-4, r.ppOutResponse⟩))
        (s.clearPendingCommand.setThread i .idle)

/-! ### The account of the lines -/

/-- No command has met another one that was pending. -/
def NoneRefused (log : List (ChannelEvent ι)) : Prop :=
  ∀ i r, ChannelEvent.refused i r .commandPending ∉ log

/-- Neither the beginning of a command that waits, nor its end. -/
def ChannelEvent.Between : ChannelEvent ι → Prop
  | sent _ _ => False
  | returned _ _ _ => False
  | _ => True

/-- The lines that a pending command gets to see: all but those of an SMS, and the prompts. -/
def takenLines (log : List (ChannelEvent ι)) : List Text :=
  log.filterMap fun
    | .line line place => if place = .prompt then none else some line
    | _ => none

/-- The answer of the dialogue is made of these lines. -/
def AtAnswer.TakesLines (lines : List Text) : AtAnswer → Prop
  | .refused _ => False
  | .closed lines' => lines' = lines
  | .delivered d => d.lines = lines

/-- What a command returns on an answer. -/
def AtRequest.outcome (r : AtRequest) (a : AtAnswer) : AtOutcome :=
  ⟨(a.result r.type r.responsePrefix none).err,
    r.ppOutResponse.map fun before => (a.result r.type r.responsePrefix before).response⟩

/-- The thread that waits, and what its response is made of: the lines that came in since its
command was sent. -/
structure Pending (log : List (ChannelEvent ι)) (s : Channel ι) (i : ι) (r : AtRequest) : Prop where
  lines : ∃ before since, log = before ++ .sent i r :: since ∧ (∀ e ∈ since, e.Between) ∧
    s.spResponse =
      some ((takenLines since).foldl (processLine r.type r.responsePrefix) atResponseNew) ∧
    ∀ line ∈ takenLines since, isSMSUnsolicited line = false
  type_eq : s.type = r.type
  prefix_eq : s.responsePrefix = r.responsePrefix

/-- One thread waits, and its response is pending, or none does, and there is none. -/
structure ChannelInv (log : List (ChannelEvent ι)) (s : Channel ι) : Prop where
  unique : ∀ i j, (s.threads i).command ≠ none → (s.threads j).command ≠ none → i = j
  pending : ∀ i r, (s.threads i).command = some r → Pending log s i r
  idle : (∀ i, (s.threads i).command = none) → s.spResponse = none

/-- What the dialogue makes of a line, by the place it goes to. -/
theorem processLine_eq (type : ATCommandType) (responsePrefix : Text) (r : ATResponse)
    (line : Text) : processLine type responsePrefix r line =
      if isFinalResponse line then
        { r with success := isFinalResponseSuccess line, finalResponse := some line }
      else if Channel.isIntermediate type responsePrefix r line then r.addIntermediate line
      else r := by
  unfold processLine isFinalResponse
  cases isFinalResponseSuccess line with
  | true => rfl
  | false =>
    cases isFinalResponseError line with
    | true => rfl
    | false =>
      cases type with
      | noResult => rfl
      | numeric => simp [Channel.isIntermediate]
      | singleline => simp [Channel.isIntermediate]
      | multiline => rfl

/-- A line is put into the response as the dialogue has it, unless it is a prompt. -/
theorem spResponse_processLine (s : Channel ι) (line : Text) :
    (s.processLine line).spResponse = if s.place line = .prompt then s.spResponse
      else s.spResponse.map fun r => processLine s.type s.responsePrefix r line := by
  simp only [processLine_eq]
  unfold Channel.processLine Channel.place
  cases hr : s.spResponse with
  | none => exact hr
  | some r =>
    dsimp only
    cases isFinalResponse line with
    | true => rfl
    | false =>
      cases s.smsPDU.isSome && line == "> ".toList with
      | true => simp
      | false =>
        by_cases hplace : Channel.isIntermediate s.type s.responsePrefix r line = true
        · simp [hplace]
        · simp [hplace, hr]

section Account

variable {log : List (ChannelEvent ι)} {s s' : Channel ι} {i : ι} {r : AtRequest}

/-- A step that the account does not see. -/
structure SameAccount (s s' : Channel ι) : Prop where
  commands : ∀ i, (s'.threads i).command = (s.threads i).command
  spResponse : s'.spResponse = s.spResponse
  type : s'.type = s.type
  responsePrefix : s'.responsePrefix = s.responsePrefix

/-- A thread that waits or is woken keeps its command. -/
theorem sameAccount_setThread [DecidableEq ι] {t : CommandThread}
    (h : t.command = (s.threads i).command) : SameAccount s (s.setThread i t) := by
  refine ⟨?_, rfl, rfl, rfl⟩
  intro j
  show (Function.update s.threads i t j).command = _
  by_cases hj : j = i
  · subst hj
    rw [Function.update_self, h]
  · rw [Function.update_of_ne hj]

theorem Channel.Signals.sameAccount [DecidableEq ι] (h : s.Signals s') : SameAccount s s' := by
  cases h with
  | wake hwaits =>
    apply sameAccount_setThread
    rw [hwaits]
    rfl
  | nobody _ => exact ⟨fun _ => rfl, rfl, rfl, rfl⟩

theorem takenLines_append (log log' : List (ChannelEvent ι)) :
    takenLines (log ++ log') = takenLines log ++ takenLines log' :=
  List.filterMap_append ..

theorem takenLines_line (line : Text) (place : LinePlace) :
    takenLines [ChannelEvent.line (ι := ι) line place] =
      if place = .prompt then [] else [line] := by
  cases place <;> rfl

/-- The account goes on with a line that comes in, or with anything that is not of its kind. -/
theorem Pending.snoc {e : ChannelEvent ι} (h : Pending log s i r) (he : e.Between)
    (hsms : ∀ line ∈ takenLines [e], isSMSUnsolicited line = false)
    (hresponse : s'.spResponse = s.spResponse.map fun p =>
      (takenLines [e]).foldl (processLine s.type s.responsePrefix) p)
    (htype : s'.type = s.type) (hwanted : s'.responsePrefix = s.responsePrefix) :
    Pending (log ++ [e]) s' i r := by
  obtain ⟨before, since, rfl, hbetween, hp, hlines⟩ := h.lines
  refine ⟨⟨before, since ++ [e], ?_, ?_, ?_, ?_⟩, htype.trans h.type_eq, hwanted.trans h.prefix_eq⟩
  · rw [List.append_assoc, List.cons_append]
  · rw [List.forall_mem_append, List.forall_mem_singleton]
    exact ⟨hbetween, he⟩
  · rw [hresponse, hp, h.type_eq, h.prefix_eq, takenLines_append, List.foldl_append]
    rfl
  · rw [takenLines_append, List.forall_mem_append]
    exact ⟨hlines, hsms⟩

namespace ChannelInv

/-- Without a response no thread waits. -/
theorem command_eq_none (h : ChannelInv log s) (hnone : s.spResponse = none) (i : ι) :
    (s.threads i).command = none := by
  cases hi : (s.threads i).command with
  | none => rfl
  | some r =>
    obtain ⟨_, _, -, -, hp, -⟩ := (h.pending i r hi).lines
    rw [hnone] at hp
    cases hp

/-- The account goes on where the threads keep their commands. -/
theorem snoc {e : ChannelEvent ι} (h : ChannelInv log s) (he : e.Between)
    (hcommands : ∀ i, (s'.threads i).command = (s.threads i).command)
    (hsms : ∀ line ∈ takenLines [e], isSMSUnsolicited line = false)
    (hresponse : s'.spResponse = s.spResponse.map fun p =>
      (takenLines [e]).foldl (processLine s.type s.responsePrefix) p)
    (htype : s'.type = s.type) (hwanted : s'.responsePrefix = s.responsePrefix) :
    ChannelInv (log ++ [e]) s' := by
  constructor
  · intro i j hi hj
    rw [hcommands] at hi hj
    exact h.unique i j hi hj
  · intro i r hi
    rw [hcommands] at hi
    exact (h.pending i r hi).snoc he hsms hresponse htype hwanted
  · intro hidle
    rw [hresponse, h.idle (fun i => by rw [← hcommands, hidle])]
    rfl

/-- A silent step that the account does not see. -/
theorem of_same (h : ChannelInv log s) (hsame : SameAccount s s') : ChannelInv log s' := by
  constructor
  · intro i j hi hj
    rw [hsame.commands] at hi hj
    exact h.unique i j hi hj
  · intro i r hi
    rw [hsame.commands] at hi
    obtain ⟨hlines, htype, hwanted⟩ := h.pending i r hi
    rw [← hsame.spResponse] at hlines
    exact ⟨hlines, hsame.type.trans htype, hsame.responsePrefix.trans hwanted⟩
  · intro hidle
    rw [hsame.spResponse, h.idle fun i => by rw [← hsame.commands, hidle]]

/-- Where nobody waits there is nothing to keep but that. -/
theorem of_idle (hidle : ∀ i, (s.threads i).command = none) (hnone : s.spResponse = none) :
    ChannelInv log s := by
  constructor
  · intro i j hi
    exact absurd (hidle i) hi
  · intro i r hi
    rw [hidle] at hi
    cases hi
  · intro _
    exact hnone

/-- A line comes in, and the account of the pending command grows by it. -/
theorem line {line : Text} (h : ChannelInv log s) (hsms : isSMSUnsolicited line = false) :
    ChannelInv (log ++ [.line line (s.place line)]) (s.processLine line) := by
  have hkeep : (s.processLine line).threads = s.threads ∧ (s.processLine line).type = s.type ∧
      (s.processLine line).responsePrefix = s.responsePrefix := by
    unfold Channel.processLine
    split <;> exact ⟨rfl, rfl, rfl⟩
  refine h.snoc trivial (fun i => by rw [hkeep.1]) ?_ ?_ hkeep.2.1 hkeep.2.2
  · intro line' hline'
    rw [takenLines_line] at hline'
    split at hline'
    · cases hline'
    · obtain rfl := List.mem_singleton.mp hline'
      exact hsms
  · rw [spResponse_processLine, takenLines_line]
    split
    · simp
    · rfl

theorem returned [DecidableEq ι] (h : ChannelInv log s) (hi : (s.threads i).command = some r)
    (log' : List (ChannelEvent ι)) :
    ChannelInv log' (s.clearPendingCommand.setThread i .idle) := by
  refine of_idle ?_ rfl
  intro j
  show (Function.update s.threads i .idle j).command = none
  by_cases hj : j = i
  · subst hj
    rw [Function.update_self]
    rfl
  · rw [Function.update_of_ne hj]
    by_contra hbusy
    exact hj (h.unique j i hbusy (by rw [hi]; exact Option.some_ne_none r))

/-- **One step** keeps the account, unless it refuses a command because of another one. -/
theorem step [DecidableEq ι] {onReaderClosed : Bool} {label : Option (ChannelEvent ι)}
    (h : ChannelInv log s) (hs : ChannelStep onReaderClosed s label s')
    (hnone : NoneRefused (log ++ label.toList)) : ChannelInv (log ++ label.toList) s' := by
  cases hs with
  | @pending i r hidle hpending =>
    -- excluded: no command is refused because of another one
    exact absurd (List.mem_append_right log List.mem_cons_self) (hnone i r)
  -- without a pending response nobody waits, and so it stays
  | closed hidle hpending _ => exact of_idle (h.command_eq_none hpending) rfl
  | unwritten hidle hpending _ => exact of_idle (h.command_eq_none hpending) rfl
  | @send i r hidle hpending _ =>
    -- nobody waits, so the thread is the only one
    have hothers := h.command_eq_none hpending
    have hthread : ∀ j, ((s.pend i r).threads j).command = if j = i then some r else none := by
      intro j
      show (Function.update s.threads i (.waiting r) j).command = _
      by_cases hj : j = i
      · subst hj
        rw [Function.update_self, if_pos rfl]
        rfl
      · rw [Function.update_of_ne hj, if_neg hj, hothers]
    constructor
    · intro j k hj hk
      rw [hthread] at hj hk
      have hji : j = i := by simpa using hj
      have hki : k = i := by simpa using hk
      rw [hji, hki]
    · intro j r' hj
      rw [hthread] at hj
      split at hj
      · next hji =>
        obtain rfl := Option.some.inj hj
        subst hji
        exact ⟨⟨log, [], rfl, by simp, rfl, by simp [takenLines]⟩, rfl, rfl⟩
      · cases hj
    · intro hidle'
      have hi := hidle' i
      rw [hthread, if_pos rfl] at hi
      cases hi
  | line hrunning hsms hplace => exact h.line hsms
  | final hrunning hsms hplace hsignal =>
    -- the signal moves a thread, and leaves the account as it is
    have hline := h.line hsms
    rw [hplace] at hline
    exact hline.of_same hsignal.sameAccount
  | smsBegins hrunning hsms =>
    -- neither line of an SMS is taken for the response
    exact h.snoc trivial (fun _ => rfl) (by simp [takenLines]) (by simp [takenLines]) rfl rfl
  | sms hsms =>
    exact h.snoc trivial (fun _ => rfl) (by simp [takenLines]) (by simp [takenLines]) rfl rfl
  | ended hreader hdone =>
    -- the end of the stream brings no line
    have hsame : SameAccount s { s with reader := .ended } := ⟨fun _ => rfl, rfl, rfl, rfl⟩
    simpa using h.of_same hsame
  | endedCloses hreader hopen hsignal =>
    have hsame : SameAccount s { s with reader := .ended, readerClosed := true } :=
      ⟨fun _ => rfl, rfl, rfl, rfl⟩
    simpa using (h.of_same hsame).of_same hsignal.sameAccount
  | close hsignal =>
    have hsame : SameAccount s { s with fdOpen := false, readerClosed := true } :=
      ⟨fun _ => rfl, rfl, rfl, rfl⟩
    simpa using (h.of_same hsame).of_same hsignal.sameAccount
  | spurious hwaits =>
    -- a thread goes on within its command
    simpa using h.of_same (sameAccount_setThread (by rw [hwaits]; rfl))
  | waitAgain hwoken hp hloop =>
    simpa using h.of_same (sameAccount_setThread (by rw [hwoken]; rfl))
  | finish hwoken hp hloop => exact h.returned (by rw [hwoken]; rfl) _
  | @timeout i r hwaits htime =>
    have hi : (s.threads i).command = some r := by
      rcases hwaits with hwaits | hwoken
      · rw [hwaits]
        rfl
      · rw [hwoken]
        rfl
    exact h.returned hi _

end ChannelInv

end Account

/-! ### Runs -/

section Runs

variable {onReaderClosed : Bool} {log : List (ChannelEvent ι)} {s : Channel ι}

theorem channelInv_opened : ChannelInv [] (Channel.opened ι) :=
  ChannelInv.of_idle (fun _ => rfl) rfl

theorem NoneRefused.of_append {log' : List (ChannelEvent ι)} (h : NoneRefused (log ++ log')) :
    NoneRefused log :=
  fun i r hmem => h i r (List.mem_append_left log' hmem)

/-- The account is right along every run in which no command is refused as another one is pending.
-/
theorem channelInv_of_trace [DecidableEq ι]
    (hrun : Trace (ChannelStep onReaderClosed) (Channel.opened ι) log s) :
    NoneRefused log → ChannelInv log s := by
  refine hrun.log_invariant (fun log s => NoneRefused log → ChannelInv log s) ?_ ?_
  · intro log s label s' ih hs hnone
    exact (ih hnone.of_append).step hs hnone
  · intro _
    exact channelInv_opened

/-- A response has a final line when one of the lines is final. -/
theorem exists_final_of_foldl {type : ATCommandType} {responsePrefix : Text} {lines : List Text}
    (h : (lines.foldl (processLine type responsePrefix) atResponseNew).finalResponse ≠ none) :
    ∃ line ∈ lines, isFinalResponse line = true := by
  induction lines using List.reverseRecOn with
  | nil => exact absurd rfl h
  | append_singleton lines line ih =>
    rw [List.foldl_append, List.foldl_cons, List.foldl_nil, processLine_eq] at h
    cases hfin : isFinalResponse line with
    | true => exact ⟨line, by simp, hfin⟩
    | false =>
      have hinit : (lines.foldl (processLine type responsePrefix) atResponseNew).finalResponse ≠
          none := by
        rw [hfin] at h
        simp only [Bool.false_eq_true, if_false] at h
        split at h
        · exact h
        · exact h
      obtain ⟨line', hmem, hline'⟩ := ih hinit
      exact ⟨line', List.mem_append_left _ hmem, hline'⟩

/-- Without an SMS among them, `readerLoop` hands on all lines. -/
theorem readerLoop_eq_self {lines : List Text}
    (h : ∀ line ∈ lines, isSMSUnsolicited line = false) : readerLoop lines = lines := by
  induction lines with
  | nil => rfl
  | cons line lines ih =>
    obtain ⟨hline, hlines⟩ := List.forall_mem_cons.mp h
    rw [readerLoop_cons hline, ih hlines]

end Runs

/-- **A command returns what the lines read since it was sent make of it**, as an answer of the
dialogue does, or that its time is over; this holds as long as no command is refused because another
one is pending. -/
theorem command_answered [DecidableEq ι] {onReaderClosed : Bool} {log : List (ChannelEvent ι)}
    {s : Channel ι} (hrun : Trace (ChannelStep onReaderClosed) (Channel.opened ι) log s)
    (hnone : NoneRefused log) {before after : List (ChannelEvent ι)} {i : ι} {r : AtRequest}
    {res : AtOutcome} (hlog : log = before ++ .returned i r res :: after) :
    ∃ earlier since, before = earlier ++ .sent i r :: since ∧ (∀ e ∈ since, e.Between) ∧
      ((r.timeoutMsec ≠ 0 ∧ res = ⟨-4, r.ppOutResponse⟩) ∨
        ∃ a : AtAnswer, a.TakesLines (takenLines since) ∧ res = r.outcome a) := by
  subst hlog
  -- the account at the moment of the return tells what has come in since the sending
  obtain ⟨s₁, s₂, hbefore, hstep, -⟩ := hrun.exists_step
  have hinv := channelInv_of_trace hbefore hnone.of_append
  cases hstep with
  | @finish _ _ p hwoken hp hloop =>
    obtain ⟨⟨earlier, since, hsplit, hbetween, hresponse, hsms⟩, htype, hwanted⟩ :=
      hinv.pending i r (by rw [hwoken]; rfl)
    refine ⟨earlier, since, hsplit, hbetween, Or.inr ?_⟩
    rw [hp] at hresponse
    obtain rfl := Option.some.inj hresponse
    have hself : response r.type r.responsePrefix (takenLines since) =
        (takenLines since).foldl (processLine r.type r.responsePrefix) atResponseNew := by
      rw [response, readerLoop_eq_self hsms]
    -- the loop was left because the channel is closed, or because the final line is there
    cases hclosed : s₁.readerClosed with
    | true =>
      refine ⟨.closed (takenLines since), rfl, ?_⟩
      unfold Channel.outcome AtRequest.outcome AtAnswer.result
      dsimp only
      rw [hclosed, hself]
      rfl
    | false =>
      have hfinal : ∃ line ∈ readerLoop (takenLines since), isFinalResponse line = true := by
        rw [readerLoop_eq_self hsms]
        apply exists_final_of_foldl
        exact hloop.resolve_right (by rw [hclosed]; decide)
      refine ⟨.delivered ⟨takenLines since, hfinal⟩, rfl, ?_⟩
      unfold Channel.outcome AtRequest.outcome AtAnswer.result
      dsimp only
      rw [hclosed, hself]
      rfl
  | timeout hwaits htime =>
    -- a time-out returns whatever response there is by then
    have hi : (s₁.threads i).command = some r := by
      rcases hwaits with hwaits | hwoken
      · rw [hwaits]
        rfl
      · rw [hwoken]
        rfl
    obtain ⟨⟨earlier, since, hsplit, hbetween, -, -⟩, -, -⟩ := hinv.pending i r hi
    exact ⟨earlier, since, hsplit, hbetween, Or.inl ⟨htime, rfl⟩⟩

/-- A command that asks for nothing but a final response. -/
def bareCommand : AtRequest := ⟨"AT".toList, .noResult, [], none, 0, some none⟩

/-- What a bare command returns when the modem answers `OK`. -/
def bareOutcome : AtOutcome := ⟨0, some (some ⟨true, some "OK".toList, []⟩)⟩

/-- The channel while the command waits, and when the thread is woken by `OK`. -/
def bareWaits : Channel Unit := (Channel.opened Unit).pend () bareCommand

def bareWoken : Channel Unit :=
  (bareWaits.processLine "OK".toList).setThread () (.woken bareCommand)

theorem trace_bareCommand : Trace (ChannelStep false) (Channel.opened Unit)
    [.sent () bareCommand, .line "OK".toList .final,
      .returned () bareCommand bareOutcome]
    (bareWoken.clearPendingCommand.setThread () .idle) := by
  have hsend : ChannelStep false (Channel.opened Unit) (some (.sent () bareCommand)) bareWaits :=
    ChannelStep.send rfl rfl ⟨rfl, rfl⟩
  have hline : ChannelStep false bareWaits (some (.line "OK".toList .final)) bareWoken :=
    ChannelStep.final rfl (by decide) (by decide) (Channel.Signals.wake rfl)
  have hfinish : ChannelStep false bareWoken
      (some (.returned () bareCommand (bareWoken.outcome bareCommand ⟨true, some "OK".toList, []⟩)))
      (bareWoken.clearPendingCommand.setThread () .idle) :=
    ChannelStep.finish rfl rfl (Or.inl (by decide))
  exact ((Trace.single hsend).snoc hline).snoc hfinish

theorem command_answered_bareCommand :
    ∃ earlier since, [.sent () bareCommand, .line "OK".toList .final] =
        earlier ++ ChannelEvent.sent () bareCommand :: since ∧ (∀ e ∈ since, e.Between) ∧
      ((bareCommand.timeoutMsec ≠ 0 ∧ bareOutcome = ⟨-4, bareCommand.ppOutResponse⟩) ∨
        ∃ a : AtAnswer, a.TakesLines (takenLines since) ∧ bareOutcome = bareCommand.outcome a) := by
  have hlog : [ChannelEvent.sent () bareCommand, .line "OK".toList .final,
      .returned () bareCommand bareOutcome] =
      [.sent () bareCommand, .line "OK".toList .final] ++
        .returned () bareCommand bareOutcome :: [] := rfl
  refine command_answered trace_bareCommand ?_ hlog
  intro i r
  simp

/-! ### More than one command thread -/

/-- The thread is about to look at `sp_response->finalResponse`, and there is no response. -/
def Channel.FollowsNull (s : Channel ι) (i : ι) : Prop :=
  (∃ r, s.threads i = .woken r) ∧ s.spResponse = none

section Threads

variable [DecidableEq ι] {onReaderClosed : Bool} {log : List (ChannelEvent ι)} {s : Channel ι}

/-- The only command thread never meets a command that is pending. -/
theorem noneRefused_of_subsingleton [Subsingleton ι]
    (hrun : Trace (ChannelStep onReaderClosed) (Channel.opened ι) log s) :
    ChannelInv log s ∧ NoneRefused log := by
  refine hrun.log_invariant (fun log s => ChannelInv log s ∧ NoneRefused log) ?_ ?_
  · intro log s label s' ⟨hinv, hnone⟩ hs
    have hnew : NoneRefused (log ++ label.toList) := by
      intro i r hmem
      rcases List.mem_append.mp hmem with hmem | hmem
      · exact hnone i r hmem
      · obtain rfl : label = some (.refused i r .commandPending) := by simpa using hmem
        cases hs with
        | pending hidle hpending =>
          apply hpending
          apply hinv.idle
          intro j
          rw [Subsingleton.elim j i, hidle]
          rfl
    exact ⟨hinv.step hs hnew, hnew⟩
  · exact ⟨channelInv_opened, fun i r hmem => absurd hmem List.not_mem_nil⟩

/-- A command for which no answer is wanted. -/
def AtRequest.plain (command : Text) : AtRequest := ⟨command, .noResult, [], none, 0, none⟩

/-- With two threads the second one may take away the response the first one waits for. -/
theorem exists_followsNull (onReaderClosed : Bool) {i j : ι} (hij : j ≠ i) :
    ∃ log s, Trace (ChannelStep onReaderClosed) (Channel.opened ι) log s ∧ s.FollowsNull i := by
  -- the first thread sends, the second one is refused, and the channel is closed
  have hsend : ChannelStep onReaderClosed (Channel.opened ι) _ _ :=
    ChannelStep.send (i := i) (r := .plain []) rfl rfl ⟨rfl, rfl⟩
  have hrefuse : ChannelStep onReaderClosed ((Channel.opened ι).pend i (.plain [])) _ _ :=
    ChannelStep.pending (i := j) (r := .plain []) (Function.update_of_ne hij _ _)
      (Option.some_ne_none _)
  have hwaits : ((Channel.opened ι).pend i (.plain [])).threads i = .waiting (.plain []) :=
    Function.update_self ..
  have hclose : ChannelStep onReaderClosed
      ((Channel.opened ι).pend i (.plain [])).clearPendingCommand _ _ :=
    ChannelStep.close (Channel.Signals.wake (i := i) hwaits)
  refine ⟨_, _, ((Trace.single hsend).snoc hrefuse).snoc hclose, ⟨.plain [], ?_⟩, rfl⟩
  exact Function.update_self ..

end Threads

/-- **The response a thread looks at is there, whatever the others do, exactly when there is one
command thread at most.** With two of them the second command is refused as the first one is
pending, and clears the response of the first. -/
theorem channel_safe_iff [DecidableEq ι] (onReaderClosed : Bool) :
    (∀ log s, Trace (ChannelStep onReaderClosed) (Channel.opened ι) log s →
      ∀ i, ¬ s.FollowsNull i) ↔ Subsingleton ι := by
  constructor
  · intro hsafe
    refine ⟨fun i j => ?_⟩
    by_contra hij
    obtain ⟨log, s, hrun, hnull⟩ := exists_followsNull onReaderClosed hij
    exact hsafe log s hrun j hnull
  · intro hone log s hrun i ⟨⟨r, hwoken⟩, hnull⟩
    have hcommand := (noneRefused_of_subsingleton hrun).1.command_eq_none hnull i
    rw [hwoken] at hcommand
    cases hcommand

end RadioHal
