import RadioHal.Common.Radio
import RadioHal.Lib.Dialogue
import RadioHal.Modem.AtTok

/-!
# The AT channel

A command is written to the modem, and the reader thread hands in the lines that come back until
a final response is among them.  The thread that waits for the command wakes up some time after
the final response; lines that come in meanwhile are still processed into the same response.

## Main definitions

* `ATResponse`, `processLine`, `readerLoop` — the response, and what the reader thread makes of
  the lines.
* `AtAnswer` — what comes of one command: a refusal, a closed channel, or a `Delivery` of lines
  with a final response among them.
* `ModemQ`, `ModemM` — what the modem HAL asks of its surroundings, and programs that ask it.
* `atSendCommand`, `atSendCommandSingleline`, `atSendCommandMultiline` — the ways to send.
* `atGetCmeError` — the error code of a response.

## Main results

* `singleline_of_response` — a successful single-line command has its line.
-/

namespace RadioHal

open CLib Dialogue

/-! ### Responses -/

/-- `ATCommandType`. -/
inductive ATCommandType
  | noResult | numeric | singleline | multiline
  deriving DecidableEq, Repr

/-- `ATResponse`. -/
structure ATResponse where
  success : Bool
  finalResponse : Option Text
  pIntermediates : List Text
  deriving DecidableEq, Repr

/-- `at_response_new`. -/
def atResponseNew : ATResponse := ⟨false, none, []⟩

/-- `s_finalResponsesError`. -/
def finalResponsesError : List Text :=
  ["ERROR".toList, "+CMS ERROR:".toList, "+CME ERROR:".toList, "NO CARRIER".toList,
    "NO ANSWER".toList, "NO DIALTONE".toList]

/-- `isFinalResponseError`. -/
def isFinalResponseError (line : Text) : Bool := finalResponsesError.any (strStarts line)

/-- `s_finalResponsesSuccess`. -/
def finalResponsesSuccess : List Text := ["OK".toList, "CONNECT".toList]

/-- `isFinalResponseSuccess`. -/
def isFinalResponseSuccess (line : Text) : Bool := finalResponsesSuccess.any (strStarts line)

/-- `isFinalResponse`. -/
def isFinalResponse (line : Text) : Bool := isFinalResponseSuccess line || isFinalResponseError line

/-- `s_smsUnsoliciteds`. -/
def smsUnsoliciteds : List Text := ["+CMT:".toList, "+CDS:".toList, "+CBM:".toList]

/-- `isSMSUnsolicited`. -/
def isSMSUnsolicited (line : Text) : Bool := smsUnsoliciteds.any (strStarts line)

/-- `addIntermediate`.  The new line becomes the head of the list, so the lines stand in reverse. -/
def ATResponse.addIntermediate (r : ATResponse) (line : Text) : ATResponse :=
  { r with pIntermediates := line :: r.pIntermediates }

/-- `processLine` while a command is pending; a line that goes to `handleUnsolicited` leaves the
response as it is.  The commands of the HAL carry no SMS, so there is no prompt to answer. -/
def processLine (type : ATCommandType) (responsePrefix : Text) (r : ATResponse) (line : Text) :
    ATResponse :=
  if isFinalResponseSuccess line then { r with success := true, finalResponse := some line }
  else if isFinalResponseError line then { r with success := false, finalResponse := some line }
  else
    match type with
    | .noResult => r
    | .numeric =>
      if r.pIntermediates = [] ∧ line.head?.any isdigit = true then r.addIntermediate line else r
    | .singleline =>
      if r.pIntermediates = [] ∧ strStarts line responsePrefix = true then r.addIntermediate line
      else r
    | .multiline => if strStarts line responsePrefix then r.addIntermediate line else r

/-- The lines `readerLoop` hands to `processLine`: a line that announces an SMS goes to the
unsolicited handler, together with the line behind it. -/
def readerLoop : List Text → List Text
  | [] => []
  | [line] => if isSMSUnsolicited line then [] else [line]
  | line₁ :: line₂ :: rest =>
    if isSMSUnsolicited line₁ then readerLoop rest else line₁ :: readerLoop (line₂ :: rest)

theorem readerLoop_cons {line : Text} (h : isSMSUnsolicited line = false) (rest : List Text) :
    readerLoop (line :: rest) = line :: readerLoop rest := by
  cases rest with
  | nil =>
    show (if isSMSUnsolicited line then [] else [line]) = [line]
    rw [h]
    rfl
  | cons line₂ rest => rw [readerLoop, h]; rfl

theorem readerLoop_sms {line₁ : Text} (h : isSMSUnsolicited line₁ = true) (line₂ : Text)
    (rest : List Text) : readerLoop (line₁ :: line₂ :: rest) = readerLoop rest := by
  rw [readerLoop, h]
  rfl

/-- `sp_response` once the reader thread has gone through the lines. -/
def response (type : ATCommandType) (responsePrefix : Text) (lines : List Text) : ATResponse :=
  (readerLoop lines).foldl (processLine type responsePrefix) atResponseNew

/-- `reverseIntermediates`: back to the order the lines came in. -/
def ATResponse.reverseIntermediates (r : ATResponse) : ATResponse :=
  { r with pIntermediates := r.pIntermediates.reverse }

/-! ### What comes of a command -/

/-- The errors that leave `*pp_outResponse` alone: the command was not sent, or not written. -/
inductive AtError
  | generic | commandPending | channelClosed | invalidThread
  deriving DecidableEq, Repr

/-- The `AT_ERROR_…` code, which is negative for all of them. -/
def AtError.code : AtError → ℤ
  | generic => -1
  | commandPending => -2
  | channelClosed => -3
  | invalidThread => -5

/-- The lines of an answer, up to the moment the waiting thread takes the response. -/
structure Delivery where
  /-- The lines, in order. -/
  lines : List Text
  /-- A final response is among those processed. -/
  final : ∃ line ∈ readerLoop lines, isFinalResponse line = true

/-- What comes of one command, as the modem HAL sees it. -/
inductive AtAnswer
  /-- The command was refused. -/
  | refused (e : AtError)
  /-- The channel was closed behind these lines. -/
  | closed (lines : List Text)
  /-- The modem answered. -/
  | delivered (d : Delivery)

/-- The return value of a send function, and what `*pp_outResponse` holds then. -/
structure AtResult where
  err : ℤ
  response : Option ATResponse

/-- The end of `at_send_command_full_nolock`.  `before` is what `*pp_outResponse` held. -/
def AtAnswer.result (type : ATCommandType) (responsePrefix : Text) (before : Option ATResponse) :
    AtAnswer → AtResult
  | refused e => ⟨e.code, before⟩
  | closed lines => ⟨-3, some (RadioHal.response type responsePrefix lines).reverseIntermediates⟩
  | delivered d =>
    ⟨0, some (RadioHal.response type responsePrefix d.lines).reverseIntermediates⟩

/-- The check of `at_send_command_singleline`: a successful command must have its line. -/
def AtResult.checkIntermediates (r : AtResult) : AtResult :=
  match r.response with
  | none => r
  | some p =>
    if r.err = 0 ∧ p.success = true ∧ p.pIntermediates = [] then ⟨-6, none⟩ else r

/-! ### Programs of the modem HAL -/

/-- A program started by `popen`: what it writes, and its exit status. -/
structure Process where
  output : Text
  exitStatus : ℤ
  deriving DecidableEq, Repr

/-- What the modem HAL asks of its surroundings. -/
inductive ModemQ
  /-- An AT command. -/
  | atCommand (command : Text) (type : ATCommandType) (responsePrefix : Text)
  /-- The value of a local variable that has not been assigned. -/
  | uninit
  | sleep (seconds : ℕ)
  | popen (cmd : Text)
  /-- The next message of the event pipe. -/
  | readEvent
  /-- A read through a null pointer. -/
  | nullDeref
  deriving DecidableEq, Repr

/-- The answers: `popen` and the pipe may fail, and nothing comes back from a null pointer. -/
@[reducible] def ModemA : ModemQ → Type
  | .atCommand _ _ _ => AtAnswer
  | .uninit => ℤ
  | .sleep _ => Unit
  | .popen _ => Option Process
  | .readEvent => Option RadioHalMsgBuffer
  | .nullDeref => Empty

/-- Programs of the modem HAL: they ask what the modem, the system and the memory decide. -/
abbrev ModemM : Type → Type := Dialogue ModemQ ModemA

/-- A pointer is followed.  Where it is null the program goes no further. -/
def deref {α : Type} : Option α → ModemM α
  | some a => ret a
  | none => ask .nullDeref fun e => nomatch (e : Empty)

/-- `at_send_command_full`. -/
def atSendCommandFull (command : Text) (type : ATCommandType) (responsePrefix : Text)
    (ppOutResponse : Option ATResponse) : ModemM AtResult := do
  let answer ← query (ModemQ.atCommand command type responsePrefix)
  return AtAnswer.result type responsePrefix ppOutResponse answer

/-- `at_send_command`. -/
def atSendCommand (command : Text) (ppOutResponse : Option ATResponse) : ModemM AtResult :=
  atSendCommandFull command .noResult [] ppOutResponse

/-- `at_send_command_singleline`. -/
def atSendCommandSingleline (command responsePrefix : Text) (ppOutResponse : Option ATResponse) :
    ModemM AtResult := do
  let r ← atSendCommandFull command .singleline responsePrefix ppOutResponse
  return r.checkIntermediates

/-- `at_send_command_multiline`. -/
def atSendCommandMultiline (command responsePrefix : Text) (ppOutResponse : Option ATResponse) :
    ModemM AtResult :=
  atSendCommandFull command .multiline responsePrefix ppOutResponse

/-- `at_get_cme_error`; `-1` is `CME_ERROR_NON_CME`, `0` is `CME_SUCCESS`. -/
def atGetCmeError (p : ATResponse) : ℤ :=
  if p.success then 0
  else
    match p.finalResponse with
    | none => -1
    | some line =>
      if strStarts line "+CME ERROR:".toList = false then -1
      else if (atTokStart (some line)).1 < 0 then -1
      else
        let tok := atTokNextint (atTokStart (some line)).2 0
        if tok.1 < 0 then -1 else tok.2.1

/-- `p_response->p_intermediates->line`. -/
def firstIntermediate (r : Option ATResponse) : ModemM Text := do
  let p ← deref r
  deref p.pIntermediates.head?

section Sending

variable {α : Type} (command responsePrefix : Text) (pp : Option ATResponse)

@[simp] theorem deref_some (a : α) : (deref (some a) : ModemM α) = ret a := rfl

@[simp] theorem atSendCommand_bind (f : AtResult → ModemM α) :
    (atSendCommand command pp >>= f) =
      ask (ModemQ.atCommand command .noResult []) fun a =>
        f (AtAnswer.result .noResult [] pp a) :=
  rfl

@[simp] theorem atSendCommandSingleline_bind (f : AtResult → ModemM α) :
    (atSendCommandSingleline command responsePrefix pp >>= f) =
      ask (ModemQ.atCommand command .singleline responsePrefix) fun a =>
        f (AtAnswer.result .singleline responsePrefix pp a).checkIntermediates :=
  rfl

@[simp] theorem atSendCommandMultiline_bind (f : AtResult → ModemM α) :
    (atSendCommandMultiline command responsePrefix pp >>= f) =
      ask (ModemQ.atCommand command .multiline responsePrefix) fun a =>
        f (AtAnswer.result .multiline responsePrefix pp a) :=
  rfl

end Sending

/-- A command that does not fail leaves a response. -/
theorem exists_response_of_nonneg {type : ATCommandType} {responsePrefix : Text}
    {pp : Option ATResponse} {a : AtAnswer} (h : ¬ (a.result type responsePrefix pp).err < 0) :
    ∃ p, (a.result type responsePrefix pp).response = some p := by
  cases a with
  | refused e =>
    have hneg : e.code < 0 := by cases e <;> decide
    exact absurd hneg h
  | closed lines => exact ⟨_, rfl⟩
  | delivered d => exact ⟨_, rfl⟩

/-- The response to a single-line command, where there is one to look at: the modem answered,
and a success came with its line. -/
def singlelineResponse (responsePrefix : Text) : AtAnswer → Option ATResponse
  | .refused _ => none
  | .closed _ => none
  | .delivered d =>
    let p := (response .singleline responsePrefix d.lines).reverseIntermediates
    if p.success = true ∧ p.pIntermediates = [] then none else some p

/-- Without a response to look at, a single-line command fails. -/
theorem singleline_err_neg {responsePrefix : Text} {a : AtAnswer} (pp : Option ATResponse)
    (h : singlelineResponse responsePrefix a = none) :
    (a.result .singleline responsePrefix pp).checkIntermediates.err < 0 := by
  cases a with
  | refused e =>
    -- the error code itself is returned, and none of them is `0`
    have hneg : e.code < 0 := by cases e <;> decide
    unfold AtAnswer.result AtResult.checkIntermediates
    cases pp with
    | none => exact hneg
    | some p =>
      dsimp only
      rw [if_neg (fun hz => absurd hz.1 hneg.ne)]
      exact hneg
  | closed lines =>
    show (AtResult.checkIntermediates ⟨-3, some _⟩).err < 0
    unfold AtResult.checkIntermediates
    dsimp only
    rw [if_neg (fun hz => absurd hz.1 (by decide))]
    exact (by decide : (-3 : ℤ) < 0)
  | delivered d =>
    unfold singlelineResponse at h
    dsimp only at h
    split at h
    · next hempty =>
      unfold AtAnswer.result AtResult.checkIntermediates
      dsimp only
      rw [if_pos ⟨rfl, hempty⟩]
      decide
    · exact absurd h (by simp)

/-- **With a response to look at, a single-line command returns it.**  It reports no error, and a
response that is a success has a line. -/
theorem singleline_of_response {responsePrefix : Text} {a : AtAnswer} {p : ATResponse}
    (pp : Option ATResponse) (h : singlelineResponse responsePrefix a = some p) :
    (a.result .singleline responsePrefix pp).checkIntermediates = ⟨0, some p⟩ ∧
      (p.success = true → p.pIntermediates ≠ []) := by
  cases a with
  | refused e => exact absurd h (by simp [singlelineResponse])
  | closed lines => exact absurd h (by simp [singlelineResponse])
  | delivered d =>
    unfold singlelineResponse at h
    dsimp only at h
    split at h
    · exact absurd h (by simp)
    · next hline =>
      obtain rfl := Option.some.inj h
      refine ⟨?_, fun hs hnil => hline ⟨hs, hnil⟩⟩
      unfold AtAnswer.result AtResult.checkIntermediates
      dsimp only
      rw [if_neg (fun hz => hline hz.2)]

end RadioHal
