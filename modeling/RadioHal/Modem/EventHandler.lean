import RadioHal.Common.Radio
import RadioHal.Lib.Dialogue
import RadioHal.Modem.Connect

/-!
# Lines the modem sends of its own accord

`at_event_handler` runs on the reader thread.  It makes a message of a line and writes it to the
pipe that the event loop reads.

## Main definitions

* `HandlerQ`, `HandlerM` — what the handler asks of its surroundings, and programs that ask it.
* `parseTechnologyResponse`, `atEventMessage` — the message of a line.
* `atEventHandler` — the handler.

## Main results

* `wp_atEventHandler` — **as long as `write` returns the size it wrote or `-1`, the handler reports
  nothing.**
-/

namespace RadioHal

open CLib Dialogue

/-- What the handler asks of its surroundings. -/
inductive HandlerQ
  /-- `1 << count`, for a count outside the width of an `int`. -/
  | shiftTooFar (count : ℤ)
  /-- `hal_err`, by its format. -/
  | halErr (format : Text)
  /-- `fcntl(…, F_GETFL)` -/
  | getFlags
  /-- `fcntl(…, F_SETFL, flags | O_NONBLOCK)` -/
  | setNonblock (flags : ℤ)
  /-- `write` to the pipe. -/
  | write (msg : RadioHalMsgBuffer)
  deriving DecidableEq

/-- The answers to the questions of the handler. -/
@[reducible] def HandlerA : HandlerQ → Type
  | .shiftTooFar _ => ℤ
  | .halErr _ => Unit
  | .getFlags => ℤ
  | .setNonblock _ => ℤ
  | .write _ => ℤ

/-- Programs of the handler, which asks for the flags of the pipe and writes to it. -/
abbrev HandlerM : Type → Type := Dialogue HandlerQ HandlerA

/-! ### The message -/

/-- `parse_technology_response`, where the caller does not ask for the preferred technology: `none`
for `-1`.  What it returns otherwise tells only whether a second number follows. -/
def parseTechnologyResponse (response : Text) : Option ℤ :=
  let start := atTokStart (some response)
  if start.1 ≠ 0 ∨ atTokHasmore start.2 = false then none
  else
    let ct := atTokNextint start.2 0
    if ct.1 ≠ 0 then none else some ct.2.1

/-- `1 << tech`; the bit of the sign is narrowed to the lowest `int`. -/
def techMask (tech : ℤ) : HandlerM ℤ :=
  if 0 ≤ tech ∧ tech < 32 then return toInt (2 ^ tech.toNat)
  else query (HandlerQ.shiftTooFar tech)

def knownMasks : List ℤ := [0x01, 0x04, 0x02, 0x10]

/-- The text is copied where `sizeof(mtext) > strlen(text) - 1`, a difference of `size_t`. -/
def RadioHalMsgBuffer.withText (msg : RadioHalMsgBuffer) (text : Text) : RadioHalMsgBuffer :=
  if sizeSub text.length 1 < 100 then { msg with mtext := CharArray.strncpy 100 text } else msg

/-- The message that the handler makes of a line, before it writes it to the pipe. -/
def atEventMessage (s : Text) : HandlerM RadioHalMsgBuffer := do
  let msg : RadioHalMsgBuffer := { RadioHalMsgBuffer.zero with sender := .modem }
  if strStarts s "%CTZV:".toList then
    let tok := atTokNextstr (atTokStart (some s)).2 none
    if tok.1 ≠ 0 then
      let _ ← query (HandlerQ.halErr "invalid NITZ line %s\n".toList)
      return msg
    else
      -- the token of a cursor that is not `NULL` is not `NULL` either
      return { msg.withText (tok.2.1.getD []) with event := ModemSystemEvent.nitzEvent.code }
  else if strStarts s "+CREG:".toList || strStarts s "+CGREG:".toList then
    return { msg.withText s with event := ModemSystemEvent.registrationEvent.code }
  else if strStarts s "+CGEV:".toList then
    return { msg.withText s with event := ModemSystemEvent.dataCallEvent.code }
  else if strStarts s "+CTEC: ".toList then
    match parseTechnologyResponse s with
    | none => return msg
    | some tech =>
      let mask ← techMask tech
      if mask ∈ knownMasks then
        return { msg.withText s with event := ModemSystemEvent.cellularTechEvent.code }
      else return msg
  else if strStarts s "+CFUN: 0".toList then
    return { msg.withText s with event := ModemSystemEvent.offEvent.code }
  else return { msg.withText s with event := ModemSystemEvent.noEvent.code }

/-! ### The handler -/

/-- The report of an error behind `write`. -/
abbrev writeError : HandlerQ := .halErr "Ret from write: %d\n".toList

/-- The write, and what the handler makes of its result. -/
def writeMessage (msg : RadioHalMsgBuffer) : HandlerM Unit := do
  let retval ← query (HandlerQ.write msg)
  if (retval : ℤ) = 0 then
    let _ ← query writeError

/-- `at_event_handler`. -/
def atEventHandler (s : Text) : HandlerM Unit := do
  let msg ← atEventMessage s
  let flags ← query HandlerQ.getFlags
  let retval ← query (HandlerQ.setNonblock flags)
  if (retval : ℤ) ≠ 0 then
    let _ ← query (HandlerQ.halErr "Ret from fcntl: %d\n".toList)
  writeMessage msg

/-! ### What the message asks -/

section Message

variable {P : HandlerQ → Prop}

theorem onlyAsks_techMask (hshift : ∀ n, P (.shiftTooFar n)) (tech : ℤ) :
    OnlyAsks P (techMask tech) := by
  unfold techMask
  split
  · trivial
  · exact ⟨hshift tech, fun _ => trivial⟩

theorem onlyAsks_atEventMessage (hshift : ∀ n, P (.shiftTooFar n))
    (hnitz : P (.halErr "invalid NITZ line %s\n".toList)) (s : Text) :
    OnlyAsks P (atEventMessage s) := by
  unfold atEventMessage
  dsimp only
  split
  · split
    · exact ⟨hnitz, fun _ => trivial⟩
    · trivial
  split
  · trivial
  split
  · trivial
  split
  · split
    · trivial
    · apply (onlyAsks_techMask hshift _).bind
      intro mask
      split
      · trivial
      · trivial
  split
  · trivial
  · trivial

end Message

/-! ### What is reported -/

/-- The surroundings in which `write` returns a size or `-1`. -/
def writeWorld : World HandlerQ HandlerA Unit := fun _ q =>
  match q with
  | .write _ => fun (retval : ℤ) _ => retval ≠ 0
  | _ => fun _ _ => True

/-- The questions other than the report of an error. -/
def HandlerQ.NoReport (q : HandlerQ) : Prop := q ≠ writeError

theorem noReport_fcntl : HandlerQ.NoReport (.halErr "Ret from fcntl: %d\n".toList) := by
  unfold HandlerQ.NoReport
  decide

theorem noReport_nitz : HandlerQ.NoReport (.halErr "invalid NITZ line %s\n".toList) := by
  unfold HandlerQ.NoReport
  decide

/-- **As long as `write` returns the size it wrote or `-1`, the handler reports nothing.**  The test
behind it asks for neither of them. -/
theorem wp_atEventHandler (s : Text) :
    wp writeWorld (fun _ q => q.NoReport) (fun _ _ => True) (atEventHandler s) () := by
  have hmsg : wp writeWorld (fun _ q => q.NoReport) (fun _ _ => True) (atEventMessage s) () :=
    wp_of_onlyAsks (fun _ => True)
      (onlyAsks_atEventMessage (by simp [HandlerQ.NoReport]) noReport_nitz s) (fun q _ h _ => h)
      (fun _ _ _ _ _ _ _ => trivial) trivial
  have hwrite : ∀ msg, wp writeWorld (fun _ q => q.NoReport) (fun _ _ => True)
      (writeMessage msg) () := by
    intro msg
    rw [writeMessage, query_bind, wp_ask]
    refine ⟨by simp [HandlerQ.NoReport], fun retval _ hretval => ?_⟩
    -- neither a size nor `-1` is zero
    have hne : (retval : ℤ) ≠ 0 := hretval
    rw [if_neg hne]
    trivial
  unfold atEventHandler
  rw [wp_bind]
  apply wp_consequence hmsg
  intro msg _ _
  rw [query_bind, wp_ask]
  refine ⟨by simp [HandlerQ.NoReport], fun flags _ _ => ?_⟩
  rw [query_bind, wp_ask]
  refine ⟨by simp [HandlerQ.NoReport], fun retval _ _ => ?_⟩
  split
  · exact ⟨noReport_fcntl, fun _ _ _ => hwrite msg⟩
  · exact hwrite msg

end RadioHal
