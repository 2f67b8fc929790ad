import RadioHal.Lib.Lines
import RadioHal.Modem.AtChannel

/-!
# Writing to the modem

`writeline` writes a command and then a carriage return, and `writeCtrlZ` the text of a message and
then a Ctrl-Z, in as many calls of `write` as it takes.  A call that fails ends them where they are.
What has been written by then stays on the line, and the next text goes behind it.

## Main definitions

* `WriteResult`, `WriteStage` — what `write` returns, and how far the writing has come.
* `writeText`, `writeline`, `writeCtrlZ` — the return value, and what is on the line afterwards.
* `Writer`, `WriteCall`, `wire` — calls of the two functions, and all that they write.
* `WriteCall.CutShort` — a text that was not written to its end.

## Main results

* `writeText_cases` — a text is written whole, with its end, or some of it is.
* `complete_wire` — the texts the modem reads.
* `commands_on_wire_iff` — **the modem reads the texts that were written, and no others, exactly
  when none of them was written behind one that was cut short.**
-/

namespace RadioHal

open CLib

/-! ### The source -/

/-- What `write` returns: a number of bytes, `EINTR`, or another error. -/
inductive WriteResult
  | wrote (n : ℕ)
  | interrupted
  | failed
  deriving DecidableEq, Repr

/-- How far the writing of a text has come. -/
inductive WriteStage
  /-- The main string is written from `cur` on. -/
  | sending (cur : ℕ)
  /-- The character behind it is written. -/
  | ending
  | done (err : ℤ)
  deriving DecidableEq, Repr

/-- The head of the loop over the main string. -/
def WriteStage.behind (s : Text) (cur : ℕ) : WriteStage :=
  if cur < s.length then .sending cur else .ending

/-- One call of `write`: where it leads, and what it writes. -/
def WriteStage.next (s : Text) (last : Char) : WriteStage → WriteResult → WriteStage × Text
  | sending cur, .wrote n => (behind s (cur + n), (s.drop cur).take n)
  | sending cur, .interrupted => (sending cur, [])
  | sending _, .failed => (done AtError.generic.code, [])
  | ending, .wrote 0 => (ending, [])
  | ending, .wrote (_ + 1) => (done 0, [last])
  | ending, .interrupted => (ending, [])
  | ending, .failed => (done AtError.generic.code, [])
  | done err, _ => (done err, [])

/-- What is returned, once there is nothing left to do. -/
def WriteStage.result? : WriteStage → Option ℤ
  | done err => some err
  | _ => none

/-- The calls of `write` from some stage on: the return value, and what they write; `none` where the
results are not those of the calls that are made. -/
def writeLoop (s : Text) (last : Char) : List WriteResult → WriteStage → Option (ℤ × Text)
  | [], stage => stage.result?.map fun err => (err, [])
  | r :: rest, stage =>
    if stage.result? = none then
      (writeLoop s last rest (stage.next s last r).1).map fun x =>
        (x.1, (stage.next s last r).2 ++ x.2)
    else none

/-- A text and the character behind it; `closed` is `s_fd < 0 || s_readerClosed > 0`. -/
def writeText (last : Char) (closed : Bool) (s : Text) (results : List WriteResult) :
    Option (ℤ × Text) :=
  writeLoop s last results (if closed then .done AtError.channelClosed.code else .behind s 0)

/-- `writeline`. -/
def writeline : Bool → Text → List WriteResult → Option (ℤ × Text) := writeText '\r'

/-- `writeCtrlZ`. -/
def writeCtrlZ : Bool → Text → List WriteResult → Option (ℤ × Text) := writeText '\x1a'

/-! ### What is written -/

section Written

variable {s sent : Text} {last : Char} {stage : WriteStage} {results : List WriteResult} {err : ℤ}

/-- What is left of the main string. -/
def WriteStage.left (s : Text) : WriteStage → Text
  | sending cur => s.drop cur
  | _ => []

theorem WriteStage.left_behind (s : Text) (cur : ℕ) : (behind s cur).left s = s.drop cur := by
  unfold behind
  split
  · rfl
  · next h => exact (List.drop_eq_nil_of_le (by omega)).symm

theorem WriteStage.result?_behind (s : Text) (cur : ℕ) : (behind s cur).result? = none := by
  unfold behind
  split
  · rfl
  · rfl

/-- One call writes some of what is left, or is the last one. -/
theorem WriteStage.next_cases (hstage : stage.result? = none) (r : WriteResult) :
    ((stage.next s last r).1.result? = none ∧
        stage.left s = (stage.next s last r).2 ++ (stage.next s last r).1.left s) ∨
      stage.next s last r = (done AtError.generic.code, []) ∨
      stage.left s = [] ∧ stage.next s last r = (done 0, [last]) := by
  cases stage with
  | sending cur =>
    cases r with
    | wrote n =>
      refine Or.inl ⟨result?_behind s _, ?_⟩
      show s.drop cur = (s.drop cur).take n ++ (behind s (cur + n)).left s
      rw [left_behind, ← List.drop_drop, List.take_append_drop]
    | interrupted => exact Or.inl ⟨rfl, rfl⟩
    | failed => exact Or.inr (Or.inl rfl)
  | ending =>
    cases r with
    | wrote n =>
      cases n with
      | zero => exact Or.inl ⟨rfl, rfl⟩
      | succ n => exact Or.inr (Or.inr ⟨rfl, rfl⟩)
    | interrupted => exact Or.inl ⟨rfl, rfl⟩
    | failed => exact Or.inr (Or.inl rfl)
  | done err => cases hstage

/-- Nothing is written once the return value is known. -/
theorem writeLoop_done (h : writeLoop s last results (.done err) = some (e, sent)) :
    e = err ∧ sent = [] := by
  cases results with
  | nil =>
    cases h
    exact ⟨rfl, rfl⟩
  | cons r results => cases h

/-- **What is left is written whole, with its end, or some of it is.**  The call returns zero in the
first case only. -/
theorem writeLoop_cases (hstage : stage.result? = none)
    (h : writeLoop s last results stage = some (err, sent)) :
    (err = 0 ∧ sent = stage.left s ++ [last]) ∨ (err ≠ 0 ∧ sent <+: stage.left s) := by
  induction results generalizing stage sent with
  | nil =>
    rw [writeLoop, hstage] at h
    cases h
  | cons r results ih =>
    rw [writeLoop, if_pos hstage] at h
    obtain ⟨⟨e, rest⟩, hrest, hx⟩ := Option.map_eq_some_iff.mp h
    obtain ⟨rfl, rfl⟩ := Prod.mk.inj hx
    rcases WriteStage.next_cases hstage r with ⟨hnext, hleft⟩ | hfailed | ⟨hleft, hlast⟩
    · rw [hleft]
      rcases ih hnext hrest with ⟨he, rfl⟩ | ⟨he, hbegin⟩
      · exact Or.inl ⟨he, (List.append_assoc ..).symm⟩
      · exact Or.inr ⟨he, (List.prefix_append_right_inj _).mpr hbegin⟩
    · rw [hfailed] at hrest ⊢
      obtain ⟨rfl, rfl⟩ := writeLoop_done hrest
      exact Or.inr ⟨by decide, List.nil_prefix⟩
    · rw [hlast] at hrest ⊢
      obtain ⟨rfl, rfl⟩ := writeLoop_done hrest
      rw [hleft]
      exact Or.inl ⟨rfl, rfl⟩

/-- **A text is written whole, with its end, or some of it is**, as the return value tells. -/
theorem writeText_cases {closed : Bool} (h : writeText last closed s results = some (err, sent)) :
    (err = 0 ∧ sent = s ++ [last]) ∨ (err ≠ 0 ∧ sent <+: s) := by
  unfold writeText at h
  cases closed with
  | true =>
    obtain ⟨rfl, rfl⟩ := writeLoop_done h
    exact Or.inr ⟨by decide, List.nil_prefix⟩
  | false =>
    have hcases := writeLoop_cases (WriteStage.result?_behind s 0) h
    rwa [WriteStage.left_behind, List.drop_zero] at hcases

end Written

/-! ### One text behind the other -/

/-- The function that is called: `writeline` for a command, `writeCtrlZ` for the text of a message.
-/
inductive Writer
  | writeline
  | writeCtrlZ
  deriving DecidableEq, Repr

namespace Writer

def call : Writer → Bool → Text → List WriteResult → Option (ℤ × Text)
  | writeline => RadioHal.writeline
  | writeCtrlZ => RadioHal.writeCtrlZ

/-- The character that it writes behind the text. -/
def last : Writer → Char
  | writeline => '\r'
  | writeCtrlZ => '\x1a'

theorem call_eq (w : Writer) : w.call = writeText w.last := by
  cases w with
  | writeline => rfl
  | writeCtrlZ => rfl

end Writer

/-- A call that has come to its end. -/
structure WriteCall where
  writer : Writer
  closed : Bool
  /-- The command, or the text of the message. -/
  command : Text
  results : List WriteResult
  err : ℤ
  /-- What the call has written. -/
  sent : Text
  made : writer.call closed command results = some (err, sent)

/-- What a row of calls has written.  They hold the mutex, so none comes between another's parts. -/
def wire (calls : List WriteCall) : Text := (calls.map (·.sent)).flatten

/-- The texts that were written to their end. -/
def writtenCommands (calls : List WriteCall) : List Text :=
  (calls.filter fun c => c.err = 0).map (·.command)

/-- The text was not written to its end, and some of it is on the line. -/
def WriteCall.CutShort (c : WriteCall) : Prop := c.err ≠ 0 ∧ c.sent ≠ []

/-- A carriage return ends a command, and a Ctrl-Z the text of a message. -/
def endsText (c : Char) : Bool := c == '\r' || c == '\x1a'

/-- The texts that the modem reads, behind one that is on the line already. -/
def commandsRead : Text → List WriteCall → List Text
  | _, [] => []
  | before, c :: calls =>
    if c.err = 0 then (before ++ c.command) :: commandsRead [] calls
    else commandsRead (before ++ c.sent) calls

section Wire

variable {before : Text} {calls : List WriteCall}

/-- **The modem reads each text together with what stands in front of it**: the rest of the call
before, where that was cut short. -/
theorem complete_wire (hbefore : ∀ x ∈ before, endsText x = false)
    (hcommands : ∀ c ∈ calls, c.command ≠ [] ∧ ∀ x ∈ c.command, endsText x = false) :
    Lines.complete endsText (before ++ wire calls) = commandsRead before calls := by
  induction calls generalizing before with
  | nil =>
    rw [wire, List.map_nil, List.flatten_nil, List.append_nil]
    exact Lines.complete_of_forall hbefore
  | cons c calls ih =>
    obtain ⟨⟨hne, hcommand⟩, hcalls⟩ := List.forall_mem_cons.mp hcommands
    have hwire : wire (c :: calls) = c.sent ++ wire calls := rfl
    rw [hwire, commandsRead]
    have hmade := c.made
    rw [Writer.call_eq] at hmade
    rcases writeText_cases hmade with ⟨herr, hsent⟩ | ⟨herr, hbegin⟩
    · -- the text is whole, so the modem reads it, and starts again behind it
      have hends : endsText c.writer.last = true := by
        cases c.writer with
        | writeline => decide
        | writeCtrlZ => decide
      have hline : ∀ x ∈ before ++ c.command, endsText x = false :=
        List.forall_mem_append.mpr ⟨hbefore, hcommand⟩
      have hlineNe : before ++ c.command ≠ [] := by simp [hne]
      have hcut : Lines.complete endsText ([] ++ wire calls) = commandsRead [] calls :=
        ih (by simp) hcalls
      rw [List.nil_append] at hcut
      rw [if_pos herr, hsent, ← List.append_assoc, ← List.append_assoc,
        Lines.complete_append (Lines.atStart_concat hends),
        Lines.complete_line hlineNe hline hends, hcut, List.singleton_append]
    · -- what was written of it stands in front of the next text
      rw [if_neg herr, ← List.append_assoc]
      apply ih _ hcalls
      exact List.forall_mem_append.mpr ⟨hbefore, fun x hx => hcommand x (hbegin.subset hx)⟩

/-- What the modem reads is what was written when nothing stands in front of a text. -/
theorem commandsRead_eq_iff : commandsRead before calls = writtenCommands calls ↔
    (before = [] ∨ ∀ d ∈ calls, d.err ≠ 0) ∧
      calls.Pairwise fun c d => c.CutShort → d.err ≠ 0 := by
  induction calls generalizing before with
  | nil => simp [commandsRead, writtenCommands]
  | cons c calls ih =>
    rw [commandsRead, List.pairwise_cons]
    by_cases herr : c.err = 0
    -- a whole text is read as it was written when nothing stands in front of it
    · have hwritten : writtenCommands (c :: calls) = c.command :: writtenCommands calls := by
        simp [writtenCommands, herr]
      have hwhole : ¬ c.CutShort := fun h => h.1 herr
      rw [if_pos herr, hwritten, List.cons.injEq, ih]
      simp [herr, hwhole]
    -- of a text that failed, what was sent stands in front of the next one
    · have hwritten : writtenCommands (c :: calls) = writtenCommands calls := by
        simp [writtenCommands, herr]
      rw [if_neg herr, hwritten, ih, List.append_eq_nil_iff]
      unfold WriteCall.CutShort
      constructor
      · rintro ⟨hnone, hrest⟩
        refine ⟨?_, ?_, hrest⟩
        · exact hnone.imp (·.1) fun h => List.forall_mem_cons.mpr ⟨herr, h⟩
        · rintro d hd ⟨-, hsent⟩
          exact (hnone.resolve_left fun h => hsent h.2) d hd
      · rintro ⟨hnone, hshort, hrest⟩
        refine ⟨?_, hrest⟩
        by_cases hsent : c.sent = []
        · exact hnone.imp (⟨·, hsent⟩) fun h => (List.forall_mem_cons.mp h).2
        · exact Or.inr fun d hd => hshort d hd ⟨herr, hsent⟩

end Wire

/-- **The modem reads the texts that were written, and no others, exactly when none of them was
written behind one that was cut short.**  The texts are not empty, and hold neither of the
characters that end one. -/
theorem commands_on_wire_iff {calls : List WriteCall}
    (hcommands : ∀ c ∈ calls, c.command ≠ [] ∧ ∀ x ∈ c.command, endsText x = false) :
    Lines.complete endsText (wire calls) = writtenCommands calls ↔
      calls.Pairwise fun c d => c.CutShort → d.err ≠ 0 := by
  have hread : Lines.complete endsText ([] ++ wire calls) = commandsRead [] calls :=
    complete_wire (by simp) hcommands
  rw [List.nil_append] at hread
  rw [hread, commandsRead_eq_iff]
  simp

/-- The text of a message of which three bytes are written, and a command that is written whole
behind it. -/
def gluedCalls : List WriteCall :=
  [⟨.writeCtrlZ, false, "0011000C91".toList, [.wrote 3, .failed], -1, "001".toList, by decide⟩,
    ⟨.writeline, false, "AT+CFUN=1".toList, [.wrote 9, .interrupted, .wrote 1], 0,
      "AT+CFUN=1\r".toList, by decide⟩]

/-- A command that is written behind the text of a message that was cut short is read as one with
it. -/
theorem commands_on_wire_glued :
    Lines.complete endsText (wire gluedCalls) = ["001AT+CFUN=1".toList] ∧
      ¬ gluedCalls.Pairwise fun c d => c.CutShort → d.err ≠ 0 := by
  have hread : Lines.complete endsText (wire gluedCalls) = ["001AT+CFUN=1".toList] := by decide
  have hcommands : ∀ c ∈ gluedCalls, c.command ≠ [] ∧ ∀ x ∈ c.command, endsText x = false := by
    intro c hc
    simp only [gluedCalls, List.mem_cons, List.not_mem_nil, or_false] at hc
    rcases hc with rfl | rfl
    · exact ⟨by decide, by simp [endsText]⟩
    · exact ⟨by decide, by simp [endsText]⟩
  refine ⟨hread, fun hpair => ?_⟩
  have hwritten := (commands_on_wire_iff hcommands).mpr hpair
  rw [hread] at hwritten
  exact absurd hwritten (by decide)

end RadioHal
