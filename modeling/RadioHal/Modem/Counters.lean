import RadioHal.Lib.LastWrite
import RadioHal.Modem.PinGuard

/-!
# The counters of a reply

`modem_hal_get_numretries` reads all lines of a reply into four locals and returns one of them.  A
line is taken for one of a facility when its facility begins with the letters of that one, a count
is narrowed to an `int`, and a local that no line has written is returned as it is.

## Main definitions

* `QpincEntry`, `qpincEntry` — the facility and the two counts of a line.
* `RilRequest.count` — the count of a line that a request asks for.
* `CounterRead` — what should be returned for a reply.
* `QpincReply`, `numretriesDialogue` — a reply, and the dialogue in which it comes.

## Main results

* `numretriesLoop_spec` — a local holds the last count stored in it.
* `counters_read_iff` — **counters are read, not guessed, exactly when the last line that is taken
  for the facility is there, is one of the facility, and its count is an `int`.**
-/

namespace RadioHal

open CLib Dialogue

/-! ### Lines -/

/-- The facility and the two counts of a line. -/
structure QpincEntry where
  facility : Text
  pin : ℤ
  puk : ℤ
  deriving DecidableEq, Repr

/-- A line read token by token, the counts before they are narrowed; `none` where it is not well
formed. -/
def qpincEntry (line : Text) : Option QpincEntry := do
  let rest ← (atTokStart (some line)).2
  let fac ← (nextTok (some rest)).1
  let pin ← nextLong (nextTok (some rest)).2
  let puk ← nextLong pin.2
  some ⟨fac, pin.1, puk.1⟩

/-- The facility of a request; that of PIN1 is `SC`, that of PIN2 is `P2`. -/
def RilRequest.facility : RilRequest → Option Text
  | .setFacilityLock => some "SC".toList
  | .enterSimPin => some "SC".toList
  | .changeSimPin => some "SC".toList
  | .enterSimPin2 => some "P2".toList
  | .changeSimPin2 => some "P2".toList
  | .enterSimPuk => some "SC".toList
  | .enterSimPuk2 => some "P2".toList
  | .other => none

/-- The one of the two counts a request asks for. -/
def QpincEntry.pick (e : QpincEntry) : RilRequest → ℤ
  | .enterSimPuk => e.puk
  | .enterSimPuk2 => e.puk
  | _ => e.pin

/-- The count of a line, where the line is one of the facility of the request.  Whether it is tells
`is`, from the facility of the line and the letters. -/
def RilRequest.count (request : RilRequest) (is : Text → Text → Bool) (line : Text) : Option ℤ := do
  let letters ← request.facility
  let e ← qpincEntry line
  if is e.facility letters then some (e.pick request) else none

/-- The loop goes on behind the line. -/
def lineRead (line : Text) : Bool :=
  (qpincEntry line).any fun e =>
    strStarts e.facility "SC".toList || strStarts e.facility "P2".toList

/-! ### What should be returned -/

/-- The last count of the facility of the request. -/
def lastCount (request : RilRequest) (is : Text → Text → Bool) (lines : List Text) : Option ℤ :=
  (lines.filterMap (request.count is)).getLast?

/-- **What should be returned for a reply**: a value that is not negative is the count of the last
line of the facility; otherwise it is `-1`. -/
def CounterRead (request : RilRequest) (lines : List Text) (v : ℤ) : Prop :=
  if 0 ≤ v then lastCount request (· == ·) lines = some v else v = -1

theorem counterRead_iff {request : RilRequest} {lines : List Text} {v : ℤ} :
    CounterRead request lines v ↔
      v = -1 ∨ 0 ≤ v ∧ lastCount request (· == ·) lines = some v := by
  unfold CounterRead
  split
  · constructor
    · intro h
      exact Or.inr ⟨‹_›, h⟩
    · intro h
      rcases h with rfl | h
      · exact absurd ‹_› (by decide)
      · exact h.2
  · constructor
    · exact Or.inl
    · intro h
      rcases h with h | h
      · exact h
      · exact absurd h.1 ‹_›

/-- The lines a modem may return to `AT+QPINC?` in front of `OK`. -/
structure QpincReply where
  lines : List Text
  prefixed : ∀ line ∈ lines, strStarts line "+QPINC".toList = true

/-! ### One line -/

section Line

variable {r r' : Retries} {line : Text}

theorem twoInts_eq (cur : Cursor) : twoInts cur =
    (nextLong cur).bind fun first =>
      (nextLong first.2).map fun second => (toInt first.1, toInt second.1) := by
  unfold twoInts
  rcases atTokNextint_spec cur 0 with ⟨hnone, hneg⟩ | ⟨n, rest, hsome, hint⟩
  · simp [hnone, hneg]
  · rcases atTokNextint_spec rest 0 with ⟨hnone', hneg'⟩ | ⟨n', rest', hsome', hint'⟩
    · simp [hsome, hint, hnone', hneg']
    · simp [hsome, hint, hsome', hint']

/-- An entry is stored by the letters its facility begins with. -/
def Retries.store (r : Retries) (e : QpincEntry) : Option Retries :=
  if strStarts e.facility "SC".toList then
    some { r with pin1 := toInt e.pin, puk1 := toInt e.puk }
  else if strStarts e.facility "P2".toList then
    some { r with pin2 := toInt e.pin, puk2 := toInt e.puk }
  else none

/-- One round of the loop stores the entry of the line. -/
theorem numretriesLine_eq (r : Retries) (line : Text) :
    numretriesLine r line = (qpincEntry line).bind r.store := by
  unfold numretriesLine qpincEntry Retries.store
  cases hstart : (atTokStart (some line)).2 with
  | none => rfl
  | some rest =>
    cases htok : (nextTok (some rest)).1 with
    | none => simp [atTokNextstr, htok]
    | some fac =>
      simp only [atTokNextstr, htok, twoInts_eq]
      cases hpin : nextLong (nextTok (some rest)).2 with
      | none => simp [htok, hpin]
      | some pin =>
        cases hpuk : nextLong pin.2 with
        | none => simp [htok, hpin, hpuk]
        | some puk => simp [htok, hpin, hpuk]

theorem not_strStarts_of_sc {t : Text} (h : strStarts t "SC".toList = true) :
    strStarts t "P2".toList = false := by
  obtain ⟨rest, rfl⟩ := strStarts_iff.mp h
  rfl

/-- A line that is read stores the count asked for, if it is taken for one of the facility. -/
theorem get_of_numretriesLine (request : RilRequest) (h : numretriesLine r line = some r') :
    r'.get request = ((request.count strStarts line).map toInt).getD (r.get request) := by
  rw [numretriesLine_eq] at h
  obtain ⟨e, he, hstore⟩ := Option.bind_eq_some_iff.mp h
  unfold Retries.store at hstore
  unfold RilRequest.count
  rw [he]
  split at hstore
  · next hsc =>
    obtain rfl := Option.some.inj hstore
    have hletters : strStarts e.facility ['S', 'C'] = true := hsc
    have hothers : strStarts e.facility ['P', '2'] = false := not_strStarts_of_sc hsc
    cases request <;> simp [RilRequest.facility, Retries.get, QpincEntry.pick, hletters, hothers]
  split at hstore
  · next hsc hp2 =>
    obtain rfl := Option.some.inj hstore
    have hletters : strStarts e.facility ['P', '2'] = true := hp2
    have hothers : ¬ strStarts e.facility ['S', 'C'] = true := hsc
    cases request <;> simp [RilRequest.facility, Retries.get, QpincEntry.pick, hletters, hothers]
  · exact absurd hstore (by simp)

/-- Whether the line is read does not depend on the locals. -/
theorem isSome_numretriesLine (r : Retries) (line : Text) :
    (numretriesLine r line).isSome = lineRead line := by
  rw [numretriesLine_eq]
  unfold lineRead Retries.store
  cases qpincEntry line with
  | none => rfl
  | some e =>
    show (if _ then _ else if _ then _ else _ : Option Retries).isSome = (_ || _)
    cases strStarts e.facility "SC".toList with
    | true => rfl
    | false => cases strStarts e.facility "P2".toList <;> rfl

end Line

/-! ### The loop -/

/-- **The loop ends at a line that is not read; otherwise each local holds the last count that was
stored in it**, or what it held before. -/
theorem numretriesLoop_spec (lines : List Text) (r : Retries) :
    ((∃ line ∈ lines, lineRead line = false) ∧ numretriesLoop lines r = none) ∨
      ((∀ line ∈ lines, lineRead line = true) ∧ ∃ r', numretriesLoop lines r = some r' ∧
        ∀ request : RilRequest, r'.get request =
          ((lastCount request strStarts lines).map toInt).getD (r.get request)) := by
  -- the value of a counter is the last one written to it
  have hafter : ∀ request : RilRequest, ∀ x,
      ((lastCount request strStarts lines).map toInt).getD x =
        LastWrite.after (fun line => (request.count strStarts line).map toInt) x lines := by
    intro request x
    rw [LastWrite.after_eq, lastCount, ← List.map_filterMap, List.getLast?_map]
  simp only [hafter]
  clear hafter
  -- by induction on the lines, each of which may crash the loop
  induction lines generalizing r with
  | nil => exact Or.inr ⟨by simp, r, rfl, fun _ => rfl⟩
  | cons line lines ih =>
    have hsome := isSome_numretriesLine r line
    cases hline : numretriesLine r line with
    | none =>
      left
      rw [hline] at hsome
      exact ⟨⟨line, List.mem_cons_self, hsome.symm⟩, by simp [numretriesLoop, hline]⟩
    | some r₁ =>
      rw [hline] at hsome
      have hloop : numretriesLoop (line :: lines) r = numretriesLoop lines r₁ := by
        simp [numretriesLoop, hline]
      rw [hloop]
      rcases ih r₁ with ⟨⟨l, hl, hnot⟩, hnone⟩ | ⟨hall, r', hr', hget⟩
      · exact Or.inl ⟨⟨l, List.mem_cons_of_mem _ hl, hnot⟩, hnone⟩
      · right
        refine ⟨List.forall_mem_cons.mpr ⟨hsome.symm, hall⟩, r', hr', fun request => ?_⟩
        rw [hget request, get_of_numretriesLine request hline]
        rfl

/-! ### The reply -/

theorem isSMSUnsolicited_qpinc {line : Text} (h : strStarts line "+QPINC".toList = true) :
    isSMSUnsolicited line = false := by
  obtain ⟨rest, rfl⟩ := strStarts_iff.mp h
  rfl

theorem readerLoop_qpinc {lines : List Text}
    (h : ∀ line ∈ lines, strStarts line "+QPINC".toList = true) :
    readerLoop (lines ++ ["OK".toList]) = lines ++ ["OK".toList] := by
  induction lines with
  | nil => rfl
  | cons line lines ih =>
    obtain ⟨hline, hlines⟩ := List.forall_mem_cons.mp h
    rw [List.cons_append, readerLoop_cons (isSMSUnsolicited_qpinc hline), ih hlines]

/-- The lines of the reply are all in the response, the last one first. -/
theorem foldl_processLine_qpinc {lines : List Text}
    (h : ∀ line ∈ lines, strStarts line "+QPINC".toList = true) (r : ATResponse) :
    lines.foldl (processLine .multiline "+QPINC".toList) r =
      { r with pIntermediates := lines.reverse ++ r.pIntermediates } := by
  induction lines generalizing r with
  | nil => rfl
  | cons line lines ih =>
    obtain ⟨hline, hlines⟩ := List.forall_mem_cons.mp h
    rw [List.foldl_cons, processLine_qpinc hline, ih hlines]
    simp [ATResponse.addIntermediate]

/-- The reply as the reader thread delivers it, with `OK` behind its lines. -/
def QpincReply.delivery (reply : QpincReply) : Delivery where
  lines := reply.lines ++ ["OK".toList]
  final := by
    rw [readerLoop_qpinc reply.prefixed]
    exact ⟨"OK".toList, by simp, rfl⟩

/-- The command gets the lines of the reply, in order. -/
theorem result_delivery (reply : QpincReply) :
    (AtAnswer.delivered reply.delivery).result .multiline "+QPINC".toList none =
      ⟨0, some ⟨true, some "OK".toList, reply.lines⟩⟩ := by
  have hresponse : response .multiline "+QPINC".toList reply.delivery.lines =
      ⟨true, some "OK".toList, reply.lines.reverse⟩ := by
    unfold response QpincReply.delivery
    rw [readerLoop_qpinc reply.prefixed, List.foldl_append,
      foldl_processLine_qpinc reply.prefixed]
    simp [atResponseNew, processLine, isFinalResponseSuccess, finalResponsesSuccess, strStarts]
  show AtResult.mk 0 (some (ATResponse.reverseIntermediates _)) = _
  rw [hresponse]
  simp [ATResponse.reverseIntermediates]

/-- The dialogue in which a reply comes, where the locals hold what they hold. -/
def numretriesDialogue (locals : Retries) (reply : QpincReply) : List (Exchange ModemQ ModemA) :=
  [⟨.uninit, locals.pin1⟩, ⟨.uninit, locals.puk1⟩, ⟨.uninit, locals.pin2⟩, ⟨.uninit, locals.puk2⟩,
    ⟨.atCommand "AT+QPINC?".toList .multiline "+QPINC".toList, .delivered reply.delivery⟩]

theorem after_modemHalGetNumretries (request : RilRequest) (locals : Retries)
    (reply : QpincReply) :
    After (modemHalGetNumretries request) (numretriesDialogue locals reply)
      (ret ((numretriesLoop reply.lines locals).elim (-1) fun r => r.get request)) := by
  unfold modemHalGetNumretries
  simp only [query_bind, atSendCommandMultiline_bind, pure_eq_ret]
  refine .reply _ (.reply _ (.reply _ (.reply _ (.reply _ ?_))))
  rw [result_delivery]
  dsimp only
  rw [if_neg (by decide), if_neg (by decide)]
  cases numretriesLoop reply.lines locals with
  | none => exact .start _
  | some r => exact .start _

/-- **Counters are read, not guessed**: whatever the locals hold, what is returned for the reply is
what should be. -/
def CountersRead (request : RilRequest) (reply : QpincReply) : Prop :=
  ∀ locals : Retries, ∃ v,
    After (modemHalGetNumretries request) (numretriesDialogue locals reply) (ret v) ∧
      CounterRead request reply.lines v

/-- **Counters are read, not guessed, exactly when** the loop ends at some line, or nothing is
asked for, or there is a last line that is taken for the facility and its count, narrowed, is `-1`
or the last count of the facility. -/
theorem counters_read_iff (request : RilRequest) (reply : QpincReply) :
    CountersRead request reply ↔ (∃ line ∈ reply.lines, lineRead line = false) ∨
      request = .other ∨ ∃ n, lastCount request strStarts reply.lines = some n ∧
        (toInt n = -1 ∨ 0 ≤ toInt n ∧
          lastCount request (· == ·) reply.lines = some (toInt n)) := by
  constructor
  · intro h
    -- locals that hold what should never be returned
    obtain ⟨v, hrun, hread⟩ := h ⟨-2, -2, -2, -2⟩
    have hv := hrun.unique (after_modemHalGetNumretries request _ reply)
    rcases numretriesLoop_spec reply.lines ⟨-2, -2, -2, -2⟩ with ⟨hstop, -⟩ | ⟨-, r', hr', hget⟩
    · exact Or.inl hstop
    · right
      rw [hr', Option.elim_some, hget] at hv
      rw [hv] at hread
      cases hlast : lastCount request strStarts reply.lines with
      | none =>
        rw [hlast] at hread
        left
        by_contra hrequest
        have hinit : Retries.get ⟨-2, -2, -2, -2⟩ request = -2 := by
          cases request with
          | other => exact absurd rfl hrequest
          | _ => rfl
        rw [Option.map_none, Option.getD_none, hinit] at hread
        exact absurd (counterRead_iff.mp hread) (by omega)
      | some n =>
        right
        rw [hlast] at hread
        exact ⟨n, rfl, counterRead_iff.mp hread⟩
  · intro h locals
    refine ⟨_, after_modemHalGetNumretries request locals reply, ?_⟩
    rcases numretriesLoop_spec reply.lines locals with ⟨-, hnone⟩ | ⟨hall, r', hr', hget⟩
    · rw [hnone]
      exact counterRead_iff.mpr (Or.inl rfl)
    · rw [hr', Option.elim_some]
      rcases h with ⟨line, hline, hstop⟩ | rfl | ⟨n, hlast, hn⟩
      · exact absurd (hall line hline) (by simp [hstop])
      · exact counterRead_iff.mpr (Or.inl rfl)
      · rw [hget, hlast]
        exact counterRead_iff.mpr hn

/-- The counters of a reply with a line of each facility. -/
def bothCounters : QpincReply where
  lines := ["+QPINC: \"SC\",3,10".toList, "+QPINC: \"P2\",2,9".toList]
  prefixed := List.all_eq_true.mp rfl

example : CountersRead .enterSimPuk2 bothCounters :=
  fun locals => ⟨9, after_modemHalGetNumretries .enterSimPuk2 locals bothCounters, rfl⟩

/-- Counters are not always read: behind `OK` alone, what is returned is what a local held. -/
theorem not_all_counters_read : ¬ ∀ (request : RilRequest) (reply : QpincReply),
    CountersRead request reply := by
  intro h
  obtain ⟨v, hrun, hread⟩ := h .enterSimPin ⟨[], by simp⟩ ⟨3, 3, 3, 3⟩
  obtain rfl : v = 3 := hrun.unique (after_modemHalGetNumretries .enterSimPin _ ⟨[], by simp⟩)
  exact absurd (counterRead_iff.mp hread) (by simp [lastCount])

end RadioHal
