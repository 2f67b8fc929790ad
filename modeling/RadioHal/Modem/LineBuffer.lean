import RadioHal.Lib.Memory
import RadioHal.Lib.Steps

/-!
# The buffer of the line reader

`readline` collects what it reads from the AT channel in `s_ATBuffer` and hands out the lines one by
one; `s_ATBufferCur` is left behind the last one.  What `read` delivers, and how much at a time, is
open.  A call that finds everything consumed clears the buffer twice, first from the cursor on.

## Main definitions

* `ATBuffer` — the buffer, the cursor, and whether a call waits for `read`.
* `findNextEOL`, `ATBuffer.enter`, `ATBuffer.receive` — the source, up to the next `read`.
* `ATBuffer.step` — one step: a call, a chunk, or the end of the data.
* `StaysInBuffer` — every write and every place of the cursor so far lies in the buffer.
* `PromptAtEnd` — what is left of a full buffer is the prompt for an SMS.
* `ReaderInOrder` — no step has cleared from a moved cursor, or met such a prompt.

## Main results

* `findNextEOL_eq_last_iff` — a line ends in the last byte when a prompt does.
* `ATBuffer.Inv.step` — the buffer stays terminated, and what a step touches lies in the buffer
  exactly when the step is in order.
* `stays_in_buffer_iff` — **a run stays in the buffer exactly when its steps are in order.**
-/

namespace RadioHal

open CLib

/-! ### The source -/

/-- `MAX_AT_RESPONSE`. -/
def maxAtResponse : ℕ := 8 * 1024

/-- Where `readline` is: it is not running, or it waits in `read` with `p_read` at an index. -/
inductive ReaderPhase
  | idle
  | reading (pRead : ℕ)
  deriving DecidableEq, Repr

/-- The line reader between two steps: its buffer, its cursor, and where `readline` is. -/
structure ATBuffer where
  /-- `s_ATBuffer`. -/
  buf : CharArray (maxAtResponse + 1)
  /-- `s_ATBufferCur`, as an index of the buffer. -/
  cur : ℕ
  phase : ReaderPhase

/-- The static variables as the program starts. -/
def ATBuffer.init : ATBuffer := ⟨CharArray.zero _, 0, .idle⟩

/-- What `readline` does to memory, as far as the buffer is concerned. -/
inductive Access
  /-- `len` bytes of the buffer are written from index `start` on. -/
  | write (start len : ℕ)
  /-- `s_ATBufferCur` comes to point to an index, at once or step by step from where it was. -/
  | move (index : ℕ)
  deriving DecidableEq, Repr

/-- What `readline` meets: it is called, `read` brings some bytes, or `read` brings none. -/
inductive ReaderInput
  | call
  | chunk (bytes : Text)
  | closed
  deriving DecidableEq, Repr

/-- What a step does: the accesses in order, the state behind it, and what `readline` returns where
it comes to its end, a line or `NULL`. -/
structure ReaderOutcome where
  accesses : List Access
  state : ATBuffer
  returned : Option (Option Text)

/-- A step with some accesses in front of it. -/
def ReaderOutcome.behind (accesses : List Access) (o : ReaderOutcome) : ReaderOutcome :=
  { o with accesses := accesses ++ o.accesses }

/-- A line change of either kind, `\r` or `\n`. -/
def isLineChange (c : Char) : Bool := c == '\r' || c == '\n'

/-- The loops over leading newlines, which stop at the terminator at the latest. -/
def skipLineChanges (buf : Text) (cur : ℕ) : ℕ := scan isLineChange buf cur

/-- `findNextEOL`; the prompt for an SMS has no line change behind it. -/
def findNextEOL (buf : Text) (cur : ℕ) : Option ℕ :=
  if (buf.drop cur).take 3 = ['>', ' ', NUL] then some (cur + 2)
  else
    let stop := scan (fun c => c != NUL && !isLineChange c) buf cur
    if buf.getD stop NUL = NUL then none else some stop

namespace ATBuffer

/-- Behind the loop: the line ends at `pEol` and is returned. -/
def finish (s : ATBuffer) (pEol : ℕ) : ReaderOutcome :=
  let buf := s.buf.overwrite pEol [NUL]
  ⟨[.write pEol 1, .move (pEol + 1)], ⟨buf, pEol + 1, .idle⟩,
    some (some (cstr (buf.bytes.drop s.cur)))⟩

/-- The head of the loop, up to `read`: a full buffer is ditched. -/
def awaitRead (s : ATBuffer) (pRead : ℕ) : ReaderOutcome :=
  if pRead = maxAtResponse then
    ⟨[.move 0, .write 0 1], ⟨s.buf.overwrite 0 [NUL], 0, .reading 0⟩, none⟩
  else ⟨[], { s with phase := .reading pRead }, none⟩

/-- `while (p_eol == NULL)`. -/
def loop (s : ATBuffer) (pEol : Option ℕ) (pRead : ℕ) : ReaderOutcome :=
  match pEol with
  | some eol => s.finish eol
  | none => s.awaitRead pRead

/-- The zeros of the two `memset` calls. -/
def zeros : Text := List.replicate (maxAtResponse + 1) NUL

/-- A call finds that everything is consumed. -/
def enterEmpty (s : ATBuffer) : ReaderOutcome :=
  -- the first call clears from the cursor on, the second from the beginning
  let buf := ((s.buf.overwrite s.cur zeros).overwrite 0 zeros).overwrite 0 [NUL]
  (loop { s with buf := buf, cur := 0 } none 0).behind
    [.write s.cur (maxAtResponse + 1), .write 0 (maxAtResponse + 1), .move 0, .write 0 1]

/-- A call finds data from the last read. -/
def enterData (s : ATBuffer) : ReaderOutcome :=
  let cur := skipLineChanges s.buf.bytes s.cur
  match findNextEOL s.buf.bytes cur with
  | some eol => (loop { s with cur := cur } (some eol) 0).behind [.move cur]
  | none =>
    -- a partial line is moved to the front
    let len := (cstr (s.buf.bytes.drop cur)).length
    let buf := s.buf.overwrite 0 ((s.buf.bytes.drop cur).take (len + 1))
    (loop { s with buf := buf, cur := 0 } none len).behind
      [.move cur, .write 0 (len + 1), .move 0]

/-- `readline` up to its first `read`, or to its end. -/
def enter (s : ATBuffer) : ReaderOutcome :=
  if s.buf.bytes.getD s.cur NUL = NUL then s.enterEmpty else s.enterData

/-- The buffer with a chunk in it. -/
def stored (s : ATBuffer) (pRead : ℕ) (bytes : Text) : CharArray (maxAtResponse + 1) :=
  (s.buf.overwrite pRead bytes).overwrite (pRead + bytes.length) [NUL]

/-- `read` has brought some bytes.  They are stored behind `p_read` with a terminator, and the
newlines in front are skipped. -/
def receive (s : ATBuffer) (pRead : ℕ) (bytes : Text) : ReaderOutcome :=
  let buf := s.stored pRead bytes
  let cur := skipLineChanges buf.bytes s.cur
  (loop { s with buf := buf, cur := cur } (findNextEOL buf.bytes cur) (pRead + bytes.length)).behind
    [.write pRead bytes.length, .write (pRead + bytes.length) 1, .move cur]

/-- One step of the line reader.  `read` brings as many bytes as there is room for, at most; a
`read` that is interrupted is made again.  A call with the cursor outside of the buffer reads what
is not there, and has no step. -/
def step (s : ATBuffer) : ReaderInput → Option ReaderOutcome
  | .call =>
    if s.phase = .idle ∧ s.cur ≤ maxAtResponse then some s.enter else none
  | .chunk bytes =>
    match s.phase with
    | .idle => none
    | .reading pRead =>
      if bytes ≠ [] ∧ pRead + bytes.length ≤ maxAtResponse then some (s.receive pRead bytes)
      else none
  | .closed =>
    match s.phase with
    | .idle => none
    | .reading _ => some ⟨[], { s with phase := .idle }, some none⟩

end ATBuffer

/-! ### Runs -/

/-- A step of a run; its label is the state before it and what it met. -/
inductive ReaderStep : ATBuffer → Option (ATBuffer × ReaderInput) → ATBuffer → Prop
  | take {s : ATBuffer} {input : ReaderInput} {o : ReaderOutcome} (h : s.step input = some o) :
      ReaderStep s (some (s, input)) o.state

/-- The access touches the buffer and nothing else. -/
def Access.InBuffer : Access → Prop
  | write start len => start + len ≤ maxAtResponse + 1
  | move index => index ≤ maxAtResponse

/-- The accesses of one step of the reader. -/
def stepAccesses (x : ATBuffer × ReaderInput) : List Access :=
  (x.1.step x.2).elim [] ReaderOutcome.accesses

/-- **Everything so far has happened in the buffer**: all writes, and all places of the cursor up to
the last one. -/
def StaysInBuffer (log : List (ATBuffer × ReaderInput)) (s : ATBuffer) : Prop :=
  (∀ x ∈ log, ∀ a ∈ stepAccesses x, a.InBuffer) ∧ s.cur ≤ maxAtResponse

/-- From the cursor on there are line changes and the prompt for an SMS, and the prompt ends the
buffer. -/
def PromptAtEnd (buf : Text) (cur : ℕ) : Prop :=
  ∃ u, (∀ c ∈ u, isLineChange c = true) ∧ buf.drop cur = u ++ ['>', ' ', NUL]

/-- A step that stays in the buffer: a call does not find everything consumed behind a cursor that
was moved, and what it looks at for a line does not end in a prompt at the end of the buffer. -/
def StepInOrder (x : ATBuffer × ReaderInput) : Prop :=
  match x.2, x.1.phase with
  | .call, _ => (x.1.cur = 0 ∨ x.1.buf.bytes.getD x.1.cur NUL ≠ NUL) ∧
      ¬ PromptAtEnd x.1.buf.bytes x.1.cur
  | .chunk bytes, .reading pRead => ¬ PromptAtEnd (x.1.stored pRead bytes).bytes x.1.cur
  | _, _ => True

/-- Every step of a run is in order. -/
def ReaderInOrder (log : List (ATBuffer × ReaderInput)) : Prop := ∀ x ∈ log, StepInOrder x

/-! ### Where a line ends -/

section Ends

variable {buf : Text} {cur : ℕ}

/-- The loop over newlines stops at the terminator, if not before. -/
theorem skipLineChanges_le (hlast : buf[maxAtResponse]? = some NUL) (hcur : cur ≤ maxAtResponse) :
    skipLineChanges buf cur ≤ maxAtResponse :=
  scan_le hcur hlast (by decide)

/-- **A line ends before the last byte**, or it is a prompt at the end of the buffer. -/
theorem findNextEOL_spec (hlen : buf.length = maxAtResponse + 1)
    (hlast : buf[maxAtResponse]? = some NUL) (hcur : cur ≤ maxAtResponse) {eol : ℕ}
    (h : findNextEOL buf cur = some eol) :
    eol < maxAtResponse ∨ (eol = maxAtResponse ∧ buf.drop cur = ['>', ' ', NUL]) := by
  unfold findNextEOL at h
  split at h
  · next hprompt =>
    obtain rfl := Option.some.inj h
    have hthree := congrArg List.length hprompt
    rw [List.length_take, List.length_drop, hlen] at hthree
    simp only [List.length_cons, List.length_nil] at hthree
    -- the three characters are all in the buffer, the last of them at its end or before
    by_cases hend : cur + 2 = maxAtResponse
    · right
      refine ⟨hend, ?_⟩
      rw [← hprompt, List.take_of_length_le]
      rw [List.length_drop]
      omega
    · left
      omega
  · dsimp only at h
    split at h
    · cases h
    · next hstop =>
      obtain rfl := Option.some.inj h
      left
      -- the scan stops at the terminator, and there no line ends
      refine lt_of_le_of_ne (scan_le hcur hlast (by decide)) ?_
      intro heq
      rw [heq, List.getD_eq_getElem?_getD, hlast] at hstop
      exact hstop rfl

/-- A line ends in the last byte of the buffer when a prompt does. -/
theorem findNextEOL_eq_last_iff (hlen : buf.length = maxAtResponse + 1)
    (hlast : buf[maxAtResponse]? = some NUL) (hcur : cur ≤ maxAtResponse) :
    findNextEOL buf (skipLineChanges buf cur) = some maxAtResponse ↔ PromptAtEnd buf cur := by
  constructor
  · intro h
    have hskip := skipLineChanges_le hlast hcur
    rcases findNextEOL_spec hlen hlast hskip h with hlt | ⟨-, hprompt⟩
    · exact absurd hlt (lt_irrefl _)
    · refine ⟨(buf.drop cur).takeWhile isLineChange, fun c hc => List.mem_takeWhile_imp hc, ?_⟩
      rw [← hprompt]
      exact drop_eq_takeWhile_append isLineChange buf cur
  · intro ⟨u, hu, hdrop⟩
    -- the cursor goes over the line changes, and comes to the prompt
    have hskip : skipLineChanges buf cur = cur + u.length := scan_append hdrop hu (by decide)
    have hprompt : buf.drop (cur + u.length) = ['>', ' ', NUL] := by
      rw [← List.drop_drop, hdrop, List.drop_left' rfl]
    have hthree := congrArg List.length hprompt
    rw [List.length_drop, hlen] at hthree
    simp only [List.length_cons, List.length_nil] at hthree
    unfold findNextEOL
    rw [hskip, hprompt, if_pos (by decide)]
    congr 1
    omega

/-- What begins with the terminator does not begin with a prompt. -/
theorem not_promptAtEnd_of_NUL (h : buf.getD cur NUL = NUL) : ¬ PromptAtEnd buf cur := by
  intro ⟨u, hu, hdrop⟩
  have hhead : buf[cur]? = (u ++ ['>', ' ', NUL]).head? := by rw [← hdrop, List.head?_drop]
  cases u with
  | nil =>
    rw [List.getD_eq_getElem?_getD, hhead] at h
    revert h
    decide
  | cons c u =>
    rw [List.getD_eq_getElem?_getD, hhead] at h
    have hc := hu c List.mem_cons_self
    obtain rfl : c = NUL := h
    revert hc
    decide

end Ends

/-! ### The last byte -/

section Last

variable {a : CharArray (maxAtResponse + 1)} {i : ℕ} {bytes : Text}

/-- A write leaves the terminator in the last byte alone, or puts one there. -/
theorem last_overwrite (hlast : a.bytes[maxAtResponse]? = some NUL)
    (h : ∀ c, bytes[maxAtResponse - i]? = some c → i ≤ maxAtResponse → c = NUL) :
    (a.overwrite i bytes).bytes[maxAtResponse]? = some NUL := by
  rw [CharArray.getElem?_overwrite (Nat.lt_succ_self _)]
  split
  · next hin =>
    obtain ⟨c, hc⟩ : ∃ c, bytes[maxAtResponse - i]? = some c :=
      ⟨_, List.getElem?_eq_getElem (by omega)⟩
    rw [hc, h c hc hin.1]
  · exact hlast

/-- A terminator that is written leaves the last one where it is, wherever it goes. -/
theorem last_overwrite_NUL (hlast : a.bytes[maxAtResponse]? = some NUL) :
    (a.overwrite i [NUL]).bytes[maxAtResponse]? = some NUL := by
  apply last_overwrite hlast
  intro c hc _
  exact List.mem_singleton.mp (List.mem_of_getElem? hc)

/-- Zeros that are written over the end of the buffer leave a terminator there as well. -/
theorem last_overwrite_zeros (hlast : a.bytes[maxAtResponse]? = some NUL) :
    (a.overwrite i ATBuffer.zeros).bytes[maxAtResponse]? = some NUL := by
  apply last_overwrite hlast
  intro c hc _
  exact List.eq_of_mem_replicate (List.mem_of_getElem? hc)

/-- So does a line that is moved to the front. -/
theorem last_overwrite_front (hlast : a.bytes[maxAtResponse]? = some NUL) {cur len : ℕ} :
    (a.overwrite 0 ((a.bytes.drop cur).take len)).bytes[maxAtResponse]? = some NUL := by
  apply last_overwrite hlast
  intro c hc _
  rw [Nat.sub_zero, List.getElem?_take] at hc
  split at hc
  · rw [List.getElem?_drop] at hc
    -- the last byte comes from the last byte, so nothing was moved
    have hlt := (List.getElem?_eq_some_iff.mp hc).1
    rw [a.length_bytes] at hlt
    obtain rfl : cur = 0 := by omega
    rw [Nat.zero_add, hlast] at hc
    exact (Option.some.inj hc).symm
  · cases hc

/-- So does a chunk for which there is room. -/
theorem last_overwrite_chunk (hlast : a.bytes[maxAtResponse]? = some NUL)
    (hroom : i + bytes.length ≤ maxAtResponse) :
    (a.overwrite i bytes).bytes[maxAtResponse]? = some NUL := by
  apply last_overwrite hlast
  intro c hc _
  rw [List.getElem?_eq_none (by omega)] at hc
  cases hc

end Last

/-! ### Steps -/

namespace ATBuffer

/-- The buffer ends in a terminator; the cursor lies in it, or right behind it between two calls;
and there is room to read. -/
structure Inv (s : ATBuffer) : Prop where
  last : s.buf.bytes[maxAtResponse]? = some NUL
  cur_le : s.cur ≤ maxAtResponse + 1
  reading : ∀ p, s.phase = .reading p → s.cur ≤ maxAtResponse ∧ p < maxAtResponse

end ATBuffer

/-- What is to be shown of a step: the invariant holds behind it, and it stays in the buffer exactly
when `ok` holds. -/
structure ReaderOutcome.Good (ok : Prop) (o : ReaderOutcome) : Prop where
  inv : o.state.Inv
  inBuffer : (∀ a ∈ o.accesses, a.InBuffer) ↔ ok
  cur_le : ok → o.state.cur ≤ maxAtResponse

theorem ReaderOutcome.Good.congr {ok ok' : Prop} {o : ReaderOutcome} (h : o.Good ok)
    (hiff : ok ↔ ok') : o.Good ok' :=
  ⟨h.inv, h.inBuffer.trans hiff, fun hok => h.cur_le (hiff.mpr hok)⟩

namespace ATBuffer

variable {s : ATBuffer}

/-- Accesses to the buffer in front of a step change nothing. -/
theorem good_behind {ok : Prop} {o : ReaderOutcome} {accesses : List Access} (h : o.Good ok)
    (hin : ∀ a ∈ accesses, a.InBuffer) : (o.behind accesses).Good ok := by
  refine ⟨h.inv, ?_, h.cur_le⟩
  rw [← h.inBuffer]
  unfold ReaderOutcome.behind
  rw [List.forall_mem_append, and_iff_right hin]

/-- A line that ends ahead of the last byte leaves the cursor in the buffer. -/
theorem good_finish (hlast : s.buf.bytes[maxAtResponse]? = some NUL) {eol : ℕ}
    (heol : eol ≤ maxAtResponse) : (s.finish eol).Good (eol ≠ maxAtResponse) := by
  unfold finish
  refine ⟨⟨last_overwrite_NUL hlast, ?_, ?_⟩, ?_, ?_⟩
  · dsimp only
    omega
  · intro p hp
    cases hp
  · simp [Access.InBuffer]
    omega
  · intro hne
    dsimp only
    omega

/-- The head of the loop leaves room to read. -/
theorem good_awaitRead (hlast : s.buf.bytes[maxAtResponse]? = some NUL)
    (hcur : s.cur ≤ maxAtResponse) {pRead : ℕ} (hp : pRead ≤ maxAtResponse) :
    (s.awaitRead pRead).Good True := by
  unfold awaitRead
  split
  · refine ⟨⟨last_overwrite_NUL hlast, Nat.zero_le _, ?_⟩, ?_, fun _ => Nat.zero_le _⟩
    · intro p hp'
      cases hp'
      exact ⟨Nat.zero_le _, by decide⟩
    · simp [Access.InBuffer]
  · next hne =>
    refine ⟨⟨hlast, ?_, ?_⟩, ?_, fun _ => hcur⟩
    · dsimp only
      omega
    · intro p hp'
      cases hp'
      exact ⟨hcur, by omega⟩
    · simp

/-- The loop stays in the buffer unless the line ends in the last byte. -/
theorem good_loop (hlast : s.buf.bytes[maxAtResponse]? = some NUL) (hcur : s.cur ≤ maxAtResponse)
    {pEol : Option ℕ} (heol : ∀ eol ∈ pEol, eol ≤ maxAtResponse) {pRead : ℕ}
    (hp : pRead ≤ maxAtResponse) : (s.loop pEol pRead).Good (pEol ≠ some maxAtResponse) := by
  cases pEol with
  | none =>
    show (s.awaitRead pRead).Good _
    simpa using good_awaitRead hlast hcur hp
  | some eol =>
    show (s.finish eol).Good _
    simpa using good_finish hlast (heol eol rfl)

theorem eol_le {buf : CharArray (maxAtResponse + 1)} {cur : ℕ}
    (hlast : buf.bytes[maxAtResponse]? = some NUL) (hcur : cur ≤ maxAtResponse) :
    ∀ eol ∈ findNextEOL buf.bytes cur, eol ≤ maxAtResponse := by
  intro eol heol
  rcases findNextEOL_spec buf.length_bytes hlast hcur heol with hlt | ⟨heq, -⟩
  · exact hlt.le
  · exact heq.le

/-- Where everything is consumed, both `memset` calls stay in the buffer when they clear the
same. -/
theorem good_enterEmpty (h : s.Inv) : s.enterEmpty.Good (s.cur = 0) := by
  have hlast := last_overwrite_NUL (i := 0) (last_overwrite_zeros (i := 0)
    (last_overwrite_zeros (i := s.cur) h.last))
  have hloop : (loop { s with
      buf := ((s.buf.overwrite s.cur zeros).overwrite 0 zeros).overwrite 0 [NUL], cur := 0 }
      none 0).Good True := by
    have hgood := good_awaitRead (s := { s with
      buf := ((s.buf.overwrite s.cur zeros).overwrite 0 zeros).overwrite 0 [NUL], cur := 0 }) hlast
      (Nat.zero_le _) (Nat.zero_le _)
    exact hgood
  unfold enterEmpty
  -- of the four writes and moves only the first depends on the cursor
  refine ⟨hloop.inv, ?_, fun _ => hloop.cur_le trivial⟩
  unfold ReaderOutcome.behind
  rw [List.forall_mem_append, hloop.inBuffer, and_true]
  simp [Access.InBuffer]

/-- With data from the last read a call stays in the buffer unless this is a prompt at its end. -/
theorem good_enterData (h : s.Inv) (hcur : s.cur ≤ maxAtResponse) :
    s.enterData.Good (¬ PromptAtEnd s.buf.bytes s.cur) := by
  have hskip := skipLineChanges_le h.last hcur
  rw [← findNextEOL_eq_last_iff s.buf.length_bytes h.last hcur]
  unfold enterData
  dsimp only
  cases hfind : findNextEOL s.buf.bytes (skipLineChanges s.buf.bytes s.cur) with
  | some eol =>
    refine good_behind (good_loop
      (s := { s with cur := skipLineChanges s.buf.bytes s.cur }) h.last hskip ?_ (Nat.zero_le _)) ?_
    · exact hfind ▸ eol_le h.last hskip
    · simpa [Access.InBuffer] using hskip
  | none =>
    -- the partial line ends at the terminator of the buffer at the latest
    have hlen : (cstr (s.buf.bytes.drop (skipLineChanges s.buf.bytes s.cur))).length ≤
        maxAtResponse := by
      have hscan := scan_le (p := fun c => c != NUL) hskip h.last (by decide)
      unfold scan at hscan
      unfold cstr
      omega
    refine good_behind (good_loop (last_overwrite_front h.last) (Nat.zero_le _) (by simp) hlen) ?_
    simp [Access.InBuffer]
    omega

/-- **A call stays in the buffer** when it clears from the beginning, and meets no prompt at the end
of the buffer. -/
theorem good_enter (h : s.Inv) (hcur : s.cur ≤ maxAtResponse) : s.enter.Good
    ((s.cur = 0 ∨ s.buf.bytes.getD s.cur NUL ≠ NUL) ∧ ¬ PromptAtEnd s.buf.bytes s.cur) := by
  unfold enter
  split
  · next hnul =>
    have hprompt := not_promptAtEnd_of_NUL hnul
    apply (good_enterEmpty h).congr
    simp only [hnul, ne_eq, not_true_eq_false, or_false, hprompt, not_false_eq_true, and_true]
  · next hdata =>
    apply (good_enterData h hcur).congr
    simp only [ne_eq, hdata, not_false_eq_true, or_true, true_and]

/-- **A chunk stays in the buffer** unless it brings a prompt to its end.  Behind a prompt the
cursor goes one byte past what was read. -/
theorem good_receive (h : s.Inv) (hcur : s.cur ≤ maxAtResponse) {pRead : ℕ} {bytes : Text}
    (hroom : pRead + bytes.length ≤ maxAtResponse) :
    (s.receive pRead bytes).Good (¬ PromptAtEnd (s.stored pRead bytes).bytes s.cur) := by
  have hlast : (s.stored pRead bytes).bytes[maxAtResponse]? = some NUL :=
    last_overwrite_NUL (last_overwrite_chunk h.last hroom)
  have hskip := skipLineChanges_le hlast hcur
  rw [← findNextEOL_eq_last_iff (s.stored pRead bytes).length_bytes hlast hcur]
  unfold receive
  refine good_behind (good_loop hlast hskip (eol_le hlast hskip) hroom) ?_
  simp [Access.InBuffer]
  omega

/-- What a step can be: a call, bytes that `read` has brought to a call that waits, or the end of
the stream. -/
theorem step_cases {input : ReaderInput} {o : ReaderOutcome} (hstep : s.step input = some o) :
    (input = .call ∧ s.phase = .idle ∧ s.cur ≤ maxAtResponse ∧ o = s.enter) ∨
      (∃ bytes pRead, input = .chunk bytes ∧ s.phase = .reading pRead ∧ bytes ≠ [] ∧
        pRead + bytes.length ≤ maxAtResponse ∧ o = s.receive pRead bytes) ∨
      (input = .closed ∧ ∃ pRead, s.phase = .reading pRead ∧
        o = ⟨[], { s with phase := .idle }, some none⟩) := by
  cases input with
  | call =>
    -- a call needs an idle reader
    simp only [ATBuffer.step] at hstep
    split at hstep
    · next hcall => exact Or.inl ⟨rfl, hcall.1, hcall.2, (Option.some.inj hstep).symm⟩
    · cases hstep
  | chunk bytes =>
    -- bytes come to a reader that waits for them, and no more than it asked for
    simp only [ATBuffer.step] at hstep
    split at hstep
    · cases hstep
    · next pRead hphase =>
      split at hstep
      · next hroom =>
        exact Or.inr (Or.inl ⟨bytes, pRead, rfl, hphase, hroom.1, hroom.2,
          (Option.some.inj hstep).symm⟩)
      · cases hstep
  | closed =>
    -- so does the end of the stream
    simp only [ATBuffer.step] at hstep
    split at hstep
    · cases hstep
    · next pRead hphase =>
      exact Or.inr (Or.inr ⟨rfl, pRead, hphase, (Option.some.inj hstep).symm⟩)

/-- **One step**: the invariant holds behind it, and it stays in the buffer exactly when it is in
order. -/
theorem Inv.step (h : s.Inv) {input : ReaderInput} {o : ReaderOutcome}
    (hstep : s.step input = some o) : o.Good (StepInOrder (s, input)) := by
  rcases step_cases hstep with ⟨rfl, -, hcur, rfl⟩ |
    ⟨bytes, pRead, rfl, hphase, -, hroom, rfl⟩ | ⟨rfl, pRead, hphase, rfl⟩
  · exact good_enter h hcur
  · unfold StepInOrder
    simp only [hphase]
    exact good_receive h (h.reading pRead hphase).1 hroom
  · refine ⟨⟨h.last, h.cur_le, ?_⟩, ?_, fun _ => (h.reading pRead hphase).1⟩
    · intro p hp
      cases hp
    · simp [StepInOrder]

end ATBuffer

/-! ### Runs -/

section Runs

variable {log : List (ATBuffer × ReaderInput)} {s : ATBuffer}

theorem inv_init : ATBuffer.init.Inv := by
  constructor
  · unfold ATBuffer.init CharArray.zero
    exact List.getElem?_replicate_of_lt (Nat.lt_succ_self _)
  · exact Nat.zero_le _
  · intro p hp
    cases hp

/-- Along a run the buffer keeps its terminator, and the accesses stay inside of it exactly as long
as the run is in order. -/
theorem run_invariant (hrun : Trace ReaderStep ATBuffer.init log s) :
    s.Inv ∧ ((∀ x ∈ log, ∀ a ∈ stepAccesses x, a.InBuffer) ↔ ReaderInOrder log) ∧
      (ReaderInOrder log → s.cur ≤ maxAtResponse) := by
  refine hrun.log_invariant (fun log s => s.Inv ∧
    ((∀ x ∈ log, ∀ a ∈ stepAccesses x, a.InBuffer) ↔ ReaderInOrder log) ∧
      (ReaderInOrder log → s.cur ≤ maxAtResponse)) ?_ ?_
  · intro log s label s' ⟨hinv, hlog, hcur⟩ hs
    cases hs with
    | @take input o hstep =>
      have hgood := hinv.step hstep
      have haccesses : stepAccesses (s, input) = o.accesses := by
        rw [stepAccesses, hstep, Option.elim_some]
      refine ⟨hgood.inv, ?_, ?_⟩
      · unfold ReaderInOrder at hlog ⊢
        rw [Option.toList_some, List.forall_mem_append, List.forall_mem_append, hlog,
          List.forall_mem_singleton, List.forall_mem_singleton, haccesses, hgood.inBuffer]
      · intro horder
        exact hgood.cur_le (horder _ (by simp))
  · exact ⟨inv_init, by simp [ReaderInOrder], fun _ => Nat.zero_le _⟩

end Runs

/-- **A run stays in the buffer exactly when its steps are in order**: however the data comes in,
and however often `readline` is called.  Out of order is a call that finds everything consumed
behind a moved cursor, as the whole length is then cleared from there on, and a step that meets a
prompt in the last bytes of the buffer. -/
theorem stays_in_buffer_iff {log : List (ATBuffer × ReaderInput)} {s : ATBuffer}
    (hrun : Trace ReaderStep ATBuffer.init log s) : StaysInBuffer log s ↔ ReaderInOrder log := by
  obtain ⟨-, hlog, hcur⟩ := run_invariant hrun
  unfold StaysInBuffer
  rw [hlog]
  exact and_iff_left_of_imp hcur

/-- The reader in its first call. -/
def calledBuffer : ATBuffer := ATBuffer.init.enter.state

theorem readerStep_called : ReaderStep ATBuffer.init (some (ATBuffer.init, .call)) calledBuffer :=
  ReaderStep.take (o := ATBuffer.init.enter) rfl

/-- The first chunk, for which there is room, comes to stand at the front. -/
theorem readerStep_chunk (bytes : Text) (hne : bytes ≠ []) (hroom : bytes.length ≤ maxAtResponse) :
    ReaderStep calledBuffer (some (calledBuffer, .chunk bytes))
      (calledBuffer.receive 0 bytes).state := by
  apply ReaderStep.take (o := calledBuffer.receive 0 bytes)
  show (if bytes ≠ [] ∧ 0 + bytes.length ≤ maxAtResponse then _ else _) = _
  rw [if_pos ⟨hne, by omega⟩]

/-- What begins with neither a line change nor a prompt does not end in a prompt. -/
theorem not_promptAtEnd_of_head {buf : Text} {cur : ℕ} {c : Char}
    (hhead : (buf.drop cur).head? = some c) (hline : isLineChange c = false) (hne : c ≠ '>') :
    ¬ PromptAtEnd buf cur := by
  rintro ⟨u, hu, hdrop⟩
  rw [hdrop] at hhead
  cases u with
  | nil => exact hne (Option.some.inj hhead).symm
  | cons d u =>
    obtain rfl : d = c := Option.some.inj hhead
    exact absurd ((hu d List.mem_cons_self).symm.trans hline) (by decide)

/-- The first call is in order, and so is a chunk with a line and both characters of its change. -/
theorem readerInOrder_ok :
    ReaderInOrder [(ATBuffer.init, .call), (calledBuffer, .chunk "OK\r\n".toList)] := by
  unfold ReaderInOrder
  simp only [List.forall_mem_cons]
  have hempty : ¬ PromptAtEnd ATBuffer.init.buf.bytes 0 := not_promptAtEnd_of_NUL rfl
  have hline : ¬ PromptAtEnd (calledBuffer.stored 0 "OK\r\n".toList).bytes 0 :=
    not_promptAtEnd_of_head (c := 'O') rfl (by decide) (by decide)
  exact ⟨⟨Or.inl rfl, hempty⟩, hline, fun x hx => absurd hx List.not_mem_nil⟩

/-- A first call that gets its line with both characters of the line change stays in the buffer. -/
theorem stays_in_buffer_iff_ok :
    StaysInBuffer [(ATBuffer.init, .call), (calledBuffer, .chunk "OK\r\n".toList)]
      (calledBuffer.receive 0 "OK\r\n".toList).state :=
  (stays_in_buffer_iff ((Trace.single readerStep_called).snoc
    (readerStep_chunk _ (by decide) (by decide)))).mpr readerInOrder_ok

/-- The first call gets a line with nothing behind its `\r`. -/
def consumedBuffer : ATBuffer := (calledBuffer.receive 0 "OK\r".toList).state

/-- **The second call writes behind the buffer** where the first one has consumed everything: it
clears as many bytes from the cursor on as the whole buffer has. -/
theorem readline_leaves_buffer : ∃ log s, Trace ReaderStep ATBuffer.init log s ∧
    ¬ StaysInBuffer log s := by
  have hcall : ReaderStep consumedBuffer (some (consumedBuffer, .call))
      consumedBuffer.enter.state := ReaderStep.take (o := consumedBuffer.enter) rfl
  have hrun := ((Trace.single readerStep_called).snoc
    (readerStep_chunk "OK\r".toList (by decide) (by decide))).snoc hcall
  refine ⟨_, _, hrun, ?_⟩
  intro hstays
  have hwrite : Access.InBuffer (.write 3 (maxAtResponse + 1)) :=
    hstays.1 (consumedBuffer, .call) (by simp) _ List.mem_cons_self
  revert hwrite
  unfold Access.InBuffer
  decide

end RadioHal
