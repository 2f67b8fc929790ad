import RadioHal.Lib.Lines
import RadioHal.Modem.LineBuffer

/-!
# Lines of the AT channel

The modem sends a stream of bytes; `read` cuts it anywhere, and `readline` puts it together again
and cuts it at the line changes.

## Main definitions

* `received`, `returnedLines` — what has come in along a run, and the lines handed out.
* `Orderly` — a stream the reader is made for: lines that fit in the buffer, none of them a prompt.
* `Framed` — the stream is the part that is consumed, and the part the buffer holds.

## Main results

* `find_cases` — where the reader finds a line, and where there is none.
* `FramedAt.step` — a step keeps the stream together.
* `returned_lines` — **the lines handed out are those of the stream, in order**: none is lost, none
  comes twice, and a reader that waits has handed out all of them.
* `returned_lines_eq` — the way `read` cuts the stream makes no difference.
-/

namespace RadioHal

open CLib Lines

/-! ### What comes in and what goes out -/

/-- The bytes that an input brings, which are none but for a successful `read`. -/
def ReaderInput.bytes : ReaderInput → Text
  | .chunk bytes => bytes
  | _ => []

/-- What `read` has brought along a run. -/
def received (log : List (ATBuffer × ReaderInput)) : Text := log.flatMap fun x => x.2.bytes

/-- The line that a step of the reader hands out, if it does. -/
def returnedLine (x : ATBuffer × ReaderInput) : Option Text :=
  (x.1.step x.2).bind fun o => o.returned.join

/-- The lines handed out along a run. -/
def returnedLines (log : List (ATBuffer × ReaderInput)) : List Text := log.filterMap returnedLine

/-- A stream the reader is made for. -/
structure Orderly (stream : Text) : Prop where
  noNUL : NUL ∉ stream
  /-- A line fits in the buffer, together with the line changes in front of it. -/
  fits : ∀ u v, (∀ c ∈ u, isLineChange c = true) → (∀ c ∈ v, isLineChange c = false) →
    u ++ v <:+: stream → (u ++ v).length < maxAtResponse
  /-- No line begins as a prompt does. -/
  noPrompt : ∀ u v, stream = u ++ '>' :: ' ' :: v → ¬ AtStart isLineChange u

theorem Orderly.of_append {t u : Text} (h : Orderly (t ++ u)) : Orderly t := by
  constructor
  · intro hmem
    exact h.noNUL (List.mem_append_left u hmem)
  · intro w v hw hv hin
    exact h.fits w v hw hv (hin.trans (List.prefix_append t u).isInfix)
  · intro w v heq
    apply h.noPrompt w (v ++ u)
    rw [heq, List.append_assoc, List.cons_append, List.cons_append]

theorem orderly_of_short {stream : Text} (hnul : NUL ∉ stream) (hprompt : '>' ∉ stream)
    (hlen : stream.length < maxAtResponse) : Orderly stream := by
  refine ⟨hnul, ?_, ?_⟩
  · intro u v _ _ hin
    exact lt_of_le_of_lt hin.length_le hlen
  · rintro u v rfl
    exact absurd (by simp) hprompt

/-! ### Finding a line -/

section Finding

variable {s : ATBuffer} {unread : Text}

/-- From the cursor on the buffer holds a text and its terminator. -/
def HasUnread (s : ATBuffer) (unread : Text) : Prop :=
  ∃ front junk, s.buf.bytes = front ++ (unread ++ NUL :: junk) ∧ front.length = s.cur

theorem HasUnread.drop (h : HasUnread s unread) :
    ∃ junk, s.buf.bytes.drop s.cur = unread ++ NUL :: junk := by
  obtain ⟨front, junk, hbytes, hlen⟩ := h
  exact ⟨junk, by rw [hbytes, ← hlen, List.drop_left]⟩

/-- The cursor goes over a part of the text. -/
theorem HasUnread.advance {t : Text} (h : HasUnread s (t ++ unread)) :
    HasUnread { s with cur := s.cur + t.length } unread := by
  obtain ⟨front, junk, hbytes, hlen⟩ := h
  refine ⟨front ++ t, junk, ?_, ?_⟩
  · rw [hbytes, List.append_assoc, List.append_assoc]
  · rw [List.length_append, hlen]

/-- A terminator or a line change ends what is looked at; three characters in front of it are no
prompt, unless they are just that. -/
theorem eq_of_take_prompt {t more : Text} {c : Char} (ht : NUL ∉ t)
    (hc : c = NUL ∨ isLineChange c = true)
    (htake : (t ++ c :: more).take 3 = ['>', ' ', NUL]) : c = NUL ∧ t = ['>', ' '] := by
  rcases Nat.lt_or_ge t.length 3 with hlt | hge
  · have hget : ['>', ' ', NUL][t.length]? = some c := by
      rw [← htake, List.getElem?_take_of_lt hlt, List.getElem?_append_right le_rfl, Nat.sub_self]
      rfl
    -- of the three characters only the last one ends anything
    have hlast : ∀ i < 3, ['>', ' ', NUL][i]? = some c → c = NUL ∧ i = 2 := by
      rintro (_ | _ | _ | i) hi h
      · obtain rfl : '>' = c := Option.some.inj h
        exact absurd hc (by decide)
      · obtain rfl : ' ' = c := Option.some.inj h
        exact absurd hc (by decide)
      · exact ⟨(Option.some.inj h).symm, rfl⟩
      · omega
    obtain ⟨hnul, htwo⟩ := hlast _ hlt hget
    refine ⟨hnul, ?_⟩
    have hfirst := congrArg (List.take 2) htake
    rw [List.take_take, show min 2 3 = 2 from rfl, List.take_left' htwo] at hfirst
    exact hfirst
  · -- all three belong to the text
    rw [List.take_append_of_le_length hge] at htake
    refine absurd (List.mem_of_mem_take (i := 3) ?_) ht
    rw [htake]
    decide

/-- **Where a line ends**: at the first line change, and nowhere when the terminator comes first. -/
theorem findNextEOL_eq {buf t more : Text} {cur : ℕ} {c : Char}
    (hdrop : buf.drop cur = t ++ c :: more) (hnul : NUL ∉ t)
    (ht : ∀ d ∈ t, isLineChange d = false) (hc : c = NUL ∨ isLineChange c = true)
    (hprompt : c = NUL → t ≠ ['>', ' ']) :
    findNextEOL buf cur = if c = NUL then none else some (cur + t.length) := by
  have htake : (buf.drop cur).take 3 ≠ ['>', ' ', NUL] := by
    intro htake
    rw [hdrop] at htake
    obtain ⟨hend, hthree⟩ := eq_of_take_prompt hnul hc htake
    exact hprompt hend hthree
  have hscan : scan (fun c => c != NUL && !isLineChange c) buf cur = cur + t.length := by
    apply scan_append hdrop
    · intro d hd
      have hne : d ≠ NUL := fun heq => hnul (heq ▸ hd)
      simp [ht d hd, hne]
    · rcases hc with rfl | hc
      · simp
      · simp [hc]
  have hget : buf.getD (cur + t.length) NUL = c := by
    rw [List.getD_eq_getElem?_getD, ← List.getElem?_drop, hdrop,
      List.getElem?_append_right le_rfl, Nat.sub_self]
    rfl
  unfold findNextEOL
  rw [if_neg htake]
  dsimp only
  rw [hscan, hget]

/-- **What the reader finds**: it goes over the line changes the text begins with, and then there is
a line, or the beginning of one. -/
theorem find_cases (h : HasUnread s unread) (hnul : NUL ∉ unread)
    (hprompt : ∀ u, (∀ c ∈ u, isLineChange c = true) → unread ≠ u ++ ['>', ' ']) :
    ∃ u rest, unread = u ++ rest ∧ (∀ c ∈ u, isLineChange c = true) ∧
      skipLineChanges s.buf.bytes s.cur = s.cur + u.length ∧
      ((∀ c ∈ rest, isLineChange c = false) ∧
          findNextEOL s.buf.bytes (s.cur + u.length) = none ∨
        ∃ line c more, rest = line ++ c :: more ∧ line ≠ [] ∧
          (∀ d ∈ line, isLineChange d = false) ∧ isLineChange c = true ∧
          findNextEOL s.buf.bytes (s.cur + u.length) = some (s.cur + u.length + line.length)) := by
  obtain ⟨junk, hdrop⟩ := h.drop
  obtain ⟨u, rest, rfl, hu, hhead⟩ := exists_lead isLineChange unread
  have hrest : NUL ∉ rest := fun hmem => hnul (List.mem_append_right u hmem)
  rw [List.append_assoc] at hdrop
  -- the newlines in front are gone over, up to the first other character
  have hskip : skipLineChanges s.buf.bytes s.cur = s.cur + u.length := by
    cases rest with
    -- without a newline there is no line yet, and no prompt is there either
    | nil => exact scan_append hdrop hu (by decide)
    | cons d rest => exact scan_append hdrop hu (hhead d rfl)
  have hdrop' : s.buf.bytes.drop (s.cur + u.length) = rest ++ NUL :: junk := by
    rw [← List.drop_drop, hdrop, List.drop_left]
  refine ⟨u, rest, rfl, hu, hskip, ?_⟩
  -- what follows is cut where its first newline stands, if it has one
  obtain ⟨line, tail, rfl, hline, hend⟩ := exists_lead (fun c => !isLineChange c) rest
  simp only [Bool.not_eq_true', Bool.not_eq_false'] at hline hend
  have hlineNul : NUL ∉ line := fun hmem => hrest (List.mem_append_left tail hmem)
  cases tail with
  | nil =>
    left
    rw [List.append_nil] at hdrop' hprompt ⊢
    refine ⟨hline, ?_⟩
    rw [findNextEOL_eq hdrop' hlineNul hline (Or.inl rfl), if_pos rfl]
    intro _ heq
    exact hprompt u hu (by rw [heq])
  | cons c more =>
    -- the newline ends a line, which is not empty as it begins behind the newlines in front
    right
    have hc : isLineChange c = true := hend c rfl
    have hcnul : c ≠ NUL := fun heq => hrest (by rw [heq]; simp)
    refine ⟨line, c, more, rfl, ?_, hline, hc, ?_⟩
    · rintro rfl
      rw [hhead c rfl] at hc
      cases hc
    · rw [List.append_assoc, List.cons_append] at hdrop'
      rw [findNextEOL_eq hdrop' hlineNul hline (Or.inr hc), if_neg hcnul]
      intro heq
      exact absurd heq hcnul

end Finding

/-! ### The stream along a run -/

/-- The stream is cut where the reader is: `read` is consumed, its lines are handed out, and
`unread` is in the buffer. -/
structure FramedAt (s : ATBuffer) (stream : Text) (lines : List Text) (read unread : Text) :
    Prop where
  stream_eq : stream = read ++ unread
  atStart : AtStart isLineChange read
  lines_eq : complete isLineChange read = lines
  hasUnread : HasUnread s unread

/-- A reader that waits has met line changes only, and a part of a line; there it reads on. -/
def Waits (s : ATBuffer) (stream unread : Text) : Prop :=
  ∀ p, s.phase = .reading p → (∀ c ∈ unread, isLineChange c = false) ∧
    p = s.cur + unread.length ∧
    ∃ v, (∀ c ∈ v, isLineChange c = true) ∧ v.length = s.cur ∧ v ++ unread <:+ stream

/-- The stream is cut somewhere into what has been handed out and what has not. -/
def Framed (s : ATBuffer) (stream : Text) (lines : List Text) : Prop :=
  ∃ read unread, FramedAt s stream lines read unread ∧ Waits s stream unread

/-- The stream is cut somewhere behind a step, too, and the line it hands out is the next one. -/
def ReaderOutcome.Keeps (o : ReaderOutcome) (stream : Text) (lines : List Text) : Prop :=
  Framed o.state stream (lines ++ o.returned.join.toList)

section Steps

variable {s : ATBuffer} {stream read unread : Text} {lines : List Text}

/-- In the buffer there is no terminator but the one behind the text. -/
theorem FramedAt.noNUL (h : FramedAt s stream lines read unread) (hstream : Orderly stream) :
    NUL ∉ unread := by
  intro hmem
  apply hstream.noNUL
  rw [h.stream_eq]
  exact List.mem_append_right read hmem

/-- Nor is there a prompt, since a line begins at the cursor. -/
theorem FramedAt.no_prompt (h : FramedAt s stream lines read unread) (hstream : Orderly stream)
    (u : Text) (hu : ∀ c ∈ u, isLineChange c = true) : unread ≠ u ++ ['>', ' '] := by
  rintro rfl
  apply hstream.noPrompt (read ++ u) []
  · rw [h.stream_eq, List.append_assoc]
  · exact h.atStart.append hu

/-- A line and what is in front of it. -/
theorem complete_read {u line : Text} {c : Char} (hread : AtStart isLineChange read)
    (hu : ∀ c ∈ u, isLineChange c = true) (hne : line ≠ [])
    (hline : ∀ d ∈ line, isLineChange d = false) (hc : isLineChange c = true) :
    complete isLineChange (read ++ (u ++ (line ++ [c]))) =
      complete isLineChange read ++ [line] := by
  have hlead : AtStart isLineChange u := atStart_nil.append hu
  rw [complete_append hread, complete_append hlead, complete_of_separators hu,
    complete_line hne hline hc, List.nil_append]

/-- A line is cut off with a terminator, and handed out. -/
theorem hasUnread_finish {line more : Text} {c : Char} (h : HasUnread s (line ++ c :: more))
    (hnul : NUL ∉ line) : HasUnread (s.finish (s.cur + line.length)).state more ∧
      (s.finish (s.cur + line.length)).returned = some (some line) := by
  obtain ⟨front, junk, hbytes, hlen⟩ := h
  have hcut : s.buf.bytes = (front ++ line) ++ c :: (more ++ NUL :: junk) := by
    rw [hbytes]
    simp
  have hroom : (front ++ line).length + [NUL].length ≤ maxAtResponse + 1 := by
    have hall := s.buf.length_bytes
    rw [hcut, List.length_append, List.length_cons] at hall
    rw [List.length_singleton]
    omega
  have heol : (front ++ line).length = s.cur + line.length := by
    rw [List.length_append, hlen]
  have hover := CharArray.bytes_overwrite hcut [NUL] hroom
  rw [heol] at hover
  unfold ATBuffer.finish
  refine ⟨⟨front ++ line ++ [NUL], junk, ?_, ?_⟩, ?_⟩
  · dsimp only
    rw [hover]
    rfl
  · dsimp only
    rw [List.length_append, heol, List.length_singleton]
  · dsimp only
    rw [hover, ← hlen, List.append_assoc, List.append_assoc, List.drop_left,
      List.singleton_append, cstr_append_NUL hnul]

/-- The reader finds a line and hands it out. -/
theorem FramedAt.finish {u line more : Text} {c : Char}
    (h : FramedAt s stream lines read (u ++ (line ++ c :: more)))
    (hu : ∀ c ∈ u, isLineChange c = true) (hne : line ≠ [])
    (hline : ∀ d ∈ line, isLineChange d = false) (hc : isLineChange c = true)
    (hnul : NUL ∉ line) :
    (ATBuffer.finish { s with cur := s.cur + u.length } (s.cur + u.length + line.length)).Keeps
      stream lines := by
  obtain ⟨hunread, hreturned⟩ := hasUnread_finish h.hasUnread.advance hnul
  refine ⟨read ++ (u ++ (line ++ [c])), more, ⟨?_, ?_, ?_, hunread⟩, ?_⟩
  · rw [h.stream_eq]
    simp
  · rw [← List.append_assoc, ← List.append_assoc]
    exact atStart_concat hc
  · rw [hreturned, complete_read h.atStart hu hne hline hc, h.lines_eq]
    rfl
  · intro p hp
    cases hp

/-- The reader goes on to wait, with a part of a line. -/
theorem FramedAt.awaitRead {u part v : Text} {pRead : ℕ}
    (h : FramedAt s stream lines read (u ++ part)) (hstream : Orderly stream)
    (hu : ∀ c ∈ u, isLineChange c = true) (hpart : ∀ c ∈ part, isLineChange c = false)
    (hp : pRead = s.cur + (u ++ part).length) (hv : ∀ c ∈ v, isLineChange c = true)
    (hcur : v.length = s.cur) (hin : v ++ (u ++ part) <:+ stream) :
    (ATBuffer.awaitRead { s with cur := s.cur + u.length } pRead).Keeps stream lines := by
  have hlead : ∀ c ∈ v ++ u, isLineChange c = true := List.forall_mem_append.mpr ⟨hv, hu⟩
  rw [← List.append_assoc] at hin
  have hlt := hstream.fits (v ++ u) part hlead hpart hin.isInfix
  have hlen : ((v ++ u) ++ part).length = s.cur + (u ++ part).length := by
    rw [List.append_assoc, List.length_append, hcur]
  unfold ATBuffer.awaitRead
  rw [if_neg (by omega)]
  refine ⟨read ++ u, part, ⟨?_, h.atStart.append hu, ?_, h.hasUnread.advance⟩, ?_⟩
  · rw [h.stream_eq, List.append_assoc]
  · have hlead' : complete isLineChange u = [] := complete_of_separators hu
    rw [complete_append h.atStart, hlead', List.append_nil, h.lines_eq]
    exact (List.append_nil _).symm
  · intro p hp'
    cases hp'
    refine ⟨hpart, ?_, v ++ u, hlead, ?_, hin⟩
    · rw [hp, List.length_append]
      dsimp only
      omega
    · rw [List.length_append, hcur]

/-- **The loop**: from any place of the buffer it hands out the next line, or waits. -/
theorem FramedAt.loop {v : Text} {pRead : ℕ} (h : FramedAt s stream lines read unread)
    (hstream : Orderly stream) (hp : pRead = s.cur + unread.length)
    (hv : ∀ c ∈ v, isLineChange c = true) (hcur : v.length = s.cur)
    (hin : v ++ unread <:+ stream) :
    (ATBuffer.loop { s with cur := skipLineChanges s.buf.bytes s.cur }
      (findNextEOL s.buf.bytes (skipLineChanges s.buf.bytes s.cur)) pRead).Keeps stream lines := by
  have hnul := h.noNUL hstream
  obtain ⟨u, rest, rfl, hu, hskip, ⟨hpart, hfind⟩ | ⟨line, c, more, rfl, hne, hline, hc, hfind⟩⟩ :=
    find_cases h.hasUnread hnul (h.no_prompt hstream)
  · rw [hskip, hfind]
    exact h.awaitRead hstream hu hpart hp hv hcur hin
  · rw [hskip, hfind]
    apply h.finish hu hne hline hc
    intro hmem
    exact hnul (by simp [hmem])

/-- A chunk is stored behind what is in the buffer. -/
theorem hasUnread_stored {p : ℕ} {bytes : Text} (h : HasUnread s unread)
    (hp : p = s.cur + unread.length) (hroom : p + bytes.length ≤ maxAtResponse) :
    HasUnread { s with buf := s.stored p bytes } (unread ++ bytes) := by
  obtain ⟨front, junk, hbytes, hlen⟩ := h
  have hfull : (front ++ unread).length = p := by rw [List.length_append, hlen, hp]
  rw [← List.append_assoc] at hbytes
  have hover := CharArray.bytes_overwrite hbytes bytes (by omega)
  rw [hfull] at hover
  have hover' := CharArray.bytes_overwrite hover [NUL] (by
    rw [List.length_append, hfull, List.length_singleton]
    omega)
  rw [List.length_append, hfull] at hover'
  refine ⟨front, (NUL :: junk).drop (bytes.length + 1), ?_, hlen⟩
  unfold ATBuffer.stored
  dsimp only
  rw [hover', List.drop_drop, List.length_singleton]
  simp

/-- **A chunk**: what comes in is put behind what is there, and cut where the lines end. -/
theorem keeps_receive {p : ℕ} {bytes : Text} (h : Framed s stream lines)
    (hphase : s.phase = .reading p) (hstream : Orderly (stream ++ bytes))
    (hroom : p + bytes.length ≤ maxAtResponse) :
    (s.receive p bytes).Keeps (stream ++ bytes) lines := by
  obtain ⟨read, unread, hat, hwaits⟩ := h
  obtain ⟨-, hp, v, hv, hcur, hin⟩ := hwaits p hphase
  have hstored : FramedAt { s with buf := s.stored p bytes } (stream ++ bytes) lines read
      (unread ++ bytes) :=
    ⟨by rw [hat.stream_eq, List.append_assoc], hat.atStart, hat.lines_eq,
      hasUnread_stored hat.hasUnread hp hroom⟩
  have hin' : v ++ (unread ++ bytes) <:+ stream ++ bytes := by
    obtain ⟨w, hw⟩ := hin
    exact ⟨w, by rw [← hw]; simp⟩
  apply hstored.loop hstream _ hv hcur hin'
  rw [hp, List.length_append, Nat.add_assoc]

/-- What is written to the front with its terminator is there. -/
theorem hasUnread_front {buf : CharArray (maxAtResponse + 1)} {phase : ReaderPhase} (part : Text)
    (hroom : part.length ≤ maxAtResponse) :
    HasUnread ⟨buf.overwrite 0 (part ++ [NUL]), 0, phase⟩ part := by
  refine ⟨[], buf.bytes.drop (part ++ [NUL]).length, ?_, rfl⟩
  have hover := CharArray.bytes_overwrite (t := []) (a := buf) rfl (part ++ [NUL]) (by
    rw [List.length_append, List.length_nil, List.length_singleton]
    omega)
  rw [List.length_nil] at hover
  dsimp only
  rw [hover, List.nil_append, List.nil_append, List.append_assoc, List.singleton_append]

/-- **A call that finds everything consumed** clears the buffer and waits.  No byte of the stream
was left in the buffer. -/
theorem keeps_enterEmpty (h : FramedAt s stream lines read []) :
    s.enterEmpty.Keeps stream lines := by
  refine ⟨read, [], ⟨h.stream_eq, h.atStart, ?_, ?_⟩, ?_⟩
  · rw [h.lines_eq]
    exact (List.append_nil _).symm
  · exact hasUnread_front [] (Nat.zero_le _)
  · intro p hp
    cases hp
    exact ⟨by simp, rfl, [], by simp, rfl, List.nil_suffix⟩

/-- **A call that finds data** hands out the next line, or moves what there is of it to the front
and waits. -/
theorem keeps_enterData (h : FramedAt s stream lines read unread) (hstream : Orderly stream) :
    s.enterData.Keeps stream lines := by
  have hnul := h.noNUL hstream
  obtain ⟨u, rest, rfl, hu, hskip, ⟨hpart, hfind⟩ | ⟨line, c, more, rfl, hne, hline, hc, hfind⟩⟩ :=
    find_cases h.hasUnread hnul (h.no_prompt hstream)
  -- a part of a line is moved to the front, and `read` is waited for
  · have hrest : NUL ∉ rest := fun hmem => hnul (List.mem_append_right u hmem)
    obtain ⟨junk, hdrop⟩ := h.hasUnread.advance.drop
    dsimp only at hdrop
    have hlen : (cstr (s.buf.bytes.drop (s.cur + u.length))).length = rest.length := by
      rw [hdrop, cstr_append_NUL hrest]
    have hmoved : (s.buf.bytes.drop (s.cur + u.length)).take (rest.length + 1) = rest ++ [NUL] := by
      rw [hdrop, List.take_length_add_append]
      rfl
    have hroom : rest.length ≤ maxAtResponse := by
      have hall := congrArg List.length hdrop
      rw [List.length_drop, s.buf.length_bytes, List.length_append, List.length_cons] at hall
      omega
    unfold ATBuffer.enterData
    dsimp only
    rw [hskip, hfind]
    dsimp only
    rw [hlen, hmoved]
    have hfront : FramedAt { s with buf := s.buf.overwrite 0 (rest ++ [NUL]), cur := 0 } stream
        lines (read ++ u) ([] ++ rest) := by
      refine ⟨?_, h.atStart.append hu, ?_, hasUnread_front rest hroom⟩
      · rw [h.stream_eq, List.append_assoc, List.nil_append]
      · rw [complete_append h.atStart, complete_of_separators hu, List.append_nil, h.lines_eq]
    have hin : [] ++ ([] ++ rest) <:+ stream := ⟨read ++ u, by rw [h.stream_eq]; simp⟩
    exact hfront.awaitRead hstream (by simp) hpart (by simp) (v := []) (by simp) rfl hin
  -- there is a whole line, which is handed out at once
  · unfold ATBuffer.enterData
    dsimp only
    rw [hskip, hfind]
    apply h.finish hu hne hline hc
    intro hmem
    exact hnul (by simp [hmem])

/-- **A call** of `readline` begins behind the line that was handed out last.  What it finds there
is nothing, a line, or the beginning of one. -/
theorem keeps_enter (h : Framed s stream lines) (hstream : Orderly stream) :
    s.enter.Keeps stream lines := by
  obtain ⟨read, unread, hat, -⟩ := h
  unfold ATBuffer.enter
  split
  · next hnul =>
    -- the first character is the terminator, so there is no text in front of it
    obtain ⟨junk, hdrop⟩ := hat.hasUnread.drop
    have hempty : unread = [] := by
      cases unread with
      | nil => rfl
      | cons c unread =>
        have hget : s.buf.bytes[s.cur]? = some c := by
          rw [← List.head?_drop, hdrop]
          rfl
        rw [List.getD_eq_getElem?_getD, hget] at hnul
        have hc : c ≠ NUL := fun heq => hat.noNUL hstream (heq ▸ List.mem_cons_self)
        exact absurd hnul hc
    subst hempty
    exact keeps_enterEmpty hat
  · exact keeps_enterData hat hstream

/-- **One step** keeps the stream together: no byte is lost, and none is read twice.  The lines that
were handed out, and what the buffer holds, are the stream so far. -/
theorem Framed.step {input : ReaderInput} {o : ReaderOutcome} (h : Framed s stream lines)
    (hstep : s.step input = some o) (hstream : Orderly (stream ++ input.bytes)) :
    o.Keeps (stream ++ input.bytes) lines := by
  rcases ATBuffer.step_cases hstep with ⟨rfl, -, -, rfl⟩ |
    ⟨bytes, pRead, rfl, hphase, -, hroom, rfl⟩ | ⟨rfl, pRead, -, rfl⟩
  · rw [ReaderInput.bytes, List.append_nil] at hstream ⊢
    · exact keeps_enter h hstream
    · rintro _ ⟨⟩
    · rintro _ ⟨⟩
  · exact keeps_receive h hphase hstream hroom
  · -- what was read stays in the buffer for the next call
    obtain ⟨read, unread, hat, -⟩ := h
    refine ⟨read, unread, ⟨?_, hat.atStart, ?_, hat.hasUnread⟩, ?_⟩
    · rw [← hat.stream_eq]
      exact List.append_nil _
    · rw [hat.lines_eq]
      exact (List.append_nil _).symm
    · intro p hp
      cases hp

end Steps

/-! ### Runs -/

section Runs

variable {log log' : List (ATBuffer × ReaderInput)} {s s' : ATBuffer}

theorem received_append : received (log ++ log') = received log ++ received log' :=
  List.flatMap_append

/-- One more step, and the line that it hands out. -/
theorem returnedLines_concat {input : ReaderInput} {o : ReaderOutcome}
    (h : s.step input = some o) :
    returnedLines (log ++ [(s, input)]) = returnedLines log ++ o.returned.join.toList := by
  have hline : returnedLine (s, input) = o.returned.join := by
    rw [returnedLine, h, Option.bind_some]
  unfold returnedLines
  rw [List.filterMap_append, List.filterMap_cons, hline]
  cases o.returned.join with
  | none => rfl
  | some line => rfl

theorem framed_init : Framed ATBuffer.init [] [] := by
  have hunread : HasUnread ATBuffer.init [] :=
    ⟨[], List.replicate maxAtResponse NUL, List.replicate_succ, rfl⟩
  refine ⟨[], [], ⟨rfl, atStart_nil, complete_nil, hunread⟩, ?_⟩
  intro p hp
  cases hp

theorem run_framed (hrun : Trace ReaderStep ATBuffer.init log s) :
    Orderly (received log) → Framed s (received log) (returnedLines log) := by
  refine hrun.log_invariant
    (fun log s => Orderly (received log) → Framed s (received log) (returnedLines log)) ?_ ?_
  · intro log s label s' ih hs hstream
    cases hs with
    | @take input o hstep =>
      have hnew : received (log ++ [(s, input)]) = received log ++ input.bytes := by
        rw [received_append]
        exact congrArg (received log ++ ·) (List.append_nil _)
      rw [Option.toList_some, hnew] at hstream ⊢
      rw [returnedLines_concat hstep]
      exact (ih hstream.of_append).step hstep hstream
  · intro _
    exact framed_init

/-- What is complete in the stream is handed out, or lies in the buffer of a reader that does not
wait. -/
theorem complete_received (hrun : Trace ReaderStep ATBuffer.init log s)
    (hstream : Orderly (received log)) :
    ∃ unread, complete isLineChange (received log) =
        returnedLines log ++ complete isLineChange unread ∧
      ∀ p, s.phase = .reading p → complete isLineChange unread = [] := by
  obtain ⟨read, unread, hat, hwaits⟩ := run_framed hrun hstream
  refine ⟨unread, ?_, fun p hp => complete_of_forall (hwaits p hp).1⟩
  rw [hat.stream_eq, complete_append hat.atStart, hat.lines_eq]

/-- The way `read` cuts the stream makes no difference: two readers that wait for more have handed
out the same lines. -/
theorem returned_lines_eq (hrun : Trace ReaderStep ATBuffer.init log s)
    (hrun' : Trace ReaderStep ATBuffer.init log' s') (hsame : received log = received log')
    (hstream : Orderly (received log)) {p p' : ℕ} (hp : s.phase = .reading p)
    (hp' : s'.phase = .reading p') : returnedLines log = returnedLines log' := by
  obtain ⟨unread, hcut, hwaits⟩ := complete_received hrun hstream
  obtain ⟨unread', hcut', hwaits'⟩ := complete_received hrun' (hsame ▸ hstream)
  rw [hwaits p hp, List.append_nil] at hcut
  rw [hwaits' p' hp', List.append_nil] at hcut'
  rw [← hcut, ← hcut', hsame]

end Runs

/-- **The lines handed out are those of the stream, in order**, wherever `read` cuts it.  A reader
that waits has handed out all that are complete. -/
theorem returned_lines {log : List (ATBuffer × ReaderInput)} {s : ATBuffer}
    (hrun : Trace ReaderStep ATBuffer.init log s) (hstream : Orderly (received log)) :
    returnedLines log <+: complete isLineChange (received log) ∧
      ∀ p, s.phase = .reading p → returnedLines log = complete isLineChange (received log) := by
  obtain ⟨unread, hcut, hwaits⟩ := complete_received hrun hstream
  refine ⟨⟨_, hcut.symm⟩, ?_⟩
  intro p hp
  rw [hcut, hwaits p hp, List.append_nil]

/-- A first call that gets its line, and the rest of the line change. -/
theorem returned_lines_ok :
    returnedLines [(ATBuffer.init, .call), (calledBuffer, .chunk "OK\r\n".toList)] <+:
        complete isLineChange
          (received [(ATBuffer.init, .call), (calledBuffer, .chunk "OK\r\n".toList)]) ∧
      ∀ p, (calledBuffer.receive 0 "OK\r\n".toList).state.phase = .reading p →
        returnedLines [(ATBuffer.init, .call), (calledBuffer, .chunk "OK\r\n".toList)] =
          complete isLineChange
            (received [(ATBuffer.init, .call), (calledBuffer, .chunk "OK\r\n".toList)]) := by
  apply returned_lines ((Trace.single readerStep_called).snoc
    (readerStep_chunk _ (by decide) (by decide)))
  exact orderly_of_short (by decide) (by decide) (by decide)

end RadioHal
