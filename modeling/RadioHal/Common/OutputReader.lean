import RadioHal.Common.SysCmd
import RadioHal.Lib.Loop
import RadioHal.Lib.Memory

/-!
# The loop that reads the output of a program

`wifi_hal_run_sys_cmd` and `modem_hal_run_sys_cmd` read the output of a program by the same loop: a
line at a time goes to where the last one has ended, as long as there is room in the response
buffer.  Here the loop is run on the buffer itself, of which nothing is known at first.  A write
behind the end of the buffer has no result, and neither has a string without a terminator in it.

## Main definitions

* `OutputStream`, `OutputStream.fgets` — the pipe from the program, and reading a line of it.
* `OutputReader`, `OutputReader.round` — the variables of the loop, and one round.
* `FillsRespBuf` — what the loop and the terminator behind it make of the buffer.
* `OutputReader.Holds` — what is known at the head of a round.

## Main results

* `reads_fgets` — what is read, and what is written of it.
* `OutputReader.Holds.round` — a round stays in the buffer, and goes on behind what it has read.
* `exists_fillsRespBuf` — **the loop ends, and leaves `readOutput` in the buffer.**
* `output_read_bounded` — **it is a bounded reader of what the output begins with.**
-/

namespace RadioHal

open CLib Loop

/-! ### The stream -/

/-- The `FILE *` of `popen`: what is still to be read, and the mark that `feof` looks at. -/
structure OutputStream where
  rest : Text
  eof : Bool

/-- What a call of `fgets` does to the buffer and the stream. -/
structure Fgets where
  /-- The bytes written to the buffer. -/
  written : Text
  /-- `NULL` is returned. -/
  null : Bool
  /-- The stream behind the call. -/
  f : OutputStream

/-- `fgets(buf, n, f)`.  The end of the output is met when the line breaks off ahead of it. -/
def OutputStream.fgets (f : OutputStream) (n : ℤ) : Fgets :=
  let line := RadioHal.fgets n.toNat f.rest
  if n < 1 then ⟨[], true, f⟩
  -- there is room for the terminator alone
  else if n = 1 then ⟨[NUL], false, f⟩
  else if line.1 = [] then ⟨[], true, ⟨line.2, true⟩⟩
  else
    let cut := decide (line.1.length < n.toNat - 1) && decide (line.1.getLast? ≠ some '\n')
    ⟨line.1 ++ [NUL], false, ⟨line.2, cut⟩⟩

/-! ### The loop -/

/-- The variables of the loop, with a response buffer of `respSize` bytes. -/
structure OutputReader (respSize : ℕ) where
  respBuf : CharArray respSize
  /-- `buf`, as an index of `respBuf`. -/
  buf : ℕ
  /-- The room behind `buf`. -/
  size : ℤ
  f : OutputStream

namespace OutputReader

variable {respSize : ℕ}

/-- The variables ahead of the loop: nothing has been read, and the whole buffer is left. -/
def start (respBuf : CharArray respSize) (out : Text) : OutputReader respSize :=
  ⟨respBuf, 0, respSize, ⟨out, false⟩⟩

/-- One round of `while (!feof(f))`: it goes on, or leaves the loop. -/
def round (s : OutputReader respSize) : Option (OutputReader respSize ⊕ OutputReader respSize) := do
  if s.f.eof then return .inr s
  let cleared ← s.respBuf.store s.buf [NUL]
  let respBufBytes := if 128 ≤ s.size then 128 else s.size - 1
  let ret := s.f.fgets respBufBytes
  let filled ← cleared.store s.buf ret.written
  -- `strlen(buf)`
  let text ← readText (filled.bytes.drop s.buf)
  if text = [] ∨ ret.null = true then return .inr { s with respBuf := filled, f := ret.f }
  return .inl ⟨filled, s.buf + text.length, s.size - text.length, ret.f⟩

/-- One round of the loop, which is left when a check fails. -/
def body (s : OutputReader respSize) : OutputReader respSize ⊕ Option (OutputReader respSize) :=
  checked round s

end OutputReader

/-- The response buffer of a program that writes `out`: the loop is run, and then
`resp_buf[resp_size - 1] = 0`. -/
def FillsRespBuf {respSize : ℕ} (respBuf : CharArray respSize) (out : Text)
    (filled : CharArray respSize) : Prop :=
  ∃ s, Returns OutputReader.body (.start respBuf out) (some s) ∧
    s.respBuf.store (respSize - 1) [NUL] = some filled

/-! ### Reading a line -/

section Lines

variable {f : OutputStream} {n : ℤ} {out : Text} {k : ℕ}

theorem length_readLine_le : (readLine k out).1.length ≤ k := by
  induction k generalizing out with
  | zero => exact Nat.le_refl 0
  | succ k ih =>
    cases out with
    | nil => exact Nat.zero_le _
    | cons c cs =>
      rw [readLine]
      split
      · simp
      · simpa using ih

/-- A line that is neither full nor ends in a line change has left nothing. -/
theorem readLine_rest_eq_nil (hlen : (readLine k out).1.length < k)
    (hlast : (readLine k out).1.getLast? ≠ some '\n') : (readLine k out).2 = [] := by
  induction k generalizing out with
  | zero => exact absurd hlen (Nat.not_lt_zero _)
  | succ k ih =>
    cases out with
    | nil => rfl
    | cons c cs =>
      rw [readLine] at hlen hlast ⊢
      split
      · next hc =>
        rw [if_pos hc, hc] at hlast
        exact absurd rfl hlast
      · next hc =>
        rw [if_neg hc] at hlen hlast
        refine ih (Nat.lt_of_succ_lt_succ hlen) fun hline => hlast ?_
        rw [List.getLast?_cons, hline]
        rfl

/-- A call of `fgets` that has taken `piece` off the stream. -/
structure Fgets.Reads (ret : Fgets) (n : ℤ) (piece : Text × Text) : Prop where
  rest : ret.f.rest = piece.2
  written : (ret.written = [] ∧ piece.1 = []) ∨ ret.written = piece.1 ++ [NUL]
  length_le : ret.written.length ≤ n.toNat
  null : ret.null = true → piece.1 = []
  eof : ret.f.eof = true → piece.2 = []

/-- **What is read, and what is written of it**, as long as the end has not been met. -/
theorem reads_fgets (hf : f.eof = false) :
    (f.fgets n).Reads n (RadioHal.fgets n.toNat f.rest) := by
  have hlen : (RadioHal.fgets n.toNat f.rest).1.length ≤ n.toNat - 1 := length_readLine_le
  unfold OutputStream.fgets
  dsimp only
  split
  · next hn =>
    have hnone : RadioHal.fgets n.toNat f.rest = ([], f.rest) := by
      have hzero : n.toNat = 0 := by omega
      rw [hzero]
      rfl
    rw [hnone]
    exact ⟨rfl, Or.inl ⟨rfl, rfl⟩, Nat.zero_le _, fun _ => rfl, fun h => absurd h (by simp [hf])⟩
  split
  · next hn =>
    subst hn
    exact ⟨rfl, Or.inr rfl, Nat.le_refl 1, fun h => absurd h Bool.false_ne_true,
      fun h => absurd h (by simp [hf])⟩
  split
  · next hn hnone =>
    refine ⟨rfl, Or.inl ⟨rfl, hnone⟩, Nat.zero_le _, fun _ => hnone, fun _ => ?_⟩
    -- nothing comes where there is room, so there is nothing left
    refine readLine_rest_eq_nil (k := n.toNat - 1) ?_ ?_
    · show (RadioHal.fgets n.toNat f.rest).1.length < _
      rw [hnone, List.length_nil]
      omega
    · show (RadioHal.fgets n.toNat f.rest).1.getLast? ≠ _
      rw [hnone]
      simp
  · refine ⟨rfl, Or.inr rfl, ?_, fun h => absurd h Bool.false_ne_true, fun hcut => ?_⟩
    · rw [List.length_append, List.length_singleton]
      omega
    · rw [Bool.and_eq_true, decide_eq_true_eq, decide_eq_true_eq] at hcut
      exact readLine_rest_eq_nil hcut.1 hcut.2

end Lines

/-! ### Rounds -/

namespace OutputReader

variable {respSize : ℕ} {out done : Text} {s : OutputReader respSize}

/-- At the head of a round: `done` has been read and stands in the buffer, with room for a
terminator behind it, and the rest of the text is still to come. -/
structure Holds (out done : Text) (s : OutputReader respSize) : Prop where
  bytes : ∃ tail, s.respBuf.bytes = done ++ tail ∧ (s.f.eof = true → tail.head? = some NUL)
  buf : s.buf = done.length
  size : s.size = respSize - done.length
  room : done.length < respSize
  pending : done ++ readOutput s.size.toNat s.f.rest = readOutput respSize out
  ended : s.f.eof = true → s.f.rest = []

/-- The text has been read and stands in the buffer. -/
def Filled (out : Text) (s : OutputReader respSize) : Prop :=
  ∃ tail, s.respBuf.bytes = readOutput respSize out ++ NUL :: tail

theorem readOutput_nil (size : ℕ) : readOutput size [] = [] := by
  rw [readOutput_eq (fgets_nil _)]
  rfl

theorem toNat_respBufBytes (size : ℤ) : (if 128 ≤ size then 128 else size - 1 : ℤ).toNat =
    if 128 ≤ size.toNat then 128 else size.toNat - 1 := by
  split <;> split <;> omega

theorem Holds.start (hsize : 1 ≤ respSize) (respBuf : CharArray respSize) :
    Holds out [] (.start respBuf out) where
  bytes := ⟨respBuf.bytes, rfl, fun h => absurd h Bool.false_ne_true⟩
  buf := rfl
  size := by simp [OutputReader.start]
  room := hsize
  pending := rfl
  ended := fun h => absurd h Bool.false_ne_true

/-- A line is written behind what has been read, and ends in a terminator. -/
theorem exists_filled {a : CharArray respSize} {tail : Text} (hbytes : a.bytes = done ++ tail)
    (hroom : done.length < respSize) {ret : Fgets} {n : ℤ} {line : Text × Text}
    (hreads : ret.Reads n line) (hn : done.length + n.toNat ≤ respSize) :
    ∃ cleared filled junk, a.store done.length [NUL] = some cleared ∧
      cleared.store done.length ret.written = some filled ∧
      filled.bytes = done ++ (line.1 ++ NUL :: junk) := by
  obtain ⟨cleared, hcleared, hclearedBytes⟩ := CharArray.exists_store hbytes [NUL] hroom
  rw [List.append_assoc, List.singleton_append] at hclearedBytes
  have hlen := hreads.length_le
  obtain ⟨filled, hfilled, hfilledBytes⟩ :=
    CharArray.exists_store hclearedBytes ret.written (by omega)
  rcases hreads.written with ⟨hnone, hline⟩ | hwritten
  · rw [hnone, List.append_nil] at hfilledBytes
    rw [hline]
    exact ⟨cleared, filled, _, hcleared, hfilled, hfilledBytes⟩
  · rw [hwritten, List.append_assoc, List.append_assoc] at hfilledBytes
    exact ⟨cleared, filled, _, hcleared, hfilled, hfilledBytes⟩

/-- A round ahead of the end of the output, by the line that it reads. -/
theorem Holds.round_eq (h : Holds out done s) (hf : s.f.eof = false) {line : Text × Text}
    (hline : RadioHal.fgets (if 128 ≤ s.size.toNat then 128 else s.size.toNat - 1) s.f.rest =
      line) :
    ∃ (filled : CharArray respSize) (f : OutputStream) (junk : Text),
      filled.bytes = done ++ cstr line.1 ++ NUL :: junk ∧ f.rest = line.2 ∧
      (f.eof = true → line.2 = []) ∧
      s.round = some (if cstr line.1 = [] then .inr { s with respBuf := filled, f := f }
        else .inl ⟨filled, s.buf + (cstr line.1).length, s.size - (cstr line.1).length, f⟩) := by
  obtain ⟨tail, hbytes, -⟩ := h.bytes
  have hsize := h.size
  have hroom := h.room
  have hreads := reads_fgets (n := if 128 ≤ s.size then 128 else s.size - 1) hf
  have hn : done.length + (if 128 ≤ s.size then 128 else s.size - 1 : ℤ).toNat ≤ respSize := by
    split <;> omega
  rw [toNat_respBufBytes, hline] at hreads
  unfold OutputReader.round
  dsimp only
  generalize s.f.fgets (if 128 ≤ s.size then 128 else s.size - 1) = ret at hreads ⊢
  obtain ⟨cleared, filled, junk, hcleared, hfilled, hjunk⟩ :=
    exists_filled hbytes hroom hreads hn
  -- what `strlen` makes of it
  have htext : readText (filled.bytes.drop done.length) = some (cstr line.1) := by
    rw [hjunk, List.drop_left, readText_append_NUL_cons]
  have hnull : ret.null = true → cstr line.1 = [] := fun e => congrArg cstr (hreads.null e)
  have hmem : NUL ∈ line.1 ++ NUL :: junk := List.mem_append_right _ List.mem_cons_self
  obtain ⟨junk', hjunk'⟩ := exists_eq_cstr_append hmem
  rw [cstr_append_NUL_cons] at hjunk'
  refine ⟨filled, ret.f, junk', ?_, hreads.rest, hreads.eof, ?_⟩
  · rw [hjunk, hjunk', List.append_assoc]
  rw [h.buf]
  simp only [hf, Bool.false_eq_true, if_false, hcleared, hfilled, htext, Option.bind_eq_bind,
    Option.bind_some, Option.pure_def, or_iff_left_of_imp hnull]
  split <;> rfl

/-- **A round stays in the buffer**: it leaves the loop with the text in the buffer, or it has read
a piece that is not empty, and stops behind it. -/
theorem Holds.round (h : Holds out done s) :
    (∃ s', s.round = some (.inr s') ∧ Filled out s') ∨
      ∃ piece s', piece ≠ [] ∧ s.round = some (.inl s') ∧ Holds out (done ++ piece) s' := by
  cases hf : s.f.eof with
  | true =>
    -- everything has been read, and the last line is terminated
    left
    obtain ⟨tail, hbytes, htail⟩ := h.bytes
    obtain ⟨tail, rfl⟩ := List.head?_eq_some_iff.mp (htail hf)
    have hpending := h.pending
    rw [h.ended hf, readOutput_nil, List.append_nil] at hpending
    refine ⟨s, ?_, tail, hpending ▸ hbytes⟩
    unfold OutputReader.round
    rw [if_pos hf]
    rfl
  | false =>
    obtain ⟨line, hline⟩ : ∃ line, RadioHal.fgets
        (if 128 ≤ s.size.toNat then 128 else s.size.toNat - 1) s.f.rest = line := ⟨_, rfl⟩
    obtain ⟨filled, f, junk, hbytes, hrest, heof, hround⟩ := h.round_eq hf hline
    have hpending := h.pending
    rw [readOutput_eq hline] at hpending
    by_cases hnil : cstr line.1 = []
    · left
      rw [if_pos hnil] at hround hpending
      rw [List.append_nil] at hpending
      rw [hnil, List.append_nil, hpending] at hbytes
      exact ⟨_, hround, junk, hbytes⟩
    · right
      rw [if_neg hnil] at hround hpending
      have hsize := h.size
      have hlen := congrArg List.length hbytes
      rw [filled.length_bytes, List.length_append, List.length_cons] at hlen
      refine ⟨cstr line.1, _, hnil, hround, ⟨NUL :: junk, hbytes, fun _ => rfl⟩, ?_, ?_, ?_, ?_, ?_⟩
      · rw [List.length_append, h.buf]
      · dsimp only
        rw [List.length_append]
        push_cast
        omega
      · omega
      · dsimp only
        rw [← hpending, List.append_assoc, hrest]
        congr 3
        omega
      · exact fun e => hrest.trans (heof e)

/-- The loop goes on behind a piece of the output that is not empty. -/
theorem Holds.again (h : Holds out done s) {s' : OutputReader respSize} (hbody : s.body = .inl s') :
    ∃ piece, piece ≠ [] ∧ Holds out (done ++ piece) s' := by
  rcases h.round with ⟨t, hround, -⟩ | ⟨piece, t, hne, hround, hnext⟩
  · rw [body, checked_leave hround] at hbody
    cases hbody
  · rw [body, checked_again hround] at hbody
    obtain rfl := Sum.inl.inj hbody
    exact ⟨piece, hne, hnext⟩

end OutputReader

/-! ### The loop as a whole -/

section Runs

variable {respSize : ℕ} {out : Text}

open OutputReader

/-- What is known at the head of every round. -/
theorem holds_of_reaches (hsize : 1 ≤ respSize) {respBuf : CharArray respSize}
    {s : OutputReader respSize} (h : Reaches body (.start respBuf out) s) :
    ∃ done, Holds out done s := by
  refine h.invariant (fun s => ∃ done, Holds out done s) ?_ ⟨[], Holds.start hsize respBuf⟩
  intro s s' ⟨done, hs⟩ hbody
  obtain ⟨piece, -, hs'⟩ := hs.again hbody
  exact ⟨done ++ piece, hs'⟩

/-- **The loop ends**, without leaving the buffer, and with the text in it.  Every round that goes
on leaves less room. -/
theorem exists_returns_filled (hsize : 1 ≤ respSize) (respBuf : CharArray respSize) (out : Text) :
    ∃ s, Returns body (.start respBuf out) (some s) ∧ Filled out s := by
  have hkeep : ∀ s s' : OutputReader respSize, (∃ done, Holds out done s) → body s = .inl s' →
      (∃ done, Holds out done s') ∧ s'.size.toNat < s.size.toNat := by
    intro s s' ⟨done, hs⟩ hbody
    obtain ⟨piece, hne, hs'⟩ := hs.again hbody
    refine ⟨⟨_, hs'⟩, ?_⟩
    -- a piece takes up room
    have hpos := List.length_pos_iff.mpr hne
    have hroom := hs'.room
    have hold := hs.size
    have hnew := hs'.size
    rw [List.length_append] at hroom hnew
    omega
  have hstart : ∃ done, Holds out done (OutputReader.start respBuf out) :=
    ⟨[], Holds.start hsize respBuf⟩
  obtain ⟨r, hr⟩ := exists_returns _ _ hkeep hstart
  obtain ⟨s, ⟨done, hs⟩, hleave⟩ :=
    hr.invariant _ (fun s s' hs hbody => (hkeep s s' hs hbody).1) hstart
  rcases hs.round with ⟨t, hround, hfilled⟩ | ⟨piece, t, -, hround, -⟩
  · rw [body, checked_leave hround] at hleave
    obtain rfl := Sum.inr.inj hleave
    exact ⟨t, hr, hfilled⟩
  · rw [body, checked_again hround] at hleave
    cases hleave

/-- The terminator in the last byte of the buffer leaves the text as it is. -/
theorem exists_terminated {a : CharArray respSize} {t tail : Text}
    (hbytes : a.bytes = t ++ NUL :: tail) :
    ∃ b tail', a.store (respSize - 1) [NUL] = some b ∧ b.bytes = t ++ NUL :: tail' := by
  have hlen := a.length_bytes
  rcases List.eq_nil_or_concat tail with rfl | ⟨init, last, rfl⟩
  · -- it is written over the one behind the text
    rw [hbytes, List.length_append, List.length_singleton] at hlen
    obtain ⟨b, hb, hbytes'⟩ := CharArray.exists_store hbytes [NUL] hlen.le
    have hindex : respSize - 1 = t.length := by omega
    rw [hindex]
    exact ⟨b, [], hb, by simpa using hbytes'⟩
  · have hcut : a.bytes = (t ++ NUL :: init) ++ [last] := by rw [hbytes]; simp
    rw [hcut, List.length_append, List.length_singleton] at hlen
    obtain ⟨b, hb, hbytes'⟩ := CharArray.exists_store hcut [NUL] hlen.le
    have hindex : respSize - 1 = (t ++ NUL :: init).length := by omega
    rw [hindex]
    exact ⟨b, init ++ [NUL], hb, by rw [hbytes']; simp⟩

/-- **The loop leaves `readOutput` in the buffer**, whatever was there and whatever the output is.
By this the other modules may work with the function instead of the loop. -/
theorem exists_fillsRespBuf (hsize : 1 ≤ respSize) (respBuf : CharArray respSize) (out : Text) :
    ∃ filled tail, FillsRespBuf respBuf out filled ∧
      filled.bytes = readOutput respSize out ++ NUL :: tail := by
  obtain ⟨s, hs, tail, hbytes⟩ := exists_returns_filled hsize respBuf out
  obtain ⟨filled, tail', hstore, hfilled⟩ := exists_terminated hbytes
  exact ⟨filled, tail', ⟨s, hs, hstore⟩, hfilled⟩

/-- What fills the buffer is the text that was read, with its terminator; behind it anything may
stand. -/
theorem FillsRespBuf.bytes (hsize : 1 ≤ respSize) {respBuf filled : CharArray respSize}
    (h : FillsRespBuf respBuf out filled) :
    ∃ tail, filled.bytes = readOutput respSize out ++ NUL :: tail := by
  obtain ⟨filled', tail, ⟨s', hs', hstore'⟩, hbytes⟩ := exists_fillsRespBuf hsize respBuf out
  obtain ⟨s, hs, hstore⟩ := h
  obtain rfl := Option.some.inj (hs.unique hs')
  obtain rfl := Option.some.inj (hstore.symm.trans hstore')
  exact ⟨tail, hbytes⟩

/-- **The loop is a bounded reader of what the output begins with**: it ends, its variables stay in
step with the buffer, all that it writes and reads lies in the buffer, and the text it leaves there
is what the output begins with, or all of it where two bytes of room are left. -/
theorem output_read_bounded (hsize : 1 ≤ respSize) (respBuf : CharArray respSize)
    (hnul : NUL ∉ out) :
    (∀ s, Reaches body (.start respBuf out) s →
        1 ≤ s.size ∧ (s.buf : ℤ) = respSize - s.size ∧ s.round ≠ none) ∧
      ∃ filled text, FillsRespBuf respBuf out filled ∧ filled.text? = some text ∧ text <+: out ∧
        (out.length + 2 ≤ respSize → text = out) := by
  constructor
  · intro s hreach
    obtain ⟨done, hs⟩ := holds_of_reaches hsize hreach
    have hbuf := hs.buf
    have hroom := hs.room
    have hold := hs.size
    refine ⟨by omega, by omega, ?_⟩
    rcases hs.round with ⟨_, hround, -⟩ | ⟨_, _, -, hround, -⟩
    · exact hround ▸ Option.some_ne_none _
    · exact hround ▸ Option.some_ne_none _
  · obtain ⟨filled, tail, hfills, hbytes⟩ := exists_fillsRespBuf hsize respBuf out
    refine ⟨filled, _, hfills, ?_, readOutput_isPrefix hnul, readOutput_eq_self hnul⟩
    unfold CharArray.text?
    rw [hbytes, if_pos (by simp), cstr_append_NUL notMem_readOutput]

/-- A line is read into a buffer of eight bytes, and stays in it. -/
theorem wlan0_read_bounded :
    (∀ s, Reaches body (OutputReader.start (CharArray.zero 8) "wlan0\n".toList) s →
        1 ≤ s.size ∧ (s.buf : ℤ) = (8 : ℕ) - s.size ∧ s.round ≠ none) ∧
      ∃ filled text, FillsRespBuf (CharArray.zero 8) "wlan0\n".toList filled ∧
        filled.text? = some text ∧ text <+: "wlan0\n".toList ∧
        ("wlan0\n".toList.length + 2 ≤ 8 → text = "wlan0\n".toList) :=
  output_read_bounded (by decide) (CharArray.zero 8) (by decide)

end Runs

end RadioHal
