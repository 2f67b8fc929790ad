import RadioHal.Lib.CString

/-!
# Reading the output of a program

Both HALs run programs through `popen` and collect the output in a buffer, line by line, in
pieces of at most 127 characters.

## Main definitions

* `fgets n s` — one piece, and what is left of the output.
* `readOutput size out` — the text the reading loop leaves in a buffer of `size` bytes.
* `prepareCmdBuf len s` — a formatted command, cut to its buffer.

## Main results

* `readLine_append` — a piece and the rest make up the output.
* `readOutput_eq` — the text, by its first piece.
* `notMem_readOutput`, `readOutput_eq_self` — what is read is a text, and the whole output where
  that is one and leaves two bytes of room.
* `readOutput_isPrefix` — what is read of a text is what it begins with.
-/

namespace RadioHal

open CLib

/-- At most `k` characters, up to a line change. -/
def readLine : ℕ → Text → Text × Text
  | 0, s => ([], s)
  | _ + 1, [] => ([], [])
  | k + 1, c :: cs =>
    if c = '\n' then ([c], cs) else (c :: (readLine k cs).1, (readLine k cs).2)

/-- `fgets(buf, n, f)`: at most `n - 1` characters, and nothing for `n ≤ 1`. -/
def fgets (n : ℕ) (s : Text) : Text × Text := readLine (n - 1) s

theorem readLine_append (k : ℕ) (s : Text) : (readLine k s).1 ++ (readLine k s).2 = s := by
  induction k generalizing s with
  | zero => rfl
  | succ k ih =>
    cases s with
    | nil => rfl
    | cons c cs =>
      rw [readLine]
      split
      · rfl
      · exact congrArg (c :: ·) (ih cs)

/-- The loop `while (!feof(f))`; every round but the last reads something, so `fuel` rounds are
enough for an output shorter than that. -/
def readOutputLoop : ℕ → ℕ → Text → Text
  | 0, _, _ => []
  | fuel + 1, size, out =>
    let piece := fgets (if 128 ≤ size then 128 else size - 1) out
    if (cstr piece.1).isEmpty then []
    else cstr piece.1 ++ readOutputLoop fuel (size - (cstr piece.1).length) piece.2

/-- The text the reading loop leaves in the response buffer. -/
def readOutput (size : ℕ) (out : Text) : Text := readOutputLoop (out.length + 1) size out

section Reading

variable {out : Text} {size : ℕ}

theorem notMem_readOutputLoop (fuel : ℕ) : NUL ∉ readOutputLoop fuel size out := by
  induction fuel generalizing size out with
  | zero => exact List.not_mem_nil
  | succ fuel ih =>
    rw [readOutputLoop]
    generalize fgets (if 128 ≤ size then 128 else size - 1) out = piece
    split
    · exact List.not_mem_nil
    · rw [List.mem_append, not_or]
      exact ⟨notMem_cstr _, ih⟩

theorem notMem_readOutput : NUL ∉ readOutput size out := notMem_readOutputLoop _

theorem fgets_nil (n : ℕ) : fgets n [] = ([], []) := by
  unfold fgets
  cases n - 1 with
  | zero => rfl
  | succ k => rfl

/-- Where there is room and something to read, something is read. -/
theorem readLine_ne_nil {k : ℕ} {c : Char} {cs : Text} : (readLine (k + 1) (c :: cs)).1 ≠ [] := by
  rw [readLine]
  split
  · simp
  · simp

/-- A piece that is not empty leaves less to read. -/
theorem length_fgets_lt {n : ℕ} {piece : Text × Text} (hpiece : fgets n out = piece)
    (hne : cstr piece.1 ≠ []) : piece.2.length < out.length := by
  have happend : piece.1 ++ piece.2 = out := hpiece ▸ readLine_append (n - 1) out
  have hpos : piece.1 ≠ [] := fun hnil => hne (congrArg cstr hnil)
  rw [← happend, List.length_append]
  exact Nat.lt_add_of_pos_left (List.length_pos_iff.mpr hpos)

/-- More rounds than there are characters read no more. -/
theorem readOutputLoop_congr {fuel fuel' : ℕ} (h : out.length < fuel) (h' : out.length < fuel') :
    readOutputLoop fuel size out = readOutputLoop fuel' size out := by
  induction fuel generalizing fuel' size out with
  | zero => omega
  | succ fuel ih =>
    obtain ⟨k, rfl⟩ : ∃ k, fuel' = k + 1 := ⟨fuel' - 1, by omega⟩
    rw [readOutputLoop, readOutputLoop]
    generalize hpiece : fgets (if 128 ≤ size then 128 else size - 1) out = piece
    split
    · rfl
    · next hne =>
      have hlt := length_fgets_lt hpiece (by simpa using hne)
      rw [ih (Nat.lt_of_lt_of_le hlt (Nat.lt_succ_iff.mp h))
        (Nat.lt_of_lt_of_le hlt (Nat.lt_succ_iff.mp h'))]

/-- **The text that is read, by its first piece**: a piece is as long as a line, or as the buffer.
-/
theorem readOutput_eq {piece : Text × Text}
    (hpiece : fgets (if 128 ≤ size then 128 else size - 1) out = piece) :
    readOutput size out =
      if cstr piece.1 = [] then []
      else cstr piece.1 ++ readOutput (size - (cstr piece.1).length) piece.2 := by
  unfold readOutput
  rw [readOutputLoop, hpiece]
  simp only [List.isEmpty_iff]
  split
  · rfl
  · next hne =>
    rw [readOutputLoop_congr (length_fgets_lt hpiece hne) (Nat.lt_succ_self _)]

/-- What is read of a text is what it begins with. -/
theorem readOutput_isPrefix (hnul : NUL ∉ out) : readOutput size out <+: out := by
  unfold readOutput
  generalize out.length + 1 = fuel
  induction fuel generalizing size out with
  | zero => exact List.nil_prefix
  | succ fuel ih =>
    rw [readOutputLoop]
    have happend : (fgets (if 128 ≤ size then 128 else size - 1) out).1 ++
        (fgets (if 128 ≤ size then 128 else size - 1) out).2 = out := readLine_append _ _
    generalize fgets (if 128 ≤ size then 128 else size - 1) out = piece at happend
    rw [← happend, List.mem_append, not_or] at hnul
    split
    · exact List.nil_prefix
    · rw [cstr_eq_self hnul.1, ← happend]
      exact (List.prefix_append_right_inj _).mpr (ih hnul.2)

/-- The loop reads a text to its end when two bytes of room are left. -/
theorem readOutputLoop_eq_self {fuel : ℕ} (hfuel : out.length < fuel) (hnul : NUL ∉ out)
    (hsize : out.length + 2 ≤ size) : readOutputLoop fuel size out = out := by
  induction fuel generalizing size out with
  | zero => omega
  | succ fuel ih =>
    rw [readOutputLoop]
    cases out with
    | nil =>
      rw [fgets_nil]
      rfl
    | cons c cs =>
      obtain ⟨k, hk⟩ : ∃ k, (if 128 ≤ size then 128 else size - 1) = k + 2 := by
        refine ⟨(if 128 ≤ size then 128 else size - 1) - 2, ?_⟩
        simp only [List.length_cons] at hsize
        split <;> omega
      rw [hk]
      have hne : (fgets (k + 2) (c :: cs)).1 ≠ [] := readLine_ne_nil
      have happend : (fgets (k + 2) (c :: cs)).1 ++ (fgets (k + 2) (c :: cs)).2 = c :: cs :=
        readLine_append _ _
      generalize fgets (k + 2) (c :: cs) = piece at hne happend
      rw [← happend] at hfuel hnul hsize ⊢
      rw [List.mem_append, not_or] at hnul
      have hpos := List.length_pos_iff.mpr hne
      rw [List.length_append] at hfuel hsize
      rw [cstr_eq_self hnul.1, if_neg (by simpa using hne),
        ih (by omega) hnul.2 (by omega)]

/-- **A text that leaves two bytes of room is read whole.**  One byte is for its terminator, and
`fgets` reads a byte less than it is given. -/
theorem readOutput_eq_self (hnul : NUL ∉ out) (hsize : out.length + 2 ≤ size) :
    readOutput size out = out :=
  readOutputLoop_eq_self (Nat.lt_succ_self _) hnul hsize

end Reading

/-- `prepare_cmd_buf`: the formatted command, cut to a buffer of `len` bytes. -/
def prepareCmdBuf (len : ℕ) (s : Text) : Text := s.take (len - 1)

/-- `CMD_BUFFER_SIZE`. -/
def cmdBufferSize : ℕ := 2048

/-- `RESP_BUFFER_SIZE`. -/
def respBufferSize : ℕ := 2048

end RadioHal
