import RadioHal.Lib.CString

/-!
# Accesses to a buffer

A buffer is the row of its bytes.  A write that does not fit in it, and a read that goes on behind
its end, have no result: what the program then does is not defined.

## Main definitions

* `load mem i n`, `store mem i bytes` — reading `n` bytes from index `i` on, and writing there.
* `readText mem` — the C string at the beginning of a buffer.
* `padded n t` — the bytes `strncpy` writes for the text `t`.
* `CharArray.strcpy a t` — the array `a` with the text `t` copied to it, where it fits.
* `CharArray.overwrite a i bytes` — the array behind a write that need not fit in it.
* `CharArray.store a i bytes` — the array behind a write, where it fits.
* `scan p mem i` — the index a pointer comes to that starts at `i` and goes on while `p` holds.

## Main results

* `load_append`, `store_append` — the access to the middle part of a buffer.
* `store_eq_none_iff` — **a write has no result exactly when it does not fit.**
* `readText_append_NUL`, `CharArray.cstr_of_strcpy` — texts that are written are read back.
* `getElem?_overwrite` — a byte of an array that was written to.
* `scan_le`, `scan_append` — **a scan stops at the first character it may not go past.**
-/

namespace CLib

variable {mem bytes t : Text} {i n : ℕ}

/-- Reading `n` bytes from index `i` on. -/
def load (mem : Text) (i n : ℕ) : Option Text :=
  if i + n ≤ mem.length then some ((mem.drop i).take n) else none

/-- The memory with `bytes` written from index `i` on; `none` where they run over its end. -/
def store (mem : Text) (i : ℕ) (bytes : Text) : Option Text :=
  if i + bytes.length ≤ mem.length then
    some (mem.take i ++ bytes ++ mem.drop (i + bytes.length))
  else none

/-- The C string at the beginning of a buffer. -/
def readText (mem : Text) : Option Text := if NUL ∈ mem then some (cstr mem) else none

/-- What `strncpy(dst, t, n)` writes: `t` cut to `n` bytes, or filled with terminators. -/
def padded (n : ℕ) (t : Text) : Text := (CharArray.strncpy n t).bytes

/-! ### Writing -/

/-- A write has no result exactly when it does not fit. -/
theorem store_eq_none_iff : store mem i bytes = none ↔ mem.length < i + bytes.length := by
  unfold store
  split
  · simp; omega
  · simp; omega

theorem store_append (a b c : Text) (h : bytes.length = b.length) :
    store (a ++ b ++ c) a.length bytes = some (a ++ bytes ++ c) := by
  unfold store
  rw [if_pos (by simp; omega), h]
  simp [List.drop_append]

theorem store_zero (h : bytes.length ≤ mem.length) :
    store mem 0 bytes = some (bytes ++ mem.drop bytes.length) := by
  unfold store
  simp [h]

/-! ### Reading -/

theorem load_append (a b c : Text) : load (a ++ b ++ c) a.length b.length = some b := by
  unfold load
  rw [if_pos (by simp)]
  simp

theorem readText_append_NUL_cons (t rest : Text) :
    readText (t ++ NUL :: rest) = some (cstr t) := by
  unfold readText
  rw [if_pos (by simp), cstr_append_NUL_cons]

/-- A text is read back, up to its terminator. -/
theorem readText_append_NUL (h : NUL ∉ t) (rest : Text) : readText (t ++ NUL :: rest) = some t := by
  rw [readText_append_NUL_cons, cstr_eq_self h]

/-! ### Copied texts -/

@[simp] theorem length_padded (n : ℕ) (t : Text) : (padded n t).length = n :=
  (CharArray.strncpy n t).length_bytes

@[simp] theorem padded_zero (t : Text) : padded 0 t = [] :=
  List.eq_nil_of_length_eq_zero (length_padded 0 t)

/-- A text that leaves room is copied with its terminator. -/
theorem padded_of_lt (h : t.length < n) :
    padded n t = t ++ NUL :: List.replicate (n - t.length - 1) NUL :=
  CharArray.bytes_strncpy_of_lt h

namespace CharArray

variable {a b : CharArray n}

/-- `strcpy(array, t)`: the text and its terminator are written over what the array begins with.
There is no result where they do not fit. -/
def strcpy (a : CharArray n) (t : Text) : Option (CharArray n) :=
  if h : t.length < n then
    some ⟨t ++ NUL :: a.bytes.drop (t.length + 1), by
      simp only [List.length_append, List.length_cons, List.length_drop, a.length_bytes]
      omega⟩
  else none

/-- A text fits when it leaves room for its terminator. -/
theorem strcpy_eq_none_iff : a.strcpy t = none ↔ n ≤ t.length := by
  unfold strcpy
  split
  · simp; omega
  · simp; omega

/-- A text that is copied is read back. -/
theorem cstr_of_strcpy (h : a.strcpy t = some b) (hnul : NUL ∉ t) : cstr b.bytes = t := by
  unfold strcpy at h
  split at h
  · cases h
    exact cstr_append_NUL hnul _
  · cases h

/-- The array behind a write of `bytes` from index `i` on; what lies behind its end is not its
own. -/
def overwrite (a : CharArray n) (i : ℕ) (bytes : Text) : CharArray n :=
  ⟨(a.bytes.take i ++ bytes ++ a.bytes.drop (i + bytes.length)).take n, by
    simp only [List.length_take, List.length_append, List.length_drop, a.length_bytes]
    omega⟩

/-- A byte is the one written to its place, or the one that was there. -/
theorem getElem?_overwrite {j : ℕ} (hj : j < n) : (a.overwrite i bytes).bytes[j]? =
    if i ≤ j ∧ j < i + bytes.length then bytes[j - i]? else a.bytes[j]? := by
  have hlen := a.length_bytes
  unfold overwrite
  simp only [List.getElem?_take_of_lt hj]
  split
  · next hin =>
    rw [List.append_assoc, List.getElem?_append_right (by simp; omega),
      List.getElem?_append_left (by simp; omega), List.length_take, min_eq_left (by omega)]
  · next hout =>
    rcases Nat.lt_or_ge j i with hlt | hge
    · rw [List.append_assoc, List.getElem?_append_left (by simp; omega),
        List.getElem?_take_of_lt hlt]
    · rw [List.getElem?_append_right (by simp; omega), List.getElem?_drop]
      congr 1
      simp
      omega

/-- The array behind a write of `bytes` from index `i` on.  There is no result where they do not
fit. -/
def store (a : CharArray n) (i : ℕ) (bytes : Text) : Option (CharArray n) :=
  if i + bytes.length ≤ n then some (a.overwrite i bytes) else none

/-- What lies behind a part of an array is overwritten. -/
theorem exists_store {t rest : Text} (hbytes : a.bytes = t ++ rest) (bytes : Text)
    (hroom : t.length + bytes.length ≤ n) :
    ∃ b, a.store t.length bytes = some b ∧
      b.bytes = t ++ bytes ++ rest.drop bytes.length := by
  have hlen := a.length_bytes
  refine ⟨a.overwrite t.length bytes, if_pos hroom, ?_⟩
  unfold overwrite
  dsimp only
  rw [hbytes, List.length_append] at hlen
  rw [hbytes, List.take_left, ← List.drop_drop, List.drop_left, List.take_of_length_le]
  rw [List.length_append, List.length_append, List.length_drop]
  omega

/-- The bytes of an array behind a write that fits. -/
theorem bytes_overwrite {t rest : Text} (hbytes : a.bytes = t ++ rest) (bytes : Text)
    (hroom : t.length + bytes.length ≤ n) :
    (a.overwrite t.length bytes).bytes = t ++ bytes ++ rest.drop bytes.length := by
  obtain ⟨b, hb, heq⟩ := exists_store hbytes bytes hroom
  rw [store, if_pos hroom] at hb
  rw [Option.some.inj hb, heq]

end CharArray

/-! ### Scanning -/

section Scanning

variable {p : Char → Bool} {c : Char}

/-- The index a pointer comes to that starts at `i` and goes on over characters with `p`. -/
def scan (p : Char → Bool) (mem : Text) (i : ℕ) : ℕ := i + ((mem.drop i).takeWhile p).length

theorem drop_scan (p : Char → Bool) (mem : Text) (i : ℕ) :
    mem.drop (scan p mem i) = (mem.drop i).dropWhile p := by
  have hsplit := List.takeWhile_append_dropWhile (p := p) (l := mem.drop i)
  calc mem.drop (scan p mem i)
      = (mem.drop i).drop ((mem.drop i).takeWhile p).length := by rw [scan, List.drop_drop]
    _ = ((mem.drop i).takeWhile p ++ (mem.drop i).dropWhile p).drop
          ((mem.drop i).takeWhile p).length := by rw [hsplit]
    _ = (mem.drop i).dropWhile p := List.drop_left' rfl

/-- The scan cuts what lies before it in two. -/
theorem drop_eq_takeWhile_append (p : Char → Bool) (mem : Text) (i : ℕ) :
    mem.drop i = (mem.drop i).takeWhile p ++ mem.drop (scan p mem i) := by
  rw [drop_scan, List.takeWhile_append_dropWhile]

/-- A scan does not go past a character without `p`. -/
theorem scan_le (hi : i ≤ n) (hget : mem[n]? = some c) (hc : p c = false) : scan p mem i ≤ n := by
  by_contra hlt
  unfold scan at hlt
  have hmem : (mem.drop i)[n - i]? = some c := by
    rw [List.getElem?_drop, Nat.add_sub_cancel' hi]
    exact hget
  rw [← List.takeWhile_append_dropWhile (p := p) (l := mem.drop i),
    List.getElem?_append_left (by omega)] at hmem
  have hp := List.mem_takeWhile_imp (List.mem_of_getElem? hmem)
  rw [hc] at hp
  cases hp

/-- Over characters with `p` a scan goes to the first one without. -/
theorem scan_append {u t : Text} (hdrop : mem.drop i = u ++ c :: t) (hu : ∀ d ∈ u, p d = true)
    (hc : p c = false) : scan p mem i = i + u.length := by
  unfold scan
  rw [hdrop, List.takeWhile_append_of_pos hu, List.takeWhile_cons_of_neg (by simp [hc]),
    List.append_nil]

end Scanning

end CLib
