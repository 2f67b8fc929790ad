import Mathlib.Data.Int.DivMod
import Mathlib.Data.List.TakeWhile
import Mathlib.Tactic.Linarith

/-!
# C strings and the library functions on them

The text of a C string is the list of its characters up to the terminator.  A `char` array is a
list of bytes of fixed length, which need not hold a terminator at all: reading it as a string
is therefore partial.

## Main definitions

* `Text`, `cstr raw` — text, and the text a string function sees in raw bytes.
* `strStarts s p` — the comparison `strncmp(s, p, strlen(p)) == 0`.
* `strtol s` — the value, and whether any digit was converted; `toInt` narrows a `long`.
* `strsep d s` — one step of `strsep` with a one-character delimiter set.
* `CharArray n`, `CharArray.strncpy`, `CharArray.text?` — fixed-size fields.
* `sizeSub a b` — subtraction of `size_t`, which wraps round.

## Main results

* `text?_strncpy` — a copied text is read back exactly when it leaves room for the terminator.
* `strtol_digits` — a row of digits is read as the number it denotes, up to the largest `long`.
* `le_of_lt_toInt_clamp` — narrowing a `long` never makes a small number large.
-/

namespace CLib

/-- The characters of a C string, the terminator left out. -/
abbrev Text : Type := List Char

/-- The terminator of a string. -/
def NUL : Char := '\x00'

/-- The text a string function sees in raw bytes. -/
def cstr (raw : Text) : Text := raw.takeWhile fun c => c != NUL

/-- What comes up to a character is not looked for among others. -/
theorem takeWhile_ne_append {d : Char} {t : Text} (h : d ∉ t) (u : Text) :
    (t ++ u).takeWhile (fun c => c != d) = t ++ u.takeWhile fun c => c != d := by
  refine List.takeWhile_append_of_pos fun c hc => ?_
  have hne : c ≠ d := fun e => h (e ▸ hc)
  simpa using hne

theorem cstr_append {t : Text} (h : NUL ∉ t) (rest : Text) : cstr (t ++ rest) = t ++ cstr rest :=
  takeWhile_ne_append h rest

theorem notMem_cstr (raw : Text) : NUL ∉ cstr raw := by
  intro h
  have hne := List.mem_takeWhile_imp h
  exact absurd hne (by decide)

/-- A C string ends at its first terminator. -/
theorem cstr_append_NUL {t : Text} (h : NUL ∉ t) (rest : Text) : cstr (t ++ NUL :: rest) = t :=
  (cstr_append h (NUL :: rest)).trans (List.append_nil t)

/-- What a string function sees is what the bytes begin with. -/
theorem cstr_isPrefix (raw : Text) : cstr raw <+: raw := List.takeWhile_prefix _

theorem cstr_append_NUL_cons (t rest : Text) : cstr (t ++ NUL :: rest) = cstr t := by
  induction t with
  | nil => simp [cstr]
  | cons c t ih =>
    unfold cstr at ih ⊢
    by_cases hc : c = NUL
    · simp [hc]
    · simp [hc, ih]

/-- Bytes with a terminator are a string, its terminator, and what lies behind. -/
theorem exists_eq_cstr_append {raw : Text} (h : NUL ∈ raw) :
    ∃ rest, raw = cstr raw ++ NUL :: rest := by
  induction raw with
  | nil => exact absurd h List.not_mem_nil
  | cons c raw ih =>
    by_cases hc : c = NUL
    · subst hc
      exact ⟨raw, rfl⟩
    · obtain ⟨rest, hrest⟩ := ih ((List.mem_cons.mp h).resolve_left (Ne.symm hc))
      have hcstr : cstr (c :: raw) = c :: cstr raw := List.takeWhile_cons_of_pos (by simpa using hc)
      exact ⟨rest, by rw [hcstr, List.cons_append, ← hrest]⟩

theorem cstr_eq_self {t : Text} (h : NUL ∉ t) : cstr t = t := by
  have happend := cstr_append h []
  rw [List.append_nil] at happend
  exact happend.trans (List.append_nil t)

/-! ### Comparing -/

/-- `strncmp(s, p, strlen(p)) == 0`. -/
def strStarts (s p : Text) : Bool := p.isPrefixOf s

theorem strStarts_iff {s p : Text} : strStarts s p = true ↔ p <+: s :=
  List.isPrefixOf_iff_prefix

/-! ### Numbers -/

/-- `isspace` in the C locale, which knows six characters. -/
def isspace (c : Char) : Bool :=
  c == ' ' || c == '\t' || c == '\n' || c == '\x0b' || c == '\x0c' || c == '\r'

/-- `isdigit`. -/
def isdigit (c : Char) : Bool := '0' ≤ c && c ≤ '9'

/-- The number a row of decimal digits denotes. -/
def digitsValue (ds : Text) : ℕ := ds.foldl (fun n c => 10 * n + (c.toNat - '0'.toNat)) 0

/-- The largest `long` of a 64-bit machine. -/
def longMax : ℤ := 2 ^ 63 - 1

/-- The smallest `long` of a 64-bit machine. -/
def longMin : ℤ := -2 ^ 63

/-- What `strtol` reports: the value, whether it moved its end pointer, and `ERANGE`. -/
structure Strtol where
  /-- The value, cut to the range of `long`. -/
  value : ℤ
  /-- Some digit was converted: the end pointer differs from the start. -/
  converted : Bool
  /-- The number lies outside the range of `long`. -/
  erange : Bool
  deriving DecidableEq, Repr

/-- A number cut to the range of `long`. -/
def clampLong (v : ℤ) : ℤ := max longMin (min longMax v)

/-- `strtol` to base ten, once white space and sign are taken off. -/
def strtolDigits (neg : Bool) (s : Text) : Strtol :=
  let ds := s.takeWhile isdigit
  let v : ℤ := if neg then -(digitsValue ds : ℤ) else digitsValue ds
  if ds.isEmpty then ⟨0, false, false⟩
  else ⟨clampLong v, true, decide (clampLong v ≠ v)⟩

/-- `strtol(s, &end, 10)`. -/
def strtol (s : Text) : Strtol :=
  match s.dropWhile isspace with
  | '-' :: rest => strtolDigits true rest
  | '+' :: rest => strtolDigits false rest
  | rest => strtolDigits false rest

/-- The conversion of a `long` to a 32-bit `int`. -/
def toInt (l : ℤ) : ℤ := Int.bmod l (2 ^ 32)

theorem isdigit_not_isspace {c : Char} (h : isdigit c = true) : isspace c = false := by
  simp only [isdigit, Bool.and_eq_true, decide_eq_true_eq] at h
  simp only [isspace, Bool.or_eq_false_iff, beq_eq_false_iff_ne, ne_eq]
  refine ⟨⟨⟨⟨⟨?_, ?_⟩, ?_⟩, ?_⟩, ?_⟩, ?_⟩ <;> rintro rfl <;> revert h <;> decide

/-- **A row of digits is read as the number it denotes**, up to the largest `long`. -/
theorem strtol_digits {ds : Text} (hne : ds ≠ []) (hds : ∀ c ∈ ds, isdigit c = true) :
    (strtol ds).value = min longMax (digitsValue ds) ∧ (strtol ds).converted = true := by
  obtain ⟨c, cs, rfl⟩ := List.exists_cons_of_ne_nil hne
  have hc := hds c List.mem_cons_self
  have hdrop : (c :: cs).dropWhile isspace = c :: cs := by
    rw [List.dropWhile_cons, isdigit_not_isspace hc]
    rfl
  have hsign : strtol (c :: cs) = strtolDigits false (c :: cs) := by
    unfold strtol
    rw [hdrop]
    split
    · next h => rw [(List.cons.inj h).1] at hc; exact absurd hc (by decide)
    · next h => rw [(List.cons.inj h).1] at hc; exact absurd hc (by decide)
    · rfl
  have htake : (c :: cs).takeWhile isdigit = c :: cs := List.takeWhile_eq_self_iff.mpr hds
  rw [hsign, strtolDigits, htake]
  have hpos : longMin ≤ min longMax (digitsValue (c :: cs) : ℤ) := by
    unfold longMin longMax
    omega
  simp only [Bool.false_eq_true, if_false, List.isEmpty_cons, clampLong, and_true]
  exact max_eq_right hpos

/-- Narrowing a non-negative `long` never makes a small number large. -/
theorem le_of_lt_toInt_clamp {n : ℕ} (h : 1 < toInt (min longMax n)) : 2 ≤ n := by
  unfold toInt longMax at h
  by_contra hn
  have hn' : n = 0 ∨ n = 1 := by omega
  rcases hn' with rfl | rfl <;> revert h <;> decide

/-! ### Splitting -/

/-- `strsep(&s, d)`: the token before the first `d`, and where the pointer is left, `none` for
`NULL`. -/
def strsep (d : Char) : Text → Text × Option Text
  | [] => ([], none)
  | c :: cs =>
    if c = d then ([], some cs)
    else
      let r := strsep d cs
      (c :: r.1, r.2)

@[simp] theorem strsep_append_cons (d : Char) {t : Text} (ht : d ∉ t) (rest : Text) :
    strsep d (t ++ d :: rest) = (t, some rest) := by
  induction t with
  | nil => simp [strsep]
  | cons c t ih =>
    rw [List.mem_cons, not_or] at ht
    rw [List.cons_append, strsep, if_neg (Ne.symm ht.1), ih ht.2]

/-- Without a delimiter the token is all there is. -/
theorem strsep_of_notMem (d : Char) {t : Text} (ht : d ∉ t) : strsep d t = (t, none) := by
  induction t with
  | nil => rfl
  | cons c t ih =>
    rw [List.mem_cons, not_or] at ht
    rw [strsep, if_neg (Ne.symm ht.1), ih ht.2]

/-- The characters of a token are those of the text. -/
theorem mem_of_mem_strsep {c d : Char} {t : Text} (h : c ∈ (strsep d t).1) : c ∈ t := by
  induction t with
  | nil => exact absurd h List.not_mem_nil
  | cons a t ih =>
    rw [strsep] at h
    split at h
    · exact absurd h List.not_mem_nil
    · rcases List.mem_cons.mp h with rfl | hmem
      · exact List.mem_cons_self
      · exact List.mem_cons_of_mem a (ih hmem)

/-! ### Fixed-size fields -/

/-- Subtraction of two `size_t` values, which wraps round below zero. -/
def sizeSub (a b : ℕ) : ℕ := if b ≤ a then a - b else 2 ^ 64 - (b - a)

/-- A `char` array of `n` bytes, as it lies in memory. -/
structure CharArray (n : ℕ) where
  /-- The bytes, in order. -/
  bytes : List Char
  /-- There are as many as the array is long. -/
  length_bytes : bytes.length = n
  deriving DecidableEq

namespace CharArray

variable {n : ℕ}

/-- An array as `calloc` and `= {0}` leave it. -/
def zero (n : ℕ) : CharArray n := ⟨List.replicate n NUL, List.length_replicate⟩

instance : Inhabited (CharArray n) := ⟨zero n⟩

/-- `strncpy(array, t, sizeof(array))`: `t` cut to the array, the rest filled with terminators. -/
def strncpy (n : ℕ) (t : Text) : CharArray n :=
  ⟨(t ++ List.replicate n NUL).take n, by simp⟩

/-- The array read as a C string; `none` when there is no terminator in it, so that the reading
runs on into what lies behind. -/
def text? (a : CharArray n) : Option Text :=
  if NUL ∈ a.bytes then some (cstr a.bytes) else none

@[simp] theorem text?_zero (h : 0 < n) : (zero n).text? = some [] := by
  obtain ⟨k, rfl⟩ : ∃ k, n = k + 1 := ⟨n - 1, by omega⟩
  simp [text?, zero, cstr, List.replicate_succ]

/-- A text that leaves room is stored whole, with terminators behind it. -/
theorem bytes_strncpy_of_lt {t : Text} (h : t.length < n) :
    (strncpy n t).bytes = t ++ NUL :: List.replicate (n - t.length - 1) NUL := by
  obtain ⟨k, hk⟩ : ∃ k, n - t.length = k + 1 := ⟨n - t.length - 1, by omega⟩
  unfold strncpy
  dsimp only
  rw [List.take_append, List.take_of_length_le (by omega), List.take_replicate, hk,
    min_eq_left (by omega), List.replicate_succ, Nat.add_sub_cancel]

/-- A text as long as the array, or longer, leaves no room for a terminator. -/
theorem bytes_strncpy_of_le {t : Text} (h : n ≤ t.length) : (strncpy n t).bytes = t.take n := by
  unfold strncpy
  dsimp only
  rw [List.take_append_of_le_length h]

/-- **A copied text is read back exactly when it leaves room for the terminator.** -/
theorem text?_strncpy {t : Text} (ht : NUL ∉ t) :
    (strncpy n t).text? = if t.length < n then some t else none := by
  unfold text?
  by_cases hlen : t.length < n
  · rw [bytes_strncpy_of_lt hlen, if_pos (by simp), if_pos hlen, cstr_append_NUL ht]
  · rw [bytes_strncpy_of_le (by omega), if_neg hlen, if_neg]
    exact fun h => ht (List.mem_of_mem_take h)

/-- The bytes of a copied text are its characters and terminators. -/
theorem mem_bytes_strncpy {t : Text} {c : Char} (h : c ∈ (strncpy n t).bytes) :
    c = NUL ∨ c ∈ t := by
  have := List.mem_of_mem_take h
  rw [List.mem_append, List.mem_replicate] at this
  rcases this with h | ⟨-, rfl⟩
  · exact Or.inr h
  · exact Or.inl rfl

end CharArray

end CLib
