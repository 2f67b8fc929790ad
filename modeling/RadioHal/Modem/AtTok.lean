import RadioHal.Lib.CString

/-!
# Tokens of an AT response line

`at_tok.c` walks through a response line with a cursor that is moved from token to token and set
to `NULL` behind the last one.

## Main definitions

* `atTokStart` — behind the colon of the line.
* `nextTok`, `atTokNextint`, `atTokNextstr` — the next token, as text or number.
* `nextLong` — the next number before it is narrowed.

## Main results

* `atTokNextstr_quoted`, `atTokNextint_digits` — a quoted token and a row of digits are read as
  they stand.
* `atTokNextint_spec` — what `at_tok_nextint` makes of the number in front of it.
-/

namespace RadioHal

open CLib

/-- A cursor into a line; `none` is `NULL`. -/
abbrev Cursor : Type := Option Text

/-- What lies behind the first colon, `strchr(line, ':') + 1`. -/
def afterColon : Text → Option Text
  | [] => none
  | c :: cs => if c = ':' then some cs else afterColon cs

/-- `at_tok_start`: the return value, and the cursor. -/
def atTokStart : Cursor → ℤ × Cursor
  | none => (-1, none)
  | some line =>
    match afterColon line with
    | none => (-1, none)
    | some rest => (0, some rest)

/-- `skipWhiteSpace`. -/
def skipWhiteSpace (cur : Cursor) : Cursor := cur.map fun s => s.dropWhile isspace

/-- `skipNextComma`: behind the next comma, or at the end. -/
def skipNextComma (cur : Cursor) : Cursor :=
  cur.map fun s => (s.dropWhile fun c => c != ',').drop 1

/-- `nextTok`: the token, `none` for `NULL`, and the cursor. -/
def nextTok (cur : Cursor) : Option Text × Cursor :=
  match skipWhiteSpace cur with
  | none => (none, none)
  | some s =>
    if s.head? = some '"' then (some (strsep '"' s.tail).1, skipNextComma (strsep '"' s.tail).2)
    else (some (strsep ',' s).1, (strsep ',' s).2)

/-- `at_tok_nextint`: the return value, what `*p_out` holds afterwards (it is written even where
no digit was read) and the cursor.  `out` is what `*p_out` held before. -/
def atTokNextint (cur : Cursor) (out : ℤ) : ℤ × ℤ × Cursor :=
  match cur with
  | none => (-1, out, none)
  | some _ =>
    match nextTok cur with
    | (none, rest) => (-1, out, rest)
    | (some ret, rest) =>
      (if (strtol ret).converted then 0 else -1, toInt (strtol ret).value, rest)

/-- `at_tok_nextstr`: the return value, what `*p_out` holds afterwards and the cursor. -/
def atTokNextstr (cur : Cursor) (out : Option Text) : ℤ × Option Text × Cursor :=
  match cur with
  | none => (-1, out, none)
  | some _ => (0, (nextTok cur).1, (nextTok cur).2)

/-- `at_tok_hasmore`. -/
def atTokHasmore (cur : Cursor) : Bool := cur.any fun s => s != []

/-- The characters of a token are those of the line. -/
theorem mem_of_mem_nextTok {c : Char} {cur t : Text} (ht : (nextTok (some cur)).1 = some t)
    (h : c ∈ t) : c ∈ cur := by
  have hskip : ∀ {a}, a ∈ cur.dropWhile isspace → a ∈ cur :=
    fun ha => (List.dropWhile_suffix isspace).subset ha
  unfold nextTok skipWhiteSpace at ht
  rw [Option.map_some] at ht
  dsimp only at ht
  split at ht
  · obtain rfl := Option.some.inj ht
    exact hskip (List.mem_of_mem_tail (mem_of_mem_strsep h))
  · obtain rfl := Option.some.inj ht
    exact hskip (mem_of_mem_strsep h)

/-! ### Numbers before they are narrowed -/

/-- The `long` that `at_tok_nextint` reads, and the cursor behind it. -/
def nextLong (cur : Cursor) : Option (ℤ × Cursor) :=
  match nextTok cur with
  | (none, _) => none
  | (some ret, rest) => if (strtol ret).converted then some ((strtol ret).value, rest) else none

/-- `at_tok_nextint` fails where there is no number, and narrows the one that is there. -/
theorem atTokNextint_spec (cur : Cursor) (out : ℤ) :
    (nextLong cur = none ∧ (atTokNextint cur out).1 = -1) ∨
      ∃ n rest, nextLong cur = some (n, rest) ∧ atTokNextint cur out = (0, toInt n, rest) := by
  cases cur with
  | none => exact Or.inl ⟨rfl, rfl⟩
  | some s =>
    unfold nextLong atTokNextint
    rcases htok : nextTok (some s) with ⟨_ | ret, rest⟩
    · exact Or.inl ⟨rfl, rfl⟩
    · by_cases hconv : (strtol ret).converted = true
      · right
        exact ⟨_, _, if_pos hconv, by simp [hconv]⟩
      · left
        exact ⟨if_neg hconv, by simp [hconv]⟩

/-! ### Reading what stands there -/

/-- A quoted token behind white space, with a comma behind it. -/
theorem atTokNextstr_quoted {ws tok : Text} (hws : ∀ c ∈ ws, isspace c = true)
    (htok : '"' ∉ tok) (rest : Text) (out : Option Text) :
    atTokNextstr (some (ws ++ '"' :: (tok ++ '"' :: ',' :: rest))) out =
      (0, some tok, some rest) := by
  have hskip : skipWhiteSpace (some (ws ++ '"' :: (tok ++ '"' :: ',' :: rest))) =
      some ('"' :: (tok ++ '"' :: ',' :: rest)) := by
    unfold skipWhiteSpace
    rw [Option.map_some, List.dropWhile_append_of_pos hws]
    rfl
  have hsep := strsep_append_cons '"' htok (',' :: rest)
  unfold atTokNextstr nextTok
  rw [hskip]
  dsimp only
  rw [List.head?_cons, if_pos rfl, List.tail_cons, hsep]
  rfl

/-- A token that begins with a digit ends at the next comma. -/
theorem nextTok_digit {c : Char} (hc : isdigit c = true) (s : Text) :
    nextTok (some (c :: s)) = (some (strsep ',' (c :: s)).1, (strsep ',' (c :: s)).2) := by
  have hskip : skipWhiteSpace (some (c :: s)) = some (c :: s) := by
    unfold skipWhiteSpace
    rw [Option.map_some, List.dropWhile_cons, isdigit_not_isspace hc]
    rfl
  have hquote : c ≠ '"' := by
    rintro rfl
    exact absurd hc (by decide)
  have hhead : (c :: s).head? ≠ some '"' := by
    simpa using hquote
  unfold nextTok
  rw [hskip]
  dsimp only
  rw [if_neg hhead]

section Digits

variable {ds : Text} (hne : ds ≠ []) (hds : ∀ c ∈ ds, isdigit c = true)

include hds in
theorem comma_notMem_digits : ',' ∉ ds := fun h => absurd (hds _ h) (by decide)

include hne hds

/-- A number in front of the cursor, with nothing else in its token. -/
theorem atTokNextint_of_token {s : Text} {rest : Cursor} (hs : strsep ',' (ds ++ s) = (ds, rest))
    (out : ℤ) : atTokNextint (some (ds ++ s)) out =
      (0, toInt (min longMax (digitsValue ds)), rest) := by
  obtain ⟨hval, hconv⟩ := strtol_digits hne hds
  have htok : nextTok (some (ds ++ s)) = (some ds, rest) := by
    obtain ⟨c, cs, rfl⟩ := List.exists_cons_of_ne_nil hne
    rw [List.cons_append, nextTok_digit (hds c List.mem_cons_self), ← List.cons_append, hs]
  unfold atTokNextint
  dsimp only
  rw [htok]
  dsimp only
  rw [hconv, hval, if_pos rfl]

/-- A row of digits with a comma behind it. -/
theorem atTokNextint_digits (rest : Text) (out : ℤ) :
    atTokNextint (some (ds ++ ',' :: rest)) out =
      (0, toInt (min longMax (digitsValue ds)), some rest) :=
  atTokNextint_of_token hne hds (strsep_append_cons ',' (comma_notMem_digits hds) rest) out

theorem atTokNextint_digits_end (out : ℤ) :
    atTokNextint (some ds) out = (0, toInt (min longMax (digitsValue ds)), none) := by
  have hsep : strsep ',' (ds ++ []) = (ds, none) := by
    rw [List.append_nil]
    exact strsep_of_notMem ',' (comma_notMem_digits hds)
  have h := atTokNextint_of_token hne hds hsep out
  rwa [List.append_nil] at h

end Digits

end RadioHal
