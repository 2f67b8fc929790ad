import RadioHal.Lib.Shell

/-!
# Command lines with quotes

What a POSIX shell makes of a command line that may have double quotes in it: between them blanks
and operators are characters like any other, and a character that expands, or takes the meaning of
another one away, is left out as it is elsewhere.

## Main definitions

* `isLiteral c` — a character that stands for itself between double quotes.
* `quotedTokens line` — the words and the operators of a line.

## Main results

* `splitQuoted_append`, `splitQuoted_quotes`, `splitQuoted_blank` — the rules for a word in its
  parts.
* `literal_of_mem_quotedTokens` — **the words of a line have literal characters only.**
-/

namespace Shell

variable {w p rest line t : List Char} {w? : Option (List Char)} {ts : List Token}

/-- A character that stands for itself between double quotes. -/
def isLiteral (c : Char) : Bool := !("\"$`\\".toList.contains c)

/-- The word read so far, which may be empty where there were quotes. -/
def flushQuoted : Option (List Char) → List Token
  | none => []
  | some w => [.word w]

/-- The tokens of what is left of a line behind the beginning of a word, between quotes or not. -/
def splitQuoted : Bool → Option (List Char) → List Char → Option (List Token)
  | false, w?, [] => some (flushQuoted w?)
  | true, _, [] => none
  | false, w?, c :: cs =>
    if c = '"' then splitQuoted true (some (w?.getD [])) cs
    else if isSpecial c then none
    else if isBlank c then (splitQuoted false none cs).map (flushQuoted w? ++ ·)
    else if isOperator c then (splitQuoted false none cs).map (flushQuoted w? ++ .op c :: ·)
    else splitQuoted false (some (w?.getD [] ++ [c])) cs
  | true, w?, c :: cs =>
    if c = '"' then splitQuoted false w? cs
    else if isLiteral c then splitQuoted true (some (w?.getD [] ++ [c])) cs
    else none

/-- The words and the operators of a line that may have double quotes in it. -/
def quotedTokens (line : List Char) : Option (List Token) := splitQuoted false none line

/-! ### A word in its parts -/

/-- The characters that are not literal inside of quotation marks. -/
theorem isLiteral_eq_false {c : Char} (h : isLiteral c = false) :
    c = '"' ∨ c = '$' ∨ c = '`' ∨ c = '\\' := by
  have hcontains : "\"$`\\".toList.contains c = true := by
    rwa [isLiteral, Bool.not_eq_false'] at h
  simpa using List.contains_iff_mem.mp hcontains

theorem isLiteral_of_not_isSpecial {c : Char} (h : isSpecial c = false) : isLiteral c = true := by
  by_contra hc
  rw [Bool.not_eq_true] at hc
  rcases isLiteral_eq_false hc with rfl | rfl | rfl | rfl
  · exact absurd h (by decide)
  · exact absurd h (by decide)
  · exact absurd h (by decide)
  · exact absurd h (by decide)

theorem isLiteral_of_isPlain {c : Char} (h : isPlain c = true) : isLiteral c = true :=
  isLiteral_of_not_isSpecial (isPlain_iff.mp h).2.2

theorem ne_quote_of_isLiteral {c : Char} (h : isLiteral c = true) : c ≠ '"' := by
  rintro rfl
  exact absurd h (by decide)

/-- Plain characters belong to the word they stand in. -/
theorem splitQuoted_append (hne : p ≠ []) (hp : p.all isPlain = true) :
    splitQuoted false w? (p ++ rest) = splitQuoted false (some (w?.getD [] ++ p)) rest := by
  induction p generalizing w? with
  | nil => exact absurd rfl hne
  | cons c p ih =>
    rw [List.all_cons, Bool.and_eq_true] at hp
    obtain ⟨hc, hp⟩ := hp
    obtain ⟨hblank, hop, hspecial⟩ := isPlain_iff.mp hc
    have hquote : c ≠ '"' := ne_quote_of_isLiteral (isLiteral_of_isPlain hc)
    rw [List.cons_append, splitQuoted]
    simp only [hquote, hblank, hop, hspecial, if_false, Bool.false_eq_true]
    by_cases hnil : p = []
    · rw [hnil, List.nil_append]
    · rw [ih hnil hp, Option.getD_some, List.append_assoc, List.singleton_append]

/-- Literal characters belong to the word between whose quotes they stand. -/
theorem splitQuoted_literal (hp : p.all isLiteral = true) :
    splitQuoted true (some w) (p ++ rest) = splitQuoted true (some (w ++ p)) rest := by
  induction p generalizing w with
  | nil => rw [List.nil_append, List.append_nil]
  | cons c p ih =>
    rw [List.all_cons, Bool.and_eq_true] at hp
    obtain ⟨hc, hp⟩ := hp
    rw [List.cons_append, splitQuoted, if_neg (ne_quote_of_isLiteral hc), if_pos hc, ih hp,
      Option.getD_some, List.append_assoc, List.singleton_append]

/-- A part in quotes, blanks and operators in it or not. -/
theorem splitQuoted_quotes (hp : p.all isLiteral = true) :
    splitQuoted false w? ('"' :: (p ++ '"' :: rest)) =
      splitQuoted false (some (w?.getD [] ++ p)) rest := by
  rw [splitQuoted, if_pos rfl, splitQuoted_literal hp, splitQuoted, if_pos rfl]

/-- A blank outside of quotation marks ends a word. -/
theorem splitQuoted_blank : splitQuoted false w? (' ' :: rest) =
    (splitQuoted false none rest).map (flushQuoted w? ++ ·) := by
  rw [splitQuoted, if_neg (by decide), if_neg (by decide), if_pos (by decide)]

/-- A plain word is taken off together with the blank behind it. -/
theorem splitQuoted_word (hne : p ≠ []) (hp : p.all isPlain = true) :
    splitQuoted false none (p ++ ' ' :: rest) =
      (splitQuoted false none rest).map (.word p :: ·) := by
  rw [splitQuoted_append hne hp, splitQuoted_blank]
  rfl

theorem splitQuoted_last (hne : p ≠ []) (hp : p.all isPlain = true) :
    splitQuoted false none p = some [.word p] := by
  have happend : splitQuoted false none (p ++ []) =
      splitQuoted false (some (none.getD [] ++ p)) [] := splitQuoted_append hne hp
  rwa [List.append_nil] at happend

/-! ### The characters of words -/

/-- The word read so far has literal characters only. -/
def LiteralSoFar (w? : Option (List Char)) : Prop := ∀ w ∈ w?, ∀ c ∈ w, isLiteral c = true

theorem LiteralSoFar.getD (h : LiteralSoFar w?) : LiteralSoFar (some (w?.getD [])) := by
  intro w hw
  obtain rfl := Option.mem_some_iff.mp hw
  cases w? with
  | none => simp
  | some w => exact h w rfl

theorem LiteralSoFar.append (h : LiteralSoFar w?) {c : Char} (hc : isLiteral c = true) :
    LiteralSoFar (some (w?.getD [] ++ [c])) := by
  intro w hw d hd
  obtain rfl := Option.mem_some_iff.mp hw
  rcases List.mem_append.mp hd with hd | hd
  · exact h.getD _ rfl d hd
  · rwa [List.mem_singleton.mp hd]

/-- The word read so far is the only one of its row. -/
theorem LiteralSoFar.of_flushQuoted (h : LiteralSoFar w?) (hmem : Token.word t ∈ flushQuoted w?) :
    ∀ c ∈ t, isLiteral c = true := by
  cases w? with
  | none => exact absurd hmem List.not_mem_nil
  | some w =>
    obtain rfl := Token.word.inj (List.mem_singleton.mp hmem)
    exact h _ rfl

/-- **The words of a line have literal characters only**, if the word that was begun has.  Inside of
quotation marks these are all but a few. -/
theorem literal_of_mem_splitQuoted {inQuotes : Bool}
    (hsplit : splitQuoted inQuotes w? line = some ts) (hw : LiteralSoFar w?)
    (hmem : Token.word t ∈ ts) : ∀ c ∈ t, isLiteral c = true := by
  have hnone : LiteralSoFar none := by simp [LiteralSoFar]
  induction line generalizing inQuotes w? ts with
  | nil =>
    cases inQuotes with
    | true => cases hsplit
    | false =>
      obtain rfl := Option.some.inj hsplit
      exact hw.of_flushQuoted hmem
  | cons c line ih =>
    cases inQuotes with
    | true =>
      rw [splitQuoted] at hsplit
      split at hsplit
      · exact ih hsplit hw hmem
      · split at hsplit
        next hliteral => exact ih hsplit (hw.append hliteral) hmem
        next => cases hsplit
    | false =>
      rw [splitQuoted] at hsplit
      split at hsplit
      · exact ih hsplit hw.getD hmem
      split at hsplit
      · cases hsplit
      next hspecial =>
      split at hsplit
      · obtain ⟨ts', hts', rfl⟩ := Option.map_eq_some_iff.mp hsplit
        rcases List.mem_append.mp hmem with hmem | hmem
        · exact hw.of_flushQuoted hmem
        · exact ih hts' hnone hmem
      split at hsplit
      · obtain ⟨ts', hts', rfl⟩ := Option.map_eq_some_iff.mp hsplit
        rcases List.mem_append.mp hmem with hmem | hmem
        · exact hw.of_flushQuoted hmem
        · have hmem' : Token.word t ∈ ts' := by simpa using hmem
          exact ih hts' hnone hmem'
      · have hliteral : isLiteral c = true := isLiteral_of_not_isSpecial (by simpa using hspecial)
        exact ih hsplit (hw.append hliteral) hmem

theorem literal_of_mem_quotedTokens (h : quotedTokens line = some ts) (hmem : Token.word t ∈ ts) :
    ∀ c ∈ t, isLiteral c = true :=
  literal_of_mem_splitQuoted h (by simp [LiteralSoFar]) hmem

end Shell
