import Mathlib.Data.List.Basic

/-!
# Command lines

What a POSIX shell makes of a command line that has no quoting, no expansion and no comment in it: a
row of words and operators.  Words end at blanks and operators; a line with a character that quotes
or expands is left out.

## Main definitions

* `Token`, `tokens line` — the words and the operators of a line.
* `isPlain c` — a character that means nothing to the shell in the middle of a word.

## Main results

* `split_append`, `split_word`, `split_operator` — plain characters belong to the word they stand
  in, which a blank or an operator ends.
* `plain_of_mem_tokens` — **the words of a line have plain characters only.**
-/

namespace Shell

variable {w p rest line t : List Char} {ts : List Token}

/-- A character that stands between two words. -/
def isBlank (c : Char) : Bool := c == ' ' || c == '\t'

/-- A character that ends a word and is a token of its own. -/
def isOperator (c : Char) : Bool := "|&;<>()\n".toList.contains c

/-- A character that quotes, or that has something else put in its place. -/
def isSpecial (c : Char) : Bool := "$`\\\"'*?[".toList.contains c

/-- A character that means nothing to the shell, and so stands for itself. -/
def isPlain (c : Char) : Bool := !isBlank c && !isOperator c && !isSpecial c

/-- A token of a command line: a word, or an operator. -/
inductive Token
  | word (t : List Char)
  | op (c : Char)
  deriving DecidableEq, Repr

/-- The word read so far, if there is one. -/
def flush (w : List Char) : List Token := if w = [] then [] else [.word w]

/-- The tokens of what is left of a line, behind the beginning `w` of a word. -/
def split : List Char → List Char → Option (List Token)
  | w, [] => some (flush w)
  | w, c :: cs =>
    if isSpecial c then none
    else if isBlank c then (split [] cs).map (flush w ++ ·)
    else if isOperator c then (split [] cs).map (flush w ++ .op c :: ·)
    else split (w ++ [c]) cs

/-- The words and the operators of a line. -/
def tokens (line : List Char) : Option (List Token) := split [] line

@[simp] theorem flush_nil : flush [] = [] := rfl

theorem isPlain_iff {c : Char} :
    isPlain c = true ↔ isBlank c = false ∧ isOperator c = false ∧ isSpecial c = false := by
  simp [isPlain, and_assoc]

/-- Plain characters belong to the word they stand in. -/
theorem split_append (hp : p.all isPlain = true) :
    split w (p ++ rest) = split (w ++ p) rest := by
  induction p generalizing w with
  | nil => simp
  | cons c p ih =>
    rw [List.all_cons, Bool.and_eq_true] at hp
    obtain ⟨hc, hp⟩ := hp
    obtain ⟨hblank, hop, hspecial⟩ := isPlain_iff.mp hc
    rw [List.cons_append, split]
    simp [hblank, hop, hspecial, ih hp]

/-- A plain word is taken off together with the blank behind it. -/
theorem split_word (hp : p.all isPlain = true) :
    split w (p ++ ' ' :: rest) = (split [] rest).map (flush (w ++ p) ++ ·) := by
  have hblank : isBlank ' ' = true := by decide
  have hspecial : isSpecial ' ' = false := by decide
  rw [split_append hp, split]
  simp [hblank, hspecial]

theorem split_last (hp : p.all isPlain = true) : split w p = some (flush (w ++ p)) := by
  have happend : split w (p ++ []) = split (w ++ p) [] := split_append hp
  rw [List.append_nil] at happend
  exact happend

/-- An operator ends the word in front of it. -/
theorem split_operator {c : Char} (hspecial : isSpecial c = false) (hblank : isBlank c = false)
    (hop : isOperator c = true) :
    split w (c :: rest) = (split [] rest).map (flush w ++ .op c :: ·) := by
  rw [split]
  simp [hspecial, hblank, hop]

/-- The word read so far is the only one of its row. -/
theorem eq_of_word_mem_flush (h : Token.word t ∈ flush w) : t = w := by
  unfold flush at h
  split at h
  · cases h
  · exact Token.word.inj (List.mem_singleton.mp h)

/-- **The words of a line have plain characters only**, if the word that was begun has.  By
induction on the line. -/
theorem plain_of_mem_split (hsplit : split w line = some ts) (hw : ∀ c ∈ w, isPlain c = true)
    (hmem : Token.word t ∈ ts) : ∀ c ∈ t, isPlain c = true := by
  induction line generalizing w ts with
  | nil =>
    obtain rfl := Option.some.inj hsplit
    rw [eq_of_word_mem_flush hmem]
    exact hw
  | cons c line ih =>
    rw [split] at hsplit
    split at hsplit
    · cases hsplit
    next hspecial =>
    split at hsplit
    · obtain ⟨ts', hts', rfl⟩ := Option.map_eq_some_iff.mp hsplit
      rcases List.mem_append.mp hmem with hmem | hmem
      · rw [eq_of_word_mem_flush hmem]
        exact hw
      · exact ih hts' (by simp) hmem
    next hblank =>
    split at hsplit
    · obtain ⟨ts', hts', rfl⟩ := Option.map_eq_some_iff.mp hsplit
      rcases List.mem_append.mp hmem with hmem | hmem
      · rw [eq_of_word_mem_flush hmem]
        exact hw
      · have hmem' : Token.word t ∈ ts' := by simpa using hmem
        exact ih hts' (by simp) hmem'
    next hop =>
    · refine ih hsplit ?_ hmem
      intro d hd
      rcases List.mem_append.mp hd with hd | hd
      · exact hw d hd
      · rw [List.mem_singleton.mp hd, isPlain_iff]
        simp [hspecial, hblank, hop]

theorem plain_of_mem_tokens (h : tokens line = some ts) (hmem : Token.word t ∈ ts) :
    ∀ c ∈ t, isPlain c = true :=
  plain_of_mem_split h (by simp) hmem

end Shell
