import RadioHal.Lib.Numbers
import RadioHal.Modem.AtTok

/-!
# The fields of a response line

A response line is a prefix, a colon, and fields with commas between them.  A field is a quoted
text, a text as it stands, or a number; white space may stand in front of it.

## Main definitions

* `Field`, `responseLine` — the fields, and the line they make.
* `Field.WellFormed` — the field can be told from what stands around it.
* `readField`, `readFields` — the functions of `at_tok.c` a caller would read them with.

## Main results

* `nextTok_field` — a token is taken off as it was put there.
* `read_line` — **the fields of a line are read back**, one after the other, and then there are no
  more.
-/

namespace RadioHal

open CLib

/-! ### Lines -/

/-- A field of a response line: a quoted text, a bare text or a number. -/
inductive Field
  | quoted (t : Text)
  | bare (t : Text)
  /-- A number, and how it is written. -/
  | number (t : Text) (v : ℤ)
  deriving DecidableEq, Repr

namespace Field

/-- The token that `nextTok` takes off for a field, without the quotation marks. -/
def token : Field → Text
  | quoted t => t
  | bare t => t
  | number t _ => t

/-- The field as it stands in a line. -/
def text : Field → Text
  | quoted t => '"' :: (t ++ ['"'])
  | bare t => t
  | number t _ => t

/-- A text that stands for itself: the next comma ends it, and it begins neither with white space
nor with a quotation mark. -/
def Plain (t : Text) : Prop := ',' ∉ t ∧ ∀ c ∈ t.head?, isspace c = false ∧ c ≠ '"'

/-- The field can be told from what stands around it, and a number fits an `int`. -/
def WellFormed : Field → Prop
  | quoted t => '"' ∉ t
  | bare t => Plain t
  | number t v => Denotes t v ∧ FitsInt v

/-- Where a field leaves the cursor at the end of the line: a quoted one in front of the
terminator. -/
def cursorAtEnd : Field → Cursor
  | quoted _ => some []
  | bare _ => none
  | number _ _ => none

end Field

/-- Fields with the white space in front of them, and commas between them. -/
def fieldsText : List (Text × Field) → Text
  | [] => []
  | [f] => f.1 ++ f.2.text
  | f :: g :: rest => f.1 ++ (f.2.text ++ ',' :: fieldsText (g :: rest))

/-- A response line: the prefix, a colon and the fields, with a comma between two of them. -/
def responseLine (responsePrefix : Text) (fields : List (Text × Field)) : Text :=
  responsePrefix ++ ':' :: fieldsText fields

/-! ### Reading -/

/-- What a caller gets for a field, from `at_tok_nextstr` or from `at_tok_nextint`. -/
inductive TokenValue
  | text (t : Text)
  | int (v : ℤ)
  deriving DecidableEq, Repr

/-- What a field is worth to the caller that reads it as what it is. -/
def Field.value : Field → TokenValue
  | quoted t => .text t
  | bare t => .text t
  | number _ v => .int v

/-- A number is read with `at_tok_nextint`, a text with `at_tok_nextstr`. -/
def readField (f : Field) (cur : Cursor) : Option TokenValue × Cursor :=
  match f with
  | .number _ _ =>
    let r := atTokNextint cur 0
    (if r.1 = 0 then some (.int r.2.1) else none, r.2.2)
  | _ =>
    let r := atTokNextstr cur none
    (if r.1 = 0 then r.2.1.map .text else none, r.2.2)

/-- The fields of a line, one after the other. -/
def readFields : List Field → Cursor → List (Option TokenValue) × Cursor
  | [], cur => ([], cur)
  | f :: fs, cur =>
    let r := readField f cur
    let rs := readFields fs r.2
    (r.1 :: rs.1, rs.2)

/-! ### Tokens -/

/-- The text of a number has neither commas nor leading white space, so it stands for itself. -/
theorem plain_of_denotes {t : Text} {v : ℤ} (h : Denotes t v) : Field.Plain t := by
  obtain ⟨sign, ds, hne, hds, rfl, -⟩ := h
  obtain ⟨d, ds, rfl⟩ := List.exists_cons_of_ne_nil hne
  have hd := hds d List.mem_cons_self
  have hcomma : ',' ∉ d :: ds := comma_notMem_digits hds
  cases sign with
  | none =>
    refine ⟨hcomma, ?_⟩
    intro c hc
    cases hc
    refine ⟨isdigit_not_isspace hd, ?_⟩
    rintro rfl
    exact absurd hd (by decide)
  | plus =>
    refine ⟨?_, ?_⟩
    · simpa [Sign.text] using hcomma
    · intro c hc
      cases hc
      decide
  | minus =>
    refine ⟨?_, ?_⟩
    · simpa [Sign.text] using hcomma
    · intro c hc
      cases hc
      decide

/-- What comes behind a field: a comma and more, or nothing. -/
def tailText : Option Text → Text
  | some rest => ',' :: rest
  | none => []

/-- The cursor behind a field: at the rest of the line, if there is one. -/
def Field.cursorBehind (f : Field) : Option Text → Cursor
  | some rest => some rest
  | none => f.cursorAtEnd

section Tokens

variable {ws t : Text} {tail : Option Text} {f : Field}

theorem skipWhiteSpace_append (hws : ∀ c ∈ ws, isspace c = true)
    (ht : ∀ c ∈ t.head?, isspace c = false) : skipWhiteSpace (some (ws ++ t)) = some t := by
  unfold skipWhiteSpace
  rw [Option.map_some, List.dropWhile_append_of_pos hws]
  cases t with
  | nil => rfl
  | cons c t => rw [List.dropWhile_cons_of_neg (by simp [ht c rfl])]

/-- A text that stands for itself is a token, and the comma behind it is taken off with it. -/
theorem nextTok_plain (hws : ∀ c ∈ ws, isspace c = true) (ht : Field.Plain t) :
    nextTok (some (ws ++ (t ++ tailText tail))) = (some t, tail) := by
  obtain ⟨hcomma, hhead⟩ := ht
  -- what is looked at first is neither white space nor a quotation mark
  have hfirst : ∀ c ∈ (t ++ tailText tail).head?, isspace c = false ∧ c ≠ '"' := by
    cases t with
    | cons c t => exact hhead
    | nil =>
      cases tail with
      | none =>
        intro c hc
        cases hc
      | some rest =>
        intro c hc
        cases hc
        decide
  have hsep : strsep ',' (t ++ tailText tail) = (t, tail) := by
    cases tail with
    | none => rw [tailText, List.append_nil, strsep_of_notMem ',' hcomma]
    | some rest => exact strsep_append_cons ',' hcomma rest
  have hquote : (t ++ tailText tail).head? ≠ some '"' := fun h => (hfirst '"' h).2 rfl
  unfold nextTok
  rw [skipWhiteSpace_append hws fun c hc => (hfirst c hc).1]
  dsimp only
  rw [if_neg hquote, hsep]

/-- A quoted text is a token, and the comma behind the mark is taken off with it. -/
theorem nextTok_quoted (hws : ∀ c ∈ ws, isspace c = true) (ht : '"' ∉ t) :
    nextTok (some (ws ++ ('"' :: (t ++ ['"']) ++ tailText tail))) =
      (some t, some (tail.getD [])) := by
  have hsep : strsep '"' (t ++ ['"'] ++ tailText tail) = (t, some (tailText tail)) := by
    rw [List.append_assoc]
    exact strsep_append_cons '"' ht _
  unfold nextTok
  rw [skipWhiteSpace_append hws (by simp [isspace])]
  dsimp only
  rw [List.cons_append, List.head?_cons, if_pos rfl, List.tail_cons, hsep]
  cases tail with
  | none => rfl
  | some rest => rfl

/-- **A token is taken off as it was put there**, and the cursor is left behind the comma. -/
theorem nextTok_field (hws : ∀ c ∈ ws, isspace c = true) (hf : f.WellFormed) :
    nextTok (some (ws ++ (f.text ++ tailText tail))) = (some f.token, f.cursorBehind tail) := by
  cases f with
  | quoted t =>
    refine (nextTok_quoted hws hf).trans ?_
    cases tail <;> rfl
  | bare t =>
    refine (nextTok_plain hws hf).trans ?_
    cases tail <;> rfl
  | number t v =>
    refine (nextTok_plain hws (plain_of_denotes hf.1)).trans ?_
    cases tail <;> rfl

/-- **A field is read back** by the function its caller would read it with. -/
theorem readField_field (hws : ∀ c ∈ ws, isspace c = true) (hf : f.WellFormed) :
    readField f (some (ws ++ (f.text ++ tailText tail))) =
      (some f.value, f.cursorBehind tail) := by
  have htok : nextTok (some (ws ++ (f.text ++ tailText tail))) =
      (some f.token, f.cursorBehind tail) := nextTok_field hws hf
  cases f with
  | quoted t =>
    unfold readField atTokNextstr
    dsimp only
    rw [htok]
    rfl
  | bare t =>
    unfold readField atTokNextstr
    dsimp only
    rw [htok]
    rfl
  | number t v =>
    obtain ⟨hdenotes, hfits⟩ := hf
    have hint : atTokNextint (some (ws ++ ((Field.number t v).text ++ tailText tail))) 0 =
        (0, v, (Field.number t v).cursorBehind tail) := by
      unfold atTokNextint
      dsimp only
      rw [htok]
      dsimp only [Field.token]
      rw [strtol_of_denotes hdenotes]
      dsimp only
      rw [toInt_clampLong hfits]
      rfl
    unfold readField
    dsimp only
    rw [hint]
    rfl

end Tokens

/-! ### Lines are read back -/

/-- The text behind the first field, if there is another one. -/
def restText : List (Text × Field) → Option Text
  | [] => none
  | fields => some (fieldsText fields)

theorem fieldsText_cons (f : Text × Field) (fields : List (Text × Field)) :
    fieldsText (f :: fields) = f.1 ++ (f.2.text ++ tailText (restText fields)) := by
  cases fields with
  | nil => simp [fieldsText, restText, tailText]
  | cons g rest => rfl

/-- Where the last field leaves the cursor. -/
def endOfFields (fields : List (Text × Field)) : Cursor :=
  (fields.getLast?.map fun f => f.2.cursorAtEnd).getD none

/-- The fields are read back, one after the other. -/
theorem readFields_fieldsText {fields : List (Text × Field)} (hne : fields ≠ [])
    (hws : ∀ f ∈ fields, ∀ c ∈ f.1, isspace c = true)
    (hf : ∀ f ∈ fields, f.2.WellFormed) :
    readFields (fields.map Prod.snd) (some (fieldsText fields)) =
      (fields.map fun f => some f.2.value, endOfFields fields) := by
  induction fields with
  | nil => exact absurd rfl hne
  | cons f fields ih =>
    obtain ⟨hws₀, hws⟩ := List.forall_mem_cons.mp hws
    obtain ⟨hf₀, hf⟩ := List.forall_mem_cons.mp hf
    rw [fieldsText_cons, List.map_cons, readFields, readField_field hws₀ hf₀]
    dsimp only
    cases fields with
    | nil => rfl
    | cons g rest =>
      have hcursor : f.2.cursorBehind (restText (g :: rest)) = some (fieldsText (g :: rest)) := rfl
      rw [hcursor, ih (List.cons_ne_nil g rest) hws hf]
      simp [endOfFields]

theorem hasmore_endOfFields (fields : List (Text × Field)) :
    atTokHasmore (endOfFields fields) = false := by
  unfold endOfFields
  cases fields.getLast? with
  | none => rfl
  | some f => cases hf : f.2 <;> simp [hf, Field.cursorAtEnd, atTokHasmore]

theorem atTokStart_append {responsePrefix : Text} (h : ':' ∉ responsePrefix) (rest : Text) :
    atTokStart (some (responsePrefix ++ ':' :: rest)) = (0, some rest) := by
  have hcolon : afterColon (responsePrefix ++ ':' :: rest) = some rest := by
    induction responsePrefix with
    | nil => rfl
    | cons c cs ih =>
      rw [List.mem_cons, not_or] at h
      rw [List.cons_append, afterColon, if_neg (Ne.symm h.1), ih h.2]
  unfold atTokStart
  dsimp only
  rw [hcolon]

/-- **The fields of a line are read back**, one after the other, and then there are no more.  By
induction on the fields: each is taken off together with the comma behind it, and the cursor stands
where the next one begins. -/
theorem read_line {responsePrefix : Text} {fields : List (Text × Field)}
    (hcolon : ':' ∉ responsePrefix) (hne : fields ≠ [])
    (hws : ∀ f ∈ fields, ∀ c ∈ f.1, isspace c = true) (hf : ∀ f ∈ fields, f.2.WellFormed) :
    ∃ cur cur', atTokStart (some (responseLine responsePrefix fields)) = (0, cur) ∧
      readFields (fields.map Prod.snd) cur = (fields.map fun f => some f.2.value, cur') ∧
      atTokHasmore cur' = false :=
  ⟨_, _, atTokStart_append hcolon _, readFields_fieldsText hne hws hf, hasmore_endOfFields fields⟩

/-- An answer to `AT+COPS?`, a quoted name among its fields. -/
def copsFields : List (Text × Field) :=
  [([' '], .number "0".toList 0), ([], .number "-12".toList (-12)),
    ([], .quoted "elisa, fi".toList), ([' ', '\t'], .bare "7".toList)]

theorem read_line_cops :
    ∃ cur cur', atTokStart (some (responseLine "+COPS".toList copsFields)) = (0, cur) ∧
      readFields (copsFields.map Prod.snd) cur =
        (copsFields.map fun f => some f.2.value, cur') ∧ atTokHasmore cur' = false := by
  refine read_line (by decide) (by decide) (by simp [copsFields, isspace]) ?_
  intro f hf
  simp only [copsFields, List.mem_cons, List.not_mem_nil, or_false] at hf
  rcases hf with rfl | rfl | rfl | rfl
  · exact ⟨⟨.none, "0".toList, by decide, by simp [isdigit], rfl, rfl⟩, by decide⟩
  · exact ⟨⟨.minus, "12".toList, by decide, by simp [isdigit], rfl, rfl⟩, by decide⟩
  · show '"' ∉ "elisa, fi".toList
    decide
  · show Field.Plain "7".toList
    exact ⟨by decide, by simp [isspace]⟩

end RadioHal
