import Mathlib.Data.List.Induction
import RadioHal.Modem.AtChannel

/-!
# What a single-line command gets

The response to a single-line command depends on two of the lines alone: the first that begins
with the prefix of the command, and the last that is a final response.

## Main definitions

* `firstLine responsePrefix lines` — the line the response holds.
* `lastFinal lines` — the final response it ends with.
* `AtAnswer.LacksLine` — an error final, and no line to read.

## Main results

* `response_singleline` — **the response in terms of the two lines.**
* `singleline_of_firstLine`, `singleline_of_success`, `singleline_of_lacksLine` — what the command
  returns, by the two lines.
-/

namespace RadioHal

open CLib Dialogue

/-- The first of the lines that answers a single-line command. -/
def firstLine (responsePrefix : Text) (lines : List Text) : Option Text :=
  lines.find? fun line => !isFinalResponse line && strStarts line responsePrefix

/-- The last of the lines that is a final response. -/
def lastFinal (lines : List Text) : Option Text := (lines.filter isFinalResponse).getLast?

theorem firstLine_append (responsePrefix : Text) (lines lines' : List Text) :
    firstLine responsePrefix (lines ++ lines') =
      (firstLine responsePrefix lines).or (firstLine responsePrefix lines') := by
  unfold firstLine
  rw [List.find?_append]

section Snoc

variable {responsePrefix line : Text} {lines : List Text}

theorem firstLine_concat_of_final (h : isFinalResponse line = true) :
    firstLine responsePrefix (lines ++ [line]) = firstLine responsePrefix lines := by
  unfold firstLine
  rw [List.find?_append, List.find?_singleton, h]
  simp

theorem firstLine_concat (h : isFinalResponse line = false) :
    firstLine responsePrefix (lines ++ [line]) =
      (firstLine responsePrefix lines).or (if strStarts line responsePrefix then some line
        else none) := by
  unfold firstLine
  rw [List.find?_append, List.find?_singleton, h]
  simp

theorem lastFinal_concat_of_final (h : isFinalResponse line = true) :
    lastFinal (lines ++ [line]) = some line := by
  unfold lastFinal
  rw [List.filter_append, List.filter_cons_of_pos h, List.filter_nil, List.getLast?_concat]

theorem lastFinal_concat (h : isFinalResponse line = false) :
    lastFinal (lines ++ [line]) = lastFinal lines := by
  unfold lastFinal
  rw [List.filter_append, List.filter_cons_of_neg (by simp [h]), List.filter_nil,
    List.append_nil]

end Snoc

/-- **The response in terms of two lines**: the first that has the prefix, and the final one. -/
theorem response_singleline (responsePrefix : Text) (lines : List Text) :
    response .singleline responsePrefix lines =
      ⟨(lastFinal (readerLoop lines)).any isFinalResponseSuccess, lastFinal (readerLoop lines),
        (firstLine responsePrefix (readerLoop lines)).toList⟩ := by
  unfold response
  -- the lines come in one by one
  induction readerLoop lines using List.reverseRecOn with
  | nil => rfl
  | append_singleton init line ih =>
    rw [List.foldl_append, ih, List.foldl_cons, List.foldl_nil]
    unfold processLine
    cases hok : isFinalResponseSuccess line with
    | true =>
      have hfin : isFinalResponse line = true := by rw [isFinalResponse, hok, Bool.true_or]
      rw [lastFinal_concat_of_final hfin, firstLine_concat_of_final hfin, Option.any_some, hok]
      rfl
    | false =>
      cases herr : isFinalResponseError line with
      | true =>
        have hfin : isFinalResponse line = true := by rw [isFinalResponse, herr, Bool.or_true]
        rw [lastFinal_concat_of_final hfin, firstLine_concat_of_final hfin, Option.any_some, hok]
        rfl
      | false =>
        have hfin : isFinalResponse line = false := by
          rw [isFinalResponse, hok, herr, Bool.or_false]
        rw [lastFinal_concat hfin, firstLine_concat hfin]
        cases hfirst : firstLine responsePrefix init with
        | some first => rfl
        | none =>
          cases hstart : strStarts line responsePrefix with
          | true => rfl
          | false => rfl

/-- A response of a single line has nothing to turn round. -/
theorem reverse_response_singleline (responsePrefix : Text) (lines : List Text) :
    (response .singleline responsePrefix lines).reverseIntermediates =
      response .singleline responsePrefix lines := by
  rw [response_singleline]
  unfold ATResponse.reverseIntermediates
  cases firstLine responsePrefix (readerLoop lines) with
  | none => rfl
  | some line => rfl

/-- The modem answers with an error final, and no line before it answers the command. -/
def AtAnswer.LacksLine (responsePrefix : Text) : AtAnswer → Prop
  | .delivered d =>
    (lastFinal (readerLoop d.lines)).any isFinalResponseSuccess = false ∧
      firstLine responsePrefix (readerLoop d.lines) = none
  | _ => False

/-- The final response of an answer, if the modem gave one. -/
def AtAnswer.lastFinal : AtAnswer → Option Text
  | .delivered d => RadioHal.lastFinal (readerLoop d.lines)
  | _ => none

section Results

variable {responsePrefix : Text} {d : Delivery}

/-- With a line for the command it returns the response. -/
theorem singleline_of_firstLine {line : Text}
    (h : firstLine responsePrefix (readerLoop d.lines) = some line) (pp : Option ATResponse) :
    ((AtAnswer.delivered d).result .singleline responsePrefix pp).checkIntermediates =
      ⟨0, some ⟨(lastFinal (readerLoop d.lines)).any isFinalResponseSuccess,
        lastFinal (readerLoop d.lines), [line]⟩⟩ := by
  unfold AtAnswer.result
  dsimp only
  rw [reverse_response_singleline, response_singleline, h]
  unfold AtResult.checkIntermediates
  simp

theorem singleline_of_success (hline : firstLine responsePrefix (readerLoop d.lines) = none)
    (h : (lastFinal (readerLoop d.lines)).any isFinalResponseSuccess = true)
    (pp : Option ATResponse) :
    ((AtAnswer.delivered d).result .singleline responsePrefix pp).checkIntermediates =
      ⟨-6, none⟩ := by
  unfold AtAnswer.result
  dsimp only
  rw [reverse_response_singleline, response_singleline, hline, h]
  rfl

/-- Behind an error final without a line the command returns the response. -/
theorem singleline_of_lacksLine {a : AtAnswer} (h : a.LacksLine responsePrefix)
    (pp : Option ATResponse) :
    (a.result .singleline responsePrefix pp).checkIntermediates =
      ⟨0, some ⟨false, a.lastFinal, []⟩⟩ := by
  cases a with
  | refused e => exact h.elim
  | closed lines => exact h.elim
  | delivered d =>
    obtain ⟨herr, hline⟩ := h
    unfold AtAnswer.result
    dsimp only
    rw [reverse_response_singleline, response_singleline, herr, hline]
    rfl

/-- Behind any other answer the command fails, or returns a response with a line. -/
theorem singleline_of_not_lacksLine {a : AtAnswer} (h : ¬ a.LacksLine responsePrefix)
    (pp : Option ATResponse) :
    (a.result .singleline responsePrefix pp).checkIntermediates.err < 0 ∨
      ∃ p line, (a.result .singleline responsePrefix pp).checkIntermediates = ⟨0, some p⟩ ∧
        p.pIntermediates = [line] := by
  cases a with
  | refused e => exact Or.inl (singleline_err_neg pp rfl)
  | closed lines => exact Or.inl (singleline_err_neg pp rfl)
  | delivered d =>
    cases hline : firstLine responsePrefix (readerLoop d.lines) with
    | some line => exact Or.inr ⟨_, line, singleline_of_firstLine hline pp, rfl⟩
    | none =>
      cases hsucc : (lastFinal (readerLoop d.lines)).any isFinalResponseSuccess with
      | true =>
        left
        rw [singleline_of_success hline hsucc]
        decide
      | false => exact absurd ⟨hsucc, hline⟩ h

end Results

end RadioHal
