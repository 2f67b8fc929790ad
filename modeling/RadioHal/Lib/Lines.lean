import Mathlib.Data.List.Basic
import Mathlib.Data.List.Induction

/-!
# Lines of a stream

A stream is cut into lines by separators.  Separators in a row count as one, so no line is empty,
and what stands behind the last separator is not a line yet.

## Main definitions

* `Lines.complete p t` — the lines of `t` that a separator ends.
* `Lines.AtStart p t` — behind `t` a line begins.

## Main results

* `Lines.complete_append` — **lines can be counted piece by piece**, where a piece ends with a
  separator.
-/

namespace Lines

variable {α : Type} {p : α → Bool} {t u : List α} {c : α}

/-- The lines of a text that a separator ends.  What stands behind the last separator is left out,
and so is what stands between two separators in a row. -/
def complete (p : α → Bool) (t : List α) : List (List α) :=
  (t.splitOnP p).dropLast.filter fun l => !l.isEmpty

/-- Nothing stands in front, or a separator does. -/
def AtStart (p : α → Bool) (t : List α) : Prop := ∀ c ∈ t.getLast?, p c = true

theorem atStart_nil : AtStart p ([] : List α) := fun c hc => by cases hc

theorem atStart_concat (h : p c = true) : AtStart p (t ++ [c]) := by
  intro d hd
  rw [List.getLast?_concat] at hd
  cases hd
  exact h

theorem AtStart.append (h : AtStart p t) (hu : ∀ c ∈ u, p c = true) : AtStart p (t ++ u) := by
  rcases List.eq_nil_or_concat u with rfl | ⟨v, c, rfl⟩
  · rwa [List.append_nil]
  · rw [List.concat_eq_append, ← List.append_assoc]
    exact atStart_concat (hu c (by simp))

theorem complete_of_forall (h : ∀ c ∈ t, p c = false) : complete p t = [] := by
  unfold complete
  rw [List.splitOnP_eq_singleton h]
  rfl

@[simp] theorem complete_nil : complete p ([] : List α) = [] :=
  complete_of_forall fun _ hc => absurd hc List.not_mem_nil

/-- A separator ends the line in front of it, and what comes behind it is cut for itself. -/
theorem complete_append_cons (t u : List α) (h : p c = true) :
    complete p (t ++ c :: u) = (t.splitOnP p).filter (fun l => !l.isEmpty) ++ complete p u := by
  unfold complete
  rw [List.splitOnP_append_cons t u h, List.dropLast_append_of_ne_nil (List.splitOnP_ne_nil p u),
    List.filter_append]

/-- **Lines can be counted piece by piece**, where a piece ends with a separator.  Then no line
begins in the one piece and ends in the other. -/
theorem complete_append (h : AtStart p t) (u : List α) :
    complete p (t ++ u) = complete p t ++ complete p u := by
  rcases List.eq_nil_or_concat t with rfl | ⟨v, c, rfl⟩
  · simp
  · have hc : p c = true := h c (by simp)
    have hcut := complete_append_cons v u hc
    have hend := complete_append_cons v [] hc
    rw [complete_nil, List.append_nil] at hend
    rw [List.concat_eq_append, List.append_assoc, List.singleton_append, hcut, hend]

theorem complete_of_separators (h : ∀ c ∈ u, p c = true) : complete p u = [] := by
  induction u with
  | nil => exact complete_nil
  | cons c u ih =>
    obtain ⟨hc, hu⟩ := List.forall_mem_cons.mp h
    have hcut := complete_append_cons [] u hc
    rw [List.nil_append, ih hu] at hcut
    rw [hcut]
    rfl

/-- A text without separators is a line when a separator comes. -/
theorem complete_line {line : List α} (hne : line ≠ []) (hline : ∀ c ∈ line, p c = false)
    (hc : p c = true) : complete p (line ++ [c]) = [line] := by
  have hcut := complete_append_cons line [] hc
  rw [List.splitOnP_eq_singleton hline, complete_nil, List.append_nil] at hcut
  rw [hcut]
  simp [hne]

/-- A text is cut in front of the first thing that is not as what it begins with. -/
theorem exists_lead (p : α → Bool) (t : List α) :
    ∃ u rest, t = u ++ rest ∧ (∀ c ∈ u, p c = true) ∧ ∀ c ∈ rest.head?, p c = false := by
  induction t with
  | nil => exact ⟨[], [], rfl, by simp, by simp⟩
  | cons c t ih =>
    cases hc : p c with
    | false => exact ⟨[], c :: t, rfl, by simp, by simpa using hc⟩
    | true =>
      obtain ⟨u, rest, rfl, hu, hrest⟩ := ih
      exact ⟨c :: u, rest, rfl, List.forall_mem_cons.mpr ⟨hc, hu⟩, hrest⟩

end Lines
