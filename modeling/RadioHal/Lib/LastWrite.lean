import Mathlib.Data.Nat.Notation
import Mathlib.Logic.Basic

/-!
# The last write of a log

A variable is written by the entries of a log: an entry writes a value, or leaves the variable
alone.  Behind the log the variable holds the last value written, and where nothing was written,
what it held before.

## Main definitions

* `after write x log` — what a variable that held `x` holds behind the log.
* `Writes write log` — some entry writes.

## Main results

* `after_of_writes`, `after_of_not_writes` — **what was there before is forgotten when something is
  written, and stays when nothing is.**
* `after_eq` — the last of all values written.
-/

namespace LastWrite

variable {δ ν : Type}

/-- What a variable that held `x` holds behind the log. -/
def after (write : δ → Option ν) (x : ν) (log : List δ) : ν :=
  log.foldl (fun x d => (write d).getD x) x

/-- Some entry of the log writes the cell. -/
def Writes (write : δ → Option ν) (log : List δ) : Prop := ∃ d ∈ log, (write d).isSome = true

section Rules

variable (write : δ → Option ν) (x y : ν) (d : δ) (log log' : List δ)

@[simp] theorem after_nil : after write x [] = x := rfl

@[simp] theorem after_cons : after write x (d :: log) = after write ((write d).getD x) log := rfl

theorem after_append : after write x (log ++ log') = after write (after write x log) log' :=
  List.foldl_append

theorem not_writes_nil : ¬ Writes write [] := by simp [Writes]

theorem writes_cons : Writes write (d :: log) ↔ (write d).isSome = true ∨ Writes write log := by
  simp [Writes]

variable {write log}

/-- Where something is written, what was there before does not matter. -/
theorem after_of_writes (h : Writes write log) : after write x log = after write y log := by
  induction log generalizing x y with
  | nil => exact absurd h (not_writes_nil write)
  | cons d log ih =>
    rw [after_cons, after_cons]
    by_cases hrest : Writes write log
    · exact ih _ _ hrest
    · have hd := ((writes_cons write d log).mp h).resolve_right hrest
      obtain ⟨v, hv⟩ := Option.isSome_iff_exists.mp hd
      rw [hv]
      rfl

/-- A cell that no entry writes keeps its value. -/
theorem after_of_not_writes (h : ¬ Writes write log) : after write x log = x := by
  induction log generalizing x with
  | nil => rfl
  | cons d log ih =>
    rw [writes_cons, not_or, Option.not_isSome_iff_eq_none] at h
    rw [after_cons, h.1]
    exact ih x h.2

/-- The last value written, or what was there before. -/
theorem after_eq (write : δ → Option ν) (log : List δ) :
    after write x log = ((log.filterMap write).getLast?).getD x := by
  induction log generalizing x with
  | nil => rfl
  | cons d log ih =>
    rw [after_cons, ih]
    cases hd : write d with
    | none =>
      rw [List.filterMap_cons_none hd]
      rfl
    | some v =>
      rw [List.filterMap_cons_some hd, List.getLast?_cons]
      rfl

end Rules

end LastWrite
