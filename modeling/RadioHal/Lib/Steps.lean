import Mathlib.Data.Nat.Notation
import Mathlib.Logic.Basic

/-!
# Runs of labelled steps

A system that takes steps is a relation between states.  A step carries a label when it does
something to be remembered, and none when it is silent; a run is any number of steps, and its log
is the list of their labels.

## Main definitions

* `Trace step s log s'` — steps lead from `s` to `s'`, and their labels are `log`.

## Main results

* `Trace.invariant`, `Trace.log_invariant` — what every step keeps holds at the end of a run.
* `Trace.forall_mem` — what every label satisfies under an invariant all of the log satisfies.
* `Trace.exists_step` — **a label in the middle of a log is that of a step in the middle of the
  run.**
* `Trace.map_under`, `Trace.map` — a run of one system is one of another, if each of its steps is.
-/

variable {σ ε : Type}

/-- Steps lead from one state to another, with the labels of those that are not silent. -/
inductive Trace (step : σ → Option ε → σ → Prop) (s : σ) : List ε → σ → Prop
  /-- No step has been taken. -/
  | refl : Trace step s [] s
  /-- One more step is taken. -/
  | snoc {log : List ε} {s' s'' : σ} {label : Option ε} : Trace step s log s' →
      step s' label s'' → Trace step s (log ++ label.toList) s''

namespace Trace

variable {step : σ → Option ε → σ → Prop} {s s' s'' : σ} {log log' : List ε}

theorem single {e : ε} (h : step s (some e) s') : Trace step s [e] s' := refl.snoc h

/-- A run from where another one has come to makes one run with it. -/
theorem trans (h : Trace step s log s') (h' : Trace step s' log' s'') :
    Trace step s (log ++ log') s'' := by
  induction h' with
  | refl => rwa [List.append_nil]
  | snoc _ hstep ih =>
    rw [← List.append_assoc]
    exact ih.snoc hstep

/-- **The invariant rule**: what every step keeps is kept by a run.  Where the log takes part in it,
`log_invariant` is used instead. -/
theorem invariant (Inv : σ → Prop) (hkeep : ∀ s label s', Inv s → step s label s' → Inv s')
    (h : Trace step s log s') (hs : Inv s) : Inv s' := by
  induction h with
  | refl => exact hs
  | snoc _ hstep ih => exact hkeep _ _ _ ih hstep

/-- The rule for an invariant that speaks of the log too. -/
theorem log_invariant (Inv : List ε → σ → Prop)
    (hkeep : ∀ log s label s', Inv log s → step s label s' → Inv (log ++ label.toList) s')
    (h : Trace step s log s') (hs : Inv [] s) : Inv log s' := by
  induction h with
  | refl => exact hs
  | snoc _ hstep ih => exact hkeep _ _ _ _ ih hstep

/-- What the labels satisfy of the steps that are taken under an invariant. -/
theorem forall_mem {P : ε → Prop} (Inv : σ → Prop)
    (hkeep : ∀ s label s', Inv s → step s label s' → Inv s')
    (hlabel : ∀ s e s', Inv s → step s (some e) s' → P e)
    (h : Trace step s log s') (hs : Inv s) : ∀ e ∈ log, P e := by
  induction h with
  | refl => intro e he; exact absurd he List.not_mem_nil
  | @snoc log s' s'' label h hstep ih =>
    intro e he
    rcases List.mem_append.mp he with he | he
    · exact ih e he
    · obtain rfl : label = some e := by simpa using he
      exact hlabel _ _ _ (h.invariant Inv hkeep hs) hstep

theorem split (h : Trace step s (log ++ log') s'') :
    ∃ s', Trace step s log s' ∧ Trace step s' log' s'' := by
  generalize hl : log ++ log' = l at h
  induction h generalizing log' with
  | refl =>
    obtain ⟨rfl, rfl⟩ := List.append_eq_nil_iff.mp hl
    exact ⟨s, .refl, .refl⟩
  | @snoc l s₁ s₂ label h hstep ih =>
    -- the last label ends the second part, unless that part is empty
    rcases List.eq_nil_or_concat log' with rfl | ⟨init, last, rfl⟩
    · rw [List.append_nil] at hl
      exact ⟨s₂, hl ▸ h.snoc hstep, .refl⟩
    · cases label with
      | none =>
        have hl' : log ++ (init ++ [last]) = l := by simpa using hl
        obtain ⟨m, h₁, h₂⟩ := ih hl'
        refine ⟨m, h₁, ?_⟩
        have := h₂.snoc hstep
        simpa using this
      | some e =>
        have hl' : log ++ init ++ [last] = l ++ [e] := by simpa using hl
        obtain ⟨hinit, hlast⟩ := List.append_inj' hl' rfl
        obtain rfl := List.singleton_inj.mp hlast
        obtain ⟨m, h₁, h₂⟩ := ih hinit
        exact ⟨m, h₁, by simpa using h₂.snoc hstep⟩

/-- Silent steps first, then the one the log begins with. -/
theorem exists_first {e : ε} (h : Trace step s (e :: log) s'') :
    ∃ s₁ s₂, Trace step s [] s₁ ∧ step s₁ (some e) s₂ ∧ Trace step s₂ log s'' := by
  generalize hl : e :: log = l at h
  induction h generalizing log with
  | refl => exact absurd hl (List.cons_ne_nil _ _)
  | @snoc l t t' label h hstep ih =>
    cases l with
    | nil =>
      obtain rfl : label = some e := by
        cases label with
        | none => exact absurd hl (by simp)
        | some e' => rw [(List.cons.inj hl).1]
      obtain rfl : log = [] := by simpa using hl
      exact ⟨t, t', h, hstep, .refl⟩
    | cons e' l =>
      obtain ⟨rfl, rfl⟩ := List.cons.inj hl
      obtain ⟨s₁, s₂, h₁, hstep₁, h₂⟩ := ih rfl
      exact ⟨s₁, s₂, h₁, hstep₁, h₂.snoc hstep⟩

/-- **A label in the middle of a log is that of a step in the middle of the run.** -/
theorem exists_step {e : ε} (h : Trace step s (log ++ e :: log') s'') :
    ∃ s₁ s₂, Trace step s log s₁ ∧ step s₁ (some e) s₂ ∧ Trace step s₂ log' s'' := by
  obtain ⟨m, h₁, h₂⟩ := h.split
  obtain ⟨s₁, s₂, hsilent, hstep, h₃⟩ := h₂.exists_first
  refine ⟨s₁, s₂, ?_, hstep, h₃⟩
  simpa using h₁.trans hsilent

/-- What becomes of a log when a step is taken. -/
theorem filterMap_concat {δ : Type} (log : List ε) (label : Option ε) (g : ε → Option δ) :
    (log ++ label.toList).filterMap g = log.filterMap g ++ (label.bind g).toList := by
  rw [List.filterMap_append]
  cases label with
  | none => rfl
  | some e => cases hg : g e <;> simp [hg]

/-- **Refinement**: where each step under an invariant is one of the other system, or changes
nothing there, a run is a run of the other system, and its log the image of the log. -/
theorem map_under {τ δ : Type} {step' : τ → Option δ → τ → Prop} (f : σ → τ) (g : ε → Option δ)
    (Inv : σ → Prop) (hkeep : ∀ s label s', Inv s → step s label s' → Inv s')
    (hstep : ∀ s label s', Inv s → step s label s' →
      step' (f s) (label.bind g) (f s') ∨ (label.bind g = none ∧ f s' = f s))
    (h : Trace step s log s') (hs : Inv s) : Trace step' (f s) (log.filterMap g) (f s') := by
  induction h with
  | refl => exact .refl
  | @snoc log s' s'' label hrun hlast ih =>
    rw [filterMap_concat]
    rcases hstep s' label s'' (hrun.invariant Inv hkeep hs) hlast with h | ⟨hnone, hsame⟩
    · exact ih.snoc h
    · rw [hnone, hsame]
      simpa using ih

/-- Refinement where no invariant is needed for it. -/
theorem map {τ δ : Type} {step' : τ → Option δ → τ → Prop} (f : σ → τ) (g : ε → Option δ)
    (hstep : ∀ s label s', step s label s' →
      step' (f s) (label.bind g) (f s') ∨ (label.bind g = none ∧ f s' = f s))
    (h : Trace step s log s') : Trace step' (f s) (log.filterMap g) (f s') :=
  h.map_under f g (fun _ => True) (fun _ _ _ _ _ => trivial)
    (fun s label s' _ hlast => hstep s label s' hlast) trivial

end Trace
