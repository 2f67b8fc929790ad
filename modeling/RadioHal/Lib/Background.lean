import Mathlib.Logic.Relation
import RadioHal.Lib.Dialogue

/-!
# Programs with a background

While a program waits for an answer, something else may go on: the state takes steps of its own, of
which the program is told nothing.  What is asserted between two questions has to be stable under
these steps.

## Main definitions

* `beside W B` — the world `W`, in which steps of `B` are taken before a question is answered.
* `Stable B P` — steps of `B` keep `P`.

## Main results

* `wp_ask_beside` — the rule for a question.
* `wp_moment` — **what is stable holds at every moment, those between two questions among them.**
-/

namespace Dialogue

open Relation

variable {Q : Type} {A : Q → Type} {α σ : Type}

/-- Before a question is answered, steps of the background are taken. -/
def beside (W : World Q A σ) (B : σ → σ → Prop) : World Q A σ :=
  fun s q a s' => ∃ s₁, ReflTransGen B s s₁ ∧ W s₁ q a s'

/-- The steps of the background keep `P`, so that it still holds when the background has gone on. -/
def Stable (B : σ → σ → Prop) (P : σ → Prop) : Prop := ∀ s s', P s → B s s' → P s'

section Rules

variable {W : World Q A σ} {B : σ → σ → Prop} {I : σ → Q → Prop} {post : α → σ → Prop}
  {P P' : σ → Prop} {s s' s'' : σ}

theorem Stable.and (h : Stable B P) (h' : Stable B P') : Stable B fun s => P s ∧ P' s :=
  fun _ _ hs hstep => ⟨h _ _ hs.1 hstep, h' _ _ hs.2 hstep⟩

/-- What is stable is kept by any number of steps. -/
theorem Stable.reaches (h : Stable B P) (hs : P s) (hsteps : ReflTransGen B s s') : P s' := by
  induction hsteps with
  | refl => exact hs
  | tail _ hstep ih => exact h _ _ ih hstep

/-- **A question**: what is asserted in front of it holds when it is answered.  For it is stable, so
the steps that the background makes in between do not take it away. -/
theorem wp_ask_beside {q : Q} {k : A q → Dialogue Q A α} (hstable : Stable B P) (hs : P s)
    (hask : ∀ s, P s → I s q)
    (hanswer : ∀ s a s', P s → W s q a s' → wp (beside W B) I post (k a) s') :
    wp (beside W B) I post (ask q k) s := by
  refine ⟨hask s hs, ?_⟩
  rintro a s' ⟨s₁, hsteps, hw⟩
  exact hanswer s₁ a s' (hstable.reaches hs hsteps) hw

/-- **What is stable, and met by every question and every result, holds at every moment**: also
behind any number of steps of the background, wherever the program stands. -/
theorem wp_moment {p p' : Dialogue Q A α} (hstable : Stable B P) (hpost : ∀ a s, post a s → P s)
    (hp : wp (beside W B) (fun s _ => P s) post p s) (hrun : Reach (beside W B) s p s' p')
    (hsteps : ReflTransGen B s' s'') : P s'' := by
  have hwp := wp_reach hrun hp
  refine hstable.reaches ?_ hsteps
  cases p' with
  | ret a => exact hpost a s' hwp
  | ask q k => exact hwp.1

end Rules

end Dialogue
