import Mathlib.Data.Nat.Init
import Mathlib.Logic.Basic

/-!
# Loops that may not end

A `do … while` loop is its body: a function that, from the loop's state, either goes round again
or leaves with a result.  Running it takes fuel; a loop *returns* a result when some amount of
fuel gets it there, and it *diverges* when none does.

## Main definitions

* `loop body n s` — at most `n` rounds from `s`; `none` when they were not enough.
* `Returns body s r` — the loop started in `s` leaves with `r`.
* `Diverges body s` — it never leaves.
* `Reaches body s s'` — rounds of the loop lead from `s` to `s'`.
* `checked round` — the body made of a round that may have no result at all.

## Main results

* `Returns.unique`, `Returns.of_le` — the result does not depend on the fuel.
* `Returns.invariant`, `Reaches.invariant` — the invariant rule.
* `exists_returns` — the variant rule: a loop with a measure that gets smaller leaves.
* `diverges_of_invariant` — a set of states the loop cannot leave.
-/

namespace Loop

variable {σ ρ : Type}

/-- At most `n` rounds of the loop from `s`. -/
def loop (body : σ → σ ⊕ ρ) : ℕ → σ → Option ρ
  | 0, _ => none
  | n + 1, s =>
    match body s with
    | .inl s' => loop body n s'
    | .inr r => some r

/-- The loop started in `s` leaves with `r`. -/
def Returns (body : σ → σ ⊕ ρ) (s : σ) (r : ρ) : Prop := ∃ n, loop body n s = some r

/-- The loop started in `s` never leaves. -/
def Diverges (body : σ → σ ⊕ ρ) (s : σ) : Prop := ∀ n, loop body n s = none

variable {body : σ → σ ⊕ ρ}

theorem loop_again {s s' : σ} (h : body s = .inl s') (n : ℕ) :
    loop body (n + 1) s = loop body n s' := by
  rw [loop, h]

theorem loop_leave {s : σ} {r : ρ} (h : body s = .inr r) (n : ℕ) :
    loop body (n + 1) s = some r := by
  rw [loop, h]

theorem loop_mono {r : ρ} : ∀ (n : ℕ) (s : σ), loop body n s = some r →
    ∀ m, n ≤ m → loop body m s = some r := by
  intro n
  induction n with
  | zero => intro s h; exact absurd h (by simp [loop])
  | succ n ih =>
    intro s h m hm
    obtain ⟨k, rfl⟩ : ∃ k, m = k + 1 := ⟨m - 1, by omega⟩
    cases hb : body s with
    | inl s' =>
      rw [loop_again hb] at h ⊢
      exact ih s' h k (by omega)
    | inr r' =>
      rw [loop_leave hb] at h ⊢
      exact h

theorem Returns.of_le {s : σ} {r : ρ} {n m : ℕ} (h : loop body n s = some r) (hm : n ≤ m) :
    loop body m s = some r := loop_mono n s h m hm

theorem Returns.unique {s : σ} {r r' : ρ} (h : Returns body s r) (h' : Returns body s r') :
    r = r' := by
  obtain ⟨n, hn⟩ := h
  obtain ⟨m, hm⟩ := h'
  rcases Nat.le_total n m with hle | hle
  · exact Option.some.inj ((Returns.of_le hn hle).symm.trans hm)
  · exact Option.some.inj (hn.symm.trans (Returns.of_le hm hle))

theorem Diverges.not_returns {s : σ} (h : Diverges body s) (r : ρ) : ¬ Returns body s r := by
  rintro ⟨n, hn⟩
  rw [h n] at hn
  exact absurd hn (by simp)

/-- **The invariant rule**: what every round keeps holds where the loop leaves.  It holds in front
of the round that leaves, and this round gives the result. -/
theorem Returns.invariant (Inv : σ → Prop) (hkeep : ∀ s s', Inv s → body s = .inl s' → Inv s')
    {s : σ} {r : ρ} (h : Returns body s r) (hs : Inv s) : ∃ s', Inv s' ∧ body s' = .inr r := by
  obtain ⟨n, hn⟩ := h
  induction n generalizing s with
  | zero => exact absurd hn (by simp [loop])
  | succ n ih =>
    cases hb : body s with
    | inl s' =>
      rw [loop_again hb] at hn
      exact ih (hkeep s s' hs hb) hn
    | inr r' =>
      rw [loop_leave hb] at hn
      obtain rfl := Option.some.inj hn
      exact ⟨s, hs, hb⟩

/-- Rounds of the loop lead from `s` to `s'`, with none of them leaving it. -/
inductive Reaches (body : σ → σ ⊕ ρ) (s : σ) : σ → Prop
  /-- No round has been made. -/
  | start : Reaches body s s
  /-- One more round is made. -/
  | again {s' s'' : σ} : Reaches body s s' → body s' = .inl s'' → Reaches body s s''

/-- The invariant rule: what the start has and a round keeps holds in every state in between. -/
theorem Reaches.invariant (Inv : σ → Prop) (hkeep : ∀ s s', Inv s → body s = .inl s' → Inv s')
    {s s' : σ} (h : Reaches body s s') (hs : Inv s) : Inv s' := by
  induction h with
  | start => exact hs
  | again _ hround ih => exact hkeep _ _ ih hround

/-- **The variant rule**: a loop leaves when each of its rounds makes a measure smaller, as long as
an invariant holds that the rounds keep. -/
theorem exists_returns (Inv : σ → Prop) (measure : σ → ℕ)
    (hkeep : ∀ s s', Inv s → body s = .inl s' → Inv s' ∧ measure s' < measure s) {s : σ}
    (hs : Inv s) : ∃ r, Returns body s r := by
  generalize hm : measure s = m
  induction m using Nat.strong_induction_on generalizing s with
  | h m ih =>
    cases hb : body s with
    | inl s' =>
      obtain ⟨hs', hlt⟩ := hkeep s s' hs hb
      obtain ⟨r, n, hn⟩ := ih (measure s') (hm ▸ hlt) hs' rfl
      exact ⟨r, n + 1, (loop_again hb n).trans hn⟩
    | inr r => exact ⟨r, 1, loop_leave hb 0⟩

/-- **The divergence rule**: a set of states from which every round comes back to the set. -/
theorem diverges_of_invariant (Inv : σ → Prop)
    (hkeep : ∀ s, Inv s → ∃ s', body s = .inl s' ∧ Inv s') {s : σ} (hs : Inv s) :
    Diverges body s := by
  intro n
  induction n generalizing s with
  | zero => rfl
  | succ n ih =>
    obtain ⟨s', hb, hs'⟩ := hkeep s hs
    rw [loop_again hb]
    exact ih hs'

/-! ### Rounds that may fail -/

/-- A round without a result ends the loop, and leaves no state behind. -/
def checked (round : σ → Option (σ ⊕ ρ)) (s : σ) : σ ⊕ Option ρ :=
  match round s with
  | none => .inr none
  | some (.inl s') => .inl s'
  | some (.inr r) => .inr (some r)

section Checked

variable {round : σ → Option (σ ⊕ ρ)} {s s' : σ}

theorem checked_again (h : round s = some (.inl s')) : checked round s = .inl s' := by
  rw [checked, h]

theorem checked_leave {r : ρ} (h : round s = some (.inr r)) : checked round s = .inr (some r) := by
  rw [checked, h]

end Checked

end Loop
