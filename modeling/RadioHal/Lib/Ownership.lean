import Mathlib.Data.Set.Insert
import Mathlib.Logic.Function.Basic

/-!
# Who holds what

Some fields may each hold a resource.  The bookkeeping is right when no resource is held twice and
those that are live are exactly those that are held: none can then be given back twice, used
after that, or lost.

## Main definitions

* `Owns f live` — the fields `f` hold exactly the resources `live`, each of them once.

## Main results

* `Owns.acquire` — a fresh resource may go into an empty field.
* `Owns.release` — a resource that is given back is in no field any more.
* `Owns.not_overwritten` — the resource of a field that is overwritten is lost.
-/

variable {ι α : Type}

/-- What the fields hold when one of them has been written. -/
theorem update_some_iff [DecidableEq ι] {f : ι → Option α} {i j : ι} {a b : α} :
    Function.update f i (some a) j = some b ↔ j = i ∧ a = b ∨ j ≠ i ∧ f j = some b := by
  by_cases hji : j = i
  · subst hji
    simp [Function.update_self]
  · simp [hji]

/-- What the fields hold when one of them has been emptied. -/
theorem update_none_iff [DecidableEq ι] {f : ι → Option α} {i j : ι} {b : α} :
    Function.update f i none j = some b ↔ j ≠ i ∧ f j = some b := by
  by_cases hji : j = i
  · subst hji
    simp [Function.update_self]
  · simp [hji]

/-- No resource is held twice, and the live ones are those that are held. -/
structure Owns (f : ι → Option α) (live : Set α) : Prop where
  inj : ∀ i j a, f i = some a → f j = some a → i = j
  mem_iff : ∀ a, a ∈ live ↔ ∃ i, f i = some a

namespace Owns

variable {f f' : ι → Option α} {live live' : Set α} {i : ι} {a : α}

/-- In the beginning no slot holds anything, and nothing is live. -/
theorem empty (h : ∀ i, f i = none) : Owns f ∅ := by
  constructor
  · intro i j a hi
    rw [h i] at hi
    exact absurd hi (by simp)
  · intro a
    constructor
    · intro ha
      exact absurd ha (Set.notMem_empty a)
    · rintro ⟨i, hi⟩
      rw [h i] at hi
      exact absurd hi (by simp)

theorem acquire (h : Owns f live) (hempty : f i = none) (hfresh : a ∉ live) (hi : f' i = some a)
    (hothers : ∀ j, j ≠ i → f' j = f j) : Owns f' (insert a live) := by
  have hnot : ∀ j, f j ≠ some a := fun j hj => hfresh ((h.mem_iff a).mpr ⟨j, hj⟩)
  constructor
  · intro j k b hj hk
    by_cases hji : j = i
    · by_cases hki : k = i
      · rw [hji, hki]
      · -- the other field held the fresh resource before
        subst hji
        obtain rfl : a = b := Option.some.inj (hi.symm.trans hj)
        rw [hothers k hki] at hk
        exact absurd hk (hnot k)
    · by_cases hki : k = i
      · subst hki
        obtain rfl : a = b := Option.some.inj (hi.symm.trans hk)
        rw [hothers j hji] at hj
        exact absurd hj (hnot j)
      · rw [hothers j hji] at hj
        rw [hothers k hki] at hk
        exact h.inj j k b hj hk
  · intro b
    rw [Set.mem_insert_iff, h.mem_iff b]
    constructor
    · rintro (rfl | ⟨j, hj⟩)
      · exact ⟨i, hi⟩
      · refine ⟨j, ?_⟩
        rw [hothers j]
        · exact hj
        · rintro rfl
          rw [hempty] at hj
          exact absurd hj (by simp)
    · rintro ⟨j, hj⟩
      by_cases hji : j = i
      · subst hji
        exact Or.inl (Option.some.inj (hj.symm.trans hi))
      · rw [hothers j hji] at hj
        exact Or.inr ⟨j, hj⟩

/-- A resource is given back, and its field is empty. -/
theorem release (h : Owns f live) (hi : f i = some a) (hi' : f' i = none)
    (hothers : ∀ j, j ≠ i → f' j = f j) : Owns f' {b ∈ live | b ≠ a} := by
  -- what is held now is held elsewhere
  have hheld : ∀ j b, f' j = some b → j ≠ i ∧ f j = some b := by
    intro j b hj
    have hji : j ≠ i := by
      rintro rfl
      exact absurd (hi'.symm.trans hj) (by simp)
    exact ⟨hji, (hothers j hji).symm.trans hj⟩
  constructor
  · intro j k b hj hk
    exact h.inj j k b (hheld j b hj).2 (hheld k b hk).2
  · intro b
    constructor
    · rintro ⟨hb, hne⟩
      obtain ⟨j, hj⟩ := (h.mem_iff b).mp hb
      refine ⟨j, (hothers j ?_).trans hj⟩
      rintro rfl
      exact hne (Option.some.inj (hj.symm.trans hi))
    · rintro ⟨j, hj⟩
      obtain ⟨hji, hj⟩ := hheld j b hj
      refine ⟨(h.mem_iff b).mpr ⟨j, hj⟩, ?_⟩
      rintro rfl
      exact hji (h.inj j i b hj hi)

/-- The resource of a field that is overwritten is lost: it is live, and nobody holds it. -/
theorem not_overwritten (h : Owns f live) (hi : f i = some a) (hi' : f' i ≠ some a)
    (hothers : ∀ j, j ≠ i → f' j = f j) (hlive : a ∈ live') : ¬ Owns f' live' := by
  intro h'
  obtain ⟨j, hj⟩ := (h'.mem_iff a).mp hlive
  by_cases hji : j = i
  · subst hji
    exact hi' hj
  · rw [hothers j hji] at hj
    exact hji (h.inj j i a hj hi)

end Owns
