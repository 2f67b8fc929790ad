import Mathlib.Data.List.Perm.Basic

/-!
# A ledger of resources

A program acquires resources and gives them back.  The ledger keeps those that are live, and whether
ever one was given back that was not: a resource given back twice, or never acquired.

## Main definitions

* `Ledger R` — the live resources, and whether all that was given back was live.
* `Ledger.acquire`, `Ledger.release`, `Ledger.releaseAll` — what is noted down.
* `Ledger.Holds l rs l'` — `l'` holds the resources `rs` besides those of `l`.

## Main results

* `Ledger.Holds.releaseAll` — **what is held can be given back, in any order.**
* `Ledger.not_sound_release` — what is not live must not be given back.
* `Ledger.sound_releaseAll_iff` — **resources can be given back exactly if each is live as often as
  it is given back.**
-/

/-- The live resources, and whether nothing was ever given back that was not live. -/
structure Ledger (R : Type) where
  live : List R
  sound : Bool

namespace Ledger

variable {R : Type} {l l' l'' : Ledger R} {r : R} {rs rs' before behind : List R}

/-- A resource is acquired. -/
def acquire (l : Ledger R) (r : R) : Ledger R := ⟨r :: l.live, l.sound⟩

/-- Besides the resources of `l`, `l'` holds `rs`, and nothing has gone wrong in between. -/
structure Holds (l : Ledger R) (rs : List R) (l' : Ledger R) : Prop where
  live : l'.live.Perm (rs ++ l.live)
  sound : l'.sound = l.sound

namespace Holds

theorem refl (l : Ledger R) : Holds l [] l := ⟨List.Perm.refl _, rfl⟩

/-- It does not matter in which order the resources are held. -/
theorem perm (h : Holds l rs l') (hrs : rs.Perm rs') : Holds l rs' l' :=
  ⟨h.live.trans (hrs.append_right _), h.sound⟩

theorem trans (h : Holds l rs l') (h' : Holds l' rs' l'') : Holds l (rs' ++ rs) l'' := by
  refine ⟨h'.live.trans ?_, h'.sound.trans h.sound⟩
  rw [List.append_assoc]
  exact h.live.append_left rs'

/-- What is acquired is held beside the rest. -/
theorem acquire (h : Holds l rs l') (r : R) : Holds l (r :: rs) (l'.acquire r) :=
  ⟨h.live.cons r, h.sound⟩

theorem mem_iff (h : Holds l rs l') : r ∈ l'.live ↔ r ∈ rs ∨ r ∈ l.live := by
  rw [h.live.mem_iff, List.mem_append]

end Holds

/-! ### Giving back -/

section Release

variable [DecidableEq R]

/-- A resource is given back. -/
def release (l : Ledger R) (r : R) : Ledger R := ⟨l.live.erase r, l.sound && l.live.contains r⟩

/-- Resources are given back, one after another. -/
def releaseAll (l : Ledger R) (rs : List R) : Ledger R := rs.foldl release l

@[simp] theorem releaseAll_nil (l : Ledger R) : l.releaseAll [] = l := rfl

@[simp] theorem releaseAll_cons (l : Ledger R) (r : R) (rs : List R) :
    l.releaseAll (r :: rs) = (l.release r).releaseAll rs := rfl

theorem releaseAll_append (l : Ledger R) (rs rs' : List R) :
    l.releaseAll (rs ++ rs') = (l.releaseAll rs).releaseAll rs' := List.foldl_append

/-- What is live is given back, wherever it stands. -/
theorem release_of_perm (h : l.live.Perm (r :: behind)) :
    (l.release r).live.Perm behind ∧ (l.release r).sound = l.sound := by
  have hmem : r ∈ l.live := h.mem_iff.mpr List.mem_cons_self
  constructor
  · have herase := h.erase r
    rwa [List.erase_cons_head] at herase
  · show (l.sound && l.live.contains r) = l.sound
    rw [List.contains_iff_mem.mpr hmem, Bool.and_true]

/-- **All that is held is given back**, and the account stays sound.  What was held behind it is
still held. -/
theorem Holds.releaseAll (h : Holds l (rs ++ behind) l') : Holds l behind (l'.releaseAll rs) := by
  induction rs generalizing l' with
  | nil => exact h
  | cons r rs ih =>
    have hlive : l'.live.Perm (r :: (rs ++ behind ++ l.live)) := h.live
    obtain ⟨hlive', hsound'⟩ := release_of_perm hlive
    exact ih ⟨hlive', hsound'.trans h.sound⟩

/-- What is not live must not be given back. -/
theorem not_sound_release (h : r ∉ l.live) : (l.release r).sound = false := by
  show (l.sound && l.live.contains r) = false
  rw [Bool.and_eq_false_iff]
  right
  simpa using h

theorem not_sound_releaseAll (hl : l.sound = false) (rs : List R) :
    (l.releaseAll rs).sound = false := by
  induction rs generalizing l with
  | nil => exact hl
  | cons r rs ih =>
    refine ih ?_
    show (l.sound && _) = false
    rw [hl, Bool.false_and]

/-- Of each resource as many copies are live as before, less those that were given back. -/
theorem count_releaseAll (l : Ledger R) (rs : List R) (r : R) :
    (l.releaseAll rs).live.count r = l.live.count r - rs.count r := by
  induction rs generalizing l with
  | nil => rfl
  | cons r' rs ih =>
    rw [releaseAll_cons, ih]
    show (l.live.erase r').count r - rs.count r = _
    rw [List.count_erase, List.count_cons]
    omega

/-- **Resources can be given back exactly if each is live as often as it is given back.** -/
theorem sound_releaseAll_iff : (l.releaseAll rs).sound = true ↔
    l.sound = true ∧ ∀ r, rs.count r ≤ l.live.count r := by
  induction rs generalizing l with
  | nil => simp
  | cons r' rs ih =>
    have hsound : (l.release r').sound = true ↔ l.sound = true ∧ 0 < l.live.count r' := by
      show (l.sound && l.live.contains r') = true ↔ _
      rw [Bool.and_eq_true, List.contains_iff_mem, List.count_pos_iff]
    have hcount : ∀ r, (l.release r').live.count r =
        l.live.count r - if r' == r then 1 else 0 := fun r => List.count_erase ..
    rw [releaseAll_cons, ih, hsound, and_assoc]
    refine and_congr_right fun _ => ?_
    constructor
    · rintro ⟨hpos, hall⟩ r
      have hr := hall r
      rw [hcount] at hr
      rw [List.count_cons]
      by_cases heq : r' = r
      · subst heq
        simp only [BEq.rfl, if_true] at hr ⊢
        omega
      · simpa [heq] using hr
    · intro hall
      refine ⟨?_, fun r => ?_⟩
      · have hr := hall r'
        rw [List.count_cons_self] at hr
        omega
      · have hr := hall r
        rw [List.count_cons] at hr
        rw [hcount]
        omega

end Release

/-! ### Fresh resources -/

theorem nodup_acquire (h : l.live.Nodup) (hnew : r ∉ l.live) : (l.acquire r).live.Nodup :=
  List.nodup_cons.mpr ⟨hnew, h⟩

theorem nodup_release [DecidableEq R] (h : l.live.Nodup) : (l.release r).live.Nodup := h.erase r

end Ledger
