import RadioHal.Lib.Ownership
import RadioHal.Lib.Steps

/-!
# A slot that is shared

Clients acquire a resource each, and put it in a slot of which there is only one.  A client that
gives its resource back gives back what is in the slot, and that is its own only if nobody else came
in between.

## Main definitions

* `Slotted ι R` — the live resources, the slot, and what the clients of `ι` own.
* `SlotStep` — how resources are acquired and given back.
* `Slotted.Owned` — what is live is what the clients own.
* `InTurn log` — every client closes directly behind its own opening, and no opening fails when it
  has acquired a resource.

## Main results

* `owned_iff` — **what is live is what the clients own exactly as long as they close in turn.**
-/

namespace SharedSlot

variable {ι R : Type}

/-- The resources that are live, the one in the slot, and those that the clients have acquired and
have not given back. -/
structure Slotted (ι R : Type) where
  live : Set R
  slot : Option R
  owned : ι → Option R

/-- What happens to the resources and to the slot that the clients share. -/
inductive SlotEvent (ι R : Type)
  /-- A client has acquired a resource, which is in the slot. -/
  | opened (i : ι) (r : R)
  /-- A resource has been acquired, and is in the slot, but its client has failed. -/
  | failed (r : R)
  /-- A resource has been acquired, and is nowhere. -/
  | dropped (r : R)
  /-- A client has failed without a resource, and emptied the slot. -/
  | cleared
  /-- A client has given back what was in the slot. -/
  | closed (i : ι)

/-- A step.  What is acquired was not live. -/
inductive SlotStep [DecidableEq ι] :
    Slotted ι R → Option (SlotEvent ι R) → Slotted ι R → Prop
  | opened {s : Slotted ι R} {i : ι} {r : R} : s.owned i = none → r ∉ s.live →
      SlotStep s (some (.opened i r))
        ⟨insert r s.live, some r, Function.update s.owned i (some r)⟩
  | failed {s : Slotted ι R} {r : R} : r ∉ s.live →
      SlotStep s (some (.failed r)) ⟨insert r s.live, some r, s.owned⟩
  | dropped {s : Slotted ι R} {r : R} : r ∉ s.live →
      SlotStep s (some (.dropped r)) { s with live := insert r s.live }
  | cleared {s : Slotted ι R} : SlotStep s (some .cleared) { s with slot := none }
  | closed {s : Slotted ι R} {i : ι} : s.owned i ≠ none →
      SlotStep s (some (.closed i))
        ⟨{r ∈ s.live | s.slot ≠ some r}, none, Function.update s.owned i none⟩

/-- The state before the first event: nothing has been acquired, and the slot is empty. -/
def Slotted.start : Slotted ι R := ⟨∅, none, fun _ => none⟩

/-- What is live is what the clients own. -/
def Slotted.Owned (s : Slotted ι R) : Prop := ∀ r, r ∈ s.live ↔ ∃ i, s.owned i = some r

/-- The event behind those of `before` is one that leaves no resource behind. -/
def InOrder (before : List (SlotEvent ι R)) : SlotEvent ι R → Prop
  | .failed _ => False
  | .dropped _ => False
  | .closed i => ∃ r, before.getLast? = some (.opened i r)
  | _ => True

/-- Every event comes in order, after those that stand before it. -/
def InTurn (log : List (SlotEvent ι R)) : Prop :=
  ∀ before e, before ++ [e] <+: log → InOrder before e

theorem inTurn_nil : InTurn ([] : List (SlotEvent ι R)) :=
  fun _ _ h => absurd (List.prefix_nil.mp h) (by simp)

theorem inTurn_concat_iff {log : List (SlotEvent ι R)} {e : SlotEvent ι R} :
    InTurn (log ++ [e]) ↔ InTurn log ∧ InOrder log e := by
  constructor
  · intro h
    exact ⟨fun before e' hbefore => h before e' (hbefore.trans (List.prefix_append _ _)),
      h log e (List.prefix_refl _)⟩
  · rintro ⟨hlog, he⟩ before e' hbefore
    rcases List.prefix_concat_iff.mp hbefore with heq | hbefore
    · obtain ⟨rfl, hlast⟩ := List.append_inj' heq rfl
      obtain rfl := List.singleton_inj.mp hlast
      exact he
    · exact hlog before e' hbefore

/-! ### In turn -/

/-- No two clients own one and the same resource. -/
def Slotted.Apart (s : Slotted ι R) : Prop :=
  ∀ i j r, s.owned i = some r → s.owned j = some r → i = j

/-- What is live is owned, by one client each, and the slot has what was acquired last. -/
structure InPlace (log : List (SlotEvent ι R)) (s : Slotted ι R) : Prop where
  owned : s.Owned
  apart : s.Apart
  slot : ∀ r, s.slot = some r ↔ ∃ i, log.getLast? = some (.opened i r)
  last : ∀ i r, log.getLast? = some (.opened i r) → s.owned i = some r

/-- A resource is live that nobody owns; and if it is in the slot, what the clients own is live. -/
def Slotted.Lost (s : Slotted ι R) : Prop :=
  ∃ r ∈ s.live, (∀ i, s.owned i ≠ some r) ∧
    (s.slot ≠ some r ∨ s.Apart ∧ ∀ i r', s.owned i = some r' → r' ∈ s.live)

theorem Slotted.Lost.not_owned {s : Slotted ι R} (h : s.Lost) : ¬ s.Owned := by
  obtain ⟨r, hlive, hnobody, -⟩ := h
  intro howned
  obtain ⟨i, hi⟩ := (howned r).mp hlive
  exact hnobody i hi

namespace InPlace

variable {log : List (SlotEvent ι R)} {s : Slotted ι R} {r : R}

theorem start : InPlace [] (Slotted.start : Slotted ι R) := by
  have howns : Owns (Slotted.start : Slotted ι R).owned ∅ := .empty fun _ => rfl
  refine ⟨howns.mem_iff, howns.inj, fun r => ⟨?_, ?_⟩, ?_⟩
  · intro h
    cases h
  · rintro ⟨i, hi⟩
    cases hi
  · intro i r hi
    cases hi

/-- The clients hold the live resources, each of them once. -/
theorem owns (h : InPlace log s) : Owns s.owned s.live := ⟨h.apart, h.owned⟩

/-- The slot is emptied, and every client keeps what it owns. -/
theorem cleared (h : InPlace log s) : InPlace (log ++ [.cleared]) { s with slot := none } := by
  refine ⟨h.owned, h.apart, fun r => by simp, fun j r hlast => ?_⟩
  rw [List.getLast?_concat] at hlast
  cases hlast

/-- A resource that was acquired in vain is live, and nobody's. -/
theorem acquired_lost (h : InPlace log s) (hnew : r ∉ s.live) (slot : Option R) :
    Slotted.Lost ⟨insert r s.live, slot, s.owned⟩ := by
  refine ⟨r, Set.mem_insert r s.live, fun i hi => hnew ((h.owned r).mpr ⟨i, hi⟩), Or.inr ?_⟩
  exact ⟨h.apart, fun i r' hi => Set.mem_insert_of_mem r ((h.owned r').mpr ⟨i, hi⟩)⟩

end InPlace

section Steps

variable [DecidableEq ι] {log : List (SlotEvent ι R)} {s s' : Slotted ι R} {i j : ι} {r r' : R}
  {e : SlotEvent ι R}

namespace InPlace

/-- A client comes to own the resource that it has put into the slot. -/
theorem opened (h : InPlace log s) (hnone : s.owned i = none) (hnew : r ∉ s.live) :
    InPlace (log ++ [.opened i r])
      ⟨insert r s.live, some r, Function.update s.owned i (some r)⟩ := by
  have howns : Owns (Function.update s.owned i (some r)) (insert r s.live) :=
    h.owns.acquire hnone hnew (Function.update_self ..) fun j hj => Function.update_of_ne hj _ _
  refine ⟨howns.mem_iff, howns.inj, fun r' => by simp, fun j r' hlast => ?_⟩
  rw [List.getLast?_concat] at hlast
  cases hlast
  exact Function.update_self ..

/-- A client that closes behind its own opening gives back what it owns. -/
theorem closed (h : InPlace log s) (hlast : log.getLast? = some (.opened i r)) :
    InPlace (log ++ [.closed i])
      ⟨{r' ∈ s.live | s.slot ≠ some r'}, none, Function.update s.owned i none⟩ := by
  have hslot : s.slot = some r := (h.slot r).mpr ⟨i, hlast⟩
  have hback : {r' ∈ s.live | s.slot ≠ some r'} = {r' ∈ s.live | r' ≠ r} := by
    simp only [hslot, ne_eq, Option.some.injEq, eq_comm]
  have howns : Owns (Function.update s.owned i none) {r' ∈ s.live | s.slot ≠ some r'} := by
    rw [hback]
    exact h.owns.release (h.last i r hlast) (Function.update_self ..)
      fun j hj => Function.update_of_ne hj _ _
  refine ⟨howns.mem_iff, howns.inj, fun r' => by simp, fun j r' hlast' => ?_⟩
  rw [List.getLast?_concat] at hlast'
  cases hlast'

/-- A client closes elsewhere: its resource is still live, and nobody's. -/
theorem closed_lost (h : InPlace log s) (howned : s.owned i ≠ none)
    (hlast : ¬ ∃ r, log.getLast? = some (.opened i r)) :
    Slotted.Lost
      ⟨{r' ∈ s.live | s.slot ≠ some r'}, none, Function.update s.owned i none⟩ := by
  obtain ⟨r, hmine⟩ := Option.ne_none_iff_exists'.mp howned
  have hslot : s.slot ≠ some r := by
    intro hslot
    obtain ⟨j, hj⟩ := (h.slot r).mp hslot
    obtain rfl := h.apart j i r (h.last j r hj) hmine
    exact hlast ⟨r, hj⟩
  refine ⟨r, ⟨(h.owned r).mpr ⟨i, hmine⟩, hslot⟩, fun j hj => ?_, Or.inl (by simp)⟩
  obtain ⟨hji, hj⟩ := update_none_iff.mp hj
  exact hji (h.apart j i r hj hmine)

end InPlace

/-! ### Out of turn -/

/-- **What nobody owns is not made good**: it is lost for the rest of the run. -/
theorem Slotted.Lost.step (h : s.Lost) (hstep : SlotStep s (some e) s') : s'.Lost := by
  obtain ⟨r, hlive, hnobody, hplace⟩ := h
  have hother : ∀ {r'}, r' ∉ s.live → r' ≠ r := by
    rintro r' hnew rfl
    exact hnew hlive
  cases hstep with
  | @opened i r' hnone hnew =>
    have hne := hother hnew
    refine ⟨r, Set.mem_insert_of_mem r' hlive, fun j hj => ?_, Or.inl (by simpa using hne)⟩
    rcases update_some_iff.mp hj with ⟨-, heq⟩ | ⟨-, hj⟩
    · exact hne heq
    · exact hnobody j hj
  | @failed r' hnew =>
    exact ⟨r, Set.mem_insert_of_mem r' hlive, hnobody, Or.inl (by simpa using hother hnew)⟩
  | @dropped r' hnew =>
    refine ⟨r, Set.mem_insert_of_mem r' hlive, hnobody, hplace.imp_right fun hall => ?_⟩
    exact ⟨hall.1, fun i x hi => Set.mem_insert_of_mem r' (hall.2 i x hi)⟩
  | cleared => exact ⟨r, hlive, hnobody, Or.inl (by simp)⟩
  | @closed i howned =>
    by_cases hslot : s.slot = some r
    · -- it is given back in place of that of the client
      obtain ⟨hapart, hall⟩ := hplace.resolve_left (not_not.mpr hslot)
      obtain ⟨r', hmine⟩ := Option.ne_none_iff_exists'.mp howned
      have hne : s.slot ≠ some r' := by
        rw [hslot]
        rintro ⟨rfl⟩
        exact hnobody i hmine
      refine ⟨r', ⟨hall i r' hmine, hne⟩, fun j hj => ?_, Or.inl (by simp)⟩
      obtain ⟨hji, hj⟩ := update_none_iff.mp hj
      exact hji (hapart j i r' hj hmine)
    · exact ⟨r, ⟨hlive, hslot⟩, fun j hj => hnobody j (update_none_iff.mp hj).2,
        Or.inl (by simp)⟩

/-- **A step where everything was in turn so far.**  Either it comes in its turn as well, and
everything stays in place, or something is lost with it. -/
theorem InPlace.step (h : InPlace log s) (hstep : SlotStep s (some e) s') :
    InOrder log e ∧ InPlace (log ++ [e]) s' ∨ ¬ InOrder log e ∧ s'.Lost := by
  cases hstep with
  | opened hnone hnew => exact Or.inl ⟨trivial, h.opened hnone hnew⟩
  | failed hnew => exact Or.inr ⟨id, h.acquired_lost hnew _⟩
  | dropped hnew => exact Or.inr ⟨id, h.acquired_lost hnew _⟩
  | cleared => exact Or.inl ⟨trivial, h.cleared⟩
  | @closed i howned =>
    by_cases hlast : ∃ r, log.getLast? = some (.opened i r)
    · obtain ⟨r, hr⟩ := hlast
      exact Or.inl ⟨⟨r, hr⟩, h.closed hr⟩
    · exact Or.inr ⟨hlast, h.closed_lost howned hlast⟩

/-- **What is live is what the clients own exactly as long as they close in turn.** -/
theorem owned_iff (hrun : Trace SlotStep (Slotted.start : Slotted ι R) log s) :
    s.Owned ↔ InTurn log := by
  have hinv : InTurn log ∧ InPlace log s ∨ ¬ InTurn log ∧ s.Lost := by
    refine hrun.log_invariant
      (fun log s => InTurn log ∧ InPlace log s ∨ ¬ InTurn log ∧ s.Lost) ?_
      (Or.inl ⟨inTurn_nil, .start⟩)
    rintro log s (_ | e) s' h hstep
    · cases hstep
    rw [Option.toList_some, inTurn_concat_iff]
    rcases h with ⟨hturn, h⟩ | ⟨hnot, h⟩
    · rcases h.step hstep with ⟨he, h'⟩ | ⟨he, h'⟩
      · exact Or.inl ⟨⟨hturn, he⟩, h'⟩
      · exact Or.inr ⟨fun hall => he hall.2, h'⟩
    · exact Or.inr ⟨fun hall => hnot hall.1, h.step hstep⟩
  rcases hinv with ⟨hturn, h⟩ | ⟨hnot, h⟩
  · exact iff_of_true h.owned hturn
  · exact iff_of_false h.not_owned hnot

end Steps

end SharedSlot
