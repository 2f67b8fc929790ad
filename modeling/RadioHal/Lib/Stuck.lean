import RadioHal.Lib.Dialogue

/-!
# Programs that get stuck

A question without answers is where a program gets stuck.  Where the answers to other questions
decide whether it comes to that question, and decide it at once, its runs are told apart by the
answers alone.

## Main definitions

* `Stuck d p` — the next question of `p` is `d`.
* `StuckBehind d bad p` — `p` gets stuck on `d` right behind a bad answer, and nowhere else.

## Main results

* `stuckBehind_ask`, `StuckBehind.of_onlyAsks`, `StuckBehind.bind` — the rules for harmless
  questions and for sequencing.
* `StuckBehind.stuck_iff` — **a run is stuck exactly when there is a bad answer in it.**
-/

namespace Dialogue

variable {Q : Type} {A : Q → Type} {α β : Type} {d : Q} {bad : Exchange Q A → Prop}

/-- The next question of `p` is `d`. -/
def Stuck (d : Q) (p : Dialogue Q A α) : Prop := ∃ k, p = ask d k

theorem stuck_ask (d : Q) (k : A d → Dialogue Q A α) : Stuck d (ask d k) := ⟨k, rfl⟩

theorem not_stuck_ret (a : α) : ¬ Stuck d (ret a : Dialogue Q A α) := by
  rintro ⟨k, hk⟩
  cases hk

theorem not_stuck_ask {q : Q} (h : q ≠ d) (k : A q → Dialogue Q A α) : ¬ Stuck d (ask q k) := by
  rintro ⟨k', hk⟩
  injection hk with hq
  exact h hq

theorem Stuck.bind {p : Dialogue Q A α} (h : Stuck d p) (f : α → Dialogue Q A β) :
    Stuck d (p >>= f) := by
  obtain ⟨k, rfl⟩ := h
  exact stuck_ask d _

/-- As long as no answer is bad `p` does not ask `d`, and a bad answer leaves it no other
question. -/
def StuckBehind (d : Q) (bad : Exchange Q A → Prop) : Dialogue Q A α → Prop
  | ret _ => True
  | ask q k => q ≠ d ∧ ∀ a, (bad ⟨q, a⟩ → Stuck d (k a)) ∧
      (¬ bad ⟨q, a⟩ → StuckBehind d bad (k a))

@[simp] theorem stuckBehind_ret (a : α) : StuckBehind d bad (ret a : Dialogue Q A α) := trivial

/-- A question that is not bad leads on, whatever the answer to it is. -/
theorem stuckBehind_ask {q : Q} {k : A q → Dialogue Q A α} (hq : q ≠ d)
    (hbad : ∀ a, ¬ bad ⟨q, a⟩) (hk : ∀ a, StuckBehind d bad (k a)) :
    StuckBehind d bad (ask q k) :=
  ⟨hq, fun a => ⟨fun h => absurd h (hbad a), fun _ => hk a⟩⟩

theorem StuckBehind.bind {p : Dialogue Q A α} (hp : StuckBehind d bad p)
    {f : α → Dialogue Q A β} (hf : ∀ a, StuckBehind d bad (f a)) :
    StuckBehind d bad (p >>= f) := by
  induction p with
  | ret a => exact hf a
  | ask q k ih =>
    refine ⟨hp.1, fun a => ⟨fun h => ?_, fun h => ?_⟩⟩
    · exact ((hp.2 a).1 h).bind f
    · exact ih a ((hp.2 a).2 h)

theorem StuckBehind.of_onlyAsks {P : Q → Prop} {p : Dialogue Q A α} (hp : OnlyAsks P p)
    (hP : ∀ q, P q → q ≠ d ∧ ∀ a, ¬ bad ⟨q, a⟩) : StuckBehind d bad p := by
  induction p with
  | ret a => trivial
  | ask q k ih =>
    obtain ⟨hq, hbad⟩ := hP q hp.1
    exact stuckBehind_ask hq hbad fun a => ih a (hp.2 a)

theorem StuckBehind.not_stuck {p : Dialogue Q A α} (hp : StuckBehind d bad p) : ¬ Stuck d p := by
  cases p with
  | ret a => exact not_stuck_ret a
  | ask q k => exact not_stuck_ask hp.1 k

theorem After.of_stuck (hd : A d → False) {p p' : Dialogue Q A α} {t : List (Exchange Q A)}
    (h : After p t p') (hp : Stuck d p) : t = [] ∧ Stuck d p' := by
  obtain ⟨k, rfl⟩ := hp
  cases h with
  | start => exact ⟨rfl, stuck_ask d k⟩
  | reply a _ => exact (hd a).elim

/-- **A run is stuck exactly when there is a bad answer in it.**  There is one at most, for nothing
comes behind the question that a stuck program ends with. -/
theorem StuckBehind.stuck_iff (hd : A d → False) {p p' : Dialogue Q A α}
    {t : List (Exchange Q A)} (hp : StuckBehind d bad p) (hrun : After p t p') :
    Stuck d p' ↔ ∃ x ∈ t, bad x := by
  induction hrun with
  | start p =>
    have hnil : ¬ ∃ x ∈ ([] : List (Exchange Q A)), bad x := by simp
    exact iff_of_false hp.not_stuck hnil
  | @reply q k t p' a hrest ih =>
    by_cases hbad : bad ⟨q, a⟩
    · have hstuck : Stuck d p' := (hrest.of_stuck hd ((hp.2 a).1 hbad)).2
      exact iff_of_true hstuck ⟨_, List.mem_cons_self, hbad⟩
    · rw [ih ((hp.2 a).2 hbad)]
      constructor
      · rintro ⟨x, hx, hb⟩
        exact ⟨x, List.mem_cons_of_mem _ hx, hb⟩
      · rintro ⟨x, hx, hb⟩
        rcases List.mem_cons.mp hx with rfl | hx
        · exact absurd hb hbad
        · exact ⟨x, hx, hb⟩

end Dialogue
