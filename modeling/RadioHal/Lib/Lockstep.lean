import RadioHal.Lib.Dialogue

/-!
# Programs in lockstep

Two programs are in lockstep when they ask the same questions as long as they get the same
answers.  To some questions, such as for the contents of memory, the two may get different
answers, and go on in lockstep all the same.

## Main definitions

* `Lockstep free R p p'` — `p` and `p'` are in lockstep, up to the questions that are `free`, and
  end in results related by `R`.
* `SameReplies free t t'` — two transcripts have the same answers to the same questions.

## Main results

* `Lockstep.bind` — lockstep is kept by sequencing.
* `Lockstep.of_onlyAsks` — a program without free questions is in lockstep with itself.
* `Lockstep.questions_eq` — **runs with the same replies have asked the same questions**, and what
  is left of the programs is in lockstep.
-/

namespace Dialogue

variable {Q : Type} {A : Q → Type} {α β α' β' : Type}

/-- The programs ask the same questions; free ones may be answered differently. -/
inductive Lockstep (free : Q → Prop) (R : α → β → Prop) :
    Dialogue Q A α → Dialogue Q A β → Prop
  | ret {a : α} {b : β} : R a b → Lockstep free R (ret a) (ret b)
  | ask {q : Q} {k : A q → Dialogue Q A α} {k' : A q → Dialogue Q A β} :
      (∀ x x', (¬ free q → x = x') → Lockstep free R (k x) (k' x')) →
      Lockstep free R (ask q k) (ask q k')

/-- Where the same question stands at the same place, and is not free, it has the same answer. -/
def SameReplies (free : Q → Prop) (t t' : List (Exchange Q A)) : Prop :=
  ∀ x ∈ t.zip t', ¬ free x.1.1 → x.1.1 = x.2.1 → HEq x.1.2 x.2.2

namespace Lockstep

variable {free : Q → Prop} {R : α → β → Prop}

theorem mono {p : Dialogue Q A α} {p' : Dialogue Q A β} (h : Lockstep free R p p')
    {R' : α → β → Prop} (hR : ∀ a b, R a b → R' a b) : Lockstep free R' p p' := by
  induction h with
  | ret h => exact .ret (hR _ _ h)
  | ask _ ih => exact .ask ih

/-- **The rule for sequencing**: programs that agree step by step, followed by programs that agree
on what comes of them, agree. -/
theorem bind {p : Dialogue Q A α} {p' : Dialogue Q A β} (h : Lockstep free R p p')
    {R' : α' → β' → Prop} {f : α → Dialogue Q A α'} {f' : β → Dialogue Q A β'}
    (hf : ∀ a b, R a b → Lockstep free R' (f a) (f' b)) :
    Lockstep free R' (p >>= f) (p' >>= f') := by
  induction h with
  | ret h => exact hf _ _ h
  | ask _ ih => exact .ask ih

/-- A program without free questions is in lockstep with itself. -/
theorem of_onlyAsks {R : α → α → Prop} (hR : ∀ a, R a a) {p : Dialogue Q A α}
    (hp : OnlyAsks (fun q => ¬ free q) p) : Lockstep free R p p := by
  induction p with
  | ret a => exact .ret (hR a)
  | ask q k ih =>
    refine .ask fun x x' hx => ?_
    obtain rfl := hx hp.1
    exact ih x (hp.2 x)

theorem of_ask {q q' : Q} {k : A q → Dialogue Q A α} {k' : A q' → Dialogue Q A β}
    (h : Lockstep free R (Dialogue.ask q k) (Dialogue.ask q' k')) : q = q' := by
  cases h
  rfl

/-- And go on in lockstep, with the same answer if it is not free. -/
theorem of_ask_ask {q : Q} {k : A q → Dialogue Q A α} {k' : A q → Dialogue Q A β}
    (h : Lockstep free R (Dialogue.ask q k) (Dialogue.ask q k')) (x x' : A q)
    (hx : ¬ free q → x = x') : Lockstep free R (k x) (k' x') := by
  cases h with
  | ask h => exact h x x' hx

/-- **Runs with the same replies have asked the same questions**, and what is left of the programs
is in lockstep. -/
theorem questions_eq {p q : Dialogue Q A α} {p' q' : Dialogue Q A β} (h : Lockstep free R p p')
    {t t' : List (Exchange Q A)} (hrun : After p t q) (hrun' : After p' t' q')
    (hlen : t.length = t'.length) (hsame : SameReplies free t t') :
    t.map Sigma.fst = t'.map Sigma.fst ∧ Lockstep free R q q' := by
  induction hrun generalizing p' t' with
  | start p =>
    obtain rfl : t' = [] := List.length_eq_zero_iff.mp hlen.symm
    cases hrun'
    exact ⟨rfl, h⟩
  | @reply q₀ k t q x _ ih =>
    cases hrun' with
    | start => exact absurd hlen (by simp)
    | @reply q₁ k' t' _ x' hrun' =>
      obtain rfl := h.of_ask
      have hx : ¬ free q₀ → x = x' := fun hfree =>
        eq_of_heq (hsame (⟨q₀, x⟩, ⟨q₀, x'⟩) List.mem_cons_self hfree rfl)
      have hrest : SameReplies free t t' := fun y hy => hsame y (List.mem_cons_of_mem _ hy)
      obtain ⟨hquestions, hleft⟩ := ih (h.of_ask_ask x x' hx) hrun' (Nat.succ.inj hlen) hrest
      refine ⟨?_, hleft⟩
      rw [List.map_cons, List.map_cons, hquestions]

end Lockstep

end Dialogue
