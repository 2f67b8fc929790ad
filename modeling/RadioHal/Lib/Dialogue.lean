import Mathlib.Data.Nat.Notation
import Mathlib.Logic.Basic

/-!
# Programs in dialogue with their surroundings

A program that talks to devices, sockets and other programs is modelled as a tree: it has
either returned, or it asks a question of its surroundings and goes on with the answer.  The
surroundings stay open: a *world* says, state by state, which answers a question may get.  A
question whose answer type is empty is one the program never comes back from, which is how a
crash or a call that blocks for ever is written.

## Main definitions

* `Dialogue Q A α` — programs asking questions `q : Q`, answered in `A q`, returning an `α`.
* `Reach W s p s' p'` — in the world `W`, the program `p` started in state `s` can get to `p'`.
* `After p t p'` — `p` has become `p'` once the exchanges of the transcript `t` are made.
* `play script n p` — a run against a script, computed; `replay t p` — a run by given exchanges.
* `wp W I post p s` — every question asked meets `I`, every result meets `post`.
* `OnlyAsks P p` — every question of `p`, whatever the answers, satisfies `P`.
* `Yields R p` — every result of `p`, whatever the answers, satisfies `R`.
* `CanReturn p` — some answers bring `p` to a result.
* `AtEvery P p` — every question of `p`, together with what `p` does next, satisfies `P`.
* `iterate body n` — `n` rounds of an endless loop.
* `embed f p` — a program that asks its questions within another one.

## Main results

* `after_bind_iff`, `After.unique` — a run of two programs in its parts, and its one result.
* `wp_reach`, `wp_after` — **what `wp` promises holds at every moment of every run.**
* `wp_iff_reach` — and what holds at every moment of every run is promised by `wp`.
* `wp_bind`, `wp_mono`, `wp_iterate` — the rules for sequencing, consequence and loops.
* `wp_of_onlyAsks` — a program that asks nothing of interest needs no further proof.
* `wp_embed` — the rule for a program within another one.
-/

/-- A program that has returned, or that asks `q` and goes on with the answer. -/
inductive Dialogue (Q : Type) (A : Q → Type) (α : Type) : Type
  /-- The program has returned. -/
  | ret (a : α) : Dialogue Q A α
  /-- The program asks and waits. -/
  | ask (q : Q) (k : A q → Dialogue Q A α) : Dialogue Q A α

namespace Dialogue

variable {Q : Type} {A : Q → Type} {α β σ τ : Type}

/-! ### Sequencing -/

/-- Run a program and feed its result to the next one. -/
protected def bind : Dialogue Q A α → (α → Dialogue Q A β) → Dialogue Q A β
  | ret a, f => f a
  | ask q k, f => ask q fun a => (k a).bind f

instance : Monad (Dialogue Q A) where
  pure := ret
  bind := Dialogue.bind

/-- The program that asks one question and returns the answer. -/
def query (q : Q) : Dialogue Q A (A q) := ask q ret

@[simp] theorem pure_eq_ret (a : α) : (pure a : Dialogue Q A α) = ret a := rfl

@[simp] theorem ret_bind (a : α) (f : α → Dialogue Q A β) : (ret a >>= f) = f a := rfl

@[simp] theorem ask_bind (q : Q) (k : A q → Dialogue Q A α) (f : α → Dialogue Q A β) :
    (ask q k >>= f) = ask q fun a => k a >>= f := rfl

@[simp] theorem query_bind (q : Q) (f : A q → Dialogue Q A β) :
    ((query q : Dialogue Q A (A q)) >>= f) = ask q f := rfl

theorem bind_ret (p : Dialogue Q A α) : (p >>= ret) = p := by
  induction p with
  | ret a => rfl
  | ask q k ih =>
    rw [ask_bind]
    exact congrArg (ask q) (funext ih)

theorem bind_bind (p : Dialogue Q A α) (f : α → Dialogue Q A β) (g : β → Dialogue Q A τ) :
    (p >>= f >>= g) = p >>= fun a => f a >>= g := by
  induction p with
  | ret a => rfl
  | ask q k ih =>
    simp only [ask_bind]
    exact congrArg (ask q) (funext ih)

instance : LawfulMonad (Dialogue Q A) :=
  LawfulMonad.mk' (Dialogue Q A) bind_ret (fun _ _ => rfl) bind_bind

/-! ### Worlds and runs -/

/-- The surroundings of a program: in state `s` they may answer `q` by `a` and move to `s'`. -/
abbrev World (Q : Type) (A : Q → Type) (σ : Type) : Type := σ → (q : Q) → A q → σ → Prop

/-- A question together with the answer it got. -/
abbrev Exchange (Q : Type) (A : Q → Type) : Type := Σ q : Q, A q

/-- In the world `W` the program `p`, started in state `s`, can get to `p'` in state `s'`. -/
inductive Reach (W : World Q A σ) : σ → Dialogue Q A α → σ → Dialogue Q A α → Prop
  /-- Nothing has been asked yet. -/
  | start (s : σ) (p : Dialogue Q A α) : Reach W s p s p
  /-- The first question gets an answer. -/
  | reply {s s' s'' : σ} {q : Q} {k : A q → Dialogue Q A α} {p' : Dialogue Q A α} (a : A q) :
      W s q a s' → Reach W s' (k a) s'' p' → Reach W s (ask q k) s'' p'

/-- After the exchanges of `t`, in order, the program `p` has become `p'`. -/
inductive After : Dialogue Q A α → List (Exchange Q A) → Dialogue Q A α → Prop
  /-- Nothing has been asked yet. -/
  | start (p : Dialogue Q A α) : After p [] p
  /-- The first question gets an answer. -/
  | reply {q : Q} {k : A q → Dialogue Q A α} {t : List (Exchange Q A)} {p' : Dialogue Q A α}
      (a : A q) : After (k a) t p' → After (ask q k) (⟨q, a⟩ :: t) p'

/-- The world that allows every answer and remembers the exchanges made. -/
def history : World Q A (List (Exchange Q A)) := fun t q a t' => t' = t ++ [⟨q, a⟩]

/-- The same world, in which only some exchanges can be made. -/
def constrained (R : Exchange Q A → Prop) : World Q A (List (Exchange Q A)) :=
  fun t q a t' => R ⟨q, a⟩ ∧ t' = t ++ [⟨q, a⟩]

/-- A world that also remembers the exchanges made. -/
def recorded (W : World Q A σ) : World Q A (σ × List (Exchange Q A)) :=
  fun s q a s' => W s.1 q a s'.1 ∧ s'.2 = s.2 ++ [⟨q, a⟩]

theorem recorded_step {W : World Q A σ} {s s' : σ} {q : Q} {a : A q} (h : W s q a s')
    (t : List (Exchange Q A)) : recorded W (s, t) q a (s', t ++ [⟨q, a⟩]) := ⟨h, rfl⟩

theorem reach_history {p p' : Dialogue Q A α} {t : List (Exchange Q A)} (h : After p t p')
    (t₀ : List (Exchange Q A)) : Reach history t₀ p (t₀ ++ t) p' := by
  induction h generalizing t₀ with
  | start p => rw [List.append_nil]; exact .start _ _
  | @reply q k t p' a _ ih =>
    have := ih (t₀ ++ [⟨q, a⟩])
    rw [List.append_assoc, List.singleton_append] at this
    exact .reply a rfl this

theorem reach_constrained {R : Exchange Q A → Prop} {p p' : Dialogue Q A α}
    {t : List (Exchange Q A)} (h : After p t p') (ht : ∀ x ∈ t, R x) (t₀ : List (Exchange Q A)) :
    Reach (constrained R) t₀ p (t₀ ++ t) p' := by
  induction h generalizing t₀ with
  | start p => rw [List.append_nil]; exact .start _ _
  | @reply q k t p' a _ ih =>
    have := ih (fun x hx => ht x (List.mem_cons_of_mem _ hx)) (t₀ ++ [⟨q, a⟩])
    rw [List.append_assoc, List.singleton_append] at this
    exact .reply a ⟨ht _ List.mem_cons_self, rfl⟩ this

/-- Runs compose: a run of the first program followed by one of the rest. -/
theorem Reach.bind {W : World Q A σ} {p p' : Dialogue Q A α} {s s' : σ} (h : Reach W s p s' p')
    (f : α → Dialogue Q A β) : Reach W s (p >>= f) s' (p' >>= f) := by
  induction h with
  | start s p => exact .start _ _
  | reply a hW _ ih => exact .reply a hW ih

theorem Reach.trans {W : World Q A σ} {p p' p'' : Dialogue Q A α} {s s' s'' : σ}
    (h : Reach W s p s' p') (h' : Reach W s' p' s'' p'') : Reach W s p s'' p'' := by
  induction h with
  | start s p => exact h'
  | reply a hW _ ih => exact .reply a hW (ih h')

/-- A run of the first part is a run of the whole, up to the same question. -/
theorem After.bind {p : Dialogue Q A α} {t : List (Exchange Q A)} {p' : Dialogue Q A α}
    (h : After p t p') (f : α → Dialogue Q A β) : After (p >>= f) t (p' >>= f) := by
  induction h with
  | start p => exact .start _
  | reply a _ ih => exact .reply a ih

theorem After.trans {p p' p'' : Dialogue Q A α} {t t' : List (Exchange Q A)}
    (h : After p t p') (h' : After p' t' p'') : After p (t ++ t') p'' := by
  induction h with
  | start p => exact h'
  | reply a _ ih => exact .reply a (ih h')

theorem After.of_ret {a : α} {t : List (Exchange Q A)} {p : Dialogue Q A α}
    (h : After (ret a) t p) : t = [] ∧ p = ret a := by
  cases h
  exact ⟨rfl, rfl⟩

theorem after_nil_iff {p p' : Dialogue Q A α} : After p [] p' ↔ p' = p := by
  constructor
  · intro h
    cases h
    rfl
  · rintro rfl
    exact .start _

theorem after_ret_iff {a b : α} {t : List (Exchange Q A)} :
    After (ret a) t (ret b : Dialogue Q A α) ↔ t = [] ∧ b = a := by
  constructor
  · intro h
    obtain ⟨ht, hb⟩ := h.of_ret
    exact ⟨ht, ret.inj hb⟩
  · rintro ⟨rfl, rfl⟩
    exact .start _

theorem after_ask_iff {q : Q} {k : A q → Dialogue Q A α} {t : List (Exchange Q A)} {b : α} :
    After (ask q k) t (ret b) ↔ ∃ a t', t = ⟨q, a⟩ :: t' ∧ After (k a) t' (ret b) := by
  constructor
  · intro h
    cases h with
    | reply a h => exact ⟨a, _, rfl, h⟩
  · rintro ⟨a, t', rfl, h⟩
    exact .reply a h

theorem after_ask_cons_iff {q : Q} {k : A q → Dialogue Q A α} {a : A q} {t : List (Exchange Q A)}
    {b : α} : After (ask q k) (⟨q, a⟩ :: t) (ret b) ↔ After (k a) t (ret b) := by
  constructor
  · intro h
    cases h with
    | reply a h => exact h
  · exact fun h => .reply a h

/-- The first exchange of a question is its answer. -/
theorem After.of_ask {q : Q} {k : A q → Dialogue Q A α} {x : Exchange Q A}
    {t : List (Exchange Q A)} {p' : Dialogue Q A α} (h : After (ask q k) (x :: t) p') :
    ∃ a, x = ⟨q, a⟩ ∧ After (k a) t p' := by
  cases h with
  | reply a h => exact ⟨a, rfl, h⟩

/-- Whatever can be run behind an answer can be run with it. -/
theorem exists_after_ask {q : Q} {k : A q → Dialogue Q A α} {a : A q} {t : List (Exchange Q A)}
    (h : ∃ p', After (k a) t p') : ∃ p', After (ask q k) (⟨q, a⟩ :: t) p' := by
  obtain ⟨p', h⟩ := h
  exact ⟨p', .reply a h⟩

/-- A run of two programs to a result is one of the first, and then one of the second. -/
theorem after_bind_iff {p : Dialogue Q A α} {f : α → Dialogue Q A β} {t : List (Exchange Q A)}
    {b : β} : After (p >>= f) t (ret b) ↔
      ∃ t₁ a t₂, t = t₁ ++ t₂ ∧ After p t₁ (ret a) ∧ After (f a) t₂ (ret b) := by
  constructor
  · intro h
    induction p generalizing t with
    | ret a => exact ⟨[], a, t, rfl, .start _, h⟩
    | ask q k ih =>
      obtain ⟨a, t', rfl, h'⟩ := after_ask_iff.mp h
      obtain ⟨t₁, a', t₂, rfl, h₁, h₂⟩ := ih a h'
      exact ⟨⟨q, a⟩ :: t₁, a', t₂, rfl, .reply a h₁, h₂⟩
  · rintro ⟨t₁, a, t₂, rfl, h₁, h₂⟩
    exact (h₁.bind f).trans h₂

/-- A run of two programs is one of the first, or goes on in the second. -/
theorem After.bind_cases {p : Dialogue Q A α} {f : α → Dialogue Q A β} {t : List (Exchange Q A)}
    {p' : Dialogue Q A β} (h : After (p >>= f) t p') : (∃ q, After p t q) ∨
      ∃ t₁ a t₂, t = t₁ ++ t₂ ∧ After p t₁ (ret a) ∧ After (f a) t₂ p' := by
  induction p generalizing t with
  | ret a => exact Or.inr ⟨[], a, t, rfl, .start _, h⟩
  | ask q k ih =>
    cases h with
    | start => exact Or.inl ⟨_, .start _⟩
    | reply a h =>
      rcases ih a h with ⟨q', hq⟩ | ⟨t₁, b, t₂, rfl, h₁, h₂⟩
      · exact Or.inl ⟨q', .reply a hq⟩
      · exact Or.inr ⟨⟨q, a⟩ :: t₁, b, t₂, rfl, .reply a h₁, h₂⟩

/-- The exchanges made determine what the program has become. -/
theorem After.behind {p q p' : Dialogue Q A α} {t t' : List (Exchange Q A)} (hq : After p t q)
    (h : After p (t ++ t') p') : After q t' p' := by
  induction hq with
  | start p => exact h
  | reply a _ ih =>
    cases h with
    | reply _ h => exact ih h

/-- Behind a run of the first program that is known, a run of both goes on in the second. -/
theorem After.of_bind {p : Dialogue Q A α} {f : α → Dialogue Q A β} {t t' : List (Exchange Q A)}
    {a : α} {p' : Dialogue Q A β} (hp : After p t (ret a)) (h : After (p >>= f) (t ++ t') p') :
    After (f a) t' p' :=
  (hp.bind f).behind h

/-- The last exchange of a run is an answer to what the program asked then. -/
theorem After.last {p p' : Dialogue Q A α} {t : List (Exchange Q A)} {q : Q} {a : A q}
    (h : After p (t ++ [⟨q, a⟩]) p') : ∃ k, After p t (ask q k) ∧ p' = k a := by
  induction t generalizing p with
  | nil =>
    cases h with
    | reply a h => exact ⟨_, .start _, after_nil_iff.mp h⟩
  | cons x t ih =>
    cases h with
    | reply a h =>
      obtain ⟨k, hk, hp'⟩ := ih h
      exact ⟨k, .reply a hk, hp'⟩

/-- A program is deterministic: the exchanges that were made determine where it is. -/
theorem After.unique {p : Dialogue Q A α} {t : List (Exchange Q A)} {a b : α}
    (h : After p t (ret a)) (h' : After p t (ret b)) : a = b := by
  induction p generalizing t with
  | ret c => rw [(after_ret_iff.mp h).2, (after_ret_iff.mp h').2]
  | ask q k ih =>
    obtain ⟨x, t', rfl, hx⟩ := after_ask_iff.mp h
    obtain ⟨y, t'', ht, hy⟩ := after_ask_iff.mp h'
    obtain ⟨hxy, rfl⟩ := List.cons.inj ht
    obtain rfl : x = y := eq_of_heq (Sigma.mk.inj hxy).2
    exact ih x hx hy

/-- Play a program for at most `n` questions against a script: the exchanges made, and what the
program has become.  It stops at a question the script has no answer to. -/
def play (script : (q : Q) → Option (A q)) : ℕ → Dialogue Q A α →
    List (Exchange Q A) × Dialogue Q A α
  | 0, p => ([], p)
  | _ + 1, ret a => ([], ret a)
  | n + 1, ask q k =>
    match script q with
    | none => ([], ask q k)
    | some a => (⟨q, a⟩ :: (play script n (k a)).1, (play script n (k a)).2)

/-- The exchanges that a script of answers leads to are those of a run. -/
theorem after_play (script : (q : Q) → Option (A q)) (n : ℕ) (p : Dialogue Q A α) :
    After p (play script n p).1 (play script n p).2 := by
  induction n generalizing p with
  | zero => exact .start p
  | succ n ih =>
    cases p with
    | ret a => exact .start _
    | ask q k =>
      rw [play]
      split
      · exact .start _
      · exact .reply _ (ih _)

/-- What a program becomes by the given exchanges, if these are the questions it asks. -/
def replay [DecidableEq Q] : List (Exchange Q A) → Dialogue Q A α → Option (Dialogue Q A α)
  | [], p => some p
  | _ :: _, ret _ => none
  | ⟨q, a⟩ :: t, ask q' k => if h : q = q' then replay t (k (h ▸ a)) else none

theorem after_replay [DecidableEq Q] {t : List (Exchange Q A)} {p p' : Dialogue Q A α}
    (h : replay t p = some p') : After p t p' := by
  induction t generalizing p with
  | nil =>
    obtain rfl := Option.some.inj h
    exact .start _
  | cons x t ih =>
    obtain ⟨q, a⟩ := x
    cases p with
    | ret b => cases h
    | ask q' k =>
      rw [replay] at h
      split at h
      · next heq =>
        subst heq
        exact .reply a (ih h)
      · cases h

/-! ### Weakest preconditions -/

/-- Every question `p` comes to ask meets `I` in the state it is asked in, and every result of
`p` meets `post`. -/
def wp (W : World Q A σ) (I : σ → Q → Prop) (post : α → σ → Prop) : Dialogue Q A α → σ → Prop
  | ret a, s => post a s
  | ask q k, s => I s q ∧ ∀ a s', W s q a s' → wp W I post (k a) s'

section Rules

variable {W : World Q A σ} {I I' : σ → Q → Prop} {post post' : α → σ → Prop}

@[simp] theorem wp_ret (a : α) (s : σ) : wp W I post (ret a) s ↔ post a s := Iff.rfl

@[simp] theorem wp_ask (q : Q) (k : A q → Dialogue Q A α) (s : σ) :
    wp W I post (ask q k) s ↔ I s q ∧ ∀ a s', W s q a s' → wp W I post (k a) s' := Iff.rfl

theorem wp_bind (p : Dialogue Q A α) (f : α → Dialogue Q A β) {post : β → σ → Prop} (s : σ) :
    wp W I post (p >>= f) s ↔ wp W I (fun a s' => wp W I post (f a) s') p s := by
  induction p generalizing s with
  | ret a => rfl
  | ask q k ih =>
    simp only [ask_bind, wp_ask]
    exact and_congr_right fun _ => forall_congr' fun a => forall_congr' fun s' =>
      imp_congr_right fun _ => ih a s'

theorem wp_mono {p : Dialogue Q A α} {s : σ} (h : wp W I post p s)
    (hI : ∀ s q, I s q → I' s q) (hpost : ∀ a s, post a s → post' a s) : wp W I' post' p s := by
  induction p generalizing s with
  | ret a => exact hpost a s h
  | ask q k ih => exact ⟨hI s q h.1, fun a s' hW => ih a (h.2 a s' hW)⟩

theorem wp_consequence {p : Dialogue Q A α} {s : σ} (h : wp W I post p s)
    (hpost : ∀ a s, post a s → post' a s) : wp W I post' p s :=
  wp_mono h (fun _ _ hI => hI) hpost

/-- **What `wp` promises is kept along every run**: the program that is left promises the same of
the state that has been reached.  By induction on the run. -/
theorem wp_reach {p p' : Dialogue Q A α} {s s' : σ} (hrun : Reach W s p s' p')
    (h : wp W I post p s) : wp W I post p' s' := by
  induction hrun with
  | start s p => exact h
  | reply a hW _ ih => exact ih (h.2 a _ hW)

/-- The same for a transcript, whose world allows every answer. -/
theorem wp_after {I : List (Exchange Q A) → Q → Prop} {post : α → List (Exchange Q A) → Prop}
    {p p' : Dialogue Q A α} {t : List (Exchange Q A)} (hrun : After p t p')
    (h : wp history I post p []) : wp history I post p' t :=
  wp_reach (reach_history hrun []) h

/-- The same where something is known of each exchange. -/
theorem wp_after_of_forall {R : Exchange Q A → Prop} {I : List (Exchange Q A) → Q → Prop}
    {post : α → List (Exchange Q A) → Prop} {p p' : Dialogue Q A α} {t : List (Exchange Q A)}
    (hrun : After p t p') (ht : ∀ x ∈ t, R x) (h : wp (constrained R) I post p []) :
    wp (constrained R) I post p' t :=
  wp_reach (reach_constrained hrun ht []) h

/-- **`wp` says neither less nor more than that**: it holds when no run comes to a question that
misses `I` or to a result that misses `post`. -/
theorem wp_iff_reach (p : Dialogue Q A α) (s : σ) : wp W I post p s ↔ ∀ s' p', Reach W s p s' p' →
    (∀ a, p' = ret a → post a s') ∧ ∀ q k, p' = ask q k → I s' q := by
  constructor
  · intro h s' p' hrun
    have hwp := wp_reach hrun h
    constructor
    · rintro a rfl
      exact hwp
    · rintro q k rfl
      exact hwp.1
  · intro h
    induction p generalizing s with
    | ret a => exact (h s _ (.start s _)).1 a rfl
    | ask q k ih =>
      refine ⟨(h s _ (.start s _)).2 q k rfl, fun a s' hW => ih a s' fun s'' p' hrun => ?_⟩
      exact h s'' p' (.reply a hW hrun)

end Rules

/-! ### Programs that ask nothing of interest -/

/-- Every question of `p`, whatever the answers, satisfies `P`. -/
def OnlyAsks (P : Q → Prop) : Dialogue Q A α → Prop
  | ret _ => True
  | ask q k => P q ∧ ∀ a, OnlyAsks P (k a)

section OnlyAsks

variable {P : Q → Prop}

@[simp] theorem onlyAsks_ret (a : α) : OnlyAsks P (ret a : Dialogue Q A α) := trivial

@[simp] theorem onlyAsks_ask (q : Q) (k : A q → Dialogue Q A α) :
    OnlyAsks P (ask q k) ↔ P q ∧ ∀ a, OnlyAsks P (k a) := Iff.rfl

theorem OnlyAsks.bind {p : Dialogue Q A α} (hp : OnlyAsks P p) {f : α → Dialogue Q A β}
    (hf : ∀ a, OnlyAsks P (f a)) : OnlyAsks P (p >>= f) := by
  induction p with
  | ret a => exact hf a
  | ask q k ih => exact ⟨hp.1, fun a => ih a (hp.2 a)⟩

theorem OnlyAsks.mono {p : Dialogue Q A α} (hp : OnlyAsks P p) {P' : Q → Prop}
    (h : ∀ q, P q → P' q) : OnlyAsks P' p := by
  induction p with
  | ret a => trivial
  | ask q k ih => exact ⟨h q hp.1, fun a => ih a (hp.2 a)⟩

/-- A question of a run is one of those. -/
theorem OnlyAsks.of_mem {p p' : Dialogue Q A α} {t : List (Exchange Q A)} (hp : OnlyAsks P p)
    (hrun : After p t p') : ∀ x ∈ t, P x.1 := by
  induction hrun with
  | start p => exact fun x hx => absurd hx List.not_mem_nil
  | reply a _ ih => exact List.forall_mem_cons.mpr ⟨hp.1, ih (hp.2 a)⟩

theorem onlyAsks_of_forall (h : ∀ q, P q) (p : Dialogue Q A α) : OnlyAsks P p := by
  induction p with
  | ret a => trivial
  | ask q k ih => exact ⟨h q, ih⟩

/-- **The rule for programs that ask nothing of interest**: an invariant that the answers to
their questions keep holds behind them. -/
theorem wp_of_onlyAsks {W : World Q A σ} {I : σ → Q → Prop} (Inv : σ → Prop)
    {p : Dialogue Q A α} {s : σ} (hp : OnlyAsks P p) (hI : ∀ q s, P q → Inv s → I s q)
    (hW : ∀ q a s s', P q → Inv s → W s q a s' → Inv s') (hs : Inv s) :
    wp W I (fun _ s' => Inv s') p s := by
  induction p generalizing s with
  | ret a => exact hs
  | ask q k ih =>
    exact ⟨hI q s hp.1 hs, fun a s' h => ih a (hp.2 a) (hW q a s s' hp.1 hs h)⟩

end OnlyAsks

/-- Every question of `p`, together with what `p` does next, satisfies `P`. -/
def AtEvery (P : (q : Q) → (A q → Dialogue Q A α) → Prop) : Dialogue Q A α → Prop
  | ret _ => True
  | ask q k => P q k ∧ ∀ a, AtEvery P (k a)

@[simp] theorem atEvery_ret (P : (q : Q) → (A q → Dialogue Q A α) → Prop) (a : α) :
    AtEvery P (ret a) := trivial

@[simp] theorem atEvery_ask (P : (q : Q) → (A q → Dialogue Q A α) → Prop) (q : Q)
    (k : A q → Dialogue Q A α) : AtEvery P (ask q k) ↔ P q k ∧ ∀ a, AtEvery P (k a) := Iff.rfl

/-- The rule for a first part that asks nothing of interest. -/
theorem atEvery_bind_of_onlyAsks {R : Q → Prop} {P : (q : Q) → (A q → Dialogue Q A β) → Prop}
    (hP : ∀ q k, R q → P q k) {p : Dialogue Q A α} (hp : OnlyAsks R p) {f : α → Dialogue Q A β}
    (hf : ∀ a, AtEvery P (f a)) : AtEvery P (p >>= f) := by
  induction p with
  | ret a => exact hf a
  | ask q k ih => exact ⟨hP q _ hp.1, fun a => ih a (hp.2 a)⟩

/-- What holds at every question holds at those a run comes to. -/
theorem AtEvery.of_after {P : (q : Q) → (A q → Dialogue Q A α) → Prop} {p p' : Dialogue Q A α}
    {t : List (Exchange Q A)} (h : After p t p') (hp : AtEvery P p) : AtEvery P p' := by
  induction h with
  | start p => exact hp
  | reply a _ ih => exact ih (hp.2 a)

/-- Every result of `p`, whatever the answers, satisfies `R`. -/
def Yields (R : α → Prop) : Dialogue Q A α → Prop
  | ret a => R a
  | ask _ k => ∀ a, Yields R (k a)

section Yields

variable {R : α → Prop}

@[simp] theorem yields_ret (a : α) : Yields R (ret a : Dialogue Q A α) ↔ R a := Iff.rfl

@[simp] theorem yields_ask (q : Q) (k : A q → Dialogue Q A α) :
    Yields R (ask q k) ↔ ∀ a, Yields R (k a) := Iff.rfl

theorem Yields.bind {p : Dialogue Q A α} (hp : Yields R p) {f : α → Dialogue Q A β}
    {R' : β → Prop} (hf : ∀ a, R a → Yields R' (f a)) : Yields R' (p >>= f) := by
  induction p with
  | ret a => exact hf a hp
  | ask q k ih => exact fun a => ih a (hp a)

theorem Yields.mono {p : Dialogue Q A α} (hp : Yields R p) {R' : α → Prop}
    (h : ∀ a, R a → R' a) : Yields R' p := by
  induction p with
  | ret a => exact h a hp
  | ask q k ih => exact fun a => ih a (hp a)

theorem Yields.and {p : Dialogue Q A α} (hp : Yields R p) {R' : α → Prop} (hp' : Yields R' p) :
    Yields (fun a => R a ∧ R' a) p := by
  induction p with
  | ret a => exact ⟨hp, hp'⟩
  | ask q k ih => exact fun a => ih a (hp a) (hp' a)

/-- A result a run comes to is one of those. -/
theorem Yields.of_after {p : Dialogue Q A α} {t : List (Exchange Q A)} {a : α} (hp : Yields R p)
    (h : After p t (ret a)) : R a := by
  induction p generalizing t with
  | ret b =>
    obtain ⟨-, rfl⟩ := after_ret_iff.mp h
    exact hp
  | ask q k ih =>
    obtain ⟨x, t', -, hx⟩ := after_ask_iff.mp h
    exact ih x (hp x) hx

/-- Every result is one that a run comes to. -/
theorem yields_after (p : Dialogue Q A α) : Yields (fun a => ∃ t, After p t (ret a)) p := by
  induction p with
  | ret a => exact ⟨[], .start _⟩
  | ask q k ih => exact fun a => (ih a).mono fun _ ⟨t, ht⟩ => ⟨⟨q, a⟩ :: t, .reply a ht⟩

theorem Yields.of_forall (h : ∀ a, R a) (p : Dialogue Q A α) : Yields R p := by
  induction p with
  | ret a => exact h a
  | ask q k ih => exact ih

/-- Where the results of the first program do not matter. -/
theorem Yields.bind_of_forall {p : Dialogue Q A α} {f : α → Dialogue Q A β} {R' : β → Prop}
    (hf : ∀ a, Yields R' (f a)) : Yields R' (p >>= f) :=
  (Yields.of_forall (fun _ => trivial) p : Yields (fun _ => True) p).bind fun a _ => hf a

/-- What a program and then another one ask is asked by the first, or by the second behind a result
of the first. -/
theorem onlyAsks_bind_iff {P : Q → Prop} {p : Dialogue Q A α} {f : α → Dialogue Q A β} :
    OnlyAsks P (p >>= f) ↔ OnlyAsks P p ∧ Yields (fun a => OnlyAsks P (f a)) p := by
  induction p with
  | ret a => exact (iff_of_eq (true_and _)).symm
  | ask q k ih =>
    have hall : (∀ a, OnlyAsks P (k a >>= f)) ↔
        (∀ a, OnlyAsks P (k a)) ∧ ∀ a, Yields (fun b => OnlyAsks P (f b)) (k a) := by
      rw [← forall_and]
      exact forall_congr' ih
    rw [ask_bind, onlyAsks_ask, onlyAsks_ask, yields_ask, hall, and_assoc]

/-- The rule for programs that ask nothing of interest, with what is known of their results. -/
theorem wp_of_yields {W : World Q A σ} {I : σ → Q → Prop} (Inv : σ → Prop) {P : Q → Prop}
    {p : Dialogue Q A α} {s : σ} (hp : OnlyAsks P p) (hr : Yields R p)
    (hI : ∀ q s, P q → Inv s → I s q)
    (hW : ∀ q a s s', P q → Inv s → W s q a s' → Inv s') (hs : Inv s) :
    wp W I (fun a s' => R a ∧ Inv s') p s := by
  induction p generalizing s with
  | ret a => exact ⟨hr, hs⟩
  | ask q k ih =>
    exact ⟨hI q s hp.1 hs, fun a s' h => ih a (hp.2 a) (hr a) (hW q a s s' hp.1 hs h)⟩

/-- So is a result that is reached in a world. -/
theorem Yields.of_reach {W : World Q A σ} {p : Dialogue Q A α} {s s' : σ} {a : α}
    (hp : Yields R p) (h : Reach W s p s' (ret a)) : R a := by
  have hwp : wp W (fun _ _ => True) (fun a _ => R a ∧ True) p s :=
    wp_of_yields (fun _ => True) (onlyAsks_of_forall (P := fun _ => True) (fun _ => trivial) p) hp
      (fun _ _ _ _ => trivial) (fun _ _ _ _ _ _ _ => trivial) trivial
  exact (wp_reach h hwp).1

end Yields

/-- Some answers bring `p` to a result. -/
def CanReturn : Dialogue Q A α → Prop
  | ret _ => True
  | ask _ k => ∃ a, CanReturn (k a)

section CanReturn

@[simp] theorem canReturn_ret (a : α) : CanReturn (ret a : Dialogue Q A α) := trivial

@[simp] theorem canReturn_ask (q : Q) (k : A q → Dialogue Q A α) :
    CanReturn (ask q k) ↔ ∃ a, CanReturn (k a) := Iff.rfl

theorem CanReturn.bind {p : Dialogue Q A α} (hp : CanReturn p) {f : α → Dialogue Q A β}
    (hf : ∀ a, CanReturn (f a)) : CanReturn (p >>= f) := by
  induction p with
  | ret a => exact hf a
  | ask q k ih =>
    obtain ⟨a, ha⟩ := hp
    exact ⟨a, ih a ha⟩

/-- The same by one run of the first program. -/
theorem canReturn_bind_of_after {p : Dialogue Q A α} {t : List (Exchange Q A)} {r : α}
    (hrun : After p t (ret r)) {f : α → Dialogue Q A β} (hf : CanReturn (f r)) :
    CanReturn (p >>= f) := by
  generalize hp : (ret r : Dialogue Q A α) = p' at hrun
  induction hrun with
  | start p => subst hp; exact hf
  | reply a _ ih => exact ⟨a, ih hp⟩

/-- A program that can return has a run that does, with what is known of its results. -/
theorem CanReturn.exists_after {p : Dialogue Q A α} (hp : CanReturn p) {R : α → Prop}
    (hr : Yields R p) : ∃ t a, After p t (ret a) ∧ R a := by
  induction p with
  | ret a => exact ⟨[], a, .start _, hr⟩
  | ask q k ih =>
    obtain ⟨a, ha⟩ := hp
    obtain ⟨t, r, hrun, hR⟩ := ih a ha (hr a)
    exact ⟨⟨q, a⟩ :: t, r, .reply a hrun, hR⟩

end CanReturn

/-! ### Endless loops -/

/-- `n` rounds of a loop that never ends of itself. -/
def iterate (body : τ → Dialogue Q A τ) : ℕ → τ → Dialogue Q A τ
  | 0, x => ret x
  | n + 1, x => body x >>= iterate body n

@[simp] theorem iterate_zero (body : τ → Dialogue Q A τ) (x : τ) : iterate body 0 x = ret x := rfl

theorem iterate_succ (body : τ → Dialogue Q A τ) (n : ℕ) (x : τ) :
    iterate body (n + 1) x = body x >>= iterate body n := rfl

theorem iterate_succ_last (body : τ → Dialogue Q A τ) (n : ℕ) (x : τ) :
    iterate body (n + 1) x = iterate body n x >>= body := by
  induction n generalizing x with
  | zero => exact bind_ret (body x)
  | succ n ih =>
    rw [iterate_succ, iterate_succ, bind_bind]
    exact congrArg (body x >>= ·) (funext ih)

/-- Rounds ask no more than one of them does. -/
theorem onlyAsks_iterate {P : Q → Prop} {body : τ → Dialogue Q A τ}
    (hbody : ∀ x, OnlyAsks P (body x)) (n : ℕ) (x : τ) : OnlyAsks P (iterate body n x) := by
  induction n generalizing x with
  | zero => trivial
  | succ n ih => exact (hbody x).bind ih

/-- **The loop rule**: an invariant kept by one round is kept by any number of them. -/
theorem wp_iterate {W : World Q A σ} {I : σ → Q → Prop} {body : τ → Dialogue Q A τ}
    (J : τ → σ → Prop) (hbody : ∀ x s, J x s → wp W I J (body x) s) :
    ∀ (n : ℕ) (x : τ) (s : σ), J x s → wp W I J (iterate body n x) s := by
  intro n
  induction n with
  | zero => intro x s h; exact h
  | succ n ih =>
    intro x s h
    rw [iterate_succ, wp_bind]
    exact wp_consequence (hbody x s h) fun x' s' h' => ih x' s' h'

/-! ### A program within another one -/

/-- The program `p`, whose questions are some of those that `Q'` has. -/
def embed {Q' : Type} {A' : Q' → Type} (f : Q → Q') :
    Dialogue Q (fun q => A' (f q)) α → Dialogue Q' A' α
  | ret a => ret a
  | ask q k => ask (f q) fun a => embed f (k a)

section Embed

variable {Q' : Type} {A' : Q' → Type} {f : Q → Q'} {W : World Q' A' σ}

/-- **A program whose questions leave the state alone** comes to the results that it has where the
exchanges are those of the world. -/
theorem wp_embed {R : Exchange Q (fun q => A' (f q)) → Prop} {P : α → Prop}
    {p : Dialogue Q (fun q => A' (f q)) α} {t : List (Exchange Q fun q => A' (f q))} {s : σ}
    (hW : ∀ q a s', W s (f q) a s' → R ⟨q, a⟩ ∧ s' = s)
    (hp : wp (constrained R) (fun _ _ => True) (fun a _ => P a) p t) :
    wp W (fun _ _ => True) (fun a s' => P a ∧ s' = s) (embed f p) s := by
  induction p generalizing t with
  | ret a => exact ⟨hp, rfl⟩
  | ask q k ih =>
    refine ⟨trivial, fun a s' hs' => ?_⟩
    obtain ⟨hR, rfl⟩ := hW q a s' hs'
    exact ih a (hp.2 a _ ⟨hR, rfl⟩)

/-- A run of it, in which the state stays what it is. -/
theorem reach_embed {p p' : Dialogue Q (fun q => A' (f q)) α}
    {t : List (Exchange Q fun q => A' (f q))} {s : σ} (h : After p t p')
    (hW : ∀ x ∈ t, W s (f x.1) x.2 s) : Reach W s (embed f p) s (embed f p') := by
  induction h with
  | start p => exact .start _ _
  | reply a _ ih =>
    refine .reply a (hW _ List.mem_cons_self) (ih fun x hx => hW x (List.mem_cons_of_mem _ hx))

end Embed

end Dialogue
