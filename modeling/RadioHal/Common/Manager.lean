import Mathlib.Data.List.Nodup
import Mathlib.Logic.Function.Basic
import RadioHal.Common.Radio
import RadioHal.Lib.Background
import RadioHal.Lib.Ownership

/-!
# The radio manager

`main` of the radio manager goes through its options.  For each radio it attaches the HAL, reads the
configuration, opens the radio and starts a thread with the event loop of the radio, which closes
the radio when it ends.  Behind the options it waits for the threads.  There is room for five of
them: the radios that come later are opened, and nobody closes them.

## Main definitions

* `ManagerQ`, `ManagerA` — what the manager asks of the HALs and of the system.
* `managerMain` — `main`.
* `ManagerState`, `ThreadStep`, `Answered` — the radios and the threads, and how they go on.
* `ManagerSafe` — no radio has two threads, and each is closed once, by its own thread.

## Main results

* `manager_safe` — **the threads and the closed radios are in order at every moment.**
* `first_closed` — **when the manager has waited for its threads, exactly the first five radios that
  have been opened are closed.**
-/

namespace RadioHal

open CLib Dialogue

/-! ### The program -/

/-- `EVENT_THREAD_AMOUNT`. -/
def eventThreadAmount : ℕ := 5

/-- What `getopt_long` returns, with the argument of the option. -/
inductive ManagerOption
  | w (optarg : Text) | b (optarg : Text) | z (optarg : Text) | m (optarg : Text) | h | unknown
  deriving DecidableEq

/-- What the manager asks.  A radio context is known by its address. -/
inductive ManagerQ
  /-- `wifi_hal_attach` or `modem_hal_attach` -/
  | halAttach (radio : RadioType)
  /-- `radio_hal_yaml_config`, on the new configurations of the context -/
  | yamlConfig (ctx : ℕ) (files : Text) (radio : RadioType)
  /-- `open` of the radio -/
  | openRadio (ctx : ℕ) (radio : RadioType)
  /-- `pthread_create`, for the event loop of the radio -/
  | pthreadCreate (slot : ℕ) (ctx : ℕ) (radio : RadioType)
  /-- `pthread_join` -/
  | pthreadJoin (slot : ℕ)
  /-- A null pointer is followed. -/
  | nullDeref
  deriving DecidableEq

/-- What comes back for each question.  `nullDeref` has no answer, so a program that asks it goes no
further. -/
def ManagerA : ManagerQ → Type
  | .halAttach _ => Option ℕ
  | .yamlConfig _ _ _ => ℤ
  | .openRadio _ _ => ℤ
  | .pthreadCreate _ _ _ => ℤ
  | .pthreadJoin _ => Unit
  | .nullDeref => Empty

abbrev ManagerM : Type → Type := Dialogue ManagerQ ManagerA

/-- `radio_hal_attach`. -/
def radioHalAttach : RadioType → ManagerM (Option ℕ)
  | .wifi => query (ManagerQ.halAttach .wifi)
  | .bt => ret none
  | .ieee802154 => ret none
  | .modem => query (ManagerQ.halAttach .modem)
  | .max => ret none

/-- The cases `w` and `m` of the `switch`: the new `count`, or the value `main` returns. -/
def startRadio (radio : RadioType) (optarg : Text) (count : ℕ) : ManagerM (Except ℤ ℕ) := do
  match ← radioHalAttach radio with
  | none => return .error (-1)
  | some ctx =>
    let r : ℤ ← query (ManagerQ.yamlConfig ctx optarg radio)
    if r < 0 then return .error (-1)
    let r : ℤ ← query (ManagerQ.openRadio ctx radio)
    if r < 0 then return .error (-1)
    if count < eventThreadAmount then
      let r : ℤ ← query (ManagerQ.pthreadCreate count ctx radio)
      -- an error number is positive, and the thread is counted all the same
      if r < 0 then return .error (-1)
      return .ok (count + 1)
    return .ok count

/-- The cases `b` and `z`, which only warn of a context that is null. -/
def configureRadio (radio : RadioType) (optarg : Text) (count : ℕ) : ManagerM (Except ℤ ℕ) := do
  match ← radioHalAttach radio with
  | none => ask .nullDeref Empty.elim
  | some ctx =>
    let _ ← query (ManagerQ.yamlConfig ctx optarg radio)
    return .ok count

/-- The `switch` of `main`: the new `count`, or the value that `main` returns at once.  `-h` and an
unknown option print the help and return `0`. -/
def managerSwitch (count : ℕ) : ManagerOption → ManagerM (Except ℤ ℕ)
  | .w optarg => startRadio .wifi optarg count
  | .b optarg => configureRadio .bt optarg count
  | .z optarg => configureRadio .ieee802154 optarg count
  | .m optarg => startRadio .modem optarg count
  | .h => return .error 0
  | .unknown => return .error 0

/-- The loop over the options, which hands the number of threads on from option to option. -/
def optionsLoop : ℕ → List ManagerOption → ManagerM (Except ℤ ℕ)
  | count, [] => return .ok count
  | count, opt :: opts => do
    match ← managerSwitch count opt with
    | .error v => return .error v
    | .ok count => optionsLoop count opts

/-- The loop over the threads, from `slot` on. -/
def joinLoop : ℕ → ℕ → ManagerM Unit
  | _, 0 => return ()
  | slot, n + 1 => do
    query (ManagerQ.pthreadJoin slot)
    joinLoop (slot + 1) n

/-- `main`, with the options that `getopt_long` finds. -/
def managerMain (argc : ℕ) (opts : List ManagerOption) : ManagerM ℤ := do
  if argc = 1 then return 0
  match ← optionsLoop 0 opts with
  | .error v => return v
  | .ok count =>
    joinLoop 0 count
    return 0

/-! ### The radios and the threads -/

/-- Where the event loop of a thread is: still in its loop, about to close the radio, or at its end.
-/
inductive ThreadPhase
  | looping | closing | done
  deriving DecidableEq

/-- A thread, with the context it was given. -/
structure EventThread where
  ctx : ℕ
  radio : RadioType
  phase : ThreadPhase
  deriving DecidableEq

/-- The contexts that have been attached, configured and opened, the threads by their slots, and the
contexts that have been closed. -/
structure ManagerState where
  attached : List ℕ
  configured : List ℕ
  opened : List ℕ
  threads : ℕ → Option EventThread
  closed : List ℕ

/-- The state before `main`, in which nothing has been attached. -/
def ManagerState.start : ManagerState := ⟨[], [], [], fun _ => none, []⟩

/-- What a thread does: its loop ends, and it closes the radio. -/
inductive ThreadStep : ManagerState → ManagerState → Prop
  | loopEnds {s : ManagerState} {i : ℕ} {t : EventThread} : s.threads i = some t →
      t.phase = .looping → ThreadStep s
        { s with threads := Function.update s.threads i (some { t with phase := .closing }) }
  | closes {s : ManagerState} {i : ℕ} {t : EventThread} : s.threads i = some t →
      t.phase = .closing → ThreadStep s
        { s with
          threads := Function.update s.threads i (some { t with phase := .done })
          closed := s.closed ++ [t.ctx] }

/-- What the manager is answered.  A context that is attached is a new one; a thread is waited for
until it is done, and one that was not created is not come back from. -/
def Answered : World ManagerQ ManagerA ManagerState
  | s, .halAttach _, (a : Option ℕ), s' =>
    (∀ ctx, a = some ctx → ctx ∉ s.attached) ∧ s' = { s with attached := s.attached ++ a.toList }
  | s, .yamlConfig ctx _ _, (r : ℤ), s' =>
    s' = if r < 0 then s else { s with configured := s.configured ++ [ctx] }
  | s, .openRadio ctx _, (r : ℤ), s' =>
    s' = if r < 0 then s else { s with opened := s.opened ++ [ctx] }
  | s, .pthreadCreate slot ctx radio, (r : ℤ), s' => 0 ≤ r ∧
    s' = if r = 0 then
      { s with threads := Function.update s.threads slot (some ⟨ctx, radio, .looping⟩) } else s
  | s, .pthreadJoin slot, _, s' =>
    (∃ t, s.threads slot = some t ∧ t.phase = .done) ∧ s' = s
  | _, .nullDeref, _, _ => False

/-- The manager beside its threads: between a question and its answer any of them may go on. -/
abbrev managerWorld : World ManagerQ ManagerA ManagerState := beside Answered ThreadStep

/-! ### What is kept -/

/-- **The radios and the threads are in order**: the contexts are different ones, a radio is opened
when it has been configured, a thread has the context of the radio that was opened at its place, and
the closed radios are those whose thread is done, each closed once. -/
structure ManagerSafe (s : ManagerState) : Prop where
  nodup : s.attached.Nodup
  configured : s.configured <+: s.attached
  opened : s.opened <+: s.configured
  threads : ∀ i t, s.threads i = some t → s.opened[i]? = some t.ctx ∧ i < eventThreadAmount
  closed : ∀ ctx, ctx ∈ s.closed ↔ ∃ i t, s.threads i = some t ∧ t.ctx = ctx ∧ t.phase = .done
  once : s.closed.Nodup

namespace ManagerSafe

variable {s s' : ManagerState}

theorem start : ManagerSafe .start := by
  refine ⟨List.nodup_nil, List.prefix_refl _, List.prefix_refl _, ?_, ?_, List.nodup_nil⟩
  · exact fun i t h => absurd h (by simp [ManagerState.start])
  · simp [ManagerState.start]

theorem nodup_opened (h : ManagerSafe s) : s.opened.Nodup :=
  h.nodup.sublist (h.opened.trans h.configured).sublist

/-- **No radio has two threads**, as a thread has the context that was opened at its place. -/
theorem eq_of_ctx (h : ManagerSafe s) {i j : ℕ} {t t' : EventThread} (hi : s.threads i = some t)
    (hj : s.threads j = some t') (hctx : t.ctx = t'.ctx) : i = j := by
  have hi' := (h.threads i t hi).1
  have hj' := (h.threads j t' hj).1
  rw [← hctx] at hj'
  exact (List.getElem?_inj (List.getElem?_eq_some_iff.mp hi').1 h.nodup_opened).mp
    (hi'.trans hj'.symm)

/-- A thread goes on: from one phase to another, with or without closing its radio. -/
theorem thread (h : ManagerSafe s) {i : ℕ} {t : EventThread} (ht : s.threads i = some t)
    (hphase : t.phase ≠ .done) (phase : ThreadPhase) {closed : List ℕ}
    (hclosed : closed = if phase = .done then s.closed ++ [t.ctx] else s.closed) :
    ManagerSafe { s with
      threads := Function.update s.threads i (some { t with phase := phase })
      closed := closed } := by
  -- a thread that is not done has not closed its radio
  have hopen : t.ctx ∉ s.closed := by
    intro hmem
    obtain ⟨j, t', hj, hctx, hdone⟩ := (h.closed _).mp hmem
    obtain rfl := h.eq_of_ctx hj ht hctx
    obtain rfl : t' = t := Option.some.inj (hj.symm.trans ht)
    exact hphase hdone
  refine ⟨h.nodup, h.configured, h.opened, ?_, ?_, ?_⟩
  -- the thread keeps its radio and its slot
  · intro j t' hj
    rcases update_some_iff.mp hj with ⟨rfl, rfl⟩ | ⟨-, hj⟩
    · exact h.threads j t ht
    · exact h.threads j t' hj
  -- the radios that are closed are those before, and this one if the thread is done now
  · intro ctx
    have hmem : ctx ∈ closed ↔ ctx ∈ s.closed ∨ phase = .done ∧ ctx = t.ctx := by
      rw [hclosed]
      split <;> simp [*]
    rw [hmem]
    constructor
    · rintro (hbefore | ⟨rfl, rfl⟩)
      · obtain ⟨j, t', hj, hctx, hdone⟩ := (h.closed ctx).mp hbefore
        have hji : j ≠ i := by
          rintro rfl
          obtain rfl : t' = t := Option.some.inj (hj.symm.trans ht)
          exact hphase hdone
        exact ⟨j, t', update_some_iff.mpr (Or.inr ⟨hji, hj⟩), hctx, hdone⟩
      · exact ⟨i, _, Function.update_self .., rfl, rfl⟩
    · rintro ⟨j, t', hj, rfl, hdone⟩
      rcases update_some_iff.mp hj with ⟨rfl, rfl⟩ | ⟨-, hj⟩
      · exact Or.inr ⟨hdone, rfl⟩
      · exact Or.inl ((h.closed _).mpr ⟨j, t', hj, rfl, hdone⟩)
  -- and the radio was not among them
  · show closed.Nodup
    rw [hclosed]
    split
    · refine h.once.append (List.nodup_singleton _) ?_
      rw [List.disjoint_singleton]
      exact hopen
    · exact h.once

theorem threadStep (h : ManagerSafe s) (hstep : ThreadStep s s') : ManagerSafe s' := by
  cases hstep with
  | loopEnds ht hphase => exact h.thread ht (by simp [hphase]) .closing rfl
  | closes ht hphase => exact h.thread ht (by simp [hphase]) .done rfl

end ManagerSafe

/-- How far the manager has come: the contexts it has attached, configured and opened, and how many
slots it has used. -/
structure Progress (attached configured opened : List ℕ) (count : ℕ) (s : ManagerState) : Prop where
  safe : ManagerSafe s
  attached_eq : s.attached = attached
  configured_eq : s.configured = configured
  opened_eq : s.opened = opened
  free : ∀ i, count ≤ i → s.threads i = none

/-- A radio after the other has been attached, configured and opened, and has a slot if there was
one left. -/
def Ready (ctxs : List ℕ) (count : ℕ) (s : ManagerState) : Prop :=
  Progress ctxs ctxs ctxs count s ∧ count = min ctxs.length eventThreadAmount

/-- The thread of the slot has come to its end. -/
def Done (i : ℕ) (s : ManagerState) : Prop := ∃ t, s.threads i = some t ∧ t.phase = .done

theorem stable_managerSafe : Stable ThreadStep ManagerSafe := fun _ _ h hstep => h.threadStep hstep

theorem stable_progress {attached configured opened : List ℕ} {count : ℕ} :
    Stable ThreadStep (Progress attached configured opened count) := by
  intro s s' h hstep
  have hsafe := h.safe.threadStep hstep
  -- a slot that is free is not that of the thread
  have hfree : ∀ {i t x}, s.threads i = some t →
      ∀ j, count ≤ j → Function.update s.threads i x j = none := by
    intro i t x ht j hj
    have hji : j ≠ i := by
      rintro rfl
      exact absurd (ht.symm.trans (h.free j hj)) (by simp)
    rw [Function.update_of_ne hji]
    exact h.free j hj
  cases hstep with
  | loopEnds ht => exact ⟨hsafe, h.attached_eq, h.configured_eq, h.opened_eq, hfree ht⟩
  | closes ht => exact ⟨hsafe, h.attached_eq, h.configured_eq, h.opened_eq, hfree ht⟩

theorem stable_done (i : ℕ) : Stable ThreadStep (Done i) := by
  rintro s s' ⟨t, ht, hdone⟩ hstep
  have hother : ∀ {j u x}, s.threads j = some u → u.phase ≠ .done →
      Function.update s.threads j x i = some t := by
    intro j u x hu hphase
    have hij : i ≠ j := by
      rintro rfl
      obtain rfl : t = u := Option.some.inj (ht.symm.trans hu)
      exact hphase hdone
    rw [Function.update_of_ne hij, ht]
  cases hstep with
  | loopEnds hu hphase => exact ⟨t, hother hu (by simp [hphase]), hdone⟩
  | closes hu hphase => exact ⟨t, hother hu (by simp [hphase]), hdone⟩

/-! ### The answers -/

namespace Progress

variable {ctxs : List ℕ} {ctx count : ℕ} {s : ManagerState}

theorem start : Progress [] [] [] 0 .start := ⟨.start, rfl, rfl, rfl, fun _ _ => rfl⟩

/-- The context that `radio_hal_attach` returns becomes the last one of those attached. -/
theorem attach (h : Progress ctxs ctxs ctxs count s) (hnew : ctx ∉ s.attached) :
    Progress (ctxs ++ [ctx]) ctxs ctxs count { s with attached := s.attached ++ [ctx] } := by
  refine ⟨⟨?_, ?_, h.safe.opened, h.safe.threads, h.safe.closed, h.safe.once⟩, ?_, h.configured_eq,
    h.opened_eq, h.free⟩
  · refine h.safe.nodup.append (List.nodup_singleton _) ?_
    rw [List.disjoint_singleton]
    exact hnew
  · exact h.safe.configured.trans (List.prefix_append _ _)
  · show s.attached ++ [ctx] = _
    rw [h.attached_eq]

/-- The configuration of that context has been read. -/
theorem configure (h : Progress (ctxs ++ [ctx]) ctxs ctxs count s) :
    Progress (ctxs ++ [ctx]) (ctxs ++ [ctx]) ctxs count
      { s with configured := s.configured ++ [ctx] } := by
  refine ⟨⟨h.safe.nodup, ?_, ?_, h.safe.threads, h.safe.closed, h.safe.once⟩, h.attached_eq, ?_,
    h.opened_eq, h.free⟩
  · have hall : s.configured ++ [ctx] = s.attached := by rw [h.configured_eq, h.attached_eq]
    exact ⟨[], (List.append_nil _).trans hall⟩
  · exact h.safe.opened.trans (List.prefix_append _ _)
  · show s.configured ++ [ctx] = _
    rw [h.configured_eq]

/-- The radio of that context has been opened, and the radios opened before stay where they are. -/
theorem openRadio (h : Progress (ctxs ++ [ctx]) (ctxs ++ [ctx]) ctxs count s) :
    Progress (ctxs ++ [ctx]) (ctxs ++ [ctx]) (ctxs ++ [ctx]) count
      { s with opened := s.opened ++ [ctx] } := by
  refine ⟨⟨h.safe.nodup, h.safe.configured, ?_, ?_, h.safe.closed, h.safe.once⟩, h.attached_eq,
    h.configured_eq, ?_, h.free⟩
  · have hall : s.opened ++ [ctx] = s.configured := by rw [h.opened_eq, h.configured_eq]
    exact ⟨[], (List.append_nil _).trans hall⟩
  · intro i t ht
    obtain ⟨hopened, hslot⟩ := h.safe.threads i t ht
    refine ⟨?_, hslot⟩
    exact (List.getElem?_append_left (List.getElem?_eq_some_iff.mp hopened).1).trans hopened
  · show s.opened ++ [ctx] = _
    rw [h.opened_eq]

/-- A slot is used, whether the thread is created or not. -/
theorem skip (h : Progress ctxs ctxs ctxs count s) : Progress ctxs ctxs ctxs (count + 1) s :=
  ⟨h.safe, h.attached_eq, h.configured_eq, h.opened_eq, fun i hi => h.free i (by omega)⟩

/-- The thread of that context is created in the next slot, which has been free. -/
theorem create (h : Progress (ctxs ++ [ctx]) (ctxs ++ [ctx]) (ctxs ++ [ctx]) ctxs.length s)
    (hroom : ctxs.length < eventThreadAmount) (radio : RadioType) :
    Progress (ctxs ++ [ctx]) (ctxs ++ [ctx]) (ctxs ++ [ctx]) (ctxs.length + 1)
      { s with threads :=
          Function.update s.threads ctxs.length (some ⟨ctx, radio, .looping⟩) } := by
  have hbefore := h.free ctxs.length le_rfl
  refine ⟨⟨h.safe.nodup, h.safe.configured, h.safe.opened, ?_, ?_, h.safe.once⟩, h.attached_eq,
    h.configured_eq, h.opened_eq, ?_⟩
  · intro i t ht
    rcases update_some_iff.mp ht with ⟨rfl, rfl⟩ | ⟨-, ht⟩
    · refine ⟨?_, hroom⟩
      show s.opened[ctxs.length]? = some ctx
      rw [h.opened_eq, List.getElem?_concat_length]
    · exact h.safe.threads i t ht
  · intro ctx'
    refine (h.safe.closed ctx').trans (exists_congr fun i => exists_congr fun t => ?_)
    by_cases hi : i = ctxs.length
    · -- neither the empty slot nor the new thread is done
      subst hi
      simp only [Function.update_self, hbefore]
      constructor
      · rintro ⟨hnone, -⟩
        exact absurd hnone (by simp)
      · rintro ⟨hnew, -, hdone⟩
        obtain rfl := Option.some.inj hnew
        exact absurd hdone (by simp)
    · simp only [Function.update_of_ne hi]
  · intro i hi
    exact (Function.update_of_ne (by omega) _ _).trans (h.free i (by omega))

end Progress

/-! ### The parts of the program -/

section Parts

variable {ctxs : List ℕ} {count : ℕ} {s : ManagerState}

/-- What a case of the `switch` comes to: one more radio is ready, or `main` returns, and not with
`0` unless it may. -/
structure Switched (ctxs : List ℕ) (mayEnd : Prop) (r : Except ℤ ℕ) (s : ManagerState) : Prop where
  safe : ManagerSafe s
  ready : ∀ count, r = .ok count → ∃ ctx, Ready (ctxs ++ [ctx]) count s
  ended : r = .error 0 → mayEnd

theorem switched_failed {mayEnd : Prop} (h : ManagerSafe s) :
    Switched ctxs mayEnd (.error (-1)) s :=
  ⟨h, fun count hr => absurd hr (by simp), fun hr => absurd hr (by simp)⟩

theorem switched_ended {mayEnd : Prop} (h : ManagerSafe s) (hend : mayEnd) :
    Switched ctxs mayEnd (.error 0) s :=
  ⟨h, fun count hr => absurd hr (by simp), fun _ => hend⟩

theorem switched_ready {mayEnd : Prop} {ctx : ℕ} (h : Ready (ctxs ++ [ctx]) count s) :
    Switched ctxs mayEnd (.ok count) s := by
  refine ⟨h.1.safe, fun count' hr => ⟨ctx, ?_⟩, fun hr => absurd hr (by simp)⟩
  obtain rfl := Except.ok.inj hr
  exact h

theorem wp_radioHalAttach (radio : RadioType) (h : Progress ctxs ctxs ctxs count s) :
    wp managerWorld (fun s _ => ManagerSafe s) (fun a s' => ManagerSafe s' ∧ ∀ ctx, a = some ctx →
      Progress (ctxs ++ [ctx]) ctxs ctxs count s') (radioHalAttach radio) s := by
  have hnone : ManagerSafe s ∧ ∀ ctx, (none : Option ℕ) = some ctx →
      Progress (ctxs ++ [ctx]) ctxs ctxs count s := ⟨h.safe, fun ctx ha => absurd ha (by simp)⟩
  have hask : wp managerWorld (fun s _ => ManagerSafe s) (fun (a : Option ℕ) s' => ManagerSafe s' ∧
      ∀ ctx, a = some ctx → Progress (ctxs ++ [ctx]) ctxs ctxs count s')
      (query (ManagerQ.halAttach radio)) s := by
    refine wp_ask_beside stable_progress h (fun s hs => hs.safe) ?_
    rintro s (a : Option ℕ) s' hs ⟨hnew, rfl⟩
    cases a with
    | none =>
      refine ⟨?_, fun ctx ha => absurd ha (by simp)⟩
      simpa using hs.safe
    | some ctx =>
      have hattached := hs.attach (hnew ctx rfl)
      refine ⟨hattached.safe, fun ctx' ha => ?_⟩
      obtain rfl := Option.some.inj ha
      exact hattached
  cases radio with
  | wifi => exact hask
  | modem => exact hask
  | bt => exact hnone
  | ieee802154 => exact hnone
  | max => exact hnone

/-- **The case of a radio with an event loop.**  The radio is attached, configured and opened, and
its thread is started if there is a free slot; a failure on the way ends the program. -/
theorem wp_startRadio (radio : RadioType) (optarg : Text) (h : Ready ctxs count s)
    (mayEnd : Prop) : wp managerWorld (fun s _ => ManagerSafe s) (Switched ctxs mayEnd)
      (startRadio radio optarg count) s := by
  obtain ⟨hprogress, hcount⟩ := h
  unfold startRadio
  rw [wp_bind]
  refine wp_consequence (wp_radioHalAttach radio hprogress) fun a s₁ h₁ => ?_
  cases a with
  -- the HAL was not attached
  | none => exact switched_failed h₁.1
  | some ctx =>
    -- its configuration is read
    refine wp_ask_beside stable_progress (h₁.2 ctx rfl) (fun s hs => hs.safe) ?_
    rintro s₂ (r : ℤ) s₃ h₂ hanswer
    have hs₃ : s₃ = if r < 0 then s₂ else
      { s₂ with configured := s₂.configured ++ [ctx] } := hanswer
    show wp _ _ _ (if r < 0 then _ else _) s₃
    by_cases hr : r < 0
    · rw [if_pos hr] at hs₃ ⊢
      exact switched_failed (hs₃ ▸ h₂.safe)
    rw [if_neg hr] at hs₃ ⊢
    subst hs₃
    -- the radio is opened
    refine wp_ask_beside stable_progress h₂.configure (fun s hs => hs.safe) ?_
    rintro s₄ (r : ℤ) s₅ h₄ hanswer
    have hs₅ : s₅ = if r < 0 then s₄ else { s₄ with opened := s₄.opened ++ [ctx] } := hanswer
    show wp _ _ _ (if r < 0 then _ else _) s₅
    by_cases hr : r < 0
    · rw [if_pos hr] at hs₅ ⊢
      exact switched_failed (hs₅ ▸ h₄.safe)
    rw [if_neg hr] at hs₅ ⊢
    subst hs₅
    by_cases hroom : count < eventThreadAmount
    -- a slot is left, so a thread is created; the slot is used even where that fails
    · obtain rfl : count = ctxs.length := by omega
      have hcount' : ctxs.length + 1 = min (ctxs ++ [ctx]).length eventThreadAmount := by
        rw [List.length_append, List.length_singleton]
        omega
      rw [if_pos hroom]
      refine wp_ask_beside stable_progress h₄.openRadio (fun s hs => hs.safe) ?_
      rintro s₆ (r : ℤ) s₇ h₆ ⟨hr, hs₇⟩
      show wp _ _ _ (if r < 0 then _ else _) s₇
      rw [if_neg (not_lt.mpr hr)]
      have hready : Progress (ctxs ++ [ctx]) (ctxs ++ [ctx]) (ctxs ++ [ctx]) (ctxs.length + 1)
          s₇ := by
        rw [hs₇]
        split
        · exact h₆.create hroom radio
        · exact h₆.skip
      exact switched_ready ⟨hready, hcount'⟩
    -- the slots are full, and the radio has no thread
    · rw [if_neg hroom]
      refine switched_ready ⟨h₄.openRadio, ?_⟩
      rw [List.length_append, List.length_singleton]
      omega

/-- With these options `main` returns at once. -/
def ManagerOption.Ends (opt : ManagerOption) : Prop := opt = .h ∨ opt = .unknown

theorem wp_managerSwitch (opt : ManagerOption) (h : Ready ctxs count s) :
    wp managerWorld (fun s _ => ManagerSafe s) (Switched ctxs opt.Ends) (managerSwitch count opt)
      s := by
  have hnull : wp managerWorld (fun s _ => ManagerSafe s) (Switched ctxs opt.Ends)
      (ask .nullDeref Empty.elim : ManagerM (Except ℤ ℕ)) s := ⟨h.1.safe, fun e => e.elim⟩
  cases opt with
  | w optarg => exact wp_startRadio .wifi optarg h _
  | m optarg => exact wp_startRadio .modem optarg h _
  | b optarg => exact hnull
  | z optarg => exact hnull
  | h => exact switched_ended h.1.safe (Or.inl rfl)
  | unknown => exact switched_ended h.1.safe (Or.inr rfl)

/-- What the loop over the options comes to. -/
structure Looped (ctxs : List ℕ) (opts : List ManagerOption) (r : Except ℤ ℕ) (s : ManagerState) :
    Prop where
  safe : ManagerSafe s
  ready : ∀ count, r = .ok count →
    ∃ ctxs', Ready (ctxs ++ ctxs') count s ∧ ctxs'.length = opts.length
  ended : r = .error 0 → ∃ opt ∈ opts, opt.Ends

/-- **The loop over the options**: behind it all of their radios have been opened, in their order.
-/
theorem wp_optionsLoop (opts : List ManagerOption) (h : Ready ctxs count s) :
    wp managerWorld (fun s _ => ManagerSafe s) (Looped ctxs opts) (optionsLoop count opts) s := by
  induction opts generalizing ctxs count s with
  | nil =>
    refine ⟨h.1.safe, fun count' hc => ⟨[], ?_, rfl⟩, fun hr => absurd hr (by simp)⟩
    obtain rfl := Except.ok.inj hc
    rwa [List.append_nil]
  | cons opt opts ih =>
    rw [optionsLoop, wp_bind]
    refine wp_consequence (wp_managerSwitch opt h) fun r s₁ h₁ => ?_
    cases r with
    | error v =>
      refine ⟨h₁.safe, fun count' hc => absurd hc (by simp), fun hr => ?_⟩
      exact ⟨opt, List.mem_cons_self, h₁.ended hr⟩
    | ok count₁ =>
      obtain ⟨ctx, hready⟩ := h₁.ready count₁ rfl
      refine wp_consequence (ih hready) fun r s₂ h₂ => ⟨h₂.safe, fun count₂ hc => ?_, fun hr => ?_⟩
      · obtain ⟨ctxs', hready', hlength⟩ := h₂.ready count₂ hc
        refine ⟨ctx :: ctxs', ?_, by rw [List.length_cons, List.length_cons, hlength]⟩
        rwa [List.append_cons]
      · obtain ⟨opt', hmem, hend⟩ := h₂.ended hr
        exact ⟨opt', List.mem_cons_of_mem _ hmem, hend⟩

/-- **The loop over the threads**: each of them has come to its end when it has been waited for. -/
theorem wp_joinLoop {slot n : ℕ} (h : Progress ctxs ctxs ctxs count s)
    (hdone : ∀ i < slot, Done i s) :
    wp managerWorld (fun s _ => ManagerSafe s) (fun _ s' => Progress ctxs ctxs ctxs count s' ∧
      ∀ i < slot + n, Done i s') (joinLoop slot n) s := by
  induction n generalizing slot s with
  | zero => exact ⟨h, hdone⟩
  | succ n ih =>
    have hstable : Stable ThreadStep fun s => Progress ctxs ctxs ctxs count s ∧
        ∀ i < slot, Done i s :=
      stable_progress.and fun s s' hs hstep i hi => stable_done i s s' (hs i hi) hstep
    refine wp_ask_beside hstable ⟨h, hdone⟩ (fun s hs => hs.1.safe) ?_
    rintro s₁ a s₂ h₁ ⟨hslot, rfl⟩
    have hsum : slot + (n + 1) = slot + 1 + n := by omega
    rw [hsum]
    refine ih h₁.1 fun i hi => ?_
    rcases Nat.lt_succ_iff_lt_or_eq.mp hi with hlt | rfl
    · exact h₁.2 i hlt
    · exact hslot

end Parts

/-- All radios of the options have been opened, and the first five of them are closed. -/
def FirstClosed (opts : List ManagerOption) (s : ManagerState) : Prop :=
  s.opened.length = opts.length ∧
    ∀ i ctx, s.opened[i]? = some ctx → (ctx ∈ s.closed ↔ i < eventThreadAmount)

theorem wp_managerMain (argc : ℕ) (opts : List ManagerOption) :
    wp managerWorld (fun s _ => ManagerSafe s) (fun v s => ManagerSafe s ∧
      (v = 0 → argc = 1 ∨ (∃ opt ∈ opts, opt.Ends) ∨ FirstClosed opts s))
      (managerMain argc opts) .start := by
  unfold managerMain
  by_cases hargc : argc = 1
  · rw [if_pos hargc]
    exact ⟨.start, fun _ => Or.inl hargc⟩
  rw [if_neg hargc]
  show wp _ _ _ (optionsLoop 0 opts >>= _) _
  rw [wp_bind]
  have hready : Ready [] 0 .start := ⟨.start, rfl⟩
  refine wp_consequence (wp_optionsLoop opts hready) fun r s₁ h₁ => ?_
  cases r with
  | error v =>
    -- `main` returns at once, and with `0` only for the help
    refine ⟨h₁.safe, fun hv => Or.inr (Or.inl (h₁.ended ?_))⟩
    rw [hv]
  | ok count =>
    -- all radios are opened, and the threads are waited for
    obtain ⟨ctxs, ⟨hprogress, hcount⟩, hlength⟩ := h₁.ready count rfl
    rw [List.nil_append] at hprogress hcount
    show wp _ _ _ (joinLoop 0 count >>= _) _
    rw [wp_bind]
    refine wp_consequence (wp_joinLoop hprogress (fun i hi => absurd hi (Nat.not_lt_zero i)))
      fun _ s₂ h₂ => ⟨h₂.1.safe, fun _ => Or.inr (Or.inr ⟨?_, fun i ctx hi => ?_⟩)⟩
    · rw [h₂.1.opened_eq, hlength]
    rw [h₂.1.safe.closed]
    -- a radio is closed by its own thread, and the threads of all slots are done
    constructor
    · rintro ⟨j, t, hj, rfl, -⟩
      obtain ⟨hj', hslot⟩ := h₂.1.safe.threads j t hj
      have hij := (List.getElem?_inj (List.getElem?_eq_some_iff.mp hi).1
        h₂.1.safe.nodup_opened).mp (hi.trans hj'.symm)
      omega
    · intro hslot
      have hlen := (List.getElem?_eq_some_iff.mp hi).1
      rw [h₂.1.opened_eq] at hlen
      obtain ⟨t, ht, hdone⟩ := h₂.2 i (by omega)
      refine ⟨i, t, ht, ?_, hdone⟩
      exact Option.some.inj ((h₂.1.safe.threads i t ht).1.symm.trans hi)

/-! ### The results -/

/-- A thread comes to its end in the background. -/
theorem endsThread {s : ManagerState} {i : ℕ} {t : EventThread} (ht : s.threads i = some t)
    (hphase : t.phase = .looping) : Relation.ReflTransGen ThreadStep s
      { s with
        threads := Function.update s.threads i (some { t with phase := .done })
        closed := s.closed ++ [t.ctx] } := by
  have hends : ThreadStep s { s with
      threads := Function.update s.threads i (some { t with phase := .closing }) } :=
    .loopEnds ht hphase
  have hcloses := ThreadStep.closes (s := { s with
    threads := Function.update s.threads i (some { t with phase := .closing }) })
    (Function.update_self i _ _) rfl
  simp only [Function.update_idem] at hcloses
  exact .tail (.single hends) hcloses

/-- The options of a radio with an event loop. -/
def ManagerOption.Starts (opt : ManagerOption) : Prop :=
  (∃ optarg, opt = .w optarg) ∨ ∃ optarg, opt = .m optarg

/-- The threads of the slots that are used run, and the next context that is attached may be `n`. -/
structure Launched (n count : ℕ) (s : ManagerState) : Prop where
  attached : ∀ ctx ∈ s.attached, ctx < n
  looping : ∀ i < count, ∃ t, s.threads i = some t ∧ t.phase = .looping

/-- A radio can be started: each question gets the answer that lets the manager go on, and the
thread is created when there is a slot for it. -/
theorem reach_startRadio {n count : ℕ} {s : ManagerState} {radio : RadioType}
    (hattach : radioHalAttach radio = query (ManagerQ.halAttach radio)) (optarg : Text)
    (h : Launched n count s) : ∃ count' s', Launched (n + 1) count' s' ∧
      Reach managerWorld s (startRadio radio optarg count) s' (ret (.ok count')) := by
  have hnew : ∀ ctx, some n = some ctx → ctx ∉ s.attached := by
    rintro ctx ⟨⟩ hmem
    exact lt_irrefl _ (h.attached n hmem)
  have hattached : ∀ ctx ∈ s.attached ++ [n], ctx < n + 1 := by
    intro ctx hmem
    rcases List.mem_append.mp hmem with hold | hlast
    · exact (h.attached ctx hold).trans (Nat.lt_succ_self n)
    · obtain rfl := List.mem_singleton.mp hlast
      exact Nat.lt_succ_self ctx
  -- the questions before the last one are the same with and without a slot
  have hopened : Reach managerWorld s (startRadio radio optarg count)
      { s with
        attached := s.attached ++ [n]
        configured := s.configured ++ [n]
        opened := s.opened ++ [n] }
      (if count < eventThreadAmount then
        query (ManagerQ.pthreadCreate count n radio) >>= fun r : ℤ =>
          if r < 0 then ret (.error (-1)) else ret (.ok (count + 1))
      else ret (.ok count)) := by
    unfold startRadio
    rw [hattach]
    exact .reply (some n) ⟨_, .refl, ⟨hnew, rfl⟩⟩ (.reply (0 : ℤ) ⟨_, .refl, rfl⟩
      (.reply (0 : ℤ) ⟨_, .refl, rfl⟩ (.start _ _)))
  by_cases hroom : count < eventThreadAmount
  · rw [if_pos hroom] at hopened
    refine ⟨count + 1, _, ⟨hattached, ?_⟩,
      hopened.trans (.reply (0 : ℤ) ⟨_, .refl, ⟨le_rfl, rfl⟩⟩ (.start _ _))⟩
    intro i hi
    rcases Nat.lt_succ_iff_lt_or_eq.mp hi with hlt | rfl
    · obtain ⟨t, ht, hphase⟩ := h.looping i hlt
      exact ⟨t, (Function.update_of_ne hlt.ne _ _).trans ht, hphase⟩
    · exact ⟨⟨n, radio, .looping⟩, Function.update_self .., rfl⟩
  · rw [if_neg hroom] at hopened
    refine ⟨count, _, ?_, hopened⟩
    exact ⟨hattached, h.looping⟩

/-- All the radios of the options can be started, one after the other. -/
theorem reach_optionsLoop {opts : List ManagerOption} (hopts : ∀ opt ∈ opts, opt.Starts)
    {n count : ℕ} {s : ManagerState} (h : Launched n count s) :
    ∃ n' count' s', Launched n' count' s' ∧
      Reach managerWorld s (optionsLoop count opts) s' (ret (.ok count')) := by
  induction opts generalizing n count s with
  | nil => exact ⟨n, count, s, h, .start _ _⟩
  | cons opt opts ih =>
    have hfirst : ∃ count' s', Launched (n + 1) count' s' ∧
        Reach managerWorld s (managerSwitch count opt) s' (ret (.ok count')) := by
      rcases hopts opt List.mem_cons_self with ⟨optarg, rfl⟩ | ⟨optarg, rfl⟩
      · exact reach_startRadio rfl optarg h
      · exact reach_startRadio rfl optarg h
    obtain ⟨count₁, s₁, h₁, hstarted⟩ := hfirst
    obtain ⟨n', count', s', h', hrest⟩ :=
      ih (fun opt hopt => hopts opt (List.mem_cons_of_mem _ hopt)) h₁
    exact ⟨n', count', s', h', (hstarted.bind _).trans hrest⟩

/-- The threads come to their ends one after another, each before it is waited for. -/
theorem reach_joinLoop (slot n : ℕ) (s : ManagerState)
    (h : ∀ i, slot ≤ i → i < slot + n → ∃ t, s.threads i = some t ∧ t.phase = .looping) :
    ∃ s', Reach managerWorld s (joinLoop slot n) s' (ret ()) := by
  induction n generalizing slot s with
  | zero => exact ⟨s, .start _ _⟩
  | succ n ih =>
    obtain ⟨t, ht, hphase⟩ := h slot le_rfl (by omega)
    -- the threads of the other slots still run
    have hothers : ∀ i, slot + 1 ≤ i → i < slot + 1 + n → ∃ t',
        Function.update s.threads slot (some { t with phase := .done }) i = some t' ∧
          t'.phase = .looping := by
      intro i hlow hhigh
      obtain ⟨t', ht', hphase'⟩ := h i (by omega) (by omega)
      exact ⟨t', (Function.update_of_ne (by omega) _ _).trans ht', hphase'⟩
    obtain ⟨s', hrest⟩ := ih (slot + 1) { s with
      threads := Function.update s.threads slot (some { t with phase := .done })
      closed := s.closed ++ [t.ctx] } hothers
    exact ⟨s', .reply () ⟨_, endsThread ht hphase, ⟨⟨_, Function.update_self .., rfl⟩, rfl⟩⟩ hrest⟩

/-- **The manager can come to its end** with every list of such options.  The run is put together
from one for each option, by induction on the list. -/
theorem exists_run_of_starts {argc : ℕ} {opts : List ManagerOption} (hargc : argc ≠ 1)
    (hopts : ∀ opt ∈ opts, opt.Starts) :
    ∃ s, Reach managerWorld .start (managerMain argc opts) s (ret 0) := by
  have hstart : Launched 0 0 .start :=
    ⟨fun ctx hmem => absurd hmem List.not_mem_nil, fun i hi => absurd hi (Nat.not_lt_zero i)⟩
  obtain ⟨n, count, s₁, h₁, hoptions⟩ := reach_optionsLoop hopts hstart
  obtain ⟨s₂, hjoins⟩ := reach_joinLoop 0 count s₁ fun i _ hi => h₁.looping i (by omega)
  refine ⟨s₂, ?_⟩
  unfold managerMain
  rw [if_neg hargc]
  exact (hoptions.bind _).trans (hjoins.bind _)

/-- Options with a radio of each kind. -/
def twoRadios : List ManagerOption := [.w "a".toList, .m "b".toList]

theorem starts_twoRadios : ∀ opt ∈ twoRadios, opt.Starts := by
  simp [twoRadios, ManagerOption.Starts]

/-- More radios than the manager has threads for. -/
def sixRadios : List ManagerOption :=
  [.w "a".toList, .w "b".toList, .w "c".toList, .w "d".toList, .w "e".toList, .m "f".toList]

theorem starts_sixRadios : ∀ opt ∈ sixRadios, opt.Starts := by
  simp [sixRadios, ManagerOption.Starts]

/-- **At every moment of every run the radios and the threads are in order**, whatever the options
are, whatever fails, and whenever the threads go on.  The program is followed by its weakest
preconditions, and what it knows is kept by the threads in the background. -/
theorem manager_safe {argc : ℕ} {opts : List ManagerOption} {s s' : ManagerState} {p : ManagerM ℤ}
    (hrun : Reach managerWorld .start (managerMain argc opts) s p)
    (hsteps : Relation.ReflTransGen ThreadStep s s') : ManagerSafe s' :=
  wp_moment stable_managerSafe (fun _ _ h => h.1) (wp_managerMain argc opts) hrun hsteps

/-- So they are behind a run of two radios. -/
theorem manager_safe_two :
    ∃ s, Reach managerWorld .start (managerMain 5 twoRadios) s (ret 0) ∧ ManagerSafe s := by
  have hargc : (5 : ℕ) ≠ 1 := by decide
  obtain ⟨s, hrun⟩ := exists_run_of_starts hargc starts_twoRadios
  exact ⟨s, hrun, manager_safe hrun .refl⟩

/-- **When the manager has waited for its threads, all radios have been opened, and exactly the
first five of them are closed.** The radios behind them have no thread, as the slots are full, and
only a thread closes a radio. -/
theorem first_closed {argc : ℕ} {opts : List ManagerOption} {s : ManagerState} (hargc : argc ≠ 1)
    (hopts : ∀ opt ∈ opts, ¬ opt.Ends)
    (hrun : Reach managerWorld .start (managerMain argc opts) s (ret 0)) : FirstClosed opts s := by
  have hpost := wp_reach hrun (wp_managerMain argc opts)
  rcases hpost.2 rfl with h | ⟨opt, hmem, hend⟩ | h
  · exact absurd h hargc
  · exact absurd hend (hopts opt hmem)
  · exact h

/-- With six radios all are opened, the first five are closed, and the last one is not. -/
theorem first_closed_six : ∃ s, Reach managerWorld .start (managerMain 13 sixRadios) s (ret 0) ∧
    s.opened.length = 6 ∧
    ∀ i ctx, s.opened[i]? = some ctx → (ctx ∈ s.closed ↔ i ≠ 5) := by
  have hopts : ∀ opt ∈ sixRadios, ¬ opt.Ends := by
    rintro opt hopt hend
    rcases hend with rfl | rfl
    · exact absurd hopt (by decide)
    · exact absurd hopt (by decide)
  have hargc : (13 : ℕ) ≠ 1 := by decide
  obtain ⟨s, hrun⟩ := exists_run_of_starts hargc starts_sixRadios
  obtain ⟨hlength, hclosed⟩ := first_closed hargc hopts hrun
  refine ⟨s, hrun, hlength, fun i ctx hi => (hclosed i ctx hi).trans ?_⟩
  -- no radio has been opened behind the sixth
  have hlast : i < 6 := by
    have hbound := (List.getElem?_eq_some_iff.mp hi).1
    rw [hlength] at hbound
    exact hbound
  unfold eventThreadAmount
  omega

end RadioHal
