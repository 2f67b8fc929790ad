import RadioHal.Lib.Steps
import RadioHal.Wifi.Session

/-!
# The event loop from outside

Seen from outside, a round of `wifi_events` picks a radio and an event for it, and then ignores
the event, leaves the loop, or handles the event.  The events handled make a log, which together
with the softc is all that the properties of a run are about.

## Main definitions

* `NextEvent` — the radio and the event a round may pick.
* `Action`, `WifiEvents.action` — what it does with them.
* `Handled` — an event that was handled, as it stands in the log.
* `LoopStep`, `LoopRun` — one round, and any number of them, with the log of what was handled.
* `Invokes` — a round calls a handler.

## Main results

* `after_round_iff`, `exists_loopRun_iff` — **the rounds of the loop are those of `wifi_events`.**
* `runStateMachine_eq` — the state machine does what its action says, and nothing else.
-/

namespace RadioHal.Wifi

open CLib Dialogue

/-! ### The pick of a round -/

/-- An event has been heard for a radio. -/
def WifiEvents.hear (s : WifiEvents) (slot : Slot) (event : ℤ) : WifiEvents :=
  { s with
    eNewEvent := Function.update s.eNewEvent slot event
    index := slot.val }

@[simp] theorem WifiEvents.hear_sc (s : WifiEvents) (slot : Slot) (event : ℤ) :
    (s.hear slot event).sc = s.sc := rfl

@[simp] theorem WifiEvents.hear_eNewEvent (s : WifiEvents) (slot : Slot) (event : ℤ) :
    (s.hear slot event).eNewEvent slot = event := Function.update_self _ _ _

/-- The radio that `s.index` names and the event waiting for it are picked: at startup the next
radio that is in its first state, afterwards the one `wifi_hal_wait_on_event` names. -/
inductive NextEvent (s : WifiEvents) : Option Text → WifiEvents → Prop
  | startup {slot : Slot} : s.stateMachine = .initState → (slot.val : ℤ) = s.index + 1 →
      s.sc.state slot = .initState → NextEvent s none { s with index := slot.val }
  | waited {t : WifiTranscript} {event : WaitedEvent} {slot : Slot} :
      s.stateMachine ≠ .initState →
      After (wifiHalWaitOnEvent s.sc s.index eventBufLen) t (ret event) →
      (slot.val : ℤ) = event.index →
      NextEvent s (some event.text)
        (s.hear slot (wifiHalMapWpaEventToState event.text).num)

/-- An index that is used on an array names one of its places. -/
theorem after_slot_iff {i : ℤ} {t : WifiTranscript} {slot : Slot} :
    After (WifiM.slot i) t (ret slot) ↔ t = [] ∧ (slot.val : ℤ) = i := by
  unfold WifiM.slot
  split
  · rename_i hrange
    rw [after_ret_iff]
    refine and_congr_right fun _ => ⟨?_, fun h => Fin.ext ?_⟩
    · rintro rfl
      exact Int.toNat_of_nonneg hrange.1
    · show slot.val = i.toNat
      omega
  · rename_i hrange
    constructor
    · intro h
      obtain ⟨e, -⟩ := after_ask_iff.mp h
      exact e.elim
    · rintro ⟨-, h⟩
      have := slot.isLt
      exact absurd ⟨by omega, by omega⟩ hrange

/-- The state behind the last radio is never the first one: the number of radios lies there. -/
theorem after_loadState_iff {sc : WifiSoftc} {i : ℤ} {t : WifiTranscript} {v : ℤ} :
    After (loadState sc i) t (ret v) ↔ t = [⟨.usesIndex i, ()⟩] ∧
      ((i = wifiRadioMax ∧ v = sc.radioAmount) ∨
        ∃ slot : Slot, (slot.val : ℤ) = i ∧ v = (sc.state slot).num) := by
  unfold loadState
  rw [query_bind, after_ask_iff]
  by_cases hend : i = wifiRadioMax
  -- behind the array lies the number of radios
  · have hno : ∀ slot : Slot, (slot.val : ℤ) ≠ i := fun slot => by
      have := slot.isLt
      omega
    simp only [if_pos hend]
    constructor
    · rintro ⟨_, t', rfl, h⟩
      obtain ⟨rfl, rfl⟩ := after_ret_iff.mp h
      exact ⟨rfl, Or.inl ⟨hend, rfl⟩⟩
    · rintro ⟨rfl, ⟨-, rfl⟩ | ⟨slot, hslot, -⟩⟩
      · exact ⟨(), [], rfl, .start _⟩
      · exact absurd hslot (hno slot)
  -- any other index must be one of a slot
  · simp only [if_neg hend]
    constructor
    · rintro ⟨_, t', rfl, h⟩
      obtain ⟨t₁, slot, t₂, rfl, hrun, hv⟩ := after_bind_iff.mp h
      obtain ⟨rfl, hslot⟩ := after_slot_iff.mp hrun
      obtain ⟨rfl, rfl⟩ := after_ret_iff.mp hv
      exact ⟨rfl, Or.inr ⟨slot, hslot, rfl⟩⟩
    · rintro ⟨rfl, ⟨h, -⟩ | ⟨slot, hslot, rfl⟩⟩
      · exact absurd h hend
      · exact ⟨(), [], rfl, after_bind_iff.mpr
          ⟨[], slot, [], rfl, after_slot_iff.mpr ⟨rfl, hslot⟩, .start _⟩⟩

/-- **The first half of a round is the pick**: at startup the next radio, afterwards the one that an
event has been waited for from. -/
theorem after_nextEvent_iff {s s₁ : WifiEvents} :
    (∃ t, After (nextEvent s) t (ret (some s₁))) ↔ ∃ heard, NextEvent s heard s₁ := by
  unfold nextEvent
  by_cases hstarted : s.stateMachine ≠ .initState
  -- behind the startup an event is waited for
  · simp only [if_pos hstarted, query_bind]
    constructor
    · rintro ⟨t, hrun⟩
      obtain ⟨_, t₁, -, hrun₁⟩ := after_ask_iff.mp hrun
      obtain ⟨t₂, event, t₃, -, hwait, hrun₂⟩ := after_bind_iff.mp hrun₁
      obtain ⟨_, t₄, -, hrun₃⟩ := after_ask_iff.mp hrun₂
      obtain ⟨t₅, slot, t₆, -, hindex, hrun₄⟩ := after_bind_iff.mp hrun₃
      obtain ⟨-, hslot⟩ := after_slot_iff.mp hindex
      obtain ⟨-, hs₁⟩ := after_ret_iff.mp hrun₄
      obtain rfl := Option.some.inj hs₁
      rw [← hslot]
      exact ⟨_, .waited hstarted hwait hslot⟩
    · rintro ⟨heard, hnext⟩
      cases hnext with
      | startup hinit => exact absurd hinit hstarted
      | @waited t event slot _ hwait hslot =>
        refine ⟨⟨.usesIndex s.index, ()⟩ :: (t ++ ⟨.usesIndex event.index, ()⟩ :: ([] ++ [])), ?_⟩
        unfold WifiEvents.hear
        rw [hslot]
        exact .reply _ (after_bind_iff.mpr ⟨t, event, _, rfl, hwait, .reply _ (after_bind_iff.mpr
          ⟨[], slot, [], rfl, after_slot_iff.mpr ⟨rfl, hslot⟩, .start _⟩)⟩)
  -- at startup the state of the next radio decides
  · have hinit : s.stateMachine = .initState := not_not.mp hstarted
    simp only [if_neg hstarted, query_bind]
    constructor
    · rintro ⟨t, hrun⟩
      obtain ⟨t₁, v, t₂, -, hload, hrun₁⟩ := after_bind_iff.mp hrun
      obtain ⟨-, hv⟩ := after_loadState_iff.mp hload
      by_cases hfirst : v = WifiState.initState.num
      · rw [if_pos hfirst] at hrun₁
        obtain ⟨_, t₃, -, hrun₂⟩ := after_ask_iff.mp hrun₁
        obtain ⟨-, hs₁⟩ := after_ret_iff.mp hrun₂
        obtain rfl := Option.some.inj hs₁
        -- what lies behind the array is not a first state
        rcases hv with ⟨-, rfl⟩ | ⟨slot, hslot, rfl⟩
        · simp [WifiState.num] at hfirst
        · rw [← hslot]
          exact ⟨none, .startup hinit hslot ((num_initState_iff _).mp hfirst)⟩
      · rw [if_neg hfirst] at hrun₁
        exact absurd (after_ret_iff.mp hrun₁).2 (by simp)
    · rintro ⟨heard, hnext⟩
      cases hnext with
      | waited h => exact absurd hinit h
      | @startup slot _ hslot hfirst =>
        refine ⟨[⟨.usesIndex (s.index + 1), ()⟩] ++ [⟨.usesIndex (s.index + 1), ()⟩], ?_⟩
        refine after_bind_iff.mpr ⟨_, (s.sc.state slot).num, _, rfl,
          after_loadState_iff.mpr ⟨rfl, Or.inr ⟨slot, hslot, rfl⟩⟩, ?_⟩
        rw [if_pos ((num_initState_iff _).mpr hfirst), hslot]
        exact .reply _ (.start _)

/-! ### What is done with it -/

/-- What the second half of a round does. -/
inductive Action
  /-- There is no event, and the loop goes round again. -/
  | ignore
  /-- A radio has been shut down, and `wifi_events` returns. -/
  | leave
  /-- The event is handled, by a handler if there is one for it. -/
  | handle (handler : Option WifiEventHandler)
  deriving DecidableEq

/-- The handler that is looked up for a state and an event within their enumerations. -/
def handlerFor (state : WifiState) (event : ℤ) : Option WifiEventHandler :=
  if state.num < WifiState.lastState.num ∧ event < WifiSystemEvent.lastEvent.num then
    findHandler state event
  else none

namespace WifiEvents

variable (s : WifiEvents) (slot : Slot)

/-- The handler for the state and the event of a radio. -/
def handler : Option WifiEventHandler := handlerFor (s.sc.state slot) (s.eNewEvent slot)

/-- What is done with the event of a radio. -/
def action : Action :=
  if s.eNewEvent slot = WifiSystemEvent.noEvent.num then .ignore
  else if ∃ i ∈ s.sc.radios, s.sc.state i = .shutdownState then .leave
  else .handle (s.handler slot)

/-- The state a handler returns is stored. -/
def store (r : WifiSoftc × WifiState) : WifiEvents :=
  { s with sc := { r.1 with state := Function.update r.1.state slot r.2 } }

end WifiEvents

section Rounds

variable (nl : Netlink.Libnl NlAttrs) (ctx : WifiContext)

/-- The second half of a round, without the indices it uses on its way. -/
def respond (s : WifiEvents) (slot : Slot) : WifiM (Option WifiEvents) :=
  match s.action slot with
  | .ignore => ret (some s)
  | .leave => ret none
  | .handle none => ret (some s)
  | .handle (some h) => h.call nl ctx s.sc slot >>= fun r => ret (some (s.store slot r))

/-- A program that uses some indices before it goes on. -/
def usesAll {α : Type} (is : List ℤ) (p : WifiM α) : WifiM α :=
  is.foldr (fun i p => ask (.usesIndex i) fun _ => p) p

/-- The loop that looks for a radio that has been shut down. -/
theorem someShutdown_eq (sc : WifiSoftc) (is : List Slot) :
    ∃ used, ∀ {α : Type} (f : Bool → WifiM α), (someShutdown sc is >>= f) =
      usesAll used (f (decide (∃ i ∈ is, sc.state i = .shutdownState))) := by
  induction is with
  | nil => exact ⟨[], fun f => by simp [someShutdown, usesAll]⟩
  | cons i is ih =>
    obtain ⟨used, hused⟩ := ih
    by_cases hi : sc.state i = .shutdownState
    · refine ⟨[(i.val : ℤ)], fun f => ?_⟩
      unfold someShutdown
      simp [hi, usesAll]
    · refine ⟨(i.val : ℤ) :: used, fun f => ?_⟩
      unfold someShutdown
      rw [bind_assoc, query_bind]
      simp only [if_neg hi, hused]
      simp [hi, usesAll]

theorem dispatch_eq (s : WifiEvents) (slot : Slot) :
    dispatch nl ctx s slot = (s.handler slot).elim (ret (some s)) fun h =>
      h.call nl ctx s.sc slot >>= fun r => ret (some (s.store slot r)) := by
  unfold dispatch WifiEvents.handler handlerFor
  split
  · cases findHandler (s.sc.state slot) (s.eNewEvent slot) <;> rfl
  · rfl

/-- **The state machine does what its action says**, and uses some indices on its way. -/
theorem runStateMachine_eq {s : WifiEvents} {slot : Slot} (hslot : (slot.val : ℤ) = s.index) :
    ∃ used, runStateMachine nl ctx s = usesAll used (respond nl ctx s slot) := by
  obtain ⟨used, hused⟩ := someShutdown_eq s.sc s.sc.radios
  unfold runStateMachine respond WifiEvents.action
  simp only [query_bind, ← hslot, WifiM.slot_val, ret_bind, hused]
  by_cases hevent : s.eNewEvent slot = WifiSystemEvent.noEvent.num
  · refine ⟨[s.index], ?_⟩
    simp only [if_pos hevent]
    rfl
  · refine ⟨s.index :: used, ?_⟩
    simp only [if_neg hevent, usesAll, List.foldr_cons]
    by_cases hshutdown : ∃ i ∈ s.sc.radios, s.sc.state i = .shutdownState
    · simp [hshutdown]
    · simp only [hshutdown, dispatch_eq]
      cases s.handler slot <;> simp

theorem after_usesAll_iff {α : Type} {used : List ℤ} {p : WifiM α} {a : α} :
    (∃ t, After (usesAll used p) t (ret a)) ↔ ∃ t, After p t (ret a) := by
  induction used with
  | nil => rfl
  | cons i used ih =>
    refine Iff.trans ?_ ih
    constructor
    · rintro ⟨t, h⟩
      obtain ⟨_, t', -, h'⟩ := after_ask_iff.mp h
      exact ⟨t', h'⟩
    · rintro ⟨t, h⟩
      exact ⟨_, .reply () h⟩

/-! ### Rounds -/

/-- An event that was handled: the radio, the text it was heard in, if it was heard, its number,
the handler that was called for it and what that one asked, and the softc before and after. -/
structure Handled where
  radio : Slot
  heard : Option Text
  event : ℤ
  handler : Option WifiEventHandler
  dialogue : WifiTranscript
  before : WifiSoftc
  after : WifiSoftc

/-- One round that goes round again, with what it handles. -/
inductive LoopStep (s : WifiEvents) : Option Handled → WifiEvents → Prop
  /-- All radios have been started. -/
  | started {t : WifiTranscript} : After (nextEvent s) t (ret none) →
      LoopStep s none { s with stateMachine := .ifUpState }
  | ignored {heard : Option Text} {s₁ : WifiEvents} {slot : Slot} : NextEvent s heard s₁ →
      (slot.val : ℤ) = s₁.index → s₁.action slot = .ignore → LoopStep s none s₁
  /-- There is no handler for the event. -/
  | unmatched {heard : Option Text} {s₁ : WifiEvents} {slot : Slot} : NextEvent s heard s₁ →
      (slot.val : ℤ) = s₁.index → s₁.action slot = .handle none →
      LoopStep s (some ⟨slot, heard, s₁.eNewEvent slot, none, [], s₁.sc, s₁.sc⟩) s₁
  | called {heard : Option Text} {s₁ : WifiEvents} {slot : Slot} {h : WifiEventHandler}
      {t : WifiTranscript} {r : WifiSoftc × WifiState} : NextEvent s heard s₁ →
      (slot.val : ℤ) = s₁.index → s₁.action slot = .handle (some h) →
      After (h.call nl ctx s₁.sc slot) t (ret r) →
      LoopStep s (some ⟨slot, heard, s₁.eNewEvent slot, some h, t, s₁.sc, (s₁.store slot r).sc⟩)
        (s₁.store slot r)

theorem NextEvent.exists_slot {s s₁ : WifiEvents} {heard : Option Text}
    (h : NextEvent s heard s₁) : ∃ slot : Slot, (slot.val : ℤ) = s₁.index := by
  cases h with
  | startup => exact ⟨_, rfl⟩
  | waited => exact ⟨_, rfl⟩

theorem NextEvent.sc_eq {s s₁ : WifiEvents} {heard : Option Text} (h : NextEvent s heard s₁) :
    s₁.sc = s.sc := by
  cases h <;> rfl

/-- A round that has picked a radio runs the state machine of that radio. -/
theorem after_picked_iff {s s₁ s' : WifiEvents} {heard : Option Text}
    (hnext : NextEvent s heard s₁) : (∃ t, After (runStateMachine nl ctx s₁) t (ret (some s'))) →
      ∃ label, LoopStep nl ctx s label s' := by
  intro hrun
  obtain ⟨slot, hslot⟩ := hnext.exists_slot
  obtain ⟨used, hused⟩ := runStateMachine_eq nl ctx hslot
  rw [hused, after_usesAll_iff] at hrun
  obtain ⟨t, hrun⟩ := hrun
  unfold respond at hrun
  cases haction : s₁.action slot with
  | ignore =>
    rw [haction] at hrun
    obtain rfl := Option.some.inj (after_ret_iff.mp hrun).2
    exact ⟨_, .ignored hnext hslot haction⟩
  | leave =>
    rw [haction] at hrun
    exact absurd (after_ret_iff.mp hrun).2 (by simp)
  | handle handler =>
    rw [haction] at hrun
    cases handler with
    | none =>
      obtain rfl := Option.some.inj (after_ret_iff.mp hrun).2
      exact ⟨_, .unmatched hnext hslot haction⟩
    | some h =>
      obtain ⟨t₁, r, t₂, -, hcall, hstore⟩ := after_bind_iff.mp hrun
      obtain rfl := Option.some.inj (after_ret_iff.mp hstore).2
      exact ⟨_, .called hnext hslot haction hcall⟩

/-- What is done with a pick is done by a round. -/
theorem exists_after_picked {s s₁ : WifiEvents} {heard : Option Text} {slot : Slot}
    (hnext : NextEvent s heard s₁) (hslot : (slot.val : ℤ) = s₁.index) {t : WifiTranscript}
    {o : Option WifiEvents} (hrun : After (respond nl ctx s₁ slot) t (ret o)) :
    ∃ t, After (wifiEventsRound nl ctx s) t (ret o) := by
  obtain ⟨t₁, hnext⟩ := after_nextEvent_iff.mpr ⟨heard, hnext⟩
  obtain ⟨used, hused⟩ := runStateMachine_eq nl ctx hslot
  obtain ⟨t₂, hrun⟩ : ∃ t₂, After (usesAll used (respond nl ctx s₁ slot)) t₂ (ret o) :=
    after_usesAll_iff.mpr ⟨t, hrun⟩
  rw [← hused] at hrun
  exact ⟨t₁ ++ t₂, after_bind_iff.mpr ⟨t₁, some s₁, t₂, rfl, hnext, hrun⟩⟩

/-- **The rounds that go round again are those of `wifi_events`.** -/
theorem after_round_iff {s s' : WifiEvents} :
    (∃ t, After (wifiEventsRound nl ctx s) t (ret (some s'))) ↔
      ∃ label, LoopStep nl ctx s label s' := by
  constructor
  · rintro ⟨t, hrun⟩
    obtain ⟨t₁, next, t₂, -, hnext, hrest⟩ := after_bind_iff.mp hrun
    cases next with
    | none =>
      -- no radio is left to be started
      obtain rfl := Option.some.inj (after_ret_iff.mp hrest).2
      exact ⟨none, .started hnext⟩
    | some s₁ =>
      -- a radio has been picked, and its event is handled
      obtain ⟨heard, hpick⟩ := after_nextEvent_iff.mp ⟨t₁, hnext⟩
      exact after_picked_iff nl ctx hpick ⟨t₂, hrest⟩
  · rintro ⟨label, hstep⟩
    cases hstep with
    | @started t hnext =>
      exact ⟨t ++ [], after_bind_iff.mpr ⟨t, none, [], rfl, hnext, .start _⟩⟩
    | ignored hnext hslot haction =>
      refine exists_after_picked nl ctx hnext hslot (t := []) ?_
      unfold respond
      rw [haction]
      exact .start _
    | unmatched hnext hslot haction =>
      refine exists_after_picked nl ctx hnext hslot (t := []) ?_
      unfold respond
      rw [haction]
      exact .start _
    | @called _ _ _ h t r hnext hslot haction hcall =>
      refine exists_after_picked nl ctx hnext hslot (t := t ++ []) ?_
      unfold respond
      rw [haction]
      exact after_bind_iff.mpr ⟨t, r, [], rfl, hcall, .start _⟩

/-! ### Runs -/

/-- Any number of rounds of `wifi_events`, with the log of what was handled. -/
def LoopRun (sc : WifiSoftc) (log : List Handled) (s : WifiEvents) : Prop :=
  ∃ t s₀, After (wifiEventsStart sc) t (ret s₀) ∧ Trace (LoopStep nl ctx) s₀ log s

/-- A round calls the handler `h` for a radio, whether or not it comes back from it. -/
def Invokes (s : WifiEvents) (slot : Slot) (h : WifiEventHandler) : Prop :=
  ∃ heard s₁, NextEvent s heard s₁ ∧ (slot.val : ℤ) = s₁.index ∧ s₁.action slot = .handle (some h)

/-- **The runs of the loop are those of `wifi_events`**, after any number of rounds.  By induction
on the rounds, with `after_round_iff` for each of them. -/
theorem exists_loopRun_iff {sc : WifiSoftc} {s : WifiEvents} : (∃ log, LoopRun nl ctx sc log s) ↔
    ∃ n t, After (wifiEvents nl ctx n sc) t (ret (some s)) := by
  have hloop : ∀ n, wifiEvents nl ctx n sc = wifiEventsStart sc >>= fun s =>
    iterate (fun o => o.elim (ret none) (wifiEventsRound nl ctx)) n (some s) := fun _ => rfl
  constructor
  · rintro ⟨log, t₀, s₀, hstart, htrace⟩
    -- a run of the loop goes on by one round at its end
    induction htrace with
    | refl => exact ⟨0, t₀ ++ [], after_bind_iff.mpr ⟨t₀, s₀, [], rfl, hstart, .start _⟩⟩
    | @snoc log s s' label _ hstep ih =>
      obtain ⟨n, t, hrun⟩ := ih
      obtain ⟨t', hround⟩ := (after_round_iff nl ctx).mpr ⟨label, hstep⟩
      refine ⟨n + 1, t ++ t', ?_⟩
      rw [hloop] at hrun ⊢
      simp only [iterate_succ_last]
      rw [← bind_assoc]
      exact after_bind_iff.mpr ⟨t, some s, t', rfl, hrun, hround⟩
  · rintro ⟨n, t, hrun⟩
    -- and so does `wifi_events`
    induction n generalizing t s with
    | zero =>
      obtain ⟨t₀, s₀, t₁, -, hstart, hnone⟩ := after_bind_iff.mp hrun
      obtain rfl := Option.some.inj (after_ret_iff.mp hnone).2
      exact ⟨[], t₀, s, hstart, .refl⟩
    | succ n ih =>
      rw [hloop] at hrun
      simp only [iterate_succ_last] at hrun
      rw [← bind_assoc] at hrun
      obtain ⟨t₁, o, t₂, -, hfirst, hlast⟩ := after_bind_iff.mp hrun
      cases o with
      | none => exact absurd (after_ret_iff.mp hlast).2 (by simp)
      | some s₁ =>
        obtain ⟨log, t₀, s₀, hstart, htrace⟩ := ih _ hfirst
        obtain ⟨label, hstep⟩ := (after_round_iff nl ctx).mp ⟨t₂, hlast⟩
        exact ⟨_, t₀, s₀, hstart, htrace.snoc hstep⟩

end Rounds

end RadioHal.Wifi
