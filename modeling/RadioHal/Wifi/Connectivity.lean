import RadioHal.Wifi.Machine

/-!
# What the recorded state says of a radio

Once a radio has been set up, its recorded state should follow what its supplicant reports: the
start of its mode takes it to `IF_UP_STATE`, and from there on it is connected or disconnected as
the last report says.  The table has no row for the start of an access point, and none that leaves
`IF_UP_STATE` for a report on a peer.

## Main definitions

* `StartsMode`, `connectivity` — what a report says of a radio, read off its text.
* `FollowsEvents` — along a log, the state of a radio follows what is reported.
* `Neglected` — a report that the table has no row for.

## Main results

* `event_of_mem` — the events of the texts that are known.
* `stays_up` — a radio that is up stays so until it is terminated.
* `follows_events_iff` — **the state of a radio follows its events exactly where none of them is
  neglected.**
-/

namespace RadioHal.Wifi

open CLib Dialogue

/-! ### What is reported -/

/-- A text reports that a radio with the given configuration has started its mode. -/
def StartsMode (config : WifiConfig) (text : Text) : Prop :=
  (config.modeIs "mesh".toList = true ∧ strStarts text "MESH-GROUP-STARTED ".toList = true) ∨
    (config.modeIs "ap".toList = true ∧ strStarts text "AP-ENABLED ".toList = true)

/-- The state a report on a peer or a connection should lead to. -/
def connectivity (text : Text) : Option WifiState :=
  if strStarts text "MESH-PEER-CONNECTED ".toList = true then some .connectedState
  else if strStarts text "MESH-PEER-DISCONNECTED ".toList = true ∨
      strStarts text "CTRL-EVENT-DISCONNECTED ".toList = true then some .disconnectedState
  else none

/-- What the last such report for a radio should have led to. -/
def lastConnectivity (i : Slot) (log : List Handled) : Option WifiState :=
  (log.filterMap fun e => if e.radio = i then e.heard.bind connectivity else none).getLast?

/-- No text begins like two of the events that are known. -/
theorem event_of_mem {text p : Text} {event : WifiSystemEvent} (hmem : (p, event) ∈ eventPrefixes)
    (hstarts : strStarts text p = true) : wifiHalMapWpaEventToState text = event := by
  have hdistinct : ∀ x ∈ eventPrefixes, ∀ y ∈ eventPrefixes,
      x.1 <+: y.1 ∨ y.1 <+: x.1 → x = y := by decide
  have hfound : (eventPrefixes.find? fun p => strStarts text p.1).isSome = true :=
    List.find?_isSome.mpr ⟨_, hmem, hstarts⟩
  obtain ⟨x, hx⟩ := Option.isSome_iff_exists.mp hfound
  have hx' : strStarts text x.1 = true := by simpa using List.find?_some hx
  have hsame : x = (p, event) := hdistinct x (List.mem_of_find?_eq_some hx) _ hmem
    (List.prefix_or_prefix_of_prefix (strStarts_iff.mp hx') (strStarts_iff.mp hstarts))
  unfold wifiHalMapWpaEventToState
  rw [hx, hsame]
  rfl

/-- A report on a peer or a connection is one of two events. -/
theorem event_of_connectivity {text : Text} {state : WifiState}
    (h : connectivity text = some state) :
    (wifiHalMapWpaEventToState text = .connectedEvent ∧ state = .connectedState) ∨
      (wifiHalMapWpaEventToState text = .disconnectedEvent ∧ state = .disconnectedState) := by
  unfold connectivity at h
  split at h
  · rename_i hconnected
    exact Or.inl ⟨event_of_mem (by decide) hconnected, (Option.some.inj h).symm⟩
  split at h
  · rename_i hdisconnected
    refine Or.inr ⟨?_, (Option.some.inj h).symm⟩
    rcases hdisconnected with hpeer | hstation
    · exact event_of_mem (by decide) hpeer
    · exact event_of_mem (by decide) hstation
  · exact absurd h (by simp)

/-! ### Following -/

section Following

variable (nl : Netlink.Libnl NlAttrs) (ctx : WifiContext)

/-- `init_handler` has been called for a radio whose mode it knows, and has come back. -/
def Initialised (i : Slot) (log : List Handled) : Prop :=
  (ctx.config i).any knownMode = true ∧ ∃ e ∈ log, e.radio = i ∧ e.handler = some .init

/-- **The recorded state of a radio follows what is reported.** -/
structure FollowsEvents (i : Slot) (log : List Handled) : Prop where
  /-- The start of its mode takes it from the first stage up. -/
  started : ∀ earlier e later, log = earlier ++ e :: later → Initialised ctx i earlier →
    e.radio = i → e.before.state i = .ifInitStage1 → ∀ text config, e.heard = some text →
    ctx.config i = some config → StartsMode config text → e.after.state i = .ifUpState
  /-- From there on it is where the last report says, as long as nothing is terminated. -/
  connected : ∀ earlier up between e later, log = earlier ++ up :: (between ++ e :: later) →
    Initialised ctx i (earlier ++ [up]) → up.after.state i = .ifUpState →
    (∀ e' ∈ between ++ [e], e'.event ≠ WifiSystemEvent.terminateEvent.num) →
    ∀ state, lastConnectivity i (between ++ [e]) = some state → e.after.state i = state

/-- A report that the table has no row for: the start of an access point in its first stage, or a
connection made or lost by a radio that is up. -/
def Neglected (i : Slot) (e : Handled) : Prop :=
  e.radio = i ∧ ∃ text, e.heard = some text ∧
    ((e.before.state i = .ifInitStage1 ∧ strStarts text "AP-ENABLED ".toList = true ∧
        ∃ config, ctx.config i = some config ∧ config.modeIs "ap".toList = true) ∨
      (e.before.state i = .ifUpState ∧ connectivity text ≠ none))

variable {nl ctx}

/-- The start of an access point has no row. -/
theorem transition_apEnabled (config : Option WifiConfig) :
    transition config .ifInitStage1 WifiSystemEvent.apEnabledEvent.num = .ifInitStage1 := rfl

/-- Only a termination leaves `IF_UP_STATE`. -/
theorem transition_ifUpState {event : ℤ} (h : event ≠ WifiSystemEvent.terminateEvent.num)
    (config : Option WifiConfig) : transition config .ifUpState event = .ifUpState := by
  have hnone : findHandler .ifUpState event = none := by
    simp [findHandler, wifiAsStateMachine, h.symm]
  unfold transition handlerFor
  rw [hnone]
  split <;> rfl

/-- **A radio that is up stays so until it is terminated.**  Only the row for a termination leaves
`IF_UP_STATE`. -/
theorem stays_up {s s' : WifiEvents} {log : List Handled} {i : Slot}
    (h : Trace (LoopStep nl ctx) s log s') (hup : s.sc.state i = .ifUpState)
    (hlast : ∀ e ∈ log, e.event ≠ WifiSystemEvent.terminateEvent.num) :
    s'.sc.state i = .ifUpState ∧ ∀ e ∈ log, e.before.state i = .ifUpState := by
  induction h with
  | refl => exact ⟨hup, fun e he => absurd he List.not_mem_nil⟩
  | @snoc log s₁ s₂ label _ hstep ih =>
    obtain ⟨hup₁, hlog⟩ := ih fun e he => hlast e (List.mem_append_left _ he)
    cases label with
    | none => simpa [hstep.sc_eq] using ⟨hup₁, hlog⟩
    | some e =>
      obtain ⟨hbefore, hafter, hordered⟩ := hstep.inOrder
      have he : e.event ≠ WifiSystemEvent.terminateEvent.num := hlast e (by simp)
      have hbefore_up : e.before.state i = .ifUpState := hbefore ▸ hup₁
      constructor
      · rw [← hafter, hordered.state, Function.update_apply]
        split
        · rename_i hi
          rw [← hi, hbefore_up]
          exact transition_ifUpState he _
        · exact hbefore_up
      · intro e' he'
        rcases List.mem_append.mp he' with he' | he'
        · exact hlog e' he'
        · obtain rfl : e' = e := by simpa using he'
          exact hbefore_up

/-- Where nothing is handled, the softc stays as it is. -/
theorem sc_eq_of_silent {s s' : WifiEvents} {log : List Handled}
    (h : Trace (LoopStep nl ctx) s log s') (hlog : log = []) : s'.sc = s.sc := by
  induction h with
  | refl => rfl
  | @snoc log s₁ s₂ label _ hstep ih =>
    obtain ⟨rfl, hlabel⟩ := List.append_eq_nil_iff.mp hlog
    cases label with
    | none => exact hstep.sc_eq.trans (ih rfl)
    | some e => exact absurd hlabel (by simp)

/-- What is handled next begins with what was left. -/
theorem after_eq_before {s s' : WifiEvents} {log later : List Handled} {up e : Handled}
    (h : Trace (LoopStep nl ctx) s (log ++ [up] ++ e :: later) s') : up.after = e.before := by
  obtain ⟨s₁, s₂, hfirst, hstep, -⟩ := h.exists_step
  obtain ⟨s₃, s₄, -, hup, hsilent⟩ := hfirst.exists_step
  rw [hup.inOrder.2.1, hstep.inOrder.1]
  exact (sc_eq_of_silent hsilent rfl).symm

/-- A report that was neglected is not followed by the state of its radio. -/
theorem not_followsEvents {s₀ s : WifiEvents} {i : Slot} {earlier later : List Handled}
    {e : Handled} (htrace : Trace (LoopStep nl ctx) s₀ (earlier ++ e :: later) s)
    (hinit : Initialised ctx i earlier) (hneglected : Neglected ctx i e) :
    ¬ FollowsEvents ctx i (earlier ++ e :: later) := by
  intro hfollows
  obtain ⟨s₁, s₂, -, hstep, -⟩ := htrace.exists_step
  obtain ⟨-, -, hordered⟩ := hstep.inOrder
  obtain ⟨rfl, text, hheard, ⟨hstage, hap, config, hconfig, hmode⟩ | ⟨hup, hreport⟩⟩ := hneglected
  · -- the start of an access point
    have hmap : wifiHalMapWpaEventToState text = .apEnabledEvent := event_of_mem (by decide) hap
    have hevent : e.event = WifiSystemEvent.apEnabledEvent.num := by
      rw [hordered.event_heard text hheard, hmap]
    have hafter := hfollows.started earlier e later rfl hinit rfl hstage text config hheard hconfig
      (Or.inr ⟨hmode, hap⟩)
    rw [hordered.state, Function.update_self, hstage, hevent, transition_apEnabled] at hafter
    exact absurd hafter (by decide)
  · -- a report on a peer of a radio that is up
    obtain ⟨state, hstate⟩ := Option.ne_none_iff_exists'.mp hreport
    have hevent : e.event ≠ WifiSystemEvent.terminateEvent.num ∧ state ≠ .ifUpState := by
      rw [hordered.event_heard text hheard]
      rcases event_of_connectivity hstate with ⟨hmap, rfl⟩ | ⟨hmap, rfl⟩ <;> rw [hmap] <;> decide
    rcases List.eq_nil_or_concat earlier with rfl | ⟨init, last, rfl⟩
    · obtain ⟨-, e', he', -⟩ := hinit
      exact absurd he' List.not_mem_nil
    rw [List.concat_eq_append] at *
    have hlast : last.after = e.before := after_eq_before htrace
    have hfollowed := hfollows.connected init last [] e later (by simp) hinit (hlast ▸ hup)
      (by simpa using hevent.1) state (by simp [lastConnectivity, hheard, hstate])
    rw [hordered.state, Function.update_self, hup, transition_ifUpState hevent.1] at hfollowed
    exact hevent.2 hfollowed.symm

/-- **The state of a radio follows its events exactly where none of them is neglected.** An event is
neglected where the table has no row for it in the state the radio is in, so that the radio stays
where it is. -/
theorem follows_events_iff {sc : WifiSoftc} {log : List Handled} {s : WifiEvents}
    (hrun : LoopRun nl ctx sc log s) (i : Slot) : FollowsEvents ctx i log ↔
      ∀ earlier e later, log = earlier ++ e :: later → Initialised ctx i earlier →
        ¬ Neglected ctx i e := by
  obtain ⟨t, s₀, -, htrace⟩ := hrun
  constructor
  · rintro hfollows earlier e later rfl hinit hneglected
    exact not_followsEvents htrace hinit hneglected hfollows
  · intro hnone
    constructor
    · rintro earlier e later rfl hinit rfl hstage text config hheard hconfig hstarts
      rcases hstarts with ⟨hmesh, hgroup⟩ | ⟨hmode, hap⟩
      · obtain ⟨s₁, s₂, -, hstep, -⟩ := htrace.exists_step
        obtain ⟨-, -, hordered⟩ := hstep.inOrder
        have hmap : wifiHalMapWpaEventToState text = .startupStage2Event :=
          event_of_mem (by decide) hgroup
        rw [hordered.state, Function.update_self, hstage, hordered.event_heard text hheard, hmap]
        rfl
      · exact absurd ⟨rfl, text, hheard, Or.inl ⟨hstage, hap, config, hconfig, hmode⟩⟩
          (hnone earlier e later rfl hinit)
    · rintro earlier up between e later rfl hinit hup hterm state hstate
      -- the radio stays up from `up` to `e`, so what is reported of it meanwhile is neglected
      obtain ⟨s₁, s₂, -, hstep, hrest⟩ := htrace.exists_step
      rw [List.append_cons] at hrest
      obtain ⟨s₃, hbetween, -⟩ := hrest.split
      rw [hstep.inOrder.2.1] at hup
      obtain ⟨-, hstays⟩ := stays_up hbetween hup hterm
      obtain ⟨e', he', hreport⟩ : ∃ e' ∈ between ++ [e],
          (if e'.radio = i then e'.heard.bind connectivity else none) = some state :=
        List.mem_filterMap.mp (List.mem_of_getLast? hstate)
      split at hreport
      · rename_i hradio
        obtain ⟨text, hheard, hreport⟩ := Option.bind_eq_some_iff.mp hreport
        obtain ⟨before', after', hsplit⟩ := List.append_of_mem he'
        refine absurd ⟨hradio, text, hheard, Or.inr ⟨hstays e' he', by simp [hreport]⟩⟩
          (hnone (earlier ++ up :: before') e' (after' ++ later) ?_ ?_)
        · rw [List.append_cons between, hsplit]
          simp
        · obtain ⟨hmode, e₀, he₀, hcalled⟩ := hinit
          refine ⟨hmode, e₀, ?_, hcalled⟩
          simp only [List.mem_append, List.mem_cons, List.not_mem_nil, or_false] at he₀ ⊢
          tauto
      · exact absurd hreport (by simp)

/-- A report that is neglected is none of the events of startup. -/
theorem event_of_neglected {i : Slot} {e : Handled} (hordered : e.InOrder nl ctx)
    (h : Neglected ctx i e) : e.event ≠ WifiSystemEvent.startupEvent.num ∧
      e.event ≠ WifiSystemEvent.startupStage2Event.num := by
  obtain ⟨-, text, hheard, ⟨-, hap, -⟩ | ⟨-, hreport⟩⟩ := h
  · have hmap : wifiHalMapWpaEventToState text = .apEnabledEvent := event_of_mem (by decide) hap
    rw [hordered.event_heard text hheard, hmap]
    decide
  · obtain ⟨state, hstate⟩ := Option.ne_none_iff_exists'.mp hreport
    rw [hordered.event_heard text hheard]
    rcases event_of_connectivity hstate with ⟨hmap, -⟩ | ⟨hmap, -⟩ <;> rw [hmap] <;> decide

theorem LoopRun.inOrder {sc : WifiSoftc} {log : List Handled} {s : WifiEvents}
    (hrun : LoopRun nl ctx sc log s) : ∀ e ∈ log, e.InOrder nl ctx := by
  obtain ⟨t, s₀, -, htrace⟩ := hrun
  exact htrace.forall_mem (fun _ => True) (fun _ _ _ _ _ => trivial)
    (fun _ _ _ _ hstep => hstep.inOrder.2.2) trivial

end Following

/-- A mesh radio whose group has started is up, as it should be. -/
theorem mesh_radio_follows : ∃ log s,
    LoopRun .standard (allInMode "mesh".toList) openSoftc log s ∧
      Initialised (allInMode "mesh".toList) 0 log ∧ s.sc.state 0 = .ifUpState ∧
      FollowsEvents (allInMode "mesh".toList) 0 log := by
  obtain ⟨log, e, s, h⟩ :=
    exists_firstUp .standard (allInMode "mesh".toList) rfl openSoftc_open fun _ => rfl
  refine ⟨log ++ [e], s, h.run, ?_, by rw [h.state]; rfl, (follows_events_iff h.run 0).mpr ?_⟩
  · obtain ⟨e₀, he₀, hcalled⟩ := h.started 0
    exact ⟨rfl, e₀, List.mem_append_left _ he₀, hcalled⟩
  · intro earlier e' later hsplit _ hneglected
    have he' : e' ∈ log ++ [e] := hsplit ▸ by simp
    obtain ⟨hstartup, hstage2⟩ := event_of_neglected (h.run.inOrder e' he') hneglected
    rcases List.mem_append.mp he' with he' | he'
    · exact hstartup (h.event e' he')
    · rw [List.mem_singleton.mp he'] at hstage2
      exact hstage2 h.event_up

/-- Not every radio follows its events: an access point that has started stays in its first
stage. -/
theorem not_all_follow_events : ¬ ∀ (nl : Netlink.Libnl NlAttrs) (ctx : WifiContext)
    (sc : WifiSoftc) (log : List Handled) (s : WifiEvents), LoopRun nl ctx sc log s →
    ∀ i, FollowsEvents ctx i log := by
  intro hall
  obtain ⟨log, s, h, hstage⟩ := exists_accessPointsStarted
  have huntagged : Untagged "AP-ENABLED ".toList := by
    constructor <;> decide
  obtain ⟨e, s', hrun, hradio, hheard, -, hbefore, hafter⟩ := h.exists_unmatched rfl openSoftc_open
    huntagged (by decide) (by rw [hstage]; decide)
  have hinit : Initialised (allInMode "ap".toList) 0 log := ⟨rfl, h.started 0⟩
  have hup := (hall _ _ _ _ _ hrun 0).started log e [] rfl hinit hradio (by rw [hbefore, hstage])
    _ _ hheard rfl (Or.inr ⟨rfl, by decide⟩)
  rw [hafter, hstage] at hup
  exact absurd hup (by decide)

end RadioHal.Wifi
