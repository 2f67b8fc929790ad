import RadioHal.Wifi.Rounds

/-!
# The machine of one radio

The table of `wifi_events` makes a machine of each radio, whose state only its own events change.
A termination has a row in `IF_UP_STATE` alone, and once a radio is shut down nothing is handled
any more.

## Main definitions

* `transition` — the state an event takes a radio to.
* `Handled.InOrder` — what is true of whatever is handled.
* `TerminationsShutDown` — every termination handled ends the handling of events.

## Main results

* `yields_call` — a handler returns the state of its row.
* `LoopStep.inOrder` — **one round takes one radio along its machine.**
* `terminations_shut_down_iff` — **terminations end the handling of events exactly where they are
  handled in `IF_UP_STATE`.**
-/

namespace RadioHal.Wifi

open CLib Dialogue

/-! ### Handlers -/

section Machine

variable (nl : Netlink.Libnl NlAttrs) (ctx : WifiContext)

/-- `init_handler` knows the mode of a configuration. -/
def knownMode (config : WifiConfig) : Bool :=
  config.modeIs "ap".toList || config.modeIs "sta".toList || config.modeIs "mesh".toList

/-- The state a handler returns for a radio with the given configuration. -/
def WifiEventHandler.target (config : Option WifiConfig) : WifiEventHandler → WifiState
  | init => if config.any knownMode then .ifInitStage1 else .unknownState
  | initStage2 => .ifUpState
  | terminate => .shutdownState
  | disconnected => .disconnectedState
  | connected => .connectedState

/-- **The machine of one radio**: the state an event takes it to. -/
def transition (config : Option WifiConfig) (state : WifiState) (event : ℤ) : WifiState :=
  (handlerFor state event).elim state fun h => h.target config

theorem yields_wifiHalGetStainfo_state (sc : WifiSoftc) (slot : Slot) :
    Yields (fun r : WifiSoftc × ℤ => r.1.state = sc.state) (wifiHalGetStainfo nl sc slot) := by
  intro allocated
  cases allocated with
  | false => rfl
  | true =>
    intro answer
    cases answer with
    | none => rfl
    | some a =>
      refine (yields_nlRecvmsgs nl linkInfoCb a sc).bind fun s hfold => ?_
      refine Netlink.foldlM_keeps (fun s => s.state = sc.state) (fun msg _ s s' hs hstep => ?_)
        rfl hfold
      obtain ⟨signal, tx, rx, rfl⟩ := exists_of_wifiHalConnectionInfoHdlr hstep
      exact hs

/-- Reading the signal of a radio leaves the states alone. -/
theorem yields_wifiHalGetRssi_state (sc : WifiSoftc) (slot : Slot) :
    Yields (fun r : WifiSoftc × ℤ => r.1.state = sc.state) (wifiHalGetRssi nl sc slot) := by
  refine ((yields_wifiHalGetInterface nl sc).bind fun listed hlisted => ?_ :
    Yields (fun sc' : WifiSoftc => sc'.state = sc.state) (readingDumps nl sc slot)).bind
      fun sc' hsc' => hsc'
  obtain ⟨ifindex, ifname, phyname, radioAmount, hlisted⟩ := hlisted
  refine (yields_wifiHalGetStainfo_state nl listed.1 slot).bind fun stations hstations => ?_
  rw [hlisted] at hstations
  exact hstations

/-- The mode of a radio decides what state it is set up to. -/
theorem yields_setUpMode_target (sc : WifiSoftc) (slot : Slot) (config : WifiConfig) :
    Yields (fun r : WifiSoftc × WifiState =>
      r.2 = if knownMode config = true then .ifInitStage1 else .unknownState)
      (setUpMode nl ctx sc slot config) := by
  unfold setUpMode knownMode
  by_cases hap : config.modeIs "ap".toList = true
  · simp only [hap, if_true, Bool.true_or]
    exact Yields.bind_of_forall fun _ => rfl
  by_cases hsta : config.modeIs "sta".toList = true
  · simp only [hap, hsta, if_true, Bool.or_true, Bool.true_or]
    exact Yields.bind_of_forall fun _ => rfl
  by_cases hmesh : config.modeIs "mesh".toList = true
  · simp only [hap, hsta, hmesh, if_true, Bool.or_true]
    exact Yields.bind_of_forall fun _ => rfl
  · simp only [hap, hsta, hmesh, Bool.or_false]
    rfl

/-- **A handler returns the state of its row**, and leaves the states of all radios alone. -/
theorem yields_call (h : WifiEventHandler) (sc : WifiSoftc) (slot : Slot) :
    Yields (fun r => r.1.state = sc.state ∧ r.2 = h.target (ctx.config slot))
      (h.call nl ctx sc slot) := by
  cases h with
  | init =>
    intro _
    refine (yields_wifiDebugfsInit sc slot).bind fun debugfs hdebugfs => ?_
    unfold WifiEventHandler.target
    cases ctx.config slot with
    | none => exact fun e => e.elim
    | some config =>
      refine ((yields_setUpMode nl ctx debugfs.1 slot config).and
        (yields_setUpMode_target nl ctx debugfs.1 slot config)).mono fun r hr => ?_
      obtain ⟨⟨hkept, -⟩, hr⟩ := hr
      exact ⟨hkept.state.trans hdebugfs.state, hr⟩
  | initStage2 =>
    refine Yields.bind_of_forall fun config => ?_
    split
    · exact Yields.bind_of_forall fun _ => Yields.bind_of_forall fun _ => ⟨rfl, rfl⟩
    · exact ⟨rfl, rfl⟩
  | terminate => exact ⟨rfl, rfl⟩
  | disconnected =>
    exact (yields_wifiHalGetRssi_state nl sc slot).bind fun rssi hrssi =>
      Yields.bind_of_forall fun _ => ⟨hrssi, rfl⟩
  | connected => exact (yields_wifiHalGetRssi_state nl sc slot).bind fun rssi hrssi => ⟨hrssi, rfl⟩

/-! ### Steps -/

/-- What is true of whatever is handled. -/
structure Handled.InOrder (e : Handled) : Prop where
  event_ne : e.event ≠ WifiSystemEvent.noEvent.num
  alive : ∀ i ∈ e.before.radios, e.before.state i ≠ .shutdownState
  event_heard : ∀ text, e.heard = some text → e.event = (wifiHalMapWpaEventToState text).num
  handler_eq : e.handler = handlerFor (e.before.state e.radio) e.event
  unmatched : e.handler = none → e.after = e.before
  called : ∀ h, e.handler = some h → ∃ r, After (h.call nl ctx e.before e.radio) e.dialogue (ret r) ∧
    e.after = { r.1 with state := Function.update r.1.state e.radio r.2 }

/-- An event that is picked is handled only if it is one, and all radios are alive. -/
theorem action_eq_handle {s : WifiEvents} {slot : Slot} {o : Option WifiEventHandler}
    (h : s.action slot = .handle o) : s.eNewEvent slot ≠ WifiSystemEvent.noEvent.num ∧
      (∀ i ∈ s.sc.radios, s.sc.state i ≠ .shutdownState) ∧ s.handler slot = o := by
  unfold WifiEvents.action at h
  split at h
  · exact absurd h (by simp)
  rename_i hevent
  split at h
  · exact absurd h (by simp)
  rename_i halive
  exact ⟨hevent, fun i hi hdown => halive ⟨i, hi, hdown⟩, Action.handle.inj h⟩

/-- And then it is, by the handler for the state and the event. -/
theorem action_of_alive {s : WifiEvents} {slot : Slot} {state : WifiState} {event : ℤ}
    (hstate : s.sc.state slot = state) (heq : s.eNewEvent slot = event)
    (hevent : event ≠ WifiSystemEvent.noEvent.num)
    (halive : ∀ i ∈ s.sc.radios, s.sc.state i ≠ .shutdownState) :
    s.action slot = .handle (handlerFor state event) := by
  subst hstate heq
  unfold WifiEvents.action
  rw [if_neg hevent, if_neg fun ⟨i, hi, hdown⟩ => halive i hi hdown]
  rfl

theorem NextEvent.event_heard {s s₁ : WifiEvents} {heard : Option Text} {slot : Slot}
    (h : NextEvent s heard s₁) (hslot : (slot.val : ℤ) = s₁.index) (text : Text)
    (htext : heard = some text) :
    s₁.eNewEvent slot = (wifiHalMapWpaEventToState text).num := by
  cases h with
  | startup => exact absurd htext (by simp)
  | @waited t event slot' _ _ hslot' =>
    obtain rfl := Option.some.inj htext
    obtain rfl : slot = slot' := Fin.ext (Int.ofNat.inj hslot)
    exact Function.update_self _ _ _

variable {nl ctx}

/-- **What a round handles is in order**, and stands between the softcs before and after it. -/
theorem LoopStep.inOrder {s s' : WifiEvents} {e : Handled} (h : LoopStep nl ctx s (some e) s') :
    e.before = s.sc ∧ e.after = s'.sc ∧ e.InOrder nl ctx := by
  cases h with
  | @unmatched heard s₁ slot hnext hslot haction =>
    obtain ⟨hevent, halive, hhandler⟩ := action_eq_handle haction
    refine ⟨hnext.sc_eq, rfl, hevent, halive, hnext.event_heard hslot, hhandler.symm, fun _ => rfl,
      ?_⟩
    intro h hh
    exact absurd hh (by simp)
  | @called heard s₁ slot h t r hnext hslot haction hcall =>
    obtain ⟨hevent, halive, hhandler⟩ := action_eq_handle haction
    refine ⟨hnext.sc_eq, rfl, hevent, halive, hnext.event_heard hslot, hhandler.symm, ?_, ?_⟩
    · intro hnone
      exact absurd hnone (by simp)
    · intro h' hh'
      obtain rfl := Option.some.inj hh'
      exact ⟨r, hcall, rfl⟩

/-- A round that handles nothing leaves the softc alone. -/
theorem LoopStep.sc_eq {s s' : WifiEvents} (h : LoopStep nl ctx s none s') : s'.sc = s.sc := by
  cases h with
  | started => rfl
  | ignored hnext => exact hnext.sc_eq

/-- **What is handled takes its radio along its machine**, and no other radio anywhere.  So the
machine of a radio can be looked at by itself. -/
theorem Handled.InOrder.state {e : Handled} (h : e.InOrder nl ctx) :
    e.after.state = Function.update e.before.state e.radio
      (transition (ctx.config e.radio) (e.before.state e.radio) e.event) := by
  unfold transition
  rw [← h.handler_eq]
  cases hhandler : e.handler with
  | none =>
    rw [h.unmatched hhandler]
    exact (Function.update_eq_self _ _).symm
  | some handler =>
    obtain ⟨r, hcall, hafter⟩ := h.called handler hhandler
    obtain ⟨hstate, htarget⟩ := (yields_call nl ctx handler e.before e.radio).of_after hcall
    rw [hafter, hstate, htarget]
    rfl

/-! ### Runs there are -/

variable (nl ctx)

/-- The loop has gone on from `s` by starting a radio. -/
structure StartedFrom (s : WifiEvents) (slot : Slot) (e : Handled) (s' : WifiEvents) : Prop where
  radio : e.radio = slot
  handler : e.handler = some .init
  event : e.event = WifiSystemEvent.startupEvent.num
  stateMachine : s'.stateMachine = .initState
  index : s'.index = slot.val
  eNewEvent : s'.eNewEvent = s.eNewEvent
  tables : SameTables s.sc s'.sc
  state : s'.sc.state =
    Function.update s.sc.state slot (WifiEventHandler.target (ctx.config slot) .init)

/-- A radio that is picked at startup can be started. -/
theorem exists_startStep {s : WifiEvents} {slot : Slot} (hinit : s.stateMachine = .initState)
    (hslot : (slot.val : ℤ) = s.index + 1) (hstate : s.sc.state slot = .initState)
    (hevent : s.eNewEvent slot = WifiSystemEvent.startupEvent.num)
    (halive : ∀ i ∈ s.sc.radios, s.sc.state i ≠ .shutdownState)
    (hconfig : ctx.config slot ≠ none) (hctrl : (s.sc.wpaCtx slot).ctrl ≠ none) :
    ∃ e s', LoopStep nl ctx s (some e) s' ∧ StartedFrom ctx s slot e s' := by
  have hnext : NextEvent s none { s with index := slot.val } := .startup hinit hslot hstate
  have haction : WifiEvents.action { s with index := slot.val } slot = .handle (some .init) :=
    action_of_alive hstate hevent (by decide) halive
  obtain ⟨t, r, hrun, ⟨hkept, -⟩, hstates, htarget⟩ :=
    (canReturn_initHandler nl ctx hconfig fun _ => hctrl).exists_after
      ((yields_initHandler nl ctx s.sc slot).and (yields_call nl ctx .init s.sc slot))
  refine ⟨_, _, .called hnext rfl haction hrun, rfl, rfl, hevent, hinit, rfl, rfl, ?_, ?_⟩
  · exact ⟨hkept.ifindex, hkept.ifname, hkept.phyname, hkept.radioAmount, hkept.ctrl,
      hkept.monitor⟩
  · show Function.update r.1.state slot r.2 = _
    rw [hstates, htarget]

/-- Behind the last slot there is no radio to start. -/
theorem started_of_last {s : WifiEvents} (hinit : s.stateMachine = .initState)
    (hlast : s.index + 1 = wifiRadioMax) :
    LoopStep nl ctx s none { s with stateMachine := .ifUpState } := by
  have hload : After (loadState s.sc (s.index + 1)) [⟨.usesIndex (s.index + 1), ()⟩]
      (ret (s.sc.radioAmount : ℤ)) := after_loadState_iff.mpr ⟨rfl, Or.inl ⟨hlast, rfl⟩⟩
  have hnot : ¬ ((s.sc.radioAmount : ℤ) = WifiState.initState.num) := by
    simp only [WifiState.num]
    omega
  refine .started (t := [⟨.usesIndex (s.index + 1), ()⟩] ++ []) ?_
  unfold nextEvent
  rw [if_neg (not_not.mpr hinit)]
  refine after_bind_iff.mpr ⟨_, _, _, rfl, hload, ?_⟩
  rw [if_neg hnot]
  exact .start _

/-- What the loop starts with: all radios are in their first state, and told to start. -/
theorem yields_wifiEventsStart_eq (sc : WifiSoftc) :
    Yields (fun s => s.stateMachine = .initState ∧ s.index = -1 ∧
      s.sc = { sc with
        state := fun i => if i.val < sc.radioAmount then .initState else sc.state i } ∧
      ∀ i : Slot, i.val < sc.radioAmount → s.eNewEvent i = WifiSystemEvent.startupEvent.num)
      (wifiEventsStart sc) := by
  refine Yields.bind_of_forall fun _ first second => ?_
  exact ⟨rfl, rfl, rfl, fun i hi => if_pos hi⟩

theorem zero_or_one : ∀ i : Slot, i = 0 ∨ i = 1 := by decide

theorem target_init_ne (config : Option WifiConfig) :
    WifiEventHandler.target config .init ≠ .shutdownState := by
  unfold WifiEventHandler.target
  dsimp only
  split <;> simp

/-- All radios have been started, one after another, and nothing has been heard yet. -/
structure AllStarted (sc : WifiSoftc) (log : List Handled) (s : WifiEvents) : Prop where
  run : LoopRun nl ctx sc log s
  stateMachine : s.stateMachine = .ifUpState
  tables : SameTables sc s.sc
  state : ∀ i, s.sc.state i = WifiEventHandler.target (ctx.config i) .init
  started : ∀ i, ∃ e ∈ log, e.radio = i ∧ e.handler = some .init
  event : ∀ e ∈ log, e.event = WifiSystemEvent.startupEvent.num

/-- With all radios there, configured and connected, all of them can be started. -/
theorem exists_allStarted (sc : WifiSoftc) (hamount : sc.radioAmount = wifiRadioMax)
    (hconfig : ∀ i, ctx.config i ≠ none) (hctrl : ∀ i, (sc.wpaCtx i).ctrl ≠ none) :
    ∃ log s, AllStarted nl ctx sc log s := by
  have hall : ∀ i : Slot, i.val < sc.radioAmount := fun i => by
    rw [hamount]
    exact i.isLt
  obtain ⟨t, s₀, hstart, hinit₀, hindex₀, hsc₀, hevents₀⟩ :=
    (canReturn_wifiEventsStart sc).exists_after (yields_wifiEventsStart_eq sc)
  have hstate₀ : ∀ i, s₀.sc.state i = .initState := fun i => by
    rw [hsc₀]
    exact if_pos (hall i)
  have htables₀ : SameTables sc s₀.sc := by
    rw [hsc₀]
    exact ⟨rfl, rfl, rfl, rfl, fun _ => rfl, fun _ => rfl⟩
  have hslot₀ : ((0 : Slot).val : ℤ) = s₀.index + 1 := by
    rw [hindex₀]
    rfl
  -- the first radio
  obtain ⟨e₀, s₁, hstep₀, h₀⟩ := exists_startStep nl ctx hinit₀ hslot₀ (hstate₀ 0)
    (hevents₀ 0 (hall 0)) (fun i _ => by simp [hstate₀ i]) (hconfig 0)
    (by rw [htables₀.ctrl 0]; exact hctrl 0)
  have htables₁ := htables₀.trans h₀.tables
  have hstate₁ : s₁.sc.state 1 = .initState := by
    rw [h₀.state]
    exact hstate₀ 1
  have halive₁ : ∀ i ∈ s₁.sc.radios, s₁.sc.state i ≠ .shutdownState := by
    intro i _
    rw [h₀.state, Function.update_apply]
    split
    · exact target_init_ne _
    · simp [hstate₀ i]
  have hslot₁ : ((1 : Slot).val : ℤ) = s₁.index + 1 := by
    rw [h₀.index]
    rfl
  -- the second one
  obtain ⟨e₁, s₂, hstep₁, h₁⟩ := exists_startStep nl ctx h₀.stateMachine hslot₁ hstate₁
    (by rw [h₀.eNewEvent]; exact hevents₀ 1 (hall 1)) halive₁ (hconfig 1)
    (by rw [htables₁.ctrl 1]; exact hctrl 1)
  have hlast : s₂.index + 1 = wifiRadioMax := by
    rw [h₁.index]
    rfl
  have htrace := ((Trace.single hstep₀).snoc hstep₁).snoc
    (started_of_last nl ctx h₁.stateMachine hlast)
  refine ⟨_, _, ⟨t, s₀, hstart, htrace⟩, rfl, htables₁.trans h₁.tables, ?_, ?_, ?_⟩
  · intro i
    show s₂.sc.state i = _
    rw [h₁.state, h₀.state]
    rcases zero_or_one i with rfl | rfl <;> rfl
  · intro i
    rcases zero_or_one i with rfl | rfl
    · exact ⟨e₀, by simp, h₀.radio, h₀.handler⟩
    · exact ⟨e₁, by simp, h₁.radio, h₁.handler⟩
  · simp [h₀.event, h₁.event]

/-- A text that is received as it is: without a tag or a terminator, and not too long. -/
structure Untagged (text : Text) : Prop where
  ne_nil : text ≠ []
  untagged : text.head? ≠ some '<'
  nul_notMem : NUL ∉ text
  length_le : text.length ≤ eventBufLen - 1

/-- What the first radio hears is its next event. -/
theorem nextEvent_heard {s : WifiEvents} (hstarted : s.stateMachine ≠ .initState)
    (hopen : ∀ i, (s.sc.wpaCtx i).ctrl ≠ none ∧ (s.sc.wpaCtx i).monitor ≠ none)
    (hamount : 0 < s.sc.radioAmount) {text : Text} (htext : Untagged text) :
    NextEvent s (some text) (s.hear 0 (wifiHalMapWpaEventToState text).num) := by
  obtain ⟨m₀, hm₀⟩ := Option.ne_none_iff_exists'.mp (hopen 0).2
  have hradios : ∃ rest, s.sc.radios = 0 :: rest := by
    unfold WifiSoftc.radios
    rw [show List.finRange wifiRadioMax = [0, 1] from rfl, List.filter_cons_of_pos (by simpa)]
    exact ⟨_, rfl⟩
  obtain ⟨rest, hradios⟩ := hradios
  have htake : text.take (eventBufLen - 1) = text := List.take_of_length_le htext.length_le
  have hend : tagEnd text = none := if_neg htext.untagged
  have hreceived : eventOfRecv eventBufLen ⟨0, 0, text⟩ = ret ⟨0, text, text.length - 0⟩ := by
    unfold eventOfRecv tagOverflows eventText
    simp [htext.ne_nil, hend, cstr_eq_self htext.nul_notMem]
  have hrun : After (wifiHalWaitOnEvent s.sc s.index eventBufLen)
      [⟨.callsWaitOnEvent, ()⟩, ⟨.poll s.sc.radioAmount, some ⟨false, fun _ => true⟩⟩,
        ⟨.wpaPending m₀, true⟩, ⟨.wpaRecv m₀, some text⟩]
      (ret ⟨0, text, text.length - 0⟩) := by
    rw [wifiHalWaitOnEvent_of_open hopen, hradios]
    refine .reply _ (.reply _ ?_)
    rw [if_neg (by simp)]
    unfold monitorLoop
    rw [hm₀]
    refine .reply _ (.reply _ ?_)
    show After (eventOfRecv eventBufLen ⟨0, 0, text.take (eventBufLen - 1)⟩) [] _
    rw [htake, hreceived]
    exact .start _
  exact .waited hstarted hrun rfl

/-- The second stage of a radio comes back with the softc it was given. -/
theorem exists_after_initStage2Handler (sc : WifiSoftc) {slot : Slot}
    (hconfig : ctx.config slot ≠ none) :
    ∃ t, After (initStage2Handler nl ctx sc slot) t (ret (sc, .ifUpState)) := by
  obtain ⟨config, hconfig⟩ := Option.ne_none_iff_exists'.mp hconfig
  unfold initStage2Handler
  rw [hconfig, WifiM.deref_some, ret_bind]
  split
  · -- the message to the kernel cannot be allocated, which is only warned about
    exact ⟨[⟨.uninit, 0⟩, ⟨.nlmsgAlloc, false⟩], .reply _ (.reply _ (.start _))⟩
  · exact ⟨[], .start _⟩

section AllStarted

variable {nl ctx} {sc : WifiSoftc} {log : List Handled} {s : WifiEvents}
  (h : AllStarted nl ctx sc log s) (hamount : sc.radioAmount = wifiRadioMax)
  (hopen : ∀ i, (sc.wpaCtx i).ctrl ≠ none ∧ (sc.wpaCtx i).monitor ≠ none)
include h

theorem AllStarted.alive : ∀ i ∈ s.sc.radios, s.sc.state i ≠ .shutdownState := by
  intro i _
  rw [h.state i]
  exact target_init_ne _

include hamount hopen

/-- When all radios are started, the first of them may hear anything next. -/
theorem AllStarted.nextEvent {text : Text} (htext : Untagged text) :
    NextEvent s (some text) (s.hear 0 (wifiHalMapWpaEventToState text).num) := by
  refine nextEvent_heard (by simp [h.stateMachine]) (fun i => ?_) ?_ htext
  · rw [h.tables.ctrl i, h.tables.monitor i]
    exact hopen i
  · rw [h.tables.radioAmount, hamount]
    decide

/-- What it hears and has no row for is handled without a handler. -/
theorem AllStarted.exists_unmatched {text : Text} (htext : Untagged text)
    (hevent : (wifiHalMapWpaEventToState text).num ≠ WifiSystemEvent.noEvent.num)
    (hnone : handlerFor (s.sc.state 0) (wifiHalMapWpaEventToState text).num = none) :
    ∃ e s', LoopRun nl ctx sc (log ++ [e]) s' ∧ e.radio = 0 ∧ e.heard = some text ∧
      e.event = (wifiHalMapWpaEventToState text).num ∧ e.before = s.sc ∧ e.after = s.sc := by
  obtain ⟨t, s₀, hstart, htrace⟩ := h.run
  have haction := action_of_alive rfl (s.hear_eNewEvent 0 _) hevent h.alive
  rw [WifiEvents.hear_sc, hnone] at haction
  have hlast := htrace.snoc (.unmatched (h.nextEvent hamount hopen htext) rfl haction)
  exact ⟨_, _, ⟨t, s₀, hstart, hlast⟩, rfl, rfl, s.hear_eNewEvent 0 _, rfl, rfl⟩

end AllStarted

/-- All radios have been started with a mode there is, and the mesh group of the first one has
started. -/
structure FirstUp (sc : WifiSoftc) (log : List Handled) (e : Handled) (s : WifiEvents) : Prop where
  run : LoopRun nl ctx sc (log ++ [e]) s
  stateMachine : s.stateMachine = .ifUpState
  tables : SameTables sc s.sc
  started : ∀ i, ∃ e ∈ log, e.radio = i ∧ e.handler = some .init
  event : ∀ e ∈ log, e.event = WifiSystemEvent.startupEvent.num
  radio : e.radio = 0
  heard : e.heard = some "MESH-GROUP-STARTED ".toList
  event_up : e.event = WifiSystemEvent.startupStage2Event.num
  state : s.sc.state = Function.update (fun _ => .ifInitStage1) 0 .ifUpState

theorem groupStarted_untagged : Untagged "MESH-GROUP-STARTED ".toList := by
  constructor <;> decide

/-- With all radios there, connected and with a mode there is, the first one can come up. -/
theorem exists_firstUp {sc : WifiSoftc} (hamount : sc.radioAmount = wifiRadioMax)
    (hopen : ∀ i, (sc.wpaCtx i).ctrl ≠ none ∧ (sc.wpaCtx i).monitor ≠ none)
    (hconfig : ∀ i, (ctx.config i).any knownMode = true) :
    ∃ log e s, FirstUp nl ctx sc log e s := by
  have hconfigured : ∀ i, ctx.config i ≠ none := fun i hnone => by
    have := hconfig i
    rw [hnone] at this
    exact absurd this (by simp)
  obtain ⟨log, s, h⟩ := exists_allStarted nl ctx sc hamount hconfigured fun i => (hopen i).1
  obtain ⟨t, s₀, hstart, htrace⟩ := h.run
  have hstage : ∀ i, s.sc.state i = .ifInitStage1 := fun i => by
    rw [h.state i]
    exact if_pos (hconfig i)
  have hnext := h.nextEvent hamount hopen groupStarted_untagged
  obtain ⟨t', hrun⟩ := exists_after_initStage2Handler nl ctx s.sc (hconfigured 0)
  have haction : (s.hear 0 WifiSystemEvent.startupStage2Event.num).action 0 =
      .handle (handlerFor .ifInitStage1 WifiSystemEvent.startupStage2Event.num) :=
    action_of_alive (hstage 0) (s.hear_eNewEvent _ _) (by decide) h.alive
  refine ⟨log, _, _, ⟨t, s₀, hstart, htrace.snoc (.called hnext rfl haction hrun)⟩, h.stateMachine,
    ⟨h.tables.ifindex, h.tables.ifname, h.tables.phyname, h.tables.radioAmount, h.tables.ctrl,
      h.tables.monitor⟩, h.started, h.event, rfl, rfl,
    s.hear_eNewEvent 0 _, ?_⟩
  show Function.update s.sc.state 0 .ifUpState = _
  rw [funext hstage]

variable {nl ctx}

/-! ### Terminations -/

/-- A termination is handled for one of the radios. -/
def Handled.Terminates (e : Handled) : Prop :=
  e.event = WifiSystemEvent.terminateEvent.num ∧ e.radio.val < e.before.radioAmount

/-- **What a termination should do**: its radio is shut down, no handler is called for what is
handled behind it, and no round that may follow calls one. -/
structure ShutsDown (s : WifiEvents) (e : Handled) (later : List Handled) : Prop where
  shutdown : e.after.state e.radio = .shutdownState
  silent : ∀ e' ∈ later, e'.handler = none
  final : ∀ slot h, ¬ Invokes s slot h

/-- Every termination in the log of a run that has come to `s` does so. -/
def TerminationsShutDown (log : List Handled) (s : WifiEvents) : Prop :=
  ∀ earlier e later, log = earlier ++ e :: later → e.Terminates → ShutsDown s e later

theorem transition_terminate_iff {config : Option WifiConfig} {state : WifiState}
    (halive : state ≠ .shutdownState) :
    transition config state WifiSystemEvent.terminateEvent.num = .shutdownState ↔
      state = .ifUpState := by
  cases state <;> simp_all [transition, handlerFor, findHandler, wifiAsStateMachine,
    WifiState.num, WifiSystemEvent.num, WifiEventHandler.target]

/-- Once a radio has been shut down, no round calls a handler. -/
theorem not_invokes_of_shutdown {s : WifiEvents}
    (h : ∃ i ∈ s.sc.radios, s.sc.state i = .shutdownState) (slot : Slot)
    (handler : WifiEventHandler) : ¬ Invokes s slot handler := by
  obtain ⟨i, hi, hshutdown⟩ := h
  rintro ⟨heard, s₁, hnext, hslot, haction⟩
  obtain ⟨-, halive, -⟩ := action_eq_handle haction
  rw [hnext.sc_eq] at halive
  exact halive i hi hshutdown

/-- Nor is anything handled in the rounds that follow. -/
theorem silent_of_shutdown {s s' : WifiEvents} {log : List Handled}
    (h : ∃ i ∈ s.sc.radios, s.sc.state i = .shutdownState)
    (hrun : Trace (LoopStep nl ctx) s log s') : log = [] ∧ s'.sc = s.sc := by
  induction hrun with
  | refl => exact ⟨rfl, rfl⟩
  | @snoc log s₁ s₂ label _ hstep ih =>
    obtain ⟨rfl, hsc⟩ := ih
    cases label with
    | none => exact ⟨rfl, hstep.sc_eq.trans hsc⟩
    | some e =>
      obtain ⟨i, hi, hshutdown⟩ := h
      obtain ⟨hbefore, -, hordered⟩ := hstep.inOrder
      rw [← hsc, ← hbefore] at hi hshutdown
      exact absurd hshutdown (hordered.alive i hi)

/-- A termination in `IF_UP_STATE` leaves a radio that has been shut down. -/
theorem exists_shutdown {e : Handled} (h : e.InOrder nl ctx) (hterm : e.Terminates)
    (hup : e.before.state e.radio = .ifUpState) :
    e.radio ∈ e.after.radios ∧ e.after.state e.radio = .shutdownState := by
  have hhandler : e.handler = some .terminate := by
    rw [h.handler_eq, hup, hterm.1]
    decide
  obtain ⟨r, hcall, hafter⟩ := h.called _ hhandler
  obtain ⟨-, rfl⟩ := after_ret_iff.mp hcall
  rw [hafter]
  exact ⟨by simpa [WifiSoftc.radios] using hterm.2, Function.update_self _ _ _⟩

/-- **Terminations end the handling of events exactly where all of them are handled in
`IF_UP_STATE`.** This is the only state with a row for a termination; anywhere else the event is
passed over, and the next one is handled. -/
theorem terminations_shut_down_iff {sc : WifiSoftc} {log : List Handled} {s : WifiEvents}
    (hrun : LoopRun nl ctx sc log s) : TerminationsShutDown log s ↔
      ∀ e ∈ log, e.Terminates → e.before.state e.radio = .ifUpState := by
  obtain ⟨t, s₀, -, htrace⟩ := hrun
  constructor
  · intro h e he hterm
    obtain ⟨earlier, later, rfl⟩ := List.append_of_mem he
    obtain ⟨s₁, s₂, -, hstep, -⟩ := htrace.exists_step
    obtain ⟨-, -, hordered⟩ := hstep.inOrder
    have hshutdown := (h earlier e later rfl hterm).shutdown
    rw [hordered.state, Function.update_self, hterm.1] at hshutdown
    have halive : e.before.state e.radio ≠ .shutdownState :=
      hordered.alive _ (by simpa [WifiSoftc.radios] using hterm.2)
    exact (transition_terminate_iff halive).mp hshutdown
  · intro h earlier e later hlog hterm
    subst hlog
    have hup := h e (by simp) hterm
    obtain ⟨s₁, s₂, -, hstep, hrest⟩ := htrace.exists_step
    obtain ⟨hbefore, hafter, hordered⟩ := hstep.inOrder
    obtain ⟨hmem, hshutdown⟩ := exists_shutdown hordered hterm hup
    have hdown : ∃ i ∈ s₂.sc.radios, s₂.sc.state i = .shutdownState :=
      ⟨e.radio, hafter ▸ hmem, hafter ▸ hshutdown⟩
    -- nothing is handled behind the termination, so the run ends with the softc it left
    obtain ⟨rfl, hsc⟩ := silent_of_shutdown hdown hrest
    exact ⟨hshutdown, fun e' he' => absurd he' List.not_mem_nil,
      not_invokes_of_shutdown (hsc ▸ hdown)⟩

end Machine

/-- A configuration of the given mode for each radio. -/
def allInMode (mode : Text) : WifiContext :=
  ⟨fun _ => some { WifiConfig.zero with mode := CharArray.strncpy 5 mode }⟩

theorem terminating_untagged : Untagged wpaEventTerminating := by
  constructor <;> decide

/-- A mesh radio whose group has started is shut down by a termination, and the loop with it. -/
theorem up_radio_shut_down : ∃ log s, LoopRun .standard (allInMode "mesh".toList) openSoftc log s ∧
    (∃ e ∈ log, e.Terminates) ∧ TerminationsShutDown log s := by
  obtain ⟨log, e, s, h⟩ :=
    exists_firstUp .standard (allInMode "mesh".toList) rfl openSoftc_open fun _ => rfl
  obtain ⟨t, s₀, hstart, htrace⟩ := h.run
  have hamount : s.sc.radioAmount = 2 := h.tables.radioAmount
  have hopen : ∀ i, (s.sc.wpaCtx i).ctrl ≠ none ∧ (s.sc.wpaCtx i).monitor ≠ none := fun i => by
    rw [h.tables.ctrl i, h.tables.monitor i]
    exact openSoftc_open i
  have hnext := nextEvent_heard (by simp [h.stateMachine]) hopen (by omega) terminating_untagged
  have hup : s.sc.state 0 = .ifUpState := by rw [h.state]; rfl
  have halive : ∀ i ∈ s.sc.radios, s.sc.state i ≠ .shutdownState := by
    intro i _
    rw [h.state]
    rcases zero_or_one i with rfl | rfl <;> decide
  have haction : (s.hear 0 WifiSystemEvent.terminateEvent.num).action 0 =
      .handle (handlerFor .ifUpState WifiSystemEvent.terminateEvent.num) :=
    action_of_alive hup (s.hear_eNewEvent 0 _) (by decide) halive
  have hrun : LoopRun .standard (allInMode "mesh".toList) openSoftc _ _ :=
    ⟨t, s₀, hstart, htrace.snoc (.called hnext rfl haction (.start _))⟩
  refine ⟨_, _, hrun, ⟨_, List.mem_append_right _ List.mem_cons_self, rfl, ?_⟩,
    (terminations_shut_down_iff hrun).mpr ?_⟩
  · show 0 < s.sc.radioAmount
    omega
  · intro e' he' hterm
    rcases List.mem_append.mp he' with he' | he'
    · -- what came before were no terminations
      have hno : e'.event ≠ WifiSystemEvent.terminateEvent.num := by
        rcases List.mem_append.mp he' with he' | he'
        · rw [h.event e' he']
          decide
        · rw [List.mem_singleton.mp he', h.event_up]
          decide
      exact absurd hterm.1 hno
    · rw [List.mem_singleton.mp he']
      exact hup

/-- Access points that have been started wait in their first stage. -/
theorem exists_accessPointsStarted : ∃ log s,
    AllStarted .standard (allInMode "ap".toList) openSoftc log s ∧
      s.sc.state 0 = .ifInitStage1 := by
  obtain ⟨log, s, h⟩ := exists_allStarted .standard (allInMode "ap".toList) openSoftc rfl
    (fun _ => Option.some_ne_none _) fun i => (openSoftc_open i).1
  exact ⟨log, s, h, h.state 0⟩

/-- Not every termination shuts the loop down: it has no row in the first stage. -/
theorem not_all_terminations_shut_down : ¬ ∀ (nl : Netlink.Libnl NlAttrs) (ctx : WifiContext)
    (sc : WifiSoftc) (log : List Handled) (s : WifiEvents), LoopRun nl ctx sc log s →
    TerminationsShutDown log s := by
  intro hall
  obtain ⟨log, s, h, hstage⟩ := exists_accessPointsStarted
  have hradios : 0 < s.sc.radioAmount := by
    rw [h.tables.radioAmount]
    decide
  obtain ⟨e, s', hrun, hradio, -, hevent, hbefore, hafter⟩ := h.exists_unmatched rfl openSoftc_open
    terminating_untagged (by decide) (by rw [hstage]; decide)
  have hterm : e.Terminates := ⟨hevent, by rw [hradio, hbefore]; exact hradios⟩
  have hshutdown := (hall _ _ _ _ _ hrun log e [] rfl hterm).shutdown
  rw [hradio, hafter, hstage] at hshutdown
  exact absurd hshutdown (by decide)

end RadioHal.Wifi
