import RadioHal.Wifi.Connectivity
import RadioHal.Wifi.Outcomes

/-!
# Radios that are recorded as brought up

`init_handler` takes a radio to its first stage whatever the call that sets it up returns.  So the
recorded state says that a radio has been set up exactly where all the calls went well.

## Main definitions

* `Handled.SetUpReturned` — what the call made by `init_handler` returned.
* `UpOnlyIfSetUp` — a radio is recorded as brought up only if its call returned zero.

## Main results

* `exists_init_of_up` — a radio that is recorded as brought up has been started by `init_handler`.
* `up_only_if_set_up_iff` — **along a run radios are recorded as brought up only if they are,
  exactly if the answers to every call pass their tests.**
-/

namespace RadioHal.Wifi

open CLib Dialogue

section BroughtUp

variable (nl : Netlink.Libnl NlAttrs) (ctx : WifiContext)

/-! ### The call -/

/-- The call that `init_handler` made to set its radio up returned `v`. -/
def Handled.SetUpReturned (e : Handled) (v : ℤ) : Prop :=
  ∃ t₁ debugfs config t₂, e.dialogue = ⟨.callsInitHandler e.radio, ()⟩ :: (t₁ ++ t₂) ∧
    After (wifiDebugfsInit e.before e.radio) t₁ (ret debugfs) ∧
    ctx.config e.radio = some config ∧
    After (setUpCall nl ctx debugfs.1 e.radio config) t₂ (ret (some v))

/-- A radio is recorded as brought up only if `init_handler` has been called for it and the call it
made returned zero. -/
def UpOnlyIfSetUp (amount : ℕ) (log : List Handled) (s : WifiEvents) : Prop :=
  ∀ i : Slot, i.val < amount → s.sc.state i = .ifInitStage1 ∨ s.sc.state i = .ifUpState →
    ∃ e ∈ log, e.radio = i ∧ e.handler = some .init ∧ e.SetUpReturned nl ctx 0

variable {nl ctx}

/-- The dialogue that sets a mode up is that of the call. -/
theorem after_setUpMode {sc : WifiSoftc} {slot : Slot} {config : WifiConfig} {t : WifiTranscript}
    {r : WifiSoftc × WifiState} (hmode : knownMode config = true)
    (hrun : After (setUpMode nl ctx sc slot config) t (ret r)) :
    ∃ v, After (setUpCall nl ctx sc slot config) t (ret (some v)) := by
  unfold setUpMode at hrun
  unfold setUpCall
  by_cases hap : config.modeIs "ap".toList = true
  · rw [if_pos hap] at hrun ⊢
    obtain ⟨t₁, v, t₂, rfl, hcall, hret⟩ := after_bind_iff.mp hrun
    obtain ⟨rfl, -⟩ := after_ret_iff.mp hret
    exact ⟨v, after_bind_iff.mpr ⟨t₁, v, [], rfl, hcall, .start _⟩⟩
  rw [if_neg hap] at hrun ⊢
  by_cases hsta : config.modeIs "sta".toList = true
  · rw [if_pos hsta] at hrun ⊢
    obtain ⟨t₁, v, t₂, rfl, hcall, hret⟩ := after_bind_iff.mp hrun
    obtain ⟨rfl, -⟩ := after_ret_iff.mp hret
    exact ⟨v, after_bind_iff.mpr ⟨t₁, v, [], rfl, hcall, .start _⟩⟩
  rw [if_neg hsta] at hrun ⊢
  by_cases hmesh : config.modeIs "mesh".toList = true
  · rw [if_pos hmesh] at hrun ⊢
    obtain ⟨t₁, joined, t₂, rfl, hcall, hret⟩ := after_bind_iff.mp hrun
    obtain ⟨rfl, -⟩ := after_ret_iff.mp hret
    exact ⟨joined.2, after_bind_iff.mpr ⟨t₁, joined, [], rfl, hcall, .start _⟩⟩
  · rw [Bool.not_eq_true] at hap hsta hmesh
    unfold knownMode at hmode
    rw [hap, hsta, hmesh] at hmode
    exact absurd hmode (by decide)

/-- `init_handler` makes a call for every mode it knows. -/
theorem exists_setUpReturned {e : Handled} (he : e.InOrder nl ctx)
    (hinit : e.handler = some .init) {config : WifiConfig}
    (hconfig : ctx.config e.radio = some config) (hmode : knownMode config = true) :
    ∃ v, e.SetUpReturned nl ctx v := by
  obtain ⟨r, hcall, -⟩ := he.called _ hinit
  obtain ⟨u, t, ht, hrun⟩ := after_ask_iff.mp hcall
  have hrun₁ : After (wifiDebugfsInit e.before e.radio >>= fun debugfs =>
      WifiM.deref (ctx.config e.radio) >>= setUpMode nl ctx debugfs.1 e.radio) t (ret r) := hrun
  obtain ⟨t₁, debugfs, t₂, rfl, hdebugfs, hrun₂⟩ := after_bind_iff.mp hrun₁
  obtain ⟨t₃, config', t₄, rfl, hderef, hset⟩ := after_bind_iff.mp hrun₂
  obtain ⟨rfl, hconfig'⟩ := after_deref_iff.mp hderef
  obtain rfl : config = config' := Option.some.inj (hconfig.symm.trans hconfig')
  obtain ⟨v, hv⟩ := after_setUpMode hmode hset
  exact ⟨v, t₁, debugfs, config, t₄, ht, hdebugfs, hconfig, hv⟩

/-- What was answered to the call was answered in the dialogue of the handler. -/
theorem setUpReturned_zero_iff {e : Handled} {v : ℤ} (h : e.SetUpReturned nl ctx v)
    {config : WifiConfig} (hconfig : ctx.config e.radio = some config) :
    v = 0 ↔ SetUpAccepted e.before e.radio config e.dialogue := by
  obtain ⟨t₁, debugfs, config', t₂, ht, hdebugfs, hconfig', hcall⟩ := h
  obtain rfl : config = config' := Option.some.inj (hconfig.symm.trans hconfig')
  have hkept := (yields_wifiDebugfsInit e.before e.radio).of_after hdebugfs
  have hunsent := onlyAsks_unsent (onlyAsks_wifiDebugfsInit e.before e.radio)
  have hanswers : answersOf e.dialogue = answersOf t₂ := by
    rw [ht]
    show (requestsOf (t₁ ++ t₂)).map _ = _
    rw [requestsOf_append, requestsOf_of_unsent hunsent hdebugfs]
    rfl
  -- reading debugfs opens no connection
  have hopened : MeshOpened e.dialogue ↔ MeshOpened t₂ := by
    unfold MeshOpened
    refine exists_congr fun path => exists_congr fun c => ?_
    rw [ht, List.mem_cons, List.mem_append]
    constructor
    · rintro (hfirst | hmem | hmem)
      · simp at hfirst
      · exact (hunsent.of_mem hdebugfs _ hmem).elim
      · exact hmem
    · intro hmem
      exact Or.inr (Or.inr hmem)
  rw [setUpCall_zero_iff hcall]
  unfold SetUpAccepted
  rw [hanswers, hopened, hkept.monitor e.radio]

/-! ### The machine -/

/-- A handler that is looked up has a row for the state. -/
theorem row_of_handlerFor {state : WifiState} {event : ℤ} {h : WifiEventHandler}
    (hfor : handlerFor state event = some h) : ∃ e, (state, e, h) ∈ wifiAsStateMachine := by
  unfold handlerFor at hfor
  split at hfor
  · unfold findHandler at hfor
    obtain ⟨row, hrow, rfl⟩ := Option.map_eq_some_iff.mp hfor
    have hmem := List.mem_of_find?_eq_some hrow
    have hmatch := List.find?_some hrow
    simp only [decide_eq_true_eq] at hmatch
    exact ⟨row.2.1, by rw [← hmatch.2]; exact hmem⟩
  · exact absurd hfor (by simp)

theorem initState_of_init {e : Handled} (he : e.InOrder nl ctx) (hinit : e.handler = some .init) :
    e.before.state e.radio = .initState := by
  rw [he.handler_eq] at hinit
  obtain ⟨event, hrow⟩ := row_of_handlerFor hinit
  generalize e.before.state e.radio = state at hrow
  simp [wifiAsStateMachine] at hrow
  exact hrow.1

/-- No event takes a radio back to its first state. -/
theorem transition_ne_initState {config : Option WifiConfig} {state : WifiState} (event : ℤ)
    (h : state ≠ .initState) : transition config state event ≠ .initState := by
  unfold transition
  cases hfor : handlerFor state event with
  | none => exact h
  | some handler =>
    cases handler with
    | init =>
      exact fun hinit =>
        absurd hinit (by unfold WifiEventHandler.target; simp; split <;> simp)
    | initStage2 => simp [WifiEventHandler.target]
    | terminate => simp [WifiEventHandler.target]
    | disconnected => simp [WifiEventHandler.target]
    | connected => simp [WifiEventHandler.target]

/-- A radio is brought up by `init_handler`, in a mode it knows, and taken on by the second
stage. -/
theorem transition_up {config : Option WifiConfig} {state : WifiState} {event : ℤ}
    (h : transition config state event = .ifInitStage1 ∨
      transition config state event = .ifUpState) :
    (handlerFor state event = some .init ∧ config.any knownMode = true) ∨ state = .ifInitStage1 ∨
      state = .ifUpState := by
  unfold transition at h
  cases hfor : handlerFor state event with
  | none =>
    rw [hfor] at h
    exact Or.inr h
  | some handler =>
    rw [hfor] at h
    obtain ⟨event', hrow⟩ := row_of_handlerFor hfor
    cases handler with
    | init =>
      left
      refine ⟨rfl, ?_⟩
      by_contra hnot
      simp [WifiEventHandler.target, hnot] at h
    | initStage2 =>
      right
      left
      simp [wifiAsStateMachine] at hrow
      exact hrow.1
    | terminate => simp [WifiEventHandler.target] at h
    | disconnected => simp [WifiEventHandler.target] at h
    | connected => simp [WifiEventHandler.target] at h

/-! ### Runs -/

/-- **A radio that is recorded as brought up has been started by `init_handler`**, in a mode it
knows. -/
theorem exists_init_of_up {s₀ s : WifiEvents} {log : List Handled} {i : Slot}
    (hrun : Trace (LoopStep nl ctx) s₀ log s) (hfirst : s₀.sc.state i = .initState)
    (hup : s.sc.state i = .ifInitStage1 ∨ s.sc.state i = .ifUpState) :
    ∃ e ∈ log, e.radio = i ∧ e.handler = some .init ∧ e.InOrder nl ctx ∧
      (ctx.config i).any knownMode = true := by
  induction hrun with
  | refl =>
    rw [hfirst] at hup
    exact absurd hup (by decide)
  | @snoc log s₁ s₂ label _ hstep ih =>
    -- what an earlier round has done stays in the log
    have hearlier : (s₁.sc.state i = .ifInitStage1 ∨ s₁.sc.state i = .ifUpState) →
        ∃ e ∈ log ++ label.toList, e.radio = i ∧ e.handler = some .init ∧ e.InOrder nl ctx ∧
          (ctx.config i).any knownMode = true := fun h =>
      let ⟨e, he, hrest⟩ := ih h
      ⟨e, List.mem_append_left _ he, hrest⟩
    cases label with
    | none =>
      rw [hstep.sc_eq] at hup
      exact hearlier hup
    | some e =>
      obtain ⟨hbefore, hafter, hordered⟩ := hstep.inOrder
      rw [← hafter, hordered.state] at hup
      rw [← hbefore] at hearlier
      by_cases hi : i = e.radio
      · subst hi
        rw [Function.update_self] at hup
        rcases transition_up hup with ⟨hhandler, hmode⟩ | hstill
        · exact ⟨e, List.mem_append_right _ List.mem_cons_self, rfl,
            hordered.handler_eq.trans hhandler, hordered, hmode⟩
        · exact hearlier hstill
      · rw [Function.update_of_ne hi] at hup
        exact hearlier hup

/-- A radio that has been started is not in its first state any more. -/
theorem not_initState_of_mem {s₀ s : WifiEvents} {log : List Handled} {e : Handled}
    (hrun : Trace (LoopStep nl ctx) s₀ log s) (he : e ∈ log) (hinit : e.handler = some .init) :
    s.sc.state e.radio ≠ .initState := by
  induction hrun with
  | refl => exact absurd he List.not_mem_nil
  | @snoc log s₁ s₂ label _ hstep ih =>
    cases label with
    | none =>
      rw [hstep.sc_eq]
      exact ih (by simpa using he)
    | some e' =>
      obtain ⟨hbefore, hafter, hordered⟩ := hstep.inOrder
      rw [← hafter, hordered.state]
      by_cases hradio : e.radio = e'.radio
      · rw [hradio, Function.update_self]
        rcases List.mem_append.mp he with hmem | hmem
        · apply transition_ne_initState
          rw [← hradio, hbefore]
          exact ih hmem
        · obtain rfl := List.mem_singleton.mp hmem
          unfold transition
          rw [← hordered.handler_eq, hinit]
          unfold Option.elim WifiEventHandler.target
          dsimp only
          split <;> simp
      · rw [Function.update_of_ne hradio, hbefore]
        rcases List.mem_append.mp he with hmem | hmem
        · exact ih hmem
        · exact absurd (List.mem_singleton.mp hmem ▸ rfl) hradio

/-- **Along a run radios are recorded as brought up only if they are, exactly if the answers to
every call pass their tests.** The tests are those that the calls make themselves; `init_handler`
records the state without looking at what they came to. -/
theorem up_only_if_set_up_iff {sc : WifiSoftc} {log : List Handled} {s : WifiEvents}
    (hrun : LoopRun nl ctx sc log s) :
    (∀ log₁ s₁ log₂, LoopRun nl ctx sc log₁ s₁ → Trace (LoopStep nl ctx) s₁ log₂ s →
      log = log₁ ++ log₂ → UpOnlyIfSetUp nl ctx sc.radioAmount log₁ s₁) ↔
    ∀ e ∈ log, e.handler = some .init → e.radio.val < sc.radioAmount →
      ∀ config, ctx.config e.radio = some config → knownMode config = true →
        SetUpAccepted e.before e.radio config e.dialogue := by
  constructor
  · intro h e he hinit hlt config hconfig hmode
    obtain ⟨t, s₀, hstart, htrace⟩ := hrun
    obtain ⟨earlier, later, rfl⟩ := List.append_of_mem he
    obtain ⟨s₁, s₂, hbefore, hstep, hrest⟩ := htrace.exists_step
    have hfirst := hbefore.snoc hstep
    obtain ⟨hsc, hafter, hordered⟩ := hstep.inOrder
    have hstate : s₂.sc.state e.radio = .ifInitStage1 := by
      rw [← hafter, hordered.state, Function.update_self]
      unfold transition
      rw [← hordered.handler_eq, hinit, hconfig]
      exact if_pos hmode
    obtain ⟨e', hmem, hradio, hinit', hreturned⟩ := h _ s₂ later ⟨t, s₀, hstart, hfirst⟩ hrest
      (by simp) e.radio hlt (Or.inl hstate)
    -- a radio is started only once
    rcases List.mem_append.mp hmem with hmem | hmem
    · have hnot := not_initState_of_mem hbefore hmem hinit'
      rw [hradio, ← hsc] at hnot
      exact absurd (initState_of_init hordered hinit) hnot
    · obtain rfl := List.mem_singleton.mp hmem
      exact (setUpReturned_zero_iff hreturned hconfig).mp rfl
  · rintro h log₁ s₁ log₂ ⟨t, s₀, hstart, htrace⟩ - rfl i hlt hup
    have hfirst : s₀.sc.state i = .initState := by
      obtain ⟨-, -, hsc, -⟩ := (yields_wifiEventsStart_eq sc).of_after hstart
      rw [hsc]
      exact if_pos hlt
    obtain ⟨e, hmem, rfl, hinit, hordered, hmode⟩ := exists_init_of_up htrace hfirst hup
    refine ⟨e, hmem, rfl, hinit, ?_⟩
    cases hconfig : ctx.config e.radio with
    | none =>
      rw [hconfig] at hmode
      exact absurd hmode (by simp)
    | some config =>
      rw [hconfig] at hmode
      obtain ⟨v, hreturned⟩ := exists_setUpReturned hordered hinit hconfig hmode
      have haccepted := h e (List.mem_append_left _ hmem) hinit hlt config hconfig hmode
      obtain rfl := (setUpReturned_zero_iff hreturned hconfig).mpr haccepted
      exact hreturned

end BroughtUp

/-! ### The first radio of two access points -/

/-- The first of two access points is started, and its call returns what the dialogue can return. -/
theorem exists_firstStarted {v : ℤ} {P : List WpaAnswer → Prop}
    (hcall : ∀ sc, SameTables openSoftc sc →
      ∃ t, After (wifiHalCreateAp .standard (allInMode "ap".toList) sc 0) t (ret v) ∧
        P (answersOf t)) :
    ∃ e s, LoopRun .standard (allInMode "ap".toList) openSoftc [e] s ∧ e.radio = 0 ∧
      e.handler = some .init ∧ s.sc.state 0 = .ifInitStage1 ∧
      (e.before.wpaCtx 0).monitor ≠ none ∧ P (answersOf e.dialogue) := by
  obtain ⟨t, s₀, hstart, hinit, hindex, hsc, hevents⟩ :=
    (canReturn_wifiEventsStart openSoftc).exists_after (yields_wifiEventsStart_eq openSoftc)
  have hstate : ∀ i, s₀.sc.state i = .initState := fun i => by
    rw [hsc]
    exact if_pos i.isLt
  have htables : SameTables openSoftc s₀.sc := by
    rw [hsc]
    exact ⟨rfl, rfl, rfl, rfl, fun _ => rfl, fun _ => rfl⟩
  obtain ⟨t₁, debugfs, hdebugfs, hkept⟩ :=
    (canReturn_wifiDebugfsInit s₀.sc 0).exists_after (yields_wifiDebugfsInit s₀.sc 0)
  obtain ⟨t₂, hcreate, hanswers⟩ := hcall debugfs.1 (htables.trans hkept.toSameTables)
  -- the handler makes the call behind the reading of debugfs
  have hmode : After (setUpMode .standard (allInMode "ap".toList) debugfs.1 0
      { WifiConfig.zero with mode := CharArray.strncpy 5 "ap".toList }) (t₂ ++ [])
      (ret (debugfs.1, .ifInitStage1)) := by
    unfold setUpMode
    rw [if_pos (by decide)]
    exact after_bind_iff.mpr ⟨t₂, v, [], rfl, hcreate, .start _⟩
  have hhandler : After (initHandler .standard (allInMode "ap".toList) s₀.sc 0)
      (⟨.callsInitHandler 0, ()⟩ :: (t₁ ++ (t₂ ++ []))) (ret (debugfs.1, .ifInitStage1)) := by
    unfold initHandler
    rw [query_bind]
    refine .reply _ ?_
    exact after_bind_iff.mpr ⟨t₁, debugfs, _, rfl, hdebugfs, hmode⟩
  have hslot : ((0 : Slot).val : ℤ) = s₀.index + 1 := by
    rw [hindex]
    rfl
  have hnext : NextEvent s₀ none { s₀ with index := (0 : Slot).val } :=
    .startup hinit hslot (hstate 0)
  have haction : WifiEvents.action { s₀ with index := (0 : Slot).val } 0 = .handle (some .init) :=
    action_of_alive (hstate 0) (hevents 0 (by decide)) (by decide) fun i _ => by simp [hstate i]
  refine ⟨_, _, ⟨t, s₀, hstart, .single (.called hnext rfl haction hhandler)⟩, rfl, rfl, rfl, ?_,
    ?_⟩
  · rw [htables.monitor 0]
    exact (openSoftc_open 0).2
  · show P ((requestsOf (t₁ ++ (t₂ ++ []))).map _)
    rw [List.append_nil, requestsOf_append,
      requestsOf_of_unsent (onlyAsks_unsent (onlyAsks_wifiDebugfsInit s₀.sc 0)) hdebugfs]
    exact hanswers

/-- An access point whose commands are all acknowledged is recorded as brought up, and is. -/
theorem access_point_brought_up : ∃ log s,
    LoopRun .standard (allInMode "ap".toList) openSoftc log s ∧ s.sc.state 0 = .ifInitStage1 ∧
      UpOnlyIfSetUp .standard (allInMode "ap".toList) 2 log s := by
  obtain ⟨e, s, hrun, hradio, hinit, hstate, hmonitor, hall⟩ := exists_firstStarted
    (P := fun answers => ∀ answer ∈ answers, answer = okAnswer) fun sc htables =>
      exists_wifiHalCreateAp .standard (allInMode "ap".toList)
        (by rw [htables.monitor 0]; exact (openSoftc_open 0).2)
        (by rw [htables.ctrl 0]; exact (openSoftc_open 0).1) (Option.some_ne_none _)
  refine ⟨[e], s, hrun, hstate, (up_only_if_set_up_iff hrun).mpr ?_ [e] s [] hrun .refl rfl⟩
  intro e' he' _ _ config hconfig _
  obtain rfl := List.mem_singleton.mp he'
  rw [hradio] at hconfig ⊢
  obtain rfl := Option.some.inj hconfig
  unfold SetUpAccepted
  rw [if_pos (by decide)]
  refine ⟨hmonitor, passes_of_okAnswer ?_ two_le_zero_len hall⟩
  intro test htest r hok
  simp only [apTests, List.mem_cons, List.mem_replicate] at htest
  rcases htest with rfl | rfl | ⟨-, rfl⟩
  · rfl
  · rfl
  · simpa [wasOk] using hok

/-- A radio may be recorded as brought up though its networks could not even be removed. -/
theorem not_all_brought_up : ¬ ∀ (nl : Netlink.Libnl NlAttrs) (ctx : WifiContext) (sc : WifiSoftc)
    (log : List Handled) (s : WifiEvents), LoopRun nl ctx sc log s →
    UpOnlyIfSetUp nl ctx sc.radioAmount log s := by
  intro h
  have hcall : ∀ sc, SameTables openSoftc sc →
      ∃ t, After (wifiHalCreateAp .standard (allInMode "ap".toList) sc 0) t (ret (-1)) ∧
        answersOf t = [WpaAnswer.sendFailed] := by
    intro sc htables
    have hmonitor : (sc.wpaCtx 0).monitor ≠ none := by
      rw [htables.monitor 0]
      exact (openSoftc_open 0).2
    have hctrl : (sc.wpaCtx 0).ctrl = some 0 := htables.ctrl 0
    refine ⟨[⟨.wpaRequest 0 "REMOVE_NETWORK all".toList, .sendFailed⟩] ++ [], ?_, rfl⟩
    rw [wifiHalCreateAp_eq, wifiHalSendWpaCommand_of_ctrl hmonitor hctrl]
    unfold prepareNetwork
    rw [wifiHalSendWpaCommand_of_ctrl hmonitor hctrl]
    refine after_bind_iff.mpr ⟨_, (-1, .zero respBufferSize), [], rfl,
      after_sendOver_iff.mpr ⟨.sendFailed, rfl, rfl⟩, ?_⟩
    rw [if_pos (by decide)]
    exact .start _
  obtain ⟨e, s, hrun, hradio, -, hstate, -, hanswers⟩ := exists_firstStarted
    (P := fun answers => answers = [WpaAnswer.sendFailed]) hcall
  obtain ⟨e', he', -, -, hreturned⟩ := h _ _ _ _ _ hrun 0 (by decide) (Or.inl hstate)
  obtain rfl := List.mem_singleton.mp he'
  have haccepted := (setUpReturned_zero_iff hreturned (by rw [hradio]; rfl)).mp rfl
  unfold SetUpAccepted at haccepted
  rw [if_pos (by decide), hanswers] at haccepted
  exact absurd haccepted.2 (by decide)

end RadioHal.Wifi
