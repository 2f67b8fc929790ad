import RadioHal.Wifi.Frame

/-!
# The startup of the event loop

While it starts the radios, `wifi_events` looks at the state behind the last one to find out that
there is none.  So the number of radios itself is always used as an index, before anything is
waited for.

## Main definitions

* `WithinRadios` — the indices used are those of radios, and all radios have been started in order
  before the first event is waited for.
* `StaysWithin` — so along every run of `wifi_events`.
* `Starting` — the variables while radios are being started.

## Main results

* `uses_amount_of_waited` — no run that comes to wait stays within the radios.
* `wifi_events_leaves_radios` — **the event loop never stays within its radios.**
-/

namespace RadioHal.Wifi

open CLib Dialogue

/-! ### Indices -/

section Indices

/-- The index `i` has been used on one of the arrays. -/
def Uses (t : WifiTranscript) (i : ℤ) : Prop :=
  (⟨.usesIndex i, ()⟩ : Exchange WifiQ WifiA) ∈ t

/-- An event has been waited for. -/
def Waited (t : WifiTranscript) : Prop := (⟨.callsWaitOnEvent, ()⟩ : Exchange WifiQ WifiA) ∈ t

/-- The radios `init_handler` has been called for, in order. -/
def initCalls (t : WifiTranscript) : List ℕ :=
  t.filterMap fun x =>
    match x.1 with
    | .callsInitHandler i => some i.val
    | _ => none

/-- **What the event loop should do** with `amount` radios: every index used is that of a radio,
and before the first event is waited for each radio has been started once, in order. -/
structure WithinRadios (amount : ℕ) (t : WifiTranscript) : Prop where
  indices : ∀ i, Uses t i → 0 ≤ i ∧ i < amount
  startup : ∀ t₁ t₂, t = t₁ ++ ⟨.callsWaitOnEvent, ()⟩ :: t₂ → ¬ Waited t₁ →
    initCalls t₁ = List.range amount

variable {t t' : WifiTranscript}

theorem Uses.append {i : ℤ} (h : Uses t i) : Uses (t ++ t') i := List.mem_append_left _ h

theorem WithinRadios.not_uses_amount {amount : ℕ} (h : WithinRadios amount t) :
    ¬ Uses t amount := by
  intro huses
  have := (h.indices _ huses).2
  omega

end Indices

/-! ### Startup -/

section Startup

variable (nl : Netlink.Libnl NlAttrs) (ctx : WifiContext) {amount : ℕ}

/-- Commands for the radio do not go over a connection that is not there: its control connection is
open, or its monitor is not, and then no command is sent. -/
def Commandable (sc : WifiSoftc) (index : Slot) : Prop :=
  (sc.wpaCtx index).monitor ≠ none → (sc.wpaCtx index).ctrl ≠ none

/-- The variables of `wifi_events` while radios are being started: those up to `index` have been,
the others wait in their first state; those of `able` can be sent commands. -/
structure Starting (amount : ℕ) (able : Slot → Prop) (s : WifiEvents) : Prop where
  stateMachine : s.stateMachine = .initState
  radioAmount : s.sc.radioAmount = amount
  index_ge : -1 ≤ s.index
  index_lt : s.index < amount
  waiting : ∀ j : Slot, s.index < j → j.val < amount → s.sc.state j = .initState
  alive : ∀ j : Slot, j.val < amount → s.sc.state j ≠ .shutdownState
  connected : ∀ j, able j → Commandable s.sc j

/-- The radios can be started: they are configured and can be sent commands. -/
structure Startable (sc : WifiSoftc) : Prop where
  configured : ∀ i : Slot, i.val < sc.radioAmount → ctx.config i ≠ none
  connected : ∀ i : Slot, i.val < sc.radioAmount → Commandable sc i

/-- The state machine starts a radio, or does nothing. -/
theorem findHandler_initState (event : ℤ) :
    findHandler .initState event = none ∨ findHandler .initState event = some .init := by
  by_cases hevent : WifiSystemEvent.startupEvent.num = event
  · right
    simp [findHandler, wifiAsStateMachine, hevent]
  · left
    simp [findHandler, wifiAsStateMachine, hevent]

theorem num_initState_iff (s : WifiState) : s.num = WifiState.initState.num ↔ s = .initState := by
  cases s <;> decide

theorem onlyAsks_usesIndices (is : List Slot) : OnlyAsks WifiQ.Plain (usesIndices is) := by
  induction is with
  | nil => trivial
  | cons i is ih => exact ⟨trivial, fun _ => ih⟩

theorem canReturn_usesIndices (is : List Slot) : CanReturn (usesIndices is) := by
  induction is with
  | nil => trivial
  | cons i is ih => exact ⟨(), ih⟩

theorem onlyAsks_someShutdown (sc : WifiSoftc) (is : List Slot) :
    OnlyAsks WifiQ.Plain (someShutdown sc is) := by
  induction is with
  | nil => trivial
  | cons i is ih =>
    refine ⟨trivial, fun _ => ?_⟩
    show OnlyAsks _ (if _ then _ else _)
    split
    · trivial
    · exact ih

/-- No radio is found shut down when none is. -/
theorem yields_someShutdown {sc : WifiSoftc} {is : List Slot}
    (halive : ∀ i ∈ is, sc.state i ≠ .shutdownState) :
    Yields (· = false) (someShutdown sc is) := by
  induction is with
  | nil => exact (rfl : false = false)
  | cons i is ih =>
    intro _
    show Yields _ (if _ then _ else _)
    rw [if_neg (halive i List.mem_cons_self)]
    exact ih fun j hj => halive j (List.mem_cons_of_mem i hj)

theorem canReturn_someShutdown (sc : WifiSoftc) (is : List Slot) :
    CanReturn (someShutdown sc is) := by
  induction is with
  | nil => trivial
  | cons i is ih =>
    refine ⟨(), ?_⟩
    show CanReturn (if _ then _ else _)
    split
    · trivial
    · exact ih

/-! ### What starting a radio can return -/

theorem canReturn_findDriver (dirs : List (Text × WifiDriverVersion)) :
    CanReturn (findDriver dirs) := by
  induction dirs with
  | nil => trivial
  | cons dir dirs ih =>
    refine ⟨(none : Option Bool), ?_⟩
    exact ih

theorem canReturn_wifiDebugfsInit (sc : WifiSoftc) (index : Slot) :
    CanReturn (wifiDebugfsInit sc index) := by
  refine ((canReturn_findDriver _).bind fun found => ?_).bind fun driver => ?_
  · cases found <;> trivial
  · split
    · trivial
    · exact ⟨(none : Option Bool), trivial⟩

/-- A command comes back, with a failure, when the control connection is open, and where there is
no monitor, as it is not sent then. -/
theorem exists_after_wifiHalSendWpaCommand {sc : WifiSoftc} {index : Slot}
    (hctrl : Commandable sc index) (cmd : Text) (resp : Reply) :
    ∃ t r, After (wifiHalSendWpaCommand sc index cmd resp) t (ret r) ∧ r.1 < 0 := by
  have hfailed : (-1 : ℤ) < 0 := by decide
  unfold wifiHalSendWpaCommand wpaCtrlRequest
  by_cases hmonitor : (sc.wpaCtx index).monitor = none
  · rw [if_pos hmonitor]
    exact ⟨[], _, .start _, hfailed⟩
  · obtain ⟨h, hh⟩ := Option.ne_none_iff_exists'.mp (hctrl hmonitor)
    rw [if_neg hmonitor, hh]
    exact ⟨[⟨.wpaRequest h cmd, WpaAnswer.sendFailed⟩], (-1, resp), .reply _ (.start _), hfailed⟩

theorem canReturn_setUpMode {sc : WifiSoftc} {index : Slot}
    (hctrl : Commandable sc index) (config : WifiConfig) :
    CanReturn (setUpMode nl ctx sc index config) := by
  obtain ⟨t, r, hrun, hr⟩ := exists_after_wifiHalSendWpaCommand hctrl
    "REMOVE_NETWORK all".toList (.zero respBufferSize)
  unfold setUpMode
  split
  · refine CanReturn.bind (canReturn_bind_of_after hrun ?_) fun _ => trivial
    rw [if_pos hr]
    trivial
  split
  · refine CanReturn.bind (canReturn_bind_of_after hrun ?_) fun _ => trivial
    rw [if_pos hr]
    trivial
  split
  · exact ⟨(none : Option Handle), trivial⟩
  · trivial

theorem canReturn_initHandler {sc : WifiSoftc} {index : Slot} (hconfig : ctx.config index ≠ none)
    (hctrl : Commandable sc index) : CanReturn (initHandler nl ctx sc index) := by
  obtain ⟨config, hconfig⟩ := Option.ne_none_iff_exists'.mp hconfig
  refine ⟨(), ?_⟩
  obtain ⟨t, debugfs, hrun, hkept⟩ :=
    (canReturn_wifiDebugfsInit sc index).exists_after (yields_wifiDebugfsInit sc index)
  refine canReturn_bind_of_after hrun ?_
  rw [hconfig]
  refine canReturn_setUpMode nl ctx ?_ config
  unfold Commandable
  rwa [hkept.monitor, hkept.ctrl]

/-! ### One radio after another -/

/-- A state in which the next radio has been started. -/
def Started (amount : ℕ) (able : Slot → Prop) (index : ℤ) (o : Option WifiEvents) :
    Prop :=
  ∃ s, o = some s ∧ Starting amount able s ∧ s.index = index

variable {ctx} {s : WifiEvents} {able : Slot → Prop}

/-- The handler of a radio about to be started. -/
theorem dispatch_starting (slot : Slot) (hinit : s.sc.state slot = .initState) :
    dispatch nl ctx s slot = ret (some s) ∨
      dispatch nl ctx s slot = (initHandler nl ctx s.sc slot >>= fun r =>
        ret (some { s with sc := { r.1 with state := Function.update r.1.state slot r.2 } })) := by
  unfold dispatch
  rw [hinit]
  split
  · rcases findHandler_initState (s.eNewEvent slot) with hnone | hinitHandler
    · rw [hnone]
      exact Or.inl rfl
    · rw [hinitHandler]
      exact Or.inr rfl
  · exact Or.inl rfl

/-- The handler of a radio leaves the radios behind it waiting, and shuts none down. -/
theorem Starting.handled (hs : Starting amount able s) {slot : Slot}
    (hslot : (slot.val : ℤ) = s.index) {r : WifiSoftc × WifiState}
    (hr : Kept s.sc r.1 ∧ r.2 ≠ .shutdownState) :
    Starting amount able
      { s with sc := { r.1 with state := Function.update r.1.state slot r.2 } } := by
  obtain ⟨hkept, halive⟩ := hr
  refine ⟨hs.stateMachine, hkept.radioAmount.trans hs.radioAmount, hs.index_ge, hs.index_lt, ?_, ?_,
    ?_⟩
  · intro j hj hlt
    have hne : j ≠ slot := by
      rintro rfl
      exact absurd hj (by simp [hslot])
    show Function.update r.1.state slot r.2 j = _
    rw [Function.update_of_ne hne, hkept.state]
    exact hs.waiting j hj hlt
  · intro j hlt
    show Function.update r.1.state slot r.2 j ≠ _
    by_cases hj : j = slot
    · subst hj
      rwa [Function.update_self]
    · rw [Function.update_of_ne hj, hkept.state]
      exact hs.alive j hlt
  · intro j hj
    show (r.1.wpaCtx j).monitor ≠ none → (r.1.wpaCtx j).ctrl ≠ none
    rw [hkept.monitor, hkept.ctrl]
    exact hs.connected j hj

theorem Starting.next (hs : Starting amount able s) (hlt : s.index + 1 < amount) :
    Starting amount able { s with index := s.index + 1 } where
  stateMachine := hs.stateMachine
  radioAmount := hs.radioAmount
  index_ge := by
    have := hs.index_ge
    show -1 ≤ s.index + 1
    omega
  index_lt := hlt
  waiting j hj := hs.waiting j (lt_trans (lt_add_one s.index) hj)
  alive := hs.alive
  connected := hs.connected

section CurrentRadio

variable {slot : Slot} (hslot : (slot.val : ℤ) = s.index) (hinit : s.sc.state slot = .initState)
include hslot hinit

theorem onlyAsks_runStateMachine : OnlyAsks WifiQ.Plain (runStateMachine nl ctx s) := by
  refine ⟨trivial, fun _ => ?_⟩
  rw [← hslot, WifiM.slot_val]
  show OnlyAsks _ (if _ then _ else _)
  split
  · trivial
  refine (onlyAsks_someShutdown s.sc s.sc.radios).bind fun shutdown => ?_
  cases shutdown with
  | true => trivial
  | false =>
    show OnlyAsks _ (dispatch nl ctx s slot)
    rcases dispatch_starting nl slot hinit with h | h
    · rw [h]
      trivial
    · rw [h]
      exact (onlyAsks_initHandler nl ctx s.sc slot).bind fun _ => trivial

theorem yields_runStateMachine (hs : Starting amount able s) :
    Yields (Started amount able s.index) (runStateMachine nl ctx s) := by
  have halive : ∀ i ∈ s.sc.radios, s.sc.state i ≠ .shutdownState := fun i hi => by
    have hlt : i.val < s.sc.radioAmount := by simpa [WifiSoftc.radios] using hi
    exact hs.alive i (hs.radioAmount ▸ hlt)
  intro _
  rw [← hslot, WifiM.slot_val]
  show Yields _ (if _ then _ else _)
  rw [hslot]
  split
  · exact ⟨s, rfl, hs, rfl⟩
  refine (yields_someShutdown halive).bind fun shutdown hshutdown => ?_
  subst hshutdown
  show Yields _ (dispatch nl ctx s slot)
  rcases dispatch_starting nl slot hinit with h | h
  · rw [h]
    exact ⟨s, rfl, hs, rfl⟩
  · rw [h]
    exact (yields_initHandler nl ctx s.sc slot).bind fun r hr =>
      ⟨_, rfl, hs.handled hslot hr, rfl⟩

theorem canReturn_runStateMachine (hconfig : ctx.config slot ≠ none)
    (hctrl : Commandable s.sc slot) : CanReturn (runStateMachine nl ctx s) := by
  refine ⟨(), ?_⟩
  rw [← hslot, WifiM.slot_val]
  show CanReturn (if _ then _ else _)
  split
  · trivial
  refine (canReturn_someShutdown s.sc s.sc.radios).bind fun shutdown => ?_
  cases shutdown with
  | true => trivial
  | false =>
    show CanReturn (dispatch nl ctx s slot)
    rcases dispatch_starting nl slot hinit with h | h
    · rw [h]
      trivial
    · rw [h]
      exact (canReturn_initHandler nl ctx hconfig hctrl).bind fun _ => trivial

end CurrentRadio

/-- A round that starts a radio uses its index twice, and then runs the state machine. -/
theorem wifiEventsRound_starting (hs : Starting amount able s) (hlt : s.index + 1 < amount)
    {slot : Slot} (hslot : (slot.val : ℤ) = s.index + 1) :
    wifiEventsRound nl ctx s =
      ask (.usesIndex (s.index + 1)) fun _ => ask (.usesIndex (s.index + 1)) fun _ =>
        runStateMachine nl ctx { s with index := s.index + 1 } := by
  have hstate := hs.waiting slot (by omega) (by omega)
  have hbehind : ¬ ((slot.val : ℤ) = wifiRadioMax) := by
    have := slot.isLt
    omega
  unfold wifiEventsRound nextEvent loadState
  rw [if_neg (not_not.mpr hs.stateMachine), ← hslot, if_neg hbehind, WifiM.slot_val]
  show (ask _ fun _ => (if (s.sc.state slot).num = _ then _ else _) >>= _) = _
  rw [hstate]
  rfl

/-- The first thing a round does while radios are being started. -/
theorem exists_wifiEventsRound (ctx : WifiContext) (hs : Starting amount able s) :
    ∃ k, wifiEventsRound nl ctx s = ask (.usesIndex (s.index + 1)) k := by
  unfold wifiEventsRound nextEvent loadState
  rw [if_neg (not_not.mpr hs.stateMachine)]
  exact ⟨_, rfl⟩

theorem Starting.exists_slot (hs : Starting amount able s) (hmax : amount ≤ wifiRadioMax)
    (hlt : s.index + 1 < amount) : ∃ slot : Slot, (slot.val : ℤ) = s.index + 1 := by
  have hge := hs.index_ge
  refine ⟨⟨(s.index + 1).toNat, by omega⟩, ?_⟩
  show ((s.index + 1).toNat : ℤ) = s.index + 1
  omega

theorem Starting.state_next (hs : Starting amount able s) {slot : Slot}
    (hslot : (slot.val : ℤ) = s.index + 1) (hlt : s.index + 1 < amount) :
    s.sc.state slot = .initState :=
  hs.waiting slot (by omega) (by omega)

theorem onlyAsks_wifiEventsRound (hs : Starting amount able s) (hmax : amount ≤ wifiRadioMax)
    (hlt : s.index + 1 < amount) : OnlyAsks WifiQ.Plain (wifiEventsRound nl ctx s) := by
  obtain ⟨slot, hslot⟩ := hs.exists_slot hmax hlt
  rw [wifiEventsRound_starting nl hs hlt hslot]
  exact ⟨trivial, fun _ => ⟨trivial, fun _ =>
    onlyAsks_runStateMachine nl hslot (hs.state_next hslot hlt)⟩⟩

/-- What comes of a round that starts a radio. -/
theorem yields_wifiEventsRound (hs : Starting amount able s) (hmax : amount ≤ wifiRadioMax)
    (hlt : s.index + 1 < amount) :
    Yields (Started amount able (s.index + 1)) (wifiEventsRound nl ctx s) := by
  obtain ⟨slot, hslot⟩ := hs.exists_slot hmax hlt
  rw [wifiEventsRound_starting nl hs hlt hslot]
  intro _ _
  exact yields_runStateMachine nl hslot (hs.state_next hslot hlt) (hs.next hlt)

/-- Such a round comes back when the radio is configured and connected. -/
theorem canReturn_wifiEventsRound (hs : Starting amount able s) (hmax : amount ≤ wifiRadioMax)
    (hlt : s.index + 1 < amount)
    (hready : ∀ i : Slot, i.val < amount → ctx.config i ≠ none ∧ able i) :
    CanReturn (wifiEventsRound nl ctx s) := by
  obtain ⟨slot, hslot⟩ := hs.exists_slot hmax hlt
  obtain ⟨hconfig, hable⟩ := hready slot (by omega)
  rw [wifiEventsRound_starting nl hs hlt hslot]
  refine ⟨(), (), ?_⟩
  exact canReturn_runStateMachine nl hslot (hs.state_next hslot hlt) hconfig
    (hs.connected slot hable)

/-! ### What comes before the loop -/

theorem onlyAsks_wifiEventsStart (sc : WifiSoftc) :
    OnlyAsks WifiQ.Plain (wifiEventsStart sc) :=
  (onlyAsks_usesIndices sc.radios).bind fun _ => ⟨trivial, fun _ => ⟨trivial, fun _ => trivial⟩⟩

theorem canReturn_wifiEventsStart (sc : WifiSoftc) : CanReturn (wifiEventsStart sc) :=
  (canReturn_usesIndices sc.radios).bind fun _ => ⟨(0 : ℤ), (0 : ℤ), trivial⟩

/-- Ahead of the first round all radios wait to be started. -/
theorem yields_wifiEventsStart (sc : WifiSoftc) :
    Yields (fun s => Starting sc.radioAmount (Commandable sc) s ∧ s.index = -1)
      (wifiEventsStart sc) := by
  refine Yields.bind_of_forall fun _ first second => ?_
  have hfirst : ∀ j : Slot, j.val < sc.radioAmount →
      (if j.val < sc.radioAmount then WifiState.initState else sc.state j) = .initState :=
    fun j hj => if_pos hj
  refine ⟨⟨rfl, rfl, le_refl _, ?_, fun j _ hj => hfirst j hj, ?_, fun _ hj => hj⟩, rfl⟩
  · show (-1 : ℤ) < sc.radioAmount
    omega
  · intro j hj
    show (if j.val < sc.radioAmount then WifiState.initState else sc.state j) ≠ _
    rw [hfirst j hj]
    simp

end Startup

/-! ### Runs -/

section Runs

variable (nl : Netlink.Libnl NlAttrs) (ctx : WifiContext) {amount : ℕ}
  {able : Slot → Prop} {t : WifiTranscript}

/-- Whoever waits, or has waited, has used the number of radios as an index. -/
def Marked (amount : ℕ) (t : WifiTranscript) (q : WifiQ) : Prop :=
  Waited t ∨ q = .callsWaitOnEvent → Uses t amount

/-- The number of radios has been used as an index, or radios are being started. -/
def Progress (amount : ℕ) (able : Slot → Prop) (o : Option WifiEvents)
    (t : WifiTranscript) : Prop :=
  Uses t amount ∨ (¬ Waited t ∧ ∃ s, o = some s ∧ Starting amount able s)

theorem ne_callsWaitOnEvent_of_plain {q : WifiQ} (h : WifiQ.Plain q) : q ≠ .callsWaitOnEvent := by
  rintro rfl
  exact h

/-- Once the number of radios has been used, nothing more is to be shown. -/
theorem wp_of_uses {α : Type} (p : WifiM α) (h : Uses t amount) :
    wp history (Marked amount) (fun _ t' => Uses t' amount) p t := by
  refine wp_of_onlyAsks (fun t => Uses t amount)
    (onlyAsks_of_forall (fun _ => trivial) p : OnlyAsks (fun _ => True) p)
    (fun _ _ _ hu _ => hu) ?_ h
  rintro q a t₁ t₂ - hu rfl
  exact hu.append

/-- Before anything is waited for, a plain program leaves it at that. -/
theorem wp_of_plain {α : Type} {R : α → Prop} {p : WifiM α} (hp : OnlyAsks WifiQ.Plain p)
    (hr : Yields R p) (h : ¬ Waited t) :
    wp history (Marked amount) (fun a t' => R a ∧ ¬ Waited t') p t := by
  refine wp_of_yields (fun t => ¬ Waited t) hp hr ?_ ?_ h
  · rintro q t₁ hq hwaited (hw | rfl)
    · exact absurd hw hwaited
    · exact absurd rfl (ne_callsWaitOnEvent_of_plain hq)
  · rintro q a t₁ t₂ hq hwaited rfl hw
    rcases List.mem_append.mp hw with hw | hw
    · exact hwaited hw
    · have hsame := congrArg Sigma.fst (List.mem_singleton.mp hw)
      exact ne_callsWaitOnEvent_of_plain hq hsame.symm

/-- One round: radios go on being started until the number of radios is used as an index. -/
theorem wp_round (hmax : amount ≤ wifiRadioMax) (o : Option WifiEvents)
    (h : Progress amount able o t) :
    wp history (Marked amount) (Progress amount able)
      (o.elim (ret none) (wifiEventsRound nl ctx)) t := by
  rcases h with huses | ⟨hwaited, s, rfl, hs⟩
  · exact wp_consequence (wp_of_uses _ huses) fun _ _ hu => Or.inl hu
  · show wp history _ _ (wifiEventsRound nl ctx s) t
    by_cases hlt : s.index + 1 < amount
    · refine wp_consequence (wp_of_plain (onlyAsks_wifiEventsRound nl hs hmax hlt)
        (yields_wifiEventsRound nl hs hmax hlt) hwaited) ?_
      rintro o' t' ⟨⟨s', rfl, hs', -⟩, hwaited'⟩
      exact Or.inr ⟨hwaited', s', rfl, hs'⟩
    · -- there is no next radio, and the index that tells so is the number of radios
      have hend : s.index + 1 = amount := by
        have := hs.index_lt
        omega
      obtain ⟨k, hk⟩ := exists_wifiEventsRound nl ctx hs
      rw [hk, hend]
      refine ⟨fun hw => absurd hw (by simp [hwaited]), ?_⟩
      rintro a t' rfl
      have huses : Uses (t ++ [(⟨.usesIndex amount, a⟩ : Exchange WifiQ WifiA)]) amount := by
        simp [Uses]
      exact wp_consequence (wp_of_uses _ huses) fun _ _ hu => Or.inl hu

/-- What holds along every run of the event loop. -/
theorem wp_wifiEvents (sc : WifiSoftc) (hmax : sc.radioAmount ≤ wifiRadioMax) (n : ℕ) :
    wp history (Marked sc.radioAmount)
      (Progress sc.radioAmount (Commandable sc)) (wifiEvents nl ctx n sc) [] := by
  have hstart : ¬ Waited [] := by simp [Waited]
  unfold wifiEvents
  rw [wp_bind]
  refine wp_consequence (wp_of_plain (onlyAsks_wifiEventsStart sc) (yields_wifiEventsStart sc)
    hstart) ?_
  rintro s t' ⟨⟨hs, -⟩, hwaited⟩
  exact wp_iterate _ (fun o t h => wp_round nl ctx hmax o h) n (some s) t'
    (Or.inr ⟨hwaited, s, rfl, hs⟩)

/-- A run that has come to wait for an event has used the number of radios as an index. -/
theorem uses_amount_of_waited (sc : WifiSoftc) (hmax : sc.radioAmount ≤ wifiRadioMax) {n : ℕ}
    {p : WifiM (Option WifiEvents)} (hrun : After (wifiEvents nl ctx n sc) t p)
    (hwaited : Waited t) : Uses t sc.radioAmount := by
  have hwp := wp_after hrun (wp_wifiEvents nl ctx sc hmax n)
  cases p with
  | ret o =>
    rcases hwp with huses | ⟨hnot, -⟩
    · exact huses
    · exact absurd hwaited hnot
  | ask q k => exact hwp.1 (Or.inl hwaited)

/-! ### A run that leaves the radios -/

variable {ctx}

/-- Round by round, radios can be started up to the last one. -/
theorem exists_after_iterate (hmax : amount ≤ wifiRadioMax)
    (hready : ∀ i : Slot, i.val < amount → ctx.config i ≠ none ∧ able i) (k : ℕ)
    {s : WifiEvents} (hs : Starting amount able s) (hk : s.index + k < amount) :
    ∃ t s', Starting amount able s' ∧ s'.index = s.index + k ∧
      ∀ n, After (iterate (fun o => o.elim (ret none) (wifiEventsRound nl ctx)) (k + n) (some s)) t
        (iterate (fun o => o.elim (ret none) (wifiEventsRound nl ctx)) n (some s')) := by
  induction k generalizing s with
  | zero =>
    refine ⟨[], s, hs, by simp, fun n => ?_⟩
    rw [Nat.zero_add]
    exact .start _
  | succ k ih =>
    have hlt : s.index + 1 < amount := by omega
    obtain ⟨t₁, o, hrun₁, s₁, rfl, hs₁, hindex₁⟩ :=
      (canReturn_wifiEventsRound nl hs hmax hlt hready).exists_after
        (yields_wifiEventsRound nl hs hmax hlt)
    obtain ⟨t₂, s₂, hs₂, hindex₂, hrun₂⟩ := ih hs₁ (by omega)
    refine ⟨t₁ ++ t₂, s₂, hs₂, by omega, fun n => ?_⟩
    rw [Nat.add_right_comm, iterate_succ]
    exact (hrun₁.bind _).trans (hrun₂ n)

/-- Some run uses the number of radios as an index. -/
theorem exists_uses_amount (sc : WifiSoftc) (hmax : sc.radioAmount ≤ wifiRadioMax)
    (hready : Startable ctx sc) :
    ∃ n t p, After (wifiEvents nl ctx n sc) t p ∧ Uses t sc.radioAmount := by
  obtain ⟨t₀, s₀, hrun₀, hs₀, hindex₀⟩ :=
    (canReturn_wifiEventsStart sc).exists_after (yields_wifiEventsStart sc)
  obtain ⟨t₁, s₁, hs₁, hindex₁, hrun₁⟩ := exists_after_iterate nl hmax
    (fun i hi => ⟨hready.configured i hi, hready.connected i hi⟩) sc.radioAmount hs₀ (by omega)
  obtain ⟨k, hk⟩ := exists_wifiEventsRound nl ctx hs₁
  have hend : s₁.index + 1 = sc.radioAmount := by omega
  rw [hend] at hk
  -- one more round, which begins with the question for the state behind the last radio
  have hlast : After (wifiEventsRound nl ctx s₁) [⟨.usesIndex sc.radioAmount, ()⟩] (k ()) := by
    rw [hk]
    exact .reply _ (.start _)
  refine ⟨sc.radioAmount + 1, t₀ ++ (t₁ ++ [⟨.usesIndex sc.radioAmount, ()⟩]), _,
    (hrun₀.bind _).trans ((hrun₁ 1).trans (hlast.bind _)), ?_⟩
  simp [Uses]

end Runs

/-- The event loop stays within its radios along every run. -/
def StaysWithin (nl : Netlink.Libnl NlAttrs) (ctx : WifiContext) (sc : WifiSoftc) : Prop :=
  ∀ n t p, After (wifiEvents nl ctx n sc) t p → WithinRadios sc.radioAmount t

/-- **The event loop never stays within its radios**: no run that comes to wait for an event does,
and where the radios can be started there is a run that does not. -/
theorem wifi_events_leaves_radios (nl : Netlink.Libnl NlAttrs) (ctx : WifiContext)
    (sc : WifiSoftc) (hmax : sc.radioAmount ≤ wifiRadioMax) :
    (∀ n t p, After (wifiEvents nl ctx n sc) t p → Waited t → ¬ WithinRadios sc.radioAmount t) ∧
      (Startable ctx sc → ¬ StaysWithin nl ctx sc) := by
  constructor
  · intro n t p hrun hwaited hwithin
    exact hwithin.not_uses_amount (uses_amount_of_waited nl ctx sc hmax hrun hwaited)
  · intro hready hstays
    obtain ⟨n, t, p, hrun, huses⟩ := exists_uses_amount nl sc hmax hready
    exact (hstays n t p hrun).not_uses_amount huses

/-- A configuration for each of the radios. -/
def twoConfigs : WifiContext := ⟨fun _ => some .zero⟩

theorem startable_twoConfigs : Startable twoConfigs openSoftc :=
  ⟨fun _ _ => Option.some_ne_none _, fun i _ _ => (openSoftc_open i).1⟩

/-- With all radios there, the event loop uses the index behind the last one. -/
theorem two_radios_left : ¬ StaysWithin .standard twoConfigs openSoftc :=
  (wifi_events_leaves_radios .standard twoConfigs openSoftc (by decide)).2 startable_twoConfigs

/-- Not every event loop stays within its radios: one with all radios there does not. -/
theorem not_all_stay_within : ¬ ∀ (nl : Netlink.Libnl NlAttrs) (ctx : WifiContext)
    (sc : WifiSoftc), sc.radioAmount ≤ wifiRadioMax → Startable ctx sc → StaysWithin nl ctx sc := by
  intro h
  have hmax : openSoftc.radioAmount ≤ wifiRadioMax := by decide
  obtain ⟨n, t, p, hrun, huses⟩ := exists_uses_amount .standard openSoftc hmax startable_twoConfigs
  exact (h .standard twoConfigs openSoftc hmax startable_twoConfigs n t p hrun).not_uses_amount
    huses

end RadioHal.Wifi
