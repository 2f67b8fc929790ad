import RadioHal.Wifi.Slots
import RadioHal.Wifi.Startup

/-!
# Sessions of the WiFi HAL

Every reading, and many a step of the event loop, runs the dump of the interfaces again, and
`wifi_hal_close` leaves the phy names behind; so whether the slots below `radio_amount` stay in
order depends on what the dumps bring.

## Main definitions

* `HalCall`, `HalRun` — the calls of a user, and the states any sequence of them leads to.
* `Harmless` — the dumps that put the slots in order, or keep them so.

## Main results

* `wp_use` — what any call but opening and closing leads to.
* `slotInvariant_of_opened` — **an opened HAL has its slots in order when its dumps have been
  harmless.**
-/

namespace RadioHal.Wifi

open CLib Dialogue

/-! ### Closing -/

/-- The tables stay in order when the HAL is closed. -/
theorem yields_wifiHalClose {sc : WifiSoftc} (hsc : WellRecorded sc) :
    Yields (fun r : WifiSoftc × ℤ => WellRecorded r.1) (wifiHalClose sc) := by
  have hclear :
      ∀ (s : WifiSoftc) (i : Slot), WellRecorded s → WellRecorded (s.clearInterface i) := by
    intro s i hs
    have hother : ∀ j, (s.clearInterface i).ifname j ≠ [] → j ≠ i ∧ s.ifname j ≠ [] := by
      intro j hj
      have hji : j ≠ i := by
        rintro rfl
        exact hj (Function.update_self ..)
      have hname : Function.update s.ifname i [] j ≠ [] := hj
      rw [Function.update_of_ne hji] at hname
      exact ⟨hji, hname⟩
    refine ⟨fun j hj => ?_, fun j hj => ?_, hs.inOrder⟩
    · obtain ⟨hji, hname⟩ := hother j hj
      show 0 < Function.update s.ifindex i (-1) j
      rw [Function.update_of_ne hji]
      exact hs.ifindex j hname
    · exact hs.phyname j (hother j hj).2
  have hloop : ∀ (is : List Slot) (s : WifiSoftc), WellRecorded s →
      Yields WellRecorded (closeRadios is s) := by
    intro is
    induction is with
    | nil => exact fun s hs => hs
    | cons i is ih => exact fun s hs => Yields.bind_of_forall fun _ => ih _ (hclear s i hs)
  refine (hloop sc.radios sc hsc).bind fun s hs => ?_
  exact Yields.bind_of_forall fun _ => hs

/-! ### Using the HAL -/

section Use

variable (nl : Netlink.Libnl NlAttrs) (ctx : WifiContext) {allowed : KernelAnswer → Prop}
  {live : Set Handle} {R : WifiSoftc → Prop}

/-- What a waiting loop that is left has made of the data. -/
theorem yields_nlRecvmsgs {σ : Type} (cb : Netlink.Callbacks σ NlAttrs) (a : KernelAnswer) (s : σ) :
    Yields (fun s' => a.data.foldlM cb.handle s = some s') (nlRecvmsgs nl cb a s) := by
  rw [nlRecvmsgs_eq]
  cases a.data.foldlM cb.handle s with
  | none => exact fun e => e.elim
  | some s' =>
    show Yields _ (if _ then _ else _)
    split
    · rfl
    · exact fun e => e.elim

/-- A dump of the interfaces comes back with other tables at most. -/
theorem yields_wifiHalGetInterface (sc : WifiSoftc) :
    Yields (fun r : WifiSoftc × ℤ => ∃ ifindex ifname phyname radioAmount,
      r.1 = sc.withTables ifindex ifname phyname radioAmount) (wifiHalGetInterface nl sc) := by
  have hsame : ∃ ifindex ifname phyname radioAmount,
      sc = sc.withTables ifindex ifname phyname radioAmount :=
    ⟨sc.ifindex, sc.ifname, sc.phyname, sc.radioAmount, rfl⟩
  intro allocated
  cases allocated with
  | false => exact hsame
  | true =>
    intro answer
    cases answer with
    | none => exact hsame
    | some a =>
      refine (yields_nlRecvmsgs nl ifCb a sc).bind fun s hfold => ?_
      refine Netlink.foldlM_keeps (fun s => ∃ ifindex ifname phyname radioAmount,
        s = sc.withTables ifindex ifname phyname radioAmount) (fun msg _ s s' hs hstep => ?_)
        hsame hfold
      obtain ⟨_, _, _, _, rfl⟩ := hs
      obtain ⟨ifindex, ifname, phyname, radioAmount, rfl⟩ := exists_of_wifiHalIfnameRespHdlr hstep
      exact ⟨ifindex, ifname, phyname, radioAmount, rfl⟩

theorem onlyAsks_wifiHalGetStainfo (sc : WifiSoftc) (index : Slot) :
    OnlyAsks WifiQ.Plain (wifiHalGetStainfo nl sc index) := by
  refine ⟨trivial, fun allocated => ?_⟩
  cases allocated with
  | false => trivial
  | true =>
    refine ⟨trivial, fun answer => ?_⟩
    cases answer with
    | none => trivial
    | some a =>
      have hmessages := onlyAsks_unsent (onlyAsks_nlRecvmsgs nl linkInfoCb a sc)
      exact (onlyAsks_plain_of_certain (onlyAsks_certain hmessages)).bind fun _ => trivial

/-- A dump of the stations leaves the tables as they are. -/
theorem yields_wifiHalGetStainfo (sc : WifiSoftc) (index : Slot) :
    Yields (fun r : WifiSoftc × ℤ => SameTables sc r.1) (wifiHalGetStainfo nl sc index) := by
  intro allocated
  cases allocated with
  | false => exact SameTables.refl sc
  | true =>
    intro answer
    cases answer with
    | none => exact SameTables.refl sc
    | some a =>
      refine (yields_nlRecvmsgs nl linkInfoCb a sc).bind fun s hfold => ?_
      refine Netlink.foldlM_keeps (SameTables sc) (fun msg _ s s' hs hstep => ?_)
        (SameTables.refl sc) hfold
      obtain ⟨signal, tx, rx, rfl⟩ := exists_of_wifiHalConnectionInfoHdlr hstep
      exact hs.trans ⟨rfl, rfl, rfl, rfl, fun _ => rfl, fun _ => rfl⟩

variable (hsame : ∀ s s', R s → SameTables s s' → R s')
  (hdump : ∀ a s s', R s → allowed a → a.data.foldlM wifiHalIfnameRespHdlr s = some s' → R s')
include hsame hdump

/-- Whatever the dumps of the interfaces keep, a reading keeps. -/
theorem wp_reading {sc : WifiSoftc} (hsc : R sc) (index : Slot) (value : WifiSoftc → ℤ) :
    wp (hal allowed) (fun _ _ => True) (fun r live' => R r.1 ∧ live ⊆ live')
      (readingDumps nl sc index >>= fun sc' => ret (sc', value sc')) live := by
  rw [wp_bind]
  unfold readingDumps
  rw [wp_bind]
  refine wp_consequence (wp_wifiHalGetInterface nl sc) ?_
  rintro ⟨sc₁, err⟩ live₁ ⟨rfl, hlisted⟩
  have hsc₁ : R sc₁ := by
    rcases hlisted with ⟨rfl, -⟩ | ⟨a, ha, hfold⟩
    · exact hsc
    · exact hdump a sc sc₁ hsc ha hfold
  rw [wp_bind]
  refine wp_consequence (wp_of_plain_hal (onlyAsks_wifiHalGetStainfo nl sc₁ index)
    (yields_wifiHalGetStainfo nl sc₁ index)) ?_
  rintro stations live₂ ⟨htables, hlive⟩
  exact ⟨hsame sc₁ stations.1 hsc₁ htables, hlive⟩

/-- A handler of the event loop keeps the tables as well. -/
theorem wp_handler {sc : WifiSoftc} (hsc : R sc) (index : Slot) (handler : WifiEventHandler) :
    wp (hal allowed) (fun _ _ => True) (fun r live' => R r.1 ∧ live ⊆ live')
      (handler.call nl ctx sc index) live := by
  cases handler with
  | init =>
    -- starting a radio keeps the tables
    refine wp_consequence (wp_of_plain_hal (onlyAsks_initHandler nl ctx sc index)
      (yields_initHandler nl ctx sc index)) ?_
    rintro r live' ⟨⟨hkept, -⟩, hlive⟩
    exact ⟨hsame sc r.1 hsc hkept.toSameTables, hlive⟩
  | initStage2 =>
    have hyields : Yields (fun r : WifiSoftc × WifiState => r.1 = sc)
        (initStage2Handler nl ctx sc index) := by
      refine Yields.bind_of_forall fun config => ?_
      split
      · exact Yields.bind_of_forall fun _ => Yields.bind_of_forall fun _ => rfl
      · rfl
    refine wp_consequence (wp_of_plain_hal (onlyAsks_initStage2Handler nl ctx sc index) hyields) ?_
    rintro r live' ⟨hr, hlive⟩
    exact ⟨hr ▸ hsc, hlive⟩
  | terminate => exact ⟨hsc, subset_rfl⟩
  | disconnected =>
    -- the reading takes a dump, and the scan asks wpa_supplicant only
    show wp _ _ _ (wifiHalGetRssi nl sc index >>= _) _
    rw [wp_bind]
    refine wp_consequence (wp_reading nl hsame hdump hsc index fun s => s.signal index) ?_
    rintro rssi live₁ ⟨hrssi, hlive₁⟩
    rw [wp_bind]
    have hscan := onlyAsks_plain (onlyAsks_wifiHalGetScanResults rssi.1 index)
    refine wp_consequence (wp_of_plain_hal hscan
      (Yields.of_forall (R := fun _ => True) (fun _ => trivial) _)) ?_
    rintro results live₂ ⟨-, hlive₂⟩
    exact ⟨hrssi, hlive₁.trans hlive₂⟩
  | connected =>
    show wp _ _ _ (wifiHalGetRssi nl sc index >>= _) _
    rw [wp_bind]
    exact wp_reading nl hsame hdump hsc index fun s => s.signal index

end Use

/-! ### The event loop -/

section EventLoop

variable (nl : Netlink.Libnl NlAttrs) (ctx : WifiContext)

theorem onlyAsks_wifiHalWaitOnEvent (sc : WifiSoftc) (index : ℤ) (buflen : ℕ) :
    OnlyAsks WifiQ.Gentle (wifiHalWaitOnEvent sc index buflen) := by
  have hplain : ∀ {α : Type} {p : WifiM α}, OnlyAsks WifiQ.Plain p → OnlyAsks WifiQ.Gentle p :=
    fun hp => hp.mono fun _ => Or.inl
  -- the loop over the monitors looks and receives
  have hloop : ∀ is, OnlyAsks WifiQ.Plain (monitorLoop sc (buflen - 1) index is) := by
    intro is
    induction is with
    | nil =>
      unfold monitorLoop WifiM.endOfTable
      split
      · trivial
      · exact ⟨trivial, fun e => e.elim⟩
    | cons i is ih =>
      refine (onlyAsks_deref trivial _).bind fun monitor => ?_
      refine ⟨trivial, fun pending => ?_⟩
      cases pending with
      | true => exact ⟨trivial, fun _ => trivial⟩
      | false => exact ih
  -- in front of it there are `poll` and the pointers to the monitors
  have hrecv : OnlyAsks WifiQ.Plain (wifiHalCtrlRecv sc index (buflen - 1)) := by
    unfold wifiHalCtrlRecv
    split
    · trivial
    refine (onlyAsks_deref trivial _).bind fun _ =>
      (onlyAsks_deref trivial _).bind fun _ => ?_
    refine ⟨trivial, fun res => ?_⟩
    cases res with
    | none => trivial
    | some ready => exact hloop sc.radios
  refine ⟨Or.inr rfl, fun _ => ?_⟩
  show OnlyAsks _ (if _ then _ else _)
  split
  · trivial
  refine (hplain hrecv).bind fun r => ?_
  -- behind it a text is cut
  unfold eventOfRecv
  split
  · trivial
  split
  · trivial
  split
  · exact ⟨Or.inl trivial, fun e => e.elim⟩
  · trivial

theorem onlyAsks_nextEvent (s : WifiEvents) : OnlyAsks WifiQ.Gentle (nextEvent s) := by
  have hslot : ∀ i, OnlyAsks WifiQ.Gentle (WifiM.slot i) := fun i =>
    (onlyAsks_slot i).mono fun _ hq => Or.inl hq.inert.plain
  unfold nextEvent
  split
  · refine ⟨Or.inl trivial, fun _ => ?_⟩
    refine (onlyAsks_wifiHalWaitOnEvent s.sc s.index eventBufLen).bind fun event => ?_
    exact ⟨Or.inl trivial, fun _ => (hslot _).bind fun _ => trivial⟩
  · have hload : OnlyAsks WifiQ.Gentle (loadState s.sc (s.index + 1)) := by
      refine ⟨Or.inl trivial, fun _ => ?_⟩
      show OnlyAsks _ (if _ then _ else _)
      split
      · trivial
      · exact (hslot _).bind fun _ => trivial
    refine hload.bind fun next => ?_
    split
    · exact ⟨Or.inl trivial, fun _ => trivial⟩
    · trivial

theorem yields_nextEvent (s : WifiEvents) :
    Yields (fun o => ∀ s', o = some s' → s'.sc = s.sc) (nextEvent s) := by
  unfold nextEvent
  split
  · refine Yields.bind_of_forall fun _ => Yields.bind_of_forall fun event => ?_
    refine Yields.bind_of_forall fun _ => Yields.bind_of_forall fun slot => ?_
    rintro s' ⟨⟩
    rfl
  · refine Yields.bind_of_forall fun next => ?_
    split
    · rintro _ s' ⟨⟩
      rfl
    · rintro s' ⟨⟩

variable {allowed : KernelAnswer → Prop} {live : Set Handle} {R : WifiSoftc → Prop}
  (hsame : ∀ s s', R s → SameTables s s' → R s')
  (hdump : ∀ a s s', R s → allowed a → a.data.foldlM wifiHalIfnameRespHdlr s = some s' → R s')
include hsame hdump

/-- A round of the event loop keeps what the dumps of the interfaces keep. -/
theorem wp_wifiEventsRound {s : WifiEvents} (hs : R s.sc) :
    wp (hal allowed) (fun _ _ => True)
      (fun o live' => R (o.elim s.sc WifiEvents.sc) ∧ live ⊆ live')
      (wifiEventsRound nl ctx s) live := by
  unfold wifiEventsRound
  rw [wp_bind]
  refine wp_consequence (wp_of_gentle (onlyAsks_nextEvent s) (yields_nextEvent s)) ?_
  rintro next live₁ ⟨hnext, hlive₁⟩
  cases next with
  -- the startup is over
  | none => exact ⟨hs, hlive₁⟩
  | some s₁ =>
    have hs₁ : s₁.sc = s.sc := hnext s₁ rfl
    refine ⟨trivial, ?_⟩
    rintro _ live₂ hlive₂
    obtain rfl : live₂ = live₁ := hlive₂
    show wp _ _ _ (WifiM.slot s₁.index >>= _) _
    rw [wp_bind]
    refine wp_consequence (wp_of_plain_hal (onlyAsks_plain_of_certain (onlyAsks_slot s₁.index))
      (Yields.of_forall (R := fun _ => True) (fun _ => trivial) _)) ?_
    -- a radio has been picked; an event without meaning is passed over
    rintro slot live₃ ⟨-, hlive₃⟩
    split
    · exact ⟨hs₁ ▸ hs, hlive₁.trans hlive₃⟩
    rw [wp_bind]
    refine wp_consequence (wp_of_plain_hal (onlyAsks_someShutdown s₁.sc s₁.sc.radios)
      (Yields.of_forall (R := fun _ => True) (fun _ => trivial) _)) ?_
    -- when a radio is shut down the loop ends
    rintro shutdown live₄ ⟨-, hlive₄⟩
    have hlive := (hlive₁.trans hlive₃).trans hlive₄
    split
    · exact ⟨hs, hlive⟩
    -- otherwise the handler of the row is called, if there is one
    unfold dispatch
    split
    · cases findHandler (s₁.sc.state slot) (s₁.eNewEvent slot) with
      | none => exact ⟨hs₁ ▸ hs, hlive⟩
      | some handler =>
        show wp _ _ _ (handler.call nl ctx s₁.sc slot >>= _) _
        rw [wp_bind]
        refine wp_consequence (wp_handler nl ctx hsame hdump (hs₁ ▸ hs) slot handler) ?_
        rintro r live₅ ⟨hr, hlive₅⟩
        refine ⟨hsame r.1 _ hr ?_, hlive.trans hlive₅⟩
        exact ⟨rfl, rfl, rfl, rfl, fun _ => rfl, fun _ => rfl⟩
    · exact ⟨hs₁ ▸ hs, hlive⟩

end EventLoop

/-! ### Runs -/

/-- The calls of a user, the event loop taken apart into its rounds. -/
inductive HalCall
  | halOpen
  | halClose
  | getRssi (index : Slot)
  | getTxrate (index : Slot)
  | getRxrate (index : Slot)
  | joinMesh (index : Slot)
  /-- What comes before the loop of `wifi_events`. -/
  | eventsStart
  /-- A round of the loop, with its variables. -/
  | eventsRound (eNewEvent : Slot → ℤ) (stateMachine : WifiState) (index : ℤ)

/-- The softc, the open connections, and whether the last `wifi_hal_open` succeeded and has not been
followed by `wifi_hal_close`. -/
structure HalState where
  sc : WifiSoftc
  live : Set Handle
  opened : Bool

namespace HalCall

/-- The program of a call; what has no result returns zero. -/
def run (nl : Netlink.Libnl NlAttrs) (ctx : WifiContext) (sc : WifiSoftc) :
    HalCall → WifiM (WifiSoftc × ℤ)
  | halOpen => wifiHalOpen nl sc
  | halClose => wifiHalClose sc
  | getRssi index => wifiHalGetRssi nl sc index
  | getTxrate index => wifiHalGetTxrate nl sc index
  | getRxrate index => wifiHalGetRxrate nl sc index
  | joinMesh index => wifiHalJoinMesh nl ctx sc index
  | eventsStart => do
    let s ← wifiEventsStart sc
    return (s.sc, 0)
  | eventsRound eNewEvent stateMachine index => do
    let o ← wifiEventsRound nl ctx ⟨sc, eNewEvent, stateMachine, index⟩
    return (o.elim sc WifiEvents.sc, 0)

/-- Whether the HAL is opened after a call that returned `result`. -/
def leavesOpened (opened : Bool) (result : ℤ) : HalCall → Bool
  | halOpen => result = 0
  | halClose => false
  | _ => opened

end HalCall

/-- The states that calls lead to, one after the other, from `wifi_hal_attach` on; the kernel
answers dumps of the interfaces as `allowed`. -/
inductive HalRun (nl : Netlink.Libnl NlAttrs) (ctx : WifiContext)
    (allowed : HalState → HalCall → KernelAnswer → Prop) : HalState → Prop
  | attach : HalRun nl ctx allowed ⟨wifiHalAttach, ∅, false⟩
  | call {s : HalState} (c : HalCall) {r : WifiSoftc × ℤ} {live' : Set Handle}
      (hrun : HalRun nl ctx allowed s)
      (hcall : Reach (hal (allowed s c)) s.live (c.run nl ctx s.sc) live' (ret r)) :
      HalRun nl ctx allowed ⟨r.1, live', c.leavesOpened s.opened r.2⟩

/-- **The dumps that put the slots in order, or keep them so**: the dump of an opening brings an
interface to a slot without a phy name, and while the HAL is opened no dump brings an interface to
a free slot. -/
def Harmless (s : HalState) (a : KernelAnswer) : HalCall → Prop
  | .halOpen => Admits s.sc a
  | .halClose => True
  | _ => s.opened = true → Quiet s.sc a

/-- What is kept along runs: the tables are in order, and the slots too when the HAL is opened. -/
structure InOrder (s : HalState) : Prop where
  recorded : WellRecorded s.sc
  slots : s.opened = true → SlotInvariant s.sc s.live

section Runs

variable {nl : Netlink.Libnl NlAttrs} {ctx : WifiContext} {s : HalState} {r : WifiSoftc × ℤ}
  {live' : Set Handle}

/-- What using the HAL keeps: the tables are in order, and do not change once it is open. -/
def KeptBy (s : HalState) (sc : WifiSoftc) : Prop :=
  WellRecorded sc ∧ (s.opened = true → SameTables s.sc sc)

theorem KeptBy.sameTables {sc sc' : WifiSoftc} (h : KeptBy s sc) (h' : SameTables sc sc') :
    KeptBy s sc' :=
  ⟨h.1.sameNames h'.sameNames, fun hopened => (h.2 hopened).trans h'⟩

/-- A dump while the HAL is not opened, or one that brings nothing new. -/
theorem KeptBy.dump {sc sc' : WifiSoftc} {a : KernelAnswer} (h : KeptBy s sc)
    (ha : IsDump a ∧ (s.opened = true → Quiet s.sc a))
    (hfold : a.data.foldlM wifiHalIfnameRespHdlr sc = some sc') : KeptBy s sc' := by
  obtain ⟨hdump, hquiet⟩ := ha
  refine ⟨h.1.dump hdump hfold, fun hopened => ?_⟩
  have htables := h.2 hopened
  -- the question whether a dump is quiet is one about the names in the tables
  have hquiet' : Quiet sc a := by
    intro name hname
    unfold WifiSoftc.knows
    rw [htables.ifname]
    exact hquiet hopened name hname
  rw [hquiet'.dump h.1 hdump hfold]
  exact htables

/-- **Any call but opening and closing** keeps the tables in order, and leaves those of an opened
HAL and its connections as they are. -/
theorem wp_use (c : HalCall) (hopen : c ≠ .halOpen) (hclose : c ≠ .halClose)
    (hs : WellRecorded s.sc) :
    wp (hal fun a => IsDump a ∧ (s.opened = true → Quiet s.sc a)) (fun _ _ => True)
      (fun r live' => KeptBy s r.1 ∧ s.live ⊆ live') (c.run nl ctx s.sc) s.live := by
  have hsc : KeptBy s s.sc := ⟨hs, fun _ => SameTables.refl s.sc⟩
  have hsame : ∀ sc sc', KeptBy s sc → SameTables sc sc' → KeptBy s sc' :=
    fun _ _ h h' => h.sameTables h'
  have hdump : ∀ (a : KernelAnswer) (sc sc' : WifiSoftc), KeptBy s sc →
      (IsDump a ∧ (s.opened = true → Quiet s.sc a)) →
      a.data.foldlM wifiHalIfnameRespHdlr sc = some sc' → KeptBy s sc' :=
    fun _ _ _ h ha hfold => h.dump ha hfold
  cases c with
  | halOpen => exact absurd rfl hopen
  | halClose => exact absurd rfl hclose
  -- the readings take a dump each
  | getRssi index => exact wp_reading nl hsame hdump hsc index fun sc => sc.signal index
  | getTxrate index => exact wp_reading nl hsame hdump hsc index fun sc => sc.txrate index
  | getRxrate index => exact wp_reading nl hsame hdump hsc index fun sc => sc.rxrate index
  | joinMesh index =>
    -- all other calls touch neither names nor indices
    refine wp_consequence (wp_of_plain_hal (onlyAsks_wifiHalJoinMesh nl ctx s.sc index)
      (yields_wifiHalJoinMesh nl ctx s.sc index)) ?_
    rintro r live' ⟨hkept, hlive⟩
    exact ⟨hsc.sameTables hkept.toSameTables, hlive⟩
  | eventsStart =>
    have hstart : Yields (fun e : WifiEvents => SameTables s.sc e.sc) (wifiEventsStart s.sc) :=
      Yields.bind_of_forall fun _ _ _ => ⟨rfl, rfl, rfl, rfl, fun _ => rfl, fun _ => rfl⟩
    show wp _ _ _ (wifiEventsStart s.sc >>= _) _
    rw [wp_bind]
    refine wp_consequence (wp_of_plain_hal (onlyAsks_wifiEventsStart s.sc) hstart) ?_
    rintro e live' ⟨htables, hlive⟩
    exact ⟨hsc.sameTables htables, hlive⟩
  | eventsRound eNewEvent stateMachine index =>
    show wp _ _ _ (wifiEventsRound nl ctx ⟨s.sc, eNewEvent, stateMachine, index⟩ >>= _) _
    rw [wp_bind]
    exact wp_wifiEventsRound (s := ⟨s.sc, eNewEvent, stateMachine, index⟩) nl ctx hsame hdump hsc

/-- One call whose dumps are harmless keeps everything in order. -/
theorem InOrder.call (hs : InOrder s) (c : HalCall)
    (hcall : Reach (hal fun a => IsDump a ∧ Harmless s a c) s.live (c.run nl ctx s.sc) live'
      (ret r)) :
    InOrder ⟨r.1, live', c.leavesOpened s.opened r.2⟩ := by
  by_cases hopen : c = .halOpen
  · subst hopen
    obtain ⟨hrecorded, hslots⟩ := wp_reach hcall (wp_wifiHalOpen nl hs.recorded)
    exact ⟨hrecorded, fun h => hslots (by simpa [HalCall.leavesOpened] using h)⟩
  by_cases hclose : c = .halClose
  · subst hclose
    have hrecorded := (yields_wifiHalClose hs.recorded).of_reach hcall
    exact ⟨hrecorded, fun h => absurd h (by simp [HalCall.leavesOpened])⟩
  have hharmless : ∀ a, Harmless s a c ↔ (s.opened = true → Quiet s.sc a) := by
    intro a
    cases c <;> first | exact absurd rfl hopen | exact absurd rfl hclose | rfl
  have hleaves : c.leavesOpened s.opened r.2 = s.opened := by
    cases c <;> first | exact absurd rfl hopen | exact absurd rfl hclose | rfl
  simp only [hharmless] at hcall
  obtain ⟨hkept, hlive⟩ := wp_reach hcall (wp_use c hopen hclose hs.recorded)
  rw [hleaves]
  exact ⟨hkept.1, fun h => (hs.slots h).sameTables (hkept.2 h) hlive⟩

/-- Everything is in order along runs whose dumps are harmless. -/
theorem inOrder_of_run
    (hrun : HalRun nl ctx (fun s c a => IsDump a ∧ Harmless s a c) s) : InOrder s := by
  induction hrun with
  | attach => exact ⟨wellRecorded_wifiHalAttach, fun h => absurd h (by simp)⟩
  | call c _ hcall ih => exact ih.call c hcall

/-- **In every run whose dumps are harmless, an opened HAL has its slots in order.** The dump of an
opening brings an interface to a slot without a phy name, and while the HAL is open no dump brings
one to a free slot.  All calls keep the slots in order, whatever they come to. -/
theorem slotInvariant_of_opened (nl : Netlink.Libnl NlAttrs) (ctx : WifiContext) {s : HalState}
    (hrun : HalRun nl ctx (fun s c a => IsDump a ∧ Harmless s a c) s) (hopened : s.opened = true) :
    SlotInvariant s.sc s.live :=
  (inOrder_of_run hrun).slots hopened

end Runs

/-! ### Opening can succeed -/

section Success

variable {allowed : KernelAnswer → Prop} {live : Set Handle}

/-- Attaching to a radio succeeds when `wpa_supplicant` answers. -/
theorem reach_wifiHalWpaAttach (sc : WifiSoftc) (i : Slot) {c m : Handle} (hc : c ∉ live)
    (hm : m ∉ insert c live) :
    Reach (hal allowed) live (wifiHalWpaAttach sc i) (insert m (insert c live))
      (ret (sc.setWpaCtx i ⟨some c, some m, none⟩, 0)) := by
  have hattach : Reach (hal allowed) (insert m (insert c live)) (wpaCtrlAttach (some m))
      (insert m (insert c live)) (ret 0) :=
    .reply (CharArray.zero 10) rfl
      (.reply (WpaAnswer.received ["OK\n".toList] .timeout) rfl (.start _ _))
  refine .reply (some c) ⟨hc, rfl⟩ (.reply (some m) ⟨hm, rfl⟩ ?_)
  exact (hattach.bind _).trans (.start _ _)

theorem exists_reach_attachRadios (allowed : KernelAnswer → Prop) (is : List Slot)
    (sc : WifiSoftc) (hlive : live.Finite) :
    ∃ sc' live', SameNames sc sc' ∧
      Reach (hal allowed) live (attachRadios is sc) live' (ret (sc', 0)) := by
  induction is generalizing sc live with
  | nil => exact ⟨sc, live, ⟨rfl, rfl, rfl, rfl⟩, .start _ _⟩
  | cons i is ih =>
    obtain ⟨c, hc⟩ := hlive.exists_notMem
    obtain ⟨m, hm⟩ := (hlive.insert c).exists_notMem
    obtain ⟨sc', live', hnames, hreach⟩ :=
      ih (sc.setWpaCtx i ⟨some c, some m, none⟩) ((hlive.insert c).insert m)
    refine ⟨sc', live', (sameNames_setWpaCtx sc i _).trans hnames, ?_⟩
    exact ((reach_wifiHalWpaAttach sc i hc hm).bind _).trans hreach

/-- A dump that is read to its end makes of the softc what its messages make of it. -/
theorem reach_wifiHalGetInterface (nl : Netlink.Libnl NlAttrs) {sc sc₁ : WifiSoftc}
    {a : KernelAnswer} (ha : allowed a) (hending : a.ending = .done)
    (hfold : a.data.foldlM wifiHalIfnameRespHdlr sc = some sc₁) :
    Reach (hal allowed) live (wifiHalGetInterface nl sc) live
      (ret (sc₁, if sc₁.ifindex 0 = 0 then -22 else 0)) := by
  have hrecv : nlRecvmsgs nl ifCb a sc = ret sc₁ := by
    have hhandle : ifCb.handle = wifiHalIfnameRespHdlr := rfl
    rw [nlRecvmsgs_eq, hhandle, hfold, hending]
    rfl
  refine .reply true rfl (.reply (some a) ⟨?_, rfl⟩ ?_)
  · rintro _ ⟨⟩
    exact ha
  · show Reach _ _ (nlRecvmsgs nl ifCb a sc >>= _) _ _
    rw [hrecv]
    exact .start _ _

/-- A reading of the signal goes on behind its first dump, and may find no memory for the second. -/
theorem reach_wifiHalGetRssi (nl : Netlink.Libnl NlAttrs) (allowed : KernelAnswer → Prop)
    {sc sc₁ : WifiSoftc} {a : KernelAnswer} (ha : allowed a) (hending : a.ending = .done)
    (hfold : a.data.foldlM wifiHalIfnameRespHdlr sc = some sc₁) (index : Slot) :
    Reach (hal allowed) live (wifiHalGetRssi nl sc index) live
      (ret (sc₁, sc₁.signal index)) := by
  have hstations : Reach (hal allowed) live (wifiHalGetStainfo nl sc₁ index) live
      (ret (sc₁, -12)) := .reply false rfl (.start _ _)
  have hdumps : Reach (hal allowed) live (readingDumps nl sc index) live (ret sc₁) :=
    ((reach_wifiHalGetInterface nl ha hending hfold).bind _).trans (hstations.bind _)
  exact hdumps.bind _

/-- Whatever dump it gets, `wifi_hal_open` can return zero. -/
theorem exists_reach_wifiHalOpen (nl : Netlink.Libnl NlAttrs) (allowed : KernelAnswer → Prop)
    (sc : WifiSoftc) {sc₁ : WifiSoftc} {a : KernelAnswer} (ha : allowed a)
    (hending : a.ending = .done)
    (hfold : a.data.foldlM wifiHalIfnameRespHdlr (listingStart sc) = some sc₁)
    (hindex : sc₁.ifindex 0 ≠ 0) (hmax : sc₁.radioAmount ≤ wifiRadioMax) (hlive : live.Finite) :
    ∃ sc' live', SameNames sc₁ sc' ∧
      Reach (hal allowed) live (wifiHalOpen nl sc) live' (ret (sc', 0)) := by
  have hlisted : Reach (hal allowed) live (wifiHalGetInterface nl (listingStart sc)) live
      (ret (sc₁, 0)) := by
    have hreach : Reach (hal allowed) live (wifiHalGetInterface nl (listingStart sc)) live
        (ret (sc₁, if sc₁.ifindex 0 = 0 then -22 else 0)) :=
      reach_wifiHalGetInterface nl ha hending hfold
    rwa [if_neg hindex] at hreach
  -- that the file for wpa_supplicant cannot be written is only logged
  have hstarted : Reach (hal allowed) live (wifiHalStartWpaDummyConfig sc₁) live (ret (-1)) :=
    .reply false rfl (.start _ _)
  obtain ⟨sc', live', hnames, hattached⟩ :=
    exists_reach_attachRadios allowed sc₁.radios sc₁ hlive
  refine ⟨sc', live', hnames, (hlisted.bind _).trans ?_⟩
  rw [ret_bind, if_neg (lt_irrefl 0)]
  unfold WifiM.endOfTable
  rw [if_pos hmax, ret_bind]
  exact (hstarted.bind _).trans hattached

end Success

/-- The message of an interface of the first phy. -/
def wlan0 : NlAttrs := ⟨some "wlan0".toList, some 3, some 0, none, fun _ => rfl⟩

/-- The dump of a machine with a single interface. -/
def singleDump : KernelAnswer := ⟨[], [wlan0], .done⟩

theorem isDump_singleDump : IsDump singleDump := by
  intro msg hmsg
  obtain rfl : msg = wlan0 := List.mem_singleton.mp hmsg
  refine ⟨?_, ?_, rfl⟩
  · rintro name ⟨⟩
    decide
  · rintro index ⟨⟩
    decide

theorem admits_singleDump : Admits wifiHalAttach singleDump := by
  unfold Admits
  decide

/-- The state after the HAL has been opened on a machine with a single interface. -/
theorem exists_run_singleDump (nl : Netlink.Libnl NlAttrs) (ctx : WifiContext) :
    ∃ sc live, HalRun nl ctx (fun s c a => IsDump a ∧ Harmless s a c) ⟨sc, live, true⟩ ∧
      sc.knows "wlan0".toList := by
  have hrecorded : WellRecorded (listingStart wifiHalAttach) :=
    (listing_listingStart wellRecorded_wifiHalAttach).toWellRecorded
  have hmsg : IsInterface wlan0 := isDump_singleDump wlan0 (List.mem_singleton.mpr rfl)
  have hfold : singleDump.data.foldlM wifiHalIfnameRespHdlr (listingStart wifiHalAttach) =
      some (record wlan0 "wlan0".toList 3 0 (listingStart wifiHalAttach)) := by
    show (wifiHalIfnameRespHdlr _ wlan0 >>= fun s => some s) = _
    rw [wifiHalIfnameRespHdlr_eq hrecorded.phyname rfl rfl (hmsg.short _ rfl)]
    rfl
  obtain ⟨sc, live, hnames, hreach⟩ := exists_reach_wifiHalOpen nl
    (fun a => IsDump a ∧ Admits wifiHalAttach a) wifiHalAttach
    ⟨isDump_singleDump, admits_singleDump⟩ rfl hfold (by decide) (by decide) Set.finite_empty
  have hrun : HalRun nl ctx (fun s c a => IsDump a ∧ Harmless s a c) ⟨sc, live, true⟩ :=
    .call (r := (sc, 0)) .halOpen .attach hreach
  refine ⟨sc, live, hrun, 0, ?_⟩
  rw [hnames.ifname, ifname_record, Function.update_self]
  decide

/-- A machine with a single interface: its slot is in order behind an opening, and it stays so in a
reading, whose dump brings the same interface again. -/
theorem singleDump_in_order :
    ∃ s r live', HalRun .standard twoConfigs (fun s c a => IsDump a ∧ Harmless s a c) s ∧
      s.opened = true ∧
      Reach (hal fun a => a = singleDump) s.live (wifiHalGetRssi .standard s.sc 0) live' (ret r) ∧
      SlotInvariant r.1 live' := by
  obtain ⟨sc, live, hrun, hknown⟩ := exists_run_singleDump .standard twoConfigs
  have hrecorded : WellRecorded sc := (inOrder_of_run hrun).recorded
  have hmsg : IsInterface wlan0 := isDump_singleDump wlan0 (List.mem_singleton.mpr rfl)
  -- the interface is known, so the dump is passed over
  have hfold : singleDump.data.foldlM wifiHalIfnameRespHdlr sc = some sc := by
    have hstep : wifiHalIfnameRespHdlr sc wlan0 = some sc := by
      rw [wifiHalIfnameRespHdlr_eq hrecorded.phyname rfl rfl (hmsg.short _ rfl)]
      exact congrArg some (if_pos hknown)
    show (wifiHalIfnameRespHdlr sc wlan0 >>= fun s => some s) = _
    rw [hstep]
    rfl
  have hquiet : Quiet sc singleDump := by
    intro name hname
    obtain rfl : name = "wlan0".toList := List.mem_singleton.mp hname
    exact Or.inl hknown
  have hread : HalRun .standard twoConfigs (fun s c a => IsDump a ∧ Harmless s a c)
      ⟨sc, live, true⟩ :=
    .call (r := (sc, sc.signal 0)) (.getRssi 0) hrun
      (reach_wifiHalGetRssi .standard _ ⟨isDump_singleDump, fun _ => hquiet⟩ rfl hfold 0)
  have hreach : Reach (hal fun a => a = singleDump) live (wifiHalGetRssi .standard sc 0) live
      (ret (sc, sc.signal 0)) :=
    reach_wifiHalGetRssi .standard (fun a => a = singleDump) rfl rfl hfold 0
  exact ⟨⟨sc, live, true⟩, (sc, sc.signal 0), live, hrun, rfl, hreach,
    slotInvariant_of_opened .standard twoConfigs hread rfl⟩

/-- Not every opened HAL has its slots in order: one without any interface has none. -/
theorem not_all_opened_in_order : ¬ ∀ (nl : Netlink.Libnl NlAttrs) (ctx : WifiContext)
    (s : HalState), HalRun nl ctx (fun _ _ a => IsDump a) s → s.opened = true →
    SlotInvariant s.sc s.live := by
  intro h
  have hdump : IsDump ⟨[], [], .done⟩ := fun msg hmsg => absurd hmsg List.not_mem_nil
  obtain ⟨sc, live, hnames, hreach⟩ := exists_reach_wifiHalOpen .standard IsDump wifiHalAttach hdump
    rfl rfl (by decide) (by decide) Set.finite_empty
  have hslots := h .standard twoConfigs _ (.call .halOpen .attach hreach) rfl
  have hpos : 1 ≤ sc.radioAmount := hslots.one_le
  rw [hnames.radioAmount] at hpos
  exact absurd hpos (by decide)

end RadioHal.Wifi
