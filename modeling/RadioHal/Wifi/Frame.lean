import RadioHal.Wifi.Events

/-!
# What the operations leave alone

Setting a network up, on whatever answers, asks for no dump of the interfaces and closes no
connection, and of the softc it changes the mesh connection and the debugfs data of the radio
only.

## Main definitions

* `WifiQ.Plain` — questions that neither dump the interfaces, nor close a connection, nor belong
  to waiting for an event.
* `WifiQ.Inert` — plain questions that open no connection.
* `WifiQ.Certain`, `WifiQ.Unsent` — inert questions that do not read memory that has not been
  assigned, and of these those that send nothing to wpa_supplicant.
* `WifiQ.Mute` — unsent questions that write no file either.
* `OfCommands` — predicates that hold of the questions of a command to wpa_supplicant.
* `SameTables sc sc'`, `Kept sc sc'` — the tables and the connections the events come over are the
  same; the states are, too.

## Main results

* `onlyAsks_initHandler`, `yields_initHandler` — both, for the handler that starts a radio.
-/

namespace RadioHal.Wifi

open CLib Dialogue

/-- A question of no consequence for the tables and the connections. -/
def WifiQ.Plain : WifiQ → Prop
  | .nlRequest .getInterface => False
  | .wpaClose _ => False
  | .callsWaitOnEvent => False
  | _ => True

/-- A plain question that opens no connection either. -/
def WifiQ.Inert : WifiQ → Prop
  | .wpaOpen _ => False
  | q => WifiQ.Plain q

theorem WifiQ.Inert.plain {q : WifiQ} (h : WifiQ.Inert q) : WifiQ.Plain q := by
  cases q <;> first | exact h | exact h.elim

/-- The contents of memory that has not been assigned. -/
def WifiQ.OfMemory : WifiQ → Prop
  | .uninit => True
  | .uninitBuffer _ => True
  | _ => False

/-- An inert question that is not one for such contents. -/
def WifiQ.Certain : WifiQ → Prop
  | .uninit => False
  | .uninitBuffer _ => False
  | q => WifiQ.Inert q

theorem WifiQ.Certain.inert {q : WifiQ} (h : WifiQ.Certain q) : WifiQ.Inert q := by
  cases q <;> first | exact h | exact h.elim

theorem WifiQ.Certain.not_ofMemory {q : WifiQ} (h : WifiQ.Certain q) : ¬ WifiQ.OfMemory q := by
  cases q <;> first | exact not_false | exact h.elim

/-- One that sends nothing to wpa_supplicant either. -/
def WifiQ.Unsent : WifiQ → Prop
  | .wpaRequest _ _ => False
  | q => WifiQ.Certain q

theorem WifiQ.Unsent.certain {q : WifiQ} (h : WifiQ.Unsent q) : WifiQ.Certain q := by
  cases q <;> first | exact h | exact h.elim

/-- A question that neither sends anything nor writes a file. -/
def WifiQ.Mute : WifiQ → Prop
  | .writeFile _ _ => False
  | q => WifiQ.Unsent q

theorem WifiQ.Mute.unsent {q : WifiQ} (h : WifiQ.Mute q) : WifiQ.Unsent q := by
  cases q <;> first | exact h | exact h.elim

/-- `P` holds of what a command to wpa_supplicant asks. -/
structure OfCommands (P : WifiQ → Prop) : Prop where
  nullDeref : P .nullDeref
  wpaRequest : ∀ ctrl cmd, P (.wpaRequest ctrl cmd)

theorem ofCommands_certain : OfCommands WifiQ.Certain := ⟨trivial, fun _ _ => trivial⟩

/-- A program that asks inert questions asks plain ones. -/
theorem onlyAsks_plain {α : Type} {p : WifiM α} (h : OnlyAsks WifiQ.Inert p) :
    OnlyAsks WifiQ.Plain p := h.mono fun _ => WifiQ.Inert.plain

/-- A program whose questions are certain asks inert ones. -/
theorem onlyAsks_inert {α : Type} {p : WifiM α} (h : OnlyAsks WifiQ.Certain p) :
    OnlyAsks WifiQ.Inert p := h.mono fun _ => WifiQ.Certain.inert

theorem onlyAsks_plain_of_certain {α : Type} {p : WifiM α} (h : OnlyAsks WifiQ.Certain p) :
    OnlyAsks WifiQ.Plain p := onlyAsks_plain (onlyAsks_inert h)

theorem onlyAsks_certain {α : Type} {p : WifiM α} (h : OnlyAsks WifiQ.Unsent p) :
    OnlyAsks WifiQ.Certain p := h.mono fun _ => WifiQ.Unsent.certain

theorem onlyAsks_unsent {α : Type} {p : WifiM α} (h : OnlyAsks WifiQ.Mute p) :
    OnlyAsks WifiQ.Unsent p := h.mono fun _ => WifiQ.Mute.unsent

/-- The tables, and the connections the events come over, are the same. -/
structure SameTables (sc sc' : WifiSoftc) : Prop where
  ifindex : sc'.ifindex = sc.ifindex
  ifname : sc'.ifname = sc.ifname
  phyname : sc'.phyname = sc.phyname
  radioAmount : sc'.radioAmount = sc.radioAmount
  ctrl : ∀ i, (sc'.wpaCtx i).ctrl = (sc.wpaCtx i).ctrl
  monitor : ∀ i, (sc'.wpaCtx i).monitor = (sc.wpaCtx i).monitor

/-- The states are the same as well. -/
structure Kept (sc sc' : WifiSoftc) : Prop extends SameTables sc sc' where
  state : sc'.state = sc.state

theorem SameTables.refl (sc : WifiSoftc) : SameTables sc sc :=
  ⟨rfl, rfl, rfl, rfl, fun _ => rfl, fun _ => rfl⟩

theorem SameTables.trans {sc sc' sc'' : WifiSoftc} (h : SameTables sc sc')
    (h' : SameTables sc' sc'') : SameTables sc sc'' where
  ifindex := h'.ifindex.trans h.ifindex
  ifname := h'.ifname.trans h.ifname
  phyname := h'.phyname.trans h.phyname
  radioAmount := h'.radioAmount.trans h.radioAmount
  ctrl i := (h'.ctrl i).trans (h.ctrl i)
  monitor i := (h'.monitor i).trans (h.monitor i)

theorem Kept.refl (sc : WifiSoftc) : Kept sc sc := ⟨.refl sc, rfl⟩

theorem Kept.trans {sc sc' sc'' : WifiSoftc} (h : Kept sc sc') (h' : Kept sc' sc'') :
    Kept sc sc'' :=
  ⟨h.toSameTables.trans h'.toSameTables, h'.state.trans h.state⟩

theorem kept_setDebugfsRoot (sc : WifiSoftc) (index : Slot) (root : Text) :
    Kept sc (sc.setDebugfsRoot index root) :=
  ⟨⟨rfl, rfl, rfl, rfl, fun _ => rfl, fun _ => rfl⟩, rfl⟩

theorem kept_setMeshCtrl (sc : WifiSoftc) (index : Slot) (meshCtrl : Option Handle) :
    Kept sc (sc.setWpaCtx index { sc.wpaCtx index with meshCtrl := meshCtrl }) := by
  refine ⟨⟨rfl, rfl, rfl, rfl, fun i => ?_, fun i => ?_⟩, rfl⟩ <;>
  · by_cases hi : i = index
    · subst hi
      simp [WifiSoftc.setWpaCtx]
    · simp [WifiSoftc.setWpaCtx, hi]

/-! ### Questions -/

section Questions

theorem onlyAsks_deref {α : Type} {P : WifiQ → Prop} (hP : P .nullDeref) (x : Option α) :
    OnlyAsks P (WifiM.deref x) := by
  cases x with
  | none => exact ⟨hP, fun e => e.elim⟩
  | some a => trivial

theorem onlyAsks_slot (i : ℤ) : OnlyAsks WifiQ.Certain (WifiM.slot i) := by
  unfold WifiM.slot
  split
  · trivial
  · exact ⟨trivial, fun e => e.elim⟩

section Commands

variable {P : WifiQ → Prop} (hP : OfCommands P)
include hP

theorem onlyAsks_wpaCtrlRequest (ctrl : Option Handle) (cmd : Text) (r : Reply) :
    OnlyAsks P (wpaCtrlRequest ctrl cmd r) :=
  (onlyAsks_deref hP.nullDeref ctrl).bind fun _ => ⟨hP.wpaRequest _ _, fun _ => trivial⟩

theorem onlyAsks_wifiHalSendWpaCommand (sc : WifiSoftc) (index : Slot) (cmd : Text)
    (resp : Reply) : OnlyAsks P (wifiHalSendWpaCommand sc index cmd resp) := by
  unfold wifiHalSendWpaCommand
  split
  · trivial
  · exact (onlyAsks_wpaCtrlRequest hP _ cmd resp).bind fun _ => trivial

theorem onlyAsks_wifiHalSendWpaMeshCommand (sc : WifiSoftc) (index : Slot) (cmd : Text)
    (resp : Reply) : OnlyAsks P (wifiHalSendWpaMeshCommand sc index cmd resp) := by
  unfold wifiHalSendWpaMeshCommand
  split
  · trivial
  · exact (onlyAsks_wpaCtrlRequest hP _ cmd resp).bind fun _ => trivial

end Commands

theorem onlyAsks_okCommands {P : WifiQ → Prop} {send : Text → Reply → WifiM (ℤ × Reply)}
    {cmds : List Text} (hsend : ∀ cmd ∈ cmds, ∀ resp, OnlyAsks P (send cmd resp)) (resp : Reply) :
    OnlyAsks P (okCommands send cmds resp) := by
  induction cmds generalizing resp with
  | nil => trivial
  | cons cmd cmds ih =>
    obtain ⟨hfirst, hrest⟩ := List.forall_mem_cons.mp hsend
    refine (hfirst resp).bind fun r => ?_
    split
    · trivial
    · exact ih hrest r.2

theorem onlyAsks_wifiHalTriggerScan (sc : WifiSoftc) (index : Slot) :
    OnlyAsks WifiQ.Inert (wifiHalTriggerScan sc index) := by
  have hsend := onlyAsks_wifiHalSendWpaCommand ofCommands_certain sc index
  exact ⟨trivial, fun _ => (onlyAsks_inert (hsend _ _)).bind fun _ => trivial⟩

theorem onlyAsks_wifiHalGetScanResults (sc : WifiSoftc) (index : Slot) :
    OnlyAsks WifiQ.Inert (wifiHalGetScanResults sc index) := by
  have hsend := onlyAsks_wifiHalSendWpaCommand ofCommands_certain sc index
  refine ⟨trivial, fun buf => ?_⟩
  refine (onlyAsks_wifiHalTriggerScan sc index).bind fun _ => ?_
  exact (onlyAsks_inert (hsend _ _)).bind fun _ => trivial

variable (nl : Netlink.Libnl NlAttrs)

theorem onlyAsks_nlRecvmsgs {σ : Type} (cb : Netlink.Callbacks σ NlAttrs) (a : KernelAnswer)
    (s : σ) : OnlyAsks WifiQ.Mute (nlRecvmsgs nl cb a s) := by
  unfold nlRecvmsgs
  split
  · trivial
  · exact ⟨trivial, fun e => e.elim⟩
  · exact ⟨trivial, fun e => e.elim⟩

theorem onlyAsks_nlSet {request : NlRequest} (hrequest : request ≠ .getInterface) :
    OnlyAsks WifiQ.Mute (nlSet nl request) := by
  refine ⟨?_, fun answer => ?_⟩
  · cases request <;> first | exact absurd rfl hrequest | trivial
  · cases answer with
    | none => trivial
    | some a => exact (onlyAsks_nlRecvmsgs nl setCb a ()).bind fun _ => trivial

theorem onlyAsks_wifiHalSetDistance (sc : WifiSoftc) (index : Slot) (config : WifiConfig) :
    OnlyAsks WifiQ.Mute (wifiHalSetDistance nl sc index config) := by
  refine ⟨trivial, fun allocated => ?_⟩
  cases allocated with
  | false => trivial
  | true =>
    show OnlyAsks _ (if _ then _ else if _ then _ else if _ then _ else nlSet nl _)
    split
    · trivial
    split
    · trivial
    split
    · trivial
    exact onlyAsks_nlSet nl (by simp)

theorem onlyAsks_wifiHalSetTxpower (sc : WifiSoftc) (index : Slot) (config : WifiConfig) :
    OnlyAsks WifiQ.Mute (wifiHalSetTxpower nl sc index config) := by
  refine ⟨trivial, fun allocated => ?_⟩
  cases allocated with
  | false => trivial
  | true => exact ⟨trivial, fun ifindex => onlyAsks_nlSet nl (by simp)⟩

theorem onlyAsks_wifiHalSetCountry (config : WifiConfig) :
    OnlyAsks WifiQ.Mute (wifiHalSetCountry nl config) := by
  refine ⟨trivial, fun allocated => ?_⟩
  cases allocated with
  | false => trivial
  | true => exact onlyAsks_nlSet nl (by simp)

theorem onlyAsks_wifiHalSetMeshFwding (sc : WifiSoftc) (index : Slot) (meshFwding : ℤ) :
    OnlyAsks WifiQ.Mute (wifiHalSetMeshFwding nl sc index meshFwding) := by
  refine ⟨trivial, fun allocated => ?_⟩
  cases allocated with
  | false => trivial
  | true => exact ⟨trivial, fun ifindex => onlyAsks_nlSet nl (by simp)⟩

/-- The card is set by one write and some requests to the kernel. -/
theorem onlyAsks_setCard_of {P : WifiQ → Prop} (hP : ∀ q, WifiQ.Mute q → P q) (sc : WifiSoftc)
    (index : Slot) (config : WifiConfig)
    (hwrite : P (.writeFile (sc.debugfsRoot index ++ "/".toList ++ "chanbw".toList)
      config.bwText)) : OnlyAsks P (setCard nl sc index config) := by
  refine ⟨hwrite, fun opened => ?_⟩
  refine ((onlyAsks_wifiHalSetTxpower nl sc index config).mono hP).bind fun _ => ?_
  refine ((onlyAsks_wifiHalSetDistance nl sc index config).mono hP).bind fun _ => ?_
  exact ((onlyAsks_wifiHalSetCountry nl config).mono hP).bind fun _ => trivial

theorem onlyAsks_setCard (sc : WifiSoftc) (index : Slot) (config : WifiConfig) :
    OnlyAsks WifiQ.Unsent (setCard nl sc index config) :=
  onlyAsks_setCard_of nl (fun _ => WifiQ.Mute.unsent) sc index config trivial

variable (ctx : WifiContext)

section Modes

variable {P : WifiQ → Prop} {sc : WifiSoftc} {index : Slot} (hP : OfCommands P)
  (hcard : ∀ config, OnlyAsks P (setCard nl sc index config))
include hP hcard

theorem onlyAsks_wifiHalConnectAp_of : OnlyAsks P (wifiHalConnectAp nl ctx sc index) := by
  have hsend := onlyAsks_wifiHalSendWpaCommand hP sc index
  refine (hsend _ _).bind fun r => ?_
  dsimp only
  split
  · trivial
  refine (hsend _ _).bind fun r => ?_
  split
  · trivial
  refine (onlyAsks_deref hP.nullDeref _).bind fun config => ?_
  refine (hcard config).bind fun _ => ?_
  refine (hsend _ _).bind fun r => ?_
  split
  · trivial
  refine (hsend _ _).bind fun r => ?_
  split
  · trivial
  exact (hsend _ _).bind fun r => trivial

theorem onlyAsks_wifiHalCreateAp_of : OnlyAsks P (wifiHalCreateAp nl ctx sc index) := by
  have hsend := onlyAsks_wifiHalSendWpaCommand hP sc index
  refine (hsend _ _).bind fun r => ?_
  dsimp only
  split
  · trivial
  refine (hsend _ _).bind fun r => ?_
  split
  · trivial
  refine (onlyAsks_okCommands (fun _ _ => hsend _) _).bind fun mode => ?_
  cases mode with
  | none => trivial
  | some resp =>
    refine (onlyAsks_deref hP.nullDeref _).bind fun config => ?_
    refine (hcard config).bind fun _ => ?_
    exact (onlyAsks_okCommands (fun _ _ => hsend _) _).bind fun _ => trivial

theorem onlyAsks_joinMeshNetwork_of : OnlyAsks P (joinMeshNetwork nl ctx sc index) := by
  have hsend := onlyAsks_wifiHalSendWpaMeshCommand hP sc index
  refine (onlyAsks_wifiHalSendWpaCommand hP sc index _ _).bind fun r => ?_
  refine (hsend _ _).bind fun r => ?_
  dsimp only
  split
  · trivial
  refine (onlyAsks_okCommands (fun _ _ => hsend _) _).bind fun mode => ?_
  cases mode with
  | none => trivial
  | some resp =>
    refine (onlyAsks_deref hP.nullDeref _).bind fun config => ?_
    refine (hcard config).bind fun _ => ?_
    exact (onlyAsks_okCommands (fun _ _ => hsend _) _).bind fun _ => trivial

end Modes

theorem onlyAsks_wifiHalConnectAp (sc : WifiSoftc) (index : Slot) :
    OnlyAsks WifiQ.Certain (wifiHalConnectAp nl ctx sc index) :=
  onlyAsks_wifiHalConnectAp_of nl ctx ofCommands_certain fun config =>
    onlyAsks_certain (onlyAsks_setCard nl sc index config)

theorem onlyAsks_wifiHalCreateAp (sc : WifiSoftc) (index : Slot) :
    OnlyAsks WifiQ.Certain (wifiHalCreateAp nl ctx sc index) :=
  onlyAsks_wifiHalCreateAp_of nl ctx ofCommands_certain fun config =>
    onlyAsks_certain (onlyAsks_setCard nl sc index config)

theorem onlyAsks_joinMeshNetwork (sc : WifiSoftc) (index : Slot) :
    OnlyAsks WifiQ.Certain (joinMeshNetwork nl ctx sc index) :=
  onlyAsks_joinMeshNetwork_of nl ctx ofCommands_certain fun config =>
    onlyAsks_certain (onlyAsks_setCard nl sc index config)

theorem onlyAsks_wifiHalJoinMesh (sc : WifiSoftc) (index : Slot) :
    OnlyAsks WifiQ.Plain (wifiHalJoinMesh nl ctx sc index) := by
  have hattach : OnlyAsks WifiQ.Plain (wifiHalWpaMeshAttach sc index) :=
    ⟨trivial, fun _ => trivial⟩
  refine hattach.bind fun attached => ?_
  split
  · trivial
  · exact (onlyAsks_plain_of_certain (onlyAsks_joinMeshNetwork nl ctx _ index)).bind
      fun _ => trivial

theorem onlyAsks_findDriver (dirs : List (Text × WifiDriverVersion)) :
    OnlyAsks WifiQ.Mute (findDriver dirs) := by
  induction dirs with
  | nil => trivial
  | cons dir dirs ih =>
    refine ⟨trivial, fun isDir => ?_⟩
    show OnlyAsks _ (if _ then _ else _)
    split
    · trivial
    · exact ih

theorem onlyAsks_wifiDebugfsInit (sc : WifiSoftc) (index : Slot) :
    OnlyAsks WifiQ.Mute (wifiDebugfsInit sc index) := by
  refine OnlyAsks.bind ((onlyAsks_findDriver _).bind fun found => ?_) fun driver => ?_
  · cases found <;> trivial
  · dsimp only
    split
    · trivial
    refine ⟨trivial, fun found => ?_⟩
    show OnlyAsks _ (if _ then _ else _)
    split <;> trivial

theorem onlyAsks_setUpMode (sc : WifiSoftc) (index : Slot) (config : WifiConfig) :
    OnlyAsks WifiQ.Plain (setUpMode nl ctx sc index config) := by
  unfold setUpMode
  split
  · exact (onlyAsks_plain_of_certain (onlyAsks_wifiHalCreateAp nl ctx sc index)).bind
      fun _ => trivial
  split
  · exact (onlyAsks_plain_of_certain (onlyAsks_wifiHalConnectAp nl ctx sc index)).bind
      fun _ => trivial
  split
  · exact (onlyAsks_wifiHalJoinMesh nl ctx sc index).bind fun _ => trivial
  · trivial

/-- **Starting a radio asks nothing of consequence.**  It dumps no interfaces, closes no connection
and waits for no event. -/
theorem onlyAsks_initHandler (sc : WifiSoftc) (index : Slot) :
    OnlyAsks WifiQ.Plain (initHandler nl ctx sc index) := by
  refine ⟨trivial, fun _ => ?_⟩
  have hdebugfs := onlyAsks_certain (onlyAsks_unsent (onlyAsks_wifiDebugfsInit sc index))
  refine (onlyAsks_plain_of_certain hdebugfs).bind fun debugfs => ?_
  refine (onlyAsks_deref trivial _).bind fun config => ?_
  exact onlyAsks_setUpMode nl ctx debugfs.1 index config

theorem onlyAsks_initStage2Handler (sc : WifiSoftc) (index : Slot) :
    OnlyAsks WifiQ.Plain (initStage2Handler nl ctx sc index) := by
  refine (onlyAsks_deref trivial _).bind fun config => ?_
  split
  · refine ⟨trivial, fun meshFwding => ?_⟩
    have hfwding :=
      onlyAsks_certain (onlyAsks_unsent (onlyAsks_wifiHalSetMeshFwding nl sc index meshFwding))
    exact (onlyAsks_plain_of_certain hfwding).bind fun _ => trivial
  · trivial

end Questions

/-! ### Results -/

section Results

variable (nl : Netlink.Libnl NlAttrs) (ctx : WifiContext)

theorem yields_wifiDebugfsInit (sc : WifiSoftc) (index : Slot) :
    Yields (fun r : WifiSoftc × ℤ => Kept sc r.1) (wifiDebugfsInit sc index) := by
  have hversion :
      Yields (fun r : WifiSoftc × ℤ => Kept sc r.1) (wifiGetDriverVersion sc index) := by
    refine Yields.bind_of_forall fun found => ?_
    cases found with
    | none => exact Kept.refl sc
    | some version => exact ⟨⟨rfl, rfl, rfl, rfl, fun _ => rfl, fun _ => rfl⟩, rfl⟩
  refine hversion.bind fun driver hdriver => ?_
  dsimp only
  split
  · exact hdriver.trans (kept_setDebugfsRoot _ _ _)
  intro found
  show Yields _ (if _ then _ else _)
  split
  · exact hdriver.trans (kept_setDebugfsRoot _ _ _)
  · exact hdriver.trans (kept_setDebugfsRoot _ _ _)

theorem yields_wifiHalJoinMesh (sc : WifiSoftc) (index : Slot) :
    Yields (fun r : WifiSoftc × ℤ => Kept sc r.1) (wifiHalJoinMesh nl ctx sc index) := by
  have hattach : Yields (fun r : WifiSoftc × ℤ => Kept sc r.1) (wifiHalWpaMeshAttach sc index) :=
    fun meshCtrl => kept_setMeshCtrl sc index meshCtrl
  refine hattach.bind fun attached hattached => ?_
  split
  · exact hattached
  · exact Yields.bind_of_forall fun _ => hattached

theorem yields_setUpMode (sc : WifiSoftc) (index : Slot) (config : WifiConfig) :
    Yields (fun r : WifiSoftc × WifiState => Kept sc r.1 ∧ r.2 ≠ .shutdownState)
      (setUpMode nl ctx sc index config) := by
  unfold setUpMode
  split
  · exact Yields.bind_of_forall fun _ => ⟨Kept.refl sc, by simp⟩
  split
  · exact Yields.bind_of_forall fun _ => ⟨Kept.refl sc, by simp⟩
  split
  · exact (yields_wifiHalJoinMesh nl ctx sc index).bind fun joined h => ⟨h, by simp⟩
  · exact ⟨Kept.refl sc, by simp⟩

/-- **Starting a radio keeps what the events depend on**, and does not shut the radio down. -/
theorem yields_initHandler (sc : WifiSoftc) (index : Slot) :
    Yields (fun r : WifiSoftc × WifiState => Kept sc r.1 ∧ r.2 ≠ .shutdownState)
      (initHandler nl ctx sc index) := by
  intro _
  refine (yields_wifiDebugfsInit sc index).bind fun debugfs hdebugfs => ?_
  refine Yields.bind_of_forall fun config => ?_
  exact (yields_setUpMode nl ctx debugfs.1 index config).mono fun r hr =>
    ⟨hdebugfs.trans hr.1, hr.2⟩

end Results

end RadioHal.Wifi
