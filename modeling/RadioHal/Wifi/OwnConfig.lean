import RadioHal.Lib.Lockstep
import RadioHal.Wifi.Frame

/-!
# Radios and their configurations

A radio should be driven by its own configuration.  Two contexts that agree on the configuration of
a radio and on its slot are told apart by no handler run for it, unless one reads memory that
belongs to neither; and the second stage of a mesh does.

## Main definitions

* `SameSlot` — two softcs agree on what the handlers of a radio look at.
* `DrivenByOwn` — the handlers of a radio ask the same in both contexts, and forward as its
  configuration says.

## Main results

* `lockstep_initHandler` — **`init_handler` asks the same in both contexts.**
* `questions_initHandler_eq` — its runs in the two contexts can be told apart by their replies only.
* `driven_by_own_iff` — **a radio is driven by its own configuration exactly if it is no mesh.**
-/

namespace RadioHal.Wifi

open CLib Dialogue

/-- Two softcs agree on a slot, as far as the handlers that start a radio look at it. -/
structure SameSlot (i : Slot) (sc sc' : WifiSoftc) : Prop where
  ifname : sc.ifname i = sc'.ifname i
  phyname : sc.phyname i = sc'.phyname i
  debugfsRoot : sc.debugfsRoot i = sc'.debugfsRoot i
  drvVersion : sc.drvVersion i = sc'.drvVersion i
  wpaCtx : sc.wpaCtx i = sc'.wpaCtx i

section OwnConfig

variable {nl : Netlink.Libnl NlAttrs} {ctx ctx' : WifiContext} {sc sc' : WifiSoftc} {i : Slot}

/-! ### Programs that read a slot -/

theorem SameSlot.sendWpaCommand (h : SameSlot i sc sc') :
    wifiHalSendWpaCommand sc i = wifiHalSendWpaCommand sc' i := by
  funext cmd resp
  unfold wifiHalSendWpaCommand
  rw [h.wpaCtx]

theorem SameSlot.sendWpaMeshCommand (h : SameSlot i sc sc') :
    wifiHalSendWpaMeshCommand sc i = wifiHalSendWpaMeshCommand sc' i := by
  funext cmd resp
  unfold wifiHalSendWpaMeshCommand
  rw [h.wpaCtx]

/-- The settings of a card are the same in two states that agree on its slot. -/
theorem SameSlot.setCard (h : SameSlot i sc sc') (config : WifiConfig) :
    setCard nl sc i config = setCard nl sc' i config := by
  unfold RadioHal.setCard wifiDebugfsWrite wifiHalSetTxpower wifiHalSetDistance
  rw [h.debugfsRoot, h.ifname, h.phyname]

theorem SameSlot.wifiHalConnectAp (h : SameSlot i sc sc') (hconfig : ctx.config i = ctx'.config i) :
    wifiHalConnectAp nl ctx sc i = wifiHalConnectAp nl ctx' sc' i := by
  unfold RadioHal.wifiHalConnectAp
  simp only [h.sendWpaCommand, h.setCard, hconfig]

theorem SameSlot.wifiHalCreateAp (h : SameSlot i sc sc') (hconfig : ctx.config i = ctx'.config i) :
    wifiHalCreateAp nl ctx sc i = wifiHalCreateAp nl ctx' sc' i := by
  unfold RadioHal.wifiHalCreateAp
  simp only [h.sendWpaCommand, h.setCard, hconfig]

theorem SameSlot.joinMeshNetwork (h : SameSlot i sc sc') (hconfig : ctx.config i = ctx'.config i) :
    joinMeshNetwork nl ctx sc i = joinMeshNetwork nl ctx' sc' i := by
  unfold RadioHal.joinMeshNetwork
  simp only [h.sendWpaCommand, h.sendWpaMeshCommand, h.setCard, hconfig]

/-! ### Programs that change the softc -/

/-- The softcs that two programs come back with agree on the slot, and so do their results. -/
def SameResult {α : Type} (i : Slot) (r r' : WifiSoftc × α) : Prop :=
  SameSlot i r.1 r'.1 ∧ r.2 = r'.2

/-- A program that reads no unassigned memory is in lockstep with itself. -/
theorem lockstep_self {α : Type} {p : WifiM α} (hp : OnlyAsks WifiQ.Certain p) :
    Lockstep WifiQ.OfMemory (fun a b => a = b) p p :=
  Lockstep.of_onlyAsks (fun _ => rfl) (hp.mono fun _ => WifiQ.Certain.not_ofMemory)

theorem SameSlot.setDebugfsRoot (h : SameSlot i sc sc') (root : Text) :
    SameSlot i (sc.setDebugfsRoot i root) (sc'.setDebugfsRoot i root) := by
  refine ⟨h.ifname, h.phyname, ?_, h.drvVersion, h.wpaCtx⟩
  unfold WifiSoftc.setDebugfsRoot
  dsimp only
  rw [Function.update_self, Function.update_self]

theorem SameSlot.setMeshCtrl (h : SameSlot i sc sc') (meshCtrl : Option Handle) :
    SameSlot i (sc.setWpaCtx i { sc.wpaCtx i with meshCtrl := meshCtrl })
      (sc'.setWpaCtx i { sc'.wpaCtx i with meshCtrl := meshCtrl }) := by
  refine ⟨h.ifname, h.phyname, h.debugfsRoot, h.drvVersion, ?_⟩
  unfold WifiSoftc.setWpaCtx
  dsimp only
  rw [Function.update_self, Function.update_self, h.wpaCtx]

theorem SameSlot.phyDir (h : SameSlot i sc sc') : phyDir sc i = phyDir sc' i := by
  unfold RadioHal.phyDir
  rw [h.phyname]

/-- The driver is looked for in the same directories. -/
theorem lockstep_wifiGetDriverVersion (h : SameSlot i sc sc') :
    Lockstep WifiQ.OfMemory (SameResult i) (wifiGetDriverVersion sc i)
      (wifiGetDriverVersion sc' i) := by
  unfold wifiGetDriverVersion driverDirs
  rw [h.phyDir]
  refine (lockstep_self (onlyAsks_certain (onlyAsks_unsent (onlyAsks_findDriver _)))).bind ?_
  rintro found _ rfl
  cases found with
  | none => exact .ret ⟨h, rfl⟩
  | some version =>
    refine .ret ⟨⟨h.ifname, h.phyname, h.debugfsRoot, ?_, h.wpaCtx⟩, rfl⟩
    dsimp only
    rw [Function.update_self, Function.update_self]

theorem lockstep_wifiDebugfsInit (h : SameSlot i sc sc') :
    Lockstep WifiQ.OfMemory (SameResult i) (wifiDebugfsInit sc i) (wifiDebugfsInit sc' i) := by
  refine (lockstep_wifiGetDriverVersion h).bind ?_
  rintro ⟨sc₁, v⟩ ⟨sc₂, _⟩ ⟨hslot, rfl⟩
  dsimp only
  split
  · exact .ret ⟨hslot.setDebugfsRoot [], rfl⟩
  rw [hslot.phyDir, hslot.drvVersion]
  refine .ask fun found found' hfound => ?_
  obtain rfl := hfound not_false
  show Lockstep _ _ (if _ then _ else _) (if _ then _ else _)
  split
  · exact .ret ⟨hslot.setDebugfsRoot _, rfl⟩
  · exact .ret ⟨hslot.setDebugfsRoot _, rfl⟩

theorem lockstep_wifiHalJoinMesh (h : SameSlot i sc sc') (hconfig : ctx.config i = ctx'.config i) :
    Lockstep WifiQ.OfMemory (SameResult i) (wifiHalJoinMesh nl ctx sc i)
      (wifiHalJoinMesh nl ctx' sc' i) := by
  unfold RadioHal.wifiHalJoinMesh wifiHalWpaMeshAttach sockPath
  rw [h.ifname]
  refine .ask fun meshCtrl meshCtrl' hsame => ?_
  obtain rfl := hsame not_false
  have hslot := h.setMeshCtrl meshCtrl
  show Lockstep _ _ (if _ then _ else _) (if _ then _ else _)
  split
  · exact .ret ⟨hslot, rfl⟩
  · rw [hslot.joinMeshNetwork hconfig]
    refine (lockstep_self (onlyAsks_joinMeshNetwork nl ctx' _ i)).bind ?_
    rintro joined _ rfl
    exact .ret ⟨hslot, rfl⟩

theorem lockstep_setUpMode (h : SameSlot i sc sc') (hconfig : ctx.config i = ctx'.config i)
    (config : WifiConfig) : Lockstep WifiQ.OfMemory (SameResult i) (setUpMode nl ctx sc i config)
      (setUpMode nl ctx' sc' i config) := by
  unfold setUpMode
  split
  · rw [h.wifiHalCreateAp hconfig]
    exact (lockstep_self (onlyAsks_wifiHalCreateAp nl ctx' sc' i)).bind fun _ _ _ => .ret ⟨h, rfl⟩
  split
  · rw [h.wifiHalConnectAp hconfig]
    exact (lockstep_self (onlyAsks_wifiHalConnectAp nl ctx' sc' i)).bind fun _ _ _ => .ret ⟨h, rfl⟩
  split
  · exact (lockstep_wifiHalJoinMesh h hconfig).bind fun _ _ hjoined => .ret ⟨hjoined.1, rfl⟩
  · exact .ret ⟨h, rfl⟩

/-! ### The handlers -/

/-- **`init_handler` asks the same in both contexts.**  For the configuration it reads, by the index
of the radio, is the same in both. -/
theorem lockstep_initHandler (h : SameSlot i sc sc') (hconfig : ctx.config i = ctx'.config i) :
    Lockstep WifiQ.OfMemory (SameResult i) (initHandler nl ctx sc i)
      (initHandler nl ctx' sc' i) := by
  refine .ask fun _ _ _ => ?_
  refine (lockstep_wifiDebugfsInit h).bind ?_
  rintro ⟨sc₁, v⟩ ⟨sc₂, _⟩ ⟨hslot, rfl⟩
  rw [hconfig]
  refine (lockstep_self (onlyAsks_deref trivial _)).bind ?_
  rintro config _ rfl
  exact lockstep_setUpMode hslot hconfig config

/-- Its runs in the two contexts can be told apart by their replies only. -/
theorem questions_initHandler_eq (h : SameSlot i sc sc') (hconfig : ctx.config i = ctx'.config i)
    {t t' : WifiTranscript} {p p' : WifiM (WifiSoftc × WifiState)}
    (hrun : After (initHandler nl ctx sc i) t p) (hrun' : After (initHandler nl ctx' sc' i) t' p')
    (hlen : t.length = t'.length) (hsame : SameReplies WifiQ.OfMemory t t') :
    t.map Sigma.fst = t'.map Sigma.fst := by
  have hquestions := (lockstep_initHandler h hconfig).questions_eq hrun hrun' hlen hsame
  exact hquestions.1

/-- The second stage of a mesh takes what to forward from memory that has not been assigned. -/
theorem initStage2Handler_of_mesh {config : WifiConfig} (hc : ctx.config i = some config)
    (hmesh : config.modeIs "mesh".toList = true) : initStage2Handler nl ctx sc i =
      ask .uninit fun meshFwding => wifiHalSetMeshFwding nl sc i meshFwding >>=
        fun _ => ret (sc, .ifUpState) := by
  unfold initStage2Handler
  rw [hc, WifiM.deref_some, ret_bind, if_pos hmesh]
  rfl

/-- **The second stage asks the same in both contexts exactly if the radio is no mesh.** -/
theorem lockstep_initStage2Handler_iff (h : SameSlot i sc sc')
    (hconfig : ctx.config i = ctx'.config i) :
    Lockstep WifiQ.OfMemory (SameResult i) (initStage2Handler nl ctx sc i)
      (initStage2Handler nl ctx' sc' i) ↔
    ∀ config, ctx.config i = some config → config.modeIs "mesh".toList = false := by
  constructor
  · intro hstep config hc
    rw [← Bool.not_eq_true]
    intro hmesh
    rw [initStage2Handler_of_mesh hc hmesh, initStage2Handler_of_mesh (hconfig ▸ hc) hmesh] at hstep
    -- the message is allocated, and the memory reads differently in the two contexts
    have hmemory := hstep.of_ask_ask (0 : ℤ) (1 : ℤ) fun hfree => absurd trivial hfree
    have hallocated := hmemory.of_ask_ask true true fun _ => rfl
    rw [h.ifname] at hallocated
    have hrequest := (hallocated.of_ask_ask (0 : ℕ) (0 : ℕ) fun _ => rfl).of_ask
    exact absurd hrequest (by simp)
  · intro hmode
    unfold initStage2Handler
    rw [← hconfig]
    cases hc : ctx.config i with
    | none => exact .ask fun e => e.elim
    | some config =>
      rw [WifiM.deref_some, ret_bind, ret_bind, hmode config hc]
      exact .ret ⟨h, rfl⟩

variable (nl ctx ctx' sc sc' i) in
/-- **The handlers of a radio are driven by its own configuration**: they ask the same in both
contexts, and tell the card to forward as the configuration says. -/
structure DrivenByOwn : Prop where
  init : Lockstep WifiQ.OfMemory (SameResult i) (initHandler nl ctx sc i) (initHandler nl ctx' sc' i)
  stage2 : Lockstep WifiQ.OfMemory (SameResult i) (initStage2Handler nl ctx sc i)
    (initStage2Handler nl ctx' sc' i)
  forwarding : ∀ config, ctx.config i = some config → OnlyAsks (fun q => ∀ ifindex value,
    q = .nlRequest (.setMeshForwarding ifindex value) → value = config.meshFwding % 2 ^ 8)
    (initStage2Handler nl ctx sc i)

/-- **A radio is driven by its own configuration exactly if it is no mesh.** For a mesh the flag for
forwarding is read from the array of pointers instead of the configuration that the pointer leads
to. -/
theorem driven_by_own_iff (h : SameSlot i sc sc') (hconfig : ctx.config i = ctx'.config i) :
    DrivenByOwn nl ctx ctx' sc sc' i ↔
      ∀ config, ctx.config i = some config → config.modeIs "mesh".toList = false := by
  constructor
  · intro hdriven
    exact (lockstep_initStage2Handler_iff h hconfig).mp hdriven.stage2
  · intro hmode
    refine ⟨lockstep_initHandler h hconfig,
      (lockstep_initStage2Handler_iff h hconfig).mpr hmode, ?_⟩
    intro config hc
    unfold initStage2Handler
    rw [hc, WifiM.deref_some, ret_bind, hmode config hc]
    trivial

end OwnConfig

/-- The first radio is an access point, and the second one is whatever it is. -/
def apBeside (other : Option WifiConfig) : WifiContext :=
  ⟨fun i => if i = 0 then some { WifiConfig.zero with mode := CharArray.strncpy 5 "ap".toList }
    else other⟩

/-- An access point is driven by its own configuration, whatever stands beside it. -/
theorem access_point_driven_by_own :
    DrivenByOwn .standard (apBeside none) (apBeside (some .zero)) openSoftc openSoftc 0 := by
  have hconfig : (apBeside none).config 0 = (apBeside (some .zero)).config 0 := rfl
  refine (driven_by_own_iff ⟨rfl, rfl, rfl, rfl, rfl⟩ hconfig).mpr ?_
  intro config hc
  obtain rfl := Option.some.inj hc
  decide

/-- Not every radio is: a mesh forwards as other memory says. -/
theorem not_all_driven_by_own : ¬ ∀ (nl : Netlink.Libnl NlAttrs) (ctx ctx' : WifiContext)
    (sc sc' : WifiSoftc) (i : Slot), SameSlot i sc sc' → ctx.config i = ctx'.config i →
    DrivenByOwn nl ctx ctx' sc sc' i := by
  intro hall
  have hmesh : (⟨fun _ => some { WifiConfig.zero with mode := CharArray.strncpy 5 "mesh".toList }⟩ :
      WifiContext).config 0 = some { WifiConfig.zero with
        mode := CharArray.strncpy 5 "mesh".toList } := rfl
  have hslot : SameSlot 0 openSoftc openSoftc := ⟨rfl, rfl, rfl, rfl, rfl⟩
  have hdriven := hall .standard _ _ openSoftc openSoftc 0 hslot (hmesh.trans hmesh.symm)
  have hmode := (lockstep_initStage2Handler_iff hslot rfl).mp hdriven.stage2 _ hmesh
  exact absurd hmode (by decide)

end RadioHal.Wifi
