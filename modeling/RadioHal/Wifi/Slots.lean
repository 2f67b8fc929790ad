import Mathlib.Data.Set.Insert
import RadioHal.Wifi.Tables

/-!
# The slots of an opened HAL

`wifi_hal_open` attaches to the radios that its dump of the interfaces has counted.  What it leads
to is told against surroundings that keep count of the open connections.

## Main definitions

* `SlotInvariant` — there is a radio, and each has its names, its index and its connections.
* `hal` — the kernel and `wpa_supplicant` during one call.

## Main results

* `wp_of_gentle` — most questions leave connections open.
* `wp_wifiHalOpen_tables` — what opening makes of the tables.
* `wp_wifiHalOpen` — **opening the HAL puts all slots in order when its dump brings an interface to
  a slot without a phy name.**
-/

namespace RadioHal.Wifi

open CLib Dialogue

/-! ### The invariant -/

/-- The connections of a radio are open. -/
structure Attached (sc : WifiSoftc) (live : Set Handle) (i : Slot) : Prop where
  ctrl : ∃ h ∈ live, (sc.wpaCtx i).ctrl = some h
  monitor : ∃ h ∈ live, (sc.wpaCtx i).monitor = some h

/-- **What should hold of an opened HAL**: there is a radio, and each radio has a name, an index, a
phy name and open connections. -/
structure SlotInvariant (sc : WifiSoftc) (live : Set Handle) : Prop where
  one_le : 1 ≤ sc.radioAmount
  le_max : sc.radioAmount ≤ wifiRadioMax
  ifname : ∀ i : Slot, i.val < sc.radioAmount → sc.ifname i ≠ []
  ifindex : ∀ i : Slot, i.val < sc.radioAmount → 0 < sc.ifindex i
  phyname : ∀ i : Slot, i.val < sc.radioAmount → sc.phyname i ≠ []
  attached : ∀ i : Slot, i.val < sc.radioAmount → Attached sc live i

/-- The tables of interfaces and phys are the same. -/
structure SameNames (sc sc' : WifiSoftc) : Prop where
  ifindex : sc'.ifindex = sc.ifindex
  ifname : sc'.ifname = sc.ifname
  phyname : sc'.phyname = sc.phyname
  radioAmount : sc'.radioAmount = sc.radioAmount

section Invariant

variable {sc sc' : WifiSoftc} {live live' : Set Handle} {i : Slot}

theorem SameTables.sameNames (h : SameTables sc sc') : SameNames sc sc' :=
  ⟨h.ifindex, h.ifname, h.phyname, h.radioAmount⟩

theorem SameNames.trans {sc'' : WifiSoftc} (h : SameNames sc sc') (h' : SameNames sc' sc'') :
    SameNames sc sc'' where
  ifindex := h'.ifindex.trans h.ifindex
  ifname := h'.ifname.trans h.ifname
  phyname := h'.phyname.trans h.phyname
  radioAmount := h'.radioAmount.trans h.radioAmount

theorem sameNames_setWpaCtx (sc : WifiSoftc) (i : Slot) (ctx : WpaCtrlCtx) :
    SameNames sc (sc.setWpaCtx i ctx) :=
  ⟨rfl, rfl, rfl, rfl⟩

theorem WellRecorded.sameNames (hsc : WellRecorded sc) (h : SameNames sc sc') :
    WellRecorded sc' where
  ifindex i hi := by
    rw [h.ifname] at hi
    rw [h.ifindex]
    exact hsc.ifindex i hi
  phyname i hi := by
    rw [h.ifname] at hi
    rw [h.phyname]
    exact hsc.phyname i hi
  inOrder i j hij hj := by
    rw [h.phyname] at hj ⊢
    exact hsc.inOrder i j hij hj

theorem Attached.mono (h : Attached sc live i) (hctx : sc'.wpaCtx i = sc.wpaCtx i)
    (hlive : live ⊆ live') : Attached sc' live' i := by
  obtain ⟨⟨c, hc, hctrl⟩, m, hm, hmonitor⟩ := h
  exact ⟨⟨c, hlive hc, by rw [hctx, hctrl]⟩, m, hlive hm, by rw [hctx, hmonitor]⟩

theorem SlotInvariant.sameTables (hsc : SlotInvariant sc live) (h : SameTables sc sc')
    (hlive : live ⊆ live') : SlotInvariant sc' live' where
  one_le := h.radioAmount ▸ hsc.one_le
  le_max := h.radioAmount ▸ hsc.le_max
  ifname i hi := by
    rw [h.radioAmount] at hi
    rw [h.ifname]
    exact hsc.ifname i hi
  ifindex i hi := by
    rw [h.radioAmount] at hi
    rw [h.ifindex]
    exact hsc.ifindex i hi
  phyname i hi := by
    rw [h.radioAmount] at hi
    rw [h.phyname]
    exact hsc.phyname i hi
  attached i hi := by
    rw [h.radioAmount] at hi
    obtain ⟨⟨c, hc, hctrl⟩, m, hm, hmonitor⟩ := hsc.attached i hi
    exact ⟨⟨c, hlive hc, by rw [h.ctrl, hctrl]⟩, m, hlive hm, by rw [h.monitor, hmonitor]⟩

end Invariant

/-! ### The surroundings -/

/-- The kernel and `wpa_supplicant` during one call, with the connections that are open: dumps of
the interfaces are answered as allowed, and a connection that is opened is a new one. -/
def hal (allowed : KernelAnswer → Prop) : World WifiQ WifiA (Set Handle)
  | live, .nlRequest .getInterface, a, live' =>
    (∀ answer, a = some answer → allowed answer) ∧ live' = live
  | live, .wpaOpen _, none, live' => live' = live
  | live, .wpaOpen _, some h, live' => h ∉ live ∧ live' = insert h live
  | live, .wpaClose h, _, live' => live' = live \ {h}
  | live, _, _, live' => live' = live

/-- A question that neither dumps the interfaces nor closes a connection. -/
def WifiQ.Gentle (q : WifiQ) : Prop := WifiQ.Plain q ∨ q = .callsWaitOnEvent

section Gentle

variable {allowed : KernelAnswer → Prop} {live live' : Set Handle}

theorem subset_of_gentle {q : WifiQ} {a : WifiA q} (hq : WifiQ.Gentle q)
    (h : hal allowed live q a live') : live ⊆ live' := by
  unfold hal at h
  split at h
  · exact h.2.ge
  · exact h.ge
  · rw [h.2]
    exact Set.subset_insert _ _
  · rcases hq with hq | hq
    · exact hq.elim
    · exact absurd hq (by simp)
  · exact h.ge

/-- A program that asks gentle questions only leaves the connections open. -/
theorem wp_of_gentle {α : Type} {R : α → Prop} {p : WifiM α} (hp : OnlyAsks WifiQ.Gentle p)
    (hr : Yields R p) :
    wp (hal allowed) (fun _ _ => True) (fun r live' => R r ∧ live ⊆ live') p live :=
  wp_of_yields (fun l => live ⊆ l) hp hr (fun _ _ _ _ => trivial)
    (fun _ _ _ _ hq hlive hstep => hlive.trans (subset_of_gentle hq hstep)) subset_rfl

theorem wp_of_plain_hal {α : Type} {R : α → Prop} {p : WifiM α} (hp : OnlyAsks WifiQ.Plain p)
    (hr : Yields R p) :
    wp (hal allowed) (fun _ _ => True) (fun r live' => R r ∧ live ⊆ live') p live :=
  wp_of_gentle (hp.mono fun _ hq => Or.inl hq) hr

end Gentle

/-! ### Opening -/

section Opening

variable (nl : Netlink.Libnl NlAttrs) {allowed : KernelAnswer → Prop} {live : Set Handle}

/-- The tables come back as they were, or as a dump that is allowed leaves them. -/
theorem wp_wifiHalGetInterface (sc : WifiSoftc) :
    wp (hal allowed) (fun _ _ => True)
      (fun r live' => live' = live ∧ ((r.1 = sc ∧ r.2 < 0) ∨
        ∃ a, allowed a ∧ a.data.foldlM wifiHalIfnameRespHdlr sc = some r.1))
      (wifiHalGetInterface nl sc) live := by
  refine ⟨trivial, ?_⟩
  rintro allocated live₁ hlive₁
  obtain rfl : live₁ = live := hlive₁
  cases allocated with
  | false => exact ⟨rfl, Or.inl ⟨rfl, (by decide : (-12 : ℤ) < 0)⟩⟩
  | true =>
    refine ⟨trivial, ?_⟩
    rintro answer live₂ ⟨hallowed, rfl⟩
    cases answer with
    | none => exact ⟨rfl, Or.inl ⟨rfl, (by decide : (-1 : ℤ) < 0)⟩⟩
    | some a =>
      show wp _ _ _ (nlRecvmsgs nl ifCb a sc >>= _) _
      rw [nlRecvmsgs_eq]
      have hhandle : ifCb.handle = wifiHalIfnameRespHdlr := rfl
      cases hfold : a.data.foldlM ifCb.handle sc with
      | none => exact ⟨trivial, fun e => e.elim⟩
      | some sc' =>
        show wp _ _ _ ((if _ then _ else _) >>= _) _
        split
        · exact ⟨rfl, Or.inr ⟨a, hallowed a rfl, hhandle ▸ hfold⟩⟩
        · exact ⟨trivial, fun e => e.elim⟩

theorem onlyAsks_wifiHalRunSysCmd (cmd : Text) (respSize : ℕ) :
    OnlyAsks WifiQ.Unsent (wifiHalRunSysCmd cmd respSize) := by
  refine ⟨trivial, fun output => ?_⟩
  cases output <;> trivial

/-- Starting wpa_supplicant sends nothing to it, as it is done by programs and files. -/
theorem unsent_wifiHalStartWpaDummyConfig (sc : WifiSoftc) :
    OnlyAsks WifiQ.Unsent (wifiHalStartWpaDummyConfig sc) := by
  have hstart : ∀ is, OnlyAsks WifiQ.Unsent (startSupplicants sc is) := by
    intro is
    induction is with
    | nil => trivial
    | cons i is ih =>
      refine (onlyAsks_wifiHalRunSysCmd _ _).bind fun _ => ?_
      refine (onlyAsks_wifiHalRunSysCmd _ _).bind fun started => ?_
      split
      · trivial
      · exact ih
  have hcreate : OnlyAsks WifiQ.Unsent createDefaultWpaConfig := ⟨trivial, fun _ => trivial⟩
  refine hcreate.bind fun created => ?_
  split
  · trivial
  · exact hstart sc.radios

theorem onlyAsks_wifiHalStartWpaDummyConfig (sc : WifiSoftc) :
    OnlyAsks WifiQ.Inert (wifiHalStartWpaDummyConfig sc) :=
  onlyAsks_inert (onlyAsks_certain (unsent_wifiHalStartWpaDummyConfig sc))

theorem onlyAsks_wpaCtrlAttach (ctrl : Option Handle) :
    OnlyAsks WifiQ.Inert (wpaCtrlAttach ctrl) := by
  refine ⟨trivial, fun buf => ?_⟩
  refine (onlyAsks_inert (onlyAsks_wpaCtrlRequest ofCommands_certain _ _ _)).bind fun r => ?_
  split
  · trivial
  split <;> trivial

/-- Attaching that succeeds opens the connections of a radio, and leaves those of others open. -/
theorem wp_wifiHalWpaAttach (sc : WifiSoftc) (i : Slot) :
    wp (hal allowed) (fun _ _ => True)
      (fun r live' => SameNames sc r.1 ∧ (r.2 = 0 →
        Attached r.1 live' i ∧ ∀ j, Attached sc live j → Attached r.1 live' j))
      (wifiHalWpaAttach sc i) live := by
  -- a failure says nothing of the connections
  have hfailed : ∀ (ctx : WpaCtrlCtx) (live' : Set Handle), SameNames sc (sc.setWpaCtx i ctx) ∧
      ((-1 : ℤ) = 0 → Attached (sc.setWpaCtx i ctx) live' i ∧
        ∀ j, Attached sc live j → Attached (sc.setWpaCtx i ctx) live' j) :=
    fun ctx live' => ⟨sameNames_setWpaCtx sc i ctx, fun h => absurd h (by decide)⟩
  refine ⟨trivial, fun ctrl live₁ hctrl => ?_⟩
  cases ctrl with
  | none => exact hfailed _ _
  | some c =>
    obtain ⟨-, rfl⟩ : c ∉ live ∧ live₁ = insert c live := hctrl
    refine ⟨trivial, fun monitor live₂ hmonitor => ?_⟩
    cases monitor with
    | none => exact ⟨trivial, fun _ live₃ _ => hfailed _ _⟩
    | some m =>
      obtain ⟨-, rfl⟩ : m ∉ insert c live ∧ live₂ = insert m (insert c live) := hmonitor
      show wp _ _ _ (wpaCtrlAttach (some m) >>= _) _
      rw [wp_bind]
      refine wp_consequence (wp_of_plain_hal (onlyAsks_plain (onlyAsks_wpaCtrlAttach _))
        (Yields.of_forall (R := fun _ => True) (fun _ => trivial) _)) ?_
      rintro attached live₃ ⟨-, hlive₃⟩
      show wp _ _ _ (if _ then _ else _) _
      split
      · exact ⟨trivial, fun _ _ _ => ⟨trivial, fun _ live₄ _ => hfailed _ _⟩⟩
      · have hm : m ∈ live₃ := hlive₃ (Set.mem_insert _ _)
        have hc : c ∈ live₃ := hlive₃ (Set.mem_insert_of_mem _ (Set.mem_insert _ _))
        have hi : Attached (sc.setWpaCtx i ⟨some c, some m, none⟩) live₃ i := by
          refine ⟨⟨c, hc, ?_⟩, m, hm, ?_⟩ <;> simp [WifiSoftc.setWpaCtx]
        refine ⟨sameNames_setWpaCtx sc i _, fun _ => ⟨hi, fun j hj => ?_⟩⟩
        by_cases hji : j = i
        · exact hji ▸ hi
        · refine hj.mono (by simp [WifiSoftc.setWpaCtx, hji]) ?_
          exact ((Set.subset_insert _ _).trans (Set.subset_insert _ _)).trans hlive₃

/-- Attaching to radios one after the other: each slot has its connections, or the loop ends. -/
theorem wp_attachRadios (is : List Slot) (sc : WifiSoftc) :
    wp (hal allowed) (fun _ _ => True)
      (fun r live' => SameNames sc r.1 ∧ (r.2 = 0 →
        (∀ i ∈ is, Attached r.1 live' i) ∧ ∀ j, Attached sc live j → Attached r.1 live' j))
      (attachRadios is sc) live := by
  induction is generalizing sc live with
  | nil => exact ⟨⟨rfl, rfl, rfl, rfl⟩, fun _ => ⟨by simp, fun _ hj => hj⟩⟩
  | cons i is ih =>
    unfold attachRadios
    rw [wp_bind]
    refine wp_consequence (wp_wifiHalWpaAttach sc i) ?_
    rintro attached live₁ ⟨hnames, hattached⟩
    split
    · rename_i hfailed
      exact ⟨hnames, fun h => absurd h hfailed⟩
    · rename_i hdone
      obtain ⟨hi, hothers⟩ := hattached (not_not.mp hdone)
      refine wp_consequence (ih attached.1) ?_
      rintro r live₂ ⟨hnames₂, hrest⟩
      refine ⟨hnames.trans hnames₂, fun h => ?_⟩
      obtain ⟨hall, hkept⟩ := hrest h
      exact ⟨List.forall_mem_cons.mpr ⟨hkept i hi, hall⟩, fun j hj => hkept j (hothers j hj)⟩

/-- The tables of a listing that has a radio, with the connections attached. -/
theorem slotInvariant_of_listing {sc₀ sc sc' : WifiSoftc} (hsc : Listing sc₀ sc)
    (hpos : 1 ≤ sc.radioAmount) (hnames : SameNames sc sc')
    (hattached : ∀ i ∈ sc.radios, Attached sc' live i) : SlotInvariant sc' live := by
  have hname : ∀ i : Slot, i.val < sc.radioAmount → sc.ifname i ≠ [] := fun i hi =>
    hsc.ifname_ne_nil hi
  refine ⟨?_, ?_, ?_, ?_, ?_, ?_⟩
  · rw [hnames.radioAmount]
    exact hpos
  · rw [hnames.radioAmount]
    exact hsc.radioAmount_le
  · rw [hnames.radioAmount, hnames.ifname]
    exact hname
  · rw [hnames.radioAmount, hnames.ifindex]
    exact fun i hi => hsc.ifindex i (hname i hi)
  · rw [hnames.radioAmount, hnames.phyname]
    exact fun i hi => hsc.phyname i (hname i hi)
  · rw [hnames.radioAmount]
    exact fun i hi => hattached i (by simpa [WifiSoftc.radios] using hi)

/-- What opening makes of the tables: it fails ahead of its dump, or does not touch the names behind
it, and attaches to the radios when it succeeds. -/
theorem wp_wifiHalOpen_tables (sc : WifiSoftc) :
    wp (hal allowed) (fun _ _ => True)
      (fun r live' => (r.2 ≠ 0 ∧ r.1 = listingStart sc) ∨ ∃ a sc₁, allowed a ∧
        a.data.foldlM wifiHalIfnameRespHdlr (listingStart sc) = some sc₁ ∧ SameNames sc₁ r.1 ∧
        (r.2 = 0 → ∀ i ∈ sc₁.radios, Attached r.1 live' i))
      (wifiHalOpen nl sc) live := by
  show wp _ _ _ (wifiHalGetInterface nl (listingStart sc) >>= _) _
  rw [wp_bind]
  refine wp_consequence (wp_wifiHalGetInterface nl (listingStart sc)) ?_
  rintro ⟨sc₁, err⟩ live₁ ⟨-, hlisted⟩
  show wp _ _ _ (if _ then _ else _) _
  rcases hlisted with ⟨rfl, herr⟩ | ⟨a, ha, hfold⟩
  · rw [if_pos herr]
    exact Or.inl ⟨(by decide : (-1 : ℤ) ≠ 0), rfl⟩
  split
  · exact Or.inr ⟨a, sc₁, ha, hfold, ⟨rfl, rfl, rfl, rfl⟩,
      fun h => absurd h (by decide : (-1 : ℤ) ≠ 0)⟩
  unfold WifiM.endOfTable
  split
  · rw [ret_bind, wp_bind]
    refine wp_consequence (wp_of_plain_hal
      (onlyAsks_plain (onlyAsks_wifiHalStartWpaDummyConfig sc₁))
      (Yields.of_forall (R := fun _ => True) (fun _ => trivial) _)) ?_
    rintro started live₂ -
    refine wp_consequence (wp_attachRadios sc₁.radios sc₁) ?_
    rintro r live₃ ⟨hnames, hattached⟩
    exact Or.inr ⟨a, sc₁, ha, hfold, hnames, fun h => (hattached h).1⟩
  · exact ⟨trivial, fun e => e.elim⟩

/-- **Opening the HAL** keeps the tables in order, and where the dump brings an interface to a slot
without a phy name, a success leaves all slots in order. -/
theorem wp_wifiHalOpen {sc : WifiSoftc} (hsc : WellRecorded sc) :
    wp (hal fun a => IsDump a ∧ Admits sc a) (fun _ _ => True)
      (fun r live' => WellRecorded r.1 ∧ (r.2 = 0 → SlotInvariant r.1 live'))
      (wifiHalOpen nl sc) live := by
  have hstart := listing_listingStart hsc
  refine wp_consequence (wp_wifiHalOpen_tables nl sc) ?_
  rintro r live' (⟨hfailed, hr⟩ | ⟨a, sc₁, ⟨ha, hadmits⟩, hfold, hnames, hattached⟩)
  · exact ⟨hr ▸ hstart.toWellRecorded, fun h => absurd h hfailed⟩
  · have hlisting : Listing (listingStart sc) sc₁ := hstart.dump ha hfold
    have hpos : 1 ≤ sc₁.radioAmount := (one_le_radioAmount_iff hsc ha hfold).mpr hadmits
    refine ⟨hlisting.toWellRecorded.sameNames hnames, fun h => ?_⟩
    exact slotInvariant_of_listing hlisting hpos hnames (hattached h)

end Opening

end RadioHal.Wifi
