import RadioHal.Wifi.Session

/-!
# Closing and opening again

`wifi_hal_close` clears the names and indices of the radios and leaves their phy names, and the
dump of the next `wifi_hal_open` counts a radio only where it finds no phy name.  So a HAL that is
opened again has no radios.

## Main definitions

* `SameRadios` — the tables agree on the radios.
* `Reopened` — what a first opening and rounds of closing and opening lead to.
* `Exhausted` — the dump brings no interface to a slot without a phy name.

## Main results

* `exhausted_of_cleared`, `wp_wifiHalOpen_exhausted` — behind the first session there is nothing to
  count, and opening counts nothing then.
* `reopened_same_iff` — **the radios are the same again exactly when the dump names no interface,
  or the HAL has not been closed.**
-/

namespace RadioHal.Wifi

open CLib Dialogue

/-- The tables agree on the radios, by number, name, index and phy. -/
structure SameRadios (sc sc' : WifiSoftc) : Prop where
  radioAmount : sc'.radioAmount = sc.radioAmount
  ifname : ∀ i : Slot, i.val < sc.radioAmount → sc'.ifname i = sc.ifname i
  ifindex : ∀ i : Slot, i.val < sc.radioAmount → sc'.ifindex i = sc.ifindex i
  phyname : ∀ i : Slot, i.val < sc.radioAmount → sc'.phyname i = sc.phyname i

theorem SameRadios.refl (sc : WifiSoftc) : SameRadios sc sc :=
  ⟨rfl, fun _ _ => rfl, fun _ _ => rfl, fun _ _ => rfl⟩

/-- The answers with the data of `a`. -/
def Repeats (a b : KernelAnswer) : Prop := b.data = a.data

/-- The states behind a first opening, which succeeded and left the softc `first`, and a number of
rounds of closing and opening, which may fail; the kernel answers each dump with the same
interfaces. -/
inductive Reopened (nl : Netlink.Libnl NlAttrs) (a : KernelAnswer) (first : WifiSoftc) :
    ℕ → HalState → Prop
  | opened {live : Set Handle}
      (hopen : Reach (hal (Repeats a)) ∅ (wifiHalOpen nl wifiHalAttach) live (ret (first, 0))) :
      Reopened nl a first 0 ⟨first, live, true⟩
  | again {n : ℕ} {s : HalState} {sc : WifiSoftc} {v : ℤ} {live live' : Set Handle}
      {r : WifiSoftc × ℤ} (hrun : Reopened nl a first n s)
      (hclose : Reach (hal (Repeats a)) s.live (wifiHalClose s.sc) live (ret (sc, v)))
      (hopen : Reach (hal (Repeats a)) live (wifiHalOpen nl sc) live' (ret r)) :
      Reopened nl a first (n + 1) ⟨r.1, live', r.2 = 0⟩

/-! ### Dumps that bring nothing to count -/

theorem newNames_eq_nil_iff {known : Text → Bool} {names : List Text} :
    newNames known names = [] ↔ ∀ name ∈ names, known name = true := by
  induction names with
  | nil => simp [newNames]
  | cons name names ih =>
    rw [newNames, List.forall_mem_cons, ← ih]
    cases known name with
    | true => simp
    | false => simp

section Tables

variable {sc sc' : WifiSoftc} {a b : KernelAnswer}

theorem Repeats.interfaces_eq (h : Repeats a b) : interfaces b = interfaces a := by
  unfold interfaces
  rw [show b.data = a.data from h]

theorem Repeats.isDump (h : Repeats a b) (ha : IsDump a) : IsDump b := by
  unfold IsDump
  rw [show b.data = a.data from h]
  exact ha

/-- Whether a dump admits a radio is a question about its names, and those in the tables. -/
theorem admits_congr (hifname : sc'.ifname = sc.ifname) (hphyname : sc'.phyname = sc.phyname)
    (hnames : interfaces b = interfaces a) : Admits sc' b ↔ Admits sc a := by
  have hnamed : named sc' = named sc := by
    ext i
    rw [mem_named, mem_named, hifname]
  have hphy : withPhy sc' = withPhy sc := by
    ext i
    rw [mem_withPhy, mem_withPhy, hphyname]
  have hknows : (fun t => decide (sc'.knows t)) = fun t => decide (sc.knows t) := by
    funext t
    rw [decide_eq_decide]
    unfold WifiSoftc.knows
    rw [hifname]
  unfold Admits
  rw [hnamed, hphy, hknows, hnames]

theorem WellRecorded.card_named_le (hsc : WellRecorded sc) :
    (named sc).card ≤ (withPhy sc).card := by
  refine Finset.card_le_card fun i hi => ?_
  rw [mem_named] at hi
  rw [mem_withPhy]
  exact hsc.phyname i hi

theorem not_admits_of_quiet (hsc : WellRecorded sc) (hquiet : Quiet sc a) : ¬ Admits sc a := by
  have hle := hsc.card_named_le
  unfold Admits
  by_cases hfull : ∀ i, sc.ifname i ≠ []
  · have huniv : named sc = Finset.univ := by
      ext i
      simpa using hfull i
    have hcard : (named sc).card = wifiRadioMax := by
      rw [huniv, Finset.card_univ, Fintype.card_fin]
    omega
  · have hnone : newNames (fun t => sc.knows t) (interfaces a) = [] := by
      rw [newNames_eq_nil_iff]
      intro name hname
      exact decide_eq_true ((hquiet name hname).resolve_right hfull)
    rw [hnone, List.length_nil]
    omega

/-- The dump brings no interface to a slot without a phy name. -/
structure Exhausted (a : KernelAnswer) (sc : WifiSoftc) : Prop extends WellRecorded sc where
  not_admits : ¬ Admits sc a

theorem Exhausted.sameNames (hsc : Exhausted a sc) (h : SameNames sc sc') : Exhausted a sc' :=
  ⟨hsc.toWellRecorded.sameNames h,
    fun hadmits => hsc.not_admits ((admits_congr h.ifname h.phyname rfl).mp hadmits)⟩

end Tables

/-! ### Opening -/

section Opening

variable (nl : Netlink.Libnl NlAttrs) {live : Set Handle}

/-- **Opening counts no radio where the dump is exhausted**, and leaves it so.  No interface of the
dump comes to a slot without a phy name, so none is counted. -/
theorem wp_wifiHalOpen_exhausted {a : KernelAnswer} {sc : WifiSoftc} (ha : IsDump a)
    (hsc : Exhausted a sc) :
    wp (hal (Repeats a)) (fun _ _ => True)
      (fun r _ => Exhausted a r.1 ∧ r.1.radioAmount = 0) (wifiHalOpen nl sc) live := by
  refine wp_consequence (wp_wifiHalOpen_tables nl sc) ?_
  rintro r - (⟨-, hr⟩ | ⟨b, sc₁, hb, hfold, hnames, -⟩)
  · rw [hr]
    have hrecorded := (listing_listingStart hsc.toWellRecorded).toWellRecorded
    exact ⟨⟨hrecorded, hsc.not_admits⟩, rfl⟩
  · have hdump := hb.isDump ha
    have hlisting := (listing_listingStart hsc.toWellRecorded).dump hdump hfold
    have hquiet := quiet_of_dump (listing_listingStart hsc.toWellRecorded).toWellRecorded hdump
      hfold
    have hcounted : ¬ 1 ≤ sc₁.radioAmount := by
      rw [one_le_radioAmount_iff hsc.toWellRecorded hdump hfold,
        admits_congr rfl rfl hb.interfaces_eq]
      exact hsc.not_admits
    have hexhausted : Exhausted a sc₁ := by
      refine ⟨hlisting.toWellRecorded, fun hadmits => ?_⟩
      exact not_admits_of_quiet hlisting.toWellRecorded hquiet
        ((admits_congr rfl rfl hb.interfaces_eq).mpr hadmits)
    refine ⟨hexhausted.sameNames hnames, ?_⟩
    rw [hnames.radioAmount]
    omega

end Opening

/-! ### Closing -/

@[simp] theorem ifname_clearInterface (sc : WifiSoftc) (i : Slot) :
    (sc.clearInterface i).ifname = Function.update sc.ifname i [] := rfl

@[simp] theorem ifindex_clearInterface (sc : WifiSoftc) (i : Slot) :
    (sc.clearInterface i).ifindex = Function.update sc.ifindex i (-1) := rfl

@[simp] theorem phyname_clearInterface (sc : WifiSoftc) (i : Slot) :
    (sc.clearInterface i).phyname = sc.phyname := rfl

/-- What closing radios makes of the tables: the names and indices of their slots are cleared. -/
theorem yields_closeRadios (is : List Slot) (sc : WifiSoftc) :
    Yields (fun sc' => sc'.phyname = sc.phyname ∧
      (∀ i, sc'.ifname i = if i ∈ is then [] else sc.ifname i) ∧
      ∀ i, sc'.ifindex i = if i ∈ is then -1 else sc.ifindex i) (closeRadios is sc) := by
  induction is generalizing sc with
  | nil => simp [closeRadios]
  | cons i is ih =>
    refine Yields.bind_of_forall fun _ => (ih (sc.clearInterface i)).mono ?_
    rintro sc' ⟨hphyname, hifname, hifindex⟩
    refine ⟨hphyname, fun j => ?_, fun j => ?_⟩
    · rw [hifname j, ifname_clearInterface]
      by_cases hji : j = i
      · simp [hji]
      · simp [hji]
    · rw [hifindex j, ifindex_clearInterface]
      by_cases hji : j = i
      · simp [hji]
      · simp [hji]

theorem yields_wifiHalClose_tables (sc : WifiSoftc) :
    Yields (fun r : WifiSoftc × ℤ => r.1.phyname = sc.phyname ∧
      (∀ i : Slot, r.1.ifname i = if i.val < sc.radioAmount then [] else sc.ifname i) ∧
      ∀ i : Slot, r.1.ifindex i = if i.val < sc.radioAmount then -1 else sc.ifindex i)
      (wifiHalClose sc) := by
  refine (yields_closeRadios sc.radios sc).bind ?_
  rintro sc' ⟨hphyname, hifname, hifindex⟩
  refine Yields.bind_of_forall fun _ => ⟨hphyname, fun i => ?_, fun i => ?_⟩
  · simpa [WifiSoftc.radios] using hifname i
  · simpa [WifiSoftc.radios] using hifindex i

theorem yields_wifiHalClose_of_no_radio {sc : WifiSoftc} (h : sc.radioAmount = 0) :
    Yields (fun r : WifiSoftc × ℤ => r.1 = sc) (wifiHalClose sc) := by
  have hradios : sc.radios = [] := by simp [WifiSoftc.radios, h]
  unfold wifiHalClose
  rw [hradios]
  show Yields _ (WifiM.endOfTable sc >>= _)
  exact Yields.bind_of_forall fun _ => rfl

/-! ### The first session -/

section FirstSession

variable {a : KernelAnswer} {first : WifiSoftc}

@[simp] theorem withPhy_wifiHalAttach : withPhy (listingStart wifiHalAttach) = ∅ := by
  ext i
  simp [listingStart, wifiHalAttach]

@[simp] theorem named_wifiHalAttach : named wifiHalAttach = ∅ := by
  ext i
  simp [wifiHalAttach]

/-- Without any interface in the tables, only the empty name is known. -/
theorem knows_of_ifname_eq_nil {sc : WifiSoftc} (h : ∀ i, sc.ifname i = []) (t : Text) :
    sc.knows t ↔ t = [] := by
  simp [WifiSoftc.knows, h, strStarts_iff]

theorem knows_wifiHalAttach (t : Text) : wifiHalAttach.knows t ↔ t = [] :=
  knows_of_ifname_eq_nil (fun _ => rfl) t

/-- The tables behind the first opening: all radios come from its dump. -/
structure FirstOpened (a : KernelAnswer) (first : WifiSoftc) : Prop
    extends WellRecorded first where
  counted : first.radioAmount = (withPhy first).card
  positive : 1 ≤ first.radioAmount ↔ Admits wifiHalAttach a
  named_card : (named first).card = min wifiRadioMax
    (newNames (fun t => wifiHalAttach.knows t) (interfaces a)).length

theorem firstOpened_of_reach (nl : Netlink.Libnl NlAttrs) {live : Set Handle} (ha : IsDump a)
    (hopen : Reach (hal (Repeats a)) ∅ (wifiHalOpen nl wifiHalAttach) live (ret (first, 0))) :
    FirstOpened a first := by
  have htables := wp_reach hopen (wp_wifiHalOpen_tables nl wifiHalAttach)
  rcases htables with ⟨hne, -⟩ | ⟨b, sc, hb, hfold, hnames, -⟩
  · exact absurd rfl hne
  have hdump := hb.isDump ha
  have hstart := listing_listingStart wellRecorded_wifiHalAttach
  have hlisting := hstart.dump hdump hfold
  have hcard := card_named_dump hstart.toWellRecorded hdump hfold
  have hsame : first.ifname = sc.ifname ∧ first.phyname = sc.phyname :=
    ⟨hnames.ifname, hnames.phyname⟩
  have hnamed : named first = named sc := by
    ext i
    simp [hsame.1]
  have hphy : withPhy first = withPhy sc := by
    ext i
    simp [hsame.2]
  refine ⟨hlisting.toWellRecorded.sameNames hnames, ?_, ?_, ?_⟩
  · have hcounted := hlisting.counted
    rw [withPhy_wifiHalAttach, Finset.card_empty] at hcounted
    rw [hphy, ← hcounted, Nat.add_zero]
    exact hnames.radioAmount
  · have hone := one_le_radioAmount_iff wellRecorded_wifiHalAttach hdump hfold
    rw [admits_congr rfl rfl hb.interfaces_eq] at hone
    rw [← hone]
    exact iff_of_eq (congrArg (1 ≤ ·) hnames.radioAmount)
  · have hnone : named (listingStart wifiHalAttach) = ∅ := named_wifiHalAttach
    rw [hnone, Finset.card_empty, Nat.zero_add, hb.interfaces_eq] at hcard
    rw [hnamed]
    exact hcard

/-- The interfaces of the first session are in the slots that closing clears. -/
theorem FirstOpened.ifname_eq_nil (hfirst : FirstOpened a first) {i : Slot}
    (hi : first.radioAmount ≤ i.val) : first.ifname i = [] := by
  by_contra hname
  have hsub : Finset.Iic i ⊆ withPhy first := by
    intro j hj
    rw [mem_withPhy]
    rw [Finset.mem_Iic] at hj
    rcases lt_or_eq_of_le hj with hlt | heq
    · exact hfirst.inOrder j i hlt (hfirst.phyname i hname)
    · exact heq ▸ hfirst.phyname i hname
  have hcard := Finset.card_le_card hsub
  rw [Fin.card_Iic] at hcard
  have hcounted := hfirst.counted
  omega

/-- **Behind the first session there is nothing to count**: the names are gone, and the phy names
are there, as many as the dump has interfaces for. -/
theorem exhausted_of_cleared (hfirst : FirstOpened a first) {sc : WifiSoftc}
    (hrecorded : WellRecorded sc) (hphyname : sc.phyname = first.phyname)
    (hifname : ∀ i : Slot, sc.ifname i = if i.val < first.radioAmount then [] else first.ifname i) :
    Exhausted a sc := by
  have hnil : ∀ i, sc.ifname i = [] := by
    intro i
    rw [hifname i]
    split
    · rfl
    · exact hfirst.ifname_eq_nil (by omega)
  have hknows : (fun t => decide (sc.knows t)) = fun t => decide (wifiHalAttach.knows t) := by
    funext t
    rw [decide_eq_decide, knows_of_ifname_eq_nil hnil, knows_wifiHalAttach]
  have hnamed : named sc = ∅ := by
    ext i
    simp [hnil]
  have hphy : withPhy sc = withPhy first := by
    ext i
    simp [hphyname]
  refine ⟨hrecorded, ?_⟩
  have hle := hfirst.card_named_le
  have hcard := hfirst.named_card
  unfold Admits
  rw [hknows, hnamed, hphy, Finset.card_empty, Nat.zero_add]
  omega

/-- The first opening finds no radio exactly where the dump names no interface. -/
theorem FirstOpened.radioAmount_eq_zero_iff (hfirst : FirstOpened a first) :
    first.radioAmount = 0 ↔ ∀ name ∈ interfaces a, name = [] := by
  have hnew : (∀ name ∈ interfaces a, name = []) ↔
      newNames (fun t => wifiHalAttach.knows t) (interfaces a) = [] := by
    rw [newNames_eq_nil_iff]
    simp only [decide_eq_true_eq, knows_wifiHalAttach]
  have hphy : withPhy wifiHalAttach = ∅ := withPhy_wifiHalAttach
  have hmax : 0 < wifiRadioMax := by decide
  have hpositive := hfirst.positive
  unfold Admits at hpositive
  rw [hphy, named_wifiHalAttach, Finset.card_empty, Nat.zero_add] at hpositive
  rw [hnew, ← List.length_eq_zero_iff]
  omega

end FirstSession

/-! ### Any number of rounds -/

section Rounds

variable {nl : Netlink.Libnl NlAttrs} {a : KernelAnswer} {first : WifiSoftc} {n : ℕ} {s : HalState}

/-- Behind a round of closing and opening there is no radio, and nothing to count either. -/
theorem Reopened.exhausted (hrun : Reopened nl a first n s) (ha : IsDump a) (hn : n ≠ 0) :
    Exhausted a s.sc ∧ s.sc.radioAmount = 0 := by
  induction hrun with
  | opened => exact absurd rfl hn
  | @again n s sc v live live' r hrun hclose hopen ih =>
    have hexhausted : Exhausted a sc := by
      cases hrun with
      | opened hfirst =>
        have hopened := firstOpened_of_reach nl ha hfirst
        have hrecorded := (yields_wifiHalClose hopened.toWellRecorded).of_reach hclose
        have htables := (yields_wifiHalClose_tables _).of_reach hclose
        exact exhausted_of_cleared hopened hrecorded htables.1 htables.2.1
      | again =>
        obtain ⟨hexhausted, hzero⟩ := ih (Nat.succ_ne_zero _)
        have hsame : sc = _ := (yields_wifiHalClose_of_no_radio hzero).of_reach hclose
        rw [hsame]
        exact hexhausted
    exact wp_reach hopen (wp_wifiHalOpen_exhausted nl ha hexhausted)

theorem Reopened.firstOpened (hrun : Reopened nl a first n s) (ha : IsDump a) :
    FirstOpened a first := by
  induction hrun with
  | opened hopen => exact firstOpened_of_reach nl ha hopen
  | again _ _ _ ih => exact ih

/-- **Opening the HAL again gives the same radios exactly when the dump names no interface, or there
has been no round of closing and opening yet.** Closing leaves the names of the phys, so the slots
are not free when the same interfaces are listed again. -/
theorem reopened_same_iff (nl : Netlink.Libnl NlAttrs) {a : KernelAnswer} {first : WifiSoftc}
    {n : ℕ} {s : HalState} (ha : IsDump a) (hrun : Reopened nl a first n s) :
    SameRadios first s.sc ↔ n = 0 ∨ ∀ name ∈ interfaces a, name = [] := by
  rw [← (hrun.firstOpened ha).radioAmount_eq_zero_iff]
  by_cases hn : n = 0
  · subst hn
    cases hrun with
    | opened hopen => simp [SameRadios.refl]
  · obtain ⟨-, hzero⟩ := hrun.exhausted ha hn
    constructor
    · intro h
      have hamount := h.radioAmount
      omega
    · intro h
      have hfirst : first.radioAmount = 0 := h.resolve_left hn
      refine ⟨by omega, ?_, ?_, ?_⟩ <;> intro i hi <;> omega

end Rounds

/-! ### Rounds can succeed -/

section Success

variable {allowed : KernelAnswer → Prop} {live live' : Set Handle}

theorem finite_of_hal {q : WifiQ} {a : WifiA q} (hlive : live.Finite)
    (h : hal allowed live q a live') : live'.Finite := by
  unfold hal at h
  split at h
  · exact h.2 ▸ hlive
  · exact h ▸ hlive
  · rw [h.2]
    exact hlive.insert _
  · rw [h]
    exact hlive.sdiff
  · exact h ▸ hlive

/-- Only finitely many connections are open at any time. -/
theorem finite_of_reach {α : Type} {p p' : WifiM α} (hlive : live.Finite)
    (h : Reach (hal allowed) live p live' p') : live'.Finite := by
  induction h with
  | start => exact hlive
  | reply a hstep _ ih => exact ih (finite_of_hal hlive hstep)

theorem exists_reach_wpaCtrlClose (allowed : KernelAnswer → Prop) (live : Set Handle)
    (ctrl : Option Handle) :
    ∃ live', Reach (hal allowed) live (wpaCtrlClose ctrl) live' (ret ()) := by
  cases ctrl with
  | none => exact ⟨live, .start _ _⟩
  | some h => exact ⟨live \ {h}, .reply () rfl (.start _ _)⟩

theorem exists_reach_closeRadios (allowed : KernelAnswer → Prop) (is : List Slot) (sc : WifiSoftc)
    (live : Set Handle) :
    ∃ sc' live', Reach (hal allowed) live (closeRadios is sc) live' (ret sc') := by
  induction is generalizing sc live with
  | nil => exact ⟨sc, live, .start _ _⟩
  | cons i is ih =>
    obtain ⟨live₁, h₁⟩ := exists_reach_wpaCtrlClose allowed live (sc.wpaCtx i).monitor
    obtain ⟨live₂, h₂⟩ := exists_reach_wpaCtrlClose allowed live₁ (sc.wpaCtx i).ctrl
    obtain ⟨live₃, h₃⟩ := exists_reach_wpaCtrlClose allowed live₂ (sc.wpaCtx i).meshCtrl
    obtain ⟨sc', live', hrest⟩ := ih (sc.clearInterface i) live₃
    have hdettach : Reach (hal allowed) live (wifiHalWpaDettach sc i) live₃ (ret ()) :=
      (h₁.bind _).trans ((h₂.bind _).trans h₃)
    exact ⟨sc', live', (hdettach.bind _).trans hrest⟩

/-- `wifi_hal_close` can return, whatever it finds. -/
theorem exists_reach_wifiHalClose (allowed : KernelAnswer → Prop) {sc : WifiSoftc}
    (hmax : sc.radioAmount ≤ wifiRadioMax) (live : Set Handle) :
    ∃ sc' live', Reach (hal allowed) live (wifiHalClose sc) live' (ret (sc', 0)) := by
  obtain ⟨sc', live', hclose⟩ := exists_reach_closeRadios allowed sc.radios sc live
  refine ⟨sc', live', (hclose.bind _).trans ?_⟩
  unfold WifiM.endOfTable
  rw [ret_bind, if_pos hmax]
  exact .start _ _

/-- The index in the first slot is never zero, as `wifi_hal_get_interface` checks. -/
theorem ifindex_ne_zero_of_dump {a : KernelAnswer} {sc sc' : WifiSoftc} (hsc : WellRecorded sc)
    (ha : IsDump a) (hindex : sc.ifindex 0 ≠ 0)
    (h : a.data.foldlM wifiHalIfnameRespHdlr sc = some sc') : sc'.ifindex 0 ≠ 0 := by
  have hkeep : ∀ (msg : NlAttrs) (name : Text) (s s' : WifiSoftc),
      WellRecorded s ∧ s.ifindex 0 ≠ 0 → Records msg name s s' →
        WellRecorded s' ∧ s'.ifindex 0 ≠ 0 := by
    intro msg name s s' hs hrecords
    refine ⟨hs.1.records hrecords, ?_⟩
    cases hrecords with
    | passed => exact hs.2
    | recorded i index hfree hnew hpos hwiphy hshort =>
      rw [ifindex_record]
      by_cases hi : (0 : Slot) = i
      · rw [← hi, Function.update_self]
        omega
      · rw [Function.update_of_ne hi]
        exact hs.2
  exact (foldlM_wifiHalIfnameRespHdlr (fun s => WellRecorded s ∧ s.ifindex 0 ≠ 0)
    (fun _ hs => hs.1) hkeep ha ⟨hsc, hindex⟩ h).2

/-- What an opening leaves for the next round. -/
structure Reopenable (s : HalState) : Prop extends WellRecorded s.sc where
  opened : s.opened = true
  finite : s.live.Finite
  index_ne : s.sc.ifindex 0 ≠ 0
  amount_le : s.sc.radioAmount ≤ wifiRadioMax

/-- A dump of interfaces with names, read to its end, can open the HAL. -/
theorem exists_reopenable (nl : Netlink.Libnl NlAttrs) {a : KernelAnswer} {sc : WifiSoftc}
    (ha : IsDump a) (hending : a.ending = .done)
    (hnames : ∀ msg ∈ a.data, msg.ifname.isSome = true) (hsc : WellRecorded sc)
    (hindex : sc.ifindex 0 ≠ 0) (hlive : live.Finite) :
    ∃ sc' live', Reach (hal (Repeats a)) live (wifiHalOpen nl sc) live' (ret (sc', 0)) ∧
      Reopenable ⟨sc', live', true⟩ := by
  have hstart := listing_listingStart hsc
  obtain ⟨sc₁, hfold⟩ := Option.isSome_iff_exists.mp
    ((readable_getInterface (listingStart sc) a).mpr hnames)
  have hlisting := hstart.dump ha hfold
  have hindex₁ := ifindex_ne_zero_of_dump hstart.toWellRecorded ha hindex hfold
  have hmax := hlisting.radioAmount_le
  obtain ⟨sc', live', hsame, hopen⟩ :=
    exists_reach_wifiHalOpen nl (Repeats a) sc rfl hending hfold hindex₁ hmax hlive
  refine ⟨sc', live', hopen, hlisting.toWellRecorded.sameNames hsame, rfl,
    finite_of_reach hlive hopen, ?_, ?_⟩
  · rw [hsame.ifindex]
    exact hindex₁
  · rw [hsame.radioAmount]
    exact hmax

/-- Whatever interfaces the dump names, there can be any number of rounds. -/
theorem exists_reopened (nl : Netlink.Libnl NlAttrs) {a : KernelAnswer} (ha : IsDump a)
    (hending : a.ending = .done) (hnames : ∀ msg ∈ a.data, msg.ifname.isSome = true) (n : ℕ) :
    ∃ first s, Reopened nl a first n s ∧ Reopenable s := by
  induction n with
  | zero =>
    obtain ⟨sc, live, hopen, hnext⟩ := exists_reopenable nl ha hending hnames
      wellRecorded_wifiHalAttach (by decide) Set.finite_empty
    exact ⟨sc, _, .opened hopen, hnext⟩
  | succ n ih =>
    obtain ⟨first, s, hrun, hs⟩ := ih
    obtain ⟨sc, live, hclose⟩ := exists_reach_wifiHalClose (Repeats a) hs.amount_le s.live
    have hrecorded : WellRecorded sc := (yields_wifiHalClose hs.toWellRecorded).of_reach hclose
    have hindex : sc.ifindex 0 ≠ 0 := by
      have hcleared := (yields_wifiHalClose_tables s.sc).of_reach hclose
      rw [hcleared.2.2 0]
      split
      · decide
      · exact hs.index_ne
    obtain ⟨sc', live', hopen, hnext⟩ := exists_reopenable nl ha hending hnames hrecorded hindex
      (finite_of_reach hs.finite hclose)
    exact ⟨first, _, .again hrun hclose hopen, hnext⟩

end Success

/-- A machine without any interface: the second opening finds as little as the first. -/
theorem nothing_reopened :
    ∃ first s, Reopened .standard ⟨[], [], .done⟩ first 1 s ∧ SameRadios first s.sc := by
  have hdump : IsDump ⟨[], [], .done⟩ := fun msg hmsg => absurd hmsg List.not_mem_nil
  obtain ⟨first, s, hrun, -⟩ := exists_reopened .standard hdump rfl
    (fun msg hmsg => absurd hmsg List.not_mem_nil) 1
  have hnone : ∀ name ∈ interfaces ⟨[], [], .done⟩, name = [] :=
    fun name hname => absurd hname List.not_mem_nil
  exact ⟨first, s, hrun, (reopened_same_iff .standard hdump hrun).mpr (Or.inr hnone)⟩

/-- Not every dump of distinct names gives the same radios again: a single interface is there once
only. -/
theorem not_all_reopened_same : ¬ ∀ (nl : Netlink.Libnl NlAttrs) (a : KernelAnswer)
    (first : WifiSoftc) (n : ℕ) (s : HalState), IsDump a →
    (interfaces a).Pairwise (fun name name' => ¬ name <+: name' ∧ ¬ name' <+: name) →
    Reopened nl a first n s → s.opened = true → SameRadios first s.sc := by
  intro h
  have hnames : ∀ msg ∈ singleDump.data, msg.ifname.isSome = true := by decide
  obtain ⟨first, s, hrun, hs⟩ := exists_reopened .standard isDump_singleDump rfl hnames 1
  have hsame := h .standard singleDump first 1 s isDump_singleDump (List.pairwise_singleton _ _)
    hrun hs.opened
  obtain ⟨-, hzero⟩ := hrun.exhausted isDump_singleDump one_ne_zero
  have hfirst : first.radioAmount = 0 := by
    have hamount := hsame.radioAmount
    omega
  have hnil := (hrun.firstOpened isDump_singleDump).radioAmount_eq_zero_iff.mp hfirst
  exact absurd (hnil _ (List.mem_singleton.mpr rfl)) (by decide)

end RadioHal.Wifi
