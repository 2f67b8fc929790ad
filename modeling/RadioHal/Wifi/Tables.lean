import Mathlib.Data.Finset.Card
import Mathlib.Order.Interval.Finset.Fin
import RadioHal.Wifi.Answered
import RadioHal.Wifi.Frame

/-!
# The tables of the interfaces

Every dump of the interfaces runs the same data callback over the tables of the softc.  An
interface that is not in them gets the first free slot; the phy name of the slot is stored, and
`radio_amount` raised, only where no phy name is left from before.

## Main definitions

* `IsInterface` — what nl80211 promises about a message of such a dump.
* `WellRecorded` — what holds of the tables at all times.
* `named`, `withPhy` — the slots that have an interface, and those that have a phy name.
* `newNames` — the names of a dump that the tables do not have.
* `Admits` — a dump after which `wifi_hal_open` has a radio to offer.
* `Quiet` — a dump that leaves the tables as they are.

## Main results

* `wifiHalIfnameRespHdlr_eq` — the data callback without its loops.
* `one_le_radioAmount_iff` — **after the dump of an opening there is a radio exactly when the dump
  was one of those.**
-/

namespace RadioHal.Wifi

open CLib Dialogue

/-- What nl80211 promises about an interface: its name fits the field, its index is positive, and
it belongs to a phy. -/
structure IsInterface (msg : NlAttrs) : Prop where
  short : ∀ name, msg.ifname = some name → (cstr name).length < radioIfnameSize
  index_pos : ∀ index, msg.ifindex = some index → 0 < index.toInt
  wiphy : msg.wiphy.isSome = true

/-- The tables: an interface has an index and a phy name, and phy names are given out in order. -/
structure WellRecorded (sc : WifiSoftc) : Prop where
  ifindex : ∀ i, sc.ifname i ≠ [] → 0 < sc.ifindex i
  phyname : ∀ i, sc.ifname i ≠ [] → sc.phyname i ≠ []
  inOrder : ∀ i j, i < j → sc.phyname j ≠ [] → sc.phyname i ≠ []

theorem wellRecorded_wifiHalAttach : WellRecorded wifiHalAttach where
  ifindex _ h := absurd rfl h
  phyname _ h := absurd rfl h
  inOrder _ _ _ h := absurd rfl h

/-- The slots that hold the name of an interface. -/
def named (sc : WifiSoftc) : Finset Slot := {i | sc.ifname i ≠ []}

/-- The slots that hold the name of a phy. -/
def withPhy (sc : WifiSoftc) : Finset Slot := {i | sc.phyname i ≠ []}

@[simp] theorem mem_named {sc : WifiSoftc} {i : Slot} : i ∈ named sc ↔ sc.ifname i ≠ [] := by
  simp [named]

@[simp] theorem mem_withPhy {sc : WifiSoftc} {i : Slot} : i ∈ withPhy sc ↔ sc.phyname i ≠ [] := by
  simp [withPhy]

theorem card_le_radioMax (s : Finset Slot) : s.card ≤ wifiRadioMax := by
  have := Finset.card_le_univ s
  rwa [Fintype.card_fin] at this

/-- The first slot without an interface, in which the next one is stored. -/
def freeSlot (sc : WifiSoftc) : Option Slot :=
  (List.finRange wifiRadioMax).find? fun i => sc.ifname i = []

theorem freeSlot_eq_some {sc : WifiSoftc} {i : Slot} (h : freeSlot sc = some i) :
    sc.ifname i = [] ∧ ∀ j < i, sc.ifname j ≠ [] := by
  obtain ⟨hi, n, hn, hget, hbefore⟩ := List.find?_eq_some_iff_getElem.mp h
  refine ⟨by simpa using hi, fun j hj => ?_⟩
  have hni : n = i.val := by
    have := congrArg Fin.val hget
    simpa using this
  have hlt : j.val < n := by
    rw [hni]
    exact hj
  simpa using hbefore j.val hlt

theorem freeSlot_eq_none {sc : WifiSoftc} (h : freeSlot sc = none) (i : Slot) :
    sc.ifname i ≠ [] := by
  have := List.find?_eq_none.mp h i (List.mem_finRange i)
  simpa using this

/-! ### The data callback -/

/-- The interface of a message goes into slot `i`. -/
def record (msg : NlAttrs) (name : Text) (index : BitVec 32) (i : Slot) (sc : WifiSoftc) :
    WifiSoftc :=
  phySlot msg i (sc.storeInterface i name index)

section Record

variable {sc : WifiSoftc} {msg : NlAttrs} {name : Text} {index : BitVec 32} {i : Slot}

@[simp] theorem ifname_record :
    (record msg name index i sc).ifname =
      Function.update sc.ifname i (snprintf radioIfnameSize name) := by
  unfold record phySlot
  split
  · cases msg.wiphy <;> rfl
  · rfl

@[simp] theorem ifindex_record :
    (record msg name index i sc).ifindex = Function.update sc.ifindex i index.toInt := by
  unfold record phySlot
  split
  · cases msg.wiphy <;> rfl
  · rfl

/-- A slot without a phy name gets one, and there is one radio more. -/
theorem record_of_phyname_eq_nil (name : Text) (index : BitVec 32)
    (hwiphy : msg.wiphy.isSome = true) (h : sc.phyname i = []) :
    (record msg name index i sc).radioAmount = sc.radioAmount + 1 ∧
      ∃ phy ≠ [], (record msg name index i sc).phyname = Function.update sc.phyname i phy := by
  obtain ⟨wiphy, hw⟩ := Option.isSome_iff_exists.mp hwiphy
  have hphy : (sc.storeInterface i name index).phyname i = [] := h
  unfold record phySlot
  rw [if_pos hphy, hw]
  refine ⟨rfl, _, ?_, rfl⟩
  have hroom : radioPhynameSize - 1 ≠ 0 := by decide
  simpa [snprintf, List.take_eq_nil_iff, hroom] using decimal_ne_nil _

/-- A phy name that is there stays, and is not counted. -/
theorem record_of_phyname_ne_nil (name : Text) (index : BitVec 32) (h : sc.phyname i ≠ []) :
    (record msg name index i sc).radioAmount = sc.radioAmount ∧
      (record msg name index i sc).phyname = sc.phyname := by
  have hphy : (sc.storeInterface i name index).phyname i ≠ [] := h
  unfold record phySlot
  rw [if_neg hphy]
  exact ⟨rfl, rfl⟩

theorem phyname_record_ne_nil (hwiphy : msg.wiphy.isSome = true) (j : Slot) :
    (record msg name index i sc).phyname j ≠ [] ↔ j = i ∨ sc.phyname j ≠ [] := by
  by_cases h : sc.phyname i = []
  · obtain ⟨-, phy, hphy, heq⟩ := record_of_phyname_eq_nil name index hwiphy h
    rw [heq]
    by_cases hj : j = i
    · simp [hj, hphy]
    · simp [hj]
  · rw [(record_of_phyname_ne_nil name index h).2]
    constructor
    · exact Or.inr
    · rintro (rfl | hj)
      · exact h
      · exact hj

/-- The tables have the names they had, and the one recorded. -/
theorem knows_record (hfree : sc.ifname i = []) (hshort : name.length < radioIfnameSize)
    (t : Text) :
    (record msg name index i sc).knows t ↔ sc.knows t ∨ strStarts name t = true := by
  have hname : snprintf radioIfnameSize name = name := List.take_of_length_le (by omega)
  unfold WifiSoftc.knows
  rw [ifname_record, hname]
  constructor
  · rintro ⟨x, hx⟩
    by_cases hxi : x = i
    · rw [hxi, Function.update_self] at hx
      exact Or.inr hx
    · rw [Function.update_of_ne hxi] at hx
      exact Or.inl ⟨x, hx⟩
  · rintro (⟨x, hx⟩ | ht)
    · by_cases hxi : x = i
      · -- in front of nothing stands nothing only
        rw [hxi, hfree, strStarts_iff, List.prefix_nil] at hx
        exact ⟨i, by rw [hx]; rfl⟩
      · exact ⟨x, by rwa [Function.update_of_ne hxi]⟩
    · exact ⟨i, by rwa [Function.update_self]⟩

theorem named_record (hname : name ≠ []) :
    named (record msg name index i sc) = insert i (named sc) := by
  have hroom : radioIfnameSize - 1 ≠ 0 := by decide
  have hcut : snprintf radioIfnameSize name ≠ [] := by
    simp [snprintf, List.take_eq_nil_iff, hroom, hname]
  ext j
  rw [mem_named, Finset.mem_insert, mem_named, ifname_record]
  by_cases hj : j = i
  · simp [hj, hcut]
  · simp [hj]

theorem withPhy_record (hwiphy : msg.wiphy.isSome = true) :
    withPhy (record msg name index i sc) = insert i (withPhy sc) := by
  ext j
  rw [mem_withPhy, phyname_record_ne_nil hwiphy, Finset.mem_insert, mem_withPhy]

end Record

section Callback

variable {sc : WifiSoftc} {msg : NlAttrs} {raw : Text} {index : BitVec 32}

/-- A name the tables have is passed over in each round. -/
theorem foldlM_ifnameRound_of_knows (hraw : msg.ifname = some raw) (hknown : sc.knows (cstr raw))
    (is : List Slot) : is.foldlM (ifnameRound msg) sc = some sc := by
  induction is with
  | nil => rfl
  | cons i is ih =>
    have hround : ifnameRound msg sc i = some sc := by simp [ifnameRound, hraw, hknown]
    rw [List.foldlM_cons, hround]
    exact ih

/-- Another name is recorded in the first free slot, and passed over from then on. -/
theorem foldlM_ifnameRound_of_not_knows (hphy : ∀ i, sc.ifname i ≠ [] → sc.phyname i ≠ [])
    (hraw : msg.ifname = some raw) (hindex : msg.ifindex = some index)
    (hshort : (cstr raw).length < radioIfnameSize) (hnew : ¬ sc.knows (cstr raw))
    (is : List Slot) :
    is.foldlM (ifnameRound msg) sc =
      some ((is.find? fun i => sc.ifname i = []).elim sc fun i =>
        record msg (cstr raw) index i sc) := by
  induction is with
  | nil => rfl
  | cons i is ih =>
    rw [List.foldlM_cons, List.find?_cons]
    by_cases hfree : sc.ifname i = []
    · have hround : ifnameRound msg sc i = some (record msg (cstr raw) index i sc) := by
        simp [ifnameRound, nameSlot, record, hraw, hindex, hnew, hfree]
      have hknown : (record msg (cstr raw) index i sc).knows (cstr raw) :=
        (knows_record hfree hshort _).mpr (Or.inr (strStarts_iff.mpr List.prefix_rfl))
      rw [hround]
      simpa [hfree] using foldlM_ifnameRound_of_knows hraw hknown is
    · -- the slot has a name and so a phy name: nothing is stored
      have hround : ifnameRound msg sc i = some sc := by
        simp [ifnameRound, nameSlot, phySlot, hraw, hfree, hphy i hfree]
      rw [hround]
      simpa [hfree] using ih

/-- **The data callback passes over what the tables have, and records anything else in the first
free slot.** -/
theorem wifiHalIfnameRespHdlr_eq (hphy : ∀ i, sc.ifname i ≠ [] → sc.phyname i ≠ [])
    (hraw : msg.ifname = some raw) (hindex : msg.ifindex = some index)
    (hshort : (cstr raw).length < radioIfnameSize) :
    wifiHalIfnameRespHdlr sc msg =
      some (if sc.knows (cstr raw) then sc
        else (freeSlot sc).elim sc fun i => record msg (cstr raw) index i sc) := by
  unfold wifiHalIfnameRespHdlr
  split
  · exact foldlM_ifnameRound_of_knows hraw ‹_› _
  · exact foldlM_ifnameRound_of_not_knows hphy hraw hindex hshort ‹_› _

/-- What one message does to the tables: its interface is passed over, or recorded. -/
inductive Records (msg : NlAttrs) (name : Text) (sc : WifiSoftc) : WifiSoftc → Prop
  | passed (h : sc.knows name ∨ freeSlot sc = none) : Records msg name sc sc
  | recorded (i : Slot) (index : BitVec 32) (hfree : freeSlot sc = some i)
      (hnew : ¬ sc.knows name) (hindex : 0 < index.toInt) (hwiphy : msg.wiphy.isSome = true)
      (hshort : name.length < radioIfnameSize) : Records msg name sc (record msg name index i sc)

theorem records_of_wifiHalIfnameRespHdlr {sc' : WifiSoftc} (hsc : WellRecorded sc)
    (hmsg : IsInterface msg) (h : wifiHalIfnameRespHdlr sc msg = some sc') :
    ∃ raw, msg.ifname = some raw ∧ Records msg (cstr raw) sc sc' := by
  have hraw : msg.ifname.isSome = true := by
    rw [← isSome_wifiHalIfnameRespHdlr sc, h]
    rfl
  obtain ⟨index, hindex⟩ := Option.isSome_iff_exists.mp (msg.indexed hraw)
  obtain ⟨raw, hraw⟩ := Option.isSome_iff_exists.mp hraw
  refine ⟨raw, hraw, ?_⟩
  rw [wifiHalIfnameRespHdlr_eq hsc.phyname hraw hindex (hmsg.short raw hraw)] at h
  obtain rfl := Option.some.inj h
  split
  · exact .passed (Or.inl ‹_›)
  · cases hfree : freeSlot sc with
    | none => exact .passed (Or.inr hfree)
    | some i =>
      exact .recorded i index hfree ‹_› (hmsg.index_pos index hindex) hmsg.wiphy
        (hmsg.short raw hraw)

end Callback

/-! ### Invariants of a dump -/

section Invariants

variable {sc sc₀ sc' : WifiSoftc} {msg : NlAttrs} {name : Text}

theorem WellRecorded.records (hsc : WellRecorded sc) (h : Records msg name sc sc') :
    WellRecorded sc' := by
  cases h with
  | passed => exact hsc
  | recorded i index hfree hnew hindex hwiphy hshort =>
    obtain ⟨-, hbefore⟩ := freeSlot_eq_some hfree
    refine ⟨fun j hj => ?_, fun j hj => ?_, fun j k hjk hk => ?_⟩
    · rw [ifindex_record]
      rw [ifname_record] at hj
      by_cases hji : j = i
      · rw [hji, Function.update_self]
        exact hindex
      · rw [Function.update_of_ne hji] at hj ⊢
        exact hsc.ifindex j hj
    · rw [phyname_record_ne_nil hwiphy]
      rw [ifname_record] at hj
      by_cases hji : j = i
      · exact Or.inl hji
      · rw [Function.update_of_ne hji] at hj
        exact Or.inr (hsc.phyname j hj)
    · rw [phyname_record_ne_nil hwiphy] at hk ⊢
      rcases hk with rfl | hk
      · -- the slots before the free one have a name each
        exact Or.inr (hsc.phyname j (hbefore j hjk))
      · exact Or.inr (hsc.inOrder j k hjk hk)

/-- The tables while `wifi_hal_open` lists the interfaces, from `sc₀` on: the radios are the slots
that have got a phy name, and as soon as there is one all phys have an interface. -/
structure Listing (sc₀ sc : WifiSoftc) : Prop extends WellRecorded sc where
  counted : sc.radioAmount + (withPhy sc₀).card = (withPhy sc).card
  covered : 0 < sc.radioAmount → ∀ i, sc.phyname i ≠ [] → sc.ifname i ≠ []

theorem Listing.records (hsc : Listing sc₀ sc) (h : Records msg name sc sc') :
    Listing sc₀ sc' := by
  refine ⟨hsc.toWellRecorded.records h, ?_, ?_⟩
  · cases h with
    | passed => exact hsc.counted
    | recorded i index hfree hnew hindex hwiphy hshort =>
      have hcounted := hsc.counted
      rw [withPhy_record hwiphy]
      by_cases hphy : sc.phyname i = []
      · rw [(record_of_phyname_eq_nil name index hwiphy hphy).1,
          Finset.card_insert_of_notMem (by simp [hphy])]
        omega
      · rw [(record_of_phyname_ne_nil name index hphy).1, Finset.insert_eq_of_mem (by simp [hphy])]
        exact hcounted
  · cases h with
    | passed => exact hsc.covered
    | recorded i index hfree hnew hindex hwiphy hshort =>
      obtain ⟨-, hbefore⟩ := freeSlot_eq_some hfree
      have hname : name ≠ [] := by
        rintro rfl
        exact hnew ⟨i, strStarts_iff.mpr List.nil_prefix⟩
      intro hpos j hj
      rw [← mem_named, named_record hname, Finset.mem_insert, mem_named]
      rw [phyname_record_ne_nil hwiphy] at hj
      by_cases hji : j = i
      · exact Or.inl hji
      have hjphy : sc.phyname j ≠ [] := hj.resolve_left hji
      right
      by_cases hphy : sc.phyname i = []
      · -- a slot behind the one that gets its phy name only now has none
        rcases lt_trichotomy j i with hlt | heq | hgt
        · exact hbefore j hlt
        · exact absurd heq hji
        · exact absurd hphy (hsc.inOrder i j hgt hjphy)
      · rw [(record_of_phyname_ne_nil name index hphy).1] at hpos
        exact hsc.covered hpos j hjphy

/-! ### Whole dumps -/

/-- The answers nl80211 gives to a dump of the interfaces. -/
def IsDump (a : KernelAnswer) : Prop := ∀ msg ∈ a.data, IsInterface msg

/-- The names of the interfaces in an answer. -/
def interfaces (a : KernelAnswer) : List Text :=
  a.data.filterMap fun msg => msg.ifname.map cstr

/-- An invariant that one message keeps is kept by a dump. -/
theorem foldlM_wifiHalIfnameRespHdlr (Inv : WifiSoftc → Prop)
    (hrecorded : ∀ s, Inv s → WellRecorded s)
    (hkeep : ∀ msg name s s', Inv s → Records msg name s s' → Inv s') {a : KernelAnswer}
    (ha : IsDump a) (hsc : Inv sc) (h : a.data.foldlM wifiHalIfnameRespHdlr sc = some sc') :
    Inv sc' := by
  refine Netlink.foldlM_keeps Inv (fun msg hmsg s s' hs hstep => ?_) hsc h
  obtain ⟨raw, -, hrecords⟩ := records_of_wifiHalIfnameRespHdlr (hrecorded s hs) (ha msg hmsg) hstep
  exact hkeep msg _ s s' hs hrecords

/-- A dump keeps the tables in order, however many messages it has. -/
theorem WellRecorded.dump {a : KernelAnswer} (hsc : WellRecorded sc) (ha : IsDump a)
    (h : a.data.foldlM wifiHalIfnameRespHdlr sc = some sc') : WellRecorded sc' :=
  foldlM_wifiHalIfnameRespHdlr WellRecorded (fun _ hs => hs) (fun _ _ _ _ hs => hs.records) ha hsc h

theorem Listing.dump {a : KernelAnswer} (hsc : Listing sc₀ sc) (ha : IsDump a)
    (h : a.data.foldlM wifiHalIfnameRespHdlr sc = some sc') : Listing sc₀ sc' :=
  foldlM_wifiHalIfnameRespHdlr (Listing sc₀) (fun _ hs => hs.toWellRecorded)
    (fun _ _ _ _ hs => hs.records) ha hsc h

/-! ### Dumps that change nothing -/

/-- A dump that leaves the tables as they are: they have its interfaces, or no slot is free. -/
def Quiet (sc : WifiSoftc) (a : KernelAnswer) : Prop :=
  ∀ name ∈ interfaces a, sc.knows name ∨ ∀ i, sc.ifname i ≠ []

theorem Records.eq_of_knows (h : Records msg name sc sc')
    (hquiet : sc.knows name ∨ ∀ i, sc.ifname i ≠ []) : sc' = sc := by
  cases h with
  | passed => rfl
  | recorded i index hfree hnew hindex hwiphy hshort =>
    rcases hquiet with hknown | hfull
    · exact absurd hknown hnew
    · exact absurd (freeSlot_eq_some hfree).1 (hfull i)

theorem Quiet.dump {a : KernelAnswer} (hquiet : Quiet sc a) (hsc : WellRecorded sc)
    (ha : IsDump a) (h : a.data.foldlM wifiHalIfnameRespHdlr sc = some sc') : sc' = sc := by
  unfold Quiet interfaces at hquiet
  unfold IsDump at ha
  generalize a.data = msgs at hquiet ha h
  induction msgs with
  | nil => exact (Option.some.inj h).symm
  | cons msg msgs ih =>
    rw [List.foldlM_cons] at h
    obtain ⟨s, hs, hfold⟩ := Option.bind_eq_some_iff.mp h
    obtain ⟨hmsg, hmsgs⟩ := List.forall_mem_cons.mp ha
    obtain ⟨raw, hraw, hrecords⟩ := records_of_wifiHalIfnameRespHdlr hsc hmsg hs
    rw [List.filterMap_cons_some (by rw [hraw]; rfl)] at hquiet
    obtain ⟨hfirst, hrest⟩ := List.forall_mem_cons.mp hquiet
    rw [hrecords.eq_of_knows hfirst] at hfold
    exact ih hrest hmsgs hfold

/-- The tables have the name, or no room for it. -/
def Settled (sc : WifiSoftc) (t : Text) : Prop := sc.knows t ∨ ∀ i, sc.ifname i ≠ []

theorem Settled.records {t : Text} (hsettled : Settled sc t) (h : Records msg name sc sc') :
    Settled sc' t := by
  cases h with
  | passed => exact hsettled
  | recorded i index hfree hnew hindex hwiphy hshort =>
    have hempty := (freeSlot_eq_some hfree).1
    rcases hsettled with hknown | hfull
    · exact Or.inl ((knows_record hempty hshort t).mpr (Or.inl hknown))
    · exact absurd hempty (hfull i)

/-- Behind its message the name of an interface is settled: it is known, or there is no slot left.
-/
theorem settled_of_records (h : Records msg name sc sc') : Settled sc' name := by
  cases h with
  | passed hpassed => exact hpassed.imp_right freeSlot_eq_none
  | recorded i index hfree hnew hindex hwiphy hshort =>
    have hempty := (freeSlot_eq_some hfree).1
    have hself : strStarts name name = true := strStarts_iff.mpr List.prefix_rfl
    exact Or.inl ((knows_record hempty hshort name).mpr (Or.inr hself))

/-- **Behind a dump the same dump brings nothing.**  Each of its names has its slot by then, or
there was none left. -/
theorem quiet_of_dump {a : KernelAnswer} (hsc : WellRecorded sc) (ha : IsDump a)
    (h : a.data.foldlM wifiHalIfnameRespHdlr sc = some sc') : Quiet sc' a := by
  unfold Quiet interfaces
  unfold IsDump at ha
  generalize a.data = msgs at ha h
  induction msgs generalizing sc with
  | nil => simp
  | cons msg msgs ih =>
    rw [List.foldlM_cons] at h
    obtain ⟨s, hs, hfold⟩ := Option.bind_eq_some_iff.mp h
    obtain ⟨hmsg, hmsgs⟩ := List.forall_mem_cons.mp ha
    obtain ⟨raw, hraw, hrecords⟩ := records_of_wifiHalIfnameRespHdlr hsc hmsg hs
    have hrecorded := hsc.records hrecords
    rw [List.filterMap_cons_some (by rw [hraw]; rfl)]
    refine List.forall_mem_cons.mpr ⟨?_, ih hrecorded hmsgs hfold⟩
    -- the name of the first message stays settled while the rest is recorded
    have hkeep : WellRecorded sc' ∧ Settled sc' (cstr raw) := by
      refine Netlink.foldlM_keeps (fun s => WellRecorded s ∧ Settled s (cstr raw)) ?_
        ⟨hrecorded, settled_of_records hrecords⟩ hfold
      intro msg' hmsg' s₁ s₂ hinv hstep
      obtain ⟨raw', -, hrecords'⟩ :=
        records_of_wifiHalIfnameRespHdlr hinv.1 (hmsgs msg' hmsg') hstep
      exact ⟨hinv.1.records hrecords', hinv.2.records hrecords'⟩
    exact hkeep.2

/-! ### Dumps that bring interfaces -/

/-- The names that are not known, where a name that has come makes its beginnings known. -/
def newNames (known : Text → Bool) : List Text → List Text
  | [] => []
  | name :: names =>
    if known name then newNames known names
    else name :: newNames (fun t => known t || strStarts name t) names

/-- A dump that brings an interface to a slot without a phy name: the slots that have an interface
already and the new names are more than the phy names there are. -/
def Admits (sc : WifiSoftc) (a : KernelAnswer) : Prop :=
  (withPhy sc).card <
    min wifiRadioMax ((named sc).card + (newNames (fun t => sc.knows t) (interfaces a)).length)

/-- A dump gives its new names the slots that are free. -/
theorem card_named_dump {a : KernelAnswer} (hsc : WellRecorded sc) (ha : IsDump a)
    (h : a.data.foldlM wifiHalIfnameRespHdlr sc = some sc') :
    (named sc').card =
      min wifiRadioMax
        ((named sc).card + (newNames (fun t => sc.knows t) (interfaces a)).length) := by
  unfold interfaces
  unfold IsDump at ha
  generalize a.data = msgs at ha h
  induction msgs generalizing sc with
  | nil =>
    obtain rfl := Option.some.inj h
    have := card_le_radioMax (named sc)
    simp [newNames, this]
  | cons msg msgs ih =>
    rw [List.foldlM_cons] at h
    obtain ⟨s, hs, h⟩ := Option.bind_eq_some_iff.mp h
    obtain ⟨hmsg, hmsgs⟩ := List.forall_mem_cons.mp ha
    obtain ⟨raw, hraw, hrecords⟩ := records_of_wifiHalIfnameRespHdlr hsc hmsg hs
    have hrest := ih (hsc.records hrecords) hmsgs h
    rw [List.filterMap_cons_some (by rw [hraw]; rfl), newNames]
    cases hrecords with
    | passed hpassed =>
      by_cases hknown : sc.knows (cstr raw)
      · simpa [hknown] using hrest
      · -- all slots have a name, so what else the dump brings does not matter
        have hfull : named sc = Finset.univ := by
          ext i
          simpa using freeSlot_eq_none (hpassed.resolve_left hknown) i
        have hcard : (named sc).card = wifiRadioMax := by
          rw [hfull, Finset.card_univ, Fintype.card_fin]
        omega
    | recorded i index hfree hnew hindex hwiphy hshort =>
      obtain ⟨hempty, -⟩ := freeSlot_eq_some hfree
      have hname : cstr raw ≠ [] := by
        intro hnil
        exact hnew ⟨i, by rw [hnil]; exact strStarts_iff.mpr List.nil_prefix⟩
      have hknows : (fun t => decide ((record msg (cstr raw) index i sc).knows t)) =
          fun t => decide (sc.knows t) || strStarts (cstr raw) t := by
        funext t
        rw [Bool.eq_iff_iff]
        simpa using knows_record hempty hshort t
      have hfresh : i ∉ named sc := by simp [hempty]
      rw [hknows, named_record hname, Finset.card_insert_of_notMem hfresh] at hrest
      have hdec : decide (sc.knows (cstr raw)) = false := decide_eq_false hnew
      rw [hrest, hdec]
      simp only [Bool.false_eq_true, if_false, List.length_cons]
      congr 1
      omega

/-! ### The dump of an opening -/

/-- The softc as `wifi_hal_open` hands it to the dump. -/
def listingStart (sc : WifiSoftc) : WifiSoftc := { sc with radioAmount := 0 }

theorem listing_listingStart (hsc : WellRecorded sc) :
    Listing (listingStart sc) (listingStart sc) where
  ifindex := hsc.ifindex
  phyname := hsc.phyname
  inOrder := hsc.inOrder
  counted := Nat.zero_add _
  covered h := absurd h (Nat.lt_irrefl 0)

/-- **After the dump of an opening there is a radio exactly when the dump brought an interface to
a slot without a phy name.** -/
theorem one_le_radioAmount_iff {a : KernelAnswer} (hsc : WellRecorded sc) (ha : IsDump a)
    (h : a.data.foldlM wifiHalIfnameRespHdlr (listingStart sc) = some sc') :
    1 ≤ sc'.radioAmount ↔ Admits sc a := by
  have hlisting := (listing_listingStart hsc).dump ha h
  have hcounted : sc'.radioAmount + (withPhy sc).card = (withPhy sc').card := hlisting.counted
  have hnamed : (named sc').card = min wifiRadioMax
      ((named sc).card + (newNames (fun t => sc.knows t) (interfaces a)).length) := by
    have := card_named_dump (listing_listingStart hsc).toWellRecorded ha h
    exact this
  have hsub : named sc' ⊆ withPhy sc' := by
    intro i hi
    rw [mem_named] at hi
    rw [mem_withPhy]
    exact hlisting.phyname i hi
  have hle := Finset.card_le_card hsub
  unfold Admits
  rw [← hnamed]
  constructor
  · intro hpos
    -- all phys have an interface, so there are as many of one as of the other
    have hcovered : withPhy sc' ⊆ named sc' := by
      intro i hi
      rw [mem_withPhy] at hi
      rw [mem_named]
      exact hlisting.covered hpos i hi
    have := Finset.card_le_card hcovered
    omega
  · intro hadmits
    omega

theorem Listing.ifname_ne_nil (hsc : Listing sc₀ sc) {i : Slot} (hi : i.val < sc.radioAmount) :
    sc.ifname i ≠ [] := by
  refine hsc.covered (by omega) i fun hphy => ?_
  -- phy names are given out in order, so there would be too few of them
  have hsub : withPhy sc ⊆ Finset.Iio i := by
    intro j hj
    rw [mem_withPhy] at hj
    rw [Finset.mem_Iio]
    rcases lt_trichotomy j i with hlt | heq | hgt
    · exact hlt
    · exact absurd hphy (heq ▸ hj)
    · exact absurd hphy (hsc.inOrder i j hgt hj)
  have hcard := Finset.card_le_card hsub
  rw [Fin.card_Iio] at hcard
  have hcounted := hsc.counted
  omega

theorem Listing.radioAmount_le (hsc : Listing sc₀ sc) : sc.radioAmount ≤ wifiRadioMax := by
  have hcounted := hsc.counted
  have hle := card_le_radioMax (withPhy sc)
  omega

end Invariants

end RadioHal.Wifi
