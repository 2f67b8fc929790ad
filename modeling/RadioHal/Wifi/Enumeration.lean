import RadioHal.Wifi.Tables

/-!
# The enumeration of the interfaces

A name counts as known when the name of some slot begins with it, so an interface whose name is a
beginning of an earlier one is left out; the number of a wiphy is cut to its field; and the name of
a message is read before it is looked whether there is one.

## Main definitions

* `Entry`, `entries` — what some messages tell of their interfaces.
* `WifiSoftc.withEntries` — the tables with some entries, one for each slot.
* `Enumerates` — what enumerating is for.
* `Enumerable` — the messages that can be enumerated.

## Main results

* `foldlM_withEntries` — the entries of such messages go into the slots in order.
* `enumerates_iff` — **the interfaces of some messages are enumerated exactly if they are such.**
-/

namespace RadioHal.Wifi

open CLib

/-! ### What the messages tell -/

/-- What a message tells of an interface. -/
structure Entry where
  name : Text
  index : BitVec 32
  wiphy : BitVec 32
  deriving DecidableEq

/-- The entry of a message; a message without a name has none. -/
def entryOf (msg : NlAttrs) : Option Entry := do
  let raw ← msg.ifname
  let index ← msg.ifindex
  let wiphy ← msg.wiphy
  return ⟨cstr raw, index, wiphy⟩

/-- The entries of some messages, in order. -/
def entries (msgs : List NlAttrs) : List Entry := msgs.filterMap entryOf

/-- The entries that there are slots for. -/
def recordable (msgs : List NlAttrs) : List Entry := (entries msgs).take wifiRadioMax

/-- What nl80211 promises of a message: a name is not empty and fits its field, and there is the
number of a wiphy. -/
structure Announces (msg : NlAttrs) : Prop where
  nonempty : ∀ raw, msg.ifname = some raw → cstr raw ≠ []
  short : ∀ raw, msg.ifname = some raw → (cstr raw).length < radioIfnameSize
  wiphy : msg.wiphy.isSome = true

/-- A message tells an entry: it has the name, the index and the phy of the interface. -/
structure Tells (msg : NlAttrs) (e : Entry) : Prop where
  ifname : ∃ raw, msg.ifname = some raw ∧ cstr raw = e.name
  ifindex : msg.ifindex = some e.index
  wiphy : msg.wiphy = some e.wiphy
  nonempty : e.name ≠ []
  short : e.name.length < radioIfnameSize

theorem Announces.exists_tells {msg : NlAttrs} (hmsg : Announces msg)
    (hnamed : msg.ifname.isSome = true) : ∃ e, entryOf msg = some e ∧ Tells msg e := by
  obtain ⟨index, hindex⟩ := Option.isSome_iff_exists.mp (msg.indexed hnamed)
  obtain ⟨raw, hraw⟩ := Option.isSome_iff_exists.mp hnamed
  obtain ⟨wiphy, hwiphy⟩ := Option.isSome_iff_exists.mp hmsg.wiphy
  refine ⟨⟨cstr raw, index, wiphy⟩, ?_, ⟨raw, hraw, rfl⟩, hindex, hwiphy, hmsg.nonempty raw hraw,
    hmsg.short raw hraw⟩
  unfold entryOf
  rw [hraw, hindex, hwiphy]
  rfl

theorem exists_entries_cons {msg : NlAttrs} (hmsg : Announces msg)
    (hnamed : msg.ifname.isSome = true) (msgs : List NlAttrs) :
    ∃ e, Tells msg e ∧ entries (msg :: msgs) = e :: entries msgs := by
  obtain ⟨e, hentry, htells⟩ := hmsg.exists_tells hnamed
  exact ⟨e, htells, List.filterMap_cons_some hentry⟩

theorem exists_tells_of_mem {msgs : List NlAttrs} (hmsgs : ∀ msg ∈ msgs, Announces msg) {e : Entry}
    (he : e ∈ entries msgs) : ∃ msg ∈ msgs, Tells msg e := by
  obtain ⟨msg, hmem, hentry⟩ := List.mem_filterMap.mp he
  have hnamed : msg.ifname.isSome = true := by
    by_contra hnone
    rw [Option.not_isSome_iff_eq_none] at hnone
    rw [entryOf, hnone] at hentry
    exact absurd hentry (by simp)
  obtain ⟨e', hentry', htells⟩ := (hmsgs msg hmem).exists_tells hnamed
  obtain rfl := Option.some.inj (hentry.symm.trans hentry')
  exact ⟨msg, hmem, htells⟩

/-! ### Tables with some entries -/

def slotEntry (es : List Entry) (i : Slot) : Option Entry := es[i.val]?

/-- The tables with some entries, one for each slot; what else is in the softc stays. -/
def WifiSoftc.withEntries (sc : WifiSoftc) (es : List Entry) : WifiSoftc :=
  sc.withTables
    (fun i => (slotEntry es i).elim (sc.ifindex i) fun e => e.index.toInt)
    (fun i => (slotEntry es i).elim [] Entry.name)
    (fun i => (slotEntry es i).elim [] fun e => decimal e.wiphy.toNat)
    es.length

/-- There is nothing in the tables, as ahead of the first dump. -/
structure EmptyTable (sc : WifiSoftc) : Prop where
  ifname : ∀ i, sc.ifname i = []
  phyname : ∀ i, sc.phyname i = []
  amount : sc.radioAmount = 0

/-- **What enumerating is for**: the first interfaces are recorded in order, one for each slot; a
message without a name changes nothing; and the same messages once more change nothing. -/
structure Enumerates (sc : WifiSoftc) (msgs : List NlAttrs) : Prop where
  recorded : msgs.foldlM wifiHalIfnameRespHdlr sc =
    some (WifiSoftc.withEntries sc (recordable msgs))
  nameless : ∀ before msg, before ++ [msg] <+: msgs → msg.ifname = none →
    (before ++ [msg]).foldlM wifiHalIfnameRespHdlr sc = before.foldlM wifiHalIfnameRespHdlr sc
  replay : (msgs ++ msgs).foldlM wifiHalIfnameRespHdlr sc = msgs.foldlM wifiHalIfnameRespHdlr sc

/-- **Messages that can be enumerated**: all have a name; of the names that are to be recorded none
is a beginning of an earlier one, and the numbers of their wiphys fit the field. -/
structure Enumerable (msgs : List NlAttrs) : Prop where
  named : ∀ msg ∈ msgs, msg.ifname.isSome = true
  apart : (recordable msgs).Pairwise fun a b => ¬ b.name <+: a.name
  wiphys : ∀ e ∈ recordable msgs, (decimal e.wiphy.toNat).length < radioPhynameSize

/-- The number of a wiphy that fits the field is printed as it is. -/
theorem snprintf_decimal {w : BitVec 32} (h : (decimal w.toNat).length < radioPhynameSize) :
    snprintf radioPhynameSize (decimal w.toInt) = decimal w.toNat := by
  have hsmall : w.toNat < 10 ^ 7 := by
    unfold decimal at h
    rw [if_neg (by omega)] at h
    exact (Nat.length_toDigits_le_iff (by omega) (by omega)).mp (Nat.lt_succ_iff.mp h)
  have hint : w.toInt = w.toNat := BitVec.toInt_eq_toNat_of_lt (by omega)
  rw [hint]
  exact List.take_of_length_le (Nat.le_sub_one_of_lt h)

section Tables

variable {sc : WifiSoftc} {es : List Entry} {e : Entry}

theorem slotEntry_of_lt {i : Slot} (hi : i.val < es.length) : slotEntry es i = some es[i.val] :=
  List.getElem?_eq_getElem hi

theorem slotEntry_of_le {i : Slot} (hi : es.length ≤ i.val) : slotEntry es i = none :=
  List.getElem?_eq_none hi

/-- A table gets the entry of its next slot. -/
theorem update_slotEntry {α : Type} (d : Slot → α) (f : Entry → α) {i : Slot}
    (hi : i.val = es.length) : Function.update (fun j => (slotEntry es j).elim (d j) f) i (f e) =
      fun j => (slotEntry (es ++ [e]) j).elim (d j) f := by
  funext j
  unfold slotEntry
  by_cases hj : j = i
  · rw [hj, Function.update_self, hi, List.getElem?_concat_length]
    rfl
  · have hne : j.val ≠ es.length := fun h => hj (Fin.ext (h.trans hi.symm))
    rw [Function.update_of_ne hj]
    rcases Nat.lt_or_ge j.val es.length with hlt | hge
    · rw [List.getElem?_append_left hlt]
    · have hnone : es[j.val]? = none := List.getElem?_eq_none hge
      have hnone' : (es ++ [e])[j.val]? = none := by
        rw [List.getElem?_eq_none_iff, List.length_append, List.length_singleton]
        omega
      rw [hnone, hnone']

theorem withEntries_nil (hempty : EmptyTable sc) : WifiSoftc.withEntries sc [] = sc := by
  obtain ⟨hifname, hphyname, hamount⟩ := hempty
  have hname : sc.ifname = fun _ => [] := funext hifname
  have hphy : sc.phyname = fun _ => [] := funext hphyname
  unfold WifiSoftc.withEntries WifiSoftc.withTables
  cases sc
  simp_all [slotEntry]

/-- The slots with a name are those of the entries. -/
theorem ifname_withEntries_eq_nil_iff (hnames : ∀ e ∈ es, e.name ≠ []) (i : Slot) :
    (WifiSoftc.withEntries sc es).ifname i = [] ↔ es.length ≤ i.val := by
  show (slotEntry es i).elim [] Entry.name = [] ↔ _
  rcases Nat.lt_or_ge i.val es.length with hlt | hge
  · rw [slotEntry_of_lt hlt]
    exact iff_of_false (hnames _ (List.getElem_mem hlt)) (by omega)
  · rw [slotEntry_of_le hge]
    exact iff_of_true rfl hge

theorem phyname_withEntries (hnames : ∀ e ∈ es, e.name ≠ []) (i : Slot)
    (hi : (WifiSoftc.withEntries sc es).ifname i ≠ []) :
    (WifiSoftc.withEntries sc es).phyname i ≠ [] := by
  have hlt : i.val < es.length := by
    rw [ne_eq, ifname_withEntries_eq_nil_iff hnames] at hi
    omega
  show (slotEntry es i).elim [] _ ≠ []
  rw [slotEntry_of_lt hlt]
  exact decimal_ne_nil _

/-- The names that are known are the beginnings of those of the entries. -/
theorem knows_withEntries (hes : es.length ≤ wifiRadioMax) {name : Text} (hname : name ≠ []) :
    (WifiSoftc.withEntries sc es).knows name ↔ ∃ e ∈ es, name <+: e.name := by
  constructor
  · intro h
    obtain ⟨i, hi⟩ := h
    have hprefix : name <+: (slotEntry es i).elim [] Entry.name := strStarts_iff.mp hi
    rcases Nat.lt_or_ge i.val es.length with hlt | hge
    · rw [slotEntry_of_lt hlt] at hprefix
      exact ⟨_, List.getElem_mem hlt, hprefix⟩
    · rw [slotEntry_of_le hge] at hprefix
      exact absurd (List.prefix_nil.mp hprefix) hname
  · intro h
    obtain ⟨e, he, hprefix⟩ := h
    obtain ⟨n, hn, rfl⟩ := List.mem_iff_getElem.mp he
    refine ⟨⟨n, by omega⟩, strStarts_iff.mpr ?_⟩
    show name <+: (slotEntry es ⟨n, _⟩).elim [] Entry.name
    rw [slotEntry_of_lt hn]
    exact hprefix

/-- The first free slot is the one behind the entries. -/
theorem freeSlot_withEntries (hnames : ∀ e ∈ es, e.name ≠ []) {i : Slot}
    (hi : i.val = es.length) : freeSlot (WifiSoftc.withEntries sc es) = some i := by
  have hempty : (WifiSoftc.withEntries sc es).ifname i = [] :=
    (ifname_withEntries_eq_nil_iff hnames i).mpr hi.ge
  cases hfree : freeSlot (WifiSoftc.withEntries sc es) with
  | none => exact absurd hempty (freeSlot_eq_none hfree i)
  | some j =>
    obtain ⟨hj, hbefore⟩ := freeSlot_eq_some hfree
    have hge : i.val ≤ j.val := by
      rw [hi]
      exact (ifname_withEntries_eq_nil_iff hnames j).mp hj
    have hle : ¬ i.val < j.val := fun hlt => hbefore i hlt hempty
    exact congrArg some (Fin.ext (by omega))

theorem freeSlot_withEntries_full (hnames : ∀ e ∈ es, e.name ≠ [])
    (hfull : es.length = wifiRadioMax) : freeSlot (WifiSoftc.withEntries sc es) = none := by
  cases hfree : freeSlot (WifiSoftc.withEntries sc es) with
  | none => rfl
  | some i =>
    have hge := (ifname_withEntries_eq_nil_iff hnames i).mp (freeSlot_eq_some hfree).1
    have hlt := i.isLt
    omega

/-- An interface goes into the slot behind the entries. -/
theorem record_withEntries {msg : NlAttrs} {i : Slot} (hi : i.val = es.length)
    (hwiphy : msg.wiphy = some e.wiphy) (hshort : e.name.length < radioIfnameSize)
    (hfits : (decimal e.wiphy.toNat).length < radioPhynameSize) :
    record msg e.name e.index i (WifiSoftc.withEntries sc es) =
      WifiSoftc.withEntries sc (es ++ [e]) := by
  have hname : snprintf radioIfnameSize e.name = e.name := List.take_of_length_le (by omega)
  have hphy : ((WifiSoftc.withEntries sc es).storeInterface i e.name e.index).phyname i = [] := by
    show (slotEntry es i).elim [] _ = []
    rw [slotEntry_of_le hi.ge]
    rfl
  unfold record phySlot
  rw [if_pos hphy, hwiphy]
  unfold WifiSoftc.withEntries WifiSoftc.withTables
  rw [← update_slotEntry (fun i => sc.ifindex i) (fun e => e.index.toInt) hi,
    ← update_slotEntry (fun _ => []) Entry.name hi,
    ← update_slotEntry (fun _ => []) (fun e => decimal e.wiphy.toNat) hi, List.length_append]
  simp only [Option.elim_some, WifiSoftc.storePhy, WifiSoftc.storeInterface, hname,
    snprintf_decimal hfits, List.length_singleton]

end Tables

/-! ### The run -/

section Run

variable {sc : WifiSoftc} {es : List Entry} {msg : NlAttrs} {e : Entry}

/-- What the data callback does with tables of entries. -/
theorem wifiHalIfnameRespHdlr_withEntries (hnames : ∀ e ∈ es, e.name ≠ []) (hmsg : Tells msg e) :
    wifiHalIfnameRespHdlr (WifiSoftc.withEntries sc es) msg =
      some (if (WifiSoftc.withEntries sc es).knows e.name then WifiSoftc.withEntries sc es
        else (freeSlot (WifiSoftc.withEntries sc es)).elim (WifiSoftc.withEntries sc es) fun i =>
          record msg e.name e.index i (WifiSoftc.withEntries sc es)) := by
  obtain ⟨raw, hraw, hname⟩ := hmsg.ifname
  have hshort : (cstr raw).length < radioIfnameSize := by
    rw [hname]
    exact hmsg.short
  rw [wifiHalIfnameRespHdlr_eq (phyname_withEntries hnames) hraw hmsg.ifindex hshort, hname]

/-- An interface that is known, or has no slot left, is passed over. -/
theorem wifiHalIfnameRespHdlr_passed (hnames : ∀ e ∈ es, e.name ≠ [])
    (hes : es.length ≤ wifiRadioMax) (hmsg : Tells msg e)
    (hpassed : es.length = wifiRadioMax ∨ e ∈ es) :
    wifiHalIfnameRespHdlr (WifiSoftc.withEntries sc es) msg =
      some (WifiSoftc.withEntries sc es) := by
  rw [wifiHalIfnameRespHdlr_withEntries hnames hmsg]
  rcases hpassed with hfull | hmem
  · rw [freeSlot_withEntries_full hnames hfull]
    split <;> rfl
  · have hknown : (WifiSoftc.withEntries sc es).knows e.name :=
      (knows_withEntries hes hmsg.nonempty).mpr ⟨e, hmem, List.prefix_rfl⟩
    rw [if_pos hknown]

/-- Any other is recorded behind the entries there are. -/
theorem wifiHalIfnameRespHdlr_recorded (hnames : ∀ e ∈ es, e.name ≠ [])
    (hes : es.length < wifiRadioMax) (hmsg : Tells msg e) (hnew : ∀ e' ∈ es, ¬ e.name <+: e'.name)
    (hfits : (decimal e.wiphy.toNat).length < radioPhynameSize) :
    wifiHalIfnameRespHdlr (WifiSoftc.withEntries sc es) msg =
      some (WifiSoftc.withEntries sc (es ++ [e])) := by
  have hunknown : ¬ (WifiSoftc.withEntries sc es).knows e.name := by
    rw [knows_withEntries hes.le hmsg.nonempty]
    intro h
    obtain ⟨e', he', hprefix⟩ := h
    exact hnew e' he' hprefix
  have hfree : freeSlot (WifiSoftc.withEntries sc es) = some ⟨es.length, hes⟩ :=
    freeSlot_withEntries hnames rfl
  rw [wifiHalIfnameRespHdlr_withEntries hnames hmsg, if_neg hunknown, hfree, Option.elim_some,
    record_withEntries rfl hmsg.wiphy hmsg.short hfits]

/-- Where there is room for one more, the next entry is among those that are taken. -/
theorem take_append_cons {n : ℕ} (hroom : es.length < n) (e : Entry) (rest : List Entry) :
    (es ++ e :: rest).take n = es ++ e :: rest.take (n - es.length - 1) := by
  obtain ⟨k, hk⟩ : ∃ k, n - es.length = k + 1 := ⟨n - es.length - 1, by omega⟩
  rw [List.take_append, List.take_of_length_le hroom.le, hk, List.take_succ_cons,
    Nat.add_sub_cancel]

/-- **The entries of messages that can be enumerated go into the slots in order**, behind those
that are there. -/
theorem foldlM_withEntries {msgs : List NlAttrs} (hmsgs : ∀ msg ∈ msgs, Announces msg)
    (hnamed : ∀ msg ∈ msgs, msg.ifname.isSome = true) (hnames : ∀ e ∈ es, e.name ≠ [])
    (hes : es.length ≤ wifiRadioMax)
    (hapart : ((es ++ entries msgs).take wifiRadioMax).Pairwise fun a b => ¬ b.name <+: a.name)
    (hwiphys : ∀ e ∈ (es ++ entries msgs).take wifiRadioMax,
      (decimal e.wiphy.toNat).length < radioPhynameSize) :
    msgs.foldlM wifiHalIfnameRespHdlr (WifiSoftc.withEntries sc es) =
      some (WifiSoftc.withEntries sc ((es ++ entries msgs).take wifiRadioMax)) := by
  induction msgs generalizing es with
  | nil =>
    have htake : (es ++ entries []).take wifiRadioMax = es := by
      rw [show entries [] = [] from rfl, List.append_nil]
      exact List.take_of_length_le hes
    rw [htake]
    rfl
  | cons msg msgs ih =>
    obtain ⟨hmsg, hrest⟩ := List.forall_mem_cons.mp hmsgs
    obtain ⟨hname, hnamed'⟩ := List.forall_mem_cons.mp hnamed
    obtain ⟨e, htells, hentries⟩ := exists_entries_cons hmsg hname msgs
    rw [hentries] at hapart hwiphys ⊢
    rw [List.foldlM_cons]
    rcases Nat.lt_or_ge es.length wifiRadioMax with hroom | hfull
    · have hsplit : es ++ e :: entries msgs = (es ++ [e]) ++ entries msgs := by
        rw [List.append_assoc, List.singleton_append]
      have htake := take_append_cons hroom e (entries msgs)
      have hnew : ∀ e' ∈ es, ¬ e.name <+: e'.name := by
        intro e' he'
        rw [htake] at hapart
        exact (List.pairwise_append.mp hapart).2.2 e' he' e List.mem_cons_self
      have hfits : (decimal e.wiphy.toNat).length < radioPhynameSize := by
        refine hwiphys e ?_
        rw [htake]
        exact List.mem_append_right es List.mem_cons_self
      have hnames' : ∀ e' ∈ es ++ [e], e'.name ≠ [] := by
        intro e' he'
        rcases List.mem_append.mp he' with he' | he'
        · exact hnames e' he'
        · obtain rfl := List.mem_singleton.mp he'
          exact htells.nonempty
      have hlen : (es ++ [e]).length ≤ wifiRadioMax := by
        rw [List.length_append, List.length_singleton]
        omega
      rw [wifiHalIfnameRespHdlr_recorded hnames hroom htells hnew hfits]
      rw [hsplit] at hapart hwiphys ⊢
      exact ih hrest hnamed' hnames' hlen hapart hwiphys
    · -- no slot is left
      have hlen : es.length = wifiRadioMax := by omega
      have htake : ∀ es' : List Entry, (es ++ es').take wifiRadioMax = es := by
        intro es'
        rw [← hlen, List.take_left]
      rw [wifiHalIfnameRespHdlr_passed hnames hes htells (Or.inl hlen)]
      rw [htake] at hapart hwiphys ⊢
      have hnext := ih hrest hnamed' hnames hes
      rw [htake] at hnext
      exact hnext hapart hwiphys

/-- Messages whose entries are there, or for which there is no slot, change nothing. -/
theorem foldlM_withEntries_passed {msgs : List NlAttrs} (hmsgs : ∀ msg ∈ msgs, Announces msg)
    (hnamed : ∀ msg ∈ msgs, msg.ifname.isSome = true) (hnames : ∀ e ∈ es, e.name ≠ [])
    (hes : es.length ≤ wifiRadioMax)
    (hpassed : es.length = wifiRadioMax ∨ ∀ e ∈ entries msgs, e ∈ es) :
    msgs.foldlM wifiHalIfnameRespHdlr (WifiSoftc.withEntries sc es) =
      some (WifiSoftc.withEntries sc es) := by
  induction msgs with
  | nil => rfl
  | cons msg msgs ih =>
    obtain ⟨hmsg, hrest⟩ := List.forall_mem_cons.mp hmsgs
    obtain ⟨hname, hnamed'⟩ := List.forall_mem_cons.mp hnamed
    obtain ⟨e, htells, hentries⟩ := exists_entries_cons hmsg hname msgs
    rw [hentries, List.forall_mem_cons] at hpassed
    rw [List.foldlM_cons, wifiHalIfnameRespHdlr_passed hnames hes htells
      (hpassed.imp_right And.left)]
    exact ih hrest hnamed' (hpassed.imp_right And.right)

end Run

/-! ### What any run leaves in the tables -/

/-- The names in the tables are in order, none is a beginning of an earlier one, and the phy names
fit their fields. -/
structure Apart (sc : WifiSoftc) : Prop where
  phyname : ∀ i, sc.ifname i ≠ [] → sc.phyname i ≠ []
  inOrder : ∀ i j, i < j → sc.ifname j ≠ [] → sc.ifname i ≠ []
  apart : ∀ i j, i < j → sc.ifname j ≠ [] → ¬ sc.ifname j <+: sc.ifname i
  fits : ∀ i, (sc.phyname i).length < radioPhynameSize

section Apart

variable {sc sc' : WifiSoftc} {msg : NlAttrs} {e : Entry} {i : Slot}

theorem EmptyTable.apart (hempty : EmptyTable sc) : Apart sc where
  phyname i hi := absurd (hempty.ifname i) hi
  inOrder _ j _ hj := absurd (hempty.ifname j) hj
  apart _ j _ hj := absurd (hempty.ifname j) hj
  fits i := by
    rw [hempty.phyname i]
    decide

theorem fits_record (name : Text) (index : BitVec 32)
    (h : ∀ j, (sc.phyname j).length < radioPhynameSize) (j : Slot) :
    ((record msg name index i sc).phyname j).length < radioPhynameSize := by
  have hstored : ∀ w : BitVec 32,
      (snprintf radioPhynameSize (decimal w.toInt)).length < radioPhynameSize := by
    intro w
    have hcut := List.length_take_le (radioPhynameSize - 1) (decimal w.toInt)
    exact Nat.lt_of_le_of_lt hcut (by decide)
  unfold record phySlot
  split
  · cases msg.wiphy with
    | none => exact h j
    | some w =>
      show (Function.update sc.phyname i _ j).length < _
      by_cases hj : j = i
      · rw [hj, Function.update_self]
        exact hstored w
      · rw [Function.update_of_ne hj]
        exact h j
  · exact h j

theorem Apart.record (hsc : Apart sc) (hmsg : Tells msg e) (hfree : freeSlot sc = some i)
    (hnew : ¬ sc.knows e.name) : Apart (record msg e.name e.index i sc) := by
  obtain ⟨hempty, hbefore⟩ := freeSlot_eq_some hfree
  have hname : snprintf radioIfnameSize e.name = e.name :=
    List.take_of_length_le (Nat.le_sub_one_of_lt hmsg.short)
  have hwiphy : msg.wiphy.isSome = true := by
    rw [hmsg.wiphy]
    rfl
  -- the slots behind the free one are free
  have hbehind : ∀ k, i < k → sc.ifname k = [] := by
    intro k hk
    by_contra hne
    exact hsc.inOrder i k hk hne hempty
  refine ⟨fun j hj => ?_, fun j k hjk hk => ?_, fun j k hjk hk => ?_, ?_⟩
  · rw [phyname_record_ne_nil hwiphy]
    rw [ifname_record] at hj
    by_cases hji : j = i
    · exact Or.inl hji
    · rw [Function.update_of_ne hji] at hj
      exact Or.inr (hsc.phyname j hj)
  · rw [ifname_record, hname] at hk ⊢
    by_cases hki : k = i
    · have hji : j < i := hki ▸ hjk
      rw [Function.update_of_ne hji.ne]
      exact hbefore j hji
    · rw [Function.update_of_ne hki] at hk
      by_cases hji : j = i
      · rw [hji, Function.update_self]
        exact hmsg.nonempty
      · rw [Function.update_of_ne hji]
        exact hsc.inOrder j k hjk hk
  · rw [ifname_record, hname] at hk ⊢
    by_cases hki : k = i
    · have hji : j < i := hki ▸ hjk
      rw [hki, Function.update_self, Function.update_of_ne hji.ne]
      exact fun hprefix => hnew ⟨j, strStarts_iff.mpr hprefix⟩
    · rw [Function.update_of_ne hki] at hk ⊢
      by_cases hji : j = i
      · exact absurd (hbehind k (hji ▸ hjk)) hk
      · rw [Function.update_of_ne hji]
        exact hsc.apart j k hjk hk
  · exact fits_record e.name e.index hsc.fits

/-- One message keeps the names of the radios apart, as a known name is passed over. -/
theorem Apart.step (hsc : Apart sc) (hmsg : Tells msg e)
    (h : wifiHalIfnameRespHdlr sc msg = some sc') : Apart sc' := by
  obtain ⟨raw, hraw, hname⟩ := hmsg.ifname
  have hshort : (cstr raw).length < radioIfnameSize := by
    rw [hname]
    exact hmsg.short
  rw [wifiHalIfnameRespHdlr_eq hsc.phyname hraw hmsg.ifindex hshort, hname] at h
  obtain rfl := Option.some.inj h
  split
  · exact hsc
  · next hnew =>
    cases hfree : freeSlot sc with
    | none => exact hsc
    | some i => exact hsc.record hmsg hfree hnew

/-- **Whatever messages have come, the names in the tables are apart.**  By induction on the
messages, with `Apart` as the invariant of the fold. -/
theorem Apart.foldlM {msgs : List NlAttrs} (hsc : Apart sc)
    (hmsgs : ∀ msg ∈ msgs, Announces msg) (hnamed : ∀ msg ∈ msgs, msg.ifname.isSome = true)
    (h : msgs.foldlM wifiHalIfnameRespHdlr sc = some sc') : Apart sc' := by
  refine Netlink.foldlM_keeps Apart (fun msg hmsg s s' hs hstep => ?_) hsc h
  obtain ⟨e, -, htells⟩ := (hmsgs msg hmsg).exists_tells (hnamed msg hmsg)
  exact hs.step htells hstep

/-- In tables of entries this is what is needed of them. -/
theorem Apart.entries {es : List Entry} (h : Apart (WifiSoftc.withEntries sc es))
    (hes : es.length ≤ wifiRadioMax) (hnames : ∀ e ∈ es, e.name ≠ []) :
    (es.Pairwise fun a b => ¬ b.name <+: a.name) ∧
      ∀ e ∈ es, (decimal e.wiphy.toNat).length < radioPhynameSize := by
  have hslot : ∀ n (hn : n < es.length), slotEntry es ⟨n, by omega⟩ = some es[n] :=
    fun _ hn => slotEntry_of_lt hn
  constructor
  · rw [List.pairwise_iff_getElem]
    intro m n hm hn hmn
    have hapart := h.apart ⟨m, by omega⟩ ⟨n, by omega⟩ hmn
    unfold WifiSoftc.withEntries WifiSoftc.withTables at hapart
    simp only [hslot m hm, hslot n hn, Option.elim_some] at hapart
    exact hapart (hnames _ (List.getElem_mem hn))
  · intro e he
    obtain ⟨n, hn, rfl⟩ := List.mem_iff_getElem.mp he
    have hfits := h.fits ⟨n, by omega⟩
    unfold WifiSoftc.withEntries WifiSoftc.withTables at hfits
    simp only [hslot n hn, Option.elim_some] at hfits
    exact hfits

end Apart

/-! ### The result -/

theorem length_recordable_le (msgs : List NlAttrs) : (recordable msgs).length ≤ wifiRadioMax :=
  List.length_take_le _ _

/-- Either all entries are recordable or all slots are taken. -/
theorem recordable_full_or (msgs : List NlAttrs) :
    (recordable msgs).length = wifiRadioMax ∨ ∀ e ∈ entries msgs, e ∈ recordable msgs := by
  unfold recordable
  rcases Nat.le_total (entries msgs).length wifiRadioMax with hle | hge
  · right
    intro e he
    rwa [List.take_of_length_le hle]
  · left
    rw [List.length_take, Nat.min_eq_left hge]

/-- **The interfaces of some messages are enumerated from empty tables exactly if all messages
have a name, none of the names to be recorded is a beginning of an earlier one, and the numbers
of their wiphys fit the field.** -/
theorem enumerates_iff (sc : WifiSoftc) (msgs : List NlAttrs) (hempty : EmptyTable sc)
    (hmsgs : ∀ msg ∈ msgs, Announces msg) : Enumerates sc msgs ↔ Enumerable msgs := by
  have hnames : ∀ e ∈ recordable msgs, e.name ≠ [] := by
    intro e he
    obtain ⟨msg, -, htells⟩ := exists_tells_of_mem hmsgs (List.mem_of_mem_take he)
    exact htells.nonempty
  constructor
  · intro h
    have hsome : (msgs.foldlM wifiHalIfnameRespHdlr sc).isSome = true := by
      rw [h.recorded]
      rfl
    have hnamed : ∀ msg ∈ msgs, msg.ifname.isSome = true :=
      (Netlink.foldlM_isSome_iff (fun _ => True)
        (fun s msg _ => isSome_wifiHalIfnameRespHdlr s msg) (fun _ _ _ _ _ => trivial) msgs
        trivial).mp hsome
    obtain ⟨hapart, hwiphys⟩ := (hempty.apart.foldlM hmsgs hnamed h.recorded).entries
      (length_recordable_le msgs) hnames
    exact ⟨hnamed, hapart, hwiphys⟩
  · intro h
    have hrun : msgs.foldlM wifiHalIfnameRespHdlr (WifiSoftc.withEntries sc []) =
        some (WifiSoftc.withEntries sc (recordable msgs)) :=
      foldlM_withEntries hmsgs h.named (fun e he => absurd he List.not_mem_nil) (Nat.zero_le _)
        h.apart h.wiphys
    rw [withEntries_nil hempty] at hrun
    refine ⟨hrun, fun before msg hprefix hnone => ?_, ?_⟩
    · -- there is no message without a name
      have hname := h.named msg (List.IsPrefix.subset hprefix (by simp))
      rw [hnone] at hname
      exact absurd hname (by simp)
    · rw [List.foldlM_append, hrun]
      exact foldlM_withEntries_passed hmsgs h.named hnames (length_recordable_le msgs)
        (recordable_full_or msgs)

/-- The message of an interface, as the kernel puts it into a dump. -/
def interfaceMsg (name : Text) (index wiphy : BitVec 32) : NlAttrs :=
  ⟨some name, some index, some wiphy, none, fun _ => rfl⟩

theorem announces_interfaceMsg {name : Text} {index wiphy : BitVec 32} (hname : cstr name ≠ [])
    (hshort : (cstr name).length < radioIfnameSize) :
    Announces (interfaceMsg name index wiphy) where
  nonempty raw hraw := by
    obtain rfl := Option.some.inj hraw
    exact hname
  short raw hraw := by
    obtain rfl := Option.some.inj hraw
    exact hshort
  wiphy := rfl

theorem emptyTable_wifiHalAttach : EmptyTable wifiHalAttach := ⟨fun _ => rfl, fun _ => rfl, rfl⟩

/-- Two interfaces whose names have nothing to do with each other. -/
theorem enumerates_wlan0_wlan1 : Enumerates wifiHalAttach
    [interfaceMsg "wlan0".toList 3 0, interfaceMsg "wlan1".toList 4 1] := by
  refine (enumerates_iff wifiHalAttach _ emptyTable_wifiHalAttach ?_).mpr ⟨?_, ?_, ?_⟩
  · intro msg hmsg
    rcases List.mem_pair.mp hmsg with rfl | rfl
    · exact announces_interfaceMsg (by decide) (by decide)
    · exact announces_interfaceMsg (by decide) (by decide)
  · decide
  · decide
  · decide

/-- When `wlan10` comes before `wlan1`, the second radio is not found. -/
theorem not_all_enumerated : ¬ ∀ (sc : WifiSoftc) (msgs : List NlAttrs), EmptyTable sc →
    (∀ msg ∈ msgs, Announces msg) → ((entries msgs).map Entry.name).Nodup →
    Enumerates sc msgs := by
  intro h
  have hmsgs : ∀ msg ∈ [interfaceMsg "wlan10".toList 3 0, interfaceMsg "wlan1".toList 4 1],
      Announces msg := by
    intro msg hmsg
    rcases List.mem_pair.mp hmsg with rfl | rfl
    · exact announces_interfaceMsg (by decide) (by decide)
    · exact announces_interfaceMsg (by decide) (by decide)
  have hrecorded := (h wifiHalAttach _ emptyTable_wifiHalAttach hmsgs (by decide)).recorded
  have hamount : some 1 = some 2 := congrArg (Option.map WifiSoftc.radioAmount) hrecorded
  exact absurd hamount (by decide)

end RadioHal.Wifi
