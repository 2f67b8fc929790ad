import RadioHal.Wifi.Softc

/-!
# The netlink requests of the WiFi HAL

Six operations send a request to nl80211 and wait for the answer.  They share three sets of
callbacks: dumps of the interfaces fill the tables of the softc, dumps of the stations store
signal and rates, and the set operations look at the ending only.

## Main definitions

* `wifiHalIfnameRespHdlr`, `wifiHalConnectionInfoHdlr` — the data callbacks; `none` stands for a
  crash.
* `ifCb`, `linkInfoCb`, `setCb` — the three sets of `wifi_hal_register_nl_cb`.
* `nlRecvmsgs` — the waiting loop of an operation.
* `wifiHalGetInterface`, `wifiHalGetStainfo`, `wifiHalSetDistance`, `wifiHalSetTxpower`,
  `wifiHalSetCountry`, `wifiHalSetMeshFwding` — the six operations.

## Main results

* `exists_of_wifiHalConnectionInfoHdlr` — a dump of the stations leaves the tables alone.
* `nlRecvmsgs_eq` — what an operation makes of an answer, without the loop.
-/

namespace RadioHal

open CLib Dialogue

/-! ### Data callbacks -/

/-- `strncmp(ifname[x], name, strlen(name)) == 0` for some slot `x`. -/
def WifiSoftc.knows (sc : WifiSoftc) (name : Text) : Prop := ∃ x, strStarts (sc.ifname x) name

instance (sc : WifiSoftc) (name : Text) : Decidable (sc.knows name) :=
  inferInstanceAs (Decidable (∃ x, strStarts (sc.ifname x) name = true))

/-- `ifname[i]` and `ifindex[i]` are stored.  The name is cut to its field. -/
def WifiSoftc.storeInterface (sc : WifiSoftc) (i : Slot) (name : Text) (index : BitVec 32) :
    WifiSoftc :=
  { sc with
    ifname := Function.update sc.ifname i (snprintf radioIfnameSize name)
    ifindex := Function.update sc.ifindex i index.toInt }

/-- `phyname[i]` is stored, and `radio_amount` goes up. -/
def WifiSoftc.storePhy (sc : WifiSoftc) (i : Slot) (wiphy : BitVec 32) : WifiSoftc :=
  { sc with
    phyname := Function.update sc.phyname i (snprintf radioPhynameSize (decimal wiphy.toInt))
    radioAmount := sc.radioAmount + 1 }

/-- The interface of a message goes into a free slot. -/
def nameSlot (msg : NlAttrs) (name : Text) (i : Slot) (sc : WifiSoftc) : Option WifiSoftc :=
  if sc.ifname i = [] then msg.ifindex.map (sc.storeInterface i name) else some sc

/-- The phy of a message goes into a slot without one. -/
def phySlot (msg : NlAttrs) (i : Slot) (sc : WifiSoftc) : WifiSoftc :=
  if sc.phyname i = [] then msg.wiphy.elim sc (sc.storePhy i) else sc

/-- One round of the outer loop of `wifi_hal_ifname_resp_hdlr`. -/
def ifnameRound (msg : NlAttrs) (sc : WifiSoftc) (i : Slot) : Option WifiSoftc := do
  let name ← msg.ifname.map cstr
  if sc.knows name then some sc
  else
    let sc ← nameSlot msg name i sc
    some (phySlot msg i sc)

/-- `wifi_hal_ifname_resp_hdlr`. -/
def wifiHalIfnameRespHdlr (sc : WifiSoftc) (msg : NlAttrs) : Option WifiSoftc :=
  (List.finRange wifiRadioMax).foldlM (ifnameRound msg) sc

/-- A table of a number for each radio, with the entries of the interface of a message set to
`v`. -/
def storeFor (sc : WifiSoftc) (table : Slot → ℤ) (index : BitVec 32) (v : ℤ) : Slot → ℤ :=
  fun i => if i.val < sc.radioAmount ∧ sc.ifindex i = index.toInt then v else table i

/-- `nla_get_u32` of the interface index, which is called if there are radios at all; the loops
over the radios leave the tables when there are too many. -/
def stationIndex (sc : WifiSoftc) (msg : NlAttrs) : Option (BitVec 32) :=
  if sc.radioAmount = 0 then some 0
  else if sc.radioAmount ≤ wifiRadioMax then msg.ifindex else none

/-- The signal of a station is stored, for the radio that the message belongs to. -/
def storeSignal (sc : WifiSoftc) (msg : NlAttrs) (signal : Option (BitVec 8)) :
    Option (Slot → ℤ) :=
  match signal with
  | some s => (stationIndex sc msg).map fun index => storeFor sc sc.signal index s.toNat
  | none => some sc.signal

/-- The bit rate of a nested attribute, in units of 1 Mbit/s. -/
def storeRate (sc : WifiSoftc) (msg : NlAttrs) (table : Slot → ℤ)
    (rate : Option (Nested (Option (BitVec 16)))) : Option (Slot → ℤ) :=
  match rate with
  | some (.parsed bitrate) => (stationIndex sc msg).map fun index =>
    bitrate.elim table fun r => storeFor sc table index (r.toNat / 10 : ℕ)
  | _ => some table

/-- `wifi_hal_connection_info_hdlr`. -/
def wifiHalConnectionInfoHdlr (sc : WifiSoftc) (msg : NlAttrs) : Option WifiSoftc :=
  match msg.staInfo with
  | some (.parsed sinfo) => do
    let signal ← storeSignal sc msg sinfo.signal
    let txrate ← storeRate sc msg sc.txrate sinfo.txBitrate
    let rxrate ← storeRate sc msg sc.rxrate sinfo.rxBitrate
    some { sc with
      signal := signal
      txrate := txrate
      rxrate := rxrate }
  | _ => some sc

/-- The softc with other tables of interfaces. -/
def WifiSoftc.withTables (sc : WifiSoftc) (ifindex : Slot → ℤ) (ifname phyname : Slot → Text)
    (radioAmount : ℕ) : WifiSoftc :=
  { sc with
    ifindex := ifindex
    ifname := ifname
    phyname := phyname
    radioAmount := radioAmount }

/-- A dump of the interfaces stores in the tables, and nowhere else. -/
theorem exists_of_wifiHalIfnameRespHdlr {sc sc' : WifiSoftc} {msg : NlAttrs}
    (h : wifiHalIfnameRespHdlr sc msg = some sc') :
    ∃ ifindex ifname phyname radioAmount,
      sc' = sc.withTables ifindex ifname phyname radioAmount := by
  refine Netlink.foldlM_keeps (fun s => ∃ ifindex ifname phyname radioAmount,
    s = sc.withTables ifindex ifname phyname radioAmount) (fun i _ s s' hs hstep => ?_)
    ⟨sc.ifindex, sc.ifname, sc.phyname, sc.radioAmount, rfl⟩ h
  obtain ⟨ifindex, ifname, phyname, radioAmount, rfl⟩ := hs
  unfold ifnameRound at hstep
  simp only [Option.bind_eq_bind, Option.bind_eq_some_iff] at hstep
  obtain ⟨name, -, hstep⟩ := hstep
  split at hstep
  · exact ⟨_, _, _, _, (Option.some.inj hstep).symm⟩
  obtain ⟨named, hname, hphy⟩ := Option.bind_eq_some_iff.mp hstep
  obtain rfl := Option.some.inj hphy
  -- the name goes in first, then the phy
  obtain ⟨ifindex', ifname', hnamed⟩ : ∃ ifindex' ifname',
      named = sc.withTables ifindex' ifname' phyname radioAmount := by
    unfold nameSlot at hname
    split at hname
    · obtain ⟨index, -, rfl⟩ := Option.map_eq_some_iff.mp hname
      exact ⟨_, _, rfl⟩
    · exact ⟨_, _, (Option.some.inj hname).symm⟩
  unfold phySlot
  rw [hnamed]
  split
  · cases msg.wiphy with
    | none => exact ⟨_, _, _, _, rfl⟩
    | some wiphy => exact ⟨_, _, _, _, rfl⟩
  · exact ⟨_, _, _, _, rfl⟩

/-- A dump of the stations stores signal and rates, and nothing else. -/
theorem exists_of_wifiHalConnectionInfoHdlr {sc sc' : WifiSoftc} {msg : NlAttrs}
    (h : wifiHalConnectionInfoHdlr sc msg = some sc') :
    ∃ signal tx rx, sc' = { sc with
      signal := signal
      txrate := tx
      rxrate := rx } := by
  unfold wifiHalConnectionInfoHdlr at h
  split at h
  · simp only [Option.bind_eq_bind, Option.bind_eq_some_iff] at h
    obtain ⟨signal, -, tx, -, rx, -, h⟩ := h
    exact ⟨signal, tx, rx, (Option.some.inj h).symm⟩
  · exact ⟨sc.signal, sc.txrate, sc.rxrate, (Option.some.inj h).symm⟩

/-! ### Callback sets -/

/-- `if_cb`. -/
def ifCb : Netlink.Callbacks WifiSoftc NlAttrs :=
  ⟨some wifiHalIfnameRespHdlr, some .skip, none⟩

/-- `link_info_cb`. -/
def linkInfoCb : Netlink.Callbacks WifiSoftc NlAttrs :=
  ⟨some wifiHalConnectionInfoHdlr, some .skip, none⟩

/-- `set_cb`; the default callback for data prints it. -/
def setCb : Netlink.Callbacks Unit NlAttrs := ⟨none, some .skip, some .stop⟩

/-! ### The operations -/

variable (nl : Netlink.Libnl NlAttrs)

/-- The waiting loop of an operation, with its flag set to one, on the answer to its request. -/
def nlRecvmsgs {σ : Type} (cb : Netlink.Callbacks σ NlAttrs) (a : KernelAnswer) (s : σ) :
    WifiM σ :=
  match Netlink.wait nl cb a.datagrams ⟨1, s⟩ with
  | .exits s' _ => ret s'
  | .blocked => ask .nlFurtherMessage Empty.elim
  | .crashed => ask .nullDeref Empty.elim

/-- `wifi_hal_get_interface`. -/
def wifiHalGetInterface (sc : WifiSoftc) : WifiM (WifiSoftc × ℤ) := do
  let allocated ← query WifiQ.nlmsgAlloc
  if allocated = false then return (sc, -12)
  let answer ← query (WifiQ.nlRequest .getInterface)
  match (answer : Option KernelAnswer) with
  | none => return (sc, -1)
  | some a =>
    let sc' ← nlRecvmsgs nl ifCb a sc
    return (sc', if sc'.ifindex 0 = 0 then -22 else 0)

/-- `wifi_hal_get_stainfo`. -/
def wifiHalGetStainfo (sc : WifiSoftc) (index : Slot) : WifiM (WifiSoftc × ℤ) := do
  let allocated ← query WifiQ.nlmsgAlloc
  if allocated = false then return (sc, -12)
  let answer ← query (WifiQ.nlRequest (.getStation (sc.ifindex index)))
  match (answer : Option KernelAnswer) with
  | none => return (sc, -1)
  | some a =>
    let sc' ← nlRecvmsgs nl linkInfoCb a sc
    return (sc', 0)

/-- The common end of the set operations: send the request, wait for the answer. -/
def nlSet (request : NlRequest) : WifiM ℤ := do
  let answer ← query (WifiQ.nlRequest request)
  match (answer : Option KernelAnswer) with
  | none => return -1
  | some a =>
    let _ ← nlRecvmsgs nl setCb a ()
    return 0

/-- The coverage class of a distance, in unsigned arithmetic. -/
def coverageClass (distance : ℤ) : ℕ := ((toInt (distance + 449)).tdiv 450 % 2 ^ 32).toNat

/-- `wifi_hal_set_distance`. -/
def wifiHalSetDistance (sc : WifiSoftc) (index : Slot) (config : WifiConfig) : WifiM ℤ := do
  let allocated ← query WifiQ.nlmsgAlloc
  if allocated = false then return -12
  let value := strtol (sc.phyname index)
  if value.erange = true then return -1
  if value.converted = false then return -1
  if 255 < coverageClass config.distance then return -1
  nlSet nl (.setCoverageClass (toInt value.value) (coverageClass config.distance))

/-- `wifi_hal_set_txpower`, which turns dBm into mdBm. -/
def wifiHalSetTxpower (sc : WifiSoftc) (index : Slot) (config : WifiConfig) : WifiM ℤ := do
  let allocated ← query WifiQ.nlmsgAlloc
  if allocated = false then return -12
  let ifindex ← query (WifiQ.ifNametoindex (sc.ifname index))
  nlSet nl (.setTxPowerLimited ifindex (toInt (config.txPower * 100)))

/-- `wifi_hal_set_country`. -/
def wifiHalSetCountry (config : WifiConfig) : WifiM ℤ := do
  let allocated ← query WifiQ.nlmsgAlloc
  if allocated = false then return -12
  nlSet nl (.reqSetReg config.countryText)

/-- `wifi_hal_set_mesh_fwding`, with the value of `config->mesh_fwding`, of which one byte is sent.
-/
def wifiHalSetMeshFwding (sc : WifiSoftc) (index : Slot) (meshFwding : ℤ) : WifiM ℤ := do
  let allocated ← query WifiQ.nlmsgAlloc
  if allocated = false then return -1
  let ifindex ← query (WifiQ.ifNametoindex (sc.ifname index))
  nlSet nl (.setMeshForwarding ifindex (meshFwding % 2 ^ 8))

/-! ### Without the loop -/

/-- **The loop of an operation ends with the data callbacks run on all data, unless one of them
crashes or the ending has no callback.** -/
theorem nlRecvmsgs_eq {σ : Type} (cb : Netlink.Callbacks σ NlAttrs) (a : KernelAnswer) (s : σ) :
    nlRecvmsgs nl cb a s =
      match a.data.foldlM cb.handle s with
      | none => ask .nullDeref Empty.elim
      | some s' =>
        if cb.clears a.ending then ret s'
        else ask .nlFurtherMessage Empty.elim := by
  unfold nlRecvmsgs
  rw [Netlink.wait_answer]
  cases a.data.foldlM cb.handle s with
  | none => rfl
  | some s' => cases cb.clears a.ending <;> rfl

/-- So it is come back from exactly behind data on which the callbacks go well and an ending with a
callback. -/
theorem after_nlRecvmsgs_iff {σ : Type} {cb : Netlink.Callbacks σ NlAttrs} {a : KernelAnswer}
    {s s' : σ} {t : List (Exchange WifiQ WifiA)} : After (nlRecvmsgs nl cb a s) t (ret s') ↔
      t = [] ∧ a.data.foldlM cb.handle s = some s' ∧ cb.clears a.ending = true := by
  rw [nlRecvmsgs_eq]
  cases a.data.foldlM cb.handle s with
  | none =>
    constructor
    · intro h
      obtain ⟨e, -⟩ := after_ask_iff.mp h
      exact e.elim
    · intro h
      exact absurd h.2.1 (by simp)
  | some s'' =>
    dsimp only
    by_cases hclears : cb.clears a.ending = true
    · rw [if_pos hclears, after_ret_iff, Option.some.injEq]
      constructor
      · intro h
        exact ⟨h.1, h.2.symm, hclears⟩
      · intro h
        exact ⟨h.1, h.2.1.symm⟩
    · rw [if_neg hclears]
      constructor
      · intro h
        obtain ⟨e, -⟩ := after_ask_iff.mp h
        exact e.elim
      · intro h
        exact absurd h.2.2 hclears

end RadioHal
