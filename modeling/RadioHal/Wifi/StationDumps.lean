import RadioHal.Wifi.Readings

/-!
# What a dump of the stations stores

The handler of station messages writes three tables.  Both bit rates are parsed into one scratch
array, and a rate that does not parse is logged and passed over, so the three readings have to be
kept apart by hand.

## Main definitions

* `parseRate` — `nla_parse_nested` on a bit rate, with what it leaves in the scratch array.
* `rateBlock`, `connectionInfoThroughScratch` — the handler with its scratch array.
* `lastCarried` — the last value that a sequence of messages carries for an interface.

## Main results

* `connectionInfoThroughScratch_eq` — **what the scratch array holds never matters.**
* `stations_stored` — **behind any sequence of messages, each entry of a radio holds the last value
  carried for it**, and nothing else has changed.
-/

namespace RadioHal.Wifi

open CLib Dialogue

/-! ### The scratch array -/

/-- The bit rate in the scratch array `rinfo`. -/
abbrev RateScratch : Type := Option (BitVec 16)

/-- `nla_parse_nested` into the scratch array: whether it failed, and what is left there.  The array
is cleared first; `stopped` is what a parse that fails has stored until then. -/
def parseRate (stopped : RateScratch) : Nested RateScratch → Bool × RateScratch
  | .malformed => (true, stopped)
  | .parsed bitrate => (false, bitrate)

/-- The block of one bit rate: the table it leaves, and the scratch array. -/
def rateBlock (sc : WifiSoftc) (msg : NlAttrs) (stopped : RateScratch) (table : Slot → ℤ)
    (rate : Option (Nested RateScratch)) (rinfo : RateScratch) :
    Option ((Slot → ℤ) × RateScratch) :=
  match rate with
  | none => some (table, rinfo)
  | some nested =>
    let parsed := parseRate stopped nested
    if parsed.1 = true then some (table, parsed.2)
    else (stationIndex sc msg).map fun index =>
      (parsed.2.elim table fun r => storeFor sc table index (r.toNat / 10 : ℕ), parsed.2)

/-- `wifi_hal_connection_info_hdlr`, with its scratch array; `rinfo` is what the array holds before,
`stopped` and `stopped'` what failing parses store in it. -/
def connectionInfoThroughScratch (rinfo stopped stopped' : RateScratch) (sc : WifiSoftc)
    (msg : NlAttrs) : Option WifiSoftc :=
  match msg.staInfo with
  | some (.parsed sinfo) => do
    let signal ← storeSignal sc msg sinfo.signal
    let tx ← rateBlock sc msg stopped sc.txrate sinfo.txBitrate rinfo
    let rx ← rateBlock sc msg stopped' sc.rxrate sinfo.rxBitrate tx.2
    some { sc with
      signal := signal
      txrate := tx.1
      rxrate := rx.1 }
  | _ => some sc

/-- A block stores the rate of its own attribute, or nothing. -/
theorem map_fst_rateBlock (sc : WifiSoftc) (msg : NlAttrs) (stopped : RateScratch)
    (table : Slot → ℤ) (rate : Option (Nested RateScratch)) (rinfo : RateScratch) :
    (rateBlock sc msg stopped table rate rinfo).map Prod.fst = storeRate sc msg table rate := by
  rcases rate with _ | (_ | bitrate)
  · rfl
  · rfl
  · show ((stationIndex sc msg).map _).map Prod.fst = _
    rw [Option.map_map]
    rfl

/-- **What the scratch array holds never matters**: neither what was there before, nor what a parse
that fails leaves for the other rate. -/
theorem connectionInfoThroughScratch_eq (rinfo stopped stopped' : RateScratch) (sc : WifiSoftc)
    (msg : NlAttrs) : connectionInfoThroughScratch rinfo stopped stopped' sc msg =
      wifiHalConnectionInfoHdlr sc msg := by
  unfold connectionInfoThroughScratch wifiHalConnectionInfoHdlr
  rcases msg.staInfo with _ | (_ | sinfo)
  · rfl
  · rfl
  · dsimp only
    rw [← map_fst_rateBlock sc msg stopped sc.txrate sinfo.txBitrate rinfo]
    cases storeSignal sc msg sinfo.signal with
    | none => rfl
    | some signal =>
      cases htx : rateBlock sc msg stopped sc.txrate sinfo.txBitrate rinfo with
      | none => rfl
      | some tx =>
        rw [← map_fst_rateBlock sc msg stopped' sc.rxrate sinfo.rxBitrate tx.2]
        simp only [Option.bind_eq_bind, Option.bind_some, Option.map_some]
        cases rateBlock sc msg stopped' sc.rxrate sinfo.rxBitrate tx.2 with
        | none => rfl
        | some rx => rfl

/-! ### Sequences of messages -/

/-- The last value that the messages carry for the interface `ifindex`. -/
def lastCarried (k : LinkReading) (ifindex : ℤ) (msgs : List NlAttrs) : Option ℤ :=
  (msgs.filterMap (k.about ifindex)).getLast?

section Sequences

variable {sc sc' : WifiSoftc} {msgs : List NlAttrs}

/-- A message with an interface index does not crash the handler. -/
theorem isSome_hdlr_of_indexed (hamount : sc.radioAmount ≤ wifiRadioMax) {msg : NlAttrs}
    (hmsg : msg.ifindex.isSome = true) : (wifiHalConnectionInfoHdlr sc msg).isSome = true := by
  rw [isSome_wifiHalConnectionInfoHdlr]
  intro _
  unfold stationIndex
  rw [if_pos hamount]
  split
  · rfl
  · exact hmsg

/-- A sequence of such messages does not crash either. -/
theorem exists_foldlM_of_indexed (hamount : sc.radioAmount ≤ wifiRadioMax)
    (hmsgs : ∀ msg ∈ msgs, msg.ifindex.isSome = true) :
    ∃ sc', msgs.foldlM wifiHalConnectionInfoHdlr sc = some sc' := by
  induction msgs generalizing sc with
  | nil => exact ⟨sc, rfl⟩
  | cons msg msgs ih =>
    obtain ⟨hmsg, hrest⟩ := List.forall_mem_cons.mp hmsgs
    obtain ⟨s, hs⟩ := Option.isSome_iff_exists.mp (isSome_hdlr_of_indexed hamount hmsg)
    obtain ⟨signal, tx, rx, rfl⟩ := exists_of_wifiHalConnectionInfoHdlr hs
    rw [List.foldlM_cons, hs]
    exact ih (by exact hamount) hrest

/-- A table with a value stored for an interface, beyond the radios. -/
theorem storeFor_of_le {i : Slot} (hi : sc.radioAmount ≤ i.val) (table : Slot → ℤ)
    (index : BitVec 32) (v : ℤ) : storeFor sc table index v i = table i := by
  unfold storeFor
  rw [if_neg]
  intro h
  omega

/-- A message leaves the entries beyond the radios alone. -/
theorem table_of_hdlr_of_le (k : LinkReading) {i : Slot} (hi : sc.radioAmount ≤ i.val)
    {msg : NlAttrs} (h : wifiHalConnectionInfoHdlr sc msg = some sc') :
    k.table sc' i = k.table sc i := by
  have hrate : ∀ (old table : Slot → ℤ) (rate : Option (Nested RateScratch)),
      storeRate sc msg old rate = some table → table i = old i := by
    intro old table rate hstore
    rcases rate with _ | (_ | bits)
    · rw [← Option.some.inj hstore]
    · rw [← Option.some.inj hstore]
    · obtain ⟨index, -, rfl⟩ := Option.map_eq_some_iff.mp hstore
      cases bits with
      | none => rfl
      | some r => exact storeFor_of_le hi old index _
  unfold wifiHalConnectionInfoHdlr at h
  split at h
  · simp only [Option.bind_eq_bind, Option.bind_eq_some_iff] at h
    obtain ⟨signal, hsignal, tx, htx, rx, hrx, h⟩ := h
    obtain rfl := Option.some.inj h
    cases k with
    | rssi =>
      unfold storeSignal at hsignal
      split at hsignal
      · obtain ⟨index, -, rfl⟩ := Option.map_eq_some_iff.mp hsignal
        exact storeFor_of_le hi sc.signal index _
      · rw [← Option.some.inj hsignal]
        rfl
    | txrate => exact hrate sc.txrate tx _ htx
    | rxrate => exact hrate sc.rxrate rx _ hrx
  · rw [← Option.some.inj h]

/-- Nothing but the readings is touched, and of these only the entries of the radios. -/
theorem foldlM_hdlr_frame (h : msgs.foldlM wifiHalConnectionInfoHdlr sc = some sc') :
    (∀ (k : LinkReading) (i : Slot), sc.radioAmount ≤ i.val → k.table sc' i = k.table sc i) ∧
      sc' = withReadings sc'.signal sc'.txrate sc'.rxrate sc := by
  refine Netlink.foldlM_keeps (fun s =>
    (∀ (k : LinkReading) (i : Slot), sc.radioAmount ≤ i.val → k.table s i = k.table sc i) ∧
      s = withReadings s.signal s.txrate s.rxrate sc) ?_ ⟨fun _ _ _ => rfl, rfl⟩ h
  rintro msg - s s' ⟨hentries, hframe⟩ hstep
  constructor
  · intro k i hi
    have hamount : s.radioAmount ≤ i.val := by
      rw [hframe]
      exact hi
    rw [table_of_hdlr_of_le k hamount hstep, hentries k i hi]
  · obtain ⟨signal, tx, rx, rfl⟩ := exists_of_wifiHalConnectionInfoHdlr hstep
    rw [hframe]
    rfl

end Sequences

/-- **Behind any sequence of station messages each entry of a radio holds the last value that the
messages carry for its interface**, or what it held before; the entries beyond the radios and all
other fields are as they were. -/
theorem stations_stored (sc : WifiSoftc) (msgs : List NlAttrs)
    (hamount : sc.radioAmount ≤ wifiRadioMax) (hmsgs : ∀ msg ∈ msgs, msg.ifindex.isSome = true) :
    ∃ sc', msgs.foldlM wifiHalConnectionInfoHdlr sc = some sc' ∧
      (∀ (k : LinkReading) (i : Slot), i.val < sc.radioAmount →
        k.table sc' i = (lastCarried k (sc.ifindex i) msgs).getD (k.table sc i)) ∧
      (∀ (k : LinkReading) (i : Slot), sc.radioAmount ≤ i.val → k.table sc' i = k.table sc i) ∧
      sc' = withReadings sc'.signal sc'.txrate sc'.rxrate sc := by
  obtain ⟨sc', hfold⟩ := exists_foldlM_of_indexed hamount hmsgs
  refine ⟨sc', hfold, ?_, foldlM_hdlr_frame hfold⟩
  intro k i hi
  rw [table_foldlM k hi hfold, LastWrite.after_eq]
  rfl

/-- A message about a station of the interface 3: a signal, a rate that does not parse, and 54.0
Mbit/s in the other direction. -/
def halfParsed : NlAttrs :=
  ⟨none, some 3, none, some (.parsed ⟨some 200, some .malformed, some (.parsed (some 540))⟩),
    by decide⟩

/-- One radio, whose interface has the index 3. -/
def interfaceThree : WifiSoftc :=
  { wifiHalAttach with
    ifindex := fun i => if i = 0 then 3 else -1
    radioAmount := 1 }

/-- The rate that does not parse keeps neither the signal nor the other rate from being stored. -/
theorem halfParsed_stored : ∃ sc', [halfParsed].foldlM wifiHalConnectionInfoHdlr interfaceThree =
    some sc' ∧ sc'.signal 0 = 200 ∧ sc'.txrate 0 = 0 ∧ sc'.rxrate 0 = 54 := by
  obtain ⟨sc', hfold, hentries, -⟩ :=
    stations_stored interfaceThree [halfParsed] (by decide) (by simp [halfParsed])
  exact ⟨sc', hfold, hentries .rssi 0 (by decide), hentries .txrate 0 (by decide),
    hentries .rxrate 0 (by decide)⟩

end RadioHal.Wifi
