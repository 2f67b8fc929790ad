import RadioHal.Lib.LastWrite
import RadioHal.Wifi.Answered
import RadioHal.Wifi.Session

/-!
# Readings of a link

A getter asks for a dump of the stations and returns an entry of a table.  The data callback of the
dump writes the entry when a message about the interface carries the attribute, and nothing else
ever does, so without such a message the getter returns what some earlier dump has left.

## Main definitions

* `LinkReading` — signal, transmission rate and reception rate, with their tables and getters.
* `LinkReading.about` — what a message says about an interface.
* `StationHistory` — the states that earlier dumps of the stations lead to.
* `Fresh` — two histories and the same answers give the same value.
* `Carried` — the answer to the dump of the stations carries the attribute for the interface.

## Main results

* `table_foldlM` — an entry behind a dump is the last value the dump carries for it.
* `fresh_iff` — **a reading is fresh exactly when its own dump carries it.**
-/

namespace RadioHal.Wifi

open CLib Dialogue

/-! ### The readings -/

/-- The readings of a link that the HAL keeps for each radio. -/
inductive LinkReading
  | rssi | txrate | rxrate
  deriving DecidableEq

/-- The bit rate of a nested attribute, in units of 1 Mbit/s. -/
def bitrate : Option (Nested (Option (BitVec 16))) → Option ℤ
  | some (.parsed (some r)) => some (r.toNat / 10 : ℕ)
  | _ => none

namespace LinkReading

/-- The table in which a reading is kept. -/
def table (sc : WifiSoftc) : LinkReading → Slot → ℤ
  | rssi => sc.signal
  | txrate => sc.txrate
  | rxrate => sc.rxrate

/-- The getter of a reading. -/
def get (nl : Netlink.Libnl NlAttrs) (sc : WifiSoftc) (i : Slot) :
    LinkReading → WifiM (WifiSoftc × ℤ)
  | rssi => wifiHalGetRssi nl sc i
  | txrate => wifiHalGetTxrate nl sc i
  | rxrate => wifiHalGetRxrate nl sc i

/-- A getter returns the entry behind its two dumps. -/
theorem get_eq (k : LinkReading) (nl : Netlink.Libnl NlAttrs) (sc : WifiSoftc) (i : Slot) :
    k.get nl sc i = readingDumps nl sc i >>= fun sc' => ret (sc', k.table sc' i) := by
  cases k <;> rfl

/-- What the station info has for a reading. -/
def value (sinfo : StaInfo) : LinkReading → Option ℤ
  | rssi => sinfo.signal.map fun s => (s.toNat : ℤ)
  | txrate => bitrate sinfo.txBitrate
  | rxrate => bitrate sinfo.rxBitrate

/-- What a message says about the interface `ifindex`. -/
def about (k : LinkReading) (ifindex : ℤ) (msg : NlAttrs) : Option ℤ :=
  match msg.staInfo with
  | some (.parsed sinfo) =>
    if msg.ifindex.map BitVec.toInt = some ifindex then k.value sinfo else none
  | _ => none

end LinkReading

/-! ### One message -/

section Message

variable {sc sc' : WifiSoftc} {msg : NlAttrs} {i : Slot} {index : BitVec 32}

/-- Where there is a radio, the index looked up is that of the message. -/
theorem ifindex_of_stationIndex (hi : i.val < sc.radioAmount)
    (h : stationIndex sc msg = some index) : msg.ifindex = some index := by
  unfold stationIndex at h
  rw [if_neg (by omega)] at h
  split at h
  · exact h
  · exact absurd h (by simp)

theorem storeFor_apply (hi : i.val < sc.radioAmount) (hindex : msg.ifindex = some index)
    (table : Slot → ℤ) (v : ℤ) : storeFor sc table index v i =
      if msg.ifindex.map BitVec.toInt = some (sc.ifindex i) then v else table i := by
  unfold storeFor
  rw [hindex]
  by_cases h : sc.ifindex i = index.toInt
  · simp [hi, h]
  · simp [h, Ne.symm h]

theorem storeSignal_apply (hi : i.val < sc.radioAmount) {signal : Option (BitVec 8)}
    {table : Slot → ℤ} (h : storeSignal sc msg signal = some table) : table i =
      if msg.ifindex.map BitVec.toInt = some (sc.ifindex i) then
        (signal.map fun s => (s.toNat : ℤ)).getD (sc.signal i) else sc.signal i := by
  cases signal with
  | none =>
    obtain rfl := Option.some.inj h
    simp
  | some s =>
    obtain ⟨index, hindex, rfl⟩ := Option.map_eq_some_iff.mp h
    exact storeFor_apply hi (ifindex_of_stationIndex hi hindex) _ _

theorem storeRate_apply (hi : i.val < sc.radioAmount) {old table : Slot → ℤ}
    {rate : Option (Nested (Option (BitVec 16)))} (h : storeRate sc msg old rate = some table) :
    table i = if msg.ifindex.map BitVec.toInt = some (sc.ifindex i) then
      (bitrate rate).getD (old i) else old i := by
  rcases rate with _ | (_ | bits)
  · obtain rfl := Option.some.inj h
    simp [bitrate]
  · obtain rfl := Option.some.inj h
    simp [bitrate]
  · obtain ⟨index, hindex, rfl⟩ := Option.map_eq_some_iff.mp h
    cases bits with
    | none => simp [bitrate]
    | some r => exact storeFor_apply hi (ifindex_of_stationIndex hi hindex) _ _

/-- **A message writes what it says about the interface of a radio into the entry of the radio.** -/
theorem table_of_hdlr (k : LinkReading) (hi : i.val < sc.radioAmount)
    (h : wifiHalConnectionInfoHdlr sc msg = some sc') :
    k.table sc' i = (k.about (sc.ifindex i) msg).getD (k.table sc i) := by
  unfold wifiHalConnectionInfoHdlr at h
  unfold LinkReading.about
  rcases hinfo : msg.staInfo with _ | (_ | sinfo)
  · rw [hinfo] at h
    obtain rfl := Option.some.inj h
    rfl
  · rw [hinfo] at h
    obtain rfl := Option.some.inj h
    rfl
  · simp only [hinfo, Option.bind_eq_bind, Option.bind_eq_some_iff] at h
    obtain ⟨signal, hsignal, tx, htx, rx, hrx, h⟩ := h
    obtain rfl := Option.some.inj h
    have hget : ∀ (c : Prop) [Decidable c] (x : Option ℤ) (y : ℤ),
        (if c then x.getD y else y) = (if c then x else none).getD y := by
      intro c _ x y
      split <;> rfl
    cases k with
    | rssi => exact (storeSignal_apply hi hsignal).trans (hget _ _ _)
    | txrate => exact (storeRate_apply hi htx).trans (hget _ _ _)
    | rxrate => exact (storeRate_apply hi hrx).trans (hget _ _ _)

end Message

/-! ### One dump -/

section Dump

variable {sc sc' : WifiSoftc} {msgs : List NlAttrs} {i : Slot}

/-- **An entry behind a dump of the stations is the last value the dump carries for it.** -/
theorem table_foldlM (k : LinkReading) (hi : i.val < sc.radioAmount)
    (h : msgs.foldlM wifiHalConnectionInfoHdlr sc = some sc') :
    k.table sc' i = LastWrite.after (k.about (sc.ifindex i)) (k.table sc i) msgs := by
  induction msgs generalizing sc with
  | nil =>
    obtain rfl := Option.some.inj h
    rfl
  | cons msg msgs ih =>
    rw [List.foldlM_cons] at h
    obtain ⟨s, hs, hrest⟩ := Option.bind_eq_some_iff.mp h
    have hentry := table_of_hdlr k hi hs
    obtain ⟨signal, tx, rx, rfl⟩ := exists_of_wifiHalConnectionInfoHdlr hs
    rw [ih (by exact hi) hrest, hentry]
    rfl

end Dump

/-! ### What does not depend on the readings -/

/-- The softc with other readings, and the same tables. -/
def withReadings (signal txrate rxrate : Slot → ℤ) (sc : WifiSoftc) : WifiSoftc :=
  { sc with
    signal := signal
    txrate := txrate
    rxrate := rxrate }

section Readings

variable (signal tx rx : Slot → ℤ)

theorem ifnameRound_withReadings (msg : NlAttrs) (sc : WifiSoftc) (i : Slot) :
    ifnameRound msg (withReadings signal tx rx sc) i =
      (ifnameRound msg sc i).map (withReadings signal tx rx) := by
  have hknows : ∀ name, (withReadings signal tx rx sc).knows name ↔ sc.knows name :=
    fun _ => Iff.rfl
  have hifname : (withReadings signal tx rx sc).ifname = sc.ifname := rfl
  have hphy : ∀ s, phySlot msg i (withReadings signal tx rx s) =
      withReadings signal tx rx (phySlot msg i s) := by
    intro s
    have hphyname : (withReadings signal tx rx s).phyname = s.phyname := rfl
    unfold phySlot
    rw [hphyname]
    split
    · cases msg.wiphy <;> rfl
    · rfl
  unfold ifnameRound nameSlot
  cases msg.ifname with
  | none => rfl
  | some raw =>
    simp only [Option.map_some, Option.bind_eq_bind, Option.bind_some, hknows, hifname]
    split
    · rfl
    split
    · cases msg.ifindex with
      | none => rfl
      | some index => exact congrArg some (hphy (sc.storeInterface i (cstr raw) index))
    · exact congrArg some (hphy sc)

/-- A dump of the interfaces goes the same way whatever the readings are. -/
theorem foldlM_wifiHalIfnameRespHdlr_withReadings (msgs : List NlAttrs) (sc : WifiSoftc) :
    msgs.foldlM wifiHalIfnameRespHdlr (withReadings signal tx rx sc) =
      (msgs.foldlM wifiHalIfnameRespHdlr sc).map (withReadings signal tx rx) :=
  Netlink.foldlM_comm (fun s msg => Netlink.foldlM_comm
    (fun s i => ifnameRound_withReadings signal tx rx msg s i) _ s) msgs sc

theorem wifiHalGetInterface_withReadings (nl : Netlink.Libnl NlAttrs) (sc : WifiSoftc) :
    wifiHalGetInterface nl (withReadings signal tx rx sc) =
      wifiHalGetInterface nl sc >>= fun r => ret (withReadings signal tx rx r.1, r.2) := by
  refine congrArg (ask WifiQ.nlmsgAlloc) (funext fun allocated => ?_)
  cases allocated with
  | false => rfl
  | true =>
    refine congrArg (ask (WifiQ.nlRequest .getInterface)) (funext fun answer => ?_)
    cases answer with
    | none => rfl
    | some a =>
      have hhandle : ifCb.handle = wifiHalIfnameRespHdlr := rfl
      show (nlRecvmsgs nl ifCb a (withReadings signal tx rx sc) >>= _) =
        (nlRecvmsgs nl ifCb a sc >>= _) >>= _
      rw [nlRecvmsgs_eq, nlRecvmsgs_eq, hhandle, foldlM_wifiHalIfnameRespHdlr_withReadings]
      cases a.data.foldlM wifiHalIfnameRespHdlr sc with
      | none => exact congrArg (ask WifiQ.nullDeref) (funext fun e => e.elim)
      | some s =>
        show ((if _ then _ else _) >>= _) = ((if _ then _ else _) >>= _) >>= _
        split
        · rfl
        · exact congrArg (ask WifiQ.nlFurtherMessage) (funext fun e => e.elim)

end Readings

/-! ### Runs of the getters -/

/-- The messages that answered dumps of the stations, each with the interface asked for. -/
def stationLog (t : WifiTranscript) : List (ℤ × NlAttrs) :=
  t.flatMap fun x =>
    match x with
    | ⟨.nlRequest (.getStation ifindex), some a⟩ => a.data.map fun msg => (ifindex, msg)
    | _ => []

/-- What an entry of the log says about its interface. -/
def LinkReading.says (k : LinkReading) (entry : ℤ × NlAttrs) : Option ℤ := k.about entry.1 entry.2

/-- **A dump of the stations in the dialogue carries the reading** for the interface asked for. -/
def Carried (k : LinkReading) (t : WifiTranscript) : Prop := LastWrite.Writes k.says (stationLog t)

/-- The states that dumps of the stations lead to. -/
inductive StationHistory (nl : Netlink.Libnl NlAttrs) (sc₀ : WifiSoftc) : WifiSoftc → Prop
  | start : StationHistory nl sc₀ sc₀
  | dump {sc : WifiSoftc} {index : Slot} {t : WifiTranscript} {r : WifiSoftc × ℤ}
      (hhistory : StationHistory nl sc₀ sc)
      (hdump : After (wifiHalGetStainfo nl sc index) t (ret r)) : StationHistory nl sc₀ r.1

/-- Whatever dumps have come before, the dialogue `t` makes the getter return the same value. -/
def Fresh (nl : Netlink.Libnl NlAttrs) (k : LinkReading) (sc₀ : WifiSoftc) (i : Slot)
    (t : WifiTranscript) : Prop :=
  ∀ (sc sc' : WifiSoftc) (r r' : WifiSoftc × ℤ), StationHistory nl sc₀ sc →
    StationHistory nl sc₀ sc' → After (k.get nl sc i) t (ret r) →
    After (k.get nl sc' i) t (ret r') → r.2 = r'.2

section Runs

variable {nl : Netlink.Libnl NlAttrs} {sc : WifiSoftc} {i : Slot} {t : WifiTranscript}
  {r : WifiSoftc × ℤ}

@[simp] theorem stationLog_append (t t' : WifiTranscript) :
    stationLog (t ++ t') = stationLog t ++ stationLog t' := List.flatMap_append

theorem after_wifiHalGetStainfo_iff : After (wifiHalGetStainfo nl sc i) t (ret r) ↔
    (t = [⟨.nlmsgAlloc, false⟩] ∧ r = (sc, -12)) ∨
      (t = [⟨.nlmsgAlloc, true⟩, ⟨.nlRequest (.getStation (sc.ifindex i)), none⟩] ∧
        r = (sc, -1)) ∨
      ∃ a s, t = [⟨.nlmsgAlloc, true⟩, ⟨.nlRequest (.getStation (sc.ifindex i)), some a⟩] ∧
        a.data.foldlM wifiHalConnectionInfoHdlr sc = some s ∧
        linkInfoCb.clears a.ending = true ∧ r = (s, 0) := by
  unfold wifiHalGetStainfo
  rw [query_bind, after_ask_iff]
  constructor
  · rintro ⟨allocated, t₁, rfl, h⟩
    cases allocated with
    | false =>
      obtain ⟨rfl, rfl⟩ := after_ret_iff.mp h
      exact Or.inl ⟨rfl, rfl⟩
    | true =>
      rw [if_neg (by simp), query_bind, after_ask_iff] at h
      obtain ⟨answer, t₂, rfl, h⟩ := h
      cases answer with
      | none =>
        have hret : After (ret (sc, (-1 : ℤ))) t₂ (ret r) := h
        obtain ⟨rfl, rfl⟩ := after_ret_iff.mp hret
        exact Or.inr (Or.inl ⟨rfl, rfl⟩)
      | some a =>
        obtain ⟨t₃, s, t₄, rfl, hrecv, hret⟩ := after_bind_iff.mp h
        obtain ⟨rfl, rfl⟩ := after_ret_iff.mp hret
        obtain ⟨rfl, hfold, hclears⟩ := (after_nlRecvmsgs_iff nl).mp hrecv
        exact Or.inr (Or.inr ⟨a, s, rfl, hfold, hclears, rfl⟩)
  · rintro (⟨rfl, rfl⟩ | ⟨rfl, rfl⟩ | ⟨a, s, rfl, hfold, hclears, rfl⟩)
    · exact ⟨false, [], rfl, .start _⟩
    · exact ⟨true, _, rfl, .reply _ (.start _)⟩
    · have hrecv : After (nlRecvmsgs nl linkInfoCb a sc) [] (ret s) :=
        (after_nlRecvmsgs_iff nl).mpr ⟨rfl, hfold, hclears⟩
      exact ⟨true, _, rfl, .reply _ (hrecv.bind _)⟩

/-- Behind a dump of the stations, an entry holds the last value the dialogue carries. -/
theorem table_of_wifiHalGetStainfo (k : LinkReading) (hi : i.val < sc.radioAmount)
    (h : After (wifiHalGetStainfo nl sc i) t (ret r)) :
    k.table r.1 i = LastWrite.after k.says (k.table sc i) (stationLog t) := by
  rcases after_wifiHalGetStainfo_iff.mp h with
    ⟨rfl, rfl⟩ | ⟨rfl, rfl⟩ | ⟨a, s, rfl, hfold, -, rfl⟩
  · rfl
  · rfl
  · have hlog : stationLog [⟨.nlmsgAlloc, true⟩,
        ⟨.nlRequest (.getStation (sc.ifindex i)), some a⟩] =
          a.data.map fun msg => (sc.ifindex i, msg) := by
      simp [stationLog]
    rw [hlog, table_foldlM k hi hfold]
    unfold LastWrite.after
    rw [List.foldl_map]
    rfl

theorem radioAmount_le_of_hdlr {sc sc' : WifiSoftc} {msg : NlAttrs}
    (h : wifiHalIfnameRespHdlr sc msg = some sc') : sc.radioAmount ≤ sc'.radioAmount := by
  refine Netlink.foldlM_keeps (fun s => sc.radioAmount ≤ s.radioAmount)
    (fun j _ s s' hs hstep => ?_) le_rfl h
  have hphy : ∀ u, u.radioAmount ≤ (phySlot msg j u).radioAmount := by
    intro u
    unfold phySlot
    split
    · cases msg.wiphy with
      | none => exact le_rfl
      | some wiphy => exact Nat.le_succ _
    · exact le_rfl
  unfold ifnameRound nameSlot at hstep
  simp only [Option.bind_eq_bind, Option.bind_eq_some_iff] at hstep
  obtain ⟨name, -, hstep⟩ := hstep
  split at hstep
  · exact (Option.some.inj hstep) ▸ hs
  obtain ⟨u, hu, hstep⟩ := Option.bind_eq_some_iff.mp hstep
  obtain rfl := Option.some.inj hstep
  split at hu
  · obtain ⟨index, -, rfl⟩ := Option.map_eq_some_iff.mp hu
    have hstored : s.radioAmount ≤ (phySlot msg j (s.storeInterface j name index)).radioAmount :=
      hphy (s.storeInterface j name index)
    exact hs.trans hstored
  · obtain rfl := Option.some.inj hu
    exact hs.trans (hphy _)

/-- A dump of the interfaces leaves the readings alone, and no radio is lost. -/
theorem yields_wifiHalGetInterface_readings (nl : Netlink.Libnl NlAttrs) (sc : WifiSoftc) :
    Yields (fun r : WifiSoftc × ℤ => (∀ k : LinkReading, k.table r.1 = k.table sc) ∧
      sc.radioAmount ≤ r.1.radioAmount) (wifiHalGetInterface nl sc) := by
  have htables : Yields (fun r : WifiSoftc × ℤ => ∀ k : LinkReading, k.table r.1 = k.table sc)
      (wifiHalGetInterface nl sc) := by
    refine (yields_wifiHalGetInterface nl sc).mono fun r hr k => ?_
    obtain ⟨ifindex, ifname, phyname, radioAmount, hr⟩ := hr
    rw [hr]
    cases k <;> rfl
  refine htables.and ?_
  intro allocated
  cases allocated with
  | false => exact le_rfl
  | true =>
    intro answer
    cases answer with
    | none => exact le_rfl
    | some a =>
      refine (yields_nlRecvmsgs nl ifCb a sc).bind fun s hfold => ?_
      exact Netlink.foldlM_keeps (fun s => sc.radioAmount ≤ s.radioAmount)
        (fun msg _ s s' hs hstep => hs.trans (radioAmount_le_of_hdlr hstep)) le_rfl hfold

/-- The listing of the interfaces asks for no station. -/
theorem stationLog_of_wifiHalGetInterface (h : After (wifiHalGetInterface nl sc) t (ret r)) :
    stationLog t = [] := by
  have hasks : OnlyAsks (fun q => ∀ ifindex, q ≠ .nlRequest (.getStation ifindex))
      (wifiHalGetInterface nl sc) := by
    refine ⟨by simp, fun allocated => ?_⟩
    cases allocated with
    | false => trivial
    | true =>
      refine ⟨by simp, fun answer => ?_⟩
      cases answer with
      | none => trivial
      | some a =>
        have hrecv : OnlyAsks (fun q => ∀ ifindex, q ≠ .nlRequest (.getStation ifindex))
            (nlRecvmsgs nl ifCb a sc) := by
          unfold nlRecvmsgs
          split
          · trivial
          · exact ⟨by simp, fun e => e.elim⟩
          · exact ⟨by simp, fun e => e.elim⟩
        exact hrecv.bind fun _ => trivial
  refine List.flatMap_eq_nil_iff.mpr fun x hx => ?_
  have hne := hasks.of_mem h x hx
  split
  · exact absurd rfl (hne _)
  · rfl

/-- The runs of a getter are those of its two dumps. -/
theorem after_get_iff {k : LinkReading} : After (k.get nl sc i) t (ret r) ↔
    ∃ t₁ listed t₂ stations, t = t₁ ++ t₂ ∧ After (wifiHalGetInterface nl sc) t₁ (ret listed) ∧
      After (wifiHalGetStainfo nl listed.1 i) t₂ (ret stations) ∧
      r = (stations.1, k.table stations.1 i) := by
  have hget : k.get nl sc i = wifiHalGetInterface nl sc >>= fun listed =>
      wifiHalGetStainfo nl listed.1 i >>= fun stations =>
        ret (stations.1, k.table stations.1 i) := by
    rw [k.get_eq]
    unfold readingDumps
    rw [bind_bind]
    refine congrArg (wifiHalGetInterface nl sc >>= ·) (funext fun listed => ?_)
    rw [bind_bind]
    rfl
  rw [hget, after_bind_iff]
  constructor
  · rintro ⟨t₁, listed, t₂, rfl, hlisted, h⟩
    obtain ⟨t₃, stations, t₄, rfl, hstations, hret⟩ := after_bind_iff.mp h
    obtain ⟨rfl, rfl⟩ := after_ret_iff.mp hret
    exact ⟨t₁, listed, t₃, stations, by rw [List.append_nil], hlisted, hstations, rfl⟩
  · rintro ⟨t₁, listed, t₂, stations, rfl, hlisted, hstations, rfl⟩
    exact ⟨t₁, listed, t₂, rfl, hlisted, after_bind_iff.mpr
      ⟨t₂, stations, [], (List.append_nil t₂).symm, hstations, .start _⟩⟩

/-- **A getter returns the last value its dialogue carries, or else what its entry held before.** -/
theorem value_of_get {k : LinkReading} (hi : i.val < sc.radioAmount)
    (h : After (k.get nl sc i) t (ret r)) :
    r.2 = LastWrite.after k.says (k.table sc i) (stationLog t) := by
  obtain ⟨t₁, listed, t₂, stations, rfl, hlisted, hstations, rfl⟩ := after_get_iff.mp h
  obtain ⟨htables, hle⟩ := (yields_wifiHalGetInterface_readings nl sc).of_after hlisted
  rw [stationLog_append, stationLog_of_wifiHalGetInterface hlisted, List.nil_append]
  show k.table stations.1 i = _
  rw [table_of_wifiHalGetStainfo k (by omega) hstations, htables k]

end Runs

/-! ### Histories -/

section Histories

variable {nl : Netlink.Libnl NlAttrs} {sc sc₀ : WifiSoftc} {i : Slot} {t : WifiTranscript}
  {r : WifiSoftc × ℤ} {k : LinkReading}

/-- A history of dumps of the stations leads to other readings, and to nothing else. -/
theorem StationHistory.exists_withReadings (h : StationHistory nl sc₀ sc) :
    ∃ signal tx rx, sc = withReadings signal tx rx sc₀ := by
  induction h with
  | start => exact ⟨sc₀.signal, sc₀.txrate, sc₀.rxrate, rfl⟩
  | @dump sc index t r hhistory hdump ih =>
    obtain ⟨signal, tx, rx, rfl⟩ := ih
    rcases after_wifiHalGetStainfo_iff.mp hdump with ⟨-, rfl⟩ | ⟨-, rfl⟩ | ⟨a, s, -, hfold, -, rfl⟩
    · exact ⟨signal, tx, rx, rfl⟩
    · exact ⟨signal, tx, rx, rfl⟩
    · refine Netlink.foldlM_keeps (fun s => ∃ signal tx rx, s = withReadings signal tx rx sc₀)
        (fun msg _ s s' hs hstep => ?_) ⟨signal, tx, rx, rfl⟩ hfold
      obtain ⟨signal, tx, rx, rfl⟩ := hs
      obtain ⟨signal', tx', rx', hs'⟩ := exists_of_wifiHalConnectionInfoHdlr hstep
      exact ⟨signal', tx', rx', hs'⟩

/-- A dialogue that a getter goes through, it goes through whatever the readings are. -/
theorem exists_after_get (signal tx rx : Slot → ℤ) (ht : After (k.get nl sc₀ i) t (ret r)) :
    ∃ r', After (k.get nl (withReadings signal tx rx sc₀) i) t (ret r') := by
  obtain ⟨t₁, listed, t₂, stations, rfl, hlisted, hstations, -⟩ := after_get_iff.mp ht
  have hlisted' : After (wifiHalGetInterface nl (withReadings signal tx rx sc₀)) t₁
      (ret (withReadings signal tx rx listed.1, listed.2)) := by
    rw [wifiHalGetInterface_withReadings]
    exact after_bind_iff.mpr ⟨t₁, listed, [], (List.append_nil t₁).symm, hlisted, .start _⟩
  have hstations' : ∃ stations', After (wifiHalGetStainfo nl (withReadings signal tx rx listed.1) i)
      t₂ (ret stations') := by
    rcases after_wifiHalGetStainfo_iff.mp hstations with
      ⟨rfl, -⟩ | ⟨rfl, -⟩ | ⟨a, s, rfl, hfold, hclears, -⟩
    · exact ⟨_, after_wifiHalGetStainfo_iff.mpr (Or.inl ⟨rfl, rfl⟩)⟩
    · exact ⟨_, after_wifiHalGetStainfo_iff.mpr (Or.inr (Or.inl ⟨rfl, rfl⟩))⟩
    · -- what the callback reads without looking is not among the readings
      have hread : (NlOp.getStainfo i).Readable listed.1 a :=
        (readable_getStainfo listed.1 i a).mp (by rw [hfold]; rfl)
      have hsome := (readable_getStainfo (withReadings signal tx rx listed.1) i a).mpr hread
      obtain ⟨s', hfold'⟩ := Option.isSome_iff_exists.mp hsome
      exact ⟨_, after_wifiHalGetStainfo_iff.mpr
        (Or.inr (Or.inr ⟨a, s', rfl, hfold', hclears, rfl⟩))⟩
  obtain ⟨stations', hstations'⟩ := hstations'
  exact ⟨_, after_get_iff.mpr ⟨t₁, _, t₂, stations', rfl, hlisted', hstations', rfl⟩⟩

/-- The info of a station for which every reading is `v`. -/
def infoOf (v : Fin 2) : StaInfo where
  signal := some (BitVec.ofNat 8 v)
  txBitrate := some (.parsed (some (BitVec.ofNat 16 (10 * v))))
  rxBitrate := some (.parsed (some (BitVec.ofNat 16 (10 * v))))

/-- A message about the station of an interface, with that info. -/
def stationOf (index : BitVec 32) (v : Fin 2) : NlAttrs where
  ifname := none
  ifindex := some index
  wiphy := none
  staInfo := some (.parsed (infoOf v))
  indexed h := absurd h (by simp)

theorem value_infoOf (k : LinkReading) (v : Fin 2) : k.value (infoOf v) = some (v.val : ℤ) := by
  rcases (by omega : v = 0 ∨ v = 1) with rfl | rfl
  · cases k <;> rfl
  · cases k <;> rfl

theorem about_stationOf (k : LinkReading) (index : BitVec 32) (v : Fin 2) :
    k.about index.toInt (stationOf index v) = some (v.val : ℤ) :=
  (if_pos rfl).trans (value_infoOf k v)

/-- A dump of one station leads to any of two values. -/
theorem exists_history (nl : Netlink.Libnl NlAttrs) (k : LinkReading) {index : BitVec 32}
    (hi : i.val < sc₀.radioAmount) (hmax : sc₀.radioAmount ≤ wifiRadioMax)
    (hindex : sc₀.ifindex i = index.toInt) (v : Fin 2) :
    ∃ sc, StationHistory nl sc₀ sc ∧ k.table sc i = v.val := by
  have hstation : stationIndex sc₀ (stationOf index v) = some index := by
    unfold stationIndex
    rw [if_neg (by omega), if_pos hmax]
    rfl
  have hsome : (wifiHalConnectionInfoHdlr sc₀ (stationOf index v)).isSome = true := by
    rw [isSome_wifiHalConnectionInfoHdlr, hstation]
    exact fun _ => rfl
  obtain ⟨s, hs⟩ := Option.isSome_iff_exists.mp hsome
  let a : KernelAnswer := ⟨[], [stationOf index v], .done⟩
  have hfold : a.data.foldlM wifiHalConnectionInfoHdlr sc₀ = some s := by
    show [stationOf index v].foldlM wifiHalConnectionInfoHdlr sc₀ = some s
    rw [List.foldlM_cons, hs]
    rfl
  have hdump : After (wifiHalGetStainfo nl sc₀ i)
      [⟨.nlmsgAlloc, true⟩, ⟨.nlRequest (.getStation (sc₀.ifindex i)), some a⟩] (ret (s, 0)) :=
    after_wifiHalGetStainfo_iff.mpr (Or.inr (Or.inr ⟨a, s, rfl, hfold, rfl, rfl⟩))
  refine ⟨s, .dump (.start) hdump, ?_⟩
  rw [table_of_hdlr k hi hs, hindex, about_stationOf]
  rfl

/-- What the dialogue does not carry is left from before: it is not fresh. -/
theorem not_fresh (hi : i.val < sc₀.radioAmount) (hmax : sc₀.radioAmount ≤ wifiRadioMax)
    (hindex : ∃ index : BitVec 32, sc₀.ifindex i = index.toInt)
    (ht : After (k.get nl sc₀ i) t (ret r)) (hnot : ¬ Carried k t) : ¬ Fresh nl k sc₀ i t := by
  intro hfresh
  obtain ⟨index, hindex⟩ := hindex
  obtain ⟨sc, hsc, hvalue⟩ := exists_history nl k hi hmax hindex 0
  obtain ⟨sc', hsc', hvalue'⟩ := exists_history nl k hi hmax hindex 1
  have hback : ∀ s, StationHistory nl sc₀ s →
      ∃ r, After (k.get nl s i) t (ret r) ∧ r.2 = k.table s i := by
    intro s hs
    obtain ⟨signal, tx, rx, rfl⟩ := hs.exists_withReadings
    obtain ⟨r, hr⟩ := exists_after_get signal tx rx ht
    have hleft : r.2 = _ := value_of_get (by exact hi) hr
    exact ⟨r, hr, hleft.trans (LastWrite.after_of_not_writes _ hnot)⟩
  obtain ⟨r, hr, hval⟩ := hback sc hsc
  obtain ⟨r', hr', hval'⟩ := hback sc' hsc'
  have heq := hfresh sc sc' r r' hsc hsc' hr hr'
  rw [hval, hval', hvalue, hvalue'] at heq
  exact absurd heq (by decide)

/-- What it carries does not depend on what was there before. -/
theorem fresh_of_carried (hi : i.val < sc₀.radioAmount) (hcarried : Carried k t) :
    Fresh nl k sc₀ i t := by
  intro sc sc' r r' hsc hsc' hr hr'
  obtain ⟨signal, tx, rx, rfl⟩ := hsc.exists_withReadings
  obtain ⟨signal', tx', rx', rfl⟩ := hsc'.exists_withReadings
  have hvalue : r.2 = _ := value_of_get (by exact hi) hr
  have hvalue' : r'.2 = _ := value_of_get (by exact hi) hr'
  rw [hvalue, hvalue']
  exact LastWrite.after_of_writes _ _ hcarried

end Histories

/-- **A reading is fresh exactly when its own dump carries it**: with the same answers, the value
does not depend on the dumps before if some message of the dump of the stations is about the
interface and has the attribute; otherwise it is left from an earlier dump. -/
theorem fresh_iff (nl : Netlink.Libnl NlAttrs) (k : LinkReading) (sc₀ : WifiSoftc) (i : Slot)
    (t : WifiTranscript) (r : WifiSoftc × ℤ) (hi : i.val < sc₀.radioAmount)
    (hmax : sc₀.radioAmount ≤ wifiRadioMax)
    (hindex : ∃ index : BitVec 32, sc₀.ifindex i = index.toInt)
    (ht : After (k.get nl sc₀ i) t (ret r)) : Fresh nl k sc₀ i t ↔ Carried k t := by
  constructor
  · intro hfresh
    by_contra hnot
    exact not_fresh hi hmax hindex ht hnot hfresh
  · exact fresh_of_carried hi

/-- One radio, whose interface has the index 3. -/
def linkedSoftc : WifiSoftc :=
  { wifiHalAttach with
    ifindex := fun i => if i = 0 then 3 else -1
    radioAmount := 1 }

/-- The dialogue of a getter on it, where the dump of the stations brings the given messages. -/
def readingDialogue (stations : List NlAttrs) : WifiTranscript :=
  [⟨.nlmsgAlloc, true⟩, ⟨.nlRequest .getInterface, some ⟨[], [], .done⟩⟩, ⟨.nlmsgAlloc, true⟩,
    ⟨.nlRequest (.getStation 3), some ⟨[], stations, .done⟩⟩]

theorem exists_readingDialogue {stations : List NlAttrs} {s : WifiSoftc} (k : LinkReading)
    (hfold : stations.foldlM wifiHalConnectionInfoHdlr linkedSoftc = some s) :
    ∃ r, After (k.get .standard linkedSoftc 0) (readingDialogue stations) (ret r) := by
  have hlisted : After (wifiHalGetInterface .standard linkedSoftc)
      [⟨.nlmsgAlloc, true⟩, ⟨.nlRequest .getInterface, some ⟨[], [], .done⟩⟩]
      (ret (linkedSoftc, 0)) := .reply _ (.reply _ (.start _))
  have hstations : After (wifiHalGetStainfo .standard linkedSoftc 0)
      [⟨.nlmsgAlloc, true⟩, ⟨.nlRequest (.getStation 3), some ⟨[], stations, .done⟩⟩]
      (ret (s, 0)) :=
    after_wifiHalGetStainfo_iff.mpr
      (Or.inr (Or.inr ⟨⟨[], stations, .done⟩, s, rfl, hfold, rfl, rfl⟩))
  exact ⟨_, after_get_iff.mpr ⟨_, _, _, _, rfl, hlisted, hstations, rfl⟩⟩

/-- The signal of a connected station is fresh. -/
theorem connected_fresh : Fresh .standard .rssi linkedSoftc 0 (readingDialogue [stationOf 3 1]) := by
  obtain ⟨r, ht⟩ := exists_readingDialogue .rssi
    (show [stationOf 3 1].foldlM wifiHalConnectionInfoHdlr linkedSoftc = some _ from rfl)
  refine (fresh_iff .standard .rssi linkedSoftc 0 _ r (by decide) (by decide) ⟨3, rfl⟩ ht).mpr ?_
  exact ⟨(3, stationOf 3 1), List.mem_cons_self, rfl⟩

/-- Not every reading is fresh: a link that is down has the signal it had when it was up. -/
theorem not_all_fresh : ¬ ∀ (nl : Netlink.Libnl NlAttrs) (k : LinkReading) (sc₀ : WifiSoftc)
    (i : Slot) (t : WifiTranscript) (r : WifiSoftc × ℤ), i.val < sc₀.radioAmount →
    sc₀.radioAmount ≤ wifiRadioMax → (∃ index : BitVec 32, sc₀.ifindex i = index.toInt) →
    After (k.get nl sc₀ i) t (ret r) → Fresh nl k sc₀ i t := by
  intro h
  obtain ⟨r, ht⟩ := exists_readingDialogue .rssi
    (show [].foldlM wifiHalConnectionInfoHdlr linkedSoftc = some _ from rfl)
  have hfresh := h .standard .rssi linkedSoftc 0 _ r (by decide) (by decide) ⟨3, rfl⟩ ht
  exact not_fresh (by decide) (by decide) ⟨3, rfl⟩ ht (LastWrite.not_writes_nil _) hfresh

end RadioHal.Wifi
