import Mathlib.Order.Bounds.Defs
import RadioHal.Lib.Numbers
import RadioHal.Wifi.Nl80211

/-!
# Configured numbers on the wire

The distance and the transmission power are numbers of a configuration file.  They pass `strtol`,
which saturates, a cast to `int`, which wraps round, and the arithmetic of the set operations, and
then they go to the kernel.

## Main definitions

* `SetsCoverageClass` — what is expected of `wifi_hal_set_distance` for a distance.
* `DistanceInOrder` — the distances for which it does that.
* `SendsPower` — what is expected of `wifi_hal_set_txpower` for the text of a power.

## Main results

* `coverageClass_le_iff` — which distances pass the check of the coverage class.
* `distance_set_iff` — **the coverage class is right exactly for the distances in order.**
* `power_sent_iff` — **the power sent is the one configured exactly when the text is a number whose
  hundredfold fits.**
-/

namespace RadioHal.Wifi

open CLib Dialogue

/-! ### Distances -/

/-- A distance as it is stored in the configuration. -/
theorem distance_configured (c : WifiConfig) {v : Text} {d : ℤ} (h : Denotes v d) :
    (radioHalYamlWifiConfig c "distance".toList v).distance = toInt (clampLong d) := by
  have hstored : (radioHalYamlWifiConfig c "distance".toList v).distance = storeInt v :=
    congrArg WifiConfig.distance (radioHalYamlWifiConfig_name c .distance v)
  rw [hstored, storeInt, strtol_of_denotes h]

/-- The largest distance that has a coverage class. -/
def maxDistance : ℤ := 114750

/-- Without an overflow, the class passes its check from two classes below zero on. -/
theorem coverageClass_le_iff {d : ℤ} (h : FitsInt (d + 449)) :
    coverageClass d ≤ 255 ↔ -898 ≤ d ∧ d ≤ maxDistance := by
  unfold coverageClass maxDistance
  rw [toInt_eq_self_iff.mpr h, Int.tdiv_eq_ediv]
  unfold FitsInt at h
  split
  · omega
  · rw [Int.sign_eq_one_of_pos (by decide)]
    omega

/-- The class of a distance that has one is the distance in steps of 450, rounded up. -/
theorem isLeast_coverageClass {d : ℤ} (h₀ : 0 ≤ d) (hmax : d ≤ maxDistance) :
    IsLeast {c : ℕ | d ≤ 450 * c} (coverageClass d) := by
  unfold maxDistance at hmax
  have hfits : FitsInt (d + 449) := by
    unfold FitsInt
    omega
  have hclass : coverageClass d = ((d + 449) / 450).toNat := by
    unfold coverageClass
    rw [toInt_eq_self_iff.mpr hfits, Int.tdiv_eq_ediv, if_pos (Or.inl (by omega))]
    omega
  rw [hclass]
  constructor
  · show d ≤ 450 * (((d + 449) / 450).toNat : ℤ)
    omega
  · intro c hc
    have hc' : d ≤ 450 * (c : ℤ) := hc
    omega

/-- What is expected of `wifi_hal_set_distance` for a distance of `d` metres: the class of a
distance that has one is handed to the kernel, behind the allocation of the message, and for any
other distance nothing is. -/
structure SetsCoverageClass (nl : Netlink.Libnl NlAttrs) (sc : WifiSoftc) (index : Slot)
    (config : WifiConfig) (d : ℤ) : Prop where
  no_overflow : FitsInt (config.distance + 449)
  sends : 0 ≤ d → d ≤ maxDistance → ∃ c, IsLeast {c : ℕ | d ≤ 450 * c} c ∧
    After (wifiHalSetDistance nl sc index config) [⟨.nlmsgAlloc, true⟩]
      (nlSet nl (.setCoverageClass (toInt (strtol (sc.phyname index)).value) c))
  refuses : ¬ (0 ≤ d ∧ d ≤ maxDistance) →
    OnlyAsks (fun q => ∀ request, q ≠ .nlRequest request)
        (wifiHalSetDistance nl sc index config) ∧
      Yields (· ≠ 0) (wifiHalSetDistance nl sc index config)

/-- The number of the phy, in front of its name. -/
def ValidPhyname (sc : WifiSoftc) (index : Slot) : Prop :=
  (strtol (sc.phyname index)).converted = true ∧ (strtol (sc.phyname index)).erange = false

instance (sc : WifiSoftc) (index : Slot) : Decidable (ValidPhyname sc index) :=
  inferInstanceAs (Decidable (_ ∧ _))

/-- The distance has a class, or what is left of it in an `int` is so far outside that it is
refused, without an overflow. -/
def DistanceInOrder (d : ℤ) : Prop :=
  (0 ≤ d ∧ d ≤ maxDistance) ∨ toInt (clampLong d) < -898 ∨
    (maxDistance < toInt (clampLong d) ∧ toInt (clampLong d) < 2 ^ 31 - 449)

section Distance

variable {nl : Netlink.Libnl NlAttrs} {sc : WifiSoftc} {index : Slot} {config : WifiConfig}

/-- With a valid phy name, only the class is checked. -/
theorem wifiHalSetDistance_eq (hphy : ValidPhyname sc index) :
    wifiHalSetDistance nl sc index config = ask .nlmsgAlloc fun allocated : Bool =>
      if allocated = false then ret (-12)
      else if 255 < coverageClass config.distance then ret (-1)
      else nlSet nl (.setCoverageClass (toInt (strtol (sc.phyname index)).value)
        (coverageClass config.distance)) := by
  have hrange : ¬ (strtol (sc.phyname index)).erange = true := by simp [hphy.2]
  have hconv : ¬ (strtol (sc.phyname index)).converted = false := by simp [hphy.1]
  unfold wifiHalSetDistance
  rw [query_bind]
  refine congrArg (ask WifiQ.nlmsgAlloc) (funext fun allocated => ?_)
  dsimp only
  rw [if_neg hrange, if_neg hconv]
  rfl

/-- A class that passes its check is handed to the kernel. -/
theorem after_wifiHalSetDistance (hphy : ValidPhyname sc index)
    (h : coverageClass config.distance ≤ 255) :
    After (wifiHalSetDistance nl sc index config) [⟨.nlmsgAlloc, true⟩]
      (nlSet nl (.setCoverageClass (toInt (strtol (sc.phyname index)).value)
        (coverageClass config.distance))) := by
  rw [wifiHalSetDistance_eq hphy]
  refine .reply _ ?_
  rw [if_neg (by simp), if_neg (by omega)]
  exact .start _

/-- A class that does not pass its check goes nowhere. -/
theorem wifiHalSetDistance_refuses (hphy : ValidPhyname sc index)
    (h : 255 < coverageClass config.distance) :
    OnlyAsks (fun q => ∀ request, q ≠ .nlRequest request)
        (wifiHalSetDistance nl sc index config) ∧
      Yields (· ≠ 0) (wifiHalSetDistance nl sc index config) := by
  rw [wifiHalSetDistance_eq hphy]
  constructor
  · refine ⟨fun request => by simp, ?_⟩
    intro allocated
    rw [if_pos h]
    cases allocated <;> exact onlyAsks_ret _
  · intro allocated
    rw [if_pos h]
    cases allocated with
    | false => exact (by decide : (-12 : ℤ) ≠ 0)
    | true => exact (by decide : (-1 : ℤ) ≠ 0)

/-- A distance is handled as expected exactly when its stored number is, and is the distance
itself where the distance has a class. -/
theorem setsCoverageClass_iff (hphy : ValidPhyname sc index) {d : ℤ}
    (hstored : config.distance = toInt (clampLong d)) :
    SetsCoverageClass nl sc index config d ↔ DistanceInOrder d := by
  have hfits : FitsInt config.distance := by
    rw [hstored]
    exact fitsInt_toInt _
  -- a distance that has a class is stored as it is
  have hkept : 0 ≤ d → d ≤ maxDistance → config.distance = d := by
    intro h₀ hmax
    rw [hstored]
    apply toInt_clampLong
    unfold FitsInt
    unfold maxDistance at hmax
    omega
  unfold FitsInt at hfits
  unfold DistanceInOrder
  rw [← hstored]
  constructor
  · intro h
    by_cases hclass : 0 ≤ d ∧ d ≤ maxDistance
    · exact Or.inl hclass
    · have hover := h.no_overflow
      -- a class that passes would be handed to the kernel
      have hrefused : ¬ coverageClass config.distance ≤ 255 := by
        intro hle
        have hasks := (h.refuses hclass).1
        rw [wifiHalSetDistance_eq hphy] at hasks
        have hsent := hasks.2 true
        dsimp only at hsent
        rw [if_neg (by simp), if_neg (by omega)] at hsent
        exact hsent.1 _ rfl
      rw [coverageClass_le_iff hover] at hrefused
      unfold FitsInt at hover
      omega
  · intro h
    have hover : FitsInt (config.distance + 449) := by
      rcases h with ⟨h₀, hmax⟩ | h
      · rw [hkept h₀ hmax]
        unfold FitsInt
        unfold maxDistance at hmax
        omega
      · unfold FitsInt
        omega
    refine ⟨hover, ?_, ?_⟩
    · intro h₀ hmax
      refine ⟨coverageClass config.distance, ?_, after_wifiHalSetDistance hphy ?_⟩
      · rw [hkept h₀ hmax]
        exact isLeast_coverageClass h₀ hmax
      · rw [coverageClass_le_iff hover, hkept h₀ hmax]
        omega
    · intro hclass
      apply wifiHalSetDistance_refuses hphy
      have hout := h.resolve_left hclass
      by_contra hle
      have := (coverageClass_le_iff hover).mp (by omega)
      omega

end Distance

/-- **A configured distance is handed to the kernel as its coverage class, or refused, exactly when
it has a class or what an `int` keeps of it is far enough outside.** -/
theorem distance_set_iff (nl : Netlink.Libnl NlAttrs) (sc : WifiSoftc) (index : Slot)
    (c : WifiConfig) (v : Text) (d : ℤ) (hv : Denotes v d) (hphy : ValidPhyname sc index) :
    SetsCoverageClass nl sc index (radioHalYamlWifiConfig c "distance".toList v) d ↔
      DistanceInOrder d :=
  setsCoverageClass_iff hphy (distance_configured c hv)

/-- The state behind the attach, in which the first radio is on `phy0`. -/
def phyZero : WifiSoftc := { wifiHalAttach with phyname := fun _ => "0".toList }

/-- A distance of one kilometre is handled as expected. -/
theorem kilometre_set : SetsCoverageClass .standard phyZero 0
    (radioHalYamlWifiConfig .zero "distance".toList "1000".toList) 1000 :=
  (distance_set_iff .standard phyZero 0 .zero "1000".toList 1000
    ⟨.none, "1000".toList, by decide, List.all_eq_true.mp (by decide), rfl, by decide⟩
    (by decide)).mpr (Or.inl (by decide))

/-- Not every distance is: one metre below zero is handed to the kernel as coverage class zero. -/
theorem not_all_distances_set : ¬ ∀ (nl : Netlink.Libnl NlAttrs) (sc : WifiSoftc) (index : Slot)
    (c : WifiConfig) (v : Text) (d : ℤ), Denotes v d → ValidPhyname sc index →
      SetsCoverageClass nl sc index (radioHalYamlWifiConfig c "distance".toList v) d := by
  intro h
  have hbelow := h .standard phyZero 0 .zero "-1".toList (-1)
    ⟨.minus, "1".toList, by decide, List.all_eq_true.mp (by decide), rfl, by decide⟩ (by decide)
  have hasks := (hbelow.refuses (by decide)).1
  exact (hasks.2 true).1 _ rfl

/-! ### Transmission power -/

/-- What is expected of `wifi_hal_set_txpower` for the text `v`: a level it hands to the kernel is
the hundredfold of the number the text stands for. -/
def SendsPower (nl : Netlink.Libnl NlAttrs) (sc : WifiSoftc) (index : Slot) (config : WifiConfig)
    (v : Text) : Prop :=
  OnlyAsks (fun q => ∀ ifindex level, q = .nlRequest (.setTxPowerLimited ifindex level) →
    ∃ p, Denotes v p ∧ level = 100 * p) (wifiHalSetTxpower nl sc index config)

/-- A power as it is stored in the configuration. -/
theorem txPower_configured (c : WifiConfig) (v : Text) :
    (radioHalYamlWifiConfig c "tx_power".toList v).txPower = storeInt v :=
  congrArg WifiConfig.txPower (radioHalYamlWifiConfig_name c .txPower v)

/-- The operation hands on one level, whatever it is. -/
theorem sendsPower_iff_level (nl : Netlink.Libnl NlAttrs) (sc : WifiSoftc) (index : Slot)
    (config : WifiConfig) (v : Text) : SendsPower nl sc index config v ↔
      ∃ p, Denotes v p ∧ toInt (config.txPower * 100) = 100 * p := by
  have hwaits : ∀ a : KernelAnswer, OnlyAsks (fun q => ∀ ifindex level,
      q = .nlRequest (.setTxPowerLimited ifindex level) → ∃ p, Denotes v p ∧ level = 100 * p)
      (nlRecvmsgs nl setCb a () >>= fun _ => ret (0 : ℤ)) := by
    intro a
    rw [nlRecvmsgs_eq]
    cases a.data.foldlM setCb.handle () with
    | none => exact ⟨by simp, fun e => e.elim⟩
    | some s =>
      dsimp only
      split
      · exact onlyAsks_ret _
      · exact ⟨by simp, fun e => e.elim⟩
  constructor
  · intro h
    have hsent := (h.2 true).2 0
    exact hsent.1 0 _ rfl
  · rintro ⟨p, hp, hlevel⟩
    refine ⟨by simp, ?_⟩
    intro allocated
    cases allocated with
    | false => exact onlyAsks_ret _
    | true =>
      refine ⟨by simp, ?_⟩
      intro ifindex
      refine ⟨?_, ?_⟩
      · intro ifindex' level hq
        simp only [WifiQ.nlRequest.injEq, NlRequest.setTxPowerLimited.injEq] at hq
        exact ⟨p, hp, hq.2 ▸ hlevel⟩
      · intro answer
        cases answer with
        | none => exact onlyAsks_ret _
        | some a => exact hwaits a

/-- **The power sent is the configured one exactly when the text is a number of dBm whose
hundredfold fits an `int`.** Any other text is read as far as it is a number, and sent as zero where
it is none. -/
theorem power_sent_iff (nl : Netlink.Libnl NlAttrs) (sc : WifiSoftc) (index : Slot)
    (c : WifiConfig) (v : Text) :
    SendsPower nl sc index (radioHalYamlWifiConfig c "tx_power".toList v) v ↔
      ∃ p, Denotes v p ∧ FitsInt (100 * p) := by
  rw [sendsPower_iff_level, txPower_configured]
  constructor
  · rintro ⟨p, hp, hlevel⟩
    refine ⟨p, hp, ?_⟩
    rw [← hlevel]
    exact fitsInt_toInt _
  · rintro ⟨p, hp, hfits⟩
    refine ⟨p, hp, ?_⟩
    have hstored : storeInt v = p := by
      rw [storeInt, strtol_of_denotes hp]
      apply toInt_clampLong
      unfold FitsInt at hfits ⊢
      omega
    rw [hstored, mul_comm]
    exact toInt_eq_self_iff.mpr hfits

/-- Not every text is: one that is no number at all is sent as a power of 0 dBm. -/
theorem not_all_powers_sent : ¬ ∀ (nl : Netlink.Libnl NlAttrs) (sc : WifiSoftc) (index : Slot)
    (c : WifiConfig) (v : Text),
      SendsPower nl sc index (radioHalYamlWifiConfig c "tx_power".toList v) v := by
  intro h
  obtain ⟨p, ⟨sign, ds, hne, hds, htext, -⟩, -⟩ :=
    (sendsPower_iff_level .standard phyZero 0 _ _).mp (h .standard phyZero 0 .zero "max".toList)
  have hm : 'm' ∈ sign.text ++ ds := by
    rw [← htext]
    decide
  have hsign : 'm' ∉ sign.text := by cases sign <;> decide
  rcases List.mem_append.mp hm with hmem | hmem
  · exact hsign hmem
  · exact absurd (hds 'm' hmem) (by decide)

end RadioHal.Wifi
