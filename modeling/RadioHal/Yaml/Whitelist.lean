import RadioHal.Yaml.Parse

/-!
# Only whitelisted characters are stored

Every value goes through `radio_hal_yaml_input_validation` before it is stored, and the copies
add nothing but terminators.  The configuration slots therefore never hold a character outside
the whitelist, wherever a call stops.

## Main definitions

* `Whitelisted a` — every byte of the array is a terminator or on the whitelist.
* `ConfStruct.Whitelisted` — so is every string field of every slot.

## Main results

* `whitelisted_onToken` — one token keeps the slots whitelisted, also where it ends the call.
* `whitelisted_radioHalYamlConfig` — **the whole call does.**
-/

namespace RadioHal

open CLib

/-- Every byte of the array is a terminator or on the whitelist. -/
def Whitelisted {n : ℕ} (a : CharArray n) : Prop :=
  ∀ c ∈ a.bytes, c = NUL ∨ allowedChar c = true

/-- Every string field of every slot is whitelisted. -/
structure ConfStruct.Whitelisted (conf : ConfStruct) : Prop where
  wifi : ∀ i (f : WifiString), RadioHal.Whitelisted (f.array (conf.wifi i))
  modem : ∀ i (f : ModemString), RadioHal.Whitelisted (f.array (conf.modem i))

theorem whitelisted_zero (n : ℕ) : Whitelisted (CharArray.zero n) :=
  fun _ hc => Or.inl (List.eq_of_mem_replicate hc)

/-! ### One value -/

theorem whitelisted_storeString {n : ℕ} {a : CharArray n} {v : Text} (ha : Whitelisted a)
    (hv : ∀ c ∈ v, allowedChar c = true) : Whitelisted (storeString a v) := by
  unfold storeString
  split
  · intro c hc
    rcases CharArray.mem_bytes_strncpy hc with h | h
    · exact Or.inl h
    · exact Or.inr (hv c h)
  · exact ha

/-- Whatever the key, a good value keeps the string fields of a WiFi slot whitelisted. -/
theorem whitelisted_radioHalYamlWifiConfig {c : WifiConfig} {v : Text} (key : Text)
    (hc : ∀ f : WifiString, Whitelisted (f.array c)) (hv : ∀ x ∈ v, allowedChar x = true)
    (f : WifiString) : Whitelisted (f.array (radioHalYamlWifiConfig c key v)) := by
  rw [radioHalYamlWifiConfig_eq]
  cases WifiKey.matched key with
  | none => exact hc f
  | some k =>
    rw [Option.elim_some, WifiString.array_assign]
    split
    · exact whitelisted_storeString (hc f) hv
    · exact hc f

/-- The same for a slot of the modem. -/
theorem whitelisted_radioHalYamlModemConfig {c : ModemConfig} {v : Text} (key : Text)
    (hc : ∀ f : ModemString, Whitelisted (f.array c)) (hv : ∀ x ∈ v, allowedChar x = true)
    (f : ModemString) : Whitelisted (f.array (radioHalYamlModemConfig c key v)) := by
  rw [radioHalYamlModemConfig_eq]
  cases ModemKey.matched key with
  | none => exact hc f
  | some k =>
    rw [Option.elim_some, ModemString.array_assign]
    split
    · exact whitelisted_storeString (hc f) hv
    · exact hc f

/-- A good value keeps the slots whitelisted, for every radio type and every file. -/
theorem whitelisted_storeValue {radio : RadioType} {index : ℕ} {tempKey v : Text}
    {conf : ConfStruct} (hconf : conf.Whitelisted) (hv : ∀ c ∈ v, allowedChar c = true) :
    (storeValue radio index tempKey v conf).Whitelisted := by
  cases radio with
  | wifi =>
    by_cases h : index < wifiRadioMax
    · rw [storeValue_wifi h]
      refine ⟨fun i f => ?_, hconf.modem⟩
      by_cases hi : i = ⟨index, h⟩
      · subst hi
        dsimp only
        rw [Function.update_self]
        exact whitelisted_radioHalYamlWifiConfig tempKey (hconf.wifi _) hv f
      · dsimp only
        rw [Function.update_of_ne hi]
        exact hconf.wifi i f
    · rw [storeValue_wifi_of_le (Nat.not_lt.mp h)]
      exact hconf
  | modem =>
    by_cases h : index < radioOneRadioSupport
    · rw [storeValue_modem h]
      refine ⟨hconf.wifi, fun i f => ?_⟩
      by_cases hi : i = ⟨index, h⟩
      · subst hi
        dsimp only
        rw [Function.update_self]
        exact whitelisted_radioHalYamlModemConfig tempKey (hconf.modem _) hv f
      · dsimp only
        rw [Function.update_of_ne hi]
        exact hconf.modem i f
    · rw [storeValue_modem_of_le (Nat.not_lt.mp h)]
      exact hconf
  | _ => exact hconf

/-! ### Tokens and files -/

/-- The slots of a state, whether or not the call has ended in it. -/
def slots : Except ParseState ParseState → ConfStruct
  | .ok st => st.conf
  | .error st => st.conf

variable {radio : RadioType} {index : ℕ}

/-- **One token keeps the slots whitelisted**, also where it ends the call.  A value that fails the
check is not stored. -/
theorem whitelisted_onToken (radio : RadioType) (index : ℕ) {st : ParseState}
    (hst : st.conf.Whitelisted) (t : YamlToken) :
    (slots (onToken radio index st t)).Whitelisted := by
  cases t with
  | scalar raw =>
    cases hkey : st.key with
    | true =>
      rw [onToken_scalar_key hkey]
      exact hst
    | false =>
      by_cases hbad : radioHalYamlInputValidation (cstr raw) = 0
      · rw [onToken_scalar_bad hkey hbad]
        exact hst
      · rw [onToken_scalar_value hkey hbad]
        exact whitelisted_storeValue hst (radioHalYamlInputValidation_ne_zero.mp hbad)
  | _ => exact hst

/-- The tokens of a file keep the slots whitelisted. -/
theorem whitelisted_onTokens {ts : List YamlToken} {st : ParseState}
    (hst : st.conf.Whitelisted) : (slots (onTokens radio index st ts)).Whitelisted := by
  induction ts generalizing st with
  | nil => exact hst
  | cons t ts ih =>
    have ht := whitelisted_onToken radio index hst t
    rw [onTokens]
    cases hres : onToken radio index st t with
    | error st' => rw [hres] at ht; exact ht
    | ok st' => rw [hres] at ht; exact ih ht

/-- The files behind position `index` keep the slots whitelisted. -/
theorem whitelisted_configFilesLoop {fopen : Text → Opened} {fuel : ℕ} {names : List Text}
    {st : ParseState} {r : ℤ} {conf : ConfStruct} (hst : st.conf.Whitelisted)
    (h : configFilesLoop fopen radio fuel index names st = some (r, conf)) :
    conf.Whitelisted := by
  induction names generalizing index st with
  | nil =>
    obtain ⟨-, rfl⟩ := Prod.mk.inj (Option.some.inj h)
    exact hst
  | cons name names ih =>
    rw [configFilesLoop] at h
    cases hopen : fopen name with
    | notOpened =>
      rw [hopen] at h
      obtain ⟨-, rfl⟩ := Prod.mk.inj (Option.some.inj h)
      exact hst
    | noParser =>
      rw [hopen] at h
      obtain ⟨-, rfl⟩ := Prod.mk.inj (Option.some.inj h)
      exact hst
    | scanning s =>
      rw [hopen] at h
      dsimp only at h
      cases hloop : Loop.loop (scanBody radio index) fuel (s, st) with
      | none => rw [hloop] at h; exact absurd h (by simp)
      | some out =>
        have hts := (onTokens_of_returns ⟨fuel, hloop⟩).1
        have hout : (slots out).Whitelisted := hts ▸ whitelisted_onTokens hst
        rw [hloop] at h
        cases out with
        | error st' =>
          obtain ⟨-, rfl⟩ := Prod.mk.inj (Option.some.inj h)
          exact hout
        | ok st' => exact ih hout h

/-- **Only whitelisted characters reach the slots**: if all their string fields were whitelisted
before the call, they are whitelisted after it, whatever the files hold and wherever the call
stops. -/
theorem whitelisted_radioHalYamlConfig {fopen : Text → Opened} {fuel : ℕ}
    {confStruct conf : ConfStruct} {configFiles : Text} {r : ℤ} (hconf : confStruct.Whitelisted)
    (h : radioHalYamlConfig fopen fuel confStruct configFiles radio = some (r, conf)) :
    conf.Whitelisted := by
  unfold radioHalYamlConfig at h
  split at h
  · obtain ⟨-, rfl⟩ := Prod.mk.inj (Option.some.inj h)
    exact hconf
  · exact whitelisted_configFilesLoop hconf h

/-- Slots filled with zeros, in which nothing has been stored. -/
def ConfStruct.zero : ConfStruct := ⟨fun _ => .zero, fun _ => .zero⟩

theorem ConfStruct.whitelisted_zero : ConfStruct.zero.Whitelisted :=
  ⟨fun _ f => by cases f <;> exact RadioHal.whitelisted_zero _,
    fun _ f => by cases f <;> exact RadioHal.whitelisted_zero _⟩

/-- A file that gives a country, and then a network name with a blank in it. -/
def ssidFile : Scan :=
  ⟨[.other, .key, .scalar "country".toList, .value, .scalar "FI".toList,
    .key, .scalar "ssid".toList, .value, .scalar "my net".toList], .streamEnd, by decide⟩

/-- The slots it leads to: the country has been stored, and the name has not. -/
def countrySlots : ConfStruct :=
  { ConfStruct.zero with
    wifi := Function.update ConfStruct.zero.wifi ⟨0, by decide⟩
      { WifiConfig.zero with country := CharArray.strncpy 3 "FI".toList } }

/-- The name ends the call with `-1` behind the country, and the slots stay whitelisted. -/
theorem whitelisted_after_bad_value :
    radioHalYamlConfig (fun _ => .scanning ssidFile) 10 .zero "wifi.yaml".toList .wifi =
      some (-1, countrySlots) ∧ countrySlots.Whitelisted := by
  have hrun : radioHalYamlConfig (fun _ => .scanning ssidFile) 10 .zero "wifi.yaml".toList .wifi =
      some (-1, countrySlots) := rfl
  exact ⟨hrun, whitelisted_radioHalYamlConfig ConfStruct.whitelisted_zero hrun⟩

end RadioHal
