import RadioHal.Yaml.Independence

/-!
# The keys that have an effect

A key of a configuration file is remembered in a buffer of sixteen bytes, and compared with the
documented keys by its beginning.  A key too long for the buffer is dropped, but one that fits it
and goes on behind a documented key is taken for that key.

## Main definitions

* `documentedKeys` — the keys of a radio type.
* `pairTokens` — the tokens of a key and its value.
* `KeptBut` — two configurations differ in the field of one key at most.
* `OwnFieldOnly` — a key changes the field it is documented for, and nothing else.
* `KeyInOrder` — the key is documented, too long, or begins like no documented key.

## Main results

* `conf_of_pair` — what a pair does to the configurations.
* `own_field_only_iff` — **only keys in order have no other effect than the documented one.**
-/

namespace RadioHal

open CLib

/-! ### Documented keys -/

/-- The keys of `wifi_example_0.yaml` and `modem_example.yaml`. -/
def documentedKeys : RadioType → List Text
  | .wifi => WifiKey.order.map WifiKey.name
  | .bt => []
  | .ieee802154 => []
  | .modem => ModemKey.order.map ModemKey.name
  | .max => []

/-- A text reaches a branch as soon as it begins like a documented key. -/
theorem WifiKey.matched_eq_none_iff {text : Text} :
    WifiKey.matched text = none ↔ ∀ name ∈ documentedKeys .wifi, ¬ name <+: text := by
  simp [WifiKey.matched, documentedKeys, strStarts]

theorem ModemKey.matched_eq_none_iff {text : Text} :
    ModemKey.matched text = none ↔ ∀ name ∈ documentedKeys .modem, ¬ name <+: text := by
  simp [ModemKey.matched, documentedKeys, strStarts]

/-- Documented keys fit the buffer, and no terminator is among their characters. -/
theorem rememberedKey_of_documented {radio : RadioType} {name : Text}
    (h : name ∈ documentedKeys radio) : rememberedKey name = name ∧ NUL ∉ name := by
  cases radio with
  | wifi => revert name; decide
  | modem => revert name; decide
  | bt => exact absurd h List.not_mem_nil
  | ieee802154 => exact absurd h List.not_mem_nil
  | max => exact absurd h List.not_mem_nil

/-! ### One pair -/

/-- The tokens of a key and its value. -/
def pairTokens (raw : Text) (v : ConfigValue) : List YamlToken :=
  [.key, .scalar raw, .value, .scalar v.text]

/-- **A pair stores its value for the key that is remembered.**  This is the key of the pair, or
nothing if it does not fit `temp_key`. -/
theorem conf_of_pair (radio : RadioType) (index : ℕ) (st : ParseState) (raw : Text)
    (v : ConfigValue) : ∃ st', onTokens radio index st (pairTokens raw v) = .ok st' ∧
      st'.conf = storeValue radio index (rememberedKey raw) v.text st.conf := by
  have hgood : radioHalYamlInputValidation (cstr v.text) ≠ 0 := by
    rw [cstr_eq_self v.nul_notMem]
    exact radioHalYamlInputValidation_ne_zero.mpr v.allowed
  have hvalue : onToken radio index ⟨false, rememberedKey raw, st.conf⟩ (.scalar v.text) =
      .ok ⟨false, rememberedKey raw,
        storeValue radio index (rememberedKey raw) (cstr v.text) st.conf⟩ :=
    onToken_scalar_value rfl hgood
  refine ⟨⟨false, rememberedKey raw, storeValue radio index (rememberedKey raw) v.text st.conf⟩,
    ?_, rfl⟩
  show onTokens radio index ⟨false, rememberedKey raw, st.conf⟩ [.scalar v.text] = _
  rw [onTokens, hvalue, cstr_eq_self v.nul_notMem]
  rfl

/-- The configurations agree but for the field of the key `name`. -/
structure KeptBut (name : Text) (conf conf' : ConfStruct) : Prop where
  wifi : ∀ (k : WifiKey) i, k.name ≠ name → k.field (conf'.wifi i) = k.field (conf.wifi i)
  phy : ∀ i, (conf'.wifi i).phy = (conf.wifi i).phy
  modem : ∀ (f : ModemString) i, f.keyOf.name ≠ name →
    f.array (conf'.modem i) = f.array (conf.modem i)

/-- Whatever value it comes with, the key changes nothing, or it is documented and changes the
field it is documented for. -/
def OwnFieldOnly (radio : RadioType) (raw : Text) : Prop :=
  ∀ (index : ℕ) (st : ParseState) (v : ConfigValue),
    ∃ st', onTokens radio index st (pairTokens raw v) = .ok st' ∧
      (st'.conf = st.conf ∨ raw ∈ documentedKeys radio ∧ KeptBut raw st.conf st'.conf)

/-- The key is documented, or too long for the buffer, or begins like no documented key. -/
def KeyInOrder (radio : RadioType) (raw : Text) : Prop :=
  raw ∈ documentedKeys radio ∨ tempKeySize ≤ (cstr raw).length ∨
    ∀ name ∈ documentedKeys radio, ¬ name <+: raw

instance (radio : RadioType) (raw : Text) : Decidable (KeyInOrder radio raw) :=
  inferInstanceAs (Decidable (_ ∨ _ ∨ _))

/-- A documented key begins a text exactly when it begins what a C string keeps of it. -/
theorem documented_prefix_iff {radio : RadioType} {name : Text} (h : name ∈ documentedKeys radio)
    (raw : Text) : name <+: cstr raw ↔ name <+: raw := by
  have hnul := (rememberedKey_of_documented h).2
  constructor
  · intro hpre
    exact hpre.trans (List.takeWhile_prefix _)
  · rintro ⟨rest, rfl⟩
    -- the text goes on behind the name, where a terminator cuts it
    rw [cstr_append hnul]
    exact List.prefix_append _ _

/-- A key in order that is not documented is remembered as one that begins like no documented
key. -/
theorem not_prefix_rememberedKey {radio : RadioType} {raw : Text} (h : KeyInOrder radio raw)
    (hraw : raw ∉ documentedKeys radio) :
    ∀ name ∈ documentedKeys radio, ¬ name <+: rememberedKey raw := by
  intro name hname hpre
  have hne : name ≠ [] := by
    rintro rfl
    cases radio <;> exact absurd hname (by decide)
  unfold rememberedKey at hpre
  split at hpre
  · next hlen =>
    rcases h.resolve_left hraw with hlong | hnone
    · omega
    · exact hnone name hname ((documented_prefix_iff hname raw).mp hpre)
  · exact hne (List.prefix_nil.mp hpre)

/-! ### What a key in order does -/

/-- A key that begins like no documented key stores nothing. -/
theorem storeValue_of_not_prefix {radio : RadioType} {tempKey : Text}
    (h : ∀ name ∈ documentedKeys radio, ¬ name <+: tempKey) (index : ℕ) (value : Text)
    (conf : ConfStruct) : storeValue radio index tempKey value conf = conf := by
  cases radio with
  | wifi =>
    rcases Nat.lt_or_ge index wifiRadioMax with hindex | hindex
    · rw [storeValue_wifi hindex, radioHalYamlWifiConfig_eq, WifiKey.matched_eq_none_iff.mpr h]
      simp
    · exact storeValue_wifi_of_le hindex tempKey value conf
  | modem =>
    rcases Nat.lt_or_ge index radioOneRadioSupport with hindex | hindex
    · rw [storeValue_modem hindex, radioHalYamlModemConfig_eq, ModemKey.matched_eq_none_iff.mpr h]
      simp
    · exact storeValue_modem_of_le hindex tempKey value conf
  | bt => rfl
  | ieee802154 => rfl
  | max => rfl

/-- A documented key changes the field it is documented for. -/
theorem keptBut_storeValue {radio : RadioType} {name : Text} (h : name ∈ documentedKeys radio)
    (index : ℕ) (value : Text) (conf : ConfStruct) :
    KeptBut name conf (storeValue radio index name value conf) := by
  have hrefl : KeptBut name conf conf := ⟨fun _ _ _ => rfl, fun _ => rfl, fun _ _ _ => rfl⟩
  cases radio with
  | wifi =>
    obtain ⟨k, -, rfl⟩ := List.mem_map.mp h
    rcases Nat.lt_or_ge index wifiRadioMax with hindex | hindex
    · rw [storeValue_wifi hindex, radioHalYamlWifiConfig_name]
      refine ⟨fun k' i hk => ?_, fun i => ?_, fun f i _ => rfl⟩
      · have hne : k ≠ k' := by
          rintro rfl
          exact hk rfl
        by_cases hi : i = ⟨index, hindex⟩
        · subst hi
          simp [WifiKey.field_assign, hne]
        · simp [hi]
      · by_cases hi : i = ⟨index, hindex⟩
        · subst hi
          simp [WifiKey.phy_assign]
        · simp [hi]
    · rw [storeValue_wifi_of_le hindex]
      exact hrefl
  | modem =>
    obtain ⟨k, -, rfl⟩ := List.mem_map.mp h
    rcases Nat.lt_or_ge index radioOneRadioSupport with hindex | hindex
    · rw [storeValue_modem hindex, radioHalYamlModemConfig_name]
      refine ⟨fun k' i _ => rfl, fun i => rfl, fun f i hf => ?_⟩
      have hne : k ≠ f.keyOf := by
        rintro rfl
        exact hf rfl
      by_cases hi : i = ⟨index, hindex⟩
      · subst hi
        simp [ModemString.array_assign, hne]
      · simp [hi]
    · rw [storeValue_modem_of_le hindex]
      exact hrefl
  | bt => exact hrefl
  | ieee802154 => exact hrefl
  | max => exact hrefl

/-! ### What another key does -/

/-- A configuration with nothing in its fields that the value `0` would leave there. -/
def fullWifi : WifiConfig :=
  ⟨true, 1, 0, .strncpy 64 ['a'], .strncpy 64 ['a'], .strncpy 32 ['a'], .strncpy 8 ['a'],
    .strncpy 18 ['a'], .strncpy 3 ['a'], .strncpy 6 ['a'], .strncpy 4 ['a'], .strncpy 6 ['a'],
    1, 1, .strncpy 5 ['a'], .strncpy 5 ['a'], 1⟩

/-- The value `0`, which shows in every field that holds something else. -/
def zeroValue : ConfigValue := ⟨['0'], List.all_eq_true.mp (by decide)⟩

theorem WifiKey.assign_fullWifi_ne (k : WifiKey) : k.assign fullWifi zeroValue.text ≠ fullWifi := by
  cases k <;> decide

theorem ModemKey.assign_zero_ne (k : ModemKey) : k.assign .zero zeroValue.text ≠ .zero := by
  cases k <;> decide

/-- **A text that begins like a documented key can change a configuration.**  For the comparison
goes over the length of the documented key. -/
theorem exists_storeValue_ne {radio : RadioType} {name tempKey : Text}
    (h : name ∈ documentedKeys radio) (hpre : name <+: tempKey) :
    ∃ conf, storeValue radio 0 tempKey zeroValue.text conf ≠ conf := by
  cases radio with
  | wifi =>
    have hsome : WifiKey.matched tempKey ≠ none := by
      intro hnone
      exact WifiKey.matched_eq_none_iff.mp hnone name h hpre
    obtain ⟨k, hk⟩ := Option.ne_none_iff_exists'.mp hsome
    refine ⟨⟨fun _ => fullWifi, fun _ => .zero⟩, fun heq => k.assign_fullWifi_ne ?_⟩
    have hslot := congrFun (congrArg ConfStruct.wifi heq) 0
    rw [storeValue_wifi (by decide), radioHalYamlWifiConfig_eq, hk] at hslot
    simpa using hslot
  | modem =>
    have hsome : ModemKey.matched tempKey ≠ none := by
      intro hnone
      exact ModemKey.matched_eq_none_iff.mp hnone name h hpre
    obtain ⟨k, hk⟩ := Option.ne_none_iff_exists'.mp hsome
    refine ⟨⟨fun _ => fullWifi, fun _ => .zero⟩, fun heq => k.assign_zero_ne ?_⟩
    have hslot := congrFun (congrArg ConfStruct.modem heq) 0
    rw [storeValue_modem (by decide), radioHalYamlModemConfig_eq, hk] at hslot
    simpa using hslot
  | bt => exact absurd h List.not_mem_nil
  | ieee802154 => exact absurd h List.not_mem_nil
  | max => exact absurd h List.not_mem_nil

/-- **A key has no other effect than the documented one exactly when it is documented, does not fit
the buffer, or begins like no documented key.** -/
theorem own_field_only_iff (radio : RadioType) (raw : Text) :
    OwnFieldOnly radio raw ↔ KeyInOrder radio raw := by
  constructor
  · intro h
    by_contra hout
    unfold KeyInOrder at hout
    push Not at hout
    obtain ⟨hraw, hlen, name, hname, hpre⟩ := hout
    have hkey : name <+: rememberedKey raw := by
      unfold rememberedKey
      rw [if_pos hlen]
      exact (documented_prefix_iff hname raw).mpr hpre
    -- the value `0` shows in a configuration where the field holds something else
    obtain ⟨conf, hne⟩ := exists_storeValue_ne hname hkey
    obtain ⟨st', hst', heffect⟩ := h 0 ⟨false, [], conf⟩ zeroValue
    obtain ⟨st₁, hst₁, hconf⟩ := conf_of_pair radio 0 ⟨false, [], conf⟩ raw zeroValue
    obtain rfl : st' = st₁ := Except.ok.inj (hst'.symm.trans hst₁)
    rcases heffect with hsame | ⟨hdoc, -⟩
    · exact hne (hconf.symm.trans hsame)
    · exact hraw hdoc
  · intro h index st v
    obtain ⟨st', hst', hconf⟩ := conf_of_pair radio index st raw v
    refine ⟨st', hst', ?_⟩
    rw [hconf]
    by_cases hraw : raw ∈ documentedKeys radio
    · right
      rw [(rememberedKey_of_documented hraw).1]
      exact ⟨hraw, keptBut_storeValue hraw index v.text st.conf⟩
    · left
      exact storeValue_of_not_prefix (not_prefix_rememberedKey h hraw) index v.text st.conf

/-- Not every key is in order: the text of a key that only begins like `ssid` becomes the network
name. -/
theorem not_all_keys_in_order : ¬ ∀ (radio : RadioType) (raw : Text), OwnFieldOnly radio raw := by
  intro h
  exact absurd ((own_field_only_iff .wifi "ssid_hidden".toList).mp (h _ _)) (by decide)

end RadioHal
