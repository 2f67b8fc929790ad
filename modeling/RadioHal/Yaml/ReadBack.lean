import Mathlib.Data.List.Induction
import RadioHal.Yaml.Config

/-!
# Configured strings, read back

What a reader of a configuration expects of a string field is a small store: the field holds the
last value given for its key that fits, and an unfitting value changes nothing.  The code keeps
a `char` array instead and copies under the guard `strlen(value) - 1 < size`.  The guard is off
at both ends: an empty value makes `strlen(value) - 1` the largest `size_t` and is dropped, and
a value exactly as long as the field is copied without its terminator.

## Main definitions

* `lastFitting n vs` — the expected text of a field of size `n` after the values `vs`.
* `stored n vs` — the array the code leaves.
* `ConfigTable` — a configuration structure with its keys and string fields; `wifiTable` and
  `modemTable` are the two of the repository.
* `ConfigTable.ReadsBack` — every field reads as expected, at every moment.
* `Sound n vs` — the values that stay clear of both ends of the guard.

## Main results

* `text?_stored_iff` — one field reads as expected exactly when its values are `Sound`.
* `configured_strings_read_back_iff` — **the same for all fourteen fields.**
-/

namespace RadioHal

open CLib

/-! ### One field -/

/-- The expected text of a field of size `n`: the last value with room for its terminator. -/
def lastFitting (n : ℕ) (vs : List ConfigValue) : Text :=
  vs.foldl (fun t v => if v.text.length < n then v.text else t) []

/-- The array the code leaves in a zeroed field. -/
def stored (n : ℕ) (vs : List ConfigValue) : CharArray n :=
  vs.foldl (fun a v => storeString a v.text) (CharArray.zero n)

/-- No value is exactly as long as the field, and an empty value comes before every other value
that fits. -/
def Sound (n : ℕ) (vs : List ConfigValue) : Prop :=
  ∀ pre v, pre ++ [v] <+: vs →
    v.text.length ≠ n ∧ (v.text = [] → ∀ w ∈ pre, w.text = [] ∨ n ≤ w.text.length)

theorem lastFitting_concat (n : ℕ) (vs : List ConfigValue) (v : ConfigValue) :
    lastFitting n (vs ++ [v]) = if v.text.length < n then v.text else lastFitting n vs := by
  simp [lastFitting, List.foldl_append]

theorem stored_concat (n : ℕ) (vs : List ConfigValue) (v : ConfigValue) :
    stored n (vs ++ [v]) = storeString (stored n vs) v.text := by
  simp [stored, List.foldl_append]

theorem sound_concat {n : ℕ} {vs : List ConfigValue} {v : ConfigValue} :
    Sound n (vs ++ [v]) ↔ Sound n vs ∧ v.text.length ≠ n ∧
      (v.text = [] → ∀ w ∈ vs, w.text = [] ∨ n ≤ w.text.length) := by
  constructor
  · intro h
    exact ⟨fun pre w hw => h pre w (hw.trans (List.prefix_append _ _)), h vs v (List.prefix_refl _)⟩
  · rintro ⟨hvs, hv⟩ pre w hw
    rcases List.prefix_concat_iff.mp hw with heq | hpre
    · obtain ⟨rfl, h⟩ := List.append_inj' heq rfl
      obtain rfl := List.singleton_inj.mp h
      exact hv
    · exact hvs pre w hpre

/-- An empty value is dropped: `strlen(value) - 1` wraps round. -/
theorem storeString_nil {n : ℕ} (a : CharArray n) (hn : n < 2 ^ 64) : storeString a [] = a := by
  unfold storeString sizeSub
  rw [List.length_nil, if_neg (show ¬1 ≤ 0 by omega), if_neg]
  omega

theorem storeString_of_lt {n : ℕ} (a : CharArray n) {v : Text} (h : n < v.length) :
    storeString a v = a := by
  unfold storeString sizeSub
  rw [if_neg]
  rw [if_pos (by omega)]
  omega

/-- A value that is not empty and at most as long as the field is copied. -/
theorem storeString_of_le {n : ℕ} (a : CharArray n) {v : Text} (hne : v ≠ []) (h : v.length ≤ n) :
    storeString a v = CharArray.strncpy n v := by
  have hpos : 0 < v.length := List.length_pos_iff.mpr hne
  unfold storeString sizeSub
  rw [if_pos]
  rw [if_pos (by omega)]
  omega

/-- Where the values are sound, the expected text is empty only as long as nothing but empty and
unfitting values were given. -/
theorem lastFitting_eq_nil {n : ℕ} {vs : List ConfigValue} (hvs : Sound n vs) :
    lastFitting n vs = [] ↔ ∀ w ∈ vs, w.text = [] ∨ n ≤ w.text.length := by
  induction vs using List.reverseRecOn with
  | nil => simp [lastFitting]
  | append_singleton vs v ih =>
    obtain ⟨hvs, hlen, hempty⟩ := sound_concat.mp hvs
    rw [lastFitting_concat]
    simp only [List.mem_append, List.mem_singleton, or_imp, forall_and, forall_eq]
    by_cases hfit : v.text.length < n
    · rw [if_pos hfit]
      constructor
      · intro hv
        exact ⟨hempty hv, Or.inl hv⟩
      · rintro ⟨-, hv | hv⟩
        · exact hv
        · omega
    · rw [if_neg hfit, ih hvs]
      exact ⟨fun h => ⟨h, Or.inr (by omega)⟩, fun h => h.1⟩

/-- One more value: the field still reads as expected exactly when the value stays clear of both
ends of the guard. -/
theorem text?_stored_concat {n : ℕ} (hn : 0 < n) (hn' : n < 2 ^ 64) {vs : List ConfigValue}
    (hread : (stored n vs).text? = some (lastFitting n vs)) (hvs : Sound n vs) (v : ConfigValue) :
    (stored n (vs ++ [v])).text? = some (lastFitting n (vs ++ [v])) ↔
      v.text.length ≠ n ∧ (v.text = [] → ∀ w ∈ vs, w.text = [] ∨ n ≤ w.text.length) := by
  rw [stored_concat, lastFitting_concat]
  rcases Nat.lt_trichotomy v.text.length n with hlt | heq | hgt
  · by_cases hv : v.text = []
    · -- the empty value is dropped, so the old text must have been empty already
      rw [hv, storeString_nil _ hn', hread]
      simp only [List.length_nil, hn, if_true, Option.some.injEq, forall_const]
      rw [lastFitting_eq_nil hvs]
      exact ⟨fun h => ⟨by omega, h⟩, fun h => h.2⟩
    · rw [storeString_of_le _ hv hlt.le, CharArray.text?_strncpy v.nul_notMem]
      simp only [hlt, if_true, true_iff]
      exact ⟨hlt.ne, fun h => absurd h hv⟩
  · -- the value fills the array and leaves no room for a terminator
    have hv : v.text ≠ [] := by
      rintro h
      rw [h, List.length_nil] at heq
      omega
    rw [storeString_of_le _ hv heq.le, CharArray.text?_strncpy v.nul_notMem,
      if_neg (by omega)]
    exact ⟨fun h => absurd h (by simp), fun h => absurd heq h.1⟩
  · rw [storeString_of_lt _ hgt, if_neg (by omega), hread]
    refine iff_of_true rfl ⟨by omega, fun h => ?_⟩
    rw [h, List.length_nil] at hgt
    omega

/-- **A field reads as expected at every moment exactly when its values are sound.**  Every
beginning of the values is a moment, so one that is not sound shows. -/
theorem text?_stored_iff {n : ℕ} (hn : 0 < n) (hn' : n < 2 ^ 64) (vs : List ConfigValue) :
    (∀ pre, pre <+: vs → (stored n pre).text? = some (lastFitting n pre)) ↔ Sound n vs := by
  induction vs using List.reverseRecOn with
  | nil =>
    refine iff_of_true (fun pre hpre => ?_) (fun pre v h => by simp at h)
    rw [List.prefix_nil.mp hpre]
    exact CharArray.text?_zero hn
  | append_singleton vs v ih =>
    rw [sound_concat, ← ih]
    constructor
    · intro h
      have hvs : ∀ pre, pre <+: vs → (stored n pre).text? = some (lastFitting n pre) :=
        fun pre hpre => h pre (hpre.trans (List.prefix_append _ _))
      exact ⟨hvs, (text?_stored_concat hn hn' (hvs vs (List.prefix_refl _)) (ih.mp hvs) v).mp
        (h _ (List.prefix_refl _))⟩
    · rintro ⟨hvs, hv⟩ pre hpre
      rcases List.prefix_concat_iff.mp hpre with rfl | hpre
      · exact (text?_stored_concat hn hn' (hvs vs (List.prefix_refl _)) (ih.mp hvs) v).mpr hv
      · exact hvs pre hpre

/-- A value that does not fit leaves a field with sound values as it was. -/
theorem stored_concat_of_le {n : ℕ} {vs : List ConfigValue} {v : ConfigValue}
    (h : Sound n (vs ++ [v])) (hv : n ≤ v.text.length) : stored n (vs ++ [v]) = stored n vs := by
  have hne := (sound_concat.mp h).2.1
  rw [stored_concat, storeString_of_lt _ (by omega)]

/-! ### All fields of a structure -/

/-- A configuration structure: its keys `K`, its string fields `F`, and the assignment of one
value.  A string field changes by the values of its own key only. -/
structure ConfigTable (K F C : Type) [DecidableEq K] where
  /-- The size of a field's array. -/
  size : F → ℕ
  /-- The key a field is configured by. -/
  keyOf : F → K
  /-- The array of a field. -/
  array : (f : F) → C → CharArray (size f)
  /-- The structure filled with zeros. -/
  zero : C
  /-- One key and one value. -/
  assign : C → K → Text → C
  size_pos : ∀ f, 0 < size f
  size_lt : ∀ f, size f < 2 ^ 64
  array_zero : ∀ f, array f zero = CharArray.zero (size f)
  array_assign : ∀ f c k v,
    array f (assign c k v) = if k = keyOf f then storeString (array f c) v else array f c

namespace ConfigTable

variable {K F C : Type} [DecidableEq K] (T : ConfigTable K F C)

/-- The pairs of a file, applied in order to the zeroed structure. -/
def apply (pairs : List (K × ConfigValue)) : C :=
  pairs.foldl (fun c p => T.assign c p.1 p.2.text) T.zero

/-- The values given for the key of `f`. -/
def valuesFor (f : F) (pairs : List (K × ConfigValue)) : List ConfigValue :=
  pairs.filterMap fun p => if p.1 = T.keyOf f then some p.2 else none

/-- At every moment every string field reads as the last fitting value of its key, so that no
reading runs past the array, and a value that does not fit leaves the array as it was. -/
structure ReadsBack (pairs : List (K × ConfigValue)) : Prop where
  reads : ∀ f pre, pre <+: pairs →
    (T.array f (T.apply pre)).text? = some (lastFitting (T.size f) (T.valuesFor f pre))
  keeps : ∀ f pre v, pre ++ [(T.keyOf f, v)] <+: pairs → T.size f ≤ v.text.length →
    T.array f (T.apply (pre ++ [(T.keyOf f, v)])) = T.array f (T.apply pre)

/-- A field's array is what the values of its own key leave. -/
theorem array_apply (f : F) (pairs : List (K × ConfigValue)) :
    T.array f (T.apply pairs) = stored (T.size f) (T.valuesFor f pairs) := by
  induction pairs using List.reverseRecOn with
  | nil => exact T.array_zero f
  | append_singleton pairs p ih =>
    have happly : T.apply (pairs ++ [p]) = T.assign (T.apply pairs) p.1 p.2.text := by
      simp [apply, List.foldl_append]
    rw [happly, T.array_assign, ih]
    by_cases hk : p.1 = T.keyOf f
    · have hvals : T.valuesFor f (pairs ++ [p]) = T.valuesFor f pairs ++ [p.2] := by
        simp [valuesFor, List.filterMap_append, hk]
      rw [if_pos hk, hvals, stored_concat]
    · have hvals : T.valuesFor f (pairs ++ [p]) = T.valuesFor f pairs := by
        simp [valuesFor, List.filterMap_append, hk]
      rw [if_neg hk, hvals]

/-- **The fields read back exactly when the values of each key are sound for its field.** -/
theorem readsBack_iff (pairs : List (K × ConfigValue)) :
    T.ReadsBack pairs ↔ ∀ f, Sound (T.size f) (T.valuesFor f pairs) := by
  constructor
  · intro h f
    rw [← text?_stored_iff (T.size_pos f) (T.size_lt f)]
    intro vs hvs
    obtain ⟨pre, hpre, rfl⟩ := List.prefix_filterMap_iff.mp hvs
    have := h.reads f pre hpre
    rwa [T.array_apply] at this
  · intro h
    have hpre : ∀ f pre, pre <+: pairs → T.valuesFor f pre <+: T.valuesFor f pairs :=
      fun f pre hp => List.IsPrefix.filterMap _ hp
    refine ⟨fun f pre hp => ?_, fun f pre v hp hv => ?_⟩
    · rw [T.array_apply]
      exact (text?_stored_iff (T.size_pos f) (T.size_lt f) _).mpr (h f) _ (hpre f pre hp)
    · have hvals : T.valuesFor f (pre ++ [(T.keyOf f, v)]) = T.valuesFor f pre ++ [v] := by
        simp [valuesFor, List.filterMap_append]
      have hsound : Sound (T.size f) (T.valuesFor f pre ++ [v]) := by
        intro l w hl
        have := hpre f _ hp
        rw [hvals] at this
        exact h f l w (hl.trans this)
      rw [T.array_apply, T.array_apply, hvals, stored_concat_of_le hsound hv]

end ConfigTable

/-! ### The two structures of the repository -/

/-- `struct wifi_config` with `radio_hal_yaml_wifi_config`, as a table of string fields. -/
def wifiTable : ConfigTable WifiKey WifiString WifiConfig where
  size := WifiString.size
  keyOf := WifiString.keyOf
  array := WifiString.array
  zero := WifiConfig.zero
  assign c k v := radioHalYamlWifiConfig c k.name v
  size_pos f := by cases f <;> decide
  size_lt f := by cases f <;> decide
  array_zero f := by cases f <;> rfl
  array_assign f c k v := by
    rw [radioHalYamlWifiConfig_name]
    exact f.array_assign c k v

/-- `struct modem_config` with `radio_hal_yaml_modem_config`, as a table of string fields. -/
def modemTable : ConfigTable ModemKey ModemString ModemConfig where
  size := ModemString.size
  keyOf := ModemString.keyOf
  array := ModemString.array
  zero := ModemConfig.zero
  assign c k v := radioHalYamlModemConfig c k.name v
  size_pos f := by cases f <;> decide
  size_lt f := by cases f <;> decide
  array_zero f := by cases f <;> rfl
  array_assign f c k v := by
    rw [radioHalYamlModemConfig_name]
    exact f.array_assign c k v

/-- **Configured strings read back exactly when, key by key, no value is as long as its field
and no empty value follows a fitting one.** -/
theorem configured_strings_read_back_iff (wifi : List (WifiKey × ConfigValue))
    (modem : List (ModemKey × ConfigValue)) :
    (wifiTable.ReadsBack wifi ↔
      ∀ f, Sound (wifiTable.size f) (wifiTable.valuesFor f wifi)) ∧
    (modemTable.ReadsBack modem ↔
      ∀ f, Sound (modemTable.size f) (modemTable.valuesFor f modem)) :=
  ⟨wifiTable.readsBack_iff wifi, modemTable.readsBack_iff modem⟩

/-- A network name of 32 characters, the most the structure is documented to take. -/
def ssidOf32 : ConfigValue := ⟨List.replicate 32 'a', List.all_eq_true.mp rfl⟩

/-- The longest documented network name leaves its field without a terminator. -/
theorem ssid_of_32_not_read_back : ¬ wifiTable.ReadsBack [(.ssid, ssidOf32)] := by
  intro h
  exact absurd (h.reads .ssid _ (List.prefix_refl _)) (by decide)

end RadioHal
