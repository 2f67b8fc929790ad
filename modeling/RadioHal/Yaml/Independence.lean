import Mathlib.Data.List.Basic
import RadioHal.Lib.LastWrite
import RadioHal.Yaml.Termination

/-!
# What a configuration file owes to the files before it

Each file of the list has a configuration of its own, but the key flag and the remembered key go
from one file into the next.  Scalars in front of the first key of a file are values for what the
file before has left behind.

## Main definitions

* `WifiKey.field`, `WifiKey.stores` — what a field holds, and what a value puts into it.
* `assigned key tempKey ts` — the values among the tokens, each with the key it is stored for.
* `earlyValues`, `settledPairs` — the values in front of the first key, and the pairs behind it.
* `Settles` — a file gives every key that an early value could be stored for a value of its own.
* `Independent` — what radio `i` gets does not depend on the other files of the list.

## Main results

* `field_applyPairs` — a field holds the last value that was stored for its key.
* `independent_iff` — **a file is independent exactly when it is the first, or it settles.**
-/

namespace RadioHal

open CLib

/-! ### Fields -/

/-- What a field of `struct wifi_config` holds. -/
inductive FieldValue
  | flag (set : Bool)
  | number (v : ℤ)
  | array (bytes : Text)
  deriving DecidableEq

/-- What `strncpy` behind its guard puts into an array, if anything. -/
def arrayValue (n : ℕ) (v : Text) : Option FieldValue :=
  if sizeSub v.length 1 < n then some (.array (CharArray.strncpy n v).bytes) else none

namespace WifiKey

/-- The field that a key is stored in. -/
def field (c : WifiConfig) : WifiKey → FieldValue
  | debug => .flag c.debug
  | apiVersion => .number c.apiVersion
  | ssid => .array c.ssid.bytes
  | key => .array c.key.bytes
  | passphrase => .array c.passphrase.bytes
  | enc => .array c.enc.bytes
  | apMac => .array c.apMacAddr.bytes
  | country => .array c.country.bytes
  | frequency => .array c.freq.bytes
  | bw => .array c.bw.bytes
  | preamble => .array c.preamble.bytes
  | distance => .number c.distance
  | txPower => .number c.txPower
  | mode => .array c.mode.bytes
  | type => .array c.type.bytes
  | meshFwding => .number c.meshFwding

/-- What a value puts into the field of a key: a string has to fit, anything else is stored
whatever it is. -/
def stores (v : Text) : WifiKey → Option FieldValue
  | debug => some (.flag (strStarts v "True".toList))
  | apiVersion => some (.number (storeInt v))
  | ssid => arrayValue 32 v
  | key => arrayValue 64 v
  | passphrase => arrayValue 64 v
  | enc => arrayValue 8 v
  | apMac => arrayValue 18 v
  | country => arrayValue 3 v
  | frequency => arrayValue 6 v
  | bw => arrayValue 4 v
  | preamble => arrayValue 6 v
  | distance => some (.number (storeInt v))
  | txPower => some (.number (storeInt v))
  | mode => arrayValue 5 v
  | type => arrayValue 5 v
  | meshFwding => some (.number (storeInt v))

theorem array_storeString {n : ℕ} (a : CharArray n) (v : Text) :
    FieldValue.array (storeString a v).bytes = (arrayValue n v).getD (.array a.bytes) := by
  unfold storeString arrayValue
  split <;> rfl

/-- **An assignment puts into the field of its key what the value stores**, and leaves the other
fields alone. -/
theorem field_assign (k k' : WifiKey) (c : WifiConfig) (v : Text) :
    k.field (k'.assign c v) = if k' = k then (k.stores v).getD (k.field c) else k.field c := by
  by_cases h : k' = k
  · subst h
    rw [if_pos rfl]
    cases k' <;> first | rfl | exact array_storeString _ v
  · rw [if_neg h]
    cases k <;> cases k' <;> first | rfl | exact absurd rfl h

theorem phy_assign (k : WifiKey) (c : WifiConfig) (v : Text) : (k.assign c v).phy = c.phy := by
  cases k <;> rfl

theorem exists_field_ne (k : WifiKey) (x : FieldValue) : ∃ c, k.field c ≠ x := by
  have htwo : k.field WifiConfig.zero ≠ k.field
      ⟨true, 1, 0, .strncpy 64 ['a'], .strncpy 64 ['a'], .strncpy 32 ['a'], .strncpy 8 ['a'],
        .strncpy 18 ['a'], .strncpy 3 ['a'], .strncpy 6 ['a'], .strncpy 4 ['a'], .strncpy 6 ['a'],
        1, 1, .strncpy 5 ['a'], .strncpy 5 ['a'], 1⟩ := by
    cases k <;> decide
  by_cases hx : k.field WifiConfig.zero = x
  · exact ⟨_, fun h => htwo (hx.trans h.symm)⟩
  · exact ⟨_, hx⟩

end WifiKey

theorem eq_of_array {n : ℕ} {a b : CharArray n}
    (h : FieldValue.array a.bytes = FieldValue.array b.bytes) : a = b := by
  cases a
  cases b
  simpa using h

/-- A configuration is its fields; nothing is ever stored in `phy`. -/
theorem WifiConfig.eq_of_field {c c' : WifiConfig} (hphy : c.phy = c'.phy)
    (h : ∀ k : WifiKey, k.field c = k.field c') : c = c' := by
  cases c
  cases c'
  simp only [WifiConfig.mk.injEq]
  exact ⟨FieldValue.flag.inj (h .debug), FieldValue.number.inj (h .apiVersion), hphy,
    eq_of_array (h .key), eq_of_array (h .passphrase), eq_of_array (h .ssid),
    eq_of_array (h .enc), eq_of_array (h .apMac), eq_of_array (h .country),
    eq_of_array (h .frequency), eq_of_array (h .bw), eq_of_array (h .preamble),
    FieldValue.number.inj (h .distance), FieldValue.number.inj (h .txPower),
    eq_of_array (h .mode), eq_of_array (h .type), FieldValue.number.inj (h .meshFwding)⟩

/-! ### Pairs -/

/-- The pairs of a remembered key and a value, stored one after the other. -/
def applyPairs (c : WifiConfig) (pairs : List (Text × Text)) : WifiConfig :=
  pairs.foldl (fun c p => radioHalYamlWifiConfig c p.1 p.2) c

/-- What a pair writes into the field of `k`. -/
def WifiKey.written (k : WifiKey) (p : Text × Text) : Option FieldValue :=
  if WifiKey.matched p.1 = some k then k.stores p.2 else none

/-- Some pair stores a value for the key. -/
abbrev Sets (k : WifiKey) (pairs : List (Text × Text)) : Prop := LastWrite.Writes k.written pairs

section Pairs

theorem field_radioHalYamlWifiConfig (k : WifiKey) (c : WifiConfig) (p : Text × Text) :
    k.field (radioHalYamlWifiConfig c p.1 p.2) = (k.written p).getD (k.field c) := by
  rw [radioHalYamlWifiConfig_eq]
  unfold WifiKey.written
  cases WifiKey.matched p.1 with
  | none => simp
  | some k' =>
    by_cases h : k' = k
    · simpa [h] using WifiKey.field_assign k k' c p.2
    · simpa [h] using WifiKey.field_assign k k' c p.2

/-- **A field holds the last value that was stored for its key.**  What `LastWrite` says of a
history of writes is used for each field by itself. -/
theorem field_applyPairs (k : WifiKey) (c : WifiConfig) (pairs : List (Text × Text)) :
    k.field (applyPairs c pairs) = LastWrite.after k.written (k.field c) pairs := by
  induction pairs generalizing c with
  | nil => rfl
  | cons p pairs ih =>
    have hrest := ih (radioHalYamlWifiConfig c p.1 p.2)
    rw [field_radioHalYamlWifiConfig] at hrest
    exact hrest

theorem phy_applyPairs (c : WifiConfig) (pairs : List (Text × Text)) :
    (applyPairs c pairs).phy = c.phy := by
  induction pairs generalizing c with
  | nil => rfl
  | cons p pairs ih =>
    have hphy : (radioHalYamlWifiConfig c p.1 p.2).phy = c.phy := by
      rw [radioHalYamlWifiConfig_eq]
      cases WifiKey.matched p.1 with
      | none => rfl
      | some k => exact k.phy_assign c p.2
    exact (ih _).trans hphy

end Pairs

/-! ### The tokens of one file -/

/-- A scalar as it is remembered for the next one: one that does not fit its buffer leaves nothing
there. -/
def rememberedKey (raw : Text) : Text :=
  if (cstr raw).length < tempKeySize then cstr raw else []

/-- The values among the tokens, each with the key it is stored for. -/
def assigned : Bool → Text → List YamlToken → List (Text × Text)
  | _, _, [] => []
  | _, tempKey, .key :: ts => assigned true tempKey ts
  | _, tempKey, .value :: ts => assigned false tempKey ts
  | true, _, .scalar raw :: ts => assigned true (rememberedKey raw) ts
  | false, tempKey, .scalar raw :: ts => (tempKey, cstr raw) :: assigned false tempKey ts
  | key, tempKey, .noToken :: ts => assigned key tempKey ts
  | key, tempKey, .streamEnd :: ts => assigned key tempKey ts
  | key, tempKey, .other :: ts => assigned key tempKey ts

/-- The values in front of the first scalar that is remembered, when no key token has been
met. -/
def earlyValues : Bool → List YamlToken → List Text
  | _, [] => []
  | _, .key :: ts => earlyValues true ts
  | _, .value :: ts => earlyValues false ts
  | true, .scalar _ :: _ => []
  | false, .scalar raw :: ts => cstr raw :: earlyValues false ts
  | key, .noToken :: ts => earlyValues key ts
  | key, .streamEnd :: ts => earlyValues key ts
  | key, .other :: ts => earlyValues key ts

/-- The pairs of a key and a value that the tokens make once a key among them has been read. -/
def settledPairs : Bool → List YamlToken → List (Text × Text)
  | _, [] => []
  | _, .key :: ts => settledPairs true ts
  | _, .value :: ts => settledPairs false ts
  | true, .scalar raw :: ts => assigned true (rememberedKey raw) ts
  | false, .scalar _ :: ts => settledPairs false ts
  | key, .noToken :: ts => settledPairs key ts
  | key, .streamEnd :: ts => settledPairs key ts
  | key, .other :: ts => settledPairs key ts

/-- Every key that a value in front of the first key could be stored for gets a value behind
it. -/
def Settles (ts : List YamlToken) : Prop :=
  ∀ k : WifiKey, ∀ v ∈ earlyValues false ts, (k.stores v).isSome = true →
    Sets k (settledPairs false ts)

section OneFile

variable {ts : List YamlToken}

/-- Without a key token before, all early values are stored for the key left behind. -/
theorem assigned_eq (key : Bool) (tempKey : Text) (ts : List YamlToken) :
    assigned key tempKey ts =
      (earlyValues key ts).map (fun v => (tempKey, v)) ++ settledPairs key ts := by
  induction ts generalizing key with
  | nil => rfl
  | cons t ts ih =>
    cases t with
    | scalar raw =>
      cases key with
      | true => simp [assigned, earlyValues, settledPairs]
      | false => simp [assigned, earlyValues, settledPairs, ih]
    | _ => exact ih _

/-- With one, the first scalars are remembered, and some of the early values are stored for the
last of them. -/
theorem exists_assigned_true (tempKey : Text) (ts : List YamlToken) :
    ∃ tempKey' values, values ⊆ earlyValues false ts ∧ assigned true tempKey ts =
      values.map (fun v => (tempKey', v)) ++ settledPairs false ts := by
  induction ts generalizing tempKey with
  | nil => exact ⟨tempKey, [], List.nil_subset _, rfl⟩
  | cons t ts ih =>
    cases t with
    | key => exact ⟨tempKey, earlyValues true ts, List.Subset.refl _, assigned_eq true tempKey ts⟩
    | value =>
      exact ⟨tempKey, earlyValues false ts, List.Subset.refl _, assigned_eq false tempKey ts⟩
    | scalar raw =>
      obtain ⟨tempKey', values, hsub, heq⟩ := ih (rememberedKey raw)
      exact ⟨tempKey', values, fun v hv => List.mem_cons_of_mem _ (hsub hv), heq⟩
    | _ => exact ih tempKey

/-- **A file that settles is stored the same whatever the file before has left behind.**  What its
early values may be stored for gets a value again, behind a key. -/
theorem applyPairs_of_settles (h : Settles ts) (c : WifiConfig) (key : Bool) (tempKey : Text) :
    applyPairs c (assigned key tempKey ts) = applyPairs c (settledPairs false ts) := by
  obtain ⟨tempKey', values, hsub, heq⟩ : ∃ tempKey' values, values ⊆ earlyValues false ts ∧
      assigned key tempKey ts = values.map (fun v => (tempKey', v)) ++ settledPairs false ts := by
    cases key with
    | true => exact exists_assigned_true tempKey ts
    | false => exact ⟨tempKey, _, List.Subset.refl _, assigned_eq false tempKey ts⟩
  refine WifiConfig.eq_of_field ?_ fun k => ?_
  · rw [phy_applyPairs, phy_applyPairs]
  rw [field_applyPairs, field_applyPairs, heq, LastWrite.after_append]
  by_cases hsets : Sets k (settledPairs false ts)
  · exact LastWrite.after_of_writes _ _ hsets
  · -- no early value fits the field
    have hnone : ¬ Sets k (values.map fun v => (tempKey', v)) := by
      rintro ⟨p, hp, hwritten⟩
      obtain ⟨v, hv, rfl⟩ := List.mem_map.mp hp
      have hstored : (k.stores v).isSome = true := by
        unfold WifiKey.written at hwritten
        split at hwritten
        · exact hwritten
        · exact absurd hwritten (by simp)
      exact hsets (h k v (hsub hv) hstored)
    rw [LastWrite.after_of_not_writes _ hnone]

/-- **One that does not is stored in two ways**, by whether a documented key or none has been left
behind. -/
theorem exists_applyPairs_ne (h : ¬ Settles ts) : ∃ (k : WifiKey) (c : WifiConfig),
    applyPairs c (assigned false k.name ts) ≠ applyPairs c (assigned false [] ts) := by
  unfold Settles at h
  push Not at h
  obtain ⟨k, v, hv, hstored, hsets⟩ := h
  have hmatched : WifiKey.matched k.name = some k := by cases k <;> decide
  have hearly : Sets k ((earlyValues false ts).map fun v => (k.name, v)) :=
    ⟨(k.name, v), List.mem_map_of_mem hv, by simpa [WifiKey.written, hmatched] using hstored⟩
  have hnone : ¬ Sets k ((earlyValues false ts).map fun v => (([] : Text), v)) := by
    rintro ⟨p, hp, hwritten⟩
    obtain ⟨w, -, rfl⟩ := List.mem_map.mp hp
    have hnil : WifiKey.matched [] = none := by decide
    simp [WifiKey.written, hnil] at hwritten
  -- what the field holds in the one case does not depend on what it held before
  obtain ⟨c, hc⟩ := k.exists_field_ne
    (LastWrite.after k.written (.flag true) ((earlyValues false ts).map fun v => (k.name, v)))
  refine ⟨k, c, fun heq => hc ?_⟩
  have hfield := congrArg (WifiKey.field · k) heq
  rw [field_applyPairs, field_applyPairs, assigned_eq, assigned_eq, LastWrite.after_append,
    LastWrite.after_append, LastWrite.after_of_not_writes _ hsets,
    LastWrite.after_of_not_writes _ hsets, LastWrite.after_of_not_writes _ hnone] at hfield
  rw [← hfield]
  exact LastWrite.after_of_writes _ _ hearly

end OneFile

/-! ### The list of files -/

/-- A file that is scanned to its end, all of whose scalars pass the whitelist. -/
structure Regular (s : Scan) : Prop where
  streamEnd : s.ending = .streamEnd
  valid : ∀ raw, .scalar raw ∈ s.tokens → GoodValue raw

/-- What the tokens of a file make of the state. -/
def afterTokens (index : ℕ) (st : ParseState) (ts : List YamlToken) : ParseState :=
  match onTokens .wifi index st ts with
  | .ok st' => st'
  | .error st' => st'

/-- What the files make of the state. -/
def afterFiles : ℕ → List Scan → ParseState → ParseState
  | _, [], st => st
  | index, s :: scans, st => afterFiles (index + 1) scans (afterTokens index st s.tokens)

section Files

variable {i : Fin wifiRadioMax} {index : ℕ} {st st' : ParseState} {ts : List YamlToken}

theorem afterTokens_of_ok (h : onTokens .wifi index st ts = .ok st') :
    afterTokens index st ts = st' := by
  unfold afterTokens
  rw [h]

/-- The values of a file go into the configuration of its own index. -/
theorem wifi_of_onTokens (i : Fin wifiRadioMax) (h : onTokens .wifi index st ts = .ok st') :
    st'.conf.wifi i = if index = i.val then
      applyPairs (st.conf.wifi i) (assigned st.key st.tempKey ts) else st.conf.wifi i := by
  induction ts generalizing st with
  | nil =>
    obtain rfl := Except.ok.inj h
    split <;> rfl
  | cons t ts ih =>
    cases t with
    | scalar raw =>
      rw [onTokens] at h
      cases hkey : st.key with
      | true =>
        rw [onToken_scalar_key hkey] at h
        rw [ih h]
        simp only [hkey]
        rfl
      | false =>
        by_cases hbad : radioHalYamlInputValidation (cstr raw) = 0
        · rw [onToken_scalar_bad hkey hbad] at h
          exact absurd h (by simp)
        rw [onToken_scalar_value hkey hbad] at h
        rw [ih h]
        simp only [hkey]
        by_cases hindex : index = i.val
        · subst hindex
          rw [if_pos rfl, if_pos rfl, storeValue_wifi i.isLt]
          simp [assigned, applyPairs]
        · rw [if_neg hindex, if_neg hindex]
          by_cases hlt : index < wifiRadioMax
          · have hne : i ≠ ⟨index, hlt⟩ := fun heq => hindex (congrArg Fin.val heq).symm
            rw [storeValue_wifi hlt]
            exact Function.update_of_ne hne _ _
          · rw [storeValue_wifi_of_le (Nat.not_lt.mp hlt)]
    | _ => exact ih h

/-- The tokens of a regular file are all taken. -/
theorem Regular.onTokens_eq {s : Scan} (hs : Regular s) (index : ℕ) (st : ParseState) :
    onTokens .wifi index st s.tokens = .ok (afterTokens index st s.tokens) := by
  have hmem : ∀ (key : Bool) (ts : List YamlToken), ∀ v ∈ valueScalars key ts, .scalar v ∈ ts := by
    intro key ts
    induction ts generalizing key with
    | nil => simp [valueScalars]
    | cons t ts ih =>
      intro v hv
      cases t with
      | scalar raw =>
        cases key with
        | true => exact List.mem_cons_of_mem _ (ih true v hv)
        | false =>
          rcases List.mem_cons.mp hv with rfl | hv
          · exact List.mem_cons_self
          · exact List.mem_cons_of_mem _ (ih false v hv)
      | _ => exact List.mem_cons_of_mem _ (ih _ v hv)
  obtain ⟨st', hst'⟩ : ∃ st', onTokens .wifi index st s.tokens = .ok st' :=
    onTokens_isOk_iff.mpr fun v hv => hs.valid v (hmem st.key s.tokens v hv)
  rw [hst', afterTokens_of_ok hst']

theorem wifi_afterTokens {s : Scan} (hs : Regular s) (i : Fin wifiRadioMax) (index : ℕ)
    (st : ParseState) : (afterTokens index st s.tokens).conf.wifi i = if index = i.val then
      applyPairs (st.conf.wifi i) (assigned st.key st.tempKey s.tokens) else st.conf.wifi i :=
  wifi_of_onTokens i (hs.onTokens_eq index st)

theorem afterFiles_append (index : ℕ) (scans scans' : List Scan) (st : ParseState) :
    afterFiles index (scans ++ scans') st =
      afterFiles (index + scans.length) scans' (afterFiles index scans st) := by
  induction scans generalizing index st with
  | nil => rfl
  | cons s scans ih =>
    have hindex : index + (s :: scans).length = index + 1 + scans.length := by
      rw [List.length_cons]
      omega
    rw [List.cons_append, afterFiles, afterFiles, ih, hindex]

/-- The files before and behind the one of a radio leave its configuration alone. -/
theorem wifi_afterFiles_of_ne {scans : List Scan} (hscans : ∀ s ∈ scans, Regular s)
    (hi : i.val < index ∨ index + scans.length ≤ i.val) :
    (afterFiles index scans st).conf.wifi i = st.conf.wifi i := by
  induction scans generalizing index st with
  | nil => rfl
  | cons s scans ih =>
    obtain ⟨hs, hscans⟩ := List.forall_mem_cons.mp hscans
    rw [List.length_cons] at hi
    rw [afterFiles, ih hscans (by omega), wifi_afterTokens hs, if_neg (by omega)]

/-- **The configuration of a radio is made by its own file**, from the key flag and the remembered
key that the files before have left. -/
theorem wifi_afterFiles {pre post : List Scan} {s : Scan}
    (hscans : ∀ x ∈ pre ++ s :: post, Regular x) (hi : pre.length = i.val) (st : ParseState) :
    (afterFiles 0 (pre ++ s :: post) st).conf.wifi i = applyPairs (st.conf.wifi i)
      (assigned (afterFiles 0 pre st).key (afterFiles 0 pre st).tempKey s.tokens) := by
  obtain ⟨hpre, hrest⟩ := List.forall_mem_append.mp hscans
  obtain ⟨hs, hpost⟩ := List.forall_mem_cons.mp hrest
  rw [afterFiles_append, afterFiles, wifi_afterFiles_of_ne hpost (by omega), wifi_afterTokens hs,
    if_pos (by omega), wifi_afterFiles_of_ne hpre (by omega)]

variable {fopen : Text → Opened}

/-- The loop over regular files comes to its end. -/
theorem exists_configFilesLoop {scans : List Scan} (hscans : ∀ s ∈ scans, Regular s)
    {names : List Text} (hopens : names.map fopen = scans.map Opened.scanning) (index : ℕ)
    (st : ParseState) : ∃ fuel, configFilesLoop fopen .wifi fuel index names st =
      some (0, (afterFiles index scans st).conf) := by
  induction names generalizing scans index st with
  | nil =>
    obtain rfl : scans = [] := by simpa using hopens.symm
    exact ⟨0, rfl⟩
  | cons name names ih =>
    cases scans with
    | nil => exact absurd hopens (by simp)
    | cons s scans =>
      obtain ⟨hopen, hopens⟩ := List.cons.inj hopens
      obtain ⟨hs, hscans⟩ := List.forall_mem_cons.mp hscans
      obtain ⟨n, hn⟩ := scan_of_streamEnd (hs.onTokens_eq index st) hs.streamEnd
      obtain ⟨m, hm⟩ := ih hscans hopens (index + 1) (afterTokens index st s.tokens)
      -- enough fuel for this file and for those behind it
      refine ⟨max n m, ?_⟩
      rw [configFilesLoop, hopen]
      dsimp only
      rw [Loop.Returns.of_le hn (le_max_left n m)]
      exact configFilesLoop_mono (le_max_right n m) hm

end Files

/-! ### Independence -/

/-- `radio_hal_yaml_config` for `RADIO_WIFI` returns, and leaves the configurations `c`. -/
def Configures (fopen : Text → Opened) (conf : ConfStruct) (files : Text) (c : ConfStruct) : Prop :=
  ∃ fuel r, radioHalYamlConfig fopen fuel conf files .wifi = some (r, c)

/-- The files of the list can be opened, and scan as given. -/
def Opens (fopen : Text → Opened) (files : Text) (scans : List Scan) : Prop :=
  (fileNames files).map fopen = scans.map Opened.scanning

/-- Two lists of regular files that have the file `s` of radio `i` in common make the same
configuration of the radio. -/
def Independent (i : Fin wifiRadioMax) (s : Scan) : Prop :=
  ∀ (fopen fopen' : Text → Opened) (files files' : Text) (scans scans' : List Scan)
    (conf : ConfStruct), Opens fopen files scans → Opens fopen' files' scans' →
    (∀ x ∈ scans, Regular x) → (∀ x ∈ scans', Regular x) →
    scans[i.val]? = some s → scans'[i.val]? = some s →
    ∃ c c', Configures fopen conf files c ∧ Configures fopen' conf files' c' ∧ c.wifi i = c'.wifi i

section Independence

variable {fopen : Text → Opened} {files : Text} {conf : ConfStruct}

theorem Configures.unique {c c' : ConfStruct} (h : Configures fopen conf files c)
    (h' : Configures fopen conf files c') : c = c' := by
  obtain ⟨n, r, hn⟩ := h
  obtain ⟨m, r', hm⟩ := h'
  unfold radioHalYamlConfig at hn hm
  split at hn
  · rw [if_pos ‹_›] at hm
    exact (Prod.mk.inj (Option.some.inj (hn.symm.trans hm))).2
  · rw [if_neg ‹_›] at hm
    have hn' := configFilesLoop_mono (le_max_left n m) hn
    have hm' := configFilesLoop_mono (le_max_right n m) hm
    exact (Prod.mk.inj (Option.some.inj (hn'.symm.trans hm'))).2

/-- The state that `radio_hal_yaml_config` begins with. -/
def parseStart (conf : ConfStruct) : ParseState := ⟨false, [], conf⟩

theorem configures_afterFiles {scans : List Scan} (hopens : Opens fopen files scans)
    (hscans : ∀ s ∈ scans, Regular s) (hne : scans ≠ []) (conf : ConfStruct) :
    Configures fopen conf files (afterFiles 0 scans (parseStart conf)).conf := by
  have hfiles : files.isEmpty = false := by
    cases files with
    | nil => exact absurd (by simpa [Opens, fileNames] using hopens.symm) hne
    | cons => rfl
  obtain ⟨fuel, hfuel⟩ := exists_configFilesLoop hscans hopens 0 (parseStart conf)
  refine ⟨fuel, 0, ?_⟩
  unfold radioHalYamlConfig
  rw [hfiles]
  exact hfuel

/-- The configuration of a radio, by the pairs of its own file. -/
theorem exists_configures {i : Fin wifiRadioMax} {s : Scan} {scans : List Scan}
    (hopens : Opens fopen files scans) (hscans : ∀ x ∈ scans, Regular x)
    (hget : scans[i.val]? = some s) (conf : ConfStruct) :
    ∃ c st, Configures fopen conf files c ∧
      st = afterFiles 0 (scans.take i.val) (parseStart conf) ∧
      c.wifi i = applyPairs (conf.wifi i) (assigned st.key st.tempKey s.tokens) := by
  obtain ⟨hlt, hs⟩ := List.getElem?_eq_some_iff.mp hget
  have hne : scans ≠ [] := List.ne_nil_of_length_pos (by omega)
  have hsplit : scans = scans.take i.val ++ s :: scans.drop (i.val + 1) := by
    rw [← hs, List.getElem_cons_drop, List.take_append_drop]
  refine ⟨_, _, configures_afterFiles hopens hscans hne conf, rfl, ?_⟩
  have hlen : (scans.take i.val).length = i.val := by
    rw [List.length_take]
    omega
  have hwifi := wifi_afterFiles (hsplit ▸ hscans) hlen (parseStart conf)
  rw [← hsplit] at hwifi
  exact hwifi

/-- The names of a list are the names it is made of. -/
theorem fileNames_intercalate {names : List Text} (hne : names ≠ [])
    (h : ∀ name ∈ names, ' ' ∉ name ∧ name ≠ []) : fileNames ([' '].intercalate names) = names := by
  unfold fileNames
  rw [List.splitOn_intercalate ' ' (fun name hname => (h name hname).1) hne, List.filter_eq_self]
  intro name hname
  simpa using (h name hname).2

/-- A file without any scalar. -/
def emptyFile : Scan := ⟨[.other, .other], .streamEnd, by simp⟩

/-- A file with a key and no value. -/
def keyFile (k : WifiKey) : Scan :=
  ⟨[.other, .other, .key, .scalar k.name, .value, .other], .streamEnd, by simp⟩

theorem regular_emptyFile : Regular emptyFile := ⟨rfl, by simp [emptyFile]⟩

theorem regular_keyFile (k : WifiKey) : Regular (keyFile k) := by
  refine ⟨rfl, fun raw hraw => ?_⟩
  obtain rfl : raw = k.name := by simpa [keyFile] using hraw
  cases k <;> exact List.all_eq_true.mp rfl

theorem afterFiles_replicate_emptyFile (index n : ℕ) (st : ParseState) :
    afterFiles index (List.replicate n emptyFile) st = st := by
  induction n generalizing index with
  | zero => rfl
  | succ n ih => exact ih (index + 1)

theorem afterTokens_keyFile (index : ℕ) (conf : ConfStruct) (k : WifiKey) :
    afterTokens index (parseStart conf) (keyFile k).tokens = ⟨false, k.name, conf⟩ := by
  cases k <;> rfl

/-- Files `a` and `b`, in front of a file `c`. -/
def manyFiles (i : ℕ) : Text :=
  [' '].intercalate ("a".toList :: List.replicate i "b".toList ++ ["c".toList])

theorem fileNames_manyFiles (i : ℕ) :
    fileNames (manyFiles i) = "a".toList :: List.replicate i "b".toList ++ ["c".toList] := by
  refine fileNames_intercalate (by simp) fun name hname => ?_
  have hthree : name = "a".toList ∨ name = "b".toList ∨ name = "c".toList := by
    simp only [List.cons_append, List.mem_cons, List.mem_append, List.mem_replicate,
      List.not_mem_nil, or_false] at hname
    tauto
  rcases hthree with rfl | rfl | rfl <;> decide

/-- The file `a`, empty files, and the file `c`. -/
def openedAs (a c : Scan) (name : Text) : Opened :=
  if name = "a".toList then .scanning a
  else if name = "c".toList then .scanning c
  else .scanning emptyFile

theorem opens_manyFiles (a c : Scan) (i : ℕ) :
    Opens (openedAs a c) (manyFiles i) (a :: List.replicate i emptyFile ++ [c]) := by
  have ha : openedAs a c "a".toList = .scanning a := if_pos rfl
  have hb : openedAs a c "b".toList = .scanning emptyFile := by
    unfold openedAs
    rw [if_neg (by decide), if_neg (by decide)]
  have hc : openedAs a c "c".toList = .scanning c := by
    unfold openedAs
    rw [if_neg (by decide), if_pos rfl]
  unfold Opens
  rw [fileNames_manyFiles]
  simp only [List.cons_append, List.map_cons, List.map_append, List.map_replicate, List.map_nil,
    ha, hb, hc]

/-- **A later file that does not settle depends on the key that is left behind.** -/
theorem not_independent_of_not_settles {i : Fin wifiRadioMax} {s : Scan} (hs : Regular s)
    (hi : i.val ≠ 0) (h : ¬ Settles s.tokens) : ¬ Independent i s := by
  intro hindependent
  obtain ⟨k, c, hne⟩ := exists_applyPairs_ne h
  obtain ⟨n, hn⟩ := Nat.exists_eq_succ_of_ne_zero hi
  have hregular : ∀ a, Regular a → ∀ x ∈ a :: List.replicate n emptyFile ++ [s], Regular x := by
    intro a ha x hx
    simp only [List.cons_append, List.mem_cons, List.mem_append, List.mem_replicate,
      List.not_mem_nil, or_false] at hx
    rcases hx with rfl | ⟨-, rfl⟩ | rfl
    · exact ha
    · exact regular_emptyFile
    · exact hs
  have hget : ∀ a : Scan, (a :: List.replicate n emptyFile ++ [s])[i.val]? = some s := by
    intro a
    rw [hn, List.getElem?_append_right (by simp)]
    simp
  have htake : ∀ a : Scan, (a :: List.replicate n emptyFile ++ [s]).take i.val =
      a :: List.replicate n emptyFile := by
    intro a
    rw [List.take_append_of_le_length (by simp [hn]), List.take_of_length_le (by simp [hn])]
  let conf : ConfStruct := ⟨fun _ => c, fun _ => .zero⟩
  have hkey := regular_keyFile k
  obtain ⟨c₁, st₁, hc₁, hst₁, hwifi₁⟩ := exists_configures (opens_manyFiles (keyFile k) s n)
    (hregular _ hkey) (hget _) conf
  obtain ⟨c₂, st₂, hc₂, hst₂, hwifi₂⟩ := exists_configures (opens_manyFiles emptyFile s n)
    (hregular _ regular_emptyFile) (hget _) conf
  rw [htake, afterFiles, afterFiles_replicate_emptyFile, afterTokens_keyFile] at hst₁
  rw [htake, afterFiles, afterFiles_replicate_emptyFile] at hst₂
  obtain ⟨c₁', c₂', hc₁', hc₂', hsame⟩ := hindependent _ _ _ _ _ _ conf
    (opens_manyFiles (keyFile k) s n) (opens_manyFiles emptyFile s n) (hregular _ hkey)
    (hregular _ regular_emptyFile) (hget _) (hget _)
  rw [hc₁'.unique hc₁, hc₂'.unique hc₂, hwifi₁, hwifi₂, hst₁, hst₂] at hsame
  exact hne hsame

/-- **What a radio gets is independent of the other files exactly when its file is the first, or
gives every key that a value in front of its first key could be stored for a value of its own.** -/
theorem independent_iff (i : Fin wifiRadioMax) {s : Scan} (hs : Regular s) :
    Independent i s ↔ i.val = 0 ∨ Settles s.tokens := by
  constructor
  · intro h
    by_contra hneither
    obtain ⟨hi, hsettles⟩ := not_or.mp hneither
    exact not_independent_of_not_settles hs hi hsettles h
  intro h fopen fopen' files files' scans scans' conf hopens hopens' hscans hscans' hget hget'
  obtain ⟨c, st, hc, hst, hwifi⟩ := exists_configures hopens hscans hget conf
  obtain ⟨c', st', hc', hst', hwifi'⟩ := exists_configures hopens' hscans' hget' conf
  refine ⟨c, c', hc, hc', ?_⟩
  rw [hwifi, hwifi']
  rcases h with hfirst | hsettles
  · -- nothing has been read yet
    have hsame : st = st' := by
      rw [hst, hst', hfirst, List.take_zero, List.take_zero]
    rw [hsame]
  · rw [applyPairs_of_settles hsettles, applyPairs_of_settles hsettles]

/-- A file that gives a network name. -/
def keyedFile : Scan :=
  ⟨[.other, .other, .key, .scalar "ssid".toList, .value, .scalar "mesh".toList, .other],
    .streamEnd, by simp⟩

/-- A file whose values come behind keys. -/
theorem keyed_file_independent : Independent ⟨1, by decide⟩ keyedFile := by
  have hregular : Regular keyedFile := by
    refine ⟨rfl, fun raw hraw => ?_⟩
    obtain rfl | rfl : raw = "ssid".toList ∨ raw = "mesh".toList := by
      simpa [keyedFile] using hraw
    · exact List.all_eq_true.mp rfl
    · exact List.all_eq_true.mp rfl
  refine (independent_iff _ hregular).mpr (Or.inr fun k v hv => ?_)
  exact absurd hv List.not_mem_nil

/-- A file of a single scalar, which is taken for a value of the last key of the file before. -/
def scalarFile : Scan := ⟨[.other, .scalar "mesh".toList, .other], .streamEnd, by simp⟩

/-- Not every file is independent: a scalar alone is stored for the last key of the file before. -/
theorem not_all_files_independent :
    ¬ ∀ (i : Fin wifiRadioMax) (s : Scan), Regular s → Independent i s := by
  intro h
  have hregular : Regular scalarFile := by
    refine ⟨rfl, fun raw hraw => ?_⟩
    obtain rfl : raw = "mesh".toList := by simpa [scalarFile] using hraw
    exact List.all_eq_true.mp rfl
  refine not_independent_of_not_settles hregular (one_ne_zero : 1 ≠ 0) ?_
    (h ⟨1, by decide⟩ scalarFile hregular)
  intro hsettles
  obtain ⟨p, hp, -⟩ := hsettles .ssid "mesh".toList List.mem_cons_self (by decide)
  exact absurd hp List.not_mem_nil

end Independence

end RadioHal
