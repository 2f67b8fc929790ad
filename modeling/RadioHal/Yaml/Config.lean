import RadioHal.Lib.CString

/-!
# Radio configurations

`radio_hal_yaml_wifi_config` and `radio_hal_yaml_modem_config` take one key and one value of a
configuration file and store the value in the field of that key.  The key is matched by its
beginning only; a string value is copied under a length guard in unsigned arithmetic, a number
goes through `strtol`.

## Main definitions

* `WifiConfig`, `ModemConfig` — the structures of `radio_hal_yaml.h`.
* `storeString` — the guarded copy all string fields share.
* `radioHalYamlWifiConfig`, `radioHalYamlModemConfig` — one key and one value.
* `radioHalYamlInputValidation` — the character whitelist; it answers `0` to a *bad* string.
* `WifiKey`, `ModemKey` — the documented keys; `WifiString`, `ModemString` — the string fields.

## Main results

* `radioHalYamlWifiConfig_eq` — the chain of comparisons is a search for the first matching key.
* `radioHalYamlWifiConfig_name` — a documented key reaches its own branch.
* `WifiString.array_assign` — an assignment touches the string field of its key only.
-/

namespace RadioHal

open CLib

/-- `struct wifi_config`. -/
structure WifiConfig where
  debug : Bool
  apiVersion : ℤ
  phy : ℤ
  key : CharArray 64
  passphrase : CharArray 64
  ssid : CharArray 32
  enc : CharArray 8
  apMacAddr : CharArray 18
  country : CharArray 3
  freq : CharArray 6
  bw : CharArray 4
  preamble : CharArray 6
  distance : ℤ
  txPower : ℤ
  mode : CharArray 5
  type : CharArray 5
  meshFwding : ℤ
  deriving DecidableEq

/-- `struct modem_config`. -/
structure ModemConfig where
  apn : CharArray 20
  pin : CharArray 5
  atSerial : CharArray 20
  deriving DecidableEq

/-- A WiFi configuration as `calloc` leaves it. -/
def WifiConfig.zero : WifiConfig :=
  ⟨false, 0, 0, default, default, default, default, default, default, default, default, default,
    0, 0, default, default, 0⟩

def ModemConfig.zero : ModemConfig := ⟨default, default, default⟩

/-! ### Storing one value -/

/-- `if (strlen(value) - 1 < size) strncpy(field, value, size)`. -/
def storeString {n : ℕ} (field : CharArray n) (value : Text) : CharArray n :=
  if sizeSub value.length 1 < n then CharArray.strncpy n value else field

/-- `(int)strtol(value, &stopped, 10)`; an out-of-range number is only logged. -/
def storeInt (value : Text) : ℤ := toInt (strtol value).value

/-- `radio_hal_yaml_wifi_config`.  It returns `0` for every key, known or not. -/
def radioHalYamlWifiConfig (confStruct : WifiConfig) (key value : Text) : WifiConfig :=
  if strStarts key "debug".toList then
    { confStruct with debug := strStarts value "True".toList }
  else if strStarts key "ssid".toList then
    { confStruct with ssid := storeString confStruct.ssid value }
  else if strStarts key "key".toList then
    { confStruct with key := storeString confStruct.key value }
  else if strStarts key "frequency".toList then
    { confStruct with freq := storeString confStruct.freq value }
  else if strStarts key "api_version".toList then
    { confStruct with apiVersion := storeInt value }
  else if strStarts key "passphrase".toList then
    { confStruct with passphrase := storeString confStruct.passphrase value }
  else if strStarts key "enc".toList then
    { confStruct with enc := storeString confStruct.enc value }
  else if strStarts key "ap_mac".toList then
    { confStruct with apMacAddr := storeString confStruct.apMacAddr value }
  else if strStarts key "country".toList then
    { confStruct with country := storeString confStruct.country value }
  else if strStarts key "bw".toList then
    { confStruct with bw := storeString confStruct.bw value }
  else if strStarts key "preamble".toList then
    { confStruct with preamble := storeString confStruct.preamble value }
  else if strStarts key "distance".toList then
    { confStruct with distance := storeInt value }
  else if strStarts key "tx_power".toList then
    { confStruct with txPower := storeInt value }
  else if strStarts key "mode".toList then
    { confStruct with mode := storeString confStruct.mode value }
  else if strStarts key "type".toList then
    { confStruct with type := storeString confStruct.type value }
  else if strStarts key "mesh_fwding".toList then
    { confStruct with meshFwding := storeInt value }
  else confStruct

/-- `radio_hal_yaml_modem_config`.  It returns `0` for every key, known or not. -/
def radioHalYamlModemConfig (confStruct : ModemConfig) (key value : Text) : ModemConfig :=
  if strStarts key "apn".toList then
    { confStruct with apn := storeString confStruct.apn value }
  else if strStarts key "pin".toList then
    { confStruct with pin := storeString confStruct.pin value }
  else if strStarts key "at_serial".toList then
    { confStruct with atSerial := storeString confStruct.atSerial value }
  else confStruct

/-! ### The character whitelist -/

/-- The characters the negated bracket expression of the validation lists: letters, digits, and
`_`, `@`, `%`, `+`, `=`, `:`, `,`, `.`, the slash and `-`. -/
def allowedChar (c : Char) : Bool :=
  ('A' ≤ c && c ≤ 'Z') || ('a' ≤ c && c ≤ 'z') || ('0' ≤ c && c ≤ '9') ||
    ['_', '@', '%', '+', '=', ':', ',', '.', '/', '-'].contains c

/-- `radio_hal_yaml_input_validation`: `regexec` answers `0` when it finds a character the
bracket expression matches, so `0` means that the string is bad. -/
def radioHalYamlInputValidation (string : Text) : ℤ :=
  if string.any fun c => !allowedChar c then 0 else -1

theorem radioHalYamlInputValidation_ne_zero {string : Text} :
    radioHalYamlInputValidation string ≠ 0 ↔ ∀ c ∈ string, allowedChar c = true := by
  unfold radioHalYamlInputValidation
  split
  · next h => simpa using h
  · next h => simpa using h

theorem allowedChar_ne_nul {c : Char} (h : allowedChar c = true) : c ≠ NUL := by
  rintro rfl
  exact absurd h (by decide)

/-- A value of allowed characters, which passes the whitelist. -/
structure ConfigValue where
  /-- The text of the scalar. -/
  text : Text
  /-- It passes the whitelist. -/
  allowed : ∀ c ∈ text, allowedChar c = true

theorem ConfigValue.nul_notMem (v : ConfigValue) : NUL ∉ v.text :=
  fun h => allowedChar_ne_nul (v.allowed _ h) rfl

/-! ### The documented keys -/

/-- The keys of `wifi_example_0.yaml`, as the documentation of the configuration has them. -/
inductive WifiKey
  | debug | apiVersion | ssid | key | passphrase | enc | apMac | country | frequency | bw
  | preamble | distance | txPower | mode | type | meshFwding
  deriving DecidableEq, Repr

/-- The key as it stands in the file. -/
def WifiKey.name : WifiKey → Text
  | debug => "debug".toList
  | apiVersion => "api_version".toList
  | ssid => "ssid".toList
  | key => "key".toList
  | passphrase => "passphrase".toList
  | enc => "enc".toList
  | apMac => "ap_mac".toList
  | country => "country".toList
  | frequency => "frequency".toList
  | bw => "bw".toList
  | preamble => "preamble".toList
  | distance => "distance".toList
  | txPower => "tx_power".toList
  | mode => "mode".toList
  | type => "type".toList
  | meshFwding => "mesh_fwding".toList

/-- The keys of `modem_example.yaml`, as the documentation of the configuration has them. -/
inductive ModemKey
  | apn | pin | atSerial
  deriving DecidableEq, Repr

/-- The key as it stands in the file. -/
def ModemKey.name : ModemKey → Text
  | apn => "apn".toList
  | pin => "pin".toList
  | atSerial => "at_serial".toList

/-- The field a documented key stands for, set to a value. -/
def WifiKey.assign (c : WifiConfig) (v : Text) : WifiKey → WifiConfig
  | debug => { c with debug := strStarts v "True".toList }
  | apiVersion => { c with apiVersion := storeInt v }
  | ssid => { c with ssid := storeString c.ssid v }
  | key => { c with key := storeString c.key v }
  | passphrase => { c with passphrase := storeString c.passphrase v }
  | enc => { c with enc := storeString c.enc v }
  | apMac => { c with apMacAddr := storeString c.apMacAddr v }
  | country => { c with country := storeString c.country v }
  | frequency => { c with freq := storeString c.freq v }
  | bw => { c with bw := storeString c.bw v }
  | preamble => { c with preamble := storeString c.preamble v }
  | distance => { c with distance := storeInt v }
  | txPower => { c with txPower := storeInt v }
  | mode => { c with mode := storeString c.mode v }
  | type => { c with type := storeString c.type v }
  | meshFwding => { c with meshFwding := storeInt v }

/-- A search through a list of keys is a chain of comparisons. -/
theorem elim_find?_cons {K C : Type} (p : K → Bool) (k : K) (ks : List K) (c : C) (f : K → C) :
    ((k :: ks).find? p).elim c f = if p k then f k else (ks.find? p).elim c f := by
  rw [List.find?_cons]
  cases p k <;> rfl

/-- The keys in the order the code compares them. -/
def WifiKey.order : List WifiKey :=
  [debug, ssid, key, frequency, apiVersion, passphrase, enc, apMac, country, bw, preamble,
    distance, txPower, mode, type, meshFwding]

/-- The key whose branch a text reaches: the first one it begins with. -/
def WifiKey.matched (text : Text) : Option WifiKey :=
  WifiKey.order.find? fun k => strStarts text k.name

theorem radioHalYamlWifiConfig_eq (c : WifiConfig) (text v : Text) :
    radioHalYamlWifiConfig c text v = (WifiKey.matched text).elim c (WifiKey.assign c v) := by
  unfold WifiKey.matched WifiKey.order
  simp only [elim_find?_cons]
  rfl

/-- **A documented key reaches its own branch**, although keys are compared by their beginnings:
none of them begins another. -/
theorem radioHalYamlWifiConfig_name (c : WifiConfig) (k : WifiKey) (v : Text) :
    radioHalYamlWifiConfig c k.name v = k.assign c v := by
  have hmatched : WifiKey.matched k.name = some k := by cases k <;> decide
  rw [radioHalYamlWifiConfig_eq, hmatched, Option.elim_some]

/-- The field a documented key stands for, set to a value. -/
def ModemKey.assign (c : ModemConfig) (v : Text) : ModemKey → ModemConfig
  | apn => { c with apn := storeString c.apn v }
  | pin => { c with pin := storeString c.pin v }
  | atSerial => { c with atSerial := storeString c.atSerial v }

/-- The keys in the order the code compares them. -/
def ModemKey.order : List ModemKey := [apn, pin, atSerial]

/-- The key whose branch a text reaches: the first one it begins with. -/
def ModemKey.matched (text : Text) : Option ModemKey :=
  ModemKey.order.find? fun k => strStarts text k.name

theorem radioHalYamlModemConfig_eq (c : ModemConfig) (text v : Text) :
    radioHalYamlModemConfig c text v = (ModemKey.matched text).elim c (ModemKey.assign c v) := by
  unfold ModemKey.matched ModemKey.order
  simp only [elim_find?_cons]
  rfl

theorem radioHalYamlModemConfig_name (c : ModemConfig) (k : ModemKey) (v : Text) :
    radioHalYamlModemConfig c k.name v = k.assign c v := by
  have hmatched : ModemKey.matched k.name = some k := by cases k <;> decide
  rw [radioHalYamlModemConfig_eq, hmatched, Option.elim_some]

/-! ### The string fields -/

/-- The string fields of `struct wifi_config`. -/
inductive WifiString
  | ssid | key | freq | passphrase | enc | apMacAddr | country | bw | preamble | mode | type
  deriving DecidableEq, Repr

/-- `member_size(wifi_config, f)`. -/
def WifiString.size : WifiString → ℕ
  | ssid => 32
  | key => 64
  | freq => 6
  | passphrase => 64
  | enc => 8
  | apMacAddr => 18
  | country => 3
  | bw => 4
  | preamble => 6
  | mode => 5
  | type => 5

/-- The key the field is configured by. -/
def WifiString.keyOf : WifiString → WifiKey
  | ssid => .ssid
  | key => .key
  | freq => .frequency
  | passphrase => .passphrase
  | enc => .enc
  | apMacAddr => .apMac
  | country => .country
  | bw => .bw
  | preamble => .preamble
  | mode => .mode
  | type => .type

def WifiString.array : (f : WifiString) → WifiConfig → CharArray f.size
  | ssid, c => c.ssid
  | key, c => c.key
  | freq, c => c.freq
  | passphrase, c => c.passphrase
  | enc, c => c.enc
  | apMacAddr, c => c.apMacAddr
  | country, c => c.country
  | bw, c => c.bw
  | preamble, c => c.preamble
  | mode, c => c.mode
  | type, c => c.type

/-- **An assignment touches the string field of its key only**, by the guarded copy. -/
theorem WifiString.array_assign (f : WifiString) (c : WifiConfig) (k : WifiKey) (v : Text) :
    f.array (k.assign c v) =
      if k = f.keyOf then storeString (f.array c) v else f.array c := by
  cases f <;> cases k <;> rfl

/-- The string fields of `struct modem_config`. -/
inductive ModemString
  | apn | pin | atSerial
  deriving DecidableEq, Repr

/-- `member_size(modem_config, f)`. -/
def ModemString.size : ModemString → ℕ
  | apn => 20
  | pin => 5
  | atSerial => 20

/-- The key the field is configured by. -/
def ModemString.keyOf : ModemString → ModemKey
  | apn => .apn
  | pin => .pin
  | atSerial => .atSerial

def ModemString.array : (f : ModemString) → ModemConfig → CharArray f.size
  | apn, c => c.apn
  | pin, c => c.pin
  | atSerial, c => c.atSerial

theorem ModemString.array_assign (f : ModemString) (c : ModemConfig) (k : ModemKey) (v : Text) :
    f.array (k.assign c v) =
      if k = f.keyOf then storeString (f.array c) v else f.array c := by
  cases f <;> cases k <;> rfl

end RadioHal
