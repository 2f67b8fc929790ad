import RadioHal.Common.Radio
import RadioHal.Lib.Loop
import RadioHal.Yaml.Config

/-!
# Reading configuration files

`radio_hal_yaml_config` takes a list of file names, scans each file with libyaml token by token
and stores the scalars it meets: a scalar behind a key token is remembered as the key, any other
one is a value for the remembered key.  The key flag and the remembered key outlive the file.
The scanner is taken at its documentation: a file yields finitely many tokens, and then either
the end of the stream or, for ever, empty tokens after an error.

## Main definitions

* `Scan`, `yamlParserScan` — what is left to scan of a file, and one call of the scanner.
* `ConfStruct`, `ParseState` — the configuration slots, and what the parser keeps.
* `onToken` — what one token does.
* `radioHalYamlConfig` — the whole call, over any number of files.

## Main results

* `scan_of_error`, `scan_of_streamEnd`, `scan_diverges` — one file, by what its tokens and its
  ending are.
-/

namespace RadioHal

open CLib

/-! ### The scanner -/

/-- The token types the code tells apart; all others are `other`. -/
inductive YamlToken
  | noToken
  | streamEnd
  | key
  | value
  | scalar (raw : Text)
  | other
  deriving DecidableEq, Repr

/-- What follows the last token of a file: the end of the stream, or a scanner error. -/
inductive ScanEnd
  | streamEnd
  | scannerError
  deriving DecidableEq, Repr

/-- What is left to scan of a file. -/
structure Scan where
  /-- The tokens still to come. -/
  tokens : List YamlToken
  /-- What comes after them. -/
  ending : ScanEnd
  /-- The stream does not end before its end. -/
  streamEnd_notMem : YamlToken.streamEnd ∉ tokens

/-- `yaml_parser_scan`: after an error it hands out empty tokens, call after call. -/
def yamlParserScan : Scan → YamlToken × Scan
  | ⟨t :: ts, e, h⟩ => (t, ⟨ts, e, fun hmem => h (List.mem_cons_of_mem t hmem)⟩)
  | ⟨[], .streamEnd, h⟩ => (.streamEnd, ⟨[], .streamEnd, h⟩)
  | ⟨[], .scannerError, h⟩ => (.noToken, ⟨[], .scannerError, h⟩)

/-- What comes of a file name: `fopen` fails, the parser cannot be set up, or scanning starts. -/
inductive Opened
  | notOpened
  | noParser
  | scanning (s : Scan)

/-! ### Storing -/

/-- What `conf_struct` points to, for the two radio types that store anything. -/
structure ConfStruct where
  wifi : Fin wifiRadioMax → WifiConfig
  modem : Fin radioOneRadioSupport → ModemConfig

/-- The `switch (radio)` of a value: each file has the slot of its position in the list, and a
file without a slot stores nothing.  `radio_hal_yaml_bt_config` and `radio_hal_yaml_z_config`
only log. -/
def storeValue (radio : RadioType) (index : ℕ) (tempKey value : Text) (conf : ConfStruct) :
    ConfStruct :=
  match radio with
  | .wifi =>
    if h : index < wifiRadioMax then
      let slot := radioHalYamlWifiConfig (conf.wifi ⟨index, h⟩) tempKey value
      { conf with wifi := Function.update conf.wifi ⟨index, h⟩ slot }
    else conf
  | .bt => conf
  | .ieee802154 => conf
  | .modem =>
    if h : index < radioOneRadioSupport then
      let slot := radioHalYamlModemConfig (conf.modem ⟨index, h⟩) tempKey value
      { conf with modem := Function.update conf.modem ⟨index, h⟩ slot }
    else conf
  | .max => conf

theorem storeValue_wifi {index : ℕ} (h : index < wifiRadioMax) (tempKey value : Text)
    (conf : ConfStruct) :
    storeValue .wifi index tempKey value conf =
      { conf with
        wifi := Function.update conf.wifi ⟨index, h⟩
          (radioHalYamlWifiConfig (conf.wifi ⟨index, h⟩) tempKey value) } :=
  dif_pos h

theorem storeValue_modem {index : ℕ} (h : index < radioOneRadioSupport) (tempKey value : Text)
    (conf : ConfStruct) :
    storeValue .modem index tempKey value conf =
      { conf with
        modem := Function.update conf.modem ⟨index, h⟩
          (radioHalYamlModemConfig (conf.modem ⟨index, h⟩) tempKey value) } :=
  dif_pos h

theorem storeValue_wifi_of_le {index : ℕ} (h : wifiRadioMax ≤ index) (tempKey value : Text)
    (conf : ConfStruct) : storeValue .wifi index tempKey value conf = conf :=
  dif_neg (Nat.not_lt.mpr h)

theorem storeValue_modem_of_le {index : ℕ} (h : radioOneRadioSupport ≤ index)
    (tempKey value : Text) (conf : ConfStruct) :
    storeValue .modem index tempKey value conf = conf :=
  dif_neg (Nat.not_lt.mpr h)

/-- What the parser keeps from token to token, and from file to file. -/
structure ParseState where
  /-- The last key or value token was a key token. -/
  key : Bool
  /-- `temp_key`, as the string it holds. -/
  tempKey : Text
  conf : ConfStruct

/-- `sizeof(temp_key)`. -/
def tempKeySize : ℕ := 16

/-- One round of the `switch (token.type)`; `error` is the early return on a bad value. -/
def onToken (radio : RadioType) (index : ℕ) (st : ParseState) :
    YamlToken → Except ParseState ParseState
  | .key => .ok { st with key := true }
  | .value => .ok { st with key := false }
  | .scalar raw =>
    if st.key then
      .ok { st with tempKey := if (cstr raw).length < tempKeySize then cstr raw else [] }
    else if radioHalYamlInputValidation (cstr raw) = 0 then .error st
    else .ok { st with conf := storeValue radio index st.tempKey (cstr raw) st.conf }
  | .noToken => .ok st
  | .streamEnd => .ok st
  | .other => .ok st

section Scalars

variable {radio : RadioType} {index : ℕ} {st : ParseState} {raw : Text}

theorem onToken_scalar_key (hkey : st.key = true) :
    onToken radio index st (.scalar raw) =
      .ok { st with tempKey := if (cstr raw).length < tempKeySize then cstr raw else [] } := by
  rw [onToken, if_pos hkey]

/-- A scalar that passes the whitelist is stored when it is a value. -/
theorem onToken_scalar_value (hkey : st.key = false)
    (hgood : radioHalYamlInputValidation (cstr raw) ≠ 0) :
    onToken radio index st (.scalar raw) =
      .ok { st with conf := storeValue radio index st.tempKey (cstr raw) st.conf } := by
  rw [onToken, if_neg (by simp [hkey]), if_neg hgood]

/-- A scalar that does not pass the whitelist ends the call. -/
theorem onToken_scalar_bad (hkey : st.key = false)
    (hbad : radioHalYamlInputValidation (cstr raw) = 0) :
    onToken radio index st (.scalar raw) = .error st := by
  rw [onToken, if_neg (by simp [hkey]), if_pos hbad]

end Scalars

/-! ### The loops -/

/-- The body of the `do … while` loop over the tokens of one file. -/
def scanBody (radio : RadioType) (index : ℕ) (x : Scan × ParseState) :
    (Scan × ParseState) ⊕ Except ParseState ParseState :=
  match onToken radio index x.2 (yamlParserScan x.1).1 with
  | .error st => .inr (.error st)
  | .ok st =>
    if (yamlParserScan x.1).1 = .streamEnd then .inr (.ok st)
    else .inl ((yamlParserScan x.1).2, st)

/-- The `while` loop over the file names; `fuel` bounds the rounds spent on one file. -/
def configFilesLoop (fopen : Text → Opened) (radio : RadioType) (fuel : ℕ) :
    ℕ → List Text → ParseState → Option (ℤ × ConfStruct)
  | _, [], st => some (0, st.conf)
  | index, fileName :: rest, st =>
    match fopen fileName with
    | .notOpened => some (-1, st.conf)
    | .noParser => some (-1, st.conf)
    | .scanning s =>
      match Loop.loop (scanBody radio index) fuel (s, st) with
      | none => none
      | some (.error st') => some (-1, st'.conf)
      | some (.ok st') => configFilesLoop fopen radio fuel (index + 1) rest st'

/-- The names in a list separated by spaces, as `strtok` hands them out. -/
def fileNames (configFiles : Text) : List Text :=
  (configFiles.splitOn ' ').filter fun name => !name.isEmpty

/-- `radio_hal_yaml_config`: the return value and the slots.  The value returned at the end is
the one of the last `radio_hal_yaml_…_config`, and each of these always returns `0`. -/
def radioHalYamlConfig (fopen : Text → Opened) (fuel : ℕ) (confStruct : ConfStruct)
    (configFiles : Text) (radio : RadioType) : Option (ℤ × ConfStruct) :=
  if configFiles.isEmpty then some (-1, confStruct)
  else configFilesLoop fopen radio fuel 0 (fileNames configFiles) ⟨false, [], confStruct⟩

/-! ### One file -/

/-- The tokens of a file, in order, up to a bad value. -/
def onTokens (radio : RadioType) (index : ℕ) (st : ParseState) :
    List YamlToken → Except ParseState ParseState
  | [] => .ok st
  | t :: ts =>
    match onToken radio index st t with
    | .error st' => .error st'
    | .ok st' => onTokens radio index st' ts

section OneFile

variable {radio : RadioType} {index : ℕ}

variable (radio index) in
theorem scanBody_cons (e : ScanEnd) {t : YamlToken} {ts : List YamlToken}
    (h : YamlToken.streamEnd ∉ t :: ts) (st : ParseState) :
    scanBody radio index (⟨t :: ts, e, h⟩, st) =
      match onToken radio index st t with
      | .error st' => .inr (.error st')
      | .ok st' => .inl (⟨ts, e, fun hmem => h (List.mem_cons_of_mem t hmem)⟩, st') := by
  have ht : t ≠ .streamEnd := fun he => h (he ▸ List.mem_cons_self)
  unfold scanBody yamlParserScan
  dsimp only
  cases onToken radio index st t with
  | error st' => rfl
  | ok st' => exact if_neg ht

theorem scan_of_error {s : Scan} {st st' : ParseState}
    (h : onTokens radio index st s.tokens = .error st') :
    Loop.Returns (scanBody radio index) (s, st) (.error st') := by
  obtain ⟨ts, e, hts⟩ := s
  induction ts generalizing st with
  | nil => exact absurd h (by simp [onTokens])
  | cons t ts ih =>
    have hbody := scanBody_cons radio index e hts st
    rw [onTokens] at h
    cases ht : onToken radio index st t with
    | error st₁ =>
      rw [ht] at h hbody
      obtain rfl := Except.error.inj h
      exact ⟨1, Loop.loop_leave hbody 0⟩
    | ok st₁ =>
      rw [ht] at h hbody
      obtain ⟨n, hn⟩ := ih _ h
      exact ⟨n + 1, (Loop.loop_again hbody n).trans hn⟩

/-- A file that is scanned to the end of its stream is left behind. -/
theorem scan_of_streamEnd {s : Scan} {st st' : ParseState}
    (h : onTokens radio index st s.tokens = .ok st') (hend : s.ending = .streamEnd) :
    Loop.Returns (scanBody radio index) (s, st) (.ok st') := by
  obtain ⟨ts, e, hts⟩ := s
  obtain rfl : e = .streamEnd := hend
  induction ts generalizing st with
  | nil =>
    obtain rfl := Except.ok.inj h
    exact ⟨1, rfl⟩
  | cons t ts ih =>
    have hbody := scanBody_cons radio index .streamEnd hts st
    rw [onTokens] at h
    cases ht : onToken radio index st t with
    | error st₁ => rw [ht] at h; exact absurd h (by simp)
    | ok st₁ =>
      rw [ht] at h hbody
      obtain ⟨n, hn⟩ := ih _ h
      exact ⟨n + 1, (Loop.loop_again hbody n).trans hn⟩

/-- **A scanner error is never left behind**: every further scan yields an empty token, and only
the end of the stream leaves the loop. -/
theorem scan_diverges {s : Scan} {st st' : ParseState}
    (h : onTokens radio index st s.tokens = .ok st') (hend : s.ending = .scannerError) :
    Loop.Diverges (scanBody radio index) (s, st) := by
  obtain ⟨ts, e, hts⟩ := s
  obtain rfl : e = .scannerError := hend
  induction ts generalizing st with
  | nil =>
    -- the loop comes back to where it was
    refine Loop.diverges_of_invariant (fun x => x = (⟨[], .scannerError, hts⟩, st)) ?_ rfl
    rintro x rfl
    exact ⟨_, rfl, rfl⟩
  | cons t ts ih =>
    have hbody := scanBody_cons radio index .scannerError hts st
    rw [onTokens] at h
    cases ht : onToken radio index st t with
    | error st₁ => rw [ht] at h; exact absurd h (by simp)
    | ok st₁ =>
      rw [ht] at h hbody
      intro n
      cases n with
      | zero => rfl
      | succ n => exact (Loop.loop_again hbody n).trans (ih _ h n)

/-- What the loop over one file leaves with is what the tokens of the file make of the state. -/
theorem onTokens_of_returns {s : Scan} {st : ParseState} {r : Except ParseState ParseState}
    (h : Loop.Returns (scanBody radio index) (s, st) r) :
    onTokens radio index st s.tokens = r ∧ (s.ending = .scannerError → ∃ st', r = .error st') := by
  cases hts : onTokens radio index st s.tokens with
  | error st' =>
    obtain rfl := (scan_of_error hts).unique h
    exact ⟨rfl, fun _ => ⟨st', rfl⟩⟩
  | ok st' =>
    cases hend : s.ending with
    | streamEnd =>
      obtain rfl := (scan_of_streamEnd hts hend).unique h
      exact ⟨rfl, fun h' => absurd h' (by simp)⟩
    | scannerError => exact absurd h ((scan_diverges hts hend).not_returns r)

end OneFile

end RadioHal
