import Mathlib.Tactic.Common
import RadioHal.Yaml.Parse

/-!
# When reading the configuration ends

The loop over the tokens of a file leaves at the end of the stream and at a bad value, and
nowhere else: what the scanner returns is not looked at.  A file that ends in a scanner error is
therefore never left, unless a bad value in front of the error ends the call first.

## Main definitions

* `valueScalars key ts` — the scalars of `ts` the code takes for values, and `keyAfter key ts`
  the key flag behind them.
* `Ends` — the call returns, and a negative value if some file ends in a scanner error.
* `ErrorsOutOfReach` — every scanner error lies behind a bad value, a file that cannot be
  opened, or another scanner error.

## Main results

* `onTokens_isOk_iff` — the tokens of a file are taken exactly when all their values are good.
* `radioHalYamlConfig_ends_iff` — **the call ends exactly when no scanner error is reached.**
-/

namespace RadioHal

open CLib

/-! ### Values among the tokens -/

/-- The flag that a key has been seen, as the tokens leave it. -/
def keyAfter : Bool → List YamlToken → Bool
  | key, [] => key
  | _, .key :: ts => keyAfter true ts
  | _, .value :: ts => keyAfter false ts
  | key, .scalar _ :: ts => keyAfter key ts
  | key, .noToken :: ts => keyAfter key ts
  | key, .streamEnd :: ts => keyAfter key ts
  | key, .other :: ts => keyAfter key ts

/-- The scalars that come while the key flag is down. -/
def valueScalars : Bool → List YamlToken → List Text
  | _, [] => []
  | _, .key :: ts => valueScalars true ts
  | _, .value :: ts => valueScalars false ts
  | true, .scalar _ :: ts => valueScalars true ts
  | false, .scalar raw :: ts => raw :: valueScalars false ts
  | key, .noToken :: ts => valueScalars key ts
  | key, .streamEnd :: ts => valueScalars key ts
  | key, .other :: ts => valueScalars key ts

theorem valueScalars_append (key : Bool) (ts us : List YamlToken) :
    valueScalars key (ts ++ us) = valueScalars key ts ++ valueScalars (keyAfter key ts) us := by
  induction ts generalizing key with
  | nil => rfl
  | cons t ts ih =>
    cases t with
    | scalar raw => cases key <;> simp [valueScalars, keyAfter, ih]
    | _ => simp [valueScalars, keyAfter, ih]

/-- All characters a string function sees in the scalar are on the whitelist. -/
def GoodValue (raw : Text) : Prop := ∀ c ∈ cstr raw, allowedChar c = true

section Tokens

variable {radio : RadioType} {index : ℕ}

/-- Tokens that are taken move the key flag as `keyAfter` does. -/
theorem key_of_onTokens {ts : List YamlToken} {st st' : ParseState}
    (h : onTokens radio index st ts = .ok st') : st'.key = keyAfter st.key ts := by
  induction ts generalizing st with
  | nil =>
    obtain rfl := Except.ok.inj h
    rfl
  | cons t ts ih =>
    cases t with
    | scalar raw =>
      rw [onTokens] at h
      cases hkey : st.key with
      | true =>
        rw [onToken_scalar_key hkey] at h
        exact (ih h).trans (by rw [hkey]; rfl)
      | false =>
        by_cases hbad : radioHalYamlInputValidation (cstr raw) = 0
        · rw [onToken_scalar_bad hkey hbad] at h
          exact absurd h (by simp)
        · rw [onToken_scalar_value hkey hbad] at h
          exact (ih h).trans (by rw [hkey]; rfl)
    | _ => exact ih h

/-- **The tokens of a file are taken exactly when all their values are good.**  A bad one ends the
call, and no token behind it is looked at. -/
theorem onTokens_isOk_iff {ts : List YamlToken} {st : ParseState} :
    (∃ st', onTokens radio index st ts = .ok st') ↔
      ∀ v ∈ valueScalars st.key ts, GoodValue v := by
  induction ts generalizing st with
  | nil => exact iff_of_true ⟨st, rfl⟩ (by simp [valueScalars])
  | cons t ts ih =>
    cases t with
    | scalar raw =>
      rw [onTokens]
      cases hkey : st.key with
      | true =>
        rw [onToken_scalar_key hkey]
        exact ih.trans (by rw [hkey]; rfl)
      | false =>
        rw [valueScalars, List.forall_mem_cons]
        by_cases hbad : radioHalYamlInputValidation (cstr raw) = 0
        · rw [onToken_scalar_bad hkey hbad]
          refine iff_of_false (by simp) fun h => ?_
          exact radioHalYamlInputValidation_ne_zero.mpr h.1 hbad
        · have hgood : GoodValue raw := radioHalYamlInputValidation_ne_zero.mp hbad
          rw [onToken_scalar_value hkey hbad, and_iff_right hgood]
          exact ih.trans (by rw [hkey])
    | _ => exact ih

end Tokens

/-! ### The whole call -/

section Files

variable (fopen : Text → Opened)

/-- The file can be opened and its scan ends in an error. -/
def EndsInError (fileName : Text) : Prop :=
  ∃ s, fopen fileName = .scanning s ∧ s.ending = .scannerError

/-- The loop over the files returns, and a negative value if some file ends in an error. -/
def LoopEnds (radio : RadioType) (index : ℕ) (names : List Text) (st : ParseState) : Prop :=
  ∃ fuel r conf, configFilesLoop fopen radio fuel index names st = some (r, conf) ∧
    ((∃ name ∈ names, EndsInError fopen name) → r < 0)

/-- `radio_hal_yaml_config` returns, and a negative value if some file ends in an error. -/
def Ends (confStruct : ConfStruct) (configFiles : Text) (radio : RadioType) : Prop :=
  ∃ fuel r conf, radioHalYamlConfig fopen fuel confStruct configFiles radio = some (r, conf) ∧
    ((∃ name ∈ fileNames configFiles, EndsInError fopen name) → r < 0)

/-- No scanner error is met by a scan that starts with the key flag `key`: whenever the files
before a file are scanned to their ends, and the values in them and in the file are good, the
file is scanned to its end too. -/
def ErrorsOutOfReach (key : Bool) (names : List Text) : Prop :=
  ∀ (scans : List Scan) (s : Scan) (rest : List Opened),
    names.map fopen = scans.map Opened.scanning ++ .scanning s :: rest →
    (∀ x ∈ scans, x.ending = .streamEnd) →
    (∀ v ∈ valueScalars key (scans.flatMap Scan.tokens ++ s.tokens), GoodValue v) →
    s.ending = .streamEnd

variable {fopen}

/-- A file that is scanned to its end: the errors behind it stay out of reach. -/
theorem errorsOutOfReach_cons {key : Bool} {name : Text} {names : List Text} {s : Scan}
    (hopen : fopen name = .scanning s) (hend : s.ending = .streamEnd)
    (hgood : ∀ v ∈ valueScalars key s.tokens, GoodValue v) :
    ErrorsOutOfReach fopen key (name :: names) ↔
      ErrorsOutOfReach fopen (keyAfter key s.tokens) names := by
  constructor
  · intro h scans s' rest heq hends hvals
    refine h (s :: scans) s' rest ?_ ?_ ?_
    · rw [List.map_cons, hopen, heq]
      rfl
    · exact List.forall_mem_cons.mpr ⟨hend, hends⟩
    · rw [List.flatMap_cons, List.append_assoc, valueScalars_append]
      exact List.forall_mem_append.mpr ⟨hgood, hvals⟩
  · intro h scans s' rest heq hends hvals
    rw [List.map_cons, hopen] at heq
    cases scans with
    | nil =>
      obtain ⟨hs, -⟩ := List.cons.inj heq
      rw [← Opened.scanning.inj hs]
      exact hend
    | cons x scans =>
      obtain ⟨hx, htail⟩ := List.cons.inj heq
      obtain rfl := Opened.scanning.inj hx
      rw [List.flatMap_cons, List.append_assoc, valueScalars_append] at hvals
      exact h scans s' rest htail (fun y hy => hends y (List.mem_cons_of_mem _ hy))
        (List.forall_mem_append.mp hvals).2

/-- A file at which the call stops: nothing behind it is in reach. -/
theorem errorsOutOfReach_of_stop {key : Bool} {name : Text} {names : List Text}
    (hstop : ∀ s, fopen name = .scanning s → ∃ v ∈ valueScalars key s.tokens, ¬ GoodValue v) :
    ErrorsOutOfReach fopen key (name :: names) := by
  intro scans s rest heq _ hvals
  -- the first scan, whether among `scans` or `s` itself, has a bad value
  exfalso
  cases scans with
  | nil =>
    obtain ⟨v, hv, hbad⟩ := hstop s (List.cons.inj heq).1
    exact hbad (hvals v hv)
  | cons x scans =>
    obtain ⟨v, hv, hbad⟩ := hstop x (List.cons.inj heq).1
    rw [List.flatMap_cons, List.append_assoc, valueScalars_append] at hvals
    exact hbad (hvals v (List.mem_append_left _ hv))

section Loops

variable {radio : RadioType} {index : ℕ} {name : Text} {names : List Text} {st : ParseState}

/-- More fuel does not change what the loop over the files returns. -/
theorem configFilesLoop_mono {n m : ℕ} {res : ℤ × ConfStruct} (hle : n ≤ m)
    (h : configFilesLoop fopen radio n index names st = some res) :
    configFilesLoop fopen radio m index names st = some res := by
  induction names generalizing index st with
  | nil => exact h
  | cons name names ih =>
    rw [configFilesLoop] at h ⊢
    cases hopen : fopen name with
    | notOpened => rw [hopen] at h; exact h
    | noParser => rw [hopen] at h; exact h
    | scanning s =>
      rw [hopen] at h
      dsimp only at h ⊢
      cases hloop : Loop.loop (scanBody radio index) n (s, st) with
      | none => rw [hloop] at h; exact absurd h (by simp)
      | some out =>
        rw [hloop] at h
        rw [Loop.Returns.of_le hloop hle]
        cases out with
        | error st' => exact h
        | ok st' => exact ih h

/-- A call that stops with `-1` ends as it should. -/
theorem loopEnds_of_neg {n : ℕ} {conf : ConfStruct}
    (h : configFilesLoop fopen radio n index names st = some (-1, conf)) :
    LoopEnds fopen radio index names st :=
  ⟨n, -1, conf, h, fun _ => by omega⟩

/-- Behind a file scanned to its end, the loop goes on as from the next file. -/
theorem loopEnds_cons {s : Scan} {st' : ParseState} (hopen : fopen name = .scanning s)
    (hend : s.ending = .streamEnd) (hts : onTokens radio index st s.tokens = .ok st') :
    LoopEnds fopen radio index (name :: names) st ↔
      LoopEnds fopen radio (index + 1) names st' := by
  obtain ⟨m, hm⟩ := scan_of_streamEnd hts hend
  have herr : (∃ f ∈ name :: names, EndsInError fopen f) ↔ ∃ f ∈ names, EndsInError fopen f := by
    constructor
    · rintro ⟨f, hf, s', hs', herr⟩
      rcases List.mem_cons.mp hf with rfl | hf
      · rw [hopen] at hs'
        rw [← Opened.scanning.inj hs', hend] at herr
        exact absurd herr (by simp)
      · exact ⟨f, hf, s', hs', herr⟩
    · rintro ⟨f, hf, herr⟩
      exact ⟨f, List.mem_cons_of_mem _ hf, herr⟩
  constructor
  · rintro ⟨n, r, conf, hrun, hneg⟩
    rw [configFilesLoop, hopen] at hrun
    dsimp only at hrun
    cases hloop : Loop.loop (scanBody radio index) n (s, st) with
    | none => rw [hloop] at hrun; exact absurd hrun (by simp)
    | some res =>
      obtain rfl := Loop.Returns.unique ⟨n, hloop⟩ ⟨m, hm⟩
      rw [hloop] at hrun
      exact ⟨n, r, conf, hrun, fun h => hneg (herr.mpr h)⟩
  · rintro ⟨n, r, conf, hrun, hneg⟩
    -- enough fuel for this file and for all behind it
    refine ⟨max m n, r, conf, ?_, fun h => hneg (herr.mp h)⟩
    rw [configFilesLoop, hopen]
    dsimp only
    rw [Loop.Returns.of_le hm (le_max_left m n)]
    exact configFilesLoop_mono (le_max_right m n) hrun

/-- A file whose scanner error is reached keeps the call for ever. -/
theorem not_loopEnds_of_error {s : Scan} {st' : ParseState} (hopen : fopen name = .scanning s)
    (hend : s.ending = .scannerError) (hts : onTokens radio index st s.tokens = .ok st') :
    ¬ LoopEnds fopen radio index (name :: names) st := by
  rintro ⟨n, r, conf, hrun, -⟩
  rw [configFilesLoop, hopen] at hrun
  dsimp only at hrun
  rw [scan_diverges hts hend n] at hrun
  exact absurd hrun (by simp)

/-- The loop over the files ends exactly when no scanner error is reached. -/
theorem loopEnds_iff :
    LoopEnds fopen radio index names st ↔ ErrorsOutOfReach fopen st.key names := by
  induction names generalizing index st with
  | nil =>
    refine iff_of_true ⟨0, 0, st.conf, rfl, ?_⟩ fun scans s rest heq => ?_
    · rintro ⟨f, hf, -⟩
      exact absurd hf (by simp)
    · exact absurd heq (by simp)
  | cons name names ih =>
    cases hopen : fopen name with
    | notOpened =>
      have hneg : LoopEnds fopen radio index (name :: names) st :=
        @loopEnds_of_neg fopen radio index _ st 0 st.conf (by rw [configFilesLoop, hopen])
      refine iff_of_true hneg ?_
      exact errorsOutOfReach_of_stop fun s hs => absurd (hopen.symm.trans hs) (by simp)
    | noParser =>
      have hneg : LoopEnds fopen radio index (name :: names) st :=
        @loopEnds_of_neg fopen radio index _ st 0 st.conf (by rw [configFilesLoop, hopen])
      refine iff_of_true hneg ?_
      exact errorsOutOfReach_of_stop fun s hs => absurd (hopen.symm.trans hs) (by simp)
    | scanning s =>
      cases hts : onTokens radio index st s.tokens with
      | error st' =>
        -- a bad value ends the call, and nothing behind it is in reach
        obtain ⟨n, hn⟩ := scan_of_error hts
        have hrun :
            configFilesLoop fopen radio n index (name :: names) st = some (-1, st'.conf) := by
          rw [configFilesLoop, hopen]
          simp only [hn]
        refine iff_of_true (loopEnds_of_neg hrun) ?_
        refine errorsOutOfReach_of_stop fun s' hs' => ?_
        obtain rfl := Opened.scanning.inj (hopen.symm.trans hs')
        by_contra hgood
        simp only [not_exists, not_and, not_not] at hgood
        obtain ⟨st₁, hok⟩ := onTokens_isOk_iff.mpr hgood
        rw [hts] at hok
        exact absurd hok (by simp)
      | ok st' =>
        have hgood := onTokens_isOk_iff.mp ⟨st', hts⟩
        cases hend : s.ending with
        | streamEnd =>
          rw [loopEnds_cons hopen hend hts, errorsOutOfReach_cons hopen hend hgood, ih,
            key_of_onTokens hts]
        | scannerError =>
          refine iff_of_false (not_loopEnds_of_error hopen hend hts) fun h => ?_
          have := h [] s (names.map fopen) (by rw [List.map_cons, hopen]; rfl) (by simp) hgood
          rw [hend] at this
          exact absurd this (by simp)

end Loops

/-- With a non-empty list the call is the loop over the files. -/
theorem ends_iff_loopEnds {confStruct : ConfStruct} {configFiles : Text} {radio : RadioType}
    (h : configFiles.isEmpty = false) : Ends fopen confStruct configFiles radio ↔
      LoopEnds fopen radio 0 (fileNames configFiles) ⟨false, [], confStruct⟩ := by
  unfold Ends LoopEnds radioHalYamlConfig
  rw [h]
  exact Iff.rfl

/-- **`radio_hal_yaml_config` ends exactly when no scanner error is reached.** The loop looks only
for the end of the stream, and behind an error the scanner brings none. -/
theorem radioHalYamlConfig_ends_iff (fopen : Text → Opened) (confStruct : ConfStruct)
    (configFiles : Text) (radio : RadioType) :
    Ends fopen confStruct configFiles radio ↔
      ErrorsOutOfReach fopen false (fileNames configFiles) := by
  cases hempty : configFiles.isEmpty with
  | true =>
    obtain rfl := List.isEmpty_iff.mp hempty
    refine iff_of_true ⟨0, -1, confStruct, rfl, fun _ => by omega⟩ fun scans s rest heq => ?_
    exact absurd heq (by simp [fileNames])
  | false => rw [ends_iff_loopEnds hempty, loopEnds_iff]

/-- A file whose first token cannot be scanned. -/
def brokenFile : Scan := ⟨[], .scannerError, by simp⟩

/-- Such a file alone keeps the call for ever. -/
theorem broken_file_never_left : ¬ Ends (fun _ => .scanning brokenFile)
    ⟨fun _ => .zero, fun _ => .zero⟩ "a.yaml".toList .wifi := by
  have hnames : fileNames "a.yaml".toList = ["a.yaml".toList] := by decide
  rw [ends_iff_loopEnds rfl, hnames]
  exact not_loopEnds_of_error rfl rfl rfl

end Files

end RadioHal
