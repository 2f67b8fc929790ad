import RadioHal.Wifi.Debugfs
import RadioHal.Lib.Stuck

/-!
# Spectral scans

A spectral scan is switched on and off by words that are written to a control file of the driver.
`wifi_capture_spectral_scan` leaves as soon as one of them cannot be written; the length that
`asprintf` returns for its last command is what it returns when all goes well.

Which words switch the scan on is a matter of the driver, and is left open here.

## Main definitions

* `controlWords`, `switchingWords` — the words of a driver, and those ahead of `disable`.
* `writesTo`, `programsOf` — the writes to a file in a run, and the programs started in it.
* `CapturedProperly` — what is returned is true, and the scan is not left switched on.
* `CaptureInOrder` — not all words can be written, and none that switches the scan on comes ahead
  of one that cannot be.
* `CaptureEnd` — the ways in which a capture ends.

## Main results

* `wifiCaptureSpectralScan_eq` — both sequences are one program.
* `yields_wifiHalCaptureSpectralScan` — no capture returns zero.
* `wp_captureWith` — how a capture ends.
* `exists_openedAs` — every run has its words that can be written and its words that cannot.
* `captured_properly_iff` — **a capture is reported and cleaned up exactly when it is in order.**
-/

namespace RadioHal.Wifi

open CLib Dialogue

/-! ### The property -/

/-- The words a driver is given, in order. -/
def controlWords : WifiDriverVersion → List Text
  | .ath9k => ["chanscan".toList, "disable".toList]
  | .ath10k => ["background".toList, "trigger".toList, "disable".toList]
  | .ath11k => []
  | .brcmFmac => []
  | .versionMax => []

/-- The words that a driver is switched by, ahead of the one that starts the scan. -/
def switchingWords (driver : WifiDriverVersion) : List Text := (controlWords driver).dropLast

/-- The `spectral_scan_ctl` file of a radio, in its debugfs directory. -/
def spectralScanCtl (sc : WifiSoftc) (index : Slot) : Text :=
  sc.debugfsRoot index ++ "/".toList ++ "spectral_scan_ctl".toList

/-- The writes to a file, each with whether the file could be opened for it. -/
def writesTo (path : Text) (t : WifiTranscript) : List (Text × Bool) :=
  t.filterMap fun x =>
    match x with
    | ⟨.writeFile p text, opened⟩ => if p = path then some (text, opened) else none
    | _ => none

/-- The programs that are started along a run, by their command lines. -/
def programsOf (t : WifiTranscript) : List Text :=
  t.filterMap fun x =>
    match x with
    | ⟨.popen cmd, _⟩ => some cmd
    | _ => none

/-- A driver has a sequence of control words. -/
def HasSequence (driver : WifiDriverVersion) : Prop := driver = .ath9k ∨ driver = .ath10k

/-- All words of the driver have been written to the control file, and the captured data has been
copied. -/
def Captured (filename : Text) (sc : WifiSoftc) (index : Slot) (t : WifiTranscript) : Prop :=
  HasSequence (sc.drvVersion index) ∧
    (∀ word ∈ controlWords (sc.drvVersion index),
      (word, true) ∈ writesTo (spectralScanCtl sc index) t) ∧
    captureCommand sc index (wifiGetDbgfsBasedir (sc.drvVersion index)) filename ∈ programsOf t

/-- When a word that switches the scan on has been written, the last word written is `disable`, or
`disable` could not be written. -/
def SwitchedOff (switchesOn : Text → Prop) (writes : List (Text × Bool)) : Prop :=
  (∃ word, switchesOn word ∧ (word, true) ∈ writes) →
    (writes.filter fun w => w.2).getLast? = some ("disable".toList, true) ∨
      ("disable".toList, false) ∈ writes

/-- **A capture is reported and cleaned up.** -/
structure CapturedProperly (switchesOn : Text → Prop) (filename : Text) (sc : WifiSoftc)
    (index : Slot) (t : WifiTranscript) (p : WifiM ℤ) : Prop where
  reported : p = ret 0 ↔ Captured filename sc index t
  switchedOff : SwitchedOff switchesOn (writesTo (spectralScanCtl sc index) t)

/-- A capture has come to its end: it has returned, or it reads through a null pointer. -/
def CaptureEnded (p : WifiM ℤ) : Prop := (∃ r, p = ret r) ∨ Stuck .nullDeref p

/-- The control file can be opened for the words of which `opened` says so. -/
def OpenedAs (opened : Text → Bool) (x : Exchange WifiQ WifiA) : Prop :=
  ∀ (path text : Text) (answer : Bool), x = ⟨.writeFile path text, answer⟩ → answer = opened text

/-! ### The condition -/

/-- Asking for a scan does not follow a null pointer. -/
def CanScan (sc : WifiSoftc) (index : Slot) : Prop :=
  (sc.wpaCtx index).monitor = none ∨ (sc.wpaCtx index).ctrl ≠ none

/-- The capture is not completed; and once a word that switches the scan on can be written, what
comes between it and `disable` goes well. -/
structure CaptureInOrder (switchesOn : Text → Prop) (opened : Text → Bool) (sc : WifiSoftc)
    (index : Slot) : Prop where
  incomplete : ¬ (HasSequence (sc.drvVersion index) ∧
    (∀ word ∈ controlWords (sc.drvVersion index), opened word = true) ∧ CanScan sc index)
  noneLeftOn : (∃ word ∈ (switchingWords (sc.drvVersion index)).takeWhile opened,
      switchesOn word) →
    (∀ word ∈ switchingWords (sc.drvVersion index), opened word = true) ∧ CanScan sc index

/-! ### One program for both drivers -/

section Sequences

variable (filename : Text) (sc : WifiSoftc) (index : Slot)

/-- Control words are written, up to the first one that cannot be. -/
def writeControls (next : WifiM ℤ) : List Text → WifiM ℤ
  | [] => next
  | word :: words => do
    let written ← wifiDebugfsWrite sc "spectral_scan_ctl".toList word index
    if written ≠ 0 then return written
    writeControls next words

/-- The captured data is copied out of debugfs by a program. -/
def copyCaptured (driver : Text) : WifiM ℤ := do
  let cmd := captureCommand sc index driver filename
  let _ ← query (WifiQ.popen cmd)
  return cmd.length

/-- A scan between some words that switch it on and `disable`. -/
def captureWith (driver : Text) (words : List Text) : WifiM ℤ :=
  writeControls sc index (do
    let _ ← wifiHalTriggerScan sc index
    writeControls sc index (copyCaptured filename sc index driver) ["disable".toList]) words

/-- **The sequences of both drivers are one program**, which goes through the words of the driver.
-/
theorem wifiCaptureSpectralScan_eq (h : HasSequence (sc.drvVersion index)) :
    wifiCaptureSpectralScan filename sc index =
      captureWith filename sc index (wifiGetDbgfsBasedir (sc.drvVersion index))
        (switchingWords (sc.drvVersion index)) := by
  unfold wifiCaptureSpectralScan
  rcases h with h | h
  · rw [h]
    rfl
  · rw [h]
    rfl

theorem wifiCaptureSpectralScan_of_not (h : ¬ HasSequence (sc.drvVersion index)) :
    wifiCaptureSpectralScan filename sc index = ret (-95) := by
  unfold wifiCaptureSpectralScan HasSequence at *
  cases hdriver : sc.drvVersion index with
  | ath9k => exact absurd (Or.inl hdriver) h
  | ath10k => exact absurd (Or.inr hdriver) h
  | ath11k => rfl
  | brcmFmac => rfl
  | versionMax => rfl

end Sequences

theorem controlWords_eq {driver : WifiDriverVersion} (h : HasSequence driver) :
    controlWords driver = switchingWords driver ++ ["disable".toList] := by
  rcases h with rfl | rfl
  · rfl
  · rfl

theorem controlWords_of_not {driver : WifiDriverVersion} (h : ¬ HasSequence driver) :
    controlWords driver = [] := by
  cases driver with
  | ath9k => exact absurd (Or.inl rfl) h
  | ath10k => exact absurd (Or.inr rfl) h
  | ath11k => rfl
  | brcmFmac => rfl
  | versionMax => rfl

theorem disable_notMem (driver : WifiDriverVersion) :
    "disable".toList ∉ switchingWords driver := by
  cases driver <;> decide

/-! ### How a capture ends -/

/-- The ways in which a capture ends, by the writes to the control file and the programs that were
started. -/
inductive CaptureEnd (opened : Text → Bool) (canScan : Prop) (words : List Text) (cmd : Text) :
    List (Text × Bool) → List Text → Prop
  /-- A word ahead of the scan cannot be written. -/
  | refused {done rest : List Text} {word : Text} (hwords : words = done ++ word :: rest)
      (hdone : ∀ w ∈ done, opened w = true) (hword : opened word = false) :
      CaptureEnd opened canScan words cmd (done.map (·, true) ++ [(word, false)]) []
  /-- Asking for the scan follows a null pointer. -/
  | stuck (hwords : ∀ w ∈ words, opened w = true) (hscan : ¬ canScan) :
      CaptureEnd opened canScan words cmd (words.map (·, true)) []
  /-- `disable` cannot be written. -/
  | leftOn (hwords : ∀ w ∈ words, opened w = true) (hscan : canScan)
      (hdisable : opened "disable".toList = false) :
      CaptureEnd opened canScan words cmd (words.map (·, true) ++ [("disable".toList, false)]) []
  /-- All goes well. -/
  | captured (hwords : ∀ w ∈ words, opened w = true) (hscan : canScan)
      (hdisable : opened "disable".toList = true) :
      CaptureEnd opened canScan words cmd (words.map (·, true) ++ [("disable".toList, true)]) [cmd]

namespace CaptureEnd

variable {opened : Text → Bool} {canScan : Prop} {words : List Text} {cmd : Text}
  {writes : List (Text × Bool)} {programs : List Text}

/-- All words are written and the data is copied when all words can be written and the scan can be
asked for. -/
theorem captured_iff (h : CaptureEnd opened canScan words cmd writes programs) :
    ((∀ word ∈ words ++ ["disable".toList], (word, true) ∈ writes) ∧ cmd ∈ programs) ↔
      (∀ word ∈ words ++ ["disable".toList], opened word = true) ∧ canScan := by
  cases h with
  | @refused done rest word hwords hdone hword =>
    refine iff_of_false (fun h => absurd h.2 List.not_mem_nil) fun h => ?_
    rw [h.1 word (by simp [hwords])] at hword
    cases hword
  | stuck hwords hscan =>
    exact iff_of_false (fun h => absurd h.2 List.not_mem_nil) fun h => hscan h.2
  | leftOn hwords hscan hdisable =>
    refine iff_of_false (fun h => absurd h.2 List.not_mem_nil) fun h => ?_
    rw [h.1 _ (by simp)] at hdisable
    cases hdisable
  | captured hwords hscan hdisable =>
    refine iff_of_true ⟨?_, List.mem_singleton_self cmd⟩ ⟨?_, hscan⟩
    · intro word hword
      rcases List.mem_append.mp hword with hword | hword
      · exact List.mem_append_left _ (List.mem_map_of_mem hword)
      · obtain rfl := List.mem_singleton.mp hword
        exact List.mem_append_right _ (List.mem_singleton_self _)
    · intro word hword
      rcases List.mem_append.mp hword with hword | hword
      · exact hwords word hword
      · obtain rfl := List.mem_singleton.mp hword
        exact hdisable

/-- Words that have been written with no `disable` behind them leave the scan as they have switched
it. -/
theorem switchedOff_iff_of_written {switchesOn : Text → Prop} {done : List Text}
    (hwritten : writes.filter (fun w => w.2) = done.map (·, true))
    (hdone : "disable".toList ∉ done) (hrefused : ("disable".toList, false) ∉ writes) :
    SwitchedOff switchesOn writes ↔ ¬ ∃ word ∈ done, switchesOn word := by
  have hmem : ∀ word, (word, true) ∈ writes ↔ word ∈ done := by
    intro word
    have hfilter : (word, true) ∈ writes ↔ (word, true) ∈ writes.filter fun w => w.2 := by simp
    rw [hfilter, hwritten]
    simp
  have hlast : (writes.filter fun w => w.2).getLast? ≠ some ("disable".toList, true) := by
    intro h
    have hwrite := List.mem_of_mem_filter (List.mem_of_getLast? h)
    exact hdone ((hmem _).mp hwrite)
  unfold SwitchedOff
  simp only [hmem, hlast, hrefused, or_self, imp_false]
  simp only [and_comm]

theorem filter_written (done : List Text) :
    (done.map (·, true)).filter (fun w => w.2) = done.map (·, true) :=
  List.filter_eq_self.mpr (by simp)

theorem refused_notMem_written (word : Text) (done : List Text) :
    (word, false) ∉ done.map (·, true) := by
  intro hmem
  obtain ⟨_, -, h⟩ := List.mem_map.mp hmem
  cases (Prod.mk.inj h).2

/-- The scan is not left switched on when nothing goes wrong behind a word that switches it on. -/
theorem switchedOff_iff (h : CaptureEnd opened canScan words cmd writes programs)
    (hwords : "disable".toList ∉ words) {switchesOn : Text → Prop} :
    SwitchedOff switchesOn writes ↔ ((∃ word ∈ words.takeWhile opened, switchesOn word) →
      (∀ word ∈ words, opened word = true) ∧ canScan) := by
  cases h with
  | @refused done rest word heq hdone hword =>
    subst heq
    have htake : (done ++ word :: rest).takeWhile opened = done := by
      rw [List.takeWhile_append_of_pos hdone, List.takeWhile_cons_of_neg (by simp [hword]),
        List.append_nil]
    rw [List.mem_append, List.mem_cons, not_or, not_or] at hwords
    have hrefused : ("disable".toList, false) ∉ done.map (·, true) ++ [(word, false)] := by
      intro hmem
      rcases List.mem_append.mp hmem with hmem | hmem
      · exact refused_notMem_written _ _ hmem
      · exact hwords.2.1 (Prod.mk.inj (List.mem_singleton.mp hmem)).1
    have hnot : ¬ ((∀ w ∈ done ++ word :: rest, opened w = true) ∧ canScan) := by
      intro h
      rw [h.1 word (by simp)] at hword
      cases hword
    rw [imp_iff_not hnot, htake]
    refine switchedOff_iff_of_written ?_ hwords.1 hrefused
    rw [List.filter_append, filter_written]
    exact List.append_nil _
  | stuck hopened hscan =>
    have hnot : ¬ ((∀ w ∈ words, opened w = true) ∧ canScan) := fun h => hscan h.2
    rw [imp_iff_not hnot, List.takeWhile_eq_self_iff.mpr hopened]
    exact switchedOff_iff_of_written (filter_written words) hwords
      (refused_notMem_written _ words)
  | leftOn hopened hscan hdisable =>
    refine iff_of_true (fun _ => Or.inr ?_) fun _ => ⟨hopened, hscan⟩
    exact List.mem_append_right _ (List.mem_singleton_self _)
  | captured hopened hscan hdisable =>
    refine iff_of_true (fun _ => Or.inl ?_) fun _ => ⟨hopened, hscan⟩
    rw [List.filter_append]
    exact List.getLast?_concat

end CaptureEnd

/-! ### Runs -/

/-- Between two moments of a run some words are written to a file, and no program is started. -/
def Writes (path : Text) (t : WifiTranscript) (words : List (Text × Bool)) (t' : WifiTranscript) :
    Prop :=
  writesTo path t' = writesTo path t ++ words ∧ programsOf t' = programsOf t

theorem Writes.refl (path : Text) (t : WifiTranscript) : Writes path t [] t :=
  ⟨(List.append_nil _).symm, rfl⟩

theorem Writes.trans {path : Text} {t t' t'' : WifiTranscript} {words words' : List (Text × Bool)}
    (h : Writes path t words t') (h' : Writes path t' words' t'') :
    Writes path t (words ++ words') t'' :=
  ⟨by rw [h'.1, h.1, List.append_assoc], h'.2.trans h.2⟩

theorem writes_write (path text : Text) (opened : Bool) (t : WifiTranscript) :
    Writes path t [(text, opened)] (t ++ [⟨.writeFile path text, opened⟩]) := by
  constructor
  · simp [writesTo]
  · simp [programsOf]

theorem programsOf_popen (cmd : Text) (f : Option Text) (t : WifiTranscript) :
    programsOf (t ++ [⟨.popen cmd, f⟩]) = programsOf t ++ [cmd] := by
  simp [programsOf]

theorem writesTo_popen (path cmd : Text) (f : Option Text) (t : WifiTranscript) :
    writesTo path (t ++ [⟨.popen cmd, f⟩]) = writesTo path t := by
  simp [writesTo]

section Runs

variable {opened : Text → Bool} {I : WifiTranscript → WifiQ → Prop}
  {post : ℤ → WifiTranscript → Prop} {sc : WifiSoftc} {index : Slot} {t : WifiTranscript}

/-- Control words are written one by one, as long as the file can be opened. -/
theorem wp_writeControls (hI : ∀ t q, q ≠ .nullDeref → I t q) {next : WifiM ℤ} {words : List Text}
    (hrefused : ∀ done word rest t', words = done ++ word :: rest →
      (∀ w ∈ done, opened w = true) → opened word = false →
      Writes (spectralScanCtl sc index) t (done.map (·, true) ++ [(word, false)]) t' → post (-1) t')
    (hnext : ∀ t', (∀ w ∈ words, opened w = true) →
      Writes (spectralScanCtl sc index) t (words.map (·, true)) t' →
        wp (constrained (OpenedAs opened)) I post next t') :
    wp (constrained (OpenedAs opened)) I post (writeControls sc index next words) t := by
  induction words generalizing t with
  | nil => exact hnext t (fun w hw => absurd hw List.not_mem_nil) (Writes.refl _ t)
  | cons word words ih =>
    refine ⟨hI t _ (by simp), ?_⟩
    rintro answer _ ⟨hopened, rfl⟩
    obtain rfl : answer = opened word := hopened _ _ _ rfl
    have hwrite := writes_write (spectralScanCtl sc index) word (opened word) t
    cases hword : opened word with
    | false =>
      rw [hword] at hwrite
      exact hrefused [] word words _ rfl (fun w hw => absurd hw List.not_mem_nil) hword hwrite
    | true =>
      rw [hword] at hwrite
      refine ih ?_ ?_
      · intro done word' rest t' heq hdone hword' hwrites
        refine hrefused (word :: done) word' rest t' (by rw [heq]; rfl) ?_ hword'
          (hwrite.trans hwrites)
        exact List.forall_mem_cons.mpr ⟨hword, hdone⟩
      · intro t' hwords hwrites
        exact hnext t' (List.forall_mem_cons.mpr ⟨hword, hwords⟩) (hwrite.trans hwrites)

/-- Asking for a scan writes nothing; it returns, or follows a null pointer. -/
theorem wp_wifiHalTriggerScan (hI : ∀ t q, q ≠ .nullDeref → I t q) {path : Text}
    (hreturn : ∀ t', CanScan sc index → Writes path t [] t' → post 0 t')
    (hstuck : ∀ t', ¬ CanScan sc index → Writes path t [] t' → I t' .nullDeref) :
    wp (constrained (OpenedAs opened)) I post (wifiHalTriggerScan sc index) t := by
  refine ⟨hI t _ (by simp), ?_⟩
  rintro buf _ ⟨-, rfl⟩
  have hbuf : Writes path t [] (t ++ [⟨.uninitBuffer cmdBufferSize, buf⟩]) :=
    ⟨by simp [writesTo], by simp [programsOf]⟩
  show wp _ _ _ (wifiHalSendWpaCommand sc index _ _ >>= _) _
  by_cases hmonitor : (sc.wpaCtx index).monitor = none
  · rw [wifiHalSendWpaCommand_of_no_monitor hmonitor]
    exact hreturn _ (Or.inl hmonitor) hbuf
  · cases hctrl : (sc.wpaCtx index).ctrl with
    | none =>
      rw [wifiHalSendWpaCommand_of_no_ctrl hmonitor hctrl]
      have hscan : ¬ CanScan sc index := by
        rintro (h | h)
        · exact hmonitor h
        · exact h hctrl
      exact ⟨hstuck _ hscan hbuf, fun e => (e : Empty).elim⟩
    | some c =>
      rw [wifiHalSendWpaCommand_of_ctrl hmonitor hctrl]
      refine ⟨hI _ _ (by simp), ?_⟩
      rintro answer _ ⟨-, rfl⟩
      have hscan : CanScan sc index := Or.inr (by rw [hctrl]; exact Option.some_ne_none c)
      exact hreturn _ hscan (hbuf.trans ⟨by simp [writesTo], by simp [programsOf]⟩)

/-- A run of `captureWith` has come to one of its ends. -/
def CaptureEndsAt (opened : Text → Bool) (filename : Text) (sc : WifiSoftc) (index : Slot)
    (driver : Text) (words : List Text) (t : WifiTranscript) : Prop :=
  CaptureEnd opened (CanScan sc index) words (captureCommand sc index driver filename)
    (writesTo (spectralScanCtl sc index) t) (programsOf t)

/-- **How a capture ends**, by what can be written and whether the scan can be asked for. -/
theorem wp_captureWith (filename : Text) (sc : WifiSoftc) (index : Slot) (driver : Text)
    (words : List Text) : wp (constrained (OpenedAs opened))
      (fun t q => q = .nullDeref → CaptureEndsAt opened filename sc index driver words t)
      (fun _ t => CaptureEndsAt opened filename sc index driver words t)
      (captureWith filename sc index driver words) [] := by
  have hother : ∀ (t : WifiTranscript) (q : WifiQ), q ≠ .nullDeref → q = .nullDeref →
      CaptureEndsAt opened filename sc index driver words t := fun _ _ hne h => absurd h hne
  unfold CaptureEndsAt at hother ⊢
  refine wp_writeControls hother ?_ fun t₁ hwords h₁ => ?_
  · rintro done word rest t heq hdone hword ⟨hwrites, hprograms⟩
    rw [hwrites, hprograms]
    exact .refused heq hdone hword
  rw [wp_bind]
  refine wp_wifiHalTriggerScan hother
    (fun t₂ hscan (h₂ : Writes (spectralScanCtl sc index) t₁ [] t₂) => ?_) fun t₂ hscan h₂ _ => ?_
  · refine wp_writeControls hother ?_ fun t₃ hdisable h₃ => ?_
    · rintro done word rest t₃ heq hdone hword h₃
      -- `disable` is the only word of this sequence
      obtain ⟨rfl, rfl, rfl⟩ : done = [] ∧ word = "disable".toList ∧ rest = [] := by
        cases done with
        | nil => exact ⟨rfl, (List.cons.inj heq).1.symm, (List.cons.inj heq).2.symm⟩
        | cons w done => simp at heq
      obtain ⟨hwrites, hprograms⟩ := (h₁.trans h₂).trans h₃
      rw [hwrites, hprograms, List.append_nil]
      exact .leftOn hwords hscan hword
    · refine ⟨hother _ _ (by simp), ?_⟩
      rintro f _ ⟨-, rfl⟩
      obtain ⟨hwrites, hprograms⟩ := (h₁.trans h₂).trans h₃
      show CaptureEnd _ _ _ _ _ _
      rw [writesTo_popen, programsOf_popen, hwrites, hprograms, List.append_nil]
      exact .captured hwords hscan (hdisable _ (List.mem_singleton_self _))
  · obtain ⟨hwrites, hprograms⟩ := h₁.trans h₂
    rw [hwrites, hprograms, List.append_nil]
    exact .stuck hwords hscan

end Runs

/-! ### Every pattern of refusals -/

/-- The texts that are written to files. -/
def textsOf (t : WifiTranscript) : List Text :=
  t.filterMap fun x =>
    match x with
    | ⟨.writeFile _ text, _⟩ => some text
    | _ => none

theorem textsOf_cons_other {q : WifiQ} (hq : ∀ path text, q ≠ .writeFile path text) (a : WifiA q)
    (t : WifiTranscript) : textsOf (⟨q, a⟩ :: t) = textsOf t := by
  unfold textsOf
  cases q <;> first | rfl | exact absurd rfl (hq _ _)

theorem textsOf_append (t t' : WifiTranscript) : textsOf (t ++ t') = textsOf t ++ textsOf t' :=
  List.filterMap_append

theorem textsOf_eq_nil {t : WifiTranscript} (h : ∀ x ∈ t, ∀ path text, x.1 ≠ .writeFile path text) :
    textsOf t = [] := by
  induction t with
  | nil => rfl
  | cons x t ih =>
    obtain ⟨hx, ht⟩ := List.forall_mem_cons.mp h
    exact (textsOf_cons_other hx x.2 t).trans (ih ht)

theorem textsOf_writeControls {sc : WifiSoftc} {index : Slot} {next : WifiM ℤ} {rest : List Text}
    (hnext : ∀ t p, After next t p → textsOf t <+: rest) {words : List Text} {t : WifiTranscript}
    {p : WifiM ℤ} (hrun : After (writeControls sc index next words) t p) :
    textsOf t <+: words ++ rest := by
  induction words generalizing t with
  | nil => exact hnext t p hrun
  | cons word words ih =>
    cases hrun with
    | start => exact List.nil_prefix
    | @reply _ _ t _ answer hrun =>
      show word :: textsOf t <+: word :: (words ++ rest)
      rw [List.cons_prefix_cons]
      refine ⟨rfl, ?_⟩
      cases answer with
      | false =>
        obtain ⟨rfl, -⟩ := hrun.of_ret
        exact List.nil_prefix
      | true => exact ih hrun

/-- The words of a driver are written in their order, each of them once at most. -/
theorem textsOf_capture {filename : Text} {sc : WifiSoftc} {index : Slot} {t : WifiTranscript}
    {p : WifiM ℤ} (hdriver : HasSequence (sc.drvVersion index))
    (hrun : After (wifiCaptureSpectralScan filename sc index) t p) :
    textsOf t <+: switchingWords (sc.drvVersion index) ++ ["disable".toList] := by
  rw [wifiCaptureSpectralScan_eq filename sc index hdriver] at hrun
  refine textsOf_writeControls (fun t p hrun => ?_) hrun
  have hscan : OnlyAsks (fun q => ∀ path text, q ≠ .writeFile path text)
      (wifiHalTriggerScan sc index) := by
    have hcommands : OfCommands fun q => ∀ path text, q ≠ .writeFile path text :=
      ⟨fun _ _ => by simp, fun _ _ _ _ => by simp⟩
    exact ⟨fun _ _ => by simp, fun _ => (onlyAsks_wifiHalSendWpaCommand hcommands sc index _ _).bind
      fun _ => trivial⟩
  rcases hrun.bind_cases with ⟨q, hscanned⟩ | ⟨t₁, a, t₂, rfl, hscanned, hrest⟩
  · rw [textsOf_eq_nil (hscan.of_mem hscanned)]
    exact List.nil_prefix
  · rw [textsOf_append, textsOf_eq_nil (hscan.of_mem hscanned), List.nil_append]
    have hcopied : ∀ t p, After (copyCaptured filename sc index
        (wifiGetDbgfsBasedir (sc.drvVersion index))) t p → textsOf t <+: [] := by
      intro t p hrun
      cases hrun with
      | start => exact List.nil_prefix
      | reply f hrun =>
        obtain ⟨rfl, -⟩ := hrun.of_ret
        exact List.nil_prefix
    exact textsOf_writeControls hcopied hrest

/-- Where no text is written twice it can be said of each whether the file can be opened for it. -/
theorem exists_openedAs_of_nodup {t : WifiTranscript} (h : (textsOf t).Nodup) :
    ∃ opened, ∀ x ∈ t, OpenedAs opened x := by
  induction t with
  | nil => exact ⟨fun _ => false, fun x hx => absurd hx List.not_mem_nil⟩
  | cons x t ih =>
    obtain ⟨q, a⟩ := x
    by_cases hq : ∃ path text, q = .writeFile path text
    · obtain ⟨path, text, rfl⟩ := hq
      obtain ⟨hnew, hrest⟩ := List.nodup_cons.mp (h : (text :: textsOf t).Nodup)
      obtain ⟨opened, hopened⟩ := ih hrest
      refine ⟨Function.update opened text a, List.forall_mem_cons.mpr ⟨?_, ?_⟩⟩
      · intro p word answer heq
        cases heq
        rw [Function.update_self]
      · intro x hx p word answer heq
        have hmem : word ∈ textsOf t := List.mem_filterMap.mpr ⟨x, hx, by rw [heq]⟩
        have hne : word ≠ text := fun e => hnew (by rwa [e] at hmem)
        rw [Function.update_of_ne hne]
        exact hopened x hx p word answer heq
    · rw [not_exists] at hq
      simp only [not_exists] at hq
      rw [textsOf_cons_other hq] at h
      obtain ⟨opened, hopened⟩ := ih h
      refine ⟨opened, List.forall_mem_cons.mpr ⟨?_, hopened⟩⟩
      intro p word answer heq
      cases heq
      exact absurd rfl (hq _ _)

/-- **In every run the file can be opened for some words and not for others.** -/
theorem exists_openedAs {filename : Text} {sc : WifiSoftc} {index : Slot} {t : WifiTranscript}
    {p : WifiM ℤ} (hrun : After (wifiHalCaptureSpectralScan filename sc index) t p) :
    ∃ opened, ∀ x ∈ t, OpenedAs opened x := by
  obtain ⟨q, hcapture⟩ : ∃ q, After (wifiCaptureSpectralScan filename sc index) t q := by
    rcases hrun.bind_cases with hcapture | ⟨t₁, a, t₂, rfl, hcapture, hrest⟩
    · exact hcapture
    · obtain ⟨rfl, -⟩ := hrest.of_ret
      exact ⟨_, (List.append_nil t₁).symm ▸ hcapture⟩
  by_cases hdriver : HasSequence (sc.drvVersion index)
  · have htexts := textsOf_capture hdriver hcapture
    rw [← controlWords_eq hdriver] at htexts
    refine exists_openedAs_of_nodup (htexts.sublist.nodup ?_)
    rcases hdriver with h | h
    · rw [h]
      decide
    · rw [h]
      decide
  · rw [wifiCaptureSpectralScan_of_not filename sc index hdriver] at hcapture
    obtain ⟨rfl, -⟩ := hcapture.of_ret
    exact ⟨fun _ => false, fun x hx => absurd hx List.not_mem_nil⟩

/-! ### What is returned -/

theorem yields_writeControls {sc : WifiSoftc} {index : Slot} {next : WifiM ℤ}
    (hnext : Yields (· ≠ 0) next) (words : List Text) :
    Yields (· ≠ 0) (writeControls sc index next words) := by
  induction words with
  | nil => exact hnext
  | cons word words ih =>
    intro answer
    cases answer with
    | false => exact (by decide : (-1 : ℤ) ≠ 0)
    | true => exact ih

/-- The length of the last command is not taken for a success. -/
theorem length_captureCommand_ne_zero (sc : WifiSoftc) (index : Slot) (driver filename : Text) :
    (captureCommand sc index driver filename).length ≠ 0 := by
  have hcat : "cat ".toList.length = 4 := by decide
  unfold captureCommand
  simp only [List.length_append]
  omega

/-- **No capture returns zero**: the length of its last command, or an error, makes it fail. -/
theorem yields_wifiHalCaptureSpectralScan (filename : Text) (sc : WifiSoftc) (index : Slot) :
    Yields (· = -1) (wifiHalCaptureSpectralScan filename sc index) := by
  have hcapture : Yields (· ≠ 0) (wifiCaptureSpectralScan filename sc index) := by
    by_cases h : HasSequence (sc.drvVersion index)
    · rw [wifiCaptureSpectralScan_eq filename sc index h]
      refine yields_writeControls (Yields.bind_of_forall fun _ => yields_writeControls ?_ _) _
      intro f
      exact Nat.cast_ne_zero.mpr (length_captureCommand_ne_zero sc index _ filename)
    · rw [wifiCaptureSpectralScan_of_not filename sc index h]
      exact (by decide : (-95 : ℤ) ≠ 0)
  exact hcapture.bind fun r hr => if_pos hr

/-! ### The main result -/

section Main

variable {switchesOn : Text → Prop} {opened : Text → Bool} {filename : Text} {sc : WifiSoftc}
  {index : Slot} {t : WifiTranscript} {p : WifiM ℤ}

/-- A run to the end is one of the ways in which a capture ends. -/
theorem captureEnd_of_run (hdriver : HasSequence (sc.drvVersion index))
    (hopened : ∀ x ∈ t, OpenedAs opened x)
    (hrun : After (wifiHalCaptureSpectralScan filename sc index) t p) (hend : CaptureEnded p) :
    CaptureEndsAt opened filename sc index (wifiGetDbgfsBasedir (sc.drvVersion index))
      (switchingWords (sc.drvVersion index)) t := by
  have hwp : wp (constrained (OpenedAs opened))
      (fun t q => q = .nullDeref → CaptureEndsAt opened filename sc index
        (wifiGetDbgfsBasedir (sc.drvVersion index)) (switchingWords (sc.drvVersion index)) t)
      (fun _ t => CaptureEndsAt opened filename sc index
        (wifiGetDbgfsBasedir (sc.drvVersion index)) (switchingWords (sc.drvVersion index)) t)
      (wifiHalCaptureSpectralScan filename sc index) [] := by
    unfold wifiHalCaptureSpectralScan
    rw [wp_bind, wifiCaptureSpectralScan_eq filename sc index hdriver]
    exact wp_captureWith filename sc index _ _
  have hended := wp_after_of_forall hrun hopened hwp
  rcases hend with ⟨r, rfl⟩ | ⟨k, rfl⟩
  · exact hended
  · exact hended.1 rfl

/-- **A capture is reported and cleaned up exactly when it is in order**: it is not completed, and
no word that switches the scan on is written ahead of something that goes wrong before `disable`. -/
theorem captured_properly_iff (hopened : ∀ x ∈ t, OpenedAs opened x)
    (hrun : After (wifiHalCaptureSpectralScan filename sc index) t p) (hend : CaptureEnded p) :
    CapturedProperly switchesOn filename sc index t p ↔
      CaptureInOrder switchesOn opened sc index := by
  have hnever : p ≠ ret 0 := by
    rintro rfl
    have hvalue := (yields_wifiHalCaptureSpectralScan filename sc index).of_after hrun
    exact absurd hvalue (by decide)
  by_cases hdriver : HasSequence (sc.drvVersion index)
  · have hcapture := captureEnd_of_run hdriver hopened hrun hend
    have hcaptured := hcapture.captured_iff
    have hoff : SwitchedOff switchesOn _ ↔ _ := hcapture.switchedOff_iff (disable_notMem _)
    rw [← controlWords_eq hdriver] at hcaptured
    constructor
    · intro h
      exact ⟨fun hall => hnever (h.reported.mpr ⟨hdriver, hcaptured.mpr hall.2⟩),
        hoff.mp h.switchedOff⟩
    · intro h
      exact ⟨iff_of_false hnever fun hall => h.incomplete ⟨hdriver, hcaptured.mp hall.2⟩,
        hoff.mpr h.noneLeftOn⟩
  · -- nothing is done
    have hnothing : t = [] := by
      unfold wifiHalCaptureSpectralScan at hrun
      rw [wifiCaptureSpectralScan_of_not filename sc index hdriver] at hrun
      exact hrun.of_ret.1
    subst hnothing
    have hwords : switchingWords (sc.drvVersion index) = [] := by
      unfold switchingWords
      rw [controlWords_of_not hdriver]
      rfl
    refine iff_of_true ⟨iff_of_false hnever fun h => hdriver h.1, ?_⟩
      ⟨fun h => hdriver h.1, ?_⟩
    · rintro ⟨word, -, hmem⟩
      exact absurd hmem List.not_mem_nil
    · rintro ⟨word, hmem, -⟩
      rw [hwords] at hmem
      exact absurd hmem List.not_mem_nil

/-! ### Two captures -/

/-- The file that a capture at the time zero goes to. -/
def captureFile : Text := "/var/log/spectral_data_0".toList

/-- The exchanges of a scan whose first word the driver refuses. -/
def refusedRun : WifiTranscript :=
  [⟨.writeFile (spectralScanCtl phy0Softc 0) "chanscan".toList, false⟩]

/-- A capture whose first word is refused is in order. -/
theorem captureInOrder_refused :
    CaptureInOrder (fun _ => True) (fun _ => false) phy0Softc 0 := by
  constructor
  · rintro ⟨-, hopened, -⟩
    exact absurd (hopened "chanscan".toList List.mem_cons_self) Bool.false_ne_true
  · rintro ⟨word, hword, -⟩
    have hnone : (switchingWords (phy0Softc.drvVersion 0)).takeWhile (fun _ => false) = [] := rfl
    rw [hnone] at hword
    exact absurd hword List.not_mem_nil

/-- A scan that is not switched on is reported as failed, and nothing is left on. -/
theorem refused_captured_properly :
    CapturedProperly (fun _ => True) captureFile phy0Softc 0 refusedRun (ret (-1)) := by
  have hopened : ∀ x ∈ refusedRun, OpenedAs (fun _ => false) x := by
    intro x hx path text answer heq
    obtain rfl := List.mem_singleton.mp hx
    cases heq
    rfl
  exact (captured_properly_iff hopened (after_replay rfl) (Or.inl ⟨_, rfl⟩)).mpr
    captureInOrder_refused

/-- Every file can be opened, every program be started, and wpa_supplicant answers. -/
def capturedRun : WifiTranscript :=
  [⟨.writeFile (spectralScanCtl phy0Softc 0) "chanscan".toList, true⟩,
    ⟨.uninitBuffer cmdBufferSize, CharArray.zero cmdBufferSize⟩,
    ⟨.wpaRequest 0 "SCAN".toList, okAnswer⟩,
    ⟨.writeFile (spectralScanCtl phy0Softc 0) "disable".toList, true⟩,
    ⟨.popen (captureCommand phy0Softc 0 "ath9k".toList captureFile), some []⟩]

/-- Not all captures are reported: where all goes well the function returns `-1`. -/
theorem not_all_captured_properly : ¬ ∀ (switchesOn : Text → Prop) (filename : Text)
    (sc : WifiSoftc) (index : Slot) (t : WifiTranscript) (p : WifiM ℤ),
    After (wifiHalCaptureSpectralScan filename sc index) t p → CaptureEnded p →
      CapturedProperly switchesOn filename sc index t p := by
  intro h
  have hrun : After (wifiHalCaptureSpectralScan captureFile phy0Softc 0) capturedRun (ret (-1)) :=
    after_replay rfl
  have hopened : ∀ x ∈ capturedRun, OpenedAs (fun _ => true) x := by
    unfold capturedRun
    simp only [List.forall_mem_cons]
    refine ⟨?_, ?_, ?_, ?_, ?_, fun x hx => absurd hx List.not_mem_nil⟩ <;>
      intro path text answer heq <;> cases heq
    · rfl
    · rfl
  have hdriver : HasSequence (phy0Softc.drvVersion 0) := Or.inl rfl
  have hcapture := captureEnd_of_run hdriver hopened hrun (Or.inl ⟨_, rfl⟩)
  have hcaptured := hcapture.captured_iff.mpr ⟨fun _ _ => rfl, Or.inr (openSoftc_open 0).1⟩
  rw [← controlWords_eq hdriver] at hcaptured
  have hreported := (h (fun _ => True) captureFile phy0Softc 0 capturedRun _ hrun
    (Or.inl ⟨_, rfl⟩)).reported.mpr ⟨hdriver, hcaptured⟩
  exact absurd (ret.inj hreported) (by decide)

end Main

end RadioHal.Wifi
