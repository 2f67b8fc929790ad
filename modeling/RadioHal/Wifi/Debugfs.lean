import RadioHal.Wifi.Acknowledged
import RadioHal.Wifi.Startup

/-!
# Files under debugfs

`wifi_debugfs_init` finds out where the debugfs directory of a radio is, and leaves an empty root
when it does not.  All later writes go to a file below that root, and none of them asks whether
there is one.

## Main definitions

* `wifiCaptureSpectralScan` — a spectral scan.
* `RadioCall` — the operations that write to debugfs.
* `WritesUnder root` — every file that is written is named behind `root`.
* `Session`, `OnBehalf` — operations behind `init_handler`, and what radio `i` asks in them.
* `StaysInDebugfs` — radio `i` writes below the directory of its phy only, and not at all when the
  directory was not found.

## Main results

* `onlyAsks_run` — an operation writes under the root of its radio.
* `root_of_session` — the root stays as `wifi_debugfs_init` has left it.
* `stays_in_debugfs_iff` — **writes stay in debugfs exactly when `wifi_debugfs_init` succeeds.**
-/

namespace RadioHal.Wifi

open CLib Dialogue

/-! ### Spectral scans -/

/-- The command that copies what a scan has captured into a file. -/
def captureCommand (sc : WifiSoftc) (index : Slot) (driver filename : Text) : Text :=
  "cat ".toList ++ phyDir sc index ++ driver ++ "/spectral_scan0 > ".toList ++ filename

/-- `wifi_capture_spectral_scan`, with the file name that `strftime` makes of the time.  The length
that `asprintf` returns is handed on; `-ENOTSUP` is `-95`. -/
def wifiCaptureSpectralScan (filename : Text) (sc : WifiSoftc) (index : Slot) : WifiM ℤ :=
  match sc.drvVersion index with
  | .ath9k => do
    let written ← wifiDebugfsWrite sc "spectral_scan_ctl".toList "chanscan".toList index
    if written ≠ 0 then return written
    let _ ← wifiHalTriggerScan sc index
    let written ← wifiDebugfsWrite sc "spectral_scan_ctl".toList "disable".toList index
    if written ≠ 0 then return written
    let cmd := captureCommand sc index "ath9k".toList filename
    let _ ← query (WifiQ.popen cmd)
    return cmd.length
  | .ath10k => do
    let written ← wifiDebugfsWrite sc "spectral_scan_ctl".toList "background".toList index
    if written ≠ 0 then return written
    let written ← wifiDebugfsWrite sc "spectral_scan_ctl".toList "trigger".toList index
    if written ≠ 0 then return written
    let _ ← wifiHalTriggerScan sc index
    let written ← wifiDebugfsWrite sc "spectral_scan_ctl".toList "disable".toList index
    if written ≠ 0 then return written
    let cmd := captureCommand sc index "ath10k".toList filename
    let _ ← query (WifiQ.popen cmd)
    return cmd.length
  | .ath11k => ret (-95)
  | .brcmFmac => ret (-95)
  | .versionMax => ret (-95)

/-- `wifi_hal_capture_spectral_scan`. -/
def wifiHalCaptureSpectralScan (filename : Text) (sc : WifiSoftc) (index : Slot) : WifiM ℤ := do
  let captured ← wifiCaptureSpectralScan filename sc index
  return if captured ≠ 0 then -1 else 0

/-! ### What is written -/

/-- A file that is written is named behind `root`. -/
def WritesUnder (root : Text) : WifiQ → Prop
  | .writeFile path _ => root ++ "/".toList <+: path
  | _ => True

/-- The operations on a radio that write to debugfs. -/
inductive RadioCall
  | connectAp
  | createAp
  | joinMesh
  | captureSpectralScan (filename : Text)

section Writes

variable (nl : Netlink.Libnl NlAttrs) (ctx : WifiContext) (sc : WifiSoftc) (index : Slot)

/-- The program of an operation, with the softc and the result that it leaves. -/
def RadioCall.run : RadioCall → WifiM (WifiSoftc × ℤ)
  | connectAp => do
    let result ← wifiHalConnectAp nl ctx sc index
    return (sc, result)
  | createAp => do
    let result ← wifiHalCreateAp nl ctx sc index
    return (sc, result)
  | joinMesh => wifiHalJoinMesh nl ctx sc index
  | captureSpectralScan filename => do
    let result ← wifiHalCaptureSpectralScan filename sc index
    return (sc, result)

theorem ofCommands_writesUnder (root : Text) : OfCommands (WritesUnder root) :=
  ⟨trivial, fun _ _ => trivial⟩

theorem writesUnder_of_mute (root : Text) {q : WifiQ} (h : WifiQ.Mute q) : WritesUnder root q := by
  cases q <;> trivial

theorem onlyAsks_wifiDebugfsWrite (filename cmd : Text) :
    OnlyAsks (WritesUnder (sc.debugfsRoot index)) (wifiDebugfsWrite sc filename cmd index) :=
  ⟨List.prefix_append _ _, fun _ => trivial⟩

theorem onlyAsks_setCard_writesUnder (config : WifiConfig) :
    OnlyAsks (WritesUnder (sc.debugfsRoot index)) (setCard nl sc index config) :=
  onlyAsks_setCard_of nl (fun _ => writesUnder_of_mute _) sc index config (List.prefix_append _ _)

theorem onlyAsks_wifiHalJoinMesh_writesUnder :
    OnlyAsks (WritesUnder (sc.debugfsRoot index)) (wifiHalJoinMesh nl ctx sc index) := by
  refine ⟨trivial, fun meshCtrl => ?_⟩
  show OnlyAsks _ (if _ then _ else _)
  split
  · trivial
  · have hcard := onlyAsks_setCard_writesUnder nl
      (sc.setWpaCtx index { sc.wpaCtx index with meshCtrl := meshCtrl }) index
    exact (onlyAsks_joinMeshNetwork_of nl ctx (ofCommands_writesUnder _) hcard).bind
      fun _ => trivial

theorem onlyAsks_wifiCaptureSpectralScan (filename : Text) :
    OnlyAsks (WritesUnder (sc.debugfsRoot index)) (wifiCaptureSpectralScan filename sc index) := by
  have hwrite := onlyAsks_wifiDebugfsWrite sc index "spectral_scan_ctl".toList
  have hscan : OnlyAsks (WritesUnder (sc.debugfsRoot index)) (wifiHalTriggerScan sc index) :=
    ⟨trivial, fun _ => (onlyAsks_wifiHalSendWpaCommand (ofCommands_writesUnder _) sc index _ _).bind
      fun _ => trivial⟩
  unfold wifiCaptureSpectralScan
  split
  · refine (hwrite _).bind fun written => ?_
    split
    · trivial
    refine hscan.bind fun _ => (hwrite _).bind fun written => ?_
    split
    · trivial
    · exact ⟨trivial, fun _ => trivial⟩
  · refine (hwrite _).bind fun written => ?_
    split
    · trivial
    refine (hwrite _).bind fun written => ?_
    split
    · trivial
    refine hscan.bind fun _ => (hwrite _).bind fun written => ?_
    split
    · trivial
    · exact ⟨trivial, fun _ => trivial⟩
  · trivial
  · trivial
  · trivial

/-- **An operation writes behind the root of its radio.**  The root may be any text here, and its
radio any one of them. -/
theorem onlyAsks_run (call : RadioCall) :
    OnlyAsks (WritesUnder (sc.debugfsRoot index)) (call.run nl ctx sc index) := by
  have hcommands := ofCommands_writesUnder (sc.debugfsRoot index)
  have hcard := onlyAsks_setCard_writesUnder nl sc index
  cases call with
  | connectAp => exact (onlyAsks_wifiHalConnectAp_of nl ctx hcommands hcard).bind fun _ => trivial
  | createAp => exact (onlyAsks_wifiHalCreateAp_of nl ctx hcommands hcard).bind fun _ => trivial
  | joinMesh => exact onlyAsks_wifiHalJoinMesh_writesUnder nl ctx sc index
  | captureSpectralScan filename =>
    have hscan : OnlyAsks (WritesUnder (sc.debugfsRoot index))
        (wifiHalCaptureSpectralScan filename sc index) :=
      (onlyAsks_wifiCaptureSpectralScan sc index filename).bind fun _ => trivial
    exact hscan.bind fun _ => trivial

theorem onlyAsks_setUpMode_writesUnder (config : WifiConfig) :
    OnlyAsks (WritesUnder (sc.debugfsRoot index)) (setUpMode nl ctx sc index config) := by
  have hcommands := ofCommands_writesUnder (sc.debugfsRoot index)
  have hcard := onlyAsks_setCard_writesUnder nl sc index
  unfold setUpMode
  split
  · exact (onlyAsks_wifiHalCreateAp_of nl ctx hcommands hcard).bind fun _ => trivial
  split
  · exact (onlyAsks_wifiHalConnectAp_of nl ctx hcommands hcard).bind fun _ => trivial
  split
  · exact (onlyAsks_wifiHalJoinMesh_writesUnder nl ctx sc index).bind fun _ => trivial
  · trivial

/-! ### The root -/

theorem yields_wifiHalJoinMesh_root :
    Yields (fun r : WifiSoftc × ℤ => r.1.debugfsRoot = sc.debugfsRoot)
      (wifiHalJoinMesh nl ctx sc index) := by
  intro meshCtrl
  show Yields _ (if _ then _ else _)
  split
  · rfl
  · exact Yields.bind_of_forall fun _ => rfl

theorem yields_run_root (call : RadioCall) :
    Yields (fun r : WifiSoftc × ℤ => r.1.debugfsRoot = sc.debugfsRoot)
      (call.run nl ctx sc index) := by
  cases call with
  | connectAp => exact Yields.bind_of_forall fun _ => rfl
  | createAp => exact Yields.bind_of_forall fun _ => rfl
  | joinMesh => exact yields_wifiHalJoinMesh_root nl ctx sc index
  | captureSpectralScan filename => exact Yields.bind_of_forall fun _ => rfl

theorem yields_setUpMode_root (config : WifiConfig) :
    Yields (fun r : WifiSoftc × WifiState => r.1.debugfsRoot = sc.debugfsRoot)
      (setUpMode nl ctx sc index config) := by
  unfold setUpMode
  split
  · exact Yields.bind_of_forall fun _ => rfl
  split
  · exact Yields.bind_of_forall fun _ => rfl
  split
  · exact (yields_wifiHalJoinMesh_root nl ctx sc index).bind fun _ h => h
  · rfl

/-- **When `wifi_debugfs_init` succeeds, the root begins with the directory of the phy.**  The name
of the phy must fit its field for this. -/
theorem yields_wifiDebugfsInit_root (hphy : (sc.phyname index).length < radioPhynameSize) :
    Yields (fun r : WifiSoftc × ℤ => r.2 = 0 → phyDir sc index <+: r.1.debugfsRoot index)
      (wifiDebugfsInit sc index) := by
  have hversion : Yields (fun r : WifiSoftc × ℤ => r.1.phyname = sc.phyname)
      (wifiGetDriverVersion sc index) := by
    refine Yields.bind_of_forall fun found => ?_
    cases found <;> rfl
  refine hversion.bind fun driver hdriver => ?_
  have hdir : phyDir driver.1 index = phyDir sc index := by
    unfold phyDir
    rw [hdriver]
  have hbase : (wifiGetDbgfsBasedir (driver.1.drvVersion index)).length ≤ 6 := by
    cases driver.1.drvVersion index <;> decide
  -- the whole path fits
  have hroot : snprintf radioDebugfsDirsize (phyDir driver.1 index ++
      wifiGetDbgfsBasedir (driver.1.drvVersion index) ++ "/".toList) =
        phyDir sc index ++ wifiGetDbgfsBasedir (driver.1.drvVersion index) ++ "/".toList := by
    have hlen : (phyDir sc index).length ≤ 39 := by
      unfold phyDir radioPhynameSize at *
      simp
      omega
    rw [hdir]
    refine List.take_of_length_le ?_
    rw [List.length_append, List.length_append]
    unfold radioDebugfsDirsize
    have hslash : "/".toList.length = 1 := rfl
    omega
  dsimp only
  split
  · exact fun h => absurd h (by decide : (-13 : ℤ) ≠ 0)
  intro found
  show Yields _ (if _ then _ else _)
  split
  · exact fun h => absurd h (by decide : (-13 : ℤ) ≠ 0)
  · intro _
    show phyDir sc index <+: Function.update driver.1.debugfsRoot index _ index
    rw [Function.update_self, hroot, List.append_assoc]
    exact List.prefix_append _ _

end Writes

/-! ### Sessions -/

section Sessions

variable (nl : Netlink.Libnl NlAttrs) (ctx : WifiContext) (i : Slot) (sc₀ : WifiSoftc)
  (stats : WifiTranscript)

/-- The states between operations, on any radios, behind `init_handler` for radio `i`; the `stat`
calls of the handler were answered as in `stats`. -/
inductive Session : WifiSoftc → Prop
  | init {t : WifiTranscript} {r : WifiSoftc × WifiState}
      (hinit : After (initHandler nl ctx sc₀ i) (⟨.callsInitHandler i, ()⟩ :: (stats ++ t))
        (ret r)) : Session r.1
  | call {sc : WifiSoftc} (c : RadioCall) {j : Slot} {t : WifiTranscript} {r : WifiSoftc × ℤ}
      (hsession : Session sc) (hcall : After (c.run nl ctx sc j) t (ret r)) : Session r.1

/-- What is asked on behalf of radio `i` until some moment of `init_handler` or of a later
operation on the radio. -/
inductive OnBehalf : WifiTranscript → Prop
  | init {t : WifiTranscript} {p : WifiM (WifiSoftc × WifiState)}
      (hinit : After (initHandler nl ctx sc₀ i) (⟨.callsInitHandler i, ()⟩ :: (stats ++ t)) p) :
      OnBehalf (⟨.callsInitHandler i, ()⟩ :: (stats ++ t))
  | call {sc : WifiSoftc} (c : RadioCall) {t : WifiTranscript} {p : WifiM (WifiSoftc × ℤ)}
      (hsession : Session nl ctx i sc₀ stats sc) (hcall : After (c.run nl ctx sc i) t p) :
      OnBehalf t

/-- All that radio `i` writes is in the directory of its phy, and it writes only if
`wifi_debugfs_init` returned zero. -/
def StaysInDebugfs (result : ℤ) : Prop :=
  ∀ t, OnBehalf nl ctx i sc₀ stats t → ∀ (path text : Text) (opened : Bool),
    (⟨.writeFile path text, opened⟩ : Exchange WifiQ WifiA) ∈ t →
      phyDir sc₀ i <+: path ∧ result = 0

variable {nl ctx i sc₀ stats} {r₀ : WifiSoftc × ℤ}

/-- Behind the `stat` calls, `init_handler` sets the mode up. -/
theorem after_setUpMode_of_initHandler (hstats : After (wifiDebugfsInit sc₀ i) stats (ret r₀))
    {t : WifiTranscript} {p : WifiM (WifiSoftc × WifiState)}
    (hinit : After (initHandler nl ctx sc₀ i) (⟨.callsInitHandler i, ()⟩ :: (stats ++ t)) p) :
    After (WifiM.deref (ctx.config i) >>= setUpMode nl ctx r₀.1 i) t p := by
  have hrest : After (wifiDebugfsInit sc₀ i >>= fun debugfs =>
      WifiM.deref (ctx.config i) >>= setUpMode nl ctx debugfs.1 i) (stats ++ t) p := by
    cases hinit with
    | reply _ h => exact h
  exact hstats.of_bind hrest

/-- **The root stays as `wifi_debugfs_init` has left it.**  No call behind it writes to this field.
-/
theorem root_of_session (hstats : After (wifiDebugfsInit sc₀ i) stats (ret r₀)) {sc : WifiSoftc}
    (hsession : Session nl ctx i sc₀ stats sc) : sc.debugfsRoot = r₀.1.debugfsRoot := by
  induction hsession with
  | init hinit =>
    have hyields : Yields (fun r : WifiSoftc × WifiState => r.1.debugfsRoot = r₀.1.debugfsRoot)
        (WifiM.deref (ctx.config i) >>= setUpMode nl ctx r₀.1 i) :=
      Yields.bind_of_forall fun config => yields_setUpMode_root nl ctx r₀.1 i config
    exact hyields.of_after (after_setUpMode_of_initHandler hstats hinit)
  | call c _ hcall ih => exact ((yields_run_root nl ctx _ _ c).of_after hcall).trans ih

/-- All that is written on behalf of the radio is behind the root. -/
theorem writesUnder_of_onBehalf (hstats : After (wifiDebugfsInit sc₀ i) stats (ret r₀))
    {t : WifiTranscript} (ht : OnBehalf nl ctx i sc₀ stats t) :
    ∀ x ∈ t, WritesUnder (r₀.1.debugfsRoot i) x.1 := by
  cases ht with
  | init hinit =>
    have hmode : OnlyAsks (WritesUnder (r₀.1.debugfsRoot i))
        (WifiM.deref (ctx.config i) >>= setUpMode nl ctx r₀.1 i) :=
      (onlyAsks_deref trivial _).bind fun config =>
        onlyAsks_setUpMode_writesUnder nl ctx r₀.1 i config
    have hmute := onlyAsks_wifiDebugfsInit sc₀ i
    refine List.forall_mem_cons.mpr ⟨trivial, List.forall_mem_append.mpr ⟨fun x hx => ?_, ?_⟩⟩
    · exact writesUnder_of_mute _ (hmute.of_mem hstats x hx)
    · exact hmode.of_mem (after_setUpMode_of_initHandler hstats hinit)
  | call c hsession hcall =>
    have hroot := root_of_session hstats hsession
    rw [← hroot]
    exact (onlyAsks_run nl ctx _ i c).of_mem hcall

/-! ### Writes without a directory -/

variable (nl) in
/-- A radio that is attached to wpa_supplicant and has a configuration can come to write. -/
theorem exists_write (hconfig : ctx.config i ≠ none) {sc : WifiSoftc}
    (hmonitor : (sc.wpaCtx i).monitor ≠ none) (hctrl : (sc.wpaCtx i).ctrl ≠ none) :
    ∃ (t : WifiTranscript) (p : WifiM (WifiSoftc × ℤ)) (path text : Text),
      After (RadioCall.connectAp.run nl ctx sc i) t p ∧
        (⟨.writeFile path text, true⟩ : Exchange WifiQ WifiA) ∈ t := by
  obtain ⟨c, hc⟩ := Option.ne_none_iff_exists'.mp hctrl
  obtain ⟨config, hconfig⟩ := Option.ne_none_iff_exists'.mp hconfig
  obtain ⟨r₁, hremoved, -, hroom₁⟩ := answered_okAnswer two_le_zero_len
  obtain ⟨r₂, hadded, -, -⟩ := answered_okAnswer hroom₁
  have hnonneg : ¬ (0 : ℤ) < 0 := lt_irrefl 0
  let write : Exchange WifiQ WifiA :=
    ⟨.writeFile (sc.debugfsRoot i ++ "/".toList ++ "chanbw".toList) config.bwText, true⟩
  have hcard : ∃ p, After (setCard nl sc i config) [write] p := by
    unfold setCard wifiDebugfsWrite
    rw [query_bind, ask_bind]
    exact exists_after_ask ⟨_, .start _⟩
  obtain ⟨p, hrun⟩ : ∃ p, After (wifiHalConnectAp nl ctx sc i)
      [⟨.wpaRequest c "REMOVE_NETWORK all".toList, okAnswer⟩,
        ⟨.wpaRequest c "ADD_NETWORK".toList, okAnswer⟩, write] p := by
    unfold wifiHalConnectAp
    rw [wifiHalSendWpaCommand_of_ctrl hmonitor hc, hconfig]
    refine exists_after_sendOver ?_
    rw [hremoved, if_neg hnonneg]
    refine exists_after_sendOver ?_
    rw [hadded, if_neg hnonneg]
    obtain ⟨p, hcard⟩ := hcard
    exact ⟨_, hcard.bind _⟩
  have hmem : write ∈ [⟨.wpaRequest c "REMOVE_NETWORK all".toList, okAnswer⟩,
      ⟨.wpaRequest c "ADD_NETWORK".toList, okAnswer⟩, write] :=
    List.mem_cons_of_mem _ (List.mem_cons_of_mem _ List.mem_cons_self)
  exact ⟨_, _, _, _, hrun.bind _, hmem⟩

variable (nl) in
/-- A configured radio that is attached gets through `init_handler`, whatever its `stat` calls
answer. -/
theorem exists_session (hstats : After (wifiDebugfsInit sc₀ i) stats (ret r₀))
    (hconfig : ctx.config i ≠ none) (hctrl : (sc₀.wpaCtx i).ctrl ≠ none) :
    ∃ sc, Session nl ctx i sc₀ stats sc ∧ SameTables sc₀ sc := by
  obtain ⟨config, hconfig⟩ := Option.ne_none_iff_exists'.mp hconfig
  have hkept := (yields_wifiDebugfsInit sc₀ i).of_after hstats
  have hctrl₀ : (r₀.1.wpaCtx i).ctrl ≠ none := by rwa [hkept.ctrl]
  obtain ⟨t, r, hmode, hkept', -⟩ :=
    (canReturn_setUpMode nl ctx (fun _ => hctrl₀) config).exists_after
      (yields_setUpMode nl ctx r₀.1 i config)
  have hrest : After (wifiDebugfsInit sc₀ i >>= fun debugfs =>
      WifiM.deref (ctx.config i) >>= setUpMode nl ctx debugfs.1 i) (stats ++ t) (ret r) := by
    refine after_bind_iff.mpr ⟨stats, r₀, t, rfl, hstats, ?_⟩
    rw [hconfig]
    exact hmode
  have hinit : After (initHandler nl ctx sc₀ i) (⟨.callsInitHandler i, ()⟩ :: (stats ++ t))
      (ret r) := by
    unfold initHandler
    rw [query_bind]
    exact .reply _ hrest
  exact ⟨r.1, .init hinit, (hkept.trans hkept').toSameTables⟩

/-- **Writes stay in debugfs when `wifi_debugfs_init` succeeds**, whatever happens; **and only
then**, for a radio that has a configuration and is attached. -/
theorem stays_in_debugfs_iff (nl : Netlink.Libnl NlAttrs) (ctx : WifiContext) {i : Slot}
    {sc₀ : WifiSoftc} {stats : WifiTranscript} {r₀ : WifiSoftc × ℤ}
    (hphy : (sc₀.phyname i).length < radioPhynameSize)
    (hstats : After (wifiDebugfsInit sc₀ i) stats (ret r₀)) :
    (r₀.2 = 0 → StaysInDebugfs nl ctx i sc₀ stats r₀.2) ∧
      (ctx.config i ≠ none → (sc₀.wpaCtx i).ctrl ≠ none → (sc₀.wpaCtx i).monitor ≠ none →
        StaysInDebugfs nl ctx i sc₀ stats r₀.2 → r₀.2 = 0) := by
  constructor
  · intro hzero t ht path text opened hmem
    have hroot := (yields_wifiDebugfsInit_root sc₀ i hphy).of_after hstats hzero
    have hunder : r₀.1.debugfsRoot i ++ "/".toList <+: path :=
      writesUnder_of_onBehalf hstats ht _ hmem
    exact ⟨(hroot.trans (List.prefix_append _ _)).trans hunder, hzero⟩
  · intro hconfig hctrl hmonitor hstays
    obtain ⟨sc, hsession, htables⟩ := exists_session nl hstats hconfig hctrl
    have hmonitor' : (sc.wpaCtx i).monitor ≠ none := by rwa [htables.monitor]
    have hctrl' : (sc.wpaCtx i).ctrl ≠ none := by rwa [htables.ctrl]
    obtain ⟨t, p, path, text, hcall, hmem⟩ := exists_write nl hconfig hmonitor' hctrl'
    exact (hstays t (.call .connectAp hsession hcall) path text true hmem).2

/-- The first phy has two radios that are attached. -/
def phy0Softc : WifiSoftc := { openSoftc with phyname := fun _ => "0".toList }

/-- Every path names a directory, or none does. -/
def statsAnswered (found : Option Bool) : (q : WifiQ) → Option (WifiA q)
  | .stat _ => some found
  | _ => none

/-- For an ath9k card that is found at once, everything that is written stays in its directory. -/
theorem ath9k_stays_in_debugfs : ∃ stats r₀, After (wifiDebugfsInit phy0Softc 0) stats (ret r₀) ∧
    StaysInDebugfs .standard twoConfigs 0 phy0Softc stats r₀.2 := by
  have hstats := after_play (statsAnswered (some true)) 2 (wifiDebugfsInit phy0Softc 0)
  exact ⟨_, _, hstats, (stays_in_debugfs_iff .standard twoConfigs (by decide) hstats).1 rfl⟩

/-- Not all writes stay in debugfs: without the directory of a driver they go to the root of the
file system. -/
theorem not_all_stay_in_debugfs : ¬ ∀ (nl : Netlink.Libnl NlAttrs) (ctx : WifiContext) (i : Slot)
    (sc₀ : WifiSoftc) (stats : WifiTranscript) (r₀ : WifiSoftc × ℤ),
    (sc₀.phyname i).length < radioPhynameSize → After (wifiDebugfsInit sc₀ i) stats (ret r₀) →
    StaysInDebugfs nl ctx i sc₀ stats r₀.2 := by
  intro h
  have hstats := after_play (statsAnswered none) 4 (wifiDebugfsInit phy0Softc 0)
  have hstays := h .standard twoConfigs 0 phy0Softc _ _ (by decide) hstats
  have hconfig : twoConfigs.config 0 ≠ none := Option.some_ne_none _
  obtain ⟨sc, hsession, htables⟩ := exists_session .standard hstats hconfig (openSoftc_open 0).1
  have hmonitor : (sc.wpaCtx 0).monitor ≠ none := by
    rw [htables.monitor]
    exact (openSoftc_open 0).2
  have hctrl : (sc.wpaCtx 0).ctrl ≠ none := by
    rw [htables.ctrl]
    exact (openSoftc_open 0).1
  obtain ⟨t, p, path, text, hcall, hmem⟩ := exists_write .standard hconfig hmonitor hctrl
  have hzero := (hstays t (.call .connectAp hsession hcall) path text true hmem).2
  exact absurd hzero (by decide)

end Sessions

end RadioHal.Wifi
