import RadioHal.Wifi.Addressed
import RadioHal.Yaml.Keys
import RadioHal.Yaml.ReadBack
import RadioHal.Yaml.Whitelist

/-!
# From the configuration file to wpa_supplicant

A configuration file gives the name of a network, its key, its frequency and its encryption.  The
parser stores them in the configuration of a radio, and the call that sets the radio up sends them
to wpa_supplicant.  What is sent is what the file says, if each value fits its field.  The files
ahead of it in the list must be there and hold nothing that ends the parsing, since the parser gives
up on all of them otherwise.

## Main definitions

* `NetworkTexts` — the texts of a network; `fileTexts pairs` — those of a file.
* `NetworkMode.commands` — the commands of a mode behind the adding of a network.
* `NetworkMode.preparation` — the commands ahead of them.
* `addedNetwork` — the network that wpa_supplicant has added, by its answers.
* `NetworkMode.allCommands` — all commands of a call.
* `wpaCommands t` — the commands sent in a run.
* `IsFileOf pairs s` — the file is a mapping of these pairs.

## Main results

* `texts_apply` — the texts that are read from a configuration are those of the file.
* `sentBy_run` — a call sends its commands, one after another.
* `network_as_configured` — **at every moment of a call the commands sent are a beginning of those
  that the file asks for, and all of them when the call succeeds.**
-/

namespace RadioHal.Wifi

open CLib Dialogue

/-! ### The commands of a mode -/

/-- What a configuration says of a network. -/
structure NetworkTexts where
  ssid : Text
  key : Text
  freq : Text
  enc : Text
  deriving DecidableEq

/-- The texts as the calls read them. -/
def texts (config : WifiConfig) : NetworkTexts :=
  ⟨config.ssidText, config.keyText, config.freqText, config.encText⟩

/-- The commands of a mode behind the adding of the network `nwId`. -/
def NetworkMode.commands (nwId : Text) (w : NetworkTexts) : NetworkMode → List Text
  | station =>
    [setNetwork nwId ("ssid ".toList ++ quoted w.ssid),
      setNetwork nwId ("psk ".toList ++ quoted w.key), "ENABLE_NETWORK ".toList ++ nwId]
  | accessPoint =>
    [setNetwork nwId "mode 2".toList, setNetwork nwId ("ssid ".toList ++ quoted w.ssid),
      setNetwork nwId ("frequency ".toList ++ w.freq), setNetwork nwId "key_mgmt WPA-PSK".toList,
      setNetwork nwId ("psk ".toList ++ quoted w.key), "ENABLE_NETWORK ".toList ++ nwId]
  | mesh =>
    [setNetwork nwId "mode 5".toList, setNetwork nwId ("ssid ".toList ++ quoted w.ssid),
      setNetwork nwId ("frequency ".toList ++ w.freq),
      setNetwork nwId ("key_mgmt ".toList ++ w.enc),
      setNetwork nwId ("psk ".toList ++ quoted w.key), "MESH_GROUP_ADD ".toList ++ nwId]

/-! ### The commands of a run -/

/-- The command that a question sends to wpa_supplicant, if it does. -/
def commandOf : WifiQ → List Text
  | .wpaRequest _ cmd => [cmd]
  | _ => []

/-- The commands that a run has sent to wpa_supplicant, in their order. -/
def wpaCommands (t : WifiTranscript) : List Text := t.flatMap fun x => commandOf x.1

/-- The world that remembers the commands, and answers as it likes. -/
def sentWorld : World WifiQ WifiA (List Text) := fun sent q _ sent' => sent' = sent ++ commandOf q

/-- What has been sent, with the question, is a beginning of `all`. -/
def Within (all sent : List Text) (q : WifiQ) : Prop := sent ++ commandOf q <+: all

section Runs

variable {α : Type} {p p' : WifiM α} {t : WifiTranscript} {sent all : List Text}

theorem reach_sentWorld (hrun : After p t p') (sent : List Text) :
    Reach sentWorld sent p (sent ++ wpaCommands t) p' := by
  induction hrun generalizing sent with
  | start p =>
    rw [wpaCommands, List.flatMap_nil, List.append_nil]
    exact .start _ _
  | @reply q k t p' a hrest ih =>
    have happend : sent ++ wpaCommands (⟨q, a⟩ :: t) = sent ++ commandOf q ++ wpaCommands t := by
      rw [wpaCommands, List.flatMap_cons, ← List.append_assoc]
      rfl
    rw [happend]
    exact .reply a rfl (ih _)

theorem commandOf_of_unsent {q : WifiQ} (h : WifiQ.Unsent q) : commandOf q = [] := by
  cases q <;> first | rfl | exact h.elim

theorem wp_of_unsent (hp : OnlyAsks WifiQ.Unsent p) (hsent : sent <+: all) :
    wp sentWorld (Within all) (fun _ sent' => sent' = sent) p sent := by
  apply wp_of_onlyAsks (fun sent' => sent' = sent) hp
  · rintro q sent' hq rfl
    unfold Within
    rwa [commandOf_of_unsent hq, List.append_nil]
  · rintro q a sent' sent'' hq rfl rfl
    rw [commandOf_of_unsent hq, List.append_nil]
  · rfl

/-- A command that is sent stands behind those before it. -/
theorem wp_sendOver {c : Handle} {cmd : Text} (hcmd : sent ++ [cmd] <+: all) (r : Reply) :
    wp sentWorld (Within all) (fun _ sent' => sent' = sent ++ [cmd]) (sendOver c cmd r) sent :=
  ⟨hcmd, fun _ _ h => h⟩

/-- **Commands one after another**: all of them, if they go well.  The first one that fails is the
last that is sent. -/
theorem wp_okCommands {c : Handle} {cmds : List Text} (hcmds : sent ++ cmds <+: all) (r : Reply) :
    wp sentWorld (Within all)
      (fun result sent' => sent' <+: all ∧ (result ≠ none → sent' = sent ++ cmds))
      (okCommands (sendOver c) cmds r) sent := by
  induction cmds generalizing sent r with
  | nil =>
    rw [List.append_nil] at hcmds
    exact ⟨hcmds, fun _ => (List.append_nil sent).symm⟩
  | cons cmd cmds ih =>
    have hsplit : sent ++ cmd :: cmds = sent ++ [cmd] ++ cmds := by simp
    rw [hsplit] at hcmds ⊢
    have hcmd : sent ++ [cmd] <+: all := (List.prefix_append _ _).trans hcmds
    rw [okCommands, wp_bind]
    refine wp_consequence (wp_sendOver hcmd r) fun x sent' hsent' => ?_
    subst hsent'
    split
    · exact ⟨hcmd, fun h => absurd rfl h⟩
    · exact ih hcmds x.2

end Runs

/-! ### The calls -/

/-- The commands ahead of those of a mode.  The call for a mesh goes on when the networks cannot be
removed, which is so without a word to wpa_supplicant if the radio has no monitor. -/
def NetworkMode.preparation (sc : WifiSoftc) (index : Slot) : NetworkMode → List Text
  | station => preparing
  | accessPoint => preparing
  | mesh => if (sc.wpaCtx index).monitor = none then ["ADD_NETWORK".toList] else preparing

/-- The network that wpa_supplicant has added: what the reply buffer shows for it behind the first
`n` answers. -/
def addedNetwork (n : ℕ) (t : WifiTranscript) : Text :=
  networkId (bufferBehind ((answersOf t).take n))

/-- All commands of a call, where the exchanges `t` tell which network was added. -/
def NetworkMode.allCommands (sc : WifiSoftc) (index : Slot) (w : NetworkTexts) (t : WifiTranscript)
    (mode : NetworkMode) : List Text :=
  mode.preparation sc index ++
    mode.commands (addedNetwork (mode.preparation sc index).length t) w

/-- The commands sent are a beginning of `all`, and are all of them where the call has returned `0`.
A station may return `0` whatever has become of its commands. -/
def SentBy (mode : NetworkMode) (all : List Text) (t : WifiTranscript) (p : WifiM ℤ) : Prop :=
  wpaCommands t <+: all ∧ (p = ret 0 → mode ≠ .station → wpaCommands t = all)

section Calls

variable {nl : Netlink.Libnl NlAttrs} {ctx : WifiContext} {sc : WifiSoftc} {index : Slot}
  {mode : NetworkMode} {config : WifiConfig} {w : NetworkTexts} {sent all : List Text}
  {t : WifiTranscript} {p : WifiM ℤ}

/-- Before the first command, a call has not succeeded. -/
theorem sentBy_nil (hp : p ≠ ret 0) : SentBy mode all [] p :=
  ⟨List.nil_prefix, fun h => absurd h hp⟩

theorem SentBy.cons {c : Handle} {cmd : Text} {a : WpaAnswer} (h : SentBy mode all t p) :
    SentBy mode (cmd :: all) (⟨.wpaRequest c cmd, a⟩ :: t) p :=
  ⟨(List.prefix_cons_inj cmd).mpr h.1, fun hp hmode => congrArg (List.cons cmd) (h.2 hp hmode)⟩

/-- A call that has given up sends nothing more. -/
theorem sentBy_of_ret {v : ℤ} (hv : v ≠ 0) (hrun : After (ret v : WifiM ℤ) t p) :
    SentBy mode all t p := by
  obtain ⟨rfl, rfl⟩ := hrun.of_ret
  exact sentBy_nil fun h => hv (Dialogue.ret.inj h)

/-- **The common end of an access point and a mesh**: the command for the mode, and the settings
behind it, all of them if the call returns zero. -/
theorem wp_finishSetUp (hconfig : ctx.config index = some config) {c : Handle} {modeCmd : Text}
    {settings : WifiConfig → List Text} (hall : sent ++ modeCmd :: settings config <+: all)
    (r : Reply) :
    wp sentWorld (Within all)
      (fun v sent' => sent' <+: all ∧ (v = 0 → sent' = sent ++ modeCmd :: settings config))
      (finishSetUp nl ctx sc index (sendOver c) modeCmd settings r) sent := by
  have hsplit : sent ++ modeCmd :: settings config = sent ++ [modeCmd] ++ settings config := by simp
  rw [hsplit] at hall ⊢
  have hmode : sent ++ [modeCmd] <+: all := (List.prefix_append _ _).trans hall
  unfold finishSetUp
  rw [wp_bind]
  refine wp_consequence (wp_okCommands hmode r) fun result sent₁ h₁ => ?_
  cases result with
  | none => exact ⟨h₁.1, fun hzero => absurd hzero (by decide)⟩
  | some resp =>
    obtain rfl := h₁.2 (by simp)
    dsimp only
    rw [hconfig, WifiM.deref_some, ret_bind, wp_bind]
    refine wp_consequence (wp_of_unsent (onlyAsks_setCard nl sc index config) hmode)
      fun _ sent₂ h₂ => ?_
    subst h₂
    rw [wp_bind]
    refine wp_consequence (wp_okCommands hall resp) fun done sent₃ h₃ => ?_
    refine ⟨h₃.1, fun hzero => h₃.2 ?_⟩
    rintro rfl
    exact absurd hzero (by decide)

/-- **The end of a station**: at every moment the commands sent are a beginning of all. -/
theorem wp_finishStation (hconfig : ctx.config index = some config) {c : Handle} (r : Reply)
    (hall : sent ++ NetworkMode.station.commands (networkId r) (texts config) <+: all) :
    wp sentWorld (Within all) (fun _ sent' => sent' <+: all)
      (finishStation nl ctx sc index (sendOver c) r) sent := by
  have hsplit : sent ++ NetworkMode.station.commands (networkId r) (texts config) =
      sent ++ [setNetwork (networkId r) ("ssid ".toList ++ quoted config.ssidText)] ++
        [setNetwork (networkId r) ("psk ".toList ++ quoted config.keyText)] ++
        ["ENABLE_NETWORK ".toList ++ networkId r] := by simp [NetworkMode.commands, texts]
  rw [hsplit] at hall
  have hpsk := (List.prefix_append _ _).trans hall
  have hssid := (List.prefix_append _ _).trans hpsk
  have hnone := (List.prefix_append _ _).trans hssid
  unfold finishStation
  dsimp only
  rw [hconfig, WifiM.deref_some, ret_bind, wp_bind]
  refine wp_consequence (wp_of_unsent (onlyAsks_setCard nl sc index config) hnone)
    fun _ sent₁ h₁ => ?_
  subst h₁
  rw [wp_bind]
  refine wp_consequence (wp_sendOver hssid r) fun x sent₂ h₂ => ?_
  subst h₂
  split
  · exact hssid
  rw [wp_bind]
  refine wp_consequence (wp_sendOver hpsk x.2) fun y sent₃ h₃ => ?_
  subst h₃
  split
  · exact hpsk
  rw [wp_bind]
  refine wp_consequence (wp_sendOver hall y.2) fun z sent₄ h₄ => ?_
  subst h₄
  exact hall

/-- A call that follows a null pointer sends nothing more. -/
theorem sentBy_of_nullDeref {k : WifiA .nullDeref → WifiM ℤ}
    (hrun : After (ask .nullDeref k) t p) : SentBy mode all t p := by
  cases hrun with
  | start => exact sentBy_nil (by simp)
  | reply e _ => exact e.elim

/-- What a mode sends behind the adding of its network, with the result of the call. -/
theorem wp_finish (hconfig : ctx.config index = some config) (c : Handle) (r : Reply) :
    wp sentWorld (Within (mode.commands (networkId r) (texts config)))
      (fun v sent' => sent' <+: mode.commands (networkId r) (texts config) ∧
        (v = 0 → mode ≠ .station → sent' = mode.commands (networkId r) (texts config)))
      (mode.finish nl ctx sc index c r) [] := by
  cases mode with
  | station =>
    refine wp_consequence (wp_finishStation hconfig r (List.prefix_refl _)) fun v s hs => ?_
    exact ⟨hs, fun _ h => absurd rfl h⟩
  | accessPoint =>
    have hall : [] ++ setNetwork (networkId r) "mode 2".toList ::
        apSettings (networkId r) config <+:
          NetworkMode.accessPoint.commands (networkId r) (texts config) :=
      List.prefix_refl _
    refine wp_consequence (wp_finishSetUp hconfig hall r) fun v s hs => ?_
    exact ⟨hs.1, fun hzero _ => hs.2 hzero⟩
  | mesh =>
    have hall : [] ++ setNetwork (networkId r) "mode 5".toList ::
        meshSettings (networkId r) config <+:
          NetworkMode.mesh.commands (networkId r) (texts config) :=
      List.prefix_refl _
    refine wp_consequence (wp_finishSetUp hconfig hall r) fun v s hs => ?_
    exact ⟨hs.1, fun hzero _ => hs.2 hzero⟩

/-- **The end of each mode** sends its commands for the network in the reply buffer.  A station may
come to zero without all of them. -/
theorem sentBy_finish (mode : NetworkMode) (hconfig : ctx.config index = some config) {c : Handle}
    {r : Reply}
    (hrun : After (mode.finish nl ctx sc index c r) t p) :
    SentBy mode (mode.commands (networkId r) (texts config)) t p := by
  have hwp := wp_reach (reach_sentWorld hrun []) (wp_finish hconfig c r)
  rw [List.nil_append] at hwp
  cases p with
  | ret v => exact ⟨hwp.1, fun hret hmode => hwp.2 (Dialogue.ret.inj hret) hmode⟩
  | ask q k => exact ⟨(List.prefix_append _ _).trans hwp.1, fun h => by simp at h⟩

/-- A network is added behind some answers, and then the commands of a mode are sent. -/
theorem sentBy_addTo {c : Handle} (answers : List WpaAnswer) {v : ℤ × Reply → ℤ}
    {rest : Reply → WifiM ℤ} (hv : ∀ x, x.1 < 0 → v x ≠ 0)
    (hrest : ∀ r t p, After (rest r) t p → SentBy mode (mode.commands (networkId r) w) t p)
    (hrun : After (addTo c (bufferBehind answers) v rest) t p) :
    SentBy mode ("ADD_NETWORK".toList ::
      mode.commands (networkId (bufferBehind (answers ++ (answersOf t).take 1))) w) t p := by
  unfold addTo at hrun
  cases hrun with
  | start => exact sentBy_nil (by simp)
  | @reply _ _ t p b hbehind =>
    refine SentBy.cons ?_
    dsimp only at hbehind
    split at hbehind
    · next hneg => exact sentBy_of_ret (hv _ hneg) hbehind
    · -- the answer to this command is the last one that the network is taken from
      have hbuffer : bufferBehind (answers ++ [b]) = ((bufferBehind answers).answered b).2 := by
        unfold bufferBehind
        rw [List.foldl_append]
        rfl
      have hfinish := hrest _ _ _ hbehind
      rw [← hbuffer] at hfinish
      exact hfinish

/-- The networks are removed first, and a failure to do so ends the call. -/
theorem sentBy_removeThen {c c' : Handle} {stop : WpaAnswer → Option ℤ} {v : ℤ × Reply → ℤ}
    {rest : Reply → WifiM ℤ} (hstop : ∀ a u, stop a = some u → u ≠ 0)
    (hv : ∀ x, x.1 < 0 → v x ≠ 0)
    (hrest : ∀ r t p, After (rest r) t p → SentBy mode (mode.commands (networkId r) w) t p)
    (hrun : After (removeThen c' stop fun r => addTo c r v rest) t p) :
    SentBy mode (preparing ++ mode.commands (addedNetwork preparing.length t) w) t p := by
  unfold removeThen at hrun
  cases hrun with
  | start => exact sentBy_nil (by simp)
  | @reply _ _ t p a hbehind =>
    refine SentBy.cons ?_
    dsimp only at hbehind
    cases hstopped : stop a with
    | some u =>
      rw [hstopped] at hbehind
      exact sentBy_of_ret (hstop a u hstopped) hbehind
    | none =>
      rw [hstopped] at hbehind
      exact sentBy_addTo [a] hv hrest hbehind

/-- The common beginning of a station and an access point. -/
theorem sentBy_prepareNetwork (rest : (Text → Reply → WifiM (ℤ × Reply)) → Reply → WifiM ℤ)
    (hrest : ∀ c r t p, After (rest (sendOver c) r) t p →
      SentBy mode (mode.commands (networkId r) w) t p)
    (hrun : After (prepareNetwork sc index (rest (wifiHalSendWpaCommand sc index))) t p) :
    SentBy mode (preparing ++ mode.commands (addedNetwork preparing.length t) w) t p := by
  by_cases hmonitor : (sc.wpaCtx index).monitor = none
  · unfold prepareNetwork at hrun
    rw [wifiHalSendWpaCommand_of_no_monitor hmonitor, ret_bind, if_pos (by decide)] at hrun
    exact sentBy_of_ret (by decide) hrun
  cases hctrl : (sc.wpaCtx index).ctrl with
  | none =>
    unfold prepareNetwork at hrun
    rw [wifiHalSendWpaCommand_of_no_ctrl hmonitor hctrl, ask_bind] at hrun
    exact sentBy_of_nullDeref hrun
  | some c =>
    rw [prepareNetwork_eq hmonitor hctrl, wifiHalSendWpaCommand_of_ctrl hmonitor hctrl] at hrun
    refine sentBy_removeThen ?_ (fun x hneg => hneg.ne) (hrest c) hrun
    intro a u hstop
    split at hstop
    · next hneg => exact Option.some.inj hstop ▸ hneg.ne
    · exact absurd hstop (by simp)

/-- A mesh sends its commands over its own connection, but for the first one. -/
theorem sentBy_joinMeshNetwork (hconfig : ctx.config index = some config) {c : Handle}
    (hmesh : (sc.wpaCtx index).meshCtrl = some c)
    (hrun : After (joinMeshNetwork nl ctx sc index) t p) :
    SentBy .mesh (NetworkMode.mesh.allCommands sc index (texts config) t) t p := by
  have hfinish : ∀ r t p, After (NetworkMode.mesh.finish nl ctx sc index c r) t p →
      SentBy .mesh (NetworkMode.mesh.commands (networkId r) (texts config)) t p :=
    fun r t p h => sentBy_finish .mesh hconfig h
  have hv : ∀ x : ℤ × Reply, x.1 < 0 → (-1 : ℤ) ≠ 0 := fun _ _ => by decide
  unfold NetworkMode.allCommands NetworkMode.preparation
  by_cases hmonitor : (sc.wpaCtx index).monitor = none
  · -- the networks are not removed, and the network is taken from the first answer
    rw [if_pos hmonitor]
    rw [joinMeshNetwork_of_no_monitor hmesh hmonitor] at hrun
    exact sentBy_addTo [] hv hfinish hrun
  rw [if_neg hmonitor]
  cases hctrl : (sc.wpaCtx index).ctrl with
  | none =>
    rw [joinMeshNetwork_eq, wifiHalSendWpaCommand_of_no_ctrl hmonitor hctrl, ask_bind] at hrun
    exact sentBy_of_nullDeref hrun
  | some c' =>
    rw [joinMeshNetwork_of_ctrl hmesh hmonitor hctrl] at hrun
    exact sentBy_removeThen (fun _ _ h => absurd h (by simp)) hv hfinish hrun

/-- **A call sends its commands**, one after another: those that prepare a network, and those for
the texts of the configuration. -/
theorem sentBy_run (hconfig : ctx.config index = some config) (mode : NetworkMode)
    (hrun : After (mode.run nl ctx sc index) t p) :
    SentBy mode (mode.allCommands sc index (texts config) t) t p := by
  cases mode with
  | station =>
    exact sentBy_prepareNetwork (finishStation nl ctx sc index)
      (fun c r t p h => sentBy_finish .station hconfig h) hrun
  | accessPoint =>
    exact sentBy_prepareNetwork
      (fun send r => finishSetUp nl ctx sc index send
        (setNetwork (networkId r) "mode 2".toList) (apSettings (networkId r)) r)
      (fun c r t p h => sentBy_finish .accessPoint hconfig h) hrun
  | mesh =>
    rw [run_mesh_eq] at hrun
    cases hrun with
    | start => exact sentBy_nil (by simp)
    | @reply _ _ t p meshCtrl hbehind =>
      -- no command is sent to open the connection
      suffices hjoined : SentBy .mesh (NetworkMode.mesh.allCommands sc index (texts config) t) t p
        from hjoined
      cases meshCtrl with
      | none => exact sentBy_of_ret (v := -1) (by decide) hbehind
      | some c =>
        have hmesh : ((withMesh sc index c).wpaCtx index).meshCtrl = some c := by
          simp [WifiSoftc.setWpaCtx]
        have hmonitor : ((withMesh sc index c).wpaCtx index).monitor = (sc.wpaCtx index).monitor :=
          by simp [WifiSoftc.setWpaCtx]
        have hjoin := sentBy_joinMeshNetwork hconfig hmesh hbehind
        unfold NetworkMode.allCommands NetworkMode.preparation at hjoin ⊢
        rw [hmonitor] at hjoin
        exact hjoin

end Calls

/-! ### The texts of a file -/

/-- The text a file gives for a string field. -/
def fileText (pairs : List (WifiKey × ConfigValue)) (f : WifiString) : Text :=
  lastFitting f.size (wifiTable.valuesFor f pairs)

/-- The texts of a network that a file gives. -/
def fileTexts (pairs : List (WifiKey × ConfigValue)) : NetworkTexts :=
  ⟨fileText pairs .ssid, fileText pairs .key, fileText pairs .freq, fileText pairs .enc⟩

/-- Each value fits its field, and is not taken back by an empty one. -/
def AllSound (pairs : List (WifiKey × ConfigValue)) : Prop :=
  ∀ f : WifiString, Sound f.size (wifiTable.valuesFor f pairs)

/-- A field that is terminated is read no further. -/
theorem cstr_flatten_of_text? {n : ℕ} {a : CharArray n} {t : Text} (h : a.text? = some t)
    (fields : List Text) : cstr (a.bytes :: fields).flatten = t := by
  unfold CharArray.text? at h
  split at h
  · next hnul =>
    obtain ⟨before, behind, hbytes⟩ := List.append_of_mem hnul
    rw [List.flatten_cons, ← Option.some.inj h, hbytes, List.append_assoc, List.cons_append,
      cstr_append_NUL_cons, cstr_append_NUL_cons]
  · exact absurd h (by simp)

/-- **What is read from a configuration is what the file gives**: for every field the last of its
values that fits. -/
theorem texts_apply {pairs : List (WifiKey × ConfigValue)} (hsound : AllSound pairs) :
    texts (wifiTable.apply pairs) = fileTexts pairs := by
  have htext : ∀ f : WifiString,
      (f.array (wifiTable.apply pairs)).text? = some (fileText pairs f) := by
    intro f
    have hreads := (wifiTable.readsBack_iff pairs).mpr hsound
    exact hreads.reads f pairs (List.prefix_refl _)
  have hssid := cstr_flatten_of_text? (htext .ssid)
  have hkey := cstr_flatten_of_text? (htext .key)
  have hfreq := cstr_flatten_of_text? (htext .freq)
  have henc := cstr_flatten_of_text? (htext .enc)
  unfold texts fileTexts
  congr 1
  · exact hssid _
  · exact hkey _
  · exact hfreq _
  · exact henc _

/-! ### The tokens of a file -/

/-- The tokens of a mapping, without those that the parser passes over. -/
def documentedTokens (pairs : List (WifiKey × ConfigValue)) : List YamlToken :=
  pairs.flatMap fun p => pairTokens p.1.name p.2

/-- The file is a mapping of these pairs. -/
def IsFileOf (pairs : List (WifiKey × ConfigValue)) (s : Scan) : Prop :=
  s.tokens.filter (· ≠ .other) = documentedTokens pairs

/-- A file of such pairs passes the whitelist. -/
theorem IsFileOf.regular {pairs : List (WifiKey × ConfigValue)} {s : Scan}
    (hfile : IsFileOf pairs s) (hend : s.ending = .streamEnd) : Regular s := by
  refine ⟨hend, fun raw hraw => ?_⟩
  have hmem : YamlToken.scalar raw ∈ documentedTokens pairs := by
    rw [← hfile]
    exact List.mem_filter.mpr ⟨hraw, by simp⟩
  obtain ⟨⟨k, v⟩, -, hpair⟩ := List.mem_flatMap.mp hmem
  have heither : raw = k.name ∨ raw = v.text := by simpa [pairTokens] using hpair
  rcases heither with rfl | rfl
  · cases k <;> exact List.all_eq_true.mp rfl
  · unfold GoodValue
    rw [cstr_eq_self v.nul_notMem]
    exact v.allowed

/-- The tokens that the parser passes over assign nothing. -/
theorem assigned_filter (key : Bool) (tempKey : Text) (ts : List YamlToken) :
    assigned key tempKey (ts.filter (· ≠ .other)) = assigned key tempKey ts := by
  induction ts generalizing key tempKey with
  | nil => rfl
  | cons t ts ih =>
    cases t with
    | other => exact ih key tempKey
    | noToken => exact ih key tempKey
    | streamEnd => exact ih key tempKey
    | key => exact ih true tempKey
    | value => exact ih false tempKey
    | scalar raw =>
      cases key with
      | true => exact ih true (rememberedKey raw)
      | false => exact congrArg (List.cons (tempKey, cstr raw)) (ih false tempKey)

/-- A mapping assigns its values to its keys, whatever has come before. -/
theorem assigned_documentedTokens (key : Bool) (tempKey : Text)
    (pairs : List (WifiKey × ConfigValue)) :
    assigned key tempKey (documentedTokens pairs) = pairs.map fun p => (p.1.name, p.2.text) := by
  induction pairs generalizing key tempKey with
  | nil => rfl
  | cons p pairs ih =>
    have hdocumented : p.1.name ∈ documentedKeys .wifi := by
      cases p.1 <;> decide
    have hkey := (rememberedKey_of_documented hdocumented).1
    show (rememberedKey p.1.name, cstr p.2.text) :: assigned false (rememberedKey p.1.name)
      (documentedTokens pairs) = _
    rw [hkey, cstr_eq_self p.2.nul_notMem, ih, List.map_cons]

/-- So the configuration of a radio is what the pairs of its file make of it. -/
theorem applyPairs_of_isFileOf {pairs : List (WifiKey × ConfigValue)} {s : Scan}
    (hfile : IsFileOf pairs s) (key : Bool) (tempKey : Text) :
    applyPairs .zero (assigned key tempKey s.tokens) = wifiTable.apply pairs := by
  rw [← assigned_filter, hfile, assigned_documentedTokens]
  unfold applyPairs ConfigTable.apply
  rw [List.foldl_map]
  rfl

/-! ### From the file to the network -/

/-- **The network is the one that the file asks for.** Let all files of the list be there and be
regular, and let that of radio `index` be a mapping whose values fit their fields.  Then at every
moment of a call that sets the radio up, the commands sent are a beginning of those that prepare a
network and those for the texts of the file and the network that was added, and all of them when an
access point or a mesh has been set up. -/
theorem network_as_configured (mode : NetworkMode) (nl : Netlink.Libnl NlAttrs) (ctx : WifiContext)
    (sc : WifiSoftc) (index : Slot) {fopen : Text → Opened} {files : Text} {scans : List Scan}
    {s : Scan} {conf c : ConfStruct} {pairs : List (WifiKey × ConfigValue)}
    (hopens : Opens fopen files scans) (hregular : ∀ x ∈ scans, Regular x)
    (hget : scans[index.val]? = some s) (hfile : IsFileOf pairs s) (hsound : AllSound pairs)
    (hzero : conf.wifi index = .zero) (hconf : Configures fopen conf files c)
    (hctx : ctx.config index = some (c.wifi index)) {t : WifiTranscript} {p : WifiM ℤ}
    (hrun : After (mode.run nl ctx sc index) t p) :
    wpaCommands t <+: mode.allCommands sc index (fileTexts pairs) t ∧
      (p = ret 0 → mode ≠ .station →
        wpaCommands t = mode.allCommands sc index (fileTexts pairs) t) := by
  obtain ⟨c', st, hconf', -, hwifi⟩ := exists_configures hopens hregular hget conf
  obtain rfl := hconf.unique hconf'
  have hconfig : c.wifi index = wifiTable.apply pairs := by
    rw [hwifi, hzero, applyPairs_of_isFileOf hfile]
  have htexts : texts (c.wifi index) = fileTexts pairs := by
    rw [hconfig, texts_apply hsound]
  rw [← htexts]
  exact sentBy_run hctx mode hrun

/-! ### An example -/

/-- The network of `wifi_example_0.yaml`, as pairs of a key and a value. -/
def examplePairs : List (WifiKey × ConfigValue) :=
  [(.ssid, ⟨"gold".toList, List.all_eq_true.mp rfl⟩),
    (.key, ⟨"1234567890".toList, List.all_eq_true.mp rfl⟩),
    (.enc, ⟨"SAE".toList, List.all_eq_true.mp rfl⟩),
    (.frequency, ⟨"2412".toList, List.all_eq_true.mp rfl⟩)]

/-- As a file: a mapping between the beginnings and ends of a stream and of a block. -/
def exampleFile : Scan :=
  ⟨.other :: .other :: documentedTokens examplePairs ++ [.other], .streamEnd, by decide⟩

theorem isFileOf_exampleFile : IsFileOf examplePairs exampleFile := rfl

theorem sound_nil {n : ℕ} : Sound n [] := fun _ _ h => by simp at h

theorem sound_singleton {n : ℕ} {v : ConfigValue} (h : v.text.length ≠ n) : Sound n [v] :=
  sound_concat.mpr ⟨sound_nil, h, fun _ _ h => absurd h List.not_mem_nil⟩

theorem allSound_examplePairs : AllSound examplePairs := by
  intro f
  cases f <;> first
    | exact sound_singleton (by decide)
    | exact sound_nil

/-- The access point of the example file is set up with what the file says. -/
theorem example_as_configured : ∃ c t,
    Configures (fun _ => .scanning exampleFile) .zero "a".toList c ∧
      After (NetworkMode.accessPoint.run .standard ⟨fun _ => some (c.wifi 0)⟩ openSoftc 0) t
        (ret 0) ∧
      wpaCommands t = preparing ++ NetworkMode.accessPoint.commands (addedNetwork 2 t)
        ⟨"gold".toList, "1234567890".toList, "2412".toList, "SAE".toList⟩ := by
  have hopens : Opens (fun _ => .scanning exampleFile) "a".toList [exampleFile] := by
    rfl
  have hregular : ∀ x ∈ [exampleFile], Regular x := by
    intro x hx
    obtain rfl := List.mem_singleton.mp hx
    exact isFileOf_exampleFile.regular rfl
  have hget : [exampleFile][(0 : Slot).val]? = some exampleFile := rfl
  obtain ⟨c, -, hconf, -⟩ := exists_configures hopens hregular hget .zero
  obtain ⟨hopen, hmonitor⟩ := openSoftc_open 0
  obtain ⟨t, hrun, -⟩ := exists_wifiHalCreateAp .standard ⟨fun _ => some (c.wifi 0)⟩ hmonitor hopen
    (Option.some_ne_none _)
  obtain ⟨-, hall⟩ := network_as_configured .accessPoint .standard
    ⟨fun _ => some (c.wifi 0)⟩ openSoftc 0 hopens hregular hget isFileOf_exampleFile
    allSound_examplePairs rfl hconf rfl hrun
  exact ⟨c, t, hconf, hrun, hall rfl (by decide)⟩

end RadioHal.Wifi
