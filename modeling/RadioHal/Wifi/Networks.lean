import RadioHal.Wifi.Nl80211
import RadioHal.Wifi.WpaCtrl

/-!
# Setting networks up

Each of the three modes removes the networks there are, adds one, sets its parameters by commands
to wpa_supplicant and those of the card over netlink and debugfs, and enables it.  What the card
refuses is only warned about.

## Main definitions

* `wifiDebugfsInit`, `wifiDebugfsWrite` — the debugfs directory of a radio.
* `okCommands` — commands that must each be answered by `OK`.
* `wifiHalConnectAp`, `wifiHalCreateAp`, `wifiHalJoinMesh` — the three modes.
-/

namespace RadioHal

open CLib Dialogue

/-! ### debugfs -/

/-- `wifi_get_dbgfs_basedir`. -/
def wifiGetDbgfsBasedir : WifiDriverVersion → Text
  | .ath9k => "ath9k".toList
  | .ath10k => "ath10k".toList
  | .ath11k => "ath11k".toList
  | .brcmFmac => []
  | .versionMax => []

/-- The debugfs directory of the phy of a radio. -/
def phyDir (sc : WifiSoftc) (index : Slot) : Text :=
  "/sys/kernel/debug/ieee80211/phy".toList ++ sc.phyname index ++ "/".toList

/-- The directories that tell the drivers apart, in the order they are looked for; the last one
is named relative to the working directory. -/
def driverDirs (sc : WifiSoftc) (index : Slot) : List (Text × WifiDriverVersion) :=
  [(snprintf 64 (phyDir sc index ++ "ath9k/".toList), .ath9k),
    (snprintf 64 (phyDir sc index ++ "ath10k/".toList), .ath10k),
    (snprintf 64 (phyDir sc index ++ "ath11k/".toList), .ath11k),
    ("sys/kernel/debug/brcmfmac/".toList, .brcmFmac)]

/-- The first driver whose directory is there. -/
def findDriver : List (Text × WifiDriverVersion) → WifiM (Option WifiDriverVersion)
  | [] => ret none
  | (dir, version) :: dirs => do
    let isDir ← query (WifiQ.stat dir)
    if (isDir : Option Bool) = some true then return some version
    findDriver dirs

/-- `wifi_get_driver_version`: the softc with the version stored, and the return value. -/
def wifiGetDriverVersion (sc : WifiSoftc) (index : Slot) : WifiM (WifiSoftc × ℤ) := do
  let found ← findDriver (driverDirs sc index)
  match found with
  | none => return (sc, -1)
  | some version =>
    return ({ sc with drvVersion := Function.update sc.drvVersion index version }, 0)

def WifiSoftc.setDebugfsRoot (sc : WifiSoftc) (index : Slot) (root : Text) : WifiSoftc :=
  { sc with debugfsRoot := Function.update sc.debugfsRoot index root }

/-- `wifi_debugfs_init`.  The error is `-EACCES`, which is `-13`. -/
def wifiDebugfsInit (sc : WifiSoftc) (index : Slot) : WifiM (WifiSoftc × ℤ) := do
  let driver ← wifiGetDriverVersion sc index
  let sc' := driver.1
  if driver.2 < 0 then return (sc'.setDebugfsRoot index [], -13)
  let root := snprintf radioDebugfsDirsize
    (phyDir sc' index ++ wifiGetDbgfsBasedir (sc'.drvVersion index) ++ "/".toList)
  let found ← query (WifiQ.stat root)
  if (found : Option Bool) = none then return (sc'.setDebugfsRoot index [], -13)
  return (sc'.setDebugfsRoot index root, 0)

/-- `wifi_debugfs_write`. -/
def wifiDebugfsWrite (sc : WifiSoftc) (filename cmd : Text) (index : Slot) : WifiM ℤ := do
  let opened ← query
    (WifiQ.writeFile (sc.debugfsRoot index ++ "/".toList ++ filename) cmd)
  return if opened = true then 0 else -1

/-! ### Common parts -/

section Networks

variable (nl : Netlink.Libnl NlAttrs)

/-- The parameters of the card, which all modes set between the same two commands; a refusal is
only warned about. -/
def setCard (sc : WifiSoftc) (index : Slot) (config : WifiConfig) : WifiM Unit := do
  let _ ← wifiDebugfsWrite sc "chanbw".toList config.bwText index
  let _ ← wifiHalSetTxpower nl sc index config
  let _ ← wifiHalSetDistance nl sc index config
  let _ ← wifiHalSetCountry nl config
  return ()

/-- `nw_id` after `ADD_NETWORK`: a number too long for the field leaves it empty. -/
def networkId (resp : Reply) : Text :=
  if (cstr resp.bytes).length < 5 then
    cstr (replaceLineChange (CharArray.strncpy 6 (cstr resp.bytes)).bytes 6)
  else []

/-- Commands of which each must succeed and be answered by `OK`; `none` when one does not. -/
def okCommands (send : Text → Reply → WifiM (ℤ × Reply)) : List Text → Reply → WifiM (Option Reply)
  | [], resp => ret (some resp)
  | cmd :: cmds, resp => do
    let r ← send cmd resp
    if r.1 ≠ 0 ∨ r.2.isOk = false then return none
    okCommands send cmds r.2

/-- `SET_NETWORK`, the network, and what is set. -/
def setNetwork (nwId what : Text) : Text :=
  "SET_NETWORK ".toList ++ nwId ++ " ".toList ++ what

/-- A text in quotation marks, as the values of `SET_NETWORK` have it. -/
def quoted (t : Text) : Text := "\"".toList ++ t ++ "\"".toList

/-! ### The three modes -/

/-- `wifi_hal_connect_ap`. -/
def wifiHalConnectAp (ctx : WifiContext) (sc : WifiSoftc) (index : Slot) : WifiM ℤ := do
  let send := wifiHalSendWpaCommand sc index
  let r ← send "REMOVE_NETWORK all".toList (.zero respBufferSize)
  if r.1 < 0 then return r.1
  let r ← send "ADD_NETWORK".toList r.2
  if r.1 < 0 then return r.1
  let nwId := networkId r.2
  let config ← WifiM.deref (ctx.config index)
  setCard nl sc index config
  let r ← send (setNetwork nwId ("ssid ".toList ++ quoted config.ssidText)) r.2
  if r.1 ≠ 0 ∨ r.2.isOk = false then return r.1
  -- the return value of the command for the key is not looked at, only the buffer is
  let r ← send (setNetwork nwId ("psk ".toList ++ quoted config.keyText)) r.2
  if r.2.isOk = false then return -1
  let _ ← send ("ENABLE_NETWORK ".toList ++ nwId) r.2
  return 0

/-- `wifi_hal_create_ap`. -/
def wifiHalCreateAp (ctx : WifiContext) (sc : WifiSoftc) (index : Slot) : WifiM ℤ := do
  let send := wifiHalSendWpaCommand sc index
  let r ← send "REMOVE_NETWORK all".toList (.zero respBufferSize)
  if r.1 < 0 then return r.1
  let r ← send "ADD_NETWORK".toList r.2
  if r.1 < 0 then return r.1
  let nwId := networkId r.2
  let mode ← okCommands send [setNetwork nwId "mode 2".toList] r.2
  match mode with
  | none => return -1
  | some resp =>
    let config ← WifiM.deref (ctx.config index)
    setCard nl sc index config
    let done ← okCommands send
      [setNetwork nwId ("ssid ".toList ++ quoted config.ssidText),
        setNetwork nwId ("frequency ".toList ++ config.freqText),
        setNetwork nwId "key_mgmt WPA-PSK".toList,
        setNetwork nwId ("psk ".toList ++ quoted config.keyText),
        "ENABLE_NETWORK ".toList ++ nwId] resp
    return if done = none then -1 else 0

/-- `wifi_hal_join_mesh` from the point on where the mesh connection is open. -/
def joinMeshNetwork (ctx : WifiContext) (sc : WifiSoftc) (index : Slot) : WifiM ℤ := do
  -- the networks are removed over the control connection, all else goes to the mesh interface
  let r ← wifiHalSendWpaCommand sc index "REMOVE_NETWORK all".toList (.zero respBufferSize)
  let send := wifiHalSendWpaMeshCommand sc index
  let r ← send "ADD_NETWORK".toList r.2
  if r.1 < 0 then return -1
  let nwId := networkId r.2
  let mode ← okCommands send [setNetwork nwId "mode 5".toList] r.2
  match mode with
  | none => return -1
  | some resp =>
    let config ← WifiM.deref (ctx.config index)
    setCard nl sc index config
    let done ← okCommands send
      [setNetwork nwId ("ssid ".toList ++ quoted config.ssidText),
        setNetwork nwId ("frequency ".toList ++ config.freqText),
        setNetwork nwId ("key_mgmt ".toList ++ config.encText),
        setNetwork nwId ("psk ".toList ++ quoted config.keyText),
        "MESH_GROUP_ADD ".toList ++ nwId] resp
    return if done = none then -1 else 0

/-- `wifi_hal_join_mesh`. -/
def wifiHalJoinMesh (ctx : WifiContext) (sc : WifiSoftc) (index : Slot) :
    WifiM (WifiSoftc × ℤ) := do
  let attached ← wifiHalWpaMeshAttach sc index
  if attached.2 ≠ 0 then return (attached.1, -1)
  let joined ← joinMeshNetwork nl ctx attached.1 index
  return (attached.1, joined)

end Networks

end RadioHal
