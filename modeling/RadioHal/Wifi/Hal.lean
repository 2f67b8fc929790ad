import RadioHal.Common.OutputReader
import RadioHal.Wifi.Networks

/-!
# Opening, closing and reading

`wifi_hal_open` fills the tables from a dump of the interfaces, starts a wpa_supplicant for each
radio and attaches to it.  The getters ask for the same dump again before they read a value.

## Main definitions

* `wifiHalStartWpaDummyConfig` — a wpa_supplicant for each radio.
* `wifiHalOpen`, `wifiHalClose` — the two ends of a session.
* `wifiHalGetRssi`, `wifiHalGetTxrate`, `wifiHalGetRxrate` — the getters.

## Main results

* `after_wifiHalRunSysCmd` — a command hands on what the reading loop has left.
-/

namespace RadioHal

open CLib Dialogue

/-- `wifi_hal_run_sys_cmd`: the return value, and the text in the response buffer. -/
def wifiHalRunSysCmd (cmd : Text) (respSize : ℕ) : WifiM (ℤ × Text) := do
  let f ← query (WifiQ.popen cmd)
  match (f : Option Text) with
  | none => return (-1, [])
  | some output =>
    return (0, cstr (replaceLineChange (readOutput respSize output) respSize))

/-- What is handed on is the text that the reading loop has left in the buffer, without its final
line change. -/
theorem after_wifiHalRunSysCmd {n : ℕ} (hn : 1 ≤ n) {respBuf filled : CharArray n} {output : Text}
    (h : FillsRespBuf respBuf output filled) (cmd : Text) :
    After (wifiHalRunSysCmd cmd n) [⟨.popen cmd, some output⟩]
      (ret (0, cstr (replaceLineChange filled.bytes n))) := by
  obtain ⟨tail, hbytes⟩ := h.bytes hn
  have hnul : NUL ∉ readOutput n output := notMem_readOutput
  have hlen := filled.length_bytes
  rw [hbytes] at hlen ⊢
  -- nothing of the text lies behind the first `n` bytes
  have hwhole : cstr ((readOutput n output ++ NUL :: tail).take n) = readOutput n output := by
    rw [List.take_of_length_le hlen.le, cstr_append_NUL hnul]
  have hcut : cstr ((readOutput n output ++ []).take n) = readOutput n output := by
    rw [List.append_nil, List.take_of_length_le, cstr_eq_self hnul]
    rw [List.length_append] at hlen
    omega
  have hsame : cstr (replaceLineChange (readOutput n output) n) =
      cstr (replaceLineChange (readOutput n output ++ NUL :: tail) n) := by
    have htext := cstr_replaceLineChange hnul hcut
    rw [List.append_nil] at htext
    rw [htext, cstr_replaceLineChange hnul hwhole]
    rfl
  rw [← hsame]
  exact .reply _ (.start _)

/-! ### Opening -/

/-- `WPA_SUPPLICANT_DEFAULT_CONFIG`. -/
def wpaSupplicantDefaultConfig : Text := "/tmp/wpa_supplicant.conf".toList

/-- `create_default_wpa_config`.  The error is `-ENOMEM`, which is `-12`. -/
def createDefaultWpaConfig : WifiM ℤ := do
  let opened ← query (WifiQ.writeFile wpaSupplicantDefaultConfig
    "ctrl_interface=DIR=/var/run/wpa_supplicant\n".toList)
  return if opened = true then 0 else -12

/-- The command that removes what an earlier wpa_supplicant left. -/
def removeSocketCommand (sc : WifiSoftc) (i : Slot) : Text :=
  "rm /var/run/wpa_supplicant/".toList ++ sc.ifname i ++ " 2>/dev/null".toList

/-- The command that starts wpa_supplicant for a radio. -/
def startSupplicantCommand (sc : WifiSoftc) (i : Slot) : Text :=
  "wpa_supplicant -dd -Dnl80211 -B -i".toList ++ sc.ifname i ++ " -c".toList ++
    wpaSupplicantDefaultConfig ++ " -f /tmp/wpa_default.log ".toList

/-- The loop of `wifi_hal_start_wpa_dummy_config`, which ends at the first failure. -/
def startSupplicants (sc : WifiSoftc) : List Slot → WifiM ℤ
  | [] => ret 0
  | i :: is => do
    let _ ← wifiHalRunSysCmd (removeSocketCommand sc i) (respBufferSize - 1)
    let started ← wifiHalRunSysCmd (startSupplicantCommand sc i) (respBufferSize - 1)
    if started.1 ≠ 0 then return -1
    startSupplicants sc is

/-- `wifi_hal_start_wpa_dummy_config`. -/
def wifiHalStartWpaDummyConfig (sc : WifiSoftc) : WifiM ℤ := do
  let created ← createDefaultWpaConfig
  if created ≠ 0 then return -1
  startSupplicants sc sc.radios

/-- The attaching loop of `wifi_hal_open`, which ends at the first failure and takes nothing back.
-/
def attachRadios : List Slot → WifiSoftc → WifiM (WifiSoftc × ℤ)
  | [], sc => ret (sc, 0)
  | i :: is, sc => do
    let attached ← wifiHalWpaAttach sc i
    if attached.2 ≠ 0 then return attached
    attachRadios is attached.1

section Hal

variable (nl : Netlink.Libnl NlAttrs)

/-- `wifi_hal_open`. -/
def wifiHalOpen (sc : WifiSoftc) : WifiM (WifiSoftc × ℤ) := do
  let listed ← wifiHalGetInterface nl { sc with radioAmount := 0 }
  let sc' := listed.1
  if listed.2 < 0 then return (sc', -1)
  WifiM.endOfTable sc'
  -- a failure to start wpa_supplicant is only logged
  let _ ← wifiHalStartWpaDummyConfig sc'
  attachRadios sc'.radios sc'

/-! ### Closing -/

/-- `ifname[i]` and `ifindex[i]` are cleared; the phy name stays. -/
def WifiSoftc.clearInterface (sc : WifiSoftc) (i : Slot) : WifiSoftc :=
  { sc with
    ifname := Function.update sc.ifname i []
    ifindex := Function.update sc.ifindex i (-1) }

/-- The loop of `wifi_hal_close` over the radios. -/
def closeRadios : List Slot → WifiSoftc → WifiM WifiSoftc
  | [], sc => ret sc
  | i :: is, sc => do
    wifiHalWpaDettach sc i
    closeRadios is (sc.clearInterface i)

/-- `wifi_hal_close`; the phy names and `radio_amount` stay. -/
def wifiHalClose (sc : WifiSoftc) : WifiM (WifiSoftc × ℤ) := do
  let sc' ← closeRadios sc.radios sc
  WifiM.endOfTable sc
  return (sc', 0)

/-! ### Reading -/

/-- The two dumps in front of every reading; their results are not looked at. -/
def readingDumps (sc : WifiSoftc) (index : Slot) : WifiM WifiSoftc := do
  let listed ← wifiHalGetInterface nl sc
  let stations ← wifiHalGetStainfo nl listed.1 index
  return stations.1

/-- `wifi_hal_get_rssi`. -/
def wifiHalGetRssi (sc : WifiSoftc) (index : Slot) : WifiM (WifiSoftc × ℤ) := do
  let sc' ← readingDumps nl sc index
  return (sc', sc'.signal index)

/-- `wifi_hal_get_txrate`. -/
def wifiHalGetTxrate (sc : WifiSoftc) (index : Slot) : WifiM (WifiSoftc × ℤ) := do
  let sc' ← readingDumps nl sc index
  return (sc', sc'.txrate index)

/-- `wifi_hal_get_rxrate`. -/
def wifiHalGetRxrate (sc : WifiSoftc) (index : Slot) : WifiM (WifiSoftc × ℤ) := do
  let sc' ← readingDumps nl sc index
  return (sc', sc'.rxrate index)

end Hal

end RadioHal
