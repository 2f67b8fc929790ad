import RadioHal.Common.SysCmd
import RadioHal.Wifi.Softc

/-!
# Control connections to wpa_supplicant

Each radio has a control connection for requests, a monitor connection for events, and possibly
one more for its mesh interface.  A reply is received into a buffer together with its length; the
length is both the room for the next reply and what came of the last one, and the buffer keeps
what earlier replies left in it.

## Main definitions

* `Reply` — a reply buffer with its length variable.
* `wpaCtrlRequest` — a request, with the messages that are not replies skipped.
* `wifiHalSendWpaCommand`, `wifiHalSendWpaMeshCommand` — commands with their checks.
* `wifiHalWpaAttach`, `wifiHalWpaMeshAttach`, `wifiHalWpaDettach` — the connections of a radio.
* `wifiHalTriggerScan`, `wifiHalGetScanResults` — scanning.

## Main results

* `cstr_replaceLineChange` — what is read of a text without its final line change.
-/

namespace RadioHal

open CLib Dialogue

/-! ### Requests -/

/-- A reply buffer, and the variable that holds its length. -/
structure Reply where
  bytes : Text
  len : ℕ
  deriving DecidableEq, Repr

/-- A buffer of `size` zero bytes, of which all but the last may be filled. -/
def Reply.zero (size : ℕ) : Reply := ⟨List.replicate size NUL, size - 1⟩

/-- `recv` of one datagram into the buffer; it returns the number of bytes stored. -/
def Reply.recv (r : Reply) (datagram : Text) : ℕ × Reply :=
  (min datagram.length r.len, { r with
    bytes := datagram.take r.len ++ r.bytes.drop (min datagram.length r.len) })

/-- The test for a message that is not the reply to a request. -/
def Reply.isUnsolicited (r : Reply) (res : ℕ) : Bool :=
  (decide (0 < res) && r.bytes.head? == some '<') ||
    (decide (6 < res) && strStarts r.bytes "IFNAME=".toList)

/-- The receiving loop of `wpa_ctrl_request`: unsolicited datagrams are passed over, and the waiting
may end without a reply. -/
def receiveReply : List Text → WpaEnding → Reply → ℤ × Reply
  | [], .timeout, r => (-2, r)
  | [], .failed, r => (-1, r)
  | d :: ds, ending, r =>
    if (r.recv d).2.isUnsolicited (r.recv d).1 then receiveReply ds ending (r.recv d).2
    else (0, { (r.recv d).2 with len := (r.recv d).1 })

/-- What `wpa_ctrl_request` makes of what comes of it. -/
def WpaAnswer.deliver (answer : WpaAnswer) (r : Reply) : ℤ × Reply :=
  match answer with
  | .sendFailed => (-1, r)
  | .received datagrams ending => receiveReply datagrams ending r

/-- `wpa_ctrl_request`. -/
def wpaCtrlRequest (ctrl : Option Handle) (cmd : Text) (r : Reply) : WifiM (ℤ × Reply) := do
  let h ← WifiM.deref ctrl
  let answer ← query (WifiQ.wpaRequest h cmd)
  return WpaAnswer.deliver answer r

/-- `replace_line_change`: a line change at the end of the string is cut off. -/
def replaceLineChange (buf : Text) (size : ℕ) : Text :=
  let len := (cstr (buf.take size)).length
  if 0 < len ∧ (buf.take len).getLast? = some '\n' then buf.set (len - 1) NUL else buf

/-- A text at the beginning of a buffer, where only that text is looked at: a line change at its end
is cut off. -/
theorem cstr_replaceLineChange {t rest : Text} {size : ℕ} (ht : NUL ∉ t)
    (hsize : cstr ((t ++ rest).take size) = t) :
    cstr (replaceLineChange (t ++ rest) size) =
      if t.getLast? = some '\n' then t.dropLast else t ++ cstr rest := by
  unfold replaceLineChange
  rw [hsize]
  dsimp only
  rw [List.take_left]
  by_cases hlast : t.getLast? = some '\n'
  · obtain ⟨init, rfl⟩ := List.getLast?_eq_some_iff.mp hlast
    have hinit : NUL ∉ init := fun h => ht (List.mem_append_left _ h)
    have hset : (init ++ ['\n'] ++ rest).set ((init ++ ['\n']).length - 1) NUL =
        init ++ NUL :: rest := by
      simp [List.set_append_right]
    rw [if_pos ⟨by simp, hlast⟩, hset, cstr_append_NUL hinit, if_pos hlast, List.dropLast_concat]
  · rw [if_neg (fun h => hlast h.2), if_neg hlast, cstr_append ht]

/-- The checks behind the request of a command. -/
def commandResult (ret : ℤ) (r : Reply) : ℤ × Reply :=
  if ret = -2 then (-2, r)
  else if ret < 0 ∨ strStarts r.bytes "FAIL".toList = true then (-1, r)
  else (0, { r with bytes := replaceLineChange r.bytes r.len })

/-- `wifi_hal_send_wpa_command`. -/
def wifiHalSendWpaCommand (sc : WifiSoftc) (index : Slot) (cmd : Text) (resp : Reply) :
    WifiM (ℤ × Reply) := do
  if (sc.wpaCtx index).monitor = none then return (-1, resp)
  let r ← wpaCtrlRequest (sc.wpaCtx index).ctrl cmd resp
  return commandResult r.1 r.2

/-- `wifi_hal_send_wpa_mesh_command`. -/
def wifiHalSendWpaMeshCommand (sc : WifiSoftc) (index : Slot) (cmd : Text) (resp : Reply) :
    WifiM (ℤ × Reply) := do
  if (sc.wpaCtx index).meshCtrl = none then return (-1, resp)
  let r ← wpaCtrlRequest (sc.wpaCtx index).meshCtrl cmd resp
  return commandResult r.1 r.2

/-- `strncmp(resp_buf, "OK", 2) == 0`. -/
def Reply.isOk (r : Reply) : Bool := strStarts r.bytes "OK".toList

/-! ### Connections -/

/-- `WIFI_HAL_WPA_SOCK_PATH`. -/
def wifiHalWpaSockPath : Text := "/var/run/wpa_supplicant/".toList

/-- The path of the socket of a radio. -/
def sockPath (sc : WifiSoftc) (index : Slot) : Text := wifiHalWpaSockPath ++ sc.ifname index

/-- The connections of a radio are changed. -/
def WifiSoftc.setWpaCtx (sc : WifiSoftc) (index : Slot) (ctx : WpaCtrlCtx) : WifiSoftc :=
  { sc with wpaCtx := Function.update sc.wpaCtx index ctx }

/-- `wpa_ctrl_close`. -/
def wpaCtrlClose (ctrl : Option Handle) : WifiM Unit :=
  match ctrl with
  | none => ret ()
  | some h => query (WifiQ.wpaClose h)

/-- `wpa_ctrl_attach`: the reply must be `OK` and a line change. -/
def wpaCtrlAttach (ctrl : Option Handle) : WifiM ℤ := do
  let buf ← query (WifiQ.uninitBuffer 10)
  let r ← wpaCtrlRequest ctrl "ATTACH".toList ⟨(buf : CharArray 10).bytes, 10⟩
  if r.1 < 0 then return r.1
  if r.2.len = 3 ∧ r.2.bytes.take 3 = "OK\n".toList then return 0
  return -1

/-- `wifi_hal_wpa_mesh_attach`. -/
def wifiHalWpaMeshAttach (sc : WifiSoftc) (index : Slot) : WifiM (WifiSoftc × ℤ) := do
  let meshCtrl ← query (WifiQ.wpaOpen (sockPath sc index))
  let sc' := sc.setWpaCtx index { sc.wpaCtx index with meshCtrl := meshCtrl }
  return (sc', if (meshCtrl : Option Handle) = none then -1 else 0)

/-- `wifi_hal_wpa_attach`. -/
def wifiHalWpaAttach (sc : WifiSoftc) (index : Slot) : WifiM (WifiSoftc × ℤ) := do
  let ctrl ← query (WifiQ.wpaOpen (sockPath sc index))
  if (ctrl : Option Handle) = none then
    return (sc.setWpaCtx index ⟨none, (sc.wpaCtx index).monitor, none⟩, -1)
  let monitor ← query (WifiQ.wpaOpen (sockPath sc index))
  let sc' := sc.setWpaCtx index ⟨ctrl, monitor, none⟩
  if (monitor : Option Handle) = none then
    wpaCtrlClose ctrl
    return (sc', -1)
  let attached ← wpaCtrlAttach monitor
  if attached < 0 then
    wpaCtrlClose monitor
    wpaCtrlClose ctrl
    return (sc', -1)
  return (sc', 0)

/-- `wifi_hal_wpa_dettach`; the pointers stay as they are. -/
def wifiHalWpaDettach (sc : WifiSoftc) (index : Slot) : WifiM Unit := do
  wpaCtrlClose (sc.wpaCtx index).monitor
  wpaCtrlClose (sc.wpaCtx index).ctrl
  wpaCtrlClose (sc.wpaCtx index).meshCtrl

/-! ### Scanning -/

/-- `wifi_hal_trigger_scan`. -/
def wifiHalTriggerScan (sc : WifiSoftc) (index : Slot) : WifiM ℤ := do
  let buf ← query (WifiQ.uninitBuffer cmdBufferSize)
  let _ ← wifiHalSendWpaCommand sc index "SCAN".toList
    ⟨(buf : CharArray cmdBufferSize).bytes, cmdBufferSize - 1⟩
  return 0

/-- `wifi_hal_get_scan_results`: the return value and what is copied to `results`. -/
def wifiHalGetScanResults (sc : WifiSoftc) (index : Slot) : WifiM (ℤ × Text) := do
  let buf ← query (WifiQ.uninitBuffer 4096)
  let _ ← wifiHalTriggerScan sc index
  let r ← wifiHalSendWpaCommand sc index "SCAN_RESULTS".toList
    ⟨(buf : CharArray 4096).bytes, 4095⟩
  return (0, r.2.bytes.take r.2.len)

end RadioHal
