import Mathlib.Data.Nat.Notation
import RadioHal.Common.Radio
import RadioHal.Lib.Dialogue
import RadioHal.Lib.Netlink
import RadioHal.Yaml.Config

/-!
# The state of the WiFi HAL, and what it asks

`wifi_softc` has one slot for each radio the build supports; `radio_amount` says how many of
them are in use.  The HAL talks to the kernel over netlink, to `wpa_supplicant` over control
sockets, and to a few files and programs.

## Main definitions

* `WifiState`, `WifiSystemEvent`, `WifiDriverVersion` — the enumerations of `wifi_hal.h`.
* `WifiSoftc`, `WifiContext` — `struct wifi_softc`, and the configurations of the radios.
* `NlAttrs`, `NlRequest` — the attributes of a netlink message, and the requests.
* `WifiQ`, `WifiM` — what the WiFi HAL asks of its surroundings, and programs that ask it.
* `WifiConfig.textFrom` — a string field of a configuration, as string functions read it.

## Main results

* `decimal_ne_nil` — a number is never printed as nothing.
-/

namespace RadioHal

open CLib Dialogue

/-! ### Enumerations -/

/-- `enum wifi_state`. -/
inductive WifiState
  | unknownState | initState | ifDownState | ifInitStage1 | ifUpState | associatedState
  | connectedState | disconnectedState | shutdownState | lastState
  deriving DecidableEq, Repr

def WifiState.num : WifiState → ℤ
  | unknownState => -2
  | initState => -1
  | ifDownState => 0
  | ifInitStage1 => 1
  | ifUpState => 2
  | associatedState => 3
  | connectedState => 4
  | disconnectedState => 5
  | shutdownState => 6
  | lastState => 7

/-- `enum wifi_SystemEvent`. -/
inductive WifiSystemEvent
  | noEvent | startupEvent | startupStage2Event | apEnabledEvent | meshGroupStartedEvent
  | disconnectedEvent | connectedEvent | terminateEvent | lastEvent
  deriving DecidableEq, Repr

def WifiSystemEvent.num : WifiSystemEvent → ℤ
  | noEvent => -1
  | startupEvent => 0
  | startupStage2Event => 1
  | apEnabledEvent => 2
  | meshGroupStartedEvent => 3
  | disconnectedEvent => 4
  | connectedEvent => 5
  | terminateEvent => 6
  | lastEvent => 7

/-- `enum wifi_driver_version`. -/
inductive WifiDriverVersion
  | ath9k | ath10k | ath11k | brcmFmac | versionMax
  deriving DecidableEq, Repr

/-! ### Messages of the kernel -/

/-- An attribute that holds attributes: its parsing may fail. -/
inductive Nested (α : Type)
  | malformed
  | parsed (a : α)
  deriving DecidableEq

/-- The attributes of `NL80211_ATTR_STA_INFO` that are looked at; a rate has a bit rate or not. -/
structure StaInfo where
  signal : Option (BitVec 8)
  txBitrate : Option (Nested (Option (BitVec 16)))
  rxBitrate : Option (Nested (Option (BitVec 16)))
  deriving DecidableEq

/-- The attributes of a message that are looked at.  nl80211 puts the name of an interface into a
message together with its index. -/
structure NlAttrs where
  /-- `NL80211_ATTR_IFNAME`. -/
  ifname : Option Text
  /-- `NL80211_ATTR_IFINDEX`. -/
  ifindex : Option (BitVec 32)
  /-- `NL80211_ATTR_WIPHY`. -/
  wiphy : Option (BitVec 32)
  /-- `NL80211_ATTR_STA_INFO`. -/
  staInfo : Option (Nested StaInfo)
  indexed : ifname.isSome = true → ifindex.isSome = true
  deriving DecidableEq

/-- The requests of the HAL, with their attributes. -/
inductive NlRequest
  /-- A dump of `NL80211_CMD_GET_INTERFACE`. -/
  | getInterface
  /-- A dump of `NL80211_CMD_GET_STATION`. -/
  | getStation (ifindex : ℤ)
  /-- `NL80211_CMD_SET_WIPHY` with a coverage class. -/
  | setCoverageClass (wiphy : ℤ) (coverage : ℕ)
  /-- `NL80211_CMD_SET_WIPHY` with a limit of the transmission power, in mdBm. -/
  | setTxPowerLimited (ifindex : ℕ) (level : ℤ)
  /-- `NL80211_CMD_REQ_SET_REG`. -/
  | reqSetReg (alpha2 : Text)
  /-- `NL80211_CMD_SET_MESH_PARAMS` with `NL80211_MESHCONF_FORWARDING`. -/
  | setMeshForwarding (ifindex : ℕ) (value : ℤ)
  deriving DecidableEq

/-- An answer of the kernel to a request of the HAL. -/
abbrev KernelAnswer : Type := Netlink.Answer NlAttrs

/-! ### The softc -/

/-- A `struct wpa_ctrl *` that is not null. -/
abbrev Handle : Type := ℕ

/-- `struct wpa_ctrl_ctx`. -/
structure WpaCtrlCtx where
  ctrl : Option Handle
  monitor : Option Handle
  meshCtrl : Option Handle
  deriving DecidableEq

/-- A slot of one of the tables. -/
abbrev Slot : Type := Fin wifiRadioMax

instance : NeZero wifiRadioMax := ⟨by decide⟩

/-- `struct wifi_softc` with its `netlink_ctx`.  Interface and phy names are cut to their fields
when they are stored, so a text holds all there is to them. -/
structure WifiSoftc where
  ifindex : Slot → ℤ
  ifname : Slot → Text
  phyname : Slot → Text
  debugfsRoot : Slot → Text
  drvVersion : Slot → WifiDriverVersion
  wpaCtx : Slot → WpaCtrlCtx
  signal : Slot → ℤ
  txrate : Slot → ℤ
  rxrate : Slot → ℤ
  state : Slot → WifiState
  radioAmount : ℕ

/-- The softc as `wifi_hal_attach` leaves it, without any radio. -/
def wifiHalAttach : WifiSoftc where
  ifindex _ := -1
  ifname _ := []
  phyname _ := []
  debugfsRoot _ := []
  drvVersion _ := .ath9k
  wpaCtx _ := ⟨none, none, none⟩
  signal _ := 0
  txrate _ := 0
  rxrate _ := 0
  state _ := .ifDownState
  radioAmount := 0

/-- The slots below `radio_amount`, in the order of the loops over them. -/
def WifiSoftc.radios (sc : WifiSoftc) : List Slot :=
  (List.finRange wifiRadioMax).filter fun i => i.val < sc.radioAmount

/-- `struct radio_context`, as far as the HAL looks at it: a configuration for each radio that
has one. -/
structure WifiContext where
  config : Slot → Option WifiConfig

/-! ### Strings -/

/-- The string fields of a configuration up to the padding behind `preamble`, in order. -/
def WifiConfig.strings (c : WifiConfig) : List Text :=
  [c.key.bytes, c.passphrase.bytes, c.ssid.bytes, c.enc.bytes, c.apMacAddr.bytes, c.country.bytes,
    c.freq.bytes, c.bw.bytes, c.preamble.bytes]

/-- A string field as string functions read it: without a terminator the reading runs on into
the fields behind it. -/
def WifiConfig.textFrom (c : WifiConfig) (field : ℕ) : Text :=
  cstr (c.strings.drop field).flatten

/-- `config->key`. -/
def WifiConfig.keyText (c : WifiConfig) : Text := c.textFrom 0

/-- `config->ssid`. -/
def WifiConfig.ssidText (c : WifiConfig) : Text := c.textFrom 2

/-- `config->enc`. -/
def WifiConfig.encText (c : WifiConfig) : Text := c.textFrom 3

/-- `config->country`. -/
def WifiConfig.countryText (c : WifiConfig) : Text := c.textFrom 5

/-- `config->freq`. -/
def WifiConfig.freqText (c : WifiConfig) : Text := c.textFrom 6

/-- `config->bw`. -/
def WifiConfig.bwText (c : WifiConfig) : Text := c.textFrom 7

/-- `strncmp(config->mode, p, strlen(p)) == 0`. -/
def WifiConfig.modeIs (c : WifiConfig) (p : Text) : Bool := strStarts c.mode.bytes p

/-- A number as `%d` prints it. -/
def decimal (v : ℤ) : Text :=
  if v < 0 then '-' :: Nat.toDigits 10 v.natAbs else Nat.toDigits 10 v.natAbs

theorem decimal_ne_nil (v : ℤ) : decimal v ≠ [] := by
  unfold decimal
  split
  · exact List.cons_ne_nil _ _
  · exact Nat.toDigits_ne_nil

/-- `snprintf(field, n, "%s", t)`. -/
def snprintf (n : ℕ) (t : Text) : Text := t.take (n - 1)

/-- `RADIO_IFNAME_SIZE`. -/
def radioIfnameSize : ℕ := 16

/-- `RADIO_PHYNAME_SIZE`. -/
def radioPhynameSize : ℕ := 8

/-- `RADIO_DEBUGFS_DIRSIZE`. -/
def radioDebugfsDirsize : ℕ := 264

/-! ### Programs of the WiFi HAL -/

/-- Why a control request gets no reply. -/
inductive WpaEnding
  /-- Nothing came for ten seconds. -/
  | timeout
  /-- `select` or `recv` failed. -/
  | failed
  deriving DecidableEq, Repr

/-- What comes of a control request, up to the return of `wpa_ctrl_request`. -/
inductive WpaAnswer
  | sendFailed
  /-- These datagrams came in, until the reply was among them or the waiting ended. -/
  | received (datagrams : List Text) (ending : WpaEnding)
  deriving DecidableEq, Repr

/-- The descriptors that `poll` found ready. -/
structure PollReady where
  stdin : Bool
  monitors : Slot → Bool

/-- What the WiFi HAL asks of its surroundings. -/
inductive WifiQ
  /-- `nlmsg_alloc`. -/
  | nlmsgAlloc
  /-- A netlink request is sent. -/
  | nlRequest (request : NlRequest)
  /-- `nl_recvmsgs` when the whole answer has been read. -/
  | nlFurtherMessage
  | ifNametoindex (name : Text)
  /-- `wpa_ctrl_open2`. -/
  | wpaOpen (path : Text)
  /-- `wpa_ctrl_close`. -/
  | wpaClose (ctrl : Handle)
  /-- `wpa_ctrl_request`. -/
  | wpaRequest (ctrl : Handle) (cmd : Text)
  /-- `wpa_ctrl_recv` on a monitor. -/
  | wpaRecv (monitor : Handle)
  /-- `wpa_ctrl_pending`. -/
  | wpaPending (monitor : Handle)
  /-- `poll` on stdin and the given number of monitors, without a time limit. -/
  | poll (monitors : ℕ)
  | popen (cmd : Text)
  /-- `stat`: whether the path names a directory. -/
  | stat (path : Text)
  /-- A file is opened for writing, and the text written to it. -/
  | writeFile (path text : Text)
  /-- The value of memory that has not been assigned. -/
  | uninit
  /-- The contents of a buffer that has not been assigned. -/
  | uninitBuffer (size : ℕ)
  /-- A read through a null pointer. -/
  | nullDeref
  /-- A write behind the end of an allocation. -/
  | heapOverflow
  /-- A use of an array outside its bounds. -/
  | outOfBounds
  /-- No question: the index `i` is used on `sc->state` or on `eNewEvent`. -/
  | usesIndex (i : ℤ)
  /-- No question: `init_handler` is called for radio `i`. -/
  | callsInitHandler (i : Slot)
  /-- No question: `wifi_hal_wait_on_event` is called. -/
  | callsWaitOnEvent
  deriving DecidableEq

/-- The answers.  What may fail answers an `Option` or a `Bool`; nothing comes back from a crash
or from a call that blocks for ever. -/
@[reducible] def WifiA : WifiQ → Type
  | .nlmsgAlloc => Bool
  | .nlRequest _ => Option KernelAnswer
  | .nlFurtherMessage => Empty
  | .ifNametoindex _ => ℕ
  | .wpaOpen _ => Option Handle
  | .wpaClose _ => Unit
  | .wpaRequest _ _ => WpaAnswer
  | .wpaRecv _ => Option Text
  | .wpaPending _ => Bool
  | .poll _ => Option PollReady
  | .popen _ => Option Text
  | .stat _ => Option Bool
  | .writeFile _ _ => Bool
  | .uninit => ℤ
  | .uninitBuffer size => CharArray size
  | .nullDeref => Empty
  | .heapOverflow => Empty
  | .outOfBounds => Empty
  | .usesIndex _ => Unit
  | .callsInitHandler _ => Unit
  | .callsWaitOnEvent => Unit

/-- Programs of the WiFi HAL: they ask what the kernel, wpa_supplicant and the system decide. -/
abbrev WifiM : Type → Type := Dialogue WifiQ WifiA

namespace WifiM

/-- A pointer is followed.  Where it is null the program goes no further. -/
def deref {α : Type} : Option α → WifiM α
  | some a => ret a
  | none => ask .nullDeref Empty.elim

/-- An index is used on an array with a place for each radio. -/
def slot (i : ℤ) : WifiM Slot :=
  if h : 0 ≤ i ∧ i < wifiRadioMax then ret ⟨i.toNat, by omega⟩
  else ask .outOfBounds Empty.elim

/-- The body of `for (i = 0; i < sc->radio_amount; i++)` has been run on the slots; a larger
amount has left them by then. -/
def endOfTable (sc : WifiSoftc) : WifiM Unit :=
  if sc.radioAmount ≤ wifiRadioMax then ret ()
  else ask .outOfBounds Empty.elim

@[simp] theorem slot_val (i : Slot) : slot (i.val : ℤ) = ret i := by
  have hlt := i.isLt
  have hrange : (0 : ℤ) ≤ i.val ∧ (i.val : ℤ) < wifiRadioMax := by omega
  unfold slot
  rw [dif_pos hrange]
  exact congrArg ret (Fin.ext rfl)

@[simp] theorem deref_some {α : Type} (a : α) : (deref (some a) : WifiM α) = ret a := rfl

end WifiM

end RadioHal
