import RadioHal.Common.OutputReader
import RadioHal.Modem.Sim
import RadioHal.Yaml.Config

/-!
# Connecting the modem

`modem_hal_connect` brings the card through its PIN, sets the modem up, polls the registration
and starts the data session by running `qmicli`.  `modem_events` is the event loop around it: as
long as connecting fails it is tried again.

## Main definitions

* `modemHalRunSysCmd` — running a program; its exit status is not looked at.
* `registrationQuery`, `registrationLoop` — one query of the registration, and the poll.
* `modemHalConnect` — the whole connection.
* `modemEvents` — the event loop, for a number of rounds.

## Main results

* `after_modemHalRunSysCmd` — a program hands on what the reading loop has left.
-/

namespace RadioHal

open CLib Dialogue

/-! ### Running programs -/

/-- `modem_hal_run_sys_cmd`: the return value, and the text in the response buffer. -/
def modemHalRunSysCmd (cmd : Text) (respSize : ℕ) : ModemM (ℤ × Text) := do
  let f ← query (ModemQ.popen cmd)
  match (f : Option Process) with
  | none => return (-1, [])
  | some process => return (0, readOutput respSize process.output)

/-- What is handed on is the text that the reading loop has left in the buffer. -/
theorem after_modemHalRunSysCmd {n : ℕ} (hn : 1 ≤ n) {respBuf filled : CharArray n}
    {process : Process} (h : FillsRespBuf respBuf process.output filled) (cmd : Text) :
    After (modemHalRunSysCmd cmd n) [⟨.popen cmd, some process⟩] (ret (0, cstr filled.bytes)) := by
  obtain ⟨tail, hbytes⟩ := h.bytes hn
  rw [hbytes, cstr_append_NUL notMem_readOutput]
  exact .reply _ (.start _)

/-! ### Registration -/

/-- `RIL_RegState`. -/
inductive RilRegState
  | notRegAndNotSearching | regHome | notRegAndSearching | regDenied | unknown | regRoaming
  | notRegAndEmergencyAvailableAndNotSearching | notRegAndEmergencyAvailableAndSearching
  | regDeniedAndEmergencyAvailable | unknownAndEmergencyAvailable
  deriving DecidableEq, Repr

/-- The conversion of a number to `RIL_RegState`; `none` for a number outside. -/
def rilRegState (n : ℤ) : Option RilRegState :=
  if n = 0 then some .notRegAndNotSearching
  else if n = 1 then some .regHome
  else if n = 2 then some .notRegAndSearching
  else if n = 3 then some .regDenied
  else if n = 4 then some .unknown
  else if n = 5 then some .regRoaming
  else if n = 10 then some .notRegAndEmergencyAvailableAndNotSearching
  else if n = 12 then some .notRegAndEmergencyAvailableAndSearching
  else if n = 13 then some .regDeniedAndEmergencyAvailable
  else if n = 14 then some .unknownAndEmergencyAvailable
  else none

/-- The states that end in `goto restart`. -/
def RilRegState.restarts : RilRegState → Bool
  | notRegAndNotSearching => true
  | notRegAndSearching => true
  | unknown => true
  | _ => false

/-- The registration status of the line behind `+CGREG:`; `none` is `goto error`. -/
def registrationStatus (line : Text) : Option ℤ :=
  if (atTokStart (some line)).1 < 0 then none
  else
    let urc := atTokNextint (atTokStart (some line)).2 0
    if urc.1 < 0 then none
    else
      let status := atTokNextint urc.2.2 0
      if status.1 < 0 then none else some status.2.1

/-- One query of `modem_hal_get_registration_status`: the status read, `none` for `goto error`,
and the response. -/
def registrationQuery (pResponse : Option ATResponse) : ModemM (Option ℤ × Option ATResponse) := do
  let r ← atSendCommandSingleline "AT+CGREG?".toList "+CGREG:".toList pResponse
  if r.err ≠ 0 then return (none, r.response)
  let line ← firstIntermediate r.response
  return (registrationStatus line, r.response)

/-- The `restart` loop of `modem_hal_get_registration_status`; `left` is what is left of
`wait_count` on its way to ten. -/
def registrationLoop : ℕ → Option ATResponse → ModemM ℤ
  | 0, pResponse => do
    let _ ← registrationQuery pResponse
    return -1
  | left + 1, pResponse => do
    let r ← registrationQuery pResponse
    match r.1 with
    | none => return -1
    | some status =>
      if (rilRegState status).any RilRegState.restarts then
        let _ ← query (ModemQ.sleep 1)
        registrationLoop left r.2
      else return status

/-- `modem_hal_get_registration_status`.  It asks until `wait_count` comes to ten. -/
def modemHalGetRegistrationStatus : ModemM ℤ := registrationLoop 10 none

/-! ### The connection -/

/-- What the modem HAL keeps: the first configuration, the memory behind it, and the name of the
modem. -/
structure ModemContext where
  /-- `ctx->config[0]`. -/
  config : ModemConfig
  /-- The memory behind the configuration, which a reading without a terminator runs into. -/
  beyond : Text
  /-- `sc->modem`. -/
  modem : Text

/-- `config->pin` as a string, which runs on into `at_serial` where it has no terminator. -/
def ModemContext.pin (ctx : ModemContext) : Text :=
  cstr (ctx.config.pin.bytes ++ ctx.config.atSerial.bytes ++ ctx.beyond)

/-- `config->apn` as a string, which runs on into `pin` where it has no terminator. -/
def ModemContext.apn (ctx : ModemContext) : Text :=
  cstr (ctx.config.apn.bytes ++ ctx.config.pin.bytes ++ ctx.config.atSerial.bytes ++ ctx.beyond)

/-- The command that starts the data session. -/
def startNetworkCommand (ctx : ModemContext) : Text :=
  prepareCmdBuf cmdBufferSize ("qmicli --device=/dev/".toList ++ ctx.modem ++
    " --device-open-proxy --wds-start-network=\"ip-type=4,apn=".toList ++ ctx.apn ++
    "\" --client-no-release-cid".toList)

/-- The `switch` on the state of the card: whether the connection goes on. -/
def verifySim (ctx : ModemContext) : SimStatus → ModemM Bool
  | .absent => return false
  | .notReady => return false
  | .ready => return true
  | .pin => do
    let pin1Retries ← modemHalGetNumretries .changeSimPin
    -- the last attempt is left to the user
    if pin1Retries > 1 then
      let ret ← enterSimPin ctx.pin
      return ret = 0
    else return false
  | .puk => return false

/-- The commands that are sent one after another, their results unseen. -/
def sendAll : List Text → ModemM Unit
  | [] => return ()
  | command :: rest => do
    let _ ← atSendCommand command none
    sendAll rest

/-- The commands behind the network registration events. -/
def setupCommands : List Text :=
  ["AT+CGREG=1".toList, "AT+CCWA=1".toList, "AT+CMOD=0".toList, "AT+CMUT=1".toList,
    "AT+CSSN=0,1".toList, "AT+COLP=0".toList, "AT+CSCS=\"HEX\"".toList, "AT+CUSD=1".toList,
    "AT+CGEREP=1,0".toList, "AT+CMGF=0".toList, "AT+CFUN=1".toList]

/-- The initialisations, whose results are looked at only to choose the kind of reports. -/
def initialiseModem : ModemM Unit := do
  sendAll ["ATS0=0".toList, "AT+CMEE=1".toList]
  let r ← atSendCommand "AT+CREG=2".toList none
  if r.err < 0 then sendAll ["AT+CREG=1".toList]
  else
    let p ← deref r.response
    if p.success = false then sendAll ["AT+CREG=1".toList]
  sendAll setupCommands

/-- The end of `modem_hal_connect`, which starts the data session by `qmicli`. -/
def startNetwork (ctx : ModemContext) : ModemM ℤ := do
  let ret ← modemHalRunSysCmd (startNetworkCommand ctx) (respBufferSize - 1)
  if ret.1 ≠ 0 then return -1
  return ret.1

/-- `modem_hal_connect`. -/
def modemHalConnect (ctx : ModemContext) : ModemM ℤ := do
  let status ← modemHalCheckPinStatus
  let verified ← verifySim ctx status
  if verified = false then return -1
  initialiseModem
  let ret ← modemHalGetRegistrationStatus
  if ret < 0 then return -1
  startNetwork ctx

/-! ### The event loop -/

/-- `modem_SystemEvent`. -/
inductive ModemSystemEvent
  | noEvent | startupEvent | dataCallEvent | nitzEvent | cellularTechEvent | offEvent
  | registrationEvent | lastEvent
  deriving DecidableEq, Repr

def ModemSystemEvent.code : ModemSystemEvent → ℤ
  | noEvent => -1
  | startupEvent => 0
  | dataCallEvent => 1
  | nitzEvent => 2
  | cellularTechEvent => 3
  | offEvent => 4
  | registrationEvent => 5
  | lastEvent => 6

/-- `modem_state`. -/
inductive ModemState
  | unknown | init | ifDown | ifUp | associated | connected | disconnected | last
  deriving DecidableEq, Repr

/-- `registration_handler`. -/
def registrationHandler : ModemM ModemState := return .ifUp

/-- `init_handler`.  The `radio_connect` of the modem HAL is `modem_hal_connect`; where it fails the
state stays, and the handler sleeps for a second. -/
def initHandler (ctx : ModemContext) : ModemM ModemState := do
  let ret ← modemHalConnect ctx
  if ret ≠ 0 then
    let _ ← query (ModemQ.sleep 1)
    return .init
  else return .ifUp

/-- The search through `modem_sStateMachine` and the call of the handler found; the state stays
where no row fits. -/
def modemStateMachine (ctx : ModemContext) (state : ModemState) (newEvent : ℤ) :
    ModemM ModemState :=
  if state = .init ∧ newEvent = ModemSystemEvent.startupEvent.code then initHandler ctx
  else if state = .ifUp ∧ newEvent = ModemSystemEvent.registrationEvent.code then
    registrationHandler
  else return state

/-- The variables of `modem_events` between two rounds. -/
structure EventLoop where
  state : ModemState
  newEvent : ℤ
  buffer : RadioHalMsgBuffer

/-- The handling of an event, for a state and an event inside their ranges. -/
def handleEvent (ctx : ModemContext) (l : EventLoop) : ModemM EventLoop :=
  if l.state ≠ .last ∧ l.newEvent < ModemSystemEvent.lastEvent.code then do
    let state ← modemStateMachine ctx l.state l.newEvent
    return { l with state := state }
  else return l

/-- One round of `modem_events`.  A read that fails leaves the message of the round before. -/
def modemEventsRound (ctx : ModemContext) (l : EventLoop) : ModemM EventLoop :=
  if l.state ≠ .init then do
    let msg ← query ModemQ.readEvent
    let buffer := (msg : Option RadioHalMsgBuffer).getD l.buffer
    handleEvent ctx { l with buffer := buffer, newEvent := buffer.event }
  else handleEvent ctx l

/-- `modem_events`, for `n` rounds of its loop. -/
def modemEvents (ctx : ModemContext) (n : ℕ) : ModemM EventLoop := do
  let _ ← atSendCommand "AT+CGREG?\n".toList none
  iterate (modemEventsRound ctx) n ⟨.init, ModemSystemEvent.startupEvent.code, .zero⟩

end RadioHal
