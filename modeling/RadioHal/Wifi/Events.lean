import RadioHal.Wifi.Hal
import RadioHal.Wifi.Monitor

/-!
# The event loop of the WiFi HAL

`wifi_events` starts the radios one after another and then waits for their events.  While
starting it looks at the state of the next radio to see whether there is one; the state machine
runs the handler of the state and the event of a radio and stores the state it returns.

## Main definitions

* `initHandler`, `initStage2Handler`, `connectedHandler`, `disconnectedHandler` — the handlers.
* `wifiAsStateMachine`, `findHandler` — the table of the state machine, and the search in it.
* `WifiEvents`, `wifiEventsRound` — the variables of the loop, and one round of it.
* `wifiEvents` — the event loop, for a number of rounds.
-/

namespace RadioHal.Wifi

open CLib Dialogue

section Events

variable (nl : Netlink.Libnl NlAttrs) (ctx : WifiContext)

/-! ### Handlers -/

/-- The mode of a radio is set up; the state that follows. -/
def setUpMode (sc : WifiSoftc) (index : Slot) (config : WifiConfig) :
    WifiM (WifiSoftc × WifiState) := do
  if config.modeIs "ap".toList = true then
    let _ ← wifiHalCreateAp nl ctx sc index
    return (sc, .ifInitStage1)
  else if config.modeIs "sta".toList = true then
    let _ ← wifiHalConnectAp nl ctx sc index
    return (sc, .ifInitStage1)
  else if config.modeIs "mesh".toList = true then
    let joined ← wifiHalJoinMesh nl ctx sc index
    return (joined.1, .ifInitStage1)
  else return (sc, .unknownState)

/-- `init_handler`; whether debugfs and the mode could be set up is not looked at. -/
def initHandler (sc : WifiSoftc) (index : Slot) : WifiM (WifiSoftc × WifiState) := do
  query (WifiQ.callsInitHandler index)
  let debugfs ← wifiDebugfsInit sc index
  let config ← WifiM.deref (ctx.config index)
  setUpMode nl ctx debugfs.1 index config

/-- `init_stage_2_handler`.  The pointer handed on is that of the array of configurations, so the
value for mesh forwarding comes from the memory behind it. -/
def initStage2Handler (sc : WifiSoftc) (index : Slot) : WifiM (WifiSoftc × WifiState) := do
  let config ← WifiM.deref (ctx.config index)
  if config.modeIs "mesh".toList = true then
    let meshFwding ← query WifiQ.uninit
    let _ ← wifiHalSetMeshFwding nl sc index meshFwding
    return (sc, .ifUpState)
  return (sc, .ifUpState)

/-- `connected_handler`. -/
def connectedHandler (sc : WifiSoftc) (index : Slot) : WifiM (WifiSoftc × WifiState) := do
  let rssi ← wifiHalGetRssi nl sc index
  return (rssi.1, .connectedState)

/-- `disconnected_handler`. -/
def disconnectedHandler (sc : WifiSoftc) (index : Slot) : WifiM (WifiSoftc × WifiState) := do
  let rssi ← wifiHalGetRssi nl sc index
  let _ ← wifiHalGetScanResults rssi.1 index
  return (rssi.1, .disconnectedState)

/-! ### The state machine -/

/-- The handlers in the table of the state machine. -/
inductive WifiEventHandler
  | init | initStage2 | terminate | disconnected | connected
  deriving DecidableEq, Repr

/-- A handler is called.  It returns the softc and the next state of the radio. -/
def WifiEventHandler.call (sc : WifiSoftc) (index : Slot) :
    WifiEventHandler → WifiM (WifiSoftc × WifiState)
  | init => initHandler nl ctx sc index
  | initStage2 => initStage2Handler nl ctx sc index
  | terminate => ret (sc, .shutdownState)
  | disconnected => disconnectedHandler nl sc index
  | connected => connectedHandler nl sc index

/-- `wifi_asStateMachine`, without the line that ends it. -/
def wifiAsStateMachine : List (WifiState × WifiSystemEvent × WifiEventHandler) :=
  [(.initState, .startupEvent, .init),
    (.ifInitStage1, .startupStage2Event, .initStage2),
    (.ifUpState, .terminateEvent, .terminate),
    (.disconnectedState, .connectedEvent, .disconnected),
    (.connectedState, .disconnectedEvent, .connected)]

/-- The search in the table, which takes the first row with the event and the state. -/
def findHandler (state : WifiState) (event : ℤ) : Option WifiEventHandler :=
  (wifiAsStateMachine.find? fun row => row.2.1.num = event ∧ row.1 = state).map (·.2.2)

/-! ### The loop -/

/-- The variables of `wifi_events`, with the softc. -/
structure WifiEvents where
  sc : WifiSoftc
  eNewEvent : Slot → ℤ
  stateMachine : WifiState
  index : ℤ

/-- A loop over the radios uses each of their indices. -/
def usesIndices : List Slot → WifiM Unit
  | [] => ret ()
  | i :: is => do
    query (WifiQ.usesIndex i)
    usesIndices is

/-- The loop that looks for a radio that has been shut down. -/
def someShutdown (sc : WifiSoftc) : List Slot → WifiM Bool
  | [] => ret false
  | i :: is => do
    query (WifiQ.usesIndex i)
    if sc.state i = .shutdownState then return true
    someShutdown sc is

/-- `sc->state[i]`.  What lies behind the array is `radio_amount`. -/
def loadState (sc : WifiSoftc) (i : ℤ) : WifiM ℤ := do
  query (WifiQ.usesIndex i)
  if i = wifiRadioMax then return sc.radioAmount
  let slot ← WifiM.slot i
  return (sc.state slot).num

/-- The first half of a round: the index and the event come from the next radio to start, or from
`wifi_hal_wait_on_event`.  `none` goes round again, with the startup over. -/
def nextEvent (s : WifiEvents) : WifiM (Option WifiEvents) :=
  if s.stateMachine ≠ .initState then do
    query (WifiQ.usesIndex s.index)
    let event ← wifiHalWaitOnEvent s.sc s.index eventBufLen
    query (WifiQ.usesIndex event.index)
    let slot ← WifiM.slot event.index
    return some { s with
      eNewEvent := Function.update s.eNewEvent slot (wifiHalMapWpaEventToState event.text).num
      index := event.index }
  else do
    let next ← loadState s.sc (s.index + 1)
    if next = WifiState.initState.num then
      query (WifiQ.usesIndex (s.index + 1))
      return some { s with index := s.index + 1 }
    return none

/-- The handler of the state and the event of a radio, if there is one. -/
def dispatch (s : WifiEvents) (slot : Slot) : WifiM (Option WifiEvents) := do
  if (s.sc.state slot).num < WifiState.lastState.num ∧
      s.eNewEvent slot < WifiSystemEvent.lastEvent.num then
    match findHandler (s.sc.state slot) (s.eNewEvent slot) with
    | none => return some s
    | some handler =>
      let r ← handler.call nl ctx s.sc slot
      return some { s with sc := { r.1 with state := Function.update r.1.state slot r.2 } }
  return some s

/-- The second half of a round: the state machine.  `none` is the return of `wifi_events`. -/
def runStateMachine (s : WifiEvents) : WifiM (Option WifiEvents) := do
  query (WifiQ.usesIndex s.index)
  let slot ← WifiM.slot s.index
  if s.eNewEvent slot = WifiSystemEvent.noEvent.num then return some s
  let shutdown ← someShutdown s.sc s.sc.radios
  if shutdown = true then return none
  dispatch nl ctx s slot

/-- One round of the loop: an event is picked and handled, or the startup is over. -/
def wifiEventsRound (s : WifiEvents) : WifiM (Option WifiEvents) := do
  let next ← nextEvent s
  match next with
  | none => return some { s with stateMachine := .ifUpState }
  | some s' => runStateMachine nl ctx s'

/-- What comes before the loop: the radios are in their first state, with the first event. -/
def wifiEventsStart (sc : WifiSoftc) : WifiM WifiEvents := do
  usesIndices sc.radios
  let first ← query WifiQ.uninit
  let second ← query WifiQ.uninit
  return {
    sc := { sc with state := fun i => if i.val < sc.radioAmount then .initState else sc.state i }
    eNewEvent := fun i =>
      if i.val < sc.radioAmount then WifiSystemEvent.startupEvent.num
      else if i = 0 then first else second
    stateMachine := .initState
    index := -1 }

/-- `wifi_events`, for `n` rounds of its loop. -/
def wifiEvents (n : ℕ) (sc : WifiSoftc) : WifiM (Option WifiEvents) := do
  let s ← wifiEventsStart sc
  iterate (fun o => o.elim (ret none) (wifiEventsRound nl ctx)) n (some s)

end Events

end RadioHal.Wifi
