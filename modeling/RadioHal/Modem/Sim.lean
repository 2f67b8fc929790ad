import RadioHal.Modem.AtChannel

/-!
# The PIN of the SIM card

`modem_hal_check_pin_status` asks for the state of the card, `modem_hal_get_numretries` for the
attempts that are left, and `enter_sim_pin` makes one attempt.

## Main definitions

* `SimStatus`, `modemHalCheckPinStatus` — the state of the card.
* `Retries`, `numretriesLine`, `modemHalGetNumretries` — the counters.
* `enterSimPin` — one attempt.

## Main results

* `numretriesLine_sc` — what a line of the PIN1 counters does.
-/

namespace RadioHal

open CLib Dialogue

/-- The values of `SIM_Status` that `modem_hal_check_pin_status` returns. -/
inductive SimStatus
  | absent | notReady | ready | pin | puk
  deriving DecidableEq, Repr

def SimStatus.code : SimStatus → ℤ
  | absent => 0
  | notReady => 1
  | ready => 2
  | pin => 3
  | puk => 4

/-- The end of `modem_hal_check_pin_status`: the line behind `+CPIN:`. -/
def cpinStatus (line : Text) : SimStatus :=
  if (atTokStart (some line)).1 < 0 then .notReady
  else
    let tok := atTokNextstr (atTokStart (some line)).2 none
    if tok.1 < 0 then .notReady
    else if tok.2.1 = some "SIM PIN".toList then .pin
    else if tok.2.1 = some "SIM PUK".toList then .puk
    else if tok.2.1 ≠ some "READY".toList then .absent
    else .ready

/-- `modem_hal_check_pin_status`. -/
def modemHalCheckPinStatus : ModemM SimStatus := do
  let r ← atSendCommandSingleline "AT+CPIN?".toList "+CPIN:".toList none
  if r.err ≠ 0 then return .notReady
  let p ← deref r.response
  if atGetCmeError p = 0 then
    -- an error final that claims the code `0` comes this way too, with or without a line
    let line ← deref p.pIntermediates.head?
    return cpinStatus line
  else if atGetCmeError p = 10 then return .absent
  else return .notReady

/-! ### Counters -/

/-- The `RIL_REQUEST_…` codes that `modem_hal_get_numretries` tells apart. -/
inductive RilRequest
  | setFacilityLock | enterSimPin | changeSimPin | enterSimPin2 | changeSimPin2 | enterSimPuk
  | enterSimPuk2 | other
  deriving DecidableEq, Repr

/-- The four local counters, of which the source initialises none. -/
structure Retries where
  pin1 : ℤ
  puk1 : ℤ
  pin2 : ℤ
  puk2 : ℤ
  deriving DecidableEq, Repr

/-- Two numbers behind a cursor; `none` where either cannot be read. -/
def twoInts (cur : Cursor) : Option (ℤ × ℤ) :=
  let first := atTokNextint cur 0
  if first.1 < 0 then none
  else
    let second := atTokNextint first.2.2 0
    if second.1 < 0 then none else some (first.2.1, second.2.1)

/-- One round of the loop over the lines; `none` is `goto error`. -/
def numretriesLine (r : Retries) (line : Text) : Option Retries :=
  let fac := atTokNextstr (atTokStart (some line)).2 none
  if fac.1 < 0 then none
  else
    match fac.2.1 with
    | none => none -- not reached: the token of a cursor that is not `NULL` is not `NULL` either
    | some fac' =>
      if strStarts fac' "SC".toList then
        (twoInts fac.2.2).map fun n => { r with pin1 := n.1, puk1 := n.2 }
      else if strStarts fac' "P2".toList then
        (twoInts fac.2.2).map fun n => { r with pin2 := n.1, puk2 := n.2 }
      else none

/-- The loop over the lines of the response.  It is `none` where a line cannot be read. -/
def numretriesLoop : List Text → Retries → Option Retries
  | [], r => some r
  | line :: rest, r => (numretriesLine r line).bind (numretriesLoop rest)

/-- The `switch (request)`, which picks one of the counters. -/
def Retries.get (r : Retries) : RilRequest → ℤ
  | .setFacilityLock => r.pin1
  | .enterSimPin => r.pin1
  | .changeSimPin => r.pin1
  | .enterSimPin2 => r.pin2
  | .changeSimPin2 => r.pin2
  | .enterSimPuk => r.puk1
  | .enterSimPuk2 => r.puk2
  | .other => -1

/-- `modem_hal_get_numretries`; its four counters start out unassigned. -/
def modemHalGetNumretries (request : RilRequest) : ModemM ℤ := do
  let pin1 ← query ModemQ.uninit
  let puk1 ← query ModemQ.uninit
  let pin2 ← query ModemQ.uninit
  let puk2 ← query ModemQ.uninit
  let r ← atSendCommandMultiline "AT+QPINC?".toList "+QPINC".toList none
  if r.err < 0 then return -1
  match r.response with
  | none => return -1
  | some p =>
    if p.success = false then return -1
    match numretriesLoop p.pIntermediates ⟨pin1, puk1, pin2, puk2⟩ with
    | none => return -1
    | some counters => return counters.get request

/-! ### One attempt -/

/-- `sizeof("AT+CPIN=\"12345678\"\n")`. -/
def cpinCmdSize : ℕ := 20

/-- The command of `enter_sim_pin`, cut to its buffer. -/
def cpinCommand (pin : Text) : Text :=
  ("AT+CPIN=\"".toList ++ pin ++ "\"".toList).take (cpinCmdSize - 1)

/-- The command tries a PIN, and uses up an attempt when the PIN is wrong. -/
def triesPin (command : Text) : Bool := strStarts command "AT+CPIN=".toList

theorem triesPin_cpinCommand (pin : Text) : triesPin (cpinCommand pin) = true := by
  refine strStarts_iff.mpr ⟨(('"' :: (pin ++ "\"".toList)).take 11), ?_⟩
  rw [cpinCommand, List.append_assoc]
  rfl

/-- The return value of `enter_sim_pin`, by the line behind `+CPIN:`. -/
def enterSimPinResult (line : Text) : ℤ :=
  if (atTokStart (some line)).1 < 0 then -1
  else
    let tok := atTokNextstr (atTokStart (some line)).2 none
    if tok.1 < 0 then -1
    else if tok.2.1 = some "READY".toList then 0
    else if tok.2.1 = some "SIM PIN2".toList then -2
    else if tok.2.1 = some "SIM PUK2".toList then -3
    else -4

/-- The end of `enter_sim_pin`: "CPIN set has succeeded, now look at the result". -/
def cpinCheck : ModemM ℤ := do
  let r ← atSendCommandSingleline "AT+CPIN?".toList "+CPIN:".toList none
  if r.err < 0 then return -1
  let p ← deref r.response
  if p.success = false then return -1
  let line ← deref p.pIntermediates.head?
  return enterSimPinResult line

/-- `enter_sim_pin`. -/
def enterSimPin (pin : Text) : ModemM ℤ := do
  let r ← atSendCommand (cpinCommand pin) none
  if r.err < 0 then return -1
  let p ← deref r.response
  if p.success = false then return -1
  cpinCheck

/-! ### Reading the counters -/

theorem twoInts_digits {ds : Text} (hne : ds ≠ []) (hds : ∀ c ∈ ds, isdigit c = true)
    {rest : Text} {n : ℤ × ℤ} (h : twoInts (some (ds ++ ',' :: rest)) = some n) :
    n.1 = toInt (min longMax (digitsValue ds)) := by
  unfold twoInts at h
  rw [atTokNextint_digits hne hds] at h
  dsimp only at h
  rw [if_neg (by omega)] at h
  split at h
  · exact absurd h (by simp)
  · rw [← Option.some.inj h]

/-- A line of the PIN1 counters sets them, or ends the parse. -/
theorem numretriesLine_sc {ds : Text} (hne : ds ≠ []) (hds : ∀ c ∈ ds, isdigit c = true)
    {rest : Text} {r r' : Retries}
    (h : numretriesLine r ("+QPINC: \"SC\",".toList ++ ds ++ ',' :: rest) = some r') :
    r'.pin1 = toInt (min longMax (digitsValue ds)) := by
  have hstart : (atTokStart (some ("+QPINC: \"SC\",".toList ++ ds ++ ',' :: rest))).2 =
      some ([' '] ++ '"' :: ("SC".toList ++ '"' :: ',' :: (ds ++ ',' :: rest))) := by
    rw [List.append_assoc]
    rfl
  have hstr := @atTokNextstr_quoted [' '] "SC".toList (List.all_eq_true.mp rfl) (by decide)
    (ds ++ ',' :: rest) none
  unfold numretriesLine at h
  rw [hstart, hstr] at h
  dsimp only at h
  rw [if_neg (by omega), if_pos (by decide)] at h
  obtain ⟨n, hn, rfl⟩ := Option.map_eq_some_iff.mp h
  exact twoInts_digits hne hds hn

/-- A line of the PIN2 counters leaves those of PIN1 alone. -/
theorem numretriesLine_p2 {rest : Text} {r r' : Retries}
    (h : numretriesLine r ("+QPINC: \"P2\"".toList ++ rest) = some r') : r'.pin1 = r.pin1 := by
  have hfac : (atTokNextstr (atTokStart (some ("+QPINC: \"P2\"".toList ++ rest))).2 none).2.1 =
      some "P2".toList := rfl
  unfold numretriesLine at h
  dsimp only at h
  split at h
  · exact absurd h (by simp)
  · rw [hfac] at h
    dsimp only at h
    rw [if_neg (by decide), if_pos (by decide)] at h
    obtain ⟨n, -, rfl⟩ := Option.map_eq_some_iff.mp h
    rfl

end RadioHal
