import RadioHal.Modem.Sim

/-!
# The make of the modem and its signal

`modem_hal_check_modem` asks who made the modem, and `modem_hal_get_rssi` how strong its signal
is: by `AT+CSQ`, and by `AT+CIND?` where that has no usable answer.

## Main definitions

* `modemHalCheckModem` — whether the modem is the tested one.
* `csqReading`, `rssiByCind`, `modemHalGetRssi` — the signal strength.
-/

namespace RadioHal

open CLib Dialogue

/-! ### The make -/

/-- `mm_lenght`. -/
def mmLenght : ℕ := 10

/-- A buffer of `mm_lenght` bytes that `strncpy` has left the last byte of alone, as a string. -/
def mmBuffer (line : Text) (last : Char) : Text :=
  cstr ((CharArray.strncpy (mmLenght - 1) line).bytes ++ [last])

/-- `modem_hal_check_modem`.  The buffer of the model comes from `malloc`: its last byte is not
assigned. -/
def modemHalCheckModem : ModemM ℤ := do
  let last ← query ModemQ.uninit
  let r ← atSendCommandSingleline "AT+GMI".toList [] none
  if r.err ≠ 0 then return -1
  let manufacturer ← firstIntermediate r.response
  let r' ← atSendCommandSingleline "AT+GMM".toList [] r.response
  if r'.err ≠ 0 then return -1
  let model ← firstIntermediate r'.response
  if mmBuffer manufacturer NUL = "Quectel".toList ∧
      mmBuffer model (Char.ofNat (last : ℤ).toNat) = "EG25".toList then
    return r'.err
  else return -1

/-! ### The signal -/

/-- The line behind `+CSQ:`: whether it was read to its end, and what `rssi` holds then. -/
def csqReading (line : Text) (rssi : ℤ) : Bool × ℤ :=
  if (atTokStart (some line)).1 < 0 then (false, rssi)
  else
    let first := atTokNextint (atTokStart (some line)).2 rssi
    if first.1 < 0 then (false, first.2.1)
    else (decide (0 ≤ (atTokNextint first.2.2 0).1), first.2.1)

/-- "Convert CSQ value to dBm", as an `int`. -/
def dbm (rssi : ℤ) : ℤ := toInt (-113 + rssi * 2)

/-- Behind the label `cind`.  The numbers of the line are kept in `signalStrength` and never
looked at again. -/
def rssiByCind (rssi : ℤ) : ModemM ℤ := do
  let r ← atSendCommandSingleline "AT+CIND?".toList "+CIND:".toList none
  if r.err ≠ 0 then return -1
  let line ← firstIntermediate r.response
  if (atTokStart (some line)).1 < 0 then return -1
  if twoInts (atTokStart (some line)).2 = none then return -1
  return dbm rssi

/-- `modem_hal_get_rssi`.  Nothing is assigned to `rssi` before the line is read. -/
def modemHalGetRssi : ModemM ℤ := do
  let rssi ← query ModemQ.uninit
  let r ← atSendCommandSingleline "AT+CSQ".toList "+CSQ:".toList none
  if r.err ≠ 0 then rssiByCind rssi
  else
    let line ← firstIntermediate r.response
    let reading := csqReading line rssi
    if reading.1 = false then rssiByCind reading.2
    else if reading.2 = 99 then rssiByCind reading.2
    else return dbm reading.2

end RadioHal
