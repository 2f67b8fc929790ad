import RadioHal.Lib.CString

/-!
# Radios and their messages

What `radio_hal.h` shares between the radio types.

## Main definitions

* `RadioType`, `wifiRadioMax`, `radioOneRadioSupport` — the radio types, and how many radios of
  a type there may be.
* `RadioHalMsgBuffer` — a message between radios.
-/

namespace RadioHal

open CLib

/-- `enum radio_type`. -/
inductive RadioType
  | wifi | bt | ieee802154 | modem | max
  deriving DecidableEq, Repr

/-- `WIFI_RADIO_MAX`. -/
abbrev wifiRadioMax : ℕ := 2

/-- `RADIO_ONE_RADIO_SUPPORT`. -/
abbrev radioOneRadioSupport : ℕ := 1

/-- `struct radio_hal_msg_buffer`. -/
structure RadioHalMsgBuffer where
  /-- The receiver. -/
  mtype : ℤ
  sender : RadioType
  event : ℤ
  mtext : CharArray 100
  deriving DecidableEq

/-- A message filled with zeros. -/
def RadioHalMsgBuffer.zero : RadioHalMsgBuffer := ⟨0, .wifi, 0, default⟩

end RadioHal
