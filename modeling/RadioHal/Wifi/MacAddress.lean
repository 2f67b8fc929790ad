import Mathlib.Tactic.IntervalCases
import RadioHal.Lib.Memory
import RadioHal.Wifi.Softc

/-!
# The address of a radio

`wifi_hal_get_mac_addr` asks the kernel for the address of an interface, and prints it byte after
byte into the buffer of the radio and into that of its caller.  Each print is bounded by the size of
a whole address, wherever in the buffer it begins.

## Main definitions

* `wifiHalMacAddrN2a` — the six bytes, printed into a buffer.
* `getMacAddr` — `get_mac_addr`, behind the answer of the kernel.
* `macText`, `readMac` — the text of an address, and how it is read.

## Main results

* `readMac_macText` — a text is read as the bytes that it was printed from.
* `mac_address_read_back` — **both buffers hold the address that the kernel has given, and nothing
  is written behind it; the buffer of the caller must have eighteen bytes.**
-/

namespace RadioHal.Wifi

open CLib

/-! ### Printing -/

/-- `MAC_ADDRESS_LENGTH`. -/
def macAddressLength : ℕ := 18

/-- A byte as `%02x` prints it, with two digits. -/
def hexByte (b : UInt8) : Text := [Nat.digitChar (b.toNat / 16), Nat.digitChar (b.toNat % 16)]

/-- The loop of `wifi_hal_mac_addr_n2a`, from the byte `i` on. -/
def n2aLoop {n : ℕ} : ℕ → ℕ → List UInt8 → CharArray n → Option (CharArray n)
  | _, _, [], macAddr => some macAddr
  | 0, l, b :: arg, macAddr => do
    let macAddr ← macAddr.store l (snprintf macAddressLength (hexByte b) ++ [NUL])
    n2aLoop 1 (l + 2) arg macAddr
  | i + 1, l, b :: arg, macAddr => do
    let macAddr ← macAddr.store l (snprintf macAddressLength (':' :: hexByte b) ++ [NUL])
    n2aLoop (i + 2) (l + 3) arg macAddr

/-- `wifi_hal_mac_addr_n2a`. -/
def wifiHalMacAddrN2a {n : ℕ} (macAddr : CharArray n) (arg : Fin 6 → UInt8) :
    Option (CharArray n) := n2aLoop 0 0 (List.ofFn arg) macAddr

/-- `get_mac_addr`: what the kernel does not give is zero. -/
def getMacAddr {m n : ℕ} (answer : Option (Fin 6 → UInt8)) (scMacAddr : CharArray m)
    (macAddr : CharArray n) : Option (CharArray m × CharArray n) := do
  let mac := answer.getD fun _ => 0
  let scMacAddr ← wifiHalMacAddrN2a scMacAddr mac
  let macAddr ← wifiHalMacAddrN2a macAddr mac
  return (scMacAddr, macAddr)

/-! ### Reading -/

/-- The text of an address: its bytes with a colon between two of them. -/
def macText (arg : List UInt8) : Text := [':'].intercalate (arg.map hexByte)

/-- The value of a hexadecimal digit in lower case. -/
def hexValue (c : Char) : ℕ :=
  if isdigit c then c.toNat - '0'.toNat else c.toNat - 'a'.toNat + 10

/-- The bytes that a text of this form stands for. -/
def readMac (t : Text) : List ℕ :=
  (t.splitOn ':').map fun w => w.foldl (fun v c => 16 * v + hexValue c) 0

theorem hexValue_digitChar {d : ℕ} (h : d < 16) : hexValue (Nat.digitChar d) = d := by
  interval_cases d <;> decide

theorem digitChar_ne {d : ℕ} (h : d < 16) : Nat.digitChar d ≠ ':' ∧ Nat.digitChar d ≠ NUL := by
  interval_cases d <;> decide

theorem notMem_hexByte (b : UInt8) : ':' ∉ hexByte b ∧ NUL ∉ hexByte b := by
  have hlt := b.toNat_lt
  obtain ⟨hcolon, hnul⟩ := digitChar_ne (show b.toNat / 16 < 16 by omega)
  obtain ⟨hcolon', hnul'⟩ := digitChar_ne (show b.toNat % 16 < 16 by omega)
  simp [hexByte, hcolon.symm, hcolon'.symm, hnul.symm, hnul'.symm]

/-- **An address is read back** from its text. -/
theorem readMac_macText {arg : List UInt8} (hne : arg ≠ []) :
    readMac (macText arg) = arg.map UInt8.toNat := by
  have hword : ∀ b : UInt8, (hexByte b).foldl (fun v c => 16 * v + hexValue c) 0 = b.toNat := by
    intro b
    have hlt := b.toNat_lt
    show 16 * (16 * 0 + hexValue _) + hexValue _ = _
    rw [hexValue_digitChar (by omega), hexValue_digitChar (by omega)]
    omega
  have hsplit : (macText arg).splitOn ':' = arg.map hexByte := by
    refine List.splitOn_intercalate ':' (fun w hw => ?_) (by simpa using hne)
    obtain ⟨b, -, rfl⟩ := List.mem_map.mp hw
    exact (notMem_hexByte b).1
  unfold readMac
  rw [hsplit, List.map_map]
  exact List.map_congr_left fun b _ => hword b

/-! ### The buffer -/

section Buffer

variable {n : ℕ} {macAddr : CharArray n}

/-- The bytes behind the first one, each with a colon. -/
def macTail (arg : List UInt8) : Text := arg.flatMap fun b => ':' :: hexByte b

theorem macText_cons (b : UInt8) (arg : List UInt8) :
    macText (b :: arg) = hexByte b ++ macTail arg := by
  induction arg generalizing b with
  | nil => rfl
  | cons c arg ih =>
    have hcons : macText (b :: c :: arg) = hexByte b ++ ':' :: macText (c :: arg) := by
      simp [macText, List.intercalate]
    rw [hcons, ih]
    rfl

theorem length_macTail (arg : List UInt8) : (macTail arg).length = 3 * arg.length := by
  induction arg with
  | nil => rfl
  | cons b arg ih =>
    have hthree : (':' :: hexByte b).length = 3 := rfl
    show (':' :: hexByte b ++ macTail arg).length = 3 * (arg.length + 1)
    rw [List.length_append, ih, hthree]
    omega

theorem length_macText {arg : List UInt8} (hne : arg ≠ []) :
    (macText arg).length = 3 * arg.length - 1 := by
  obtain ⟨b, arg, rfl⟩ := List.exists_cons_of_ne_nil hne
  have htwo : (hexByte b).length = 2 := rfl
  rw [macText_cons, List.length_append, length_macTail, htwo, List.length_cons]
  omega

theorem nul_notMem_macTail (arg : List UInt8) : NUL ∉ macTail arg := by
  intro h
  obtain ⟨b, -, hb⟩ := List.mem_flatMap.mp h
  rcases List.mem_cons.mp hb with hb | hb
  · exact absurd hb (by decide)
  · exact (notMem_hexByte b).2 hb

/-- **The later bytes**: where there is room they are printed behind what is there, with a
terminator behind them. -/
theorem exists_n2aLoop {i : ℕ} {t rest : Text} {arg : List UInt8}
    (hbytes : macAddr.bytes = t ++ NUL :: rest) (hroom : t.length + 3 * arg.length + 1 ≤ n) :
    ∃ b, n2aLoop (i + 1) t.length arg macAddr = some b ∧
      b.bytes = t ++ macTail arg ++ NUL :: rest.drop (3 * arg.length) := by
  induction arg generalizing i t rest macAddr with
  | nil => exact ⟨macAddr, rfl, by rw [hbytes]; simp [macTail]⟩
  | cons c arg ih =>
    rw [List.length_cons] at hroom
    obtain ⟨b₁, hstore, hbytes₁⟩ := CharArray.exists_store hbytes
      (snprintf macAddressLength (':' :: hexByte c) ++ [NUL]) (by
        show t.length + 4 ≤ n
        omega)
    have hbehind : b₁.bytes = (t ++ ':' :: hexByte c) ++ NUL :: rest.drop 3 := by
      rw [hbytes₁]
      show t ++ (':' :: hexByte c ++ [NUL]) ++ rest.drop 3 = _
      simp
    have hlen : (t ++ ':' :: hexByte c).length = t.length + 3 := by
      rw [List.length_append]
      rfl
    obtain ⟨b, hloop, hall⟩ := ih (i := i + 1) hbehind (by omega)
    refine ⟨b, ?_, ?_⟩
    · show (macAddr.store t.length _ >>= fun a => n2aLoop (i + 2) (t.length + 3) arg a) = _
      rw [hstore, ← hlen]
      exact hloop
    · rw [hall, List.drop_drop, List.length_cons]
      simp [macTail, Nat.mul_add, Nat.add_comm]

theorem n2aLoop_eq_none {i l : ℕ} {arg : List UInt8} (hne : arg ≠ [])
    (hroom : n < l + 3 * arg.length + 1) : n2aLoop (i + 1) l arg macAddr = none := by
  induction arg generalizing i l macAddr with
  | nil => exact absurd rfl hne
  | cons c arg ih =>
    rw [List.length_cons] at hroom
    show (macAddr.store l _ >>= fun a => n2aLoop (i + 2) (l + 3) arg a) = none
    by_cases hfits : l + 4 ≤ n
    · have harg : arg ≠ [] := by
        rintro rfl
        rw [List.length_nil] at hroom
        omega
      cases hstore : macAddr.store l (snprintf macAddressLength (':' :: hexByte c) ++ [NUL]) with
      | none => rfl
      | some a => exact ih harg (by omega)
    · have hnone : macAddr.store l (snprintf macAddressLength (':' :: hexByte c) ++ [NUL]) = none :=
        if_neg hfits
      rw [hnone]
      rfl

/-- **The six bytes**: they need eighteen, and leave what lies behind these.  A shorter buffer is
written past its end. -/
theorem wifiHalMacAddrN2a_spec (macAddr : CharArray n) (arg : Fin 6 → UInt8) :
    if n < macAddressLength then wifiHalMacAddrN2a macAddr arg = none
    else ∃ b, wifiHalMacAddrN2a macAddr arg = some b ∧
      b.bytes = macText (List.ofFn arg) ++ NUL :: macAddr.bytes.drop macAddressLength := by
  have hlen : (List.ofFn fun i : Fin 5 => arg i.succ).length = 5 := List.length_ofFn
  unfold wifiHalMacAddrN2a
  rw [List.ofFn_succ, macText_cons]
  generalize List.ofFn (fun i : Fin 5 => arg i.succ) = behind at hlen
  show if n < 18 then (macAddr.store 0 (hexByte (arg 0) ++ [NUL]) >>= n2aLoop 1 2 behind) = none
    else ∃ b, (macAddr.store 0 (hexByte (arg 0) ++ [NUL]) >>= n2aLoop 1 2 behind) = some b ∧ _
  split
  · next hroom =>
    cases hstore : macAddr.store 0 (hexByte (arg 0) ++ [NUL]) with
    | none => rfl
    | some a =>
      have hne : behind ≠ [] := List.ne_nil_of_length_pos (by omega)
      exact n2aLoop_eq_none hne (by omega)
  · next hroom =>
    have hstart : macAddr.bytes = [] ++ macAddr.bytes := rfl
    obtain ⟨b₁, hstore, hbytes⟩ := CharArray.exists_store hstart (hexByte (arg 0) ++ [NUL]) (by
      show 3 ≤ n
      omega)
    have hbehind : b₁.bytes = hexByte (arg 0) ++ NUL :: macAddr.bytes.drop 3 := by
      rw [hbytes]
      rfl
    have htwo : (hexByte (arg 0)).length = 2 := rfl
    have hfits : (hexByte (arg 0)).length + 3 * behind.length + 1 ≤ n := by omega
    obtain ⟨b, hloop, hall⟩ := exists_n2aLoop (i := 0) hbehind hfits
    refine ⟨b, ?_, ?_⟩
    · rw [show macAddr.store 0 _ = some b₁ from hstore]
      exact hloop
    · rw [hall, List.drop_drop, hlen]
      rfl

/-- The text of a buffer that holds an address in front of a terminator. -/
theorem text?_of_bytes {arg : List UInt8} {b : CharArray n} {rest : Text} (hne : arg ≠ [])
    (hbytes : b.bytes = macText arg ++ NUL :: rest) : b.text? = some (macText arg) := by
  obtain ⟨c, arg, rfl⟩ := List.exists_cons_of_ne_nil hne
  have hnul : NUL ∉ macText (c :: arg) := by
    rw [macText_cons, List.mem_append, not_or]
    exact ⟨(notMem_hexByte c).2, nul_notMem_macTail arg⟩
  unfold CharArray.text?
  rw [hbytes, if_pos (by simp), cstr_append_NUL hnul]

end Buffer

/-- **The address that the kernel gives is read back from both buffers, and nothing is written
behind it, if the buffer of the caller has room for it; else the writes go on behind its end.**  An
interface without an address has the address zero. -/
theorem mac_address_read_back {n : ℕ} (answer : Option (Fin 6 → UInt8))
    (scMacAddr : CharArray macAddressLength) (macAddr : CharArray n) :
    (getMacAddr answer scMacAddr macAddr = none ↔ n < macAddressLength) ∧
      ∀ own out, getMacAddr answer scMacAddr macAddr = some (own, out) →
        out.text? = own.text? ∧ out.bytes.drop macAddressLength =
            macAddr.bytes.drop macAddressLength ∧
          out.text?.map readMac =
            some (List.ofFn fun i => ((answer.getD fun _ => 0) i).toNat) := by
  have hown := wifiHalMacAddrN2a_spec scMacAddr (answer.getD fun _ => 0)
  have hout := wifiHalMacAddrN2a_spec macAddr (answer.getD fun _ => 0)
  rw [if_neg (lt_irrefl _)] at hown
  obtain ⟨own, hown, hbytes⟩ := hown
  have hne : List.ofFn (answer.getD fun _ => 0) ≠ [] := by simp
  have hget : getMacAddr answer scMacAddr macAddr =
      (wifiHalMacAddrN2a macAddr (answer.getD fun _ => 0)).map fun b => (own, b) := by
    unfold getMacAddr
    dsimp only
    rw [hown]
    cases wifiHalMacAddrN2a macAddr (answer.getD fun _ => 0) <;> rfl
  rw [hget]
  split at hout
  · next hroom =>
    rw [hout]
    exact ⟨iff_of_true rfl hroom, fun own out h => by cases h⟩
  · next hroom =>
    obtain ⟨b, hb, hbytes'⟩ := hout
    rw [hb]
    refine ⟨iff_of_false (by simp) hroom, fun own' out h => ?_⟩
    obtain ⟨rfl, rfl⟩ := Prod.mk.inj (Option.some.inj h)
    have htext := text?_of_bytes hne hbytes'
    refine ⟨htext.trans (text?_of_bytes hne hbytes).symm, ?_, ?_⟩
    · have hlen : (macText (List.ofFn (answer.getD fun _ => 0)) ++ [NUL]).length =
          macAddressLength := by
        rw [List.length_append, length_macText hne, List.length_ofFn]
        rfl
      rw [hbytes', List.append_cons]
      exact List.drop_left' hlen
    · rw [htext, Option.map_some, readMac_macText hne, List.map_ofFn]
      rfl

end RadioHal.Wifi
