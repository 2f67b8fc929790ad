import Mathlib.Data.List.Forall2
import Mathlib.Data.List.Induction
import RadioHal.Common.Radio
import RadioHal.Lib.MsgQueue
import RadioHal.Lib.Steps

/-!
# Messages between radios

`radio_hal_msg_send` hands `msgsnd` the address of its parameter instead of the message: the type is
the address of the caller's buffer, and the text is what lies on the stack.  `radio_hal_msg_recv`
lets `msgrcv` write a text as long as the whole structure behind the type.

## Main definitions

* `RadioType.msgType`, `RadioHalMsgBuffer.fields` — the layout of a message on an LP64 machine.
* `SendCall`, `radioHalMsgSend`, `radioHalMsgRecv` — the two functions on a queue.
* `Receipt.Returns` — a call has returned a message, and written nothing else.
* `RoundTrip` — a radio receives what was sent to it.

## Main results

* `received_iff` — **a radio receives the stacks of the callers whose buffer lies at its type.**
* `roundTrip_iff` — a radio receives what was sent to it only if that is nothing, and nothing else
  has come.
-/

namespace RadioHal

open MsgQueue

/-! ### Layout -/

def RadioType.num : RadioType → ℕ
  | wifi => 0
  | bt => 1
  | ieee802154 => 2
  | modem => 3
  | max => 4

/-- `0x80000000 | radio`, which is an `unsigned int`. -/
def RadioType.msgType (radio : RadioType) : ℤ := (0x80000000 ||| radio.num : ℕ)

/-- The bytes of a number, the lowest first. -/
def numBytes : ℕ → ℕ → List Char
  | 0, _ => []
  | k + 1, n => Char.ofNat (n % 256) :: numBytes k (n / 256)

/-- A `long` in memory, with eight bytes in little endian. -/
def longBytes (v : ℤ) : List Char := numBytes 8 (v % 2 ^ 64).toNat

/-- An `int` in memory, with four bytes in little endian. -/
def intBytes (v : ℤ) : List Char := numBytes 4 (v % 2 ^ 32).toNat

/-- The fields of a message behind its type, as they lie in memory; four bytes of padding follow. -/
def RadioHalMsgBuffer.fields (msg : RadioHalMsgBuffer) : List Char :=
  intBytes msg.sender.num ++ intBytes msg.event ++ msg.mtext.bytes

/-- `sizeof(long)` -/
def sizeofLong : ℕ := 8

/-- `sizeof(struct radio_hal_msg_buffer)` -/
def sizeofMsgBuffer : ℕ := 120

@[simp] theorem length_numBytes (k n : ℕ) : (numBytes k n).length = k := by
  induction k generalizing n with
  | zero => rfl
  | succ k ih => rw [numBytes, List.length_cons, ih]

@[simp] theorem length_longBytes (v : ℤ) : (longBytes v).length = sizeofLong := length_numBytes 8 _

/-! ### The two functions -/

/-- A queue of the kernel, as `msgsnd` and `msgrcv` see it. -/
abbrev Queue : Type := List (Message Char)

/-- The address of an object, read as a `long`; the kernel keeps the other half to itself. -/
abbrev UserAddress : Type := {a : ℤ // 0 < a ∧ a < 2 ^ 63}

/-- A call of `radio_hal_msg_send`, with the memory that it reads. -/
structure SendCall where
  /-- What `msg` points to. -/
  msg : RadioHalMsgBuffer
  /-- The value of `msg`. -/
  address : UserAddress
  /-- What lies on the stack behind the parameter `msg`. -/
  stack : CLib.CharArray sizeofMsgBuffer
  radio : RadioType

/-- What `msgsnd` finds at `&msg`: a pointer where it looks for the type, and the stack behind. -/
def SendCall.atParameter (call : SendCall) : Message Char := ⟨call.address, call.stack.bytes⟩

/-- `radio_hal_msg_send`: the result, the message of the caller, and the queue. -/
def radioHalMsgSend (call : SendCall) (q : Queue) : ℤ × RadioHalMsgBuffer × Queue :=
  let msg := { call.msg with mtype := call.radio.msgType }
  match msgsnd q call.atParameter with
  | none => (22, msg, q)
  | some q' => (0, msg, q')

/-- What a call of `radio_hal_msg_recv` returns, and what it has written from `msg` on. -/
structure Receipt where
  result : ℤ
  written : List Char

/-- `radio_hal_msg_recv`.  It waits, which is `none`, until there is a message of the type it asks
for; a message that is too long for it stays in the queue. -/
def radioHalMsgRecv (radio : RadioType) (q : Queue) : Option (Receipt × Queue) :=
  match msgrcv q sizeofMsgBuffer radio.msgType with
  | .waits => none
  | .tooBig => some (⟨7, []⟩, q)
  | .taken m q' => some (⟨0, longBytes m.mtype ++ m.mtext⟩, q')

/-! ### What should come of them -/

/-- **A call has returned a message**: sender, event and text stand where they belong, and nothing
behind the structure has been written. -/
structure Receipt.Returns (receipt : Receipt) (msg : RadioHalMsgBuffer) : Prop where
  result : receipt.result = 0
  fields : (receipt.written.drop sizeofLong).take msg.fields.length = msg.fields
  within : receipt.written.length ≤ sizeofMsgBuffer

/-- The queue behind some calls of `radio_hal_msg_send`, from an empty one on. -/
def queueBehind (calls : List SendCall) : Queue :=
  calls.foldl (fun q call => (radioHalMsgSend call q).2.2) []

/-- The messages that are sent to a radio, in the order of the calls. -/
def sentTo (radio : RadioType) (calls : List SendCall) : List RadioHalMsgBuffer :=
  (calls.filter fun call => call.radio = radio).map SendCall.msg

/-- A call of `radio_hal_msg_recv` that returns, as a step of the queue. -/
def RecvStep (radio : RadioType) (q : Queue) (label : Option Receipt) (q' : Queue) : Prop :=
  ∃ receipt, label = some receipt ∧ radioHalMsgRecv radio q = some (receipt, q')

/-- Successive calls for a radio return these receipts, and the next one waits. -/
def Received (radio : RadioType) (q : Queue) (receipts : List Receipt) : Prop :=
  ∃ q', Trace (RecvStep radio) q receipts q' ∧ radioHalMsgRecv radio q' = none

/-- **Successive calls for a radio return exactly the messages sent to it**, in order. -/
def RoundTrip (radio : RadioType) (calls : List SendCall) : Prop :=
  ∃ receipts, Received radio (queueBehind calls) receipts ∧
    List.Forall₂ Receipt.Returns receipts (sentTo radio calls)

/-! ### What comes of them -/

section Calls

variable {radio : RadioType} {q q' : Queue} {receipts : List Receipt}

/-- A call puts what lies at its parameter behind the queue. -/
theorem radioHalMsgSend_eq (call : SendCall) (q : Queue) : radioHalMsgSend call q =
    (0, { call.msg with mtype := call.radio.msgType }, q ++ [call.atParameter]) := by
  have hpos : 0 < call.atParameter.mtype := call.address.property.1
  unfold radioHalMsgSend
  rw [msgsnd_of_pos hpos]

theorem queueBehind_eq (calls : List SendCall) :
    queueBehind calls = calls.map SendCall.atParameter := by
  induction calls using List.reverseRecOn with
  | nil => rfl
  | append_singleton calls call ih =>
    have hlast : queueBehind (calls ++ [call]) = (radioHalMsgSend call (queueBehind calls)).2.2 :=
      List.foldl_concat _ _ _ _
    rw [hlast, radioHalMsgSend_eq, ih, List.map_append]
    rfl

theorem fits_queueBehind (calls : List SendCall) : Fits sizeofMsgBuffer (queueBehind calls) := by
  intro m hm
  rw [queueBehind_eq] at hm
  obtain ⟨call, -, rfl⟩ := List.mem_map.mp hm
  exact call.stack.length_bytes.le

/-- What `radio_hal_msg_recv` stores when it gets the message. -/
def receiptOf (m : Message Char) : Receipt := ⟨0, longBytes m.mtype ++ m.mtext⟩

/-- A call takes the first message of its type, and waits when there is none. -/
theorem radioHalMsgRecv_spec (hq : Fits sizeofMsgBuffer q) (radio : RadioType) :
    (radioHalMsgRecv radio q = none ∧ ofType radio.msgType q = []) ∨
      ∃ m q', radioHalMsgRecv radio q = some (receiptOf m, q') ∧
        ofType radio.msgType q = m :: ofType radio.msgType q' ∧ Fits sizeofMsgBuffer q' := by
  unfold radioHalMsgRecv
  rcases msgrcv_spec hq radio.msgType with ⟨hwaits, hnone⟩ | ⟨m, q', htaken, htype, hsub⟩
  · left
    exact ⟨by rw [hwaits], hnone⟩
  · right
    exact ⟨m, q', by rw [htaken]; rfl, htype, hq.mono hsub⟩

/-- Behind some calls the receipts stand for the messages of the type that are gone. -/
theorem map_receiptOf_eq (hq : Fits sizeofMsgBuffer q) (h : Trace (RecvStep radio) q receipts q') :
    Fits sizeofMsgBuffer q' ∧ (ofType radio.msgType q).map receiptOf =
      receipts ++ (ofType radio.msgType q').map receiptOf := by
  apply h.log_invariant fun log q' => Fits sizeofMsgBuffer q' ∧
    (ofType radio.msgType q).map receiptOf = log ++ (ofType radio.msgType q').map receiptOf
  · intro log s label s' hinv hstep
    obtain ⟨hfits, heq⟩ := hinv
    obtain ⟨receipt, rfl, hrecv⟩ := hstep
    rcases radioHalMsgRecv_spec hfits radio with ⟨hwaits, -⟩ | ⟨m, s'', htaken, htype, hfits'⟩
    · rw [hwaits] at hrecv
      exact absurd hrecv (by simp)
    · rw [htaken] at hrecv
      obtain ⟨rfl, rfl⟩ := Prod.mk.inj (Option.some.inj hrecv)
      refine ⟨hfits', ?_⟩
      rw [heq, htype]
      simp
  · exact ⟨hq, rfl⟩

/-- As many calls return as there are messages of the type. -/
theorem exists_received (hq : Fits sizeofMsgBuffer q) : ∃ receipts, Received radio q receipts := by
  generalize hn : (ofType radio.msgType q).length = n
  induction n generalizing q with
  | zero =>
    rcases radioHalMsgRecv_spec hq radio with ⟨hwaits, -⟩ | ⟨m, q', -, htype, -⟩
    · exact ⟨[], q, .refl, hwaits⟩
    · rw [htype] at hn
      exact absurd hn (by simp)
  | succ n ih =>
    rcases radioHalMsgRecv_spec hq radio with ⟨-, hnone⟩ | ⟨m, q', htaken, htype, hfits⟩
    · rw [hnone] at hn
      exact absurd hn (by simp)
    · rw [htype, List.length_cons] at hn
      obtain ⟨receipts, s, htrace, hwaits⟩ := ih hfits (by omega)
      have hfirst : Trace (RecvStep radio) q [receiptOf m] q' := .single ⟨_, rfl, htaken⟩
      exact ⟨receiptOf m :: receipts, s, hfirst.trans htrace, hwaits⟩

/-- The calls for a radio return the messages of its type, whatever these are. -/
theorem received_iff_of_fits (hq : Fits sizeofMsgBuffer q) :
    Received radio q receipts ↔ receipts = (ofType radio.msgType q).map receiptOf := by
  have hall : ∀ receipts, Received radio q receipts →
      receipts = (ofType radio.msgType q).map receiptOf := by
    intro receipts h
    obtain ⟨s, htrace, hwaits⟩ := h
    obtain ⟨hfits, heq⟩ := map_receiptOf_eq hq htrace
    rcases radioHalMsgRecv_spec hfits radio with ⟨-, hnone⟩ | ⟨m, s', htaken, -, -⟩
    · simpa [hnone] using heq.symm
    · rw [htaken] at hwaits
      exact absurd hwaits (by simp)
  constructor
  · exact hall receipts
  · intro h
    obtain ⟨others, hothers⟩ : ∃ others, Received radio q others := exists_received hq
    rw [h, ← hall others hothers]
    exact hothers

/-- **A radio receives the stacks of the callers whose buffer lies at the address that is its
type**, and nothing of any message. -/
theorem received_iff (radio : RadioType) (calls : List SendCall) (receipts : List Receipt) :
    Received radio (queueBehind calls) receipts ↔
      receipts = (calls.filter fun call => call.address = radio.msgType).map fun call =>
        ⟨0, longBytes call.address ++ call.stack.bytes⟩ := by
  rw [received_iff_of_fits (fits_queueBehind calls), queueBehind_eq]
  unfold ofType
  rw [List.filter_map, List.map_map]
  rfl

theorem sentTo_eq_nil_iff {calls : List SendCall} :
    sentTo radio calls = [] ↔ ∀ call ∈ calls, call.radio ≠ radio := by
  unfold sentTo
  simp [List.filter_eq_nil_iff]

/-- Every receipt of a radio has gone beyond the structure. -/
theorem not_returns (call : SendCall) (msg : RadioHalMsgBuffer) :
    ¬ Receipt.Returns ⟨0, longBytes call.address ++ call.stack.bytes⟩ msg := by
  intro h
  have hwithin := h.within
  rw [List.length_append, length_longBytes, call.stack.length_bytes] at hwithin
  unfold sizeofLong at hwithin
  omega

end Calls

/-- **A radio receives what was sent to it only if nothing was**, and nothing else has come: no
buffer of a caller lies at the address that is its type.  For `msgsnd` is handed the address of the
parameter, so the type of what is queued is the value of the pointer. -/
theorem roundTrip_iff (radio : RadioType) (calls : List SendCall) : RoundTrip radio calls ↔
    ∀ call ∈ calls, call.radio ≠ radio ∧ (call.address : ℤ) ≠ radio.msgType := by
  constructor
  · intro h
    obtain ⟨receipts, hreceived, hreturns⟩ := h
    rw [received_iff] at hreceived
    have hothers : (calls.filter fun call => call.address = radio.msgType) = [] := by
      cases hcalls : calls.filter fun call => call.address = radio.msgType with
      | nil => rfl
      | cons call rest =>
        -- the receipt of this call is too long
        rw [hreceived, hcalls, List.map_cons] at hreturns
        obtain ⟨msg, msgs, hfirst, -, -⟩ := List.forall₂_cons_left_iff.mp hreturns
        exact absurd hfirst (not_returns call msg)
    rw [hothers] at hreceived
    rw [hreceived] at hreturns
    have hsent := sentTo_eq_nil_iff.mp (List.forall₂_nil_left_iff.mp hreturns)
    rw [List.filter_eq_nil_iff] at hothers
    intro call hcall
    exact ⟨hsent call hcall, by simpa using hothers call hcall⟩
  · intro h
    have hsent : sentTo radio calls = [] := sentTo_eq_nil_iff.mpr fun call hcall => (h call hcall).1
    have hothers : (calls.filter fun call => call.address = radio.msgType) = [] := by
      rw [List.filter_eq_nil_iff]
      intro call hcall
      simpa using (h call hcall).2
    refine ⟨[], ?_, ?_⟩
    · rw [received_iff, hothers]
      rfl
    · rw [hsent]
      exact .nil

/-- A message to the modem, in a buffer on the stack of the caller. -/
def callFromStack : SendCall where
  msg := RadioHalMsgBuffer.zero
  address := ⟨0x7ffc00001000, by decide⟩
  stack := default
  radio := .modem

/-- What is sent to a radio does not always come back. -/
theorem not_all_roundTrip : ¬ ∀ (radio : RadioType) (calls : List SendCall),
    RoundTrip radio calls := by
  intro h
  obtain ⟨receipts, hreceived, hreturns⟩ := h .modem [callFromStack]
  rw [received_iff] at hreceived
  have hnone : receipts = [] := hreceived
  rw [hnone] at hreturns
  have hlen := hreturns.length_eq
  exact absurd hlen (by decide)

end RadioHal
