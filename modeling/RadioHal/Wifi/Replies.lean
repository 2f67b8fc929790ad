import RadioHal.Wifi.WpaCtrl

/-!
# The reply to a request

On a control connection events come in between a request and its reply.  Which datagram is taken
for the reply depends on the room there is for it, and what is looked at afterwards is a buffer
that still holds the rest of earlier replies.

## Main definitions

* `isEventText` — a text that begins like an event.
* `WpaAnswer.reply` — the datagram taken for the reply, cut to the room there is.
* `Reply.answered` — the result of a command, and the buffer behind it.
* `WpaAnswer.Acknowledged` — the reply begins with `OK`.

## Main results

* `deliver_of_reply`, `deliver_of_no_reply` — **what is delivered is the reply, in front of what the
  buffer held.**
* `Reply.acknowledged_of_heard` — **a buffer that reads `OK` behind a command comes from a reply
  that does**, if there was a datagram, and none shorter than two bytes.
-/

namespace RadioHal

open CLib Dialogue

/-- A text that begins with a priority tag or with the name of an interface. -/
def isEventText (t : Text) : Bool := t.head? == some '<' || strStarts t "IFNAME=".toList

/-- A text that is long enough begins like what it is put in front of. -/
theorem strStarts_append {p t rest : Text} (h : p.length ≤ t.length) :
    strStarts (t ++ rest) p = strStarts t p := by
  rw [Bool.eq_iff_iff, strStarts_iff, strStarts_iff]
  constructor
  · intro hp
    exact List.prefix_of_prefix_length_le hp (List.prefix_append t rest) h
  · intro hp
    exact List.prefix_append_of_prefix hp

/-- What is received is taken for an event exactly if it begins like one. -/
theorem isUnsolicited_recv (r : Reply) (d : Text) :
    (r.recv d).2.isUnsolicited (r.recv d).1 = isEventText (d.take r.len) := by
  have hlen : (d.take r.len).length = min d.length r.len := by
    rw [List.length_take, Nat.min_comm]
  unfold Reply.isUnsolicited Reply.recv isEventText
  dsimp only
  rw [← hlen]
  generalize d.take r.len = taken
  congr 1
  · cases taken <;> simp
  · by_cases hshort : 6 < taken.length
    · have hle : "IFNAME=".toList.length ≤ taken.length := hshort
      rw [strStarts_append hle]
      simp [hshort]
    · have hnot : strStarts taken "IFNAME=".toList = false := by
        rw [Bool.eq_false_iff, ne_eq, strStarts_iff]
        intro hp
        have hle : "IFNAME=".toList.length ≤ taken.length := hp.length_le
        exact hshort hle
      rw [hnot]
      simp [hshort]

/-! ### The reply -/

/-- The datagram that is taken for the reply, cut to the room there is for it. -/
def WpaAnswer.reply (room : ℕ) : WpaAnswer → Option Text
  | .sendFailed => none
  | .received datagrams _ => (datagrams.map (List.take room)).find? fun d => !isEventText d

/-- What is delivered when there is a reply: the reply, in front of what the buffer held. -/
structure RepliesWith (room : ℕ) (d : Text) (r : ℤ × Reply) : Prop where
  result : r.1 = 0
  len : r.2.len = d.length
  bytes : ∃ rest, r.2.bytes = d ++ rest
  length_le : d.length ≤ room

theorem receiveReply_of_some {ds : List Text} {ending : WpaEnding} {r : Reply} {d : Text}
    (h : (ds.map (List.take r.len)).find? (fun d => !isEventText d) = some d) :
    RepliesWith r.len d (receiveReply ds ending r) := by
  induction ds generalizing r with
  | nil => exact absurd h (by simp)
  | cons d' ds ih =>
    rw [receiveReply, isUnsolicited_recv]
    rw [List.map_cons, List.find?_cons] at h
    by_cases hevent : isEventText (d'.take r.len) = true
    · rw [if_pos hevent]
      rw [hevent] at h
      have hrest := ih (r := (r.recv d').2) h
      exact hrest
    · rw [if_neg hevent]
      rw [Bool.not_eq_true] at hevent
      rw [hevent] at h
      obtain rfl := Option.some.inj h
      have hlen : (d'.take r.len).length = min d'.length r.len := by
        rw [List.length_take, Nat.min_comm]
      refine ⟨rfl, hlen.symm, ⟨_, rfl⟩, ?_⟩
      rw [hlen]
      exact min_le_right _ _

/-- Without a reply among the datagrams, the request ends as the waiting did. -/
theorem receiveReply_of_none {ds : List Text} {ending : WpaEnding} {r : Reply}
    (h : (ds.map (List.take r.len)).find? (fun d => !isEventText d) = none) :
    (receiveReply ds ending r).1 < 0 ∧ (receiveReply ds ending r).2.len = r.len := by
  induction ds generalizing r with
  | nil => cases ending <;> exact ⟨Int.negSucc_lt_zero _, rfl⟩
  | cons d' ds ih =>
    rw [receiveReply, isUnsolicited_recv]
    rw [List.map_cons, List.find?_cons] at h
    by_cases hevent : isEventText (d'.take r.len) = true
    · rw [if_pos hevent]
      rw [hevent] at h
      exact ih h
    · rw [Bool.not_eq_true] at hevent
      rw [hevent] at h
      exact absurd h (by simp)

/-- **What is delivered is the reply**, in front of what the buffer held.  The length comes back as
that of the reply, however long the buffer is. -/
theorem deliver_of_reply {answer : WpaAnswer} {r : Reply} {d : Text}
    (h : answer.reply r.len = some d) : RepliesWith r.len d (answer.deliver r) := by
  cases answer with
  | sendFailed => exact absurd h (by simp [WpaAnswer.reply])
  | received ds ending => exact receiveReply_of_some h

/-- **Without a reply the request fails**, and the room stays as it is.  What the buffer holds then
is left open here. -/
theorem deliver_of_no_reply {answer : WpaAnswer} {r : Reply} (h : answer.reply r.len = none) :
    (answer.deliver r).1 < 0 ∧ (answer.deliver r).2.len = r.len := by
  cases answer with
  | sendFailed => exact ⟨Int.negSucc_lt_zero _, rfl⟩
  | received ds ending => exact receiveReply_of_none h

/-! ### Commands -/

/-- The result of a command, and the buffer behind it. -/
def Reply.answered (r : Reply) (answer : WpaAnswer) : ℤ × Reply :=
  commandResult (answer.deliver r).1 (answer.deliver r).2

/-- A command without a reply fails, and leaves the buffer to what was received. -/
theorem commandResult_of_neg {ret : ℤ} (h : ret < 0) (r : Reply) :
    (commandResult ret r).1 < 0 ∧ (commandResult ret r).2 = r := by
  unfold commandResult
  split
  · exact ⟨by simp, rfl⟩
  · rw [if_pos (Or.inl h)]
    exact ⟨by simp, rfl⟩

/-- The datagrams that came in behind a request. -/
def WpaAnswer.datagrams : WpaAnswer → List Text
  | .sendFailed => []
  | .received datagrams _ => datagrams

/-- Every datagram has the two bytes of an `OK`. -/
def WpaAnswer.Proper (answer : WpaAnswer) : Prop := ∀ d ∈ answer.datagrams, 2 ≤ d.length

/-- The first datagram that is not an event begins with `OK`. -/
def WpaAnswer.Acknowledged (answer : WpaAnswer) : Prop :=
  ∃ d, answer.datagrams.find? (fun d => !isEventText d) = some d ∧ strStarts d "OK".toList = true

/-- What comes from a text that begins like an event begins like one. -/
theorem isEventText_of_take {t : Text} {room : ℕ} (h : isEventText (t.take room) = true) :
    isEventText t = true := by
  have hprefix : t.take room <+: t := List.take_prefix room t
  unfold isEventText at h ⊢
  rw [Bool.or_eq_true] at h ⊢
  rcases h with hhead | hname
  · left
    rw [beq_iff_eq] at hhead ⊢
    obtain ⟨rest, hrest⟩ := hprefix
    rw [← hrest, List.head?_append, hhead]
    rfl
  · right
    rw [strStarts_iff] at hname ⊢
    exact hname.trans hprefix

/-- A text that begins with `OK` is no event. -/
theorem not_isEventText_of_isOk {t : Text} (h : strStarts t "OK".toList = true) :
    isEventText t = false := by
  obtain ⟨rest, rfl⟩ := strStarts_iff.mp h
  rfl

/-- A reply that begins with `OK` is the first datagram that is not an event. -/
theorem WpaAnswer.acknowledged_of_reply {answer : WpaAnswer} {room : ℕ} {d : Text}
    (h : answer.reply room = some d) (hok : strStarts d "OK".toList = true) :
    answer.Acknowledged := by
  cases answer with
  | sendFailed => exact absurd h (by simp [WpaAnswer.reply])
  | received ds ending =>
    replace h : (ds.map (List.take room)).find? (fun d => !isEventText d) = some d := h
    show ∃ d, ds.find? _ = some d ∧ _
    induction ds with
    | nil => exact absurd h (by simp)
    | cons d' ds ih =>
      rw [List.map_cons, List.find?_cons] at h
      rw [List.find?_cons]
      cases hevent : isEventText (d'.take room) with
      | true =>
        rw [hevent] at h
        rw [isEventText_of_take hevent]
        exact ih h
      | false =>
        rw [hevent] at h
        obtain rfl : d'.take room = d := Option.some.inj h
        have hok' : strStarts d' "OK".toList = true := by
          rw [strStarts_iff] at hok ⊢
          exact hok.trans (List.take_prefix room d')
        rw [not_isEventText_of_isOk hok']
        exact ⟨d', rfl, hok'⟩

/-- The reply has the two bytes of an `OK` when the datagrams have them, and there is room. -/
theorem WpaAnswer.Proper.two_le_reply {answer : WpaAnswer} (hproper : answer.Proper) {room : ℕ}
    (hroom : 2 ≤ room) {d : Text} (h : answer.reply room = some d) : 2 ≤ d.length := by
  cases answer with
  | sendFailed => exact absurd h (by simp [WpaAnswer.reply])
  | received ds ending =>
    have hmem : d ∈ ds.map (List.take room) := List.mem_of_find?_eq_some h
    obtain ⟨d', hd', rfl⟩ := List.mem_map.mp hmem
    have hlen : 2 ≤ d'.length := hproper d' hd'
    rw [List.length_take]
    omega

@[simp] theorem commandResult_len (ret : ℤ) (r : Reply) : (commandResult ret r).2.len = r.len := by
  unfold commandResult
  split
  · rfl
  split
  · rfl
  · rfl

/-- Cutting a line change off does not make an `OK`. -/
theorem strStarts_of_replaceLineChange {buf : Text} {size : ℕ}
    (h : strStarts (replaceLineChange buf size) "OK".toList = true) :
    strStarts buf "OK".toList = true := by
  unfold replaceLineChange at h
  dsimp only at h
  split at h
  · -- the byte that is set to zero is neither of the two
    generalize (cstr (buf.take size)).length - 1 = k at h
    rcases buf with _ | ⟨a, _ | ⟨b, rest⟩⟩
    · exact h
    · cases k <;> simp [strStarts] at h
    · rcases k with _ | _ | k
      · simp [strStarts, NUL] at h
      · simp [strStarts, NUL] at h
      · simpa [strStarts] using h
  · exact h

namespace Reply

variable {r : Reply} {answer : WpaAnswer}

/-- The room for the next reply stays large enough for an `OK`. -/
theorem two_le_answered_len (hroom : 2 ≤ r.len) (hproper : answer.Proper) :
    2 ≤ (r.answered answer).2.len := by
  unfold answered
  rw [commandResult_len]
  cases hreply : answer.reply r.len with
  | none =>
    rw [(deliver_of_no_reply hreply).2]
    exact hroom
  | some d =>
    rw [(deliver_of_reply hreply).len]
    exact hproper.two_le_reply hroom hreply

/-- What reads `OK` behind the checks of a command did so before. -/
theorem isOk_of_answered (hok : (r.answered answer).2.isOk = true) :
    (answer.deliver r).2.isOk = true := by
  unfold answered commandResult at hok
  split at hok
  · exact hok
  split at hok
  · exact hok
  · exact strStarts_of_replaceLineChange hok

/-- Without a datagram the buffer stays as it is. -/
theorem answered_of_silent (h : answer.datagrams = []) :
    (r.answered answer).1 < 0 ∧ (r.answered answer).2 = r := by
  have hdeliver : (answer.deliver r).1 < 0 ∧ (answer.deliver r).2 = r := by
    cases answer with
    | sendFailed => exact ⟨Int.negSucc_lt_zero _, rfl⟩
    | received ds ending =>
      obtain rfl : ds = [] := h
      cases ending <;> exact ⟨Int.negSucc_lt_zero _, rfl⟩
  unfold answered
  rw [hdeliver.2]
  exact commandResult_of_neg hdeliver.1 r

/-- A text of two bytes or more that begins like an event does not begin with `OK`, whatever is
behind it. -/
theorem not_isOk_of_event {d rest : Text} (hlen : 2 ≤ d.length) (hevent : isEventText d = true) :
    strStarts (d ++ rest) "OK".toList = false := by
  have hlen' : "OK".toList.length ≤ d.length := hlen
  rw [strStarts_append hlen']
  by_contra hok
  rw [Bool.not_eq_false] at hok
  rw [not_isEventText_of_isOk hok] at hevent
  exact absurd hevent (by simp)

/-- When events came in and no reply, an event is in front of what the buffer held. -/
theorem receiveReply_of_events {ds : List Text} (hne : ds ≠ []) (ending : WpaEnding)
    (hroom : 2 ≤ r.len) (hlong : ∀ d ∈ ds, 2 ≤ d.length)
    (h : (ds.map (List.take r.len)).find? (fun d => !isEventText d) = none) :
    (receiveReply ds ending r).2.isOk = false := by
  induction ds generalizing r with
  | nil => exact absurd rfl hne
  | cons d ds ih =>
    rw [List.map_cons, List.find?_cons] at h
    have hevent : isEventText (d.take r.len) = true := by
      by_contra hnot
      rw [Bool.not_eq_true] at hnot
      rw [hnot] at h
      exact absurd h (by simp)
    rw [hevent] at h
    rw [receiveReply, isUnsolicited_recv, if_pos hevent]
    cases ds with
    | nil =>
      -- the last event is what the buffer begins with
      have hlen : 2 ≤ (d.take r.len).length := by
        have := hlong d List.mem_cons_self
        rw [List.length_take]
        omega
      cases ending <;> exact not_isOk_of_event hlen hevent
    | cons d' ds =>
      exact ih (List.cons_ne_nil d' ds) hroom (fun x hx => hlong x (List.mem_cons_of_mem d hx)) h

/-- **A buffer that reads `OK` behind a command comes from a reply that does**, or nothing was
received at all. -/
theorem acknowledged_of_heard (hroom : 2 ≤ r.len) (hproper : answer.Proper)
    (hheard : answer.datagrams ≠ []) (hok : (r.answered answer).2.isOk = true) :
    answer.Acknowledged := by
  cases hreply : answer.reply r.len with
  | none =>
    cases answer with
    | sendFailed => exact absurd rfl hheard
    | received ds ending =>
      have hneg := (deliver_of_no_reply hreply).1
      unfold answered at hok
      rw [(commandResult_of_neg hneg _).2] at hok
      have hnot := receiveReply_of_events hheard ending hroom hproper hreply
      exact absurd (hok.symm.trans hnot) (by simp)
  | some d =>
    have hbuf := isOk_of_answered hok
    obtain ⟨-, -, ⟨rest, hbytes⟩, -⟩ := deliver_of_reply hreply
    have hlen : "OK".toList.length ≤ d.length := hproper.two_le_reply hroom hreply
    unfold isOk at hbuf
    rw [hbytes, strStarts_append hlen] at hbuf
    exact WpaAnswer.acknowledged_of_reply hreply hbuf

theorem acknowledged_of_isOk (hroom : 2 ≤ r.len) (hproper : answer.Proper)
    (hresult : (r.answered answer).1 = 0) (hok : (r.answered answer).2.isOk = true) :
    answer.Acknowledged := by
  refine acknowledged_of_heard hroom hproper (fun hsilent => ?_) hok
  exact absurd hresult (answered_of_silent hsilent).1.ne

end Reply

end RadioHal
