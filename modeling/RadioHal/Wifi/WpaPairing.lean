import Mathlib.Data.List.Range
import RadioHal.Lib.Steps
import RadioHal.Wifi.Replies

/-!
# Requests and replies on a control connection

wpa_supplicant answers the requests of a connection in the order it gets them, and its datagrams
wait in the socket.  `wpa_ctrl_request` takes the first one that does not look like an event for its
reply.  It looks at no more than its buffer holds, and the HAL hands the length of one reply on as
the room for the next, so the room may be too small to tell.  When a request gives up, the reply
still comes, and nothing takes it out before the next request.

## Main definitions

* `WpaConnection` — the requests sent and answered, the datagrams in the socket, and the request
  that waits.
* `WpaConnStep` — a step of the HAL or of wpa_supplicant.
* `gaveUps` — how many requests have come back without a reply.
* `Reply.TellsApart` — the buffer has room enough to tell events from replies.

## Main results

* `request_delivers` — **a request returns what the dialogue makes of the datagrams it received.**
* `reply_of_request` — **where events can be told from replies, the reply a request gets is the one
  to the request as many places before as requests have given up**: its own while none has, and
  never again afterwards.
-/

namespace RadioHal

open CLib Dialogue

/-! ### The two parties -/

/-- A datagram of wpa_supplicant: the reply to the request with a number, or an event. -/
inductive Datagram
  | reply (n : ℕ) (text : Text)
  | event (text : Text)
  deriving DecidableEq, Repr

def Datagram.text : Datagram → Text
  | reply _ text => text
  | event text => text

/-- The request that a datagram answers, if it is a reply. -/
def Datagram.request? : Datagram → Option ℕ
  | reply n _ => some n
  | event _ => none

/-- A control connection with wpa_supplicant at its other end. -/
structure WpaConnection where
  /-- The number of requests that wpa_supplicant was sent. -/
  sent : ℕ
  /-- The number of those it has answered. -/
  answered : ℕ
  /-- The datagrams in the socket. -/
  queue : List Datagram
  /-- `wpa_ctrl_request` is in its loop, with this in the reply buffer. -/
  waiting : Option Reply

/-- The connection behind `wpa_ctrl_open`, over which nothing has been sent. -/
def WpaConnection.opened : WpaConnection := ⟨0, 0, [], none⟩

/-- What the HAL sees of a step; requests are numbered from `0` on. -/
inductive WpaConnEvent
  | asked (n : ℕ) (r : Reply)
  | skipped (d : Datagram)
  | finished (n : ℕ) (d : Datagram) (res : ℤ × Reply)
  | gaveUp (n : ℕ) (res : ℤ × Reply)

/-- A step of the HAL or of wpa_supplicant. -/
inductive WpaConnStep : WpaConnection → Option WpaConnEvent → WpaConnection → Prop
  /-- A request is sent, with a reply buffer of any length. -/
  | ask {s : WpaConnection} {r : Reply} (hidle : s.waiting = none) :
      WpaConnStep s (some (.asked s.sent r)) { s with sent := s.sent + 1, waiting := some r }
  /-- wpa_supplicant answers the oldest request that has no answer. -/
  | answer {s : WpaConnection} {text : Text} (hasked : s.answered < s.sent)
      (htext : isEventText text = false) :
      WpaConnStep s none { s with
        answered := s.answered + 1, queue := s.queue ++ [.reply s.answered text] }
  /-- wpa_supplicant reports an event. -/
  | event {s : WpaConnection} {text : Text} (htext : isEventText text = true) :
      WpaConnStep s none { s with queue := s.queue ++ [.event text] }
  /-- A datagram is received, and what the buffer holds of it begins like an event. -/
  | skip {s : WpaConnection} {r : Reply} {d : Datagram} {queue : List Datagram}
      (hwaits : s.waiting = some r) (hqueue : s.queue = d :: queue)
      (hskip : (r.recv d.text).2.isUnsolicited (r.recv d.text).1 = true) :
      WpaConnStep s (some (.skipped d))
        { s with queue := queue, waiting := some (r.recv d.text).2 }
  /-- A datagram is received, and what the buffer holds of it does not begin like an event, so it is
  taken for the reply. -/
  | finish {s : WpaConnection} {r : Reply} {d : Datagram} {queue : List Datagram}
      (hwaits : s.waiting = some r) (hqueue : s.queue = d :: queue)
      (htake : (r.recv d.text).2.isUnsolicited (r.recv d.text).1 = false) :
      WpaConnStep s
        (some (.finished (s.sent - 1) d (0, { (r.recv d.text).2 with len := (r.recv d.text).1 })))
        { s with queue := queue, waiting := none }
  /-- Nothing has come for ten seconds. -/
  | timeout {s : WpaConnection} {r : Reply} (hwaits : s.waiting = some r) (hqueue : s.queue = []) :
      WpaConnStep s (some (.gaveUp (s.sent - 1) (-2, r))) { s with waiting := none }
  /-- `select` or `recv` fails. -/
  | failed {s : WpaConnection} {r : Reply} (hwaits : s.waiting = some r) :
      WpaConnStep s (some (.gaveUp (s.sent - 1) (-1, r))) { s with waiting := none }

/-! ### What a request returns -/

/-- Neither the beginning of a request nor its end. -/
def WpaConnEvent.Between : WpaConnEvent → Prop
  | skipped _ => True
  | _ => False

/-- The texts of the datagrams that were passed over along a run. -/
def skippedTexts (log : List WpaConnEvent) : List Text :=
  log.filterMap fun
    | .skipped d => some d.text
    | _ => none

/-- The request that waits, and what it has skipped so far. -/
def Receives (log : List WpaConnEvent) (s : WpaConnection) (r' : Reply) : Prop :=
  ∃ earlier r since, log = earlier ++ .asked (s.sent - 1) r :: since ∧ (∀ e ∈ since, e.Between) ∧
    ∀ datagrams ending, receiveReply (skippedTexts since ++ datagrams) ending r =
      receiveReply datagrams ending r'

section Delivering

variable {log : List WpaConnEvent} {s s' : WpaConnection}

/-- A step keeps the account of what was skipped. -/
theorem receives_step {label : Option WpaConnEvent}
    (h : ∀ r, s.waiting = some r → Receives log s r) (hs : WpaConnStep s label s') :
    ∀ r, s'.waiting = some r → Receives (log ++ label.toList) s' r := by
  intro r hr
  cases hs with
  | ask hidle =>
    cases hr
    exact ⟨log, r, [], rfl, by simp, fun _ _ => rfl⟩
  | answer _ _ => exact (List.append_nil log).symm ▸ h r hr
  | event _ => exact (List.append_nil log).symm ▸ h r hr
  | @skip r₁ d queue hwaits hqueue hskip =>
    cases hr
    obtain ⟨earlier, r, since, rfl, hbetween, hreceive⟩ := h r₁ hwaits
    refine ⟨earlier, r, since ++ [.skipped d], ?_, ?_, ?_⟩
    · rw [List.append_assoc]
      rfl
    · rw [List.forall_mem_append, List.forall_mem_singleton]
      exact ⟨hbetween, trivial⟩
    · intro datagrams ending
      have hsplit : skippedTexts (since ++ [.skipped d]) = skippedTexts since ++ [d.text] :=
        List.filterMap_append ..
      rw [hsplit, List.append_assoc, hreceive, List.singleton_append, receiveReply, if_pos hskip]
  | finish _ _ _ => cases hr
  | timeout _ _ => cases hr
  | failed _ => cases hr

/-- Along every run the request that waits goes on as the dialogue would, behind the datagrams that
were passed over. -/
theorem receives_of_trace (hrun : Trace WpaConnStep .opened log s) (r : Reply)
    (hr : s.waiting = some r) : Receives log s r := by
  refine hrun.log_invariant (fun log s => ∀ r, s.waiting = some r → Receives log s r) ?_ ?_ r hr
  · intro log s label s' ih hs
    exact receives_step ih hs
  · intro r hr
    cases hr

end Delivering

/-- How a request comes back: with a number, the datagram it takes for its reply, and a result. -/
def WpaConnEvent.result? : WpaConnEvent → Option (ℕ × List Text × (ℤ × Reply))
  | finished n d res => some (n, [d.text], res)
  | gaveUp n res => some (n, [], res)
  | _ => none

/-- **A request returns what the dialogue makes of the datagrams it received**: those it skipped
since it was sent, and the one it took for its reply. -/
theorem request_delivers {log before after : List WpaConnEvent} {s : WpaConnection}
    {e : WpaConnEvent} {n : ℕ} {last : List Text} {res : ℤ × Reply}
    (hrun : Trace WpaConnStep .opened log s) (hlog : log = before ++ e :: after)
    (he : e.result? = some (n, last, res)) :
    ∃ earlier r since ending, before = earlier ++ .asked n r :: since ∧
      (∀ e ∈ since, e.Between) ∧
      res = (WpaAnswer.received (skippedTexts since ++ last) ending).deliver r := by
  subst hlog
  obtain ⟨s₁, s₂, hbefore, hstep, -⟩ := hrun.exists_step
  have haccount := receives_of_trace hbefore
  cases hstep with
  | ask _ => cases he
  | skip _ _ _ => cases he
  | @finish r₁ d queue hwaits hqueue htake =>
    cases he
    obtain ⟨earlier, r, since, hsplit, hbetween, hreceive⟩ := haccount r₁ hwaits
    refine ⟨earlier, r, since, .timeout, hsplit, hbetween, ?_⟩
    show _ = receiveReply _ _ _
    rw [hreceive, receiveReply, htake]
    rfl
  | @timeout r₁ hwaits _ =>
    cases he
    obtain ⟨earlier, r, since, hsplit, hbetween, hreceive⟩ := haccount r₁ hwaits
    exact ⟨earlier, r, since, .timeout, hsplit, hbetween, (hreceive [] .timeout).symm⟩
  | @failed r₁ hwaits =>
    cases he
    obtain ⟨earlier, r, since, hsplit, hbetween, hreceive⟩ := haccount r₁ hwaits
    exact ⟨earlier, r, since, .failed, hsplit, hbetween, (hreceive [] .failed).symm⟩

/-! ### Which request a reply answers -/

/-- The number of requests that got something for a reply. -/
def finishes (log : List WpaConnEvent) : ℕ :=
  log.countP fun
    | .finished _ _ _ => true
    | _ => false

/-- The number of requests that came back without one. -/
def gaveUps (log : List WpaConnEvent) : ℕ :=
  log.countP fun
    | .gaveUp _ _ => true
    | _ => false

theorem finishes_append (log log' : List WpaConnEvent) :
    finishes (log ++ log') = finishes log + finishes log' :=
  List.countP_append

theorem gaveUps_append (log log' : List WpaConnEvent) :
    gaveUps (log ++ log') = gaveUps log + gaveUps log' :=
  List.countP_append

/-- The datagram that is received in a step. -/
def WpaConnEvent.received? : WpaConnEvent → Option Datagram
  | skipped d => some d
  | finished _ d _ => some d
  | _ => none

/-- The datagrams that were received along a run. -/
def receivedDatagrams (log : List WpaConnEvent) : List Datagram :=
  log.filterMap WpaConnEvent.received?

/-- The buffer tells events from replies among these datagrams: it has room for `IFNAME=`, or it has
room for the first character of an event, and no datagram begins with `IFNAME=`. -/
def Reply.TellsApart (r : Reply) (datagrams : List Datagram) : Prop :=
  7 ≤ r.len ∨ (0 < r.len ∧ ∀ d ∈ datagrams, strStarts d.text "IFNAME=".toList = false)

/-- Every request of the run has a buffer that tells events from replies. -/
def ToldApart (log : List WpaConnEvent) : Prop :=
  ∀ n r, .asked n r ∈ log → r.TellsApart (receivedDatagrams log)

/-- The text of a datagram tells what it is. -/
def Datagram.Honest (d : Datagram) : Prop := isEventText d.text = d.request?.isNone

/-- The replies in the socket are those to the requests behind the ones that are finished, in
order, and every request has finished, has given up, or waits. -/
structure PairingInv (log : List WpaConnEvent) (s : WpaConnection) : Prop where
  replies : s.queue.filterMap Datagram.request? =
    List.range' (finishes log) (s.answered - finishes log)
  finishes_le : finishes log ≤ s.answered
  answered_le : s.answered ≤ s.sent
  sent_eq : s.sent = finishes log + gaveUps log + s.waiting.toList.length
  honest : ∀ d ∈ s.queue, d.Honest
  -- receiving a datagram leaves the room of the buffer as it is
  room : ∀ r, s.waiting = some r → ∃ n r₀, .asked n r₀ ∈ log ∧ r.len = r₀.len

/-- A text that is cut behind its first character begins with the same character. -/
theorem head?_take_of_pos {n : ℕ} (h : 0 < n) (t : Text) : (t.take n).head? = t.head? := by
  rw [List.head?_take, if_neg (by omega)]

/-- A text that is cut behind its seventh byte, or later, begins as it did. -/
theorem isEventText_take {n : ℕ} (h : 7 ≤ n) (t : Text) :
    isEventText (t.take n) = isEventText t := by
  have hname : strStarts (t.take n) "IFNAME=".toList = strStarts t "IFNAME=".toList := by
    rw [Bool.eq_iff_iff, strStarts_iff, strStarts_iff, List.prefix_take_iff]
    exact and_iff_left h
  unfold isEventText
  rw [head?_take_of_pos (by omega), hname]

/-- A text without the name of an interface may be cut anywhere behind its first character. -/
theorem isEventText_take_of_unnamed {n : ℕ} (h : 0 < n) {t : Text}
    (ht : strStarts t "IFNAME=".toList = false) : isEventText (t.take n) = isEventText t := by
  have hname : strStarts (t.take n) "IFNAME=".toList = false := by
    rw [Bool.eq_false_iff] at ht ⊢
    exact fun hp => ht (strStarts_iff.mpr ((strStarts_iff.mp hp).trans (List.take_prefix n t)))
  unfold isEventText
  rw [head?_take_of_pos h, hname, ht]

/-- Three bytes, as they are left behind `OK`, are too few for the name. -/
example : isEventText ("IFNAME=wlan0 <3>WPS-AP-AVAILABLE".toList.take 3) = false := by decide

/-- A datagram is skipped when it is an event, if the buffer can tell. -/
theorem Datagram.Honest.isUnsolicited_eq {d : Datagram} (h : d.Honest) {r : Reply}
    {datagrams : List Datagram} (htell : r.TellsApart datagrams) (hd : d ∈ datagrams) :
    (r.recv d.text).2.isUnsolicited (r.recv d.text).1 = d.request?.isNone := by
  rw [isUnsolicited_recv, ← h]
  rcases htell with hroom | ⟨hpos, hunnamed⟩
  · exact isEventText_take hroom d.text
  · exact isEventText_take_of_unnamed hpos (hunnamed d hd)

/-- What holds of all requests of a run holds of those at its beginning. -/
theorem ToldApart.of_append {log log' : List WpaConnEvent} (h : ToldApart (log ++ log')) :
    ToldApart log := by
  intro n r hr
  refine (h n r (List.mem_append_left log' hr)).imp_right fun ⟨hpos, hunnamed⟩ => ⟨hpos, ?_⟩
  intro d hd
  refine hunnamed d ?_
  unfold receivedDatagrams
  rw [List.filterMap_append]
  exact List.mem_append_left _ hd

section Pairing

variable {log : List WpaConnEvent} {s s' : WpaConnection}

/-- The first reply in the socket is the one to the first request that has not finished. -/
theorem PairingInv.head_reply (h : PairingInv log s) {d : Datagram} {queue : List Datagram} {m : ℕ}
    (hqueue : s.queue = d :: queue) (hm : d.request? = some m) :
    m = finishes log ∧ finishes log < s.answered ∧
      queue.filterMap Datagram.request? =
        List.range' (finishes log + 1) (s.answered - (finishes log + 1)) := by
  have hreplies := h.replies
  rw [hqueue, List.filterMap_cons_some hm] at hreplies
  cases hcount : s.answered - finishes log with
  | zero =>
    rw [hcount] at hreplies
    cases hreplies
  | succ count =>
    rw [hcount, List.range'_succ] at hreplies
    obtain ⟨hhead, htail⟩ := List.cons.inj hreplies
    refine ⟨hhead, by omega, ?_⟩
    rw [htail]
    congr 1
    omega

/-- What is received first is taken for a reply when it is one. -/
theorem PairingInv.isUnsolicited_eq (h : PairingInv log s) {d : Datagram} {queue : List Datagram}
    {r : Reply} (hwaits : s.waiting = some r) (hqueue : s.queue = d :: queue) {e : WpaConnEvent}
    (he : e.received? = some d) (htell : ToldApart (log ++ [e])) :
    (r.recv d.text).2.isUnsolicited (r.recv d.text).1 = d.request?.isNone := by
  obtain ⟨n, r₀, hasked, hlen⟩ := h.room r hwaits
  have hd : d ∈ receivedDatagrams (log ++ [e]) :=
    List.mem_filterMap.mpr ⟨e, List.mem_append_right log (List.mem_singleton.mpr rfl), he⟩
  have hr : r.TellsApart (receivedDatagrams (log ++ [e])) := by
    unfold Reply.TellsApart
    rw [hlen]
    exact htell n r₀ (List.mem_append_left _ hasked)
  exact (h.honest d (by rw [hqueue]; exact List.mem_cons_self)).isUnsolicited_eq hr hd

/-- A request that gives up leaves the socket as it is. -/
theorem PairingInv.gaveUp (h : PairingInv log s) {r : Reply} (hwaits : s.waiting = some r) {n : ℕ}
    {res : ℤ × Reply} : PairingInv (log ++ [.gaveUp n res]) { s with waiting := none } := by
  have hf : finishes (log ++ [.gaveUp n res]) = finishes log := by
    rw [finishes_append]
    rfl
  have hg : gaveUps (log ++ [.gaveUp n res]) = gaveUps log + 1 := by
    rw [gaveUps_append]
    rfl
  have hsent := h.sent_eq
  rw [hwaits] at hsent
  refine ⟨?_, ?_, h.answered_le, ?_, h.honest, nofun⟩
  · rw [hf]
    exact h.replies
  · rw [hf]
    exact h.finishes_le
  · rw [hf, hg]
    exact hsent

theorem PairingInv.asked (h : PairingInv log s) {r : Reply} (hidle : s.waiting = none) :
    PairingInv (log ++ [.asked s.sent r]) { s with sent := s.sent + 1, waiting := some r } := by
  have hf : finishes (log ++ [.asked s.sent r]) = finishes log := by
    rw [finishes_append]
    rfl
  have hg : gaveUps (log ++ [.asked s.sent r]) = gaveUps log := by
    rw [gaveUps_append]
    rfl
  have hsent := h.sent_eq
  rw [hidle] at hsent
  refine ⟨?_, ?_, h.answered_le.trans (Nat.le_succ _), ?_, h.honest, ?_⟩
  · rw [hf]
    exact h.replies
  · rw [hf]
    exact h.finishes_le
  · rw [hf, hg]
    simpa using hsent
  · intro r' hr'
    cases hr'
    exact ⟨s.sent, r, List.mem_append_right log (List.mem_singleton.mpr rfl), rfl⟩

/-- wpa_supplicant answers the oldest request that has no answer. -/
theorem PairingInv.answer (h : PairingInv log s) {text : Text} (hasked : s.answered < s.sent)
    (htext : isEventText text = false) : PairingInv log { s with
      answered := s.answered + 1, queue := s.queue ++ [.reply s.answered text] } := by
  have hle := h.finishes_le
  refine ⟨?_, hle.trans (Nat.le_succ _), hasked, h.sent_eq, ?_, h.room⟩
  · rw [List.filterMap_append, h.replies]
    have hcount : s.answered + 1 - finishes log = s.answered - finishes log + 1 := by omega
    have hlast : s.answered = finishes log + 1 * (s.answered - finishes log) := by omega
    dsimp only
    rw [hcount, List.range'_concat, ← hlast]
    rfl
  · rw [List.forall_mem_append, List.forall_mem_singleton]
    exact ⟨h.honest, htext⟩

/-- An event in the socket changes nothing about the replies. -/
theorem PairingInv.event (h : PairingInv log s) {text : Text} (htext : isEventText text = true) :
    PairingInv log { s with queue := s.queue ++ [.event text] } := by
  refine ⟨?_, h.finishes_le, h.answered_le, h.sent_eq, ?_, h.room⟩
  · rw [List.filterMap_append, h.replies]
    exact List.append_nil _
  · rw [List.forall_mem_append, List.forall_mem_singleton]
    exact ⟨h.honest, htext⟩

/-- An event is received, and the request waits on. -/
theorem PairingInv.skip (h : PairingInv log s) {r r' : Reply} {d : Datagram}
    {queue : List Datagram} (hwaits : s.waiting = some r) (hqueue : s.queue = d :: queue)
    (hd : d.request? = none) (hlen : r'.len = r.len) :
    PairingInv (log ++ [.skipped d]) { s with queue := queue, waiting := some r' } := by
  have hf : finishes (log ++ [.skipped d]) = finishes log := by
    rw [finishes_append]
    rfl
  have hg : gaveUps (log ++ [.skipped d]) = gaveUps log := by
    rw [gaveUps_append]
    rfl
  have hreplies := h.replies
  rw [hqueue, List.filterMap_cons_none hd] at hreplies
  have hsent := h.sent_eq
  rw [hwaits] at hsent
  refine ⟨?_, ?_, h.answered_le, ?_, ?_, ?_⟩
  · rw [hf]
    exact hreplies
  · rw [hf]
    exact h.finishes_le
  · rw [hf, hg]
    exact hsent
  · intro d' hd'
    exact h.honest d' (by rw [hqueue]; exact List.mem_cons_of_mem d hd')
  · intro r₁ hr₁
    cases hr₁
    obtain ⟨n, r₀, hasked, hlen₀⟩ := h.room r hwaits
    exact ⟨n, r₀, List.mem_append_left _ hasked, hlen.trans hlen₀⟩

/-- A reply is received, and the request is finished. -/
theorem PairingInv.finish (h : PairingInv log s) {r : Reply} {d : Datagram}
    {queue : List Datagram} (hwaits : s.waiting = some r) (hqueue : s.queue = d :: queue) {m : ℕ}
    (hm : d.request? = some m) (n : ℕ) (res : ℤ × Reply) :
    PairingInv (log ++ [.finished n d res]) { s with queue := queue, waiting := none } := by
  have hf : finishes (log ++ [.finished n d res]) = finishes log + 1 := by
    rw [finishes_append]
    rfl
  have hg : gaveUps (log ++ [.finished n d res]) = gaveUps log := by
    rw [gaveUps_append]
    rfl
  obtain ⟨-, hlt, htail⟩ := h.head_reply hqueue hm
  have hsent := h.sent_eq
  rw [hwaits] at hsent
  refine ⟨?_, ?_, h.answered_le, ?_, ?_, nofun⟩
  · rw [hf]
    exact htail
  · rw [hf]
    exact hlt
  · rw [hf, hg]
    show s.sent = finishes log + 1 + gaveUps log + 0
    have hone : s.sent = finishes log + gaveUps log + 1 := hsent
    omega
  · intro d' hd'
    exact h.honest d' (by rw [hqueue]; exact List.mem_cons_of_mem d hd')

/-- **One step** keeps the replies in order, as long as events can be told from replies. -/
theorem PairingInv.step {label : Option WpaConnEvent} (h : PairingInv log s)
    (hs : WpaConnStep s label s') (htell : ToldApart (log ++ label.toList)) :
    PairingInv (log ++ label.toList) s' := by
  cases hs with
  | ask hidle => exact h.asked hidle
  | answer hasked htext =>
    rw [Option.toList_none, List.append_nil]
    exact h.answer hasked htext
  | event htext =>
    rw [Option.toList_none, List.append_nil]
    exact h.event htext
  | @skip r d queue hwaits hqueue hskip =>
    -- what is skipped is an event, so no reply is lost
    rw [h.isUnsolicited_eq hwaits hqueue rfl htell, Option.isNone_iff_eq_none] at hskip
    exact h.skip hwaits hqueue hskip rfl
  | finish hwaits hqueue htake =>
    -- what is taken is a reply, and the first one in the socket
    rw [h.isUnsolicited_eq hwaits hqueue rfl htell, Option.isNone_eq_false_iff,
      Option.isSome_iff_exists] at htake
    obtain ⟨m, hm⟩ := htake
    exact h.finish hwaits hqueue hm _ _
  | timeout hwaits hqueue => exact h.gaveUp hwaits
  | failed hwaits => exact h.gaveUp hwaits

/-- The replies along a run whose requests can tell events from replies. -/
theorem pairingInv_of_trace (hrun : Trace WpaConnStep .opened log s) (htell : ToldApart log) :
    PairingInv log s := by
  refine hrun.log_invariant (fun log s => ToldApart log → PairingInv log s) ?_ ?_ htell
  · intro log s label s' ih hs htell
    exact (ih htell.of_append).step hs htell
  · intro _
    exact ⟨rfl, le_rfl, le_rfl, rfl, by simp [WpaConnection.opened], nofun⟩

end Pairing

/-- **The reply a request gets is the one to the request as many places before as requests have
given up** on this connection: its own as long as none has, and never again afterwards.  The buffers
of the requests must have room enough to tell events from replies. -/
theorem reply_of_request {log before after : List WpaConnEvent} {s : WpaConnection} {n : ℕ}
    {d : Datagram} {res : ℤ × Reply} (hrun : Trace WpaConnStep .opened log s)
    (htell : ToldApart log) (hlog : log = before ++ .finished n d res :: after) :
    ∃ m text, d = .reply m text ∧ m + gaveUps before = n := by
  subst hlog
  obtain ⟨s₁, s₂, hbefore, hstep, -⟩ := hrun.exists_step
  have hinv := pairingInv_of_trace hbefore htell.of_append
  have htell' : ToldApart (before ++ [.finished n d res]) := by
    rw [List.append_cons] at htell
    exact htell.of_append
  cases hstep with
  | @finish r _ queue hwaits hqueue htake =>
    rw [hinv.isUnsolicited_eq hwaits hqueue rfl htell'] at htake
    have hsent := hinv.sent_eq
    rw [hwaits] at hsent
    have hone : s₁.sent = finishes before + gaveUps before + 1 := hsent
    cases d with
    | event text => cases htake
    | reply m text =>
      obtain ⟨hm, -, -⟩ := hinv.head_reply hqueue rfl
      exact ⟨m, text, rfl, by omega⟩

/-! ### A late reply -/

/-- A reply buffer of sixteen bytes, and what a reply leaves in it. -/
def lateBuffer : Reply := Reply.zero 16

def lateResult : ℤ × Reply :=
  (0, { (lateBuffer.recv "OK\n".toList).2 with len := (lateBuffer.recv "OK\n".toList).1 })

/-- The first request times out, and the second one is sent. -/
def lateBefore : List WpaConnEvent :=
  [.asked 0 lateBuffer, .gaveUp 0 (-2, lateBuffer), .asked 1 lateBuffer]

/-- The reply to the first request comes when the second one waits. -/
theorem trace_late : Trace WpaConnStep .opened
    (lateBefore ++ .finished 1 (.reply 0 "OK\n".toList) lateResult :: []) ⟨2, 1, [], none⟩ := by
  have hask : WpaConnStep .opened (some (.asked 0 lateBuffer)) ⟨1, 0, [], some lateBuffer⟩ :=
    WpaConnStep.ask rfl
  have htimeout : WpaConnStep ⟨1, 0, [], some lateBuffer⟩ (some (.gaveUp 0 (-2, lateBuffer)))
      ⟨1, 0, [], none⟩ := WpaConnStep.timeout rfl rfl
  have hagain : WpaConnStep ⟨1, 0, [], none⟩ (some (.asked 1 lateBuffer))
      ⟨2, 0, [], some lateBuffer⟩ := WpaConnStep.ask rfl
  have hanswer : WpaConnStep ⟨2, 0, [], some lateBuffer⟩ none
      ⟨2, 1, [.reply 0 "OK\n".toList], some lateBuffer⟩ :=
    WpaConnStep.answer (by decide) (by decide)
  have hfinish : WpaConnStep ⟨2, 1, [.reply 0 "OK\n".toList], some lateBuffer⟩
      (some (.finished 1 (.reply 0 "OK\n".toList) lateResult)) ⟨2, 1, [], none⟩ :=
    WpaConnStep.finish rfl rfl (by decide)
  exact ((((Trace.single hask).snoc htimeout).snoc hagain).snoc hanswer).snoc hfinish

theorem request_delivers_late : ∃ earlier r since ending,
    lateBefore = earlier ++ .asked 1 r :: since ∧ (∀ e ∈ since, e.Between) ∧
      lateResult =
        (WpaAnswer.received (skippedTexts since ++ ["OK\n".toList]) ending).deliver r :=
  request_delivers trace_late rfl rfl

/-- All requests of the run have sixteen bytes of room. -/
theorem toldApart_late :
    ToldApart (lateBefore ++ .finished 1 (.reply 0 "OK\n".toList) lateResult :: []) := by
  intro n r hr
  have hbuffer : r = lateBuffer := by
    simp only [lateBefore, List.cons_append, List.nil_append, List.mem_cons, reduceCtorEq,
      WpaConnEvent.asked.injEq, List.not_mem_nil, or_false, false_or] at hr
    rcases hr with ⟨-, rfl⟩ | ⟨-, rfl⟩ <;> rfl
  rw [hbuffer]
  exact Or.inl (by decide)

theorem reply_of_request_late : ∃ m text,
    Datagram.reply 0 "OK\n".toList = .reply m text ∧ m + gaveUps lateBefore = 1 :=
  reply_of_request trace_late toldApart_late rfl

end RadioHal
