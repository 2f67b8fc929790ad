import RadioHal.Wifi.Monitor

/-!
# Delivering events

The monitors are sockets with datagrams pending.  With one radio of two, the connections of the
second are not there, and waiting for an event ends before anything is polled: the events of the
radio that is there are never read.

## Main definitions

* `sockets` — a world of sockets with queues of datagrams.
* `DeliversEvent` — waiting returns the text of a pending datagram and the radio it is from.
* `nextDatagram` — the datagram that is received next.

## Main results

* `delivers_event_iff` — **a pending event is delivered exactly when all radios the build supports
  are there**, and the datagram is not empty and its text fits.
* `not_all_events_delivered` — a single radio gets no events.
-/

namespace RadioHal

open CLib Dialogue

/-! ### Sockets -/

/-- Sockets with queues of datagrams.  `poll` is only used while something is pending, so it does
not fail. -/
def sockets : World WifiQ WifiA (Handle → List Text) := fun queues q =>
  match q with
  | .poll _ => fun ready queues' => (ready : Option PollReady).isSome = true ∧ queues' = queues
  | .wpaPending m => fun pending queues' => pending = !(queues m).isEmpty ∧ queues' = queues
  | .wpaRecv m => fun datagram queues' =>
    datagram = (queues m).head? ∧ queues' = Function.update queues m (queues m).tail
  | _ => fun _ queues' => queues' = queues

/-- The datagram the monitor of a radio has pending. -/
def pendingOf (sc : WifiSoftc) (queues : Handle → List Text) (i : Slot) : Option Text :=
  (sc.wpaCtx i).monitor.bind fun m => (queues m).head?

/-- The datagram that is received next: the first one of the first radio that has any. -/
def nextDatagram (sc : WifiSoftc) (queues : Handle → List Text) : Option Text :=
  sc.radios.findSome? (pendingOf sc queues)

/-- A pending datagram of some radio has been taken, and its text and its radio are reported. -/
def Delivered (sc : WifiSoftc) (queues : Handle → List Text) (r : WaitedEvent)
    (queues' : Handle → List Text) : Prop :=
  ∃ j : Slot, j.val < sc.radioAmount ∧ ∃ m d rest, (sc.wpaCtx j).monitor = some m ∧
    queues m = d :: rest ∧ queues' = Function.update queues m rest ∧
      r.index = j ∧ r.text = eventText (d.take (eventBufLen - 1))

/-- A program that has returned or crashed. -/
def Over {α : Type} (p : WifiM α) : Prop :=
  (∃ r, p = ret r) ∨ ∃ q k, p = ask q k ∧ IsEmpty (WifiA q)

/-- **What waiting for an event should do**: every run that comes to an end returns the text of a
pending datagram, and the radio it is from. -/
def DeliversEvent (sc : WifiSoftc) (queues : Handle → List Text) (index : ℤ) : Prop :=
  ∀ queues' p, Reach sockets queues (wifiHalWaitOnEvent sc index eventBufLen) queues' p → Over p →
    ∃ r, p = ret r ∧ Delivered sc queues r queues'

/-- A question that can be answered at all. -/
def Answerable (_ : Handle → List Text) (q : WifiQ) : Prop := Nonempty (WifiA q)

theorem deliversEvent_iff_wp (sc : WifiSoftc) (queues : Handle → List Text) (index : ℤ) :
    DeliversEvent sc queues index ↔
      wp sockets Answerable (Delivered sc queues) (wifiHalWaitOnEvent sc index eventBufLen)
        queues := by
  rw [wp_iff_reach]
  constructor
  · intro h queues' p hrun
    constructor
    · intro r hr
      obtain ⟨r', hr', hdelivered⟩ := h queues' p hrun (Or.inl ⟨r, hr⟩)
      obtain rfl := Dialogue.ret.inj (hr.symm.trans hr')
      exact hdelivered
    · intro q k hq
      by_contra hempty
      have hover : Over p := Or.inr ⟨q, k, hq, not_nonempty_iff.mp hempty⟩
      obtain ⟨r, hr, -⟩ := h queues' p hrun hover
      rw [hq] at hr
      exact absurd hr (by simp)
  · intro h queues' p hrun hover
    rcases hover with ⟨r, hr⟩ | ⟨q, k, hq, hempty⟩
    · exact ⟨r, hr, (h queues' p hrun).1 r hr⟩
    · exact absurd ((h queues' p hrun).2 q k hq) (not_nonempty_iff.mpr hempty)

/-! ### What is received -/

section Receiving

variable {sc : WifiSoftc} {queues : Handle → List Text}

/-- The receiving loop takes the next datagram there is. -/
theorem wp_monitorLoop_sockets (post : WaitedEvent → (Handle → List Text) → Prop) (index : ℤ)
    {is : List Slot} (hmon : ∀ i ∈ is, (sc.wpaCtx i).monitor ≠ none) {d : Text}
    (hd : is.findSome? (pendingOf sc queues) = some d) :
    ∃ j ∈ is, ∃ m rest, (sc.wpaCtx j).monitor = some m ∧ queues m = d :: rest ∧
      (wp sockets Answerable post
          (monitorLoop sc (eventBufLen - 1) index is >>= eventOfRecv eventBufLen) queues ↔
        wp sockets Answerable post (eventOfRecv eventBufLen ⟨0, j, d.take (eventBufLen - 1)⟩)
          (Function.update queues m rest)) := by
  induction is with
  | nil => exact absurd hd (by simp)
  | cons i is ih =>
    obtain ⟨m, hm⟩ := Option.ne_none_iff_exists'.mp (hmon i List.mem_cons_self)
    have hpending : pendingOf sc queues i = (queues m).head? := by simp [pendingOf, hm]
    rw [List.findSome?_cons, hpending] at hd
    unfold monitorLoop
    rw [hm]
    cases hq : queues m with
    | nil =>
      rw [hq] at hd
      obtain ⟨j, hj, m', rest, hm', hrest, hiff⟩ :=
        ih (fun j hj => hmon j (List.mem_cons_of_mem i hj)) hd
      refine ⟨j, List.mem_cons_of_mem i hj, m', rest, hm', hrest, ?_⟩
      rw [← hiff]
      constructor
      · intro h
        exact h.2 false queues ⟨by simp [hq], rfl⟩
      · intro h
        refine ⟨⟨true⟩, ?_⟩
        rintro pending queues' ⟨hfalse, rfl⟩
        obtain rfl : pending = false := by simpa [hq] using hfalse
        exact h
    | cons d' rest =>
      rw [hq] at hd
      obtain rfl : d' = d := Option.some.inj hd
      refine ⟨i, List.mem_cons_self, m, rest, hm, hq, ?_⟩
      constructor
      · intro h
        have hrecv := h.2 true queues ⟨by simp [hq], rfl⟩
        exact hrecv.2 (some d') _ ⟨by simp [hq], by simp [hq]⟩
      · intro h
        refine ⟨⟨true⟩, ?_⟩
        rintro pending queues' ⟨htrue, rfl⟩
        obtain rfl : pending = true := by simpa [hq] using htrue
        refine ⟨⟨none⟩, ?_⟩
        rintro datagram queues'' ⟨hhead, rfl⟩
        obtain rfl : datagram = some d' := by simpa [hq] using hhead
        rw [hq]
        exact h

/-- With all connections open, waiting comes down to the receiving loop. -/
theorem wp_wifiHalWaitOnEvent_sockets (post : WaitedEvent → (Handle → List Text) → Prop)
    (hopen : ∀ i, (sc.wpaCtx i).ctrl ≠ none ∧ (sc.wpaCtx i).monitor ≠ none) (index : ℤ) :
    wp sockets Answerable post (wifiHalWaitOnEvent sc index eventBufLen) queues ↔
      wp sockets Answerable post
        (monitorLoop sc (eventBufLen - 1) index sc.radios >>= eventOfRecv eventBufLen) queues := by
  rw [wifiHalWaitOnEvent_of_open hopen]
  constructor
  · intro h
    have hpoll := h.2 () queues rfl
    exact hpoll.2 (some ⟨true, fun _ => true⟩) queues ⟨rfl, rfl⟩
  · intro h
    refine ⟨⟨()⟩, ?_⟩
    rintro _ _ rfl
    refine ⟨⟨none⟩, ?_⟩
    rintro ready _ ⟨hready, rfl⟩
    obtain ⟨fds, rfl⟩ := Option.isSome_iff_exists.mp hready
    exact h

/-- What becomes of a datagram that has been received: an empty one is taken for a socket that was
closed, and one whose text does not fit the copy for the tag spoils the heap. -/
theorem wp_eventOfRecv_sockets {j : Slot} (hj : j.val < sc.radioAmount) {m : Handle}
    (hm : (sc.wpaCtx j).monitor = some m) {d : Text} {rest : List Text}
    (hq : queues m = d :: rest) :
    wp sockets Answerable (Delivered sc queues)
        (eventOfRecv eventBufLen ⟨0, j, d.take (eventBufLen - 1)⟩)
        (Function.update queues m rest) ↔
      d ≠ [] ∧ tagOverflows (d.take (eventBufLen - 1)) = false := by
  have hresult : ¬ ((0 : ℤ) < 0) := by decide
  have hroom : eventBufLen - 1 ≠ 0 := by decide
  have htake : d.take (eventBufLen - 1) = [] ↔ d = [] := by simp [List.take_eq_nil_iff, hroom]
  unfold eventOfRecv
  rw [if_neg hresult]
  by_cases hd : d = []
  · subst hd
    refine iff_of_false ?_ fun h => h.1 rfl
    rw [if_pos ⟨rfl, List.take_nil⟩]
    rintro ⟨j', -, m', d', rest', hm', hq', -, hindex, htext⟩
    -- the radio reported settles the monitor, and so the datagram
    have hsame : ((j : ℕ) : ℤ) = (j' : ℕ) := hindex
    obtain rfl : j = j' := Fin.ext (by exact_mod_cast hsame)
    obtain rfl := Option.some.inj (hm.symm.trans hm')
    obtain rfl := (List.cons.inj (hq.symm.trans hq')).1
    have hmade : (wpaEventTerminating ++ " - signal 0 received".toList).take (eventBufLen - 1) =
        [] := htext
    exact absurd hmade (by decide)
  · rw [if_neg fun h => hd (htake.mp h.2)]
    cases hover : tagOverflows (d.take (eventBufLen - 1)) with
    | true =>
      refine iff_of_false ?_ fun h => absurd h.2 (by decide)
      rintro ⟨⟨e⟩, -⟩
      exact e.elim
    | false =>
      exact iff_of_true ⟨j, hj, m, d, rest, hm, hq, rfl, rfl, rfl⟩ ⟨hd, rfl⟩

end Receiving

/-! ### Delivery -/

/-- The state `wifi_hal_open` leaves: the connections of the radios in use are open, those of the
other slots are not there. -/
structure OpenExactly (sc : WifiSoftc) : Prop where
  opened : ∀ i : Slot, i.val < sc.radioAmount →
    (sc.wpaCtx i).ctrl ≠ none ∧ (sc.wpaCtx i).monitor ≠ none
  absent : ∀ i : Slot, ¬ i.val < sc.radioAmount →
    (sc.wpaCtx i).ctrl = none ∧ (sc.wpaCtx i).monitor = none

/-- With a slot that is not in use, nothing is received at all. -/
theorem not_deliversEvent_of_lt {sc : WifiSoftc} (hsc : OpenExactly sc)
    (hlt : sc.radioAmount < wifiRadioMax) (queues : Handle → List Text) (index : ℤ) :
    ¬ DeliversEvent sc queues index := by
  have habsent : ∃ i, (sc.wpaCtx i).monitor = none :=
    ⟨⟨sc.radioAmount, hlt⟩, (hsc.absent _ (Nat.lt_irrefl _)).2⟩
  rw [deliversEvent_iff_wp]
  unfold wifiHalWaitOnEvent
  rw [if_pos habsent]
  intro h
  obtain ⟨j, -, m, d, rest, -, hq, hqueues, -⟩ := h.2 () queues rfl
  -- nothing has been taken from any queue
  have hsame := congrFun hqueues m
  rw [Function.update_self, hq] at hsame
  exact absurd (congrArg List.length hsame) (by simp)

/-- **A pending event is delivered exactly when all radios the build supports are there, and the
datagram received next is not empty and its text fits.** With fewer radios nothing is received at
all, by `not_deliversEvent_of_lt`. -/
theorem delivers_event_iff (sc : WifiSoftc) (hmax : sc.radioAmount ≤ wifiRadioMax)
    (hsc : OpenExactly sc) (queues : Handle → List Text)
    (hpending : ∃ i : Slot, i.val < sc.radioAmount ∧ pendingOf sc queues i ≠ none) (index : ℤ) :
    DeliversEvent sc queues index ↔ sc.radioAmount = wifiRadioMax ∧
      ∀ d ∈ nextDatagram sc queues,
        d ≠ [] ∧ tagOverflows (d.take (eventBufLen - 1)) = false := by
  by_cases hall : sc.radioAmount = wifiRadioMax
  · have hlt : ∀ i : Slot, i.val < sc.radioAmount := fun i => lt_of_lt_of_eq i.isLt hall.symm
    have hopen := fun i => hsc.opened i (hlt i)
    obtain ⟨d, hd⟩ : ∃ d, nextDatagram sc queues = some d := by
      obtain ⟨i, hi, hpend⟩ := hpending
      have hmem : i ∈ sc.radios := by simp [WifiSoftc.radios, hi]
      rw [← Option.ne_none_iff_exists']
      intro hnone
      exact hpend (List.findSome?_eq_none_iff.mp hnone i hmem)
    obtain ⟨j, -, m, rest, hm, hq, hiff⟩ :=
      wp_monitorLoop_sockets (Delivered sc queues) index (fun i _ => (hopen i).2) hd
    rw [deliversEvent_iff_wp, wp_wifiHalWaitOnEvent_sockets _ hopen index, hiff,
      wp_eventOfRecv_sockets (hlt j) hm hq, hd]
    constructor
    · intro h
      refine ⟨hall, ?_⟩
      rintro d' hd'
      obtain rfl := Option.some.inj hd'
      exact h
    · intro h
      exact h.2 d rfl
  · have hlt : sc.radioAmount < wifiRadioMax := by omega
    exact iff_of_false (not_deliversEvent_of_lt hsc hlt queues index) fun h => hall h.1

/-- A single radio with its connections open. -/
def singleRadio : WifiSoftc :=
  { wifiHalAttach with
    wpaCtx := fun i => if i = 0 then ⟨some 0, some 1, none⟩ else ⟨none, none, none⟩
    radioAmount := 1 }

theorem singleRadio_openExactly : OpenExactly singleRadio := by
  constructor <;> decide

/-- What waits in the monitors when a mesh peer has connected: an event in the one with handle 1. -/
def peerConnected (m : Handle) : List Text :=
  if m = 1 then ["<3>MESH-PEER-CONNECTED 02:00:00:00:01:00".toList] else []

/-- With both radios there, the peer of the first one is reported. -/
theorem peer_reported : DeliversEvent openSoftc peerConnected (-1) := by
  have hsc : OpenExactly openSoftc :=
    ⟨fun i _ => openSoftc_open i, fun i hi => absurd i.isLt hi⟩
  refine (delivers_event_iff openSoftc (by decide) hsc peerConnected
    ⟨0, by decide, by decide⟩ (-1)).mpr ⟨rfl, ?_⟩
  have hnext : nextDatagram openSoftc peerConnected =
      some "<3>MESH-PEER-CONNECTED 02:00:00:00:01:00".toList := rfl
  rw [hnext]
  rintro d hd
  obtain rfl := Option.some.inj hd
  exact ⟨by decide, by decide⟩

/-- Not every pending event is delivered: a single radio gets none. -/
theorem not_all_events_delivered : ¬ ∀ (sc : WifiSoftc), 1 ≤ sc.radioAmount →
    sc.radioAmount ≤ wifiRadioMax → OpenExactly sc → ∀ queues : Handle → List Text,
    (∃ i : Slot, i.val < sc.radioAmount ∧ pendingOf sc queues i ≠ none) →
    ∀ index : ℤ, DeliversEvent sc queues index := by
  intro h
  have hlt : singleRadio.radioAmount < wifiRadioMax := by decide
  exact not_deliversEvent_of_lt singleRadio_openExactly hlt peerConnected (-1)
    (h singleRadio (by decide) (by decide) singleRadio_openExactly peerConnected
      ⟨0, by decide, by decide⟩ (-1))

end RadioHal
