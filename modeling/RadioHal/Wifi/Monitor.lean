import RadioHal.Wifi.WpaCtrl

/-!
# Waiting for an event

`wifi_hal_wait_on_event` polls stdin and the monitor connections and receives from the first
monitor with something pending.  Whatever goes wrong on the way is turned into the text of a
terminating supplicant, which `wifi_hal_map_wpa_event_to_state` cannot tell from a real one.

## Main definitions

* `wifiHalCtrlRecv`, `wifiHalWaitOnEvent` — polling and receiving.
* `eventText` — the text of a datagram, without its priority tag.
* `wifiHalMapWpaEventToState` — the event a text stands for.
* `TerminationJustified` — what a termination may be reported for.

## Main results

* `wifiHalWaitOnEvent_of_open` — waiting is polling, and then the receiving loop.
* `termination_justified_iff` — **a termination is invented exactly when `poll` comes back and no
  monitor has anything pending**, as when stdin is readable.
-/

namespace RadioHal

open CLib Dialogue

/-! ### Receiving -/

/-- What `wifi_hal_ctrl_recv` leaves: its result, the index, and the bytes received. -/
structure CtrlRecv where
  result : ℤ
  index : ℤ
  received : Text
  deriving DecidableEq, Repr

/-- The receiving loop of `wifi_hal_ctrl_recv`, on a buffer with room for `room` bytes. -/
def monitorLoop (sc : WifiSoftc) (room : ℕ) (index : ℤ) : List Slot → WifiM CtrlRecv
  | [] => do
    WifiM.endOfTable sc
    return ⟨-1, index, []⟩
  | i :: is => do
    let monitor ← WifiM.deref (sc.wpaCtx i).monitor
    let pending ← query (WifiQ.wpaPending monitor)
    if pending = true then
      let datagram ← query (WifiQ.wpaRecv monitor)
      return (datagram : Option Text).elim ⟨-1, i, []⟩ fun d => ⟨0, i, d.take room⟩
    monitorLoop sc room index is

/-- `wifi_hal_ctrl_recv`.  The descriptors are those of all monitors the build supports, and
which of them `poll` found ready is not looked at. -/
def wifiHalCtrlRecv (sc : WifiSoftc) (index : ℤ) (room : ℕ) : WifiM CtrlRecv := do
  if ∃ i, (sc.wpaCtx i).ctrl = none then return ⟨-1, index, []⟩
  let _ ← WifiM.deref (sc.wpaCtx 0).monitor
  let _ ← WifiM.deref (sc.wpaCtx 1).monitor
  let res ← query (WifiQ.poll sc.radioAmount)
  if (res : Option PollReady).isNone then return ⟨-1, index, []⟩
  monitorLoop sc room index sc.radios

/-! ### Waiting -/

/-- Where the priority tag of a message ends. -/
def tagEnd (raw : Text) : Option ℕ :=
  if raw.head? = some '<' then (cstr raw).findIdx? (· == '>') else none

/-- The text of the bytes received, without the priority tag. -/
def eventText (raw : Text) : Text :=
  (tagEnd raw).elim (cstr raw) fun k => cstr (raw.drop (k + 1))

/-- The bytes behind the tag do not fit the copy, which has the size of the string in the buffer:
there is a terminator among them. -/
def tagOverflows (raw : Text) : Bool :=
  (tagEnd raw).any fun k => decide ((cstr raw).length < raw.length - (k + 1))

/-- `WPA_EVENT_TERMINATING`. -/
def wpaEventTerminating : Text := "CTRL-EVENT-TERMINATING ".toList

/-- What `wifi_hal_wait_on_event` leaves: the index, the text in the buffer, and its return
value. -/
structure WaitedEvent where
  index : ℤ
  text : Text
  nread : ℕ
  deriving DecidableEq, Repr

/-- An event made up in place of one. -/
def madeUp (index : ℤ) (buflen : ℕ) (reason : Text) : WaitedEvent :=
  let text := (wpaEventTerminating ++ reason).take (buflen - 1)
  ⟨index, text, text.length⟩

/-- The end of `wifi_hal_wait_on_event`, behind `wifi_hal_ctrl_recv`: an error and an empty message
are made up into events of their own. -/
def eventOfRecv (buflen : ℕ) (r : CtrlRecv) : WifiM WaitedEvent :=
  if r.result < 0 then ret (madeUp r.index buflen " - recv error\n".toList)
  else if r.result = 0 ∧ r.received = [] then
    ret (madeUp r.index buflen " - signal 0 received".toList)
  else if tagOverflows r.received = true then ask .heapOverflow Empty.elim
  else ret ⟨r.index, eventText r.received,
    r.received.length - (tagEnd r.received).elim 0 (· + 1)⟩

/-- `wifi_hal_wait_on_event`. -/
def wifiHalWaitOnEvent (sc : WifiSoftc) (index : ℤ) (buflen : ℕ) : WifiM WaitedEvent := do
  query WifiQ.callsWaitOnEvent
  if ∃ i, (sc.wpaCtx i).monitor = none then
    return madeUp index buflen " - connection closed".toList
  let r ← wifiHalCtrlRecv sc index (buflen - 1)
  eventOfRecv buflen r

/-- **With all connections open, waiting is polling, and then the receiving loop.** -/
theorem wifiHalWaitOnEvent_of_open {sc : WifiSoftc}
    (hopen : ∀ i, (sc.wpaCtx i).ctrl ≠ none ∧ (sc.wpaCtx i).monitor ≠ none) (index : ℤ)
    (buflen : ℕ) : wifiHalWaitOnEvent sc index buflen = ask .callsWaitOnEvent fun _ =>
      ask (.poll sc.radioAmount) fun res : Option PollReady =>
        (if res.isNone then ret ⟨-1, index, []⟩
          else monitorLoop sc (buflen - 1) index sc.radios) >>= eventOfRecv buflen := by
  have hmonitors : ¬ ∃ i, (sc.wpaCtx i).monitor = none := fun ⟨i, hi⟩ => (hopen i).2 hi
  have hctrls : ¬ ∃ i, (sc.wpaCtx i).ctrl = none := fun ⟨i, hi⟩ => (hopen i).1 hi
  obtain ⟨m₀, hm₀⟩ := Option.ne_none_iff_exists'.mp (hopen 0).2
  obtain ⟨m₁, hm₁⟩ := Option.ne_none_iff_exists'.mp (hopen 1).2
  unfold wifiHalWaitOnEvent wifiHalCtrlRecv
  rw [if_neg hmonitors, if_neg hctrls, hm₀, hm₁]
  rfl

/-- The size of the buffer `wifi_events` reads its events into. -/
def eventBufLen : ℕ := respBufferSize - 1

/-- The beginnings of the events that are known, in the order they are looked for. -/
def eventPrefixes : List (Text × WifiSystemEvent) :=
  [("CTRL-EVENT-DISCONNECTED ".toList, .disconnectedEvent),
    ("AP-ENABLED ".toList, .apEnabledEvent),
    ("MESH-GROUP-STARTED ".toList, .startupStage2Event),
    ("MESH-PEER-CONNECTED ".toList, .connectedEvent),
    ("MESH-PEER-DISCONNECTED ".toList, .disconnectedEvent),
    (wpaEventTerminating, .terminateEvent)]

/-- `wifi_hal_map_wpa_event_to_state`. -/
def wifiHalMapWpaEventToState (event : Text) : WifiSystemEvent :=
  (eventPrefixes.find? fun p => strStarts event p.1).elim .noEvent (·.2)

/-- Only a text that begins like a terminating supplicant is taken for one. -/
theorem strStarts_of_terminateEvent {event : Text}
    (h : wifiHalMapWpaEventToState event = .terminateEvent) :
    strStarts event wpaEventTerminating = true := by
  unfold wifiHalMapWpaEventToState at h
  cases hfind : eventPrefixes.find? fun p => strStarts event p.1 with
  | none => rw [hfind] at h; exact absurd h (by decide)
  | some p =>
    rw [hfind] at h
    have hstarts := List.find?_some hfind
    have hmem := List.mem_of_find?_eq_some hfind
    have honly : ∀ p ∈ eventPrefixes, p.2 = .terminateEvent → p.1 = wpaEventTerminating := by
      decide
    rw [← honly p hmem h]
    exact hstarts

/-- What is made up begins like a terminating supplicant. -/
theorem terminateEvent_madeUp (index : ℤ) :
    wifiHalMapWpaEventToState (madeUp index eventBufLen " - recv error\n".toList).text =
      .terminateEvent := rfl

/-! ### Terminations -/

section Termination

/-- The exchanges that a run of the WiFi HAL has made so far. -/
abbrev WifiTranscript : Type := List (Exchange WifiQ WifiA)

/-- `poll` has failed in the run. -/
def PollFailed (t : WifiTranscript) : Prop :=
  ∃ n, (⟨.poll n, (none : Option PollReady)⟩ : Exchange WifiQ WifiA) ∈ t

/-- A monitor was found to have something pending. -/
def SomePending (t : WifiTranscript) : Prop :=
  ∃ m, (⟨.wpaPending m, true⟩ : Exchange WifiQ WifiA) ∈ t

/-- What a receive on a monitor may come back with for a termination to be reported: a failure,
an empty datagram, or a text that begins like a terminating supplicant. -/
def TerminatesAfter : Option Text → Prop
  | none => True
  | some d => d = [] ∨ strStarts (eventText (d.take (eventBufLen - 1))) wpaEventTerminating = true

/-- **What a termination may be reported for**: `poll` failed, or a monitor was received from with
one of the outcomes above. -/
def TerminationJustified (t : WifiTranscript) : Prop :=
  PollFailed t ∨
    ∃ m a, (⟨.wpaRecv m, (a : Option Text)⟩ : Exchange WifiQ WifiA) ∈ t ∧ TerminatesAfter a

variable {t t' : WifiTranscript}

theorem PollFailed.append (h : PollFailed t) : PollFailed (t ++ t') :=
  h.imp fun _ hn => List.mem_append_left _ hn

theorem SomePending.append (h : SomePending t) : SomePending (t ++ t') :=
  h.imp fun _ hm => List.mem_append_left _ hm

/-- Nothing has been received, and `poll` has not failed. -/
structure NothingYet (t : WifiTranscript) : Prop where
  not_pollFailed : ¬ PollFailed t
  not_somePending : ¬ SomePending t
  not_justified : ¬ TerminationJustified t

/-- An exchange of no interest: no failed `poll`, no positive check, no receive. -/
def Uninteresting : Exchange WifiQ WifiA → Prop
  | ⟨.poll _, a⟩ => (a : Option PollReady) ≠ none
  | ⟨.wpaPending _, a⟩ => a = false
  | ⟨.wpaRecv _, _⟩ => False
  | _ => True

theorem nothingYet_of_uninteresting (h : ∀ x ∈ t, Uninteresting x) : NothingYet t := by
  have hpoll : ¬ PollFailed t := by
    rintro ⟨n, hn⟩
    exact h _ hn rfl
  refine ⟨hpoll, ?_, ?_⟩
  · rintro ⟨m, hm⟩
    exact absurd (h _ hm) (by simp [Uninteresting])
  · rintro (hfailed | ⟨m, a, hm, -⟩)
    · exact hpoll hfailed
    · exact h _ hm

/-- A termination is reported for a reason exactly when `poll` failed or something was pending. -/
def JustifiedIff (r : WaitedEvent) (t : WifiTranscript) : Prop :=
  (wifiHalMapWpaEventToState r.text = .terminateEvent → TerminationJustified t) ↔
    PollFailed t ∨ SomePending t

theorem justifiedIff_madeUp (h : NothingYet t) (index : ℤ) :
    JustifiedIff (madeUp index eventBufLen " - recv error\n".toList) t := by
  refine iff_of_false ?_ ?_
  · intro himp
    exact h.not_justified (himp (terminateEvent_madeUp index))
  · rintro (hfailed | hpending)
    · exact h.not_pollFailed hfailed
    · exact h.not_somePending hpending

/-- Whatever is received from a monitor justifies the termination it is taken for. -/
theorem wp_eventOfRecv (i : Slot) (m : Handle) (a : Option Text) (hpending : SomePending t)
    (hrecv : (⟨.wpaRecv m, a⟩ : Exchange WifiQ WifiA) ∈ t) :
    wp history (fun _ _ => True) JustifiedIff
      (eventOfRecv eventBufLen
        (a.elim ⟨-1, i, []⟩ fun d => ⟨0, i, d.take (eventBufLen - 1)⟩)) t := by
  -- a result is in order as soon as its text is a termination for a reason only
  have hiff : ∀ r : WaitedEvent, (wifiHalMapWpaEventToState r.text = .terminateEvent →
      TerminatesAfter a) → JustifiedIff r t := fun r hr =>
    iff_of_true (fun hterm => Or.inr ⟨m, a, hrecv, hr hterm⟩) (Or.inr hpending)
  cases a with
  | none => exact hiff _ fun _ => trivial
  | some d =>
    show wp history _ _ (eventOfRecv eventBufLen ⟨0, i, d.take (eventBufLen - 1)⟩) t
    have hresult : ¬ ((0 : ℤ) < 0) := by decide
    unfold eventOfRecv
    rw [if_neg hresult]
    by_cases hempty : d.take (eventBufLen - 1) = []
    · rw [if_pos ⟨rfl, hempty⟩]
      have hroom : eventBufLen - 1 ≠ 0 := by decide
      have hd : d = [] := by simpa [List.take_eq_nil_iff, hroom] using hempty
      exact hiff _ fun _ => Or.inl hd
    · rw [if_neg fun h => hempty h.2]
      by_cases hover : tagOverflows (d.take (eventBufLen - 1)) = true
      · rw [if_pos hover]
        exact ⟨trivial, fun e => e.elim⟩
      · rw [if_neg hover]
        exact hiff _ fun hterm => Or.inr (strStarts_of_terminateEvent hterm)

/-- The receiving loop over the monitors, behind exchanges that do not matter. -/
theorem wp_monitorLoop (sc : WifiSoftc) (hamount : sc.radioAmount ≤ wifiRadioMax) (index : ℤ)
    (is : List Slot) (hmon : ∀ i ∈ is, (sc.wpaCtx i).monitor ≠ none)
    (ht : ∀ x ∈ t, Uninteresting x) :
    wp history (fun _ _ => True) JustifiedIff
      (monitorLoop sc (eventBufLen - 1) index is >>= eventOfRecv eventBufLen) t := by
  induction is generalizing t with
  | nil =>
    unfold monitorLoop WifiM.endOfTable
    rw [if_pos hamount]
    exact justifiedIff_madeUp (nothingYet_of_uninteresting ht) index
  | cons i is ih =>
    obtain ⟨m, hm⟩ := Option.ne_none_iff_exists'.mp (hmon i List.mem_cons_self)
    unfold monitorLoop
    rw [hm]
    refine ⟨trivial, ?_⟩
    intro pending t' ht'
    obtain rfl : t' = t ++ [(⟨.wpaPending m, pending⟩ : Exchange WifiQ WifiA)] := ht'
    cases pending with
    | true =>
      refine ⟨trivial, ?_⟩
      intro a t' ht'
      obtain rfl : t' = t ++ [(⟨.wpaPending m, true⟩ : Exchange WifiQ WifiA)] ++
        [(⟨.wpaRecv m, a⟩ : Exchange WifiQ WifiA)] := ht'
      have hpending : SomePending (t ++ [(⟨.wpaPending m, true⟩ : Exchange WifiQ WifiA)]) :=
        ⟨m, by simp⟩
      exact wp_eventOfRecv i m a hpending.append (by simp)
    | false =>
      refine ih (fun j hj => hmon j (List.mem_cons_of_mem i hj)) ?_
      intro x hx
      rcases List.mem_append.mp hx with hx | hx
      · exact ht x hx
      · rw [List.mem_singleton.mp hx]
        rfl

/-- What holds along every run of `wifi_hal_wait_on_event` when all connections are open. -/
theorem wp_wifiHalWaitOnEvent (sc : WifiSoftc) (hamount : sc.radioAmount ≤ wifiRadioMax)
    (hopen : ∀ i, (sc.wpaCtx i).ctrl ≠ none ∧ (sc.wpaCtx i).monitor ≠ none) (index : ℤ) :
    wp history (fun _ _ => True) JustifiedIff (wifiHalWaitOnEvent sc index eventBufLen) [] := by
  rw [wifiHalWaitOnEvent_of_open hopen]
  refine ⟨trivial, ?_⟩
  rintro _ t₁ rfl
  refine ⟨trivial, ?_⟩
  intro res t₂ ht₂
  obtain rfl : t₂ = [] ++ [(⟨.callsWaitOnEvent, ()⟩ : Exchange WifiQ WifiA)] ++
    [(⟨.poll sc.radioAmount, res⟩ : Exchange WifiQ WifiA)] := ht₂
  cases res with
  | none =>
    have hfailed : PollFailed ([] ++ [(⟨.callsWaitOnEvent, ()⟩ : Exchange WifiQ WifiA)] ++
        [(⟨.poll sc.radioAmount, none⟩ : Exchange WifiQ WifiA)]) := ⟨sc.radioAmount, by simp⟩
    exact iff_of_true (fun _ => Or.inl hfailed) (Or.inl hfailed)
  | some ready =>
    refine wp_monitorLoop sc hamount index sc.radios (fun i _ => (hopen i).2) ?_
    intro x hx
    simp only [List.nil_append, List.cons_append, List.mem_cons, List.not_mem_nil, or_false] at hx
    rcases hx with rfl | rfl
    · trivial
    · exact Option.some_ne_none ready

/-- **With all connections open, a termination is reported for a reason only, exactly when `poll`
failed or some monitor had something pending.** A byte on the standard input wakes `poll` as well,
and then the text that is made up reads as a termination. -/
theorem termination_justified_iff (sc : WifiSoftc) (hamount : sc.radioAmount = wifiRadioMax)
    (hopen : ∀ i, (sc.wpaCtx i).ctrl ≠ none ∧ (sc.wpaCtx i).monitor ≠ none) (index : ℤ)
    {r : WaitedEvent} (hrun : After (wifiHalWaitOnEvent sc index eventBufLen) t (ret r)) :
    (wifiHalMapWpaEventToState r.text = .terminateEvent → TerminationJustified t) ↔
      PollFailed t ∨ SomePending t :=
  wp_after hrun (wp_wifiHalWaitOnEvent sc hamount.le hopen index)

end Termination

/-- Two radios with all their connections open. -/
def openSoftc : WifiSoftc :=
  { wifiHalAttach with
    wpaCtx := fun i => ⟨some (2 * i.val), some (2 * i.val + 1), none⟩
    radioAmount := 2 }

theorem openSoftc_open (i : Slot) :
    (openSoftc.wpaCtx i).ctrl ≠ none ∧ (openSoftc.wpaCtx i).monitor ≠ none := by
  constructor <;> exact Option.some_ne_none _

/-- `poll` comes back, stdin is readable, and the monitors have the given datagrams pending. -/
def monitorScript (datagrams : Handle → Option Text) : (q : WifiQ) → Option (WifiA q)
  | .callsWaitOnEvent => some ()
  | .poll _ => some (some ⟨true, fun _ => false⟩)
  | .wpaPending m => some (datagrams m).isSome
  | .wpaRecv m => some (datagrams m)
  | _ => none

/-- A run of `wifi_hal_wait_on_event` with the given datagrams pending. -/
def waitRun (datagrams : Handle → Option Text) : WifiTranscript × WifiM WaitedEvent :=
  play (monitorScript datagrams) 10 (wifiHalWaitOnEvent openSoftc (-1) eventBufLen)

/-- The second monitor has a supplicant that terminates. -/
def secondTerminates (m : Handle) : Option Text :=
  if m = 3 then some "<2>CTRL-EVENT-TERMINATING ".toList else none

/-- A supplicant that tells the second monitor that it terminates is a reason. -/
theorem termination_of_second_monitor : TerminationJustified (waitRun secondTerminates).1 := by
  have hpending : SomePending (waitRun secondTerminates).1 := by
    have ht : (waitRun secondTerminates).1 = [⟨.callsWaitOnEvent, ()⟩,
        ⟨.poll 2, some ⟨true, fun _ => false⟩⟩, ⟨.wpaPending 1, false⟩, ⟨.wpaPending 3, true⟩,
        ⟨.wpaRecv 3, secondTerminates 3⟩] := rfl
    exact ⟨3, by rw [ht]; simp⟩
  exact (termination_justified_iff openSoftc rfl openSoftc_open (-1)
    (after_play (monitorScript secondTerminates) 10 _)).mpr (Or.inr hpending) rfl

/-- With stdin readable and nothing pending, nothing is received. -/
theorem waitRun_nothing : NothingYet (waitRun fun _ => none).1 := by
  refine nothingYet_of_uninteresting fun x hx => ?_
  have ht : (waitRun fun _ => none).1 = [⟨.callsWaitOnEvent, ()⟩,
      ⟨.poll 2, some ⟨true, fun _ => false⟩⟩, ⟨.wpaPending 1, false⟩, ⟨.wpaPending 3, false⟩] := rfl
  rw [ht] at hx
  simp only [List.mem_cons, List.not_mem_nil, or_false] at hx
  rcases hx with rfl | rfl | rfl | rfl <;> simp [Uninteresting]

/-- Not every termination is reported for a reason: a line on stdin invents one. -/
theorem not_all_terminations_justified : ¬ ∀ (sc : WifiSoftc),
    sc.radioAmount = wifiRadioMax →
    (∀ i, (sc.wpaCtx i).ctrl ≠ none ∧ (sc.wpaCtx i).monitor ≠ none) →
    ∀ (index : ℤ) (t : WifiTranscript) (r : WaitedEvent),
      After (wifiHalWaitOnEvent sc index eventBufLen) t (ret r) →
      wifiHalMapWpaEventToState r.text = .terminateEvent → TerminationJustified t := by
  intro h
  have hrun : After (wifiHalWaitOnEvent openSoftc (-1) eventBufLen) (waitRun fun _ => none).1
      (ret (madeUp (-1) eventBufLen " - recv error\n".toList)) :=
    after_play (monitorScript fun _ => none) 10 _
  exact waitRun_nothing.not_justified
    (h openSoftc rfl openSoftc_open (-1) _ _ hrun (terminateEvent_madeUp (-1)))

end RadioHal
