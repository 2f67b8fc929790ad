import RadioHal.Lib.Memory
import RadioHal.Wifi.Monitor

/-!
# The priority tag of an event

`wpa_supplicant` puts the priority of an event in front of its text, as in `<3>AP-ENABLED `.
`wifi_hal_wait_on_event` takes the tag off: it copies the string in the buffer, moves what comes
behind the tag to the front of the copy, and copies the copy back.

## Main definitions

* `stripTag`, `waitBuffer` — what is done to the buffer, access by access.
* `untagged d` — the text of a message, without its tag.
* `StandsFor` — the six beginnings of an event, with the events they stand for.
* `TagStripped` — what is left in the buffer, and the event it is taken for.

## Main results

* `waitBuffer_eq_none_iff`, `readText_waitBuffer` — **the bytes in the buffer agree with the text
  the model computes**, and an access leaves the buffer or the copy exactly where the model says so.
* `tag_stripped` — **a message without terminators is left without its tag**, every access is in
  bounds, and the event is the one its untagged text begins with.
-/

namespace RadioHal.Wifi

open CLib Dialogue

/-! ### The buffer -/

/-- The tag is taken off the text in the buffer, of which `nread` bytes were received. -/
def stripTag (buf : Text) (nread : ℕ) : Option (Text × ℕ) :=
  if buf.head? = some '<' then do
    let text ← readText buf
    match text.findIdx? (· == '>') with
    | none => return (buf, nread)
    | some k =>
      let nread := sizeSub nread (k + 1)
      let moved ← load buf (k + 1) (nread + 1)
      let temp ← store (text ++ [NUL]) 0 moved
      let copied ← readText temp
      let buf ← store buf 0 (padded buf.length copied)
      return (buf, nread)
  else return (buf, nread)

/-- The end of `wifi_hal_wait_on_event`, on a buffer that the bytes are received into. -/
def waitBuffer (buf received : Text) : Option (Text × ℕ) := do
  let buf ← store buf 0 received
  let buf ← store buf received.length [NUL]
  if received = [] then
    -- nothing was received: the text is made up
    let reason := wpaEventTerminating ++ " - signal 0 received".toList
    let buf ← store buf 0 (padded (buf.length - 1) reason)
    let buf ← store buf (buf.length - 1) [NUL]
    let text ← readText buf
    return (buf, text.length)
  stripTag buf received.length

section Buffer

variable {buf received : Text}

theorem waitBuffer_nil (c : Char) : waitBuffer [c] [] = some ([NUL], 0) := by
  simp [waitBuffer, store, readText, cstr]

theorem waitBuffer_of_ne_nil (hne : received ≠ []) (hroom : received.length < buf.length) :
    waitBuffer buf received =
      stripTag (received ++ NUL :: buf.drop (received.length + 1)) received.length := by
  have hdrop : buf.drop received.length =
      [buf[received.length]] ++ buf.drop (received.length + 1) :=
    List.drop_eq_getElem_cons hroom
  have hstore : store (received ++ buf.drop received.length) received.length [NUL] =
      some (received ++ NUL :: buf.drop (received.length + 1)) := by
    have happend : store (received ++ [buf[received.length]] ++ buf.drop (received.length + 1))
        received.length [NUL] = some (received ++ [NUL] ++ buf.drop (received.length + 1)) :=
      store_append received [buf[received.length]] (buf.drop (received.length + 1)) rfl
    rw [List.append_assoc, List.append_assoc, ← hdrop] at happend
    exact happend
  unfold waitBuffer
  rw [store_zero hroom.le]
  simp [hstore, hne]

theorem lt_of_tagEnd {k : ℕ} (h : tagEnd received = some k) : k < (cstr received).length := by
  unfold tagEnd at h
  split at h
  · exact (List.findIdx?_eq_some_iff_findIdx_eq.mp h).1
  · cases h

/-- Without a tag the bytes stay as they are. -/
theorem stripTag_of_tagEnd_none (hne : received ≠ []) (rest : Text)
    (h : tagEnd received = none) :
    stripTag (received ++ NUL :: rest) received.length =
      some (received ++ NUL :: rest, received.length) := by
  have hhead : (received ++ NUL :: rest).head? = received.head? := by
    obtain ⟨c, cs, rfl⟩ := List.exists_cons_of_ne_nil hne
    simp
  unfold tagEnd at h
  unfold stripTag
  rw [hhead, readText_append_NUL_cons]
  split
  · next hlt =>
    rw [if_pos hlt] at h
    simp [h]
  · rfl

/-- With a tag, what comes behind it is moved through the copy. -/
theorem stripTag_of_tagEnd_some (rest : Text) {k : ℕ} (h : tagEnd received = some k) :
    stripTag (received ++ NUL :: rest) received.length =
      (store (cstr received ++ [NUL]) 0 (received.drop (k + 1) ++ [NUL])).map fun _ =>
        (padded (received.length + 1 + rest.length) (cstr (received.drop (k + 1))),
          received.length - (k + 1)) := by
  have hk := lt_of_tagEnd h
  have hle := (cstr_isPrefix received).length_le
  have hsize : sizeSub received.length (k + 1) = received.length - (k + 1) := by
    unfold sizeSub
    rw [if_pos (by omega)]
  have hload : load (received ++ NUL :: rest) (k + 1) (received.length - (k + 1) + 1) =
      some (received.drop (k + 1) ++ [NUL]) := by
    have hsplit : received ++ NUL :: rest =
        received.take (k + 1) ++ (received.drop (k + 1) ++ [NUL]) ++ rest := by
      rw [← List.append_assoc, List.take_append_drop]
      simp
    have hlen : (received.take (k + 1)).length = k + 1 := by simp; omega
    have hload := load_append (received.take (k + 1)) (received.drop (k + 1) ++ [NUL]) rest
    rw [← hsplit, hlen] at hload
    simpa using hload
  have hhead : received.head? = some '<' ∧ (cstr received).findIdx? (· == '>') = some k := by
    unfold tagEnd at h
    split at h
    · next hlt => exact ⟨hlt, h⟩
    · cases h
  have hhead' : (received ++ NUL :: rest).head? = some '<' := by
    rw [List.head?_append, hhead.1]
    rfl
  unfold stripTag
  rw [if_pos hhead', readText_append_NUL_cons]
  simp only [Option.bind_eq_bind, Option.bind_some, hhead.2, hsize, hload]
  by_cases hfits : (received.drop (k + 1) ++ [NUL]).length ≤ (cstr received ++ [NUL]).length
  · -- the copy holds what is moved, with its terminator
    have hback : store (received ++ NUL :: rest) 0
        (padded (received ++ NUL :: rest).length (cstr (received.drop (k + 1)))) =
        some (padded (received ++ NUL :: rest).length (cstr (received.drop (k + 1)))) := by
      rw [store_zero (by simp)]
      simp
    rw [store_zero hfits, Option.bind_some, List.append_assoc, List.singleton_append,
      readText_append_NUL_cons, Option.bind_some, hback]
    simp [Nat.add_assoc, Nat.add_comm 1]
  · rw [store_eq_none_iff.mpr (by omega)]
    rfl

/-- **An access is out of bounds exactly where the model says so.**  The buffer is followed byte by
byte here, and `tagOverflows` looks at the text only. -/
theorem waitBuffer_eq_none_iff (hne : received ≠ []) (hroom : received.length < buf.length) :
    waitBuffer buf received = none ↔ tagOverflows received = true := by
  rw [waitBuffer_of_ne_nil hne hroom]
  unfold tagOverflows
  cases h : tagEnd received with
  | none => simp [stripTag_of_tagEnd_none hne _ h]
  | some k =>
    rw [stripTag_of_tagEnd_some _ h, Option.map_eq_none_iff, store_eq_none_iff]
    simp

/-- **The string that is left is the text of the event**, and the length is the one returned. -/
theorem readText_waitBuffer (hne : received ≠ []) (hroom : received.length < buf.length)
    (hin : tagOverflows received = false) : ∃ buf',
      waitBuffer buf received =
        some (buf', received.length - (tagEnd received).elim 0 (· + 1)) ∧
      buf'.length = buf.length ∧ readText buf' = some (eventText received) := by
  have hlen : received.length + 1 + (buf.drop (received.length + 1)).length = buf.length := by
    simp; omega
  have hsome : waitBuffer buf received ≠ none := by
    rw [Ne, waitBuffer_eq_none_iff hne hroom, hin]
    exact Bool.false_ne_true
  rw [waitBuffer_of_ne_nil hne hroom] at hsome ⊢
  unfold eventText
  cases h : tagEnd received with
  | none =>
    refine ⟨_, stripTag_of_tagEnd_none hne _ h, ?_, readText_append_NUL_cons _ _⟩
    simp only [List.length_append, List.length_cons]
    omega
  | some k =>
    rw [stripTag_of_tagEnd_some _ h] at hsome ⊢
    rw [Ne, Option.map_eq_none_iff] at hsome
    obtain ⟨temp, htemp⟩ := Option.ne_none_iff_exists'.mp hsome
    rw [htemp, hlen]
    have hshort : (cstr (received.drop (k + 1))).length < buf.length := by
      have hle := (cstr_isPrefix (received.drop (k + 1))).length_le
      rw [List.length_drop] at hle
      omega
    refine ⟨_, rfl, length_padded _ _, ?_⟩
    rw [padded_of_lt hshort]
    exact readText_append_NUL (notMem_cstr _) _

end Buffer

/-! ### Texts without their tag -/

/-- What comes behind the first `>` of a message that begins with `<`; the whole message, where it
has no tag. -/
def untagged (d : Text) : Text :=
  if d.head? = some '<' ∧ '>' ∈ d then (d.dropWhile (· != '>')).tail else d

section Untagged

variable {d : Text}

theorem drop_findIdx_succ (c : Char) (h : c ∈ d) {k : ℕ} (hk : d.findIdx? (· == c) = some k) :
    d.drop (k + 1) = (d.dropWhile (· != c)).tail := by
  induction d generalizing k with
  | nil => exact absurd h List.not_mem_nil
  | cons a d ih =>
    by_cases ha : a = c
    · have hzero : k = 0 := by simpa [List.findIdx?_cons, ha, eq_comm] using hk
      simp [hzero, ha]
    · simp [List.findIdx?_cons, ha] at hk
      obtain ⟨j, hj, rfl⟩ := hk
      have hmem : c ∈ d := by simpa [Ne.symm ha] using h
      simpa [ha] using ih hmem hj

/-- Without terminators the tag of a message is where its text says. -/
theorem tagEnd_cases (hnul : NUL ∉ d) :
    (tagEnd d = none ∧ untagged d = d) ∨
      ∃ k, tagEnd d = some k ∧ k < d.length ∧ untagged d = d.drop (k + 1) := by
  have hcstr : cstr d = d := cstr_eq_self hnul
  unfold untagged
  by_cases hhead : d.head? = some '<'
  · have htag : tagEnd d = d.findIdx? (· == '>') := by
      unfold tagEnd
      rw [if_pos hhead, hcstr]
    rw [htag]
    by_cases hmem : '>' ∈ d
    · have hsome : (d.findIdx? (· == '>')).isSome = true := by
        rw [List.findIdx?_isSome]
        exact List.any_eq_true.mpr ⟨'>', hmem, rfl⟩
      obtain ⟨k, hk⟩ := Option.isSome_iff_exists.mp hsome
      have hlt := (List.findIdx?_eq_some_iff_findIdx_eq.mp hk).1
      rw [if_pos ⟨hhead, hmem⟩]
      exact Or.inr ⟨k, hk, hlt, (drop_findIdx_succ '>' hmem hk).symm⟩
    · rw [if_neg fun hboth => hmem hboth.2]
      refine Or.inl ⟨?_, rfl⟩
      apply List.findIdx?_eq_none_iff.mpr
      intro c hc
      simpa using fun heq : c = '>' => hmem (heq ▸ hc)
  · rw [if_neg fun hboth => hhead hboth.1]
    refine Or.inl ⟨?_, rfl⟩
    unfold tagEnd
    rw [if_neg hhead]

/-- Without its tag a text holds nothing that it did not hold before. -/
theorem notMem_untagged (hnul : NUL ∉ d) : NUL ∉ untagged d := by
  rcases tagEnd_cases hnul with ⟨-, heq⟩ | ⟨k, -, -, heq⟩
  · rwa [heq]
  · rw [heq]
    exact fun h => hnul (List.mem_of_mem_drop h)

/-- The model's text of a message without terminators is its untagged text. -/
theorem eventText_eq_untagged (hnul : NUL ∉ d) : eventText d = untagged d := by
  have hnul' := notMem_untagged hnul
  unfold eventText
  rcases tagEnd_cases hnul with ⟨hnone, heq⟩ | ⟨k, hsome, -, heq⟩
  · rw [hnone, heq]
    exact cstr_eq_self hnul
  · rw [heq] at hnul' ⊢
    rw [hsome]
    exact cstr_eq_self hnul'

/-- So is the length that is returned its length. -/
theorem length_untagged (hnul : NUL ∉ d) :
    d.length - (tagEnd d).elim 0 (· + 1) = (untagged d).length := by
  rcases tagEnd_cases hnul with ⟨hnone, heq⟩ | ⟨k, hsome, -, heq⟩
  · rw [hnone, heq]
    rfl
  · rw [hsome, heq, List.length_drop]
    rfl

/-- What comes behind a tag fits the copy, which has room for the tag as well. -/
theorem not_tagOverflows (hnul : NUL ∉ d) : tagOverflows d = false := by
  unfold tagOverflows
  rw [cstr_eq_self hnul]
  rcases tagEnd_cases hnul with ⟨hnone, -⟩ | ⟨k, hsome, hk, -⟩
  · rw [hnone]
    rfl
  · rw [hsome]
    simp

end Untagged

/-! ### Events -/

/-- The beginnings of the texts by which wpa_supplicant announces the events of the HAL. -/
def StandsFor (p : Text) (e : WifiSystemEvent) : Prop :=
  (p = "CTRL-EVENT-DISCONNECTED ".toList ∧ e = .disconnectedEvent) ∨
    (p = "AP-ENABLED ".toList ∧ e = .apEnabledEvent) ∨
    (p = "MESH-GROUP-STARTED ".toList ∧ e = .startupStage2Event) ∨
    (p = "MESH-PEER-CONNECTED ".toList ∧ e = .connectedEvent) ∨
    (p = "MESH-PEER-DISCONNECTED ".toList ∧ e = .disconnectedEvent) ∨
    (p = "CTRL-EVENT-TERMINATING ".toList ∧ e = .terminateEvent)

/-- The table of the source has these beginnings, and no others. -/
theorem standsFor_iff {p : Text} {e : WifiSystemEvent} :
    StandsFor p e ↔ (p, e) ∈ eventPrefixes := by
  unfold StandsFor eventPrefixes wpaEventTerminating
  simp only [List.mem_cons, Prod.mk.injEq, List.not_mem_nil, or_false]

/-- None of the known beginnings is the beginning of another. -/
theorem eventPrefixes_apart : ∀ p ∈ eventPrefixes, ∀ p' ∈ eventPrefixes,
    p.1 <+: p'.1 → p = p' := by decide

/-- The order in which the beginnings are looked for does not matter. -/
theorem event_of_prefix {event p : Text} {e : WifiSystemEvent} (hp : StandsFor p e)
    (h : p <+: event) : wifiHalMapWpaEventToState event = e := by
  rw [standsFor_iff] at hp
  unfold wifiHalMapWpaEventToState
  cases hfind : eventPrefixes.find? fun p => strStarts event p.1 with
  | none =>
    have hnot := List.find?_eq_none.mp hfind (p, e) hp
    exact absurd (strStarts_iff.mpr h) hnot
  | some p' =>
    have hstarts := List.find?_some hfind
    rw [strStarts_iff] at hstarts
    have hmem := List.mem_of_find?_eq_some hfind
    have heq : (p, e) = p' := by
      rcases List.prefix_or_prefix_of_prefix h hstarts with hpre | hpre
      · exact eventPrefixes_apart (p, e) hp p' hmem hpre
      · exact (eventPrefixes_apart p' hmem (p, e) hp hpre).symm
    rw [← heq]
    rfl

/-- A text that begins in no known way is no event. -/
theorem noEvent_of_forall {event : Text} (h : ∀ p e, StandsFor p e → ¬ p <+: event) :
    wifiHalMapWpaEventToState event = .noEvent := by
  have hfind : (eventPrefixes.find? fun p => strStarts event p.1) = none := by
    apply List.find?_eq_none.mpr
    intro p hp hstarts
    exact h p.1 p.2 (standsFor_iff.mpr hp) (strStarts_iff.mp hstarts)
  unfold wifiHalMapWpaEventToState
  rw [hfind]
  rfl

/-! ### Waiting for an event -/

/-- **What is left of the bytes received in a buffer of `buflen` bytes**: the untagged text and its
length, without an access out of bounds, and the event that the untagged text begins with. -/
structure TagStripped (buflen : ℕ) (received : Text) (r : WaitedEvent) : Prop where
  text : r.text = untagged received
  nread : r.nread = (untagged received).length
  inBounds : ∀ buf : Text, buf.length = buflen → ∃ buf',
    waitBuffer buf received = some (buf', r.nread) ∧ buf'.length = buflen ∧
      readText buf' = some (untagged received)
  event : ∀ p e, StandsFor p e → p <+: untagged received → wifiHalMapWpaEventToState r.text = e
  noEvent : (∀ p e, StandsFor p e → ¬ p <+: untagged received) →
    wifiHalMapWpaEventToState r.text = .noEvent

/-- The end of `wifi_hal_wait_on_event`, on bytes without terminators. -/
theorem tagStripped_eventOfRecv {buflen : ℕ} {received : Text} (hlen : received.length < buflen)
    (hnul : NUL ∉ received) (hne : buflen = 1 ∨ received ≠ []) (i : ℤ) :
    ∃ r, eventOfRecv buflen ⟨0, i, received⟩ = ret r ∧ TagStripped buflen received r := by
  have hresult : ¬ ((0 : ℤ) < 0) := by decide
  unfold eventOfRecv
  rw [if_neg hresult]
  by_cases hempty : received = []
  · -- there is room for the terminator only, so nothing is made up either
    obtain rfl := hne.resolve_right (not_not.mpr hempty)
    subst hempty
    refine ⟨_, if_pos ⟨rfl, rfl⟩, rfl, rfl, ?_, ?_, ?_⟩
    · intro buf hbuf
      obtain ⟨c, rfl⟩ := List.length_eq_one_iff.mp hbuf
      exact ⟨[NUL], waitBuffer_nil c, rfl, rfl⟩
    · intro p e hp hpre
      show wifiHalMapWpaEventToState [] = e
      exact event_of_prefix hp hpre
    · intro hnone
      show wifiHalMapWpaEventToState [] = .noEvent
      exact noEvent_of_forall hnone
  · rw [if_neg fun h => hempty h.2, not_tagOverflows hnul]
    refine ⟨_, if_neg Bool.false_ne_true, eventText_eq_untagged hnul, length_untagged hnul, ?_, ?_,
      ?_⟩
    · intro buf hbuf
      obtain ⟨buf', hwait, hlen', hread⟩ :=
        readText_waitBuffer hempty (hlen.trans_eq hbuf.symm) (not_tagOverflows hnul)
      rw [eventText_eq_untagged hnul] at hread
      exact ⟨buf', hwait, hlen'.trans hbuf, hread⟩
    · intro p e hp hpre
      rw [← eventText_eq_untagged hnul] at hpre
      exact event_of_prefix hp hpre
    · intro hnone
      rw [← eventText_eq_untagged hnul] at hnone
      exact noEvent_of_forall hnone

/-- What is received ends the waiting, whichever monitor it comes from. -/
def EndsAtRecv (buflen : ℕ) : (q : WifiQ) → (WifiA q → WifiM WaitedEvent) → Prop
  | .wpaRecv _, k => ∀ d : Text, ∃ i,
    k (some d) = eventOfRecv buflen ⟨0, i, d.take (buflen - 1)⟩
  | _, _ => True

theorem atEvery_eventOfRecv (buflen : ℕ) (r : CtrlRecv) :
    AtEvery (EndsAtRecv buflen) (eventOfRecv buflen r) := by
  unfold eventOfRecv
  split
  · trivial
  · split
    · trivial
    · split
      · exact ⟨trivial, fun e => e.elim⟩
      · trivial

theorem atEvery_monitorLoop (sc : WifiSoftc) (buflen : ℕ) (index : ℤ) (is : List Slot) :
    AtEvery (EndsAtRecv buflen)
      (monitorLoop sc (buflen - 1) index is >>= eventOfRecv buflen) := by
  induction is with
  | nil =>
    unfold monitorLoop WifiM.endOfTable
    by_cases hamount : sc.radioAmount ≤ wifiRadioMax
    · rw [if_pos hamount]
      exact atEvery_eventOfRecv buflen ⟨-1, index, []⟩
    · rw [if_neg hamount]
      exact ⟨trivial, fun e => e.elim⟩
  | cons i is ih =>
    unfold monitorLoop WifiM.deref
    cases (sc.wpaCtx i).monitor with
    | none => exact ⟨trivial, fun e => e.elim⟩
    | some m =>
      refine ⟨trivial, ?_⟩
      intro pending
      cases pending with
      | true =>
        refine ⟨fun d => ⟨i, rfl⟩, ?_⟩
        intro datagram
        exact atEvery_eventOfRecv buflen _
      | false => exact ih

theorem atEvery_wifiHalWaitOnEvent (sc : WifiSoftc) (index : ℤ) (buflen : ℕ) :
    AtEvery (EndsAtRecv buflen) (wifiHalWaitOnEvent sc index buflen) := by
  unfold wifiHalWaitOnEvent wifiHalCtrlRecv
  refine ⟨trivial, ?_⟩
  intro _
  show AtEvery _ (ite _ _ _)
  split
  · trivial
  · show AtEvery _ (ite _ _ _ >>= _)
    split
    · exact atEvery_eventOfRecv buflen ⟨-1, index, []⟩
    · unfold WifiM.deref
      cases (sc.wpaCtx 0).monitor with
      | none => exact ⟨trivial, fun e => e.elim⟩
      | some m₀ =>
        cases (sc.wpaCtx 1).monitor with
        | none => exact ⟨trivial, fun e => e.elim⟩
        | some m₁ =>
          refine ⟨trivial, ?_⟩
          intro res
          cases res with
          | none => exact atEvery_eventOfRecv buflen ⟨-1, index, []⟩
          | some ready => exact atEvery_monitorLoop sc buflen index sc.radios

/-- **Of a message without terminators the priority tag is taken off, and nothing else**, whatever
the state and whatever was asked before the message was received. -/
theorem tag_stripped (sc : WifiSoftc) (index : ℤ) {buflen : ℕ} (hbuflen : 0 < buflen)
    {t : WifiTranscript} {m : Handle} {d : Text} (hne : d ≠ []) (hnul : NUL ∉ d)
    {p' : WifiM WaitedEvent}
    (hrun : After (wifiHalWaitOnEvent sc index buflen) (t ++ [⟨.wpaRecv m, some d⟩]) p') :
    ∃ r, p' = ret r ∧ TagStripped buflen (d.take (buflen - 1)) r := by
  obtain ⟨k, hasked, rfl⟩ := hrun.last
  have hends : EndsAtRecv buflen (.wpaRecv m) k :=
    ((atEvery_wifiHalWaitOnEvent sc index buflen).of_after hasked).1
  obtain ⟨i, hk⟩ := hends d
  rw [hk]
  apply tagStripped_eventOfRecv
  · rw [List.length_take]
    omega
  · exact fun h => hnul (List.mem_of_mem_take h)
  · by_cases hone : buflen = 1
    · exact Or.inl hone
    · right
      rw [Ne, List.take_eq_nil_iff]
      simp only [hne, or_false]
      omega

/-- What a supplicant that terminates tells the second monitor is left without its tag. -/
theorem terminating_stripped : ∃ r, (waitRun secondTerminates).2 = ret r ∧
    TagStripped eventBufLen "<2>CTRL-EVENT-TERMINATING ".toList r :=
  tag_stripped openSoftc (-1) (by decide) (d := "<2>CTRL-EVENT-TERMINATING ".toList)
    (t := [⟨.callsWaitOnEvent, ()⟩, ⟨.poll 2, some ⟨true, fun _ => false⟩⟩,
      ⟨.wpaPending 1, false⟩, ⟨.wpaPending 3, true⟩]) (m := 3) (by decide) (by decide)
    (after_play (monitorScript secondTerminates) 10 _)

end RadioHal.Wifi
