import RadioHal.Lib.Memory
import RadioHal.Wifi.Addressed
import RadioHal.Wifi.Monitor

/-!
# What the caller gets for scan results

`wifi_hal_get_scan_results` asks for the results and copies what its length variable says to the
caller, whatever came of the request.  The variable is the room there is for a reply and becomes the
length of the reply when there is one; a request that fails leaves it alone.

## Main definitions

* `scanReply t` — the reply to the request for the results in the exchanges `t`, unless it is a
  failure.
* `ScanReported` — the caller has the reply and a terminator behind it, or an error and nothing
  else.
* `ScanInOrder` — there was a reply, and its terminator is put there or was there before.

## Main results

* `scan_copied` — what is copied: the reply with its line change cut off, or all there is room for.
* `scan_reported_iff` — **results are reported as expected exactly when there is a reply to copy,
  and its terminator comes from its line change or from the caller's own buffer.**
-/

namespace RadioHal.Wifi

open CLib Dialogue

/-- The local buffer of `wifi_hal_get_scan_results`, and the buffer it is handed. -/
def scanBufferSize : ℕ := 4096

/-- The answer to the request for the results. -/
def scanAnswer (t : WifiTranscript) : Option WpaAnswer :=
  t.findSome? fun
    | ⟨.wpaRequest _ cmd, answer⟩ =>
      if cmd = "SCAN_RESULTS".toList then some (answer : WpaAnswer) else none
    | _ => none

@[simp] theorem scanAnswer_uninitBuffer {size : ℕ} (buf : CharArray size) (t : WifiTranscript) :
    scanAnswer (⟨.uninitBuffer size, buf⟩ :: t) = scanAnswer t := rfl

theorem scanAnswer_append {t t' : WifiTranscript} (h : scanAnswer t = none) :
    scanAnswer (t ++ t') = scanAnswer t' := by
  unfold scanAnswer at h ⊢
  rw [List.findSome?_append, h, Option.none_or]

/-- The reply to the request for the results, unless it is a failure. -/
def scanReply (t : WifiTranscript) : Option Text :=
  ((scanAnswer t).bind (WpaAnswer.reply (scanBufferSize - 1))).filter fun d =>
    !strStarts d "FAIL".toList

/-- **The caller has the reply, or an error.** -/
structure ScanReported (t : WifiTranscript) (caller : CharArray scanBufferSize)
    (r : ℤ × Text) : Prop where
  answered : ∀ d, scanReply t = some d → r.1 = 0 ∧
    ∃ results, store caller.bytes 0 r.2 = some results ∧ chomp d ++ [NUL] <+: results
  unanswered : scanReply t = none → r.1 ≠ 0 ∧ store caller.bytes 0 r.2 = some caller.bytes

/-- The reply ends in a line change and has no terminator, or it has no line change to cut off and
the caller's buffer holds a terminator where the reply ends. -/
def TerminatorBehind (caller : CharArray scanBufferSize) (d : Text) : Prop :=
  (d.getLast? = some '\n' ∧ NUL ∉ d) ∨
    (d.getLast? ≠ some '\n' ∧ (cstr d).getLast? ≠ some '\n' ∧
      caller.bytes[d.length]? = some NUL)

/-- There is a reply, and a terminator behind it. -/
def ScanInOrder (t : WifiTranscript) (caller : CharArray scanBufferSize) : Prop :=
  ∃ d, scanReply t = some d ∧ TerminatorBehind caller d

/-! ### Cutting the line change off -/

section Trimmed

variable {d rest : Text}

/-- The last character of the string, if it is a line change, is what is cut off. -/
theorem replaceLineChange_append (d rest : Text) : replaceLineChange (d ++ rest) d.length =
    (if (cstr d).getLast? = some '\n' then d.set ((cstr d).length - 1) NUL else d) ++ rest := by
  have hle := (cstr_isPrefix d).length_le
  have htake : (d ++ rest).take (cstr d).length = cstr d := by
    rw [List.take_append_of_le_length hle]
    exact (List.prefix_iff_eq_take.mp (cstr_isPrefix d)).symm
  unfold replaceLineChange
  simp only [List.take_left, htake]
  by_cases hlast : (cstr d).getLast? = some '\n'
  · have hpos : 0 < (cstr d).length := by
      rw [List.length_pos_iff]
      intro hnil
      rw [hnil] at hlast
      cases hlast
    rw [if_pos ⟨hpos, hlast⟩, if_pos hlast, List.set_append_left _ _ (by omega)]
  · rw [if_neg fun h => hlast h.2, if_neg hlast]

/-- A string that is all of a reply loses its line change. -/
theorem replaceLineChange_concat {s : Text} (h : NUL ∉ s ++ ['\n']) :
    replaceLineChange (s ++ ['\n']) (s ++ ['\n']).length = s ++ [NUL] := by
  have happend := replaceLineChange_append (s ++ ['\n']) []
  rw [cstr_eq_self h, if_pos (by simp)] at happend
  simpa using happend

theorem getLast?_replaceLineChange {s : Text} (h : NUL ∈ s) :
    (replaceLineChange (s ++ ['\n']) (s ++ ['\n']).length).getLast? = some '\n' := by
  have happend := replaceLineChange_append (s ++ ['\n']) []
  have hcut : (cstr (s ++ ['\n'])).length < s.length + 1 := by
    by_contra hle
    have heq : cstr (s ++ ['\n']) = s ++ ['\n'] := by
      apply (cstr_isPrefix (s ++ ['\n'])).eq_of_length_le
      simp only [List.length_append, List.length_singleton]
      omega
    have hnot := notMem_cstr (s ++ ['\n'])
    rw [heq] at hnot
    exact hnot (List.mem_append_left _ h)
  have hpos : 0 < s.length := List.length_pos_of_mem h
  rw [List.append_nil, List.append_nil] at happend
  rw [happend]
  split
  · rw [List.set_append_left _ _ (by omega)]
    simp
  · simp

/-- Cutting a line change off is what changes a reply that does not end in one. -/
theorem replaceLineChange_eq_self_iff :
    replaceLineChange d d.length = d ↔ (cstr d).getLast? ≠ some '\n' := by
  have happend := replaceLineChange_append d []
  rw [List.append_nil, List.append_nil] at happend
  rw [happend]
  constructor
  · intro heq hlast
    rw [if_pos hlast] at heq
    have hmem : (cstr d)[(cstr d).length - 1]? = some '\n' := by
      rw [← List.getLast?_eq_getElem?]
      exact hlast
    obtain ⟨hlt, -⟩ := List.getElem?_eq_some_iff.mp hmem
    have hd : d[(cstr d).length - 1]? = some '\n' := by
      rw [List.getElem?_eq_getElem hlt] at hmem
      rw [List.getElem?_eq_getElem (hlt.trans_le (cstr_isPrefix d).length_le), ← hmem]
      exact congrArg some ((cstr_isPrefix d).getElem hlt).symm
    have hset := List.getElem?_set_self (a := NUL) (hlt.trans_le (cstr_isPrefix d).length_le)
    rw [heq, hd] at hset
    exact absurd hset (by decide)
  · intro hlast
    rw [if_neg hlast]

@[simp] theorem length_replaceLineChange (buf : Text) (size : ℕ) :
    (replaceLineChange buf size).length = buf.length := by
  unfold replaceLineChange
  dsimp only
  split
  · exact List.length_set
  · rfl

/-- Beginnings of the same length are compared one by one. -/
theorem append_prefix_append_iff {a b x y : Text} (h : a.length = b.length) :
    a ++ x <+: b ++ y ↔ a = b ∧ x <+: y := by
  constructor
  · intro hpre
    obtain ⟨rest, hrest⟩ := hpre
    rw [List.append_assoc] at hrest
    obtain ⟨hab, hxy⟩ := List.append_inj hrest h
    exact ⟨hab, rest, hxy⟩
  · intro hboth
    rw [hboth.1]
    exact (List.prefix_append_right_inj b).mpr hboth.2

/-- **The caller has a terminator behind the reply exactly when it comes from the line change, or
was there before.** -/
theorem chomp_prefix_iff (caller : CharArray scanBufferSize) (hd : d.length < scanBufferSize) :
    chomp d ++ [NUL] <+: replaceLineChange d d.length ++ caller.bytes.drop d.length ↔
      TerminatorBehind caller d := by
  unfold TerminatorBehind chomp
  by_cases hlast : d.getLast? = some '\n'
  · obtain ⟨s, rfl⟩ := List.getLast?_eq_some_iff.mp hlast
    have hlen : (s ++ [NUL]).length =
        (replaceLineChange (s ++ ['\n']) (s ++ ['\n']).length).length := by simp
    have hiff := append_prefix_append_iff (x := []) (y := caller.bytes.drop (s ++ ['\n']).length)
      hlen
    rw [List.append_nil, and_iff_left (List.nil_prefix)] at hiff
    rw [if_pos hlast, List.dropLast_concat, hiff]
    by_cases hnul : NUL ∈ s ++ ['\n']
    · have hmem : NUL ∈ s := by simpa [NUL] using hnul
      refine iff_of_false ?_ ?_
      · intro heq
        have hnew := getLast?_replaceLineChange hmem
        rw [← heq] at hnew
        simp [NUL] at hnew
      · intro h
        rcases h with h | h
        · exact h.2 hnul
        · exact h.1 hlast
    · exact iff_of_true (replaceLineChange_concat hnul).symm (Or.inl ⟨hlast, hnul⟩)
  · have hdrop : [NUL] <+: caller.bytes.drop d.length ↔ caller.bytes[d.length]? = some NUL := by
      rw [← List.head?_drop]
      cases caller.bytes.drop d.length <;> simp [List.cons_prefix_cons, eq_comm]
    rw [if_neg hlast, append_prefix_append_iff (by simp), hdrop, eq_comm,
      replaceLineChange_eq_self_iff]
    simp [hlast]

end Trimmed

/-! ### What is copied -/

/-- A text that is shorter than `FAIL` and begins like it has no line change. -/
theorem cstr_of_prefix_fail {d : Text} (h : d <+: "FAIL".toList) :
    replaceLineChange d d.length = d := by
  rw [replaceLineChange_eq_self_iff]
  intro hlast
  have hmem : '\n' ∈ d := (cstr_isPrefix d).subset (List.mem_of_getLast? hlast)
  exact absurd (h.subset hmem) (by decide)

/-- What a command leaves of a reply that is no failure. -/
theorem copied_of_reply {answer : WpaAnswer} {buf d : Text} {room : ℕ}
    (hreply : answer.reply room = some d) (hfail : strStarts d "FAIL".toList = false) :
    ((Reply.mk buf room).answered answer).2.bytes.take ((Reply.mk buf room).answered answer).2.len =
      replaceLineChange d d.length := by
  have hdeliver := deliver_of_reply (r := ⟨buf, room⟩) hreply
  obtain ⟨rest, hrest⟩ := hdeliver.bytes
  have htrim := replaceLineChange_append d rest
  have htrim' := replaceLineChange_append d []
  rw [List.append_nil, List.append_nil] at htrim'
  rw [← htrim'] at htrim
  unfold Reply.answered
  rw [commandResult_len, hdeliver.len]
  unfold commandResult
  rw [hdeliver.result, hrest, if_neg (by decide)]
  by_cases hstale : strStarts (d ++ rest) "FAIL".toList = true
  · -- the failure is read off what the buffer held before
    have hshort : d <+: "FAIL".toList := by
      rw [strStarts_iff] at hstale
      refine (List.prefix_or_prefix_of_prefix hstale (List.prefix_append d rest)).resolve_left ?_
      intro hpre
      rw [strStarts_iff.mpr hpre] at hfail
      cases hfail
    rw [if_pos (Or.inr hstale), hrest, cstr_of_prefix_fail hshort]
    exact List.take_left
  · rw [if_neg (by simpa using hstale)]
    dsimp only
    rw [hdeliver.len, htrim]
    exact List.take_left' (length_replaceLineChange d _)

theorem wifiHalTriggerScan_eq (sc : WifiSoftc) (index : Slot) : wifiHalTriggerScan sc index =
    ask (.uninitBuffer cmdBufferSize) fun buf : CharArray cmdBufferSize =>
      wifiHalSendWpaCommand sc index "SCAN".toList ⟨buf.bytes, cmdBufferSize - 1⟩ >>= fun _ =>
        ret 0 := rfl

theorem wifiHalGetScanResults_eq (sc : WifiSoftc) (index : Slot) :
    wifiHalGetScanResults sc index =
      ask (.uninitBuffer scanBufferSize) fun buf : CharArray scanBufferSize =>
        wifiHalTriggerScan sc index >>= fun _ =>
          wifiHalSendWpaCommand sc index "SCAN_RESULTS".toList
            ⟨buf.bytes, scanBufferSize - 1⟩ >>= fun r => ret (0, r.2.bytes.take r.2.len) := rfl

/-- The request for the results is answered, or there is no reply. -/
theorem after_wifiHalGetScanResults {sc : WifiSoftc} {index : Slot} {t : WifiTranscript}
    {r : ℤ × Text} (hrun : After (wifiHalGetScanResults sc index) t (ret r)) :
    r.1 = 0 ∧ (scanAnswer t = none ∨ ∃ (buf : Text) (answer : WpaAnswer),
      scanAnswer t = some answer ∧
        r.2 = ((Reply.mk buf (scanBufferSize - 1)).answered answer).2.bytes.take
          ((Reply.mk buf (scanBufferSize - 1)).answered answer).2.len) := by
  rw [wifiHalGetScanResults_eq] at hrun
  obtain ⟨buf, t₁, rfl, h₁⟩ := after_ask_iff.mp hrun
  obtain ⟨t₂, _, t₃, rfl, hscan, h₃⟩ := after_bind_iff.mp h₁
  obtain ⟨t₄, x, t₅, rfl, hresults, h₅⟩ := after_bind_iff.mp h₃
  obtain ⟨rfl, rfl⟩ := after_ret_iff.mp h₅
  have hnone : scanAnswer t₂ = none := by
    rw [wifiHalTriggerScan_eq] at hscan
    obtain ⟨buf', t₆, rfl, h₆⟩ := after_ask_iff.mp hscan
    obtain ⟨t₇, y, t₈, rfl, hsend, h₈⟩ := after_bind_iff.mp h₆
    obtain ⟨rfl, -⟩ := after_ret_iff.mp h₈
    rcases after_wifiHalSendWpaCommand hsend with ⟨-, rfl, -⟩ | ⟨-, c, answer, -, rfl, -⟩
    · rfl
    · rfl
  refine ⟨rfl, ?_⟩
  rw [scanAnswer_uninitBuffer, scanAnswer_append hnone]
  rcases after_wifiHalSendWpaCommand hresults with ⟨-, rfl, -⟩ | ⟨-, c, answer, -, rfl, rfl⟩
  · exact Or.inl rfl
  · exact Or.inr ⟨(buf : CharArray scanBufferSize).bytes, answer, rfl, rfl⟩

/-- **What is copied** is the whole answer with its line change replaced, along every run. -/
theorem scan_copied {sc : WifiSoftc} {index : Slot} {t : WifiTranscript} {r : ℤ × Text}
    (hrun : After (wifiHalGetScanResults sc index) t (ret r)) : r.1 = 0 ∧
      ∀ d, scanReply t = some d → d.length < scanBufferSize ∧
        r.2 = replaceLineChange d d.length := by
  obtain ⟨hzero, hanswer⟩ := after_wifiHalGetScanResults hrun
  refine ⟨hzero, ?_⟩
  intro d hd
  unfold scanReply at hd
  rcases hanswer with hnone | ⟨buf, answer, hsome, hr⟩
  · rw [hnone] at hd
    cases hd
  · rw [hsome, Option.bind_some, Option.filter_eq_some_iff] at hd
    obtain ⟨hreply, hfail⟩ := hd
    rw [Bool.not_eq_true'] at hfail
    have hlen : d.length ≤ scanBufferSize - 1 :=
      (deliver_of_reply (r := ⟨buf, scanBufferSize - 1⟩) hreply).length_le
    rw [hr, copied_of_reply hreply hfail]
    refine ⟨?_, rfl⟩
    unfold scanBufferSize at hlen ⊢
    omega

/-- **Results are reported as expected exactly when there is a reply to copy, and its terminator
comes from its line change or from the caller's own buffer.** What the request came to is not looked
at, and no more bytes are copied than the text is long. -/
theorem scan_reported_iff (sc : WifiSoftc) (index : Slot) (caller : CharArray scanBufferSize)
    {t : WifiTranscript} {r : ℤ × Text}
    (hrun : After (wifiHalGetScanResults sc index) t (ret r)) :
    ScanReported t caller r ↔ ScanInOrder t caller := by
  obtain ⟨hzero, hcopied⟩ := scan_copied hrun
  constructor
  · intro h
    cases hreply : scanReply t with
    | none => exact absurd hzero (h.unanswered hreply).1
    | some d =>
      obtain ⟨hd, hr⟩ := hcopied d hreply
      obtain ⟨-, results, hstore, hpre⟩ := h.answered d hreply
      have hlen : r.2.length = d.length := by simp [hr]
      rw [store_zero (by rw [hlen, caller.length_bytes]; omega)] at hstore
      obtain rfl := Option.some.inj hstore
      rw [hlen, hr] at hpre
      exact ⟨d, hreply, (chomp_prefix_iff caller hd).mp hpre⟩
  · intro ⟨d, hreply, hbehind⟩
    obtain ⟨hd, hr⟩ := hcopied d hreply
    have hlen : r.2.length = d.length := by simp [hr]
    refine ⟨?_, fun hnone => absurd (hreply.symm.trans hnone) (by simp)⟩
    intro d' hd'
    obtain rfl := Option.some.inj (hreply.symm.trans hd')
    refine ⟨hzero, _, store_zero ?_, ?_⟩
    · rw [hlen, caller.length_bytes]
      omega
    · rw [hlen, hr]
      exact (chomp_prefix_iff caller hd).mpr hbehind

/-- Both requests are answered by the given datagrams, and the buffers hold zeroes. -/
def scanScript (scanned results : List Text) : (q : WifiQ) → Option (WifiA q)
  | .uninitBuffer size => some (.zero size)
  | .wpaRequest _ cmd =>
    some (.received (if cmd = "SCAN".toList then scanned else results) .timeout)
  | _ => none

/-- A run of `wifi_hal_get_scan_results` for the first radio. -/
def scanRun (results : List Text) : WifiTranscript × WifiM (ℤ × Text) :=
  play (scanScript ["OK\n".toList] results) 10 (wifiHalGetScanResults openSoftc 0)

/-- Results that end in a line change are reported. -/
theorem results_reported : ∃ r, (scanRun ["bssid / frequency\n".toList]).2 = ret r ∧
    ScanReported (scanRun ["bssid / frequency\n".toList]).1 (.zero scanBufferSize) r := by
  refine ⟨_, rfl, (scan_reported_iff openSoftc 0 (.zero scanBufferSize)
    (after_play (scanScript ["OK\n".toList] ["bssid / frequency\n".toList]) 10 _)).mpr ?_⟩
  exact ⟨"bssid / frequency\n".toList, by decide, Or.inl (by decide)⟩

/-- Not every outcome is reported: where no reply comes, the local buffer is handed out as results.
-/
theorem not_all_scans_reported : ¬ ∀ (sc : WifiSoftc) (index : Slot)
    (caller : CharArray scanBufferSize) (t : WifiTranscript) (r : ℤ × Text),
    After (wifiHalGetScanResults sc index) t (ret r) → ScanReported t caller r := by
  intro h
  obtain ⟨r, hr, hzero⟩ : ∃ r, (scanRun []).2 = ret r ∧ r.1 = 0 := ⟨_, rfl, rfl⟩
  have hrun : After (wifiHalGetScanResults openSoftc 0) (scanRun []).1 (ret r) := by
    rw [← hr]
    exact after_play (scanScript ["OK\n".toList] []) 10 _
  exact ((h openSoftc 0 (.zero scanBufferSize) _ _ hrun).unanswered rfl).1 hzero

end RadioHal.Wifi
