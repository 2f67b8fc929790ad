import RadioHal.Wifi.Acknowledged

/-!
# Stations

The dialogue for a station takes a reply to the name of the network that is neither `OK` nor
`FAIL` for a success, does not look at the result of the command for the key, and not at all at
what comes of the last command.

## Main definitions

* `stationSettings` — the commands of `wifi_hal_connect_ap` behind the adding of a network.
* `bufferBehind` — what some answers leave in the buffer.
* `StationHeard` — the answers that lead to no false report.

## Main results

* `station_acknowledged_iff` — **a station is reported to be set up only when its commands have been
  acknowledged, exactly if its answers are such.**
-/

namespace RadioHal.Wifi

open CLib Dialogue

/-- The commands of `wifi_hal_connect_ap` behind the adding of a network. -/
def stationSettings (nwId : Text) (config : WifiConfig) : List Text :=
  [setNetwork nwId ("ssid ".toList ++ quoted config.ssidText),
    setNetwork nwId ("psk ".toList ++ quoted config.keyText),
    "ENABLE_NETWORK ".toList ++ nwId]

/-- What some answers, one after another, leave in the buffer of a dialogue. -/
def bufferBehind (answers : List WpaAnswer) : Reply :=
  answers.foldl (fun r answer => (r.answered answer).2) (.zero respBufferSize)

/-- **Answers that lead to no false report**: that to the name of the network fails or is `OK`, to
the key there is a datagram at all, and the last command is acknowledged. -/
structure StationHeard (answers : List WpaAnswer) : Prop where
  ssid : ∀ a, answers[2]? = some a → ((bufferBehind (answers.take 2)).answered a).1 ≠ 0 ∨
    ((bufferBehind (answers.take 2)).answered a).2.isOk = true
  psk : ∀ a, answers[3]? = some a → a.datagrams ≠ []
  enable : ∀ a, answers[4]? = some a → a.Acknowledged

/-- What is left of the dialogue when a network has been added. -/
def finishStation (nl : Netlink.Libnl NlAttrs) (ctx : WifiContext) (sc : WifiSoftc) (index : Slot)
    (send : Text → Reply → WifiM (ℤ × Reply)) (resp : Reply) : WifiM ℤ := do
  let nwId := networkId resp
  let config ← WifiM.deref (ctx.config index)
  setCard nl sc index config
  let r ← send (setNetwork nwId ("ssid ".toList ++ quoted config.ssidText)) resp
  if r.1 ≠ 0 ∨ r.2.isOk = false then return r.1
  let r ← send (setNetwork nwId ("psk ".toList ++ quoted config.keyText)) r.2
  if r.2.isOk = false then return -1
  let _ ← send ("ENABLE_NETWORK ".toList ++ nwId) r.2
  return 0

theorem wifiHalConnectAp_eq (nl : Netlink.Libnl NlAttrs) (ctx : WifiContext) (sc : WifiSoftc)
    (index : Slot) : wifiHalConnectAp nl ctx sc index = prepareNetwork sc index
      (finishStation nl ctx sc index (wifiHalSendWpaCommand sc index)) := rfl

section Station

variable {nl : Netlink.Libnl NlAttrs} {ctx : WifiContext} {sc : WifiSoftc} {index : Slot}

/-- What the rest of the dialogue comes to, with the requests it makes: the name of the network is
not set, the buffer does not read `OK` behind the key, or the network is enabled. -/
inductive StationEnd (c : Handle) (nwId : Text) (config : WifiConfig) (r : Reply) :
    List Request → ℤ → Prop
  | notSet {a : WpaAnswer} :
      (r.answered a).1 ≠ 0 ∨ (r.answered a).2.isOk = false →
      StationEnd c nwId config r
        [⟨c, setNetwork nwId ("ssid ".toList ++ quoted config.ssidText), a⟩] (r.answered a).1
  | noKey {a b : WpaAnswer} : (r.answered a).1 = 0 → (r.answered a).2.isOk = true →
      ((r.answered a).2.answered b).2.isOk = false →
      StationEnd c nwId config r
        [⟨c, setNetwork nwId ("ssid ".toList ++ quoted config.ssidText), a⟩,
          ⟨c, setNetwork nwId ("psk ".toList ++ quoted config.keyText), b⟩] (-1)
  | enabled {a b e : WpaAnswer} : (r.answered a).1 = 0 → (r.answered a).2.isOk = true →
      ((r.answered a).2.answered b).2.isOk = true →
      StationEnd c nwId config r
        [⟨c, setNetwork nwId ("ssid ".toList ++ quoted config.ssidText), a⟩,
          ⟨c, setNetwork nwId ("psk ".toList ++ quoted config.keyText), b⟩,
          ⟨c, "ENABLE_NETWORK ".toList ++ nwId, e⟩] 0

theorem stationEnd_of_after {c : Handle} {r : Reply} {t : WifiTranscript} {v : ℤ}
    (hrun : After (finishStation nl ctx sc index (sendOver c) r) t (ret v)) :
    ∃ config, ctx.config index = some config ∧
      StationEnd c (networkId r) config r (requestsOf t) v := by
  obtain ⟨t₁, config, t₂, rfl, hderef, hrun₂⟩ := after_bind_iff.mp hrun
  obtain ⟨rfl, hconfig⟩ := after_deref_iff.mp hderef
  refine ⟨config, hconfig, ?_⟩
  obtain ⟨t₃, u, t₄, rfl, hcard, hrun₄⟩ := after_bind_iff.mp hrun₂
  have hnothing := requestsOf_of_unsent (onlyAsks_setCard nl sc index config) hcard
  rw [List.nil_append, requestsOf_append, hnothing, List.nil_append]
  obtain ⟨t₅, x, t₆, rfl, hssid, hrun₆⟩ := after_bind_iff.mp hrun₄
  obtain ⟨a, rfl, rfl⟩ := after_sendOver_iff.mp hssid
  split at hrun₆
  · rename_i hfailed
    obtain ⟨rfl, rfl⟩ := after_ret_iff.mp hrun₆
    exact .notSet hfailed
  rename_i hset
  rw [not_or, not_not, Bool.not_eq_false] at hset
  obtain ⟨t₇, y, t₈, rfl, hpsk, hrun₈⟩ := after_bind_iff.mp hrun₆
  obtain ⟨b, rfl, rfl⟩ := after_sendOver_iff.mp hpsk
  split at hrun₈
  · rename_i hfailed
    obtain ⟨rfl, rfl⟩ := after_ret_iff.mp hrun₈
    exact .noKey hset.1 hset.2 hfailed
  rename_i hkey
  rw [Bool.not_eq_false] at hkey
  obtain ⟨t₉, z, t₁₀, rfl, henable, hrun₁₀⟩ := after_bind_iff.mp hrun₈
  obtain ⟨e, rfl, rfl⟩ := after_sendOver_iff.mp henable
  obtain ⟨rfl, rfl⟩ := after_ret_iff.mp hrun₁₀
  exact .enabled hset.1 hset.2 hkey

theorem exists_of_stationAcknowledged {c : Handle} {config : Option WifiConfig} {t : WifiTranscript}
    (h : SetUpAcknowledged c config stationSettings t) :
    ∃ nwId what before x y z, requestsOf t = before ++ [x, y, z] ∧ x.cmd = setNetwork nwId what ∧
      y.answer.Acknowledged ∧ z.answer.Acknowledged := by
  obtain ⟨nwId, settings, before, after, -, hsplit, -, hall⟩ := h
  cases hall with
  | cons hx hall =>
    cases hall with
    | cons hy hall =>
      cases hall with
      | cons hz hall =>
        cases hall
        exact ⟨nwId, _, before, _, _, _, hsplit, hx.2.1, hy.2.2, hz.2.2⟩

/-- So three requests, of which the first removes the networks, are not enough. -/
theorem not_stationAcknowledged {c c' : Handle} {config : Option WifiConfig} {t : WifiTranscript}
    {a : WpaAnswer} {y z : Request}
    (ht : requestsOf t = [⟨c', "REMOVE_NETWORK all".toList, a⟩, y, z]) :
    ¬ SetUpAcknowledged c config stationSettings t := by
  intro h
  obtain ⟨nwId, what, before, x, y', z', hsplit, hcmd, -⟩ := exists_of_stationAcknowledged h
  rw [ht] at hsplit
  have hlen := congrArg List.length hsplit
  simp only [List.length_append, List.length_cons, List.length_nil] at hlen
  obtain rfl : before = [] := List.length_eq_zero_iff.mp (by omega)
  obtain ⟨hx, -⟩ := List.cons.inj hsplit
  rw [← hx] at hcmd
  have hhead : some 'R' = some 'S' := congrArg List.head? hcmd
  exact absurd hhead (by decide)

/-- Where three answers have come, the third is the one to the name of the network. -/
theorem stationHeard_three {a₀ a₁ a : WpaAnswer} : StationHeard [a₀, a₁, a] ↔
    ((bufferBehind [a₀, a₁]).answered a).1 ≠ 0 ∨
      ((bufferBehind [a₀, a₁]).answered a).2.isOk = true := by
  constructor
  · intro h
    exact h.ssid a rfl
  · intro h
    refine ⟨fun a' ha' => ?_, fun _ hb => absurd hb (by simp), fun _ he => absurd he (by simp)⟩
    obtain rfl := Option.some.inj ha'
    exact h

theorem stationHeard_four {a₀ a₁ a b : WpaAnswer} :
    StationHeard [a₀, a₁, a, b] ↔ StationHeard [a₀, a₁, a] ∧ b.datagrams ≠ [] := by
  constructor
  · intro h
    exact ⟨stationHeard_three.mpr (h.ssid a rfl), h.psk b rfl⟩
  · intro h
    refine ⟨h.1.ssid, fun b' hb' => ?_, fun _ he => absurd he (by simp)⟩
    obtain rfl := Option.some.inj hb'
    exact h.2

/-- And the fifth is the one to the last command. -/
theorem stationHeard_five {a₀ a₁ a b e : WpaAnswer} :
    StationHeard [a₀, a₁, a, b, e] ↔ StationHeard [a₀, a₁, a, b] ∧ e.Acknowledged := by
  constructor
  · intro h
    exact ⟨stationHeard_four.mpr ⟨stationHeard_three.mpr (h.ssid a rfl), h.psk b rfl⟩,
      h.enable e rfl⟩
  · intro h
    refine ⟨h.1.ssid, h.1.psk, fun e' he' => ?_⟩
    obtain rfl := Option.some.inj he'
    exact h.2

/-- What a station whose network was named comes to. -/
theorem stationAcknowledged_iff_of_end {c : Handle} {config : WifiConfig} {nwId : Text}
    {r : Reply} {a₀ a₁ : WpaAnswer} {t t' : WifiTranscript} {v : ℤ} (hroom : 2 ≤ r.len)
    (hr : r = bufferBehind [a₀, a₁]) (hproper : ProperAnswers t')
    (ht : requestsOf t = ⟨c, "REMOVE_NETWORK all".toList, a₀⟩ ::
      ⟨c, "ADD_NETWORK".toList, a₁⟩ :: requestsOf t')
    (hend : StationEnd c nwId config r (requestsOf t') v) :
    (v = 0 → SetUpAcknowledged c (some config) stationSettings t) ↔ StationHeard (answersOf t) := by
  have hanswers : answersOf t = a₀ :: a₁ :: answersOf t' := by
    unfold answersOf
    rw [ht]
    rfl
  have hproper' := hproper.forall_requestsOf
  rw [hanswers]
  unfold answersOf
  generalize requestsOf t' = requests at hend ht hproper'
  cases hend with
  | @notSet a hfailed =>
    show _ ↔ StationHeard [a₀, a₁, a]
    rw [stationHeard_three, ← hr]
    constructor
    · intro h
      left
      intro hzero
      -- a reply that is neither `OK` nor a failure
      exact not_stationAcknowledged ht (h hzero)
    · intro h hzero
      have hok := h.resolve_left (not_not.mpr hzero)
      have hnot := hfailed.resolve_left (not_not.mpr hzero)
      exact absurd (hok.symm.trans hnot) (by simp)
  | @noKey a b hset hok hkey =>
    show _ ↔ StationHeard [a₀, a₁, a, b]
    rw [stationHeard_four, stationHeard_three, ← hr]
    refine iff_of_true (fun hzero => absurd hzero (by decide)) ⟨Or.inr hok, ?_⟩
    -- without a datagram the buffer would still read `OK`
    intro hsilent
    rw [(Reply.answered_of_silent hsilent).2, hok] at hkey
    exact absurd hkey (by simp)
  | @enabled a b e hset hok hkey =>
    show _ ↔ StationHeard [a₀, a₁, a, b, e]
    rw [stationHeard_five, stationHeard_four, stationHeard_three, ← hr]
    have hpropers : a.Proper ∧ b.Proper := ⟨hproper' _ List.mem_cons_self,
      hproper' _ (List.mem_cons_of_mem _ List.mem_cons_self)⟩
    have hroom' := Reply.two_le_answered_len hroom hpropers.1
    constructor
    · intro h
      obtain ⟨nwId', what, before, x, y, z, hsplit, -, hy, hz⟩ :=
        exists_of_stationAcknowledged (h rfl)
      rw [ht] at hsplit
      obtain ⟨-, hlast⟩ := List.append_inj' (show [_, _] ++ _ = _ from hsplit) rfl
      obtain ⟨-, hlast₂⟩ := List.cons.inj hlast
      obtain ⟨rfl, hlast₁⟩ := List.cons.inj hlast₂
      obtain rfl := List.singleton_inj.mp hlast₁
      refine ⟨⟨Or.inr hok, fun hsilent => ?_⟩, hz⟩
      obtain ⟨d, hd, -⟩ := hy
      rw [hsilent] at hd
      exact absurd hd (by simp)
    · intro h _
      refine ⟨nwId, config, [⟨c, _, a₀⟩, ⟨c, _, a₁⟩], _, rfl, ht, ?_, ?_⟩
      · intro request hmem
        rcases List.mem_pair.mp hmem with rfl | rfl
        · exact List.mem_cons_self
        · exact List.mem_cons_of_mem _ List.mem_cons_self
      · refine .cons ⟨rfl, rfl, ?_⟩ (.cons ⟨rfl, rfl, ?_⟩ (.cons ⟨rfl, rfl, ?_⟩ .nil))
        · exact Reply.acknowledged_of_isOk hroom hpropers.1 hset hok
        · exact Reply.acknowledged_of_heard hroom' hpropers.2 h.1.2 hkey
        · exact h.2

/-- Without a third answer there is nothing to hear. -/
theorem stationHeard_of_length_le {answers : List WpaAnswer} (h : answers.length ≤ 2) :
    StationHeard answers := by
  have hnone : ∀ k, 2 ≤ k → answers[k]? = none := fun k hk =>
    List.getElem?_eq_none_iff.mpr (h.trans hk)
  constructor
  · intro a ha
    rw [hnone 2 le_rfl] at ha
    exact absurd ha (by simp)
  · intro a ha
    rw [hnone 3 (by omega)] at ha
    exact absurd ha (by simp)
  · intro a ha
    rw [hnone 4 (by omega)] at ha
    exact absurd ha (by simp)

/-- **A station is reported to be set up only when its commands have been acknowledged, exactly if
its answers lead to no false report.** -/
theorem station_acknowledged_iff (nl : Netlink.Libnl NlAttrs) (ctx : WifiContext) (sc : WifiSoftc)
    (index : Slot) (t : WifiTranscript) (v : ℤ) (hproper : ProperAnswers t)
    (hrun : After (wifiHalConnectAp nl ctx sc index) t (ret v)) :
    (v = 0 → ∃ c, (sc.wpaCtx index).ctrl = some c ∧
      SetUpAcknowledged c (ctx.config index) stationSettings t) ↔ StationHeard (answersOf t) := by
  rw [wifiHalConnectAp_eq] at hrun
  cases prepared_of_after hrun with
  | unattached =>
    exact ⟨fun _ => stationHeard_of_length_le (by simp [answersOf]),
      fun _ h => absurd h (by decide)⟩
  | notRemoved _ hneg =>
    exact ⟨fun _ => stationHeard_of_length_le (by simp [answersOf]), fun _ h => absurd h hneg.ne⟩
  | notAdded _ _ hneg =>
    exact ⟨fun _ => stationHeard_of_length_le (by simp [answersOf]), fun _ h => absurd h hneg.ne⟩
  | @added c a₀ a₁ t v hmonitor hctrl _ _ hrest =>
    rw [wifiHalSendWpaCommand_of_ctrl hmonitor hctrl] at hrest
    obtain ⟨config, hconfig, hend⟩ := stationEnd_of_after hrest
    obtain ⟨hproper₁, hproper₂⟩ := ProperAnswers.of_append
      (t := [⟨.wpaRequest c "REMOVE_NETWORK all".toList, a₀⟩,
        ⟨.wpaRequest c "ADD_NETWORK".toList, a₁⟩]) hproper
    have hroom := Reply.two_le_answered_len
      (Reply.two_le_answered_len two_le_zero_len (hproper₁ a₀ List.mem_cons_self))
      (hproper₁ a₁ (List.mem_cons_of_mem _ List.mem_cons_self))
    refine Iff.trans ?_ (stationAcknowledged_iff_of_end hroom rfl hproper₂ rfl hend)
    rw [hconfig]
    constructor
    · intro h hzero
      obtain ⟨c', hctrl', hset⟩ := h hzero
      obtain rfl : c = c' := Option.some.inj (hctrl.symm.trans hctrl')
      exact hset
    · intro h hzero
      exact ⟨c, hctrl, h hzero⟩

/-- Where wpa_supplicant is attached, a station can be reported to be set up whatever comes of the
last command. -/
theorem exists_wifiHalConnectAp (nl : Netlink.Libnl NlAttrs) (ctx : WifiContext)
    (hmonitor : (sc.wpaCtx index).monitor ≠ none) (hctrl : (sc.wpaCtx index).ctrl ≠ none)
    (hconfig : ctx.config index ≠ none) (enable : WpaAnswer) :
    ∃ t, After (wifiHalConnectAp nl ctx sc index) t (ret 0) ∧
      answersOf t = [okAnswer, okAnswer, okAnswer, okAnswer, enable] := by
  obtain ⟨c, hctrl⟩ := Option.ne_none_iff_exists'.mp hctrl
  obtain ⟨config, hconfig⟩ := Option.ne_none_iff_exists'.mp hconfig
  have hrest : ∀ r : Reply, 2 ≤ r.len →
      ∃ t, After (finishStation nl ctx sc index (sendOver c) r) t (ret 0) ∧
        answersOf t = [okAnswer, okAnswer, enable] := by
    intro r hroom
    obtain ⟨r₁, hanswered₁, hok₁, hroom₁⟩ := answered_okAnswer hroom
    obtain ⟨r₂, hanswered₂, hok₂, -⟩ := answered_okAnswer hroom₁
    obtain ⟨t, hcard⟩ := exists_setCard nl sc index config
    refine ⟨t ++ [⟨.wpaRequest c (setNetwork (networkId r) ("ssid ".toList ++
        quoted config.ssidText)), okAnswer⟩, ⟨.wpaRequest c (setNetwork (networkId r)
        ("psk ".toList ++ quoted config.keyText)), okAnswer⟩,
      ⟨.wpaRequest c ("ENABLE_NETWORK ".toList ++ networkId r), enable⟩], ?_, ?_⟩
    · refine after_bind_iff.mpr ⟨[], config, _, rfl, after_deref_iff.mpr ⟨rfl, hconfig⟩, ?_⟩
      refine after_bind_iff.mpr ⟨t, (), _, rfl, hcard, ?_⟩
      refine after_bind_iff.mpr ⟨[_], (0, r₁), _, rfl, after_sendOver_of_ok hanswered₁, ?_⟩
      rw [if_neg (by simp [hok₁])]
      refine after_bind_iff.mpr ⟨[_], (0, r₂), _, rfl, after_sendOver_of_ok hanswered₂, ?_⟩
      rw [if_neg (by simp [hok₂])]
      exact after_bind_iff.mpr
        ⟨[_], _, [], rfl, after_sendOver_iff.mpr ⟨enable, rfl, rfl⟩, .start _⟩
    · unfold answersOf
      rw [requestsOf_append, requestsOf_of_unsent (onlyAsks_setCard nl sc index config) hcard]
      rfl
  rw [wifiHalConnectAp_eq, wifiHalSendWpaCommand_of_ctrl hmonitor hctrl]
  obtain ⟨t, answers, hrun, rfl, hanswers⟩ := exists_prepareNetwork hmonitor hctrl
    (P := fun answers => answers = [okAnswer, okAnswer, enable]) hrest
  exact ⟨t, hrun, hanswers⟩

/-- A station can come up with all its commands acknowledged. -/
theorem station_acknowledged : ∃ t,
    After (wifiHalConnectAp .standard ⟨fun _ => some .zero⟩ openSoftc 0) t (ret 0) ∧
      ∃ c, (openSoftc.wpaCtx 0).ctrl = some c ∧
        SetUpAcknowledged c (some .zero) stationSettings t := by
  obtain ⟨t, hrun, hanswers⟩ := exists_wifiHalConnectAp .standard ⟨fun _ => some .zero⟩
    (openSoftc_open 0).2 (openSoftc_open 0).1 (Option.some_ne_none _) okAnswer
  have hall : AllOk t := by
    intro answer hmem
    rw [hanswers] at hmem
    simpa using hmem
  have hheard : StationHeard (answersOf t) := by
    rw [hanswers, stationHeard_five, stationHeard_four, stationHeard_three]
    exact ⟨⟨Or.inr rfl, List.cons_ne_nil _ _⟩, "OK".toList, rfl, rfl⟩
  exact ⟨t, hrun, (station_acknowledged_iff .standard ⟨fun _ => some .zero⟩ openSoftc 0 t 0
    hall.proper hrun).mpr hheard rfl⟩

/-- Not every station that is reported to be set up is: the last command may not even be sent. -/
theorem not_all_stations_acknowledged : ¬ ∀ (nl : Netlink.Libnl NlAttrs) (ctx : WifiContext)
    (sc : WifiSoftc) (index : Slot) (t : WifiTranscript) (v : ℤ), ProperAnswers t →
    After (wifiHalConnectAp nl ctx sc index) t (ret v) → v = 0 →
    ∃ c, (sc.wpaCtx index).ctrl = some c ∧
      SetUpAcknowledged c (ctx.config index) stationSettings t := by
  intro h
  obtain ⟨t, hrun, hanswers⟩ := exists_wifiHalConnectAp .standard ⟨fun _ => some .zero⟩
    (openSoftc_open 0).2 (openSoftc_open 0).1 (Option.some_ne_none _) .sendFailed
  have hproper : ProperAnswers t := by
    intro answer hmem
    rw [hanswers] at hmem
    simp only [List.mem_cons, List.not_mem_nil, or_false] at hmem
    rcases hmem with rfl | rfl | rfl | rfl | rfl
    · exact okAnswer_proper
    · exact okAnswer_proper
    · exact okAnswer_proper
    · exact okAnswer_proper
    · exact fun _ hd => absurd hd List.not_mem_nil
  obtain ⟨c, -, hset⟩ := h _ _ _ _ t 0 hproper hrun rfl
  obtain ⟨nwId, what, before, x, y, z, hsplit, -, -, hz⟩ := exists_of_stationAcknowledged hset
  unfold answersOf at hanswers
  rw [hsplit, List.map_append] at hanswers
  obtain ⟨-, hlast⟩ := List.append_inj' (hanswers.trans
    (show _ = [okAnswer, okAnswer] ++ [okAnswer, okAnswer, .sendFailed] from rfl)) rfl
  obtain ⟨d, hd, -⟩ := hz
  have hfailed : z.answer = .sendFailed := by simpa using congrArg List.getLast? hlast
  rw [hfailed] at hd
  exact absurd hd (by simp [WpaAnswer.datagrams])

end Station

end RadioHal.Wifi
