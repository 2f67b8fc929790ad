import RadioHal.Wifi.Frame
import RadioHal.Wifi.Replies

/-!
# Commands and their answers

A dialogue that sets a network up is seen from wpa_supplicant as a list of requests, each with
what came of it.  Behind the checks on the connections every command is one request, and what is
made of its answer depends on the buffer that the earlier answers have left.

## Main definitions

* `Request`, `requestsOf` — the requests of a dialogue with their answers.
* `sendOver` — a command on a connection that is open.
* `Accepts` — requests for commands that were all accepted.
* `prepareNetwork`, `finishSetUp` — what the dialogues have in common.
* `Prepared` — what preparing a network comes to.

## Main results

* `accepts_of_okCommands` — commands that go well have all been accepted.
* `Accepts.acknowledged` — **and they have all been acknowledged.**
-/

namespace RadioHal.Wifi

open CLib Dialogue

/-! ### Requests -/

/-- A request to wpa_supplicant, and what came of it. -/
structure Request where
  ctrl : Handle
  cmd : Text
  answer : WpaAnswer
  deriving DecidableEq

/-- The requests of a dialogue, in order. -/
def requestsOf (t : WifiTranscript) : List Request :=
  t.filterMap fun x =>
    match x with
    | ⟨.wpaRequest ctrl cmd, answer⟩ => some ⟨ctrl, cmd, answer⟩
    | _ => none

@[simp] theorem requestsOf_nil : requestsOf [] = [] := rfl

@[simp] theorem requestsOf_append (t t' : WifiTranscript) :
    requestsOf (t ++ t') = requestsOf t ++ requestsOf t' := List.filterMap_append

@[simp] theorem requestsOf_cons_wpaRequest (c : Handle) (cmd : Text) (answer : WpaAnswer)
    (t : WifiTranscript) : requestsOf (⟨.wpaRequest c cmd, answer⟩ :: t) =
      ⟨c, cmd, answer⟩ :: requestsOf t := rfl

/-- A request of a dialogue is one of its exchanges. -/
theorem mem_of_mem_requestsOf {t : WifiTranscript} {request : Request}
    (h : request ∈ requestsOf t) :
    (⟨.wpaRequest request.ctrl request.cmd, request.answer⟩ : Exchange WifiQ WifiA) ∈ t := by
  obtain ⟨⟨q, a⟩, hmem, hrequest⟩ := List.mem_filterMap.mp h
  cases q with
  | wpaRequest ctrl cmd =>
    obtain rfl := Option.some.inj hrequest
    exact hmem
  | _ => exact absurd hrequest (by simp)

theorem requestsOf_of_unsent {α : Type} {p : WifiM α} (hp : OnlyAsks WifiQ.Unsent p)
    {t : WifiTranscript} {a : α} (hrun : After p t (ret a)) : requestsOf t = [] := by
  refine List.filterMap_eq_nil_iff.mpr fun x hx => ?_
  have hunsent := hp.of_mem hrun x hx
  obtain ⟨q, a⟩ := x
  cases q <;> first | rfl | exact hunsent.elim

/-- The answers to the requests of a dialogue. -/
def answersOf (t : WifiTranscript) : List WpaAnswer := (requestsOf t).map (·.answer)

/-- Every datagram of a dialogue has the two bytes of an `OK`. -/
def ProperAnswers (t : WifiTranscript) : Prop := ∀ answer ∈ answersOf t, answer.Proper

/-! ### Connections that are open -/

/-- A command on a connection that is open. -/
def sendOver (c : Handle) (cmd : Text) (r : Reply) : WifiM (ℤ × Reply) :=
  ask (.wpaRequest c cmd) fun answer => ret (r.answered answer)

theorem after_sendOver_iff {c : Handle} {cmd : Text} {r : Reply} {t : WifiTranscript}
    {x : ℤ × Reply} : After (sendOver c cmd r) t (ret x) ↔
      ∃ answer, t = [⟨.wpaRequest c cmd, answer⟩] ∧ x = r.answered answer := by
  unfold sendOver
  rw [after_ask_iff]
  refine exists_congr fun answer => ?_
  constructor
  · rintro ⟨t', rfl, hrun⟩
    obtain ⟨rfl, rfl⟩ := after_ret_iff.mp hrun
    exact ⟨rfl, rfl⟩
  · rintro ⟨rfl, rfl⟩
    exact ⟨[], rfl, .start _⟩

theorem exists_after_sendOver {α : Type} {c : Handle} {cmd : Text} {r : Reply}
    {f : ℤ × Reply → WifiM α} {answer : WpaAnswer} {t : WifiTranscript}
    (h : ∃ p, After (f (r.answered answer)) t p) :
    ∃ p, After (sendOver c cmd r >>= f) (⟨.wpaRequest c cmd, answer⟩ :: t) p :=
  exists_after_ask h

section Connections

variable {sc : WifiSoftc} {index : Slot}

theorem wifiHalSendWpaCommand_of_no_monitor (h : (sc.wpaCtx index).monitor = none) (cmd : Text)
    (r : Reply) : wifiHalSendWpaCommand sc index cmd r = ret (-1, r) := by
  unfold wifiHalSendWpaCommand
  rw [if_pos h]
  rfl

theorem wifiHalSendWpaCommand_of_ctrl (hmonitor : (sc.wpaCtx index).monitor ≠ none) {c : Handle}
    (hctrl : (sc.wpaCtx index).ctrl = some c) : wifiHalSendWpaCommand sc index = sendOver c := by
  funext cmd r
  unfold wifiHalSendWpaCommand
  rw [if_neg hmonitor, hctrl]
  rfl

theorem wifiHalSendWpaCommand_of_no_ctrl (hmonitor : (sc.wpaCtx index).monitor ≠ none)
    (hctrl : (sc.wpaCtx index).ctrl = none) (cmd : Text) (r : Reply) :
    wifiHalSendWpaCommand sc index cmd r = ask .nullDeref Empty.elim := by
  unfold wifiHalSendWpaCommand
  rw [if_neg hmonitor, hctrl]
  exact congrArg (ask _) (funext fun e => e.elim)

/-- A command over a control connection that is missing is not come back from. -/
theorem not_after_wifiHalSendWpaCommand (hmonitor : (sc.wpaCtx index).monitor ≠ none)
    (hctrl : (sc.wpaCtx index).ctrl = none) {cmd : Text} {r : Reply} {t : WifiTranscript}
    {x : ℤ × Reply} : ¬ After (wifiHalSendWpaCommand sc index cmd r) t (ret x) := by
  intro hrun
  rw [wifiHalSendWpaCommand_of_no_ctrl hmonitor hctrl] at hrun
  obtain ⟨e, -⟩ := after_ask_iff.mp hrun
  exact e.elim

/-- So a command is not sent, or it is one request. -/
theorem after_wifiHalSendWpaCommand {cmd : Text} {r : Reply} {t : WifiTranscript} {x : ℤ × Reply}
    (hrun : After (wifiHalSendWpaCommand sc index cmd r) t (ret x)) :
    ((sc.wpaCtx index).monitor = none ∧ t = [] ∧ x = (-1, r)) ∨
      (sc.wpaCtx index).monitor ≠ none ∧ ∃ c answer, (sc.wpaCtx index).ctrl = some c ∧
        t = [⟨.wpaRequest c cmd, answer⟩] ∧ x = r.answered answer := by
  by_cases hmonitor : (sc.wpaCtx index).monitor = none
  · left
    rw [wifiHalSendWpaCommand_of_no_monitor hmonitor] at hrun
    obtain ⟨ht, hx⟩ := after_ret_iff.mp hrun
    exact ⟨hmonitor, ht, hx⟩
  · right
    cases hctrl : (sc.wpaCtx index).ctrl with
    | none => exact absurd hrun (not_after_wifiHalSendWpaCommand hmonitor hctrl)
    | some c =>
      rw [wifiHalSendWpaCommand_of_ctrl hmonitor hctrl] at hrun
      obtain ⟨answer, ht, hx⟩ := after_sendOver_iff.mp hrun
      exact ⟨hmonitor, c, answer, rfl, ht, hx⟩

theorem wifiHalSendWpaMeshCommand_of_meshCtrl {c : Handle}
    (hmesh : (sc.wpaCtx index).meshCtrl = some c) :
    wifiHalSendWpaMeshCommand sc index = sendOver c := by
  funext cmd r
  unfold wifiHalSendWpaMeshCommand
  rw [hmesh]
  rfl

end Connections

theorem after_deref_iff {α : Type} {x : Option α} {t : WifiTranscript} {a : α} :
    After (WifiM.deref x) t (ret a) ↔ t = [] ∧ x = some a := by
  cases x with
  | none =>
    constructor
    · intro hrun
      obtain ⟨e, -⟩ := after_ask_iff.mp hrun
      exact e.elim
    · rintro ⟨-, h⟩
      exact absurd h (by simp)
  | some b =>
    rw [WifiM.deref_some, after_ret_iff, Option.some.injEq]
    exact and_congr_right fun _ => eq_comm

/-! ### Commands that must be acknowledged -/

/-- The requests for some commands, all of them with an answer that was accepted, and the buffer
behind them. -/
inductive Accepts (c : Handle) : List Text → Reply → List Request → Reply → Prop
  | nil (r : Reply) : Accepts c [] r [] r
  | cons {cmd : Text} {cmds : List Text} {r r' : Reply} {answer : WpaAnswer}
      {requests : List Request} : (r.answered answer).1 = 0 →
      (r.answered answer).2.isOk = true → Accepts c cmds (r.answered answer).2 requests r' →
      Accepts c (cmd :: cmds) r (⟨c, cmd, answer⟩ :: requests) r'

theorem accepts_of_okCommands {c : Handle} {cmds : List Text} {r r' : Reply} {t : WifiTranscript}
    (hrun : After (okCommands (sendOver c) cmds r) t (ret (some r'))) :
    Accepts c cmds r (requestsOf t) r' := by
  induction cmds generalizing r t with
  | nil =>
    obtain ⟨rfl, hr⟩ := after_ret_iff.mp hrun
    obtain rfl := Option.some.inj hr
    exact .nil r'
  | cons cmd cmds ih =>
    obtain ⟨t₁, x, t₂, rfl, hsend, hrest⟩ := after_bind_iff.mp hrun
    obtain ⟨answer, rfl, rfl⟩ := after_sendOver_iff.mp hsend
    split at hrest
    · exact absurd (after_ret_iff.mp hrest).2 (by simp)
    · rename_i haccepted
      rw [not_or, not_not, Bool.not_eq_false] at haccepted
      rw [requestsOf_append]
      exact .cons haccepted.1 haccepted.2 (ih hrest)

/-- A request for a command over a connection that was acknowledged. -/
def Acknowledges (c : Handle) (cmd : Text) (request : Request) : Prop :=
  request.ctrl = c ∧ request.cmd = cmd ∧ request.answer.Acknowledged

/-- Commands that are accepted have been acknowledged, whatever the earlier answers have left in
the buffer. -/
theorem Accepts.acknowledged {c : Handle} {cmds : List Text} {r r' : Reply}
    {requests : List Request} (h : Accepts c cmds r requests r') (hroom : 2 ≤ r.len)
    (hproper : ∀ request ∈ requests, request.answer.Proper) :
    List.Forall₂ (Acknowledges c) cmds requests ∧ 2 ≤ r'.len := by
  induction h with
  | nil r => exact ⟨.nil, hroom⟩
  | cons hresult hok _ ih =>
    obtain ⟨hanswer, hrest⟩ := List.forall_mem_cons.mp hproper
    obtain ⟨hall, hroom'⟩ := ih (Reply.two_le_answered_len hroom hanswer) hrest
    exact ⟨.cons ⟨rfl, rfl, Reply.acknowledged_of_isOk hroom hanswer hresult hok⟩ hall, hroom'⟩

/-! ### The dialogues in their parts -/

section Parts

variable (nl : Netlink.Libnl NlAttrs) (ctx : WifiContext) (sc : WifiSoftc) (index : Slot)

/-- What the dialogues for an access point and for a station begin with. -/
def prepareNetwork (rest : Reply → WifiM ℤ) : WifiM ℤ := do
  let r ← wifiHalSendWpaCommand sc index "REMOVE_NETWORK all".toList (.zero respBufferSize)
  if r.1 < 0 then return r.1
  let r ← wifiHalSendWpaCommand sc index "ADD_NETWORK".toList r.2
  if r.1 < 0 then return r.1
  rest r.2

/-- What the dialogues for an access point and for a mesh do behind the adding of a network. -/
def finishSetUp (send : Text → Reply → WifiM (ℤ × Reply)) (modeCmd : Text)
    (settings : WifiConfig → List Text) (resp : Reply) : WifiM ℤ := do
  let mode ← okCommands send [modeCmd] resp
  match mode with
  | none => return -1
  | some resp =>
    let config ← WifiM.deref (ctx.config index)
    setCard nl sc index config
    let done ← okCommands send (settings config) resp
    return if done = none then -1 else 0

/-- The commands of `wifi_hal_create_ap` behind the one for the mode. -/
def apSettings (nwId : Text) (config : WifiConfig) : List Text :=
  [setNetwork nwId ("ssid ".toList ++ quoted config.ssidText),
    setNetwork nwId ("frequency ".toList ++ config.freqText),
    setNetwork nwId "key_mgmt WPA-PSK".toList,
    setNetwork nwId ("psk ".toList ++ quoted config.keyText),
    "ENABLE_NETWORK ".toList ++ nwId]

/-- The commands of `wifi_hal_join_mesh` behind the one for the mode. -/
def meshSettings (nwId : Text) (config : WifiConfig) : List Text :=
  [setNetwork nwId ("ssid ".toList ++ quoted config.ssidText),
    setNetwork nwId ("frequency ".toList ++ config.freqText),
    setNetwork nwId ("key_mgmt ".toList ++ config.encText),
    setNetwork nwId ("psk ".toList ++ quoted config.keyText),
    "MESH_GROUP_ADD ".toList ++ nwId]

theorem wifiHalCreateAp_eq : wifiHalCreateAp nl ctx sc index =
    prepareNetwork sc index fun r => finishSetUp nl ctx sc index (wifiHalSendWpaCommand sc index)
      (setNetwork (networkId r) "mode 2".toList) (apSettings (networkId r)) r := rfl

theorem joinMeshNetwork_eq : joinMeshNetwork nl ctx sc index = (do
    let r ← wifiHalSendWpaCommand sc index "REMOVE_NETWORK all".toList (.zero respBufferSize)
    let r ← wifiHalSendWpaMeshCommand sc index "ADD_NETWORK".toList r.2
    if r.1 < 0 then return -1
    finishSetUp nl ctx sc index (wifiHalSendWpaMeshCommand sc index)
      (setNetwork (networkId r.2) "mode 5".toList) (meshSettings (networkId r.2)) r.2) := rfl

end Parts

/-- What preparing a network comes to: wpa_supplicant is not attached, the networks are not removed,
none is added, or the dialogue goes on. -/
inductive Prepared (sc : WifiSoftc) (index : Slot) (rest : Reply → WifiM ℤ) :
    WifiTranscript → ℤ → Prop
  | unattached : (sc.wpaCtx index).monitor = none → Prepared sc index rest [] (-1)
  | notRemoved {c : Handle} {a : WpaAnswer} : (sc.wpaCtx index).monitor ≠ none →
      ((Reply.zero respBufferSize).answered a).1 < 0 →
      Prepared sc index rest [⟨.wpaRequest c "REMOVE_NETWORK all".toList, a⟩]
        ((Reply.zero respBufferSize).answered a).1
  | notAdded {c : Handle} {a b : WpaAnswer} : (sc.wpaCtx index).monitor ≠ none →
      0 ≤ ((Reply.zero respBufferSize).answered a).1 →
      (((Reply.zero respBufferSize).answered a).2.answered b).1 < 0 →
      Prepared sc index rest [⟨.wpaRequest c "REMOVE_NETWORK all".toList, a⟩,
        ⟨.wpaRequest c "ADD_NETWORK".toList, b⟩]
        (((Reply.zero respBufferSize).answered a).2.answered b).1
  | added {c : Handle} {a b : WpaAnswer} {t : WifiTranscript} {v : ℤ} :
      (sc.wpaCtx index).monitor ≠ none → (sc.wpaCtx index).ctrl = some c →
      0 ≤ ((Reply.zero respBufferSize).answered a).1 →
      0 ≤ (((Reply.zero respBufferSize).answered a).2.answered b).1 →
      After (rest (((Reply.zero respBufferSize).answered a).2.answered b).2) t (ret v) →
      Prepared sc index rest (⟨.wpaRequest c "REMOVE_NETWORK all".toList, a⟩ ::
        ⟨.wpaRequest c "ADD_NETWORK".toList, b⟩ :: t) v

theorem prepared_of_after {sc : WifiSoftc} {index : Slot} {rest : Reply → WifiM ℤ}
    {t : WifiTranscript} {v : ℤ} (hrun : After (prepareNetwork sc index rest) t (ret v)) :
    Prepared sc index rest t v := by
  obtain ⟨t₁, r₁, t₂, rfl, hremove, hrun₂⟩ := after_bind_iff.mp hrun
  rcases after_wifiHalSendWpaCommand hremove with ⟨hmonitor, rfl, rfl⟩ |
    ⟨hmonitor, c, a, hctrl, rfl, rfl⟩
  · obtain ⟨rfl, rfl⟩ := after_ret_iff.mp hrun₂
    exact .unattached hmonitor
  split at hrun₂
  · rename_i hneg
    obtain ⟨rfl, rfl⟩ := after_ret_iff.mp hrun₂
    exact .notRemoved hmonitor hneg
  rename_i hremoved
  obtain ⟨t₃, r₂, t₄, rfl, hadd, hrun₄⟩ := after_bind_iff.mp hrun₂
  rw [wifiHalSendWpaCommand_of_ctrl hmonitor hctrl] at hadd
  obtain ⟨b, rfl, rfl⟩ := after_sendOver_iff.mp hadd
  split at hrun₄
  · rename_i hneg
    obtain ⟨rfl, rfl⟩ := after_ret_iff.mp hrun₄
    exact .notAdded hmonitor (not_lt.mp hremoved) hneg
  · rename_i hadded
    exact .added hmonitor hctrl (not_lt.mp hremoved) (not_lt.mp hadded) hrun₄

/-- Joining a mesh, which fails without a connection for it. -/
theorem after_wifiHalJoinMesh {nl : Netlink.Libnl NlAttrs} {ctx : WifiContext} {sc : WifiSoftc}
    {index : Slot} {t : WifiTranscript} {r : WifiSoftc × ℤ}
    (hrun : After (wifiHalJoinMesh nl ctx sc index) t (ret r)) :
    (t = [⟨.wpaOpen (sockPath sc index), none⟩] ∧ r.2 = -1) ∨
      ∃ c t', t = ⟨.wpaOpen (sockPath sc index), some c⟩ :: t' ∧
        r.1.wpaCtx index = { sc.wpaCtx index with meshCtrl := some c } ∧
        After (joinMeshNetwork nl ctx r.1 index) t' (ret r.2) := by
  obtain ⟨meshCtrl, t₁, rfl, hrun₁⟩ := after_ask_iff.mp hrun
  cases meshCtrl with
  | none =>
    left
    have hret : After (ret (sc.setWpaCtx index { sc.wpaCtx index with meshCtrl := none }, -1)) t₁
        (ret r) := hrun₁
    obtain ⟨rfl, rfl⟩ := after_ret_iff.mp hret
    exact ⟨rfl, rfl⟩
  | some c =>
    right
    have hjoin : After (joinMeshNetwork nl ctx (sc.setWpaCtx index
        { sc.wpaCtx index with meshCtrl := some c }) index >>= fun v => ret (sc.setWpaCtx index
        { sc.wpaCtx index with meshCtrl := some c }, v)) t₁ (ret r) := hrun₁
    obtain ⟨t₂, v, t₃, rfl, hjoined, hret⟩ := after_bind_iff.mp hjoin
    obtain ⟨rfl, rfl⟩ := after_ret_iff.mp hret
    rw [List.append_nil]
    exact ⟨c, t₂, rfl, Function.update_self .., hjoined⟩

/-! ### Dialogues in which all goes well -/

/-- An answer that is accepted by every command. -/
def okAnswer : WpaAnswer := .received ["OK".toList] .timeout

theorem okAnswer_proper : okAnswer.Proper := by
  intro d hd
  obtain rfl := List.mem_singleton.mp hd
  exact le_rfl

/-- It is accepted, whatever the earlier answers have left in the buffer. -/
theorem answered_okAnswer {r : Reply} (hroom : 2 ≤ r.len) :
    ∃ r', r.answered okAnswer = (0, r') ∧ r'.isOk = true ∧ 2 ≤ r'.len := by
  have hreply : okAnswer.reply r.len = some "OK".toList := by
    unfold WpaAnswer.reply okAnswer
    have htake : "OK".toList.take r.len = "OK".toList := List.take_of_length_le hroom
    simp only [List.map_cons, List.map_nil, htake]
    rfl
  obtain ⟨hresult, hlen, ⟨rest, hbytes⟩, -⟩ := deliver_of_reply hreply
  have hcut : replaceLineChange ("OK".toList ++ rest) 2 = "OK".toList ++ rest := rfl
  refine ⟨⟨"OK".toList ++ rest, 2⟩, ?_, rfl, le_rfl⟩
  · unfold Reply.answered commandResult
    rw [hresult, if_neg (by decide), hbytes, if_neg, hlen]
    · exact congrArg (fun b => ((0 : ℤ), Reply.mk b _)) hcut
    · rintro (hneg | hfail)
      · exact absurd hneg (by decide)
      · exact absurd hfail (by simp [strStarts])

section Succeeding

variable (nl : Netlink.Libnl NlAttrs) (ctx : WifiContext) {sc : WifiSoftc} {index : Slot}

/-- All requests of a dialogue were answered by `OK`. -/
def AllOk (t : WifiTranscript) : Prop := ∀ answer ∈ answersOf t, answer = okAnswer

theorem AllOk.proper {t : WifiTranscript} (h : AllOk t) : ProperAnswers t := by
  intro answer hmem
  rw [h answer hmem]
  exact okAnswer_proper

theorem AllOk.append {t t' : WifiTranscript} (h : AllOk t) (h' : AllOk t') : AllOk (t ++ t') := by
  unfold AllOk answersOf at *
  rw [requestsOf_append, List.map_append, List.forall_mem_append]
  exact ⟨h, h'⟩

theorem after_sendOver_of_ok {c : Handle} {cmd : Text} {r r' : Reply}
    (h : r.answered okAnswer = (0, r')) :
    After (sendOver c cmd r) [⟨.wpaRequest c cmd, okAnswer⟩] (ret (0, r')) :=
  after_sendOver_iff.mpr ⟨okAnswer, rfl, h.symm⟩

/-- What the card is told cannot be sent, which is only warned about. -/
theorem exists_setCard (sc : WifiSoftc) (index : Slot) (config : WifiConfig) :
    ∃ t, After (setCard nl sc index config) t (ret ()) := by
  have hcard : CanReturn (setCard nl sc index config) := ⟨true, false, false, false, trivial⟩
  obtain ⟨t, u, hrun, -⟩ := hcard.exists_after (Yields.of_forall (R := fun _ => True)
    (fun _ => trivial) _)
  exact ⟨t, hrun⟩

theorem exists_okCommands (c : Handle) (cmds : List Text) {r : Reply} (hroom : 2 ≤ r.len) :
    ∃ t r', After (okCommands (sendOver c) cmds r) t (ret (some r')) ∧ AllOk t ∧ 2 ≤ r'.len := by
  induction cmds generalizing r with
  | nil => exact ⟨[], r, .start _, fun _ h => absurd h List.not_mem_nil, hroom⟩
  | cons cmd cmds ih =>
    obtain ⟨r₁, hanswered, hok, hroom₁⟩ := answered_okAnswer hroom
    obtain ⟨t, r', hrun, hall, hroom'⟩ := ih hroom₁
    have haccepted : ¬ ((r.answered okAnswer).1 ≠ 0 ∨ (r.answered okAnswer).2.isOk = false) := by
      rw [hanswered, hok]
      simp
    refine ⟨⟨.wpaRequest c cmd, okAnswer⟩ :: t, r', .reply _ ?_, ?_, hroom'⟩
    · show After (if _ then _ else _) _ _
      rw [if_neg haccepted, hanswered]
      exact hrun
    · exact List.forall_mem_cons.mpr ⟨rfl, hall⟩

theorem exists_finishSetUp (sc : WifiSoftc) (c : Handle) (modeCmd : Text)
    (settings : WifiConfig → List Text) (hconfig : ctx.config index ≠ none) {r : Reply}
    (hroom : 2 ≤ r.len) :
    ∃ t, After (finishSetUp nl ctx sc index (sendOver c) modeCmd settings r) t (ret 0) ∧
      AllOk t := by
  obtain ⟨config, hconfig⟩ := Option.ne_none_iff_exists'.mp hconfig
  obtain ⟨t₁, r₁, hmode, hall₁, hroom₁⟩ := exists_okCommands c [modeCmd] hroom
  obtain ⟨t₂, hcard⟩ := exists_setCard nl sc index config
  obtain ⟨t₃, r₃, hdone, hall₃, -⟩ := exists_okCommands c (settings config) hroom₁
  have hunsent : AllOk t₂ := by
    intro answer hmem
    unfold answersOf at hmem
    rw [requestsOf_of_unsent (onlyAsks_setCard nl sc index config) hcard] at hmem
    exact absurd hmem List.not_mem_nil
  refine ⟨t₁ ++ (t₂ ++ (t₃ ++ [])), ?_, hall₁.append (hunsent.append ?_)⟩
  · refine after_bind_iff.mpr ⟨t₁, _, _, rfl, hmode, ?_⟩
    show After (WifiM.deref (ctx.config index) >>= _) _ _
    rw [hconfig, WifiM.deref_some, ret_bind]
    exact after_bind_iff.mpr ⟨t₂, _, _, rfl, hcard,
      after_bind_iff.mpr ⟨t₃, _, _, rfl, hdone, .start _⟩⟩
  · rw [List.append_nil]
    exact hall₃

/-- A network can be prepared where wpa_supplicant is attached, and the dialogue goes on. -/
theorem exists_prepareNetwork {rest : Reply → WifiM ℤ} {c : Handle}
    (hmonitor : (sc.wpaCtx index).monitor ≠ none) (hctrl : (sc.wpaCtx index).ctrl = some c)
    {v : ℤ} {P : List WpaAnswer → Prop}
    (hrest : ∀ r, 2 ≤ r.len → ∃ t, After (rest r) t (ret v) ∧ P (answersOf t)) :
    ∃ t answers, After (prepareNetwork sc index rest) t (ret v) ∧ P answers ∧
      answersOf t = okAnswer :: okAnswer :: answers := by
  obtain ⟨r₁, hanswered₁, -, hroom₁⟩ :=
    answered_okAnswer (r := .zero respBufferSize) (by decide)
  obtain ⟨r₂, hanswered₂, -, hroom₂⟩ := answered_okAnswer hroom₁
  obtain ⟨t, hrun, hanswers⟩ := hrest r₂ hroom₂
  refine ⟨⟨.wpaRequest c "REMOVE_NETWORK all".toList, okAnswer⟩ ::
    ⟨.wpaRequest c "ADD_NETWORK".toList, okAnswer⟩ :: t, answersOf t, ?_, hanswers, rfl⟩
  unfold prepareNetwork
  rw [wifiHalSendWpaCommand_of_ctrl hmonitor hctrl]
  refine after_bind_iff.mpr ⟨_, (0, r₁), _, List.singleton_append.symm,
    after_sendOver_of_ok hanswered₁, ?_⟩
  rw [if_neg (lt_irrefl _)]
  refine after_bind_iff.mpr ⟨_, (0, r₂), _, List.singleton_append.symm,
    after_sendOver_of_ok hanswered₂, ?_⟩
  rw [if_neg (lt_irrefl _)]
  exact hrun

/-- **An access point can be set up** where wpa_supplicant is attached.  For this it answers every
command with `OK`. -/
theorem exists_wifiHalCreateAp (hmonitor : (sc.wpaCtx index).monitor ≠ none)
    (hctrl : (sc.wpaCtx index).ctrl ≠ none) (hconfig : ctx.config index ≠ none) :
    ∃ t, After (wifiHalCreateAp nl ctx sc index) t (ret 0) ∧ AllOk t := by
  obtain ⟨c, hctrl⟩ := Option.ne_none_iff_exists'.mp hctrl
  rw [wifiHalCreateAp_eq, wifiHalSendWpaCommand_of_ctrl hmonitor hctrl]
  obtain ⟨t, answers, hrun, hall, hanswers⟩ := exists_prepareNetwork hmonitor hctrl
    (P := fun answers => ∀ answer ∈ answers, answer = okAnswer) fun r hroom =>
      exists_finishSetUp nl ctx sc c (setNetwork (networkId r) "mode 2".toList)
        (apSettings (networkId r)) hconfig hroom
  refine ⟨t, hrun, ?_⟩
  unfold AllOk
  rw [hanswers]
  exact List.forall_mem_cons.mpr ⟨rfl, List.forall_mem_cons.mpr ⟨rfl, hall⟩⟩

end Succeeding

end RadioHal.Wifi
