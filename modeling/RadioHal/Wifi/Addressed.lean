import RadioHal.Wifi.Station

/-!
# The network a command names

The reply to `ADD_NETWORK` is received into the room that the reply to the command before has left,
and read together with what lies behind that room; an identifier of five digits or more is not kept
at all.  The commands that follow are sent all the same.

## Main definitions

* `networkNamed` — the network a command names.
* `WpaAnswer.Brings` — a datagram is the reply to a request.
* `IdKept` — the buffers in which an identifier comes to be kept.
* `NetworkMode` — the three calls that set a network up.
* `Addresses` — all later commands name a network.

## Main results

* `networkId_answered` — what is made of a reply with an identifier.
* `addresses_iff` — **the later commands name the network that was added exactly when its
  identifier is kept.**
-/

namespace RadioHal.Wifi

open CLib Dialogue

/-! ### Commands and the networks they name -/

/-- The commands that name a network, by what stands in front of its number. -/
def networkVerbs : List Text :=
  ["SET_NETWORK ".toList, "ENABLE_NETWORK ".toList, "MESH_GROUP_ADD ".toList]

/-- A text up to the first blank. -/
def firstWord (t : Text) : Text := t.takeWhile fun c => c != ' '

/-- The network a command names, as wpa_supplicant reads it. -/
def networkNamed (cmd : Text) : Option Text :=
  (networkVerbs.find? (strStarts cmd)).map fun verb => firstWord (cmd.drop verb.length)

theorem firstWord_append {t : Text} (h : ' ' ∉ t) (u : Text) :
    firstWord (t ++ u) = t ++ firstWord u := takeWhile_ne_append h u

theorem networkNamed_setNetwork (nwId what : Text) :
    networkNamed (setNetwork nwId what) = some (firstWord nwId) := by
  have hword : firstWord (nwId ++ ' ' :: what) = firstWord nwId := by
    unfold firstWord
    rw [List.takeWhile_append]
    split
    · next h =>
      rw [List.takeWhile_cons_of_neg (by simp), List.append_nil]
      exact (List.takeWhile_prefix _).eq_of_length h |>.symm
    · rfl
  have hcmd : setNetwork nwId what = "SET_NETWORK ".toList ++ (nwId ++ ' ' :: what) := by
    unfold setNetwork
    rw [List.append_assoc, List.append_assoc]
    rfl
  have hnamed : ∀ t, networkNamed ("SET_NETWORK ".toList ++ t) = some (firstWord t) := fun _ => rfl
  rw [hcmd, hnamed, hword]

theorem networkNamed_enableNetwork (nwId : Text) :
    networkNamed ("ENABLE_NETWORK ".toList ++ nwId) = some (firstWord nwId) := rfl

theorem networkNamed_meshGroupAdd (nwId : Text) :
    networkNamed ("MESH_GROUP_ADD ".toList ++ nwId) = some (firstWord nwId) := rfl

/-- Some settings of a network and a last command all name it. -/
theorem networkNamed_settings {nwId last : Text}
    (hlast : networkNamed last = some (firstWord nwId)) (whats : List Text) :
    ∀ cmd ∈ whats.map (setNetwork nwId) ++ [last], networkNamed cmd = some (firstWord nwId) := by
  intro cmd hcmd
  rcases List.mem_append.mp hcmd with hmem | hmem
  · obtain ⟨what, -, rfl⟩ := List.mem_map.mp hmem
    exact networkNamed_setNetwork nwId what
  · obtain rfl := List.mem_singleton.mp hmem
    exact hlast

/-! ### What is read as the identifier -/

/-- A text without a line change at its end. -/
def chomp (t : Text) : Text := if t.getLast? = some '\n' then t.dropLast else t

theorem chomp_append {t : Text} (h : '\n' ∉ t) (u : Text) : chomp (t ++ u) = t ++ chomp u := by
  unfold chomp
  cases u with
  | nil =>
    have hlast : t.getLast? ≠ some '\n' := fun e => h (List.mem_of_getLast? e)
    simp [hlast]
  | cons c u =>
    rw [List.getLast?_append_cons, List.dropLast_append_of_ne_nil (List.cons_ne_nil c u)]
    split <;> rfl

theorem networkId_eq (resp : Reply) : networkId resp =
    if (cstr resp.bytes).length < 5 then chomp (cstr resp.bytes) else [] := by
  unfold networkId
  split
  · next hlen =>
    have hnul : NUL ∉ cstr resp.bytes := notMem_cstr resp.bytes
    generalize cstr resp.bytes = t at hlen hnul
    -- the field has room for the terminator
    obtain ⟨k, hbytes⟩ : ∃ k, (CharArray.strncpy 6 t).bytes = t ++ NUL :: List.replicate k NUL :=
      ⟨_, CharArray.bytes_strncpy_of_lt (by omega)⟩
    have hsize : cstr ((t ++ NUL :: List.replicate k NUL).take 6) = t := by
      obtain ⟨j, hj⟩ : ∃ j, 6 - t.length = j + 1 := ⟨5 - t.length, by omega⟩
      rw [List.take_append, List.take_of_length_le (by omega), hj, List.take_succ_cons,
        cstr_append_NUL hnul]
    have hstop : cstr (NUL :: List.replicate k NUL) = [] := rfl
    rw [hbytes, cstr_replaceLineChange hnul hsize, hstop, List.append_nil]
    rfl
  · rfl

/-! ### The reply with an identifier -/

/-- **A datagram is the reply to a request**: what comes in before it is taken for events. -/
def WpaAnswer.Brings (room : ℕ) (d : Text) (answer : WpaAnswer) : Prop :=
  ∃ events behind ending, answer = .received (events ++ d :: behind) ending ∧
    ∀ e ∈ events, isEventText (e.take room) = true

theorem reply_of_brings {room : ℕ} {d : Text} {answer : WpaAnswer}
    (h : WpaAnswer.Brings room d answer) (hd : isEventText (d.take room) = false) :
    answer.reply room = some (d.take room) := by
  obtain ⟨events, behind, ending, rfl, hevents⟩ := h
  unfold WpaAnswer.reply
  dsimp only
  rw [List.map_append, List.find?_append, List.find?_eq_none.mpr, Option.none_or, List.map_cons,
    List.find?_cons_of_pos (by simp [hd])]
  intro x hx
  obtain ⟨e, he, rfl⟩ := List.mem_map.mp hx
  simp [hevents e he]

/-- What lies behind the room for a reply stays as it is. -/
theorem drop_recv (r : Reply) (d : Text) :
    (r.recv d).2.bytes.drop r.len = r.bytes.drop r.len := by
  have hlen : (d.take r.len).length = min d.length r.len := by
    rw [List.length_take, Nat.min_comm]
  unfold Reply.recv
  dsimp only
  rw [List.drop_append, List.drop_of_length_le (by omega), List.nil_append, List.drop_drop]
  congr 1
  omega

theorem drop_receiveReply (ds : List Text) (ending : WpaEnding) (r : Reply) :
    (receiveReply ds ending r).2.bytes.drop r.len = r.bytes.drop r.len := by
  induction ds generalizing r with
  | nil => cases ending <;> rfl
  | cons d ds ih =>
    rw [receiveReply]
    split
    · have hrest := ih (r.recv d).2
      exact hrest.trans (drop_recv r d)
    · exact drop_recv r d

theorem drop_deliver (answer : WpaAnswer) (r : Reply) :
    (answer.deliver r).2.bytes.drop r.len = r.bytes.drop r.len := by
  cases answer with
  | sendFailed => rfl
  | received ds ending => exact drop_receiveReply ds ending r

section Digits

variable {ds : Text}

theorem notMem_digits (hds : ∀ c ∈ ds, isdigit c = true) {c : Char} (hc : isdigit c = false) :
    c ∉ ds := by
  intro h
  rw [hds c h] at hc
  exact absurd hc (by decide)

/-- A text that begins with a digit does not begin with anything else. -/
theorem not_strStarts_digit {c p : Char} (hc : isdigit c = true) (hp : isdigit p = false)
    (t ps : Text) : strStarts (c :: t) (p :: ps) = false := by
  rw [Bool.eq_false_iff, ne_eq, strStarts_iff, List.cons_prefix_cons]
  intro h
  rw [h.1, hc] at hp
  exact absurd hp (by decide)

theorem not_isEventText_digit {c : Char} (hc : isdigit c = true) (t : Text) :
    isEventText (c :: t) = false := by
  have htag : c ≠ '<' := by
    intro h
    rw [h] at hc
    exact absurd hc (by decide)
  have hname : strStarts (c :: t) "IFNAME=".toList = false := not_strStarts_digit hc (by decide) t _
  unfold isEventText
  rw [hname]
  simpa using htag

/-- What is read of a buffer into which an identifier has been received: the identifier, or as much
of it as there was room for and then what lies behind the room. -/
theorem cstr_received_digits (hds : ∀ c ∈ ds, isdigit c = true) {room : ℕ} {rest behind : Text}
    (hbehind : ((ds ++ "\n".toList).take room ++ rest).drop room = behind) :
    cstr (replaceLineChange ((ds ++ "\n".toList).take room ++ rest)
      ((ds ++ "\n".toList).take room).length) =
        if ds.length < room then ds else ds.take room ++ cstr behind := by
  have hnul : NUL ∉ ds := notMem_digits hds (by decide)
  by_cases hroom : ds.length < room
  · have htake : (ds ++ "\n".toList).take room = ds ++ "\n".toList :=
      List.take_of_length_le (by simp; omega)
    have hnul' : NUL ∉ ds ++ "\n".toList := by
      intro h
      rcases List.mem_append.mp h with h | h
      · exact hnul h
      · exact absurd h (by decide)
    rw [htake, cstr_replaceLineChange hnul' (by rw [List.take_left, cstr_eq_self hnul']),
      if_pos hroom]
    simp
  · have htake : (ds ++ "\n".toList).take room = ds.take room :=
      List.take_append_of_le_length (by omega)
    have hnul' : NUL ∉ ds.take room := fun h => hnul (List.mem_of_mem_take h)
    have hlast : (ds.take room).getLast? ≠ some '\n' := by
      intro h
      have hmem := List.mem_of_mem_take (List.mem_of_getLast? h)
      exact notMem_digits hds (by decide) hmem
    have hlen : (ds.take room).length = room := by
      rw [List.length_take]
      omega
    rw [htake] at hbehind ⊢
    rw [List.drop_append_of_le_length (by omega), List.drop_of_length_le (by omega),
      List.nil_append] at hbehind
    rw [cstr_replaceLineChange hnul' (by rw [List.take_left, cstr_eq_self hnul']), if_neg hlast,
      if_neg hroom, hbehind]

/-- **A command whose reply is an identifier goes well**, and this is what is read behind it. -/
theorem answered_digits (hne : ds ≠ []) (hds : ∀ c ∈ ds, isdigit c = true) {r : Reply}
    {answer : WpaAnswer} (h : WpaAnswer.Brings r.len (ds ++ "\n".toList) answer)
    (hfail : r.len = 0 → strStarts r.bytes "FAIL".toList = false) :
    (r.answered answer).1 = 0 ∧ cstr (r.answered answer).2.bytes =
      if ds.length < r.len then ds else ds.take r.len ++ cstr (r.bytes.drop r.len) := by
  obtain ⟨c, cs, hcons⟩ := List.exists_cons_of_ne_nil hne
  have hc : isdigit c = true := hds c (by simp [hcons])
  have hevent : isEventText ((ds ++ "\n".toList).take r.len) = false := by
    rw [hcons]
    cases r.len with
    | zero => rfl
    | succ k => exact not_isEventText_digit hc _
  obtain ⟨hresult, hlen, ⟨rest, hbytes⟩, -⟩ := deliver_of_reply (reply_of_brings h hevent)
  have hbehind := drop_deliver answer r
  have hnofail : strStarts (answer.deliver r).2.bytes "FAIL".toList = false := by
    by_cases hzero : r.len = 0
    · -- nothing is received, and the buffer is what it was
      rw [hzero, List.drop_zero, List.drop_zero] at hbehind
      rw [hbehind]
      exact hfail hzero
    · obtain ⟨k, hk⟩ := Nat.exists_eq_succ_of_ne_zero hzero
      rw [hbytes, hcons, hk]
      exact not_strStarts_digit hc (by decide) _ _
  have hnot : ¬ ((answer.deliver r).1 < 0 ∨
      strStarts (answer.deliver r).2.bytes "FAIL".toList = true) := by
    rw [hresult, hnofail]
    simp
  unfold Reply.answered commandResult
  rw [if_neg (by rw [hresult]; decide), if_neg hnot]
  refine ⟨rfl, ?_⟩
  dsimp only
  rw [hlen, hbytes]
  rw [hbytes] at hbehind
  exact cstr_received_digits hds hbehind

/-- **The buffers in which an identifier comes to be kept**: there is room for it and the line
change, and it has four digits at most; or what lies behind the room continues it, up to a blank or
a last line change, and is not too long. -/
def IdKept (r : Reply) (ds : Text) : Prop :=
  if ds.length < r.len then ds.length < 5
  else r.len + (cstr (r.bytes.drop r.len)).length < 5 ∧
    firstWord (chomp (cstr (r.bytes.drop r.len))) = ds.drop r.len

instance (r : Reply) (ds : Text) : Decidable (IdKept r ds) :=
  inferInstanceAs (Decidable (if ds.length < r.len then ds.length < 5 else _ ∧ _))

/-- The identifier is kept in these, and in no other. -/
theorem firstWord_networkId_iff (hne : ds ≠ []) (hds : ∀ c ∈ ds, isdigit c = true) {r resp : Reply}
    (hresp : cstr resp.bytes =
      if ds.length < r.len then ds else ds.take r.len ++ cstr (r.bytes.drop r.len)) :
    firstWord (networkId resp) = ds ↔ IdKept r ds := by
  have hblank : ' ' ∉ ds := notMem_digits hds (by decide)
  have hline : '\n' ∉ ds := notMem_digits hds (by decide)
  have hempty : ¬ firstWord [] = ds := fun h => hne h.symm
  unfold IdKept
  rw [networkId_eq, hresp]
  by_cases hroom : ds.length < r.len
  -- there is room for the number, and nothing stands behind it
  · have hword : firstWord (chomp ds) = ds := by
      have hchomp := chomp_append hline []
      have hfirst := firstWord_append hblank []
      rw [List.append_nil] at hchomp hfirst
      rw [hchomp, show chomp [] = [] from rfl, List.append_nil, hfirst,
        show firstWord [] = [] from rfl, List.append_nil]
    rw [if_pos hroom, if_pos hroom]
    split
    · next hlen => exact iff_of_true hword hlen
    · next hlen => exact iff_of_false hempty hlen
  -- the number is cut, and what was in the buffer stands behind it
  · rw [if_neg hroom, if_neg hroom]
    generalize cstr (r.bytes.drop r.len) = behind
    have hlen : (ds.take r.len ++ behind).length = r.len + behind.length := by
      rw [List.length_append, List.length_take]
      omega
    have hblank' : ' ' ∉ ds.take r.len := fun h => hblank (List.mem_of_mem_take h)
    have hline' : '\n' ∉ ds.take r.len := fun h => hline (List.mem_of_mem_take h)
    rw [hlen]
    split
    · next hshort =>
      rw [chomp_append hline', firstWord_append hblank']
      constructor
      · intro h
        refine ⟨hshort, ?_⟩
        have hsplit := h.trans (List.take_append_drop r.len ds).symm
        exact List.append_cancel_left hsplit
      · intro h
        rw [h.2, List.take_append_drop]
    · next hshort => exact iff_of_false hempty fun h => hshort h.1

end Digits

/-! ### The three calls -/

/-- The calls that set a network up. -/
inductive NetworkMode
  | station | accessPoint | mesh
  deriving DecidableEq

section Calls

variable (nl : Netlink.Libnl NlAttrs) (ctx : WifiContext) (sc : WifiSoftc) (index : Slot)

/-- The call that sets a radio up in the mode. -/
def NetworkMode.run : NetworkMode → WifiM ℤ
  | station => wifiHalConnectAp nl ctx sc index
  | accessPoint => wifiHalCreateAp nl ctx sc index
  | mesh => do return (← wifiHalJoinMesh nl ctx sc index).2

/-- What is left of it when a network has been added. -/
def NetworkMode.finish (c : Handle) (r : Reply) : NetworkMode → WifiM ℤ
  | station => finishStation nl ctx sc index (sendOver c) r
  | accessPoint => finishSetUp nl ctx sc index (sendOver c)
      (setNetwork (networkId r) "mode 2".toList) (apSettings (networkId r)) r
  | mesh => finishSetUp nl ctx sc index (sendOver c)
      (setNetwork (networkId r) "mode 5".toList) (meshSettings (networkId r)) r

end Calls

/-- **All later commands name the network**: whatever comes behind the exchanges `t₀` of a call,
each command that names a network names this one. -/
def Addresses (call : WifiM ℤ) (t₀ : WifiTranscript) (nwId : Text) : Prop :=
  ∀ t p, After call (t₀ ++ t) p → ∀ request ∈ requestsOf t, ∀ word,
    networkNamed request.cmd = some word → word = nwId

/-! ### The commands behind the adding of a network -/

/-- A command names the network; nothing else is sent. -/
def NamesOnly (word : Text) : WifiQ → Prop
  | .wpaRequest _ cmd => networkNamed cmd = some word
  | q => WifiQ.Unsent q

section Finish

variable {nl : Netlink.Libnl NlAttrs} {ctx : WifiContext} {sc : WifiSoftc} {index : Slot}
  {c : Handle} {word : Text}

theorem namesOnly_of_unsent {q : WifiQ} (h : WifiQ.Unsent q) : NamesOnly word q := by
  cases q <;> first | exact h | exact h.elim

theorem onlyAsks_sendOver {cmd : Text} (hcmd : networkNamed cmd = some word) (r : Reply) :
    OnlyAsks (NamesOnly word) (sendOver c cmd r) := ⟨hcmd, fun _ => trivial⟩

theorem onlyAsks_setCard_names (config : WifiConfig) :
    OnlyAsks (NamesOnly word) (setCard nl sc index config) :=
  (onlyAsks_setCard nl sc index config).mono fun _ => namesOnly_of_unsent

theorem onlyAsks_deref_names {α : Type} (x : Option α) :
    OnlyAsks (NamesOnly word) (WifiM.deref x) := onlyAsks_deref trivial x

theorem onlyAsks_finishSetUp {modeCmd : Text} {settings : WifiConfig → List Text}
    (hmode : networkNamed modeCmd = some word)
    (hsettings : ∀ config, ∀ cmd ∈ settings config, networkNamed cmd = some word) (r : Reply) :
    OnlyAsks (NamesOnly word) (finishSetUp nl ctx sc index (sendOver c) modeCmd settings r) := by
  have hall : ∀ cmd ∈ [modeCmd], ∀ resp, OnlyAsks (NamesOnly word) (sendOver c cmd resp) := by
    intro cmd hcmd resp
    obtain rfl := List.mem_singleton.mp hcmd
    exact onlyAsks_sendOver hmode resp
  refine (onlyAsks_okCommands hall r).bind fun mode => ?_
  cases mode with
  | none => trivial
  | some resp =>
    refine (onlyAsks_deref_names _).bind fun config => ?_
    refine (onlyAsks_setCard_names config).bind fun _ => ?_
    exact (onlyAsks_okCommands
      (fun cmd hcmd => onlyAsks_sendOver (hsettings config cmd hcmd)) resp).bind fun _ => trivial

theorem onlyAsks_finishStation (r : Reply) : OnlyAsks (NamesOnly (firstWord (networkId r)))
    (finishStation nl ctx sc index (sendOver c) r) := by
  refine (onlyAsks_deref_names _).bind fun config => ?_
  refine (onlyAsks_setCard_names config).bind fun _ => ?_
  refine (onlyAsks_sendOver (networkNamed_setNetwork _ _) _).bind fun r₁ => ?_
  split
  · trivial
  refine (onlyAsks_sendOver (networkNamed_setNetwork _ _) _).bind fun r₂ => ?_
  split
  · trivial
  exact (onlyAsks_sendOver (networkNamed_enableNetwork _) _).bind fun _ => trivial

/-- Behind the adding of a network all commands name what is read as its identifier. -/
theorem onlyAsks_finish (mode : NetworkMode) (r : Reply) :
    OnlyAsks (NamesOnly (firstWord (networkId r))) (mode.finish nl ctx sc index c r) := by
  cases mode with
  | station => exact onlyAsks_finishStation r
  | accessPoint =>
    refine onlyAsks_finishSetUp (networkNamed_setNetwork _ _) (fun config => ?_) r
    exact networkNamed_settings (networkNamed_enableNetwork _) [_, _, _, _]
  | mesh =>
    refine onlyAsks_finishSetUp (networkNamed_setNetwork _ _) (fun config => ?_) r
    exact networkNamed_settings (networkNamed_meshGroupAdd _) [_, _, _, _]

/-- And there is such a command, unless a station has no configuration. -/
theorem exists_named {mode : NetworkMode} (hconfig : mode = .station → ctx.config index ≠ none)
    (r : Reply) : ∃ t p, After (mode.finish nl ctx sc index c r) t p ∧
      ∃ request ∈ requestsOf t, networkNamed request.cmd = some (firstWord (networkId r)) := by
  cases mode with
  | station =>
    obtain ⟨config, hsome⟩ := Option.ne_none_iff_exists'.mp (hconfig rfl)
    obtain ⟨t, hcard⟩ := exists_setCard nl sc index config
    let cmd := setNetwork (networkId r) ("ssid ".toList ++ quoted config.ssidText)
    obtain ⟨p, hp⟩ : ∃ p, After (finishStation nl ctx sc index (sendOver c) r)
        (t ++ [⟨.wpaRequest c cmd, okAnswer⟩]) p := by
      unfold finishStation
      rw [hsome]
      exact ⟨_, (hcard.bind _).trans (.reply _ (.start _))⟩
    refine ⟨_, p, hp, ⟨c, cmd, okAnswer⟩, ?_, networkNamed_setNetwork _ _⟩
    rw [requestsOf_append]
    exact List.mem_append_right _ List.mem_cons_self
  | accessPoint =>
    exact ⟨[⟨.wpaRequest c _, okAnswer⟩], _, .reply _ (.start _), _, List.mem_cons_self,
      networkNamed_setNetwork _ _⟩
  | mesh =>
    exact ⟨[⟨.wpaRequest c _, okAnswer⟩], _, .reply _ (.start _), _, List.mem_cons_self,
      networkNamed_setNetwork _ _⟩

end Finish

/-! ### The exchanges up to the adding -/

/-- An event in front of a buffer does not begin with `FAIL`. -/
theorem not_fail_of_event {t rest : Text} (h : isEventText t = true) :
    strStarts (t ++ rest) "FAIL".toList = false := by
  unfold isEventText at h
  rcases Bool.or_eq_true_iff.mp h with htag | hname
  · cases t with
    | nil => exact absurd htag (by decide)
    | cons c t =>
      obtain rfl : c = '<' := by simpa using htag
      rfl
  · obtain ⟨u, rfl⟩ := strStarts_iff.mp hname
    rfl

theorem not_fail_receiveReply (ds : List Text) (ending : WpaEnding) {r : Reply}
    (hr : strStarts r.bytes "FAIL".toList = false) (hlen : (receiveReply ds ending r).2.len = 0) :
    strStarts (receiveReply ds ending r).2.bytes "FAIL".toList = false := by
  induction ds generalizing r with
  | nil => cases ending <;> exact hr
  | cons d ds ih =>
    rw [receiveReply, isUnsolicited_recv] at hlen ⊢
    split at hlen
    · next hevent =>
      rw [if_pos hevent]
      exact ih (not_fail_of_event hevent) hlen
    · next hreply =>
      rw [if_neg hreply]
      have hzero : min d.length r.len = 0 := hlen
      show strStarts (d.take r.len ++ r.bytes.drop (min d.length r.len)) "FAIL".toList = false
      have hnil : d.take r.len = [] := by
        rw [List.take_eq_nil_iff, ← List.length_eq_zero_iff]
        omega
      rw [hzero, hnil]
      exact hr

theorem not_fail_answered (answer : WpaAnswer) {r : Reply}
    (hr : strStarts r.bytes "FAIL".toList = false) (hlen : (r.answered answer).2.len = 0) :
    strStarts (r.answered answer).2.bytes "FAIL".toList = false := by
  unfold Reply.answered at hlen ⊢
  rw [commandResult_len] at hlen
  have hdelivered : strStarts (answer.deliver r).2.bytes "FAIL".toList = false := by
    cases answer with
    | sendFailed => exact hr
    | received ds ending => exact not_fail_receiveReply ds ending hr hlen
  unfold commandResult
  split
  · exact hdelivered
  split
  · exact hdelivered
  · -- nothing is cut off an empty reply
    rw [hlen]
    exact hdelivered

section Added

variable {nl : Netlink.Libnl NlAttrs} {ctx : WifiContext} {sc : WifiSoftc} {index : Slot}
  {h : Handle} {b : WpaAnswer} {t₀ : WifiTranscript}

/-- The request that adds a network, with its answer. -/
abbrev addNetwork (h : Handle) (b : WpaAnswer) : Exchange WifiQ WifiA :=
  ⟨.wpaRequest h "ADD_NETWORK".toList, b⟩

/-- Behind the request that adds a network it does not come again. -/
theorem eq_nil_of_added {c : Handle} {k : WpaAnswer → WifiM ℤ} {t : WifiTranscript} {p : WifiM ℤ}
    (hk : ∀ a, ∃ word, OnlyAsks (NamesOnly word) (k a))
    (hrun : After (ask (.wpaRequest c "ADD_NETWORK".toList) k) (t ++ [addNetwork h b]) p) :
    t = [] ∧ c = h := by
  cases t with
  | nil =>
    cases hrun
    exact ⟨rfl, rfl⟩
  | cons x t =>
    cases hrun with
    | reply a hrest =>
      obtain ⟨word, hword⟩ := hk a
      have hnamed := hword.of_mem hrest (addNetwork h b) (by simp)
      exact absurd hnamed (by simp [NamesOnly, networkNamed, networkVerbs, strStarts])

/-- A program that goes on with `rest` when a network has been added. -/
def addTo (c : Handle) (r : Reply) (v : ℤ × Reply → ℤ) (rest : Reply → WifiM ℤ) : WifiM ℤ :=
  ask (.wpaRequest c "ADD_NETWORK".toList) fun b =>
    if (r.answered b).1 < 0 then ret (v (r.answered b)) else rest (r.answered b).2

/-- A program that removes the networks and then stops or goes on with `rest`. -/
def removeThen (c : Handle) (stop : WpaAnswer → Option ℤ) (rest : Reply → WifiM ℤ) : WifiM ℤ :=
  ask (.wpaRequest c "REMOVE_NETWORK all".toList) fun a =>
    (stop a).elim (rest ((Reply.zero respBufferSize).answered a).2) ret

/-- What the call has become behind the exchanges `t₀` and the request that adds a network. -/
structure AddedTo (mode : NetworkMode) (nl : Netlink.Libnl NlAttrs) (ctx : WifiContext)
    (sc : WifiSoftc) (index : Slot) (h : Handle) (b : WpaAnswer) (t₀ : WifiTranscript) : Prop where
  not_fail : (bufferBehind (answersOf t₀)).len = 0 →
    strStarts (bufferBehind (answersOf t₀)).bytes "FAIL".toList = false
  finish : 0 ≤ ((bufferBehind (answersOf t₀)).answered b).1 → ∃ sc',
    After (mode.run nl ctx sc index) (t₀ ++ [addNetwork h b])
      (mode.finish nl ctx sc' index h ((bufferBehind (answersOf t₀)).answered b).2)

/-- Where a network is added, that is the first request of all. -/
theorem added_of_addTo {c : Handle} {r : Reply} {v : ℤ × Reply → ℤ} {rest : Reply → WifiM ℤ}
    {t : WifiTranscript} {p : WifiM ℤ} (hrest : ∀ r, ∃ word, OnlyAsks (NamesOnly word) (rest r))
    (hrun : After (addTo c r v rest) (t ++ [addNetwork h b]) p) : t = [] ∧ c = h ∧
      (0 ≤ (r.answered b).1 →
        After (addTo c r v rest) [addNetwork h b] (rest (r.answered b).2)) := by
  have hk : ∀ a, ∃ word, OnlyAsks (NamesOnly word)
      (if (r.answered a).1 < 0 then ret (v (r.answered a)) else rest (r.answered a).2) := by
    intro a
    split
    · exact ⟨[], trivial⟩
    · exact hrest _
  obtain ⟨rfl, rfl⟩ := eq_nil_of_added hk hrun
  refine ⟨rfl, rfl, fun hok => ?_⟩
  unfold addTo
  refine .reply _ ?_
  rw [if_neg (not_lt.mpr hok)]
  exact .start _

/-- The network is added by the second command, behind the removing of all networks. -/
theorem added_of_removeThen {c c' : Handle} {stop : WpaAnswer → Option ℤ}
    {v : ℤ × Reply → ℤ} {rest : Reply → WifiM ℤ} {p : WifiM ℤ}
    (hrest : ∀ r, ∃ word, OnlyAsks (NamesOnly word) (rest r))
    (hrun : After (removeThen c' stop fun r => addTo c r v rest) (t₀ ++ [addNetwork h b]) p) :
    c = h ∧ ∃ a, t₀ = [⟨.wpaRequest c' "REMOVE_NETWORK all".toList, a⟩] ∧
      (0 ≤ (((Reply.zero respBufferSize).answered a).2.answered b).1 →
        After (removeThen c' stop fun r => addTo c r v rest) (t₀ ++ [addNetwork h b])
          (rest (((Reply.zero respBufferSize).answered a).2.answered b).2)) := by
  cases t₀ with
  | nil =>
    obtain ⟨a, hx, -⟩ := After.of_ask hrun
    exact absurd (congrArg Sigma.fst hx) (by simp)
  | cons x t₁ =>
    obtain ⟨a, rfl, hbehind⟩ := After.of_ask (t := t₁ ++ [addNetwork h b]) hrun
    cases hstop : stop a with
    | some v =>
      rw [hstop] at hbehind
      exact absurd hbehind.of_ret.1 (by simp)
    | none =>
      rw [hstop] at hbehind
      obtain ⟨rfl, rfl, hfinish⟩ := added_of_addTo hrest hbehind
      refine ⟨rfl, a, rfl, fun hok => .reply _ ?_⟩
      rw [hstop]
      exact hfinish hok

/-- A first question that is followed by the adding of a network has got an answer. -/
theorem exists_of_added {q : WifiQ} {k : WifiA q → WifiM ℤ} {p : WifiM ℤ}
    (hrun : After (ask q k) (t₀ ++ [addNetwork h b]) p) : Nonempty (WifiA q) := by
  obtain ⟨x, t, hcons⟩ := List.exists_cons_of_ne_nil
    (List.append_ne_nil_of_right_ne_nil t₀ (List.cons_ne_nil (addNetwork h b) []))
  rw [hcons] at hrun
  obtain ⟨a, -⟩ := After.of_ask hrun
  exact ⟨a⟩

theorem prepareNetwork_eq {c : Handle} (hmonitor : (sc.wpaCtx index).monitor ≠ none)
    (hctrl : (sc.wpaCtx index).ctrl = some c) (rest : Reply → WifiM ℤ) :
    prepareNetwork sc index rest = removeThen c
      (fun a => if ((Reply.zero respBufferSize).answered a).1 < 0 then
        some ((Reply.zero respBufferSize).answered a).1 else none)
      fun r => addTo c r Prod.fst rest := by
  unfold prepareNetwork removeThen addTo
  rw [wifiHalSendWpaCommand_of_ctrl hmonitor hctrl]
  refine congrArg (ask _) (funext fun a => ?_)
  dsimp only
  by_cases hfailed : ((Reply.zero respBufferSize).answered a).1 < 0
  · rw [if_pos hfailed]
    exact if_pos hfailed
  · rw [if_neg hfailed]
    exact if_neg hfailed

/-- **What comes before the adding of a station or of an access point** is one request, which
removes the networks there are.  With the two answers the reply buffer is known. -/
theorem added_of_prepareNetwork
    (rest : (Text → Reply → WifiM (ℤ × Reply)) → Reply → WifiM ℤ) {p : WifiM ℤ}
    (hrest : ∀ c r, ∃ word, OnlyAsks (NamesOnly word) (rest (sendOver c) r))
    (hrun : After (prepareNetwork sc index (rest (wifiHalSendWpaCommand sc index)))
      (t₀ ++ [addNetwork h b]) p) :
    ∃ a, answersOf t₀ = [a] ∧ (0 ≤ (((Reply.zero respBufferSize).answered a).2.answered b).1 →
      After (prepareNetwork sc index (rest (wifiHalSendWpaCommand sc index)))
        (t₀ ++ [addNetwork h b])
        (rest (sendOver h) (((Reply.zero respBufferSize).answered a).2.answered b).2)) := by
  by_cases hmonitor : (sc.wpaCtx index).monitor = none
  · unfold prepareNetwork at hrun
    rw [wifiHalSendWpaCommand_of_no_monitor hmonitor] at hrun
    obtain ⟨hnil, -⟩ := After.of_ret hrun
    exact absurd hnil (by simp)
  cases hctrl : (sc.wpaCtx index).ctrl with
  | none =>
    unfold prepareNetwork at hrun
    rw [wifiHalSendWpaCommand_of_no_ctrl hmonitor hctrl] at hrun
    obtain ⟨e⟩ := exists_of_added hrun
    exact e.elim
  | some c =>
    rw [prepareNetwork_eq hmonitor hctrl, wifiHalSendWpaCommand_of_ctrl hmonitor hctrl] at hrun ⊢
    obtain ⟨rfl, a, rfl, hfinish⟩ := added_of_removeThen (hrest c) hrun
    exact ⟨a, rfl, hfinish⟩

/-- The same for a mesh, where a network is added whatever has come of the removing. -/
theorem joinMeshNetwork_of_ctrl {c c' : Handle} (hmesh : (sc.wpaCtx index).meshCtrl = some c)
    (hmonitor : (sc.wpaCtx index).monitor ≠ none) (hctrl : (sc.wpaCtx index).ctrl = some c') :
    joinMeshNetwork nl ctx sc index = removeThen c' (fun _ => none)
      fun r => addTo c r (fun _ => -1) fun r => NetworkMode.mesh.finish nl ctx sc index c r := by
  rw [joinMeshNetwork_eq, wifiHalSendWpaMeshCommand_of_meshCtrl hmesh,
    wifiHalSendWpaCommand_of_ctrl hmonitor hctrl]
  rfl

theorem joinMeshNetwork_of_no_monitor {c : Handle} (hmesh : (sc.wpaCtx index).meshCtrl = some c)
    (hmonitor : (sc.wpaCtx index).monitor = none) :
    joinMeshNetwork nl ctx sc index = addTo c (.zero respBufferSize) (fun _ => -1)
      fun r => NetworkMode.mesh.finish nl ctx sc index c r := by
  rw [joinMeshNetwork_eq, wifiHalSendWpaMeshCommand_of_meshCtrl hmesh,
    wifiHalSendWpaCommand_of_no_monitor hmonitor]
  rfl

/-- **What comes before the adding of a mesh** is one request or none, for without a monitor
connection the networks are not removed. -/
theorem added_of_joinMeshNetwork {c : Handle} (hmesh : (sc.wpaCtx index).meshCtrl = some c)
    {p : WifiM ℤ} (hrun : After (joinMeshNetwork nl ctx sc index) (t₀ ++ [addNetwork h b]) p) :
    (answersOf t₀ = [] ∨ ∃ a, answersOf t₀ = [a]) ∧
      (0 ≤ ((bufferBehind (answersOf t₀)).answered b).1 →
        After (joinMeshNetwork nl ctx sc index) (t₀ ++ [addNetwork h b])
          (NetworkMode.mesh.finish nl ctx sc index h
            ((bufferBehind (answersOf t₀)).answered b).2)) := by
  have hrest : ∀ r, ∃ word,
      OnlyAsks (NamesOnly word) (NetworkMode.mesh.finish nl ctx sc index c r) :=
    fun r => ⟨_, onlyAsks_finish .mesh r⟩
  by_cases hmonitor : (sc.wpaCtx index).monitor = none
  · rw [joinMeshNetwork_of_no_monitor hmesh hmonitor] at hrun ⊢
    obtain ⟨rfl, rfl, hfinish⟩ := added_of_addTo hrest hrun
    exact ⟨Or.inl rfl, hfinish⟩
  cases hctrl : (sc.wpaCtx index).ctrl with
  | none =>
    rw [joinMeshNetwork_eq, wifiHalSendWpaCommand_of_no_ctrl hmonitor hctrl] at hrun
    obtain ⟨e⟩ := exists_of_added hrun
    exact e.elim
  | some c' =>
    rw [joinMeshNetwork_of_ctrl hmesh hmonitor hctrl] at hrun ⊢
    obtain ⟨rfl, a, rfl, hfinish⟩ := added_of_removeThen hrest hrun
    exact ⟨Or.inr ⟨a, rfl⟩, hfinish⟩

/-- A radio whose mesh connection is open. -/
abbrev withMesh (sc : WifiSoftc) (index : Slot) (c : Handle) : WifiSoftc :=
  sc.setWpaCtx index { sc.wpaCtx index with meshCtrl := some c }

/-- The call for a mesh begins with the opening of a connection. -/
theorem run_mesh_eq : NetworkMode.mesh.run nl ctx sc index =
    ask (.wpaOpen (sockPath sc index)) fun meshCtrl : Option Handle =>
      meshCtrl.elim (ret (-1)) fun c => joinMeshNetwork nl ctx (withMesh sc index c) index := by
  refine congrArg (ask _) (funext fun meshCtrl => ?_)
  cases meshCtrl with
  | none => rfl
  | some c =>
    show ((joinMeshNetwork nl ctx (withMesh sc index c) index >>= fun joined =>
      ret (withMesh sc index c, joined)) >>= fun x => ret x.2) =
        joinMeshNetwork nl ctx (withMesh sc index c) index
    rw [bind_bind]
    exact bind_ret _

/-- **What comes before the adding of a network**, in every call. -/
theorem added (mode : NetworkMode) {p : WifiM ℤ}
    (hrun : After (mode.run nl ctx sc index) (t₀ ++ [addNetwork h b]) p) :
    AddedTo mode nl ctx sc index h b t₀ := by
  have hfail : answersOf t₀ = [] ∨ (∃ a, answersOf t₀ = [a]) →
      (bufferBehind (answersOf t₀)).len = 0 →
      strStarts (bufferBehind (answersOf t₀)).bytes "FAIL".toList = false := by
    intro hanswers hzero
    rcases hanswers with hnil | ⟨a, ha⟩
    · rw [hnil] at hzero
      exact absurd hzero (by decide)
    · rw [ha] at hzero ⊢
      exact not_fail_answered a rfl hzero
  cases mode with
  | station =>
    obtain ⟨a, hanswers, hfinish⟩ := added_of_prepareNetwork
      (fun send r => finishStation nl ctx sc index send r)
      (fun _ r => ⟨_, onlyAsks_finishStation r⟩) hrun
    refine ⟨hfail (.inr ⟨a, hanswers⟩), fun hok => ⟨sc, ?_⟩⟩
    rw [hanswers] at hok ⊢
    exact hfinish hok
  | accessPoint =>
    obtain ⟨a, hanswers, hfinish⟩ := added_of_prepareNetwork
      (fun send r => finishSetUp nl ctx sc index send (setNetwork (networkId r) "mode 2".toList)
        (apSettings (networkId r)) r)
      (fun _ r => ⟨_, onlyAsks_finish .accessPoint r⟩) hrun
    refine ⟨hfail (.inr ⟨a, hanswers⟩), fun hok => ⟨sc, ?_⟩⟩
    rw [hanswers] at hok ⊢
    exact hfinish hok
  | mesh =>
    rw [run_mesh_eq] at hrun
    cases t₀ with
    | nil =>
      obtain ⟨a, hx, -⟩ := After.of_ask hrun
      exact absurd (congrArg Sigma.fst hx) (by simp)
    | cons x t₁ =>
      obtain ⟨meshCtrl, rfl, hjoin⟩ := After.of_ask (t := t₁ ++ [addNetwork h b]) hrun
      cases meshCtrl with
      | none =>
        obtain ⟨hnil, -⟩ := After.of_ret hjoin
        exact absurd hnil (by simp)
      | some c =>
        have hmesh : ((withMesh sc index c).wpaCtx index).meshCtrl = some c := by
          simp [WifiSoftc.setWpaCtx]
        obtain ⟨hanswers, hfinish⟩ := added_of_joinMeshNetwork hmesh hjoin
        refine ⟨hfail hanswers, fun hok => ⟨withMesh sc index c, ?_⟩⟩
        rw [run_mesh_eq]
        exact .reply _ (hfinish hok)

end Added

/-! ### The result -/

theorem isdigit_decimal (n : ℕ) : ∀ c ∈ decimal n, isdigit c = true := by
  intro c hc
  have hmem : c ∈ Nat.toDigits 10 n := by
    unfold decimal at hc
    rw [if_neg (by omega)] at hc
    exact hc
  have hdigit : c.isDigit = true := Nat.isDigit_of_mem_toDigits (by omega) le_rfl hmem
  exact hdigit

section Addressed

variable {nl : Netlink.Libnl NlAttrs} {ctx : WifiContext} {sc : WifiSoftc} {index : Slot}

/-- A station without configuration is the end of the program. -/
theorem requestsOf_finishStation (hconfig : ctx.config index = none) {c : Handle} {r : Reply}
    {t : WifiTranscript} {p : WifiM ℤ}
    (hrun : After (NetworkMode.station.finish nl ctx sc index c r) t p) : requestsOf t = [] := by
  have hcrash : NetworkMode.station.finish nl ctx sc index c r =
      ask .nullDeref fun e => Empty.elim e := by
    show (WifiM.deref (ctx.config index) >>= _) = _
    rw [hconfig]
    exact congrArg (ask _) (funext fun e => e.elim)
  rw [hcrash] at hrun
  cases t with
  | nil => rfl
  | cons x t =>
    obtain ⟨e, -⟩ := After.of_ask hrun
    exact e.elim

/-- Behind the adding all commands name the network that is read, and at least one does. -/
theorem addresses_iff_of_finish {mode : NetworkMode} {sc' : WifiSoftc} {c : Handle} {r : Reply}
    {t₀ : WifiTranscript} {word : Text}
    (hfinish : After (mode.run nl ctx sc index) t₀ (mode.finish nl ctx sc' index c r)) :
    Addresses (mode.run nl ctx sc index) t₀ word ↔
      (mode = .station ∧ ctx.config index = none) ∨ firstWord (networkId r) = word := by
  constructor
  · intro haddresses
    by_cases hcrash : mode = .station ∧ ctx.config index = none
    · exact Or.inl hcrash
    · right
      have hconfig : mode = .station → ctx.config index ≠ none := by
        intro hstation hnone
        exact hcrash ⟨hstation, hnone⟩
      obtain ⟨t, p, hrest, request, hmem, hnamed⟩ := exists_named hconfig r
      exact haddresses t p (hfinish.trans hrest) request hmem _ hnamed
  · intro hcond t p hrun request hmem word' hnamed
    have hrest := hfinish.behind hrun
    rcases hcond with ⟨rfl, hnone⟩ | hword
    · rw [requestsOf_finishStation hnone hrest] at hmem
      exact absurd hmem List.not_mem_nil
    · have hnames := (onlyAsks_finish mode r).of_mem hrest _ (mem_of_mem_requestsOf hmem)
      have hsome : networkNamed request.cmd = some (firstWord (networkId r)) := hnames
      rw [hword, hnamed] at hsome
      exact Option.some.inj hsome

/-- **The commands behind the adding of a network name this network**, exactly if the program does
not end before them or the identifier is one that is kept.  The length of the reply buffer is not
reset between two requests, so a longer number is cut and what was in the buffer stands behind it.
-/
theorem addresses_iff (mode : NetworkMode) (nl : Netlink.Libnl NlAttrs) (ctx : WifiContext)
    (sc : WifiSoftc) (index : Slot) (t₀ : WifiTranscript) (h : Handle) (b : WpaAnswer)
    (p : WifiM ℤ) (n : ℕ)
    (hsent : After (mode.run nl ctx sc index) (t₀ ++ [addNetwork h b]) p)
    (hreply : WpaAnswer.Brings (bufferBehind (answersOf t₀)).len (decimal n ++ "\n".toList) b) :
    Addresses (mode.run nl ctx sc index) (t₀ ++ [addNetwork h b]) (decimal n) ↔
      (mode = .station ∧ ctx.config index = none) ∨
        IdKept (bufferBehind (answersOf t₀)) (decimal n) := by
  have hadded := added mode hsent
  obtain ⟨hresult, hread⟩ :=
    answered_digits (decimal_ne_nil n) (isdigit_decimal n) hreply hadded.not_fail
  obtain ⟨sc', hfinish⟩ := hadded.finish hresult.ge
  rw [addresses_iff_of_finish hfinish,
    firstWord_networkId_iff (decimal_ne_nil n) (isdigit_decimal n) hread]

/-- The removing of the networks is answered by `OK` and a line change. -/
def removedNetworks : WifiTranscript :=
  [⟨.wpaRequest 0 "REMOVE_NETWORK all".toList, .received ["OK\n".toList] .timeout⟩]

/-- A network is added with a reply of one datagram. -/
def addedBy (reply : Text) : Exchange WifiQ WifiA := addNetwork 0 (.received [reply] .timeout)

theorem exists_after_addedBy (reply : Text) : ∃ p,
    After (NetworkMode.station.run .standard ⟨fun _ => some .zero⟩ openSoftc 0)
      (removedNetworks ++ [addedBy reply]) p :=
  ⟨_, .reply _ (.reply _ (.start _))⟩

theorem brings_single (room : ℕ) (d : Text) : WpaAnswer.Brings room d (.received [d] .timeout) :=
  ⟨[], [], .timeout, rfl, fun _ h => absurd h List.not_mem_nil⟩

/-- A station is set up on the network 0. -/
theorem station_addresses :
    Addresses (NetworkMode.station.run .standard ⟨fun _ => some .zero⟩ openSoftc 0)
      (removedNetworks ++ [addedBy (decimal (0 : ℕ) ++ "\n".toList)]) (decimal (0 : ℕ)) := by
  obtain ⟨p, hsent⟩ := exists_after_addedBy (decimal (0 : ℕ) ++ "\n".toList)
  have hkept : IdKept (bufferBehind (answersOf removedNetworks)) (decimal (0 : ℕ)) := by
    decide
  exact (addresses_iff .station .standard ⟨fun _ => some .zero⟩ openSoftc 0 removedNetworks 0 _ p 0
    hsent (brings_single _ _)).mpr (Or.inr hkept)

/-- Of the identifier 1000 there is room for three digits behind such a reply, and the commands name
the network 100. -/
theorem not_all_addressed : ¬ ∀ (mode : NetworkMode) (nl : Netlink.Libnl NlAttrs)
    (ctx : WifiContext) (sc : WifiSoftc) (index : Slot) (t₀ : WifiTranscript) (h : Handle)
    (b : WpaAnswer) (p : WifiM ℤ) (n : ℕ),
    After (mode.run nl ctx sc index) (t₀ ++ [addNetwork h b]) p →
    WpaAnswer.Brings (bufferBehind (answersOf t₀)).len (decimal n ++ "\n".toList) b →
    Addresses (mode.run nl ctx sc index) (t₀ ++ [addNetwork h b]) (decimal n) := by
  intro hall
  obtain ⟨p, hsent⟩ := exists_after_addedBy (decimal (1000 : ℕ) ++ "\n".toList)
  have haddresses := hall .station .standard ⟨fun _ => some .zero⟩ openSoftc 0 removedNetworks 0 _ p
    1000 hsent (brings_single _ _)
  obtain ⟨sc', hfinish⟩ := (added .station hsent).finish (by decide)
  rcases (addresses_iff_of_finish hfinish).mp haddresses with ⟨-, hnone⟩ | hword
  · exact absurd hnone (Option.some_ne_none _)
  · exact absurd hword (by decide)

end Addressed

end RadioHal.Wifi
