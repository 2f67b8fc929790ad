import RadioHal.Wifi.Station

/-!
# What the dialogues come to

Whether a dialogue that sets a network up returns zero can be read off the answers to its
requests: each of them must pass the test its dialogue makes.  Where wpa_supplicant is not
attached, nothing is sent, and the dialogue fails.

## Main definitions

* `Reply.passes` — answers that pass the tests of a dialogue, one after the other.
* `apTests`, `stationTests`, `meshTests` — the tests of the three modes.
* `setUpCall` — the call that sets a radio up in the mode of its configuration.
* `SetUpAccepted` — its answers pass their tests.

## Main results

* `setUpCall_zero_iff` — **the call returns zero exactly if its answers pass their tests.**
-/

namespace RadioHal.Wifi

open CLib Dialogue

/-! ### Tests -/

/-- A test that a dialogue makes of the result of a command and the buffer behind it. -/
abbrev Test : Type := ℤ × Reply → Bool

/-- The test that a command did not fail, whatever its answer is. -/
def notFailed : Test := fun x => decide (0 ≤ x.1)

/-- The command went well, and the buffer reads `OK`. -/
def wasOk : Test := fun x => decide (x.1 = 0) && x.2.isOk

/-- Whether answers pass their tests, one after the other; a dialogue may end before all tests have
been made. -/
def passes : List Test → Reply → List WpaAnswer → Bool
  | test :: tests, r, a :: answers =>
    test (r.answered a) && passes tests (r.answered a).2 answers
  | _, _, _ => true

@[simp] theorem passes_nil (tests : List Test) (r : Reply) : passes tests r [] = true := by
  cases tests <;> rfl

@[simp] theorem passes_cons (test : Test) (tests : List Test) (r : Reply) (a : WpaAnswer)
    (answers : List WpaAnswer) : passes (test :: tests) r (a :: answers) =
      (test (r.answered a) && passes tests (r.answered a).2 answers) := rfl

/-- Where every answer is `OK`, tests that a command passes which went well are all passed. -/
theorem passes_of_okAnswer {tests : List Test}
    (htests : ∀ test ∈ tests, ∀ r : Reply, r.isOk = true → test (0, r) = true) {r : Reply}
    (hroom : 2 ≤ r.len) {answers : List WpaAnswer} (hall : ∀ a ∈ answers, a = okAnswer) :
    passes tests r answers = true := by
  induction tests generalizing r answers with
  | nil => cases answers <;> rfl
  | cons test tests ih =>
    cases answers with
    | nil => rfl
    | cons a answers =>
      obtain ⟨rfl, hrest⟩ := List.forall_mem_cons.mp hall
      obtain ⟨htest, hothers⟩ := List.forall_mem_cons.mp htests
      obtain ⟨r', hanswered, hok, hroom'⟩ := answered_okAnswer hroom
      rw [passes_cons, hanswered, htest r' hok, Bool.true_and]
      exact ih hothers hroom' hrest

/-- The tests of `wifi_hal_create_ap`, which looks at every answer. -/
def apTests : List Test := notFailed :: notFailed :: List.replicate 6 wasOk

/-- `wifi_hal_connect_ap` returns the result of the command for the name, which may be zero without
an `OK`, looks at the buffer alone behind the command for the key, and not at all at the last
answer. -/
def stationTests : List Test :=
  [notFailed, notFailed, fun x => decide (x.1 = 0), fun x => x.2.isOk, fun _ => true]

/-- `wifi_hal_join_mesh` does not look at the first answer, if the command is sent at all. -/
def meshTests (monitor : Option Handle) : List Test :=
  (if monitor = none then [] else [fun _ => true]) ++ notFailed :: List.replicate 6 wasOk

/-! ### The parts of the dialogues -/

section Parts

variable {nl : Netlink.Libnl NlAttrs} {ctx : WifiContext} {sc : WifiSoftc} {index : Slot}

theorem answersOf_append (t t' : WifiTranscript) :
    answersOf (t ++ t') = answersOf t ++ answersOf t' := by
  unfold answersOf
  rw [requestsOf_append, List.map_append]

/-- Commands that must be acknowledged go well if their answers pass, and then leave the rest to the
tests that follow. -/
theorem passes_of_okCommands {c : Handle} {cmds : List Text} {r : Reply} {t : WifiTranscript}
    {o : Option Reply} (hrun : After (okCommands (sendOver c) cmds r) t (ret o))
    (tests : List Test) (answers : List WpaAnswer) :
    passes (List.replicate cmds.length wasOk ++ tests) r (answersOf t ++ answers) =
      o.elim false fun r' => passes tests r' answers := by
  induction cmds generalizing r t with
  | nil =>
    obtain ⟨rfl, rfl⟩ := after_ret_iff.mp hrun
    rfl
  | cons cmd cmds ih =>
    obtain ⟨t₁, x, t₂, rfl, hsend, hrest⟩ := after_bind_iff.mp hrun
    obtain ⟨answer, rfl, rfl⟩ := after_sendOver_iff.mp hsend
    rw [answersOf_append, List.append_assoc]
    show (wasOk (r.answered answer) && passes _ (r.answered answer).2 (answersOf t₂ ++ answers)) = _
    split at hrest
    · rename_i hrefused
      obtain ⟨rfl, rfl⟩ := after_ret_iff.mp hrest
      have hnot : wasOk (r.answered answer) = false := by
        unfold wasOk
        rcases hrefused with hne | hnot
        · simp [hne]
        · simp [hnot]
      rw [hnot]
      rfl
    · rename_i haccepted
      rw [not_or, not_not, Bool.not_eq_false] at haccepted
      have hok : wasOk (r.answered answer) = true := by simp [wasOk, haccepted]
      rw [hok, Bool.true_and]
      exact ih hrest

/-- The common end of two dialogues returns zero exactly if all of its answers pass. -/
theorem finishSetUp_zero_iff {c : Handle} {modeCmd : Text} {settings : WifiConfig → List Text}
    (hlen : ∀ config, (settings config).length = 5) {r : Reply} {t : WifiTranscript} {v : ℤ}
    (hrun : After (finishSetUp nl ctx sc index (sendOver c) modeCmd settings r) t (ret v)) :
    v = 0 ↔ passes (List.replicate 6 wasOk) r (answersOf t) = true := by
  obtain ⟨t₁, mode, t₂, rfl, hmode, hrest⟩ := after_bind_iff.mp hrun
  have hfirst := passes_of_okCommands hmode (List.replicate 5 wasOk) (answersOf t₂)
  rw [answersOf_append]
  rw [show List.replicate 6 wasOk = List.replicate [modeCmd].length wasOk ++ List.replicate 5 wasOk
    from rfl, hfirst]
  cases mode with
  | none =>
    obtain ⟨-, rfl⟩ := after_ret_iff.mp hrest
    simp
  | some resp =>
    obtain ⟨t₃, config, t₄, rfl, hderef, hcommands⟩ := after_bind_iff.mp hrest
    obtain ⟨rfl, -⟩ := after_deref_iff.mp hderef
    obtain ⟨t₅, u, t₆, rfl, hcard, hlast⟩ := after_bind_iff.mp hcommands
    obtain ⟨t₇, done, t₈, rfl, hdone, hret⟩ := after_bind_iff.mp hlast
    obtain ⟨rfl, rfl⟩ := after_ret_iff.mp hret
    have hunsent : answersOf t₅ = [] := by
      unfold answersOf
      rw [requestsOf_of_unsent (onlyAsks_setCard nl sc index config) hcard]
      rfl
    have hsecond := passes_of_okCommands hdone [] []
    rw [hlen, List.append_nil, List.append_nil] at hsecond
    rw [List.nil_append, answersOf_append, hunsent, List.nil_append, List.append_nil]
    show _ ↔ passes (List.replicate 5 wasOk) resp (answersOf t₇) = true
    rw [hsecond]
    cases done <;> simp

/-- What preparing a network comes to, for a dialogue whose rest returns zero exactly if its answers
pass. -/
theorem prepared_zero_iff {rest : Reply → WifiM ℤ} {tests : List Test} {t : WifiTranscript} {v : ℤ}
    (hprepared : Prepared sc index rest t v)
    (hrest : ∀ c, (sc.wpaCtx index).monitor ≠ none → (sc.wpaCtx index).ctrl = some c →
      ∀ r t v, After (rest r) t (ret v) → (v = 0 ↔ passes tests r (answersOf t) = true)) :
    v = 0 ↔ (sc.wpaCtx index).monitor ≠ none ∧
      passes (notFailed :: notFailed :: tests) (.zero respBufferSize) (answersOf t) = true := by
  cases hprepared with
  | unattached hmonitor => simp [hmonitor]
  | @notRemoved c a hmonitor hneg =>
    have hnot : notFailed ((Reply.zero respBufferSize).answered a) = false :=
      decide_eq_false (not_le.mpr hneg)
    constructor
    · intro hzero
      exact absurd hzero hneg.ne
    · rintro ⟨-, hpasses⟩
      have hpass : (notFailed ((Reply.zero respBufferSize).answered a) && true) = true := hpasses
      rw [hnot] at hpass
      exact absurd hpass (by simp)
  | @notAdded c a b hmonitor _ hneg =>
    have hnot : notFailed (((Reply.zero respBufferSize).answered a).2.answered b) = false :=
      decide_eq_false (not_le.mpr hneg)
    constructor
    · intro hzero
      exact absurd hzero hneg.ne
    · rintro ⟨-, hpasses⟩
      have hpass : (notFailed ((Reply.zero respBufferSize).answered a) &&
        (notFailed (((Reply.zero respBufferSize).answered a).2.answered b) &&
          passes tests _ [])) = true := hpasses
      rw [hnot] at hpass
      exact absurd hpass (by simp)
  | @added c a b t v hmonitor hctrl hremoved hadded hrun =>
    have hfirst : notFailed ((Reply.zero respBufferSize).answered a) = true :=
      decide_eq_true hremoved
    have hsecond : notFailed (((Reply.zero respBufferSize).answered a).2.answered b) = true :=
      decide_eq_true hadded
    rw [hrest c hmonitor hctrl _ _ _ hrun]
    show _ ↔ _ ∧ (notFailed _ && (notFailed _ && passes tests _ (answersOf t))) = true
    rw [hfirst, hsecond, Bool.true_and, Bool.true_and]
    exact (and_iff_right hmonitor).symm

/-- The rest of the dialogue for a station returns zero exactly if its answers pass. -/
theorem finishStation_zero_iff {c : Handle} {r : Reply} {t : WifiTranscript} {v : ℤ}
    (hrun : After (finishStation nl ctx sc index (sendOver c) r) t (ret v)) :
    v = 0 ↔ passes [fun x => decide (x.1 = 0), fun x => x.2.isOk, fun _ => true] r
      (answersOf t) = true := by
  obtain ⟨config, -, hend⟩ := stationEnd_of_after hrun
  unfold answersOf
  generalize requestsOf t = requests at hend
  cases hend with
  | @notSet a hfailed => simp
  | @noKey a b hset hok hkey => simp [hkey]
  | @enabled a b e hset hok hkey => simp [hset, hkey]

end Parts

/-! ### The dialogues -/

section Dialogues

variable {nl : Netlink.Libnl NlAttrs} {ctx : WifiContext} {sc : WifiSoftc} {index : Slot}

theorem wifiHalCreateAp_zero_iff {t : WifiTranscript} {v : ℤ}
    (hrun : After (wifiHalCreateAp nl ctx sc index) t (ret v)) :
    v = 0 ↔ (sc.wpaCtx index).monitor ≠ none ∧
      passes apTests (.zero respBufferSize) (answersOf t) = true := by
  rw [wifiHalCreateAp_eq] at hrun
  refine prepared_zero_iff (prepared_of_after hrun) fun c hmonitor hctrl r t v hrest => ?_
  rw [wifiHalSendWpaCommand_of_ctrl hmonitor hctrl] at hrest
  exact finishSetUp_zero_iff (fun _ => rfl) hrest

theorem wifiHalConnectAp_zero_iff {t : WifiTranscript} {v : ℤ}
    (hrun : After (wifiHalConnectAp nl ctx sc index) t (ret v)) :
    v = 0 ↔ (sc.wpaCtx index).monitor ≠ none ∧
      passes stationTests (.zero respBufferSize) (answersOf t) = true := by
  rw [wifiHalConnectAp_eq] at hrun
  refine prepared_zero_iff (prepared_of_after hrun) fun c hmonitor hctrl r t v hrest => ?_
  rw [wifiHalSendWpaCommand_of_ctrl hmonitor hctrl] at hrest
  exact finishStation_zero_iff hrest

/-- A connection for a mesh has been opened. -/
def MeshOpened (t : WifiTranscript) : Prop :=
  ∃ path c, (⟨.wpaOpen path, some c⟩ : Exchange WifiQ WifiA) ∈ t

theorem joinMeshNetwork_zero_iff {c : Handle} (hmesh : (sc.wpaCtx index).meshCtrl = some c)
    {t : WifiTranscript} {v : ℤ} (hrun : After (joinMeshNetwork nl ctx sc index) t (ret v)) :
    v = 0 ↔ passes (meshTests (sc.wpaCtx index).monitor) (.zero respBufferSize)
      (answersOf t) = true := by
  rw [joinMeshNetwork_eq, wifiHalSendWpaMeshCommand_of_meshCtrl hmesh] at hrun
  obtain ⟨t₁, r₁, t₂, rfl, hremove, hrun₂⟩ := after_bind_iff.mp hrun
  -- the first answer passes, if there is one
  have hremoved : passes (meshTests (sc.wpaCtx index).monitor) (.zero respBufferSize)
      (answersOf (t₁ ++ t₂)) =
        passes (notFailed :: List.replicate 6 wasOk) r₁.2 (answersOf t₂) := by
    unfold meshTests
    rw [answersOf_append]
    rcases after_wifiHalSendWpaCommand hremove with ⟨hmonitor, rfl, rfl⟩ |
      ⟨hmonitor, c', a, -, rfl, rfl⟩
    · rw [if_pos hmonitor]
      rfl
    · rw [if_neg hmonitor]
      rfl
  rw [hremoved]
  obtain ⟨t₃, r₂, t₄, rfl, hadd, hrun₄⟩ := after_bind_iff.mp hrun₂
  obtain ⟨b, rfl, rfl⟩ := after_sendOver_iff.mp hadd
  show _ ↔ (notFailed (r₁.2.answered b) && passes _ (r₁.2.answered b).2 (answersOf t₄)) = true
  split at hrun₄
  · rename_i hneg
    obtain ⟨rfl, rfl⟩ := after_ret_iff.mp hrun₄
    have hnot : notFailed (r₁.2.answered b) = false := decide_eq_false (not_le.mpr hneg)
    rw [hnot]
    simp
  · rename_i hadded
    have hpass : notFailed (r₁.2.answered b) = true := decide_eq_true (not_lt.mp hadded)
    rw [hpass, Bool.true_and]
    exact finishSetUp_zero_iff (fun _ => rfl) hrun₄

theorem wifiHalJoinMesh_zero_iff {t : WifiTranscript} {r : WifiSoftc × ℤ}
    (hrun : After (wifiHalJoinMesh nl ctx sc index) t (ret r)) :
    r.2 = 0 ↔ MeshOpened t ∧ passes (meshTests (sc.wpaCtx index).monitor) (.zero respBufferSize)
      (answersOf t) = true := by
  rcases after_wifiHalJoinMesh hrun with ⟨rfl, hfailed⟩ | ⟨c, t', rfl, hctx, hjoined⟩
  · constructor
    · intro hzero
      rw [hfailed] at hzero
      exact absurd hzero (by decide)
    · rintro ⟨⟨path, c, hopened⟩, -⟩
      simp at hopened
  · have hzero := joinMeshNetwork_zero_iff (by rw [hctx]) hjoined
    rw [hctx] at hzero
    exact hzero.trans (and_iff_right ⟨_, c, List.mem_cons_self⟩).symm

/-! ### Setting a radio up -/

variable (nl ctx) in
/-- The call that sets a radio up, with what it returns; a mode that is not known makes none. -/
def setUpCall (sc : WifiSoftc) (index : Slot) (config : WifiConfig) : WifiM (Option ℤ) := do
  if config.modeIs "ap".toList = true then
    let v ← wifiHalCreateAp nl ctx sc index
    return some v
  else if config.modeIs "sta".toList = true then
    let v ← wifiHalConnectAp nl ctx sc index
    return some v
  else if config.modeIs "mesh".toList = true then
    let joined ← wifiHalJoinMesh nl ctx sc index
    return some joined.2
  else return none

/-- **The answers of a dialogue pass the tests of its mode**, and it has the connection it needs. -/
def SetUpAccepted (sc : WifiSoftc) (index : Slot) (config : WifiConfig) (t : WifiTranscript) :
    Prop :=
  if config.modeIs "ap".toList = true then (sc.wpaCtx index).monitor ≠ none ∧
    passes apTests (.zero respBufferSize) (answersOf t) = true
  else if config.modeIs "sta".toList = true then (sc.wpaCtx index).monitor ≠ none ∧
    passes stationTests (.zero respBufferSize) (answersOf t) = true
  else MeshOpened t ∧
    passes (meshTests (sc.wpaCtx index).monitor) (.zero respBufferSize) (answersOf t) = true

/-- **The call returns zero exactly if its answers pass their tests.**  These are the tests that the
source makes itself. -/
theorem setUpCall_zero_iff {config : WifiConfig} {t : WifiTranscript} {v : ℤ}
    (hrun : After (setUpCall nl ctx sc index config) t (ret (some v))) :
    v = 0 ↔ SetUpAccepted sc index config t := by
  unfold setUpCall at hrun
  unfold SetUpAccepted
  by_cases hap : config.modeIs "ap".toList = true
  · rw [if_pos hap] at hrun ⊢
    obtain ⟨t₁, v', t₂, rfl, hcall, hret⟩ := after_bind_iff.mp hrun
    obtain ⟨rfl, hv⟩ := after_ret_iff.mp hret
    obtain rfl := Option.some.inj hv
    rw [List.append_nil]
    exact wifiHalCreateAp_zero_iff hcall
  rw [if_neg hap] at hrun ⊢
  by_cases hsta : config.modeIs "sta".toList = true
  · rw [if_pos hsta] at hrun ⊢
    obtain ⟨t₁, v', t₂, rfl, hcall, hret⟩ := after_bind_iff.mp hrun
    obtain ⟨rfl, hv⟩ := after_ret_iff.mp hret
    obtain rfl := Option.some.inj hv
    rw [List.append_nil]
    exact wifiHalConnectAp_zero_iff hcall
  rw [if_neg hsta] at hrun ⊢
  split at hrun
  · obtain ⟨t₁, joined, t₂, rfl, hcall, hret⟩ := after_bind_iff.mp hrun
    obtain ⟨rfl, hv⟩ := after_ret_iff.mp hret
    obtain rfl := Option.some.inj hv
    rw [List.append_nil]
    exact wifiHalJoinMesh_zero_iff hcall
  · exact absurd (after_ret_iff.mp hrun).2 (by simp)

end Dialogues

end RadioHal.Wifi
