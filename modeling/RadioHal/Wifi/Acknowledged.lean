import Mathlib.Data.List.Forall2
import RadioHal.Wifi.Commands

/-!
# Networks that are set up when wpa_supplicant says so

The dialogues for an access point and for a mesh look at the answer to each of their commands, so
that they are set up when they are reported to be.

## Main definitions

* `SetUpAcknowledged` — all commands of a dialogue have been acknowledged.

## Main results

* `setUp_acknowledged` — **an access point or a mesh is reported to be set up only when all of its
  commands have been acknowledged.**
-/

namespace RadioHal.Wifi

open CLib Dialogue

/-! ### Access points and meshes -/

section SetUp

variable {nl : Netlink.Libnl NlAttrs} {ctx : WifiContext} {sc : WifiSoftc} {index : Slot}

/-- The commands that come before the settings of a network. -/
def preparing : List Text := ["REMOVE_NETWORK all".toList, "ADD_NETWORK".toList]

/-- Behind the commands that prepare a network, those of a list have been sent over `c`, and all of
them acknowledged. -/
def SetUpAcknowledged (c : Handle) (config : Option WifiConfig)
    (commands : Text → WifiConfig → List Text) (t : WifiTranscript) : Prop :=
  ∃ nwId settings before after, config = some settings ∧ requestsOf t = before ++ after ∧
    (∀ request ∈ before, request.cmd ∈ preparing) ∧
    List.Forall₂ (Acknowledges c) (commands nwId settings) after

theorem ProperAnswers.of_append {t t' : WifiTranscript} (h : ProperAnswers (t ++ t')) :
    ProperAnswers t ∧ ProperAnswers t' := by
  unfold ProperAnswers answersOf at h ⊢
  rw [requestsOf_append, List.map_append, List.forall_mem_append] at h
  exact h

theorem ProperAnswers.forall_requestsOf {t : WifiTranscript} (h : ProperAnswers t) :
    ∀ request ∈ requestsOf t, request.answer.Proper :=
  fun _ hmem => h _ (List.mem_map_of_mem hmem)

/-- The common end succeeds only when its commands have been acknowledged. -/
theorem finishSetUp_acknowledged {c : Handle} {modeCmd : Text} {settings : WifiConfig → List Text}
    {r : Reply} {t : WifiTranscript} (hroom : 2 ≤ r.len) (hproper : ProperAnswers t)
    (hrun : After (finishSetUp nl ctx sc index (sendOver c) modeCmd settings r) t (ret 0)) :
    ∃ config, ctx.config index = some config ∧
      List.Forall₂ (Acknowledges c) (modeCmd :: settings config) (requestsOf t) := by
  obtain ⟨t₁, mode, t₂, rfl, hmode, hrest⟩ := after_bind_iff.mp hrun
  obtain ⟨hproper₁, hproper₂⟩ := hproper.of_append
  cases mode with
  | none => exact absurd (after_ret_iff.mp hrest).2 (by decide)
  | some resp =>
    obtain ⟨t₃, config, t₄, rfl, hderef, hcommands⟩ := after_bind_iff.mp hrest
    obtain ⟨rfl, hconfig⟩ := after_deref_iff.mp hderef
    obtain ⟨t₅, u, t₆, rfl, hcard, hcommands⟩ := after_bind_iff.mp hcommands
    obtain ⟨t₇, done, t₈, rfl, hdone, hret⟩ := after_bind_iff.mp hcommands
    obtain ⟨rfl, hzero⟩ := after_ret_iff.mp hret
    cases done with
    | none => exact absurd hzero (by simp)
    | some last =>
      have hproper₇ := hproper₂.of_append.2.of_append.2.of_append.1
      have hfirst := (accepts_of_okCommands hmode).acknowledged hroom hproper₁.forall_requestsOf
      have hlast := (accepts_of_okCommands hdone).acknowledged hfirst.2 hproper₇.forall_requestsOf
      have hnothing := requestsOf_of_unsent (onlyAsks_setCard nl sc index config) hcard
      refine ⟨config, hconfig, ?_⟩
      simp only [requestsOf_append, hnothing, List.nil_append, List.append_nil]
      exact List.rel_append hfirst.1 hlast.1

/-- The buffer of a dialogue has room for an `OK`. -/
theorem two_le_zero_len : 2 ≤ (Reply.zero respBufferSize).len := by decide

/-- **An access point is reported to be set up only when all of its commands have been
acknowledged.** -/
theorem wifiHalCreateAp_acknowledged {t : WifiTranscript} (hproper : ProperAnswers t)
    (hrun : After (wifiHalCreateAp nl ctx sc index) t (ret 0)) :
    ∃ c, (sc.wpaCtx index).ctrl = some c ∧ SetUpAcknowledged c (ctx.config index)
      (fun nwId config => setNetwork nwId "mode 2".toList :: apSettings nwId config) t := by
  rw [wifiHalCreateAp_eq] at hrun
  generalize hzero : (0 : ℤ) = v at hrun
  cases prepared_of_after hrun with
  | unattached => exact absurd hzero (by decide)
  | notRemoved _ hneg => exact absurd hzero hneg.ne'
  | notAdded _ _ hneg => exact absurd hzero hneg.ne'
  | @added c a b t _ hmonitor hctrl _ _ hrest =>
    subst hzero
    obtain ⟨hproper₁, hproper₂⟩ := ProperAnswers.of_append
      (t := [⟨.wpaRequest c "REMOVE_NETWORK all".toList, a⟩,
        ⟨.wpaRequest c "ADD_NETWORK".toList, b⟩]) hproper
    have hroom := Reply.two_le_answered_len
      (Reply.two_le_answered_len two_le_zero_len (hproper₁ a List.mem_cons_self))
      (hproper₁ b (List.mem_cons_of_mem _ List.mem_cons_self))
    rw [wifiHalSendWpaCommand_of_ctrl hmonitor hctrl] at hrest
    obtain ⟨config, hconfig, hall⟩ := finishSetUp_acknowledged hroom hproper₂ hrest
    refine ⟨c, hctrl, _, config, [⟨c, _, a⟩, ⟨c, _, b⟩], _, hconfig, rfl, ?_, hall⟩
    intro request hmem
    rcases List.mem_pair.mp hmem with rfl | rfl
    · exact List.mem_cons_self
    · exact List.mem_cons_of_mem _ List.mem_cons_self

/-- And so is a mesh, over its own connection. -/
theorem joinMeshNetwork_acknowledged {c : Handle} (hmesh : (sc.wpaCtx index).meshCtrl = some c)
    {t : WifiTranscript} (hproper : ProperAnswers t)
    (hrun : After (joinMeshNetwork nl ctx sc index) t (ret 0)) :
    SetUpAcknowledged c (ctx.config index)
      (fun nwId config => setNetwork nwId "mode 5".toList :: meshSettings nwId config) t := by
  rw [joinMeshNetwork_eq, wifiHalSendWpaMeshCommand_of_meshCtrl hmesh] at hrun
  obtain ⟨t₁, r₁, t₂, rfl, hremove, hrun₂⟩ := after_bind_iff.mp hrun
  obtain ⟨t₃, r₂, t₄, rfl, hadd, hrun₄⟩ := after_bind_iff.mp hrun₂
  obtain ⟨b, rfl, rfl⟩ := after_sendOver_iff.mp hadd
  obtain ⟨hproper₁, hproper₂⟩ := hproper.of_append
  obtain ⟨hproper₃, hproper₄⟩ := hproper₂.of_append
  -- the room for the next reply, and the requests of the removal
  have hremoved : 2 ≤ r₁.2.len ∧ ∀ request ∈ requestsOf t₁, request.cmd ∈ preparing := by
    rcases after_wifiHalSendWpaCommand hremove with ⟨-, rfl, rfl⟩ | ⟨-, c', a, -, rfl, rfl⟩
    · exact ⟨two_le_zero_len, fun _ h => absurd h List.not_mem_nil⟩
    · refine ⟨Reply.two_le_answered_len two_le_zero_len (hproper₁ a List.mem_cons_self), ?_⟩
      intro request hmem
      obtain rfl := List.mem_singleton.mp hmem
      exact List.mem_cons_self
  split at hrun₄
  · exact absurd (after_ret_iff.mp hrun₄).2 (by decide)
  have hroom := Reply.two_le_answered_len hremoved.1 (hproper₃ b List.mem_cons_self)
  obtain ⟨config, hconfig, hall⟩ := finishSetUp_acknowledged hroom hproper₄ hrun₄
  refine ⟨_, config, requestsOf t₁ ++ [⟨c, "ADD_NETWORK".toList, b⟩], _, hconfig, ?_, ?_, hall⟩
  · rw [requestsOf_append, requestsOf_append, List.append_assoc]
    rfl
  · intro request hmem
    rcases List.mem_append.mp hmem with hmem | hmem
    · exact hremoved.2 request hmem
    · obtain rfl := List.mem_singleton.mp hmem
      exact List.mem_cons_of_mem _ List.mem_cons_self

theorem wifiHalJoinMesh_acknowledged {t : WifiTranscript} {sc' : WifiSoftc}
    (hproper : ProperAnswers t) (hrun : After (wifiHalJoinMesh nl ctx sc index) t (ret (sc', 0))) :
    ∃ c, (sc'.wpaCtx index).meshCtrl = some c ∧ SetUpAcknowledged c (ctx.config index)
      (fun nwId config => setNetwork nwId "mode 5".toList :: meshSettings nwId config) t := by
  rcases after_wifiHalJoinMesh hrun with ⟨-, hfailed⟩ | ⟨c, t', rfl, hctx, hjoined⟩
  · exact absurd hfailed (by simp)
  · have hmesh : (sc'.wpaCtx index).meshCtrl = some c := by rw [hctx]
    refine ⟨c, hmesh, ?_⟩
    -- the opening of the connection is no request
    have hrest : ProperAnswers t' := hproper
    have hset := joinMeshNetwork_acknowledged hmesh hrest hjoined
    exact hset

/-- **An access point or a mesh is reported to be set up only when all of its commands have been
acknowledged**, in order, over the connection they belong to. -/
theorem setUp_acknowledged (nl : Netlink.Libnl NlAttrs) (ctx : WifiContext) (sc : WifiSoftc)
    (index : Slot) (t : WifiTranscript) (hproper : ProperAnswers t) :
    (After (wifiHalCreateAp nl ctx sc index) t (ret 0) →
      ∃ c, (sc.wpaCtx index).ctrl = some c ∧ SetUpAcknowledged c (ctx.config index)
        (fun nwId config => setNetwork nwId "mode 2".toList :: apSettings nwId config) t) ∧
    ∀ sc', After (wifiHalJoinMesh nl ctx sc index) t (ret (sc', 0)) →
      ∃ c, (sc'.wpaCtx index).meshCtrl = some c ∧ SetUpAcknowledged c (ctx.config index)
        (fun nwId config => setNetwork nwId "mode 5".toList :: meshSettings nwId config) t :=
  ⟨wifiHalCreateAp_acknowledged hproper, fun _ => wifiHalJoinMesh_acknowledged hproper⟩

/-- An access point is set up on the first radio. -/
theorem access_point_acknowledged : ∃ t c,
    After (wifiHalCreateAp .standard ⟨fun _ => some .zero⟩ openSoftc 0) t (ret 0) ∧
      (openSoftc.wpaCtx 0).ctrl = some c ∧ SetUpAcknowledged c (some .zero)
        (fun nwId config => setNetwork nwId "mode 2".toList :: apSettings nwId config) t := by
  obtain ⟨hopen, hmonitor⟩ := openSoftc_open 0
  obtain ⟨t, hrun, hall⟩ := exists_wifiHalCreateAp .standard ⟨fun _ => some .zero⟩ hmonitor hopen
    (Option.some_ne_none _)
  obtain ⟨c, hctrl, hset⟩ := (setUp_acknowledged .standard ⟨fun _ => some .zero⟩ openSoftc 0 t
    hall.proper).1 hrun
  exact ⟨t, c, hrun, hctrl, hset⟩

end SetUp

end RadioHal.Wifi
