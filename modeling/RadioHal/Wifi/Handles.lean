import RadioHal.Lib.Ownership
import RadioHal.Wifi.Replies
import RadioHal.Wifi.Session

/-!
# The handles of the control connections

Every connection that is open should be held by exactly one of the fields of the slots, and no
field should hold one that is closed.  Attaching overwrites what a slot holds and leaves behind
what it closes when it fails on the way, and closing leaves all pointers where they are.

## Main definitions

* `handleIn` — the fields of the slots that hold handles.
* `HandleCall`, `HandleRun` — the calls of a user, and the states any sequence of them leads to.
* `Careful` — the calls, with what is answered, that keep the books.

## Main results

* `wp_wifiHalWpaAttach_books` — what attaching makes of a slot.
* `owns_of_careful` — **the fields hold exactly the open connections when all calls have been
  careful.**
-/

namespace RadioHal.Wifi

open CLib Dialogue

/-! ### Fields -/

/-- The fields of a slot that hold handles. -/
inductive HandleField
  | ctrl | monitor | meshCtrl
  deriving DecidableEq

/-- What a field of a slot holds. -/
def fieldOf (c : WpaCtrlCtx) : HandleField → Option Handle
  | .ctrl => c.ctrl
  | .monitor => c.monitor
  | .meshCtrl => c.meshCtrl

/-- What the fields of all slots hold. -/
def handleIn (sc : WifiSoftc) (p : Slot × HandleField) : Option Handle :=
  fieldOf (sc.wpaCtx p.1) p.2

/-- A slot without connections, as `wifi_hal_attach` leaves it. -/
def Detached (sc : WifiSoftc) (i : Slot) : Prop := sc.wpaCtx i = ⟨none, none, none⟩

/-! ### What is answered -/

/-- The answers that `wpa_ctrl_open2` gave along a run, in their order. -/
def opens (t : WifiTranscript) : List (Option Handle) :=
  t.filterMap fun x =>
    match x with
    | ⟨.wpaOpen _, h⟩ => some h
    | _ => none

/-- The number of slots attached to: each takes two connections, or one that cannot be opened. -/
def attachCount (t : WifiTranscript) : ℕ := ((opens t).length + 1) / 2

/-- Whether the monitor of each slot that has a control connection can be opened. -/
def monitorsOpen : List (Option Handle) → Bool
  | some _ :: none :: _ => false
  | some _ :: some _ :: rest => monitorsOpen rest
  | _ => true

/-- The answer to `ATTACH` is `OK` and a line change. -/
def attachAccepted (answer : WpaAnswer) : Prop := answer.reply 10 = some "OK\n".toList

/-- No attaching failed behind the opening of a control connection. -/
structure NoneGivenUp (t : WifiTranscript) : Prop where
  monitors : monitorsOpen (opens t) = true
  accepted : ∀ m cmd answer, (⟨.wpaRequest m cmd, answer⟩ : Exchange WifiQ WifiA) ∈ t →
    attachAccepted answer

/-! ### Calls -/

/-- The calls that have to do with the connections. -/
inductive HandleCall
  | halOpen
  | halClose
  | joinMesh (index : Slot)
  | createAp (index : Slot)
  | connectAp (index : Slot)
  | getScanResults (index : Slot)
  /-- `wifi_hal_send_wpa_command`. -/
  | command (index : Slot) (cmd : Text) (resp : Reply)
  /-- `wifi_hal_send_wpa_mesh_command`. -/
  | meshCommand (index : Slot) (cmd : Text) (resp : Reply)

/-- The program of a call, which leaves the softc. -/
def HandleCall.run (nl : Netlink.Libnl NlAttrs) (ctx : WifiContext) (sc : WifiSoftc) :
    HandleCall → WifiM WifiSoftc
  | halOpen => do
    let r ← wifiHalOpen nl sc
    return r.1
  | halClose => do
    let r ← wifiHalClose sc
    return r.1
  | joinMesh index => do
    let r ← wifiHalJoinMesh nl ctx sc index
    return r.1
  | createAp index => do
    let _ ← wifiHalCreateAp nl ctx sc index
    return sc
  | connectAp index => do
    let _ ← wifiHalConnectAp nl ctx sc index
    return sc
  | getScanResults index => do
    let _ ← wifiHalGetScanResults sc index
    return sc
  | command index cmd resp => do
    let _ ← wifiHalSendWpaCommand sc index cmd resp
    return sc
  | meshCommand index cmd resp => do
    let _ ← wifiHalSendWpaMeshCommand sc index cmd resp
    return sc

/-- The softc, and the connections that are open. -/
structure HandleState where
  sc : WifiSoftc
  live : Set Handle

/-- The surroundings: a connection that is opened is a new one, one that is closed is gone. -/
def connections : World WifiQ WifiA (Set Handle) := hal fun _ => True

/-- The states that calls lead to, one after the other, from `wifi_hal_attach` on; the calls and
what is answered meet `cond`. -/
inductive HandleRun (nl : Netlink.Libnl NlAttrs) (ctx : WifiContext)
    (cond : WifiSoftc → HandleCall → WifiTranscript → Prop) : HandleState → Prop
  | attach : HandleRun nl ctx cond ⟨wifiHalAttach, ∅⟩
  | call {s : HandleState} (c : HandleCall) {t : WifiTranscript} {sc' : WifiSoftc}
      {live' : Set Handle} (hrun : HandleRun nl ctx cond s)
      (hcall : Reach (recorded connections) (s.live, []) (c.run nl ctx s.sc) (live', t) (ret sc'))
      (hcond : cond s.sc c t) : HandleRun nl ctx cond ⟨sc', live'⟩

/-- **The calls that keep the books**: opening attaches to slots without connections, and gives
none up on the way; closing finds the slots of the radios without connections; a mesh is joined
where there is no mesh connection. -/
def Careful (sc : WifiSoftc) (c : HandleCall) (t : WifiTranscript) : Prop :=
  match c with
  | .halOpen => (∀ i : Slot, i.val < attachCount t → Detached sc i) ∧ NoneGivenUp t
  | .halClose => ∀ i : Slot, i.val < sc.radioAmount → Detached sc i
  | .joinMesh index => (sc.wpaCtx index).meshCtrl = none
  | _ => True

/-! ### Questions that leave the connections alone -/

/-- A question that opens and closes nothing. -/
def WifiQ.HandleFree : WifiQ → Prop
  | .wpaOpen _ => False
  | .wpaClose _ => False
  | _ => True

theorem handleFree_of_inert {q : WifiQ} (h : WifiQ.Inert q) : WifiQ.HandleFree q := by
  cases q <;> trivial

theorem opens_append (t t' : WifiTranscript) : opens (t ++ t') = opens t ++ opens t' :=
  List.filterMap_append

section Surroundings

variable {live live' : Set Handle} {t t' : WifiTranscript}

/-- The connections stay as they are, and none has been opened. -/
def Unopened (live : Set Handle) (t : WifiTranscript) (s : Set Handle × WifiTranscript) : Prop :=
  s.1 = live ∧ ∃ t', s.2 = t ++ t' ∧ opens t' = []

theorem Unopened.refl : Unopened live t (live, t) := ⟨rfl, [], (List.append_nil t).symm, rfl⟩

theorem unopened_of_handleFree {q : WifiQ} {a : WifiA q} {s s' : Set Handle × WifiTranscript}
    (hq : WifiQ.HandleFree q) (h : Unopened live t s) (hstep : recorded connections s q a s') :
    Unopened live t s' := by
  obtain ⟨hworld, hrecord⟩ := hstep
  obtain ⟨hlive, t₁, ht, hopens⟩ := h
  refine ⟨?_, t₁ ++ [⟨q, a⟩], by rw [hrecord, ht, List.append_assoc], ?_⟩
  · rw [← hlive]
    unfold connections hal at hworld
    split at hworld
    · exact hworld.2
    · exact hworld
    · exact hq.elim
    · exact hq.elim
    · exact hworld
  · rw [opens_append, hopens]
    cases q <;> first | rfl | exact hq.elim

/-- **A program that opens and closes nothing** leaves the connections as they are. -/
theorem wp_of_handleFree {α : Type} {R : α → Prop} {p : WifiM α}
    (hp : OnlyAsks WifiQ.HandleFree p) (hr : Yields R p) :
    wp (recorded connections) (fun _ _ => True) (fun r s => R r ∧ Unopened live t s) p (live, t) :=
  wp_of_yields (Unopened live t) hp hr (fun _ _ _ _ => trivial)
    (fun _ _ _ _ hq hs hstep => unopened_of_handleFree hq hs hstep) Unopened.refl

theorem wp_of_inert {α : Type} {p : WifiM α} (hp : OnlyAsks WifiQ.Inert p) :
    wp (recorded connections) (fun _ _ => True) (fun _ s => Unopened live t s) p (live, t) :=
  wp_consequence (wp_of_handleFree (hp.mono fun _ => handleFree_of_inert)
    (Yields.of_forall (R := fun _ => True) (fun _ => trivial) p)) fun _ _ h => h.2

end Surroundings

/-! ### Attaching -/

section Attaching

variable {live : Set Handle} {t : WifiTranscript}

/-- What attaching comes to: the monitor is accepted, or the control connection cannot be opened,
or it is given up. -/
inductive AttachEnd (sc : WifiSoftc) (i : Slot) (live : Set Handle) (t : WifiTranscript) :
    WifiSoftc × ℤ → Set Handle → Prop
  | attached {c m : Handle} : opens t = [some c, some m] → c ∉ live → m ∉ insert c live →
      AttachEnd sc i live t (sc.setWpaCtx i ⟨some c, some m, none⟩, 0) (insert m (insert c live))
  | noCtrl : opens t = [none] →
      AttachEnd sc i live t (sc.setWpaCtx i ⟨none, (sc.wpaCtx i).monitor, none⟩, -1) live
  | givenUp {r : WifiSoftc × ℤ} {live' : Set Handle} : r.2 ≠ 0 → ¬ NoneGivenUp t →
      AttachEnd sc i live t r live'

/-- Asking for events is answered as it should, or fails. -/
theorem wp_wpaCtrlAttach (m : Handle) :
    wp (recorded connections) (fun _ _ => True)
      (fun r s => s.1 = live ∧ ∃ t', s.2 = t ++ t' ∧ opens t' = [] ∧
        (r < 0 → ∃ cmd answer, (⟨.wpaRequest m cmd, answer⟩ : Exchange WifiQ WifiA) ∈ t' ∧
          ¬ attachAccepted answer))
      (wpaCtrlAttach (some m)) (live, t) := by
  refine ⟨trivial, ?_⟩
  rintro buf s₁ ⟨hlive₁, ht₁⟩
  refine ⟨trivial, ?_⟩
  rintro answer s₂ ⟨hlive₂, ht₂⟩
  have hlive : s₂.1 = live := hlive₂.trans hlive₁
  have ht : s₂.2 = t ++ [⟨.uninitBuffer 10, buf⟩, ⟨.wpaRequest m "ATTACH".toList, answer⟩] := by
    rw [ht₂, ht₁, List.append_assoc]
    rfl
  have hpost : ∀ r : ℤ, (r < 0 → ¬ attachAccepted answer) → s₂.1 = live ∧ ∃ t', s₂.2 = t ++ t' ∧
      opens t' = [] ∧ (r < 0 → ∃ cmd answer,
        (⟨.wpaRequest m cmd, answer⟩ : Exchange WifiQ WifiA) ∈ t' ∧ ¬ attachAccepted answer) :=
    fun r hr => ⟨hlive, _, ht, rfl, fun hneg =>
      ⟨_, answer, List.mem_cons_of_mem _ List.mem_cons_self, hr hneg⟩⟩
  by_cases haccepted : attachAccepted answer
  · obtain ⟨hresult, hlen, ⟨rest, hbytes⟩, -⟩ :=
      deliver_of_reply (r := ⟨(buf : CharArray 10).bytes, 10⟩) haccepted
    show wp _ _ _ (if _ then _ else if _ then _ else _) _
    rw [if_neg (by rw [hresult]; decide), if_pos ⟨hlen, by rw [hbytes]; rfl⟩]
    exact hpost 0 fun h => absurd h (by decide)
  · show wp _ _ _ (if _ then _ else if _ then _ else _) _
    split
    · exact hpost _ fun _ => haccepted
    split
    · exact hpost _ fun _ => haccepted
    · exact hpost _ fun _ => haccepted

/-- **What attaching makes of a slot**, and of the connections that are open.  The ends it may come
to are the cases of `AttachEnd`. -/
theorem wp_wifiHalWpaAttach_books (sc : WifiSoftc) (i : Slot) :
    wp (recorded connections) (fun _ _ => True)
      (fun r s => ∃ t', s.2 = t ++ t' ∧ AttachEnd sc i live t' r s.1)
      (wifiHalWpaAttach sc i) (live, t) := by
  refine ⟨trivial, ?_⟩
  rintro ctrl ⟨live₁, t₁⟩ ⟨hlive₁, ht₁⟩
  cases ctrl with
  | none =>
    obtain rfl : live₁ = live := hlive₁
    exact ⟨_, ht₁, .noCtrl rfl⟩
  | some c =>
    obtain ⟨hc, rfl⟩ : c ∉ live ∧ live₁ = insert c live := hlive₁
    refine ⟨trivial, ?_⟩
    rintro monitor ⟨live₂, t₂⟩ ⟨hlive₂, ht₂⟩
    have ht : t₂ = t ++
        [⟨.wpaOpen (sockPath sc i), some c⟩, ⟨.wpaOpen (sockPath sc i), monitor⟩] := by
      have h₂ : t₂ = t₁ ++ [⟨.wpaOpen (sockPath sc i), monitor⟩] := ht₂
      have h₁ : t₁ = t ++ [⟨.wpaOpen (sockPath sc i), some c⟩] := ht₁
      rw [h₂, h₁, List.append_assoc]
      rfl
    cases monitor with
    | none =>
      -- the control connection is closed, and left in its field
      refine ⟨trivial, ?_⟩
      rintro closed ⟨live₃, t₃⟩ ⟨-, ht₃⟩
      refine ⟨_, by rw [ht₃, ht, List.append_assoc], .givenUp (by simp) fun h => ?_⟩
      have hopen : false = true := h.monitors
      exact absurd hopen (by simp)
    | some m =>
      obtain ⟨hm, rfl⟩ : m ∉ insert c live ∧ live₂ = insert m (insert c live) := hlive₂
      show wp _ _ _ (wpaCtrlAttach (some m) >>= _) _
      rw [wp_bind, ht]
      refine wp_consequence (wp_wpaCtrlAttach m) ?_
      rintro attached ⟨live₃, t₃⟩ ⟨rfl, t', ht₃, hopens, hrefused⟩
      show wp _ _ _ (if _ then _ else _) _
      split
      · rename_i hneg
        obtain ⟨cmd, answer, hmem, hnot⟩ := hrefused hneg
        -- both connections are closed, and left in their fields
        refine ⟨trivial, ?_⟩
        rintro closed₁ ⟨live₄, t₄⟩ ⟨-, ht₄⟩
        refine ⟨trivial, ?_⟩
        rintro closed₂ ⟨live₅, t₅⟩ ⟨-, ht₅⟩
        refine ⟨[⟨.wpaOpen (sockPath sc i), some c⟩, ⟨.wpaOpen (sockPath sc i), some m⟩] ++
          (t' ++ ([⟨.wpaClose m, closed₁⟩] ++ [⟨.wpaClose c, closed₂⟩])), ?_,
          .givenUp (by simp) fun h => hnot (h.accepted m cmd answer ?_)⟩
        · rw [ht₅, ht₄, ht₃]
          simp only [List.append_assoc]
        · exact List.mem_append_right _ (List.mem_append_left _ hmem)
      · refine ⟨_, by rw [ht₃, List.append_assoc], .attached ?_ hc hm⟩
        rw [opens_append, hopens]
        rfl

/-- The fields after the connections of a slot have been set. -/
theorem handleIn_setWpaCtx (sc : WifiSoftc) (i j : Slot) (c : WpaCtrlCtx) (f : HandleField) :
    handleIn (sc.setWpaCtx i c) (j, f) = if j = i then fieldOf c f else handleIn sc (j, f) := by
  unfold handleIn WifiSoftc.setWpaCtx
  dsimp only
  rw [Function.update_apply]
  split <;> rfl

/-- Two new connections go into a slot that has none, and the books are kept. -/
theorem owns_setWpaCtx {sc : WifiSoftc} {i : Slot} {c m : Handle} (h : Owns (handleIn sc) live)
    (hi : Detached sc i) (hc : c ∉ live) (hm : m ∉ insert c live) :
    Owns (handleIn (sc.setWpaCtx i ⟨some c, some m, none⟩)) (insert m (insert c live)) := by
  have hempty : ∀ f, handleIn sc (i, f) = none := by
    intro f
    unfold handleIn
    rw [show sc.wpaCtx (i, f).1 = ⟨none, none, none⟩ from hi]
    cases f <;> rfl
  -- one field after the other
  have hctrl : Owns (handleIn (sc.setWpaCtx i ⟨some c, none, none⟩)) (insert c live) := by
    refine h.acquire (i := (i, .ctrl)) (hempty _) hc ?_ ?_
    · rw [handleIn_setWpaCtx, if_pos rfl]
      rfl
    · rintro ⟨j, f⟩ hj
      rw [handleIn_setWpaCtx]
      split
      · rename_i hji
        subst hji
        cases f
        · exact absurd rfl hj
        · exact (hempty _).symm
        · exact (hempty _).symm
      · rfl
  refine hctrl.acquire (i := (i, .monitor)) ?_ hm ?_ ?_
  · rw [handleIn_setWpaCtx, if_pos rfl]
    rfl
  · rw [handleIn_setWpaCtx, if_pos rfl]
    rfl
  · rintro ⟨j, f⟩ hj
    rw [handleIn_setWpaCtx, handleIn_setWpaCtx]
    split
    · rename_i hji
      subst hji
      cases f
      · rfl
      · exact absurd rfl hj
      · rfl
    · rfl

/-- Behind openings that are in order, the rest is looked at by itself. -/
theorem NoneGivenUp.of_append {ta tb : WifiTranscript} (h : NoneGivenUp (ta ++ tb))
    (hta : monitorsOpen (opens ta ++ opens tb) = monitorsOpen (opens tb)) : NoneGivenUp tb := by
  constructor
  · have hmonitors := h.monitors
    rw [opens_append, hta] at hmonitors
    exact hmonitors
  · intro m cmd answer hmem
    exact h.accepted m cmd answer (List.mem_append_right _ hmem)

/-- A slot without connections is not changed by one that could not be opened. -/
theorem handleIn_of_detached {sc : WifiSoftc} {i : Slot} (hi : Detached sc i) :
    handleIn (sc.setWpaCtx i ⟨none, (sc.wpaCtx i).monitor, none⟩) = handleIn sc := by
  have hslot : sc.wpaCtx i = ⟨none, none, none⟩ := hi
  unfold handleIn WifiSoftc.setWpaCtx
  dsimp only
  rw [hslot, ← hslot, Function.update_eq_self]

/-- A slot that is attached to is one more. -/
theorem attachCount_of_two {ta tb : WifiTranscript} {c m : Handle}
    (hopens : opens ta = [some c, some m]) :
    attachCount (ta ++ tb) = attachCount tb + 1 := by
  unfold attachCount
  rw [opens_append, hopens]
  simp only [List.length_append, List.length_cons, List.length_nil]
  omega

/-- The attaching loop keeps the books of slots without connections, unless it gives one up. -/
theorem wp_attachRadios_books (is : List Slot) (hnodup : is.Nodup) (sc : WifiSoftc) :
    wp (recorded connections) (fun _ _ => True)
      (fun r s => ∃ t', s.2 = t ++ t' ∧ (Owns (handleIn sc) live →
        (∀ i ∈ is.take (attachCount t'), Detached sc i) → NoneGivenUp t' →
        Owns (handleIn r.1) s.1))
      (attachRadios is sc) (live, t) := by
  induction is generalizing sc live t with
  | nil => exact ⟨[], (List.append_nil t).symm, fun h _ _ => h⟩
  | cons i is ih =>
    obtain ⟨hi, hnodup⟩ := List.nodup_cons.mp hnodup
    unfold attachRadios
    rw [wp_bind]
    refine wp_consequence (wp_wifiHalWpaAttach_books sc i) ?_
    rintro r ⟨live₁, t₁⟩ ⟨ta, ht₁, hend⟩
    split
    -- attaching has failed at this slot, and the loop ends
    · rename_i hfailed
      refine ⟨ta, ht₁, fun h hdetached hnone => ?_⟩
      cases hend with
      | attached => exact absurd rfl hfailed
      | noCtrl hopens =>
        have hi : Detached sc i := hdetached i (by simp [attachCount, hopens])
        rw [handleIn_of_detached hi]
        exact h
      | givenUp _ hgiven => exact absurd hnone hgiven
    -- the slot holds its two connections, and the loop goes on
    · rename_i hdone
      cases hend with
      | noCtrl => exact absurd hdone (by simp)
      | givenUp hfailed => exact absurd hfailed hdone
      | @attached c m hopens hc hm =>
        obtain rfl : t₁ = t ++ ta := ht₁
        refine wp_consequence (ih hnodup (sc.setWpaCtx i ⟨some c, some m, none⟩)) ?_
        rintro r ⟨live₂, t₂⟩ ⟨tb, ht₂, hrest⟩
        refine ⟨ta ++ tb, by rw [ht₂, List.append_assoc], fun h hdetached hnone => ?_⟩
        rw [attachCount_of_two hopens, List.take_succ_cons] at hdetached
        refine hrest (owns_setWpaCtx h (hdetached i List.mem_cons_self) hc hm) ?_
          (hnone.of_append (by rw [hopens]; rfl))
        intro j hj
        have hji : j ≠ i := by
          rintro rfl
          exact hi (List.mem_of_mem_take hj)
        show Function.update sc.wpaCtx i _ j = _
        rw [Function.update_of_ne hji]
        exact hdetached j (List.mem_cons_of_mem i hj)

end Attaching

/-! ### Opening and closing -/

section Opening

variable (nl : Netlink.Libnl NlAttrs) {live : Set Handle} {t : WifiTranscript}

theorem onlyAsks_wifiHalGetInterface (sc : WifiSoftc) :
    OnlyAsks WifiQ.HandleFree (wifiHalGetInterface nl sc) := by
  refine ⟨trivial, fun allocated => ?_⟩
  cases allocated with
  | false => trivial
  | true =>
    refine ⟨trivial, fun answer => ?_⟩
    cases answer with
    | none => trivial
    | some a =>
      have hmessages := onlyAsks_certain (onlyAsks_unsent (onlyAsks_nlRecvmsgs nl ifCb a sc))
      exact ((onlyAsks_inert hmessages).mono fun _ => handleFree_of_inert).bind fun _ => trivial

/-- The radios come in the order of their slots. -/
theorem val_lt_of_mem_take {sc : WifiSoftc} {k : ℕ} {i : Slot} (h : i ∈ sc.radios.take k) :
    i.val < k := by
  have hsplit : sc.radios = [] ∨ sc.radios = [0] ∨ sc.radios = [0, 1] := by
    unfold WifiSoftc.radios
    rw [show List.finRange wifiRadioMax = [0, 1] from rfl]
    by_cases h₀ : 0 < sc.radioAmount
    · by_cases h₁ : 1 < sc.radioAmount
      · simp [h₀, h₁]
      · simp [h₀, h₁]
    · have h₁ : ¬ 1 < sc.radioAmount := by omega
      simp [h₀, h₁]
  rcases hsplit with hnil | hone | htwo
  · rw [hnil] at h
    simp at h
  · rw [hone] at h
    rcases k with _ | k
    · simp at h
    · simp at h
      rw [h]
      exact Nat.succ_pos k
  · rw [htwo] at h
    rcases k with _ | _ | k
    · simp at h
    · simp at h
      rw [h]
      exact Nat.one_pos
    · have hlt := i.isLt
      have hmax : wifiRadioMax = 2 := rfl
      omega

theorem attachCount_append {ta tb : WifiTranscript} (h : opens ta = []) :
    attachCount (ta ++ tb) = attachCount tb := by
  unfold attachCount
  rw [opens_append, h, List.nil_append]

theorem NoneGivenUp.of_append_nil {ta tb : WifiTranscript} (h : NoneGivenUp (ta ++ tb))
    (hta : opens ta = []) : NoneGivenUp tb := h.of_append (by rw [hta, List.nil_append])

/-- **Opening the HAL** keeps the books of slots without connections, unless it gives one up.  The
dump leaves the connections alone, and then one radio after the other is attached to. -/
theorem wp_wifiHalOpen_books (sc : WifiSoftc) :
    wp (recorded connections) (fun _ _ => True)
      (fun r s => ∃ t', s.2 = t ++ t' ∧ (Owns (handleIn sc) live →
        (∀ i : Slot, i.val < attachCount t' → Detached sc i) → NoneGivenUp t' →
        Owns (handleIn r.1) s.1))
      (wifiHalOpen nl sc) (live, t) := by
  unfold wifiHalOpen
  rw [wp_bind]
  refine wp_consequence (wp_of_handleFree (onlyAsks_wifiHalGetInterface nl _)
    (yields_wifiHalGetInterface nl _)) ?_
  rintro listed ⟨live₁, t₁⟩ ⟨⟨ifindex, ifname, phyname, radioAmount, hlisted⟩, rfl, ta, rfl, hta⟩
  -- the dump does not touch the connections
  have hsame : handleIn listed.1 = handleIn sc := by
    rw [hlisted]
    rfl
  dsimp only
  split
  -- without interfaces the opening ends here
  · refine ⟨ta, rfl, fun h _ _ => ?_⟩
    rw [hsame]
    exact h
  unfold WifiM.endOfTable
  split
  -- starting wpa_supplicant does not touch them either, and then the radios are attached
  · rw [ret_bind, wp_bind]
    refine wp_consequence (wp_of_inert (onlyAsks_wifiHalStartWpaDummyConfig listed.1)) ?_
    rintro started ⟨live₂, t₂⟩ ⟨rfl, tb, rfl, htb⟩
    refine wp_consequence (wp_attachRadios_books listed.1.radios ?_ listed.1) ?_
    · exact (List.nodup_finRange wifiRadioMax).filter _
    rintro r ⟨live₃, t₃⟩ ⟨tc, rfl, hattached⟩
    refine ⟨ta ++ (tb ++ tc), by simp only [List.append_assoc], fun h hdetached hnone => ?_⟩
    rw [attachCount_append hta, attachCount_append htb] at hdetached
    refine hattached (hsame ▸ h) (fun i hi => ?_)
      ((hnone.of_append_nil hta).of_append_nil htb)
    have hi' := hdetached i (val_lt_of_mem_take hi)
    rw [hlisted]
    exact hi'
  · exact ⟨trivial, fun e => e.elim⟩

theorem closeRadios_of_detached (is : List Slot) (sc : WifiSoftc)
    (h : ∀ i ∈ is, Detached sc i) :
    ∃ sc', closeRadios is sc = ret sc' ∧ sc'.wpaCtx = sc.wpaCtx := by
  induction is generalizing sc with
  | nil => exact ⟨sc, rfl, rfl⟩
  | cons i is ih =>
    obtain ⟨sc', hclose, hctx⟩ := ih (sc.clearInterface i) fun j hj =>
      h j (List.mem_cons_of_mem i hj)
    refine ⟨sc', ?_, hctx⟩
    have hi : sc.wpaCtx i = ⟨none, none, none⟩ := h i List.mem_cons_self
    unfold closeRadios wifiHalWpaDettach
    rw [hi]
    exact hclose

/-- So closing keeps the books where no radio has a connection. -/
theorem wp_wifiHalClose_books {sc : WifiSoftc} (howns : Owns (handleIn sc) live)
    (h : ∀ i : Slot, i.val < sc.radioAmount → Detached sc i) :
    wp (recorded connections) (fun _ _ => True) (fun r s => Owns (handleIn r.1) s.1)
      (wifiHalClose sc) (live, t) := by
  obtain ⟨sc', hclose, hctx⟩ := closeRadios_of_detached sc.radios sc fun i hi =>
    h i (by simpa [WifiSoftc.radios] using hi)
  have hsame : handleIn sc' = handleIn sc := by
    unfold handleIn
    rw [hctx]
  unfold wifiHalClose WifiM.endOfTable
  rw [hclose, ret_bind]
  split
  · show Owns (handleIn sc') live
    rw [hsame]
    exact howns
  · exact ⟨trivial, fun e => e.elim⟩

/-- Joining a mesh keeps the books of a slot without a mesh connection. -/
theorem wp_wifiHalJoinMesh_books (ctx : WifiContext) {sc : WifiSoftc} {index : Slot}
    (howns : Owns (handleIn sc) live) (h : (sc.wpaCtx index).meshCtrl = none) :
    wp (recorded connections) (fun _ _ => True) (fun r s => Owns (handleIn r.1) s.1)
      (wifiHalJoinMesh nl ctx sc index) (live, t) := by
  refine ⟨trivial, ?_⟩
  rintro meshCtrl ⟨live₁, t₁⟩ ⟨hlive₁, -⟩
  have howns₁ : Owns (handleIn (sc.setWpaCtx index
      { sc.wpaCtx index with meshCtrl := meshCtrl })) live₁ := by
    cases meshCtrl with
    | none =>
      -- the field was empty, and stays so
      obtain rfl : live₁ = live := hlive₁
      have hsame : ({ sc.wpaCtx index with meshCtrl := none } : WpaCtrlCtx) = sc.wpaCtx index := by
        rw [← h]
      rw [hsame]
      unfold WifiSoftc.setWpaCtx
      rw [Function.update_eq_self]
      exact howns
    | some c =>
      -- the new connection goes into the empty field
      obtain ⟨hc, rfl⟩ : c ∉ live ∧ live₁ = insert c live := hlive₁
      refine howns.acquire (i := (index, HandleField.meshCtrl)) h hc ?_ ?_
      · rw [handleIn_setWpaCtx, if_pos rfl]
        rfl
      · rintro ⟨j, f⟩ hj
        rw [handleIn_setWpaCtx]
        split
        · rename_i hji
          subst hji
          cases f
          · rfl
          · rfl
          · exact absurd rfl hj
        · rfl
  cases meshCtrl with
  | none => exact howns₁
  | some c =>
    show wp _ _ _ (joinMeshNetwork nl ctx _ index >>= _) _
    rw [wp_bind]
    refine wp_consequence
      (wp_of_inert (onlyAsks_inert (onlyAsks_joinMeshNetwork nl ctx _ index))) ?_
    -- what follows opens nothing and closes nothing
    rintro joined ⟨live₂, t₂⟩ ⟨rfl, -⟩
    exact howns₁

end Opening

/-! ### Runs -/

section Runs

variable {nl : Netlink.Libnl NlAttrs} {ctx : WifiContext}

/-- **A careful call keeps the books**: behind it the slots hold exactly the connections that are
open. -/
theorem owns_call {s : HandleState} {c : HandleCall} {t : WifiTranscript} {sc' : WifiSoftc}
    {live' : Set Handle} (howns : Owns (handleIn s.sc) s.live)
    (hcall : Reach (recorded connections) (s.live, []) (c.run nl ctx s.sc) (live', t) (ret sc'))
    (hcareful : Careful s.sc c t) : Owns (handleIn sc') live' := by
  -- a call that opens and closes nothing leaves softc and connections as they are
  have hinert : ∀ {α : Type} {p : WifiM α}, OnlyAsks WifiQ.Inert p →
      wp (recorded connections) (fun _ _ => True) (fun sc s => Owns (handleIn sc) s.1)
        (p >>= fun _ => ret s.sc) (s.live, []) := by
    intro α p hp
    rw [wp_bind]
    refine wp_consequence (wp_of_inert hp) ?_
    rintro _ ⟨live₁, t₁⟩ ⟨rfl, -⟩
    exact howns
  cases c with
  | halOpen =>
    obtain ⟨hdetached, hnone⟩ := hcareful
    have hopen : wp (recorded connections) (fun _ _ => True)
        (fun sc s' => ∃ t', s'.2 = [] ++ t' ∧ (Owns (handleIn s.sc) s.live →
          (∀ i : Slot, i.val < attachCount t' → Detached s.sc i) → NoneGivenUp t' →
          Owns (handleIn sc) s'.1))
        (HandleCall.halOpen.run nl ctx s.sc) (s.live, []) := by
      unfold HandleCall.run
      rw [wp_bind]
      exact wp_wifiHalOpen_books nl s.sc
    obtain ⟨t', rfl, hbooks⟩ := wp_reach hcall hopen
    exact hbooks howns hdetached hnone
  | halClose =>
    have hclose : wp (recorded connections) (fun _ _ => True) (fun sc s' => Owns (handleIn sc) s'.1)
        (HandleCall.halClose.run nl ctx s.sc) (s.live, []) := by
      unfold HandleCall.run
      rw [wp_bind]
      exact wp_wifiHalClose_books howns hcareful
    exact wp_reach hcall hclose
  | joinMesh index =>
    have hjoin : wp (recorded connections) (fun _ _ => True) (fun sc s' => Owns (handleIn sc) s'.1)
        ((HandleCall.joinMesh index).run nl ctx s.sc) (s.live, []) := by
      unfold HandleCall.run
      rw [wp_bind]
      exact wp_wifiHalJoinMesh_books nl ctx howns hcareful
    exact wp_reach hcall hjoin
  | createAp index =>
    have hquiet := onlyAsks_inert (onlyAsks_wifiHalCreateAp nl ctx s.sc index)
    exact wp_reach hcall (hinert hquiet)
  | connectAp index =>
    have hquiet := onlyAsks_inert (onlyAsks_wifiHalConnectAp nl ctx s.sc index)
    exact wp_reach hcall (hinert hquiet)
  | getScanResults index =>
    exact wp_reach hcall (hinert (onlyAsks_wifiHalGetScanResults s.sc index))
  | command index cmd resp =>
    have hquiet := onlyAsks_inert
      (onlyAsks_wifiHalSendWpaCommand ofCommands_certain s.sc index cmd resp)
    exact wp_reach hcall (hinert hquiet)
  | meshCommand index cmd resp =>
    have hquiet := onlyAsks_inert
      (onlyAsks_wifiHalSendWpaMeshCommand ofCommands_certain s.sc index cmd resp)
    exact wp_reach hcall (hinert hquiet)

/-- **The fields hold exactly the open connections**, each of them once, in every state that careful
calls lead to.  No careful call opens a connection over one that a field holds, or gives one up on
its way to a failure. -/
theorem owns_of_careful {s : HandleState} (hrun : HandleRun nl ctx Careful s) :
    Owns (handleIn s.sc) s.live := by
  induction hrun with
  | attach => exact Owns.empty fun p => by cases p with | mk i f => cases f <;> rfl
  | call c hrun hcall hcareful ih => exact owns_call ih hcall hcareful

end Runs

/-! ### A mesh that is joined twice -/

/-- Without a monitor the networks are not removed, and a network that cannot be added ends the
joining of a mesh. -/
theorem reach_joinMeshNetwork (nl : Netlink.Libnl NlAttrs) (ctx : WifiContext) {sc : WifiSoftc}
    {index : Slot} (hmonitor : (sc.wpaCtx index).monitor = none) {h : Handle}
    (hmesh : (sc.wpaCtx index).meshCtrl = some h) (live : Set Handle) (t : WifiTranscript) :
    ∃ t', Reach (recorded connections) (live, t) (joinMeshNetwork nl ctx sc index) (live, t')
      (ret (-1)) := by
  have hremove : ∀ cmd r, wifiHalSendWpaCommand sc index cmd r = ret (-1, r) := by
    intro cmd r
    unfold wifiHalSendWpaCommand
    rw [if_pos hmonitor]
    rfl
  have hadd : ∀ cmd r, wifiHalSendWpaMeshCommand sc index cmd r =
      ask (.wpaRequest h cmd) fun answer =>
        ret (commandResult (answer.deliver r).1 (answer.deliver r).2) := by
    intro cmd r
    unfold wifiHalSendWpaMeshCommand
    rw [hmesh]
    rfl
  unfold joinMeshNetwork
  rw [hremove, ret_bind]
  dsimp only
  rw [hadd]
  exact ⟨_, .reply .sendFailed (recorded_step rfl t) (.start _ _)⟩

/-- A mesh is joined as far as its connection. -/
theorem reach_joinMesh (nl : Netlink.Libnl NlAttrs) (ctx : WifiContext) {s : HandleState}
    {index : Slot} (hmonitor : (s.sc.wpaCtx index).monitor = none) {h : Handle} (hh : h ∉ s.live) :
    ∃ t, Reach (recorded connections) (s.live, []) ((HandleCall.joinMesh index).run nl ctx s.sc)
      (insert h s.live, t)
      (ret (s.sc.setWpaCtx index { s.sc.wpaCtx index with meshCtrl := some h })) := by
  have hset : (s.sc.setWpaCtx index { s.sc.wpaCtx index with meshCtrl := some h }).wpaCtx index =
      { s.sc.wpaCtx index with meshCtrl := some h } := Function.update_self ..
  have hmonitor' : ((s.sc.setWpaCtx index { s.sc.wpaCtx index with meshCtrl := some h }).wpaCtx
      index).monitor = none := by
    rw [hset]
    exact hmonitor
  obtain ⟨t, hjoined⟩ := reach_joinMeshNetwork nl ctx hmonitor' (by rw [hset])
    (insert h s.live) [⟨.wpaOpen (sockPath s.sc index), some h⟩]
  have hopen : connections s.live (.wpaOpen (sockPath s.sc index)) (some h) (insert h s.live) :=
    ⟨hh, rfl⟩
  refine ⟨t, .reply (some h) (recorded_step hopen []) ?_⟩
  exact (hjoined.bind _).bind _

/-- An attaching in which both connections are opened and the request is accepted. -/
theorem reach_attach_recorded (sc : WifiSoftc) (i : Slot) {live : Set Handle} {c m : Handle}
    (hc : c ∉ live) (hm : m ∉ insert c live) (t : WifiTranscript) : ∃ t',
    Reach (recorded connections) (live, t) (wifiHalWpaAttach sc i)
      (insert m (insert c live), t ++ t') (ret (sc.setWpaCtx i ⟨some c, some m, none⟩, 0)) ∧
    opens t' = [some c, some m] ∧
    ∀ h cmd answer, (⟨.wpaRequest h cmd, answer⟩ : Exchange WifiQ WifiA) ∈ t' →
      attachAccepted answer := by
  have hctrl : connections live (.wpaOpen (sockPath sc i)) (some c) (insert c live) := ⟨hc, rfl⟩
  have hmonitor : connections (insert c live) (.wpaOpen (sockPath sc i)) (some m)
      (insert m (insert c live)) := ⟨hm, rfl⟩
  have haccepted : attachAccepted (.received ["OK\n".toList] .timeout) := by
    unfold attachAccepted
    decide
  refine ⟨[⟨.wpaOpen (sockPath sc i), some c⟩, ⟨.wpaOpen (sockPath sc i), some m⟩,
    ⟨.uninitBuffer 10, CharArray.zero 10⟩,
    ⟨.wpaRequest m "ATTACH".toList, .received ["OK\n".toList] .timeout⟩], ?_, rfl, ?_⟩
  · have happend : t ++ [(⟨.wpaOpen (sockPath sc i), some c⟩ : Exchange WifiQ WifiA),
        ⟨.wpaOpen (sockPath sc i), some m⟩, ⟨.uninitBuffer 10, CharArray.zero 10⟩,
        ⟨.wpaRequest m "ATTACH".toList, .received ["OK\n".toList] .timeout⟩] =
        t ++ [⟨.wpaOpen (sockPath sc i), some c⟩] ++ [⟨.wpaOpen (sockPath sc i), some m⟩] ++
          [⟨.uninitBuffer 10, CharArray.zero 10⟩] ++
          [⟨.wpaRequest m "ATTACH".toList, .received ["OK\n".toList] .timeout⟩] := by simp
    rw [happend]
    have hattach : Reach (recorded connections)
        (insert m (insert c live), t ++ [⟨.wpaOpen (sockPath sc i), some c⟩] ++
          [⟨.wpaOpen (sockPath sc i), some m⟩]) (wpaCtrlAttach (some m)) _ (ret 0) :=
      .reply (CharArray.zero 10) (recorded_step rfl _)
        (.reply (WpaAnswer.received ["OK\n".toList] .timeout) (recorded_step rfl _) (.start _ _))
    refine .reply (some c) (recorded_step hctrl t) (.reply (some m) (recorded_step hmonitor _) ?_)
    exact (hattach.bind _).trans (.start _ _)
  · intro h cmd answer hmem
    simp only [List.mem_cons, Sigma.mk.injEq, reduceCtorEq, WifiQ.wpaRequest.injEq,
      List.not_mem_nil, or_false, false_and, false_or] at hmem
    obtain ⟨⟨rfl, rfl⟩, hanswer⟩ := hmem
    exact eq_of_heq hanswer ▸ haccepted

/-- The file for wpa_supplicant cannot be written. -/
def unwritten : Exchange WifiQ WifiA :=
  ⟨.writeFile wpaSupplicantDefaultConfig "ctrl_interface=DIR=/var/run/wpa_supplicant\n".toList,
    false⟩

/-- The opening of a fresh softc on a machine with a single interface, in which nothing is given
up: the first slot gets the connections `1` and `2`. -/
theorem exists_careful_opening (nl : Netlink.Libnl NlAttrs) (ctx : WifiContext) :
    ∃ sc t, Reach (recorded connections) (∅, []) (HandleCall.halOpen.run nl ctx wifiHalAttach)
      (insert 2 (insert 1 ∅), t) (ret sc) ∧ Careful wifiHalAttach .halOpen t ∧
      sc.wpaCtx = Function.update wifiHalAttach.wpaCtx 0 ⟨some 1, some 2, none⟩ := by
  have hrecorded : WellRecorded (listingStart wifiHalAttach) :=
    (listing_listingStart wellRecorded_wifiHalAttach).toWellRecorded
  have hmsg : IsInterface wlan0 := isDump_singleDump wlan0 (List.mem_singleton.mpr rfl)
  have hstep : wifiHalIfnameRespHdlr (listingStart wifiHalAttach) wlan0 =
      some (record wlan0 "wlan0".toList 3 0 (listingStart wifiHalAttach)) := by
    rw [wifiHalIfnameRespHdlr_eq hrecorded.phyname rfl rfl (hmsg.short _ rfl)]
    rfl
  generalize hsc : record wlan0 "wlan0".toList 3 0 (listingStart wifiHalAttach) = sc₁ at hstep
  have hrecv : nlRecvmsgs nl ifCb singleDump (listingStart wifiHalAttach) = ret sc₁ := by
    have hhandle : ifCb.handle = wifiHalIfnameRespHdlr := rfl
    have hfold : singleDump.data.foldlM wifiHalIfnameRespHdlr (listingStart wifiHalAttach) =
        some sc₁ := by
      show (wifiHalIfnameRespHdlr _ wlan0 >>= fun s => some s) = _
      rw [hstep]
      rfl
    rw [nlRecvmsgs_eq, hhandle, hfold]
    rfl
  have hindex : sc₁.ifindex 0 ≠ 0 := by
    rw [← hsc]
    decide
  have hmax : sc₁.radioAmount ≤ wifiRadioMax := by
    rw [← hsc]
    decide
  have hradios : sc₁.radios = [0] := by
    rw [← hsc]
    decide
  have hlisted : Reach (recorded connections) (∅, [])
      (wifiHalGetInterface nl (listingStart wifiHalAttach))
      (∅, [⟨.nlmsgAlloc, true⟩, ⟨.nlRequest .getInterface, some singleDump⟩]) (ret (sc₁, 0)) := by
    refine .reply true (recorded_step rfl _) (.reply (some singleDump)
      (recorded_step ⟨fun _ _ => trivial, rfl⟩ _) ?_)
    show Reach _ _ (nlRecvmsgs nl ifCb singleDump (listingStart wifiHalAttach) >>= _) _ _
    rw [hrecv, ret_bind, if_neg hindex]
    exact .start _ _
  -- that the file for wpa_supplicant cannot be written is only logged
  have hstarted : ∀ t, Reach (recorded connections) (∅, t) (wifiHalStartWpaDummyConfig sc₁)
      (∅, t ++ [unwritten]) (ret (-1)) := fun t =>
    .reply false (recorded_step rfl t) (.start _ _)
  obtain ⟨t', hattach, hopens, haccepted⟩ := reach_attach_recorded sc₁ 0 (Set.notMem_empty 1)
    (by simp : (2 : Handle) ∉ insert 1 ∅) ([⟨.nlmsgAlloc, true⟩,
      ⟨.nlRequest .getInterface, some singleDump⟩] ++ [unwritten])
  have hopened : Reach (recorded connections) (∅, []) (wifiHalOpen nl wifiHalAttach)
      (insert 2 (insert 1 ∅), [⟨.nlmsgAlloc, true⟩,
        ⟨.nlRequest .getInterface, some singleDump⟩] ++ [unwritten] ++ t')
      (ret (sc₁.setWpaCtx 0 ⟨some 1, some 2, none⟩, 0)) := by
    refine (hlisted.bind _).trans ?_
    rw [ret_bind, if_neg (lt_irrefl 0)]
    unfold WifiM.endOfTable
    rw [if_pos hmax, ret_bind]
    refine ((hstarted _).bind _).trans ?_
    rw [ret_bind, hradios]
    exact (hattach.bind _).trans (.start _ _)
  refine ⟨_, _, hopened.bind _, ⟨?_, ?_, ?_⟩, ?_⟩
  · intro i _
    rfl
  · have hall : opens ([⟨.nlmsgAlloc, true⟩, ⟨.nlRequest .getInterface, some singleDump⟩] ++
        [unwritten] ++ t') = [some 1, some 2] := by
      rw [opens_append, hopens]
      rfl
    rw [hall]
    rfl
  · intro h cmd answer hmem
    refine haccepted h cmd answer ?_
    rcases List.mem_append.mp hmem with hmem | hmem
    · exact absurd hmem (by simp [unwritten])
    · exact hmem
  · rw [← hsc]
    rfl

/-- An opening in which nothing is given up, and the joining of a mesh on another slot, keep the
books. -/
theorem first_mesh_in_books : ∃ s, HandleRun .standard ⟨fun _ => none⟩ Careful s ∧
    handleIn s.sc (0, .ctrl) = some 1 ∧ handleIn s.sc (0, .monitor) = some 2 ∧
    handleIn s.sc (1, .meshCtrl) = some 7 ∧ Owns (handleIn s.sc) s.live := by
  obtain ⟨sc, t, hopen, hcareful, hctx⟩ := exists_careful_opening .standard ⟨fun _ => none⟩
  have hopened : HandleRun .standard ⟨fun _ => none⟩ Careful ⟨sc, insert 2 (insert 1 ∅)⟩ :=
    .call .halOpen .attach hopen hcareful
  -- the second slot is as `wifi_hal_attach` has left it
  have hslot : sc.wpaCtx 1 = ⟨none, none, none⟩ := by
    rw [hctx]
    rfl
  have hmonitor : (sc.wpaCtx 1).monitor = none := by rw [hslot]
  obtain ⟨t', hjoin⟩ := reach_joinMesh .standard ⟨fun _ => none⟩
    (s := ⟨sc, insert 2 (insert 1 ∅)⟩) hmonitor (h := 7) (by simp)
  have hjoined : HandleRun .standard ⟨fun _ => none⟩ Careful _ :=
    .call (.joinMesh 1) hopened hjoin (by show (sc.wpaCtx 1).meshCtrl = none; rw [hslot])
  refine ⟨_, hjoined, ?_, ?_, ?_, owns_of_careful hjoined⟩
  · rw [handleIn_setWpaCtx, if_neg (by decide)]
    show (sc.wpaCtx 0).ctrl = some 1
    rw [hctx]
    rfl
  · rw [handleIn_setWpaCtx, if_neg (by decide)]
    show (sc.wpaCtx 0).monitor = some 2
    rw [hctx]
    rfl
  · rw [handleIn_setWpaCtx, if_pos rfl]
    rfl

/-- Not every call keeps the books: a second mesh loses the connection of the first one. -/
theorem not_all_in_books : ¬ ∀ (nl : Netlink.Libnl NlAttrs) (ctx : WifiContext) (s : HandleState),
    HandleRun nl ctx (fun _ _ _ => True) s → Owns (handleIn s.sc) s.live := by
  intro h
  obtain ⟨t₁, hfirst⟩ := reach_joinMesh .standard ⟨fun _ => none⟩ (s := ⟨wifiHalAttach, ∅⟩)
    (rfl : (wifiHalAttach.wpaCtx 0).monitor = none) (Set.notMem_empty 7)
  have hrun₁ : HandleRun .standard ⟨fun _ => none⟩ (fun _ _ _ => True) _ :=
    .call (.joinMesh 0) .attach hfirst trivial
  -- the handle of the first connection stays open, and the second one takes its field
  have hfresh : (8 : Handle) ∉ insert 7 (∅ : Set Handle) := by simp
  obtain ⟨t₂, hsecond⟩ := reach_joinMesh .standard ⟨fun _ => none⟩
    (s := ⟨wifiHalAttach.setWpaCtx 0 { wifiHalAttach.wpaCtx 0 with meshCtrl := some 7 },
      insert 7 ∅⟩) (rfl : ((wifiHalAttach.setWpaCtx 0 _).wpaCtx 0).monitor = none) hfresh
  have hrun₂ : HandleRun .standard ⟨fun _ => none⟩ (fun _ _ _ => True) _ :=
    .call (.joinMesh 0) hrun₁ hsecond trivial
  have howns := h .standard ⟨fun _ => none⟩ _ hrun₁
  have hseven : (7 : Handle) ∈ insert 8 (insert 7 (∅ : Set Handle)) := by simp
  refine howns.not_overwritten (i := (0, HandleField.meshCtrl)) rfl ?_ ?_ hseven
    (h .standard ⟨fun _ => none⟩ _ hrun₂)
  · rw [handleIn_setWpaCtx, if_pos rfl]
    simp [fieldOf]
  · rintro ⟨j, f⟩ hj
    rw [handleIn_setWpaCtx]
    split
    · rename_i hji
      subst hji
      cases f
      · rfl
      · rfl
      · exact absurd rfl hj
    · rfl

end RadioHal.Wifi
