import RadioHal.Wifi.Enumeration
import RadioHal.Wifi.Handles

/-!
# An opening that fails

`wifi_hal_open` lists the interfaces, starts a wpa_supplicant for each radio and attaches to one
after the other.  Attaching to a radio closes what it opened itself when it fails; nothing undoes
the radios before it, or the tables the dump has filled.

## Main definitions

* `stillOpen t` — the handles opened and not closed in the exchanges `t`.
* `LeavesNothing` — no handle is open, and the tables are as they were.
* `AttachDone` — every connection was opened, and every monitor accepted.
* `OpenInOrder` — there was no dump, or nothing went wrong behind it.

## Main results

* `attachRadios_done_iff` — attaching fails exactly when one of its steps does, and the tables stay
  as they are.
* `ifindex_of_dump` — the index in the first slot is that of the first interface with a name.
* `failed_open_leaves_nothing_iff` — **a failed opening leaves nothing behind exactly when it failed
  ahead of the dump.**
-/

namespace RadioHal.Wifi

open CLib Dialogue

/-! ### What is left behind -/

/-- The handles that have been opened, and not closed since. -/
def stillOpen (t : WifiTranscript) : List Handle :=
  t.foldl (fun live x =>
    match x with
    | ⟨.wpaOpen _, opened⟩ => (opened : Option Handle).toList ++ live
    | ⟨.wpaClose h, _⟩ => live.filter (· ≠ h)
    | _ => live) []

/-- **Nothing is left behind**: no handle is open, there are no radios, and the tables of names and
indices are empty. -/
structure LeavesNothing (t : WifiTranscript) (sc : WifiSoftc) : Prop where
  closed : stillOpen t = []
  radioAmount : sc.radioAmount = 0
  ifname : ∀ i, sc.ifname i = []
  ifindex : ∀ i, sc.ifindex i = -1

/-- Every connection could be opened, and every monitor was accepted. -/
structure AttachDone (t : WifiTranscript) : Prop where
  opened : ∀ path, (⟨.wpaOpen path, (none : Option Handle)⟩ : Exchange WifiQ WifiA) ∉ t
  accepted : ∀ m cmd answer, (⟨.wpaRequest m cmd, answer⟩ : Exchange WifiQ WifiA) ∈ t →
    attachAccepted answer

/-- The dump of the interfaces, if there was one. -/
def dumpOf (t : WifiTranscript) : Option KernelAnswer :=
  t.findSome? fun x =>
    match x with
    | ⟨.nlRequest .getInterface, answer⟩ => (answer : Option KernelAnswer)
    | _ => none

/-- The message has a name for its interface. -/
def hasName (msg : NlAttrs) : Bool := decide (msg.ifname.map cstr ≠ some [])

/-- The index of the first interface with a name. -/
def firstIndex (msgs : List NlAttrs) : Option (BitVec 32) := (msgs.find? hasName).bind (·.ifindex)

/-- There was no dump, or its first interface has an index other than zero and attaching to the
radios succeeded. -/
def OpenInOrder (t : WifiTranscript) : Prop :=
  ∀ a, dumpOf t = some a → firstIndex a.data ≠ some 0 ∧ AttachDone t

/-! ### Attaching -/

section Attaching

variable {t t' : WifiTranscript} {sc : WifiSoftc}

theorem attachDone_nil : AttachDone [] := ⟨by simp, by simp⟩

theorem attachDone_append_iff : AttachDone (t ++ t') ↔ AttachDone t ∧ AttachDone t' := by
  constructor
  · intro h
    constructor
    · exact ⟨fun path hmem => h.opened path (List.mem_append_left _ hmem),
        fun m cmd answer hmem => h.accepted m cmd answer (List.mem_append_left _ hmem)⟩
    · exact ⟨fun path hmem => h.opened path (List.mem_append_right _ hmem),
        fun m cmd answer hmem => h.accepted m cmd answer (List.mem_append_right _ hmem)⟩
  · intro h
    refine ⟨?_, ?_⟩
    · intro path hmem
      rcases List.mem_append.mp hmem with hmem | hmem
      · exact h.1.opened path hmem
      · exact h.2.opened path hmem
    · intro m cmd answer hmem
      rcases List.mem_append.mp hmem with hmem | hmem
      · exact h.1.accepted m cmd answer hmem
      · exact h.2.accepted m cmd answer hmem

/-- Nothing goes wrong with connections where none is used. -/
theorem attachDone_of_unsent (h : ∀ x ∈ t, WifiQ.Unsent x.1) : AttachDone t := by
  constructor
  · intro path hmem
    exact h _ hmem
  · intro m cmd answer hmem
    exact (h _ hmem).elim

/-- The value of `wpa_ctrl_attach` for what its request comes to. -/
theorem wpaCtrlAttach_eq (m : Handle) : wpaCtrlAttach (some m) =
    ask (.uninitBuffer 10) fun buf : CharArray 10 => ask (.wpaRequest m "ATTACH".toList)
      fun answer : WpaAnswer =>
        if (answer.deliver ⟨buf.bytes, 10⟩).1 < 0 then ret (answer.deliver ⟨buf.bytes, 10⟩).1
        else if (answer.deliver ⟨buf.bytes, 10⟩).2.len = 3 ∧
          (answer.deliver ⟨buf.bytes, 10⟩).2.bytes.take 3 = "OK\n".toList then ret 0
        else ret (-1) := rfl

/-- A reply of three bytes is accepted exactly when these are right. -/
theorem attachAccepted_iff (answer : WpaAnswer) (buf : Text) : attachAccepted answer ↔
    ¬ (answer.deliver ⟨buf, 10⟩).1 < 0 ∧ (answer.deliver ⟨buf, 10⟩).2.len = 3 ∧
      (answer.deliver ⟨buf, 10⟩).2.bytes.take 3 = "OK\n".toList := by
  constructor
  · intro h
    obtain ⟨hresult, hlen, ⟨rest, hbytes⟩, -⟩ := deliver_of_reply (r := ⟨buf, 10⟩) h
    refine ⟨?_, hlen, ?_⟩
    · rw [hresult]
      decide
    · rw [hbytes]
      rfl
  · intro ⟨hresult, hlen, hbytes⟩
    cases hreply : answer.reply 10 with
    | none => exact absurd (deliver_of_no_reply (r := ⟨buf, 10⟩) hreply).1 hresult
    | some d =>
      obtain ⟨-, hlen', ⟨rest, hbytes'⟩, -⟩ := deliver_of_reply (r := ⟨buf, 10⟩) hreply
      have hd : d.length = 3 := hlen'.symm.trans hlen
      rw [hbytes', ← hd, List.take_left] at hbytes
      unfold attachAccepted
      rw [hreply, hbytes]

/-- Asking for events fails exactly when it is not accepted. -/
theorem wpaCtrlAttach_done_iff {m : Handle} {r : ℤ}
    (hrun : After (wpaCtrlAttach (some m)) t (ret r)) : ¬ r < 0 ↔ AttachDone t := by
  rw [wpaCtrlAttach_eq] at hrun
  obtain ⟨buf, t₁, rfl, h₁⟩ := after_ask_iff.mp hrun
  obtain ⟨answer, t₂, rfl, h₂⟩ := after_ask_iff.mp h₁
  have hanswer : t₂ = [] ∧ (¬ r < 0 ↔ attachAccepted answer) := by
    rw [attachAccepted_iff answer (buf : CharArray 10).bytes]
    split at h₂
    · next hneg =>
      obtain ⟨ht, rfl⟩ := after_ret_iff.mp h₂
      exact ⟨ht, by simp [hneg]⟩
    · next hneg =>
      split at h₂
      · next hok =>
        obtain ⟨ht, rfl⟩ := after_ret_iff.mp h₂
        exact ⟨ht, by simp [hneg, hok]⟩
      · next hok =>
        obtain ⟨ht, rfl⟩ := after_ret_iff.mp h₂
        exact ⟨ht, iff_of_false (by simp) fun h => hok h.2⟩
  obtain ⟨rfl, hiff⟩ := hanswer
  rw [hiff]
  constructor
  · intro h
    constructor
    · intro path hmem
      rcases List.mem_pair.mp hmem with heq | heq
      · cases heq
      · cases heq
    · intro m' cmd answer' hmem
      rcases List.mem_pair.mp hmem with heq | heq
      · cases heq
      · cases heq
        exact h
  · intro h
    exact h.accepted m "ATTACH".toList answer (List.mem_cons_of_mem _ List.mem_cons_self)

theorem not_attachDone_of_mem (path : Text)
    (h : (⟨.wpaOpen path, (none : Option Handle)⟩ : Exchange WifiQ WifiA) ∈ t) : ¬ AttachDone t :=
  fun hdone => hdone.opened path h

/-- Attaching to a radio fails exactly when one of its steps does; the tables stay as they are. -/
theorem wifiHalWpaAttach_done_iff {i : Slot} {r : WifiSoftc × ℤ}
    (hrun : After (wifiHalWpaAttach sc i) t (ret r)) :
    r.1.radioAmount = sc.radioAmount ∧ (r.2 = 0 ↔ AttachDone t) := by
  obtain ⟨ctrl, t₁, rfl, h₁⟩ := after_ask_iff.mp hrun
  cases ctrl with
  | none =>
    obtain ⟨rfl, rfl⟩ := after_ret_iff.mp h₁
    refine ⟨rfl, iff_of_false (by simp) ?_⟩
    exact not_attachDone_of_mem (sockPath sc i) (by simp)
  | some c =>
    obtain ⟨monitor, t₂, rfl, h₂⟩ := after_ask_iff.mp h₁
    cases monitor with
    | none =>
      obtain ⟨closed, t₃, rfl, h₃⟩ := after_ask_iff.mp h₂
      obtain ⟨rfl, rfl⟩ := after_ret_iff.mp h₃
      refine ⟨rfl, iff_of_false (by simp) ?_⟩
      exact not_attachDone_of_mem (sockPath sc i) (by simp)
    | some m =>
      replace h₂ : After (wpaCtrlAttach (some m) >>= fun attached => if attached < 0 then
          ask (.wpaClose m) fun _ => ask (.wpaClose c) fun _ =>
            ret (sc.setWpaCtx i ⟨some c, some m, none⟩, -1)
        else ret (sc.setWpaCtx i ⟨some c, some m, none⟩, 0)) t₂ (ret r) := h₂
      obtain ⟨t₃, attached, t₄, rfl, h₃, h₄⟩ := after_bind_iff.mp h₂
      have hdone := wpaCtrlAttach_done_iff h₃
      have hopened : AttachDone [⟨.wpaOpen (sockPath sc i), some c⟩,
          ⟨.wpaOpen (sockPath sc i), some m⟩] := ⟨by simp, by simp⟩
      split at h₄
      · next hneg =>
        obtain ⟨closed, t₅, rfl, h₅⟩ := after_ask_iff.mp h₄
        obtain ⟨closed', t₆, rfl, h₆⟩ := after_ask_iff.mp h₅
        obtain ⟨rfl, rfl⟩ := after_ret_iff.mp h₆
        refine ⟨rfl, iff_of_false (by simp) ?_⟩
        intro h
        have h' := (attachDone_append_iff (t := [_, _])).mp h
        exact (hdone.mpr (attachDone_append_iff.mp h'.2).1) hneg
      · next hneg =>
        obtain ⟨rfl, rfl⟩ := after_ret_iff.mp h₄
        refine ⟨rfl, iff_of_true rfl ?_⟩
        rw [List.append_nil]
        exact (attachDone_append_iff (t := [_, _])).mpr ⟨hopened, hdone.mp hneg⟩

/-- **Attaching to the radios fails exactly when one of the steps does**, and leaves their number as
it is. -/
theorem attachRadios_done_iff (is : List Slot) {r : WifiSoftc × ℤ}
    (hrun : After (attachRadios is sc) t (ret r)) :
    r.1.radioAmount = sc.radioAmount ∧ (r.2 = 0 ↔ AttachDone t) := by
  induction is generalizing sc t with
  | nil =>
    obtain ⟨rfl, rfl⟩ := after_ret_iff.mp hrun
    exact ⟨rfl, iff_of_true rfl attachDone_nil⟩
  | cons i is ih =>
    obtain ⟨t₁, attached, t₂, rfl, h₁, h₂⟩ := after_bind_iff.mp hrun
    obtain ⟨hamount, hdone⟩ := wifiHalWpaAttach_done_iff h₁
    rw [attachDone_append_iff, ← hdone]
    replace h₂ : After (if _ then _ else _) t₂ (ret r) := h₂
    split at h₂
    · next hfailed =>
      obtain ⟨rfl, rfl⟩ := after_ret_iff.mp h₂
      exact ⟨hamount, by simp [attachDone_nil]⟩
    · next hok =>
      obtain ⟨hamount', hdone'⟩ := ih h₂
      refine ⟨hamount'.trans hamount, ?_⟩
      rw [hdone', and_iff_right (not_not.mp hok)]

end Attaching

/-! ### The first slot -/

section Dump

variable {sc sc' : WifiSoftc} {msg : NlAttrs} {msgs : List NlAttrs}

/-- Storing a phy name changes no name and no index. -/
theorem phySlot_kept (msg : NlAttrs) (i : Slot) (sc : WifiSoftc) :
    (phySlot msg i sc).ifname = sc.ifname ∧ (phySlot msg i sc).ifindex = sc.ifindex := by
  unfold phySlot
  split
  · cases msg.wiphy with
    | none => exact ⟨rfl, rfl⟩
    | some wiphy => exact ⟨rfl, rfl⟩
  · exact ⟨rfl, rfl⟩

/-- A round leaves the first slot as it is, once it has a name. -/
theorem first_of_ifnameRound {i : Slot} (hnamed : sc.ifname 0 ≠ [])
    (h : ifnameRound msg sc i = some sc') :
    sc'.ifname 0 = sc.ifname 0 ∧ sc'.ifindex 0 = sc.ifindex 0 := by
  unfold ifnameRound at h
  simp only [Option.bind_eq_bind, Option.bind_eq_some_iff] at h
  obtain ⟨name, -, hstep⟩ := h
  split at hstep
  · rw [← Option.some.inj hstep]
    exact ⟨rfl, rfl⟩
  · obtain ⟨named, hname, hphy⟩ := Option.bind_eq_some_iff.mp hstep
    rw [← Option.some.inj hphy, (phySlot_kept msg i named).1, (phySlot_kept msg i named).2]
    unfold nameSlot at hname
    split at hname
    · next hempty =>
      obtain ⟨index, -, rfl⟩ := Option.map_eq_some_iff.mp hname
      have hi : (0 : Slot) ≠ i := by
        intro heq
        rw [← heq] at hempty
        exact hnamed hempty
      exact ⟨Function.update_of_ne hi _ _, Function.update_of_ne hi _ _⟩
    · rw [← Option.some.inj hname]
      exact ⟨rfl, rfl⟩

/-- Any number of rounds of a message leaves the interface of the first radio where it is. -/
theorem first_of_foldlM {is : List Slot} (hnamed : sc.ifname 0 ≠ [])
    (h : is.foldlM (ifnameRound msg) sc = some sc') :
    sc'.ifname 0 = sc.ifname 0 ∧ sc'.ifindex 0 = sc.ifindex 0 := by
  refine Netlink.foldlM_keeps
    (fun s => s.ifname 0 = sc.ifname 0 ∧ s.ifindex 0 = sc.ifindex 0) ?_ ⟨rfl, rfl⟩ h
  intro i _ s s' hs hstep
  have hnext := first_of_ifnameRound (hs.1 ▸ hnamed) hstep
  exact ⟨hnext.1.trans hs.1, hnext.2.trans hs.2⟩

/-- A message without a name for its interface changes nothing. -/
theorem wifiHalIfnameRespHdlr_of_not_hasName (h : hasName msg = false) :
    wifiHalIfnameRespHdlr sc msg = some sc := by
  have hname : msg.ifname.map cstr = some [] := by simpa [hasName] using h
  have hround : ∀ i, ifnameRound msg sc i = some sc := by
    intro i
    have hknown : sc.knows [] := ⟨0, strStarts_iff.mpr List.nil_prefix⟩
    unfold ifnameRound
    simp [hname, hknown]
  unfold wifiHalIfnameRespHdlr
  generalize List.finRange wifiRadioMax = is
  induction is with
  | nil => rfl
  | cons i is ih => simpa [hround] using ih

/-- The first message with a name fills the first slot. -/
theorem first_of_hasName (hempty : ∀ i, sc.ifname i = []) (hname : hasName msg = true)
    (h : wifiHalIfnameRespHdlr sc msg = some sc') :
    sc'.ifname 0 ≠ [] ∧ ∃ index, msg.ifindex = some index ∧ sc'.ifindex 0 = index.toInt := by
  unfold wifiHalIfnameRespHdlr at h
  rw [show List.finRange wifiRadioMax = [0, 1] from rfl, List.foldlM_cons] at h
  obtain ⟨s, hs, hrest⟩ := Option.bind_eq_some_iff.mp h
  unfold ifnameRound at hs
  simp only [Option.bind_eq_bind, Option.bind_eq_some_iff] at hs
  obtain ⟨name, hraw, hs⟩ := hs
  have hne : name ≠ [] := by
    rintro rfl
    simp [hasName, hraw] at hname
  have hnew : ¬ sc.knows name := by
    intro ⟨x, hx⟩
    rw [hempty x, strStarts_iff, List.prefix_nil] at hx
    exact hne hx
  rw [if_neg hnew] at hs
  obtain ⟨named, hslot, hphy⟩ := Option.bind_eq_some_iff.mp hs
  unfold nameSlot at hslot
  rw [if_pos (hempty 0)] at hslot
  obtain ⟨index, hindex, rfl⟩ := Option.map_eq_some_iff.mp hslot
  have hs0 : s.ifname 0 = snprintf radioIfnameSize name ∧ s.ifindex 0 = index.toInt := by
    rw [← Option.some.inj hphy, (phySlot_kept msg 0 _).1, (phySlot_kept msg 0 _).2]
    simp [WifiSoftc.storeInterface]
  have hnamed : s.ifname 0 ≠ [] := by
    rw [hs0.1]
    simpa [snprintf, radioIfnameSize] using hne
  obtain ⟨hkept, hkept'⟩ := first_of_foldlM hnamed hrest
  exact ⟨hkept ▸ hnamed, index, hindex, hkept'.trans hs0.2⟩

/-- **The index in the first slot is that of the first interface with a name.**  With no such
interface it stays what it was. -/
theorem ifindex_of_dump (hempty : ∀ i, sc.ifname i = []) (hindex : sc.ifindex 0 ≠ 0)
    (h : msgs.foldlM wifiHalIfnameRespHdlr sc = some sc') :
    sc'.ifindex 0 = 0 ↔ firstIndex msgs = some 0 := by
  induction msgs with
  | nil =>
    obtain rfl := Option.some.inj h
    exact iff_of_false hindex (by simp [firstIndex])
  | cons msg msgs ih =>
    rw [List.foldlM_cons] at h
    obtain ⟨s, hs, hrest⟩ := Option.bind_eq_some_iff.mp h
    cases hname : hasName msg with
    | false =>
      rw [wifiHalIfnameRespHdlr_of_not_hasName hname] at hs
      obtain rfl := Option.some.inj hs
      rw [ih hrest]
      simp [firstIndex, hname]
    | true =>
      obtain ⟨hnamed, index, hmsg, hs0⟩ := first_of_hasName hempty hname hs
      have hkept : sc'.ifname 0 = s.ifname 0 ∧ sc'.ifindex 0 = s.ifindex 0 := by
        refine Netlink.foldlM_keeps
          (fun s' => s'.ifname 0 = s.ifname 0 ∧ s'.ifindex 0 = s.ifindex 0) ?_ ⟨rfl, rfl⟩ hrest
        intro msg' _ s₁ s₂ hinv hstep
        have hnext := first_of_foldlM (hinv.1 ▸ hnamed) hstep
        exact ⟨hnext.1.trans hinv.1, hnext.2.trans hinv.2⟩
      have hfirst : firstIndex (msg :: msgs) = some index := by
        unfold firstIndex
        rw [List.find?_cons_of_pos hname]
        exact hmsg
      rw [hkept.2, hs0, hfirst, Option.some.injEq]
      exact ⟨fun hzero => BitVec.eq_of_toInt_eq hzero, fun hzero => by rw [hzero]; rfl⟩

end Dump

/-! ### Opening -/

section Opening

variable (nl : Netlink.Libnl NlAttrs) {sc : WifiSoftc} {t : WifiTranscript} {r : WifiSoftc × ℤ}

/-- What listing the interfaces comes to: no request, no answer, or a dump that is handled. -/
inductive ListedBy (sc : WifiSoftc) : WifiTranscript → WifiSoftc × ℤ → Prop
  | unsent : ListedBy sc [⟨.nlmsgAlloc, false⟩] (sc, -12)
  | unanswered :
      ListedBy sc [⟨.nlmsgAlloc, true⟩, ⟨.nlRequest .getInterface, none⟩] (sc, -1)
  | dumped {a : KernelAnswer} {sc' : WifiSoftc}
      (hfold : a.data.foldlM wifiHalIfnameRespHdlr sc = some sc') :
      ListedBy sc [⟨.nlmsgAlloc, true⟩, ⟨.nlRequest .getInterface, some a⟩]
        (sc', if sc'.ifindex 0 = 0 then -22 else 0)

theorem listedBy_of_after (hrun : After (wifiHalGetInterface nl sc) t (ret r)) :
    ListedBy sc t r := by
  obtain ⟨allocated, t₁, rfl, h₁⟩ := after_ask_iff.mp hrun
  cases allocated with
  | false =>
    obtain ⟨rfl, rfl⟩ := after_ret_iff.mp h₁
    exact .unsent
  | true =>
    obtain ⟨answer, t₂, rfl, h₂⟩ := after_ask_iff.mp h₁
    cases answer with
    | none =>
      obtain ⟨rfl, rfl⟩ := after_ret_iff.mp h₂
      exact .unanswered
    | some a =>
      replace h₂ : After (nlRecvmsgs nl ifCb a sc >>= fun sc' =>
        ret (sc', if sc'.ifindex 0 = 0 then -22 else 0)) t₂ (ret r) := h₂
      obtain ⟨t₃, sc', t₄, rfl, h₃, h₄⟩ := after_bind_iff.mp h₂
      obtain ⟨rfl, hfold, -⟩ := (after_nlRecvmsgs_iff nl).mp h₃
      obtain ⟨rfl, rfl⟩ := after_ret_iff.mp h₄
      exact .dumped hfold

/-- Nothing goes wrong with connections while the interfaces are listed. -/
theorem ListedBy.attachDone (h : ListedBy sc t r) : AttachDone t := by
  cases h with
  | unsent => exact ⟨by simp, by simp⟩
  | unanswered => exact ⟨by simp, by simp⟩
  | dumped hfold => exact ⟨by simp, by simp⟩

/-- The dump that a run begins with does not change as the run goes on. -/
theorem dumpOf_append {t' : WifiTranscript} {a : KernelAnswer} (h : dumpOf t = some a) :
    dumpOf (t ++ t') = some a := by
  unfold dumpOf at h ⊢
  rw [List.findSome?_append, h, Option.some_or]

/-- **A failed opening leaves nothing behind exactly when it failed ahead of the dump**: where there
was a dump, neither its first index is zero nor does attaching to a radio fail. -/
theorem failed_open_leaves_nothing_iff
    (hrun : After (wifiHalOpen nl wifiHalAttach) t (ret r)) :
    (r.2 ≠ 0 → LeavesNothing t r.1) ↔ OpenInOrder t := by
  obtain ⟨ta, listed, tb, rfl, hlist, hrest⟩ := after_bind_iff.mp hrun
  have hlisted := listedBy_of_after nl hlist
  have hdone := hlisted.attachDone
  replace hrest : After (if _ then _ else _) tb (ret r) := hrest
  unfold OpenInOrder
  cases hlisted with
  | unsent =>
    rw [if_pos (by simp)] at hrest
    obtain ⟨rfl, rfl⟩ := after_ret_iff.mp hrest
    exact iff_of_true (fun _ => ⟨rfl, rfl, fun _ => rfl, fun _ => rfl⟩) (by simp [dumpOf])
  | unanswered =>
    rw [if_pos (by simp)] at hrest
    obtain ⟨rfl, rfl⟩ := after_ret_iff.mp hrest
    exact iff_of_true (fun _ => ⟨rfl, rfl, fun _ => rfl, fun _ => rfl⟩) (by simp [dumpOf])
  | @dumped a sc' hfold =>
    have hdump : ∀ t', dumpOf ([⟨.nlmsgAlloc, true⟩, ⟨.nlRequest .getInterface, some a⟩] ++ t') =
        some a := fun t' => dumpOf_append rfl
    have hfirst : sc'.ifindex 0 = 0 ↔ firstIndex a.data = some 0 :=
      ifindex_of_dump (fun _ => rfl) (by decide) hfold
    simp only [hdump, Option.some.injEq, forall_eq', ne_eq, attachDone_append_iff, hdone, true_and]
    by_cases hzero : sc'.ifindex 0 = 0
    · -- the tables are filled, and the opening fails
      rw [if_pos (by simp [hzero])] at hrest
      obtain ⟨rfl, rfl⟩ := after_ret_iff.mp hrest
      refine iff_of_false ?_ ?_
      · intro h
        have hindex := (h (by simp)).ifindex 0
        exact absurd (hzero.symm.trans hindex) (by decide)
      · intro h
        exact h.1 (hfirst.mp hzero)
    · rw [if_neg (by simp [hzero])] at hrest
      replace hrest : After ((if sc'.radioAmount ≤ wifiRadioMax then ret ()
          else ask .outOfBounds Empty.elim) >>= fun _ =>
        wifiHalStartWpaDummyConfig sc' >>= fun _ => attachRadios sc'.radios sc') tb (ret r) := hrest
      obtain ⟨tc, hbound, hattach⟩ : ∃ tc, (∃ tb', tb = tb' ++ tc ∧ AttachDone tb') ∧
          After (attachRadios sc'.radios sc') tc (ret r) := by
        split at hrest
        · rw [ret_bind] at hrest
          obtain ⟨tb', started, tc, rfl, hstart, hattach⟩ := after_bind_iff.mp hrest
          have hunsent := (unsent_wifiHalStartWpaDummyConfig sc').of_mem hstart
          exact ⟨tc, ⟨tb', rfl, attachDone_of_unsent hunsent⟩, hattach⟩
        · obtain ⟨e, -⟩ := after_ask_iff.mp hrest
          exact e.elim
      obtain ⟨tb', rfl, hstarted⟩ := hbound
      obtain ⟨hamount, hattached⟩ := attachRadios_done_iff sc'.radios hattach
      simp only [attachDone_append_iff, hstarted, true_and, ← hattached,
        mt hfirst.mpr hzero, not_false_eq_true]
      constructor
      · intro h
        by_contra hfailed
        -- there was a radio to attach to, so the tables are filled
        have hzero' := (h hfailed).radioAmount
        rw [hamount] at hzero'
        have hradios : sc'.radios = [] := by
          unfold WifiSoftc.radios
          simp [hzero']
        rw [hradios] at hattach
        obtain ⟨-, rfl⟩ := after_ret_iff.mp hattach
        exact hfailed rfl
      · intro hok hfailed
        exact absurd hok hfailed

end Opening

/-- The exchanges of `wifi_hal_open` on a machine with two interfaces, where no wpa_supplicant is
started anew and the second radio cannot be attached to. -/
def secondFails : WifiTranscript :=
  [⟨.nlmsgAlloc, true⟩,
    ⟨.nlRequest .getInterface, some ⟨[],
      [interfaceMsg "wlan0".toList 3 0, interfaceMsg "wlan1".toList 4 1], .done⟩⟩,
    ⟨.writeFile "/tmp/wpa_supplicant.conf".toList
      "ctrl_interface=DIR=/var/run/wpa_supplicant\n".toList, false⟩,
    ⟨.wpaOpen "/var/run/wpa_supplicant/wlan0".toList, some 1⟩,
    ⟨.wpaOpen "/var/run/wpa_supplicant/wlan0".toList, some 2⟩,
    ⟨.uninitBuffer 10, .zero 10⟩,
    ⟨.wpaRequest 2 "ATTACH".toList, .received ["OK\n".toList] .timeout⟩,
    ⟨.wpaOpen "/var/run/wpa_supplicant/wlan1".toList, none⟩]

/-- Where the request for the interfaces cannot be sent, nothing is left behind. -/
theorem unsent_open_leaves_nothing : ∃ t r,
    After (wifiHalOpen .standard wifiHalAttach) t (ret r) ∧ r.2 = -1 ∧ LeavesNothing t r.1 := by
  have hrun : After (wifiHalOpen .standard wifiHalAttach)
      [⟨.nlmsgAlloc, true⟩, ⟨.nlRequest .getInterface, none⟩] (ret (wifiHalAttach, -1)) :=
    after_replay rfl
  exact ⟨_, _, hrun, rfl, (failed_open_leaves_nothing_iff .standard hrun).mpr
    (fun a ha => absurd ha (by simp [dumpOf])) (by decide)⟩

/-- Not every failed opening leaves nothing behind: where the second radio cannot be attached to,
the handles of the first stay open. -/
theorem not_all_failed_opens_leave_nothing : ¬ ∀ (nl : Netlink.Libnl NlAttrs) (t : WifiTranscript)
    (r : WifiSoftc × ℤ), After (wifiHalOpen nl wifiHalAttach) t (ret r) →
      r.2 ≠ 0 → LeavesNothing t r.1 := by
  intro h
  obtain ⟨r, hr, hfailed⟩ : ∃ r,
      replay secondFails (wifiHalOpen .standard wifiHalAttach) = some (ret r) ∧ r.2 = -1 :=
    ⟨_, rfl, rfl⟩
  have hclosed := (h .standard _ r (after_replay hr) (by rw [hfailed]; decide)).closed
  exact absurd hclosed (by decide)

end RadioHal.Wifi
