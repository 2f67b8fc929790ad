import RadioHal.Wifi.Nl80211

/-!
# Requests the kernel has answered

The six netlink operations wait until a callback clears their flag.  An error has no callback in
any of the three sets, and an acknowledgement has none in the two sets of the dumps, so an
operation answered that way waits for ever.  A dump can also crash the data callback.

## Main definitions

* `NlOp`, `NlOp.run` — the six operations.
* `NlOp.Finishes` — what an answered request should do.
* `NlOp.AnsweredWell` — the answers it does that for.

## Main results

* `request_finishes_iff` — **an answered request finishes exactly when it is answered well.**
* `not_all_requests_finish` — a refused request is waited for for ever.
-/

namespace RadioHal

open CLib Dialogue

/-- The operations that send a request, with their arguments. -/
inductive NlOp
  | getInterface
  | getStainfo (index : Slot)
  | setDistance (index : Slot) (config : WifiConfig)
  | setTxpower (index : Slot) (config : WifiConfig)
  | setCountry (config : WifiConfig)
  | setMeshFwding (index : Slot) (meshFwding : ℤ)

namespace NlOp

variable (nl : Netlink.Libnl NlAttrs) (sc : WifiSoftc)

/-- The operation on a softc, with the value it returns. -/
def run : NlOp → WifiM ℤ
  | getInterface => do return (← wifiHalGetInterface nl sc).2
  | getStainfo index => do return (← wifiHalGetStainfo nl sc index).2
  | setDistance index config => wifiHalSetDistance nl sc index config
  | setTxpower index config => wifiHalSetTxpower nl sc index config
  | setCountry config => wifiHalSetCountry nl config
  | setMeshFwding index meshFwding => wifiHalSetMeshFwding nl sc index meshFwding

/-- The operation sets a parameter, and is answered by an acknowledgement instead of a dump. -/
def isSet : NlOp → Bool
  | getInterface => false
  | getStainfo _ => false
  | _ => true

/-- The waiting loop is left when the whole answer has been read. -/
def Consumes (a : KernelAnswer) : NlOp → Prop
  | getInterface => ∃ sc', Netlink.wait nl ifCb a.datagrams ⟨1, sc⟩ = .exits sc' []
  | getStainfo _ => ∃ sc', Netlink.wait nl linkInfoCb a.datagrams ⟨1, sc⟩ = .exits sc' []
  | _ => Netlink.wait nl setCb a.datagrams ⟨1, ()⟩ = .exits () []

/-- **What an answered request should do**: the loop is left with the answer read, the operation
returns, and a set operation returns `EXIT_SUCCESS` exactly when the answer carried no error. -/
structure Finishes (op : NlOp) (a : KernelAnswer) (p : WifiM ℤ) : Prop where
  consumes : op.Consumes nl sc a
  returns : ∃ r, p = ret r ∧ (op.isSet = true → (r = 0 ↔ ∀ e, a.ending ≠ .error e))

/-- The message has a signal or a rate to store. -/
def hasReadings (msg : NlAttrs) : Bool :=
  match msg.staInfo with
  | some (.parsed s) =>
    s.signal.isSome || s.txBitrate.any (· != .malformed) || s.rxBitrate.any (· != .malformed)
  | _ => false

/-- No message lacks what the data callback reads without looking. -/
def Readable (a : KernelAnswer) : NlOp → Prop
  | getInterface => ∀ msg ∈ a.data, msg.ifname.isSome = true
  | getStainfo _ => ∀ msg ∈ a.data, hasReadings msg = true → (stationIndex sc msg).isSome = true
  | _ => True

/-- **The answers an operation can deal with**: `NLMSG_DONE` ends them, or an acknowledgement ends
them and the operation sets a parameter; and no message lacks what the data callback reads. -/
structure AnsweredWell (op : NlOp) (a : KernelAnswer) : Prop where
  ending : a.ending = .done ∨ (a.ending = .ack ∧ op.isSet = true)
  readable : op.Readable sc a

end NlOp

/-! ### What the data callbacks read -/

theorem isSome_ifnameRound (msg : NlAttrs) (sc : WifiSoftc) (i : Slot) :
    (ifnameRound msg sc i).isSome = true ↔ msg.ifname.isSome = true := by
  unfold ifnameRound nameSlot
  cases h : msg.ifname with
  | none => simp
  | some name =>
    -- a message with a name has an index to go with it
    obtain ⟨index, hindex⟩ := Option.isSome_iff_exists.mp (msg.indexed (by simp [h]))
    by_cases hknown : sc.knows (cstr name)
    · simp [hknown]
    · by_cases hfree : sc.ifname i = [] <;> simp [hknown, hfree, hindex]

theorem isSome_wifiHalIfnameRespHdlr (sc : WifiSoftc) (msg : NlAttrs) :
    (wifiHalIfnameRespHdlr sc msg).isSome = true ↔ msg.ifname.isSome = true := by
  unfold wifiHalIfnameRespHdlr
  rw [Netlink.foldlM_isSome_iff (fun _ => True) (P := fun _ => msg.ifname.isSome = true)
    (fun s i _ => isSome_ifnameRound msg s i) (fun _ _ _ _ _ => trivial) _ trivial]
  have hslot : (0 : Slot) ∈ List.finRange wifiRadioMax := List.mem_finRange 0
  exact ⟨fun h => h 0 hslot, fun h _ _ => h⟩

theorem isSome_storeSignal (sc : WifiSoftc) (msg : NlAttrs) (signal : Option (BitVec 8)) :
    (storeSignal sc msg signal).isSome = true ↔
      (signal.isSome = true → (stationIndex sc msg).isSome = true) := by
  cases signal <;> simp [storeSignal]

theorem isSome_storeRate (sc : WifiSoftc) (msg : NlAttrs) (table : Slot → ℤ)
    (rate : Option (Nested (Option (BitVec 16)))) :
    (storeRate sc msg table rate).isSome = true ↔
      (rate.any (· != .malformed) = true → (stationIndex sc msg).isSome = true) := by
  rcases rate with _ | (_ | bitrate) <;> simp [storeRate]

theorem isSome_wifiHalConnectionInfoHdlr (sc : WifiSoftc) (msg : NlAttrs) :
    (wifiHalConnectionInfoHdlr sc msg).isSome = true ↔
      (NlOp.hasReadings msg = true → (stationIndex sc msg).isSome = true) := by
  unfold wifiHalConnectionInfoHdlr NlOp.hasReadings
  rcases msg.staInfo with _ | (_ | s)
  · simp
  · simp
  · -- all three readings look the index up, and none of them stores before it has it
    have hsignal := isSome_storeSignal sc msg s.signal
    have htx := isSome_storeRate sc msg sc.txrate s.txBitrate
    have hrx := isSome_storeRate sc msg sc.rxrate s.rxBitrate
    simp only [Bool.or_eq_true, or_imp, ← hsignal, ← htx, ← hrx]
    cases storeSignal sc msg s.signal <;> cases storeRate sc msg sc.txrate s.txBitrate <;>
      cases storeRate sc msg sc.rxrate s.rxBitrate <;> simp

theorem readable_getStainfo (sc : WifiSoftc) (index : Slot) (a : KernelAnswer) :
    (a.data.foldlM wifiHalConnectionInfoHdlr sc).isSome = true ↔
      (NlOp.getStainfo index).Readable sc a := by
  refine Netlink.foldlM_isSome_iff (fun s => s.radioAmount = sc.radioAmount) ?_ ?_ _ rfl
  · intro s msg hs
    rw [isSome_wifiHalConnectionInfoHdlr]
    have hindex : stationIndex s msg = stationIndex sc msg := by unfold stationIndex; rw [hs]
    rw [hindex]
  · intro s msg s' hs h
    obtain ⟨signal, tx, rx, rfl⟩ := exists_of_wifiHalConnectionInfoHdlr h
    exact hs

theorem readable_getInterface (sc : WifiSoftc) (a : KernelAnswer) :
    (a.data.foldlM wifiHalIfnameRespHdlr sc).isSome = true ↔ NlOp.getInterface.Readable sc a :=
  Netlink.foldlM_isSome_iff (fun _ => True) (fun s msg _ => isSome_wifiHalIfnameRespHdlr s msg)
    (fun _ _ _ _ _ => trivial) _ trivial

/-! ### What an answered request does -/

section Answered

variable (nl : Netlink.Libnl NlAttrs) (sc : WifiSoftc)

/-- A dump is read to its end when no data callback crashes and `NLMSG_DONE` ends it. -/
theorem exits_dump_iff {cb : Netlink.Callbacks WifiSoftc NlAttrs}
    (hfinish : cb.finish.isSome = true) (hack : cb.ack = none) (a : KernelAnswer) :
    (∃ sc', Netlink.wait nl cb a.datagrams ⟨1, sc⟩ = .exits sc' []) ↔
      a.ending = .done ∧ (a.data.foldlM cb.handle sc).isSome = true := by
  rw [Netlink.wait_answer]
  cases a.data.foldlM cb.handle sc with
  | none => simp
  | some sc' => cases a.ending <;> simp [Netlink.Callbacks.clears, hack, hfinish]

/-- The operations that take a dump finish exactly when they are answered well. -/
theorem finishes_dump_iff {op : NlOp} (hop : op.isSet = false)
    (cb : Netlink.Callbacks WifiSoftc NlAttrs) (hfinish : cb.finish.isSome = true)
    (hack : cb.ack = none) {a : KernelAnswer}
    (hconsumes : op.Consumes nl sc a ↔
      ∃ sc', Netlink.wait nl cb a.datagrams ⟨1, sc⟩ = .exits sc' [])
    (hreadable : (a.data.foldlM cb.handle sc).isSome = true ↔ op.Readable sc a)
    (f : WifiSoftc → ℤ) :
    op.Finishes nl sc a (nlRecvmsgs nl cb a sc >>= fun sc' => ret (f sc')) ↔
      op.AnsweredWell sc a := by
  constructor
  · rintro ⟨hexits, -⟩
    rw [hconsumes, exits_dump_iff nl sc hfinish hack] at hexits
    exact ⟨Or.inl hexits.1, hreadable.mp hexits.2⟩
  · rintro ⟨hending, hread⟩
    have hdone : a.ending = .done := by simpa [hop] using hending
    have hexits := (exits_dump_iff nl sc hfinish hack a).mpr ⟨hdone, hreadable.mpr hread⟩
    refine ⟨hconsumes.mpr hexits, ?_⟩
    obtain ⟨sc', hsc'⟩ := hexits
    refine ⟨f sc', ?_, fun hset => absurd hset (by simp [hop])⟩
    unfold nlRecvmsgs
    rw [hsc']
    rfl

/-- The operations that set a parameter: an error leaves them waiting. -/
theorem finishes_set_iff {op : NlOp} (hop : op.isSet = true) {a : KernelAnswer}
    (hconsumes : op.Consumes nl sc a ↔ Netlink.wait nl setCb a.datagrams ⟨1, ()⟩ = .exits () [])
    (hreadable : op.Readable sc a) :
    op.Finishes nl sc a (nlRecvmsgs nl setCb a () >>= fun _ => ret 0) ↔ op.AnsweredWell sc a := by
  -- no data is expected, and none does any harm
  have hdata : a.data.foldlM setCb.handle () = some () := by
    induction a.data with
    | nil => rfl
    | cons d ds ih => rw [List.foldlM_cons]; exact ih
  have hwait := Netlink.wait_answer nl setCb a ()
  rw [hdata] at hwait
  cases hending : a.ending with
  | error e =>
    -- no callback is called for an error, so the loop waits for ever
    have hblocked : Netlink.wait nl setCb a.datagrams ⟨1, ()⟩ = .blocked := by
      rw [hwait, hending]
      rfl
    refine iff_of_false ?_ ?_
    · rintro ⟨hexits, -⟩
      rw [hconsumes, hblocked] at hexits
      exact absurd hexits (by simp)
    · rintro ⟨hwell, -⟩
      simp [hending] at hwell
  | _ =>
    have hexits : Netlink.wait nl setCb a.datagrams ⟨1, ()⟩ = .exits () [] := by
      rw [hwait, hending]
      rfl
    refine iff_of_true ⟨hconsumes.mpr hexits, 0, ?_, fun _ => ?_⟩
      ⟨by simp [hending, hop], hreadable⟩
    · unfold nlRecvmsgs
      rw [hexits]
      rfl
    · simp [hending]

/-- At the question for an answer, the operation goes on to finish exactly when it is answered
well. -/
def FinishesIff (op : NlOp) (a : KernelAnswer) : (q : WifiQ) → (WifiA q → WifiM ℤ) → Prop
  | .nlRequest _, k => op.Finishes nl sc a (k (some a)) ↔ op.AnsweredWell sc a
  | _, _ => True

theorem atEvery_nlRecvmsgs {σ : Type} (cb : Netlink.Callbacks σ NlAttrs) (op : NlOp)
    (a b : KernelAnswer) (s : σ) (f : σ → ℤ) :
    AtEvery (FinishesIff nl sc op a) (nlRecvmsgs nl cb b s >>= fun s' => ret (f s')) := by
  unfold nlRecvmsgs
  split
  · trivial
  · exact ⟨trivial, fun e => e.elim⟩
  · exact ⟨trivial, fun e => e.elim⟩

theorem atEvery_nlSet (op : NlOp) (hop : op.isSet = true)
    (hconsumes : ∀ a, op.Consumes nl sc a ↔
      Netlink.wait nl setCb a.datagrams ⟨1, ()⟩ = .exits () [])
    (hreadable : ∀ a, op.Readable sc a) (a : KernelAnswer) (request : NlRequest) :
    AtEvery (FinishesIff nl sc op a) (nlSet nl request) := by
  refine ⟨finishes_set_iff nl sc hop (hconsumes a) (hreadable a), fun answer => ?_⟩
  cases answer with
  | none => trivial
  | some b => exact atEvery_nlRecvmsgs nl sc setCb op a b () fun _ => 0

/-- The common course of the operations that take a dump. -/
theorem atEvery_dump {op : NlOp} (hop : op.isSet = false)
    (cb : Netlink.Callbacks WifiSoftc NlAttrs) (hfinish : cb.finish.isSome = true)
    (hack : cb.ack = none)
    (hconsumes : ∀ a, op.Consumes nl sc a ↔
      ∃ sc', Netlink.wait nl cb a.datagrams ⟨1, sc⟩ = .exits sc' [])
    (hreadable : ∀ a, (a.data.foldlM cb.handle sc).isSome = true ↔ op.Readable sc a)
    (request : NlRequest) (f : WifiSoftc → ℤ) {k : Option KernelAnswer → WifiM ℤ}
    (hnone : k none = ret (-1))
    (hsome : ∀ a, k (some a) = (nlRecvmsgs nl cb a sc >>= fun sc' => ret (f sc')))
    (a : KernelAnswer) : AtEvery (FinishesIff nl sc op a) (ask (.nlRequest request) k) := by
  refine ⟨?_, fun answer => ?_⟩
  · show op.Finishes nl sc a (k (some a)) ↔ op.AnsweredWell sc a
    rw [hsome]
    exact finishes_dump_iff nl sc hop cb hfinish hack (hconsumes a) (hreadable a) f
  · cases answer with
    | none => rw [hnone]; trivial
    | some b => rw [hsome]; exact atEvery_nlRecvmsgs nl sc cb op a b sc f

/-- Every operation asks for its answer in a place where it finishes as it should. -/
theorem atEvery_run (op : NlOp) (a : KernelAnswer) :
    AtEvery (FinishesIff nl sc op a) (op.run nl sc) := by
  cases op with
  | getInterface =>
    -- the two dumps wait for the end of their messages
    refine ⟨trivial, fun allocated => ?_⟩
    cases allocated with
    | false => trivial
    | true =>
      exact atEvery_dump nl sc rfl ifCb rfl rfl (fun _ => Iff.rfl) (readable_getInterface sc) _
        (fun sc' => if sc'.ifindex 0 = 0 then -22 else 0) rfl
        (fun b => bind_bind (nlRecvmsgs nl ifCb b sc)
          (fun sc' => ret (sc', if sc'.ifindex 0 = 0 then (-22 : ℤ) else 0)) fun r => ret r.2) a
  | getStainfo index =>
    refine ⟨trivial, fun allocated => ?_⟩
    cases allocated with
    | false => trivial
    | true =>
      exact atEvery_dump nl sc rfl linkInfoCb rfl rfl (fun _ => Iff.rfl)
        (readable_getStainfo sc index) _ (fun _ => 0) rfl
        (fun b => bind_bind (nlRecvmsgs nl linkInfoCb b sc) (fun sc' => ret (sc', (0 : ℤ)))
          fun r => ret r.2) a
  | setDistance index config =>
    -- a distance that is refused, or is out of range, sends nothing
    refine ⟨trivial, fun allocated => ?_⟩
    cases allocated with
    | false => trivial
    | true =>
      show AtEvery _ (if _ then _ else if _ then _ else if _ then _ else nlSet nl _)
      split
      · trivial
      split
      · trivial
      split
      · trivial
      exact atEvery_nlSet nl sc (.setDistance index config) rfl (fun _ => Iff.rfl)
        (fun _ => trivial) a _
  | setTxpower index config =>
    -- the other settings wait for an acknowledgement
    refine ⟨trivial, fun allocated => ?_⟩
    cases allocated with
    | false => trivial
    | true =>
      refine ⟨trivial, fun ifindex => ?_⟩
      exact atEvery_nlSet nl sc (.setTxpower index config) rfl (fun _ => Iff.rfl) (fun _ => trivial)
        a _
  | setCountry config =>
    refine ⟨trivial, fun allocated => ?_⟩
    cases allocated with
    | false => trivial
    | true =>
      exact atEvery_nlSet nl sc (.setCountry config) rfl (fun _ => Iff.rfl) (fun _ => trivial)
        a _
  | setMeshFwding index meshFwding =>
    refine ⟨trivial, fun allocated => ?_⟩
    cases allocated with
    | false => trivial
    | true =>
      refine ⟨trivial, fun ifindex => ?_⟩
      exact atEvery_nlSet nl sc (.setMeshFwding index meshFwding) rfl (fun _ => Iff.rfl)
        (fun _ => trivial) a _

/-- **A request that has been answered finishes exactly when it is answered well.** The HAL waits
for its flag, which only the callbacks for the end of a dump and for an acknowledgement clear.
There is none for `NLMSG_ERROR`, so a request that the kernel refuses is waited for without end. -/
theorem request_finishes_iff (op : NlOp) {t : List (Exchange WifiQ WifiA)} {request : NlRequest}
    {k : Option KernelAnswer → WifiM ℤ} (hrun : After (op.run nl sc) t (ask (.nlRequest request) k))
    (a : KernelAnswer) : op.Finishes nl sc a (k (some a)) ↔ op.AnsweredWell sc a :=
  (AtEvery.of_after hrun (atEvery_run nl sc op a)).1

end Answered

/-- Setting the country waits for the answer to its request. -/
theorem after_setCountry (nl : Netlink.Libnl NlAttrs) (sc : WifiSoftc) (config : WifiConfig) :
    After ((NlOp.setCountry config).run nl sc) [⟨.nlmsgAlloc, true⟩]
      (nlSet nl (.reqSetReg config.countryText)) :=
  @After.reply WifiQ WifiA ℤ .nlmsgAlloc _ [] _ true (.start _)

/-- A country that the kernel acknowledges is set. -/
theorem country_acknowledged :
    (NlOp.setCountry .zero).AnsweredWell wifiHalAttach ⟨[], [], .ack⟩ ∧
      ∃ request, ∃ k : Option KernelAnswer → WifiM ℤ,
        nlSet .standard (.reqSetReg WifiConfig.zero.countryText) = ask (.nlRequest request) k ∧
        (NlOp.setCountry .zero).Finishes .standard wifiHalAttach ⟨[], [], .ack⟩
          (k (some ⟨[], [], .ack⟩)) := by
  have hwell : (NlOp.setCountry .zero).AnsweredWell wifiHalAttach ⟨[], [], .ack⟩ :=
    ⟨Or.inr ⟨rfl, rfl⟩, trivial⟩
  exact ⟨hwell, _, _, rfl, (request_finishes_iff .standard wifiHalAttach _
    (after_setCountry .standard wifiHalAttach .zero) _).mpr hwell⟩

/-- Not every answered request finishes: a country the kernel refuses is waited for for ever. -/
theorem not_all_requests_finish : ¬ ∀ (nl : Netlink.Libnl NlAttrs) (sc : WifiSoftc) (op : NlOp)
    (t : List (Exchange WifiQ WifiA)) (request : NlRequest) (k : Option KernelAnswer → WifiM ℤ),
    After (op.run nl sc) t (ask (.nlRequest request) k) →
      ∀ a : KernelAnswer, op.Finishes nl sc a (k (some a)) := by
  intro h
  have hrefused := h .standard wifiHalAttach (.setCountry .zero) _ _ _
    (after_setCountry .standard wifiHalAttach .zero) ⟨[], [], .error ⟨-22, by decide⟩⟩
  have hexits : Netlink.Outcome.blocked = Netlink.Outcome.exits () [] := hrefused.consumes
  exact absurd hexits (by simp)

end RadioHal
