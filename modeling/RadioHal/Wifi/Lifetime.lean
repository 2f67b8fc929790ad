import Mathlib.Data.Int.Notation
import RadioHal.Lib.Dialogue
import RadioHal.Lib.Ledger
import RadioHal.Lib.Steps

/-!
# Attaching and detaching

`wifi_hal_attach` allocates a context, its private part, a netlink socket and three callbacks, and
on a failure gives back what it has; `wifi_hal_dettach` gives back what an attached HAL holds.  When
the second or the third callback cannot be allocated, the first one is given back twice; and the
third one is not given back when the HAL is detached.

## Main definitions

* `LifetimeQ`, `LifetimeA` — what is asked of the allocators and of netlink.
* `wifiHalAttachCall`, `wifiHalDettach` — attaching and detaching.
* `WifiHalContext.resources` — what an attached HAL holds.
* `PutTwice` — the callbacks that attaching asked for have come to an end behind the first.
* `LifetimeStep` — a process attaches and detaches HALs.

## Main results

* `endsIn_attachForManager`, `givesBack_wifiHalDettach` — what attaching and detaching do to the
  ledger.
* `attach_ledger` — **nothing is given back twice exactly where no allocation fails behind the first
  callback, and then all that is live is held by an attached HAL, but for a callback of each HAL
  detached.**
-/

namespace RadioHal.Wifi

open Dialogue

/-! ### The calls -/

/-- `ENOMEM`. -/
def enomem : ℤ := 12

/-- `EINVAL`. -/
def einval : ℤ := 22

/-- The function that a resource comes from. -/
inductive Allocator
  | calloc | nlSocketAlloc | nlCbAlloc
  deriving DecidableEq

/-- What has been allocated, by whom, and where it is. -/
structure HalResource where
  allocator : Allocator
  address : ℕ
  deriving DecidableEq

/-- What attaching and detaching ask of the allocators and of the netlink library. -/
inductive LifetimeQ
  | alloc (allocator : Allocator)
  /-- `free`, `nl_socket_free` or `nl_cb_put`, of a pointer that is not null -/
  | release (resource : HalResource)
  | genlConnect (sock : ℕ)
  /-- `genl_ctrl_resolve`, for `nl80211` -/
  | genlCtrlResolve (sock : ℕ)
  deriving DecidableEq

def LifetimeA : LifetimeQ → Type
  | .alloc _ => Option ℕ
  | .release _ => Unit
  | .genlConnect _ => ℤ
  | .genlCtrlResolve _ => ℤ

/-- A program that attaches or detaches a HAL. -/
abbrev LifetimeM : Type → Type := Dialogue LifetimeQ LifetimeA

/-- The pointers of `struct netlink_ctx`, each of which may be null. -/
structure NetlinkPointers where
  sock : Option ℕ
  ifCb : Option ℕ
  linkInfoCb : Option ℕ
  setCb : Option ℕ
  deriving DecidableEq

/-- `struct radio_context` with its private part, by the addresses of what belongs to it. -/
structure WifiHalContext where
  ctx : ℕ
  sc : ℕ
  nl : NetlinkPointers
  config : List (Option ℕ)
  deriving DecidableEq

/-- A pointer is given back, which does nothing when it is null. -/
def giveBack (allocator : Allocator) : Option ℕ → LifetimeM Unit
  | none => return ()
  | some p => query (LifetimeQ.release ⟨allocator, p⟩)

/-- `wifi_hal_nl80211_attach`. -/
def wifiHalNl80211Attach (nl : NetlinkPointers) : LifetimeM (NetlinkPointers × ℤ) := do
  let sock : Option ℕ ← query (LifetimeQ.alloc .nlSocketAlloc)
  match sock with
  | none => return ({ nl with sock := none }, -enomem)
  | some p =>
    let err : ℤ ← query (LifetimeQ.genlConnect p)
    if err ≠ 0 then
      giveBack .nlSocketAlloc (some p)
      return ({ nl with sock := some p }, err)
    let id : ℤ ← query (LifetimeQ.genlCtrlResolve p)
    if id < 0 then
      giveBack .nlSocketAlloc (some p)
      return ({ nl with sock := some p }, -einval)
    return ({ nl with sock := some p }, 0)

/-- The callbacks are given back, behind the label `error` of `wifi_hal_register_nl_cb`. -/
def putCallbacks (nl : NetlinkPointers) : LifetimeM Unit := do
  giveBack .nlCbAlloc nl.setCb
  giveBack .nlCbAlloc nl.ifCb
  giveBack .nlCbAlloc nl.linkInfoCb

/-- `wifi_hal_register_nl_cb`. -/
def wifiHalRegisterNlCb (nl : NetlinkPointers) : LifetimeM (NetlinkPointers × ℤ) := do
  let ifCb : Option ℕ ← query (LifetimeQ.alloc .nlCbAlloc)
  let nl := { nl with ifCb := ifCb }
  if ifCb = none then
    putCallbacks nl
    return (nl, -enomem)
  let linkInfoCb : Option ℕ ← query (LifetimeQ.alloc .nlCbAlloc)
  let nl := { nl with linkInfoCb := linkInfoCb }
  if linkInfoCb = none then
    putCallbacks nl
    return (nl, -enomem)
  let setCb : Option ℕ ← query (LifetimeQ.alloc .nlCbAlloc)
  let nl := { nl with setCb := setCb }
  if setCb = none then
    putCallbacks nl
    return (nl, -enomem)
  return (nl, 0)

/-- `wifi_hal_nl80211_dettach`. -/
def wifiHalNl80211Dettach (nl : NetlinkPointers) : LifetimeM Unit := do
  giveBack .nlSocketAlloc nl.sock
  giveBack .nlCbAlloc nl.ifCb
  giveBack .nlCbAlloc nl.linkInfoCb

/-- `wifi_hal_attach`. -/
def wifiHalAttachCall : LifetimeM (Option WifiHalContext) := do
  let ctx : Option ℕ ← query (LifetimeQ.alloc .calloc)
  match ctx with
  | none => return none
  | some ctx =>
    let sc : Option ℕ ← query (LifetimeQ.alloc .calloc)
    match sc with
    | none =>
      giveBack .calloc (some ctx)
      return none
    | some sc =>
      let attached ← wifiHalNl80211Attach ⟨none, none, none, none⟩
      if attached.2 ≠ 0 then
        giveBack .calloc (some sc)
        giveBack .calloc (some ctx)
        return none
      let registered ← wifiHalRegisterNlCb attached.1
      if registered.2 ≠ 0 then
        wifiHalNl80211Dettach registered.1
        giveBack .calloc (some sc)
        giveBack .calloc (some ctx)
        return none
      return some ⟨ctx, sc, registered.1, [none, none]⟩

/-- The manager attaches a HAL, and allocates its configurations. -/
def attachForManager : LifetimeM (Option WifiHalContext) := do
  match ← wifiHalAttachCall with
  | none => return none
  | some hal =>
    let config₀ : Option ℕ ← query (LifetimeQ.alloc .calloc)
    let config₁ : Option ℕ ← query (LifetimeQ.alloc .calloc)
    return some { hal with config := [config₀, config₁] }

/-- The configurations of a context are given back. -/
def freeConfigs : List (Option ℕ) → LifetimeM Unit
  | [] => return ()
  | config :: configs => do
    giveBack .calloc config
    freeConfigs configs

/-- `wifi_hal_dettach`. -/
def wifiHalDettach (hal : WifiHalContext) : LifetimeM ℤ := do
  wifiHalNl80211Dettach hal.nl
  giveBack .calloc (some hal.sc)
  freeConfigs hal.config
  giveBack .calloc (some hal.ctx)
  return 0

/-! ### What is held -/

/-- The resource that a pointer stands for, if it is not null. -/
def heldBy (allocator : Allocator) (p : Option ℕ) : List HalResource :=
  p.toList.map (HalResource.mk allocator)

/-- What detaching gives back, in the order in which it does. -/
def WifiHalContext.givenBack (hal : WifiHalContext) : List HalResource :=
  heldBy .nlSocketAlloc hal.nl.sock ++ heldBy .nlCbAlloc hal.nl.ifCb ++
    heldBy .nlCbAlloc hal.nl.linkInfoCb ++ heldBy .calloc (some hal.sc) ++
    hal.config.flatMap (heldBy .calloc) ++ heldBy .calloc (some hal.ctx)

/-- All that a HAL holds: what detaching gives back, and the callback for set requests. -/
def WifiHalContext.resources (hal : WifiHalContext) : List HalResource :=
  hal.givenBack ++ heldBy .nlCbAlloc hal.nl.setCb

/-- The ledger, and what `nl_cb_alloc` has answered. -/
structure Lifetime where
  ledger : Ledger HalResource
  callbacks : List (Option ℕ)

/-- The answers of `nl_cb_alloc`, behind an answer of an allocator. -/
def Lifetime.callbacksBehind (s : Lifetime) : Allocator → Option ℕ → List (Option ℕ)
  | .nlCbAlloc, a => s.callbacks ++ [a]
  | _, _ => s.callbacks

/-- An allocator returns a null pointer, or what is not live. -/
def lifetimeWorld : World LifetimeQ LifetimeA Lifetime
  | s, .alloc allocator, (a : Option ℕ), s' =>
    (∀ p, a = some p → ⟨allocator, p⟩ ∉ s.ledger.live) ∧
      s'.ledger = (a.elim s.ledger fun p => s.ledger.acquire ⟨allocator, p⟩) ∧
      s'.callbacks = s.callbacksBehind allocator a
  | s, .release resource, _, s' => s' = { s with ledger := s.ledger.release resource }
  | s, .genlConnect _, _, s' => s' = s
  | s, .genlCtrlResolve _, _, s' => s' = s

/-- The first callback has been allocated, and a later one has not. -/
def PutTwice : List (Option ℕ) → Bool
  | some _ :: callbacks => callbacks.contains none
  | _ => false

/-! ### Giving back -/

/-- Whatever is answered, the program ends as `post` says. -/
abbrev EndsIn {α : Type} (post : α → Lifetime → Prop) (p : LifetimeM α) (s : Lifetime) : Prop :=
  wp lifetimeWorld (fun _ _ => True) post p s

/-- The program gives back `rs`, and does nothing else. -/
def GivesBack {α : Type} (p : LifetimeM α) (rs : List HalResource) : Prop :=
  ∀ s, EndsIn (fun _ s' => s' = ⟨s.ledger.releaseAll rs, s.callbacks⟩) p s

section GivingBack

variable {α β : Type} {p : LifetimeM α} {f : α → LifetimeM β} {rs rs' : List HalResource}

theorem givesBack_ret (a : α) : GivesBack (ret a) [] := fun _ => rfl

theorem GivesBack.bind (hp : GivesBack p rs) (hf : ∀ a, GivesBack (f a) rs') :
    GivesBack (p >>= f) (rs ++ rs') := by
  intro s
  unfold EndsIn
  rw [wp_bind]
  refine wp_consequence (hp s) fun a s₁ h₁ => ?_
  subst h₁
  rw [Ledger.releaseAll_append]
  exact hf a ⟨s.ledger.releaseAll rs, s.callbacks⟩

/-- A program that goes on when something has been given back. -/
theorem GivesBack.endsIn_bind (hp : GivesBack p rs) {post : β → Lifetime → Prop} {s : Lifetime}
    (hf : ∀ a, EndsIn post (f a) ⟨s.ledger.releaseAll rs, s.callbacks⟩) :
    EndsIn post (p >>= f) s := by
  unfold EndsIn
  rw [wp_bind]
  refine wp_consequence (hp s) fun a s₁ h₁ => ?_
  subst h₁
  exact hf a

theorem givesBack_giveBack (allocator : Allocator) (x : Option ℕ) :
    GivesBack (giveBack allocator x) (heldBy allocator x) := by
  intro s
  cases x with
  | none => rfl
  | some p => exact ⟨trivial, fun _ s' h => h⟩

theorem givesBack_putCallbacks (nl : NetlinkPointers) : GivesBack (putCallbacks nl)
    (heldBy .nlCbAlloc nl.setCb ++ (heldBy .nlCbAlloc nl.ifCb ++
      heldBy .nlCbAlloc nl.linkInfoCb)) :=
  (givesBack_giveBack _ _).bind fun _ =>
    (givesBack_giveBack _ _).bind fun _ => givesBack_giveBack _ _

theorem givesBack_wifiHalNl80211Dettach (nl : NetlinkPointers) :
    GivesBack (wifiHalNl80211Dettach nl) (heldBy .nlSocketAlloc nl.sock ++
      (heldBy .nlCbAlloc nl.ifCb ++ heldBy .nlCbAlloc nl.linkInfoCb)) :=
  (givesBack_giveBack _ _).bind fun _ =>
    (givesBack_giveBack _ _).bind fun _ => givesBack_giveBack _ _

theorem givesBack_freeConfigs (configs : List (Option ℕ)) :
    GivesBack (freeConfigs configs) (configs.flatMap (heldBy .calloc)) := by
  induction configs with
  | nil => exact givesBack_ret ()
  | cons config configs ih => exact (givesBack_giveBack _ _).bind fun _ => ih

/-- **What detaching gives back**, and nothing else. -/
theorem givesBack_wifiHalDettach (hal : WifiHalContext) :
    GivesBack (wifiHalDettach hal) hal.givenBack := by
  have hall : GivesBack (wifiHalDettach hal) _ :=
    (givesBack_wifiHalNl80211Dettach hal.nl).bind fun _ =>
      (givesBack_giveBack .calloc (some hal.sc)).bind fun _ =>
        (givesBack_freeConfigs hal.config).bind fun _ =>
          (givesBack_giveBack .calloc (some hal.ctx)).bind fun _ => givesBack_ret (0 : ℤ)
  unfold WifiHalContext.givenBack
  simpa only [List.append_assoc, List.append_nil] using hall

end GivingBack

/-! ### Attaching -/

section Attaching

variable {l : Ledger HalResource} {s : Lifetime} {rs : List HalResource}

/-- What a callback is as a resource. -/
def callback (p : ℕ) : HalResource := ⟨.nlCbAlloc, p⟩

/-- An allocation: nothing, or something that is not live. -/
theorem endsIn_alloc {β : Type} {allocator : Allocator} {f : Option ℕ → LifetimeM β}
    {post : β → Lifetime → Prop}
    (hnone : EndsIn post (f none) ⟨s.ledger, s.callbacksBehind allocator none⟩)
    (hsome : ∀ p, ⟨allocator, p⟩ ∉ s.ledger.live → EndsIn post (f (some p))
      ⟨s.ledger.acquire ⟨allocator, p⟩, s.callbacksBehind allocator (some p)⟩) :
    EndsIn post (query (LifetimeQ.alloc allocator) >>= f) s := by
  refine ⟨trivial, ?_⟩
  rintro (a : Option ℕ) s' ⟨hfresh, hledger, hbacks⟩
  obtain rfl : s' = ⟨_, _⟩ := congrArg₂ Lifetime.mk hledger hbacks
  cases a with
  | none => exact hnone
  | some p => exact hsome p (hfresh p rfl)

/-- What `wifi_hal_nl80211_attach` comes to: it fails and holds nothing, or it holds the socket. -/
inductive SocketAttached (nl : NetlinkPointers) (s : Lifetime) :
    NetlinkPointers × ℤ → Lifetime → Prop
  | failed {r : NetlinkPointers × ℤ} {l : Ledger HalResource} : r.2 ≠ 0 →
      s.ledger.Holds [] l → SocketAttached nl s r ⟨l, s.callbacks⟩
  | attached {p : ℕ} {l : Ledger HalResource} :
      s.ledger.Holds [⟨.nlSocketAlloc, p⟩] l →
      SocketAttached nl s ({ nl with sock := some p }, 0) ⟨l, s.callbacks⟩

theorem endsIn_wifiHalNl80211Attach (nl : NetlinkPointers) (s : Lifetime) :
    EndsIn (SocketAttached nl s) (wifiHalNl80211Attach nl) s := by
  refine endsIn_alloc (.failed (by simp [enomem]) (.refl _)) fun p _ => ?_
  have hheld := (Ledger.Holds.refl s.ledger).acquire ⟨.nlSocketAlloc, p⟩
  refine ⟨trivial, ?_⟩
  rintro (err : ℤ) s₁ hs₁
  obtain rfl : s₁ = _ := hs₁
  show EndsIn _ (if err ≠ 0 then _ else _) _
  by_cases herr : err ≠ 0
  · rw [if_pos herr]
    exact (givesBack_giveBack _ _).endsIn_bind fun _ => .failed herr hheld.releaseAll
  rw [if_neg herr]
  refine ⟨trivial, ?_⟩
  rintro (id : ℤ) s₂ hs₂
  obtain rfl : s₂ = _ := hs₂
  show EndsIn _ (if id < 0 then _ else _) _
  by_cases hid : id < 0
  · rw [if_pos hid]
    exact (givesBack_giveBack _ _).endsIn_bind fun _ => .failed (by simp [einval]) hheld.releaseAll
  · rw [if_neg hid]
    exact .attached hheld

/-- What `wifi_hal_register_nl_cb` comes to: without a callback, with the first one given back
although it is still known, or with all of them. -/
inductive Registered (sock : Option ℕ) (s : Lifetime) : NetlinkPointers × ℤ → Lifetime → Prop
  | refused {l : Ledger HalResource} : s.ledger.Holds [] l →
      Registered sock s (⟨sock, none, none, none⟩, -enomem) ⟨l, s.callbacks ++ [none]⟩
  | putBack {p : ℕ} {linkInfoCb : Option ℕ} {l : Ledger HalResource}
      {callbacks : List (Option ℕ)} : callback p ∉ s.ledger.live → s.ledger.Holds [] l →
      none ∈ callbacks → Registered sock s (⟨sock, some p, linkInfoCb, none⟩, -enomem)
        ⟨l, s.callbacks ++ some p :: callbacks⟩
  | registered {p q u : ℕ} {l : Ledger HalResource} :
      s.ledger.Holds [callback u, callback q, callback p] l →
      Registered sock s (⟨sock, some p, some q, some u⟩, 0)
        ⟨l, s.callbacks ++ [some p, some q, some u]⟩

theorem endsIn_wifiHalRegisterNlCb (sock : Option ℕ) (s : Lifetime) :
    EndsIn (Registered sock s) (wifiHalRegisterNlCb ⟨sock, none, none, none⟩) s := by
  refine endsIn_alloc ?_ fun p hp => ?_
  · exact (givesBack_putCallbacks _).endsIn_bind fun _ => .refused (.refl _)
  have hfirst := (Ledger.Holds.refl s.ledger).acquire (callback p)
  refine endsIn_alloc ?_ fun q _ => ?_
  · refine (givesBack_putCallbacks _).endsIn_bind fun _ => ?_
    have hput : Registered sock s (⟨sock, some p, none, none⟩, -enomem)
        ⟨(s.ledger.acquire (callback p)).releaseAll [callback p],
          s.callbacks ++ some p :: [none]⟩ := .putBack hp hfirst.releaseAll (by simp)
    rwa [List.append_cons] at hput
  have hsecond := hfirst.acquire (callback q)
  refine endsIn_alloc ?_ fun u _ => ?_
  · refine (givesBack_putCallbacks _).endsIn_bind fun _ => ?_
    have hboth := hsecond.perm (List.Perm.swap (callback p) (callback q) [])
    have hput : Registered sock s (⟨sock, some p, some q, none⟩, -enomem)
        ⟨((s.ledger.acquire (callback p)).acquire (callback q)).releaseAll [callback p, callback q],
          s.callbacks ++ some p :: ([some q] ++ [none])⟩ := .putBack hp hboth.releaseAll (by simp)
    rwa [List.append_cons, ← List.append_assoc] at hput
  · have hthird := hsecond.acquire (callback u)
    have hall : Registered sock s (⟨sock, some p, some q, some u⟩, 0)
        ⟨((s.ledger.acquire (callback p)).acquire (callback q)).acquire (callback u),
          s.callbacks ++ some p :: ([some q] ++ [some u])⟩ := .registered hthird
    rwa [List.append_cons, ← List.append_assoc] at hall

/-- What `wifi_hal_attach` comes to: the ledger is in order unless a callback is put twice, and then
a HAL that is attached holds what has been allocated. -/
structure AttachOutcome (s : Lifetime) (r : Option WifiHalContext) (s' : Lifetime) : Prop where
  sound : s'.ledger.sound = (s.ledger.sound && !PutTwice s'.callbacks)
  holds : PutTwice s'.callbacks = false →
    s.ledger.Holds (r.elim [] WifiHalContext.resources) s'.ledger

theorem attached_of_holds {r : Option WifiHalContext} {s' : Lifetime}
    (hcallbacks : PutTwice s'.callbacks = false)
    (h : s.ledger.Holds (r.elim [] WifiHalContext.resources) s'.ledger) : AttachOutcome s r s' := by
  refine ⟨?_, fun _ => h⟩
  rw [hcallbacks, h.sound, Bool.not_false, Bool.and_true]

/-- A HAL that is attached has no configurations yet. -/
def Unconfigured (r : Option WifiHalContext) : Prop :=
  ∀ hal, r = some hal → hal.config = [none, none]

theorem unconfigured_none : Unconfigured none := fun _ h => absurd h (by simp)

theorem attachFailed {s' : Lifetime} (hcallbacks : PutTwice s'.callbacks = false)
    (h : s.ledger.Holds [] s'.ledger) : AttachOutcome s none s' ∧ Unconfigured none :=
  ⟨attached_of_holds hcallbacks h, unconfigured_none⟩

/-- The private part and the context are given back. -/
theorem holds_freed {ctx sc : ℕ} {l₀ : Ledger HalResource}
    (h : l₀.Holds [⟨.calloc, sc⟩, ⟨.calloc, ctx⟩] l) :
    l₀.Holds [] ((l.releaseAll [⟨.calloc, sc⟩]).releaseAll [⟨.calloc, ctx⟩]) := by
  have hsecond : l₀.Holds [⟨.calloc, ctx⟩] (l.releaseAll [⟨.calloc, sc⟩]) := h.releaseAll
  exact hsecond.releaseAll

/-- A callback that is given back already is given back when the HAL is detached. -/
theorem not_sound_dettach {l₀ : Ledger HalResource} {p : ℕ} (hp : callback p ∉ l₀.live)
    (h : l₀.Holds [] l) (sock : ℕ) (linkInfoCb : Option ℕ) :
    (l.releaseAll (⟨.nlSocketAlloc, sock⟩ :: callback p ::
      heldBy .nlCbAlloc linkInfoCb)).sound = false := by
  have hgone : callback p ∉ (l.release ⟨.nlSocketAlloc, sock⟩).live := by
    intro hmem
    have hlive := h.mem_iff.mp (List.mem_of_mem_erase hmem)
    exact hp (hlive.resolve_left List.not_mem_nil)
  exact Ledger.not_sound_releaseAll (Ledger.not_sound_release hgone) _

/-- The part of `wifi_hal_attach` behind the socket ends in order, whichever of the callbacks fails.
-/
theorem endsIn_attachCallbacks {ctx sc sock : ℕ} (hs : s.callbacks = [])
    (h : s.ledger.Holds [⟨.nlSocketAlloc, sock⟩, ⟨.calloc, sc⟩, ⟨.calloc, ctx⟩] l) :
    EndsIn (fun r s' => AttachOutcome s r s' ∧ Unconfigured r) (do
      let registered ← wifiHalRegisterNlCb ⟨some sock, none, none, none⟩
      if registered.2 ≠ 0 then
        wifiHalNl80211Dettach registered.1
        giveBack .calloc (some sc)
        giveBack .calloc (some ctx)
        return none
      return some ⟨ctx, sc, registered.1, [none, none]⟩) ⟨l, s.callbacks⟩ := by
  unfold EndsIn
  rw [wp_bind]
  refine wp_consequence (endsIn_wifiHalRegisterNlCb (some sock) _) fun registered s₂ h₂ => ?_
  cases h₂ with
  | @refused l' hheld =>
    -- the first callback was not allocated: all is given back, once
    rw [if_pos (by simp [enomem])]
    refine (givesBack_wifiHalNl80211Dettach _).endsIn_bind fun _ =>
      (givesBack_giveBack _ _).endsIn_bind fun _ => (givesBack_giveBack _ _).endsIn_bind
        fun _ => attachFailed ?_ (holds_freed ?_)
    · show PutTwice (s.callbacks ++ [none]) = false
      rw [hs]
      rfl
    · have hall : s.ledger.Holds [⟨.nlSocketAlloc, sock⟩, ⟨.calloc, sc⟩, ⟨.calloc, ctx⟩] l' :=
        h.trans hheld
      have hrest : s.ledger.Holds [⟨.calloc, sc⟩, ⟨.calloc, ctx⟩]
          (l'.releaseAll [⟨.nlSocketAlloc, sock⟩]) := hall.releaseAll
      exact hrest
  | @putBack p linkInfoCb l' callbacks hp hheld hnone =>
    -- a later one was not: the first is put back here and again on detaching
    rw [if_pos (by simp [enomem])]
    have htwice : PutTwice (s.callbacks ++ some p :: callbacks) = true := by
      rw [hs]
      exact List.contains_iff_mem.mpr hnone
    refine (givesBack_wifiHalNl80211Dettach _).endsIn_bind fun _ =>
      (givesBack_giveBack _ _).endsIn_bind fun _ => (givesBack_giveBack _ _).endsIn_bind
        fun _ => ⟨⟨?_, fun hput => ?_⟩, unconfigured_none⟩
    · show _ = (s.ledger.sound && !PutTwice (s.callbacks ++ some p :: callbacks))
      rw [htwice, Bool.not_true, Bool.and_false]
      have hbad := not_sound_dettach hp hheld sock linkInfoCb
      exact Ledger.not_sound_releaseAll (Ledger.not_sound_releaseAll hbad _) _
    · exact absurd (hput.symm.trans htwice) (by simp)
  | @registered p q u l' hheld =>
    -- all three are there, and the HAL holds what was allocated
    rw [if_neg (not_not.mpr rfl)]
    refine ⟨attached_of_holds ?_ ((h.trans hheld).perm ?_), fun hal hhal => ?_⟩
    · show PutTwice (s.callbacks ++ [some p, some q, some u]) = false
      rw [hs]
      rfl
    · show List.Perm [callback u, callback q, callback p, ⟨.nlSocketAlloc, sock⟩, ⟨.calloc, sc⟩,
        ⟨.calloc, ctx⟩] [⟨.nlSocketAlloc, sock⟩, callback p, callback q, ⟨.calloc, sc⟩,
        ⟨.calloc, ctx⟩, callback u]
      rw [List.perm_iff_count]
      intro a
      simp only [List.count_cons, List.count_nil]
      omega
    · obtain rfl := Option.some.inj hhal
      rfl

/-- **Attaching** ends with a HAL that holds its resources, or without any of them.  A failure is
followed to its end, with all that it gives back. -/
theorem endsIn_wifiHalAttachCall (hs : s.callbacks = []) :
    EndsIn (fun r s' => AttachOutcome s r s' ∧ Unconfigured r) wifiHalAttachCall s := by
  have hnothing : PutTwice s.callbacks = false := by rw [hs]; rfl
  refine endsIn_alloc (attachFailed hnothing (.refl _)) fun ctx _ => ?_
  have hctx := (Ledger.Holds.refl s.ledger).acquire ⟨.calloc, ctx⟩
  refine endsIn_alloc ?_ fun sc _ => ?_
  · exact (givesBack_giveBack _ _).endsIn_bind fun _ => attachFailed hnothing hctx.releaseAll
  have hsc := hctx.acquire ⟨.calloc, sc⟩
  show EndsIn _ (wifiHalNl80211Attach _ >>= _) _
  unfold EndsIn
  rw [wp_bind]
  refine wp_consequence (endsIn_wifiHalNl80211Attach _ _) fun attached s₁ h₁ => ?_
  cases h₁ with
  | failed hr hheld =>
    rw [if_pos hr]
    exact (givesBack_giveBack _ _).endsIn_bind fun _ => (givesBack_giveBack _ _).endsIn_bind
      fun _ => attachFailed hnothing (holds_freed (hsc.trans hheld))
  | attached hheld =>
    rw [if_neg (not_not.mpr rfl)]
    exact endsIn_attachCallbacks hs (hsc.trans hheld)

/-- An allocation adds to what is held, unless it fails. -/
theorem endsIn_alloc_held {β : Type} {allocator : Allocator} {f : Option ℕ → LifetimeM β}
    {post : β → Lifetime → Prop} (hf : ∀ a l, s.ledger.Holds (heldBy allocator a) l →
      EndsIn post (f a) ⟨l, s.callbacksBehind allocator a⟩) :
    EndsIn post (query (LifetimeQ.alloc allocator) >>= f) s :=
  endsIn_alloc (hf none _ (.refl _)) fun p _ => hf (some p) _ ((Ledger.Holds.refl _).acquire _)

/-- **Attaching for the manager** adds the configurations to what the HAL holds.  One that cannot be
allocated is missing there, and the HAL stays attached. -/
theorem endsIn_attachForManager (hs : s.callbacks = []) :
    EndsIn (AttachOutcome s) attachForManager s := by
  show EndsIn _ (wifiHalAttachCall >>= _) _
  unfold EndsIn
  rw [wp_bind]
  refine wp_consequence (endsIn_wifiHalAttachCall hs) fun r s₁ h₁ => ?_
  cases r with
  | none => exact h₁.1
  | some hal =>
    have hconfig := h₁.2 hal rfl
    refine endsIn_alloc_held fun config₀ l₂ h₂ => endsIn_alloc_held fun config₁ l₃ h₃ => ?_
    have hheld := h₂.trans h₃
    refine ⟨hheld.sound.trans h₁.1.sound, fun hput => ?_⟩
    refine ((h₁.1.holds hput).trans hheld).perm ?_
    rw [List.perm_iff_count]
    intro a
    simp only [Option.elim_some, WifiHalContext.resources, WifiHalContext.givenBack, hconfig,
      List.flatMap_cons, List.flatMap_nil, List.count_append]
    simp only [heldBy, Option.toList_none, List.map_nil, List.count_nil]
    omega

end Attaching

/-! ### A process -/

/-- The ledger, and the HALs that are attached. -/
structure HalProcess where
  ledger : Ledger HalResource
  hals : List WifiHalContext

/-- What happens: a HAL is attached or not, with the answers of `nl_cb_alloc`, or one is
detached. -/
inductive LifetimeEvent
  | attached (callbacks : List (Option ℕ)) (hal : Option WifiHalContext)
  | detached (hal : WifiHalContext)
  deriving DecidableEq

/-- A callback is put twice in this step. -/
def LifetimeEvent.putTwice : LifetimeEvent → Bool
  | attached callbacks _ => PutTwice callbacks
  | detached _ => false

/-- The callback that detaching leaves, and that nobody can give back any more. -/
def LifetimeEvent.lost : LifetimeEvent → List HalResource
  | attached _ _ => []
  | detached hal => heldBy .nlCbAlloc hal.nl.setCb

/-- A process attaches a HAL, or detaches one that is attached. -/
inductive LifetimeStep : HalProcess → Option LifetimeEvent → HalProcess → Prop
  | attach {s : HalProcess} {r : Option WifiHalContext} {s' : Lifetime} :
      Reach lifetimeWorld ⟨s.ledger, []⟩ attachForManager s' (ret r) →
      LifetimeStep s (some (.attached s'.callbacks r)) ⟨s'.ledger, r.toList ++ s.hals⟩
  | detach {s : HalProcess} {hal : WifiHalContext} {v : ℤ} {s' : Lifetime} : hal ∈ s.hals →
      Reach lifetimeWorld ⟨s.ledger, []⟩ (wifiHalDettach hal) s' (ret v) →
      LifetimeStep s (some (.detached hal)) ⟨s'.ledger, s.hals.erase hal⟩

/-- The process before the first step. -/
def HalProcess.start : HalProcess := ⟨⟨[], true⟩, []⟩

/-- The ledger is in order as long as no callback is put twice, and then what is live is held by the
HALs that are attached, or was lost. -/
structure LedgerInv (log : List LifetimeEvent) (s : HalProcess) : Prop where
  sound : s.ledger.sound = log.all fun e => !e.putTwice
  live : s.ledger.sound = true → s.ledger.live.Perm
    (s.hals.flatMap WifiHalContext.resources ++ log.flatMap LifetimeEvent.lost)

theorem LedgerInv.attach {log : List LifetimeEvent} {s : HalProcess} {r : Option WifiHalContext}
    {t : Lifetime} (h : LedgerInv log s) (hattached : AttachOutcome ⟨s.ledger, []⟩ r t) :
    LedgerInv (log ++ [.attached t.callbacks r]) ⟨t.ledger, r.toList ++ s.hals⟩ := by
  have hsound := hattached.sound
  refine ⟨?_, fun ht => ?_⟩
  · rw [hsound, List.all_append, ← h.sound]
    simp [LifetimeEvent.putTwice]
  · rw [show t.ledger.sound = true from ht] at hsound
    obtain ⟨hs, hput⟩ := Bool.and_eq_true_iff.mp hsound.symm
    have hholds := hattached.holds (by simpa using hput)
    have hhals : (r.toList ++ s.hals).flatMap WifiHalContext.resources =
        r.elim [] WifiHalContext.resources ++ s.hals.flatMap WifiHalContext.resources := by
      cases r <;> simp
    have hlost : (log ++ [LifetimeEvent.attached t.callbacks r]).flatMap LifetimeEvent.lost =
        log.flatMap LifetimeEvent.lost := by simp [LifetimeEvent.lost]
    refine hholds.live.trans ?_
    rw [hhals, hlost, List.append_assoc]
    exact (h.live hs).append_left _

theorem LedgerInv.detach {log : List LifetimeEvent} {s : HalProcess} {hal : WifiHalContext}
    (h : LedgerInv log s) (hmem : hal ∈ s.hals) : LedgerInv (log ++ [.detached hal])
      ⟨s.ledger.releaseAll hal.givenBack, s.hals.erase hal⟩ := by
  have hall : (log ++ [LifetimeEvent.detached hal]).all (fun e => !e.putTwice) =
      log.all fun e => !e.putTwice := by simp [LifetimeEvent.putTwice]
  by_cases hs : s.ledger.sound = true
  · -- what the HAL holds is part of what is live
    have hheld : Ledger.Holds ⟨[], s.ledger.sound⟩ (hal.givenBack ++
        (heldBy .nlCbAlloc hal.nl.setCb ++ (s.hals.erase hal).flatMap WifiHalContext.resources ++
          log.flatMap LifetimeEvent.lost)) s.ledger := by
      refine ⟨(h.live hs).trans ?_, rfl⟩
      have hhals := (List.perm_cons_erase hmem).flatMap_right WifiHalContext.resources
      refine (hhals.append_right _).trans ?_
      simp [WifiHalContext.resources]
    have hbehind := hheld.releaseAll
    refine ⟨?_, fun _ => hbehind.live.trans ?_⟩
    · rw [hall, ← h.sound]
      exact hbehind.sound
    · rw [List.flatMap_append, List.perm_iff_count]
      intro a
      simp only [LifetimeEvent.lost, List.flatMap_cons, List.flatMap_nil, List.count_append,
        List.count_nil]
      omega
  · rw [Bool.not_eq_true] at hs
    have hbad := Ledger.not_sound_releaseAll hs hal.givenBack
    refine ⟨?_, fun ht => absurd (hbad.symm.trans ht) (by simp)⟩
    rw [hall, ← h.sound, hs]
    exact hbad

/-- **One step** keeps what is live in agreement with the HALs that are attached, as long as nothing
was put twice. -/
theorem LedgerInv.step {log : List LifetimeEvent} {s s' : HalProcess}
    {label : Option LifetimeEvent} (h : LedgerInv log s) (hstep : LifetimeStep s label s') :
    LedgerInv (log ++ label.toList) s' := by
  cases hstep with
  | attach hrun => exact h.attach (wp_reach hrun (endsIn_attachForManager rfl))
  | @detach hal v t hmem hrun =>
    have ht : t = ⟨s.ledger.releaseAll hal.givenBack, []⟩ :=
      wp_reach hrun (givesBack_wifiHalDettach hal _)
    rw [ht]
    exact h.detach hmem

/-- **Nothing is given back twice exactly as long as no later callback fails to be allocated behind
the first; and then what is live is held by the HALs that are attached, but for one callback of each
HAL that was detached.** The callbacks are put back where they cannot be registered, and once more
on detaching; the one for set requests is never given back. -/
theorem attach_ledger {log : List LifetimeEvent} {s : HalProcess}
    (hrun : Trace LifetimeStep .start log s) :
    (s.ledger.sound = true ↔ ∀ e ∈ log, e.putTwice = false) ∧
      (s.ledger.sound = true → s.ledger.live.Perm
        (s.hals.flatMap WifiHalContext.resources ++ log.flatMap LifetimeEvent.lost)) := by
  have hinv : LedgerInv log s :=
    hrun.log_invariant LedgerInv (fun _ _ _ _ h hstep => h.step hstep)
      ⟨rfl, fun _ => List.Perm.refl _⟩
  refine ⟨?_, hinv.live⟩
  rw [hinv.sound, List.all_eq_true]
  simp

/-! ### An example -/

/-- An allocation can succeed, with any address that is not in use. -/
theorem reach_alloc {α : Type} {allocator : Allocator} {p : ℕ} {s s' : Lifetime}
    {k : Option ℕ → LifetimeM α} {q : LifetimeM α} (hfresh : ⟨allocator, p⟩ ∉ s.ledger.live)
    (hrest : Reach lifetimeWorld ⟨s.ledger.acquire ⟨allocator, p⟩,
      s.callbacksBehind allocator (some p)⟩ (k (some p)) s' q) :
    Reach lifetimeWorld s (ask (.alloc allocator) k) s' q := by
  refine .reply (some p) ⟨fun p' hp => ?_, rfl, rfl⟩ hrest
  obtain rfl := Option.some.inj hp
  exact hfresh

/-- A HAL, and where it holds what. -/
def exampleHal : WifiHalContext := ⟨1, 2, ⟨some 3, some 4, some 5, some 6⟩, [some 7, some 8]⟩

theorem exists_attached : ∃ l, LifetimeStep .start
    (some (.attached [some 4, some 5, some 6] (some exampleHal))) ⟨l, [exampleHal]⟩ :=
  ⟨_, .attach (reach_alloc (p := 1) (by decide) (reach_alloc (p := 2) (by decide)
    (reach_alloc (p := 3) (by decide) (.reply (0 : ℤ) rfl (.reply (0 : ℤ) rfl
    (reach_alloc (p := 4) (by decide) (reach_alloc (p := 5) (by decide)
    (reach_alloc (p := 6) (by decide) (reach_alloc (p := 7) (by decide)
    (reach_alloc (p := 8) (by decide) (.start _ _)))))))))))⟩

theorem exists_detached (l : Ledger HalResource) : ∃ l', LifetimeStep ⟨l, [exampleHal]⟩
    (some (.detached exampleHal)) ⟨l', []⟩ :=
  ⟨_, .detach (v := 0) List.mem_cons_self (.reply () rfl (.reply () rfl (.reply () rfl
    (.reply () rfl (.reply () rfl (.reply () rfl (.reply () rfl (.start _ _))))))))⟩

/-- It is attached and detached, and its third callback is left. -/
theorem attach_ledger_lost : ∃ log s, Trace LifetimeStep .start log s ∧ s.hals = [] ∧
    s.ledger.sound = true ∧ s.ledger.live.Perm [callback 6] := by
  obtain ⟨l, hattached⟩ := exists_attached
  obtain ⟨l', hdetached⟩ := exists_detached l
  have hrun := (Trace.single hattached).snoc hdetached
  obtain ⟨hsound, hlive⟩ := attach_ledger hrun
  have hs := hsound.mpr (by decide)
  exact ⟨_, _, hrun, rfl, hs, hlive hs⟩

end RadioHal.Wifi
