import Mathlib.Data.Int.Notation
import RadioHal.Lib.Ledger
import RadioHal.Lib.Steps
import RadioHal.Modem.Attach

/-!
# Modems come and go

`modem_hal_attach` allocates a context and its private part, and makes the event pipe.
`modem_hal_open` opens the serial line of the modem and leaves it to the AT channel, of which there
is only one: `modem_hal_close` closes the line that the channel has, whoever opened it.
`modem_hal_detach` frees the configurations of the context, of which the second one has never been
written, and nobody closes the pipe.

## Main definitions

* `ModemLifeQ`, `ModemLifeA` — what is asked of the system.
* `modemHalAttach`, `modemHalOpen`, `modemHalClose`, `modemHalDetach` — the calls.
* `modemLifeWorld` — what the system answers, and the ledger of its resources.
* `ModemLifeStep` — a process attaches, opens, closes and detaches modems.

## Main results

* `nodup_of_reach` — no resource is live twice.
* `ends_attachModem`, `ends_modemHalOpen`, `ends_modemHalClose`, `ends_modemHalDetach` — **what the
  calls do to the ledger.**
-/

namespace RadioHal

open CLib Dialogue

/-! ### The calls -/

/-- Memory, a serial line, or an end of the event pipe. -/
inductive ModemResource
  | block (address : ℕ)
  | line (fd : ℕ)
  | pipeEnd (fd : ℕ)
  deriving DecidableEq

/-- What attaching, opening, closing and detaching ask of the system. -/
inductive ModemLifeQ
  /-- `malloc` of a `radio_context`; what lies where `config` will be is part of the answer -/
  | mallocContext
  | malloc
  | free (address : ℕ)
  | pipe
  /-- `open` of the serial line -/
  | openLine (path : Text)
  /-- `ioctl(fd, TCFLSH, 2)` -/
  | flush (fd : ℤ)
  /-- `pthread_create`, for `readerLoop` -/
  | createReader
  | closeLine (fd : ℕ)
  /-- A question of the modem HAL; `s_fd` is what its AT commands are written to. -/
  | hal (sFd : ℤ) (q : ModemQ)
  /-- A field of the modem is overrun. -/
  | overrun

def ModemLifeA : ModemLifeQ → Type
  | .mallocContext => Option (ℕ × Option ℕ × Option ℕ)
  | .malloc => Option ℕ
  | .free _ => Unit
  | .pipe => Option (ℕ × ℕ)
  | .openLine _ => ℤ
  | .flush _ => Unit
  | .createReader => ℤ
  | .closeLine _ => Unit
  | .hal _ q => ModemA q
  | .overrun => Empty

/-- A program that attaches, opens, closes or detaches a modem. -/
abbrev ModemLifeM : Type → Type := Dialogue ModemLifeQ ModemLifeA

/-- `struct radio_context` of a modem: its address, that of its private part, and `config`. -/
structure ModemHalContext where
  ctx : ℕ
  sc : ℕ
  config₀ : Option ℕ
  config₁ : Option ℕ
  deriving DecidableEq

/-- `modem_hal_attach`, with the descriptors it leaves in `modem_fds`. -/
def modemHalAttach : ModemLifeM (Option ModemHalContext × Option (ℕ × ℕ)) := do
  let ctx : Option (ℕ × Option ℕ × Option ℕ) ← query ModemLifeQ.mallocContext
  match ctx with
  | none => return (none, none)
  | some (ctx, config₀, config₁) =>
    let sc : Option ℕ ← query ModemLifeQ.malloc
    match sc with
    | none =>
      query (ModemLifeQ.free ctx)
      return (none, none)
    | some sc =>
      -- a pipe that fails is reported, and the modem is attached all the same
      let modemFds : Option (ℕ × ℕ) ← query ModemLifeQ.pipe
      return (some ⟨ctx, sc, config₀, config₁⟩, modemFds)

/-- The manager attaches a modem, and allocates its configuration. -/
def attachModem : ModemLifeM (Option ModemHalContext × Option (ℕ × ℕ)) := do
  match ← modemHalAttach with
  | (none, modemFds) => return (none, modemFds)
  | (some modem, modemFds) =>
    let config₀ : Option ℕ ← query ModemLifeQ.malloc
    return (some { modem with config₀ := config₀ }, modemFds)

/-- `free`, which does nothing when the pointer is null. -/
def freePointer : Option ℕ → ModemLifeM Unit
  | none => return ()
  | some p => query (ModemLifeQ.free p)

/-- `modem_hal_detach`. -/
def modemHalDetach (modem : ModemHalContext) : ModemLifeM ℤ := do
  freePointer modem.config₀
  freePointer modem.config₁
  freePointer (some modem.sc)
  freePointer (some modem.ctx)
  return 0

/-- `at_open`: the new `s_fd`, and what it returns. -/
def atOpen (fd : ℤ) : ModemLifeM (ℤ × ℤ) := do
  let r : ℤ ← query ModemLifeQ.createReader
  if r < 0 then return (fd, -1) else return (fd, 0)

/-- `at_close`: the line is closed if it is open, and the new `s_fd` is `-1` in any case. -/
def atClose (sFd : ℤ) : ModemLifeM ℤ := do
  if 0 ≤ sFd then query (ModemLifeQ.closeLine sFd.toNat)
  return -1

/-- What `open` answered, the new `s_fd`, and what `modem_hal_open` returns. -/
structure OpenedModem where
  atif : ℤ
  sFd : ℤ
  ret : ℤ
  deriving DecidableEq

/-- The part of `modem_hal_open` behind `at_open`.  Where the modem cannot be attached the line is
left open. -/
def registerModem (sc : ModemSoftc) (atif sFd : ℤ) : ModemLifeM OpenedModem := do
  let attached ← embed (ModemLifeQ.hal sFd) (modemHalSerialAttach sc)
  match attached with
  | .overrun => ask .overrun Empty.elim
  | .returned err _ => if err ≠ 0 then return ⟨atif, sFd, -1⟩ else return ⟨atif, sFd, 0⟩

/-- `modem_hal_open`.  A line that cannot be opened is not noticed at once, but the descriptor zero
is taken for a failure. -/
def modemHalOpen (atSerial : Text) (sc : ModemSoftc) (sFd : ℤ) : ModemLifeM OpenedModem := do
  let atif : ℤ ← query (ModemLifeQ.openLine atSerial)
  if atif = 0 then return ⟨atif, sFd, -1⟩
  query (ModemLifeQ.flush atif)
  let opened ← atOpen atif
  registerModem sc atif opened.1

/-- `modem_hal_close`: the new `s_fd`, and what it returns. -/
def modemHalClose (sFd : ℤ) : ModemLifeM (ℤ × ℤ) := do
  let _ ← embed (ModemLifeQ.hal sFd) (atSendCommand "AT+CFUN=4".toList none)
  let sFd ← atClose sFd
  return (sFd, 0)

/-! ### The system -/

/-- The resource was not live, and is. -/
def Allocated (l : Ledger ModemResource) (r : ModemResource) (l' : Ledger ModemResource) : Prop :=
  r ∉ l.live ∧ l' = l.acquire r

/-- The descriptor is not in use, neither for a serial line nor for a pipe. -/
def Unused (l : Ledger ModemResource) (fd : ℕ) : Prop := .line fd ∉ l.live ∧ .pipeEnd fd ∉ l.live

/-- Without a line no command is written. -/
def Unwritten : Exchange ModemQ ModemA → Prop
  | ⟨.atCommand _ _ _, (a : AtAnswer)⟩ => ∃ e, a = .refused e
  | _ => True

/-- What the system answers: what it hands out is not in use, and what it takes back is noted down.
-/
def modemLifeWorld : World ModemLifeQ ModemLifeA (Ledger ModemResource)
  | l, .mallocContext, (a : Option (ℕ × Option ℕ × Option ℕ)), l' =>
    a.elim (l' = l) fun ctx => Allocated l (.block ctx.1) l'
  | l, .malloc, (a : Option ℕ), l' => a.elim (l' = l) fun p => Allocated l (.block p) l'
  | l, .free p, _, l' => l' = l.release (.block p)
  | l, .pipe, (a : Option (ℕ × ℕ)), l' => a.elim (l' = l) fun fds =>
    fds.1 ≠ fds.2 ∧ Unused l fds.1 ∧ Unused l fds.2 ∧
      l' = (l.acquire (.pipeEnd fds.1)).acquire (.pipeEnd fds.2)
  | l, .openLine _, (fd : ℤ), l' =>
    if fd < 0 then l' = l else Unused l fd.toNat ∧ l' = l.acquire (.line fd.toNat)
  | l, .flush _, _, l' => l' = l
  | l, .createReader, _, l' => l' = l
  | l, .closeLine fd, _, l' => l' = l.release (.line fd)
  | l, .hal sFd q, a, l' => (sFd < 0 → Unwritten ⟨q, a⟩) ∧ l' = l
  | _, .overrun, _, _ => False

/-- What is allocated for a modem that is attached. -/
def ModemHalContext.held (modem : ModemHalContext) : List ModemResource :=
  modem.config₀.toList.map .block ++ [.block modem.sc, .block modem.ctx]

/-- What detaching frees, in the order in which it does. -/
def ModemHalContext.givenBack (modem : ModemHalContext) : List ModemResource :=
  modem.config₀.toList.map .block ++ modem.config₁.toList.map .block ++
    [.block modem.sc, .block modem.ctx]

/-- The two ends of a pipe, where one was made. -/
def pipeEnds (modemFds : Option (ℕ × ℕ)) : List ModemResource :=
  modemFds.elim [] fun fds => [.pipeEnd fds.2, .pipeEnd fds.1]

/-- The resource is a serial line. -/
def ModemResource.isLine : ModemResource → Bool
  | line _ => true
  | _ => false

/-! ### What the calls do -/

/-- Whatever is answered, the program ends as `post` says. -/
abbrev ModemEnds {α : Type} (post : α → Ledger ModemResource → Prop) (p : ModemLifeM α)
    (l : Ledger ModemResource) : Prop :=
  wp modemLifeWorld (fun _ _ => True) post p l

section Calls

variable {l l' : Ledger ModemResource}

theorem nodup_allocated {α : Type} {a : Option α} {r : α → ModemResource}
    (h : a.elim (l' = l) fun x => Allocated l (r x) l') (hl : l.live.Nodup) : l'.live.Nodup := by
  cases a with
  | none =>
    obtain rfl : l' = l := h
    exact hl
  | some x =>
    obtain ⟨hnew, rfl⟩ := h
    exact Ledger.nodup_acquire hl hnew

/-- What the system does leaves no resource live twice. -/
theorem nodup_step {q : ModemLifeQ} {a : ModemLifeA q} (h : modemLifeWorld l q a l')
    (hl : l.live.Nodup) : l'.live.Nodup := by
  cases q with
  -- what is allocated has not been live
  | mallocContext => exact nodup_allocated h hl
  | malloc => exact nodup_allocated h hl
  | free p =>
    -- what is given back is live once less
    obtain rfl : l' = _ := h
    exact Ledger.nodup_release hl
  | pipe =>
    -- the two ends are new, and differ
    revert a
    rintro (_ | fds) h
    · obtain rfl : l' = l := h
      exact hl
    · obtain ⟨hne, hread, hwrite, rfl⟩ := h
      refine Ledger.nodup_acquire (Ledger.nodup_acquire hl hread.2) ?_
      show _ ∉ _ :: _
      rw [List.mem_cons, not_or]
      exact ⟨fun heq => hne (ModemResource.pipeEnd.inj heq).symm, hwrite.2⟩
  | openLine path =>
    -- `open` returns a descriptor that is not in use, or fails
    revert a
    intro (fd : ℤ) h
    by_cases hfd : fd < 0
    · obtain rfl : l' = l := by simpa [modemLifeWorld, hfd] using h
      exact hl
    · obtain ⟨hnew, rfl⟩ : Unused l fd.toNat ∧ l' = l.acquire (.line fd.toNat) := by
        simpa [modemLifeWorld, hfd] using h
      exact Ledger.nodup_acquire hl hnew.1
  | flush fd =>
    obtain rfl : l' = l := h
    exact hl
  | createReader =>
    obtain rfl : l' = l := h
    exact hl
  | closeLine fd =>
    obtain rfl : l' = _ := h
    exact Ledger.nodup_release hl
  | hal sFd q =>
    -- the questions of the attach acquire nothing
    obtain ⟨-, rfl⟩ := h
    exact hl
  | overrun => exact h.elim

theorem nodup_of_reach {α : Type} {p p' : ModemLifeM α} (h : Reach modemLifeWorld l p l' p')
    (hl : l.live.Nodup) : l'.live.Nodup := by
  induction h with
  | start => exact hl
  | reply a hstep _ ih => exact ih (nodup_step hstep hl)

/-- **Attaching**: what the modem holds is acquired, and the ends of the pipe.  A pipe that fails is
reported, and the modem is attached all the same. -/
theorem ends_modemHalAttach (l : Ledger ModemResource) :
    ModemEnds (fun r l' => l.Holds (r.1.elim []
      (fun modem => [.block modem.sc, .block modem.ctx]) ++ pipeEnds r.2) l') modemHalAttach l := by
  refine ⟨trivial, ?_⟩
  rintro (_ | ⟨ctx, config₀, config₁⟩) l₁ h₁
  · obtain rfl : l₁ = l := h₁
    exact .refl l₁
  obtain ⟨-, rfl⟩ := h₁
  have hctx := (Ledger.Holds.refl l).acquire (.block ctx)
  refine ⟨trivial, ?_⟩
  rintro (_ | sc) l₂ h₂
  · obtain rfl : l₂ = _ := h₂
    refine ⟨trivial, fun _ l₃ h₃ => ?_⟩
    obtain rfl : l₃ = _ := h₃
    have hfreed : l.Holds [] ((l.acquire (.block ctx)).releaseAll [.block ctx]) := hctx.releaseAll
    exact hfreed
  obtain ⟨-, rfl⟩ := h₂
  have hsc := hctx.acquire (.block sc)
  refine ⟨trivial, ?_⟩
  rintro (_ | fds) l₃ h₃
  · obtain rfl : l₃ = _ := h₃
    exact hsc
  · obtain ⟨-, -, -, rfl⟩ := h₃
    have hends := (hsc.acquire (.pipeEnd fds.1)).acquire (.pipeEnd fds.2)
    have hall : l.Holds (pipeEnds (some fds) ++ [.block sc, .block ctx]) _ := hends
    exact hall.perm List.perm_append_comm

theorem ends_attachModem (l : Ledger ModemResource) :
    ModemEnds (fun r l' => l.Holds (r.1.elim [] ModemHalContext.held ++ pipeEnds r.2) l')
      attachModem l := by
  show ModemEnds _ (modemHalAttach >>= _) _
  unfold ModemEnds
  rw [wp_bind]
  refine wp_consequence (ends_modemHalAttach l) ?_
  rintro ⟨_ | modem, modemFds⟩ l₁ h₁
  · exact h₁
  refine ⟨trivial, ?_⟩
  rintro (_ | p) l₂ h₂
  · obtain rfl : l₂ = l₁ := h₂
    exact h₁
  · obtain ⟨-, rfl⟩ := h₂
    exact h₁.acquire (.block p)

/-- **Detaching** gives back the blocks of the context, and neither the pipe nor the line.  The line
is closed by `modem_hal_close`. -/
theorem ends_modemHalDetach (modem : ModemHalContext) (l : Ledger ModemResource) :
    ModemEnds (fun _ l' => l' = l.releaseAll modem.givenBack) (modemHalDetach modem) l := by
  have hfree : ∀ {α : Type} (x : Option ℕ) {f : Unit → ModemLifeM α}
      {post : α → Ledger ModemResource → Prop} {l : Ledger ModemResource},
      ModemEnds post (f ()) (l.releaseAll (x.toList.map .block)) →
        ModemEnds post (freePointer x >>= f) l := by
    intro α x f post l h
    cases x with
    | none => exact h
    | some p =>
      refine ⟨trivial, fun _ l₁ h₁ => ?_⟩
      obtain rfl : l₁ = _ := h₁
      exact h
  unfold ModemHalContext.givenBack
  rw [Ledger.releaseAll_append, Ledger.releaseAll_append]
  exact hfree _ (hfree _ (hfree (some modem.sc) (hfree (some modem.ctx) rfl)))

/-- **Closing**: the line that the channel has is closed.  The channel keeps one descriptor, which
may be that of another modem. -/
theorem ends_modemHalClose (sFd : ℤ) (l : Ledger ModemResource) :
    ModemEnds (fun r l' => r.1 = -1 ∧
      l' = if 0 ≤ sFd then l.release (.line sFd.toNat) else l) (modemHalClose sFd) l := by
  refine ⟨trivial, fun a l₁ h₁ => ?_⟩
  obtain ⟨-, rfl⟩ := h₁
  show ModemEnds _ (atClose sFd >>= _) _
  unfold atClose
  split
  · refine ⟨trivial, fun _ l₂ h₂ => ?_⟩
    exact ⟨rfl, h₂⟩
  · exact ⟨rfl, rfl⟩

/-- On a channel without a line the modem does not attach. -/
theorem wp_modemHalSerialAttach_of_unwritten (sc : ModemSoftc)
    (t : List (Exchange ModemQ ModemA)) :
    wp (constrained Unwritten) (fun _ _ => True) (fun o _ => ∃ sc', o = .returned (-1) sc')
      (modemHalSerialAttach sc) t := by
  have hloop : ∀ (n : ℕ) (err : ℤ) (t : List (Exchange ModemQ ModemA)), n ≠ 0 ∨ err ≠ 0 →
      wp (constrained Unwritten) (fun _ _ => True) (fun r _ => r ≠ 0) (handshakeLoop n err) t := by
    intro n
    induction n with
    | zero => exact fun err t h => h.resolve_left (by simp)
    | succ n ih =>
      intro err t _
      refine ⟨trivial, fun a t₁ ⟨ha, _⟩ => ?_⟩
      obtain ⟨e, rfl⟩ : ∃ e, a = .refused e := ha
      have he : e.code ≠ 0 := by cases e <;> decide
      show wp _ _ _ (if e.code = 0 then _ else _) _
      rw [if_neg he]
      exact ih _ _ (Or.inr he)
  unfold modemHalSerialAttach
  rw [wp_bind]
  refine wp_consequence (hloop 8 0 t (Or.inl (by decide))) fun err t₁ herr => ?_
  rw [if_pos herr]
  exact ⟨sc, rfl⟩

theorem ends_registerModem (sc : ModemSoftc) (atif sFd : ℤ) (l : Ledger ModemResource) :
    ModemEnds (fun r l' => r = ⟨atif, sFd, r.ret⟩ ∧ (r.ret = -1 ∨ r.ret = 0 ∧ 0 ≤ sFd) ∧ l' = l)
      (registerModem sc atif sFd) l := by
  -- without a line nothing can be written, so the attach fails; otherwise it may do anything
  have hattach : ModemEnds (fun o l' => (sFd < 0 → ∃ sc', o = .returned (-1) sc') ∧ l' = l)
      (embed (ModemLifeQ.hal sFd) (modemHalSerialAttach sc)) l := by
    by_cases hline : sFd < 0
    · have hworld : ∀ q a l', modemLifeWorld l (.hal sFd q) a l' → Unwritten ⟨q, a⟩ ∧ l' = l :=
        fun q a l' h => ⟨h.1 hline, h.2⟩
      refine wp_consequence (wp_embed hworld (wp_modemHalSerialAttach_of_unwritten sc [])) ?_
      rintro o l' ⟨ho, rfl⟩
      exact ⟨fun _ => ho, rfl⟩
    · have hany : wp (constrained fun _ => True) (fun _ _ => True) (fun _ _ => True)
          (modemHalSerialAttach sc) [] :=
        (wp_iff_reach _ _).mpr fun _ _ _ => ⟨fun _ _ => trivial, fun _ _ _ => trivial⟩
      have hworld : ∀ q a l', modemLifeWorld l (.hal sFd q) a l' → True ∧ l' = l :=
        fun q a l' h => ⟨trivial, h.2⟩
      refine wp_consequence (wp_embed hworld hany) ?_
      rintro o l' ⟨-, rfl⟩
      exact ⟨fun hneg => absurd hneg hline, rfl⟩
  unfold registerModem ModemEnds
  rw [wp_bind]
  refine wp_consequence hattach ?_
  rintro (⟨err, sc'⟩ | _) l' ⟨hline, rfl⟩
  · show ModemEnds _ (if err ≠ 0 then _ else _) _
    split
    · exact ⟨rfl, Or.inl rfl, rfl⟩
    · next herr =>
      refine ⟨rfl, Or.inr ⟨rfl, not_lt.mp fun hneg => ?_⟩, rfl⟩
      obtain ⟨_, ho⟩ := hline hneg
      cases ho
      exact herr (by decide)
  · exact ⟨trivial, fun a => nomatch (a : Empty)⟩

/-- What `modem_hal_open` comes to, by the descriptor of the serial line: zero counts as a failure,
although it is open. -/
inductive OpenedAs (l : Ledger ModemResource) (sFd : ℤ) : OpenedModem → Ledger ModemResource → Prop
  | zero : Unused l 0 → OpenedAs l sFd ⟨0, sFd, -1⟩ (l.acquire (.line 0))
  | refused {fd : ℤ} : fd < 0 → OpenedAs l sFd ⟨fd, fd, -1⟩ l
  | failed {fd : ℕ} : fd ≠ 0 → Unused l fd → OpenedAs l sFd ⟨fd, fd, -1⟩ (l.acquire (.line fd))
  | opened {fd : ℕ} : fd ≠ 0 → Unused l fd → OpenedAs l sFd ⟨fd, fd, 0⟩ (l.acquire (.line fd))

/-- **Opening** comes to one of the four ends. -/
theorem ends_modemHalOpen (atSerial : Text) (sc : ModemSoftc) (sFd : ℤ)
    (l : Ledger ModemResource) :
    ModemEnds (OpenedAs l sFd) (modemHalOpen atSerial sc sFd) l := by
  refine ⟨trivial, ?_⟩
  rintro (fd : ℤ) l₁ h₁
  have hopened : if fd < 0 then l₁ = l else
      Unused l fd.toNat ∧ l₁ = l.acquire (.line fd.toNat) := h₁
  show ModemEnds _ (if fd = 0 then _ else _) _
  by_cases hzero : fd = 0
  · subst hzero
    obtain ⟨hnew, rfl⟩ := hopened
    exact .zero hnew
  rw [if_neg hzero]
  refine ⟨trivial, fun _ l₂ h₂ => ?_⟩
  obtain rfl : l₂ = l₁ := h₂
  refine ⟨trivial, ?_⟩
  rintro (r : ℤ) l₃ h₃
  obtain rfl : l₃ = l₂ := h₃
  show ModemEnds _ ((if r < 0 then return (fd, -1) else return (fd, 0)) >>= _) _
  have hrest : ModemEnds (OpenedAs l sFd) (registerModem sc fd fd) l₃ := by
    refine wp_consequence (ends_registerModem sc fd fd l₃) ?_
    rintro r l₄ ⟨hr, hret, rfl⟩
    rw [hr]
    by_cases hneg : fd < 0
    · rw [if_pos hneg] at hopened
      subst hopened
      rw [hret.resolve_right fun h => absurd h.2 (not_le.mpr hneg)]
      exact .refused hneg
    · rw [if_neg hneg] at hopened
      obtain ⟨hnew, rfl⟩ := hopened
      obtain ⟨n, rfl⟩ := Int.eq_ofNat_of_zero_le (not_lt.mp hneg)
      have hn : n ≠ 0 := fun h => hzero (by rw [h]; rfl)
      rcases hret with hret | ⟨hret, -⟩
      · rw [hret]
        exact .failed hn hnew
      · rw [hret]
        exact .opened hn hnew
  -- what `at_open` returns is not looked at
  split
  · exact hrest
  · exact hrest

end Calls

/-! ### A process -/

/-- The resources, `s_fd`, the modems that are attached, and the lines of those that are open. -/
structure ModemProcess where
  ledger : Ledger ModemResource
  sFd : ℤ
  modems : List ModemHalContext
  lines : ℕ → Option ℕ

/-- What happens.  A modem is known by its context. -/
inductive ModemLifeEvent
  | attached (modem : Option ModemHalContext) (modemFds : Option (ℕ × ℕ))
  | opened (ctx : ℕ) (r : OpenedModem)
  | closed (ctx : ℕ)
  | detached (modem : ModemHalContext)
  deriving DecidableEq

/-- A modem is attached; one that is attached is opened or detached; one that is open is closed. -/
inductive ModemLifeStep : ModemProcess → Option ModemLifeEvent → ModemProcess → Prop
  | attached {s : ModemProcess} {r : Option ModemHalContext × Option (ℕ × ℕ)}
      {l : Ledger ModemResource} : Reach modemLifeWorld s.ledger attachModem l (ret r) →
      ModemLifeStep s (some (.attached r.1 r.2))
        { s with ledger := l, modems := r.1.toList ++ s.modems }
  | opened {s : ModemProcess} {modem : ModemHalContext} {atSerial : Text} {sc : ModemSoftc}
      {r : OpenedModem} {l : Ledger ModemResource} : modem ∈ s.modems →
      s.lines modem.ctx = none →
      Reach modemLifeWorld s.ledger (modemHalOpen atSerial sc s.sFd) l (ret r) →
      ModemLifeStep s (some (.opened modem.ctx r))
        { s with
          ledger := l
          sFd := r.sFd
          lines := if r.ret = 0 then Function.update s.lines modem.ctx (some r.atif.toNat)
            else s.lines }
  | closed {s : ModemProcess} {ctx : ℕ} {r : ℤ × ℤ} {l : Ledger ModemResource} :
      s.lines ctx ≠ none → Reach modemLifeWorld s.ledger (modemHalClose s.sFd) l (ret r) →
      ModemLifeStep s (some (.closed ctx))
        { s with ledger := l, sFd := r.1, lines := Function.update s.lines ctx none }
  | detached {s : ModemProcess} {modem : ModemHalContext} {v : ℤ} {l : Ledger ModemResource} :
      modem ∈ s.modems → s.lines modem.ctx = none →
      Reach modemLifeWorld s.ledger (modemHalDetach modem) l (ret v) →
      ModemLifeStep s (some (.detached modem))
        { s with ledger := l, modems := s.modems.erase modem }

/-- The process before the first step, with no line open. -/
def ModemProcess.start : ModemProcess := ⟨⟨[], true⟩, -1, [], fun _ => none⟩

/-! ### An example -/

/-- A modem, and what is allocated for it. -/
def exampleModem : ModemHalContext := ⟨1, 2, some 5, none⟩

/-- It is attached, opened, closed and detached. -/
def exampleLog : List ModemLifeEvent :=
  [.attached (some exampleModem) (some (3, 4)), .opened 1 ⟨6, 6, 0⟩, .closed 1,
    .detached exampleModem]

/-- What is live when it is attached. -/
def exampleLedger : Ledger ModemResource :=
  ⟨[.block 5, .pipeEnd 4, .pipeEnd 3, .block 2, .block 1], true⟩

theorem example_attached : ModemLifeStep .start
    (some (.attached (some exampleModem) (some (3, 4))))
      ⟨exampleLedger, -1, [exampleModem], fun _ => none⟩ :=
  .attached (r := (some exampleModem, some (3, 4)))
    (.reply (some (1, none, none)) ⟨by decide, rfl⟩ (.reply (some 2) ⟨by decide, rfl⟩
      (.reply (some (3, 4)) ⟨by decide, ⟨by decide, by decide⟩, ⟨by decide, by decide⟩, rfl⟩
        (.reply (some 5) ⟨by decide, rfl⟩ (.start _ _)))))

theorem example_opened : ModemLifeStep ⟨exampleLedger, -1, [exampleModem], fun _ => none⟩
    (some (.opened 1 ⟨6, 6, 0⟩))
      ⟨exampleLedger.acquire (.line 6), 6, [exampleModem],
        Function.update (fun _ => none) 1 (some 6)⟩ := by
  have hserial : After (modemHalSerialAttach ⟨CharArray.zero 20, CharArray.zero 20⟩)
      (attachRun "cdc-wdm0\n".toList "cdc-wdm0".toList "wwan0\n".toList "wwan0".toList)
      (ret (.returned 0 ⟨copiedField "cdc-wdm0".toList, copiedField "wwan0".toList⟩)) :=
    after_replay rfl
  have hline : ¬ (6 : ℤ) < 0 := by decide
  have hregister := Reach.bind (reach_embed (f := ModemLifeQ.hal 6) (W := modemLifeWorld)
    (s := exampleLedger.acquire (.line 6)) hserial
    fun _ _ => ⟨fun hneg => absurd hneg hline, rfl⟩)
    fun attached => match attached with
      | .overrun => ask .overrun Empty.elim
      | .returned err _ => if err ≠ 0 then ret ⟨6, 6, -1⟩ else ret (⟨6, 6, 0⟩ : OpenedModem)
  have hopen : Reach modemLifeWorld exampleLedger
      (modemHalOpen "/dev/ttyUSB2".toList ⟨CharArray.zero 20, CharArray.zero 20⟩ (-1))
      (exampleLedger.acquire (.line 6)) (ret ⟨6, 6, 0⟩) :=
    .reply (6 : ℤ) ⟨⟨by decide, by decide⟩, rfl⟩ (.reply () rfl (.reply (0 : ℤ) rfl hregister))
  have hmem : exampleModem ∈ [exampleModem] := List.mem_cons_self
  have hstep := ModemLifeStep.opened (s := ⟨exampleLedger, -1, [exampleModem], fun _ => none⟩)
    hmem rfl hopen
  exact hstep

theorem example_closed (lines : ℕ → Option ℕ) (hlines : lines 1 ≠ none) : ModemLifeStep
    ⟨exampleLedger.acquire (.line 6), 6, [exampleModem], lines⟩ (some (.closed 1))
      ⟨(exampleLedger.acquire (.line 6)).release (.line 6), -1, [exampleModem],
        Function.update lines 1 none⟩ := by
  have hline : ¬ (6 : ℤ) < 0 := by decide
  exact .closed (r := (-1, 0)) hlines (.reply (AtAnswer.refused .generic)
    ⟨fun hneg => absurd hneg hline, rfl⟩ (.reply () rfl (.start _ _)))

theorem example_detached (l : Ledger ModemResource) (lines : ℕ → Option ℕ)
    (hlines : lines 1 = none) : ∃ l', ModemLifeStep ⟨l, -1, [exampleModem], lines⟩
      (some (.detached exampleModem)) ⟨l', -1, [], lines⟩ :=
  ⟨_, .detached (v := 0) List.mem_cons_self hlines
    (.reply () rfl (.reply () rfl (.reply () rfl (.start _ _))))⟩

theorem exists_exampleRun : ∃ s, Trace ModemLifeStep .start exampleLog s ∧ s.modems = [] := by
  have hrun := ((Trace.single example_attached).snoc example_opened).snoc
    (example_closed _ (by simp))
  obtain ⟨l, hdetached⟩ := example_detached
    ((exampleLedger.acquire (.line 6)).release (.line 6))
    (Function.update (Function.update (fun _ => none) 1 (some 6)) 1 none) (by simp)
  exact ⟨_, hrun.snoc hdetached, rfl⟩

end RadioHal
