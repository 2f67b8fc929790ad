import RadioHal.Lib.SharedSlot
import RadioHal.Modem.Lifetime

/-!
# The serial lines of several modems

The AT channel has one descriptor, `s_fd`, that all modems share: who opens a modem puts its line
there, and who closes a modem closes the line that is there.  When two modems are open, the one that
was opened first loses its line to the other.

## Main definitions

* `ModemProcess.LinesOwned` — the open lines are those of the open modems.
* `ModemProcess.slotted`, `ModemLifeEvent.slotEvent` — the lines, as resources that share a slot.
* `LinesLive` — no resource is live twice, and the line of the channel is open.

## Main results

* `LinesLive.step` — **a step is one of the shared slot, or does not concern the lines.**
* `lines_owned_iff` — **the open lines are those of the open modems exactly as long as every modem
  is closed directly behind its own opening, and none fails to open with a line.**
-/

namespace RadioHal

open CLib Dialogue SharedSlot

/-- **The open lines are those of the open modems.** -/
def ModemProcess.LinesOwned (s : ModemProcess) : Prop :=
  ∀ fd, ModemResource.line fd ∈ s.ledger.live ↔ ∃ ctx, s.lines ctx = some fd

/-- The serial lines as resources that share the slot `s_fd`. -/
def ModemProcess.slotted (s : ModemProcess) : Slotted ℕ ℕ :=
  ⟨{fd | .line fd ∈ s.ledger.live}, if 0 ≤ s.sFd then some s.sFd.toNat else none, s.lines⟩

/-- What an event of the process is for the lines and their slot. -/
def ModemLifeEvent.slotEvent : ModemLifeEvent → Option (SlotEvent ℕ ℕ)
  | attached _ _ => none
  | opened ctx r =>
    if r.atif < 0 then some .cleared
    else if r.atif = 0 then some (.dropped 0)
    else if r.ret = 0 then some (.opened ctx r.atif.toNat)
    else some (.failed r.atif.toNat)
  | closed ctx => some (.closed ctx)
  | detached _ => none

/-- No resource is live twice, and the line that the channel has is open. -/
structure LinesLive (s : ModemProcess) : Prop where
  nodup : s.ledger.live.Nodup
  channel : ∀ fd : ℕ, s.sFd = fd → .line fd ∈ s.ledger.live

section Lines

variable {s s' : ModemProcess} {e : ModemLifeEvent} {l : Ledger ModemResource}

/-- A step in which only memory and pipes come and go leaves the lines as they are. -/
theorem slotted_eq_of_lines (modems : List ModemHalContext)
    (h : ∀ fd, .line fd ∈ l.live ↔ .line fd ∈ s.ledger.live) :
    ModemProcess.slotted { s with ledger := l, modems := modems } = s.slotted := by
  unfold ModemProcess.slotted
  congr 1
  exact Set.ext h

theorem line_mem_attached {r : Option ModemHalContext × Option (ℕ × ℕ)}
    {l l' : Ledger ModemResource}
    (h : l.Holds (r.1.elim [] ModemHalContext.held ++ pipeEnds r.2) l') (fd : ℕ) :
    .line fd ∈ l'.live ↔ .line fd ∈ l.live := by
  rw [h.mem_iff]
  refine or_iff_right fun hmem => ?_
  obtain ⟨modem, modemFds⟩ := r
  cases modem <;> cases modemFds <;> simp [ModemHalContext.held, pipeEnds] at hmem

theorem line_mem_detached (modem : ModemHalContext) (l : Ledger ModemResource) (fd : ℕ) :
    .line fd ∈ (l.releaseAll modem.givenBack).live ↔ .line fd ∈ l.live := by
  have hnone : modem.givenBack.count (.line fd) = 0 := by
    rw [List.count_eq_zero]
    simp [ModemHalContext.givenBack]
  rw [← List.count_pos_iff, Ledger.count_releaseAll, hnone, Nat.sub_zero, List.count_pos_iff]

theorem slotEvent_opened {ctx fd : ℕ} (hpos : fd ≠ 0) (sFd ret : ℤ) :
    (ModemLifeEvent.opened ctx ⟨fd, sFd, ret⟩).slotEvent =
      if ret = 0 then some (.opened ctx fd) else some (.failed fd) := by
  have hneg : ¬ (fd : ℤ) < 0 := by omega
  have hzero : (fd : ℤ) ≠ 0 := by omega
  simp only [ModemLifeEvent.slotEvent, if_neg hneg, if_neg hzero, Int.toNat_natCast]

/-- A line that is opened is live beside the others. -/
theorem lines_acquire (l : Ledger ModemResource) (fd : ℕ) :
    {x | .line x ∈ (l.acquire (.line fd)).live} = insert fd {x | .line x ∈ l.live} := by
  ext x
  show ModemResource.line x ∈ _ :: _ ↔ _
  rw [List.mem_cons, ModemResource.line.injEq, Set.mem_insert_iff]
  rfl

theorem lines_close (h : LinesLive s) :
    {x | .line x ∈ (if 0 ≤ s.sFd then s.ledger.release (.line s.sFd.toNat) else s.ledger).live} =
      {x ∈ s.slotted.live | s.slotted.slot ≠ some x} := by
  ext x
  show _ ↔ ModemResource.line x ∈ s.ledger.live ∧
    (if 0 ≤ s.sFd then some s.sFd.toNat else none) ≠ some x
  split
  · show ModemResource.line x ∈ s.ledger.live.erase _ ↔ _
    rw [h.nodup.mem_erase_iff, and_comm, ne_eq, ne_eq, ModemResource.line.injEq, Option.some.injEq,
      eq_comm]
  · simp

/-- **A step is one of the shared slot**, or does not concern the lines. -/
theorem LinesLive.step (h : LinesLive s) (hstep : ModemLifeStep s (some e) s') :
    LinesLive s' ∧ (e.slotEvent = none ∧ s'.slotted = s.slotted ∨
      SlotStep s.slotted e.slotEvent s'.slotted) := by
  cases hstep with
  | @attached r l hrun =>
    -- attaching touches no line
    have hsame := line_mem_attached (wp_reach hrun (ends_attachModem _))
    exact ⟨⟨nodup_of_reach hrun h.nodup, fun fd hfd => (hsame fd).mpr (h.channel fd hfd)⟩,
      Or.inl ⟨rfl, slotted_eq_of_lines _ hsame⟩⟩
  | @opened modem atSerial sc r l hmem hclosed hrun =>
    have hopened : OpenedAs s.ledger s.sFd r l := wp_reach hrun (ends_modemHalOpen _ _ _ _)
    have hnodup := nodup_of_reach hrun h.nodup
    cases hopened with
    | zero hnew =>
      -- descriptor zero is taken for an error: it stays open, and the slot is not told
      refine ⟨⟨hnodup, fun fd hfd => List.mem_cons_of_mem _ (h.channel fd hfd)⟩, Or.inr ?_⟩
      have hdropped := SlotStep.dropped (s := s.slotted) hnew.1
      unfold ModemProcess.slotted at hdropped ⊢
      rw [lines_acquire]
      exact hdropped
    | @refused fd hneg =>
      -- `open` has failed, and its negative result empties the slot
      refine ⟨⟨hnodup, fun n (hn : fd = n) => by omega⟩, Or.inr ?_⟩
      have hevent : (ModemLifeEvent.opened modem.ctx ⟨fd, fd, -1⟩).slotEvent = some .cleared :=
        if_pos hneg
      have hcleared := SlotStep.cleared (s := s.slotted)
      unfold ModemProcess.slotted at hcleared ⊢
      rw [hevent, if_neg (not_le.mpr hneg)]
      exact hcleared
    | @failed fd hpos hnew =>
      -- the line is in the slot, but the modem is not registered as open
      refine ⟨⟨hnodup, fun n (hn : (fd : ℤ) = n) => ?_⟩, Or.inr ?_⟩
      · rw [← Int.natCast_inj.mp hn]
        exact List.mem_cons_self
      · have hfailed := SlotStep.failed (s := s.slotted) hnew.1
        unfold ModemProcess.slotted at hfailed ⊢
        rw [slotEvent_opened hpos, lines_acquire, if_pos (Int.natCast_nonneg fd)]
        exact hfailed
    | @opened fd hpos hnew =>
      -- the line is in the slot, and the modem owns it
      refine ⟨⟨hnodup, fun n (hn : (fd : ℤ) = n) => ?_⟩, Or.inr ?_⟩
      · rw [← Int.natCast_inj.mp hn]
        exact List.mem_cons_self
      · have hopened := SlotStep.opened (s := s.slotted) hclosed hnew.1
        unfold ModemProcess.slotted at hopened ⊢
        rw [slotEvent_opened hpos, lines_acquire, if_pos (Int.natCast_nonneg fd)]
        exact hopened
  | @closed ctx r l hopen hrun =>
    -- closing goes by the slot, whichever modem asks for it
    obtain ⟨hsFd, rfl⟩ := wp_reach hrun (ends_modemHalClose _ _)
    refine ⟨⟨nodup_of_reach hrun h.nodup, fun fd hfd => ?_⟩, Or.inr ?_⟩
    · have hneg : (-1 : ℤ) = fd := hsFd.symm.trans hfd
      omega
    · have hslot : (if 0 ≤ r.1 then some r.1.toNat else none) = none := by
        rw [hsFd]
        rfl
      have hclosed := SlotStep.closed (s := s.slotted) hopen
      unfold ModemProcess.slotted at hclosed ⊢
      rw [lines_close h, hslot]
      exact hclosed
  | @detached modem v l hmem hclosed hrun =>
    -- detaching touches no line
    obtain rfl : l = _ := wp_reach hrun (ends_modemHalDetach _ _)
    have hsame := line_mem_detached modem s.ledger
    exact ⟨⟨nodup_of_reach hrun h.nodup, fun fd hfd => (hsame fd).mpr (h.channel fd hfd)⟩,
      Or.inl ⟨rfl, slotted_eq_of_lines _ hsame⟩⟩

/-- Behind a run the lines have taken the steps of the shared slot. -/
theorem lines_of_trace {log : List ModemLifeEvent} (hrun : Trace ModemLifeStep .start log s) :
    LinesLive s ∧ Trace SlotStep .start (log.filterMap ModemLifeEvent.slotEvent) s.slotted := by
  refine hrun.log_invariant
    (fun log s => LinesLive s ∧ Trace SlotStep .start (log.filterMap ModemLifeEvent.slotEvent)
      s.slotted) ?_ ⟨⟨List.nodup_nil, fun fd hfd => ?_⟩, ?_⟩
  · rintro log s (_ | e) s' ⟨hlive, hslots⟩ hstep
    · cases hstep
    obtain ⟨hlive', hstep'⟩ := hlive.step hstep
    refine ⟨hlive', ?_⟩
    rw [List.filterMap_append]
    rcases hstep' with ⟨hnone, hsame⟩ | hstep'
    · rw [hsame]
      simpa [hnone] using hslots
    · have hall := hslots.snoc hstep'
      rwa [show (some e).toList.filterMap ModemLifeEvent.slotEvent = e.slotEvent.toList by
        cases h : e.slotEvent <;> simp [h]]
  · have hneg : (-1 : ℤ) = fd := hfd
    omega
  · have hstart : ModemProcess.start.slotted = Slotted.start := by
      unfold ModemProcess.slotted
      congr 1
      exact Set.eq_empty_of_forall_notMem fun fd h => absurd h List.not_mem_nil
    rw [hstart]
    exact .refl

end Lines

/-- **The open lines are those of the open modems exactly as long as each modem is closed directly
behind its own opening, and none fails to open with a line.** -/
theorem lines_owned_iff {log : List ModemLifeEvent} {s : ModemProcess}
    (hrun : Trace ModemLifeStep .start log s) :
    s.LinesOwned ↔ InTurn (log.filterMap ModemLifeEvent.slotEvent) :=
  owned_iff (lines_of_trace hrun).2

theorem lines_owned_iff_example : ∃ s, Trace ModemLifeStep .start exampleLog s ∧ s.LinesOwned := by
  obtain ⟨s, hrun, -⟩ := exists_exampleRun
  refine ⟨s, hrun, (lines_owned_iff hrun).mpr ?_⟩
  show InTurn ([] ++ [.opened 1 6] ++ [.closed 1])
  rw [inTurn_concat_iff, inTurn_concat_iff]
  exact ⟨⟨inTurn_nil, trivial⟩, 6, rfl⟩

end RadioHal
