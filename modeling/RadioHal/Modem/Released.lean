import RadioHal.Modem.SerialLines

/-!
# What modems leave behind

`modem_hal_detach` frees every pointer to a configuration that the context has room for.  The
context comes from `malloc`, and only the first of the pointers has been written: the other one is
what lay in that memory before.  The pipe that came with the modem is nowhere closed.

## Main definitions

* `ModemLifeEvent.stray`, `strays` — the pointers that are freed without having been written.
* `pipes` — the pipes that have been made.
* `MemoryInv` — what is live, counted against what is held.

## Main results

* `MemoryInv.step` — what a step keeps.
* `freed_once_iff` — **when all modems have been detached, nothing was freed that was not allocated
  exactly if every pointer freed without having been written was null; and then the pipes are
  left.**
-/

namespace RadioHal

open CLib Dialogue

/-- The pointer that `modem_hal_detach` frees without its having been written. -/
def ModemLifeEvent.stray : ModemLifeEvent → Option ℕ
  | detached modem => modem.config₁
  | _ => none

/-- The pipe that is made in this step. -/
def ModemLifeEvent.pipe : ModemLifeEvent → Option (ℕ × ℕ)
  | attached _ modemFds => modemFds
  | _ => none

/-- What is freed besides what modems held. -/
def strays (log : List ModemLifeEvent) : List ModemResource :=
  log.flatMap fun e => e.stray.toList.map .block

/-- The ends of all pipes that have been made along a run. -/
def pipes (log : List ModemLifeEvent) : List ModemResource := log.flatMap fun e => pipeEnds e.pipe

/-- Lines apart, what is live and what was freed besides is what is held and the pipes; and as long
as nothing was freed besides, nothing has gone wrong. -/
structure MemoryInv (log : List ModemLifeEvent) (s : ModemProcess) : Prop where
  count : s.ledger.sound = true → ∀ r : ModemResource, r.isLine = false →
    s.ledger.live.count r + (strays log).count r =
      (s.modems.flatMap ModemHalContext.held).count r + (pipes log).count r
  sound : strays log = [] → s.ledger.sound = true

section Memory

variable {log : List ModemLifeEvent} {s s' : ModemProcess} {e : ModemLifeEvent}
  {l l' : Ledger ModemResource} {r : ModemResource}

theorem strays_concat (log : List ModemLifeEvent) (e : ModemLifeEvent) :
    strays (log ++ [e]) = strays log ++ e.stray.toList.map .block := by simp [strays]

theorem pipes_concat (log : List ModemLifeEvent) (e : ModemLifeEvent) :
    pipes (log ++ [e]) = pipes log ++ pipeEnds e.pipe := by simp [pipes]

/-- Opening a modem has to do with its line only. -/
theorem OpenedAs.memory {sFd : ℤ} {a : OpenedModem} (h : OpenedAs l sFd a l') :
    l'.sound = l.sound ∧ ∀ r : ModemResource, r.isLine = false →
      l'.live.count r = l.live.count r := by
  have hacquire : ∀ fd, ∀ r : ModemResource, r.isLine = false →
      (l.acquire (.line fd)).live.count r = l.live.count r := by
    intro fd r hr
    refine List.count_cons_of_ne ?_
    rintro rfl
    cases hr
  cases h with
  | zero => exact ⟨rfl, hacquire 0⟩
  | refused => exact ⟨rfl, fun _ _ => rfl⟩
  | failed => exact ⟨rfl, hacquire _⟩
  | opened => exact ⟨rfl, hacquire _⟩

/-- So does closing it, and the line is open. -/
theorem LinesLive.close (h : LinesLive s)
    (hl : l = if 0 ≤ s.sFd then s.ledger.release (.line s.sFd.toNat) else s.ledger) :
    l.sound = s.ledger.sound ∧ ∀ r : ModemResource, r.isLine = false →
      l.live.count r = s.ledger.live.count r := by
  subst hl
  split
  · next hfd =>
    have hmem := h.channel s.sFd.toNat (Int.toNat_of_nonneg hfd).symm
    refine ⟨?_, fun r hr => List.count_erase_of_ne ?_⟩
    · show (s.ledger.sound && s.ledger.live.contains _) = _
      rw [List.contains_iff_mem.mpr hmem, Bool.and_true]
    · rintro rfl
      cases hr
  · exact ⟨rfl, fun _ _ => rfl⟩

namespace MemoryInv

/-- A step that concerns neither memory nor a pipe keeps the account. -/
theorem same (h : MemoryInv log s) (hstray : e.stray = none) (hpipe : e.pipe = none)
    (hmodems : s'.modems = s.modems) (hsound : s'.ledger.sound = s.ledger.sound)
    (hcount : ∀ r : ModemResource, r.isLine = false →
      s'.ledger.live.count r = s.ledger.live.count r) : MemoryInv (log ++ [e]) s' := by
  have hstrays : strays (log ++ [e]) = strays log := by
    rw [strays_concat, hstray]
    exact List.append_nil _
  have hpipes : pipes (log ++ [e]) = pipes log := by
    rw [pipes_concat, hpipe]
    exact List.append_nil _
  refine ⟨fun hs r hr => ?_, fun hnone => ?_⟩
  · rw [hcount r hr, hstrays, hpipes, hmodems]
    exact h.count (hsound ▸ hs) r hr
  · rw [hsound]
    exact h.sound (hstrays ▸ hnone)

/-- Attaching keeps the account, whether a modem comes of it or not. -/
theorem attach (h : MemoryInv log s) (modem : Option ModemHalContext) (modemFds : Option (ℕ × ℕ))
    (hl : s.ledger.Holds (modem.elim [] ModemHalContext.held ++ pipeEnds modemFds) l) :
    MemoryInv (log ++ [.attached modem modemFds])
      { s with ledger := l, modems := modem.toList ++ s.modems } := by
  have hstrays : strays (log ++ [.attached modem modemFds]) = strays log := by
    rw [strays_concat]
    exact List.append_nil _
  refine ⟨fun hs r hr => ?_, fun hnone => ?_⟩
  · have hbefore := h.count (hl.sound ▸ hs) r hr
    have hheld : (modem.toList ++ s.modems).flatMap ModemHalContext.held =
        modem.elim [] ModemHalContext.held ++ s.modems.flatMap ModemHalContext.held := by
      cases modem <;> simp
    show l.live.count r + _ = ((modem.toList ++ s.modems).flatMap _).count r + _
    rw [hl.live.count_eq, hstrays, pipes_concat, hheld]
    simp only [List.count_append, ModemLifeEvent.pipe]
    omega
  · show l.sound = true
    rw [hl.sound]
    exact h.sound (hstrays ▸ hnone)

/-- Detaching keeps the account: it frees what the modem held, and its second configuration, if
there is one. -/
theorem detach (h : MemoryInv log s) {modem : ModemHalContext} (hmem : modem ∈ s.modems) :
    MemoryInv (log ++ [.detached modem])
      { s with
        ledger := s.ledger.releaseAll modem.givenBack
        modems := s.modems.erase modem } := by
  -- what is freed is what was held, and the second configuration on top of it
  have hback : ∀ r, modem.givenBack.count r =
      modem.held.count r + (modem.config₁.toList.map ModemResource.block).count r := by
    intro r
    simp only [ModemHalContext.givenBack, ModemHalContext.held, List.count_append]
    omega
  -- the modem takes its part of what all modems hold away with it
  have hheld : ∀ r, (s.modems.flatMap ModemHalContext.held).count r =
      modem.held.count r + ((s.modems.erase modem).flatMap ModemHalContext.held).count r := by
    intro r
    have hperm := (List.perm_cons_erase hmem).flatMap_right ModemHalContext.held
    rw [hperm.count_eq, List.flatMap_cons, List.count_append]
  have hstrays := strays_concat log (.detached modem)
  have hpipes : pipes (log ++ [.detached modem]) = pipes log := by
    rw [pipes_concat]
    exact List.append_nil _
  refine ⟨fun hs r hr => ?_, fun hnone => ?_⟩
  -- what was given back had been live, so the counts go down by it
  · obtain ⟨hsound, hle⟩ := Ledger.sound_releaseAll_iff.mp hs
    have hbefore := h.count hsound r hr
    have hr' := hle r
    show (s.ledger.releaseAll modem.givenBack).live.count r + _ = _
    rw [Ledger.count_releaseAll, hstrays, hpipes, List.count_append]
    show _ + (_ + (modem.config₁.toList.map ModemResource.block).count r) =
      ((s.modems.erase modem).flatMap _).count r + _
    rw [hback] at hr' ⊢
    rw [hheld] at hbefore
    omega
  -- without a second configuration, all that is given back is held, and so it is live
  · rw [hstrays, List.append_eq_nil_iff] at hnone
    obtain ⟨hbefore, hstray⟩ := hnone
    have hsound := h.sound hbefore
    refine Ledger.sound_releaseAll_iff.mpr ⟨hsound, fun r => ?_⟩
    rw [hback, show modem.config₁.toList.map ModemResource.block = [] from hstray, List.count_nil]
    by_cases hr : r.isLine = false
    · have hcount := h.count hsound r hr
      rw [hbefore, hheld] at hcount
      simp only [List.count_nil] at hcount
      omega
    · have hnone : modem.held.count r = 0 := by
        rw [List.count_eq_zero]
        intro hmem'
        apply hr
        simp only [ModemHalContext.held, List.mem_append, List.mem_map, List.mem_cons,
          List.not_mem_nil, or_false] at hmem'
        rcases hmem' with ⟨_, -, rfl⟩ | rfl | rfl <;> rfl
      omega

/-- **One step** keeps the account of what is live. -/
theorem step (h : MemoryInv log s) (hlines : LinesLive s)
    (hstep : ModemLifeStep s (some e) s') : MemoryInv (log ++ [e]) s' := by
  cases hstep with
  | attached hrun => exact h.attach _ _ (wp_reach hrun (ends_attachModem _))
  | opened hmem hclosed hrun =>
    obtain ⟨hsound, hcount⟩ := OpenedAs.memory (wp_reach hrun (ends_modemHalOpen _ _ _ _))
    exact h.same rfl rfl rfl hsound hcount
  | closed hopen hrun =>
    obtain ⟨-, hl⟩ := wp_reach hrun (ends_modemHalClose _ _)
    obtain ⟨hsound, hcount⟩ := hlines.close hl
    exact h.same rfl rfl rfl hsound hcount
  | @detached modem v l hmem hclosed hrun =>
    obtain rfl : l = _ := wp_reach hrun (ends_modemHalDetach _ _)
    exact h.detach hmem

end MemoryInv

theorem memory_of_trace (hrun : Trace ModemLifeStep .start log s) : MemoryInv log s := by
  have hinv : LinesLive s ∧ MemoryInv log s := by
    refine hrun.log_invariant (fun log s => LinesLive s ∧ MemoryInv log s) ?_
      ⟨(lines_of_trace .refl).1, fun _ _ _ => rfl, fun _ => rfl⟩
    rintro log s (_ | e) s' ⟨hlines, h⟩ hstep
    · cases hstep
    · exact ⟨(hlines.step hstep).1, h.step hlines hstep⟩
  exact hinv.2

theorem strays_eq_nil_iff : strays log = [] ↔ ∀ e ∈ log, e.stray = none := by
  unfold strays
  rw [List.flatMap_eq_nil_iff]
  refine forall_congr' fun e => imp_congr_right fun _ => ?_
  cases e.stray <;> simp

theorem count_pipes_block (log : List ModemLifeEvent) (p : ℕ) :
    (pipes log).count (.block p) = 0 := by
  rw [List.count_eq_zero]
  intro hmem
  obtain ⟨e, -, he⟩ := List.mem_flatMap.mp hmem
  cases hpipe : e.pipe <;> simp [pipeEnds, hpipe] at he

theorem isLine_of_mem_pipes (h : r ∈ pipes log) : r.isLine = false := by
  obtain ⟨e, -, he⟩ := List.mem_flatMap.mp h
  cases hpipe : e.pipe with
  | none => simp [pipeEnds, hpipe] at he
  | some fds =>
    rw [hpipe] at he
    rcases List.mem_cons.mp he with rfl | he
    · rfl
    · rw [List.mem_singleton.mp he]
      rfl

end Memory

/-- **When all modems have been detached, nothing was freed that was not allocated exactly if every
pointer freed without having been written was null; and then the pipes are left.** -/
theorem freed_once_iff {log : List ModemLifeEvent} {s : ModemProcess}
    (hrun : Trace ModemLifeStep .start log s) (hnone : s.modems = []) :
    (s.ledger.sound = true ↔ ∀ e ∈ log, e.stray = none) ∧
      (s.ledger.sound = true →
        (s.ledger.live.filter fun r => !r.isLine).Perm (pipes log)) := by
  have hinv := memory_of_trace hrun
  -- where no modem is left, only the pipes and the strays can be live
  have hall : s.ledger.sound = true → strays log = [] ∧ ∀ r : ModemResource, r.isLine = false →
      s.ledger.live.count r = (pipes log).count r := by
    intro hs
    have hcount := hinv.count hs
    rw [hnone] at hcount
    simp only [List.flatMap_nil, List.count_nil, Nat.zero_add] at hcount
    -- a stray block would be live less often than never
    have hstrays : strays log = [] := by
      rw [List.eq_nil_iff_forall_not_mem]
      intro r hmem
      obtain ⟨e, -, he⟩ := List.mem_flatMap.mp hmem
      obtain ⟨p, -, rfl⟩ := List.mem_map.mp he
      have hp := hcount (.block p) rfl
      rw [count_pipes_block] at hp
      have hpos := List.count_pos_iff.mpr hmem
      omega
    refine ⟨hstrays, fun r hr => ?_⟩
    have hr' := hcount r hr
    rwa [hstrays] at hr'
  refine ⟨⟨fun hs => strays_eq_nil_iff.mp (hall hs).1, fun h => ?_⟩, fun hs => ?_⟩
  · exact hinv.sound (strays_eq_nil_iff.mpr h)
  · rw [List.perm_iff_count]
    intro r
    by_cases hr : r.isLine = false
    · rw [List.count_filter (by simp [hr])]
      exact (hall hs).2 r hr
    · rw [List.count_eq_zero.mpr fun h => hr (isLine_of_mem_pipes h), List.count_eq_zero]
      intro hmem
      have hr' := (List.mem_filter.mp hmem).2
      simp [hr] at hr'

/-- Its memory is freed once, and its pipe is left. -/
theorem freed_once_iff_example : ∃ s, Trace ModemLifeStep .start exampleLog s ∧
    s.ledger.sound = true ∧
      (s.ledger.live.filter fun r => !r.isLine).Perm [.pipeEnd 4, .pipeEnd 3] := by
  obtain ⟨s, hrun, hnone⟩ := exists_exampleRun
  obtain ⟨hsound, hleft⟩ := freed_once_iff hrun hnone
  have hs := hsound.mpr (by decide)
  exact ⟨s, hrun, hs, hleft hs⟩

end RadioHal
