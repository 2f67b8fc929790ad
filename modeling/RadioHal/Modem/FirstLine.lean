import RadioHal.Lib.Stuck
import RadioHal.Modem.Connect
import RadioHal.Modem.Queries
import RadioHal.Modem.Response

/-!
# Reading the first line of a response

Five functions read the first line of the response to a single-line command.  A successful
command comes with one, but a command that ends in an error final may come without, and is
successful to `at_send_command_singleline` all the same.

## Main definitions

* `LineReader` — the five functions.
* `LineReader.Trusts` — whether the function goes on to the line behind an error final.
* `LineReader.Misled` — the answers it does so for, with no line there.

## Main results

* `stuckBehind_program` — a function is stuck behind such an answer, and nowhere else.
* `reads_line_iff` — **along a run a line is there to be read exactly as long as no such answer
  came.**
-/

namespace RadioHal

open CLib Dialogue

/-- The functions that read the first line of a response. -/
inductive LineReader
  | checkModem | checkPinStatus
  | enterSimPin (pin : Text)
  | getRegistrationStatus | getRssi

namespace LineReader

/-- The function itself, with its return value. -/
def program : LineReader → ModemM ℤ
  | checkModem => modemHalCheckModem
  | checkPinStatus => do
    let status ← modemHalCheckPinStatus
    return status.code
  | enterSimPin pin => RadioHal.enterSimPin pin
  | getRegistrationStatus => modemHalGetRegistrationStatus
  | getRssi => modemHalGetRssi

/-- The function goes on to the line behind this error final. -/
def Trusts : LineReader → Option Text → Prop
  | checkModem => fun _ => True
  | checkPinStatus => fun final => atGetCmeError ⟨false, final, []⟩ = 0
  | enterSimPin _ => fun _ => False
  | getRegistrationStatus => fun _ => True
  | getRssi => fun _ => True

/-- A single-line command is answered by an error final the function trusts, and no line. -/
def Misled (f : LineReader) : Exchange ModemQ ModemA → Prop
  | ⟨.atCommand _ .singleline responsePrefix, answer⟩ =>
    AtAnswer.LacksLine responsePrefix answer ∧ f.Trusts (AtAnswer.lastFinal answer)
  | _ => False

end LineReader

/-! ### Commands and their lines -/

section Commands

variable {α : Type} {f : LineReader}

/-- **The rule for a single-line command**, by what may come of it: an error, a response with its
line, and one without, which the function follows to its missing line or does not. -/
theorem stuckBehind_singleline {command responsePrefix : Text} {pp : Option ATResponse}
    {k : AtResult → ModemM α}
    (herr : ∀ r : AtResult, r.err < 0 → StuckBehind .nullDeref f.Misled (k r))
    (hline : ∀ (p : ATResponse) (line : Text), p.pIntermediates = [line] →
      StuckBehind .nullDeref f.Misled (k ⟨0, some p⟩))
    (htrusts : ∀ final, f.Trusts final → Stuck .nullDeref (k ⟨0, some ⟨false, final, []⟩⟩))
    (hdoubts : ∀ final, ¬ f.Trusts final →
      StuckBehind .nullDeref f.Misled (k ⟨0, some ⟨false, final, []⟩⟩)) :
    StuckBehind .nullDeref f.Misled (atSendCommandSingleline command responsePrefix pp >>= k) := by
  rw [atSendCommandSingleline_bind]
  refine ⟨by simp, fun a => ⟨fun h => ?_, fun h => ?_⟩⟩
  · have hres := singleline_of_lacksLine h.1 pp
    dsimp only
    rw [hres]
    exact htrusts _ h.2
  · by_cases hlacks : AtAnswer.LacksLine responsePrefix a
    · have hres := singleline_of_lacksLine hlacks pp
      dsimp only
      rw [hres]
      exact hdoubts _ fun ht => h ⟨hlacks, ht⟩
    · rcases singleline_of_not_lacksLine hlacks pp with hneg | ⟨p, line, hres, hp⟩
      · exact herr _ hneg
      · dsimp only
        rw [hres]
        exact hline p line hp

/-- A function that trusts every error final reads the line of a command that did not fail. -/
theorem stuckBehind_firstIntermediate (hf : ∀ final, f.Trusts final)
    {command responsePrefix : Text} {pp : Option ATResponse} {g : AtResult → ModemM α}
    {k : AtResult → Text → ModemM α} (hg : ∀ r, StuckBehind .nullDeref f.Misled (g r))
    (hk : ∀ r line, StuckBehind .nullDeref f.Misled (k r line)) :
    StuckBehind .nullDeref f.Misled
      (atSendCommandSingleline command responsePrefix pp >>= fun r =>
        if r.err ≠ 0 then g r else firstIntermediate r.response >>= k r) := by
  apply stuckBehind_singleline
  · intro r hneg
    rw [if_pos hneg.ne]
    exact hg r
  · intro p line hp
    rw [if_neg (by simp)]
    unfold firstIntermediate
    rw [deref_some, ret_bind, hp, List.head?_cons, deref_some, ret_bind]
    exact hk _ line
  · intro final _
    exact stuck_ask _ _
  · intro final hdoubt
    exact absurd (hf final) hdoubt

/-- A local variable that was never assigned may be read as any value, and the program is stuck all
the same. -/
theorem stuckBehind_uninit {k : ℤ → ModemM α}
    (hk : ∀ n, StuckBehind .nullDeref f.Misled (k n)) :
    StuckBehind .nullDeref f.Misled (query ModemQ.uninit >>= k) :=
  stuckBehind_ask (by decide) (fun _ h => h) hk

end Commands

/-! ### The five functions -/

theorem stuckBehind_checkModem : StuckBehind .nullDeref LineReader.checkModem.Misled
    modemHalCheckModem := by
  have htrusts : ∀ final, LineReader.checkModem.Trusts final := fun _ => trivial
  unfold modemHalCheckModem
  apply stuckBehind_uninit
  intro last
  apply stuckBehind_firstIntermediate htrusts
  · intro r
    trivial
  · intro r manufacturer
    apply stuckBehind_firstIntermediate htrusts
    · intro r'
      trivial
    · intro r' model
      split
      · trivial
      · trivial

theorem stuckBehind_checkPinStatus : StuckBehind .nullDeref LineReader.checkPinStatus.Misled
    modemHalCheckPinStatus := by
  unfold modemHalCheckPinStatus
  apply stuckBehind_singleline
  · intro r hneg
    rw [if_pos hneg.ne]
    trivial
  · intro p line hp
    rw [if_neg (by simp), deref_some, ret_bind, hp, List.head?_cons, deref_some]
    split
    · trivial
    · split
      · trivial
      · trivial
  · intro final htrusts
    have hzero : atGetCmeError ⟨false, final, []⟩ = 0 := htrusts
    rw [if_neg (by simp), deref_some, ret_bind, if_pos hzero]
    exact stuck_ask _ _
  · intro final hdoubts
    have hcode : atGetCmeError ⟨false, final, []⟩ ≠ 0 := hdoubts
    rw [if_neg (by simp), deref_some, ret_bind, if_neg hcode]
    split
    · trivial
    · trivial

theorem stuckBehind_enterSimPin (pin : Text) :
    StuckBehind .nullDeref (LineReader.enterSimPin pin).Misled (enterSimPin pin) := by
  unfold enterSimPin
  rw [atSendCommand_bind]
  refine stuckBehind_ask (by simp) (fun _ h => h) fun a => ?_
  split
  · trivial
  · next hnonneg =>
    obtain ⟨p, hp⟩ := exists_response_of_nonneg hnonneg
    rw [hp, deref_some, ret_bind]
    split
    · trivial
    · unfold cpinCheck
      apply stuckBehind_singleline
      · intro r hneg
        rw [if_pos hneg]
        trivial
      · intro p line hline
        rw [if_neg (by simp), deref_some, ret_bind, hline, List.head?_cons, deref_some]
        split
        · trivial
        · trivial
      · intro final htrusts
        exact htrusts.elim
      · intro final _
        -- the function asks for success before it looks at the lines
        trivial

theorem stuckBehind_registrationQuery (pp : Option ATResponse) :
    StuckBehind .nullDeref LineReader.getRegistrationStatus.Misled (registrationQuery pp) := by
  have htrusts : ∀ final, LineReader.getRegistrationStatus.Trusts final := fun _ => trivial
  exact stuckBehind_firstIntermediate htrusts (fun _ => trivial) fun _ _ => trivial

/-- The registration is stuck behind such an answer, by induction on the attempts that are left. -/
theorem stuckBehind_registrationLoop (left : ℕ) (pp : Option ATResponse) :
    StuckBehind .nullDeref LineReader.getRegistrationStatus.Misled (registrationLoop left pp) := by
  induction left generalizing pp with
  | zero => exact (stuckBehind_registrationQuery pp).bind fun _ => trivial
  | succ left ih =>
    apply (stuckBehind_registrationQuery pp).bind
    intro r
    cases hr : r.1 with
    | none => trivial
    | some status =>
      dsimp only
      split
      · exact stuckBehind_ask (by decide) (fun _ h => h) fun _ => ih r.2
      · trivial

theorem stuckBehind_rssiByCind (rssi : ℤ) :
    StuckBehind .nullDeref LineReader.getRssi.Misled (rssiByCind rssi) := by
  have htrusts : ∀ final, LineReader.getRssi.Trusts final := fun _ => trivial
  unfold rssiByCind
  apply stuckBehind_firstIntermediate htrusts
  · intro r
    trivial
  · intro r line
    split
    · trivial
    · split
      · trivial
      · trivial

theorem stuckBehind_getRssi : StuckBehind .nullDeref LineReader.getRssi.Misled
    modemHalGetRssi := by
  have htrusts : ∀ final, LineReader.getRssi.Trusts final := fun _ => trivial
  unfold modemHalGetRssi
  apply stuckBehind_uninit
  intro rssi
  apply stuckBehind_firstIntermediate htrusts
  · intro r
    exact stuckBehind_rssiByCind rssi
  · intro r line
    dsimp only
    split
    · exact stuckBehind_rssiByCind _
    · split
      · exact stuckBehind_rssiByCind _
      · trivial

theorem stuckBehind_program (f : LineReader) : StuckBehind .nullDeref f.Misled f.program := by
  cases f with
  | checkModem => exact stuckBehind_checkModem
  | checkPinStatus => exact stuckBehind_checkPinStatus.bind fun _ => trivial
  | enterSimPin pin => exact stuckBehind_enterSimPin pin
  | getRegistrationStatus => exact stuckBehind_registrationLoop 10 none
  | getRssi => exact stuckBehind_getRssi

/-- **Along a run no line is missed exactly as long as no answer misled the function.** An answer
misleads it that ends in an error which the function trusts, with no line in front: the first line
of the list is read without a look at whether there is one. -/
theorem reads_line_iff (f : LineReader) {t : List (Exchange ModemQ ModemA)} {p : ModemM ℤ}
    (hrun : After f.program t p) :
    ¬ Stuck .nullDeref p ↔ ∀ x ∈ t, ¬ f.Misled x := by
  have hnone : ModemA .nullDeref → False := fun e => Empty.elim e
  rw [(stuckBehind_program f).stuck_iff hnone hrun]
  constructor
  · intro h x hx hmisled
    exact h ⟨x, hx, hmisled⟩
  · rintro h ⟨x, hx, hmisled⟩
    exact h x hx hmisled

/-- The modem answers by `ERROR`, without an intermediate line. -/
def errorDelivery : Delivery where
  lines := ["ERROR".toList]
  final := ⟨_, List.mem_cons_self, rfl⟩

/-- The modem answers with its maker. -/
def makerDelivery : Delivery where
  lines := ["Quectel".toList, "OK".toList]
  final := ⟨_, List.mem_cons_of_mem _ List.mem_cons_self, rfl⟩

/-- The check of a modem that tells its maker. -/
theorem reads_line_maker :
    ∃ p, After LineReader.checkModem.program
        [⟨.uninit, (0 : ℤ)⟩, ⟨.atCommand "AT+GMI".toList .singleline [], .delivered makerDelivery⟩]
        p ∧ ¬ Stuck .nullDeref p := by
  refine ⟨_, .reply _ (.reply _ (.start _)), ?_⟩
  apply (reads_line_iff .checkModem (.reply _ (.reply _ (.start _)))).mpr
  intro x hx
  simp only [List.mem_cons, List.not_mem_nil, or_false] at hx
  rcases hx with rfl | rfl
  · exact fun h => h
  · exact fun h => absurd h.1.1 (by decide)

/-- A modem that answers `AT+CGREG?` by `ERROR` has the status read from a line that is not
there. -/
theorem not_all_lines_there : ¬ ∀ (f : LineReader) (t : List (Exchange ModemQ ModemA))
    (p : ModemM ℤ), After f.program t p → ¬ Stuck .nullDeref p := by
  intro h
  refine h .getRegistrationStatus
    [⟨.atCommand "AT+CGREG?".toList .singleline "+CGREG:".toList, .delivered errorDelivery⟩] _
    (.reply _ (.start _)) ?_
  exact stuck_ask _ _

end RadioHal
