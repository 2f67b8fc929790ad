import RadioHal.Modem.Asked

/-!
# The last PIN attempt

A modem with a PIN1 counter answers `AT+QPINC?` truthfully or with an error, and takes one off
the counter for every wrong PIN.  The HAL asks for the counter before every attempt, and tries a
PIN only after it has read a counter above one.  What it reads is the counter as long as no line
that reports success comes ahead of the line with the counter.  A line of this kind, such as a
`CONNECT` that the modem sends of its own accord, ends the response before the counter is there,
and the HAL then goes by a local variable that nothing was stored in.

## Main definitions

* `QpincLines ahead c seen lines` — lines a truthful modem may send while its counter is `c`,
  where `ahead` says which lines of its own accord may come ahead of the counter.
* `simWorld ahead accepts` — the modem, with the counter as its state.
* `AnyLine`, `NoSuccess` — all lines, and those that do not report success.
* `IsPinCommand q` — the question tries a PIN.

## Main results

* `two_le_of_numretries` — a counter read above one is at least two.
* `wp_enterSimPin` — one attempt takes the counter down by one at most.
* `pin_never_burnt_down` — **where no success is reported ahead of the counter, it stays positive
  along every run of the event loop, and every attempt is made with at least two left.**
* `last_attempt_used` — a `CONNECT` ahead of the counter makes the HAL use the last attempt.
-/

namespace RadioHal

open CLib Dialogue

/-! ### The modem -/

/-- A line of the PIN1 counters that shows `c`. -/
def IsScLine (c : ℕ) (line : Text) : Prop :=
  ∃ ds rest, ds ≠ [] ∧ (∀ x ∈ ds, isdigit x = true) ∧ digitsValue ds = c ∧
    line = "+QPINC: \"SC\",".toList ++ ds ++ ',' :: rest

/-- A line with the counters of the second PIN. -/
def IsP2Line (line : Text) : Prop := ∃ rest, line = "+QPINC: \"P2\"".toList ++ rest

/-- Any line at all may come ahead of the counter. -/
def AnyLine : Text → Prop := fun _ => True

/-- The line does not report success, which the lines that begin with `OK` or `CONNECT` do. -/
def NoSuccess (line : Text) : Prop := isFinalResponseSuccess line = false

/-- The lines a truthful modem may send to `AT+QPINC?` with `c` on its counter: the counters of
PIN1, those of PIN2, a response, and anything of its own accord that does not begin with `+QPINC`.
`seen` tells whether the counters of PIN1 came.  As long as they did not, only the lines that meet
`ahead` may come besides the counters; the response to the command itself is behind them.  The
lines may break off anywhere, for the command takes its response when it is woken up. -/
inductive QpincLines (ahead : Text → Prop) (c : ℕ) : Bool → List Text → Prop
  | nil (seen : Bool) : QpincLines ahead c seen []
  | sc {seen : Bool} {line : Text} {rest : List Text} :
      IsScLine c line → QpincLines ahead c true rest → QpincLines ahead c seen (line :: rest)
  | p2 {seen : Bool} {line : Text} {rest : List Text} :
      IsP2Line line → QpincLines ahead c seen rest → QpincLines ahead c seen (line :: rest)
  | other {seen : Bool} {line : Text} {rest : List Text} :
      isSMSUnsolicited line = false → strStarts line "+QPINC".toList = false →
        (seen = false → ahead line) → QpincLines ahead c seen rest →
        QpincLines ahead c seen (line :: rest)
  | sms {seen : Bool} {line₁ line₂ : Text} {rest : List Text} :
      isSMSUnsolicited line₁ = true → QpincLines ahead c seen rest →
        QpincLines ahead c seen (line₁ :: line₂ :: rest)
  | lastSms {seen : Bool} {line : Text} :
      isSMSUnsolicited line = true → QpincLines ahead c seen [line]

/-- An answer to `AT+QPINC?`: a refusal, a closed channel, or truthful lines. -/
def QpincAnswer (ahead : Text → Prop) (c : ℕ) : AtAnswer → Prop
  | .refused _ => True
  | .closed _ => True
  | .delivered d => QpincLines ahead c false d.lines

/-- The modem: its state is the PIN1 counter.  A command that does not arrive changes nothing,
an accepted PIN may raise the counter, and a wrong one takes one off it. -/
def simWorld (ahead accepts : Text → Prop) : World ModemQ ModemA ℕ := fun c q =>
  match q with
  | .atCommand command _ _ => fun answer c' =>
    if triesPin command then
      ((∃ e, answer = .refused e) ∧ c' = c) ∨ (accepts command ∧ c ≤ c') ∨
        (¬ accepts command ∧ c' = c - 1)
    else if command = "AT+QPINC?".toList then c' = c ∧ QpincAnswer ahead c answer
    else c' = c
  | _ => fun _ c' => c' = c

/-- The question sends a command that tries a PIN. -/
def IsPinCommand : ModemQ → Prop
  | .atCommand command _ _ => triesPin command = true
  | _ => False

/-! ### Reading a truthful answer -/

/-- What the response to a truthful answer looks like on the way: nothing but counters among its
lines, those of PIN1 among them once they came, and no success before. -/
structure QpincResponse (c : ℕ) (seen : Bool) (r : ATResponse) : Prop where
  truthful : ∀ line ∈ r.pIntermediates, IsScLine c line ∨ IsP2Line line
  sc_mem : seen = true → ∃ line ∈ r.pIntermediates, IsScLine c line
  sc_of_success : r.success = true → ∃ line ∈ r.pIntermediates, IsScLine c line

/-- A line of counters is added to the response. -/
theorem processLine_qpinc {line : Text} (h : strStarts line "+QPINC".toList = true)
    (r : ATResponse) :
    processLine .multiline "+QPINC".toList r line = r.addIntermediate line := by
  obtain ⟨rest, rfl⟩ := strStarts_iff.mp h
  rfl

/-- Any other line that does not report success leaves the lines of the response alone, and
does not report success. -/
theorem processLine_other {line : Text} (hok : isFinalResponseSuccess line = false)
    (h : strStarts line "+QPINC".toList = false) (r : ATResponse) :
    (processLine .multiline "+QPINC".toList r line).pIntermediates = r.pIntermediates ∧
      ((processLine .multiline "+QPINC".toList r line).success = true → r.success = true) := by
  unfold processLine
  rw [hok, h]
  cases isFinalResponseError line with
  | true => exact ⟨rfl, fun hs => absurd hs (by simp)⟩
  | false => exact ⟨rfl, id⟩

/-- **The response to a truthful answer is truthful**, where no success is reported ahead of the
counter. -/
theorem qpincResponse_foldl {c : ℕ} {seen : Bool} {lines : List Text}
    (h : QpincLines NoSuccess c seen lines) : ∀ r : ATResponse, QpincResponse c seen r →
      ∃ seen', QpincResponse c seen'
        ((readerLoop lines).foldl (processLine .multiline "+QPINC".toList) r) := by
  induction h with
  | nil seen => exact fun r hr => ⟨seen, hr⟩
  | @sc seen line rest hsc _ ih =>
    intro r hr
    have hline : strStarts line "+QPINC".toList = true := by
      obtain ⟨ds, rest, -, -, -, rfl⟩ := hsc
      rfl
    have hsms : isSMSUnsolicited line = false := by
      obtain ⟨ds, rest, -, -, -, rfl⟩ := hsc
      rfl
    rw [readerLoop_cons hsms, List.foldl_cons, processLine_qpinc hline]
    have hmem : ∃ l ∈ (r.addIntermediate line).pIntermediates, IsScLine c l :=
      ⟨line, List.mem_cons_self, hsc⟩
    exact ih _ ⟨List.forall_mem_cons.mpr ⟨Or.inl hsc, hr.truthful⟩, fun _ => hmem, fun _ => hmem⟩
  | @p2 seen line rest hp2 _ ih =>
    intro r hr
    have hline : strStarts line "+QPINC".toList = true := by
      obtain ⟨rest, rfl⟩ := hp2
      rfl
    have hsms : isSMSUnsolicited line = false := by
      obtain ⟨rest, rfl⟩ := hp2
      rfl
    rw [readerLoop_cons hsms, List.foldl_cons, processLine_qpinc hline]
    have hmem : (∃ l ∈ r.pIntermediates, IsScLine c l) →
        ∃ l ∈ (r.addIntermediate line).pIntermediates, IsScLine c l :=
      fun ⟨l, hl, hscl⟩ => ⟨l, List.mem_cons_of_mem _ hl, hscl⟩
    exact ih _ ⟨List.forall_mem_cons.mpr ⟨Or.inr hp2, hr.truthful⟩,
      fun hs => hmem (hr.sc_mem hs), fun hs => hmem (hr.sc_of_success hs)⟩
  | @other seen line rest hsms hline hahead _ ih =>
    intro r hr
    rw [readerLoop_cons hsms, List.foldl_cons]
    cases hok : isFinalResponseSuccess line with
    | true =>
      -- a success: the counters of PIN1 have come
      have hproc : processLine .multiline "+QPINC".toList r line =
          { r with success := true, finalResponse := some line } := if_pos hok
      have hseen : seen = true := by
        cases seen with
        | true => rfl
        | false => exact absurd (hok.symm.trans (hahead rfl)) (by simp)
      rw [hproc]
      exact ih _ ⟨hr.truthful, hr.sc_mem, fun _ => hr.sc_mem hseen⟩
    | false =>
      obtain ⟨hlines, hsucc⟩ := processLine_other hok hline r
      refine ih _ ⟨?_, ?_, ?_⟩
      · rw [hlines]; exact hr.truthful
      · rw [hlines]; exact hr.sc_mem
      · rw [hlines]; exact fun hs => hr.sc_of_success (hsucc hs)
  | @sms seen line₁ line₂ rest hsms _ ih =>
    intro r hr
    rw [readerLoop_sms hsms]
    exact ih r hr
  | @lastSms seen line hsms =>
    intro r hr
    have hnil : readerLoop [line] = [] := by rw [readerLoop, hsms]; rfl
    rw [hnil]
    exact ⟨seen, hr⟩

/-- Over truthful lines the parse yields the counter, once a line of the PIN1 counters came. -/
theorem pin1_of_numretriesLoop {c : ℕ} {lines : List Text}
    (htruth : ∀ line ∈ lines, IsScLine c line ∨ IsP2Line line) {r r' : Retries}
    (h : numretriesLoop lines r = some r')
    (hsc : (∃ line ∈ lines, IsScLine c line) ∨ r.pin1 = toInt (min longMax c)) :
    r'.pin1 = toInt (min longMax c) := by
  induction lines generalizing r with
  | nil =>
    obtain rfl := Option.some.inj h
    rcases hsc with ⟨line, hline, -⟩ | hr
    · exact absurd hline (by simp)
    · exact hr
  | cons line lines ih =>
    obtain ⟨r₁, hline, hrest⟩ := Option.bind_eq_some_iff.mp h
    refine ih (fun l hl => htruth l (List.mem_cons_of_mem _ hl)) hrest ?_
    rcases htruth line List.mem_cons_self with hl | ⟨rest, hp2⟩
    · -- this line sets the counter
      obtain ⟨ds, rest, hne, hds, hval, rfl⟩ := hl
      right
      rw [numretriesLine_sc hne hds hline, hval]
    · -- this line leaves it, and any line of the PIN1 counters is still to come
      rw [hp2] at hline hsc
      rcases hsc with ⟨l, hl, hscl⟩ | hr
      · rcases List.mem_cons.mp hl with rfl | hl
        · right
          obtain ⟨ds, rest', -, -, -, heq⟩ := hscl
          exact absurd (congrArg (fun t => t[9]?) heq) (by simp)
        · exact Or.inl ⟨l, hl, hscl⟩
      · right
        rw [numretriesLine_p2 hline, hr]

/-- **A counter read above one is at least two.** -/
theorem two_le_of_numretries {c : ℕ} {answer : AtAnswer} (ha : QpincAnswer NoSuccess c answer)
    {r r' : Retries} {p : ATResponse}
    (hres : (answer.result .multiline "+QPINC".toList none).response = some p)
    (herr : ¬ (answer.result .multiline "+QPINC".toList none).err < 0) (hsucc : p.success = true)
    (hparse : numretriesLoop p.pIntermediates r = some r') (hlt : 1 < r'.pin1) : 2 ≤ c := by
  cases answer with
  | refused e => exact absurd hres (by simp [AtAnswer.result])
  | closed lines => exact absurd herr (by simp [AtAnswer.result])
  | delivered d =>
    obtain rfl := Option.some.inj hres
    have hnew : QpincResponse c false atResponseNew :=
      ⟨fun l hl => absurd hl (by simp [atResponseNew]), fun h => absurd h (by simp),
        fun h => absurd h (by simp [atResponseNew])⟩
    obtain ⟨seen', hr⟩ := qpincResponse_foldl ha atResponseNew hnew
    -- the lines were turned round for the caller
    obtain ⟨line, hline, hsc⟩ := hr.sc_of_success hsucc
    have htruth : ∀ l ∈ (response .multiline "+QPINC".toList d.lines).pIntermediates.reverse,
        IsScLine c l ∨ IsP2Line l := fun l hl => hr.truthful l (List.mem_reverse.mp hl)
    rw [pin1_of_numretriesLoop htruth hparse (Or.inl ⟨line, List.mem_reverse.mpr hline, hsc⟩)]
      at hlt
    exact le_of_lt_toInt_clamp hlt

/-! ### The rest of the program -/

/-- The command neither tries a PIN nor asks for the counters. -/
def quietCommand (command : Text) : Bool :=
  !triesPin command && command != "AT+QPINC?".toList

/-- The question leaves the modem's counter out of play. -/
def Quiet : ModemQ → Prop
  | .atCommand command _ _ => quietCommand command = true
  | _ => True

/-- What holds of every question: the counter is positive, and at least two where a PIN is
tried. -/
def Guarded (c : ℕ) (q : ModemQ) : Prop := 1 ≤ c ∧ (IsPinCommand q → 2 ≤ c)

section Quiet

variable {α : Type} {ahead accepts : Text → Prop} {c : ℕ}

theorem not_isPinCommand_of_quiet {q : ModemQ} (hq : Quiet q) : ¬ IsPinCommand q := by
  intro h
  cases q with
  | atCommand command type responsePrefix =>
    simp only [Quiet, quietCommand, IsPinCommand] at hq h
    rw [h] at hq
    exact absurd hq (by simp)
  | _ => exact h

theorem eq_of_quiet {q : ModemQ} {answer : ModemA q} {c' : ℕ} (hq : Quiet q)
    (h : simWorld ahead accepts c q answer c') : c' = c := by
  cases q with
  | atCommand command type responsePrefix =>
    simp only [Quiet, quietCommand, Bool.and_eq_true, Bool.not_eq_true', bne_iff_ne, ne_eq] at hq
    simp only [simWorld] at h
    rw [hq.1, if_neg (by simp), if_neg hq.2] at h
    exact h
  | _ => exact h

theorem guarded_of_quiet {q : ModemQ} (hc : 1 ≤ c) (hq : Quiet q) : Guarded c q :=
  ⟨hc, fun h => absurd h (not_isPinCommand_of_quiet hq)⟩

/-- A program of quiet questions leaves the counter where it is. -/
theorem wp_of_quiet {p : ModemM α} (hp : OnlyAsks Quiet p) (hc : 1 ≤ c) :
    wp (simWorld ahead accepts) Guarded (fun _ c' => c' = c) p c := by
  refine wp_of_onlyAsks (fun c' => c' = c) hp ?_ ?_ rfl
  · rintro q c' hq rfl
    exact guarded_of_quiet hc hq
  · rintro q a c₁ c₂ hq rfl h
    exact eq_of_quiet hq h

theorem quiet_cgreg :
    Quiet (.atCommand "AT+CGREG?".toList .singleline "+CGREG:".toList) := rfl

theorem quiet_initialisations : ∀ x ∈ initialisations, Quiet (.atCommand x .noResult []) := by
  unfold Quiet
  decide

end Quiet

/-! ### Asking for the counters, and trying a PIN -/

section Guard

variable {accepts : Text → Prop} {c : ℕ}

/-- A question without effect on the counter, asked on the way. -/
theorem wp_ask_of_quiet {α : Type} {post : α → ℕ → Prop} {q : ModemQ} {k : ModemA q → ModemM α}
    (hc : 1 ≤ c) (hq : Quiet q) (h : ∀ a, wp (simWorld NoSuccess accepts) Guarded post (k a) c) :
    wp (simWorld NoSuccess accepts) Guarded post (ask q k) c :=
  ⟨guarded_of_quiet hc hq, fun a _ hW => (eq_of_quiet hq hW).symm ▸ h a⟩

/-- A program of quiet questions, run on the way. -/
theorem wp_bind_of_quiet {α β : Type} {post : β → ℕ → Prop} {p : ModemM α} {f : α → ModemM β}
    (hc : 1 ≤ c) (hp : OnlyAsks Quiet p)
    (h : ∀ a, wp (simWorld NoSuccess accepts) Guarded post (f a) c) :
    wp (simWorld NoSuccess accepts) Guarded post (p >>= f) c := by
  rw [wp_bind]
  refine wp_consequence (wp_of_quiet hp hc) fun a c' hc' => ?_
  rw [hc']
  exact h a

/-- The counters are read as they are, or not at all. -/
theorem wp_modemHalGetNumretries (hc : 1 ≤ c) :
    wp (simWorld NoSuccess accepts) Guarded (fun n c' => c' = c ∧ (1 < n → 2 ≤ c))
      (modemHalGetNumretries .changeSimPin) c := by
  unfold modemHalGetNumretries
  simp only [query_bind, atSendCommandMultiline_bind, pure_eq_ret]
  -- the four locals may hold anything
  refine wp_ask_of_quiet hc trivial fun pin1 => wp_ask_of_quiet hc trivial fun puk1 => ?_
  refine wp_ask_of_quiet hc trivial fun pin2 => wp_ask_of_quiet hc trivial fun puk2 => ?_
  refine ⟨⟨hc, fun h => absurd h (by simp [IsPinCommand, triesPin, strStarts])⟩, fun a c' h => ?_⟩
  obtain ⟨rfl, ha⟩ : c' = c ∧ QpincAnswer NoSuccess c a := h
  have herror : wp (simWorld NoSuccess accepts) Guarded (fun n c'' => c'' = c' ∧ (1 < n → 2 ≤ c'))
      (ret (-1) : ModemM ℤ) c' := ⟨rfl, fun h => absurd h (by decide)⟩
  dsimp only
  split
  · exact herror
  · next herr =>
    split
    · exact herror
    · next p hp =>
      by_cases hsucc : p.success = false
      · rw [if_pos hsucc]
        exact herror
      · rw [if_neg hsucc]
        rw [Bool.not_eq_false] at hsucc
        cases hparse : numretriesLoop p.pIntermediates ⟨pin1, puk1, pin2, puk2⟩ with
        | none => exact herror
        | some counters =>
          exact ⟨rfl, fun hlt => two_le_of_numretries ha hp herr hsucc hparse hlt⟩

/-- **One attempt takes the counter down by one at most.**  With two left in front of it, it stays
positive, however the attempt ends. -/
theorem wp_enterSimPin (pin : Text) (hc : 2 ≤ c) :
    wp (simWorld NoSuccess accepts) Guarded (fun _ c' => 1 ≤ c') (enterSimPin pin) c := by
  unfold enterSimPin
  rw [atSendCommand_bind]
  refine ⟨⟨by omega, fun _ => hc⟩, fun a c' h => ?_⟩
  have hc' : 1 ≤ c' := by
    simp only [simWorld, triesPin_cpinCommand, if_true] at h
    rcases h with ⟨-, rfl⟩ | ⟨-, hle⟩ | ⟨-, rfl⟩ <;> omega
  have hret : ∀ n : ℤ, wp (simWorld NoSuccess accepts) Guarded (fun _ c'' => 1 ≤ c'')
      (ret n : ModemM ℤ) c' := fun _ => hc'
  dsimp only
  split
  · exact hret _
  · refine wp_bind_of_quiet hc' (onlyAsks_deref trivial _) fun p => ?_
    split
    · exact hret _
    · exact wp_consequence (wp_of_quiet (onlyAsks_cpinCheck rfl) hc') fun _ _ h => h.symm ▸ hc'

/-- The card is brought through its PIN with a positive counter left. -/
theorem wp_verifySim (ctx : ModemContext) (status : SimStatus) (hc : 1 ≤ c) :
    wp (simWorld NoSuccess accepts) Guarded (fun _ c' => 1 ≤ c') (verifySim ctx status) c := by
  cases status with
  | pin =>
    unfold verifySim
    rw [wp_bind]
    refine wp_consequence (wp_modemHalGetNumretries hc) fun n c' h => ?_
    obtain ⟨rfl, hn⟩ := h
    split
    · next hlt =>
      rw [wp_bind]
      exact wp_consequence (wp_enterSimPin ctx.pin (hn hlt)) fun _ _ h => h
    · exact hc
  | _ => exact hc

theorem wp_modemHalConnect (ctx : ModemContext) (hc : 1 ≤ c) :
    wp (simWorld NoSuccess accepts) Guarded (fun _ c' => 1 ≤ c') (modemHalConnect ctx) c := by
  unfold modemHalConnect
  refine wp_bind_of_quiet hc (onlyAsks_modemHalCheckPinStatus trivial rfl) fun status => ?_
  rw [wp_bind]
  refine wp_consequence (wp_verifySim ctx status hc) fun verified c' hc' => ?_
  split
  · exact hc'
  · -- from here on the PIN is out of play
    refine wp_bind_of_quiet hc' (onlyAsks_initialiseModem quiet_initialisations) fun _ => ?_
    have hpoll : OnlyAsks Quiet modemHalGetRegistrationStatus :=
      onlyAsks_registrationLoop trivial trivial quiet_cgreg 10 none
    refine wp_bind_of_quiet hc' hpoll fun n => ?_
    split
    · exact hc'
    · have hstart : OnlyAsks Quiet (startNetwork ctx) := onlyAsks_startNetwork ctx trivial
      exact wp_consequence (wp_of_quiet hstart hc') fun _ _ h => h.symm ▸ hc'

theorem wp_modemStateMachine (ctx : ModemContext) (state : ModemState) (newEvent : ℤ)
    (hc : 1 ≤ c) :
    wp (simWorld NoSuccess accepts) Guarded (fun _ c' => 1 ≤ c')
      (modemStateMachine ctx state newEvent) c := by
  unfold modemStateMachine
  split
  · unfold initHandler
    rw [wp_bind]
    refine wp_consequence (wp_modemHalConnect ctx hc) fun n c' hc' => ?_
    split
    · exact wp_ask_of_quiet hc' trivial fun _ => hc'
    · exact hc'
  · split
    · exact hc
    · exact hc

/-- **One round of the event loop keeps the counter positive**, whatever state it starts in.  At
most one attempt is made in it, in the first state. -/
theorem wp_modemEventsRound (ctx : ModemContext) (l : EventLoop) (hc : 1 ≤ c) :
    wp (simWorld NoSuccess accepts) Guarded (fun _ c' => 1 ≤ c') (modemEventsRound ctx l) c := by
  have hrest : ∀ l' : EventLoop, wp (simWorld NoSuccess accepts) Guarded (fun _ c' => 1 ≤ c')
      (handleEvent ctx l') c := by
    intro l'
    unfold handleEvent
    split
    · rw [wp_bind]
      exact wp_consequence (wp_modemStateMachine ctx l'.state l'.newEvent hc) fun _ _ h => h
    · exact hc
  unfold modemEventsRound
  split
  · exact wp_ask_of_quiet hc trivial fun msg => hrest _
  · exact hrest _

end Guard

/-- **The last PIN attempt is never used** where no success is reported ahead of the counter: along
every run of the event loop, for any number of rounds, the counter stays positive, and a PIN is
tried only with at least two attempts left. -/
theorem pin_never_burnt_down {accepts : Text → Prop} (ctx : ModemContext) (n : ℕ) {c c' : ℕ}
    {p : ModemM EventLoop} (hc : 1 ≤ c)
    (hrun : Reach (simWorld NoSuccess accepts) c (modemEvents ctx n) c' p) :
    1 ≤ c' ∧ ∀ q k, p = ask q k → IsPinCommand q → 2 ≤ c' := by
  have hwp : wp (simWorld NoSuccess accepts) Guarded (fun _ c' => 1 ≤ c')
      (modemEvents ctx n) c := by
    unfold modemEvents
    rw [atSendCommand_bind]
    exact wp_ask_of_quiet hc rfl fun _ => wp_iterate (fun _ c' => 1 ≤ c')
      (fun l _ hc' => wp_modemEventsRound ctx l hc') n _ c hc
  have hp := wp_reach hrun hwp
  cases p with
  | ret l => exact ⟨hp, fun q k h => absurd h (by simp)⟩
  | ask q k =>
    refine ⟨hp.1.1, fun q' k' h hq => ?_⟩
    obtain ⟨rfl, -⟩ := Dialogue.ask.inj h
    exact hp.1.2 hq

/-- A modem with the PIN `1234` in its configuration. -/
def pinContext : ModemContext :=
  ⟨{ ModemConfig.zero with pin := CharArray.strncpy 5 "1234".toList }, [], []⟩

/-- The card asks for its PIN. -/
def simPinAnswer : Delivery := ⟨["+CPIN: SIM PIN".toList, "OK".toList], by decide⟩

/-- The modem shows three attempts left. -/
def threeLeft : Delivery := ⟨["+QPINC: \"SC\",3,10".toList, "OK".toList], by decide⟩

theorem qpincAnswer_threeLeft : QpincAnswer NoSuccess 3 (.delivered threeLeft) :=
  .sc ⟨"3".toList, "10".toList, by decide, List.all_eq_true.mp rfl, rfl, rfl⟩
    (.other rfl rfl (fun h => absurd h (by decide)) (.nil true))

/-- With three attempts left the PIN is tried, and the counter is what it should be. -/
theorem pin_tried_with_three_left :
    ∃ p : ModemM EventLoop,
      Reach (simWorld NoSuccess fun _ => False) 3 (modemEvents pinContext 1) 3 p ∧
      (∃ k, p = ask (.atCommand "AT+CPIN=\"1234\"".toList .noResult []) k) ∧ 2 ≤ 3 := by
  have hrun : ∃ k, Reach (simWorld NoSuccess fun _ => False) 3 (modemEvents pinContext 1) 3
      (ask (.atCommand "AT+CPIN=\"1234\"".toList .noResult []) k) :=
    ⟨_, .reply (.refused .generic) rfl <| .reply (.delivered simPinAnswer) rfl <|
      .reply (0 : ℤ) rfl <| .reply (0 : ℤ) rfl <| .reply (0 : ℤ) rfl <| .reply (0 : ℤ) rfl <|
      .reply (.delivered threeLeft) ⟨rfl, qpincAnswer_threeLeft⟩ <| .start _ _⟩
  obtain ⟨k, hrun⟩ := hrun
  exact ⟨_, hrun, ⟨k, rfl⟩, (pin_never_burnt_down pinContext 1 (by decide) hrun).2 _ k rfl rfl⟩

/-! ### A success ahead of the counter -/

/-- The modem reports a connection of its own accord, and the command takes its response before
the counters are there. -/
def connectFirst : Delivery := ⟨["CONNECT 150000000".toList], by decide⟩

theorem qpincAnswer_connectFirst : QpincAnswer AnyLine 1 (.delivered connectFirst) :=
  .other rfl rfl (fun _ => trivial) (.nil false)

/-- **The last attempt is used** when a success is reported ahead of the counter: the locals of
`modem_hal_get_numretries` hold a two, and the PIN is wrong. -/
theorem last_attempt_used : ∃ p : ModemM EventLoop,
    Reach (simWorld AnyLine fun _ => False) 1 (modemEvents pinContext 1) 0 p :=
  ⟨_, .reply (.refused .generic) rfl <| .reply (.delivered simPinAnswer) rfl <|
    .reply (2 : ℤ) rfl <| .reply (2 : ℤ) rfl <| .reply (2 : ℤ) rfl <| .reply (2 : ℤ) rfl <|
    .reply (.delivered connectFirst) ⟨rfl, qpincAnswer_connectFirst⟩ <|
    .reply (.delivered ⟨["ERROR".toList], by decide⟩) (Or.inr (Or.inr ⟨id, rfl⟩)) <| .start _ _⟩

/-- So the counter does not stay positive along every run. -/
theorem not_always_positive : ¬ ∀ (accepts : Text → Prop) (ctx : ModemContext) (n c c' : ℕ)
    (p : ModemM EventLoop), 1 ≤ c →
    Reach (simWorld AnyLine accepts) c (modemEvents ctx n) c' p →
    1 ≤ c' ∧ ∀ q k, p = ask q k → IsPinCommand q → 2 ≤ c' := by
  intro h
  obtain ⟨p, hrun⟩ := last_attempt_used
  exact absurd (h _ _ _ _ _ p le_rfl hrun).1 (by decide)

end RadioHal
