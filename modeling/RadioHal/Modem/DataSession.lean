import RadioHal.Modem.Asked

/-!
# When a data session is started

`modem_hal_connect` should run `qmicli` only on a registered modem, and report success only if
the program succeeded.  It does so on most sequences of replies; this module says exactly on
which.  The poll hands back any status it does not retry, the caller looks at the sign alone, and
the exit status of the program is never looked at.  The status is an `int`, to which the number
in the reply is narrowed, so a number that is no status at all may be taken for one.  Besides, an
error reply without a line makes the code read a line that is not there.

## Main definitions

* `answersTo command t`, `startedSessions ctx t` — what a transcript holds.
* `reportedNumber line`, `cgregNumber a` — the status as the reply has it, before it is narrowed.
* `SessionProper ctx t r` — the session was started properly, and reported as it went.
* `WellAnswered ctx t` — the replies that do not lead astray.

## Main results

* `registrationStatus_eq` — the code reads the number reported, narrowed to an `int`.
* `wp_registrationLoop` — what the poll returns, by the replies it got.
* `connects_properly_iff` — **a finished connection is proper exactly when it was well
  answered.**
-/

namespace RadioHal

open CLib Dialogue

/-! ### Transcripts -/

/-- The exchanges that a run of the modem HAL has made so far. -/
abbrev Transcript : Type := List (Exchange ModemQ ModemA)

/-- The answers to a command, in order. -/
def answersTo (command : Text) (t : Transcript) : List AtAnswer :=
  t.filterMap fun e =>
    match e with
    | ⟨.atCommand c _ _, a⟩ => if c = command then some a else none
    | _ => none

/-- What came of the program that starts the data session, each time it was run. -/
def startedSessions (ctx : ModemContext) (t : Transcript) : List (Option Process) :=
  t.filterMap fun e =>
    match e with
    | ⟨.popen cmd, f⟩ => if cmd = startNetworkCommand ctx then some f else none
    | _ => none

/-- `AT+CGREG?`. -/
def cgregCommand : Text := "AT+CGREG?".toList

/-- `AT+CPIN?`. -/
def cpinQuery : Text := "AT+CPIN?".toList

/-- The first line of an answer to `AT+CGREG?` that the caller gets to see. -/
def cgregLine (a : AtAnswer) : Option Text :=
  (singlelineResponse "+CGREG:".toList a).bind fun p => p.pIntermediates.head?

/-- The registration status that the code makes of an answer, which is an `int`. -/
def cgregStatus (a : AtAnswer) : Option ℤ := (cgregLine a).bind registrationStatus

/-- The second number behind the colon of a line, which is the status it reports.  The number is
taken as the line has it: nothing is narrowed to an `int` here. -/
def reportedNumber (line : Text) : Option ℤ :=
  (afterColon line).bind fun rest =>
    (nextLong (some rest)).bind fun urc => (nextLong urc.2).map Prod.fst

/-- The status that an answer to `AT+CGREG?` reports, as the answer has it. -/
def cgregNumber (a : AtAnswer) : Option ℤ := (cgregLine a).bind reportedNumber

/-- The last answer to `AT+CGREG?` reports a registered modem, at home or roaming.  What counts is
the number in the answer, and not what the code makes of it. -/
def Registered (t : Transcript) : Prop :=
  ∃ n, (answersTo cgregCommand t).getLast?.bind cgregNumber = some n ∧ (n = 1 ∨ n = 5)

/-- The session is started on a registered modem only, `0` is returned only if the program exited
with status `0`, and everything else returned is negative. -/
structure SessionProper (ctx : ModemContext) (t : Transcript) (r : ℤ) : Prop where
  registered : startedSessions ctx t ≠ [] → Registered t
  success : r = 0 → ∃ process, some process ∈ startedSessions ctx t ∧ process.exitStatus = 0
  failure : r ≠ 0 → r < 0

/-- The connection has come to its end: it has returned, or it reads through a null pointer. -/
def Finished (p : ModemM ℤ) : Prop := (∃ r, p = ret r) ∨ ∃ k, p = ask .nullDeref k

/-- The connection has returned, and the session was started properly. -/
def ConnectsProperly (ctx : ModemContext) (t : Transcript) (p : ModemM ℤ) : Prop :=
  ∃ r, p = ret r ∧ SessionProper ctx t r

/-! ### The replies that lead astray -/

/-- The answer to `AT+CGREG?` is an error without a line in front of it. -/
def CgregLineless (a : AtAnswer) : Prop :=
  ∃ p, singlelineResponse "+CGREG:".toList a = some p ∧ p.pIntermediates = []

/-- The answer to `AT+CPIN?` is an error that claims the code `0`, without a line in front. -/
def CpinLineless (a : AtAnswer) : Prop :=
  ∃ p, singlelineResponse "+CPIN:".toList a = some p ∧ atGetCmeError p = 0 ∧ p.pIntermediates = []

/-- The number reported does no harm: it is the status of a registered modem, or the `int` made of
it lets the poll go on or report failure. -/
def StatusSound (n : ℤ) : Prop :=
  n = 1 ∨ n = 5 ∨ toInt n < 0 ∨ toInt n = 0 ∨ toInt n = 2 ∨ toInt n = 4

/-- The replies of a connection that do not lead astray. -/
structure WellAnswered (ctx : ModemContext) (t : Transcript) : Prop where
  /-- The first answer about the card is not an error with the code `0` and no line. -/
  cpin : ∀ a, (answersTo cpinQuery t).head? = some a → ¬ CpinLineless a
  /-- No answer about the registration is an error without a line. -/
  lines : ∀ a ∈ answersTo cgregCommand t, ¬ CgregLineless a
  /-- Among the first ten answers about the registration no number but the sound ones comes. -/
  status : ∀ a ∈ (answersTo cgregCommand t).take 10, ∀ n, cgregNumber a = some n → StatusSound n
  /-- The program that starts the session exits with status `0`, if it can be run. -/
  exit : ∀ process, some process ∈ startedSessions ctx t → process.exitStatus = 0

/-! ### What the code makes of the number -/

/-- **The code reads the number reported, narrowed to an `int`.** -/
theorem registrationStatus_eq (line : Text) :
    registrationStatus line = (reportedNumber line).map toInt := by
  unfold registrationStatus reportedNumber
  cases hcolon : afterColon line with
  | none =>
    have hstart : atTokStart (some line) = (-1, none) := by simp only [atTokStart, hcolon]
    rw [hstart]
    rfl
  | some rest =>
    have hstart : atTokStart (some line) = (0, some rest) := by simp only [atTokStart, hcolon]
    rw [hstart, if_neg (lt_irrefl 0), Option.bind_some]
    -- the first number is read and thrown away
    rcases atTokNextint_spec (some rest) 0 with ⟨hnone, herr⟩ | ⟨urc, rest', hurc, hread⟩
    · dsimp only
      rw [herr, hnone]
      rfl
    · dsimp only
      rw [hread, hurc, if_neg (lt_irrefl 0), Option.bind_some]
      rcases atTokNextint_spec rest' 0 with ⟨hnone, herr⟩ | ⟨n, rest'', hn, hread'⟩
      · rw [herr, hnone]
        rfl
      · rw [hread', hn]
        rfl

/-- A number beyond the range of an `int` is taken for the status of a registered modem. -/
example : reportedNumber "+CGREG: 1,4294967297".toList = some 4294967297 ∧
    registrationStatus "+CGREG: 1,4294967297".toList = some 1 := by decide

theorem cgregStatus_eq (a : AtAnswer) : cgregStatus a = (cgregNumber a).map toInt := by
  unfold cgregStatus cgregNumber
  cases cgregLine a with
  | none => rfl
  | some line => exact registrationStatus_eq line

/-- A status read has a number behind it, which was narrowed. -/
theorem exists_number_of_status {a : AtAnswer} {s : ℤ} (h : cgregStatus a = some s) :
    ∃ n, cgregNumber a = some n ∧ toInt n = s := by
  rw [cgregStatus_eq] at h
  exact Option.map_eq_some_iff.mp h

theorem number_eq_none_of_status {a : AtAnswer} (h : cgregStatus a = none) :
    cgregNumber a = none := by
  rw [cgregStatus_eq] at h
  exact Option.map_eq_none_iff.mp h

/-- A number that is narrowed to no failure and starts no new query is sound only as the status of
a registered modem. -/
theorem statusSound_iff {n : ℤ} (hnonneg : 0 ≤ toInt n)
    (hstop : ¬ (toInt n = 0 ∨ toInt n = 2 ∨ toInt n = 4)) : StatusSound n ↔ n = 1 ∨ n = 5 := by
  unfold StatusSound
  omega

/-! ### One more exchange -/

section Append

variable (ctx : ModemContext) (command : Text) (t : Transcript)

theorem answersTo_append (e : Exchange ModemQ ModemA) :
    answersTo command (t ++ [e]) = answersTo command t ++ answersTo command [e] :=
  List.filterMap_append

theorem startedSessions_append (e : Exchange ModemQ ModemA) :
    startedSessions ctx (t ++ [e]) = startedSessions ctx t ++ startedSessions ctx [e] :=
  List.filterMap_append

theorem answersTo_command (type : ATCommandType) (responsePrefix : Text) (a : AtAnswer) :
    answersTo command (t ++ [⟨.atCommand command type responsePrefix, a⟩]) =
      answersTo command t ++ [a] := by
  rw [answersTo_append]
  simp [answersTo]

theorem answersTo_other {c : Text} (hc : c ≠ command) (type : ATCommandType)
    (responsePrefix : Text) (a : AtAnswer) :
    answersTo command (t ++ [⟨.atCommand c type responsePrefix, a⟩]) = answersTo command t := by
  rw [answersTo_append]
  simp [answersTo, hc]

theorem startedSessions_command (c : Text) (type : ATCommandType) (responsePrefix : Text)
    (a : AtAnswer) :
    startedSessions ctx (t ++ [⟨.atCommand c type responsePrefix, a⟩]) = startedSessions ctx t := by
  rw [startedSessions_append]
  simp [startedSessions]

theorem answersTo_popen (cmd : Text) (f : Option Process) :
    answersTo command (t ++ [⟨.popen cmd, f⟩]) = answersTo command t := by
  rw [answersTo_append]
  simp [answersTo]

theorem startedSessions_popen (f : Option Process) :
    startedSessions ctx (t ++ [⟨.popen (startNetworkCommand ctx), f⟩]) =
      startedSessions ctx t ++ [f] := by
  rw [startedSessions_append]
  simp [startedSessions]

end Append

/-! ### The poll -/

/-- What is asked on the way is harmless, and a null pointer is met only after a reply that leads
astray. -/
def Harmless (ctx : ModemContext) (t : Transcript) (q : ModemQ) : Prop :=
  q = .nullDeref → ¬ WellAnswered ctx t

theorem restarts_iff {s : ℤ} :
    (rilRegState s).any RilRegState.restarts = true ↔ s = 0 ∨ s = 2 ∨ s = 4 := by
  unfold rilRegState
  -- the test goes through the comparisons, which are of numbers then
  simp [apply_ite (Option.any RilRegState.restarts), RilRegState.restarts]
  omega

/-- What is known before the poll: the card has answered, nothing was asked about the
registration, and no session was started. -/
structure BeforePoll (ctx : ModemContext) (t : Transcript) : Prop where
  cpin : ∃ a, (answersTo cpinQuery t).head? = some a ∧ ¬ CpinLineless a
  none_asked : answersTo cgregCommand t = []
  none_started : startedSessions ctx t = []

/-- What is known inside the poll with `left` restarts left: all answers so far made it start
again. -/
structure Polling (ctx : ModemContext) (left : ℕ) (t : Transcript) : Prop where
  cpin : ∃ a, (answersTo cpinQuery t).head? = some a ∧ ¬ CpinLineless a
  none_started : startedSessions ctx t = []
  length : (answersTo cgregCommand t).length + left = 10
  restarted : ∀ a ∈ answersTo cgregCommand t, ∃ s, cgregStatus a = some s ∧ (s = 0 ∨ s = 2 ∨ s = 4)

/-- What is known behind the poll, when it has returned `v`. -/
structure Polled (ctx : ModemContext) (v : ℤ) (t : Transcript) : Prop where
  cpin : ∃ a, (answersTo cpinQuery t).head? = some a ∧ ¬ CpinLineless a
  none_started : startedSessions ctx t = []
  lines : ∀ a ∈ answersTo cgregCommand t, ¬ CgregLineless a
  status : (v < 0 ∧ ∀ a ∈ (answersTo cgregCommand t).take 10, ∀ n, cgregNumber a = some n →
      StatusSound n) ∨
    (0 ≤ v ∧ ∃ n, (answersTo cgregCommand t).getLast?.bind cgregNumber = some n ∧
      ((∀ a ∈ (answersTo cgregCommand t).take 10, ∀ n, cgregNumber a = some n → StatusSound n) ↔
        n = 1 ∨ n = 5))

theorem not_lineless_of_status {a : AtAnswer} {s : ℤ} (h : cgregStatus a = some s) :
    ¬ CgregLineless a := by
  rintro ⟨p, hp, hnil⟩
  unfold cgregStatus cgregLine at h
  rw [hp, Option.bind_some, hnil] at h
  exact absurd h (by simp)

section Poll

variable {ctx : ModemContext} {t : Transcript}

/-- The exchange of one query of the registration. -/
def cgregExchange (a : AtAnswer) : Exchange ModemQ ModemA :=
  ⟨.atCommand "AT+CGREG?".toList .singleline "+CGREG:".toList, a⟩

theorem answersTo_cgreg (a : AtAnswer) :
    answersTo cgregCommand (t ++ [cgregExchange a]) = answersTo cgregCommand t ++ [a] :=
  answersTo_command cgregCommand t _ _ a

theorem answersTo_cpin_cgreg (a : AtAnswer) :
    answersTo cpinQuery (t ++ [cgregExchange a]) = answersTo cpinQuery t :=
  answersTo_other cpinQuery t (by decide) _ _ a

theorem startedSessions_cgreg (a : AtAnswer) :
    startedSessions ctx (t ++ [cgregExchange a]) = startedSessions ctx t :=
  startedSessions_command ctx t _ _ _ a

theorem harmless_atCommand (c : Text) (type : ATCommandType) (responsePrefix : Text) :
    Harmless ctx t (.atCommand c type responsePrefix) :=
  fun h => absurd h (by simp)

/-- **One query**: it returns the status the answer reports, and reads through a null pointer
only after an error without a line. -/
theorem wp_registrationQuery {post : Option ℤ × Option ATResponse → Transcript → Prop}
    (pResponse : Option ATResponse)
    (h : ∀ a, ¬ CgregLineless a → ∀ p, post (cgregStatus a, p) (t ++ [cgregExchange a])) :
    wp history (Harmless ctx) post (registrationQuery pResponse) t := by
  unfold registrationQuery
  rw [atSendCommandSingleline_bind]
  refine ⟨harmless_atCommand _ _ _, fun a t' ht' => ?_⟩
  obtain rfl : t' = t ++ [cgregExchange a] := ht'
  dsimp only
  cases hp : singlelineResponse "+CGREG:".toList a with
  | none =>
    have hneg := singleline_err_neg pResponse hp
    have hless : ¬ CgregLineless a := by
      rintro ⟨p, hp', -⟩
      rw [hp] at hp'
      exact absurd hp' (by simp)
    have hstatus : cgregStatus a = none := by
      unfold cgregStatus cgregLine
      rw [hp]
      rfl
    rw [if_pos hneg.ne]
    exact hstatus ▸ h a hless _
  | some p =>
    obtain ⟨hres, -⟩ := singleline_of_response pResponse hp
    rw [hres, if_neg (by simp)]
    cases hline : p.pIntermediates with
    | nil =>
      -- the line that is not there
      have hcrash : firstIntermediate (some p) = deref none := by
        unfold firstIntermediate
        rw [deref_some, ret_bind, hline]
        rfl
      dsimp only
      rw [hcrash, deref, ask_bind]
      refine ⟨fun _ hwell => ?_, fun e : Empty => e.elim⟩
      refine hwell.lines a ?_ ⟨p, hp, hline⟩
      rw [answersTo_cgreg]
      exact List.mem_append_right _ (List.mem_singleton.mpr rfl)
    | cons line rest =>
      have hread : firstIntermediate (some p) = (ret line : ModemM Text) := by
        unfold firstIntermediate
        rw [deref_some, ret_bind, hline]
        rfl
      have hstatus : cgregStatus a = registrationStatus line := by
        unfold cgregStatus cgregLine
        rw [hp, Option.bind_some, hline]
        rfl
      have hless : ¬ CgregLineless a := by
        rintro ⟨p', hp', hnil⟩
        obtain rfl := Option.some.inj (hp.symm.trans hp')
        rw [hline] at hnil
        exact absurd hnil (by simp)
      dsimp only
      rw [hread, ret_bind, ← hstatus]
      exact h a hless _

/-- The answers so far are sound: the numbers that start the poll again are. -/
theorem Polling.sound {left : ℕ} (h : Polling ctx left t) :
    ∀ b ∈ answersTo cgregCommand t, ∀ n, cgregNumber b = some n → StatusSound n := by
  intro b hb n hn
  obtain ⟨s, hs, hrestart⟩ := h.restarted b hb
  obtain ⟨n', hn', rfl⟩ := exists_number_of_status hs
  obtain rfl := Option.some.inj (hn.symm.trans hn')
  unfold StatusSound
  omega

/-- With the next answer there is a line in each. -/
theorem Polling.lines {left : ℕ} (h : Polling ctx left t) {a : AtAnswer} (ha : ¬ CgregLineless a) :
    ∀ b ∈ answersTo cgregCommand (t ++ [cgregExchange a]), ¬ CgregLineless b := by
  rw [answersTo_cgreg]
  refine List.forall_mem_append.mpr ⟨fun b hb => ?_, by simpa using ha⟩
  obtain ⟨s, hs, -⟩ := h.restarted b hb
  exact not_lineless_of_status hs

/-- The poll stops at an answer that does not make it start again. -/
theorem polled_of_stop {left : ℕ} (h : Polling ctx (left + 1) t) {a : AtAnswer}
    (ha : ¬ CgregLineless a) {v : ℤ}
    (hv : cgregStatus a = none ∧ v = -1 ∨ cgregStatus a = some v ∧ ¬ (v = 0 ∨ v = 2 ∨ v = 4)) :
    Polled ctx v (t ++ [cgregExchange a]) := by
  have hlen := h.length
  have htake : (answersTo cgregCommand t ++ [a]).take 10 = answersTo cgregCommand t ++ [a] :=
    List.take_of_length_le (by rw [List.length_append, List.length_singleton]; omega)
  -- the answers before this one were sound, so everything rests on this one
  have hall : (∀ b ∈ answersTo cgregCommand t ++ [a], ∀ n, cgregNumber b = some n →
      StatusSound n) ↔ ∀ n, cgregNumber a = some n → StatusSound n := by
    rw [List.forall_mem_append, and_iff_right h.sound]
    simp
  refine ⟨?_, ?_, h.lines ha, ?_⟩
  · rw [answersTo_cpin_cgreg]; exact h.cpin
  · rw [startedSessions_cgreg]; exact h.none_started
  · rw [answersTo_cgreg, htake, hall, List.getLast?_concat, Option.bind_some]
    rcases hv with ⟨hnone, rfl⟩ | ⟨hsome, hstop⟩
    · left
      refine ⟨by omega, fun n hn => ?_⟩
      rw [number_eq_none_of_status hnone] at hn
      exact absurd hn (by simp)
    · obtain ⟨n, hn, rfl⟩ := exists_number_of_status hsome
      have hone : (∀ m, cgregNumber a = some m → StatusSound m) ↔ StatusSound n := by
        rw [hn]
        simp
      rw [hone]
      rcases lt_or_ge (toInt n) 0 with hneg | hnonneg
      · -- a negative status is what a failure looks like
        exact Or.inl ⟨hneg, Or.inr (Or.inr (Or.inl hneg))⟩
      · exact Or.inr ⟨hnonneg, n, hn, statusSound_iff hnonneg hstop⟩

/-- **The poll**: what it returns, by the replies it got.  By induction on the attempts that are
left, with the replies so far in the history. -/
theorem wp_registrationLoop {left : ℕ} {pResponse : Option ATResponse}
    (h : Polling ctx left t) :
    wp history (Harmless ctx) (Polled ctx) (registrationLoop left pResponse) t := by
  induction left generalizing t pResponse with
  | zero =>
    rw [registrationLoop, wp_bind]
    refine wp_registrationQuery pResponse fun a ha p => ?_
    -- the eleventh answer is read and thrown away
    have hlen := h.length
    have htake : (answersTo cgregCommand t ++ [a]).take 10 = answersTo cgregCommand t := by
      rw [List.take_append_of_le_length (by omega), List.take_of_length_le (by omega)]
    refine ⟨?_, ?_, h.lines ha, ?_⟩
    · rw [answersTo_cpin_cgreg]; exact h.cpin
    · rw [startedSessions_cgreg]; exact h.none_started
    · rw [answersTo_cgreg, htake]
      exact Or.inl ⟨by omega, h.sound⟩
  | succ left ih =>
    rw [registrationLoop, wp_bind]
    refine wp_registrationQuery pResponse fun a ha p => ?_
    dsimp only
    cases hs : cgregStatus a with
    | none => exact polled_of_stop h ha (Or.inl ⟨hs, rfl⟩)
    | some s =>
      dsimp only
      by_cases hrestart : (rilRegState s).any RilRegState.restarts = true
      · rw [if_pos hrestart, query_bind]
        refine ⟨fun hq => absurd hq (by simp), fun u t' ht' => ih ?_⟩
        rw [show t' = t ++ [cgregExchange a] ++ [(⟨.sleep 1, u⟩ : Exchange ModemQ ModemA)] from ht']
        have hcgreg : answersTo cgregCommand (t ++ [cgregExchange a] ++ [⟨.sleep 1, u⟩]) =
            answersTo cgregCommand t ++ [a] := by
          rw [answersTo_append, answersTo_cgreg]
          exact List.append_nil _
        have hcpin : answersTo cpinQuery (t ++ [cgregExchange a] ++ [⟨.sleep 1, u⟩]) =
            answersTo cpinQuery t := by
          rw [answersTo_append, answersTo_cpin_cgreg]
          exact List.append_nil _
        have hstarted : startedSessions ctx (t ++ [cgregExchange a] ++ [⟨.sleep 1, u⟩]) =
            startedSessions ctx t := by
          rw [startedSessions_append, startedSessions_cgreg]
          exact List.append_nil _
        refine ⟨hcpin ▸ h.cpin, hstarted.trans h.none_started, ?_, ?_⟩
        · have hlen := h.length
          rw [hcgreg, List.length_append, List.length_singleton]
          omega
        · rw [hcgreg]
          refine List.forall_mem_append.mpr ⟨h.restarted, ?_⟩
          intro b hb
          rw [List.mem_singleton.mp hb]
          exact ⟨s, hs, restarts_iff.mp hrestart⟩
      · rw [if_neg hrestart]
        exact polled_of_stop h ha (Or.inr ⟨hs, fun hr => hrestart (restarts_iff.mpr hr)⟩)

end Poll

/-! ### Before the poll -/

/-- The question has no part in the registration or the session, and is no crash. -/
def Uneventful : ModemQ → Prop
  | .atCommand c _ _ => (c != "AT+CGREG?".toList) = true
  | .popen _ => False
  | .nullDeref => False
  | _ => True

theorem ne_cgreg_of_triesPin {c : Text} (h : triesPin c = true) :
    (c != "AT+CGREG?".toList) = true := by
  rw [bne_iff_ne]
  rintro rfl
  exact absurd h (by decide)

theorem onlyAsks_verifySim_uneventful (ctx : ModemContext) (status : SimStatus) :
    OnlyAsks Uneventful (verifySim ctx status) := by
  have hpin : Uneventful (.atCommand (cpinCommand ctx.pin) .noResult []) :=
    ne_cgreg_of_triesPin (triesPin_cpinCommand ctx.pin)
  have hqpinc : Uneventful (.atCommand "AT+QPINC?".toList .multiline "+QPINC".toList) := rfl
  have hcpin : Uneventful (.atCommand "AT+CPIN?".toList .singleline "+CPIN:".toList) := rfl
  exact onlyAsks_verifySim ctx trivial hqpinc hpin hcpin status

theorem uneventful_initialisations :
    ∀ x ∈ initialisations, Uneventful (.atCommand x .noResult []) := by
  unfold Uneventful
  decide

section Before

variable {ctx : ModemContext} {t : Transcript}

/-- An uneventful exchange leaves what is known before the poll. -/
theorem beforePoll_append (h : BeforePoll ctx t) {q : ModemQ} (hq : Uneventful q)
    (a : ModemA q) : BeforePoll ctx (t ++ [⟨q, a⟩]) := by
  obtain ⟨first, hfirst, hless⟩ := h.cpin
  refine ⟨⟨first, ?_, hless⟩, ?_, ?_⟩
  · rw [answersTo_append, List.head?_append, hfirst]
    rfl
  · rw [answersTo_append, h.none_asked, List.nil_append]
    cases q with
    | atCommand c type responsePrefix =>
      have hc : c ≠ cgregCommand := bne_iff_ne.mp hq
      simp [answersTo, hc]
    | _ => rfl
  · rw [startedSessions_append, h.none_started, List.nil_append]
    cases q with
    | popen cmd => exact absurd hq id
    | _ => rfl

/-- An uneventful program leaves what is known before the poll. -/
theorem wp_of_uneventful {α : Type} {p : ModemM α} (hp : OnlyAsks Uneventful p)
    (h : BeforePoll ctx t) :
    wp history (Harmless ctx) (fun _ t' => BeforePoll ctx t') p t := by
  refine wp_of_onlyAsks (BeforePoll ctx) hp ?_ ?_ h
  · rintro q t' hq - rfl
    exact absurd hq id
  · rintro q a t' t'' hq h' rfl
    exact beforePoll_append h' hq a

/-- The state of the card is asked for first. -/
theorem wp_modemHalCheckPinStatus :
    wp history (Harmless ctx) (fun _ t' => BeforePoll ctx t') modemHalCheckPinStatus [] := by
  unfold modemHalCheckPinStatus
  rw [atSendCommandSingleline_bind]
  refine ⟨harmless_atCommand _ _ _, fun a t' ht' => ?_⟩
  obtain rfl := ht'
  rw [List.nil_append]
  have hfirst : ∀ ha : ¬ CpinLineless a, BeforePoll ctx
      [(⟨.atCommand "AT+CPIN?".toList .singleline "+CPIN:".toList, a⟩ :
        Exchange ModemQ ModemA)] := fun ha => ⟨⟨a, rfl, ha⟩, rfl, rfl⟩
  dsimp only
  cases hp : singlelineResponse "+CPIN:".toList a with
  | none =>
    rw [if_pos (singleline_err_neg none hp).ne]
    refine hfirst ?_
    rintro ⟨p, hp', -⟩
    rw [hp] at hp'
    exact absurd hp' (by simp)
  | some p =>
    obtain ⟨hres, -⟩ := singleline_of_response none hp
    rw [hres, if_neg (by simp), deref_some, ret_bind]
    by_cases hcme : atGetCmeError p = 0
    · rw [if_pos hcme]
      cases hlines : p.pIntermediates with
      | nil =>
        -- an error that claims the code `0`, and no line to look at
        refine ⟨fun _ hwell => hwell.cpin a rfl ⟨p, hp, hcme, hlines⟩, fun e : Empty => e.elim⟩
      | cons line rest =>
        refine hfirst ?_
        rintro ⟨p', hp', -, hnil⟩
        obtain rfl := Option.some.inj (hp.symm.trans hp')
        rw [hlines] at hnil
        exact absurd hnil (by simp)
    · rw [if_neg hcme]
      have hless : ¬ CpinLineless a := by
        rintro ⟨p', hp', hcme', -⟩
        obtain rfl := Option.some.inj (hp.symm.trans hp')
        exact hcme hcme'
      split
      · exact hfirst hless
      · exact hfirst hless

end Before

/-! ### The whole connection -/

section Connection

variable {ctx : ModemContext} {t : Transcript}

/-- A connection that gives up before the session is proper, and was well answered. -/
theorem proper_of_given_up (hstarted : startedSessions ctx t = [])
    (hcpin : ∃ a, (answersTo cpinQuery t).head? = some a ∧ ¬ CpinLineless a)
    (hlines : ∀ a ∈ answersTo cgregCommand t, ¬ CgregLineless a)
    (hstatus : ∀ a ∈ (answersTo cgregCommand t).take 10, ∀ n, cgregNumber a = some n →
      StatusSound n) :
    SessionProper ctx t (-1) ↔ WellAnswered ctx t := by
  refine iff_of_true ⟨fun h => absurd hstarted h, fun h => absurd h (by decide),
    fun _ => by decide⟩ ⟨fun a ha => ?_, hlines, hstatus, fun process h => ?_⟩
  · obtain ⟨first, hfirst, hless⟩ := hcpin
    obtain rfl := Option.some.inj (hfirst.symm.trans ha)
    exact hless
  · rw [hstarted] at h
    exact absurd h (by simp)

theorem proper_of_beforePoll (h : BeforePoll ctx t) :
    SessionProper ctx t (-1) ↔ WellAnswered ctx t := by
  refine proper_of_given_up h.none_started h.cpin ?_ ?_
  · rw [h.none_asked]; simp
  · rw [h.none_asked]; simp

/-- Behind a poll that ended well the program is the only session started. -/
theorem Polled.started_popen {v : ℤ} (h : Polled ctx v t) (f : Option Process) :
    startedSessions ctx (t ++ [⟨.popen (startNetworkCommand ctx), f⟩]) = [f] := by
  rw [startedSessions_popen, h.none_started, List.nil_append]

/-- Behind a poll that ended well, and the program, the modem has answered well exactly where the
last answer reports a registered modem and the program succeeds. -/
theorem Polled.wellAnswered_popen_iff {v : ℤ} (hv : 0 ≤ v) (h : Polled ctx v t)
    (f : Option Process) :
    WellAnswered ctx (t ++ [⟨.popen (startNetworkCommand ctx), f⟩]) ↔
      Registered (t ++ [⟨.popen (startNetworkCommand ctx), f⟩]) ∧
        ∀ process, f = some process → process.exitStatus = 0 := by
  have hstarted := h.started_popen f
  have hcgreg : answersTo cgregCommand (t ++ [⟨.popen (startNetworkCommand ctx), f⟩]) =
      answersTo cgregCommand t := answersTo_popen _ _ _ _
  have hcpin : answersTo cpinQuery (t ++ [⟨.popen (startNetworkCommand ctx), f⟩]) =
      answersTo cpinQuery t := answersTo_popen _ _ _ _
  -- the number in the last answer decides both whether it is sound and whether it is registered
  have hsound : (∀ a ∈ (answersTo cgregCommand t).take 10, ∀ n, cgregNumber a = some n →
      StatusSound n) ↔ Registered (t ++ [⟨.popen (startNetworkCommand ctx), f⟩]) := by
    rcases h.status with ⟨hneg, -⟩ | ⟨-, n, hlast, hsound⟩
    · omega
    · unfold Registered
      rw [hsound, hcgreg, hlast]
      simp
  constructor
  · intro hwell
    obtain ⟨-, -, hst, hexit⟩ := hwell
    rw [hcgreg] at hst
    refine ⟨hsound.mp hst, fun process hf => hexit process ?_⟩
    rw [hstarted, hf]
    exact List.mem_singleton.mpr rfl
  · intro hboth
    obtain ⟨hreg, hexit⟩ := hboth
    refine ⟨fun a ha => ?_, ?_, ?_, fun process hp => ?_⟩
    · obtain ⟨first, hfirst, hless⟩ := h.cpin
      rw [hcpin] at ha
      obtain rfl := Option.some.inj (hfirst.symm.trans ha)
      exact hless
    · rw [hcgreg]
      exact h.lines
    · rw [hcgreg]
      exact hsound.mpr hreg
    · rw [hstarted] at hp
      exact hexit process (List.mem_singleton.mp hp).symm

/-- **Starting the session**: it is proper exactly when the last answer reports a registered modem
and the program, if it can be run, succeeds. -/
theorem wp_startNetwork {v : ℤ} (hv : 0 ≤ v) (h : Polled ctx v t) :
    wp history (Harmless ctx) (fun r t' => SessionProper ctx t' r ↔ WellAnswered ctx t')
      (startNetwork ctx) t := by
  unfold startNetwork modemHalRunSysCmd
  refine ⟨fun hq => absurd hq (by simp), fun f t' ht' => ?_⟩
  obtain rfl : t' = t ++ [(⟨.popen (startNetworkCommand ctx), f⟩ : Exchange ModemQ ModemA)] := ht'
  have hstarted := h.started_popen f
  have hwell := h.wellAnswered_popen_iff hv f
  cases f with
  | none =>
    -- without the program `-1` is returned, so only the registration counts
    show SessionProper ctx _ (-1) ↔ _
    rw [hwell]
    constructor
    · intro hproper
      exact ⟨hproper.registered (by rw [hstarted]; simp), fun process hf => absurd hf (by simp)⟩
    · intro hboth
      exact ⟨fun _ => hboth.1, fun hz => absurd hz (by decide), fun _ => by decide⟩
  | some process =>
    -- the program ran, so `0` is returned and its exit status counts as well
    show SessionProper ctx _ 0 ↔ _
    rw [hwell]
    constructor
    · intro hproper
      refine ⟨hproper.registered (by rw [hstarted]; simp), fun process' hf => ?_⟩
      obtain ⟨process'', hmem, hexit⟩ := hproper.success rfl
      rw [hstarted] at hmem
      rw [← Option.some.inj ((List.mem_singleton.mp hmem).trans hf), hexit]
    · intro hboth
      obtain ⟨hreg, hexit⟩ := hboth
      refine ⟨fun _ => hreg, fun _ => ⟨process, ?_, hexit process rfl⟩, fun hz => absurd rfl hz⟩
      rw [hstarted]
      exact List.mem_singleton.mpr rfl

/-- What holds along every run of the connection. -/
theorem wp_modemHalConnect_history (ctx : ModemContext) :
    wp history (Harmless ctx) (fun r t' => SessionProper ctx t' r ↔ WellAnswered ctx t')
      (modemHalConnect ctx) [] := by
  unfold modemHalConnect
  rw [wp_bind]
  -- first the SIM is looked at, which may crash
  refine wp_consequence wp_modemHalCheckPinStatus fun status t₁ h₁ => ?_
  rw [wp_bind]
  refine wp_consequence (wp_of_uneventful (onlyAsks_verifySim_uneventful ctx status) h₁)
    fun verified t₂ h₂ => ?_
  split
  -- the SIM is not ready: no session has been started
  · exact proper_of_beforePoll h₂
  · rw [wp_bind]
    -- then the modem is set up, whatever it answers
    have hset : OnlyAsks Uneventful initialiseModem :=
      onlyAsks_initialiseModem uneventful_initialisations
    refine wp_consequence (wp_of_uneventful hset h₂) fun _ t₃ h₃ => ?_
    -- then the registration is polled, ten times at most
    have hpoll : Polling ctx 10 t₃ :=
      ⟨h₃.cpin, h₃.none_started, by rw [h₃.none_asked]; rfl, by rw [h₃.none_asked]; simp⟩
    rw [wp_bind]
    refine wp_consequence (wp_registrationLoop hpoll) fun v t₄ h₄ => ?_
    split
    · next hneg =>
      rcases h₄.status with ⟨-, hst⟩ | ⟨hnonneg, -⟩
      · exact proper_of_given_up h₄.none_started h₄.cpin h₄.lines hst
      · omega
    -- and behind a poll that did not fail the session is started
    · next hnonneg => exact wp_startNetwork (by omega) h₄

end Connection

/-- **A finished connection is proper exactly when it was well answered.** In a proper one a session
is started only on a registered modem, success is reported only if the program exited with status
`0`, and everything else that is returned is negative. -/
theorem connects_properly_iff (ctx : ModemContext) {t : Transcript} {p : ModemM ℤ}
    (hrun : After (modemHalConnect ctx) t p) (hfinished : Finished p) :
    ConnectsProperly ctx t p ↔ WellAnswered ctx t := by
  have hwp := wp_after hrun (wp_modemHalConnect_history ctx)
  rcases hfinished with ⟨r, rfl⟩ | ⟨k, rfl⟩
  · constructor
    · rintro ⟨r', hr', hproper⟩
      obtain rfl := Dialogue.ret.inj hr'
      exact hwp.mp hproper
    · exact fun hwell => ⟨r, rfl, hwp.mpr hwell⟩
  · refine iff_of_false ?_ (hwp.1 rfl)
    rintro ⟨r, hr, -⟩
    exact absurd hr (by simp)

/-! ### A connection that goes wrong -/

/-- A modem that is ready, and denied registration; the program that starts the session fails. -/
def deniedScript : (q : ModemQ) → Option (ModemA q)
  | .atCommand command _ _ =>
    if command = cpinQuery then
      some (.delivered ⟨["+CPIN: READY".toList, "OK".toList], by decide⟩)
    else if command = cgregCommand then
      some (.delivered ⟨["+CGREG: 1,3".toList, "OK".toList], by decide⟩)
    else some (.refused .generic)
  | .uninit => some (0 : ℤ)
  | .sleep _ => some ()
  | .popen _ => some (some ⟨[], 1⟩)
  | .readEvent => some none
  | .nullDeref => none

/-- A modem without any configuration, whose fields are all empty. -/
def plainContext : ModemContext := ⟨.zero, [], []⟩

/-- The connection on that modem: its transcript, and what it has become. -/
def deniedRun : Transcript × ModemM ℤ := play deniedScript 20 (modemHalConnect plainContext)

theorem deniedRun_returns : deniedRun.2 = ret 0 := rfl

/-- The session is started on a modem that is not registered. -/
theorem deniedRun_not_proper : ¬ ConnectsProperly plainContext deniedRun.1 deniedRun.2 := by
  rintro ⟨r, -, hproper⟩
  have hstarted : startedSessions plainContext deniedRun.1 = [some ⟨[], 1⟩] := rfl
  obtain ⟨s, hs, h15⟩ := hproper.registered (by rw [hstarted]; simp)
  have hlast : (answersTo cgregCommand deniedRun.1).getLast?.bind cgregNumber = some 3 := rfl
  obtain rfl := Option.some.inj (hlast.symm.trans hs)
  omega

/-- Not every finished connection is proper: registration may be denied. -/
theorem not_all_connect_properly : ¬ ∀ (ctx : ModemContext) (t : Transcript) (p : ModemM ℤ),
    After (modemHalConnect ctx) t p → Finished p → ConnectsProperly ctx t p :=
  fun h => deniedRun_not_proper
    (h _ _ _ (after_play deniedScript 20 _) (Or.inl ⟨0, deniedRun_returns⟩))

/-- So the replies of that connection do lead astray. -/
theorem deniedRun_not_wellAnswered : ¬ WellAnswered plainContext deniedRun.1 := fun hwell =>
  deniedRun_not_proper ((connects_properly_iff plainContext (after_play deniedScript 20 _)
    (Or.inl ⟨0, deniedRun_returns⟩)).mpr hwell)

end RadioHal
