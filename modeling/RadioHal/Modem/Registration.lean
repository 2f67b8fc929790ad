import RadioHal.Lib.Stuck
import RadioHal.Modem.Connect
import RadioHal.Modem.Response

/-!
# The status of the registration

`AT+CGREG?` is answered by a line that begins with `+CGREG:`, and so begins the line the modem
sends of its own accord when the registration changes, which `AT+CGREG=1` has it do.  The query
reads the first of the lines that come between command and response.

## Main definitions

* `Unsolicited` — what a modem sends of its own accord.
* `CgregReply` — the answer to one `AT+CGREG?`, with what is sent of its own accord around it.
* `CgregReply.Interprets` — the query comes to the status of the answer.
* `CgregReply.Clear` — what is sent ahead of the answer does not stand in its way.
* `Polls left statuses v` — what the poll is for: from these statuses it comes to `v`.

## Main results

* `interprets_iff_clear` — a query comes to the status exactly where the way is clear.
* `polls_solicited_iff` — **the whole poll, with each query as it should be, exactly where the way
  is clear for all of them.**
-/

namespace RadioHal

open CLib Dialogue

/-! ### The lines of an answer -/

/-- What a modem sends of its own accord: a line, or the announcement of an SMS with its text. -/
inductive Unsolicited
  | line (text : Text) (h : isSMSUnsolicited text = false)
  | sms (announcement text : Text) (h : isSMSUnsolicited announcement = true)

/-- The lines that the modem sends for it. -/
def Unsolicited.lines : Unsolicited → List Text
  | line text _ => [text]
  | sms announcement text _ => [announcement, text]

/-- The line `+CGREG: <n>,<stat>`, by which the modem answers. -/
def solicitedLine (n stat : Text) : Text := "+CGREG: ".toList ++ (n ++ ',' :: stat)

/-- The answer to one `AT+CGREG?`: the line it is about and `OK`, with what the modem sends of its
own accord before, between and behind them. -/
structure CgregReply where
  /-- `<n>` and `<stat>`. -/
  n : Text
  stat : Text
  /-- What comes of itself. -/
  ahead : List Unsolicited
  between : List Unsolicited
  behind : List Unsolicited
  /-- What is there when the waiting thread takes the response. -/
  taken : Delivery
  /-- Both are numbers. -/
  digits_n : n ≠ [] ∧ ∀ c ∈ n, isdigit c = true
  digits_stat : stat ≠ [] ∧ ∀ c ∈ stat, isdigit c = true
  /-- The lines taken are the first of those sent. -/
  taken_prefix : taken.lines <+: ahead.flatMap Unsolicited.lines ++ solicitedLine n stat ::
    (between.flatMap Unsolicited.lines ++ "OK".toList :: behind.flatMap Unsolicited.lines)

namespace CgregReply

/-- The status of the answer, as an `int`. -/
def status (r : CgregReply) : ℤ := toInt (min longMax (digitsValue r.stat))

/-- The answer as the command gets it. -/
def answer (r : CgregReply) : AtAnswer := .delivered r.taken

/-- All the lines that come ahead of the answer. -/
def aheadLines (r : CgregReply) : List Text := r.ahead.flatMap Unsolicited.lines

/-- The first line that begins with `+CGREG:` among those that came ahead of the answer, and before
the response was taken. -/
def firstAhead (r : CgregReply) : Option Text :=
  firstLine "+CGREG:".toList (readerLoop (r.aheadLines.take r.taken.lines.length))

/-- The way is clear: the first line ahead of the answer that begins with `+CGREG:` shows the same
status behind its first number, or there is none and the response is not taken before the answer
is there. -/
def Clear (r : CgregReply) : Prop :=
  match r.firstAhead with
  | some line => registrationStatus line = some r.status
  | none => r.aheadLines.length < r.taken.lines.length

end CgregReply

/-- The question of the registration, as `modem_hal_get_registration_status` asks it. -/
abbrev cgregQuery : ModemQ := .atCommand "AT+CGREG?".toList .singleline "+CGREG:".toList

/-- The query comes to the status of the answer. -/
def CgregReply.Interprets (r : CgregReply) : Prop :=
  ∀ pp, ∃ resp, After (registrationQuery pp) [⟨cgregQuery, r.answer⟩] (ret (some r.status, resp))

/-! ### What stands in the lines -/

/-- White space ahead of a number makes no difference to it. -/
theorem atTokNextint_space (s : Text) (out : ℤ) :
    atTokNextint (some (' ' :: s)) out = atTokNextint (some s) out := rfl

/-- **The line of the answer is read as it stands.** -/
theorem registrationStatus_solicitedLine (r : CgregReply) :
    registrationStatus (solicitedLine r.n r.stat) = some r.status := by
  have hstart : atTokStart (some (solicitedLine r.n r.stat)) =
      (0, some (' ' :: (r.n ++ ',' :: r.stat))) := rfl
  unfold registrationStatus
  rw [hstart]
  dsimp only
  rw [if_neg (by omega), atTokNextint_space, atTokNextint_digits r.digits_n.1 r.digits_n.2]
  dsimp only
  rw [if_neg (by omega), atTokNextint_digits_end r.digits_stat.1 r.digits_stat.2]
  rfl

/-- What comes of itself is gone through before the rest. -/
theorem readerLoop_unsolicited (us : List Unsolicited) (rest : List Text) :
    readerLoop (us.flatMap Unsolicited.lines ++ rest) =
      readerLoop (us.flatMap Unsolicited.lines) ++ readerLoop rest := by
  induction us with
  | nil => rfl
  | cons u us ih =>
    rw [List.flatMap_cons, List.append_assoc]
    cases u with
    | line text h =>
      simp only [Unsolicited.lines, List.singleton_append]
      rw [readerLoop_cons h, readerLoop_cons h, ih, List.cons_append]
    | sms announcement text h =>
      simp only [Unsolicited.lines, List.cons_append, List.nil_append]
      rw [readerLoop_sms h, readerLoop_sms h, ih]

theorem firstLine_cons_report {line : Text} (h : strStarts line "+CGREG:".toList = true)
    (lines : List Text) : firstLine "+CGREG:".toList (line :: lines) = some line := by
  obtain ⟨rest, rfl⟩ := strStarts_iff.mp h
  rfl

/-- A response taken ahead of the answer holds nothing but what came of itself. -/
theorem firstLine_taken_of_le (r : CgregReply) (h : r.taken.lines.length ≤ r.aheadLines.length) :
    firstLine "+CGREG:".toList (readerLoop r.taken.lines) = r.firstAhead := by
  have htake : r.taken.lines = r.aheadLines.take r.taken.lines.length := by
    have hpre : r.taken.lines <+: r.aheadLines :=
      List.prefix_of_prefix_length_le r.taken_prefix (List.prefix_append _ _) h
    exact List.prefix_iff_eq_take.mp hpre
  unfold CgregReply.firstAhead
  rw [← htake]

/-- Otherwise the answer is there too, behind what came ahead of it. -/
theorem firstLine_taken_of_lt (r : CgregReply) (h : r.aheadLines.length < r.taken.lines.length) :
    firstLine "+CGREG:".toList (readerLoop r.taken.lines) =
      r.firstAhead.or (some (solicitedLine r.n r.stat)) := by
  obtain ⟨rest, hrest⟩ : r.aheadLines ++ [solicitedLine r.n r.stat] <+: r.taken.lines := by
    refine List.prefix_of_prefix_length_le ?_ r.taken_prefix ?_
    · exact ⟨_, by rw [List.append_assoc, List.singleton_append]; rfl⟩
    · rw [List.length_append, List.length_singleton]
      omega
  have hall : r.aheadLines.take r.taken.lines.length = r.aheadLines :=
    List.take_of_length_le h.le
  have hsms : isSMSUnsolicited (solicitedLine r.n r.stat) = false := rfl
  unfold CgregReply.firstAhead
  rw [hall, ← hrest, List.append_assoc, List.singleton_append, CgregReply.aheadLines,
    readerLoop_unsolicited, readerLoop_cons hsms, firstLine_append, firstLine_cons_report rfl]

/-- The way is clear where the first of the lines shows the status of the answer. -/
theorem clear_iff (r : CgregReply) : r.Clear ↔
    ∃ line, firstLine "+CGREG:".toList (readerLoop r.taken.lines) = some line ∧
      registrationStatus line = some r.status := by
  unfold CgregReply.Clear
  rcases Nat.lt_or_ge r.aheadLines.length r.taken.lines.length with hlt | hle
  · rw [firstLine_taken_of_lt r hlt]
    cases r.firstAhead with
    | some line => simp
    | none =>
      have hsolicited := registrationStatus_solicitedLine r
      simp [hlt, hsolicited]
  · rw [firstLine_taken_of_le r hle]
    cases r.firstAhead with
    | some line => simp
    | none => simp [Nat.not_lt.mpr hle]

/-! ### One query -/

/-- **What a query makes of the lines**: it reads the first that begins with `+CGREG:`, and without
one it fails, or looks for it where there is none. -/
theorem registrationQuery_eq_ask (pp : Option ATResponse) :
    ∃ k, registrationQuery pp = ask cgregQuery k ∧
      (∀ (d : Delivery) (line : Text),
        firstLine "+CGREG:".toList (readerLoop d.lines) = some line →
          ∃ resp, k (.delivered d) = ret (registrationStatus line, resp)) ∧
      ∀ d : Delivery, firstLine "+CGREG:".toList (readerLoop d.lines) = none →
        (∃ resp, k (.delivered d) = ret (none, resp)) ∨ Stuck .nullDeref (k (.delivered d)) := by
  refine ⟨_, atSendCommandSingleline_bind _ _ _ _, ?_, ?_⟩
  · intro d line hline
    rw [singleline_of_firstLine hline]
    exact ⟨_, rfl⟩
  · intro d hline
    cases hsucc : (lastFinal (readerLoop d.lines)).any isFinalResponseSuccess with
    | true =>
      rw [singleline_of_success hline hsucc]
      exact Or.inl ⟨_, rfl⟩
    | false =>
      have hlacks : (AtAnswer.delivered d).LacksLine "+CGREG:".toList := ⟨hsucc, hline⟩
      rw [singleline_of_lacksLine hlacks]
      exact Or.inr (stuck_ask _ _)

/-- **A query comes to the status of the answer exactly where the way is clear.** -/
theorem interprets_iff_clear (r : CgregReply) : r.Interprets ↔ r.Clear := by
  rw [clear_iff]
  constructor
  -- the query returns a status, so there was a line to read it from
  · intro h
    obtain ⟨k, hk, hsome, hnone⟩ := registrationQuery_eq_ask none
    obtain ⟨resp, hrun⟩ := h none
    rw [hk] at hrun
    have hres := after_nil_iff.mp (after_ask_cons_iff.mp hrun)
    cases hline : firstLine "+CGREG:".toList (readerLoop r.taken.lines) with
    | some line =>
      obtain ⟨resp', hret⟩ := hsome r.taken line hline
      refine ⟨line, rfl, ?_⟩
      have hpair := ret.inj (hres.trans hret)
      exact (congrArg Prod.fst hpair).symm
    | none =>
      rcases hnone r.taken hline with ⟨resp', hret⟩ | hstuck
      · have hpair := ret.inj (hres.trans hret)
        exact absurd (congrArg Prod.fst hpair) (by simp)
      · exact absurd (hres ▸ hstuck) (not_stuck_ret _)
  -- and the line it reads is the one that is meant
  · rintro ⟨line, hline, hstatus⟩ pp
    obtain ⟨k, hk, hsome, -⟩ := registrationQuery_eq_ask pp
    obtain ⟨resp, hret⟩ := hsome r.taken line hline
    refine ⟨resp, ?_⟩
    rw [hk]
    apply after_ask_cons_iff.mpr
    apply after_nil_iff.mpr
    rw [← hstatus]
    exact hret.symm

/-! ### The poll -/

/-- What the poll is for: it comes to the first status that does not tell it to wait, and gives up
at the one behind its last attempt. -/
def Polls : ℕ → List ℤ → ℤ → Prop
  | _, [], _ => False
  | 0, _ :: rest, v => rest = [] ∧ v = -1
  | left + 1, status :: rest, v =>
    if (rilRegState status).any RilRegState.restarts then Polls left rest v
    else rest = [] ∧ v = status

/-- The exchanges of a poll: the queries, with a second between them. -/
def pollExchanges : List CgregReply → List (Exchange ModemQ ModemA)
  | [] => []
  | [r] => [⟨cgregQuery, r.answer⟩]
  | r :: r' :: rs => ⟨cgregQuery, r.answer⟩ :: ⟨.sleep 1, ()⟩ :: pollExchanges (r' :: rs)

/-- The loop behind a query that comes to a status. -/
theorem after_query_iff {r : CgregReply} (h : r.Clear) (pp : Option ATResponse) {α : Type}
    {f : Option ℤ × Option ATResponse → ModemM α} :
    ∃ resp, ∀ (t : List (Exchange ModemQ ModemA)) (v : α),
      After (registrationQuery pp >>= f) (⟨cgregQuery, r.answer⟩ :: t) (ret v) ↔
        After (f (some r.status, resp)) t (ret v) := by
  obtain ⟨line, hline, hstatus⟩ := (clear_iff r).mp h
  obtain ⟨k, hk, hsome, -⟩ := registrationQuery_eq_ask pp
  obtain ⟨resp, hret⟩ := hsome r.taken line hline
  refine ⟨resp, fun t v => ?_⟩
  rw [hk, ask_bind, after_ask_cons_iff]
  show After (k (.delivered r.taken) >>= f) t (ret v) ↔ _
  rw [hret, ret_bind, hstatus]

/-- A poll starts by a query, so it does not return at once. -/
theorem not_after_registrationLoop_nil (left : ℕ) (pp : Option ATResponse) (v : ℤ) :
    ¬ After (registrationLoop left pp) [] (ret v) := by
  intro h
  have heq := after_nil_iff.mp h
  obtain ⟨k, hk, -⟩ := registrationQuery_eq_ask pp
  cases left with
  | zero =>
    rw [registrationLoop, hk] at heq
    exact absurd heq (by simp)
  | succ left =>
    rw [registrationLoop, hk] at heq
    exact absurd heq (by simp)

/-- **A poll whose way is clear comes to what the statuses come to**: by induction on the attempts
that are left. -/
theorem after_registrationLoop_iff {left : ℕ} {pp : Option ATResponse} {rs : List CgregReply}
    (hclear : ∀ r ∈ rs, r.Clear) {v : ℤ} :
    After (registrationLoop left pp) (pollExchanges rs) (ret v) ↔
      Polls left (rs.map CgregReply.status) v := by
  induction left generalizing pp rs with
  | zero =>
    cases rs with
    | nil => exact iff_of_false (not_after_registrationLoop_nil 0 pp v) (by simp [Polls])
    | cons r rest =>
      obtain ⟨resp, hquery⟩ := after_query_iff (hclear r List.mem_cons_self) pp
      -- the status is read, and the count has run out
      cases rest with
      | nil =>
        rw [pollExchanges, registrationLoop, hquery, pure_eq_ret, after_ret_iff]
        simp [Polls]
      | cons r' rest =>
        rw [pollExchanges, registrationLoop, hquery, pure_eq_ret, after_ret_iff]
        simp [Polls]
  | succ left ih =>
    cases rs with
    | nil => exact iff_of_false (not_after_registrationLoop_nil _ pp v) (by simp [Polls])
    | cons r rest =>
      obtain ⟨hr, hrest⟩ := List.forall_mem_cons.mp hclear
      obtain ⟨resp, hquery⟩ := after_query_iff hr pp
      rw [List.map_cons, Polls]
      by_cases hwait : (rilRegState r.status).any RilRegState.restarts = true
      · rw [if_pos hwait]
        cases rest with
        | nil =>
          rw [pollExchanges, registrationLoop, hquery]
          dsimp only
          rw [if_pos hwait, query_bind, after_nil_iff]
          simp [Polls]
        | cons r' rest =>
          rw [pollExchanges, registrationLoop, hquery]
          dsimp only
          rw [if_pos hwait, query_bind, after_ask_cons_iff]
          exact ih hrest
      · rw [if_neg hwait]
        cases rest with
        | nil =>
          rw [pollExchanges, registrationLoop, hquery]
          dsimp only
          rw [if_neg hwait, pure_eq_ret, after_ret_iff]
          simp
        | cons r' rest =>
          rw [pollExchanges, registrationLoop, hquery]
          dsimp only
          rw [if_neg hwait, pure_eq_ret, after_ret_iff]
          simp

/-- **Each query comes to the status of its answer exactly where the way is clear, and a poll of
which every query does comes to what the statuses come to.** The way is not clear where an
unsolicited line with another status is taken for the answer, or one ends the response ahead of it.
-/
theorem polls_solicited_iff (rs : List CgregReply) (v : ℤ) :
    (∀ r ∈ rs, (r.Interprets ↔ r.Clear)) ∧
      ((After modemHalGetRegistrationStatus (pollExchanges rs) (ret v) ∧
          ∀ r ∈ rs, r.Interprets) ↔
        (∀ r ∈ rs, r.Clear) ∧ Polls 10 (rs.map CgregReply.status) v) := by
  refine ⟨fun r _ => interprets_iff_clear r, ?_⟩
  constructor
  · rintro ⟨hrun, hall⟩
    have hclear : ∀ r ∈ rs, r.Clear := fun r hr => (interprets_iff_clear r).mp (hall r hr)
    exact ⟨hclear, (after_registrationLoop_iff hclear).mp hrun⟩
  · rintro ⟨hclear, hpolls⟩
    refine ⟨(after_registrationLoop_iff hclear).mpr hpolls, fun r hr => ?_⟩
    exact (interprets_iff_clear r).mpr (hclear r hr)

/-- The modem reports that it is registered, and then says so again when it is asked. -/
def reportAhead : CgregReply where
  n := "1".toList
  stat := "5".toList
  ahead := [.line "+CGREG: 5".toList rfl]
  between := []
  behind := []
  taken := ⟨["+CGREG: 5".toList, "+CGREG: 1,5".toList, "OK".toList], _,
    List.mem_cons_of_mem _ (List.mem_cons_of_mem _ List.mem_cons_self), rfl⟩
  digits_n := ⟨List.cons_ne_nil _ _, List.all_eq_true.mp rfl⟩
  digits_stat := ⟨List.cons_ne_nil _ _, List.all_eq_true.mp rfl⟩
  taken_prefix := List.prefix_rfl

/-- A report ahead of the answer is taken for it. -/
theorem not_all_polls_solicited : ¬ ∀ (rs : List CgregReply) (v : ℤ),
    Polls 10 (rs.map CgregReply.status) v →
      After modemHalGetRegistrationStatus (pollExchanges rs) (ret v) ∧
        ∀ r ∈ rs, r.Interprets := by
  intro h
  have hpolls : Polls 10 ([reportAhead].map CgregReply.status) 5 := ⟨rfl, rfl⟩
  have hrun := (h [reportAhead] 5 hpolls).1
  -- what the code comes to instead
  have hcode : After modemHalGetRegistrationStatus (pollExchanges [reportAhead]) (ret (-1)) :=
    .reply _ (.start _)
  exact absurd (hrun.unique hcode) (by decide)

end RadioHal
