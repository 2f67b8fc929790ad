import RadioHal.Lib.Numbers
import RadioHal.Modem.Queries
import RadioHal.Modem.Response

/-!
# The signal strength of the modem

`modem_hal_get_rssi` turns the first number of the `+CSQ:` line into dBm.  Where that line cannot be
used it asks for `AT+CIND?`, keeps what that command reports to itself, and turns into dBm whatever
has come to stand in its variable on the way: a number of the first line, the zero of a token that
is no number, or nothing at all.

## Main definitions

* `signalLine` — the line of a reply that is read.
* `csqSignal` — the number in front of the `+CSQ:` line.
* `CsqAnswers`, `CindAnswers` — the replies that can be used.
* `RssiReturns` — what the function returns for two replies.
* `RealReading` — every value returned is an error or a reading, whatever the variable held.
* `SignalInOrder` — the replies for which this is so.

## Main results

* `rssiReturns_iff` — what is returned, by the replies.
* `real_reading_iff` — **a value is real exactly when the first number is between 0 and 31, or no
  command brings anything.**
-/

namespace RadioHal

open CLib Dialogue

/-! ### Replies -/

/-- The line of a reply that is read; none where the command fails. -/
def signalLine (responsePrefix : Text) (a : AtAnswer) : Option Text :=
  let r := (a.result .singleline responsePrefix none).checkIntermediates
  if r.err ≠ 0 then none else r.response.bind fun p => p.pIntermediates.head?

/-- The number in front of the `+CSQ:` line, before it is narrowed. -/
def csqSignal (csq : AtAnswer) : Option ℤ :=
  (signalLine "+CSQ:".toList csq).bind fun line =>
    if (atTokStart (some line)).1 < 0 then none
    else (nextLong (atTokStart (some line)).2).map Prod.fst

/-- The reply to `AT+CSQ` has two numbers, and the first one is known. -/
def CsqAnswers (csq : AtAnswer) : Prop :=
  ∃ line, signalLine "+CSQ:".toList csq = some line ∧ (csqReading line 0).1 = true ∧
    (csqReading line 0).2 ≠ 99

/-- The reply to `AT+CIND?` has two numbers. -/
def CindAnswers (cind : AtAnswer) : Prop :=
  ∃ line, signalLine "+CIND:".toList cind = some line ∧ ¬ (atTokStart (some line)).1 < 0 ∧
    twoInts (atTokStart (some line)).2 ≠ none

/-- What the variable `rssi` holds behind the reply to `AT+CSQ`, when it held `u` before. -/
def rssiBehind (u : ℤ) (csq : AtAnswer) : ℤ :=
  match signalLine "+CSQ:".toList csq with
  | none => u
  | some line => (csqReading line u).2

section Replies

variable {responsePrefix : Text} {a : AtAnswer}

/-- **A command that does not lack its line fails, or has one.**  The function reads that line then,
and it is the first of the list. -/
theorem signalLine_spec (h : ¬ a.LacksLine responsePrefix) :
    (signalLine responsePrefix a = none ∧
        (a.result .singleline responsePrefix none).checkIntermediates.err ≠ 0) ∨
      ∃ p line, signalLine responsePrefix a = some line ∧
        (a.result .singleline responsePrefix none).checkIntermediates = ⟨0, some p⟩ ∧
        p.pIntermediates = [line] := by
  unfold signalLine
  rcases singleline_of_not_lacksLine h none with hneg | ⟨p, line, hres, hp⟩
  · left
    have hne := hneg.ne
    simp [hne]
  · right
    refine ⟨p, line, ?_, hres, hp⟩
    simp [hres, hp]

/-- Behind the colon there is a text, and its first token is one too. -/
theorem csqReading_of_start {line rest : Text} (h : afterColon line = some rest) (u : ℤ) :
    csqReading line u =
      if (atTokNextint (some rest) u).1 < 0 then (false, (atTokNextint (some rest) u).2.1)
      else (decide (0 ≤ (atTokNextint (atTokNextint (some rest) u).2.2 0).1),
        (atTokNextint (some rest) u).2.1) := by
  unfold csqReading atTokStart
  simp [h]

theorem exists_nextTok (rest : Text) : ∃ tok cur, nextTok (some rest) = (some tok, cur) := by
  unfold nextTok skipWhiteSpace
  rw [Option.map_some]
  dsimp only
  split <;> exact ⟨_, _, rfl⟩

/-- The token is written to the variable, so what was in it is gone. -/
theorem atTokNextint_some (rest : Text) (u : ℤ) :
    atTokNextint (some rest) u = atTokNextint (some rest) 0 := by
  obtain ⟨tok, cur, htok⟩ := exists_nextTok rest
  unfold atTokNextint
  rw [htok]

/-- A token that is no number leaves zero in the variable. -/
theorem atTokNextint_of_no_number {rest : Text} (h : nextLong (some rest) = none) :
    (atTokNextint (some rest) 0).2.1 = 0 := by
  obtain ⟨tok, cur, htok⟩ := exists_nextTok rest
  unfold nextLong at h
  unfold atTokNextint
  rw [htok] at h ⊢
  have hconv : (strtol tok).converted = false := by
    by_contra hc
    simp [hc] at h
  show toInt (strtol tok).value = 0
  rw [value_of_not_converted hconv]
  rfl

/-- **What the reply leaves in the variable**: its first number, narrowed, or what was there, or
zero. -/
theorem csqSignal_spec (csq : AtAnswer) :
    (∃ n, csqSignal csq = some n ∧ ∀ u, rssiBehind u csq = toInt n) ∨
      (csqSignal csq = none ∧ ¬ CsqAnswers csq ∧
        ((∀ u, rssiBehind u csq = u) ∨ ∀ u, rssiBehind u csq = 0)) := by
  unfold csqSignal CsqAnswers rssiBehind
  cases signalLine "+CSQ:".toList csq with
  | none => simp
  | some line =>
    simp only [Option.bind_some, Option.some.injEq, exists_eq_left']
    cases hcolon : afterColon line with
    | none =>
      right
      have hstart : atTokStart (some line) = (-1, none) := by simp [atTokStart, hcolon]
      simp [hstart, csqReading]
    | some rest =>
      have hstart : atTokStart (some line) = (0, some rest) := by simp [atTokStart, hcolon]
      have hread := csqReading_of_start hcolon
      rw [hstart]
      simp only [lt_irrefl, if_false]
      rcases atTokNextint_spec (some rest) 0 with ⟨hnone, hfail⟩ | ⟨n, rest', hnext, htok⟩
      · -- no digit: the value of a conversion that reads nothing is stored all the same
        right
        have hzero := atTokNextint_of_no_number hnone
        simp [hnone, hread, atTokNextint_some rest, hfail, hzero]
      · left
        refine ⟨n, by simp [hnext], ?_⟩
        intro u
        rw [hread, atTokNextint_some rest, htok]
        simp

end Replies

/-! ### What is returned -/

/-- For these replies, and with `u` in its variable, the function can return `r`.  The second
command is sent only if the first one has no usable answer. -/
def RssiReturns (csq cind : AtAnswer) (u r : ℤ) : Prop :=
  After modemHalGetRssi
      [⟨.uninit, u⟩, ⟨.atCommand "AT+CSQ".toList .singleline "+CSQ:".toList, csq⟩] (ret r) ∨
    After modemHalGetRssi
      [⟨.uninit, u⟩, ⟨.atCommand "AT+CSQ".toList .singleline "+CSQ:".toList, csq⟩,
        ⟨.atCommand "AT+CIND?".toList .singleline "+CIND:".toList, cind⟩] (ret r)

/-- Behind the label `cind` the reply decides about an error only. -/
theorem after_rssiByCind_iff {cind : AtAnswer} (hcind : ¬ cind.LacksLine "+CIND:".toList)
    {x r : ℤ} : After (rssiByCind x)
      [⟨.atCommand "AT+CIND?".toList .singleline "+CIND:".toList, cind⟩] (ret r) ↔
        (CindAnswers cind ∧ r = dbm x) ∨ (¬ CindAnswers cind ∧ r = -1) := by
  unfold rssiByCind CindAnswers
  rw [atSendCommandSingleline_bind, after_ask_cons_iff]
  rcases signalLine_spec hcind with ⟨hnone, herr⟩ | ⟨p, line, hline, hres, hp⟩
  · rw [if_pos herr, hnone]
    simp [after_ret_iff]
  · rw [hres, hline]
    simp only [ne_eq, not_true_eq_false, if_false, firstIntermediate, deref_some, ret_bind, hp,
      List.head?_cons, Option.some.injEq, exists_eq_left']
    by_cases hstart : (atTokStart (some line)).1 < 0
    · simp [hstart, after_ret_iff]
    · by_cases htwo : twoInts (atTokStart (some line)).2 = none
      · simp [hstart, htwo, after_ret_iff]
      · simp [hstart, htwo, after_ret_iff]

/-- Whether a line is read to its end does not depend on what the variable held, and where it is
neither does the number. -/
theorem csqReading_independent (line : Text) (u : ℤ) :
    (csqReading line u).1 = (csqReading line 0).1 ∧
      ((csqReading line 0).1 = true → (csqReading line u).2 = (csqReading line 0).2) := by
  cases hcolon : afterColon line with
  | none => simp [csqReading, atTokStart, hcolon]
  | some rest =>
    rw [csqReading_of_start hcolon, csqReading_of_start hcolon, atTokNextint_some rest]
    exact ⟨rfl, fun _ => rfl⟩

/-- Once the reply to `AT+CSQ` is there, the function returns, or goes on at the label `cind`. -/
theorem after_csq_iff {csq : AtAnswer} (hcsq : ¬ csq.LacksLine "+CSQ:".toList) {u r : ℤ}
    {t : List (Exchange ModemQ ModemA)} : After modemHalGetRssi
      (⟨.uninit, u⟩ :: ⟨.atCommand "AT+CSQ".toList .singleline "+CSQ:".toList, csq⟩ :: t) (ret r) ↔
        (CsqAnswers csq ∧ t = [] ∧ r = dbm (rssiBehind u csq)) ∨
          (¬ CsqAnswers csq ∧ After (rssiByCind (rssiBehind u csq)) t (ret r)) := by
  unfold modemHalGetRssi CsqAnswers rssiBehind
  rw [query_bind, after_ask_cons_iff, atSendCommandSingleline_bind, after_ask_cons_iff]
  rcases signalLine_spec hcsq with ⟨hnone, herr⟩ | ⟨p, line, hline, hres, hp⟩
  · rw [if_pos herr, hnone]
    simp
  · obtain ⟨hread, hnumber⟩ := csqReading_independent line u
    rw [hres, hline]
    simp only [ne_eq, not_true_eq_false, if_false, firstIntermediate, deref_some, ret_bind, hp,
      List.head?_cons, Option.some.injEq, exists_eq_left']
    by_cases hdone : (csqReading line 0).1 = true
    · rw [hread, hnumber hdone, hdone]
      by_cases hunknown : (csqReading line 0).2 = 99
      · simp [hunknown]
      · simp [hunknown, after_ret_iff]
    · rw [hread]
      simp [hdone]

/-- **What is returned**: an error where neither reply can be used, and else what the variable
holds, in dBm. -/
theorem rssiReturns_iff {csq cind : AtAnswer} (hcsq : ¬ csq.LacksLine "+CSQ:".toList)
    (hcind : ¬ cind.LacksLine "+CIND:".toList) {u r : ℤ} : RssiReturns csq cind u r ↔
      ((CsqAnswers csq ∨ CindAnswers cind) ∧ r = dbm (rssiBehind u csq)) ∨
        (¬ CsqAnswers csq ∧ ¬ CindAnswers cind ∧ r = -1) := by
  have hnothing : ∀ x, ¬ After (rssiByCind x) [] (ret r) := by
    intro x h
    obtain ⟨answer, t, hnil, -⟩ := after_ask_iff.mp h
    exact absurd hnil.symm (List.cons_ne_nil _ t)
  unfold RssiReturns
  rw [after_csq_iff hcsq, after_csq_iff hcsq, after_rssiByCind_iff hcind]
  simp only [hnothing, and_false, or_false]
  by_cases hfirst : CsqAnswers csq
  · simp [hfirst]
  · by_cases hsecond : CindAnswers cind
    · simp [hfirst, hsecond]
    · simp [hfirst, hsecond]

section Usable

variable {csq cind : AtAnswer} {u r : ℤ}

/-- Where a reply can be used, what the variable holds is returned, in dBm. -/
theorem rssiReturns_of_usable (hcsq : ¬ csq.LacksLine "+CSQ:".toList)
    (hcind : ¬ cind.LacksLine "+CIND:".toList) (hany : CsqAnswers csq ∨ CindAnswers cind) :
    RssiReturns csq cind u r ↔ r = dbm (rssiBehind u csq) := by
  rw [rssiReturns_iff hcsq hcind]
  constructor
  · intro h
    rcases h with ⟨-, hr⟩ | ⟨hcsq', hcind', -⟩
    · exact hr
    · exact absurd hany (not_or.mpr ⟨hcsq', hcind'⟩)
  · exact fun hr => Or.inl ⟨hany, hr⟩

/-- Where neither reading can be used, the error is what is returned. -/
theorem rssiReturns_of_unusable (hcsq : ¬ csq.LacksLine "+CSQ:".toList)
    (hcind : ¬ cind.LacksLine "+CIND:".toList) (hnone : ¬ CsqAnswers csq ∧ ¬ CindAnswers cind) :
    RssiReturns csq cind u r ↔ r = -1 := by
  rw [rssiReturns_iff hcsq hcind]
  constructor
  · intro h
    rcases h with ⟨hany, -⟩ | ⟨-, -, hr⟩
    · exact absurd hany (not_or.mpr hnone)
    · exact hr
  · exact fun hr => Or.inr ⟨hnone.1, hnone.2, hr⟩

end Usable

/-! ### Real readings -/

/-- Every value returned is the error, or a reading that the modem has reported; and it is the same
whatever the variable held before. -/
structure RealReading (csq cind : AtAnswer) : Prop where
  reported : ∀ u r, RssiReturns csq cind u r →
    r = -1 ∨ ∃ k, csqSignal csq = some k ∧ 0 ≤ k ∧ k ≤ 31 ∧ r = -113 + 2 * k
  determined : ∀ u u' r r', RssiReturns csq cind u r → RssiReturns csq cind u' r' → r = r'

/-- The first number of the `+CSQ:` line is between 0 and 31, or one of those whose value happens to
be the error, or both commands bring nothing that can be used. -/
def SignalInOrder (csq cind : AtAnswer) : Prop :=
  (∃ k, csqSignal csq = some k ∧ ((0 ≤ k ∧ k ≤ 31) ∨ (2 ^ 31 ∣ k - 56))) ∨
    (¬ CsqAnswers csq ∧ ¬ CindAnswers cind)

/-- The value of a narrowed number is the error for one number, up to the bits that are lost. -/
theorem dbm_toInt_eq_neg_one_iff (k : ℤ) : dbm (toInt k) = -1 ↔ (2 ^ 31 : ℤ) ∣ k - 56 := by
  unfold dbm toInt
  rw [Int.bmod_def, Int.bmod_def]
  split <;> split <;> omega

theorem dbm_toInt_of_range {k : ℤ} (h₀ : 0 ≤ k) (hmax : k ≤ 31) :
    dbm (toInt k) = -113 + 2 * k := by
  have hfits : FitsInt k := by
    unfold FitsInt
    omega
  have hfits' : FitsInt (-113 + k * 2) := by
    unfold FitsInt
    omega
  unfold dbm
  rw [toInt_eq_self_iff.mpr hfits, toInt_eq_self_iff.mpr hfits']
  omega

/-- **The signal strength is real exactly when the first number of the `+CSQ:` line is between 0 and
31, or both commands bring nothing that can be used**, but for the numbers whose value is taken for
the error. -/
theorem real_reading_iff (csq cind : AtAnswer) (hcsq : ¬ csq.LacksLine "+CSQ:".toList)
    (hcind : ¬ cind.LacksLine "+CIND:".toList) :
    RealReading csq cind ↔ SignalInOrder csq cind := by
  by_cases hany : CsqAnswers csq ∨ CindAnswers cind
  · have hreturns : ∀ u r, RssiReturns csq cind u r ↔ r = dbm (rssiBehind u csq) :=
      fun u r => rssiReturns_of_usable hcsq hcind hany
    unfold SignalInOrder
    rw [← not_or, or_iff_left (not_not.mpr hany)]
    rcases csqSignal_spec csq with ⟨n, hn, hvar⟩ | ⟨hnone, -, hvar⟩
    · -- the number that was read is what the variable holds
      constructor
      · intro h
        refine ⟨n, hn, ?_⟩
        rcases h.reported 0 _ ((hreturns 0 _).mpr rfl) with herr | ⟨k, hk, h₀, hmax, -⟩
        · rw [hvar, dbm_toInt_eq_neg_one_iff] at herr
          exact Or.inr herr
        · obtain rfl := Option.some.inj (hn.symm.trans hk)
          exact Or.inl ⟨h₀, hmax⟩
      · rintro ⟨k, hk, hrange⟩
        obtain rfl := Option.some.inj (hn.symm.trans hk)
        constructor
        · intro u r hr
          rw [hreturns, hvar] at hr
          rcases hrange with ⟨h₀, hmax⟩ | hdvd
          · exact Or.inr ⟨n, hn, h₀, hmax, hr.trans (dbm_toInt_of_range h₀ hmax)⟩
          · exact Or.inl (hr.trans ((dbm_toInt_eq_neg_one_iff n).mpr hdvd))
        · intro u u' r r' hr hr'
          rw [hreturns, hvar] at hr hr'
          rw [hr, hr']
    · -- no number was read, and yet a value is returned
      refine iff_of_false ?_ ?_
      · intro h
        rcases hvar with hvar | hvar
        · have heq := h.determined 0 1 _ _ ((hreturns 0 _).mpr rfl) ((hreturns 1 _).mpr rfl)
          rw [hvar, hvar] at heq
          exact absurd heq (by decide)
        · rcases h.reported 0 _ ((hreturns 0 _).mpr rfl) with herr | ⟨k, hk, -⟩
          · rw [hvar] at herr
            exact absurd herr (by decide)
          · rw [hnone] at hk
            exact absurd hk (by simp)
      · rintro ⟨k, hk, -⟩
        rw [hnone] at hk
        exact absurd hk (by simp)
  · -- an error comes back, whatever the variable held
    rw [not_or] at hany
    refine iff_of_true ⟨?_, ?_⟩ (Or.inr hany)
    · intro u r hr
      exact Or.inl ((rssiReturns_of_unusable hcsq hcind hany).mp hr)
    · intro u u' r r' hr hr'
      rw [rssiReturns_of_unusable hcsq hcind hany] at hr hr'
      rw [hr, hr']

/-- The reply of a modem that measures a signal of 20. -/
def csqTwenty : AtAnswer :=
  .delivered ⟨["+CSQ: 20,99".toList, "OK".toList], "OK".toList, by decide, by decide⟩

/-- The reply of a modem that does not know its signal. -/
def csqUnknown : AtAnswer :=
  .delivered ⟨["+CSQ: 99,99".toList, "OK".toList], "OK".toList, by decide, by decide⟩

/-- The same modem reports three bars to `AT+CIND?`. -/
def cindThree : AtAnswer :=
  .delivered ⟨["+CIND: 5,3".toList, "OK".toList], "OK".toList, by decide, by decide⟩

theorem cindThree_line : ¬ cindThree.LacksLine "+CIND:".toList := fun h => absurd h.2 (by decide)

/-- A measured signal is a real reading. -/
theorem twenty_real : RealReading csqTwenty cindThree :=
  (real_reading_iff csqTwenty cindThree (fun h => absurd h.2 (by decide)) cindThree_line).mpr
    (Or.inl ⟨20, by decide, Or.inl (by decide)⟩)

/-- Not every value is real: where the signal is unknown and the bars are known, 85 dBm come
back. -/
theorem not_all_readings_real : ¬ ∀ csq cind : AtAnswer, ¬ csq.LacksLine "+CSQ:".toList →
    ¬ cind.LacksLine "+CIND:".toList → RealReading csq cind := by
  intro h
  have hline : ¬ csqUnknown.LacksLine "+CSQ:".toList := fun h => absurd h.2 (by decide)
  have hcind : CindAnswers cindThree := ⟨"+CIND: 5,3".toList, by decide, by decide, by decide⟩
  have hreturns : RssiReturns csqUnknown cindThree 0 85 :=
    (rssiReturns_iff hline cindThree_line).mpr (Or.inl ⟨Or.inr hcind, by decide⟩)
  rcases (h csqUnknown cindThree hline cindThree_line).reported 0 85 hreturns with
    herr | ⟨k, -, -, hmax, hk⟩
  · exact absurd herr (by decide)
  · omega

end RadioHal
