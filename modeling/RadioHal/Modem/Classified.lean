import RadioHal.Modem.EventHandler

/-!
# What becomes of a line

The message that `at_event_handler` writes begins as one of zeros, and zero is the number of the
startup event.  A line with a technology that is missing or unknown leaves it so; the technology
itself is narrowed to an `int` and shifted by, whatever it is.  A text of exactly the length of its
field is copied without a terminator.

## Main definitions

* `LineKind`, `lineKind` — the kinds of lines.
* `firstInteger`, `NamesTechnology` — the technology of a line.
* `classify` — the event a line should be posted as.
* `lineText` — the text that should arrive with it.
* `Posts` — what is written for a line, in every run.

## Main results

* `posts_of_ne`, `posts_technology` — what is written, kind by kind.
* `classified_iff` — **a line is classified correctly exactly if it names a technology or has
  nothing to do with one.**
* `text_kept_iff` — **the text of a line survives exactly if it does not just fill its field, and a
  line whose text is not copied has one that would not fit.**
-/

namespace RadioHal

open CLib Dialogue

/-! ### The kinds of lines -/

/-- The kinds of lines that `at_event_handler` tells apart. -/
inductive LineKind
  | nitz | registration | dataCall | technology | off | other
  deriving DecidableEq, Repr

/-- The kind of a line, by what it begins with. -/
def lineKind (s : Text) : LineKind :=
  if strStarts s "%CTZV:".toList then .nitz
  else if strStarts s "+CREG:".toList || strStarts s "+CGREG:".toList then .registration
  else if strStarts s "+CGEV:".toList then .dataCall
  else if strStarts s "+CTEC: ".toList then .technology
  else if strStarts s "+CFUN: 0".toList then .off
  else .other

/-- The event that a line of the kind is reported as. -/
def LineKind.event : LineKind → ModemSystemEvent
  | nitz => .nitzEvent
  | registration => .registrationEvent
  | dataCall => .dataCallEvent
  | technology => .cellularTechEvent
  | off => .offEvent
  | other => .noEvent

/-- The first integer of a line, before it is narrowed. -/
def firstInteger (s : Text) : Option ℤ := (nextLong (atTokStart (some s)).2).map Prod.fst

/-- The technologies: GSM, WCDMA, CDMA and LTE. -/
def technologies : List ℤ := [0, 1, 2, 4]

/-- The first integer of a line is a technology. -/
def NamesTechnology (s : Text) : Prop := ∃ n ∈ technologies, firstInteger s = some n

instance (s : Text) : Decidable (NamesTechnology s) :=
  inferInstanceAs (Decidable (∃ n ∈ technologies, firstInteger s = some n))

/-- **The event a line should be posted as.** -/
def classify (s : Text) : ModemSystemEvent :=
  if lineKind s = .technology ∧ ¬ NamesTechnology s then .noEvent else (lineKind s).event

/-- **The text that should arrive with it**: the line, or its first token. -/
def lineText (s : Text) : Text :=
  if lineKind s = .nitz then (atTokNextstr (atTokStart (some s)).2 none).2.1.getD [] else s

/-! ### The messages -/

/-- A message of zeros, but for its sender. -/
def RadioHalMsgBuffer.blank : RadioHalMsgBuffer := { RadioHalMsgBuffer.zero with sender := .modem }

/-- The message for a text of a kind. -/
def LineKind.message (kind : LineKind) (text : Text) : RadioHalMsgBuffer :=
  { RadioHalMsgBuffer.blank.withText text with event := kind.event.code }

/-- A line about a technology becomes a message of its own, or the one of zeros. -/
def techMessage (s : Text) (mask : ℤ) : RadioHalMsgBuffer :=
  if mask ∈ knownMasks then LineKind.technology.message s else .blank

section Kinds

variable {s : Text}

theorem exists_of_strStarts {p : Text} (h : strStarts s p = true) : ∃ t, s = p ++ t := by
  obtain ⟨t, rfl⟩ := strStarts_iff.mp h
  exact ⟨t, rfl⟩

/-- The token of a line about the time is always there. -/
theorem atTokNextstr_nitz (h : strStarts s "%CTZV:".toList = true) (out : Option Text) :
    (atTokNextstr (atTokStart (some s)).2 out).1 = 0 := by
  obtain ⟨t, rfl⟩ := exists_of_strStarts h
  rfl

/-- A line about a technology has its first integer for a response. -/
theorem parseTechnologyResponse_eq (h : strStarts s "+CTEC: ".toList = true) :
    parseTechnologyResponse s = (firstInteger s).map toInt := by
  obtain ⟨t, rfl⟩ := exists_of_strStarts h
  have hstart : atTokStart (some ("+CTEC: ".toList ++ t)) = (0, some (' ' :: t)) := rfl
  have hmore : atTokHasmore (some (' ' :: t)) = true := rfl
  unfold parseTechnologyResponse firstInteger
  rw [hstart]
  dsimp only
  rw [hmore, if_neg (by simp)]
  rcases atTokNextint_spec (some (' ' :: t)) 0 with ⟨hnone, hret⟩ | ⟨n, rest, hsome, hret⟩
  · rw [hnone, hret]
    rfl
  · rw [hsome, hret]
    rfl

/-- A line that is not about a technology becomes the message of its kind. -/
theorem atEventMessage_of_ne (h : lineKind s ≠ .technology) :
    atEventMessage s = ret ((lineKind s).message (lineText s)) := by
  unfold lineText
  unfold lineKind at h ⊢
  unfold atEventMessage
  dsimp only
  -- the cases are those of the handler, in their order
  split at h
  · next hnitz =>
    rw [if_pos hnitz, if_neg (not_not.mpr (atTokNextstr_nitz hnitz none))]
    simp only [hnitz, if_true]
    rfl
  next hnitz =>
  split at h
  · next hreg =>
    rw [if_neg hnitz, if_pos hreg]
    simp only [hnitz, hreg, if_true]
    rfl
  next hreg =>
  split at h
  · next hdata =>
    rw [if_neg hnitz, if_neg hreg, if_pos hdata]
    simp only [hnitz, hreg, hdata, if_true]
    rfl
  next hdata =>
  split at h
  · exact absurd rfl h
  next htech =>
  split at h
  · next hoff =>
    rw [if_neg hnitz, if_neg hreg, if_neg hdata, if_neg htech, if_pos hoff]
    simp only [hnitz, hreg, hdata, htech, hoff, if_true]
    rfl
  · next hoff =>
    rw [if_neg hnitz, if_neg hreg, if_neg hdata, if_neg htech, if_neg hoff]
    simp only [hnitz, hreg, hdata, htech, hoff]
    rfl

/-- A line about a technology becomes the message of its mask. -/
theorem atEventMessage_technology (h : lineKind s = .technology) :
    atEventMessage s = (firstInteger s).elim (ret .blank) fun n =>
      techMask (toInt n) >>= fun mask => ret (techMessage s mask) := by
  unfold lineKind at h
  split at h
  · exact absurd h (by decide)
  next hnitz =>
  split at h
  · exact absurd h (by decide)
  next hreg =>
  split at h
  · exact absurd h (by decide)
  next hdata =>
  split at h
  · next htech =>
    unfold atEventMessage
    dsimp only
    rw [if_neg hnitz, if_neg hreg, if_neg hdata, if_pos htech, parseTechnologyResponse_eq htech]
    cases firstInteger s with
    | none => rfl
    | some n =>
      refine congrArg (techMask (toInt n) >>= ·) (funext fun mask => ?_)
      unfold techMessage
      split <;> rfl
  · split at h
    · exact absurd h (by decide)
    · exact absurd h (by decide)

end Kinds

/-! ### What is written -/

/-- What a question of the handler should meet: a message `R`, the count of a shift that is too far
`S`. -/
def HandlerQ.Sends (R : RadioHalMsgBuffer → Prop) (S : ℤ → Prop) : HandlerQ → Prop
  | .write msg => R msg
  | .shiftTooFar n => S n
  | _ => True

/-- **What is written for a line meets `R`, and a shift that is too far meets `S`**, in every
run. -/
def Posts (R : RadioHalMsgBuffer → Prop) (S : ℤ → Prop) (s : Text) : Prop :=
  OnlyAsks (HandlerQ.Sends R S) (atEventHandler s)

section Posts

variable {R : RadioHalMsgBuffer → Prop} {S : ℤ → Prop} {s : Text}

theorem onlyAsks_writeMessage_iff (msg : RadioHalMsgBuffer) :
    OnlyAsks (HandlerQ.Sends R S) (writeMessage msg) ↔ R msg := by
  unfold writeMessage
  rw [query_bind, onlyAsks_ask]
  refine and_iff_left fun (retval : ℤ) => ?_
  split
  · exact ⟨trivial, fun _ => trivial⟩
  · trivial

/-- What is written to the pipe is the message of the line. -/
theorem posts_iff : Posts R S s ↔
    OnlyAsks (HandlerQ.Sends R S) (atEventMessage s) ∧ Yields R (atEventMessage s) := by
  unfold Posts atEventHandler
  rw [onlyAsks_bind_iff]
  have hsend : ∀ msg, OnlyAsks (HandlerQ.Sends R S) (do
      let flags ← query HandlerQ.getFlags
      let retval ← query (HandlerQ.setNonblock flags)
      if (retval : ℤ) ≠ 0 then
        let _ ← query (HandlerQ.halErr "Ret from fcntl: %d\n".toList)
      writeMessage msg) ↔ R msg := by
    intro msg
    constructor
    · intro h
      obtain ⟨-, hset⟩ := h
      obtain ⟨-, hwrite⟩ := hset (0 : ℤ)
      exact (onlyAsks_writeMessage_iff msg).mp (hwrite (0 : ℤ))
    · intro h
      have hwrite := (onlyAsks_writeMessage_iff (S := S) msg).mpr h
      refine ⟨trivial, fun _ => ⟨trivial, fun (retval : ℤ) => ?_⟩⟩
      show OnlyAsks _ (if retval ≠ 0 then _ else writeMessage msg)
      split
      · exact ⟨trivial, fun _ => hwrite⟩
      · exact hwrite
  constructor
  · intro h
    exact ⟨h.1, h.2.mono fun msg => (hsend msg).mp⟩
  · intro h
    exact ⟨h.1, h.2.mono fun msg => (hsend msg).mpr⟩

/-- A line that is not about a technology is reported with its event and its text. -/
theorem posts_of_ne (h : lineKind s ≠ .technology) :
    Posts R S s ↔ R ((lineKind s).message (lineText s)) := by
  rw [posts_iff, atEventMessage_of_ne h]
  exact and_iff_right trivial

/-- A line about a technology that is missing is reported by a blank message. -/
theorem posts_of_missing (h : lineKind s = .technology) (hnone : firstInteger s = none) :
    Posts R S s ↔ R .blank := by
  rw [posts_iff, atEventMessage_technology h, hnone]
  exact and_iff_right trivial

/-- The shift of a technology that is in range. -/
theorem posts_of_range (h : lineKind s = .technology) {n : ℤ} (hsome : firstInteger s = some n)
    (hrange : 0 ≤ toInt n ∧ toInt n < 32) :
    Posts R S s ↔ R (techMessage s (toInt (2 ^ (toInt n).toNat))) := by
  have hmask : techMask (toInt n) = ret (toInt (2 ^ (toInt n).toNat)) := if_pos hrange
  rw [posts_iff, atEventMessage_technology h, hsome, Option.elim_some, hmask]
  exact and_iff_right trivial

/-- And of one that is not: anything may come of it. -/
theorem posts_of_shiftTooFar (h : lineKind s = .technology) {n : ℤ}
    (hsome : firstInteger s = some n) (hrange : ¬ (0 ≤ toInt n ∧ toInt n < 32)) :
    Posts R S s ↔ S (toInt n) ∧ ∀ mask, R (techMessage s mask) := by
  have hmask : techMask (toInt n) = query (HandlerQ.shiftTooFar (toInt n)) := if_neg hrange
  rw [posts_iff, atEventMessage_technology h, hsome, Option.elim_some, hmask]
  exact and_congr_left fun _ => and_iff_left fun _ => trivial

end Posts

/-! ### The event -/

/-- In range, the mask is known exactly for a technology. -/
theorem known_iff {n : ℤ} (hrange : 0 ≤ n ∧ n < 32) :
    toInt (2 ^ n.toNat) ∈ knownMasks ↔ n ∈ technologies := by
  obtain ⟨k, rfl⟩ := Int.eq_ofNat_of_zero_le hrange.1
  have hk : k < 32 := by omega
  have hall : ∀ k : ℕ, k < 32 → (toInt (2 ^ k) ∈ knownMasks ↔ (k : ℤ) ∈ technologies) := by
    decide
  exact hall k hk

theorem toInt_technology {n : ℤ} (h : n ∈ technologies) :
    toInt n = n ∧ 0 ≤ n ∧ n < 32 := by
  revert n
  decide

theorem classify_ne_startup (s : Text) :
    (classify s).code ≠ ModemSystemEvent.startupEvent.code := by
  unfold classify
  split
  · decide
  · cases lineKind s <;> decide

/-- **What is written for a line is posted as it should be classified, and never as the start of the
modem; and no shift is too far.** -/
def Classified (s : Text) : Prop :=
  Posts (fun msg => msg.event = (classify s).code ∧
    msg.event ≠ ModemSystemEvent.startupEvent.code) (fun _ => False) s

theorem not_classified {s : Text} {msg : RadioHalMsgBuffer} (h : lineKind s = .technology)
    (hnames : ¬ NamesTechnology s) (hmsg : msg = LineKind.technology.message s ∨ msg = .blank) :
    msg.event ≠ (classify s).code := by
  have hclass : classify s = .noEvent := if_pos ⟨h, hnames⟩
  rw [hclass]
  rcases hmsg with rfl | rfl
  · exact (by decide : (3 : ℤ) ≠ -1)
  · exact (by decide : (0 : ℤ) ≠ -1)

theorem techMessage_eq_or (s : Text) (mask : ℤ) :
    techMessage s mask = LineKind.technology.message s ∨ techMessage s mask = .blank := by
  unfold techMessage
  split
  · exact Or.inl rfl
  · exact Or.inr rfl

/-- **A line is classified correctly exactly if it names a technology or is not about one.** The
message of a technology that is missing or unknown stays as it was initialised, with the event zero,
which is that of the start. -/
theorem classified_iff (s : Text) :
    Classified s ↔ (lineKind s = .technology → NamesTechnology s) := by
  unfold Classified
  by_cases htech : lineKind s = .technology
  · constructor
    -- a line that names no technology is reported with an event of its own, or the shift is too far
    -- one that names a technology is in range, and its mask is known
    · intro h _
      by_contra hnames
      cases hint : firstInteger s with
      | none =>
        rw [posts_of_missing htech hint] at h
        exact not_classified htech hnames (Or.inr rfl) h.1
      | some n =>
        by_cases hrange : 0 ≤ toInt n ∧ toInt n < 32
        · rw [posts_of_range htech hint hrange] at h
          exact not_classified htech hnames (techMessage_eq_or s _) h.1
        · rw [posts_of_shiftTooFar htech hint hrange] at h
          exact h.1
    · intro h
      obtain ⟨n, hn, hint⟩ := h htech
      obtain ⟨hint', hrange⟩ := toInt_technology hn
      rw [← hint'] at hrange
      have hclass : classify s = .cellularTechEvent := by
        unfold classify
        rw [if_neg (fun hnot => hnot.2 (h htech)), htech]
        rfl
      have hknown : toInt (2 ^ (toInt n).toNat) ∈ knownMasks := by
        rw [known_iff hrange, hint']
        exact hn
      rw [posts_of_range htech hint hrange, hclass, techMessage, if_pos hknown]
      exact ⟨rfl, (by decide : (3 : ℤ) ≠ 0)⟩
  -- the event of any other line goes by its beginning
  · have hclass : classify s = (lineKind s).event := if_neg fun hnot => htech hnot.1
    have hevent : ((lineKind s).message (lineText s)).event = (classify s).code := by
      rw [hclass]
      rfl
    rw [posts_of_ne htech, hevent]
    exact iff_of_true ⟨rfl, classify_ne_startup s⟩ fun h => absurd h htech

/-- A technology that is not known is posted as the start of the modem. -/
theorem not_all_classified : ¬ ∀ s, Classified s := by
  intro h
  have hclassified := h "+CTEC: 3".toList
  unfold Classified at hclassified
  rw [posts_of_range (n := 3) (by decide) (by decide) (by decide)] at hclassified
  exact absurd hclassified (by decide)

/-! ### The text -/

theorem strStarts_of_nitz {s : Text} (h : lineKind s = .nitz) :
    strStarts s "%CTZV:".toList = true := by
  by_contra hnot
  unfold lineKind at h
  rw [if_neg hnot] at h
  split_ifs at h

theorem notMem_lineText {s : Text} (hs : NUL ∉ s) : NUL ∉ lineText s := by
  unfold lineText
  split
  · next hkind =>
    obtain ⟨t, rfl⟩ := exists_of_strStarts (strStarts_of_nitz hkind)
    have ht : NUL ∉ t := fun h => hs (List.mem_append_right _ h)
    show NUL ∉ (nextTok (some t)).1.getD []
    cases htok : (nextTok (some t)).1 with
    | none => exact List.not_mem_nil
    | some tok => exact fun h => ht (mem_of_mem_nextTok htok h)
  · exact hs

theorem text?_blank : RadioHalMsgBuffer.blank.mtext.text? = some [] :=
  CharArray.text?_zero (by decide)

/-- The text is copied when it fits, also when it leaves no room for the terminator; a longer one
leaves the field empty. -/
theorem text?_withText {text : Text} (ht : NUL ∉ text) :
    (RadioHalMsgBuffer.blank.withText text).mtext.text? =
      if text.length < 100 then some text else if text.length = 100 then none else some [] := by
  unfold RadioHalMsgBuffer.withText
  by_cases hempty : text.length = 0
  · -- the length less one wraps round, and nothing is copied
    have hguard : ¬ sizeSub text.length 1 < 100 := by
      rw [hempty]
      decide
    rw [if_neg hguard, text?_blank, if_pos (by omega), List.length_eq_zero_iff.mp hempty]
  have hsub : sizeSub text.length 1 = text.length - 1 := if_pos (by omega)
  rw [hsub]
  by_cases hlong : 100 < text.length
  · rw [if_neg (by omega), text?_blank, if_neg (by omega), if_neg (by omega)]
  · rw [if_pos (by omega)]
    dsimp only
    rw [CharArray.text?_strncpy ht]
    by_cases hfits : text.length < 100
    · rw [if_pos hfits, if_pos hfits]
    · rw [if_neg hfits, if_neg hfits, if_pos (by omega)]

/-- **What arrives with a line**: its text when that has at most 99 characters, else nothing; and in
any case it has an end. -/
def TextArrives (s : Text) (msg : RadioHalMsgBuffer) : Prop :=
  msg.mtext.text? = some (if (lineText s).length ≤ 99 then lineText s else [])

/-- **The text of a line survives the message**, in every run. -/
def KeepsText (s : Text) : Prop := Posts (TextArrives s) (fun _ => True) s

/-- The technology of a line as it is read, narrowed to an `int`. -/
def techNumber (s : Text) : Option ℤ := (firstInteger s).map toInt

/-- **The lines whose texts survive**: the text does not just fill its field; where it is not copied
it would not fit; and a shift that is too far comes with none of these. -/
structure Survives (s : Text) : Prop where
  copied : (lineKind s = .technology → ∃ n ∈ technologies, techNumber s = some n) →
    (lineText s).length ≠ 100
  dropped : lineKind s = .technology → (∀ n ∈ technologies, techNumber s ≠ some n) →
    100 ≤ s.length
  shifted : lineKind s = .technology → ∀ n, techNumber s = some n → ¬ (0 ≤ n ∧ n < 32) →
    s.length ≠ 100

section Text

variable {s : Text}

theorem arrives_message_iff (hs : NUL ∉ s) (kind : LineKind) :
    TextArrives s (kind.message (lineText s)) ↔ (lineText s).length ≠ 100 := by
  show (RadioHalMsgBuffer.blank.withText (lineText s)).mtext.text? = _ ↔ _
  rw [text?_withText (notMem_lineText hs)]
  rcases Nat.lt_trichotomy (lineText s).length 100 with hlt | heq | hgt
  · rw [if_pos hlt, if_pos (by omega)]
    exact iff_of_true rfl hlt.ne
  · rw [if_neg (by omega), if_pos heq]
    exact iff_of_false (by simp) (not_not.mpr heq)
  · rw [if_neg (by omega), if_neg (by omega), if_neg (by omega)]
    exact iff_of_true rfl hgt.ne'

theorem lineText_technology (htech : lineKind s = .technology) : lineText s = s := by
  unfold lineText
  rw [htech]
  exact if_neg (by decide)

/-- Nothing arrives only where the line would not fit. -/
theorem arrives_blank_iff (htech : lineKind s = .technology) :
    TextArrives s .blank ↔ 100 ≤ s.length := by
  have hne : s ≠ [] := by
    intro hnil
    rw [hnil] at htech
    exact absurd htech (by decide)
  unfold TextArrives
  rw [text?_blank, lineText_technology htech]
  by_cases hfits : s.length ≤ 99
  · rw [if_pos hfits]
    exact iff_of_false (fun h => hne (Option.some.inj h).symm) (by omega)
  · rw [if_neg hfits]
    exact iff_of_true rfl (by omega)

/-- The text of a line whose technology is missing is not copied, so only one that would not fit
survives. -/
theorem survives_iff_of_missing (htech : lineKind s = .technology)
    (hnone : techNumber s = none) : Survives s ↔ 100 ≤ s.length := by
  constructor
  · intro h
    refine h.dropped htech fun n _ => ?_
    simp [hnone]
  · intro h
    refine ⟨fun hknown => ?_, fun _ _ => h, fun _ n hn => ?_⟩
    · obtain ⟨n, -, hn⟩ := hknown htech
      simp [hnone] at hn
    · simp [hnone] at hn

/-- A technology in range survives: a known one unless it just fills its field, an unknown one,
which is not copied, where it would not fit. -/
theorem survives_iff_of_range (htech : lineKind s = .technology) {n : ℤ}
    (hsome : techNumber s = some n) (hrange : 0 ≤ n ∧ n < 32) :
    Survives s ↔ if n ∈ technologies then s.length ≠ 100 else 100 ≤ s.length := by
  have hunique : ∀ m, techNumber s = some m → m = n := by
    intro m hm
    exact Option.some.inj (hm.symm.trans hsome)
  by_cases hknown : n ∈ technologies
  · rw [if_pos hknown]
    constructor
    · intro h
      have hcopied := h.copied fun _ => ⟨n, hknown, hsome⟩
      rwa [lineText_technology htech] at hcopied
    · intro h
      refine ⟨fun _ => ?_, fun _ hunknown => absurd hsome (hunknown n hknown), fun _ m hm hm' => ?_⟩
      · rwa [lineText_technology htech]
      · rw [hunique m hm] at hm'
        exact absurd hrange hm'
  · rw [if_neg hknown]
    constructor
    · intro h
      refine h.dropped htech fun m hm hm' => hknown ?_
      rwa [hunique m hm'] at hm
    · intro h
      refine ⟨fun hknown' => ?_, fun _ _ => h, fun _ m hm hm' => ?_⟩
      · obtain ⟨m, hm, hm'⟩ := hknown' htech
        rw [hunique m hm'] at hm
        exact absurd hm hknown
      · rw [hunique m hm] at hm'
        exact absurd hrange hm'

/-- A technology whose shift is too far survives where the line would not fit. -/
theorem survives_iff_of_shiftTooFar (htech : lineKind s = .technology) {n : ℤ}
    (hsome : techNumber s = some n) (hrange : ¬ (0 ≤ n ∧ n < 32)) :
    Survives s ↔ 100 < s.length := by
  have hunknown : ∀ m ∈ technologies, techNumber s ≠ some m := by
    intro m hm hm'
    obtain rfl : n = m := Option.some.inj (hsome.symm.trans hm')
    exact hrange (toInt_technology hm).2
  constructor
  · intro h
    have hdropped := h.dropped htech hunknown
    have hshifted := h.shifted htech n hsome hrange
    omega
  · intro h
    refine ⟨fun hknown => ?_, fun _ _ => h.le, fun _ _ _ _ => h.ne'⟩
    obtain ⟨m, hm, hm'⟩ := hknown htech
    exact absurd hm' (hunknown m hm)

/-- **The text of a line survives the message exactly if it is one of those lines.** A text of a
hundred characters just fills its field, which is then not terminated; of one that is longer nothing
is copied. -/
theorem text_kept_iff (s : Text) (hs : NUL ∉ s) : KeepsText s ↔ Survives s := by
  unfold KeepsText
  by_cases htech : lineKind s = .technology
  -- a line about a technology goes one of three ways, by its first integer
  · have hmessage := arrives_message_iff hs .technology
    rw [lineText_technology htech] at hmessage
    have hblank := arrives_blank_iff htech
    cases hint : firstInteger s with
    | none =>
      have hnone : techNumber s = none := congrArg (Option.map toInt) hint
      rw [posts_of_missing htech hint, hblank, survives_iff_of_missing htech hnone]
    | some n =>
      have hsome : techNumber s = some (toInt n) := congrArg (Option.map toInt) hint
      by_cases hrange : 0 ≤ toInt n ∧ toInt n < 32
      · rw [posts_of_range htech hint hrange, survives_iff_of_range htech hsome hrange, techMessage]
        by_cases hknown : toInt n ∈ technologies
        · rw [if_pos ((known_iff hrange).mpr hknown), if_pos hknown, hmessage]
        · rw [if_neg fun h => hknown ((known_iff hrange).mp h), if_neg hknown, hblank]
      · rw [posts_of_shiftTooFar htech hint hrange, survives_iff_of_shiftTooFar htech hsome hrange]
        -- which mask is read behind a shift that is too far is open, so both messages must arrive
        constructor
        · intro h
          have hcopied : TextArrives s (techMessage s 1) := h.2 1
          have hdropped : TextArrives s (techMessage s 0) := h.2 0
          have hne := hmessage.mp hcopied
          have hle := hblank.mp hdropped
          omega
        · intro h
          refine ⟨trivial, fun mask => ?_⟩
          rcases techMessage_eq_or s mask with heq | heq
          · rw [heq]
            exact hmessage.mpr h.ne'
          · rw [heq]
            exact hblank.mpr h.le
  -- any other line is copied
  · rw [posts_of_ne htech, arrives_message_iff hs]
    constructor
    · intro h
      exact ⟨fun _ => h, fun h' => absurd h' htech, fun h' => absurd h' htech⟩
    · intro h
      exact h.copied fun h' => absurd h' htech

/-- A line about the registration arrives as it is. -/
theorem text_kept_creg : KeepsText "+CREG: 1".toList := by
  refine (text_kept_iff "+CREG: 1".toList (by decide)).mpr ⟨fun _ => ?_, fun h => ?_, fun h => ?_⟩
  · decide
  · exact absurd h (by decide)
  · exact absurd h (by decide)

/-- A line of a hundred characters arrives without an end. -/
theorem not_all_texts_kept : ¬ ∀ s : Text, NUL ∉ s → KeepsText s := by
  intro h
  have hs : NUL ∉ List.replicate 100 'x' := by
    intro hmem
    exact absurd (List.eq_of_mem_replicate hmem) (by decide)
  have hkind : lineKind (List.replicate 100 'x') = .other := by decide
  have hkept := h _ hs
  unfold KeepsText at hkept
  rw [posts_of_ne (by rw [hkind]; decide), arrives_message_iff hs, lineText, hkind] at hkept
  exact hkept List.length_replicate

end Text

end RadioHal
