import RadioHal.Modem.Connect

/-!
# What the connection asks

Each function of the connection asks a few questions only.  Stated for any predicate that holds of
those, this gives at once whatever is to be known of them: that a PIN is not tried, that no session
is started, that the event pipe is left alone.

## Main results

* `onlyAsks_initialiseModem`, `onlyAsks_registrationLoop`, … — the questions of each function.
* `onlyAsks_modemHalConnect` — **those of the whole connection.**
-/

namespace RadioHal

open CLib Dialogue

section Asked

variable {P : ModemQ → Prop}

theorem onlyAsks_deref {α : Type} (hnull : P .nullDeref) (x : Option α) : OnlyAsks P (deref x) := by
  cases x with
  | none => exact ⟨hnull, fun e : Empty => e.elim⟩
  | some a => trivial

theorem onlyAsks_firstIntermediate (hnull : P .nullDeref) (r : Option ATResponse) :
    OnlyAsks P (firstIntermediate r) :=
  (onlyAsks_deref hnull r).bind fun _ => onlyAsks_deref hnull _

/-! ### The card -/

theorem onlyAsks_modemHalCheckPinStatus (hnull : P .nullDeref)
    (hcpin : P (.atCommand "AT+CPIN?".toList .singleline "+CPIN:".toList)) :
    OnlyAsks P modemHalCheckPinStatus := by
  unfold modemHalCheckPinStatus
  rw [atSendCommandSingleline_bind]
  refine ⟨hcpin, fun a => ?_⟩
  dsimp only
  split
  · trivial
  · apply (onlyAsks_deref hnull _).bind
    intro p
    split
    · exact (onlyAsks_deref hnull _).bind fun line => trivial
    · split <;> trivial

theorem onlyAsks_modemHalGetNumretries (huninit : P .uninit)
    (hqpinc : P (.atCommand "AT+QPINC?".toList .multiline "+QPINC".toList)) (request : RilRequest) :
    OnlyAsks P (modemHalGetNumretries request) := by
  unfold modemHalGetNumretries
  simp only [query_bind, atSendCommandMultiline_bind]
  refine ⟨huninit, fun _ => ⟨huninit, fun _ => ⟨huninit, fun _ => ⟨huninit, fun _ => ?_⟩⟩⟩⟩
  refine ⟨hqpinc, fun a => ?_⟩
  dsimp only
  split
  · trivial
  · split
    · trivial
    · split
      · trivial
      · split <;> trivial

theorem onlyAsks_cpinCheck
    (hcpin : P (.atCommand "AT+CPIN?".toList .singleline "+CPIN:".toList)) :
    OnlyAsks P cpinCheck := by
  unfold cpinCheck
  rw [atSendCommandSingleline_bind]
  refine ⟨hcpin, fun a => ?_⟩
  dsimp only
  cases hp : singlelineResponse "+CPIN:".toList a with
  | none =>
    rw [if_pos (singleline_err_neg none hp)]
    trivial
  | some p =>
    obtain ⟨hres, hline⟩ := singleline_of_response none hp
    rw [hres, if_neg (by simp), deref_some, ret_bind]
    split
    · trivial
    · next hsucc =>
      -- a success came with its line
      obtain ⟨line, rest, hlines⟩ := List.exists_cons_of_ne_nil (hline (by simpa using hsucc))
      rw [hlines]
      trivial

theorem onlyAsks_enterSimPin (pin : Text) (hpin : P (.atCommand (cpinCommand pin) .noResult []))
    (hcpin : P (.atCommand "AT+CPIN?".toList .singleline "+CPIN:".toList)) :
    OnlyAsks P (enterSimPin pin) := by
  unfold enterSimPin
  rw [atSendCommand_bind]
  refine ⟨hpin, fun a => ?_⟩
  dsimp only
  split
  · trivial
  · next herr =>
    obtain ⟨p, hp⟩ := exists_response_of_nonneg herr
    rw [hp, deref_some, ret_bind]
    split
    · trivial
    · exact onlyAsks_cpinCheck hcpin

theorem onlyAsks_verifySim (ctx : ModemContext) (huninit : P .uninit)
    (hqpinc : P (.atCommand "AT+QPINC?".toList .multiline "+QPINC".toList))
    (hpin : P (.atCommand (cpinCommand ctx.pin) .noResult []))
    (hcpin : P (.atCommand "AT+CPIN?".toList .singleline "+CPIN:".toList)) (status : SimStatus) :
    OnlyAsks P (verifySim ctx status) := by
  cases status with
  | pin =>
    apply (onlyAsks_modemHalGetNumretries huninit hqpinc _).bind
    intro n
    split
    · exact (onlyAsks_enterSimPin _ hpin hcpin).bind fun _ => trivial
    · trivial
  | _ => trivial

/-! ### The set-up -/

theorem onlyAsks_sendAll {commands : List Text}
    (h : ∀ x ∈ commands, P (.atCommand x .noResult [])) : OnlyAsks P (sendAll commands) := by
  induction commands with
  | nil => trivial
  | cons command rest ih =>
    rw [sendAll, atSendCommand_bind]
    exact ⟨h command List.mem_cons_self, fun _ => ih fun x hx => h x (List.mem_cons_of_mem _ hx)⟩

/-- The commands of the initialisations: those of `initialiseModem`, and the setup commands behind
them. -/
def initialisations : List Text :=
  ["ATS0=0".toList, "AT+CMEE=1".toList, "AT+CREG=2".toList, "AT+CREG=1".toList] ++ setupCommands

theorem onlyAsks_initialiseModem (h : ∀ x ∈ initialisations, P (.atCommand x .noResult [])) :
    OnlyAsks P initialiseModem := by
  obtain ⟨hfirst, hsetup⟩ := List.forall_mem_append.mp h
  simp only [List.mem_cons, List.not_mem_nil, or_false, forall_eq_or_imp, forall_eq] at hfirst
  obtain ⟨hats, hcmee, hcreg2, hcreg1⟩ := hfirst
  have hstart : OnlyAsks P (sendAll ["ATS0=0".toList, "AT+CMEE=1".toList]) :=
    onlyAsks_sendAll (by simp only [List.forall_mem_cons]; exact ⟨hats, hcmee, by simp⟩)
  have hcreg : OnlyAsks P (sendAll ["AT+CREG=1".toList]) :=
    onlyAsks_sendAll (by simpa only [List.forall_mem_singleton] using hcreg1)
  unfold initialiseModem
  apply hstart.bind
  intro _
  rw [atSendCommand_bind]
  refine ⟨hcreg2, fun a => ?_⟩
  dsimp only
  split
  · exact hcreg.bind fun _ => onlyAsks_sendAll hsetup
  · next herr =>
    obtain ⟨p, hp⟩ := exists_response_of_nonneg herr
    rw [hp, deref_some, ret_bind]
    split
    · exact hcreg.bind fun _ => onlyAsks_sendAll hsetup
    · exact onlyAsks_sendAll hsetup

/-! ### Registration and session -/

theorem onlyAsks_registrationQuery (hnull : P .nullDeref)
    (hcgreg : P (.atCommand "AT+CGREG?".toList .singleline "+CGREG:".toList))
    (pResponse : Option ATResponse) : OnlyAsks P (registrationQuery pResponse) := by
  unfold registrationQuery
  rw [atSendCommandSingleline_bind]
  refine ⟨hcgreg, fun a => ?_⟩
  dsimp only
  split
  · trivial
  · exact (onlyAsks_firstIntermediate hnull _).bind fun line => trivial

theorem onlyAsks_registrationLoop (hnull : P .nullDeref) (hsleep : P (.sleep 1))
    (hcgreg : P (.atCommand "AT+CGREG?".toList .singleline "+CGREG:".toList)) (left : ℕ)
    (pResponse : Option ATResponse) : OnlyAsks P (registrationLoop left pResponse) := by
  induction left generalizing pResponse with
  | zero => exact (onlyAsks_registrationQuery hnull hcgreg _).bind fun _ => trivial
  | succ left ih =>
    apply (onlyAsks_registrationQuery hnull hcgreg _).bind
    intro r
    split
    · trivial
    · split
      · exact ⟨hsleep, fun _ => ih _⟩
      · trivial

theorem onlyAsks_startNetwork (ctx : ModemContext) (hpopen : P (.popen (startNetworkCommand ctx))) :
    OnlyAsks P (startNetwork ctx) := by
  unfold startNetwork modemHalRunSysCmd
  refine ⟨hpopen, fun f => ?_⟩
  cases f with
  | none => trivial
  | some process => trivial

/-- **The whole connection** asks no more than its functions do: any command, what the locals hold,
a pause of one second, and one command line for `popen`. -/
theorem onlyAsks_modemHalConnect (ctx : ModemContext)
    (hcommand : ∀ command type responsePrefix, P (.atCommand command type responsePrefix))
    (huninit : P .uninit) (hnull : P .nullDeref) (hsleep : P (.sleep 1))
    (hpopen : P (.popen (startNetworkCommand ctx))) : OnlyAsks P (modemHalConnect ctx) := by
  unfold modemHalConnect
  apply (onlyAsks_modemHalCheckPinStatus hnull (hcommand _ _ _)).bind
  intro status
  apply (onlyAsks_verifySim ctx huninit (hcommand _ _ _) (hcommand _ _ _) (hcommand _ _ _) _).bind
  intro verified
  split
  · trivial
  · apply (onlyAsks_initialiseModem fun x _ => hcommand x _ _).bind
    intro _
    apply (onlyAsks_registrationLoop hnull hsleep (hcommand _ _ _) 10 none).bind
    intro ret
    split
    · trivial
    · exact onlyAsks_startNetwork ctx hpopen

end Asked

end RadioHal
