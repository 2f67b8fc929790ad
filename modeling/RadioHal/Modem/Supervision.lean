import RadioHal.Modem.EventPipe

/-!
# What the event loop does about the session

`modem_events` connects until a session is started.  From then on it reads events, and whatever they
are it stays where it is: no event makes it connect again, also not the one that says that the modem
has lost its network.

## Main definitions

* `sessionsRun ctx t` — the programs that have been run for a session.
* `Connecting` — a question on the way to a session.
* `SessionInv` — the state of the loop, by what has been run.

## Main results

* `wp_connect_sessions` — an attempt to connect runs the program, or it reports failure.
* `wp_round_sessions` — one round of the loop.
* `session_run_once` — **at every moment of every run an event is read next exactly when a session
  has been started, and no second one is started ever.**
-/

namespace RadioHal

open CLib Dialogue

/-- The programs that have been run for a session. -/
def sessionsRun (ctx : ModemContext) (t : Transcript) : List Process :=
  (startedSessions ctx t).filterMap id

/-- A question on the way to a session, other than the last one. -/
def Connecting : ModemQ → Prop
  | .readEvent => False
  | .popen _ => False
  | _ => True

/-- There is one session at most, and an event is read exactly when there is one. -/
structure Supervises (ctx : ModemContext) (t : Transcript) (q : ModemQ) : Prop where
  once : (sessionsRun ctx t).length ≤ 1
  reads_iff : q = .readEvent ↔ sessionsRun ctx t ≠ []

theorem Supervises.of_none {ctx : ModemContext} {t : Transcript} {q : ModemQ}
    (ht : sessionsRun ctx t = []) (hq : q ≠ .readEvent) : Supervises ctx t q :=
  ⟨by simp [ht], iff_of_false hq (not_not_intro ht)⟩

section Attempt

variable {ctx : ModemContext} {t : Transcript} {α : Type} {p : ModemM α}

theorem sessionsRun_append (e : Exchange ModemQ ModemA) :
    sessionsRun ctx (t ++ [e]) = sessionsRun ctx t ++ sessionsRun ctx [e] := by
  unfold sessionsRun
  rw [startedSessions_append, List.filterMap_append]

theorem sessionsRun_popen (f : Option Process) :
    sessionsRun ctx (t ++ [⟨.popen (startNetworkCommand ctx), f⟩]) =
      sessionsRun ctx t ++ f.toList := by
  unfold sessionsRun
  rw [startedSessions_popen, List.filterMap_append]
  cases f with
  | none => rfl
  | some process => rfl

theorem sessionsRun_other {q : ModemQ} (hq : ∀ cmd, q ≠ .popen cmd) (a : ModemA q) :
    sessionsRun ctx (t ++ [⟨q, a⟩]) = sessionsRun ctx t := by
  have hnone : sessionsRun ctx [⟨q, a⟩] = [] := by
    cases q with
    | popen cmd => exact absurd rfl (hq cmd)
    | _ => rfl
  rw [sessionsRun_append, hnone, List.append_nil]

/-- On the way to a session none is started. -/
theorem wp_of_connecting (hp : OnlyAsks Connecting p) (ht : sessionsRun ctx t = []) :
    wp history (Supervises ctx) (fun _ t' => sessionsRun ctx t' = []) p t := by
  apply wp_of_onlyAsks (fun t => sessionsRun ctx t = []) hp
  · intro q t hq ht
    refine .of_none ht ?_
    rintro rfl
    exact hq
  · rintro q a t t' hq ht rfl
    rw [sessionsRun_other _ a]
    · exact ht
    · rintro cmd rfl
      exact hq
  · exact ht

/-- What an attempt to connect comes to: it fails without a session, or it ran one. -/
def Attempted (ctx : ModemContext) (v : ℤ) (t : Transcript) : Prop :=
  (v ≠ 0 ∧ sessionsRun ctx t = []) ∨ (v = 0 ∧ ∃ process, sessionsRun ctx t = [process])

theorem wp_startNetwork_sessions (ht : sessionsRun ctx t = []) :
    wp history (Supervises ctx) (Attempted ctx) (startNetwork ctx) t := by
  unfold startNetwork modemHalRunSysCmd
  refine ⟨.of_none ht (by simp), fun f t' ht' => ?_⟩
  have hrun : sessionsRun ctx t' = (f : Option Process).toList := by
    rw [ht', sessionsRun_popen, ht, List.nil_append]
  cases f with
  | none => exact Or.inl ⟨by decide, hrun⟩
  | some process => exact Or.inr ⟨rfl, process, hrun⟩

theorem connecting_command (command : Text) (type : ATCommandType) (responsePrefix : Text) :
    Connecting (.atCommand command type responsePrefix) := trivial

/-- **An attempt to connect runs the program, or it reports failure.**  It runs it once at most, as
the last thing it does. -/
theorem wp_connect_sessions (ht : sessionsRun ctx t = []) :
    wp history (Supervises ctx) (Attempted ctx) (modemHalConnect ctx) t := by
  have hfailed : ∀ t', sessionsRun ctx t' = [] →
      wp history (Supervises ctx) (Attempted ctx) (ret (-1) : ModemM ℤ) t' :=
    fun t' ht' => Or.inl ⟨by decide, ht'⟩
  unfold modemHalConnect
  rw [wp_bind]
  -- up to the last step only commands are sent
  have hcheck : OnlyAsks Connecting modemHalCheckPinStatus :=
    onlyAsks_modemHalCheckPinStatus trivial (connecting_command ..)
  refine wp_consequence (wp_of_connecting hcheck ht) fun status t₁ h₁ => ?_
  rw [wp_bind]
  have hverify : OnlyAsks Connecting (verifySim ctx status) :=
    onlyAsks_verifySim ctx trivial (connecting_command ..) (connecting_command ..)
      (connecting_command ..) status
  refine wp_consequence (wp_of_connecting hverify h₁) fun verified t₂ h₂ => ?_
  split
  · exact hfailed t₂ h₂
  · rw [wp_bind]
    have hset : OnlyAsks Connecting initialiseModem :=
      onlyAsks_initialiseModem fun _ _ => trivial
    refine wp_consequence (wp_of_connecting hset h₂) fun _ t₃ h₃ => ?_
    rw [wp_bind]
    have hpoll : OnlyAsks Connecting modemHalGetRegistrationStatus :=
      onlyAsks_registrationLoop trivial trivial (connecting_command ..) 10 none
    refine wp_consequence (wp_of_connecting hpoll h₃) fun v t₄ h₄ => ?_
    split
    · exact hfailed t₄ h₄
    -- the last step runs the only session
    · exact wp_startNetwork_sessions h₄

end Attempt

/-! ### The loop -/

section Loop

variable {ctx : ModemContext} {l : EventLoop} {t : Transcript}

/-- **The state of the loop, by what has been run**: one session at most. -/
def SessionInv (ctx : ModemContext) (l : EventLoop) (t : Transcript) : Prop :=
  (l.state = .init ∧ l.newEvent = ModemSystemEvent.startupEvent.code ∧ sessionsRun ctx t = []) ∨
    (l.state = .ifUp ∧ ∃ process, sessionsRun ctx t = [process])

/-- With a session nothing leads out of the state, and nothing is asked. -/
theorem wp_handleEvent_ifUp (hl : l.state = .ifUp) {process : Process}
    (ht : sessionsRun ctx t = [process]) :
    wp history (Supervises ctx) (SessionInv ctx) (handleEvent ctx l) t := by
  unfold handleEvent
  split
  · rw [wp_bind]
    unfold modemStateMachine
    rw [if_neg (by simp [hl])]
    split
    · exact Or.inr ⟨rfl, process, ht⟩
    · exact Or.inr ⟨hl, process, ht⟩
  · exact Or.inr ⟨hl, process, ht⟩

theorem wp_handleEvent_init (hl : l.state = .init)
    (hevent : l.newEvent = ModemSystemEvent.startupEvent.code) (ht : sessionsRun ctx t = []) :
    wp history (Supervises ctx) (SessionInv ctx) (handleEvent ctx l) t := by
  unfold handleEvent
  rw [if_pos ⟨by simp [hl], by rw [hevent]; decide⟩, wp_bind]
  unfold modemStateMachine initHandler
  rw [if_pos ⟨hl, hevent⟩, wp_bind]
  refine wp_consequence (wp_connect_sessions ht) fun v t' hv => ?_
  rcases hv with ⟨hne, hnone⟩ | ⟨hzero, process, hrun⟩
  · rw [if_pos hne]
    refine ⟨.of_none hnone (by simp), fun a t'' ht'' => ?_⟩
    refine Or.inl ⟨rfl, hevent, ?_⟩
    rw [ht'', sessionsRun_other (by simp) a]
    exact hnone
  · rw [if_neg (not_not_intro hzero)]
    exact Or.inr ⟨rfl, process, hrun⟩

/-- **One round of the loop** makes one attempt to connect, or none.  It makes none once an attempt
has succeeded, and reads an event instead. -/
theorem wp_round_sessions (h : SessionInv ctx l t) :
    wp history (Supervises ctx) (SessionInv ctx) (modemEventsRound ctx l) t := by
  unfold modemEventsRound
  rcases h with ⟨hstate, hevent, ht⟩ | ⟨hstate, process, ht⟩
  · rw [if_neg (not_not_intro hstate)]
    exact wp_handleEvent_init hstate hevent ht
  · rw [if_pos (by simp [hstate])]
    refine ⟨⟨by simp [ht], iff_of_true rfl (by simp [ht])⟩, fun msg t' ht' => ?_⟩
    have hrun : sessionsRun ctx t' = [process] := by
      rw [ht', sessionsRun_other (by simp) msg, ht]
    exact wp_handleEvent_ifUp hstate hrun

/-- **At every moment of every run an event is read next exactly when a session has been started,
and no second one is started ever.** The loop connects in its first state only, and leaves it when
the connection has been made. -/
theorem session_run_once {n : ℕ} {p : ModemM EventLoop} (hrun : After (modemEvents ctx n) t p) :
    (sessionsRun ctx t).length ≤ 1 ∧
      ∀ q k, p = ask q k → (q = .readEvent ↔ sessionsRun ctx t ≠ []) := by
  have hwp : wp history (Supervises ctx) (SessionInv ctx) (modemEvents ctx n) [] := by
    unfold modemEvents
    rw [atSendCommand_bind]
    refine ⟨.of_none rfl (by simp), fun a t' ht' => ?_⟩
    refine wp_iterate (SessionInv ctx) (fun l t h => wp_round_sessions h) n _ t' (Or.inl ?_)
    refine ⟨rfl, rfl, ?_⟩
    rw [ht', sessionsRun_other (by simp) a]
    rfl
  have hp := wp_after hrun hwp
  cases p with
  | ret l =>
    refine ⟨?_, fun q k h => absurd h (by simp)⟩
    rcases hp with ⟨-, -, ht⟩ | ⟨-, process, ht⟩
    · simp [ht]
    · simp [ht]
  | ask q k =>
    refine ⟨hp.1.once, fun q' k' h => ?_⟩
    obtain ⟨rfl, -⟩ := Dialogue.ask.inj h
    exact hp.1.reads_iff

end Loop

/-- Three rounds of the loop on a modem that is ready and registered. -/
def supervisedRun : Transcript × ModemM EventLoop :=
  play registeredScript 30 (modemEvents plainContext 3)

/-- The session is started once, and the rounds behind it read events. -/
theorem session_run_once_registered :
    (supervisedRun.1.map Sigma.fst).drop 18 =
        [.popen (startNetworkCommand plainContext), .readEvent, .readEvent] ∧
      (sessionsRun plainContext supervisedRun.1).length ≤ 1 :=
  ⟨by decide, (session_run_once (after_play registeredScript 30 _)).1⟩

end RadioHal
