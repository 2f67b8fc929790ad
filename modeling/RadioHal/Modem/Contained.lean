import RadioHal.Lib.Quotes
import RadioHal.Modem.EventPipe
import RadioHal.Yaml.Whitelist

/-!
# What the configuration can reach

The PIN and the access point name of a configuration file are put into a command of the modem and
into a command line that goes to the shell.  The values of a file have passed a whitelist, and that
is all that keeps them from becoming commands of their own.

## Main definitions

* `ModemConfig.Ends` — the strings of the configuration end inside it.
* `StartsNetwork apn modem cmd` — the shell runs `qmicli` for the modem with the access point name.
* `OneCommand command` — the modem takes the text for one command.
* `ModemQ.Contained ctx q` — whatever the program does with its configuration is one of these.

## Main results

* `startsNetwork_iff` — **the shell starts the session as intended exactly when each character of
  the access point name stands for itself between double quotes.**
* `onlyAsks_contained` — the event loop does nothing else with a whitelisted configuration.
* `configured_contained` — **whatever the files hold, what they hold does not become a command.**
-/

namespace RadioHal

open CLib Dialogue

/-! ### What is intended -/

/-- The last string of the configuration has its terminator, so that none runs out of it. -/
def ModemConfig.Ends (config : ModemConfig) : Prop := NUL ∈ config.atSerial.bytes

/-- The shell runs `qmicli`, which starts a session with the access point name, and nothing else. -/
def StartsNetwork (modem apn cmd : Text) : Prop :=
  Shell.quotedTokens cmd = some [.word "qmicli".toList, .word ("--device=/dev/".toList ++ modem),
    .word "--device-open-proxy".toList,
    .word ("--wds-start-network=ip-type=4,apn=".toList ++ apn),
    .word "--client-no-release-cid".toList]

/-- The modem takes the text for one command: it is on one line, and no other one follows there. -/
def OneCommand (command : Text) : Prop := '\r' ∉ command ∧ ';' ∉ command

instance (command : Text) : Decidable (OneCommand command) := instDecidableAnd

/-- A command for the modem is one command, and a command line starts the session. -/
def ModemQ.Contained (ctx : ModemContext) : ModemQ → Prop
  | .atCommand command _ _ => OneCommand command
  | .popen cmd => StartsNetwork ctx.modem ctx.apn cmd
  | _ => True

/-! ### The command line of the session -/

section CommandLine

variable {ctx : ModemContext}

/-- The command line in the parts the shell makes of it. -/
theorem startNetworkCommand_eq (hmodem : ctx.modem.length ≤ 19) (hapn : ctx.apn.length ≤ 45) :
    startNetworkCommand ctx = "qmicli".toList ++ ' ' :: (("--device=/dev/".toList ++ ctx.modem) ++
      ' ' :: ("--device-open-proxy".toList ++ ' ' :: ("--wds-start-network=".toList ++
        ('"' :: (("ip-type=4,apn=".toList ++ ctx.apn) ++
          '"' :: ' ' :: "--client-no-release-cid".toList))))) := by
  unfold startNetworkCommand prepareCmdBuf
  rw [List.take_of_length_le]
  · simp
  · simp [cmdBufferSize]
    omega

/-- **The shell starts the session as intended exactly when each character of the access point name
stands for itself between double quotes.** -/
theorem startsNetwork_iff (hplain : ∀ c ∈ ctx.modem, Shell.isPlain c = true)
    (hmodem : ctx.modem.length ≤ 19) (hapn : ctx.apn.length ≤ 45) :
    StartsNetwork ctx.modem ctx.apn (startNetworkCommand ctx) ↔
      ∀ c ∈ ctx.apn, Shell.isLiteral c = true := by
  unfold StartsNetwork
  constructor
  -- a character that is not literal would mean something to the shell
  · intro h c hc
    refine Shell.literal_of_mem_quotedTokens h
      (t := "--wds-start-network=ip-type=4,apn=".toList ++ ctx.apn) ?_ c ?_
    · simp
    · simp [hc]
  -- the line is split at its blanks, and the last word has a quoted part
  · intro hliteral
    have hdevice : ("--device=/dev/".toList ++ ctx.modem).all Shell.isPlain = true := by
      rw [List.all_append, List.all_eq_true.mpr hplain]
      decide
    have hquoted : ("ip-type=4,apn=".toList ++ ctx.apn).all Shell.isLiteral = true := by
      rw [List.all_append, List.all_eq_true.mpr hliteral]
      decide
    unfold Shell.quotedTokens
    rw [startNetworkCommand_eq hmodem hapn, Shell.splitQuoted_word (by decide) (by decide),
      Shell.splitQuoted_word (by simp) hdevice,
      Shell.splitQuoted_word (by decide) (by decide),
      Shell.splitQuoted_append (by decide) (by decide), Shell.splitQuoted_quotes hquoted,
      Shell.splitQuoted_blank, Shell.splitQuoted_last (by decide) (by decide)]
    simp [Shell.flushQuoted]

end CommandLine

/-! ### A whitelisted configuration -/

theorem isLiteral_of_allowedChar {c : Char} (h : allowedChar c = true) :
    Shell.isLiteral c = true := by
  by_contra hc
  rw [Bool.not_eq_true] at hc
  rcases Shell.isLiteral_eq_false hc with rfl | rfl | rfl | rfl
  · exact absurd h (by decide)
  · exact absurd h (by decide)
  · exact absurd h (by decide)
  · exact absurd h (by decide)

section Whitelisted

variable {ctx : ModemContext} (hends : ctx.config.Ends)
  (hwhite : ∀ f : ModemString, Whitelisted (f.array ctx.config))

include hends hwhite

/-- The characters of a string that runs through the last two fields, or through all of them. -/
theorem allowed_of_mem_cstr {earlier : Text} (h : ∀ c ∈ earlier, c = NUL ∨ allowedChar c = true)
    {c : Char} (hc : c ∈ cstr (earlier ++ ctx.config.atSerial.bytes ++ ctx.beyond)) :
    allowedChar c = true := by
  obtain ⟨rest, hrest⟩ := exists_eq_cstr_append
    (List.mem_append_right earlier hends : NUL ∈ earlier ++ ctx.config.atSerial.bytes)
  rw [hrest, List.append_assoc, List.cons_append, cstr_append_NUL (notMem_cstr _)] at hc
  have hbytes : c ∈ earlier ++ ctx.config.atSerial.bytes := (cstr_isPrefix _).subset hc
  have hne : c ≠ NUL := fun h => notMem_cstr _ (h ▸ hc)
  rcases List.mem_append.mp hbytes with hbytes | hbytes
  · exact (h c hbytes).resolve_left hne
  · exact (hwhite .atSerial c hbytes).resolve_left hne

theorem allowed_pin : ∀ c ∈ ctx.pin, allowedChar c = true :=
  fun _ hc => allowed_of_mem_cstr hends hwhite (hwhite .pin) hc

theorem allowed_apn : ∀ c ∈ ctx.apn, allowedChar c = true := by
  intro c hc
  have hearlier : ∀ d ∈ ctx.config.apn.bytes ++ ctx.config.pin.bytes,
      d = NUL ∨ allowedChar d = true :=
    List.forall_mem_append.mpr ⟨hwhite .apn, hwhite .pin⟩
  exact allowed_of_mem_cstr hends hwhite hearlier hc

omit hwhite in
/-- The access point name is no longer than the configuration. -/
theorem length_apn_le : ctx.apn.length ≤ 45 := by
  obtain ⟨rest, hrest⟩ := exists_eq_cstr_append (List.mem_append_right
    (ctx.config.apn.bytes ++ ctx.config.pin.bytes) hends)
  have hlength := congrArg List.length hrest
  unfold ModemContext.apn
  rw [hrest, List.append_assoc, List.cons_append, cstr_append_NUL (notMem_cstr _)]
  simp only [List.length_append, List.length_cons, ctx.config.apn.length_bytes,
    ctx.config.pin.length_bytes, ctx.config.atSerial.length_bytes] at hlength
  omega

/-- The command that tries the PIN is one command. -/
theorem oneCommand_cpinCommand : OneCommand (cpinCommand ctx.pin) := by
  have hchar : ∀ d, allowedChar d = false → d ∉ "AT+CPIN=\"".toList → d ≠ '"' →
      d ∉ cpinCommand ctx.pin := by
    intro d hd hfront hquote hmem
    have hmem' := List.mem_of_mem_take hmem
    simp only [List.mem_append] at hmem'
    rcases hmem' with (hmem' | hmem') | hmem'
    · exact hfront hmem'
    · rw [allowed_pin hends hwhite d hmem'] at hd
      cases hd
    · exact hquote (by simpa using hmem')
  exact ⟨hchar '\r' (by decide) (by decide) (by decide),
    hchar ';' (by decide) (by decide) (by decide)⟩

end Whitelisted

/-! ### The event loop -/

/-- The commands of the initialisations are one command each. -/
theorem oneCommand_initialisations : ∀ x ∈ initialisations, OneCommand x := by decide

section Contained

variable {ctx : ModemContext}

theorem onlyAsks_modemHalConnect_contained (hpin : OneCommand (cpinCommand ctx.pin))
    (hstart : StartsNetwork ctx.modem ctx.apn (startNetworkCommand ctx)) :
    OnlyAsks (ModemQ.Contained ctx) (modemHalConnect ctx) := by
  have hcpin : OneCommand "AT+CPIN?".toList := by decide
  have hqpinc : OneCommand "AT+QPINC?".toList := by decide
  have hcgreg : OneCommand "AT+CGREG?".toList := by decide
  unfold modemHalConnect
  apply (onlyAsks_modemHalCheckPinStatus trivial hcpin).bind
  intro status
  apply (onlyAsks_verifySim ctx trivial hqpinc hpin hcpin status).bind
  intro verified
  split
  · trivial
  · apply (onlyAsks_initialiseModem oneCommand_initialisations).bind
    intro _
    apply (onlyAsks_registrationLoop trivial trivial hcgreg 10 none).bind
    intro ret
    split
    · trivial
    · exact onlyAsks_startNetwork ctx hstart

theorem onlyAsks_handleEvent_contained
    (hconnect : OnlyAsks (ModemQ.Contained ctx) (modemHalConnect ctx)) (l : EventLoop) :
    OnlyAsks (ModemQ.Contained ctx) (handleEvent ctx l) := by
  unfold handleEvent
  split
  · refine OnlyAsks.bind ?_ fun _ => trivial
    unfold modemStateMachine initHandler
    split
    · apply hconnect.bind
      intro ret
      split
      · exact ⟨trivial, fun _ => trivial⟩
      · trivial
    · split
      · trivial
      · trivial
  · trivial

/-- **The event loop does nothing else with a whitelisted configuration.**  The texts it makes of it
are the command for the PIN and the command line of `qmicli`. -/
theorem onlyAsks_contained (hends : ctx.config.Ends)
    (hwhite : ∀ f : ModemString, Whitelisted (f.array ctx.config))
    (hplain : ∀ c ∈ ctx.modem, Shell.isPlain c = true) (hmodem : ctx.modem.length ≤ 19) (n : ℕ) :
    OnlyAsks (ModemQ.Contained ctx) (modemEvents ctx n) := by
  have hliteral : ∀ c ∈ ctx.apn, Shell.isLiteral c = true := by
    intro c hc
    exact isLiteral_of_allowedChar (allowed_apn hends hwhite c hc)
  have hstart := (startsNetwork_iff hplain hmodem (length_apn_le hends)).mpr hliteral
  have hconnect : OnlyAsks (ModemQ.Contained ctx) (modemHalConnect ctx) :=
    onlyAsks_modemHalConnect_contained (oneCommand_cpinCommand hends hwhite) hstart
  have hfirst : OneCommand "AT+CGREG?\n".toList := by decide
  unfold modemEvents
  rw [atSendCommand_bind]
  refine ⟨hfirst, fun _ => onlyAsks_iterate ?_ n _⟩
  intro l
  unfold modemEventsRound
  split
  · exact ⟨trivial, fun msg => onlyAsks_handleEvent_contained hconnect _⟩
  · exact onlyAsks_handleEvent_contained hconnect l

end Contained

/-! ### From the files to the commands -/

/-- **Whatever the files hold, what they hold does not become a command**: in every run of the event
loop on the configuration that was read from them, each AT command is one command, and each command
line runs `qmicli` with the access point name as it was configured.  The whitelist leaves neither
line changes nor what means something inside of quotation marks; the last string of the
configuration must be terminated, as the others run on into it. -/
theorem configured_contained {fopen : Text → Opened} {fuel : ℕ} {confStruct conf : ConfStruct}
    {configFiles : Text} {r : ℤ} {ctx : ModemContext} {n : ℕ} {t : List (Exchange ModemQ ModemA)}
    {p : ModemM EventLoop} (hbefore : confStruct.Whitelisted)
    (hread : radioHalYamlConfig fopen fuel confStruct configFiles .modem = some (r, conf))
    (hconfig : ctx.config = conf.modem 0) (hends : ctx.config.Ends)
    (hplain : ∀ c ∈ ctx.modem, Shell.isPlain c = true) (hmodem : ctx.modem.length ≤ 19)
    (hrun : After (modemEvents ctx n) t p) : ∀ x ∈ t, x.1.Contained ctx := by
  have hconf : conf.Whitelisted := by
    unfold radioHalYamlConfig at hread
    split at hread
    · obtain ⟨-, rfl⟩ := Prod.mk.inj (Option.some.inj hread)
      exact hbefore
    · exact whitelisted_configFilesLoop hbefore hread
  have hwhite : ∀ f : ModemString, Whitelisted (f.array ctx.config) := by
    intro f
    rw [hconfig]
    exact hconf.modem 0 f
  exact (onlyAsks_contained hends hwhite hplain hmodem n).of_mem hrun

/-- A file that gives an access point name. -/
def apnFile : Scan :=
  ⟨[.other, .key, .scalar "apn".toList, .value, .scalar "internet".toList], .streamEnd, by decide⟩

/-- The configuration that the file leads to, with nothing but an access point name. -/
def apnConfig : ModemConfig :=
  { ModemConfig.zero with apn := CharArray.strncpy 20 "internet".toList }

/-- The slots that the file leads to. -/
def apnSlots : ConfStruct :=
  { ConfStruct.zero with modem := Function.update ConfStruct.zero.modem 0 apnConfig }

/-- A round of the event loop on a modem that is ready and registered. -/
def apnRun : List (Exchange ModemQ ModemA) × ModemM EventLoop :=
  play registeredScript 30 (modemEvents ⟨apnConfig, [], "cdc-wdm0".toList⟩ 1)

/-- The session is started with the name of the file. -/
theorem configured_contained_apn :
    (∃ x ∈ apnRun.1, x.1 = .popen (startNetworkCommand ⟨apnConfig, [], "cdc-wdm0".toList⟩)) ∧
      ∀ x ∈ apnRun.1, x.1.Contained ⟨apnConfig, [], "cdc-wdm0".toList⟩ := by
  have hread : radioHalYamlConfig (fun _ => .scanning apnFile) 10 .zero "modem.yaml".toList .modem =
      some (0, apnSlots) := rfl
  have hends : apnConfig.Ends := by
    unfold ModemConfig.Ends
    decide
  refine ⟨⟨_, List.mem_of_getLast? (a := ⟨.popen _, some ⟨[], 1⟩⟩) rfl, rfl⟩, ?_⟩
  exact configured_contained ConfStruct.whitelisted_zero hread rfl hends
    (List.all_eq_true.mp rfl) (by decide) (after_play registeredScript 30 _)

end RadioHal
