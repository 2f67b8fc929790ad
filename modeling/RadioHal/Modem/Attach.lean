import RadioHal.Lib.Memory
import RadioHal.Lib.Shell
import RadioHal.Modem.Asked
import RadioHal.Modem.FirstLine

/-!
# The selection of the modem

`modem_hal_serial_attach` looks for the modem with `ls`, asks `qmicli` for its network interface,
and turns on the raw mode of that interface with `echo`.  The output of each program loses one final
line change, is copied to a field of twenty bytes, and is put into the command line of the next.

## Main definitions

* `atHandshake`, `modemHalFindModem`, `modemHalFindWwan`, `modemHalSerialAttach` — the source.
* `popens t` — the programs started in a run.
* `SelectsOne` — one device and one interface are selected, and the command lines name them.
* `OutputInOrder` — what is kept of an output is a single name, or not accepted at all.
* `AttachInOrder` — no reply lacks its line, and the two outputs that are used are in order.

## Main results

* `outputInOrder_iff` — an output in order, by the text itself.
* `queriesDevice_iff`, `setsRawIp_iff` — a command line names one thing when this is a plain word.
* `attach_selects_one_iff` — **one modem is selected exactly when the outputs are in order.**
-/

namespace RadioHal

open CLib Dialogue

/-! ### The source -/

/-- What `modem_softc` keeps of the modem: the names of its device and of its interface. -/
structure ModemSoftc where
  modem : CharArray 20
  wwan : CharArray 20
  deriving DecidableEq

def ModemSoftc.modemName (sc : ModemSoftc) : Text := cstr sc.modem.bytes

def ModemSoftc.wwanName (sc : ModemSoftc) : Text := cstr sc.wwan.bytes

/-- How attaching ends: it returns, or `strcpy` writes behind its field. -/
inductive AttachOutcome
  | returned (ret : ℤ) (sc : ModemSoftc)
  | overrun
  deriving DecidableEq

/-- The attempts of `at_handshake` that are left.  One that times out fails like any other. -/
def handshakeLoop : ℕ → ℤ → ModemM ℤ
  | 0, err => return err
  | n + 1, _ => do
    let r ← atSendCommandFull "ATE0Q0V1".toList .noResult [] none
    if r.err = 0 then return 0 else handshakeLoop n r.err

/-- `at_handshake`; `HANDSHAKE_RETRY_COUNT` is eight.  The pause behind a success is left out. -/
def atHandshake : ModemM ℤ := handshakeLoop 8 0

/-- `replace_line_change` of the modem HAL: the text without its final line change; none where it
has none. -/
def Modem.replaceLineChange (buf : Text) : Option Text :=
  if buf.getLast? = some '\n' then some buf.dropLast else none

/-- The size of the response buffer that is handed on. -/
def attachLen : ℕ := respBufferSize - 1

/-- The output of a program, without its final line change; none is the return value `-1`. -/
def sysCmdLine (cmd : Text) : ModemM (Option Text) := do
  let r ← modemHalRunSysCmd cmd attachLen
  if r.1 ≠ 0 then return none else return Modem.replaceLineChange r.2

/-- The command line that lists the modems. -/
def findModemCommand : Text := "ls /sys/class/usbmisc/ |grep cdc".toList

/-- `modem_hal_find_modem`. -/
def modemHalFindModem : ModemM (Option Text) := sysCmdLine findModemCommand

/-- The command line that asks for the network interface of a modem. -/
def findWwanCommand (modem : Text) : Text :=
  prepareCmdBuf cmdBufferSize
    ("qmicli --device=/dev/".toList ++ modem ++ " --get-wwan-iface".toList)

/-- `modem_hal_find_wwan`. -/
def modemHalFindWwan (modem : Text) : ModemM (Option Text) := sysCmdLine (findWwanCommand modem)

/-- The command line that turns on the raw mode of an interface. -/
def rawIpCommand (wwan : Text) : Text :=
  prepareCmdBuf cmdBufferSize
    ("echo Y > /sys/class/net/".toList ++ wwan ++ "/qmi/raw_ip".toList)

/-- The last part of `modem_hal_serial_attach`, which switches the interface to raw IP. -/
def setRawIp (sc : ModemSoftc) : ModemM AttachOutcome := do
  let r ← modemHalRunSysCmd (rawIpCommand sc.wwanName) attachLen
  if r.1 ≠ 0 then return .returned (-1) sc else return .returned 0 sc

/-- The part of `modem_hal_serial_attach` that selects the network interface. -/
def selectWwan (sc : ModemSoftc) : ModemM AttachOutcome := do
  let respBuf ← modemHalFindWwan sc.modemName
  match respBuf with
  | none => return .returned (-1) sc
  | some wwan =>
    match sc.wwan.strcpy wwan with
    | none => return .overrun
    | some field => setRawIp { sc with wwan := field }

/-- The part of `modem_hal_serial_attach` that selects the modem. -/
def selectModem (sc : ModemSoftc) : ModemM AttachOutcome := do
  let respBuf ← modemHalFindModem
  match respBuf with
  | none => return .returned (-1) sc
  | some modem =>
    match sc.modem.strcpy modem with
    | none => return .overrun
    | some field => selectWwan { sc with modem := field }

/-- `modem_hal_serial_attach`. -/
def modemHalSerialAttach (sc : ModemSoftc) : ModemM AttachOutcome := do
  let err ← atHandshake
  if err ≠ 0 then return .returned (-1) sc
  let ret ← modemHalCheckModem
  if ret ≠ 0 then return .returned (-1) sc
  selectModem sc

/-! ### One modem -/

/-- The programs started in a run: their command lines, and what came of them. -/
def popens (t : List (Exchange ModemQ ModemA)) : List (Text × Option Process) :=
  t.filterMap fun x =>
    match x with
    | ⟨.popen cmd, f⟩ => some (cmd, f)
    | _ => none

/-- The text is one line of an output, and neither empty nor too long for its field. -/
structure IsName (name out : Text) : Prop where
  ne_nil : name ≠ []
  length_le : name.length ≤ 19
  noLineChange : '\n' ∉ name
  line : ∃ a b, out = a ++ name ++ '\n' :: b ∧ (a = [] ∨ a.getLast? = some '\n')

/-- The modem is one device of the listing. -/
def DeviceSelected (ran : List (Text × Option Process)) (sc : ModemSoftc) : Prop :=
  ∃ p, ran[0]? = some (findModemCommand, some p) ∧ IsName sc.modemName p.output

/-- The interface is one line of what the second program has reported. -/
def InterfaceSelected (ran : List (Text × Option Process)) (sc : ModemSoftc) : Prop :=
  ∃ cmd p, ran[1]? = some (cmd, some p) ∧ IsName sc.wwanName p.output

/-- The shell runs `qmicli` with the device, and nothing else. -/
def QueriesDevice (name cmd : Text) : Prop :=
  Shell.tokens cmd = some [.word "qmicli".toList, .word ("--device=/dev/".toList ++ name),
    .word "--get-wwan-iface".toList]

/-- The shell writes `Y` to the `raw_ip` file of the interface, and does nothing else. -/
def SetsRawIp (name cmd : Text) : Prop :=
  Shell.tokens cmd = some [.word "echo".toList, .word "Y".toList, .op '>',
    .word ("/sys/class/net/".toList ++ name ++ "/qmi/raw_ip".toList)]

/-- **One modem is selected**, and the command lines of the attach are about it. -/
structure SelectsOne (ran : List (Text × Option Process)) (r : ℤ) (sc : ModemSoftc) : Prop where
  /-- `-1` is returned, or one device and one interface are left in their fields. -/
  selected : r = -1 ∨ (DeviceSelected ran sc ∧ InterfaceSelected ran sc)
  /-- The command line with a device in it names the one of the listing. -/
  device : ∀ x ∈ ran[1]?, DeviceSelected ran sc ∧ QueriesDevice sc.modemName x.1
  /-- The command line with an interface in it names the one that was reported. -/
  interface : ∀ x ∈ ran[2]?, InterfaceSelected ran sc ∧ SetsRawIp sc.wwanName x.1

/-- Attaching has returned, and has selected one modem. -/
def AttachesOne (t : List (Exchange ModemQ ModemA)) (p : ModemM AttachOutcome) : Prop :=
  ∃ r sc, p = ret (.returned r sc) ∧ SelectsOne (popens t) r sc

/-- Attaching has come to its end: it is behind its last step, or reads through a null pointer. -/
def AttachEnded (p : ModemM AttachOutcome) : Prop :=
  (∃ o, p = ret o) ∨ ∃ k, p = ask .nullDeref k

/-! ### The condition -/

/-- What is kept of the output is a single name with nothing in it that means something to the
shell, or it does not end in a line change. -/
def OutputInOrder (out : Text) : Prop :=
  ∀ name, readOutput attachLen out = name ++ ['\n'] →
    IsName name out ∧ ∀ c ∈ name, Shell.isPlain c = true

/-- No reply to a query is an error without a line. -/
def LinesAnswered (t : List (Exchange ModemQ ModemA)) : Prop :=
  ∀ command responsePrefix answer,
    (⟨.atCommand command .singleline responsePrefix, answer⟩ : Exchange ModemQ ModemA) ∈ t →
      ¬ AtAnswer.LacksLine responsePrefix answer

/-- The outputs of the first two programs are in order. -/
def OutputsInOrder (ran : List (Text × Option Process)) : Prop :=
  ∀ x ∈ ran.take 2, ∀ p, x.2 = some p → OutputInOrder p.output

/-- The replies of the modem have their lines, and the outputs are in order. -/
def AttachInOrder (t : List (Exchange ModemQ ModemA)) : Prop :=
  LinesAnswered t ∧ OutputsInOrder (popens t)

/-! ### Names in texts -/

section Names

variable {name name' out : Text}

/-- A text is in one way a text and a final line change. -/
theorem eq_of_concat_eq (h : name ++ ['\n'] = name' ++ ['\n']) : name' = name :=
  (List.append_cancel_right h).symm

/-- What is accepted is a text and its final line change. -/
theorem Modem.replaceLineChange_eq_some_iff {buf : Text} :
    Modem.replaceLineChange buf = some name ↔ buf = name ++ ['\n'] := by
  unfold Modem.replaceLineChange
  constructor
  · intro h
    split at h
    · next hlast =>
      obtain ⟨init, rfl⟩ := List.getLast?_eq_some_iff.mp hlast
      cases h
      simp
    · cases h
  · rintro rfl
    simp

/-- An output that is not accepted is in order. -/
theorem outputInOrder_of_not_accepted
    (h : Modem.replaceLineChange (readOutput attachLen out) = none) : OutputInOrder out := by
  intro name hname
  rw [Modem.replaceLineChange_eq_some_iff.mpr hname] at h
  cases h

/-- An output that is accepted is in order when its name is. -/
theorem outputInOrder_iff_of_accepted (h : readOutput attachLen out = name ++ ['\n']) :
    OutputInOrder out ↔ IsName name out ∧ ∀ c ∈ name, Shell.isPlain c = true := by
  constructor
  · intro hout
    exact hout name h
  · intro hname name' hname'
    obtain rfl := eq_of_concat_eq (h.symm.trans hname')
    exact hname

theorem noLineChange_of_plain (h : ∀ c ∈ name, Shell.isPlain c = true) : '\n' ∉ name := by
  intro hmem
  have hplain := h _ hmem
  revert hplain
  decide

/-- **An output that is a text with room for it is in order when it does not end in a line change,
or is one plain name.** -/
theorem outputInOrder_iff (hnul : NUL ∉ out) (hlen : out.length + 2 ≤ attachLen) :
    OutputInOrder out ↔ ∀ name, out = name ++ ['\n'] →
      name ≠ [] ∧ name.length ≤ 19 ∧ ∀ c ∈ name, Shell.isPlain c = true := by
  unfold OutputInOrder
  rw [readOutput_eq_self hnul hlen]
  refine forall₂_congr fun name hout => ?_
  constructor
  · intro ⟨hname, hplain⟩
    exact ⟨hname.ne_nil, hname.length_le, hplain⟩
  · intro ⟨hne, hle, hplain⟩
    refine ⟨⟨hne, hle, noLineChange_of_plain hplain, [], [], ?_, Or.inl rfl⟩, hplain⟩
    simp [hout]

end Names

/-! ### Command lines -/

section Commands

variable {name : Text}

theorem prepareCmdBuf_of_lt {s : Text} {len : ℕ} (h : s.length < len) : prepareCmdBuf len s = s :=
  List.take_of_length_le (by omega)

/-- The characters in front of a name and behind it are plain when those of the word are. -/
theorem plain_append {a b : Text} (ha : a.all Shell.isPlain = true)
    (hb : b.all Shell.isPlain = true) (hname : ∀ c ∈ name, Shell.isPlain c = true) :
    (a ++ name ++ b).all Shell.isPlain = true := by
  have hall : name.all Shell.isPlain = true := List.all_eq_true.mpr hname
  rw [List.all_append, List.all_append, ha, hall, hb]
  rfl

/-- **The command line of `qmicli` names one device when the name is a plain word.**  A character
that means something to the shell makes other words or commands of the line. -/
theorem queriesDevice_iff (hlen : name.length ≤ 19) :
    QueriesDevice name (findWwanCommand name) ↔ ∀ c ∈ name, Shell.isPlain c = true := by
  unfold QueriesDevice
  constructor
  · intro h c hc
    -- the name stands in a word of the line
    refine Shell.plain_of_mem_tokens h (t := "--device=/dev/".toList ++ name) ?_ c ?_
    · simp
    · simp [hc]
  · intro hname
    have hword : ("--device=/dev/".toList ++ name).all Shell.isPlain = true := by
      have hword' := plain_append (a := "--device=/dev/".toList) (b := []) (by decide) rfl hname
      rwa [List.append_nil] at hword'
    have hline : findWwanCommand name = "qmicli".toList ++ ' ' ::
        (("--device=/dev/".toList ++ name) ++ ' ' :: "--get-wwan-iface".toList) := by
      unfold findWwanCommand
      rw [prepareCmdBuf_of_lt]
      · simp
      · simp [cmdBufferSize]
        omega
    unfold Shell.tokens
    rw [hline, Shell.split_word (by decide), Shell.split_word hword, Shell.split_last (by decide)]
    rfl

/-- **The command line of `echo` names one interface when the name is a plain word.**  The name is
part of the path that the output goes to. -/
theorem setsRawIp_iff (hlen : name.length ≤ 19) :
    SetsRawIp name (rawIpCommand name) ↔ ∀ c ∈ name, Shell.isPlain c = true := by
  unfold SetsRawIp
  constructor
  · intro h c hc
    refine Shell.plain_of_mem_tokens h
      (t := "/sys/class/net/".toList ++ name ++ "/qmi/raw_ip".toList) ?_ c ?_
    · simp
    · simp [hc]
  · intro hname
    have hword := plain_append (a := "/sys/class/net/".toList) (b := "/qmi/raw_ip".toList)
      (by decide) (by decide) hname
    have hline : rawIpCommand name = "echo".toList ++ ' ' :: ("Y".toList ++ ' ' :: '>' ::
        ([] ++ ' ' :: ("/sys/class/net/".toList ++ name ++ "/qmi/raw_ip".toList))) := by
      unfold rawIpCommand
      rw [prepareCmdBuf_of_lt]
      · simp
      · simp [cmdBufferSize]
        omega
    unfold Shell.tokens
    rw [hline, Shell.split_word (by decide), Shell.split_word (by decide),
      Shell.split_operator (by decide) (by decide) (by decide), Shell.split_word (by decide),
      Shell.split_last hword]
    rfl

end Commands

/-! ### The ways to end -/

section Ends

variable {ran : List (Text × Option Process)} {name : Text} {p : Process} {sc : ModemSoftc}

/-- Behind a listing that is accepted and fits its field, the device is selected and named by the
next command line exactly when the listing is in order. -/
theorem device_iff (h : readOutput attachLen p.output = sc.modemName ++ ['\n'])
    (hlen : sc.modemName.length ≤ 19) (hran : ran[0]? = some (findModemCommand, some p)) :
    DeviceSelected ran sc ∧ QueriesDevice sc.modemName (findWwanCommand sc.modemName) ↔
      OutputInOrder p.output := by
  rw [outputInOrder_iff_of_accepted h, queriesDevice_iff hlen]
  unfold DeviceSelected
  simp [hran]

/-- The interface that was accepted is selected, and the command line is about it, exactly when the
output it was read from is in order. -/
theorem interface_iff {cmd : Text} (h : readOutput attachLen p.output = sc.wwanName ++ ['\n'])
    (hlen : sc.wwanName.length ≤ 19) (hran : ran[1]? = some (cmd, some p)) :
    InterfaceSelected ran sc ∧ SetsRawIp sc.wwanName (rawIpCommand sc.wwanName) ↔
      OutputInOrder p.output := by
  rw [outputInOrder_iff_of_accepted h, setsRawIp_iff hlen]
  unfold InterfaceSelected
  simp [hran]

/-- The outputs that count are those of the first two programs. -/
theorem outputsInOrder_cons_cons {cmd cmd' : Text} {f g : Option Process} :
    OutputsInOrder ((cmd, f) :: (cmd', g) :: ran) ↔
      (∀ p ∈ f, OutputInOrder p.output) ∧ ∀ p ∈ g, OutputInOrder p.output := by
  simp [OutputsInOrder]

/-- Where a third program is started, one modem is selected exactly when the outputs of the others
are in order. -/
theorem selectsOne_iff_of_third {p' : Process} {f : Option Process} {r : ℤ}
    (hmodem : readOutput attachLen p.output = sc.modemName ++ ['\n'])
    (hwwan : readOutput attachLen p'.output = sc.wwanName ++ ['\n'])
    (hmodemLen : sc.modemName.length ≤ 19) (hwwanLen : sc.wwanName.length ≤ 19)
    (hran : ran = [(findModemCommand, some p), (findWwanCommand sc.modemName, some p'),
      (rawIpCommand sc.wwanName, f)]) :
    SelectsOne ran r sc ↔ OutputInOrder p.output ∧ OutputInOrder p'.output := by
  have hlisting : ran[0]? = some (findModemCommand, some p) := by simp [hran]
  have hreport : ran[1]? = some (findWwanCommand sc.modemName, some p') := by simp [hran]
  have hdevice := device_iff hmodem hmodemLen hlisting
  have hinterface := interface_iff hwwan hwwanLen hreport
  rw [← hdevice, ← hinterface]
  constructor
  · intro h
    exact ⟨h.device (findWwanCommand sc.modemName, some p') (by simp [hran]),
      h.interface (rawIpCommand sc.wwanName, f) (by simp [hran])⟩
  · intro ⟨hone, hone'⟩
    refine ⟨Or.inr ⟨hone.1, hone'.1⟩, ?_, ?_⟩
    · simp only [hran, Option.mem_def]
      rintro x ⟨⟩
      exact hran ▸ hone
    · simp only [hran, Option.mem_def]
      rintro x ⟨⟩
      exact hran ▸ hone'

/-- Where the second program is the last one started, it depends on the listing alone. -/
theorem selectsOne_iff_of_second {f : Option Process}
    (hmodem : readOutput attachLen p.output = sc.modemName ++ ['\n'])
    (hmodemLen : sc.modemName.length ≤ 19)
    (hran : ran = [(findModemCommand, some p), (findWwanCommand sc.modemName, f)]) :
    SelectsOne ran (-1) sc ↔ OutputInOrder p.output := by
  have hlisting : ran[0]? = some (findModemCommand, some p) := by simp [hran]
  have hdevice := device_iff hmodem hmodemLen hlisting
  rw [← hdevice]
  constructor
  · intro h
    exact h.device (findWwanCommand sc.modemName, f) (by simp [hran])
  · intro hone
    refine ⟨Or.inl rfl, ?_, ?_⟩
    · simp only [hran, Option.mem_def]
      rintro x ⟨⟩
      exact hran ▸ hone
    · simp [hran]

/-- Where at most one program is started, attaching fails and nothing is named. -/
theorem selectsOne_of_first (h : ran.length ≤ 1) : SelectsOne ran (-1) sc := by
  refine ⟨Or.inl rfl, ?_, ?_⟩
  · rw [List.getElem?_eq_none h]
    simp
  · rw [List.getElem?_eq_none (by omega)]
    simp

/-- An output that does not fit its field is not in order. -/
theorem not_outputInOrder_of_long (h : readOutput attachLen p.output = name ++ ['\n'])
    (hlen : 20 ≤ name.length) : ¬ OutputInOrder p.output := by
  intro hout
  have hname := (hout name h).1.length_le
  omega

end Ends

/-! ### A line that is not there -/

section Lines

variable {t : List (Exchange ModemQ ModemA)}

/-- The look at the make of the modem is misled by just these replies. -/
theorem linesAnswered_iff : LinesAnswered t ↔ ∀ x ∈ t, ¬ LineReader.checkModem.Misled x := by
  constructor
  · intro h x hx hmisled
    obtain ⟨q, answer⟩ := x
    cases q with
    | atCommand command type responsePrefix =>
      cases type with
      | singleline => exact h command responsePrefix answer hx hmisled.1
      | _ => exact hmisled
    | _ => exact hmisled
  · intro h command responsePrefix answer hx hlacks
    exact h _ hx ⟨hlacks, trivial⟩

theorem onlyAsks_handshakeLoop (n : ℕ) (err : ℤ) :
    OnlyAsks (· = .atCommand "ATE0Q0V1".toList .noResult []) (handshakeLoop n err) := by
  induction n generalizing err with
  | zero => trivial
  | succ n ih =>
    refine ⟨rfl, fun a => ?_⟩
    show OnlyAsks _ (if _ then _ else _)
    split
    · trivial
    · exact ih _

theorem onlyAsks_modemHalRunSysCmd (cmd : Text) (size : ℕ) :
    OnlyAsks (· = .popen cmd) (modemHalRunSysCmd cmd size) := by
  unfold modemHalRunSysCmd
  refine ⟨rfl, ?_⟩
  intro f
  cases f <;> trivial

theorem onlyAsks_selectModem (sc : ModemSoftc) :
    OnlyAsks (fun q => ∃ cmd, q = .popen cmd) (selectModem sc) := by
  have hrun : ∀ cmd, OnlyAsks (fun q => ∃ cmd, q = .popen cmd) (modemHalRunSysCmd cmd attachLen) :=
    fun cmd => (onlyAsks_modemHalRunSysCmd cmd attachLen).mono fun q hq => ⟨cmd, hq⟩
  have hline : ∀ cmd, OnlyAsks (fun q => ∃ cmd, q = .popen cmd) (sysCmdLine cmd) := by
    intro cmd
    apply (hrun cmd).bind
    intro r
    split <;> trivial
  apply (hline _).bind
  intro modem
  cases modem with
  | none => trivial
  | some modem =>
    dsimp only
    cases sc.modem.strcpy modem with
    | none => trivial
    | some field =>
      apply (hline _).bind
      intro wwan
      cases wwan with
      | none => trivial
      | some wwan =>
        dsimp only
        cases sc.wwan.strcpy wwan with
        | none => trivial
        | some field' =>
          apply (hrun _).bind
          intro r
          split <;> trivial

/-- **A null pointer is met behind a reply that lacks its line, and nowhere else.** -/
theorem stuckBehind_modemHalSerialAttach (sc : ModemSoftc) :
    StuckBehind .nullDeref LineReader.checkModem.Misled (modemHalSerialAttach sc) := by
  have hhandshake : StuckBehind .nullDeref LineReader.checkModem.Misled atHandshake := by
    refine .of_onlyAsks (onlyAsks_handshakeLoop 8 0) ?_
    rintro q rfl
    exact ⟨by simp, fun _ h => h⟩
  have hselect : StuckBehind .nullDeref LineReader.checkModem.Misled (selectModem sc) := by
    refine .of_onlyAsks (onlyAsks_selectModem sc) ?_
    rintro q ⟨cmd, rfl⟩
    exact ⟨by simp, fun _ h => h⟩
  unfold modemHalSerialAttach
  apply hhandshake.bind
  intro err
  split
  · trivial
  · apply stuckBehind_checkModem.bind
    intro r
    split
    · trivial
    · exact hselect

end Lines

/-! ### Runs -/

section Runs

variable {t : List (Exchange ModemQ ModemA)} {ran : List (Text × Option Process)} {sc : ModemSoftc}

/-- What is to be shown of a way to end. -/
def EndsWell (o : AttachOutcome) (t : List (Exchange ModemQ ModemA)) : Prop :=
  (∃ r sc, o = .returned r sc ∧ SelectsOne (popens t) r sc) ↔ OutputsInOrder (popens t)

theorem popens_append_popen (h : popens t = ran) (cmd : Text) (f : Option Process) :
    popens (t ++ [⟨.popen cmd, f⟩]) = ran ++ [(cmd, f)] := by
  have happend : popens (t ++ [⟨.popen cmd, f⟩]) = popens t ++ [(cmd, f)] :=
    List.filterMap_append
  rw [happend, h]

theorem popens_append_other (h : popens t = ran) {q : ModemQ} {a : ModemA q}
    (hq : ∀ cmd, q ≠ .popen cmd) : popens (t ++ [⟨q, a⟩]) = ran := by
  have happend : popens (t ++ [⟨q, a⟩]) = popens t ++ popens [⟨q, a⟩] := List.filterMap_append
  have hnone : popens [⟨q, a⟩] = [] := by
    cases q with
    | popen cmd => exact absurd rfl (hq cmd)
    | _ => rfl
  rw [happend, hnone, List.append_nil, h]

/-- A part that starts no program keeps what is known of those that ran. -/
theorem wp_of_no_popen {α : Type} {p : ModemM α} (hp : OnlyAsks (fun q => ∀ cmd, q ≠ .popen cmd) p)
    (h : popens t = ran) :
    wp history (fun _ _ => True) (fun _ t' => popens t' = ran) p t := by
  refine wp_of_onlyAsks (fun t' => popens t' = ran) hp (fun _ _ _ _ => trivial) ?_ h
  rintro q a s s' hq hs rfl
  exact popens_append_other hs hq

/-- The look at the make of the modem starts no program. -/
theorem onlyAsks_modemHalCheckModem :
    OnlyAsks (fun q => ∀ cmd, q ≠ .popen cmd) modemHalCheckModem := by
  have hnull : ∀ cmd, ModemQ.nullDeref ≠ .popen cmd := by simp
  unfold modemHalCheckModem
  refine ⟨by simp, fun last => ⟨by simp, fun gmi => ?_⟩⟩
  show OnlyAsks _ (if _ then _ else _)
  split
  · trivial
  · apply (onlyAsks_firstIntermediate hnull _).bind
    intro manufacturer
    refine ⟨by simp, fun gmm => ?_⟩
    show OnlyAsks _ (if _ then _ else _)
    split
    · trivial
    · apply (onlyAsks_firstIntermediate hnull _).bind
      intro model
      split <;> trivial

/-- Running a program adds it, with what came of it, to the programs that ran. -/
theorem wp_modemHalRunSysCmd {post : ℤ × Text → List (Exchange ModemQ ModemA) → Prop} {cmd : Text}
    {size : ℕ} (h : popens t = ran)
    (hfail : ∀ t', popens t' = ran ++ [(cmd, none)] → post (-1, []) t')
    (hrun : ∀ (p : Process) t', popens t' = ran ++ [(cmd, some p)] →
      post (0, readOutput size p.output) t') :
    wp history (fun _ _ => True) post (modemHalRunSysCmd cmd size) t := by
  unfold modemHalRunSysCmd
  rw [query_bind, wp_ask]
  refine ⟨trivial, ?_⟩
  rintro f t' rfl
  cases f with
  | none => exact hfail _ (popens_append_popen h cmd none)
  | some p => exact hrun p _ (popens_append_popen h cmd (some p))

/-- A program is run, and its output loses the line change. -/
theorem wp_sysCmdLine {post : Option Text → List (Exchange ModemQ ModemA) → Prop} {cmd : Text}
    (h : popens t = ran) (hfail : ∀ t', popens t' = ran ++ [(cmd, none)] → post none t')
    (hrun : ∀ (p : Process) t', popens t' = ran ++ [(cmd, some p)] →
      post (Modem.replaceLineChange (readOutput attachLen p.output)) t') :
    wp history (fun _ _ => True) post (sysCmdLine cmd) t := by
  unfold sysCmdLine
  rw [wp_bind]
  exact wp_modemHalRunSysCmd h hfail hrun

/-- An attach that returns ends well when its result and its fields do. -/
theorem endsWell_returned {r : ℤ} (h : popens t = ran)
    (hone : SelectsOne ran r sc ↔ OutputsInOrder ran) : EndsWell (.returned r sc) t := by
  unfold EndsWell
  rw [h, ← hone]
  constructor
  · rintro ⟨r', sc', heq, hone'⟩
    cases heq
    exact hone'
  · exact fun hone' => ⟨r, sc, rfl, hone'⟩

/-- An attach that overruns its field selects nothing, and some output was not in order then. -/
theorem endsWell_overrun (h : popens t = ran) (hbad : ¬ OutputsInOrder ran) :
    EndsWell .overrun t := by
  unfold EndsWell
  rw [h]
  constructor
  · rintro ⟨r, sc, heq, -⟩
    cases heq
  · exact fun horder => absurd horder hbad

/-- A text that was copied leaves a short name behind. -/
theorem name_of_copied {name : Text} {p : Process} {a b : CharArray 20}
    (hread : Modem.replaceLineChange (readOutput attachLen p.output) = some name)
    (hcopy : a.strcpy name = some b) :
    (cstr b.bytes).length ≤ 19 ∧ readOutput attachLen p.output = cstr b.bytes ++ ['\n'] := by
  have hout := Modem.replaceLineChange_eq_some_iff.mp hread
  have hnul : NUL ∉ name := by
    intro hmem
    have hmem' : NUL ∈ readOutput attachLen p.output := by
      rw [hout]
      exact List.mem_append_left _ hmem
    exact notMem_readOutput hmem'
  rw [CharArray.cstr_of_strcpy hcopy hnul]
  refine ⟨?_, hout⟩
  by_contra hlen
  -- a longer name would not have been copied
  have hnone := CharArray.strcpy_eq_none_iff (a := a).mpr (show 20 ≤ name.length by omega)
  rw [hcopy] at hnone
  cases hnone

/-- A text that does not fit its field comes of an output that is not in order. -/
theorem not_outputInOrder_of_overrun {name : Text} {p : Process} {a : CharArray 20}
    (hread : Modem.replaceLineChange (readOutput attachLen p.output) = some name)
    (hcopy : a.strcpy name = none) : ¬ OutputInOrder p.output :=
  not_outputInOrder_of_long (Modem.replaceLineChange_eq_some_iff.mp hread)
    (CharArray.strcpy_eq_none_iff.mp hcopy)

/-- **The raw mode**: behind two names that were accepted.  There is one command line left, which
has the second name in it. -/
theorem wp_setRawIp {p p' : Process}
    (h : popens t = [(findModemCommand, some p), (findWwanCommand sc.modemName, some p')])
    (hmodem : readOutput attachLen p.output = sc.modemName ++ ['\n'])
    (hwwan : readOutput attachLen p'.output = sc.wwanName ++ ['\n'])
    (hmodemLen : sc.modemName.length ≤ 19) (hwwanLen : sc.wwanName.length ≤ 19) :
    wp history (fun _ _ => True) EndsWell (setRawIp sc) t := by
  have hend : ∀ f r t', popens t' = [(findModemCommand, some p),
      (findWwanCommand sc.modemName, some p')] ++ [(rawIpCommand sc.wwanName, f)] →
      EndsWell (.returned r sc) t' := by
    intro f r t' h'
    apply endsWell_returned h'
    refine (selectsOne_iff_of_third hmodem hwwan hmodemLen hwwanLen rfl).trans ?_
    simp [outputsInOrder_cons_cons]
  unfold setRawIp
  rw [wp_bind]
  apply wp_modemHalRunSysCmd h
  · exact fun t' h' => hend none (-1) t' h'
  · exact fun q t' h' => hend (some q) 0 t' h'

/-- **The interface**, which is selected behind a device that was accepted.  The command line of
`qmicli` has the name of this device in it. -/
theorem wp_selectWwan {p : Process} (h : popens t = [(findModemCommand, some p)])
    (hmodem : readOutput attachLen p.output = sc.modemName ++ ['\n'])
    (hlen : sc.modemName.length ≤ 19) :
    wp history (fun _ _ => True) EndsWell (selectWwan sc) t := by
  have hsecond : ∀ f t', popens t' = [(findModemCommand, some p)] ++
      [(findWwanCommand sc.modemName, f)] → (∀ p' ∈ f, OutputInOrder p'.output) →
      EndsWell (.returned (-1) sc) t' := by
    intro f t' h' hf
    apply endsWell_returned h'
    refine (selectsOne_iff_of_second hmodem hlen rfl).trans ?_
    simp only [List.cons_append, List.nil_append, outputsInOrder_cons_cons]
    simpa using fun _ => hf
  unfold selectWwan modemHalFindWwan
  rw [wp_bind]
  -- the report is not there, not accepted, too long for the field, or copied
  refine wp_sysCmdLine h (fun t' h' => hsecond none t' h' (by simp)) ?_
  intro p' t' h'
  cases hread : Modem.replaceLineChange (readOutput attachLen p'.output) with
  | none => exact hsecond (some p') t' h' (by simpa using outputInOrder_of_not_accepted hread)
  | some wwan =>
    dsimp only
    cases hcopy : sc.wwan.strcpy wwan with
    | none =>
      apply endsWell_overrun h'
      simp [outputsInOrder_cons_cons, not_outputInOrder_of_overrun hread hcopy]
    | some field =>
      obtain ⟨hle, hout⟩ := name_of_copied hread hcopy
      exact wp_setRawIp h' hmodem hout hlen hle

/-- **The modem**, which is selected before any program was started.  With a name that is not
accepted attaching ends here. -/
theorem wp_selectModem (h : popens t = []) :
    wp history (fun _ _ => True) EndsWell (selectModem sc) t := by
  have hfirst : ∀ f t', popens t' = [] ++ [(findModemCommand, f)] →
      (∀ p ∈ f, OutputInOrder p.output) → EndsWell (.returned (-1) sc) t' := by
    intro f t' h' hf
    apply endsWell_returned h'
    simpa [selectsOne_of_first, OutputsInOrder] using hf
  unfold selectModem modemHalFindModem
  rw [wp_bind]
  -- the same four ways for the listing
  refine wp_sysCmdLine h (fun t' h' => hfirst none t' h' (by simp)) ?_
  intro p t' h'
  cases hread : Modem.replaceLineChange (readOutput attachLen p.output) with
  | none => exact hfirst (some p) t' h' (by simpa using outputInOrder_of_not_accepted hread)
  | some modem =>
    dsimp only
    cases hcopy : sc.modem.strcpy modem with
    | none =>
      apply endsWell_overrun h'
      simp [OutputsInOrder, not_outputInOrder_of_overrun hread hcopy]
    | some field =>
      obtain ⟨hle, hout⟩ := name_of_copied hread hcopy
      exact wp_selectWwan h' hout hle

/-- **Attaching**: every way to end is as it should be when the outputs are in order. -/
theorem wp_modemHalSerialAttach (sc : ModemSoftc) :
    wp history (fun _ _ => True) EndsWell (modemHalSerialAttach sc) [] := by
  have hnone : ∀ t', popens t' = [] → EndsWell (.returned (-1) sc) t' := by
    intro t' h'
    apply endsWell_returned h'
    simp [selectsOne_of_first, OutputsInOrder]
  have hhandshake : OnlyAsks (fun q => ∀ cmd, q ≠ .popen cmd) atHandshake := by
    refine (onlyAsks_handshakeLoop 8 0).mono ?_
    rintro q rfl
    simp
  unfold modemHalSerialAttach
  rw [wp_bind]
  refine wp_consequence (wp_of_no_popen hhandshake rfl) fun err t₁ h₁ => ?_
  split
  · exact hnone t₁ h₁
  · rw [wp_bind]
    refine wp_consequence (wp_of_no_popen onlyAsks_modemHalCheckModem h₁) fun r t₂ h₂ => ?_
    split
    · exact hnone t₂ h₂
    · exact wp_selectModem h₂

end Runs

/-- **One modem is selected exactly when the outputs are in order**, and no reply on the way lacks
its line.  An output is in order that is a single line, with a name that is short enough for its
field and means nothing to the shell. -/
theorem attach_selects_one_iff {sc : ModemSoftc} {t : List (Exchange ModemQ ModemA)}
    {p : ModemM AttachOutcome} (hrun : After (modemHalSerialAttach sc) t p) (hend : AttachEnded p) :
    AttachesOne t p ↔ AttachInOrder t := by
  have hnone : ModemA .nullDeref → False := fun e => Empty.elim e
  have hstuck := (stuckBehind_modemHalSerialAttach sc).stuck_iff hnone hrun
  have hanswered : LinesAnswered t ↔ ¬ Stuck .nullDeref p := by
    rw [linesAnswered_iff, hstuck]
    simp only [not_exists, not_and]
  unfold AttachesOne AttachInOrder
  rw [hanswered]
  rcases hend with ⟨o, rfl⟩ | ⟨k, rfl⟩
  · have hends : EndsWell o t := wp_after hrun (wp_modemHalSerialAttach sc)
    unfold EndsWell at hends
    simpa [not_stuck_ret] using hends
  · simp [stuck_ask]

/-! ### Two modems -/

/-- A tested modem answers, and the three programs write what is given. -/
def attachRun (listing modem report wwan : Text) : List (Exchange ModemQ ModemA) :=
  [⟨.atCommand "ATE0Q0V1".toList .noResult [],
      AtAnswer.delivered ⟨["OK".toList], ⟨_, List.mem_singleton_self _, rfl⟩⟩⟩,
    ⟨.uninit, (0 : ℤ)⟩,
    ⟨.atCommand "AT+GMI".toList .singleline [], AtAnswer.delivered makerDelivery⟩,
    ⟨.atCommand "AT+GMM".toList .singleline [],
      AtAnswer.delivered ⟨["EG25".toList, "OK".toList], ⟨"OK".toList, by decide, by decide⟩⟩⟩,
    ⟨.popen findModemCommand, some (⟨listing, 0⟩ : Process)⟩,
    ⟨.popen (findWwanCommand modem), some (⟨report, 0⟩ : Process)⟩,
    ⟨.popen (rawIpCommand wwan), some (⟨[], 0⟩ : Process)⟩]

/-- The field that a text was copied to. -/
def copiedField (t : Text) : CharArray 20 := ((CharArray.zero 20).strcpy t).getD (CharArray.zero 20)

/-- The replies of the tested modem have their lines. -/
theorem linesAnswered_attachRun (listing modem report wwan : Text) :
    LinesAnswered (attachRun listing modem report wwan) := by
  intro command responsePrefix answer hmem
  simp only [attachRun, List.mem_cons, Sigma.mk.injEq, reduceCtorEq, ModemQ.atCommand.injEq,
    List.not_mem_nil, or_false, false_or, false_and, and_false, true_and] at hmem
  rcases hmem with ⟨⟨rfl, rfl⟩, hanswer⟩ | ⟨⟨rfl, rfl⟩, hanswer⟩
  · rw [eq_of_heq hanswer]
    exact fun hlacks => absurd hlacks.1 (by decide)
  · rw [eq_of_heq hanswer]
    exact fun hlacks => absurd hlacks.1 (by decide)

/-- An output that is a single line with a plain name is in order. -/
theorem outputInOrder_of_line (name : Text) {out : Text}
    (hout : readOutput attachLen out = name ++ ['\n']) (hname : IsName name out)
    (hplain : ∀ c ∈ name, Shell.isPlain c = true) : OutputInOrder out := by
  intro name' hname'
  obtain rfl : name' = name := eq_of_concat_eq (hout.symm.trans hname')
  exact ⟨hname, hplain⟩

/-- The run with one modem and one interface is in order. -/
theorem attachInOrder_cdc_wdm0 : AttachInOrder
    (attachRun "cdc-wdm0\n".toList "cdc-wdm0".toList "wwan0\n".toList "wwan0".toList) := by
  refine ⟨linesAnswered_attachRun _ _ _ _, ?_⟩
  have hdevice : OutputInOrder "cdc-wdm0\n".toList :=
    outputInOrder_of_line "cdc-wdm0".toList (by decide)
      ⟨by decide, by decide, by decide, [], [], rfl, Or.inl rfl⟩ (List.all_eq_true.mp rfl)
  have hinterface : OutputInOrder "wwan0\n".toList :=
    outputInOrder_of_line "wwan0".toList (by decide)
      ⟨by decide, by decide, by decide, [], [], rfl, Or.inl rfl⟩ (List.all_eq_true.mp rfl)
  intro x hx p hp
  have hx' : x = (findModemCommand, some ⟨"cdc-wdm0\n".toList, 0⟩) ∨
      x = (findWwanCommand "cdc-wdm0".toList, some ⟨"wwan0\n".toList, 0⟩) := by
    simpa [popens, attachRun] using hx
  rcases hx' with rfl | rfl
  · obtain rfl := Option.some.inj hp
    exact hdevice
  · obtain rfl := Option.some.inj hp
    exact hinterface

/-- One modem and its interface are selected. -/
theorem attach_selects_one_iff_cdc_wdm0 :
    AttachesOne (attachRun "cdc-wdm0\n".toList "cdc-wdm0".toList "wwan0\n".toList "wwan0".toList)
      (ret (.returned 0 ⟨copiedField "cdc-wdm0".toList, copiedField "wwan0".toList⟩)) := by
  have hrun : After (modemHalSerialAttach ⟨CharArray.zero 20, CharArray.zero 20⟩)
      (attachRun "cdc-wdm0\n".toList "cdc-wdm0".toList "wwan0\n".toList "wwan0".toList)
      (ret (.returned 0 ⟨copiedField "cdc-wdm0".toList, copiedField "wwan0".toList⟩)) :=
    after_replay rfl
  exact (attach_selects_one_iff hrun (Or.inl ⟨_, rfl⟩)).mpr attachInOrder_cdc_wdm0

/-- **Two modems are selected**: both names come to stand in the field, and the shell takes the
command line for two. -/
theorem attach_two_modems :
    ∃ p, After (modemHalSerialAttach ⟨CharArray.zero 20, CharArray.zero 20⟩)
        (attachRun "cdc-wdm0\ncdc-wdm1\n".toList "cdc-wdm0\ncdc-wdm1".toList "wwan0\n".toList
          "wwan0".toList) p ∧
      AttachEnded p ∧
      p = ret (.returned 0 ⟨copiedField "cdc-wdm0\ncdc-wdm1".toList, copiedField "wwan0".toList⟩) ∧
      ¬ AttachesOne (attachRun "cdc-wdm0\ncdc-wdm1\n".toList "cdc-wdm0\ncdc-wdm1".toList
          "wwan0\n".toList "wwan0".toList) p := by
  refine ⟨_, after_replay rfl, Or.inl ⟨_, rfl⟩, rfl, ?_⟩
  rintro ⟨r, sc, heq, hone⟩
  cases heq
  have hname := (hone.device _ rfl).2
  revert hname
  unfold QueriesDevice
  decide

end RadioHal
