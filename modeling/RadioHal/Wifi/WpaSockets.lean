import Mathlib.Data.List.Nodup
import RadioHal.Lib.Steps
import RadioHal.Wifi.Softc

/-!
# The sockets of control connections

`wpa_ctrl_open2` binds the socket of a new connection to a path of its own, made from the process id
and a counter.  A file that is there already is taken for one that an earlier process has left, and
is removed.  Two things are asked of a run.  The counter is an `int`, and no connection may be
opened once it has reached the largest one.  And the path of the server must fit `sun_path`, for it
is looked at behind `bind`, and a call that finds it too long leaves its own file behind.

## Main definitions

* `WpaSockets` — the counter, the files, and the connections that are open.
* `localPath` — the path of a connection.
* `wpaCtrlOpen2`, `wpaCtrlCloseSocket` — the source.
* `SocketStep` — a connection is opened or closed, or another process makes or removes a file.

## Main results

* `localPath_inj` — the counter can be read off the path.
* `SocketsInv.step` — a step keeps the files of the connections.
* `file_of_long_path` — what a server path that is too long leaves behind.
* `sockets_of_live` — **the files this process has bound are those of its open connections, one
  each**: none is taken away from a connection, and none is left behind.
-/

namespace RadioHal

open CLib

/-! ### The source -/

/-- The size of `sun_path`, in which the path must fit with its terminator. -/
def sunPathSize : ℕ := 108

/-- `INT_MAX`. -/
def intMax : ℕ := 2147483647

/-- A connection: what the counter was, and the path of its socket. -/
structure ClientSocket where
  number : ℕ
  path : Text
  deriving DecidableEq, Repr

/-- The sockets of a process, and all the files there are. -/
structure WpaSockets where
  /-- `counter` of `wpa_ctrl_open2`, an `int` that counts up from `0`. -/
  counter : ℕ
  /-- The files, each with the connection of this process that is bound to it, if one is. -/
  files : List (Text × Option ℕ)
  live : List ClientSocket

/-- How the calls of `wpa_ctrl_open2` come out. -/
structure OpenWorld where
  /-- `socket` works. -/
  socket : Bool
  /-- `bind` fails for no reason but that the file is there. -/
  binds : Bool
  /-- `unlink` works on a file that was in the way. -/
  unlinks : Bool
  /-- The second `bind` works. -/
  rebinds : Bool
  /-- `connect` works. -/
  connects : Bool
  deriving DecidableEq, Repr

/-- `CONFIG_CTRL_IFACE_CLIENT_DIR`, or the directory that is given. -/
def clientDir (cliPath : Option Text) : Text :=
  match cliPath with
  | some dir => if dir.head? = some '/' then dir else "/tmp".toList
  | none => "/tmp".toList

/-- `local.sun_path`. -/
def localPath (cliPath : Option Text) (pid counter : ℕ) : Text :=
  clientDir cliPath ++ "/wpa_ctrl_".toList ++ decimal pid ++ '-' :: decimal counter

namespace WpaSockets

variable (s : WpaSockets)

def hasFile (path : Text) : Bool := s.files.any fun f => f.1 == path

/-- `unlink`. -/
def unlink (path : Text) : WpaSockets := { s with files := s.files.filter fun f => f.1 != path }

/-- `bind`, where no file is in the way. -/
def bind (number : ℕ) (path : Text) : WpaSockets :=
  { s with files := (path, some number) :: s.files }

/-- `bind` with its second try: a file that is in the way is removed once. -/
def bindLocal (w : OpenWorld) (number : ℕ) (path : Text) : WpaSockets × Bool :=
  if w.binds = false then (s, false)
  else if s.hasFile path = false then (s.bind number path, true)
  else if w.unlinks = false then (s, false)
  else if w.rebinds = false then (s.unlink path, false)
  else ((s.unlink path).bind number path, true)

/-- `wpa_ctrl_open2`.  The long path of a server is found too late to undo `bind`. -/
def wpaCtrlOpen2 (w : OpenWorld) (pid : ℕ) (ctrlPath : Text) (cliPath : Option Text) :
    WpaSockets × Option ClientSocket :=
  if w.socket = false then (s, none)
  else
    let number := s.counter + 1
    let path := localPath cliPath pid number
    let s := { s with counter := number }
    if sunPathSize ≤ path.length then (s, none)
    else
      let (s, bound) := s.bindLocal w number path
      if bound = false then (s, none)
      else if strStarts ctrlPath "@abstract:".toList = false ∧ sunPathSize ≤ ctrlPath.length then
        (s, none)
      else if w.connects = false then (s.unlink path, none)
      else ({ s with live := ⟨number, path⟩ :: s.live }, some ⟨number, path⟩)

/-- `wpa_ctrl_close`. -/
def wpaCtrlCloseSocket (c : ClientSocket) : WpaSockets :=
  { s.unlink c.path with live := s.live.erase c }

end WpaSockets

/-- Something happens to the sockets.  No other process touches the files of this one. -/
inductive SocketStep (pid : ℕ) : WpaSockets → Option Empty → WpaSockets → Prop
  /-- A connection is opened.  The path of the server fits `sun_path`, and `counter++` does not
  overflow. -/
  | opens {s : WpaSockets} (w : OpenWorld) (ctrlPath : Text) (cliPath : Option Text)
      (hpath : ctrlPath.length < sunPathSize) (hcounter : s.counter < intMax) :
      SocketStep pid s none (s.wpaCtrlOpen2 w pid ctrlPath cliPath).1
  | closes {s : WpaSockets} {c : ClientSocket} (hlive : c ∈ s.live) :
      SocketStep pid s none (s.wpaCtrlCloseSocket c)
  | makes {s : WpaSockets} {path : Text} (hnew : s.hasFile path = false) :
      SocketStep pid s none { s with files := (path, none) :: s.files }
  | removes {s : WpaSockets} (path : Text) :
      SocketStep pid s none { s with files := s.files.filter (· != (path, none)) }

/-! ### Paths -/

/-- What stands behind the last separator of two equal texts is the same. -/
theorem eq_of_append_cons {c : Char} {a a' t t' : Text} (ht : c ∉ t) (ht' : c ∉ t')
    (h : a ++ c :: t = a' ++ c :: t') : t = t' := by
  rcases List.append_eq_append_iff.mp h with ⟨u, -, hu⟩ | ⟨u, -, hu⟩
  · cases u with
    | nil => exact (List.cons.inj hu).2
    | cons d u =>
      -- the second separator would stand in the first text
      rw [(List.cons.inj hu).2] at ht
      exact absurd (by simp) ht
  · cases u with
    | nil => exact (List.cons.inj hu).2.symm
    | cons d u =>
      rw [(List.cons.inj hu).2] at ht'
      exact absurd (by simp) ht'

/-- A number is printed without a minus sign, and can be read back. -/
theorem decimal_natCast (n : ℕ) : decimal n = Nat.toDigits 10 n := by
  unfold decimal
  rw [if_neg (by omega)]
  rfl

theorem not_mem_decimal (n : ℕ) : '-' ∉ decimal n := by
  rw [decimal_natCast]
  intro h
  have hdigit := Nat.isDigit_of_mem_toDigits (by decide) le_rfl h
  revert hdigit
  decide

theorem decimal_inj {n m : ℕ} (h : decimal n = decimal m) : n = m := by
  rw [decimal_natCast, decimal_natCast] at h
  have hread := congrArg (Nat.ofDigitChars 10 · 0) h
  simpa using hread

/-- **The counter can be read off the path.**  So no two of the paths of a process are the same, as
long as the counter goes up. -/
theorem localPath_inj {dir dir' : Option Text} {pid n m : ℕ}
    (h : localPath dir pid n = localPath dir' pid m) : n = m :=
  decimal_inj (eq_of_append_cons (not_mem_decimal n) (not_mem_decimal m) h)

/-! ### The files of the connections -/

/-- The files that are bound are those of the open connections, which have different numbers. -/
structure SocketsInv (pid : ℕ) (s : WpaSockets) : Prop where
  files : ∀ path n, (path, some n) ∈ s.files ↔ ⟨n, path⟩ ∈ s.live
  counter : ∀ c ∈ s.live, c.number ≤ s.counter
  path : ∀ c ∈ s.live, ∃ dir, c.path = localPath dir pid c.number
  nodup : s.live.Nodup

section Steps

variable {pid : ℕ} {s : WpaSockets} {c : ClientSocket} {path : Text} {n : ℕ}

theorem mem_unlink {f : Text × Option ℕ} :
    f ∈ (s.unlink path).files ↔ f ∈ s.files ∧ f.1 ≠ path := by
  unfold WpaSockets.unlink
  simp [List.mem_filter]

namespace SocketsInv

theorem eq_of_path (h : SocketsInv pid s) {c' : ClientSocket} (hc : c ∈ s.live) (hc' : c' ∈ s.live)
    (heq : c.path = c'.path) : c = c' := by
  obtain ⟨dir, hdir⟩ := h.path c hc
  obtain ⟨dir', hdir'⟩ := h.path c' hc'
  have hnumber : c.number = c'.number := localPath_inj (hdir.symm.trans (heq.trans hdir'))
  cases c
  cases c'
  cases hnumber
  cases heq
  rfl

/-- The path of the next connection is that of no connection before it. -/
theorem path_ne (h : SocketsInv pid s) (dir : Option Text) (hc : c ∈ s.live) :
    c.path ≠ localPath dir pid (s.counter + 1) := by
  intro heq
  obtain ⟨dir', hdir'⟩ := h.path c hc
  have hnumber := localPath_inj (hdir'.symm.trans heq)
  have hle := h.counter c hc
  omega

theorem count (h : SocketsInv pid s) : SocketsInv pid { s with counter := s.counter + 1 } :=
  ⟨h.files, fun c hc => (h.counter c hc).trans (Nat.le_succ _), h.path, h.nodup⟩

theorem unlink (h : SocketsInv pid s) (hpath : ∀ c ∈ s.live, c.path ≠ path) :
    SocketsInv pid (s.unlink path) := by
  refine ⟨?_, h.counter, h.path, h.nodup⟩
  intro path' n
  rw [mem_unlink, h.files]
  exact and_iff_left_of_imp fun hc => hpath _ hc

/-- A new connection comes to the others, with a file of its own. -/
theorem opened (h : SocketsInv pid s) {dir : Option Text} (hle : n ≤ s.counter)
    (hnew : ∀ c ∈ s.live, c.number ≠ n) (hpath : path = localPath dir pid n) :
    SocketsInv pid { s.bind n path with live := ⟨n, path⟩ :: s.live } := by
  refine ⟨?_, ?_, ?_, ?_⟩
  · intro path' n'
    show (path', some n') ∈ (path, some n) :: s.files ↔ _
    rw [List.mem_cons, List.mem_cons, h.files]
    simp [and_comm]
  · exact List.forall_mem_cons.mpr ⟨hle, h.counter⟩
  · exact List.forall_mem_cons.mpr ⟨⟨dir, hpath⟩, h.path⟩
  · exact List.nodup_cons.mpr ⟨fun hmem => hnew _ hmem rfl, h.nodup⟩

/-- The file of a connection is removed as it is closed. -/
theorem closed (h : SocketsInv pid s) (hc : c ∈ s.live) :
    SocketsInv pid (s.wpaCtrlCloseSocket c) := by
  refine ⟨?_, ?_, ?_, h.nodup.erase c⟩
  · intro path' n
    show (path', some n) ∈ (s.unlink c.path).files ↔ ⟨n, path'⟩ ∈ s.live.erase c
    rw [mem_unlink, h.nodup.mem_erase_iff, h.files, and_comm]
    refine and_congr_left fun hmem => not_congr ?_
    constructor
    · intro heq
      exact h.eq_of_path hmem hc heq
    · rintro rfl
      rfl
  · intro c' hc'
    exact h.counter c' (List.mem_of_mem_erase hc')
  · intro c' hc'
    exact h.path c' (List.mem_of_mem_erase hc')

end SocketsInv

/-- What comes of `bind`: no socket, or one whose path is nobody else's. -/
theorem bindLocal_cases (w : OpenWorld) (h : SocketsInv pid s)
    (hpath : ∀ c ∈ s.live, c.path ≠ path) :
    ∃ s', SocketsInv pid s' ∧ s'.live = s.live ∧ s'.counter = s.counter ∧
      (s.bindLocal w n path = (s', false) ∨ s.bindLocal w n path = (s'.bind n path, true)) := by
  unfold WpaSockets.bindLocal
  split
  · exact ⟨s, h, rfl, rfl, Or.inl rfl⟩
  · split
    · exact ⟨s, h, rfl, rfl, Or.inr rfl⟩
    · split
      · exact ⟨s, h, rfl, rfl, Or.inl rfl⟩
      · split
        · exact ⟨s.unlink path, h.unlink hpath, rfl, rfl, Or.inl rfl⟩
        · exact ⟨s.unlink path, h.unlink hpath, rfl, rfl, Or.inr rfl⟩

/-- **`wpa_ctrl_open2`** makes a connection with a file of its own, or leaves none behind.  The path
of the server must fit its address for this. -/
theorem SocketsInv.open2 (h : SocketsInv pid s) (w : OpenWorld) {ctrlPath : Text}
    (cliPath : Option Text) (hctrl : ctrlPath.length < sunPathSize) :
    SocketsInv pid (s.wpaCtrlOpen2 w pid ctrlPath cliPath).1 := by
  unfold WpaSockets.wpaCtrlOpen2
  split
  · exact h
  · have hpath : ∀ c ∈ s.live, c.path ≠ localPath cliPath pid (s.counter + 1) := fun c hc =>
      h.path_ne cliPath hc
    dsimp only
    split
    · exact h.count
    · obtain ⟨s', hinv, hlive, hcounter, hbind | hbind⟩ :=
        bindLocal_cases (n := s.counter + 1) w h.count hpath
      · rw [hbind]
        exact hinv
      · rw [hbind]
        dsimp only
        rw [if_neg (by decide), if_neg fun hlong => absurd hlong.2 (by omega)]
        split
        · -- the file of the new socket goes away with it
          have hundone : (s'.bind (s.counter + 1) (localPath cliPath pid (s.counter + 1))).unlink
              (localPath cliPath pid (s.counter + 1)) =
              s'.unlink (localPath cliPath pid (s.counter + 1)) := by
            unfold WpaSockets.unlink WpaSockets.bind
            simp
          rw [hundone]
          apply hinv.unlink
          rw [hlive]
          exact hpath
        · refine hinv.opened hcounter.ge ?_ rfl
          rw [hlive]
          intro c hc
          have hle := h.counter c hc
          omega

/-- A server path that does not fit is found too late: the file is bound already, and stays. -/
theorem file_of_long_path (s : WpaSockets) {w : OpenWorld} {ctrlPath : Text} (cliPath : Option Text)
    (hsocket : w.socket = true) (hbinds : w.binds = true)
    (hfree : s.hasFile (localPath cliPath pid (s.counter + 1)) = false)
    (hfits : (localPath cliPath pid (s.counter + 1)).length < sunPathSize)
    (hconcrete : strStarts ctrlPath "@abstract:".toList = false)
    (hlong : sunPathSize ≤ ctrlPath.length) :
    s.wpaCtrlOpen2 w pid ctrlPath cliPath =
      (({ s with counter := s.counter + 1 } : WpaSockets).bind (s.counter + 1)
        (localPath cliPath pid (s.counter + 1)), none) := by
  have hbind : ({ s with counter := s.counter + 1 } : WpaSockets).bindLocal w (s.counter + 1)
      (localPath cliPath pid (s.counter + 1)) =
      (({ s with counter := s.counter + 1 } : WpaSockets).bind (s.counter + 1)
        (localPath cliPath pid (s.counter + 1)), true) := by
    unfold WpaSockets.bindLocal
    rw [if_neg (by simp [hbinds])]
    exact if_pos hfree
  unfold WpaSockets.wpaCtrlOpen2
  rw [if_neg (by simp [hsocket])]
  dsimp only
  rw [if_neg (by omega), hbind, if_neg (by simp), if_pos ⟨hconcrete, hlong⟩]

/-- **One step** keeps the files in agreement with the connections, whoever makes it. -/
theorem SocketsInv.step {s' : WpaSockets} {label : Option Empty} (h : SocketsInv pid s)
    (hs : SocketStep pid s label s') : SocketsInv pid s' := by
  cases hs with
  | opens w ctrlPath cliPath hpath _ => exact h.open2 w cliPath hpath
  | closes hlive => exact h.closed hlive
  | @makes path hnew =>
    refine ⟨?_, h.counter, h.path, h.nodup⟩
    intro path' n
    rw [← h.files]
    simp
  | removes path =>
    refine ⟨?_, h.counter, h.path, h.nodup⟩
    intro path' n
    rw [← h.files]
    simp [List.mem_filter]

end Steps

/-- **The files this process has bound are those of its open connections, one each**, whatever files
were there before: none is taken away from a connection, and none is left behind.  The server paths
fit `sun_path`, and the counter does not overflow. -/
theorem sockets_of_live {pid : ℕ} {stale : List Text} {log : List Empty} {s : WpaSockets}
    (hrun : Trace (SocketStep pid) ⟨0, stale.map fun path => (path, none), []⟩ log s) :
    (∀ path n, (path, some n) ∈ s.files ↔ ⟨n, path⟩ ∈ s.live) ∧
      (s.live.map ClientSocket.path).Nodup := by
  have hinv : SocketsInv pid s := by
    refine hrun.invariant (SocketsInv pid) ?_ ?_
    · intro s label s' h hs
      exact h.step hs
    · exact ⟨by simp, by simp, by simp, List.nodup_nil⟩
  refine ⟨hinv.files, ?_⟩
  exact List.Nodup.map_on (fun c hc c' hc' heq => hinv.eq_of_path hc hc' heq) hinv.nodup

/-- An earlier process has left a file. -/
def staleSockets : WpaSockets :=
  ⟨0, ["/tmp/wpa_ctrl_7-1".toList].map fun path => (path, none), []⟩

/-- It is in the way of the first connection. -/
def reopenedSockets : WpaSockets :=
  (staleSockets.wpaCtrlOpen2 ⟨true, true, true, true, true⟩ 7
    "/var/run/wpa_supplicant/wlan0".toList none).1

theorem sockets_of_live_stale :
    (∀ path n, (path, some n) ∈ reopenedSockets.files ↔ ⟨n, path⟩ ∈ reopenedSockets.live) ∧
      (reopenedSockets.live.map ClientSocket.path).Nodup :=
  sockets_of_live (Trace.refl.snoc (SocketStep.opens _ _ none (by decide) (by decide)))

end RadioHal
