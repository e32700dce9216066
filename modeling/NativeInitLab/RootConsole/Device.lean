import Mathlib.Data.PNat.Defs
import NativeInitLab.RootConsole.Wire

namespace NativeInitLab.RootConsole.Device

open FixedWidth LittleEndian

/-! The device side.  A function of the source that returns `long` gives the new
state and the returned value; the environment answers the system calls. -/

abbrev queueSlots : Nat := 8

abbrev flagCancel : Nat := 1
abbrev flagTimeout : Nat := 2
abbrev flagTruncated : Nat := 4
abbrev flagCleanup : Nat := 8
abbrev flagSetup : Nat := 16
abbrev flagControl : Nat := 32
abbrev flagWaitUnknown : Nat := 64
abbrev flagOutputIncomplete : Nat := 128
abbrev flagExecUnknown : Nat := 256

structure Errno where
  number : Nat
  positive : 0 < number
  bounded : number ≤ 4095
  deriving DecidableEq, Repr

namespace Errno

def rc (errno : Errno) : Int := -(errno.number : Int)

def esrch : Errno := ⟨3, by decide, by decide⟩
def eintr : Errno := ⟨4, by decide, by decide⟩
def eio : Errno := ⟨5, by decide, by decide⟩
def echild : Errno := ⟨10, by decide, by decide⟩
def eagain : Errno := ⟨11, by decide, by decide⟩
def eproto : Errno := ⟨71, by decide, by decide⟩
def etimedout : Errno := ⟨110, by decide, by decide⟩

/-- `EAGAIN` and `EINTR` leave the work for a later tick. -/
def lasting (errno : Errno) : Option Errno :=
  if errno = eagain ∨ errno = eintr then none else some errno

end Errno

/-- The status word that `wait4` stores for a process that exited or was killed. -/
structure WaitStatus where
  word : Nat
  reported : (∃ code < 256, word = 256 * code) ∨
    ∃ sig core, 0 < sig ∧ sig < 127 ∧ core < 2 ∧ word = sig + 128 * core

def WaitStatus.success : WaitStatus := ⟨0, .inl ⟨0, by decide, rfl⟩⟩

inductive ReadAnswer where
  | data (bytes : List UInt8)
  | failed (errno : Errno)
  deriving DecidableEq, Repr

def ReadAnswer.clip (count : Nat) : ReadAnswer → ReadAnswer
  | .data bytes => .data (bytes.take count)
  | .failed errno => .failed errno

inductive WriteAnswer where
  | wrote (count : Nat)
  | failed (errno : Errno)
  deriving DecidableEq, Repr

inductive WaitAnswer where
  | running
  | reaped (status : WaitStatus)
  | failed (errno : Errno)

def firstPid : PNat := 1

/-- What the calls of one request answer: the three `pipe2` calls, with whether
both descriptors lie above the standard ones, `clone` in the parent, and
`baseline_detach_available`. -/
structure RequestAnswers where
  pipe2 : Nat → Option Errno := fun _ => none
  descriptors : Nat → Bool := fun _ => true
  clone : Except Errno PNat := .ok firstPid
  detachAvailable : Bool := false

/-- What the calls of one `rc1_child_tick` answer: reads of the two output pipes
and the exec pipe, `wait4` on the process and on its group, `kill(-pid, 0)`. -/
structure ChildAnswers where
  output : Nat → ReadAnswer := fun _ => .failed Errno.eagain
  exec : ReadAnswer := .failed Errno.eagain
  wait : WaitAnswer := .running
  waitGroup : Option Errno := none
  killGroup : Option Errno := none

structure Queued where
  bytes : List UInt8
  used : Nat
  deriving DecidableEq, Repr

/-- What a session did, in order; `refused` is a frame that `rc1_queue` did not take. -/
inductive Event where
  | received (bytes : List UInt8)
  | consumed (seq kind : Nat) (body : List UInt8)
  | queued (frame : Frame)
  | refused (frame : Frame)
  | spawned (id : Nat)
  | read (id stream : Nat) (data : List UInt8)
  | ended (id stream : Nat)
  | signalled (pid : Int) (sig : Nat)
  | cancelled (seq : Nat)
  | latched (seq : Nat)
  | overloaded (seq : Nat)
  deriving DecidableEq, Repr

/-- `struct rc1_state`.  `pipe i` says that descriptor `i` is open, the used part
of each buffer and the ring of frames are lists, and `log` is written and never
read. -/
structure State where
  pipe : Nat → Bool := fun _ => false
  status : Nat := 0
  execErrno : Int := 0
  reaped : Bool := false
  execSeen : Bool := false
  active : Bool := false
  blocked : Bool := false
  control : Nat := 0
  pid : Nat := 0
  next : Nat := 3
  id : Nat := 0
  lastId : Nat := 0
  ordinal : Nat := 0
  flags : Nat := 0
  total : Nat := 0
  dropped : Nat := 0
  timeout : Nat := 0
  controlSeq : Nat := 0
  overload : Nat := 0
  start : Nat := 0
  commandStart : Nat := 0
  cancelStart : Nat := 0
  drainStart : Nat := 0
  partialStart : Nat := 0
  controlStart : Nat := 0
  cancelPhase : Nat := 0
  terminalSent : Bool := false
  rx : List UInt8 := []
  rxSize : Nat := 0
  queue : List Queued := []
  faultSent : Bool := false
  outputTurn : Nat := 0
  execBytes : List UInt8 := []
  log : List Event := []

/-- One build: the keys of the session and whether the clean detach of the
baseline profile is compiled in. -/
structure Profile where
  link : Link
  baseline : Bool := false

/-- A new state and the error that a function returns; `none` is its zero. -/
abbrev Result := State × Option Errno

def andThen (result : Result) (next : State → Result) : Result :=
  match result with
  | (s, none) => next s
  | (s, some errno) => (s, some errno)

def note (s : State) (event : Event) : State :=
  { s with log := s.log ++ [event] }

def enqueue (link : Link) (s : State) (frame : Frame) : State :=
  { s with
    queue := s.queue ++ [⟨frame.encode link, 0⟩]
    log := s.log ++ [.queued frame] }

def queue (link : Link) (s : State) (kind seq : Nat) (body : List UInt8) : Result :=
  if body.length + 32 > maxPayload ∨ s.queue.length = queueSlots then
    (note s (.refused ⟨kind, seq, body⟩), some Errno.eagain)
  else (enqueue link s ⟨kind, seq, body⟩, none)

/-- `rc1_flush`, with the bytes that the transport took. -/
def flush (s : State) (answer : WriteAnswer) : Result × List UInt8 :=
  match s.queue with
  | [] => ((s, none), [])
  | frame :: rest =>
    match answer with
    | .failed errno => ((s, errno.lasting), [])
    | .wrote count =>
      if count = 0 ∨ count > frame.bytes.length - frame.used then
        ((s, some Errno.eio), [])
      else if frame.used + count = frame.bytes.length then
        (({ s with queue := rest }, none), window frame.used count frame.bytes)
      else
        (({ s with queue := { frame with used := frame.used + count } :: rest },
          none), window frame.used count frame.bytes)

def closePipes (s : State) : State :=
  { s with pipe := fun _ => false }

def signals (s : State) (sig : Nat) : List Event :=
  if 0 < s.pid then
    .signalled (-s.pid) sig :: if s.reaped then [] else [.signalled s.pid sig]
  else []

def signal (s : State) (sig : Nat) : State :=
  { s with log := s.log ++ signals s sig }

def cancel (s : State) (now flag : Nat) : State :=
  if s.active then
    if s.cancelPhase = 0 then
      signal { s with flags := s.flags ||| flag, cancelPhase := 1, cancelStart := now } 15
    else { s with flags := s.flags ||| flag }
  else s

/-! `rc1_spawn`. -/

def execTimeout (body : List UInt8) : Nat := value (window 0 4 body)
def execCwdSize (body : List UInt8) : Nat := value (window 4 2 body)

def execBodyOk (body : List UInt8) : Prop :=
  8 ≤ body.length ∧ execTimeout body ≠ 0 ∧ execTimeout body ≤ timeoutMaxMs ∧
    execCwdSize body ≠ 0 ∧ execCwdSize body ≤ 255 ∧
    6 + execCwdSize body < body.length ∧ body.getD 6 0 = 0x2f ∧
    body.length - 6 - execCwdSize body ≤ 767 ∧ ∀ byte ∈ body.drop 6, byte ≠ 0

instance (body : List UInt8) : Decidable (execBodyOk body) :=
  inferInstanceAs (Decidable (_ ∧ _))

def pipesFailure (answers : RequestAnswers) : Option Errno :=
  let pipe (i : Nat) : Option Errno :=
    match answers.pipe2 i with
    | some errno => some errno
    | none => if answers.descriptors i then none else some Errno.eproto
  (pipe 0).or ((pipe 1).or (pipe 2))

def openPipes (answers : RequestAnswers) : Except Errno PNat :=
  match pipesFailure answers with
  | some errno => .error errno
  | none => answers.clone

def launched (s : State) (body : List UInt8) (now : Nat) (pid : PNat) : State :=
  { s with
    pipe := fun i => decide (i < 3)
    pid := pid
    active := true
    reaped := false
    execSeen := false
    execBytes := []
    execErrno := 0
    status := 0
    ordinal := 0
    flags := 0
    total := 0
    dropped := 0
    cancelPhase := 0
    terminalSent := false
    commandStart := now
    drainStart := 0
    timeout := execTimeout body
    log := s.log ++ [.spawned s.id] }

def spawn (s : State) (body : List UInt8) (now : Nat) (answers : RequestAnswers) : Result :=
  if execBodyOk body then
    match openPipes answers with
    | .error errno => (s, some errno)
    | .ok pid => (launched s body now pid, none)
  else (s, some Errno.eproto)

def replyBody (s : State) (disposition : Nat) : List UInt8 :=
  words [s.id, disposition, s.active.toNat, s.blocked.toNat, s.flags, s.total, s.dropped, s.lastId]

def replyState (link : Link) (s : State) (kind seq disposition : Nat) : Result :=
  queue link s kind seq (replyBody s disposition)

def exitBody (s : State) : List UInt8 :=
  words [s.id, s.flags, s.status, ofSigned s.execErrno, s.total, s.dropped, s.ordinal]

/-! `rc1_request`: the frame in `rx` is checked, consumed and dispatched. -/

def requestPayload (s : State) : List UInt8 :=
  window headerSize (s.rxSize - headerSize) s.rx

def requestBody (s : State) : List UInt8 :=
  window headerSize (s.rxSize - headerSize - 32) s.rx

def requestTag (s : State) : List UInt8 := window (s.rxSize - 32) 32 s.rx

def requestOk (link : Link) (s : State) : Prop :=
  32 ≤ s.rxSize - headerSize ∧ headSeq s.rx = s.next ∧ headSeq s.rx ≠ 2 ^ 32 - 1 ∧
    headCrc s.rx = link.crc (s.rx.take 12 ++ requestPayload s) ∧
    constantTimeEqual (link.tag (headSeq s.rx) (headKind s.rx) (requestBody s))
      (requestTag s) = true

instance (link : Link) (s : State) : Decidable (requestOk link s) :=
  inferInstanceAs (Decidable (_ ∧ _))

def consume (s : State) (seq kind : Nat) (body : List UInt8) : State :=
  { s with next := s.next + 1, log := s.log ++ [.consumed seq kind body] }

/-- Admission ends; `mode` is 1 for CONTROL and 3 for DETACH. -/
def latched (s : State) (mode seq now : Nat) : State :=
  { s with
    control := mode, controlSeq := seq, controlStart := now, blocked := true
    log := s.log ++ [.latched seq] }

def detach (link : Link) (s : State) (seq now : Nat) (answers : RequestAnswers) : Result :=
  if s.active ∨ s.pid ≠ 0 ∨ s.blocked ∨ s.queue ≠ [] ∨ s.overload ≠ 0 ∨
      s.faultSent ∨ s.flags ≠ 0 ∨ s.dropped ≠ 0 ∨ answers.detachAvailable = false then
    (s, some Errno.eproto)
  else
    replyState link (latched s 3 seq now) kindDetachAck seq 0

def control (s : State) (seq now : Nat) : State :=
  signal (cancel (latched s 1 seq now) now flagCancel) 9

def overloaded (s : State) (seq : Nat) : State :=
  { s with
    blocked := true
    overload := if s.overload = 0 then seq else s.overload
    log := s.log ++ [.overloaded seq] }

/-- `s->id=seq;s->total=0;s->dropped=0;s->ordinal=0;s->flags=0`. -/
def assign (s : State) (seq : Nat) : State :=
  { s with id := seq, total := 0, dropped := 0, ordinal := 0, flags := 0 }

def setupFailed (s : State) (seq : Nat) (errno : Errno) : State :=
  { s with lastId := seq, execErrno := errno.rc, flags := flagSetup }

def setupBody (seq : Nat) (errno : Errno) : List UInt8 :=
  words [seq, flagSetup, 0, ofSigned errno.rc, 0, 0, 0]

def exec (link : Link) (s : State) (seq : Nat) (body : List UInt8) (now : Nat)
    (answers : RequestAnswers) : Result :=
  if s.active ∨ s.blocked then replyState link s kindAck seq 1
  else
    match spawn (assign s seq) body now answers with
    | (s, some errno) =>
      queue link (setupFailed s seq errno) kindExit seq (setupBody seq errno)
    | (s, none) => replyState link s kindAck seq 0

def cancelRequest (link : Link) (s : State) (seq target now : Nat) : Result :=
  if target = s.id ∧ s.active then
    replyState link (cancel (note s (.cancelled seq)) now flagCancel) kindAck seq 0
  else if target = s.lastId ∧ target ≠ 0 then replyState link s kindAck seq 1
  else replyState link s kindAck seq 2

def dispatch (p : Profile) (s : State) (seq kind : Nat) (body : List UInt8)
    (now : Nat) (answers : RequestAnswers) : Result :=
  if p.baseline ∧ kind = kindDetach ∧ body = [] then detach p.link s seq now answers
  else if kind = kindControl ∧ body = [] then (control s seq now, none)
  else if queueSlots - 1 ≤ s.queue.length then (overloaded s seq, none)
  else if kind = kindExec then exec p.link s seq body now answers
  else if kind = kindStatus ∧ body = [] then replyState p.link s kindStatusReply seq 0
  else if kind = kindCancel ∧ body.length = 4 then
    cancelRequest p.link s seq (value body) now
  else (s, some Errno.eproto)

def request (p : Profile) (s : State) (now : Nat) (answers : RequestAnswers) : Result :=
  if requestOk p.link s then
    dispatch p (consume s (headSeq s.rx) (headKind s.rx) (requestBody s))
      (headSeq s.rx) (headKind s.rx) (requestBody s) now answers
  else (s, some Errno.eproto)

end NativeInitLab.RootConsole.Device
