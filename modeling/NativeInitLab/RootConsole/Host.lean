import Mathlib.Data.Finset.Basic
import NativeInitLab.Library.Lockstep
import NativeInitLab.RootConsole.Wire

namespace NativeInitLab.RootConsole.Host

open LittleEndian Lockstep

/-! The host side.  A raised exception is an error with its message; it stops the
session. -/

abbrev rawCaptureMaximum : Nat := 80 * 1024 * 1024
abbrev sessionRxLimit : Nat := rawCaptureMaximum - 64 * 1024

def command (command cwd : List UInt8) (timeoutMs : Nat) : Except String (List UInt8) := do
  require (1 ≤ command.length ∧ command.length ≤ 767 ∧ (0 : UInt8) ∉ command)
    "command must be 1..767 non-NUL bytes"
  require (cwd.head? = some 0x2f ∧ cwd.length ≤ 255 ∧ (0 : UInt8) ∉ cwd)
    "cwd must be an absolute non-NUL path of at most 255 bytes"
  require (1 ≤ timeoutMs ∧ timeoutMs ≤ 300000) "timeout outside finite command budget"
  let body := store 4 timeoutMs ++ store 2 cwd.length ++ cwd ++ command
  require (body.length + 32 ≤ maxPayload) "combined command and cwd exceed wire budget"
  return body

def validateRequest (kind : Nat) (body : List UInt8) : Except String Unit := do
  require (kind ∈ [kindExec, kindStatus, kindCancel, kindControl]) "unknown request"
  require (kind ∈ [kindStatus, kindControl] → body = []) "unexpected request body"
  require (kind = kindCancel → body.length = 4 ∧ value body ≠ 0)
    "CANCEL requires a nonzero command identity"
  if kind = kindExec then
    require (8 ≤ body.length) "invalid EXEC body"
    let cwdSize := value (window 4 2 body)
    let canonical ← command (body.drop (6 + cwdSize)) (window 6 cwdSize body)
      (value (window 0 4 body))
    require (canonical = body) "noncanonical EXEC body"

/-! `Decoder.feed`. -/

def decodeOne (link : Link) (raw : List UInt8) : Except String Frame := do
  let body := window headerSize (raw.length - headerSize - 32) raw
  let frame : Frame := ⟨headKind raw, headSeq raw, body⟩
  require (link.crc (raw.take 12 ++ raw.drop headerSize) = headCrc raw) "frame CRC mismatch"
  require (window (raw.length - 32) 32 raw = link.tag frame.seq frame.kind body)
    "frame authentication mismatch"
  return frame

/-- The `while` loop of `feed`; each turn removes a frame, so the number of pending
bytes bounds the turns. -/
def feedLoop (link : Link) : Nat → List UInt8 → Except String (List Frame × List UInt8)
  | 0, pending => .ok ([], pending)
  | fuel + 1, pending =>
    if pending.length < headerSize then .ok ([], pending)
    else if ¬ headOk pending then .error "invalid frame header"
    else if pending.length < headerSize + headSize pending then .ok ([], pending)
    else do
      let frame ← decodeOne link (pending.take (headerSize + headSize pending))
      let (frames, rest) ← feedLoop link fuel (pending.drop (headerSize + headSize pending))
      return (frame :: frames, rest)

def feed (link : Link) (pending : List UInt8) : Except String (List Frame × List UInt8) :=
  feedLoop link pending.length pending

/-- The fields that `_replay_state` sets up: what the host knows of the exchange. -/
structure ReplayState where
  requests : Nat → Option Nat := fun _ => none
  requestBodies : Nat → Option (List UInt8) := fun _ => none
  responses : Finset Nat := ∅
  accepted : Finset Nat := ∅
  rejected : Finset Nat := ∅
  outputs : Nat → Option (Nat × Nat) := fun _ => none
  terminals : Finset Nat := ∅
  pending : Option Nat := none
  controlSequence : Option Nat := none
  faulted : Bool := false
  finished : Bool := false
  ready : Option (List Nat) := none

/-- `Session` without the journal and the evidence directory. -/
structure Session where
  state : ReplayState := {}
  sequence : Nat := 3
  stopped : Bool := false
  rawCount : Nat := 0
  decoderPending : List UInt8 := []
  rx : List UInt8 := []
  tx : List UInt8 := []

namespace ReplayState

def output (s : ReplayState) (seq : Nat) : Nat × Nat := (s.outputs seq).getD (0, 0)

def answered (s : ReplayState) (seq : Nat) : ReplayState :=
  { s with
    responses := insert seq s.responses
    pending := if s.pending = some seq then none else s.pending }

end ReplayState

def unknownBits (flags : Nat) : Prop := bit flags 0xfffffe00

instance (flags : Nat) : Decidable (unknownBits flags) :=
  inferInstanceAs (Decidable (bit _ _))

def validateReady (s : ReplayState) (seq : Nat) (body : List UInt8) :
    Except String ReplayState := do
  require (s.ready = none ∧ seq = 2 ∧ body.length = 32) "duplicate or invalid native READY"
  let fields := (List.range 8).map (word · body)
  require (fields.take 6 = [1, 600000, 300000, 1048576, 767, 255]) "native resource profile differs"
  return { s with ready := some fields }

def validateOutput (s : ReplayState) (request seq : Nat) (body : List UInt8) :
    Except String ReplayState := do
  require (request = kindExec ∧ 13 ≤ body.length ∧ seq ∉ s.terminals ∧ seq ∈ s.accepted)
    "output outside command lifecycle"
  let ordinal := word 1 body
  let total := (s.output seq).2 + (body.length - 12)
  require (word 0 body = seq ∧ ordinal = (s.output seq).1 + 1 ∧
    (word 2 body = 1 ∨ word 2 body = 2)) "output identity/order/stream mismatch"
  require (ordinal ≤ outputFrameLimit) "command output frame bound exceeded"
  require (total ≤ 1048576) "command output bound exceeded"
  return { s with outputs := Function.update s.outputs seq (some (ordinal, total)) }

def waitStatusOk (status : Nat) : Prop :=
  ¬ (bit status 0xffff0000 ∨ status &&& 0x7f = 0x7f ∨ bit status 0x7f ∧ bit status 0xff00)

instance (status : Nat) : Decidable (waitStatusOk status) :=
  inferInstanceAs (Decidable (¬ _))

def validateExit (s : ReplayState) (request seq : Nat) (body : List UInt8) :
    Except String ReplayState := do
  require (request = kindExec ∧ body.length = 28 ∧ seq ∉ s.terminals ∧
    seq ∉ s.rejected) "duplicate or invalid terminal"
  let flags := word 1 body
  let status := word 2 body
  let error := word 3 body
  let total := word 4 body
  let dropped := word 5 body
  let ordinal := word 6 body
  require (word 0 body = seq ∧ (ordinal, total) = s.output seq) "terminal/output mismatch"
  require (¬ unknownBits flags ∧ (bit flags 16 ↔ toSigned error < 0) ∧
    ¬ toSigned error > 0) "invalid terminal flags or exec errno"
  require (dropped ≠ 0 ↔ bit flags 4) "truncation/count mismatch"
  require (bit flags 64 → status = 0 ∧ bit flags 8) "unavailable wait status has a value"
  require (bit flags 64 ∨ waitStatusOk status) "invalid terminal wait status"
  require (bit flags 256 → error = 0 ∧ bit flags 8) "invalid unknown exec state"
  require (bit flags 32 → s.controlSequence ≠ none ∧ bit flags 8 ∧ bit flags 128)
    "unjoined CONTROL interruption"
  if seq ∉ s.accepted then
    require (flags = 16 ∧ status = 0 ∧ total = 0 ∧ dropped = 0 ∧ ordinal = 0)
      "terminal without accepted EXEC or pre-spawn failure"
    require (seq ∉ s.responses) "duplicate EXEC response"
    return { s.answered seq with terminals := insert seq s.terminals }
  else return { s with terminals := insert seq s.terminals }

/-- `{EXEC: ACK, CANCEL: ACK, STATUS: STATUS_REPLY, CONTROL: CONTROL_ACK}[request]`. -/
def expectedAck (request : Nat) : Nat :=
  if request = kindStatus then kindStatusReply
  else if request = kindControl then kindControlAck
  else kindAck

def execAck (s : ReplayState) (seq : Nat) (body : List UInt8) :
    Except String ReplayState := do
  let identity := word 0 body
  if word 1 body = 0 then
    require (identity = seq ∧ word 2 body ≠ 0 ∧ word 3 body = 0 ∧ word 4 body = 0 ∧
      word 5 body = 0 ∧ word 6 body = 0) "invalid EXEC acceptance"
    require (s.accepted \ s.terminals = ∅) "overlapping accepted commands"
    return { s with accepted := insert seq s.accepted }
  else if word 1 body = 1 then
    require ((word 2 body ≠ 0 ∨ word 3 body ≠ 0) ∧ identity ≠ seq) "invalid EXEC rejection"
    return { s with rejected := insert seq s.rejected }
  else .error "invalid EXEC disposition"

def cancelAck (s : ReplayState) (seq : Nat) (body : List UInt8) :
    Except String ReplayState := do
  let target := value ((s.requestBodies seq).getD [])
  let identity := word 0 body
  let last := word 7 body
  if word 1 body = 0 then
    require (target = identity ∧ word 2 body ≠ 0 ∧ bit (word 4 body) 1) "invalid CANCEL acceptance"
  else if word 1 body = 1 then
    require (target = last ∧ target ∈ s.terminals) "invalid completed CANCEL"
  else if word 1 body = 2 then
    require (¬ (target = identity ∧ word 2 body ≠ 0 ∨ target = last)) "invalid stale CANCEL"
  else .error "invalid CANCEL disposition"
  return s

def stateAck (s : ReplayState) (request : Nat) (body : List UInt8) :
    Except String ReplayState := do
  require (word 1 body = 0 ∧ (request = kindControl → word 2 body = 0 ∧ word 3 body ≠ 0))
    "invalid STATUS/CONTROL acknowledgement"
  if request = kindControl then
    require (s.accepted \ s.terminals = ∅) "CONTROL lacks command terminal evidence"
    return { s with finished := true }
  else return s

def ackFields (s : ReplayState) (request seq : Nat) (body : List UInt8) :
    Except String Unit := do
  let identity := word 0 body
  let active := word 2 body
  let last := word 7 body
  require ((active = 0 ∨ active = 1) ∧ (word 3 body = 0 ∨ word 3 body = 1) ∧
    ¬ unknownBits (word 4 body) ∧ word 5 body ≤ 1048576)
    "invalid supervisor state fields"
  require (identity ≠ 0 → s.requests identity = some kindExec) "unknown current command"
  require (last ≠ 0 → last ∈ s.terminals) "unobserved last terminal"
  require (active ≠ 0 → identity ∈ s.accepted ∧ identity ∉ s.terminals ∨
    request = kindExec ∧ identity = seq) "active command was not accepted"

def validateAck (s : ReplayState) (request kind seq : Nat) (body : List UInt8) :
    Except String ReplayState := do
  require (kind = expectedAck request ∧ body.length = 32) "unexpected acknowledgement"
  require (seq ∉ s.responses) "duplicate acknowledgement"
  ackFields s request seq body
  let s ←
    if request = kindExec then execAck s seq body
    else if request = kindCancel then cancelAck s seq body
    else stateAck s request body
  return s.answered seq

def validateFault (s : ReplayState) (seq : Nat) (body : List UInt8) :
    Except String ReplayState := do
  require (body.length = 8 ∧ word 0 body = seq ∧ word 1 body = 1 ∧ s.faulted = false)
    "invalid overload fault"
  return { s with faulted := true }

def validateResponse (s : ReplayState) (request : Nat) (frame : Frame) :
    Except String ReplayState :=
  if frame.kind = kindOutput then validateOutput s request frame.seq frame.body
  else if frame.kind = kindExit then validateExit s request frame.seq frame.body
  else if frame.kind ∈ [kindAck, kindStatusReply, kindControlAck] then
    validateAck s request frame.kind frame.seq frame.body
  else if frame.kind = kindFault then validateFault s frame.seq frame.body
  else .error "unknown response type"

def validate (s : ReplayState) (frame : Frame) : Except String ReplayState := do
  require (s.finished = false) "response after CONTROL ACK"
  if frame.kind = kindReady then validateReady s frame.seq frame.body
  else
    require (s.ready ≠ none) "response before native READY"
    match s.requests frame.seq with
    | none => .error "response has no durable request"
    | some request => validateResponse s request frame

def validateAll (s : ReplayState) (frames : List Frame) : Except String ReplayState :=
  frames.foldlM validate s

/-! `send` and `poll`. -/

def register (s : ReplayState) (seq kind : Nat) (body : List UInt8) : ReplayState :=
  { s with
    requests := Function.update s.requests seq (some kind)
    requestBodies := Function.update s.requestBodies seq (some body)
    controlSequence := if kind = kindControl then some seq else s.controlSequence
    pending := if kind = kindControl then s.pending else some seq }

def sendOk (s : Session) (kind : Nat) (body : List UInt8) : Except String Unit := do
  require (s.stopped = false) "session stopped; replay forbidden"
  require (s.state.ready ≠ none) "native READY not observed"
  validateRequest kind body
  require (s.state.controlSequence = none) "CONTROL already submitted"
  require (kind ≠ kindControl → s.state.pending = none ∧ s.state.faulted = false)
    "normal request window unavailable"
  require (s.sequence < 0xffffffff) "request sequence exhausted"
  require (body.length + 32 ≤ maxPayload) "payload too large"

/-- `send` when the transport takes `count` bytes before the deadline, with the
bytes it took; fewer than the whole frame stop the session. -/
def send (link : Link) (s : Session) (kind : Nat) (body : List UInt8)
    (count : Nat) : Except String (Session × List UInt8) := do
  sendOk s kind body
  let wire := Frame.encode link ⟨kind, s.sequence, body⟩
  let taken := wire.take count
  return ({ s with
    state := register s.state s.sequence kind body
    sequence := s.sequence + 1
    tx := s.tx ++ taken
    stopped := decide (taken.length < wire.length) }, taken)

def poll (link : Link) (s : Session) (data : List UInt8) : Except String Session := do
  require (s.stopped = false) "session stopped"
  require (data ≠ []) "transport closed; no reconnect"
  require (s.rawCount + data.length ≤ sessionRxLimit) "session capture limit exceeded"
  let (frames, pending) ← feed link (s.decoderPending ++ data)
  let state ← validateAll s.state frames
  require (state.finished = true → pending = []) "trailing bytes after CONTROL ACK"
  return { s with
    state
    rx := s.rx ++ data
    rawCount := s.rawCount + data.length
    decoderPending := pending }

end NativeInitLab.RootConsole.Host
