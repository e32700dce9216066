import NativeInitLab.RootConsole.Device

namespace NativeInitLab.RootConsole.Device

open FixedWidth LittleEndian

def receiveTarget (s : State) : Nat := if s.rxSize ≠ 0 then s.rxSize else headerSize

def append (s : State) (bytes : List UInt8) (now : Nat) : State :=
  { s with
    rx := s.rx ++ bytes
    partialStart := if s.rx = [] then now else s.partialStart
    log := s.log ++ [.received bytes] }

def header (s : State) : Result :=
  if s.rx.length = headerSize ∧ s.rxSize = 0 then
    if headOk s.rx then ({ s with rxSize := headerSize + headSize s.rx }, none)
    else (s, some Errno.eproto)
  else (s, none)

def clearRx (result : Result) : Result :=
  ({ result.1 with rx := [], rxSize := 0 }, result.2)

def complete (p : Profile) (s : State) (now : Nat) (answers : RequestAnswers) : Result :=
  if s.rxSize ≠ 0 ∧ s.rx.length = s.rxSize then clearRx (request p s now answers)
  else (s, none)

def receive (p : Profile) (s : State) (now : Nat) (answer : ReadAnswer)
    (answers : RequestAnswers) : Result :=
  match answer with
  | .failed errno => (s, errno.lasting)
  | .data bytes =>
    if bytes = [] ∨ bytes.length > receiveTarget s - s.rx.length then
      (s, some Errno.eio)
    else andThen (header (append s bytes now)) fun s => complete p s now answers

/-! `rc1_output_tick`: one bounded read of each output pipe. -/

abbrev outputChunk : Nat := 768

def outputBody (s : State) (stream : Nat) (data : List UInt8) : List UInt8 :=
  words [s.id, s.ordinal + 1, stream + 1] ++ data

def discard (s : State) (count : Nat) : State :=
  { s with
    flags := s.flags ||| flagTruncated
    dropped :=
      if s.dropped ≤ 2 ^ 32 - 1 - count then s.dropped + count else 2 ^ 32 - 1 }

def forward (link : Link) (s : State) (stream : Nat) (data : List UInt8) : Result :=
  andThen (queue link { s with ordinal := s.ordinal + 1 } kindOutput s.id
      (outputBody s stream data)) fun queued =>
    ({ queued with
        total := queued.total + data.length, outputTurn := (stream + 1) % 2 }, none)

def outputStalled (s : State) : Prop :=
  queueSlots - 3 ≤ s.queue.length ∧ s.total < outputLimit ∧ s.ordinal < outputFrameLimit

instance (s : State) : Decidable (outputStalled s) :=
  inferInstanceAs (Decidable (_ ∧ _))

def outputData (link : Link) (s : State) (stream : Nat) (data : List UInt8) : Result :=
  let s := note s (.read s.id stream data)
  if s.total + data.length > outputLimit ∨ s.ordinal ≥ outputFrameLimit then
    (discard s data.length, none)
  else forward link s stream data

def closePipe (s : State) (i : Nat) : State :=
  { s with pipe := Function.update s.pipe i false }

def outputSlot (link : Link) (s : State) (stream : Nat) (answer : ReadAnswer) : Result :=
  if s.pipe stream = false ∨ outputStalled s then (s, none)
  else
    match answer.clip outputChunk with
    | .data [] => (closePipe (note s (.ended s.id stream)) stream, none)
    | .data data => outputData link s stream data
    | .failed errno => (s, errno.lasting)

def outputTick (link : Link) (s : State) (answers : Nat → ReadAnswer) : Result :=
  let first := s.outputTurn
  andThen (outputSlot link s (first % 2) (answers (first % 2))) fun s =>
    outputSlot link s ((first + 1) % 2) (answers ((first + 1) % 2))

/-! `rc1_child_tick`, stage by stage. -/

def timeoutStage (s : State) (now : Nat) : State :=
  if s.timeout ≤ sub64 now s.commandStart then cancel s now flagTimeout else s

def killStage (s : State) (now : Nat) : State :=
  if s.cancelPhase = 1 ∧ 250 ≤ sub64 now s.cancelStart then
    { signal s 9 with cancelPhase := 2 }
  else s

def execStage (s : State) (answer : ReadAnswer) : Result :=
  if s.pipe 2 = false then (s, none)
  else
    match answer.clip (4 - s.execBytes.length) with
    | .data [] =>
      if s.execBytes ≠ [] then (s, some Errno.eproto)
      else (closePipe { s with execSeen := true } 2, none)
    | .data bytes =>
      let s := { s with execBytes := s.execBytes ++ bytes }
      if s.execBytes.length = 4 then
        (closePipe { s with
            execErrno := toSigned (value s.execBytes)
            flags := s.flags ||| flagSetup
            execSeen := true } 2, none)
      else (s, none)
    | .failed errno => (s, errno.lasting)

def waitStage (s : State) (now : Nat) (answer : WaitAnswer) : Result :=
  if s.reaped then (s, none)
  else
    match answer with
    | .running => (s, none)
    | .reaped status =>
      (cancel { s with status := status.word, reaped := true, drainStart := now } now 0, none)
    | .failed errno => (s, if errno = Errno.eintr then none else some errno)

def overdue (s : State) (now : Nat) : Prop :=
  s.cancelPhase ≠ 0 ∧ 2000 ≤ sub64 now s.cancelStart

instance (s : State) (now : Nat) : Decidable (overdue s now) :=
  inferInstanceAs (Decidable (_ ∧ _))

def clean (s : State) (answers : ChildAnswers) : Prop :=
  s.reaped = true ∧ answers.waitGroup = some Errno.echild ∧
    answers.killGroup = some Errno.esrch ∧ s.pipe 0 = false ∧ s.pipe 1 = false ∧
    s.execSeen = true

instance (s : State) (answers : ChildAnswers) : Decidable (clean s answers) :=
  inferInstanceAs (Decidable (_ ∧ _))

def unknownFlags (s : State) : State :=
  { s with
    flags := (s.flags ||| if s.reaped then 0 else flagWaitUnknown) |||
      if s.execSeen then 0 else flagExecUnknown
    status := if s.reaped then s.status else 0 }

def uncleanFlags (s : State) (isClean : Bool) : State :=
  if isClean then s
  else
    { s with
      blocked := true
      flags := s.flags ||| flagCleanup ||| flagOutputIncomplete }

def retire (s : State) : State :=
  closePipes { s with terminalSent := true, lastId := s.id, active := false }

def sendTerminal (link : Link) (s : State) : Result :=
  andThen (queue link s kindExit s.id (exitBody s)) fun s => (retire s, none)

def terminalStage (link : Link) (s : State) (isClean : Bool) : Result :=
  let s := unknownFlags (uncleanFlags s isClean)
  if queueSlots - 1 ≤ s.queue.length then (s, none)
  else
    andThen (sendTerminal link s) fun s =>
      (if isClean then { s with pid := 0 } else s, none)

def groupFailure (s : State) (answers : ChildAnswers) : Option Errno :=
  match answers.waitGroup with
  | none => none
  | some errno =>
    if s.reaped = false ∨ errno = Errno.echild ∨ errno = Errno.eintr then none
    else some errno

def reapStage (link : Link) (s : State) (now : Nat) (answers : ChildAnswers) : Result :=
  if s.reaped ∨ overdue s now then
    match groupFailure s answers with
    | some errno => (s, some errno)
    | none =>
      if clean s answers ∨ overdue s now then
        terminalStage link s (clean s answers)
      else (s, none)
  else (s, none)

def childTick (link : Link) (s : State) (now : Nat) (answers : ChildAnswers) : Result :=
  if s.active = false then (s, none)
  else
    andThen (outputTick link (killStage (timeoutStage s now) now) answers.output)
      fun s => andThen (execStage s answers.exec) fun s =>
        andThen (waitStage s now answers.wait) fun s => reapStage link s now answers

/-! `rc1_control_tick`. -/

def controlWait (s : State) (answer : WaitAnswer) : State :=
  match s.reaped, answer with
  | false, .reaped status => { s with status := status.word, reaped := true }
  | _, _ => s

def controlFlags (s : State) : State :=
  unknownFlags { s with
      flags := s.flags ||| flagControl ||| flagCleanup ||| flagOutputIncomplete }

def controlTerminal (link : Link) (s : State) (answer : WaitAnswer) : Result :=
  if s.active then sendTerminal link (controlFlags (controlWait s answer)) else (s, none)

def controlTick (link : Link) (s : State) (answer : WaitAnswer) : Result :=
  if s.control = 3 ∨ s.queue ≠ [] ∨ s.control = 2 then (s, none)
  else
    andThen (controlTerminal link s answer) fun s =>
      andThen (replyState link s kindControlAck s.controlSeq 0) fun s =>
        ({ s with control := 2 }, none)

/-! The loop of `rc1_console`. -/

def faultStage (link : Link) (s : State) : Result :=
  if s.overload ≠ 0 ∧ s.faultSent = false ∧ s.control = 0 ∧ s.queue.length < queueSlots - 1 then
    andThen (queue link s kindFault s.overload (words [s.overload, 1])) fun s =>
      ({ s with faultSent := true }, none)
  else (s, none)

structure TickAnswers where
  now : Except Errno Nat := .ok 0
  baselineCheck : Option Errno := none
  receive : ReadAnswer := .failed Errno.eagain
  request : RequestAnswers := {}
  child : ChildAnswers := {}
  controlWait : WaitAnswer := .running
  write : WriteAnswer := .failed Errno.eagain

def deadline (p : Profile) (s : State) (now : Nat) (answers : TickAnswers) : Option Errno :=
  if p.baseline ∧ answers.baselineCheck.isSome then answers.baselineCheck
  else if sessionMs ≤ sub64 now s.start ∨ s.rx ≠ [] ∧ 5000 < sub64 now s.partialStart then
    some Errno.etimedout
  else none

def receiveStage (p : Profile) (s : State) (now : Nat) (answers : TickAnswers) : Result :=
  if s.control = 0 then receive p s now answers.receive answers.request else (s, none)

def progressStage (p : Profile) (s : State) (now : Nat) (answers : TickAnswers) : Result :=
  if s.control ≠ 0 then
    if 5000 ≤ sub64 now s.controlStart then (s, some Errno.etimedout)
    else controlTick p.link s answers.controlWait
  else childTick p.link s now answers.child

/-- How a turn of the loop ends: another turn, or what `rc1_console` returns, which
is 1 after an acknowledged CONTROL, 2 after a clean detach, or an error. -/
inductive Turn where
  | continued
  | controlled
  | detached
  | failed (errno : Errno)
  deriving DecidableEq, Repr

def stop (s : State) : State := closePipes (signal s 9)

def finish (s : State) : State × Turn :=
  if s.control = 3 ∧ s.queue = [] then (closePipes s, .detached)
  else if s.control = 2 ∧ s.queue = [] then (stop s, .controlled)
  else (s, .continued)

def stages (p : Profile) (s : State) (now : Nat) (answers : TickAnswers) : Result :=
  andThen (receiveStage p s now answers) fun s =>
    andThen (progressStage p s now answers) fun s =>
      andThen (faultStage p.link s) fun s => (flush s answers.write).1

def tick (p : Profile) (s : State) (answers : TickAnswers) : State × Turn :=
  match answers.now with
  | .error errno => (stop s, .failed errno)
  | .ok now =>
    match deadline p s now answers with
    | some errno => (stop s, .failed errno)
    | none =>
      match stages p s now answers with
      | (s, some errno) => (stop s, .failed errno)
      | (s, none) => finish s

def turns (p : Profile) : State → List TickAnswers → State × Turn
  | s, [] => (s, .continued)
  | s, answers :: rest =>
    match tick p s answers with
    | (s, .continued) => turns p s rest
    | stopped => stopped

def readyBody (uid gid : Nat) : List UInt8 :=
  words [1, sessionMs, timeoutMaxMs, outputLimit, 767, 255, uid, gid]

def boot (link : Link) (start uid gid : Nat) : State :=
  (queue link { start := start } kindReady 2 (readyBody uid gid)).1

def console (p : Profile) (start uid gid : Nat) (answers : List TickAnswers) : State × Turn :=
  turns p (boot p.link start uid gid) answers

end NativeInitLab.RootConsole.Device
