import NativeInitLab.Library.Lockstep
import NativeInitLab.Library.NumberedFiles
import Mathlib.Algebra.Group.Int.Defs
import Mathlib.Logic.Function.Basic

namespace NativeInitLab.F1

open Lockstep NumberedFiles

/-! The records of an F1 run: the tables, the reader's check of the whole chain, and the check
that the writer makes before it appends. -/

abbrev Str := List Char

inductive RunState where
  | preflight
  | approved
  | downloadIdentified
  | candidateFlashed
  | observed
  | recoveryDownload
  | rollbackFlashed
  | healthVerified
  | closed
  | aborted
  deriving DecidableEq

def nextStates : Option RunState → List RunState
  | none => [.preflight]
  | some .preflight => [.approved, .aborted]
  | some .approved => [.downloadIdentified, .recoveryDownload, .aborted]
  | some .downloadIdentified => [.candidateFlashed, .recoveryDownload, .aborted]
  | some .candidateFlashed => [.observed, .aborted]
  | some .observed => [.recoveryDownload, .aborted]
  | some .recoveryDownload => [.rollbackFlashed, .aborted]
  | some .rollbackFlashed => [.healthVerified, .aborted]
  | some .healthVerified => [.closed, .aborted]
  | some .closed => []
  | some .aborted => []

inductive EventName where
  | liveSessionStart
  | candidateFlashStart
  | candidateFlashDone
  | candidateBootReady
  | rollbackFlashStart
  | rollbackFlashDone
  | rollbackBootReady
  | liveSessionEnd
  deriving DecidableEq

def timeline : List EventName :=
  [.liveSessionStart, .candidateFlashStart, .candidateFlashDone, .candidateBootReady,
    .rollbackFlashStart, .rollbackFlashDone, .rollbackBootReady, .liveSessionEnd]

def recoveryTimeline : List EventName :=
  [.liveSessionStart, .rollbackFlashStart, .rollbackFlashDone, .rollbackBootReady, .liveSessionEnd]

def recoveryEventStates : List RunState := [.recoveryDownload, .rollbackFlashed, .healthVerified]

def eventState : EventName → RunState
  | .liveSessionStart => .preflight
  | .candidateFlashStart => .downloadIdentified
  | .candidateFlashDone => .candidateFlashed
  | .candidateBootReady => .observed
  | .rollbackFlashStart => .recoveryDownload
  | .rollbackFlashDone => .rollbackFlashed
  | .rollbackBootReady => .healthVerified
  | .liveSessionEnd => .healthVerified

inductive CheckpointName where
  | candidateTransferAttempt
  | rollbackTransferAttempt
  | downloadRequestRevalidation
  deriving DecidableEq

def checkpointState : CheckpointName → RunState
  | .candidateTransferAttempt => .downloadIdentified
  | .rollbackTransferAttempt => .recoveryDownload
  | .downloadRequestRevalidation => .recoveryDownload

def maxTransferAttempts : Nat := 2

def maxRecord : Nat := 32 * 1024

inductive Kind where
  | transition
  | event
  | checkpoint
  deriving DecidableEq

/-- An action text: that of a state, an event or a checkpoint, or any other. -/
inductive Action where
  | state (state : RunState)
  | event (name : EventName)
  | checkpoint (name : CheckpointName)
  | other (text : Str)
  deriving DecidableEq

def stateAction (state : RunState) : Action := .state state

def boundedText (text : Str) (maximum : Nat) : Bool :=
  text ≠ [] && text.length ≤ maximum && !text.contains '\x00'

def digestText (text : Str) : Bool :=
  text.length == 64 && text.all fun character =>
    ('0' ≤ character && character ≤ '9') || ('a' ≤ character && character ≤ 'f')

structure Artifact where
  path : Str
  size : Int
  sha256 : Str
  deriving DecidableEq

def Artifact.validate (artifact : Artifact) (label : String) : Except String Unit := do
  require (boundedText artifact.path 1024 = true) (label ++ ".path must be a bounded string")
  require (1 ≤ artifact.size ∧ artifact.size ≤ 2 ^ 40) (label ++ ".size is invalid")
  require (digestText artifact.sha256 = true) (label ++ ".sha256 is not a lowercase SHA256")

/-- The details of a record: the two objects that a check reads, or any other object by its
canonical text. -/
inductive Details where
  | attempt (attempt : Int) (start : Artifact)
  | revalidation (reason errorType errorSha256 : Str)
  | other (text : Str)
  deriving DecidableEq

abbrev Attempts := CheckpointName → Nat

def validateCheckpoint (name : CheckpointName) (outcome : Str) (details : Details)
    (attempts : Attempts) : Except String Attempts :=
  if name = .downloadRequestRevalidation then
    match details with
    | .revalidation reason errorType errorSha256 => do
      require (outcome = "parked".toList ∧ attempts name = 0 ∧ reason ≠ [] ∧
        errorType ≠ [] ∧ digestText errorSha256 = true)
        "Download request revalidation checkpoint is invalid"
      return Function.update attempts name 1
    | _ => .error "Download request revalidation checkpoint details keys do not match the v2 schema"
  else do
    require (outcome = "attempt_started".toList) "journal checkpoint outcome is invalid"
    match details with
    | .attempt attempt start => do
      require (attempt = attempts name + 1 ∧ attempt ≤ maxTransferAttempts)
        "journal checkpoint attempt sequence is invalid"
      start.validate "journal checkpoint start"
      return Function.update attempts name (attempts name + 1)
    | _ => .error "journal checkpoint details keys do not match the v2 schema"

structure Body where
  sequence : Nat
  timestampUtc : Str
  kind : Kind
  state : RunState
  action : Action
  outcome : Str
  details : Details
  bindingSha256 : Str
  previousRecordSha256 : Str
  deriving DecidableEq

structure Record extends Body where
  recordSha256 : Str
  deriving DecidableEq

/-- The hash of a record without its own hash, and the length of its payload. -/
structure Codec where
  recordHash : Body → Str
  size : Record → Nat

structure Name where
  sequence : Nat
  kind : Kind
  action : Action
  deriving DecidableEq

def Record.name (record : Record) : Name := ⟨record.sequence, record.kind, record.action⟩

structure Head where
  bindingSha256 : Str
  recordCount : Nat
  lastSequence : Nat
  lastRecordSha256 : Str
  deriving DecidableEq

def zeroSha256 : Str := List.replicate 64 '0'

def eventOrder (state : Option RunState) (events : List EventName) : List EventName :=
  if state.any (fun state => recoveryEventStates.contains state) = true ∧
      .candidateFlashStart ∉ events then recoveryTimeline
  else timeline

structure Scan where
  state : Option RunState := none
  previous : Str := zeroSha256
  events : List EventName := []
  attempts : Attempts := fun _ => 0
  records : List Record := []

def Scan.follow (scan : Scan) (record : Record) : Except String Scan :=
  match record.kind, record.action with
  | .transition, action => do
    require (record.state ∈ nextStates scan.state ∧ action = stateAction record.state)
      s!"journal transition {scan.records.length} is invalid"
    return { scan with state := some record.state }
  | .event, .event name => do
    require (some record.state = scan.state ∧ some (eventState name) = scan.state)
      s!"journal event {scan.records.length} is invalid"
    require ((eventOrder scan.state scan.events)[scan.events.length]? = some name)
      s!"journal timeline {scan.records.length} is out of order"
    return { scan with events := scan.events ++ [name] }
  | .event, _ => .error s!"journal event {scan.records.length} is invalid"
  | .checkpoint, .checkpoint name => do
    require (some record.state = scan.state ∧ some (checkpointState name) = scan.state)
      s!"journal checkpoint {scan.records.length} is invalid"
    let attempts ← validateCheckpoint name record.outcome record.details scan.attempts
    return { scan with attempts }
  | .checkpoint, _ => .error s!"journal checkpoint {scan.records.length} is invalid"

section Reader

variable (codec : Codec) (binding : Str)

def Scan.enter (scan : Scan) (file : Slot Name Record) : Except String Scan :=
  match file.content with
  | none => .error s!"journal record {scan.records.length} is not valid JSON"
  | some record => do
    require (file.name.sequence = scan.records.length ∧ record.sequence = scan.records.length)
      s!"journal record {scan.records.length} identity mismatch"
    require (record.bindingSha256 = binding ∧ record.previousRecordSha256 = scan.previous ∧
      record.recordSha256 = codec.recordHash record.toBody)
      s!"journal record {scan.records.length} chain mismatch"
    let followed ← scan.follow record
    return { followed with
      previous := record.recordSha256
      records := scan.records ++ [record] }

def headCount (head : Option Head) (records : List Record) : Except String Nat :=
  match records, head with
  | [], none => .ok 0
  | [], some _ => .error "journal head exists without records"
  | _ :: _, none => .error "journal head is missing or indirect"
  | first :: rest, some head => do
    require (head.bindingSha256 = binding ∧ 1 ≤ head.recordCount ∧
      head.recordCount ≤ (first :: rest).length ∧
      head.lastSequence = head.recordCount - 1 ∧
      ((first :: rest)[head.recordCount - 1]?).map Record.recordSha256 = some head.lastRecordSha256)
      "journal head does not match the durable chain"
    return head.recordCount

def readRecords (files : List (Slot Name Record)) (head : Option Head) :
    Except String (List Record) := do
  let scan ← files.foldlM (Scan.enter codec binding) {}
  discard (headCount binding head scan.records)
  return scan.records

def currentState (records : List Record) : Option RunState :=
  (records.reverse.find? fun record => record.kind == .transition).map fun record => record.state

def recordedEvent (record : Record) : Option EventName :=
  match record.kind, record.action with
  | .event, .event name => some name
  | _, _ => none

def recordedEvents (records : List Record) : List EventName := records.filterMap recordedEvent

def recordAttempt (attempts : Attempts) (record : Record) : Attempts :=
  match record.kind, record.action, record.details with
  | .checkpoint, .checkpoint .downloadRequestRevalidation, _ =>
    Function.update attempts .downloadRequestRevalidation 1
  | .checkpoint, .checkpoint name, .attempt attempt _ =>
    Function.update attempts name attempt.toNat
  | _, _, _ => attempts

def recordedAttempts (records : List Record) : Attempts :=
  records.foldl recordAttempt fun _ => 0

inductive Call where
  | transition (state : RunState) (outcome : Str) (details : Details)
  | event (action : Action) (details : Details)
  | checkpoint (action : Action) (outcome : Str) (details : Details)

structure Entry where
  kind : Kind
  state : RunState
  action : Action
  outcome : Str
  details : Details

def Call.entry (current : Option RunState) : Call → Except String Entry
  | .transition state outcome details =>
    .ok ⟨.transition, state, stateAction state, outcome, details⟩
  | .event action details =>
    match current with
    | none => .error "journal has no state"
    | some state => .ok ⟨.event, state, action, "recorded".toList, details⟩
  | .checkpoint action outcome details =>
    match current with
    | none => .error "journal has no state"
    | some state => .ok ⟨.checkpoint, state, action, outcome, details⟩

def checkEntry (records : List Record) (entry : Entry) : Except String Unit :=
  match entry.kind, entry.action with
  | .transition, action =>
    require (entry.state ∈ nextStates (currentState records) ∧
      action = stateAction entry.state) "invalid transition"
  | .event, .event name =>
    require (currentState records = some entry.state ∧ eventState name = entry.state ∧
      (eventOrder (currentState records) (recordedEvents records))[
        (recordedEvents records).length]? = some name) "invalid timeline event"
  | .event, _ => .error "invalid timeline event"
  | .checkpoint, .checkpoint name => do
    require (currentState records = some entry.state ∧ checkpointState name = entry.state)
      "invalid journal checkpoint"
    discard (validateCheckpoint name entry.outcome entry.details (recordedAttempts records))
  | .checkpoint, _ => .error "invalid journal checkpoint"

def lastSha256 (records : List Record) : Str :=
  (records.getLast?.map Record.recordSha256).getD zeroSha256

def newBody (records : List Record) (timestampUtc : Str) (entry : Entry) : Body where
  sequence := records.length
  timestampUtc
  kind := entry.kind
  state := entry.state
  action := entry.action
  outcome := entry.outcome
  details := entry.details
  bindingSha256 := binding
  previousRecordSha256 := lastSha256 records

def newRecord (records : List Record) (timestampUtc : Str) (entry : Entry) : Record where
  toBody := newBody binding records timestampUtc entry
  recordSha256 := codec.recordHash (newBody binding records timestampUtc entry)

def prepare (records : List Record) (timestampUtc : Str) (call : Call) :
    Except String Record := do
  let entry ← call.entry (currentState records)
  checkEntry records entry
  require (boundedText entry.outcome 96 = true) "journal outcome must be a bounded string"
  return newRecord codec binding records timestampUtc entry

end Reader

end NativeInitLab.F1
