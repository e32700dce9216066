import NativeInitLab.Attended.Contract

namespace NativeInitLab.Attended

open Lockstep

/-! The attended session: its state, the three calls and what they do to the injected
effects. -/

inductive Terminal where
  | repeatedObserverNoProof
  | expired
  | budgetExhausted
  | unallowlistedAction
  | operatorAbsent
  | recoveryRequired
  | intentFailed
  | expiredBeforeDispatch
  | experimentBlocked
  | repeatedRefutation
  | operatorStop
  | observerRepairRecordFailed
  deriving DecidableEq

inductive SafetyState where
  | residentHealthy
  | recoveryRequired
  deriving DecidableEq

inductive Entry where
  | preflightProven
  | approvalConsumed
  | observerNoProofAcknowledged
  | actionIntent (ordinal : Nat) (action : SessionAction)
  | actionResult (ordinal : Nat) (status : SessionActionStatus)
  | paused
  | observerRepairValidated
  | closed (terminal : Terminal)
  deriving DecidableEq

structure ActionRecord where
  ordinal : Nat
  action : SessionAction
  status : SessionActionStatus
  failureClass : FailureClass
  deriving DecidableEq

structure AttendedSession where
  contract : AttendedSessionContract
  history : List Entry := [.preflightProven, .approvalConsumed]
  openedAtEpochSec : Int := 0
  actionsUsed : Nat := 0
  lastNowEpochSec : Int := 0
  closedTerminal : Option Terminal := none
  deviceSafetyState : SafetyState := .residentHealthy
  actionResults : List ActionRecord := []
  refutationCounts : Counts := []
  activeObserverSha256 : Option Str := none
  observerRepairRequired : Bool := false
  observerNoProofAcknowledgements : Nat := 0

inductive Verdict where
  | active
  | paused
  | closed (terminal : Terminal)
  deriving DecidableEq

/-- What a call returns; the constant entries are left out. -/
structure Snapshot where
  terminal : Verdict
  sessionOpen : Bool
  sessionActive : Bool
  observerRepairRequired : Bool
  observerNoProofAcknowledgements : Nat
  activeObserverSha256 : Option Str
  actionsUsed : Nat
  actionsRemaining : Int
  openedAtEpochSec : Int
  expiresAtEpochSec : Int
  lastNowEpochSec : Int
  deviceSafetyState : SafetyState
  history : List Entry
  actionResults : List ActionRecord

inductive Event where
  | intent (acknowledged : Bool)
  | dispatched
  | result (status : SessionActionStatus)
  | resumed
  deriving DecidableEq

/-- The session after a call, the effects it reached and what it returned or raised. -/
structure Outcome where
  session : AttendedSession
  events : List Event
  answer : Except String Snapshot

namespace AttendedSession

def snapshot (s : AttendedSession) (terminal : Verdict) : Snapshot where
  terminal
  sessionOpen := s.closedTerminal.isNone
  sessionActive := s.closedTerminal.isNone && !s.observerRepairRequired
  observerRepairRequired := s.observerRepairRequired
  observerNoProofAcknowledgements := s.observerNoProofAcknowledgements
  activeObserverSha256 := s.activeObserverSha256
  actionsUsed := s.actionsUsed
  actionsRemaining := s.contract.binding.maxActions - s.actionsUsed
  openedAtEpochSec := s.openedAtEpochSec
  expiresAtEpochSec := s.contract.binding.expiresAtEpochSec
  lastNowEpochSec := s.lastNowEpochSec
  deviceSafetyState := s.deviceSafetyState
  history := s.history
  actionResults := s.actionResults

def closedAt (s : AttendedSession) (terminal : Terminal) : AttendedSession :=
  { s with closedTerminal := some terminal, history := s.history ++ [.closed terminal] }

def raises (s : AttendedSession) (failure : String) : Outcome := ⟨s, [], .error failure⟩

def close (s : AttendedSession) (events : List Event) (terminal : Terminal) : Outcome :=
  ⟨s.closedAt terminal, events, .ok ((s.closedAt terminal).snapshot (.closed terminal))⟩

def reports (s : AttendedSession) (events : List Event) (verdict : Verdict) : Outcome :=
  ⟨s, events, .ok (s.snapshot verdict)⟩

end AttendedSession

inductive Recorded where
  | returned
  | raised
  deriving DecidableEq

/-- What `invoke_action` comes to.  A value that is no result raises in `validate`. -/
inductive Invoked where
  | returned (result : SessionActionResult)
  | raised

structure ActionCall where
  action : Option SessionAction
  nowEpochSec : Option Int
  preflight : Option SessionPreflight
  acknowledgeObserverNoProof : Flag := some false
  intent : Recorded
  invoked : Invoked

structure ResumeCall where
  repair : Option ObserverRepair
  nowEpochSec : Option Int
  preflight : Option SessionPreflight
  recorded : Recorded

def Postflight.validateAttended : Postflight → Except String Unit
  | .absent => .ok ()
  | .preflight value => validateAttendedPreflight (some value)
  | .other => validateAttendedPreflight none

/-- The result that the `try` block around `invoke_action` lets through. -/
def Invoked.read : Invoked → Except String (SessionActionStatus × FailureClass)
  | .raised => .error "invoke_action raised"
  | .returned result => do
    let status ← result.validate
    result.postflight.validateAttended
    return (status, result.failureClass)

namespace AttendedSession

def resulted (s : AttendedSession) (ordinal : Nat) (action : SessionAction)
    (status : SessionActionStatus) (failureClass : FailureClass) : AttendedSession :=
  { s with
    actionResults := s.actionResults ++ [ActionRecord.mk ordinal action status failureClass]
    history := s.history ++ [Entry.actionResult ordinal status] }

def recovering (s : AttendedSession) : AttendedSession :=
  { s with deviceSafetyState := .recoveryRequired }

def counted (s : AttendedSession) (action : SessionAction) (status : SessionActionStatus)
    (failureClass : FailureClass) : AttendedSession :=
  if status = .refuted then
    { s with refutationCounts := s.refutationCounts.increment (action, failureClass) }
  else s

def paused (s : AttendedSession) : AttendedSession :=
  { s with observerRepairRequired := true, history := s.history ++ [Entry.paused] }

def proceed (s : AttendedSession) (events : List Event) (action : SessionAction)
    (status : SessionActionStatus) (failureClass : FailureClass) : Outcome :=
  if status = .refuted ∧ 2 ≤ s.refutationCounts.count (action, failureClass) then
    s.close events .repeatedRefutation
  else if s.contract.binding.maxActions ≤ s.actionsUsed then s.close events .budgetExhausted
  else if status = .noProofObserver then
    if 1 ≤ s.observerNoProofAcknowledgements then s.close events .repeatedObserverNoProof
    else s.paused.reports events .paused
  else s.reports events .active

def settle (s : AttendedSession) (events : List Event) (action : SessionAction)
    (status : SessionActionStatus) (failureClass : FailureClass) : Outcome :=
  if status = .windowExpiredNoEffect then s.close events .expiredBeforeDispatch
  else if status ∈ [.deviceSafetyFailure, .controlAmbiguous] then
    s.recovering.close events .recoveryRequired
  else if status = .experimentBlocked then s.close events .experimentBlocked
  else (s.counted action status failureClass).proceed events action status failureClass

def intended (s : AttendedSession) (action : SessionAction) : AttendedSession :=
  { s with
    history := s.history ++ [Entry.actionIntent (s.actionsUsed + 1) action]
    actionsUsed := s.actionsUsed + 1 }

/-- The session after a result that could not be read; its safety state stays. -/
def ambiguous (s : AttendedSession) (action : SessionAction) : AttendedSession :=
  { s with actionResults := s.actionResults ++ [ActionRecord.mk s.actionsUsed action
      .controlAmbiguous (.text "ACTION_RESULT_AMBIGUOUS".toList)] }

def dispatch (s : AttendedSession) (call : ActionCall) (action : SessionAction)
    (acknowledge : Bool) : Outcome :=
  match call.intent with
  | .raised => s.close [] .intentFailed
  | .returned =>
    let s := s.intended action
    match call.invoked.read with
    | .error _ =>
      (s.ambiguous action).close [.intent acknowledge, .dispatched] .recoveryRequired
    | .ok (status, failureClass) =>
      (s.resulted s.actionsUsed action status failureClass).settle
        [.intent acknowledge, .dispatched, .result status] action status failureClass

def operatorAbsent : Option SessionPreflight → Bool
  | none => false
  | some preflight =>
    preflight.operatorAttended == some false &&
      preflight.deviceChecks.all fun value => value == some true

def timed (s : AttendedSession) (now : Int) : AttendedSession :=
  { s with lastNowEpochSec := now }

/-- The checks that close the session, from the clock on. -/
def enter (s : AttendedSession) (call : ActionCall) (acknowledge : Bool) : Outcome :=
  match call.nowEpochSec with
  | none => s.raises "session time is not monotonic"
  | some now =>
    if now < s.lastNowEpochSec then s.raises "session time is not monotonic"
    else
      let s := s.timed now
      if s.contract.binding.expiresAtEpochSec ≤ now then s.close [] .expired
      else if s.contract.binding.maxActions ≤ s.actionsUsed then s.close [] .budgetExhausted
      else
        match call.action with
        | none => s.close [] .unallowlistedAction
        | some action =>
          if action ∉ s.contract.binding.actionAllowlist then
            s.close [] .unallowlistedAction
          else
            match validateAttendedPreflight call.preflight with
            | .error _ =>
              if operatorAbsent call.preflight then s.close [] .operatorAbsent
              else s.recovering.close [] .recoveryRequired
            | .ok () => s.dispatch call action acknowledge

def acknowledged (s : AttendedSession) : AttendedSession :=
  { s with
    observerRepairRequired := false
    observerNoProofAcknowledgements := s.observerNoProofAcknowledgements + 1
    history := s.history ++ [.observerNoProofAcknowledged] }

def runAction (s : AttendedSession) (call : ActionCall) : Outcome :=
  if s.closedTerminal ≠ none then s.raises "attended session is already closed"
  else
    match call.acknowledgeObserverNoProof with
    | none => s.raises "observer no-proof acknowledgement is not boolean"
    | some acknowledge =>
      if s.observerRepairRequired then
        if acknowledge = false then
          s.raises ("observer no-proof acknowledgement or repair is required " ++
            "before another action")
        else if 1 ≤ s.observerNoProofAcknowledgements then
          s.close [] .repeatedObserverNoProof
        else s.acknowledged.enter call true
      else if acknowledge then s.raises "observer no-proof acknowledgement is unexpected"
      else s.enter call false

def closeByOperator (s : AttendedSession) : Outcome :=
  if s.closedTerminal ≠ none then s.raises "attended session is already closed"
  else s.close [] .operatorStop

def checkRepair (s : AttendedSession) (call : ResumeCall) : Except String ObserverRepair :=
  match call.repair with
  | none => .error "observer repair type is not exact"
  | some repair => do
    repair.validate
    require (repair.previousSha256 = s.activeObserverSha256)
      "observer repair predecessor does not match"
    validateAttendedPreflight call.preflight
    return repair

def repaired (s : AttendedSession) (repair : ObserverRepair) : AttendedSession :=
  { s with
    activeObserverSha256 := repair.repairedSha256
    observerRepairRequired := false
    history := s.history ++ [.observerRepairValidated] }

def resumeAfterObserverRepair (s : AttendedSession) (call : ResumeCall) : Outcome :=
  if s.closedTerminal ≠ none then s.raises "attended session is already closed"
  else if s.observerRepairRequired = false then
    s.raises "attended session is not waiting for observer repair"
  else
    match call.nowEpochSec with
    | none => s.raises "session time is not monotonic"
    | some now =>
      if now < s.lastNowEpochSec then s.raises "session time is not monotonic"
      else
        let s := s.timed now
        if s.contract.binding.expiresAtEpochSec ≤ now then s.close [] .expired
        else
          match s.checkRepair call with
          | .error failure => s.raises failure
          | .ok repair =>
            match call.recorded with
            | .raised => s.close [] .observerRepairRecordFailed
            | .returned => (s.repaired repair).reports [.resumed] .active

end AttendedSession

/-- Whether the approval was consumed now, had been before, or could not be. -/
inductive Consumed where
  | now
  | earlier
  | raised
  deriving DecidableEq

def openAttendedSession (contract : AttendedSessionContract) (nowEpochSec : Option Int)
    (preflight : Option SessionPreflight) (consumed : Consumed) :
    Except String AttendedSession := do
  contract.validate
  match nowEpochSec with
  | none => .error "session approval window is not active"
  | some now =>
    require (contract.binding.notBeforeEpochSec ≤ now ∧
      now < contract.binding.expiresAtEpochSec) "session approval window is not active"
    validateAttendedPreflight preflight
    require (consumed ≠ .raised) "session approval consumption is unavailable"
    require (consumed = .now) "session approval was already consumed or not durable"
    return {
      contract
      openedAtEpochSec := now
      lastNowEpochSec := now
      refutationCounts := contract.previousRefutations.foldl
        (fun counts item => counts.increment (item.action, item.failureClass)) []
      activeObserverSha256 := contract.binding.observerSha256 }

inductive Call where
  | runAction (call : ActionCall)
  | resumeAfterObserverRepair (call : ResumeCall)
  | closeByOperator

def AttendedSession.call (s : AttendedSession) : Call → Outcome
  | .runAction call => s.runAction call
  | .resumeAfterObserverRepair call => s.resumeAfterObserverRepair call
  | .closeByOperator => s.closeByOperator

structure Step where
  before : AttendedSession
  call : Call

def Step.outcome (step : Step) : Outcome := step.before.call step.call

def AttendedSession.steps : AttendedSession → List Call → List Step
  | _, [] => []
  | s, call :: calls => ⟨s, call⟩ :: (s.call call).session.steps calls

end NativeInitLab.Attended
