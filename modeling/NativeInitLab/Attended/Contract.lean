import NativeInitLab.Library.Lockstep

namespace NativeInitLab.Attended

open Lockstep

/-! The values that an attended session is given.  A field that may hold a value of a wrong
type has `none` for it. -/

abbrev Str := List Char

abbrev Flag := Option Bool

def isAlphanumeric (character : Char) : Bool :=
  ('A' ≤ character && character ≤ 'Z') || ('a' ≤ character && character ≤ 'z') ||
    ('0' ≤ character && character ≤ '9')

def isIdentity : Str → Bool
  | [] => false
  | first :: rest =>
    isAlphanumeric first && rest.length ≤ 127 &&
      rest.all fun character => isAlphanumeric character || character ∈ "_.:+-".toList

def isSha256 (text : Str) : Bool :=
  text.length == 64 && text.all fun character =>
    ('0' ≤ character && character ≤ '9') || ('a' ≤ character && character ≤ 'f')

def exactIdentity (value : Option Str) : Bool := value.any isIdentity

def exactSha256 (value : Option Str) : Bool := value.any isSha256

inductive RiskTier where
  | hostOnly
  | transientNoPayloadControl
  | bootOnlyWithExactRollback
  deriving DecidableEq

inductive Workflow where
  | residentInstall
  | switchrootExperiment
  | attendedSession
  deriving DecidableEq

inductive SessionAction where
  | switchrootExperiment
  deriving DecidableEq

structure SessionPreflight where
  operatorAttended : Flag
  targetIdentityMatches : Flag
  residentIdentityMatches : Flag
  rollbackReady : Flag
  recoveryAvailable : Flag
  unattendedResidentD1Qualified : Flag := some false
  deriving DecidableEq

def SessionPreflight.deviceChecks (preflight : SessionPreflight) : List Flag :=
  [preflight.targetIdentityMatches, preflight.residentIdentityMatches,
    preflight.rollbackReady, preflight.recoveryAvailable]

def SessionPreflight.validate (preflight : SessionPreflight) : Except String Unit := do
  require ((preflight.operatorAttended :: preflight.unattendedResidentD1Qualified ::
    preflight.deviceChecks).all Option.isSome = true) "session preflight value is not boolean"
  require (preflight.operatorAttended ≠ preflight.unattendedResidentD1Qualified ∧
    preflight.deviceChecks.all (fun value => value == some true) = true)
    "session preflight is not safe to continue"

def validateAttendedPreflight : Option SessionPreflight → Except String Unit
  | none => .error "attended session preflight type is not exact"
  | some preflight => do
    preflight.validate
    require (preflight.operatorAttended = some true ∧
      preflight.unattendedResidentD1Qualified = some false)
      "attended session requires operator attendance"

structure ObserverRepair where
  previousSha256 : Option Str
  repairedSha256 : Option Str
  focusedTestsPassed : Flag
  hostOnly : Flag
  deriving DecidableEq

def ObserverRepair.validate (repair : ObserverRepair) : Except String Unit := do
  require (exactSha256 repair.previousSha256 = true ∧ exactSha256 repair.repairedSha256 = true ∧
    repair.previousSha256 ≠ repair.repairedSha256) "observer repair identity is not exact"
  require (repair.focusedTestsPassed = some true ∧ repair.hostOnly = some true)
    "observer repair lacks host-only focused validation"

inductive SessionActionStatus where
  | proved
  | refuted
  | noProofObserver
  | experimentBlocked
  | windowExpiredNoEffect
  | deviceSafetyFailure
  | controlAmbiguous
  deriving DecidableEq

inductive FailureClass where
  | absent
  | text (value : Str)
  | other
  deriving DecidableEq

def FailureClass.exact : FailureClass → Bool
  | .absent => true
  | .text value => isIdentity value
  | .other => false

def FailureClass.endsWith (failure : FailureClass) (ending : String) : Bool :=
  match failure with
  | .text value => ending.toList.isSuffixOf value
  | _ => false

inductive Postflight where
  | absent
  | preflight (value : SessionPreflight)
  | other
  deriving DecidableEq

def Postflight.isPreflight : Postflight → Bool
  | .preflight _ => true
  | _ => false

structure SessionActionResult where
  status : Option SessionActionStatus
  actionStarted : Flag
  failureClass : FailureClass := .absent
  postflight : Postflight := .absent
  independentSafetyCheck : Flag := some false
  deriving DecidableEq

/-- `self.postflight.validate()`; a value of another type was refused before. -/
def Postflight.validate : Postflight → Except String Unit
  | .preflight value => value.validate
  | _ => .ok ()

def validatePostflight (status : SessionActionStatus) (result : SessionActionResult) :
    Except String Unit :=
  if status ∈ [.proved, .refuted, .noProofObserver] then do
    require (result.actionStarted = some true) "continuing session action was not started"
    require (result.postflight.isPreflight = true) "continuing session action lacks postflight"
    result.postflight.validate
  else if result.postflight ≠ .absent then do
    require (status = .experimentBlocked) "unsafe session action cannot claim postflight"
    -- A value that has no `validate` raises here, which the caller takes like any failure.
    require (result.postflight.isPreflight = true) "object has no attribute 'validate'"
    result.postflight.validate
  else .ok ()

def SessionActionResult.validate (result : SessionActionResult) :
    Except String SessionActionStatus :=
  match result.status with
  | none => .error "session action status is not exact"
  | some status => do
    require (result.actionStarted ≠ none) "session action_started is not boolean"
    require (result.independentSafetyCheck ≠ none) "session independent safety check is not boolean"
    require (result.failureClass.exact = true) "session failure class is not exact"
    if status = .proved then
      require (result.failureClass = .absent) "proved session action has a failure class"
    else
      require (result.failureClass ≠ .absent) "non-proved session action lacks a failure class"
    validatePostflight status result
    require (status = .noProofObserver → result.failureClass.endsWith "_OBSERVER" = true ∧
        result.independentSafetyCheck = some true)
      "observer no-proof is not independently bounded"
    require (status = .refuted → result.failureClass.endsWith "_REFUTED" = true)
      "refuted action class is not exact"
    require (status = .experimentBlocked → result.actionStarted = some true ∧
      result.failureClass.endsWith "_BLOCKED" = true ∧ result.postflight.isPreflight = true)
      "blocked experiment lacks exact healthy stop"
    require (status = .windowExpiredNoEffect → result.actionStarted = some false ∧
      result.failureClass = .text "SESSION_WINDOW_EXPIRED".toList ∧
      result.postflight = .absent ∧ result.independentSafetyCheck = some false)
      "expired session action claims a device effect"
    require (status = .controlAmbiguous → result.failureClass.endsWith "_AMBIGUOUS" = true)
      "control ambiguity class is not exact"
    return status

structure AttendedSessionBinding where
  approvalId : Option Str
  workflow : Workflow
  riskTier : RiskTier
  targetProfile : Option Str
  manifestSha256 : Option Str
  residentBootSha256 : Option Str
  rollbackBootSha256 : Option Str
  recoveryProfile : Option Str
  deviceEffectRunnerSha256 : Option Str
  observerSha256 : Option Str
  returnHealthProfile : Option Str
  actionAllowlist : List SessionAction
  notBeforeEpochSec : Int
  expiresAtEpochSec : Int
  maxActions : Nat

def AttendedSessionBinding.validate (binding : AttendedSessionBinding) :
    Except String Unit := do
  require (binding.workflow = .attendedSession) "session workflow is not namespaced exactly"
  require (binding.riskTier = .transientNoPayloadControl)
    "session risk tier is not namespaced exactly"
  require (exactIdentity binding.approvalId = true) "session approval identity is not exact"
  require (exactIdentity binding.targetProfile = true)
    "session target profile identity is not exact"
  require (exactIdentity binding.recoveryProfile = true)
    "session recovery profile identity is not exact"
  require (exactIdentity binding.returnHealthProfile = true)
    "session return health profile identity is not exact"
  require (exactSha256 binding.manifestSha256 = true) "session manifest SHA256 is not exact"
  require (exactSha256 binding.residentBootSha256 = true)
    "session resident boot SHA256 is not exact"
  require (exactSha256 binding.rollbackBootSha256 = true)
    "session rollback boot SHA256 is not exact"
  require (exactSha256 binding.deviceEffectRunnerSha256 = true)
    "session device effect runner SHA256 is not exact"
  require (exactSha256 binding.observerSha256 = true) "session observer SHA256 is not exact"
  require (binding.actionAllowlist ≠ [] ∧ binding.actionAllowlist.Nodup)
    "session action allowlist is not exact"
  require (0 ≤ binding.notBeforeEpochSec ∧ binding.notBeforeEpochSec < binding.expiresAtEpochSec ∧
    binding.expiresAtEpochSec - binding.notBeforeEpochSec ≤ 8 * 60 * 60)
    "session validity exceeds the eight-hour bound"
  require (1 ≤ binding.maxActions ∧ binding.maxActions ≤ 32)
    "session action budget exceeds the 32-action bound"

structure SuccessorContract where
  domain : Option Str
  predecessorOwner : Option Str
  predecessorReleaseProof : Option Str
  successorOwner : Option Str
  successorAcquisitionProofs : List (Option Str)
  visibilityProof : Option Str := none
  noSuccessorByDesign : Bool := false

def SuccessorContract.validate (item : SuccessorContract) : Except String Unit := do
  require (∀ value ∈ item.domain :: item.predecessorOwner :: item.predecessorReleaseProof ::
    item.successorOwner :: item.successorAcquisitionProofs, exactIdentity value = true)
    "successor contract identity is not exact"
  require (item.visibilityProof = none ∨ exactIdentity item.visibilityProof = true)
    "visibility proof identity is not exact"
  if item.noSuccessorByDesign then
    require (item.successorOwner = some "none".toList ∧ item.successorAcquisitionProofs = [])
      "by-design no-successor contract is inconsistent"
  else
    require (item.successorOwner ≠ some "none".toList ∧
      item.predecessorReleaseProof ≠ some [] ∧ item.successorAcquisitionProofs ≠ [])
      "domain lacks release and successor acquisition"

def addDomain (domains : List (Option Str)) (item : SuccessorContract) :
    Except String (List (Option Str)) := do
  item.validate
  require (item.domain ∉ domains) "successor domain is duplicated"
  return item.domain :: domains

def validateSuccessorContracts (contracts : List SuccessorContract) : Except String Unit := do
  require (contracts ≠ []) "at least one handoff domain is required"
  discard (contracts.foldlM addDomain [])

structure ConfirmedRefutation where
  action : SessionAction
  failureClass : FailureClass

def ConfirmedRefutation.validate (item : ConfirmedRefutation) : Except String Unit :=
  require (item.failureClass.exact = true ∧ item.failureClass.endsWith "_REFUTED" = true)
    "confirmed refutation class is not exact"

abbrev Counts := List ((SessionAction × FailureClass) × Nat)

def Counts.count (counts : Counts) (key : SessionAction × FailureClass) : Nat :=
  (counts.lookup key).getD 0

def Counts.increment (counts : Counts) (key : SessionAction × FailureClass) : Counts :=
  (key, counts.count key + 1) :: counts.filter fun entry => entry.1 != key

structure AttendedSessionContract where
  binding : AttendedSessionBinding
  successors : List SuccessorContract
  consumedApprovalIds : List Str := []
  previousRefutations : List ConfirmedRefutation := []

def countRefutation (counts : Counts) (item : ConfirmedRefutation) : Except String Counts := do
  item.validate
  let counts := counts.increment (item.action, item.failureClass)
  require (counts.count (item.action, item.failureClass) < 2)
    "repeated confirmed refutation stops the live line"
  return counts

def AttendedSessionContract.validate (contract : AttendedSessionContract) :
    Except String Unit := do
  contract.binding.validate
  validateSuccessorContracts contract.successors
  require (∀ approval ∈ contract.consumedApprovalIds,
    contract.binding.approvalId ≠ some approval) "session approval is not fresh"
  discard (contract.previousRefutations.foldlM countRefutation [])

end NativeInitLab.Attended
