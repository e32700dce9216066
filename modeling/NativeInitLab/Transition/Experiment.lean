import NativeInitLab.Attended.Contract

/-!
The switch-root experiment, `run_switchroot_experiment` of `a90_transition_engine_v2.py`, from the
moment its approval is consumed.  A field that may hold a value of a wrong type has `none` for it.
-/

namespace NativeInitLab.Transition

open Attended

inductive EffectStatus
  | pass
  | fail
  | ambiguous
  deriving DecidableEq

inductive Value
  | absent
  | text (value : Str)
  | other
  deriving DecidableEq

abbrev Evidence := List (Str × Value)

structure EffectResult where
  status : Option EffectStatus
  effectStarted : Flag
  failureClass : FailureClass := .absent
  evidence : Option Evidence := some []
  deriving DecidableEq

def EffectResult.validate (result : EffectResult) : Except String Unit :=
  if result.status = none then .error "effect status is not an exact enum"
  else if result.effectStarted = none then .error "effect_started is not an exact boolean"
  else if result.evidence = none then .error "effect evidence is not a mapping"
  else if result.failureClass.exact = false then .error "effect failure class is not exact"
  else if result.status = some .pass ∧ result.failureClass ≠ .absent then
    .error "passing effect has a failure class"
  else if result.status ≠ some .pass ∧ result.failureClass = .absent then
    .error "failed effect lacks a failure class"
  else if result.status = some .ambiguous ∧ result.failureClass.endsWith "_AMBIGUOUS" = false then
    .error "ambiguous effect class lacks exact suffix"
  else .ok ()

inductive Phase
  | guardArm
  | handoff
  | debianObservation
  | nativeReturn
  | workCleanup
  | finalHealth
  deriving DecidableEq

def Phase.name : Phase → Str
  | .guardArm => "GUARD_ARM".toList
  | .handoff => "HANDOFF".toList
  | .debianObservation => "DEBIAN_OBSERVATION".toList
  | .nativeReturn => "NATIVE_RETURN".toList
  | .workCleanup => "WORK_CLEANUP".toList
  | .finalHealth => "FINAL_HEALTH".toList

def d1Phases : List Phase :=
  [.guardArm, .handoff, .debianObservation, .nativeReturn, .workCleanup, .finalHealth]

/-- What the injected effects do in one phase: whether the intent is recorded, and what `invoke`
returns, with `none` for an exception or for an object that is no result. -/
structure PhaseEffect where
  intentRecorded : Bool
  invoke : Option EffectResult

abbrev Effects := Phase → PhaseEffect

structure FailureSignature where
  workflow : Str
  phase : Str
  failureClass : Str
  effectStarted : Bool
  lastProvenBoundary : Str
  deriving DecidableEq

def workflowName : Str := "A90_D1_SINGLE_SWITCHROOT_ACTION_V1".toList

def FailureSignature.check (signature : FailureSignature) : Except String FailureSignature :=
  if isIdentity signature.workflow && isIdentity signature.phase &&
      isIdentity signature.failureClass && isIdentity signature.lastProvenBoundary then
    .ok signature
  else .error "failure signature identity is not exact"

inductive Visibility
  | notApplicable
  | proven
  | noProof
  deriving DecidableEq

structure RunState where
  history : List Str
  lastProven : Str
  failureSignature : Option FailureSignature
  secondaryFailureSignatures : List FailureSignature
  visibility : Visibility

def RunState.started : RunState where
  history := ["PREFLIGHT".toList, "APPROVAL_CONSUMED".toList]
  lastProven := "APPROVAL_CONSUMED".toList
  failureSignature := none
  secondaryFailureSignatures := []
  visibility := .notApplicable

def RunState.note (state : RunState) (entry : Str) : RunState :=
  { state with history := state.history ++ [entry] }

def RunState.prove (state : RunState) (boundary : Str) : RunState :=
  { state with history := state.history ++ [boundary], lastProven := boundary }

def intentRecordAmbiguous : EffectResult where
  status := some .ambiguous
  effectStarted := some false
  failureClass := .text "INTENT_RECORD_AMBIGUOUS".toList

def effectExceptionAmbiguous : EffectResult where
  status := some .ambiguous
  effectStarted := some true
  failureClass := .text "EFFECT_EXCEPTION_AMBIGUOUS".toList

def checkedResult (invoke : Option EffectResult) : EffectResult :=
  match invoke with
  | none => effectExceptionAmbiguous
  | some result =>
    match result.validate with
    | .error _ => effectExceptionAmbiguous
    | .ok () => result

def RunState.runEffect (state : RunState) (effects : Effects) (phase : Phase) :
    EffectResult × RunState :=
  if (effects phase).intentRecorded = false then
    (intentRecordAmbiguous, state.note (phase.name ++ "_INTENT_AMBIGUOUS".toList))
  else
    let state := state.note (phase.name ++ "_INTENT".toList)
    let result := checkedResult (effects phase).invoke
    if result.status = some .pass then (result, state.prove (phase.name ++ "_PROVEN".toList))
    else (result, state)

def FailureClass.str : FailureClass → Str
  | .text value => value
  | _ => "None".toList

def RunState.signature (state : RunState) (phase : Phase) (result : EffectResult) :
    FailureSignature :=
  ⟨workflowName, phase.name, FailureClass.str result.failureClass,
    result.effectStarted.getD false, state.lastProven⟩

def RunState.fail (state : RunState) (phase : Phase) (result : EffectResult) :
    Except String RunState := do
  let signature ← (state.signature phase result).check
  return { state with failureSignature := some signature }

inductive ProofState
  | proven
  | refuted
  | unavailable
  deriving DecidableEq

def ProofState.name : ProofState → Str
  | .proven => "PROVEN".toList
  | .refuted => "REFUTED".toList
  | .unavailable => "UNAVAILABLE".toList

def mechanicalNames : List Str :=
  ["native_release".toList, "debian_pid1".toList, "dropbear".toList,
    "drm_master_acquired".toList, "connector_connected".toList, "modeset_committed".toList,
    "backlight_enabled".toList, "dpms_on".toList]

def requiredNames : List Str :=
  mechanicalNames ++ ["visible_confirmed".toList, "visibility_source".toList]

structure DisplayProof where
  mechanicalItems : List (Str × ProofState)
  visibleConfirmed : ProofState
  visibilitySource : Value
  deriving DecidableEq

def proofState (value : Value) (label : Str) : Except String ProofState :=
  if value = .text "PROVEN".toList then .ok .proven
  else if value = .text "REFUTED".toList then .ok .refuted
  else if value = .text "UNAVAILABLE".toList then .ok .unavailable
  else .error (String.ofList label ++ " proof state is not exact")

def Evidence.get (evidence : Evidence) (key : Str) : Value := (evidence.lookup key).getD .absent

def proofItems (evidence : Evidence) : List Str → Except String (List (Str × ProofState))
  | [] => .ok []
  | name :: names => do
    let state ← proofState (evidence.get name) name
    let items ← proofItems evidence names
    return (name, state) :: items

def displayProof (evidence : Evidence) : Except String DisplayProof :=
  if (evidence.map Prod.fst).all requiredNames.contains &&
      requiredNames.all (evidence.map Prod.fst).contains then do
    let mechanicalItems ← proofItems evidence mechanicalNames
    let visibleConfirmed ← proofState (evidence.get "visible_confirmed".toList)
      "visible_confirmed".toList
    return ⟨mechanicalItems, visibleConfirmed, evidence.get "visibility_source".toList⟩
  else .error "display observation evidence key set is not exact"

def DisplayProof.validate (proof : DisplayProof) : Except String Unit :=
  if proof.visibleConfirmed = .proven then
    if proof.visibilitySource = .text "operator".toList ∨
        proof.visibilitySource = .text "camera".toList then .ok ()
    else .error "visible proof requires operator or camera source"
  else if proof.visibilitySource ≠ .absent then
    .error "visibility source is present without visible proof"
  else .ok ()

def DisplayProof.firstNonproven (proof : DisplayProof) :
    Except String (Option (Str × ProofState)) := do
  proof.validate
  return proof.mechanicalItems.find? fun item => item.2 ≠ .proven

inductive Terminal
  | stopAmbiguous
  | stoppedNoRetry
  | passNoProofDisplayVisibility
  | passVisible
  deriving DecidableEq

def Terminal.name : Terminal → Str
  | .stopAmbiguous => "STOP_AMBIGUOUS".toList
  | .stoppedNoRetry => "STOPPED_NO_RETRY".toList
  | .passNoProofDisplayVisibility => "PASS_SWITCHROOT_RETURN_NO_PROOF_DISPLAY_VISIBILITY".toList
  | .passVisible => "PASS_SWITCHROOT_RETURN_VISIBLE".toList

structure Progress where
  state : RunState
  deferredTerminal : Option Terminal
  deferredSignature : Option FailureSignature

structure Report where
  terminal : Terminal
  state : RunState

def RunState.addSecondary (state : RunState) (signature : FailureSignature) : RunState :=
  { state with secondaryFailureSignatures := state.secondaryFailureSignatures ++ [signature] }

/-- The current failure joins the secondary ones unless it is the deferred one. -/
def Progress.keepCurrent (progress : Progress) : RunState :=
  match progress.state.failureSignature with
  | none => progress.state
  | some signature =>
    if some signature ≠ progress.deferredSignature then progress.state.addSecondary signature
    else progress.state

/-- The deferred failure joins the secondary ones unless it is the current one. -/
def Progress.keepDeferred (progress : Progress) : RunState :=
  match progress.deferredSignature with
  | none => progress.state
  | some signature =>
    if some signature ≠ progress.state.failureSignature then progress.state.addSecondary signature
    else progress.state

def Progress.defer (progress : Progress) (terminal : Terminal) : Progress :=
  if progress.deferredTerminal = some .stopAmbiguous then
    { progress with state := progress.keepCurrent }
  else if progress.deferredTerminal = none ∨ terminal = .stopAmbiguous then
    { state := if terminal = .stopAmbiguous then progress.keepDeferred else progress.state
      deferredTerminal := some terminal
      deferredSignature := progress.state.failureSignature }
  else progress

inductive Next
  | go (progress : Progress)
  | stop (report : Report)

def Progress.stop (progress : Progress) (terminal : Terminal) : Report :=
  if progress.deferredTerminal = some .stopAmbiguous then
    { terminal := .stopAmbiguous
      state := { progress.keepCurrent with failureSignature := progress.deferredSignature }.note
        Terminal.stopAmbiguous.name }
  else { terminal, state := progress.state.note terminal.name }

def observationEvidenceAmbiguous : EffectResult where
  status := some .ambiguous
  effectStarted := some false
  failureClass := .text "OBSERVATION_EVIDENCE_AMBIGUOUS".toList

def missingFailure (item : Str × ProofState) : EffectResult where
  status := some .fail
  effectStarted := some true
  failureClass := .text (item.1.map Char.toUpper ++ '_' :: item.2.name)

def visibleConfirmedRefuted : EffectResult where
  status := some .fail
  effectStarted := some true
  failureClass := .text "VISIBLE_CONFIRMED_REFUTED".toList

def terminalOf (result : EffectResult) : Terminal :=
  if result.status = some .ambiguous then .stopAmbiguous else .stoppedNoRetry

/-- `state.fail` and `defer`, on the way to the next phase. -/
def Progress.failDeferred (progress : Progress) (phase : Phase) (result : EffectResult) :
    Except String Progress := do
  let state ← progress.state.fail phase result
  return { progress with state }.defer (terminalOf result)

def readDisplay (evidence : Evidence) :
    Except String (DisplayProof × Option (Str × ProofState)) := do
  let proof ← displayProof evidence
  let missing ← proof.firstNonproven
  return (proof, missing)

def Progress.observe (progress : Progress) (evidence : Evidence) : Except String Progress :=
  let captured := { progress with
    state := { progress.state with
      history := progress.state.history.dropLast ++ ["DEBIAN_OBSERVATION_CAPTURED".toList]
      lastProven := "DEBIAN_OBSERVATION_CAPTURED".toList } }
  match readDisplay evidence with
  | .error _ => captured.failDeferred .debianObservation observationEvidenceAmbiguous
  | .ok (_, some item) => captured.failDeferred .debianObservation (missingFailure item)
  | .ok (proof, none) =>
    let proven := { captured with
      state := captured.state.prove "DISPLAY_MECHANICAL_PROVEN".toList }
    match proof.visibleConfirmed with
    | .proven =>
      .ok { proven with
        state := { proven.state with visibility := .proven }.prove
          "DISPLAY_VISIBILITY_PROVEN".toList }
    | .unavailable => .ok { proven with state := { proven.state with visibility := .noProof } }
    | .refuted => proven.failDeferred .debianObservation visibleConfirmedRefuted

def goesOn (phase : Phase) (result : EffectResult) : Bool :=
  (phase = .handoff && result.effectStarted = some true) || phase = .debianObservation ||
    phase = .workCleanup

def Progress.step (progress : Progress) (effects : Effects) (phase : Phase) : Except String Next :=
  let (result, state) := progress.state.runEffect effects phase
  if result.status ≠ some .pass then
    if goesOn phase result then
      .go <$> { progress with state }.failDeferred phase result
    else do
      let state ← state.fail phase result
      return .stop ({ progress with state }.stop (terminalOf result))
  else if phase ≠ .debianObservation then return .go { progress with state }
  else .go <$> { progress with state }.observe (result.evidence.getD [])

def Progress.finish (progress : Progress) : Report :=
  match progress.deferredTerminal with
  | some terminal =>
    { terminal
      state := { progress.state with failureSignature := progress.deferredSignature }.note
        terminal.name }
  | none =>
    let terminal : Terminal :=
      if progress.state.visibility = .noProof then .passNoProofDisplayVisibility else .passVisible
    { terminal, state := progress.state.note terminal.name }

def Progress.run (progress : Progress) (effects : Effects) : List Phase → Except String Report
  | [] => .ok progress.finish
  | phase :: phases => do
    match ← progress.step effects phase with
    | .stop report => return report
    | .go progress => progress.run effects phases

def runSwitchrootExperiment (effects : Effects) : Except String Report :=
  Progress.run ⟨.started, none, none⟩ effects d1Phases

end NativeInitLab.Transition
