import NativeInitLab.Attended.Session

namespace NativeInitLab.Attended

open Lockstep

/-! What each call does, and the agreement of the verdict with the safety state. -/

structure Dispatches (s : AttendedSession) (call : ActionCall) : Prop where
  unclosed : s.closedTerminal = none
  acknowledged : call.acknowledgeObserverNoProof = some s.observerRepairRequired
  first : s.observerRepairRequired = true → s.observerNoProofAcknowledgements = 0
  time : ∃ now, call.nowEpochSec = some now ∧ s.lastNowEpochSec ≤ now ∧
    now < s.contract.binding.expiresAtEpochSec
  budget : s.actionsUsed < s.contract.binding.maxActions
  allowed : ∃ action, call.action = some action ∧ action ∈ s.contract.binding.actionAllowlist
  preflight : validateAttendedPreflight call.preflight = .ok ()
  intent : call.intent = .returned

structure Lapses (s : AttendedSession) (call : ActionCall) : Prop where
  unclosed : s.closedTerminal = none
  waiting : s.observerRepairRequired = true
  acknowledged : call.acknowledgeObserverNoProof = some true
  first : s.observerNoProofAcknowledgements = 0
  late : ∀ now, call.nowEpochSec = some now → now < s.lastNowEpochSec

structure Running (s t : AttendedSession) : Prop where
  unclosed : t.closedTerminal = none
  safety : t.deviceSafetyState = s.deviceSafetyState
  proceeding : t.observerRepairRequired = false
  acknowledgements : t.observerNoProofAcknowledgements =
    s.observerNoProofAcknowledgements + s.observerRepairRequired.toNat

inductive Ran (s : AttendedSession) (call : ActionCall) : Outcome → Prop
  | refused {failure : String} (hheld : ¬ Dispatches s call) (hkept : ¬ Lapses s call) :
      Ran s call (s.raises failure)
  | lapsed {failure : String} (hlapses : Lapses s call) : Ran s call (s.acknowledged.raises failure)
  | stopped {t : AttendedSession} {terminal : Terminal} (hheld : ¬ Dispatches s call)
      (hkept : ¬ Lapses s call) (hunclosed : s.closedTerminal = none)
      (hsafety : t.deviceSafetyState = s.deviceSafetyState)
      (hterminal : terminal ≠ .recoveryRequired) : Ran s call (t.close [] terminal)
  | unsafePreflight {t : AttendedSession} (hheld : ¬ Dispatches s call)
      (hkept : ¬ Lapses s call) : Ran s call (t.recovering.close [] .recoveryRequired)
  | misread {t : AttendedSession} {failure : String} (hdispatches : Dispatches s call)
      (hrunning : Running s t) (hread : call.invoked.read = .error failure) :
      Ran s call (t.close [.intent s.observerRepairRequired, .dispatched] .recoveryRequired)
  | settled {t : AttendedSession} {action : SessionAction} {status : SessionActionStatus}
      {failureClass : FailureClass} (hdispatches : Dispatches s call) (hrunning : Running s t)
      (hread : call.invoked.read = .ok (status, failureClass)) :
      Ran s call (t.settle [.intent s.observerRepairRequired, .dispatched, .result status]
        action status failureClass)

section Actions

variable {s t : AttendedSession} {call : ActionCall}

theorem not_lapses_of_time {now : Int} (hnow : call.nowEpochSec = some now)
    (htime : s.lastNowEpochSec ≤ now) : ¬ Lapses s call := by
  intro h
  have := h.late now hnow
  omega

theorem Dispatches.not_lapses (h : Dispatches s call) : ¬ Lapses s call := by
  obtain ⟨now, hnow, hle, -⟩ := h.time
  exact not_lapses_of_time hnow hle

/-- The session that the later checks of a call work on. -/
structure Entered (s t : AttendedSession) : Prop extends Running s t where
  contract : t.contract = s.contract
  used : t.actionsUsed = s.actionsUsed
  lastNow : t.lastNowEpochSec = s.lastNowEpochSec

theorem dispatch_ran {action : SessionAction} (hunclosed : s.closedTerminal = none)
    (hrunning : Running s t) (hkept : ¬ Lapses s call)
    (hdispatches : call.intent = .returned → Dispatches s call) :
    Ran s call (t.dispatch call action s.observerRepairRequired) := by
  unfold AttendedSession.dispatch
  cases hintent : call.intent with
  | raised =>
    refine .stopped ?_ hkept hunclosed hrunning.safety (by decide)
    intro h
    rw [h.intent] at hintent
    cases hintent
  | returned =>
    have hcall := hdispatches hintent
    cases hread : call.invoked.read with
    | error failure =>
      exact .misread hcall ⟨hrunning.unclosed, hrunning.safety, hrunning.proceeding,
        hrunning.acknowledgements⟩ hread
    | ok value =>
      exact .settled hcall ⟨hrunning.unclosed, hrunning.safety, hrunning.proceeding,
        hrunning.acknowledgements⟩ hread

theorem enter_ran (hunclosed : s.closedTerminal = none) (hentered : Entered s t)
    (hacknowledged : call.acknowledgeObserverNoProof = some s.observerRepairRequired)
    (hfirst : s.observerRepairRequired = true → s.observerNoProofAcknowledgements = 0)
    (hlate : ∀ failure, (∀ now, call.nowEpochSec = some now → now < s.lastNowEpochSec) →
      Ran s call (t.raises failure)) :
    Ran s call (t.enter call s.observerRepairRequired) := by
  unfold AttendedSession.enter
  cases hnow : call.nowEpochSec with
  | none => exact hlate _ fun now h => by rw [hnow] at h; cases h
  | some now =>
    simp only [AttendedSession.timed, hentered.contract, hentered.used, hentered.lastNow]
    split
    case isTrue hlt =>
      refine hlate _ fun other h => ?_
      rw [hnow] at h
      cases h
      exact hlt
    case isFalse hge =>
      have hkept : ¬ Lapses s call := not_lapses_of_time hnow (by omega)
      have hstopped (t : AttendedSession) (terminal : Terminal)
          (hsafety : t.deviceSafetyState = s.deviceSafetyState)
          (hterminal : terminal ≠ .recoveryRequired) (hheld : ¬ Dispatches s call) :
          Ran s call (t.close [] terminal) :=
        .stopped hheld hkept hunclosed hsafety hterminal
      split
      case isTrue hexpired =>
        refine hstopped _ _ hentered.safety (by decide) fun h => ?_
        obtain ⟨other, hother, -, hwindow⟩ := h.time
        rw [hnow] at hother
        cases hother
        omega
      case isFalse hwindow =>
        split
        case isTrue hspent =>
          exact hstopped _ _ hentered.safety (by decide) fun h => absurd h.budget (by omega)
        case isFalse hbudget =>
          cases haction : call.action with
          | none =>
            refine hstopped _ _ hentered.safety (by decide) fun h => ?_
            obtain ⟨action, hother, -⟩ := h.allowed
            rw [haction] at hother
            cases hother
          | some action =>
            simp only
            split
            case isTrue hrefused =>
              refine hstopped _ _ hentered.safety (by decide) fun h => ?_
              obtain ⟨other, hother, hallowed⟩ := h.allowed
              rw [haction] at hother
              cases hother
              exact hrefused hallowed
            case isFalse hallowed =>
              rw [not_not] at hallowed
              cases hpreflight : validateAttendedPreflight call.preflight with
              | error failure =>
                have hheld : ¬ Dispatches s call := fun h => by
                  rw [h.preflight] at hpreflight
                  cases hpreflight
                simp only
                split
                case isTrue => exact hstopped _ _ hentered.safety (by decide) hheld
                case isFalse => exact .unsafePreflight hheld hkept
              | ok value =>
                refine dispatch_ran hunclosed ⟨hentered.unclosed, hentered.safety,
                  hentered.proceeding, hentered.acknowledgements⟩ hkept fun hintent => ?_
                exact ⟨hunclosed, hacknowledged, hfirst, ⟨now, hnow, by omega, by omega⟩,
                  by omega, ⟨action, haction, hallowed⟩, hpreflight, hintent⟩

theorem runAction_ran (s : AttendedSession) (call : ActionCall) :
    Ran s call (s.runAction call) := by
  have hrefused (failure : String) (hheld : s.closedTerminal = none →
      call.acknowledgeObserverNoProof ≠ some s.observerRepairRequired) :
      Ran s call (s.raises failure) := by
    refine .refused (fun h => hheld h.unclosed h.acknowledged) (fun h => ?_)
    refine hheld h.unclosed ?_
    rw [h.waiting]
    exact h.acknowledged
  unfold AttendedSession.runAction
  split
  case isTrue hclosed => exact hrefused _ fun hopen => absurd hopen hclosed
  case isFalse hopen =>
    rw [not_not] at hopen
    cases hflag : call.acknowledgeObserverNoProof with
    | none => exact hrefused _ fun _ h => by rw [hflag] at h; cases h
    | some acknowledge =>
      cases hwaiting : s.observerRepairRequired with
      | true =>
        cases acknowledge with
        | false => exact hrefused _ fun _ h => by simp [hflag, hwaiting] at h
        | true =>
          simp only [if_true, Bool.true_eq_false, if_false]
          split
          case isTrue hrepeated =>
            refine .stopped (fun h => ?_) (fun h => ?_) hopen rfl (by decide)
            · exact absurd (h.first hwaiting) (by omega)
            · exact absurd h.first (by omega)
          case isFalse hfirst =>
            have hzero : s.observerNoProofAcknowledgements = 0 := by omega
            have hentered : Entered s s.acknowledged :=
              ⟨⟨hopen, rfl, rfl, by simp [AttendedSession.acknowledged, hwaiting]⟩, rfl, rfl, rfl⟩
            have hran := enter_ran hopen hentered (by rw [hflag, hwaiting])
              (fun _ => hzero) fun failure hlate =>
                .lapsed ⟨hopen, hwaiting, hflag, hzero, hlate⟩
            rwa [hwaiting] at hran
      | false =>
        cases acknowledge with
        | true => exact hrefused _ fun _ h => by simp [hflag, hwaiting] at h
        | false =>
          have hkept : ¬ Lapses s call := fun h => by
            have hother := h.waiting
            rw [hwaiting] at hother
            cases hother
          have hentered : Entered s s :=
            ⟨⟨hopen, rfl, hwaiting, by simp [hwaiting]⟩, rfl, rfl, rfl⟩
          have hran := enter_ran hopen hentered (by rw [hflag, hwaiting])
            (fun h => by rw [hwaiting] at h; cases h) fun failure hlate => by
              refine .refused (fun h => ?_) hkept
              obtain ⟨now, hnow, hle, -⟩ := h.time
              have := hlate now hnow
              omega
          rwa [hwaiting] at hran

end Actions

inductive Settled (s : AttendedSession) (status : SessionActionStatus) (events : List Event) :
    Outcome → Prop
  | stopped {t : AttendedSession} {terminal : Terminal}
      (hsafety : t.deviceSafetyState = s.deviceSafetyState)
      (hterminal : terminal ≠ .recoveryRequired) : Settled s status events (t.close events terminal)
  | unsafeResult : Settled s status events (s.recovering.close events .recoveryRequired)
  | paused {t : AttendedSession} (hstatus : status = .noProofObserver)
      (hunclosed : t.closedTerminal = s.closedTerminal)
      (hsafety : t.deviceSafetyState = s.deviceSafetyState)
      (hwaiting : t.observerRepairRequired = true)
      (hnone : t.observerNoProofAcknowledgements = 0)
      (hsame : s.observerNoProofAcknowledgements = 0) :
      Settled s status events (t.reports events .paused)
  | active {t : AttendedSession} (hstatus : status ≠ .noProofObserver)
      (hunclosed : t.closedTerminal = s.closedTerminal)
      (hsafety : t.deviceSafetyState = s.deviceSafetyState)
      (hwaiting : t.observerRepairRequired = s.observerRepairRequired)
      (hsame : t.observerNoProofAcknowledgements = s.observerNoProofAcknowledgements) :
      Settled s status events (t.reports events .active)

theorem settle_settled (s : AttendedSession) (events : List Event) (action : SessionAction)
    (status : SessionActionStatus) (failureClass : FailureClass) :
    Settled s status events (s.settle events action status failureClass) := by
  have hcounted : (s.counted action status failureClass).closedTerminal = s.closedTerminal ∧
      (s.counted action status failureClass).deviceSafetyState = s.deviceSafetyState ∧
      (s.counted action status failureClass).observerRepairRequired = s.observerRepairRequired ∧
      (s.counted action status failureClass).observerNoProofAcknowledgements =
        s.observerNoProofAcknowledgements := by
    unfold AttendedSession.counted
    split
    case isTrue => exact ⟨rfl, rfl, rfl, rfl⟩
    case isFalse => exact ⟨rfl, rfl, rfl, rfl⟩
  obtain ⟨hunclosed, hsafety, hwaiting, hsame⟩ := hcounted
  unfold AttendedSession.settle
  split
  case isTrue => exact .stopped rfl (by decide)
  case isFalse =>
    split
    case isTrue => exact .unsafeResult
    case isFalse =>
      split
      case isTrue => exact .stopped rfl (by decide)
      case isFalse =>
        unfold AttendedSession.proceed
        split
        case isTrue => exact .stopped hsafety (by decide)
        case isFalse =>
          split
          case isTrue => exact .stopped hsafety (by decide)
          case isFalse =>
            split
            case isTrue hstatus =>
              split
              case isTrue => exact .stopped hsafety (by decide)
              case isFalse hfirst =>
                have hzero : s.observerNoProofAcknowledgements = 0 := by omega
                exact .paused hstatus hunclosed hsafety rfl (hsame.trans hzero) hzero
            case isFalse hstatus => exact .active hstatus hunclosed hsafety hwaiting hsame

/-- A repair that is refused after the clock was taken over. -/
structure Declines (s : AttendedSession) (call : ResumeCall) : Prop where
  unclosed : s.closedTerminal = none
  waiting : s.observerRepairRequired = true
  time : ∃ now, call.nowEpochSec = some now ∧ s.lastNowEpochSec < now ∧
    now < s.contract.binding.expiresAtEpochSec
  refused : ∃ failure, s.checkRepair call = .error failure

theorem Declines.window {call : ResumeCall} {now : Int} (h : Declines s call)
    (hnow : call.nowEpochSec = some now) :
    s.lastNowEpochSec < now ∧ now < s.contract.binding.expiresAtEpochSec := by
  obtain ⟨other, hother, hwindow⟩ := h.time
  rw [hnow] at hother
  cases hother
  exact hwindow

inductive Resumed (s : AttendedSession) (call : ResumeCall) : Outcome → Prop
  | refused {failure : String} (hkept : ¬ Declines s call) : Resumed s call (s.raises failure)
  | declined {now : Int} {failure : String} (hdeclines : Declines s call)
      (hlt : s.lastNowEpochSec < now) : Resumed s call ((s.timed now).raises failure)
  | stopped {t : AttendedSession} {terminal : Terminal} (hkept : ¬ Declines s call)
      (hsafety : t.deviceSafetyState = s.deviceSafetyState)
      (hunclosed : s.closedTerminal = none)
      (hterminal : terminal ≠ .recoveryRequired) : Resumed s call (t.close [] terminal)
  | resumed {t : AttendedSession} (hkept : ¬ Declines s call)
      (hunclosed : s.closedTerminal = none) (hopen : t.closedTerminal = none)
      (hsafety : t.deviceSafetyState = s.deviceSafetyState)
      (hwaiting : t.observerRepairRequired = false)
      (hsame : t.observerNoProofAcknowledgements = s.observerNoProofAcknowledgements) :
      Resumed s call (t.reports [.resumed] .active)

theorem resume_resumed (s : AttendedSession) (call : ResumeCall) :
    Resumed s call (s.resumeAfterObserverRepair call) := by
  unfold AttendedSession.resumeAfterObserverRepair
  split
  case isTrue hclosed => exact .refused fun h => hclosed h.unclosed
  case isFalse hopen =>
    rw [not_not] at hopen
    split
    case isTrue hidle =>
      exact .refused fun h => by
        rw [h.waiting] at hidle
        cases hidle
    case isFalse hwaiting =>
      cases hnow : call.nowEpochSec with
      | none =>
        exact .refused fun h => by
          obtain ⟨now, hother, -⟩ := h.time
          rw [hnow] at hother
          cases hother
      | some now =>
        simp only
        split
        case isTrue hearly =>
          exact .refused fun h => absurd (h.window hnow).1 (by omega)
        case isFalse hmonotonic =>
          split
          case isTrue hexpired =>
            exact .stopped (fun h => absurd hexpired (Int.not_le.mpr (h.window hnow).2)) rfl hopen
              (by decide)
          case isFalse hwindow =>
            have hcheck : (s.timed now).checkRepair call = s.checkRepair call := rfl
            rw [hcheck]
            cases hrepair : s.checkRepair call with
            | error failure =>
              by_cases hsame : now = s.lastNowEpochSec
              · have htimed : s.timed now = s := by
                  subst hsame
                  rfl
                rw [htimed]
                exact .refused fun h => absurd (h.window hnow).1 (by omega)
              · have hwaiting : s.observerRepairRequired = true := by simpa using hwaiting
                exact .declined ⟨hopen, hwaiting, ⟨now, hnow, by omega,
                  Int.not_le.mp hwindow⟩, failure, hrepair⟩ (by omega)
            | ok repair =>
              have hkept : ¬ Declines s call := fun h => by
                obtain ⟨failure, hfailure⟩ := h.refused
                rw [hrepair] at hfailure
                cases hfailure
              cases call.recorded with
              | raised => exact .stopped hkept rfl hopen (by decide)
              | returned => exact .resumed hkept hopen hopen rfl rfl rfl

def AttendedSession.Agrees (s : AttendedSession) : Prop :=
  s.closedTerminal = some .recoveryRequired ↔ s.deviceSafetyState = .recoveryRequired

/-- The session after the call agrees, and so does what the call reports. -/
structure Outcome.Agrees (outcome : Outcome) : Prop where
  session : outcome.session.Agrees
  reported : ∀ shot, outcome.answer = .ok shot →
    (shot.terminal = .closed .recoveryRequired ↔ shot.deviceSafetyState = .recoveryRequired)

/-- An action was dispatched and its result could not be read. -/
def Step.Misreads (step : Step) : Prop :=
  ∃ call, step.call = .runAction call ∧ Dispatches step.before call ∧
    ∃ failure, call.invoked.read = .error failure

section Agreement

variable {s t : AttendedSession} {events : List Event} {terminal : Terminal}

theorem AttendedSession.Agrees.healthy (h : s.Agrees) (hunclosed : s.closedTerminal = none) :
    s.deviceSafetyState ≠ .recoveryRequired := by
  intro hsafety
  rw [h.mpr hsafety] at hunclosed
  cases hunclosed

theorem agrees_raises {failure : String} (h : s.Agrees) : (s.raises failure).Agrees :=
  ⟨h, fun _ hshot => by cases hshot⟩

theorem agrees_close_iff (hhealthy : t.deviceSafetyState ≠ .recoveryRequired) :
    (t.close events terminal).Agrees ↔ terminal ≠ .recoveryRequired := by
  constructor
  · rintro h rfl
    exact hhealthy (h.session.mp rfl)
  · intro hterminal
    constructor
    · constructor
      · intro hclosed
        cases hclosed
        exact absurd rfl hterminal
      · exact fun hsafety => absurd hsafety hhealthy
    · intro shot hshot
      cases hshot
      constructor
      · intro hclosed
        cases hclosed
        exact absurd rfl hterminal
      · exact fun hsafety => absurd hsafety hhealthy

theorem agrees_recovering : (t.recovering.close events .recoveryRequired).Agrees := by
  constructor
  · exact iff_of_true rfl rfl
  · intro shot hshot
    cases hshot
    exact iff_of_true rfl rfl

theorem agrees_reports {verdict : Verdict} (hunclosed : t.closedTerminal = none)
    (hhealthy : t.deviceSafetyState ≠ .recoveryRequired)
    (hverdict : verdict ≠ .closed .recoveryRequired) : (t.reports events verdict).Agrees := by
  constructor
  · refine iff_of_false ?_ hhealthy
    rw [AttendedSession.reports, hunclosed]
    exact fun h => by cases h
  · intro shot hshot
    cases hshot
    exact iff_of_false hverdict hhealthy

theorem not_misreads_of_held {call : ActionCall} (hheld : ¬ Dispatches s call) :
    ¬ Step.Misreads ⟨s, .runAction call⟩ := by
  rintro ⟨other, hother, hdispatches, -⟩
  cases hother
  exact hheld hdispatches

theorem not_misreads_of_read {call : ActionCall} {value : SessionActionStatus × FailureClass}
    (hread : call.invoked.read = .ok value) : ¬ Step.Misreads ⟨s, .runAction call⟩ := by
  rintro ⟨other, hother, -, failure, hfailure⟩
  cases hother
  rw [hread] at hfailure
  cases hfailure

theorem settled_agrees {status : SessionActionStatus} {outcome : Outcome}
    (h : Settled t status events outcome) (hunclosed : t.closedTerminal = none)
    (hhealthy : t.deviceSafetyState ≠ .recoveryRequired) : outcome.Agrees := by
  cases h with
  | stopped hsafety hterminal => exact (agrees_close_iff (hsafety ▸ hhealthy)).mpr hterminal
  | unsafeResult => exact agrees_recovering
  | paused hstatus hsame hsafety =>
    exact agrees_reports (hsame.trans hunclosed) (hsafety ▸ hhealthy) (by decide)
  | active hstatus hsame hsafety =>
    exact agrees_reports (hsame.trans hunclosed) (hsafety ▸ hhealthy) (by decide)

theorem runAction_agrees_iff (h : s.Agrees) (call : ActionCall) :
    (s.runAction call).Agrees ↔ ¬ Step.Misreads ⟨s, .runAction call⟩ := by
  generalize houtcome : s.runAction call = outcome
  have hran := runAction_ran s call
  rw [houtcome] at hran
  cases hran with
  | refused hheld => exact iff_of_true (agrees_raises h) (not_misreads_of_held hheld)
  | lapsed hlapses =>
    exact iff_of_true (agrees_raises h)
      (not_misreads_of_held fun hdispatches => hdispatches.not_lapses hlapses)
  | stopped hheld hkept hunclosed hsafety hterminal =>
    exact iff_of_true ((agrees_close_iff (hsafety ▸ h.healthy hunclosed)).mpr hterminal)
      (not_misreads_of_held hheld)
  | unsafePreflight hheld => exact iff_of_true agrees_recovering (not_misreads_of_held hheld)
  | misread hdispatches hrunning hread =>
    have hhealthy := h.healthy hdispatches.unclosed
    refine iff_of_false ?_ (not_not_intro ⟨call, rfl, hdispatches, _, hread⟩)
    rw [agrees_close_iff (hrunning.safety ▸ hhealthy)]
    exact not_not_intro rfl
  | settled hdispatches hrunning hread =>
    have hhealthy := h.healthy hdispatches.unclosed
    exact iff_of_true (settled_agrees (settle_settled _ _ _ _ _) hrunning.unclosed
      (hrunning.safety ▸ hhealthy)) (not_misreads_of_read hread)

theorem resume_agrees (h : s.Agrees) (call : ResumeCall) :
    (s.resumeAfterObserverRepair call).Agrees := by
  generalize houtcome : s.resumeAfterObserverRepair call = outcome
  have hresumed := resume_resumed s call
  rw [houtcome] at hresumed
  cases hresumed with
  | refused => exact agrees_raises h
  | declined => exact agrees_raises h
  | stopped hkept hsafety hunclosed hterminal =>
    exact (agrees_close_iff (hsafety ▸ h.healthy hunclosed)).mpr hterminal
  | resumed hkept hunclosed hopen hsafety =>
    exact agrees_reports hopen (hsafety ▸ h.healthy hunclosed) (by decide)

theorem closeByOperator_agrees (h : s.Agrees) : s.closeByOperator.Agrees := by
  unfold AttendedSession.closeByOperator
  split
  case isTrue => exact agrees_raises h
  case isFalse hopen =>
    rw [not_not] at hopen
    exact (agrees_close_iff (h.healthy hopen)).mpr (by decide)

theorem call_agrees_iff (h : s.Agrees) (call : Call) :
    (s.call call).Agrees ↔ ¬ Step.Misreads ⟨s, call⟩ := by
  cases call with
  | runAction call => exact runAction_agrees_iff h call
  | resumeAfterObserverRepair call =>
    exact iff_of_true (resume_agrees h call) (by rintro ⟨_, hother, -⟩; cases hother)
  | closeByOperator =>
    exact iff_of_true (closeByOperator_agrees h) (by rintro ⟨_, hother, -⟩; cases hother)

theorem steps_agree_iff (h : s.Agrees) (calls : List Call) :
    (∀ step ∈ s.steps calls, step.outcome.Agrees) ↔ ∀ step ∈ s.steps calls, ¬ step.Misreads := by
  induction calls generalizing s with
  | nil => simp [AttendedSession.steps]
  | cons call calls ih =>
    simp only [AttendedSession.steps, List.forall_mem_cons, Step.outcome]
    rw [call_agrees_iff h]
    refine and_congr_right fun hread => ?_
    exact ih ((call_agrees_iff h call).mpr hread).session

end Agreement

theorem open_session {contract : AttendedSessionContract} {now : Option Int}
    {preflight : Option SessionPreflight} {consumed : Consumed} {s : AttendedSession}
    (h : openAttendedSession contract now preflight consumed = .ok s) :
    s.closedTerminal = none ∧ s.deviceSafetyState = .residentHealthy ∧
      s.observerRepairRequired = false ∧ s.observerNoProofAcknowledgements = 0 := by
  unfold openAttendedSession at h
  rw [bind_eq_ok] at h
  obtain ⟨-, -, h⟩ := h
  cases now with
  | none => cases h
  | some now =>
    dsimp only at h
    rw [require_bind_eq_ok, bind_eq_ok] at h
    obtain ⟨-, -, -, h⟩ := h
    rw [require_bind_eq_ok, require_bind_eq_ok] at h
    obtain ⟨-, -, h⟩ := h
    cases h
    exact ⟨rfl, rfl, rfl, rfl⟩

/-- Over every history of an opened session, the verdict and the safety state agree at every
state and in every report, if and only if no dispatched action has a result that cannot be
read. -/
theorem verdict_agrees_with_safety_iff {contract : AttendedSessionContract} {now : Option Int}
    {preflight : Option SessionPreflight} {consumed : Consumed} {s : AttendedSession}
    (hopened : openAttendedSession contract now preflight consumed = .ok s)
    (calls : List Call) :
    (s.Agrees ∧ ∀ step ∈ s.steps calls, step.outcome.Agrees) ↔
      ∀ step ∈ s.steps calls, ¬ step.Misreads := by
  obtain ⟨hunclosed, hsafety, -⟩ := open_session hopened
  have h : s.Agrees := by
    rw [AttendedSession.Agrees, hunclosed, hsafety]
    decide
  rw [steps_agree_iff h]
  exact and_iff_right h

namespace Sample

def digest (character : Char) : Option Str := some (List.replicate 64 character)

def name (text : String) : Option Str := some text.toList

def contract : AttendedSessionContract where
  binding := {
    approvalId := name "approval-1"
    workflow := .attendedSession
    riskTier := .transientNoPayloadControl
    targetProfile := name "A90"
    manifestSha256 := digest 'a'
    residentBootSha256 := digest 'b'
    rollbackBootSha256 := digest 'c'
    recoveryProfile := name "recovery"
    deviceEffectRunnerSha256 := digest 'd'
    observerSha256 := digest 'e'
    returnHealthProfile := name "health"
    actionAllowlist := [.switchrootExperiment]
    notBeforeEpochSec := 100
    expiresAtEpochSec := 1000
    maxActions := 3 }
  successors := [{
    domain := name "display"
    predecessorOwner := name "native"
    predecessorReleaseProof := name "released"
    successorOwner := name "debian"
    successorAcquisitionProofs := [name "acquired"] }]

def preflight : SessionPreflight where
  operatorAttended := some true
  targetIdentityMatches := some true
  residentIdentityMatches := some true
  rollbackReady := some true
  recoveryAvailable := some true

def opened : AttendedSession where
  contract
  openedAtEpochSec := 100
  lastNowEpochSec := 100
  activeObserverSha256 := digest 'e'

def action (now : Int) (invoked : Invoked) : ActionCall where
  action := some .switchrootExperiment
  nowEpochSec := some now
  preflight := some preflight
  intent := .returned
  invoked

def proved : Invoked := .returned {
  status := some .proved
  actionStarted := some true
  postflight := .preflight preflight }

theorem opens : openAttendedSession contract (some 100) (some preflight) .now = .ok opened := by
  rfl

end Sample

theorem verdict_agrees_proved_action :
    openAttendedSession Sample.contract (some 100) (some Sample.preflight) .now =
        .ok Sample.opened ∧
      (Sample.opened.Agrees ∧
        ∀ step ∈ Sample.opened.steps [.runAction (Sample.action 200 Sample.proved)],
          step.outcome.Agrees) := by
  refine ⟨Sample.opens, (verdict_agrees_with_safety_iff Sample.opens _).mpr ?_⟩
  intro step hstep
  rw [AttendedSession.steps, AttendedSession.steps, List.mem_singleton] at hstep
  subst hstep
  exact not_misreads_of_read rfl

/-- The effect of an action raises: the session closes for recovery and still reports a healthy
resident. -/
theorem raised_action_reports_healthy_recovery :
    openAttendedSession Sample.contract (some 100) (some Sample.preflight) .now =
        .ok Sample.opened ∧
      (Sample.opened.runAction (Sample.action 200 .raised)).session.closedTerminal =
        some .recoveryRequired ∧
      (Sample.opened.runAction (Sample.action 200 .raised)).session.deviceSafetyState =
        .residentHealthy ∧
      ∃ shot, (Sample.opened.runAction (Sample.action 200 .raised)).answer = .ok shot ∧
        shot.terminal = .closed .recoveryRequired ∧ shot.deviceSafetyState = .residentHealthy :=
  ⟨Sample.opens, rfl, rfl, _, rfl, rfl, rfl⟩

end NativeInitLab.Attended
