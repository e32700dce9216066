import NativeInitLab.Attended.Verdict

namespace NativeInitLab.Attended

/-! The gate after a missing observer proof: what the effects of a whole history show. -/

def Event.waits (waiting : Bool) : Event → Bool
  | .intent true => false
  | .intent false => waiting
  | .dispatched => waiting
  | .result .noProofObserver => true
  | .result _ => waiting
  | .resumed => false

def Waiting (past : List Event) : Bool := past.foldl Event.waits false

/-- Between a missing proof and the next action stands a repair or an acknowledged intent. -/
def Gated (events : List Event) : Prop :=
  ∀ past between future,
    events = past ++ .result .noProofObserver :: (between ++ .dispatched :: future) →
    .dispatched ∉ between → .resumed ∈ between ∨ .intent true ∈ between

theorem waits_of_unanswered {between : List Event} (hresumed : .resumed ∉ between)
    (hintent : .intent true ∉ between) : between.foldl Event.waits true = true := by
  induction between with
  | nil => rfl
  | cons event between ih =>
    rw [List.mem_cons, not_or] at hresumed hintent
    have hwaits : Event.waits true event = true := by
      unfold Event.waits
      split
      case h_1 => exact absurd rfl hintent.1
      case h_6 => exact absurd rfl hresumed.1
      all_goals rfl
    rw [List.foldl_cons, hwaits]
    exact ih hresumed.2 hintent.2

/-- No action is dispatched while a missing proof waits. -/
def Free : Bool → List Event → Prop
  | _, [] => True
  | waiting, event :: events =>
    (event = .dispatched → waiting = false) ∧ Free (event.waits waiting) events

theorem free_cons {waiting : Bool} {event : Event} {events : List Event} :
    Free waiting (event :: events) ↔
      (event = .dispatched → waiting = false) ∧ Free (event.waits waiting) events := Iff.rfl

theorem free_quiet {waiting : Bool} {event : Event} (h : event ≠ .dispatched) :
    Free waiting [event] := free_cons.mpr ⟨fun heq => absurd heq h, trivial⟩

theorem free_append {waiting : Bool} {past events : List Event} : Free waiting (past ++ events) ↔
      Free waiting past ∧ Free (past.foldl Event.waits waiting) events := by
  induction past generalizing waiting with
  | nil => simp [Free]
  | cons event past ih => simp [Free, ih, and_assoc]

theorem Free.gated {events : List Event} (h : Free false events) : Gated events := by
  intro past between future hevents _
  by_contra hunanswered
  rw [not_or] at hunanswered
  rw [hevents, free_append] at h
  obtain ⟨-, -, hbetween⟩ := h
  have hfuture := (free_append.mp hbetween).2
  rw [Event.waits, waits_of_unanswered hunanswered.1 hunanswered.2] at hfuture
  cases hfuture.1 rfl

def AttendedSession.events (s : AttendedSession) (calls : List Call) : List Event :=
  (s.steps calls).flatMap fun step => step.outcome.events

theorem events_invariant {I : List Event → AttendedSession → Prop} {P : Step → Prop}
    (hstep : ∀ past s call, I past s → P ⟨s, call⟩ →
      I (past ++ (s.call call).events) (s.call call).session)
    {past : List Event} {s : AttendedSession} (h : I past s) (calls : List Call)
    (hsteps : ∀ step ∈ s.steps calls, P step) : ∃ t, I (past ++ s.events calls) t := by
  induction calls generalizing past s with
  | nil => exact ⟨s, by simpa [AttendedSession.events, AttendedSession.steps] using h⟩
  | cons call calls ih =>
    rw [AttendedSession.steps, List.forall_mem_cons] at hsteps
    obtain ⟨t, ht⟩ := ih (hstep past s call h hsteps.1) hsteps.2
    refine ⟨t, ?_⟩
    simpa [AttendedSession.events, AttendedSession.steps, Step.outcome] using ht

/-- An acknowledged action that is refused for its time. -/
def Step.Lapses (step : Step) : Prop :=
  ∃ call, step.call = .runAction call ∧ Attended.Lapses step.before call

/-- A repair that is refused after its time was taken over. -/
def Step.Declines (step : Step) : Prop :=
  ∃ call, step.call = .resumeAfterObserverRepair call ∧ Attended.Declines step.before call

def Step.Unchanged (step : Step) : Prop :=
  ∀ failure, step.outcome.answer = .error failure → step.outcome.session = step.before

structure Guarded (past : List Event) (s : AttendedSession) : Prop where
  free : Free false past
  held : Waiting past = true → s.closedTerminal = none → s.observerRepairRequired = true

structure Spent (past : List Event) (s : AttendedSession) : Prop where
  once : past.count (.intent true) ≤ 1
  counted : s.closedTerminal = none → past.count (.intent true) ≤ s.observerNoProofAcknowledgements

section Step

variable {s t : AttendedSession} {past events : List Event}

theorem Waiting.append {past events : List Event} :
    Waiting (past ++ events) = events.foldl Event.waits (Waiting past) := List.foldl_append

theorem Guarded.frame (h : Guarded past s) (hheld : t.closedTerminal = none →
      s.closedTerminal = none ∧ t.observerRepairRequired = s.observerRepairRequired) :
    Guarded (past ++ []) t := by
  rw [List.append_nil]
  refine ⟨h.free, fun hwaiting hopen => ?_⟩
  obtain ⟨hunclosed, hsame⟩ := hheld hopen
  rw [hsame]
  exact h.held hwaiting hunclosed

theorem waits_of_intent {waiting required : Bool} (h : waiting = true → required = true) :
    Event.waits waiting (.intent required) = false := by
  cases required with
  | true => rfl
  | false =>
    cases waiting with
    | true => cases h rfl
    | false => rfl

theorem Guarded.dispatched (h : Guarded past s) (hunclosed : s.closedTerminal = none) :
    Free false (past ++ [.intent s.observerRepairRequired, .dispatched]) ∧
      Waiting (past ++ [.intent s.observerRepairRequired, .dispatched]) = false := by
  have hintent := waits_of_intent fun hwaiting => h.held hwaiting hunclosed
  constructor
  · rw [free_append]
    exact ⟨h.free, free_cons.mpr ⟨nofun, free_cons.mpr ⟨fun _ => hintent, trivial⟩⟩⟩
  · rw [Waiting.append]
    exact hintent

theorem Guarded.settled (h : Guarded past s) (hunclosed : s.closedTerminal = none)
    {status : SessionActionStatus} {outcome : Outcome} (hsettled : Settled t status
      [.intent s.observerRepairRequired, .dispatched, .result status] outcome) :
    Guarded (past ++ outcome.events) outcome.session := by
  obtain ⟨hfree, hwaiting⟩ := h.dispatched hunclosed
  have hresult : Free false
      (past ++ [.intent s.observerRepairRequired, .dispatched, .result status]) := by
    have : Free false ((past ++ [.intent s.observerRepairRequired, .dispatched]) ++
        [.result status]) := free_append.mpr ⟨hfree, free_quiet nofun⟩
    rwa [List.append_assoc] at this
  have hwaits : Waiting (past ++ [.intent s.observerRepairRequired, .dispatched, .result status]) =
        Event.waits false (.result status) := by
    have := @Waiting.append (past ++ [.intent s.observerRepairRequired, .dispatched])
      [.result status]
    rw [List.append_assoc, hwaiting] at this
    exact this
  cases hsettled with
  | stopped | unsafeResult => exact ⟨hresult, fun _ hopen => by cases hopen⟩
  | paused _ _ _ hpaused => exact ⟨hresult, fun _ _ => hpaused⟩
  | active hstatus =>
    refine ⟨hresult, fun hwaited => ?_⟩
    rw [AttendedSession.reports, hwaits, Event.waits] at hwaited
    · cases hwaited
    · exact fun heq => hstatus heq

theorem guarded_call (h : Guarded past s) (call : Call) (hkept : ¬ Step.Lapses ⟨s, call⟩) :
    Guarded (past ++ (s.call call).events) (s.call call).session := by
  cases call with
  | runAction call =>
    generalize houtcome : s.call (.runAction call) = outcome
    have hran := runAction_ran s call
    rw [← AttendedSession.call, houtcome] at hran
    cases hran with
    | refused => exact h.frame fun hopen => ⟨hopen, rfl⟩
    | lapsed hlapses => exact absurd ⟨call, rfl, hlapses⟩ hkept
    | stopped | unsafePreflight => exact h.frame fun hopen => by cases hopen
    | misread hdispatches =>
      exact ⟨(h.dispatched hdispatches.unclosed).1, fun _ hopen => by cases hopen⟩
    | settled hdispatches =>
      exact h.settled hdispatches.unclosed (settle_settled _ _ _ _ _)
  | resumeAfterObserverRepair call =>
    generalize houtcome : s.call (.resumeAfterObserverRepair call) = outcome
    have hresumed := resume_resumed s call
    rw [← AttendedSession.call, houtcome] at hresumed
    cases hresumed with
    | refused | declined => exact h.frame fun hopen => ⟨hopen, rfl⟩
    | stopped => exact h.frame fun hopen => by cases hopen
    | resumed =>
      constructor
      · exact free_append.mpr ⟨h.free, free_quiet nofun⟩
      · intro hwaiting
        rw [AttendedSession.reports, Waiting.append] at hwaiting
        cases hwaiting
  | closeByOperator =>
    rw [AttendedSession.call, AttendedSession.closeByOperator]
    split
    case isTrue => exact h.frame fun hopen => ⟨hopen, rfl⟩
    case isFalse => exact h.frame fun hopen => by cases hopen

theorem Spent.frame (h : Spent past s)
    (hcounted : t.closedTerminal = none → s.closedTerminal = none ∧
      s.observerNoProofAcknowledgements ≤ t.observerNoProofAcknowledgements) :
    Spent (past ++ []) t := by
  rw [List.append_nil]
  refine ⟨h.once, fun hopen => ?_⟩
  obtain ⟨hunclosed, hle⟩ := hcounted hopen
  exact Nat.le_trans (h.counted hunclosed) hle

theorem Spent.dispatched {call : ActionCall} (h : Spent past s)
    (hdispatches : Dispatches s call) (hrunning : Running s t) (results : List Event)
    (hresults : .intent true ∉ results) :
    (past ++ .intent s.observerRepairRequired :: .dispatched :: results).count (.intent true) ≤ 1 ∧
      (past ++ .intent s.observerRepairRequired :: .dispatched :: results).count
        (.intent true) ≤ t.observerNoProofAcknowledgements := by
  have hcounted := h.counted hdispatches.unclosed
  have hnone := List.count_eq_zero_of_not_mem hresults
  have hsame := hrunning.acknowledgements
  have honce := h.once
  cases hwaiting : s.observerRepairRequired with
  | false =>
    rw [hwaiting] at hsame
    simp only [List.count_append, List.count_cons, hnone]
    simp at hsame ⊢
    omega
  | true =>
    have hzero := hdispatches.first hwaiting
    rw [hwaiting] at hsame
    simp only [List.count_append, List.count_cons, hnone]
    simp at hsame ⊢
    omega

theorem Spent.settled {call : ActionCall} (h : Spent past s) (hdispatches : Dispatches s call)
    (hrunning : Running s t) {status : SessionActionStatus} {outcome : Outcome}
    (hsettled : Settled t status
      [.intent s.observerRepairRequired, .dispatched, .result status] outcome) :
    Spent (past ++ outcome.events) outcome.session := by
  obtain ⟨honce, hcounted⟩ := h.dispatched hdispatches hrunning [.result status] (by simp)
  cases hsettled with
  | stopped | unsafeResult => exact ⟨honce, fun hopen => by cases hopen⟩
  | paused _ _ _ _ hnone hzero =>
    rw [hzero] at hcounted
    exact ⟨honce, fun _ => Nat.le_trans hcounted (Nat.zero_le _)⟩
  | active _ _ _ _ hsame =>
    refine ⟨honce, fun _ => ?_⟩
    rw [AttendedSession.reports, hsame]
    exact hcounted

theorem spent_call (h : Spent past s) (call : Call) :
    Spent (past ++ (s.call call).events) (s.call call).session := by
  cases call with
  | runAction call =>
    generalize houtcome : s.call (.runAction call) = outcome
    have hran := runAction_ran s call
    rw [← AttendedSession.call, houtcome] at hran
    cases hran with
    | refused => exact h.frame fun hopen => ⟨hopen, Nat.le_refl _⟩
    | lapsed => exact h.frame fun hopen => ⟨hopen, Nat.le_succ _⟩
    | stopped | unsafePreflight => exact h.frame fun hopen => by cases hopen
    | misread hdispatches hrunning =>
      exact ⟨(h.dispatched hdispatches hrunning [] (by simp)).1, fun hopen => by cases hopen⟩
    | settled hdispatches hrunning =>
      exact h.settled hdispatches hrunning (settle_settled _ _ _ _ _)
  | resumeAfterObserverRepair call =>
    generalize houtcome : s.call (.resumeAfterObserverRepair call) = outcome
    have hresumed := resume_resumed s call
    rw [← AttendedSession.call, houtcome] at hresumed
    cases hresumed with
    | refused | declined => exact h.frame fun hopen => ⟨hopen, Nat.le_refl _⟩
    | stopped => exact h.frame fun hopen => by cases hopen
    | resumed _ hunclosed _ _ _ hsame =>
      have hquiet (past : List Event) :
          (past ++ [Event.resumed]).count (.intent true) = past.count (.intent true) := by
        simp [List.count_append]
      constructor
      · rw [AttendedSession.reports, hquiet]
        exact h.once
      · intro _
        rw [AttendedSession.reports, hsame, hquiet]
        exact h.counted hunclosed
  | closeByOperator =>
    rw [AttendedSession.call, AttendedSession.closeByOperator]
    split
    case isTrue => exact h.frame fun hopen => ⟨hopen, Nat.le_refl _⟩
    case isFalse => exact h.frame fun hopen => by cases hopen

theorem settled_answers {status : SessionActionStatus} {outcome : Outcome}
    (h : Settled t status events outcome) : ∃ shot, outcome.answer = .ok shot := by
  cases h with
  | stopped | unsafeResult | paused | active => exact ⟨_, rfl⟩

theorem unchanged_of_answer {step : Step} (h : ∃ shot, step.outcome.answer = .ok shot) :
    step.Unchanged := by
  intro failure hfailure
  obtain ⟨shot, hshot⟩ := h
  rw [hshot] at hfailure
  cases hfailure

theorem runAction_unchanged_iff (s : AttendedSession) (call : ActionCall) :
    Step.Unchanged ⟨s, .runAction call⟩ ↔ ¬ Lapses s call := by
  have hstep : (Step.mk s (.runAction call)).outcome = s.runAction call := rfl
  have hran := runAction_ran s call
  rw [← hstep] at hran
  generalize houtcome : (Step.mk s (.runAction call)).outcome = outcome at hran
  cases hran with
  | refused _ hkept =>
    refine iff_of_true ?_ hkept
    intro _ _
    rw [houtcome]
    rfl
  | lapsed hlapses =>
    refine iff_of_false (fun hsame => ?_) (not_not_intro hlapses)
    have hsession := hsame _ (by rw [houtcome]; rfl)
    rw [houtcome] at hsession
    have hflag := congrArg AttendedSession.observerRepairRequired hsession
    rw [hlapses.waiting] at hflag
    cases hflag
  | stopped _ hkept => exact iff_of_true (unchanged_of_answer ⟨_, by rw [houtcome]; rfl⟩) hkept
  | unsafePreflight _ hkept =>
    exact iff_of_true (unchanged_of_answer ⟨_, by rw [houtcome]; rfl⟩) hkept
  | misread hdispatches =>
    exact iff_of_true (unchanged_of_answer ⟨_, by rw [houtcome]; rfl⟩) hdispatches.not_lapses
  | settled hdispatches =>
    refine iff_of_true (unchanged_of_answer ?_) hdispatches.not_lapses
    rw [houtcome]
    exact settled_answers (settle_settled _ _ _ _ _)

theorem resume_unchanged_iff (s : AttendedSession) (call : ResumeCall) :
    Step.Unchanged ⟨s, .resumeAfterObserverRepair call⟩ ↔ ¬ Declines s call := by
  have hstep : (Step.mk s (.resumeAfterObserverRepair call)).outcome =
    s.resumeAfterObserverRepair call := rfl
  have hresumed := resume_resumed s call
  rw [← hstep] at hresumed
  generalize houtcome : (Step.mk s (.resumeAfterObserverRepair call)).outcome = outcome at hresumed
  cases hresumed with
  | refused hkept =>
    refine iff_of_true ?_ hkept
    intro _ _
    rw [houtcome]
    rfl
  | declined hdeclines hlt =>
    refine iff_of_false (fun hsame => ?_) (not_not_intro hdeclines)
    have hsession := hsame _ (by rw [houtcome]; rfl)
    rw [houtcome] at hsession
    have htime := congrArg AttendedSession.lastNowEpochSec hsession
    simp only [AttendedSession.raises, AttendedSession.timed] at htime
    omega
  | stopped hkept | resumed hkept =>
    exact iff_of_true (unchanged_of_answer ⟨_, by rw [houtcome]; rfl⟩) hkept

theorem unchanged_iff (step : Step) : step.Unchanged ↔ ¬ step.Lapses ∧ ¬ step.Declines := by
  obtain ⟨s, call⟩ := step
  cases call with
  | runAction call =>
    simp [runAction_unchanged_iff, Step.Lapses, Step.Declines]
  | resumeAfterObserverRepair call =>
    simp [resume_unchanged_iff, Step.Lapses, Step.Declines]
  | closeByOperator =>
    refine iff_of_true ?_ (by simp [Step.Lapses, Step.Declines])
    intro failure hfailure
    rw [Step.outcome, AttendedSession.call, AttendedSession.closeByOperator] at hfailure ⊢
    split at hfailure
    case isTrue hclosed => rw [if_pos hclosed]; rfl
    case isFalse => cases hfailure

end Step

/-- The gate holds along a history, with at most one acknowledgement, and a call that raises
leaves the session as it was. -/
structure Observed (s : AttendedSession) (calls : List Call) : Prop where
  gated : Gated (s.events calls)
  once : (s.events calls).count (.intent true) ≤ 1
  unchanged : ∀ step ∈ s.steps calls, step.Unchanged

theorem gated_of_no_lapse {s : AttendedSession} (calls : List Call)
    (h : ∀ step ∈ s.steps calls, ¬ step.Lapses) : Gated (s.events calls) := by
  have hstart : Guarded [] s := ⟨trivial, fun hwaiting => by cases hwaiting⟩
  obtain ⟨t, ht⟩ := events_invariant (I := Guarded)
    (fun _ _ call hguarded hkept => guarded_call hguarded call hkept) hstart calls h
  exact ht.free.gated

theorem acknowledged_once (s : AttendedSession) (calls : List Call) :
    (s.events calls).count (.intent true) ≤ 1 := by
  have hstart : Spent [] s := ⟨Nat.zero_le _, fun _ => Nat.zero_le _⟩
  obtain ⟨t, ht⟩ := events_invariant (I := Spent) (P := fun _ => True)
    (fun _ _ call hspent _ => spent_call hspent call) hstart calls fun _ _ => trivial
  exact ht.once

/-- Over every history, from any session: the gate is observed if and only if no acknowledged
action is refused for its time and no repair is refused after its time was taken over. -/
theorem gate_is_observed_iff (s : AttendedSession) (calls : List Call) :
    Observed s calls ↔ ∀ step ∈ s.steps calls, ¬ step.Lapses ∧ ¬ step.Declines := by
  constructor
  · intro h step hstep
    exact (unchanged_iff step).mp (h.unchanged step hstep)
  · intro h
    exact ⟨gated_of_no_lapse calls fun step hstep => (h step hstep).1,
      acknowledged_once s calls, fun step hstep => (unchanged_iff step).mpr (h step hstep)⟩

namespace Sample

def noProof : Invoked := .returned {
  status := some .noProofObserver
  actionStarted := some true
  failureClass := .text "SCREEN_OBSERVER".toList
  postflight := .preflight preflight
  independentSafetyCheck := some true }

/-- An action without a proof, an acknowledged action with an earlier time, and an action. -/
def lapsing : List Call :=
  [.runAction (action 200 noProof),
    .runAction { action 150 proved with acknowledgeObserverNoProof := some true },
    .runAction (action 300 proved)]

theorem lapsing_events : opened.events lapsing =
    [.intent false, .dispatched, .result .noProofObserver, .intent false, .dispatched,
      .result .proved] := by
  rfl

end Sample

/-- The acknowledged action raises and opens the gate: the next action runs unacknowledged. -/
theorem refused_acknowledgement_opens_the_gate :
    openAttendedSession Sample.contract (some 100) (some Sample.preflight) .now =
        .ok Sample.opened ∧
      ¬ Gated (Sample.opened.events Sample.lapsing) ∧
      ∃ step ∈ Sample.opened.steps Sample.lapsing, ¬ step.Unchanged := by
  refine ⟨Sample.opens, fun h => ?_, ?_⟩
  · rw [Sample.lapsing_events] at h
    have := h [.intent false, .dispatched] [.intent false] [.result .proved] rfl (by decide)
    exact absurd this (by decide)
  · refine ⟨_, List.mem_cons_of_mem _ (List.mem_cons_self ..), fun h => ?_⟩
    have hsession := h "session time is not monotonic" rfl
    have hflag := congrArg AttendedSession.observerRepairRequired hsession
    exact absurd hflag (by decide)

end NativeInitLab.Attended
