import Mathlib.Data.List.Nodup
import NativeInitLab.Transition.Experiment

/-!
What the report of a switch-root experiment says of the failures of its phases.
-/

namespace NativeInitLab.Transition

open Attended Lockstep

/-- One failed or ambiguous outcome; the run goes on after a `deferred` one. -/
structure Failure where
  signature : FailureSignature
  ambiguous : Bool
  deferred : Bool
  deriving DecidableEq

/-- How a phase ends, and the boundary proven last from then on. -/
inductive Verdict
  | passed (last : Str)
  | failed (failure : Failure) (last : Str)

def effectOf (effects : Effects) (phase : Phase) : EffectResult :=
  if (effects phase).intentRecorded = false then intentRecordAmbiguous
  else checkedResult (effects phase).invoke

def signatureOf (phase : Phase) (result : EffectResult) (last : Str) : FailureSignature :=
  ⟨workflowName, phase.name, FailureClass.str result.failureClass,
    result.effectStarted.getD false, last⟩

def failureOf (phase : Phase) (result : EffectResult) (last : Str) : Failure :=
  ⟨signatureOf phase result last, result.status = some .ambiguous, goesOn phase result⟩

def observationVerdict (evidence : Evidence) : Verdict :=
  let captured := "DEBIAN_OBSERVATION_CAPTURED".toList
  let mechanical := "DISPLAY_MECHANICAL_PROVEN".toList
  match readDisplay evidence with
  | .error _ =>
    .failed (failureOf .debianObservation observationEvidenceAmbiguous captured) captured
  | .ok (_, some item) =>
    .failed (failureOf .debianObservation (missingFailure item) captured) captured
  | .ok (proof, none) =>
    match proof.visibleConfirmed with
    | .proven => .passed "DISPLAY_VISIBILITY_PROVEN".toList
    | .unavailable => .passed mechanical
    | .refuted =>
      .failed (failureOf .debianObservation visibleConfirmedRefuted mechanical) mechanical

def verdict (effects : Effects) (phase : Phase) (last : Str) : Verdict :=
  if (effectOf effects phase).status ≠ some .pass then
    .failed (failureOf phase (effectOf effects phase) last) last
  else if phase = .debianObservation then
    observationVerdict ((effectOf effects phase).evidence.getD [])
  else .passed (phase.name ++ "_PROVEN".toList)

def failuresFrom (effects : Effects) (last : Str) : List Phase → List Failure
  | [] => []
  | phase :: phases =>
    match verdict effects phase last with
    | .passed last => failuresFrom effects last phases
    | .failed failure last =>
      failure :: if failure.deferred then failuresFrom effects last phases else []

def failures (effects : Effects) : List Failure :=
  failuresFrom effects "APPROVAL_CONSUMED".toList d1Phases

/-! The deferred failures as the run remembers them. -/

inductive Standing
  | clear
  | stopped (signature : FailureSignature)
  | ambiguous (signature : FailureSignature) (secondary : List FailureSignature)

def Standing.defer : Standing → Failure → Standing
  | .clear, failure =>
    if failure.ambiguous then .ambiguous failure.signature [] else .stopped failure.signature
  | .stopped signature, failure =>
    if failure.ambiguous then .ambiguous failure.signature [signature] else .stopped signature
  | .ambiguous signature secondary, failure =>
    .ambiguous signature (secondary ++ [failure.signature])

/-- The failure part of a report; no terminal stands for a pass. -/
structure Summary where
  terminal : Option Terminal
  failureSignature : Option FailureSignature
  secondary : List FailureSignature

def Failure.terminal (failure : Failure) : Terminal :=
  if failure.ambiguous then .stopAmbiguous else .stoppedNoRetry

def Standing.stop : Standing → Failure → Summary
  | .ambiguous signature secondary, failure =>
    ⟨some .stopAmbiguous, some signature, secondary ++ [failure.signature]⟩
  | _, failure => ⟨some failure.terminal, some failure.signature, []⟩

def Standing.finish : Standing → Summary
  | .clear => ⟨none, none, []⟩
  | .stopped signature => ⟨some .stoppedNoRetry, some signature, []⟩
  | .ambiguous signature secondary => ⟨some .stopAmbiguous, some signature, secondary⟩

def aggregate (standing : Standing) : List Failure → Summary
  | [] => standing.finish
  | failure :: rest =>
    if failure.deferred then aggregate (standing.defer failure) rest else standing.stop failure

/-! The run computes `aggregate` of its failures. -/

def Progress.Shows (progress : Progress) : Standing → Prop
  | .clear => progress.deferredTerminal = none ∧ progress.deferredSignature = none ∧
      progress.state.secondaryFailureSignatures = [] ∧ progress.state.failureSignature = none
  | .stopped signature => progress.deferredTerminal = some .stoppedNoRetry ∧
      progress.deferredSignature = some signature ∧
      progress.state.secondaryFailureSignatures = []
  | .ambiguous signature secondary => progress.deferredTerminal = some .stopAmbiguous ∧
      progress.deferredSignature = some signature ∧
      progress.state.secondaryFailureSignatures = secondary

def Report.Shows (report : Report) (summary : Summary) : Prop :=
  (match summary.terminal with
    | some terminal => report.terminal = terminal
    | none => report.terminal = .passNoProofDisplayVisibility ∨ report.terminal = .passVisible) ∧
  report.state.failureSignature = summary.failureSignature ∧
  report.state.secondaryFailureSignatures = summary.secondary

def Standing.AwayFrom (phases : List Phase) : Standing → Prop
  | .clear => True
  | .stopped signature => ∀ phase ∈ phases, signature.phase ≠ phase.name
  | .ambiguous signature _ => ∀ phase ∈ phases, signature.phase ≠ phase.name

section Refinement

variable {effects : Effects} {phase : Phase} {progress : Progress} {standing : Standing}
  {last : Str} {result : EffectResult}

abbrev Nameable (result : EffectResult) : Prop :=
  isIdentity (FailureClass.str result.failureClass) = true

theorem nameable_of_validate (hvalid : result.validate = .ok ())
    (hstatus : result.status ≠ some .pass) : Nameable result := by
  unfold EffectResult.validate at hvalid
  repeat' split at hvalid
  all_goals cases hvalid
  rename_i _ _ _ hexact _ hlacks _
  cases hclass : result.failureClass with
  | absent => exact absurd ⟨hstatus, hclass⟩ hlacks
  | other => simp [hclass, FailureClass.exact] at hexact
  | text value =>
    simp only [hclass, FailureClass.exact, Bool.not_eq_false] at hexact
    rw [Nameable, hclass]
    exact hexact

theorem nameable_effectOf (hstatus : (effectOf effects phase).status ≠ some .pass) :
    Nameable (effectOf effects phase) := by
  unfold effectOf checkedResult at hstatus ⊢
  split
  · decide
  · rename_i hintent
    rw [if_neg hintent] at hstatus
    cases hinvoke : (effects phase).invoke with
    | none =>
      show Nameable effectExceptionAmbiguous
      decide
    | some result =>
      rw [hinvoke] at hstatus
      cases hvalid : result.validate with
      | error text =>
        simp only [hvalid]
        decide
      | ok _ =>
        simp only [hvalid] at hstatus ⊢
        exact nameable_of_validate hvalid hstatus

theorem isIdentity_phase (phase : Phase) :
    isIdentity phase.name = true ∧ isIdentity (phase.name ++ "_PROVEN".toList) = true := by
  cases phase <;> decide

theorem fail_eq (phase : Phase) (hname : Nameable result)
    (hlast : isIdentity progress.state.lastProven = true) :
    progress.state.fail phase result = .ok { progress.state with
        failureSignature := some (signatureOf phase result progress.state.lastProven) } := by
  have hworkflow : isIdentity workflowName = true := by decide
  have hcheck : (progress.state.signature phase result).check =
      .ok (signatureOf phase result progress.state.lastProven) := by
    rw [FailureSignature.check, if_pos]
    · rfl
    · simp only [RunState.signature, hworkflow, (isIdentity_phase phase).1, hlast, Bool.and_true,
        Bool.true_and]
      exact hname
  rw [RunState.fail, hcheck]
  rfl

theorem keepCurrent_of_ne (progress : Progress) {signature deferred : FailureSignature}
    (hcurrent : progress.state.failureSignature = some signature)
    (hdeferred : progress.deferredSignature = some deferred) (hne : deferred ≠ signature) :
    progress.keepCurrent = progress.state.addSecondary signature := by
  rw [Progress.keepCurrent, hcurrent]
  exact if_pos (by rw [hdeferred]; exact fun hsame => hne (Option.some.inj hsame).symm)

theorem keepDeferred_of_ne (progress : Progress) {signature deferred : FailureSignature}
    (hcurrent : progress.state.failureSignature = some signature)
    (hdeferred : progress.deferredSignature = some deferred) (hne : deferred ≠ signature) :
    progress.keepDeferred = progress.state.addSecondary deferred := by
  rw [Progress.keepDeferred, hdeferred]
  exact if_pos (by rw [hcurrent]; exact fun hsame => hne (Option.some.inj hsame))

theorem terminalOf_eq (phase : Phase) (result : EffectResult) (last : Str) :
    terminalOf result = (failureOf phase result last).terminal := by
  simp [terminalOf, failureOf, Failure.terminal]

def Progress.failed (progress : Progress) (signature : FailureSignature) : Progress :=
  { progress with state := { progress.state with failureSignature := some signature } }

theorem failed_deferredTerminal (progress : Progress) (signature : FailureSignature) :
    (progress.failed signature).deferredTerminal = progress.deferredTerminal := rfl

theorem defer_shows (failure : Failure) (hshows : progress.Shows standing)
    (haway : standing.AwayFrom [phase]) (hphase : failure.signature.phase = phase.name) :
    ((progress.failed failure.signature).defer failure.terminal).Shows (standing.defer failure) := by
  have hne (deferred : FailureSignature) (haway : ∀ other ∈ [phase], deferred.phase ≠ other.name) :
      deferred ≠ failure.signature := by
    rintro rfl
    exact haway phase List.mem_cons_self hphase
  cases standing with
  | clear =>
    obtain ⟨hterminal, hdeferred, hsecondary, -⟩ := hshows
    have hsignature : (progress.failed failure.signature).deferredSignature = none := hdeferred
    rw [Progress.defer, failed_deferredTerminal, hterminal, if_neg (by simp), if_pos (.inl rfl),
      Progress.keepDeferred, hsignature]
    cases hambiguous : failure.ambiguous <;>
      simp [Failure.terminal, hambiguous, Standing.defer, Progress.Shows, Progress.failed,
        hsecondary]
  | stopped deferred =>
    obtain ⟨hterminal, hdeferred, hsecondary⟩ := hshows
    cases hambiguous : failure.ambiguous with
    | false =>
      rw [Progress.defer, failed_deferredTerminal, hterminal, if_neg (by simp),
        if_neg (by simp [Failure.terminal, hambiguous])]
      simp only [Standing.defer, hambiguous, Bool.false_eq_true, if_false]
      exact ⟨hterminal, hdeferred, hsecondary⟩
    | true =>
      have hkeep := keepDeferred_of_ne (progress.failed failure.signature) rfl hdeferred
        (hne deferred haway)
      have hterm : failure.terminal = .stopAmbiguous := by simp [Failure.terminal, hambiguous]
      rw [Progress.defer, failed_deferredTerminal, hterminal, if_neg (by simp), hterm,
        if_pos (.inr rfl), if_pos rfl, hkeep]
      simp only [Standing.defer, hambiguous, if_true]
      refine ⟨rfl, rfl, ?_⟩
      show progress.state.secondaryFailureSignatures ++ [deferred] = [deferred]
      rw [hsecondary]
      rfl
  | ambiguous deferred secondary =>
    obtain ⟨hterminal, hdeferred, hsecondary⟩ := hshows
    have hkeep := keepCurrent_of_ne (progress.failed failure.signature) rfl hdeferred
      (hne deferred haway)
    rw [Progress.defer, failed_deferredTerminal, hterminal, if_pos rfl, hkeep]
    refine ⟨rfl, hdeferred, ?_⟩
    show progress.state.secondaryFailureSignatures ++ [failure.signature] = _
    rw [hsecondary]

theorem stop_shows (failure : Failure) (hshows : progress.Shows standing)
    (haway : standing.AwayFrom [phase]) (hphase : failure.signature.phase = phase.name) :
    ((progress.failed failure.signature).stop failure.terminal).Shows (standing.stop failure) := by
  cases standing with
  | clear =>
    obtain ⟨hterminal, hdeferred, hsecondary, -⟩ := hshows
    rw [Progress.stop, failed_deferredTerminal, hterminal, if_neg (by simp)]
    exact ⟨rfl, rfl, hsecondary⟩
  | stopped deferred =>
    obtain ⟨hterminal, hdeferred, hsecondary⟩ := hshows
    rw [Progress.stop, failed_deferredTerminal, hterminal, if_neg (by simp)]
    exact ⟨rfl, rfl, hsecondary⟩
  | ambiguous deferred secondary =>
    obtain ⟨hterminal, hdeferred, hsecondary⟩ := hshows
    have hne : deferred ≠ failure.signature := by
      rintro rfl
      exact haway phase List.mem_cons_self hphase
    have hkeep := keepCurrent_of_ne (progress.failed failure.signature) rfl hdeferred hne
    rw [Progress.stop, failed_deferredTerminal, hterminal, if_pos rfl, hkeep]
    refine ⟨rfl, hdeferred, ?_⟩
    show progress.state.secondaryFailureSignatures ++ [failure.signature] = _
    rw [hsecondary]
    rfl

theorem finish_shows (hshows : progress.Shows standing) :
    progress.finish.Shows standing.finish := by
  cases standing with
  | clear =>
    obtain ⟨hterminal, -, hsecondary, hcurrent⟩ := hshows
    rw [Progress.finish, hterminal]
    refine ⟨?_, hcurrent, hsecondary⟩
    show (if progress.state.visibility = .noProof then Terminal.passNoProofDisplayVisibility
      else .passVisible) = _ ∨ _ = _
    split
    · exact .inl rfl
    · exact .inr rfl
  | stopped deferred =>
    obtain ⟨hterminal, hdeferred, hsecondary⟩ := hshows
    rw [Progress.finish, hterminal]
    exact ⟨rfl, hdeferred, hsecondary⟩
  | ambiguous deferred secondary =>
    obtain ⟨hterminal, hdeferred, hsecondary⟩ := hshows
    rw [Progress.finish, hterminal]
    exact ⟨rfl, hdeferred, hsecondary⟩

structure Progress.At (progress : Progress) (standing : Standing) (last : Str) : Prop where
  shows : progress.Shows standing
  lastProven : progress.state.lastProven = last
  identity : isIdentity last = true

theorem defer_lastProven (progress : Progress) (terminal : Terminal) :
    (progress.defer terminal).state.lastProven = progress.state.lastProven := by
  have hcurrent : progress.keepCurrent.lastProven = progress.state.lastProven := by
    unfold Progress.keepCurrent
    repeat' split
    all_goals rfl
  have hdeferred : progress.keepDeferred.lastProven = progress.state.lastProven := by
    unfold Progress.keepDeferred
    repeat' split
    all_goals rfl
  unfold Progress.defer
  repeat' split
  · exact hcurrent
  · exact hdeferred
  · rfl
  · rfl

theorem failDeferred_at (hat : progress.At standing last) (hname : Nameable result)
    (haway : standing.AwayFrom [phase]) :
    ∃ next, progress.failDeferred phase result = .ok next ∧
      next.At (standing.defer (failureOf phase result last)) last := by
  have hlast := hat.lastProven
  subst hlast
  refine ⟨_, ?_, defer_shows (failureOf phase result progress.state.lastProven) hat.shows haway rfl,
    ?_, hat.identity⟩
  · rw [Progress.failDeferred, fail_eq phase hname hat.identity, ← terminalOf_eq]
    rfl
  · rw [defer_lastProven]
    rfl

theorem runEffect_eq (state : RunState) (effects : Effects) (phase : Phase) :
    ∃ history, state.runEffect effects phase = (effectOf effects phase, { state with
        history
        lastProven := if (effectOf effects phase).status = some .pass then
          phase.name ++ "_PROVEN".toList else state.lastProven }) := by
  unfold RunState.runEffect effectOf
  by_cases hintent : (effects phase).intentRecorded = false
  · rw [if_pos hintent, if_pos hintent]
    exact ⟨_, rfl⟩
  · rw [if_neg hintent, if_neg hintent]
    by_cases hpass : (checkedResult (effects phase).invoke).status = some .pass
    · simp only [hpass, if_true]
      exact ⟨_, rfl⟩
    · simp only [hpass, if_false]
      exact ⟨_, rfl⟩

theorem Progress.At.extend {history : List Str} {next : Str} {visibility : Visibility}
    (hat : progress.At standing last) (hidentity : isIdentity next = true) :
    Progress.At { progress with
      state := { progress.state with history, lastProven := next, visibility } } standing next := by
  refine ⟨?_, rfl, hidentity⟩
  have hshows := hat.shows
  cases standing with
  | clear => exact hshows
  | stopped signature => exact hshows
  | ambiguous signature secondary => exact hshows

def Follows (standing : Standing) (outcome : Except String Next) : Verdict → Prop
  | .passed last => ∃ next, outcome = .ok (.go next) ∧ next.At standing last
  | .failed failure last =>
    if failure.deferred then
      ∃ next, outcome = .ok (.go next) ∧ next.At (standing.defer failure) last
    else ∃ report, outcome = .ok (.stop report) ∧ report.Shows (standing.stop failure)

theorem isIdentity_missing {items : List (Str × ProofState)} {item : Str × ProofState}
    (hitem : item ∈ items) (hnames : ∀ item ∈ items, item.1 ∈ mechanicalNames) :
    Nameable (missingFailure item) := by
  obtain ⟨name, state⟩ := item
  have hname := hnames _ hitem
  have hall : ∀ name ∈ mechanicalNames, ∀ state, Nameable (missingFailure (name, state)) := by
    intro name hname state
    cases state <;> revert name <;> decide
  exact hall name hname state

theorem names_of_proofItems {evidence : Evidence} {names : List Str}
    {items : List (Str × ProofState)} (hitems : proofItems evidence names = .ok items) :
    ∀ item ∈ items, item.1 ∈ names := by
  induction names generalizing items with
  | nil =>
    cases hitems
    exact fun _ hitem => nomatch hitem
  | cons name names ih =>
    rw [proofItems] at hitems
    obtain ⟨state, -, hitems⟩ := bind_eq_ok.mp hitems
    obtain ⟨rest, hrest, hitems⟩ := bind_eq_ok.mp hitems
    cases hitems
    intro item hitem
    rcases List.mem_cons.mp hitem with rfl | hitem
    · exact List.mem_cons_self
    · exact List.mem_cons_of_mem _ (ih hrest item hitem)

theorem nameable_missing {evidence : Evidence} {proof : DisplayProof} {item : Str × ProofState}
    (hread : readDisplay evidence = .ok (proof, some item)) : Nameable (missingFailure item) := by
  obtain ⟨_, hproof, hread⟩ := bind_eq_ok.mp hread
  obtain ⟨_, hmissing, hread⟩ := bind_eq_ok.mp hread
  cases hread
  obtain ⟨_, -, hmissing⟩ := bind_eq_ok.mp hmissing
  have hfind := Except.ok.inj hmissing
  unfold displayProof at hproof
  split at hproof
  · obtain ⟨items, hitems, hproof⟩ := bind_eq_ok.mp hproof
    obtain ⟨_, -, hproof⟩ := bind_eq_ok.mp hproof
    cases hproof
    exact isIdentity_missing (List.mem_of_find?_eq_some hfind) (names_of_proofItems hitems)
  · cases hproof

theorem nameable_observation :
    Nameable observationEvidenceAmbiguous ∧ Nameable visibleConfirmedRefuted := by
  decide

theorem follows_deferred (hat : progress.At standing last) (hname : Nameable result)
    (haway : standing.AwayFrom [phase]) (hgoes : goesOn phase result = true) :
    Follows standing (.go <$> progress.failDeferred phase result)
      (.failed (failureOf phase result last) last) := by
  obtain ⟨next, hnext, hat⟩ := failDeferred_at hat hname haway
  have hdeferred : (failureOf phase result last).deferred = true := hgoes
  rw [Follows, if_pos hdeferred, hnext]
  exact ⟨next, rfl, hat⟩

theorem follows_observe (hat : progress.At standing last)
    (haway : standing.AwayFrom [.debianObservation]) (evidence : Evidence) :
    Follows standing (.go <$> progress.observe evidence) (observationVerdict evidence) := by
  unfold Progress.observe observationVerdict
  cases hread : readDisplay evidence with
  | error text =>
    exact follows_deferred (hat.extend (by decide)) nameable_observation.1 haway rfl
  | ok read =>
    obtain ⟨proof, missing⟩ := read
    cases missing with
    | some item => exact follows_deferred (hat.extend (by decide)) (nameable_missing hread) haway rfl
    | none =>
      cases hvisible : proof.visibleConfirmed with
      | proven =>
        simp only [hvisible]
        exact ⟨_, rfl, hat.extend (by decide)⟩
      | unavailable =>
        have hmechanical : isIdentity "DISPLAY_MECHANICAL_PROVEN".toList = true := by decide
        simp only [hvisible]
        exact ⟨_, rfl, hat.extend hmechanical⟩
      | refuted =>
        simp only [hvisible]
        exact follows_deferred (hat.extend (by decide)) nameable_observation.2 haway rfl

theorem follows_step (hat : progress.At standing last) (haway : standing.AwayFrom [phase]) :
    Follows standing (progress.step effects phase) (verdict effects phase last) := by
  obtain ⟨history, hrun⟩ := runEffect_eq progress.state effects phase
  unfold Progress.step verdict
  rw [hrun]
  by_cases hpass : (effectOf effects phase).status = some .pass
  · simp only [hpass, ne_eq, not_true_eq_false, if_false, if_true]
    by_cases hphase : phase = .debianObservation
    · subst hphase
      simp only [not_true_eq_false, if_false, if_true]
      exact follows_observe (hat.extend (isIdentity_phase _).2) haway _
    · simp only [hphase, not_false_eq_true, if_true, if_false]
      exact ⟨_, rfl, hat.extend (isIdentity_phase phase).2⟩
  · have hname := nameable_effectOf hpass
    have hsame : Progress.At { progress with state := { progress.state with history } } standing last :=
      hat.lastProven ▸ hat.extend (hat.lastProven ▸ hat.identity)
    simp only [hpass, ne_eq, not_false_eq_true, if_true, if_false]
    by_cases hgoes : goesOn phase (effectOf effects phase) = true
    · rw [if_pos hgoes]
      exact follows_deferred hsame hname haway hgoes
    · have hdeferred : ¬ (failureOf phase (effectOf effects phase) last).deferred = true := hgoes
      have hfail := fail_eq phase hname (hsame.lastProven ▸ hsame.identity)
      rw [if_neg hgoes, Follows, if_neg hdeferred, hfail]
      refine ⟨_, rfl, ?_⟩
      have hstop := stop_shows (failureOf phase (effectOf effects phase) last) hsame.shows haway rfl
      rw [← terminalOf_eq] at hstop
      rw [hat.lastProven]
      exact hstop

theorem Phase.name_injective {first second : Phase} (hname : first.name = second.name) :
    first = second := by
  revert hname
  cases first <;> cases second <;> decide

theorem verdict_phase {failure : Failure} {next : Str}
    (hverdict : verdict effects phase last = .failed failure next) :
    failure.signature.phase = phase.name := by
  unfold verdict at hverdict
  split at hverdict
  · cases hverdict
    rfl
  · split at hverdict
    · rename_i hphase
      subst hphase
      unfold observationVerdict at hverdict
      repeat' split at hverdict
      all_goals cases hverdict
      all_goals rfl
    · cases hverdict

theorem Standing.AwayFrom.mono {phases others : List Phase} (haway : standing.AwayFrom phases)
    (hsubset : others ⊆ phases) : standing.AwayFrom others := by
  cases standing with
  | clear => exact haway
  | stopped signature => exact fun phase hphase => haway phase (hsubset hphase)
  | ambiguous signature secondary => exact fun phase hphase => haway phase (hsubset hphase)

theorem Standing.AwayFrom.defer {phases : List Phase} {failure : Failure}
    (haway : standing.AwayFrom phases) (hphase : failure.signature.phase = phase.name)
    (hfresh : phase ∉ phases) : (standing.defer failure).AwayFrom phases := by
  have hfailure : ∀ other ∈ phases, failure.signature.phase ≠ other.name := by
    intro other hother hsame
    rw [hphase] at hsame
    rw [Phase.name_injective hsame] at hfresh
    exact hfresh hother
  cases standing with
  | clear =>
    cases hambiguous : failure.ambiguous <;> (rw [Standing.defer, hambiguous]; exact hfailure)
  | stopped signature =>
    cases hambiguous : failure.ambiguous with
    | false =>
      rw [Standing.defer, hambiguous]
      exact haway
    | true =>
      rw [Standing.defer, hambiguous]
      exact hfailure
  | ambiguous signature secondary => exact haway

theorem run_shows {phases : List Phase} (hnodup : phases.Nodup) (hat : progress.At standing last)
    (haway : standing.AwayFrom phases) :
    ∃ report, progress.run effects phases = .ok report ∧
      report.Shows (aggregate standing (failuresFrom effects last phases)) := by
  induction phases generalizing progress standing last with
  | nil => exact ⟨_, rfl, finish_shows hat.shows⟩
  | cons phase phases ih =>
    obtain ⟨hfresh, hnodup⟩ := List.nodup_cons.mp hnodup
    have hhere : standing.AwayFrom [phase] :=
      haway.mono (List.cons_subset_cons phase (List.nil_subset phases))
    have hlater : standing.AwayFrom phases := haway.mono (List.subset_cons_self phase phases)
    have hstep : Follows standing (progress.step effects phase) _ := follows_step hat hhere
    rw [Progress.run, failuresFrom]
    cases hverdict : verdict effects phase last with
    | passed next =>
      rw [hverdict] at hstep
      obtain ⟨progress, hgo, hat⟩ := hstep
      rw [hgo]
      exact ih hnodup hat hlater
    | failed failure next =>
      rw [hverdict, Follows] at hstep
      by_cases hdeferred : failure.deferred = true
      · rw [if_pos hdeferred] at hstep
        obtain ⟨progress, hgo, hat⟩ := hstep
        rw [hgo]
        simp only [hdeferred, if_true, aggregate]
        exact ih hnodup hat (hlater.defer (verdict_phase hverdict) hfresh)
      · rw [if_neg hdeferred] at hstep
        obtain ⟨report, hstop, hshows⟩ := hstep
        rw [hstop]
        simp only [hdeferred, aggregate]
        exact ⟨report, rfl, hshows⟩

end Refinement

end NativeInitLab.Transition
