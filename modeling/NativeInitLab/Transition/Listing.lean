import NativeInitLab.Transition.Aggregation

/-! Which failures a report lists. -/

namespace NativeInitLab.Transition

open Attended Lockstep

def Summary.listed (summary : Summary) : List FailureSignature :=
  summary.failureSignature.toList ++ summary.secondary

def Report.listed (report : Report) : List FailureSignature :=
  report.state.failureSignature.toList ++ report.state.secondaryFailureSignatures

def signatures (failures : List Failure) : List FailureSignature := failures.map Failure.signature

/-- No failure is lost: the first one is ambiguous, or the second, if there is one, is ambiguous and
does not end the run. -/
def Kept (failures : List Failure) : Prop :=
  ∀ first second rest, failures = first :: second :: rest →
    first.ambiguous = true ∨ (second.ambiguous = true ∧ second.deferred = true)

def Ended : List Failure → Prop
  | [] => True
  | failure :: rest => (failure.deferred = false → rest = []) ∧ Ended rest

def FirstAmbiguous (summary : Summary) (failures : List Failure) : Prop :=
  ∀ front first rest, failures = front ++ first :: rest → first.ambiguous = true →
    (∀ failure ∈ front, failure.ambiguous = false) →
    summary.terminal = some .stopAmbiguous ∧ summary.failureSignature = some first.signature

section Aggregate

variable {failures rest : List Failure} {failure : Failure} {signature : FailureSignature}
  {secondary : List FailureSignature}

theorem aggregate_of_deferred (standing : Standing) (hdeferred : failure.deferred = true) :
    aggregate standing (failure :: rest) = aggregate (standing.defer failure) rest :=
  if_pos hdeferred

theorem aggregate_of_ending (standing : Standing) (hdeferred : failure.deferred = false) :
    aggregate standing (failure :: rest) = standing.stop failure := by
  rw [aggregate, hdeferred]
  rfl

theorem stopping_of_aggregate {standing : Standing} {terminal : Terminal}
    (hterminal : (aggregate standing failures).terminal = some terminal) :
    terminal = .stopAmbiguous ∨ terminal = .stoppedNoRetry := by
  induction failures generalizing standing with
  | nil => cases standing <;> cases hterminal <;> simp
  | cons failure rest ih =>
    cases hdeferred : failure.deferred with
    | true =>
      rw [aggregate_of_deferred _ hdeferred] at hterminal
      exact ih hterminal
    | false =>
      rw [aggregate_of_ending _ hdeferred] at hterminal
      cases hambiguous : failure.ambiguous <;> cases standing <;> cases hterminal <;>
        simp [Failure.terminal, hambiguous]

theorem aggregate_ambiguous (hended : Ended failures) :
    aggregate (.ambiguous signature secondary) failures =
      ⟨some .stopAmbiguous, some signature, secondary ++ signatures failures⟩ := by
  induction failures generalizing secondary with
  | nil => simp [aggregate, Standing.finish, signatures]
  | cons failure rest ih =>
    cases hdeferred : failure.deferred with
    | true =>
      rw [aggregate_of_deferred _ hdeferred, Standing.defer, ih hended.2]
      simp [signatures]
    | false =>
      rw [aggregate_of_ending _ hdeferred, hended.1 hdeferred]
      rfl

theorem FirstAmbiguous.cons {summary : Summary} (hfirst : FirstAmbiguous summary rest)
    (hplain : failure.ambiguous = false) : FirstAmbiguous summary (failure :: rest) := by
  intro front first later hsplit hambiguous hfront
  cases front with
  | nil =>
    cases hsplit
    rw [hplain] at hambiguous
    cases hambiguous
  | cons head front =>
    cases hsplit
    exact hfirst front first later rfl hambiguous (List.forall_mem_cons.mp hfront).2

theorem firstAmbiguous_cons_self {summary : Summary} (hambiguous : failure.ambiguous = true)
    (hterminal : summary.terminal = some .stopAmbiguous)
    (hsignature : summary.failureSignature = some failure.signature) :
    FirstAmbiguous summary (failure :: rest) := by
  intro front first later hsplit _ hfront
  cases front with
  | nil =>
    cases hsplit
    exact ⟨hterminal, hsignature⟩
  | cons head front =>
    cases hsplit
    rw [hfront _ List.mem_cons_self] at hambiguous
    cases hambiguous

theorem firstAmbiguous_nil (summary : Summary) : FirstAmbiguous summary [] := by
  intro front first later hsplit
  cases front <;> cases hsplit

theorem stop_terminal (hambiguous : failure.ambiguous = true) :
    failure.terminal = .stopAmbiguous := by
  rw [Failure.terminal, hambiguous]
  rfl

theorem aggregate_stopped (hended : Ended failures)
    (hnodup : (signature :: signatures failures).Nodup) :
    FirstAmbiguous (aggregate (.stopped signature) failures) failures ∧
      (aggregate (.stopped signature) failures).listed.Nodup ∧
      (aggregate (.stopped signature) failures).listed ⊆ signature :: signatures failures ∧
      (aggregate (.stopped signature) failures).terminal ≠ none := by
  induction failures with
  | nil =>
    exact ⟨firstAmbiguous_nil _, List.nodup_singleton signature, List.Subset.refl _,
      Option.some_ne_none _⟩
  | cons failure rest ih =>
    have hsubset : signature :: signatures rest ⊆ signature :: signatures (failure :: rest) :=
      List.cons_subset_cons _ (List.subset_cons_self _ _)
    cases hdeferred : failure.deferred with
    | false =>
      rw [aggregate_of_ending _ hdeferred, hended.1 hdeferred]
      refine ⟨?_, List.nodup_singleton _, List.subset_cons_self _ _, Option.some_ne_none _⟩
      cases hambiguous : failure.ambiguous with
      | true =>
        exact firstAmbiguous_cons_self hambiguous (congrArg some (stop_terminal hambiguous)) rfl
      | false => exact (firstAmbiguous_nil _).cons hambiguous
    | true =>
      rw [aggregate_of_deferred _ hdeferred, Standing.defer]
      cases hambiguous : failure.ambiguous with
      | true =>
        rw [if_pos rfl, aggregate_ambiguous hended.2]
        have hperm : List.Perm (failure.signature :: ([signature] ++ signatures rest))
            (signature :: signatures (failure :: rest)) := List.Perm.swap _ _ _
        exact ⟨firstAmbiguous_cons_self hambiguous rfl rfl, hperm.nodup_iff.mpr hnodup,
          hperm.subset, Option.some_ne_none _⟩
      | false =>
        rw [if_neg Bool.false_ne_true]
        obtain ⟨hfirst, hlisted, hnamed, hterminal⟩ :=
          ih hended.2 (hnodup.sublist ((List.sublist_cons_self _ _).cons_cons signature))
        exact ⟨hfirst.cons hambiguous, hlisted, List.Subset.trans hnamed hsubset, hterminal⟩

theorem listed_stopped_iff (hended : Ended rest)
    (hnodup : (failure.signature :: signatures rest).Nodup) (hplain : failure.ambiguous = false) :
    (∀ other ∈ failure :: rest,
        other.signature ∈ (aggregate (.stopped failure.signature) rest).listed) ↔
      Kept (failure :: rest) := by
  cases rest with
  | nil =>
    refine ⟨(fun _ _ _ _ hsplit => nomatch hsplit), fun _ other hother => ?_⟩
    rw [List.mem_singleton.mp hother]
    exact List.mem_singleton_self _
  | cons second rest =>
    have hkept : Kept (failure :: second :: rest) ↔
        second.ambiguous = true ∧ second.deferred = true := by
      constructor
      · intro hkept
        refine (hkept failure second rest rfl).resolve_left ?_
        rw [hplain]
        exact Bool.false_ne_true
      · rintro hsecond first other later hsplit
        cases hsplit
        exact .inr hsecond
    rw [hkept]
    obtain ⟨hfresh, hrest⟩ := List.nodup_cons.mp hnodup
    cases hdeferred : second.deferred with
    | false =>
      rw [aggregate_of_ending _ hdeferred]
      refine ⟨fun hlisted => ?_, fun hsecond => nomatch hsecond.2⟩
      have hmember := hlisted failure List.mem_cons_self
      rw [List.mem_singleton.mp hmember] at hfresh
      exact absurd List.mem_cons_self hfresh
    | true =>
      rw [aggregate_of_deferred _ hdeferred, Standing.defer]
      cases hambiguous : second.ambiguous with
      | true =>
        rw [if_pos rfl, aggregate_ambiguous hended.2]
        refine ⟨fun _ => ⟨rfl, rfl⟩, fun _ other hother => ?_⟩
        have hperm : List.Perm (second.signature :: ([failure.signature] ++ signatures rest))
            (signatures (failure :: second :: rest)) := List.Perm.swap _ _ _
        exact hperm.mem_iff.mpr (List.mem_map_of_mem hother)
      | false =>
        rw [if_neg Bool.false_ne_true]
        obtain ⟨-, -, hnamed, -⟩ := aggregate_stopped hended.2
          (hnodup.sublist ((List.sublist_cons_self _ _).cons_cons failure.signature))
        refine ⟨fun hlisted => ?_, fun hsecond => nomatch hsecond.1⟩
        have hmember := hnamed (hlisted second (List.mem_cons_of_mem _ List.mem_cons_self))
        rcases List.mem_cons.mp hmember with hsame | hlater
        · rw [← hsame] at hfresh
          exact absurd List.mem_cons_self hfresh
        · exact absurd hlater (List.nodup_cons.mp hrest).1

theorem aggregate_clear (hended : Ended failures) (hnodup : (signatures failures).Nodup) :
    FirstAmbiguous (aggregate .clear failures) failures ∧ (aggregate .clear failures).listed.Nodup ∧
      ((aggregate .clear failures).terminal = none → failures = []) ∧
      ((∀ failure ∈ failures, failure.signature ∈ (aggregate .clear failures).listed) ↔
        Kept failures) := by
  cases failures with
  | nil =>
    refine ⟨firstAmbiguous_nil _, List.nodup_nil, fun _ => rfl, ?_⟩
    constructor
    · intro _ first second later hsplit
      cases hsplit
    · intro _ other hmember
      cases hmember
  | cons failure rest =>
    cases hdeferred : failure.deferred with
    | false =>
      have hrest := hended.1 hdeferred
      subst hrest
      rw [aggregate_of_ending _ hdeferred]
      refine ⟨?_, List.nodup_singleton _, (fun hnone => by cases hnone), ?_⟩
      · cases hambiguous : failure.ambiguous with
        | true =>
          exact firstAmbiguous_cons_self hambiguous (congrArg some (stop_terminal hambiguous)) rfl
        | false => exact (firstAmbiguous_nil _).cons hambiguous
      · constructor
        · intro _ first second later hsplit
          cases hsplit
        · intro _ other hother
          rw [List.mem_singleton.mp hother]
          exact List.mem_singleton_self _
    | true =>
      rw [aggregate_of_deferred _ hdeferred, Standing.defer]
      cases hambiguous : failure.ambiguous with
      | true =>
        rw [if_pos rfl, aggregate_ambiguous hended.2]
        refine ⟨firstAmbiguous_cons_self hambiguous rfl rfl, hnodup,
          (fun hnone => by cases hnone), ?_⟩
        constructor
        · intro _ first second later hsplit
          cases hsplit
          exact .inl hambiguous
        · intro _ other hother
          exact List.mem_map_of_mem hother
      | false =>
        rw [if_neg Bool.false_ne_true]
        obtain ⟨hfirst, hlisted, -, hterminal⟩ := aggregate_stopped hended.2 hnodup
        exact ⟨hfirst.cons hambiguous, hlisted, fun hnone => absurd hnone hterminal,
          listed_stopped_iff hended.2 hnodup hambiguous⟩

end Aggregate

section Phases

variable {effects : Effects} {last : Str} {phases : List Phase}

theorem failuresFrom_passed {phase : Phase} {next : Str}
    (hverdict : verdict effects phase last = .passed next) :
    failuresFrom effects last (phase :: phases) = failuresFrom effects next phases := by
  rw [failuresFrom, hverdict]

theorem failuresFrom_failed {phase : Phase} {next : Str} {failure : Failure}
    (hverdict : verdict effects phase last = .failed failure next) :
    failuresFrom effects last (phase :: phases) =
      failure :: if failure.deferred then failuresFrom effects next phases else [] := by
  rw [failuresFrom, hverdict]

theorem ended_failuresFrom : Ended (failuresFrom effects last phases) := by
  induction phases generalizing last with
  | nil => trivial
  | cons phase phases ih =>
    cases hverdict : verdict effects phase last with
    | passed next =>
      rw [failuresFrom_passed hverdict]
      exact ih
    | failed failure next =>
      rw [failuresFrom_failed hverdict]
      by_cases hdeferred : failure.deferred = true
      · rw [if_pos hdeferred]
        exact ⟨fun hfalse => absurd (hfalse.symm.trans hdeferred) Bool.false_ne_true, ih⟩
      · rw [if_neg hdeferred]
        exact ⟨fun _ => rfl, trivial⟩

theorem phase_of_mem {failure : Failure} (hmember : failure ∈ failuresFrom effects last phases) :
    ∃ phase ∈ phases, failure.signature.phase = phase.name := by
  induction phases generalizing last with
  | nil => cases hmember
  | cons phase phases ih =>
    have hlater {last : Str} (hmember : failure ∈ failuresFrom effects last phases) :
        ∃ other ∈ phase :: phases, failure.signature.phase = other.name := by
      obtain ⟨other, hother, hname⟩ := ih hmember
      exact ⟨other, List.mem_cons_of_mem _ hother, hname⟩
    cases hverdict : verdict effects phase last with
    | passed next =>
      rw [failuresFrom_passed hverdict] at hmember
      exact hlater hmember
    | failed head next =>
      rw [failuresFrom_failed hverdict] at hmember
      rcases List.mem_cons.mp hmember with rfl | hmember
      · exact ⟨phase, List.mem_cons_self, verdict_phase hverdict⟩
      · split at hmember
        · exact hlater hmember
        · cases hmember

theorem nodup_failuresFrom (hnodup : phases.Nodup) :
    (signatures (failuresFrom effects last phases)).Nodup := by
  induction phases generalizing last with
  | nil => exact List.nodup_nil
  | cons phase phases ih =>
    obtain ⟨hfresh, hnodup⟩ := List.nodup_cons.mp hnodup
    cases hverdict : verdict effects phase last with
    | passed next =>
      rw [failuresFrom_passed hverdict]
      exact ih hnodup
    | failed failure next =>
      rw [failuresFrom_failed hverdict]
      by_cases hdeferred : failure.deferred = true
      · rw [if_pos hdeferred]
        refine List.nodup_cons.mpr ⟨?_, ih hnodup⟩
        intro hmember
        obtain ⟨other, hother, hsame⟩ := List.mem_map.mp hmember
        obtain ⟨place, hplace, hname⟩ := phase_of_mem hother
        rw [hsame, verdict_phase hverdict] at hname
        rw [Phase.name_injective hname] at hfresh
        exact hfresh hplace
      · rw [if_neg hdeferred]
        exact List.nodup_singleton _

/-- All phases passed, and the display proof is mechanically complete. -/
structure Passed (effects : Effects) (phase : Phase) : Prop where
  status : (effectOf effects phase).status = some .pass
  display : phase = .debianObservation → ∃ proof,
    displayProof ((effectOf effects phase).evidence.getD []) = .ok proof ∧
      ∀ item ∈ proof.mechanicalItems, item.2 = .proven

theorem complete_of_readDisplay {evidence : Evidence} {proof : DisplayProof}
    (hread : readDisplay evidence = .ok (proof, none)) :
    displayProof evidence = .ok proof ∧ ∀ item ∈ proof.mechanicalItems, item.2 = .proven := by
  obtain ⟨_, hproof, hread⟩ := bind_eq_ok.mp hread
  obtain ⟨_, hmissing, hread⟩ := bind_eq_ok.mp hread
  cases hread
  obtain ⟨_, -, hmissing⟩ := bind_eq_ok.mp hmissing
  have hfind := List.find?_eq_none.mp (Except.ok.inj hmissing)
  refine ⟨hproof, fun item hitem => ?_⟩
  simpa using hfind item hitem

theorem passed_of_verdict {phase : Phase} {next : Str}
    (hverdict : verdict effects phase last = .passed next) : Passed effects phase := by
  unfold verdict at hverdict
  split at hverdict
  · cases hverdict
  · rename_i hstatus
    refine ⟨not_not.mp hstatus, fun hphase => ?_⟩
    rw [if_pos hphase, observationVerdict] at hverdict
    cases hread : readDisplay ((effectOf effects phase).evidence.getD []) with
    | error text =>
      rw [hread] at hverdict
      cases hverdict
    | ok read =>
      obtain ⟨proof, missing⟩ := read
      cases missing with
      | some item =>
        rw [hread] at hverdict
        cases hverdict
      | none => exact ⟨proof, complete_of_readDisplay hread⟩

theorem passed_of_no_failure (hnone : failuresFrom effects last phases = []) :
    ∀ phase ∈ phases, Passed effects phase := by
  induction phases generalizing last with
  | nil => exact fun _ hphase => nomatch hphase
  | cons phase phases ih =>
    cases hverdict : verdict effects phase last with
    | failed failure next =>
      rw [failuresFrom_failed hverdict] at hnone
      cases hnone
    | passed next =>
      rw [failuresFrom_passed hverdict] at hnone
      intro other hother
      rcases List.mem_cons.mp hother with rfl | hother
      · exact passed_of_verdict hverdict
      · exact ih hnone other hother

end Phases

/-- Every run returns a report.  Its terminal and primary signature are those of the first
ambiguous failure if there is one, a pass means that every phase passed, and nothing is listed
twice; but all failures are listed exactly when a plain first failure is followed by none, or next
by an ambiguous one that does not end the run. -/
theorem switchroot_failures_are_listed_iff (effects : Effects) :
    ∃ report, runSwitchrootExperiment effects = .ok report ∧
      (∀ front first rest, failures effects = front ++ first :: rest → first.ambiguous = true →
        (∀ failure ∈ front, failure.ambiguous = false) →
        report.terminal = .stopAmbiguous ∧ report.state.failureSignature = some first.signature) ∧
      ((report.terminal = .passNoProofDisplayVisibility ∨ report.terminal = .passVisible) →
        ∀ phase ∈ d1Phases, Passed effects phase) ∧
      report.listed.Nodup ∧
      ((∀ failure ∈ failures effects, failure.signature ∈ report.listed) ↔
        Kept (failures effects)) := by
  have hstarted : Progress.At ⟨.started, none, none⟩ .clear "APPROVAL_CONSUMED".toList :=
    ⟨⟨rfl, rfl, rfl, rfl⟩, rfl, by decide⟩
  have hreturns : ∃ report, runSwitchrootExperiment effects = .ok report ∧
      report.Shows (aggregate .clear (failures effects)) :=
    run_shows (by decide) hstarted trivial
  obtain ⟨report, hrun, hterminal, hsignature, hsecondary⟩ := hreturns
  have hended : Ended (failures effects) := ended_failuresFrom
  have hdistinct : (signatures (failures effects)).Nodup := nodup_failuresFrom (by decide)
  obtain ⟨hfirst, hnodup, hpass, hlisted⟩ := aggregate_clear hended hdistinct
  have hsame : report.listed = (aggregate .clear (failures effects)).listed := by
    rw [Report.listed, hsignature, hsecondary]
    rfl
  refine ⟨report, hrun, ?_, ?_, hsame ▸ hnodup, by rw [hsame]; exact hlisted⟩
  · intro front first rest hsplit hambiguous hfront
    obtain ⟨hstop, hprimary⟩ := hfirst front first rest hsplit hambiguous hfront
    rw [hstop] at hterminal
    exact ⟨hterminal, hsignature.trans hprimary⟩
  · intro hpassed
    cases hsummary : (aggregate .clear (failures effects)).terminal with
    | none => exact passed_of_no_failure (hpass hsummary)
    | some terminal =>
      rw [hsummary] at hterminal
      have hreport : report.terminal = terminal := hterminal
      rw [hreport] at hpassed
      rcases stopping_of_aggregate hsummary with rfl | rfl <;> simp at hpassed

namespace Sample

def failing (failureClass : String) : PhaseEffect where
  intentRecorded := true
  invoke := some
    { status := some .fail, effectStarted := some true, failureClass := .text failureClass.toList }

def passing : PhaseEffect where
  intentRecorded := true
  invoke := some { status := some .pass, effectStarted := some true }

def effects : Effects
  | .handoff => failing "HANDOFF_FAILED"
  | .debianObservation => failing "OBSERVATION_FAILED"
  | _ => passing

end Sample

theorem second_plain_failure_is_lost :
    ∃ report, runSwitchrootExperiment Sample.effects = .ok report ∧
      report.terminal = .stoppedNoRetry ∧
      ∃ failure ∈ failures Sample.effects, failure.signature ∉ report.listed := by
  refine ⟨_, rfl, rfl, failureOf .debianObservation
    (effectOf Sample.effects .debianObservation) "GUARD_ARM_PROVEN".toList, ?_, ?_⟩
  · decide
  · decide

end NativeInitLab.Transition
