import NativeInitLab.ReturnSupervisor.Supervisor

/-! The supervisor ends with a reset, and not before its time. -/

namespace NativeInitLab.ReturnSupervisor

open TimedCalls

def Had (trace : Trace Action) (action : Action) : Prop := ∃ call, (call, action) ∈ trace.log

def Action.isReport : Action → Bool
  | .ready _ _ => true
  | _ => false

def Action.isEarly (action : Action) : Bool := action.isReport || action == .startSync

/-- The run writes to the trigger at the end, and does none of these before. -/
def Concludes (early : Action → Bool) (trace : Trace Action) (run : Outcome × Trace Action) : Prop :=
  ∃ later, Trace.Adds (fun action => early action = false) trace later ∧ run = triggerBOnly later

section Waiting

variable {env : Environment} {trace later : Trace Action} {child deadline instant : Nat}

theorem Had.mono {good : Action → Prop} {action : Action} (hhad : Had trace action)
    (hadds : Trace.Adds good trace later) : Had later action := by
  obtain ⟨call, hcall⟩ := hhad
  exact ⟨call, hadds.mem hcall⟩

theorem had_note (trace : Trace Action) (action : Action) : Had (trace.note action) action :=
  ⟨trace.calls, List.mem_append_right _ List.mem_cons_self⟩

theorem monotonicNow_none (hnow : monotonicNow env trace = (none, later)) :
    Had later .clockFailed := by
  unfold monotonicNow at hnow
  split at hnow
  · cases hnow
    exact had_note _ _
  · cases hnow

theorem monotonicNow_some (hnow : monotonicNow env trace = (some instant, later)) :
    env.time trace.calls ≤ instant ∧ instant ≤ env.time later.calls := by
  unfold monotonicNow at hnow
  split at hnow
  · cases hnow
  · rename_i hclock
    cases hnow
    exact env.now_between hclock

theorem sleepUntil_true (hsleep : sleepUntil env deadline trace = (true, later)) :
    deadline ≤ env.time later.calls := by
  fun_induction sleepUntil env deadline trace with
  | case1 trace hdone =>
    cases hsleep
    exact env.sleep_done hdone
  | case2 trace hfailed => cases hsleep
  | case3 trace hinterrupted ih => exact ih hsleep

theorem sleepUntil_false (hsleep : sleepUntil env deadline trace = (false, later)) :
    Had later .sleepFailed := by
  fun_induction sleepUntil env deadline trace with
  | case1 trace hdone => cases hsleep
  | case2 trace hfailed =>
    cases hsleep
    exact had_note _ _
  | case3 trace hinterrupted ih => exact ih hsleep

theorem deadlineReached_true (hreached : deadlineReached env deadline trace = (true, later)) :
    Had later .clockFailed ∨ deadline ≤ env.time later.calls := by
  unfold deadlineReached at hreached
  split at hreached
  · rename_i hnow
    cases hreached
    exact .inl (monotonicNow_none hnow)
  · rename_i hnow
    simp only [Prod.mk.injEq, decide_eq_true_eq] at hreached
    obtain ⟨hle, rfl⟩ := hreached
    exact .inr (Nat.le_trans hle (monotonicNow_some hnow).2)

theorem waits_waitChildUntil (child deadline : Nat) :
    Waits trace (waitChildUntil env child deadline trace).2 := by
  fun_induction waitChildUntil env child deadline trace with
  | case1 trace clean hwait => exact Trace.adds_skip trace
  | case2 trace hwait => exact Trace.adds_note rfl
  | case3 trace later hreached =>
    exact (Trace.adds_skip trace).trans (waits_deadlineReached hreached)
  | case4 trace later hreached _ _ ih =>
    have hwaits := (Trace.adds_skip trace).trans (waits_deadlineReached hreached)
    exact hwaits.trans (waits_pollPauseUntil.trans ih)

def WaitedFor (env : Environment) (child deadline : Nat) (later : Trace Action) : Waited → Prop
  | .ended _ => ∃ instant, env.ends child = some instant ∧ instant ≤ env.time later.calls
  | .failed => Had later .waitFailed
  | .expired => Had later .clockFailed ∨ deadline ≤ env.time later.calls

theorem waitedFor_waitChildUntil (child deadline : Nat) :
    WaitedFor env child deadline (waitChildUntil env child deadline trace).2
      (waitChildUntil env child deadline trace).1 := by
  fun_induction waitChildUntil env child deadline trace with
  | case1 trace clean hwait => exact env.wait_ended hwait
  | case2 trace hwait => exact had_note _ _
  | case3 trace later hreached => exact deadlineReached_true hreached
  | case4 trace later hreached _ _ ih => exact ih

end Waiting

section Supervise

variable {env : Environment} {trace later : Trace Action} {delay grace child : Nat}
  {action : Action}
  {run : Outcome × Trace Action}

theorem isEarly_of_isTrouble (action : Action) (htrouble : action.isTrouble = true) :
    action.isEarly = false := by
  cases action <;> first | rfl | cases htrouble

theorem Concludes.of_adds (hadds : Trace.Adds (fun action => action.isEarly = false) trace later)
    (hrun : Concludes Action.isEarly later run) : Concludes Action.isEarly trace run := by
  obtain ⟨final, hmore, hrun⟩ := hrun
  exact ⟨final, hadds.trans hmore, hrun⟩

theorem Concludes.of_waits (hwaits : Waits trace later) (hrun : Concludes Action.isEarly later run) :
    Concludes Action.isEarly trace run :=
  hrun.of_adds (hwaits.mono isEarly_of_isTrouble)

theorem concludes_triggerBOnly (trace : Trace Action) :
    Concludes Action.isEarly trace (triggerBOnly trace) :=
  ⟨trace, Trace.Adds.refl trace, rfl⟩

theorem concludes_bounded (limit : Nat) (hnot : action.isEarly = false) :
    Concludes Action.isEarly trace (if env.result trace.calls < 0 then triggerBOnly trace.skip
      else match monotonicNow env (trace.note action) with
        | (none, later) => triggerBOnly later
        | (some instant, later) =>
          triggerBOnly (waitChildUntil env trace.calls (instant + limit) later).2) := by
  split
  · exact (concludes_triggerBOnly _).of_adds (Trace.adds_skip trace)
  · apply Concludes.of_adds (Trace.adds_note hnot)
    split
    · rename_i hnow
      exact (concludes_triggerBOnly _).of_waits (waits_monotonicNow hnow)
    · rename_i hnow
      exact (concludes_triggerBOnly _).of_waits
        ((waits_monotonicNow hnow).trans (waits_waitChildUntil _ _))

theorem concludes_collectEvidenceThenB :
    Concludes Action.isEarly trace (collectEvidenceThenB env trace) :=
  concludes_bounded (1000 * millisecond) rfl

theorem concludes_requestRebootBounded :
    Concludes Action.isEarly trace (requestRebootBounded env trace) :=
  concludes_bounded (5000 * millisecond) rfl

theorem superviseSync_spec (env : Environment) (grace child : Nat) (trace : Trace Action) :
    ∃ later, Waits trace later ∧ Concludes Action.isEarly later (superviseSync env grace child trace) ∧
      (Had later .clockFailed ∨ Had later .waitFailed ∨
        (∃ instant, env.ends child = some instant ∧ instant ≤ env.time later.calls) ∨
        env.time trace.calls + grace * second ≤ env.time later.calls) := by
  unfold superviseSync
  split
  · rename_i later hnow
    exact ⟨later, waits_monotonicNow hnow, concludes_triggerBOnly later,
      .inl (monotonicNow_none hnow)⟩
  · rename_i instant now hnow
    have hwaits : Waits now (waitChildUntil env child (instant + grace * second) now).2 :=
      waits_waitChildUntil _ _
    have hfor : WaitedFor env child (instant + grace * second)
        (waitChildUntil env child (instant + grace * second) now).2
        (waitChildUntil env child (instant + grace * second) now).1 :=
      waitedFor_waitChildUntil _ _
    have hstart := (monotonicNow_some hnow).1
    split
    · rename_i clean later hwait
      rw [hwait] at hwaits hfor
      refine ⟨later, (waits_monotonicNow hnow).trans hwaits, ?_, .inr (.inr (.inl hfor))⟩
      split
      · exact concludes_requestRebootBounded
      · exact concludes_triggerBOnly later
    · rename_i later hwait
      rw [hwait] at hwaits hfor
      exact ⟨later, (waits_monotonicNow hnow).trans hwaits, concludes_triggerBOnly later,
        .inr (.inl hfor)⟩
    · rename_i later hwait
      rw [hwait] at hwaits hfor
      refine ⟨later, (waits_monotonicNow hnow).trans hwaits, concludes_collectEvidenceThenB, ?_⟩
      rcases hfor with hclock | hgrace
      · exact .inl hclock
      · exact .inr (.inr (.inr (Nat.le_trans (Nat.add_le_add_right hstart _) hgrace)))

theorem supervise_spec (env : Environment) (delay grace : Nat) (trace : Trace Action) :
    ∃ later, Waits trace later ∧ ((Had later .clockFailed ∨ Had later .sleepFailed) ∨
        env.time trace.calls + delay * second ≤ env.time later.calls) ∧
      (supervise env delay grace trace = triggerBOnly later ∨
        supervise env delay grace trace = triggerBOnly later.skip ∨
        supervise env delay grace trace =
          superviseSync env grace later.calls (later.note .startSync)) := by
  unfold supervise
  split
  · rename_i later hnow
    exact ⟨later, waits_monotonicNow hnow, .inl (.inl (monotonicNow_none hnow)), .inl rfl⟩
  · rename_i instant now hnow
    have hstart := (monotonicNow_some hnow).1
    split
    · rename_i later hsleep
      exact ⟨later, (waits_monotonicNow hnow).trans (waits_sleepUntil hsleep),
        .inl (.inr (sleepUntil_false hsleep)), .inl rfl⟩
    · rename_i later hsleep
      have hslept := sleepUntil_true hsleep
      refine ⟨later, (waits_monotonicNow hnow).trans (waits_sleepUntil hsleep),
        .inr (by omega), .inr ?_⟩
      split
      · exact .inl rfl
      · exact .inr rfl

def Quiet (trace : Trace Action) : Prop := ∀ event ∈ trace.log, event.2.isReset = false

theorem Quiet.of_waits (hquiet : Quiet trace) (hwaits : Waits trace later) : Quiet later := by
  intro event hevent
  rcases hwaits.event hevent with hold | ⟨-, htrouble⟩
  · exact hquiet event hold
  · obtain ⟨call, action⟩ := event
    cases action <;> first | rfl | cases htrouble

theorem Quiet.of_note (hquiet : Quiet trace) (haction : action.isReset = false) :
    Quiet (trace.note action) := by
  intro event hevent
  rcases List.mem_append.mp hevent with hold | hnew
  · exact hquiet event hold
  · rw [List.mem_singleton.mp hnew]
    exact haction

theorem Concludes.adds {early : Action → Bool} (hsysrq : early .sysrq = false)
    (hrun : Concludes early trace run) :
    Trace.Adds (fun action => early action = false) trace run.2 := by
  obtain ⟨final, hadds, rfl⟩ := hrun
  exact hadds.trans (Trace.adds_note hsysrq)

theorem concludes_superviseSync :
    Concludes Action.isEarly trace (superviseSync env grace child trace) := by
  obtain ⟨later, hwaits, hrun, -⟩ := superviseSync_spec env grace child trace
  exact hrun.of_waits hwaits

theorem Concludes.report (hrun : Concludes Action.isEarly trace run) :
    Concludes Action.isReport trace run := by
  obtain ⟨final, hadds, hrun⟩ := hrun
  refine ⟨final, hadds.mono fun action hearly => ?_, hrun⟩
  exact (Bool.or_eq_false_iff.mp hearly).1

theorem Concludes.startSync (hrun : Concludes Action.isEarly (trace.note .startSync) run) :
    Concludes Action.isReport trace run := by
  obtain ⟨final, hadds, hrun⟩ := hrun.report
  have hnote : Trace.Adds (fun action => action.isReport = false) trace (trace.note .startSync) :=
    Trace.adds_note rfl
  exact ⟨final, hnote.trans hadds, hrun⟩

theorem concludes_after_delay {run : Outcome × Trace Action}
    (hrun : run = triggerBOnly later ∨ run = triggerBOnly later.skip ∨
      run = superviseSync env grace later.calls (later.note .startSync)) :
    Concludes Action.isReport later run := by
  rcases hrun with rfl | rfl | rfl
  · exact (concludes_triggerBOnly later).report
  · exact ((concludes_triggerBOnly later.skip).of_adds (Trace.adds_skip later)).report
  · exact concludes_superviseSync.startSync

theorem concludes_supervise :
    Concludes Action.isReport trace (supervise env delay grace trace) := by
  obtain ⟨later, hwaits, -, hrun⟩ := supervise_spec env delay grace trace
  obtain ⟨final, hadds, hfinal⟩ := concludes_after_delay hrun
  refine ⟨final, Trace.Adds.trans (hwaits.mono fun action htrouble => ?_) hadds, hfinal⟩
  exact (Bool.or_eq_false_iff.mp (isEarly_of_isTrouble action htrouble)).1

theorem calls_le_of_reset {good : Action → Prop} (hadds : Trace.Adds good trace later)
    (hquiet : Quiet trace) {call : Nat} (hevent : (call, action) ∈ later.log)
    (hreset : action.isReset = true) : trace.calls ≤ call := by
  rcases hadds.event hevent with hold | ⟨hge, -⟩
  · have hfalse := hquiet _ hold
    rw [hreset] at hfalse
    cases hfalse
  · exact hge

theorem supervise_delay (hquiet : Quiet trace)
    (hclock : ¬ Had (supervise env delay grace trace).2 .clockFailed)
    (hsleep : ¬ Had (supervise env delay grace trace).2 .sleepFailed) {call : Nat}
    (hevent : (call, action) ∈ (supervise env delay grace trace).2.log)
    (hreset : action.isReset = true) : env.time trace.calls + delay * second ≤ env.time call := by
  obtain ⟨later, hwaits, hdelay, hrun⟩ := supervise_spec env delay grace trace
  have hadds := (concludes_after_delay hrun).adds rfl
  have hcall := calls_le_of_reset hadds (hquiet.of_waits hwaits) hevent hreset
  rcases hdelay with (hfailed | hfailed) | hdelay
  · exact absurd (hfailed.mono hadds) hclock
  · exact absurd (hfailed.mono hadds) hsleep
  · exact Nat.le_trans hdelay (env.time_mono hcall)

theorem not_had_startSync (hnone : ¬ Had trace .startSync)
    (hadds : Trace.Adds (fun action => action.isEarly = false) trace later) :
    ¬ Had later .startSync := by
  rintro ⟨call, hcall⟩
  rcases hadds.event hcall with hold | ⟨-, hearly⟩
  · exact hnone ⟨call, hold⟩
  · cases hearly

theorem supervise_grace (hquiet : Quiet trace) (hnone : ¬ Had trace .startSync)
    (hclock : ¬ Had (supervise env delay grace trace).2 .clockFailed)
    (hwait : ¬ Had (supervise env delay grace trace).2 .waitFailed) {sync : Nat}
    (hsync : (sync, .startSync) ∈ (supervise env delay grace trace).2.log) {call : Nat}
    (hevent : (call, action) ∈ (supervise env delay grace trace).2.log)
    (hreset : action.isReset = true) :
    (∃ instant, env.ends sync = some instant ∧ instant ≤ env.time call) ∨
      env.time sync + grace * second ≤ env.time call := by
  obtain ⟨later, hwaits, -, hrun⟩ := supervise_spec env delay grace trace
  have hlater : ¬ Had later .startSync :=
    not_had_startSync hnone (hwaits.mono isEarly_of_isTrouble)
  rcases hrun with hrun | hrun | hrun
  · rw [hrun] at hsync
    exact absurd ⟨sync, hsync⟩ (not_had_startSync hlater ((concludes_triggerBOnly later).adds rfl))
  · rw [hrun] at hsync
    refine absurd ⟨sync, hsync⟩ (not_had_startSync hlater ?_)
    exact ((concludes_triggerBOnly later.skip).of_adds (Trace.adds_skip later)).adds rfl
  · rw [hrun] at hsync hevent hclock hwait
    obtain ⟨final, hfinal, hconcludes, hreason⟩ :=
      superviseSync_spec env grace later.calls (later.note .startSync)
    have hadds := hconcludes.adds rfl
    have hquietFinal : Quiet final := ((hquiet.of_waits hwaits).of_note rfl).of_waits hfinal
    have hcall := env.time_mono (calls_le_of_reset hadds hquietFinal hevent hreset)
    have hsame : sync = later.calls := by
      rcases (concludes_superviseSync.adds rfl).event hsync with hnote | ⟨-, hearly⟩
      · rcases List.mem_append.mp hnote with hold | hnew
        · exact absurd ⟨sync, hold⟩ hlater
        · cases List.mem_singleton.mp hnew
          rfl
      · cases hearly
    subst hsame
    rcases hreason with hfailed | hfailed | ⟨instant, hends, hle⟩ | hgrace
    · exact absurd (hfailed.mono hadds) hclock
    · exact absurd (hfailed.mono hadds) hwait
    · exact .inl ⟨instant, hends, Nat.le_trans hle hcall⟩
    · have hfork := env.time_le later.calls
      have hnote : (later.note Action.startSync).calls = later.calls + 1 := rfl
      rw [hnote] at hgrace
      exact .inr (by omega)

end Supervise

section Processes

variable {env : Environment} {delay grace : Nat}

theorem log_preopenInterfaces (env : Environment) (trace : Trace Action) :
    (preopenInterfaces env trace).2.log = trace.log := by
  unfold preopenInterfaces
  repeat' split
  all_goals rfl

theorem not_mem_failBeforeReady {rc : Int} {trace : Trace Action} {call : Nat}
    (htrace : (call, .ready 1 true) ∉ trace.log) :
    (call, .ready 1 true) ∉ (failBeforeReady env rc trace).2.log := by
  intro hevent
  rcases List.mem_append.mp hevent with hold | hnew
  · exact htrace hold
  · cases List.mem_singleton.mp hnew

theorem runSupervisor_of_ready {ready : Nat}
    (hready : (ready, .ready 1 true) ∈ (runSupervisor env delay grace .start).2.log) :
    ∃ trace : Trace Action, trace.log = [] ∧ trace.calls = ready ∧
      runSupervisor env delay grace .start =
        supervise env delay grace (trace.note (.ready 1 true)) := by
  have hlog := log_preopenInterfaces env .start
  unfold runSupervisor at hready ⊢
  generalize preopenInterfaces env .start = opened at hlog hready ⊢
  obtain ⟨rc, trace⟩ := opened
  have hempty : trace.log = [] := hlog
  have hfresh : (ready, Action.ready 1 true) ∉ trace.log := by
    rw [hempty]
    exact List.not_mem_nil
  simp only at hready ⊢
  split at hready
  · exact absurd hready (not_mem_failBeforeReady hfresh)
  · split at hready
    · exact absurd hready (not_mem_failBeforeReady hfresh)
    · split at hready
      · exact absurd hready (not_mem_failBeforeReady hfresh)
      · split at hready
        · refine absurd hready (not_mem_failBeforeReady ?_)
          intro hevent
          rcases List.mem_append.mp hevent with hold | hnew
          · exact hfresh hold
          · cases List.mem_singleton.mp hnew
        · rename_i hopened hlocked hmarked hwritten
          refine ⟨trace.skip.skip, hempty, ?_, ?_⟩
          · rcases (concludes_supervise.adds rfl).event hready with hold | ⟨-, hreport⟩
            · rcases List.mem_append.mp hold with hold | hnew
              · exact absurd hold hfresh
              · cases List.mem_singleton.mp hnew
                rfl
            · cases hreport
          · rw [if_neg hopened, if_neg hlocked, if_neg hmarked, if_neg hwritten]

def leftAt (env : Environment) (deadline call : Nat) : Int := (remainingMs env deadline ⟨call, []⟩).1

/-- The deadline of `arm_background`, and a call by which it looks how much time is left: no report
has come before it. -/
inductive Awaits (env : Environment) : Nat → Nat → Prop
  | first {instant : Nat} (hlock : ¬ env.result 1 < 0) (hpipe : ¬ env.result 2 < 0)
      (hfork : ¬ env.result 3 < 0) (hnow : env.now 4 = some instant) :
      Awaits env (instant + 5000 * millisecond) 5
  | idle {deadline call : Nat} (hawaits : Awaits env deadline call)
      (hleft : leftAt env deadline call ≠ 0)
      (hpoll : env.poll (call + 1) = .none ∨ env.poll (call + 1) = .interrupted) :
      Awaits env deadline (call + 2)
  | again {deadline call : Nat} (hawaits : Awaits env deadline call)
      (hleft : leftAt env deadline call ≠ 0) (hpoll : env.poll (call + 1) = .ready)
      (hread : env.read (call + 2) = .interrupted ∨ env.read (call + 2) = .again) :
      Awaits env deadline (call + 3)

/-- The call of `arm_background` that fails. -/
inductive ArmFailure (env : Environment) : Nat → Prop
  | lock (hlock : env.result 1 < 0) : ArmFailure env 1
  | pipe (hlock : ¬ env.result 1 < 0) (hpipe : env.result 2 < 0) : ArmFailure env 2
  | fork (hlock : ¬ env.result 1 < 0) (hpipe : ¬ env.result 2 < 0) (hfork : env.result 3 < 0) :
      ArmFailure env 3
  | clock (hlock : ¬ env.result 1 < 0) (hpipe : ¬ env.result 2 < 0) (hfork : ¬ env.result 3 < 0)
      (hnow : env.now 4 = none) : ArmFailure env 4
  | late {deadline call : Nat} (hawaits : Awaits env deadline call)
      (hleft : leftAt env deadline call = 0) : ArmFailure env call
  | poll {deadline call : Nat} (hawaits : Awaits env deadline call)
      (hleft : leftAt env deadline call ≠ 0) (hpoll : env.poll (call + 1) = .failed) :
      ArmFailure env (call + 1)
  | report {deadline call : Nat} (hawaits : Awaits env deadline call)
      (hleft : leftAt env deadline call ≠ 0) (hpoll : env.poll (call + 1) = .ready)
      (hread : env.read (call + 2) ∉ [.byte 1, .interrupted, .again]) : ArmFailure env (call + 2)

theorem remainingMs_spec {deadline : Nat} {trace later : Trace Action} {remaining : Int}
    (hremaining : remainingMs env deadline trace = (remaining, later)) :
    remaining = leftAt env deadline trace.calls ∧ later.calls = trace.calls + 1 := by
  unfold leftAt
  unfold remainingMs monotonicNow at *
  cases hnow : env.now trace.calls with
  | none =>
    simp only [hnow] at hremaining ⊢
    cases hremaining
    exact ⟨rfl, rfl⟩
  | some instant =>
    simp only [hnow] at hremaining ⊢
    cases hremaining
    exact ⟨rfl, rfl⟩

/-- One round of the wait. -/
theorem awaitReport_eq (env : Environment) (deadline : Nat) (trace : Trace Action) :
    ∃ later : Trace Action, later.calls = trace.calls + 1 ∧ awaitReport env deadline trace =
      if leftAt env deadline trace.calls = 0 then (.failed, later)
      else
        match env.poll (trace.calls + 1) with
        | .failed => (.failed, later.skip)
        | .interrupted => awaitReport env deadline later.skip
        | .none => awaitReport env deadline later.skip
        | .ready =>
          match env.read (trace.calls + 2) with
          | .interrupted => awaitReport env deadline later.skip.skip
          | .again => awaitReport env deadline later.skip.skip
          | answer => (.read answer, later.skip.skip) := by
  cases hremaining : remainingMs env deadline trace with
  | mk remaining later =>
    obtain ⟨rfl, hcalls⟩ := remainingMs_spec hremaining
    refine ⟨later, hcalls, ?_⟩
    rw [awaitReport]
    split
    rename_i hnow
    cases hremaining.symm.trans hnow
    rw [hcalls]
    rfl

theorem armBackground_start (env : Environment) : armBackground env .start =
    if env.result 0 < 0 then (.returned (env.result 0), ⟨1, []⟩)
    else if env.result 1 < 0 then armParentBOnly ⟨2, []⟩
    else if env.result 2 < 0 then armParentBOnly ⟨3, []⟩
    else if env.result 3 < 0 then armParentBOnly ⟨4, []⟩
    else
      match env.now 4 with
      | none => armParentBOnly ⟨5, [(4, .clockFailed)]⟩
      | some instant => armReported (awaitReport env (instant + 5000 * millisecond) ⟨5, []⟩) := by
  unfold armBackground monotonicNow
  simp only [Trace.start, Trace.skip, Trace.note]
  cases env.now 4 <;> rfl

theorem armBackground_awaits (hopen : ¬ env.result 0 < 0) {deadline call : Nat}
    (hawaits : Awaits env deadline call) : ∃ trace : Trace Action, trace.calls = call ∧
      armBackground env .start = armReported (awaitReport env deadline trace) := by
  induction hawaits with
  | first hlock hpipe hfork hnow =>
    refine ⟨⟨5, []⟩, rfl, ?_⟩
    rw [armBackground_start, if_neg hopen, if_neg hlock, if_neg hpipe, if_neg hfork, hnow]
  | idle _ hleft hpoll ih =>
    obtain ⟨trace, rfl, harm⟩ := ih
    obtain ⟨later, hcalls, hround⟩ := awaitReport_eq env _ trace
    refine ⟨later.skip, congrArg (· + 1) hcalls, ?_⟩
    rw [harm, hround, if_neg hleft]
    rcases hpoll with hpoll | hpoll <;> rw [hpoll]
  | again _ hleft hpoll hread ih =>
    obtain ⟨trace, rfl, harm⟩ := ih
    obtain ⟨later, hcalls, hround⟩ := awaitReport_eq env _ trace
    refine ⟨later.skip.skip, congrArg (· + 2) hcalls, ?_⟩
    rw [harm, hround, if_neg hleft, hpoll]
    rcases hread with hread | hread <;> simp only [hread]

def ResetsAfter (call : Nat) (arm : Outcome × Trace Action) : Prop :=
  arm.1 = .pausing ∧ arm.2.log.getLast? = some (call + 1, .sysrq)

theorem resetsAfter_armParentBOnly {later : Trace Action} {call : Nat}
    (hcalls : later.calls = call + 1) : ResetsAfter call (armParentBOnly later) := by
  refine ⟨rfl, ?_⟩
  rw [← hcalls]
  exact List.getLast?_concat

theorem resetsAfter_armReported {answer : Read} {later : Trace Action} {call : Nat}
    (hcalls : later.calls = call + 1) (hanswer : answer ≠ .byte 1) :
    ResetsAfter call (armReported (.read answer, later)) := by
  unfold armReported
  split
  · rename_i hread
    cases hread
    exact absurd rfl hanswer
  · rename_i hread
    cases hread
    exact resetsAfter_armParentBOnly hcalls

theorem ArmFailure.resets (hopen : ¬ env.result 0 < 0) {call : Nat}
    (hfailure : ArmFailure env call) : ResetsAfter call (armBackground env .start) := by
  cases hfailure with
  | lock hlock =>
    rw [armBackground_start, if_neg hopen, if_pos hlock]
    exact resetsAfter_armParentBOnly rfl
  | pipe hlock hpipe =>
    rw [armBackground_start, if_neg hopen, if_neg hlock, if_pos hpipe]
    exact resetsAfter_armParentBOnly rfl
  | fork hlock hpipe hfork =>
    rw [armBackground_start, if_neg hopen, if_neg hlock, if_neg hpipe, if_pos hfork]
    exact resetsAfter_armParentBOnly rfl
  | clock hlock hpipe hfork hnow =>
    rw [armBackground_start, if_neg hopen, if_neg hlock, if_neg hpipe, if_neg hfork, hnow]
    exact resetsAfter_armParentBOnly rfl
  | late hawaits hleft =>
    obtain ⟨trace, rfl, harm⟩ := armBackground_awaits hopen hawaits
    obtain ⟨later, hcalls, hround⟩ := awaitReport_eq env _ trace
    rw [harm, hround, if_pos hleft]
    exact resetsAfter_armParentBOnly hcalls
  | poll hawaits hleft hpoll =>
    obtain ⟨trace, rfl, harm⟩ := armBackground_awaits hopen hawaits
    obtain ⟨later, hcalls, hround⟩ := awaitReport_eq env _ trace
    rw [harm, hround, if_neg hleft, hpoll]
    exact resetsAfter_armParentBOnly (congrArg (· + 1) hcalls)
  | report hawaits hleft hpoll hread =>
    obtain ⟨trace, rfl, harm⟩ := armBackground_awaits hopen hawaits
    obtain ⟨later, hcalls, hround⟩ := awaitReport_eq env _ trace
    rw [harm, hround, if_neg hleft, hpoll]
    simp only [List.mem_cons, List.not_mem_nil, or_false, not_or] at hread
    cases hanswer : env.read (trace.calls + 2) with
    | interrupted => exact absurd hanswer hread.2.1
    | again => exact absurd hanswer hread.2.2
    | byte value =>
      exact resetsAfter_armReported (congrArg (· + 2) hcalls) (hanswer ▸ hread.1)
    | eof | failed => exact resetsAfter_armReported (congrArg (· + 2) hcalls) (hanswer ▸ hread.1)

/-- The wait ends with the ready byte or with a failure. -/
theorem awaitReport_settles {deadline : Nat} (trace : Trace Action)
    (hawaits : Awaits env deadline trace.calls) :
    (∃ call later, env.read call = .byte 1 ∧
      awaitReport env deadline trace = (.read (.byte 1), later)) ∨ ∃ call, ArmFailure env call := by
  fun_induction awaitReport env deadline trace with
  | case1 trace later hremaining =>
    obtain ⟨hnone, -⟩ := remainingMs_spec hremaining
    exact .inr ⟨_, .late hawaits hnone.symm⟩
  | case2 trace remaining later hremaining hleft hpoll =>
    obtain ⟨rfl, hcalls⟩ := remainingMs_spec hremaining
    exact .inr ⟨_, .poll hawaits hleft (hcalls ▸ hpoll)⟩
  | case3 trace remaining later hremaining hleft hpoll ih =>
    obtain ⟨rfl, hcalls⟩ := remainingMs_spec hremaining
    rw [hcalls] at hpoll
    have hnext := Awaits.idle hawaits hleft (.inr hpoll)
    exact ih (by rwa [Trace.skip, hcalls])
  | case4 trace remaining later hremaining hleft hpoll ih =>
    obtain ⟨rfl, hcalls⟩ := remainingMs_spec hremaining
    rw [hcalls] at hpoll
    have hnext := Awaits.idle hawaits hleft (.inl hpoll)
    exact ih (by rwa [Trace.skip, hcalls])
  | case5 trace remaining later hremaining hleft hpoll hread ih =>
    obtain ⟨rfl, hcalls⟩ := remainingMs_spec hremaining
    rw [hcalls] at hpoll hread
    have hnext := Awaits.again hawaits hleft hpoll (.inl hread)
    exact ih (by rwa [Trace.skip, Trace.skip, hcalls])
  | case6 trace remaining later hremaining hleft hpoll hread ih =>
    obtain ⟨rfl, hcalls⟩ := remainingMs_spec hremaining
    rw [hcalls] at hpoll hread
    have hnext := Awaits.again hawaits hleft hpoll (.inr hread)
    exact ih (by rwa [Trace.skip, Trace.skip, hcalls])
  | case7 trace remaining later hremaining hleft hpoll hinterrupted hagain =>
    obtain ⟨rfl, hcalls⟩ := remainingMs_spec hremaining
    by_cases hone : env.read (later.calls + 1) = .byte 1
    · exact .inl ⟨_, _, hone, by rw [hone]⟩
    · rw [hcalls] at hpoll hone hinterrupted hagain
      refine .inr ⟨_, .report hawaits hleft hpoll ?_⟩
      simp only [List.mem_cons, List.not_mem_nil, or_false, not_or]
      exact ⟨hone, hinterrupted, hagain⟩

theorem armBackground_settles (hopen : ¬ env.result 0 < 0) :
    ((armBackground env .start).1 = .returned 0 ∧ ∃ call, env.read call = .byte 1) ∨
      ∃ call, ArmFailure env call := by
  by_cases hlock : env.result 1 < 0
  · exact .inr ⟨1, .lock hlock⟩
  by_cases hpipe : env.result 2 < 0
  · exact .inr ⟨2, .pipe hlock hpipe⟩
  by_cases hfork : env.result 3 < 0
  · exact .inr ⟨3, .fork hlock hpipe hfork⟩
  rw [armBackground_start, if_neg hopen, if_neg hlock, if_neg hpipe, if_neg hfork]
  cases hnow : env.now 4 with
  | none => exact .inr ⟨4, .clock hlock hpipe hfork hnow⟩
  | some instant =>
    rcases awaitReport_settles ⟨5, []⟩ (.first hlock hpipe hfork hnow) with
      ⟨call, later, hread, hreport⟩ | hfailure
    · exact .inl ⟨congrArg (fun report => (armReported report).1) hreport, call, hread⟩
    · exact .inr hfailure

end Processes

/-- The parent, the supervisor that it forks, and the pipe between them: what the parent reads the
supervisor has written. -/
structure System (delay grace : Nat) where
  parent : Environment
  child : Environment
  pipe : ∀ {call value}, parent.read call = .byte value →
    Had (runSupervisor child delay grace .start).2 (.ready value true)

/-- Once the ready byte is delivered the supervisor ends with a write to the trigger, whatever
fails; no reset comes before the delay unless the clock or a sleep failed, nor, with clock and waits
working, before the sync child ended or its grace is over.  Arming succeeds only after that byte, and
any failure with the trigger open makes the next call a reset. -/
theorem return_supervisor_fails_towards_reset (delay grace : Nat) (system : System delay grace) :
    let run := runSupervisor system.child delay grace .start
    let arm := armBackground system.parent .start
    (∀ ready, (ready, .ready 1 true) ∈ run.2.log →
      (run.1 = .pausing ∧ ∃ call, run.2.log.getLast? = some (call, .sysrq)) ∧
      (¬ Had run.2 .clockFailed → ¬ Had run.2 .sleepFailed →
        ∀ call action, (call, action) ∈ run.2.log → action.isReset = true →
          system.child.time ready + delay * second ≤ system.child.time call) ∧
      (¬ Had run.2 .clockFailed → ¬ Had run.2 .waitFailed → ∀ sync, (sync, .startSync) ∈ run.2.log →
          ∀ call action, (call, action) ∈ run.2.log → action.isReset = true →
            (∃ instant, system.child.ends sync = some instant ∧ instant ≤ system.child.time call) ∨
            system.child.time sync + grace * second ≤ system.child.time call)) ∧
    (arm.1 = .returned 0 → Had run.2 (.ready 1 true)) ∧
    (0 ≤ system.parent.result 0 →
      (arm.1 = .returned 0 ∨ ∃ call, ArmFailure system.parent call) ∧
      ∀ call, ArmFailure system.parent call →
        arm.1 = .pausing ∧ arm.2.log.getLast? = some (call + 1, .sysrq)) := by
  refine ⟨?_, ?_, ?_⟩
  · intro ready hready
    obtain ⟨trace, hempty, rfl, hrun⟩ := runSupervisor_of_ready hready
    have hquiet : Quiet (trace.note (.ready 1 true)) := by
      refine Quiet.of_note ?_ rfl
      rw [Quiet, hempty]
      exact fun _ hevent => nomatch hevent
    have hnone : ¬ Had (trace.note (.ready 1 true)) .startSync := by
      rintro ⟨call, hcall⟩
      rcases List.mem_append.mp hcall with hold | hnew
      · rw [hempty] at hold
        cases hold
      · cases List.mem_singleton.mp hnew
    have hstart := system.child.time_le trace.calls
    rw [hrun]
    refine ⟨?_, ?_, ?_⟩
    · have hconcludes : Concludes Action.isReport (trace.note (.ready 1 true))
          (supervise system.child delay grace (trace.note (.ready 1 true))) := concludes_supervise
      obtain ⟨final, -, hfinal⟩ := hconcludes
      rw [hfinal]
      exact ⟨rfl, final.calls, List.getLast?_concat⟩
    · intro hclock hsleep call action hevent hreset
      have hdelay := supervise_delay hquiet hclock hsleep hevent hreset
      exact Nat.le_trans (Nat.add_le_add_right hstart _) hdelay
    · intro hclock hwait sync hsync call action hevent hreset
      exact supervise_grace hquiet hnone hclock hwait hsync hevent hreset
  · intro hreturned
    by_cases hopen : system.parent.result 0 < 0
    · rw [armBackground_start, if_pos hopen] at hreturned
      have hzero := Outcome.returned.inj hreturned
      omega
    · rcases armBackground_settles hopen with ⟨-, call, hread⟩ | ⟨call, hfailure⟩
      · exact system.pipe hread
      · rw [(hfailure.resets hopen).1] at hreturned
        cases hreturned
  · intro hopen
    rw [← Int.not_lt] at hopen
    exact ⟨(armBackground_settles hopen).imp_left And.left, fun call hfailure => hfailure.resets hopen⟩

/-! A clock on which every call takes a second, with children that end in the second after the
next. -/

theorem sleepUntil_done {env : Environment} {deadline : Nat} {trace : Trace Action}
    (hsleep : env.sleep trace.calls deadline = .done) :
    sleepUntil env deadline trace = (true, trace.skip) := by
  rw [sleepUntil]
  split <;> rename_i hother
  · rfl
  · cases hsleep.symm.trans hother
  · cases hsleep.symm.trans hother

theorem waitChildUntil_ended {env : Environment} {child deadline : Nat} {trace : Trace Action}
    {clean : Bool} (hwait : env.wait trace.calls child = .ended clean) :
    waitChildUntil env child deadline trace = (.ended clean, trace.skip) := by
  rw [waitChildUntil, hwait]

namespace Sample

def environment (poll : Poll) : Environment where
  time call := call * second
  time_le call := Nat.mul_le_mul_right _ (Nat.le_succ call)
  passes instant := ⟨instant, Nat.le_mul_of_pos_right _ (by decide)⟩
  now call := some (call * second)
  now_between := by
    intro call instant hnow
    cases hnow
    exact ⟨Nat.le_refl _, Nat.mul_le_mul_right _ (Nat.le_succ call)⟩
  sleep call deadline := if deadline ≤ (call + 1) * second then .done else .interrupted
  sleep_done := by
    intro call deadline hsleep
    by_contra hlate
    rw [if_neg hlate] at hsleep
    cases hsleep
  sleep_interrupted := by
    intro call deadline hsleep
    by_contra hpast
    have hstep : call * second ≤ (call + 1) * second :=
      Nat.mul_le_mul_right _ (Nat.le_succ call)
    rw [if_pos (by omega)] at hsleep
    cases hsleep
  result _ := 0
  wait call child := if child + 2 ≤ call + 1 then .ended true else .running
  poll _ := poll
  read _ := .byte 1
  ends child := some ((child + 2) * second)
  wait_ended := by
    intro call child clean hwait
    by_cases hpast : child + 2 ≤ call + 1
    · exact ⟨_, rfl, Nat.mul_le_mul_right _ hpast⟩
    · rw [if_neg hpast] at hwait
      cases hwait

def log : List (Nat × Action) :=
  [(6, .ready 1 true), (9, .startSync), (12, .startReboot), (15, .sysrq)]

theorem run_eq (poll : Poll) :
    runSupervisor (environment poll) 1 5 .start = (.pausing, ⟨16, log⟩) := by
  have hrun : runSupervisor (environment poll) 1 5 .start =
      supervise (environment poll) 1 5 ⟨7, log.take 1⟩ := rfl
  have hslept : sleepUntil (environment poll) (7 * second + 1 * second) ⟨8, log.take 1⟩ =
      (true, ⟨9, log.take 1⟩) := sleepUntil_done rfl
  have hsynced : waitChildUntil (environment poll) 9 (10 * second + 5 * second) ⟨11, log.take 2⟩ =
      (.ended true, ⟨12, log.take 2⟩) := waitChildUntil_ended rfl
  have hrebooted : waitChildUntil (environment poll) 12 (13 * second + 5000 * millisecond)
      ⟨14, log.take 3⟩ = (.ended true, ⟨15, log.take 3⟩) := waitChildUntil_ended rfl
  have hfirst : Trace.note ⟨9, log.take 1⟩ .startSync = ⟨10, log.take 2⟩ := rfl
  have hsecond : Trace.note ⟨12, log.take 2⟩ .startReboot = ⟨13, log.take 3⟩ := rfl
  have hnow (calls : Nat) (log : List (Nat × Action)) : monotonicNow (environment poll) ⟨calls, log⟩ =
      (some (calls * second), ⟨calls + 1, log⟩) := rfl
  have hworks (call : Nat) : ¬ (environment poll).result call < 0 := Int.lt_irrefl 0
  rw [hrun]
  simp only [supervise, hnow, hslept, hworks, if_false, hfirst, superviseSync, hsynced, if_true,
    requestRebootBounded, hsecond, hrebooted]
  rfl

def system (poll : Poll) : System 1 5 where
  parent := environment poll
  child := environment poll
  pipe := by
    intro call value hread
    cases hread
    rw [run_eq]
    exact ⟨6, List.mem_cons_self⟩

end Sample

theorem return_supervisor_fails_towards_reset_sample :
    let run := runSupervisor (Sample.environment .ready) 1 5 .start
    (run.1 = .pausing ∧ ∃ call, run.2.log.getLast? = some (call, .sysrq)) ∧
      (12, .startReboot) ∈ run.2.log ∧ 6 * second + 1 * second ≤ 12 * second ∧
      ((∃ instant, (Sample.environment .ready).ends 9 = some instant ∧ instant ≤ 12 * second) ∨
        9 * second + 5 * second ≤ 12 * second) ∧
      (armBackground (Sample.environment .ready) .start).1 = .returned 0 ∧
      Had run.2 (.ready 1 true) ∧
      (armBackground (Sample.environment .failed) .start).1 = .pausing ∧
      (armBackground (Sample.environment .failed) .start).2.log.getLast? = some (7, .sysrq) := by
  obtain ⟨hready, hreturned, -⟩ := return_supervisor_fails_towards_reset 1 5 (Sample.system .ready)
  obtain ⟨-, -, harm⟩ := return_supervisor_fails_towards_reset 1 5 (Sample.system .failed)
  have hnone {action : Action} (haction : ∀ event ∈ Sample.log, event.2 ≠ action) :
      ¬ Had (runSupervisor (Sample.environment .ready) 1 5 .start).2 action := by
    rw [Sample.run_eq]
    exact fun ⟨call, hcall⟩ => haction _ hcall rfl
  have hmem {event : Nat × Action} (hevent : event ∈ Sample.log) :
      event ∈ (runSupervisor (Sample.environment .ready) 1 5 .start).2.log := by
    rwa [Sample.run_eq]
  obtain ⟨hends, hdelay, hgrace⟩ := hready 6 (hmem (by decide))
  have hreboot := hmem (show (12, .startReboot) ∈ Sample.log by decide)
  have hzero : (armBackground (Sample.environment .ready) .start).1 = .returned 0 := by
    obtain ⟨later, -, hround⟩ :=
      awaitReport_eq (Sample.environment .ready) (4 * second + 5000 * millisecond) ⟨5, []⟩
    rw [armBackground_start]
    exact congrArg (fun report => (armReported report).1) hround
  have hfails : ArmFailure (Sample.environment .failed) 6 :=
    .poll (.first (by decide) (by decide) (by decide) rfl) (by decide) rfl
  exact ⟨hends, hreboot, hdelay (hnone (by decide)) (hnone (by decide)) 12 _ hreboot rfl,
    hgrace (hnone (by decide)) (hnone (by decide)) 9 (hmem (by decide)) 12 _ hreboot rfl, hzero,
    hreturned hzero, (harm (by decide)).2 6 hfails⟩

end NativeInitLab.ReturnSupervisor
