import NativeInitLab.Library.TimedCalls
import Mathlib.Algebra.Group.Int.Defs
import Mathlib.Algebra.Group.Nat.Defs

/-!
The supervisor that brings the device back, `a90_d3_return_supervisor_v3405.c`, in the build without
the testing hooks.  Times are nanoseconds; `write_all` counts as one call, and calls that only close
a descriptor or print are left out.
-/

namespace NativeInitLab.ReturnSupervisor

open TimedCalls

inductive Wait
  | ended (clean : Bool)
  | running
  | interrupted
  | failed

inductive Poll
  | ready
  | none
  | interrupted
  | failed

inductive Read
  | byte (value : Nat)
  | eof
  | interrupted
  | again
  | failed

/-- The answers that a process gets.  A child is known by the number of the call that forked it. -/
structure Environment extends Clock where
  /-- The value of a call without an answer of its own; below zero when it fails. -/
  result : Nat → Int
  wait : Nat → Nat → Wait
  poll : Nat → Poll
  read : Nat → Read
  /-- When a child ends, if it does. -/
  ends : Nat → Option Nat
  wait_ended : ∀ {call child clean}, wait call child = .ended clean →
    ∃ instant, ends child = some instant ∧ instant ≤ time (call + 1)

inductive Action
  | ready (value : Nat) (delivered : Bool)
  | startSync
  | startEvidence
  | startReboot
  | sysrq
  | clockFailed
  | sleepFailed
  | waitFailed
  deriving DecidableEq

def Action.isReset : Action → Bool
  | .sysrq => true
  | .startReboot => true
  | _ => false

inductive Outcome
  | returned (value : Int)
  | pausing
  deriving DecidableEq

def second : Nat := 1000000000

def millisecond : Nat := 1000000

variable (env : Environment)

def monotonicNow (trace : Trace Action) : Option Nat × Trace Action :=
  match env.now trace.calls with
  | none => (none, trace.note .clockFailed)
  | some instant => (some instant, trace.skip)

def sleepUntil (deadline : Nat) (trace : Trace Action) : Bool × Trace Action :=
  match _hsleep : env.sleep trace.calls deadline with
  | .done => (true, trace.skip)
  | .failed => (false, trace.note .sleepFailed)
  | .interrupted => sleepUntil deadline trace.skip
termination_by env.horizon deadline - trace.calls
decreasing_by
  have hlt := env.lt_horizon (env.sleep_interrupted _hsleep)
  simp only [Trace.skip]
  omega

def deadlineReached (deadline : Nat) (trace : Trace Action) : Bool × Trace Action :=
  match monotonicNow env trace with
  | (none, trace) => (true, trace)
  | (some instant, trace) => (deadline ≤ instant, trace)

def pollPauseUntil (deadline : Nat) (trace : Trace Action) : Trace Action :=
  match monotonicNow env trace with
  | (none, trace) => trace
  | (some instant, trace) => (sleepUntil env (min (instant + 100 * millisecond) deadline) trace).2

def Action.isTrouble : Action → Bool
  | .clockFailed => true
  | .sleepFailed => true
  | .waitFailed => true
  | _ => false

/-- The calls of a wait: no reset, no child and no report among them. -/
abbrev Waits : Trace Action → Trace Action → Prop := Trace.Adds fun action => action.isTrouble = true

section Waits

variable {env : Environment} {trace later : Trace Action} {deadline : Nat}

theorem waits_monotonicNow {answer : Option Nat} (hnow : monotonicNow env trace = (answer, later)) :
    Waits trace later := by
  unfold monotonicNow at hnow
  split at hnow <;> cases hnow
  · exact Trace.adds_note rfl
  · exact Trace.adds_skip trace

theorem waits_sleepUntil {slept : Bool} (hsleep : sleepUntil env deadline trace = (slept, later)) :
    Waits trace later := by
  fun_induction sleepUntil env deadline trace with
  | case1 trace hdone =>
    cases hsleep
    exact Trace.adds_skip trace
  | case2 trace hfailed =>
    cases hsleep
    exact Trace.adds_note rfl
  | case3 trace hinterrupted ih => exact (Trace.adds_skip trace).trans (ih hsleep)

theorem waits_deadlineReached {reached : Bool}
    (hreached : deadlineReached env deadline trace = (reached, later)) : Waits trace later := by
  unfold deadlineReached at hreached
  split at hreached <;> (rename_i hnow; cases hreached; exact waits_monotonicNow hnow)

theorem waits_pollPauseUntil : Waits trace (pollPauseUntil env deadline trace) := by
  unfold pollPauseUntil
  split <;> rename_i hnow
  · exact waits_monotonicNow hnow
  · exact (waits_monotonicNow hnow).trans (waits_sleepUntil rfl)

end Waits

inductive Waited
  | ended (clean : Bool)
  | expired
  | failed

theorem time_lt_of_not_reached {deadline : Nat} {trace : Trace Action}
    (hreached : (deadlineReached env deadline trace).1 = false) :
    env.time trace.calls < deadline := by
  unfold deadlineReached monotonicNow at hreached
  cases hnow : env.now trace.calls with
  | none =>
    rw [hnow] at hreached
    cases hreached
  | some instant =>
    rw [hnow] at hreached
    have hlt : instant < deadline := by simpa using hreached
    exact Nat.lt_of_le_of_lt (env.now_between hnow).1 hlt

def waitChildUntil (child deadline : Nat) (trace : Trace Action) : Waited × Trace Action :=
  match env.wait trace.calls child with
  | .ended clean => (.ended clean, trace.skip)
  | .failed => (.failed, trace.note .waitFailed)
  | _ =>
    match _hreached : deadlineReached env deadline trace.skip with
    | (true, trace) => (.expired, trace)
    | (false, later) => waitChildUntil child deadline (pollPauseUntil env deadline later)
termination_by env.horizon deadline - trace.calls
decreasing_by
  have hlt : trace.calls + 1 < env.horizon deadline :=
    env.lt_horizon (time_lt_of_not_reached env (by rw [_hreached]))
  have hcheck : trace.skip.calls ≤ later.calls := (waits_deadlineReached _hreached).calls_le
  have hpause : later.calls ≤ (pollPauseUntil env deadline later).calls :=
    waits_pollPauseUntil.calls_le
  have hskip : trace.skip.calls = trace.calls + 1 := rfl
  omega

def triggerBOnly (trace : Trace Action) : Outcome × Trace Action := (.pausing, trace.note .sysrq)

def collectEvidenceThenB (trace : Trace Action) : Outcome × Trace Action :=
  if env.result trace.calls < 0 then triggerBOnly trace.skip
  else
    match monotonicNow env (trace.note .startEvidence) with
    | (none, later) => triggerBOnly later
    | (some instant, later) =>
      triggerBOnly (waitChildUntil env trace.calls (instant + 1000 * millisecond) later).2

def requestRebootBounded (trace : Trace Action) : Outcome × Trace Action :=
  if env.result trace.calls < 0 then triggerBOnly trace.skip
  else
    match monotonicNow env (trace.note .startReboot) with
    | (none, later) => triggerBOnly later
    | (some instant, later) =>
      triggerBOnly (waitChildUntil env trace.calls (instant + 5000 * millisecond) later).2

def superviseSync (grace child : Nat) (trace : Trace Action) : Outcome × Trace Action :=
  match monotonicNow env trace with
  | (none, later) => triggerBOnly later
  | (some instant, later) =>
    match waitChildUntil env child (instant + grace * second) later with
    | (.ended clean, later) =>
      if clean then requestRebootBounded env later else triggerBOnly later
    | (.failed, later) => triggerBOnly later
    | (.expired, later) => collectEvidenceThenB env later

/-- `run_supervisor` from the moment it has reported that it is ready. -/
def supervise (delay grace : Nat) (trace : Trace Action) : Outcome × Trace Action :=
  match monotonicNow env trace with
  | (none, later) => triggerBOnly later
  | (some instant, later) =>
    match sleepUntil env (instant + delay * second) later with
    | (false, later) => triggerBOnly later
    | (true, later) =>
      if env.result later.calls < 0 then triggerBOnly later.skip
      else superviseSync env grace later.calls (later.note .startSync)

def failBeforeReady (rc : Int) (trace : Trace Action) : Outcome × Trace Action :=
  (.returned rc, trace.note (.ready 0 (0 ≤ env.result trace.calls)))

/-- `preopen_interfaces`: the trigger, the node of the message device, the device itself and the
kernel log, of which the last may fail. -/
def preopenInterfaces (trace : Trace Action) : Int × Trace Action :=
  if env.result trace.calls < 0 then (env.result trace.calls, trace.skip)
  else if env.result (trace.calls + 1) < 0 then
    (env.result (trace.calls + 1), trace.skip.skip)
  else if env.result (trace.calls + 2) < 0 then
    (env.result (trace.calls + 2), trace.skip.skip.skip)
  else (0, trace.skip.skip.skip.skip)

def runSupervisor (delay grace : Nat) (trace : Trace Action) : Outcome × Trace Action :=
  let (rc, trace) := preopenInterfaces env trace
  if rc < 0 then failBeforeReady env rc trace
  -- `mlockall`
  else if env.result trace.calls < 0 then failBeforeReady env (env.result trace.calls) trace.skip
  -- the marker `phase=armed`
  else if env.result (trace.calls + 1) < 0 then
    failBeforeReady env (env.result (trace.calls + 1)) trace.skip.skip
  else if env.result (trace.calls + 2) < 0 then
    failBeforeReady env (env.result (trace.calls + 2)) (trace.skip.skip.note (.ready 1 false))
  else supervise env delay grace (trace.skip.skip.note (.ready 1 true))

/-- `remaining_ms`; a failure of the clock counts as no time left. -/
def remainingMs (deadline : Nat) (trace : Trace Action) : Int × Trace Action :=
  match monotonicNow env trace with
  | (none, later) => (0, later)
  | (some instant, later) =>
    let milliseconds := ((deadline / second : Nat) - (instant / second : Nat) : Int) * 1000 +
      ((deadline % second : Nat) - (instant % second : Nat) : Int).tdiv millisecond
    (if milliseconds ≤ 0 then 0 else min milliseconds (2 ^ 31 - 1), later)

theorem tdiv_le_zero {number : Int} (hnumber : number ≤ 0) : number.tdiv millisecond ≤ 0 := by
  have hneg : (-number).tdiv millisecond = -(number.tdiv millisecond) := Int.neg_tdiv _ _
  have hpos : 0 ≤ (-number).tdiv millisecond := Int.tdiv_nonneg (by omega) (by decide)
  omega

theorem tdiv_lt_thousand {number : Int} (hnumber : number < second) :
    number.tdiv millisecond < 1000 := by
  by_cases hneg : number ≤ 0
  · have hle := tdiv_le_zero hneg
    omega
  · rw [Int.tdiv_eq_ediv_of_nonneg (by omega)]
    unfold second millisecond at *
    omega

theorem time_lt_of_remaining {deadline : Nat} {trace : Trace Action}
    (hremaining : (remainingMs env deadline trace).1 ≠ 0) :
    env.time trace.calls < deadline := by
  unfold remainingMs monotonicNow at hremaining
  cases hnow : env.now trace.calls with
  | none =>
    rw [hnow] at hremaining
    exact absurd rfl hremaining
  | some instant =>
    rw [hnow] at hremaining
    refine Nat.lt_of_le_of_lt (env.now_between hnow).1 ?_
    by_contra hpast
    apply hremaining
    refine if_pos ?_
    have hdeadline := Nat.div_add_mod deadline second
    have hinstant := Nat.div_add_mod instant second
    have hdeadlineMod : deadline % second < second := Nat.mod_lt _ (by decide)
    have hinstantMod : instant % second < second := Nat.mod_lt _ (by decide)
    have hdiv : deadline / second ≤ instant / second := Nat.div_le_div_right (by omega)
    by_cases hsame : deadline / second = instant / second
    · have hmod : deadline % second ≤ instant % second := by
        rw [hsame] at hdeadline
        omega
      have hle := @tdiv_le_zero ((deadline % second : Nat) - (instant % second : Nat) : Int)
        (by omega)
      omega
    · have hlt := @tdiv_lt_thousand ((deadline % second : Nat) - (instant % second : Nat) : Int)
        (by omega)
      omega

theorem waits_remainingMs {deadline : Nat} {trace later : Trace Action} {remaining : Int}
    (hremaining : remainingMs env deadline trace = (remaining, later)) : Waits trace later := by
  unfold remainingMs at hremaining
  split at hremaining <;> (rename_i hnow; cases hremaining; exact waits_monotonicNow hnow)

inductive Report
  | read (answer : Read)
  | failed

def awaitReport (deadline : Nat) (trace : Trace Action) : Report × Trace Action :=
  match _hremaining : remainingMs env deadline trace with
  | (remaining, later) =>
    if _hleft : remaining = 0 then (.failed, later)
    else
      match env.poll later.calls with
      | .failed => (.failed, later.skip)
      | .interrupted => awaitReport deadline later.skip
      | .none => awaitReport deadline later.skip
      | .ready =>
        match env.read (later.calls + 1) with
        | .interrupted => awaitReport deadline later.skip.skip
        | .again => awaitReport deadline later.skip.skip
        | answer => (.read answer, later.skip.skip)
termination_by env.horizon deadline - trace.calls
decreasing_by
  all_goals
    have hlt : trace.calls < env.horizon deadline :=
      env.lt_horizon (time_lt_of_remaining env (by rw [_hremaining]; exact _hleft))
    have hwaits := waits_remainingMs env _hremaining
    have hle : trace.calls ≤ later.calls := hwaits.calls_le
    simp only [Trace.skip]
    omega

def armParentBOnly (trace : Trace Action) : Outcome × Trace Action := (.pausing, trace.note .sysrq)

/-- What `arm_background` makes of the report. -/
def armReported : Report × Trace Action → Outcome × Trace Action
  | (.read (.byte 1), later) => (.returned 0, later)
  | (_, later) => armParentBOnly later

def armBackground (trace : Trace Action) : Outcome × Trace Action :=
  -- the trigger is opened
  if env.result trace.calls < 0 then (.returned (env.result trace.calls), trace.skip)
  -- `mlockall`, `pipe2` and `fork`
  else if env.result (trace.calls + 1) < 0 then armParentBOnly trace.skip.skip
  else if env.result (trace.calls + 2) < 0 then armParentBOnly trace.skip.skip.skip
  else if env.result (trace.calls + 3) < 0 then armParentBOnly trace.skip.skip.skip.skip
  else
    match monotonicNow env trace.skip.skip.skip.skip with
    | (none, later) => armParentBOnly later
    | (some instant, later) => armReported (awaitReport env (instant + 5000 * millisecond) later)

end NativeInitLab.ReturnSupervisor
