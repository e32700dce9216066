import NativeInitLab.Evidence.Fields

namespace NativeInitLab.Evidence

open LittleEndian Lockstep
open Host (Chain Row Selection lastRow)
open Device (DeChain Seal)

/-! The simulation relation between the device's scalars and the host's lists. -/

namespace Revision

def selection (revision : Revision) (reboot : Host.Reboot) : Selection where
  autoboot := decide revision.definesAutoboot
  singleCpu := decide revision.definesSingleCpu
  reboot := if revision.definesReboot then some reboot else none
  cronConfig := decide revision.definesCronConfig
  download := decide revision.definesDownload
  package := decide revision.definesPackage
  apt := decide revision.definesApt

end Revision

/-- The generated seal headers hold the numbers of the host's own declarations. -/
structure Declares (consts : Seal) (sel : Selection) : Prop where
  configSize : consts.cfConfigSize = Chain.scheduleLength
  package : (consts.pkAdded, consts.pkRows) = Chain.packageCounts sel
  repository : (consts.apReleaseSize, consts.apIndexSize, consts.apArchiveSize) =
    Chain.repositorySizes

@[simp] theorem lastRow_append (rows : List Row) (row : Row) : lastRow (rows ++ [row]) = row := by
  simp [lastRow]

variable {q : Chain} {row : Row} {phase : Nat}

theorem prior_append_same (hphase : row.phase = phase) :
    ({ q with boundaries := q.boundaries ++ [row] } : Chain).prior phase =
      q.prior phase ++ [row] := by
  simp [Chain.prior, hphase]

theorem prior_append_other (hphase : row.phase ≠ phase) :
    ({ q with boundaries := q.boundaries ++ [row] } : Chain).prior phase = q.prior phase := by
  simp [Chain.prior, hphase]

theorem lastRow_prior_append (hphase : row.phase = phase) :
    lastRow (({ q with boundaries := q.boundaries ++ [row] } : Chain).prior phase) = row := by
  rw [prior_append_same hphase, lastRow_append]

def PhaseAgrees (s : DeChain) (q : Chain) (phase : Nat) : Prop :=
  s.boundary (phase - 1) = (q.prior phase).length ∧
    s.lastEvent (phase - 1) = (lastRow (q.prior phase)).event ∧
    s.pid (phase - 1) = (lastRow (q.prior phase)).a ∧
    s.status (phase - 1) = (lastRow (q.prior phase)).b ∧
    s.waitMs (phase - 1) = (lastRow (q.prior phase)).elapsedMs

structure Corresponds (s : DeChain) (q : Chain) : Prop where
  count : s.count = q.rows.length
  started : s.started = q.started.toNat
  off : s.off = q.off.toNat
  complete : s.complete = q.complete.toNat
  released : s.released = q.released.toNat
  stopped : s.stopped = q.stopped.toNat
  progress : s.progress = q.progress.length
  progressMs : s.progressMs = (lastRow q.progress).a
  first : PhaseAgrees s q 1
  second : PhaseAgrees s q 2
  elapsed : s.elapsed = q.elapsed
  tag : s.tag = q.tag

/-- Facts that the kind rules establish and that no rule can undo. -/
structure Settled (build : Revision) (reboot : Host.Reboot) (s : DeChain)
    (q : Chain) (now : Nat) : Prop where
  selected : q.sel = build.selection reboot
  bound : build.definesReboot → (reboot.phase = 1 ∨ reboot.phase = 2) ∧
    reboot.initialMountCount ≤ 65531
  started : s.started = q.started.toNat
  off : s.off = q.off.toNat
  complete : s.complete = q.complete.toNat
  released : s.released = q.released.toNat
  stopped : s.stopped = q.stopped.toNat
  progress : s.progress = q.progress.length
  progressMs : s.progressMs = (lastRow q.progress).a
  first : PhaseAgrees s q 1
  second : PhaseAgrees s q 2
  control : s.control = q.control.getD 0
  control_ne_zero : q.control ≠ some 0
  packageIntent : s.packageIntent = q.packageIntent.isSome.toNat
  packageComplete : s.packageComplete = q.packageComplete.isSome.toNat
  aptClock : s.aptClock = q.aptClock.isSome.toNat
  aptAcquired : s.aptAcquired = q.aptAcquired.isSome.toNat
  configCreated : s.configCreated = q.configCreated.length
  configRetired : s.configRetired = q.configRetired.isSome.toNat
  bootPhase : build.definesCronConfig → s.bootPhase = reboot.phase
  progress_le : q.progress.length ≤ 15
  boundary_le : ∀ phase, (q.prior phase).length ≤ 40
  created_le : q.configCreated.length ≤ 2
  split : q.boundaries = q.prior 1 ++ q.prior 2
  second_empty : q.progress.length ≤ 1 → q.prior 2 = []
  wait_le : ∀ phase, (lastRow (q.prior phase)).elapsedMs ≤ now

structure Related (build : Revision) (reboot : Host.Reboot) (s : DeChain) (q : Chain) : Prop where
  settled : Settled build reboot s q q.elapsed
  count : s.count = q.rows.length
  count_le : q.rows.length ≤ recordLimit
  elapsed : s.elapsed = q.elapsed
  elapsed_fresh : q.rows = [] → q.elapsed = 0
  tag : s.tag = q.tag
  lastKind : s.lastKind = (lastRow q.rows).kind
  lastPhase : s.lastPhase = (lastRow q.rows).phase
  last_boundary : (lastRow q.rows).kind = kindBoundary →
    lastRow q.rows = lastRow (q.prior (lastRow q.rows).phase) ∧
      (lastRow q.rows).phase = q.progress.length

variable {build : Revision} {reboot : Host.Reboot} {s : DeChain} {q : Chain}

theorem Related.corresponds (hrelated : Related build reboot s q) : Corresponds s q where
  count := hrelated.count
  started := hrelated.settled.started
  off := hrelated.settled.off
  complete := hrelated.settled.complete
  released := hrelated.settled.released
  stopped := hrelated.settled.stopped
  progress := hrelated.settled.progress
  progressMs := hrelated.settled.progressMs
  first := hrelated.settled.first
  second := hrelated.settled.second
  elapsed := hrelated.elapsed
  tag := hrelated.tag

theorem Settled.later {now later : Nat} (hsettled : Settled build reboot s q now)
    (hle : now ≤ later) : Settled build reboot s q later :=
  { hsettled with wait_le := fun phase => (hsettled.wait_le phase).trans hle }

theorem Settled.lastRow_boundaries {now : Nat} (hsettled : Settled build reboot s q now)
    (hsecond : q.prior 2 ≠ []) : lastRow q.boundaries = lastRow (q.prior 2) := by
  rw [hsettled.split, lastRow, lastRow, List.getLast?_append_of_ne_nil _ hsecond]

theorem Settled.secondChildDone_iff {now : Nat} (hsettled : Settled build reboot s q now) :
    q.secondChildDone ↔ s.lastEvent 1 = 5 ∧ s.status 1 = 0 := by
  have hevent : s.lastEvent 1 = (lastRow (q.prior 2)).event :=
    hsettled.second.2.1
  have hstatus : s.status 1 = (lastRow (q.prior 2)).b := hsettled.second.2.2.2.1
  rw [hevent, hstatus]
  by_cases hsecond : q.prior 2 = []
  · have hboundaries : q.boundaries = q.prior 1 := by
      rw [hsettled.split, hsecond, List.append_nil]
    constructor
    · intro hdone
      have hphase := hdone.1
      rw [hboundaries] at hphase
      rcases List.eq_nil_or_concat (q.prior 1) with hnil | ⟨rows, row, hrow⟩
      · simp [hnil, lastRow, Row.ofFields] at hphase
      · have hmember : row ∈ q.prior 1 := by simp [hrow]
        have hone : row.phase = 1 := by
          simpa [Chain.prior] using (List.mem_filter.mp hmember).2
        rw [hrow, List.concat_eq_append, lastRow_append] at hphase
        omega
    · intro hdone
      simp [hsecond, lastRow, Row.ofFields] at hdone
  · have hlast := hsettled.lastRow_boundaries hsecond
    have hphase : (lastRow (q.prior 2)).phase = 2 := by
      rcases List.eq_nil_or_concat (q.prior 2) with hnil | ⟨rows, row, hrow⟩
      · exact absurd hnil hsecond
      · have hmember : row ∈ q.prior 2 := by simp [hrow]
        rw [hrow, List.concat_eq_append, lastRow_append]
        simpa [Chain.prior] using (List.mem_filter.mp hmember).2
    rw [Chain.secondChildDone, hlast]
    simp [hphase]

end NativeInitLab.Evidence
