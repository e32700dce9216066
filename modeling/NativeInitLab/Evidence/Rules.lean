import Mathlib.Tactic.Tauto
import NativeInitLab.Evidence.Correspondence

namespace NativeInitLab.Evidence

open FixedWidth LittleEndian Lockstep
open Host (Chain Row Selection lastRow)
open Device (DeChain Seal)

/-! Agreement of the two checkers on one record, kind by kind: the kinds that
every build compiles in. -/

/-- What one kind rule must leave behind for the common last line. -/
structure Applied (build : Revision) (reboot : Host.Reboot) (f : Fields)
    (s : DeChain) (result : Chain × Row) : Prop where
  settled : Settled build reboot s result.1 f.elapsed
  count : s.count = result.1.rows.length
  count_lt : result.1.rows.length < recordLimit
  kind : result.2.kind = f.kind
  phase : result.2.phase = f.phase
  boundary : f.kind = kindBoundary → result.2 = lastRow (result.1.prior f.phase) ∧
      f.phase = result.1.progress.length

structure Admitted (build : Revision) (reboot : Host.Reboot) (s : DeChain)
    (q : Chain) (f : Fields) : Prop where
  related : Related build reboot s q
  count_lt : q.rows.length < recordLimit
  elapsed_le : q.elapsed ≤ f.elapsed
  elapsed_lt : f.elapsed < 300000

variable {build : Revision} {reboot : Host.Reboot} {s : DeChain} {q : Chain} {f : Fields}

theorem Admitted.settled (h : Admitted build reboot s q f) : Settled build reboot s q f.elapsed :=
  h.related.settled.later h.elapsed_le

theorem Admitted.applied (h : Admitted build reboot s q f) {s' : DeChain}
    {q' : Chain} {row : Row} (hsettled : Settled build reboot s' q' f.elapsed)
    (hcount : s'.count = s.count) (hrows : q'.rows = q.rows)
    (hkind : row.kind = f.kind) (hphase : row.phase = f.phase)
    (hboundary : f.kind ≠ kindBoundary) : Applied build reboot f s' (q', row) where
  settled := hsettled
  count := by rw [hcount, h.related.count, hrows]
  count_lt := by simpa only [hrows] using h.count_lt
  kind := hkind
  phase := hphase
  boundary := fun hkind => absurd hkind hboundary

namespace Revision

variable {revision : Revision}

theorem definesReboot_of_cronConfig (h : revision.definesCronConfig) : revision.definesReboot :=
  Nat.le_trans (by decide) h

theorem definesCronConfig_of_package (h : revision.definesPackage) : revision.definesCronConfig :=
  Nat.le_trans (by decide) h

theorem definesPackage_of_apt (h : revision.definesApt) : revision.definesPackage :=
  Nat.le_trans (by decide) h

end Revision

namespace Settled

variable {now : Nat}

theorem rebootPhase_eq (hs : Settled build reboot s q now)
    (hreboot : build.definesReboot) : q.rebootPhase = reboot.phase := by
  simp [Chain.rebootPhase, hs.selected, Revision.selection, hreboot]

theorem mountCount_eq (hs : Settled build reboot s q now)
    (hreboot : build.definesReboot) : q.mountCount = reboot.initialMountCount := by
  simp [Chain.mountCount, hs.selected, Revision.selection, hreboot]

end Settled

section

variable (h : Admitted build reboot s q f)
include h

theorem agrees_init (hk : f.kind = kindInit) :
    Agrees (Applied build reboot f) (Device.applyInit s f) (q.appendInit f (Row.ofFields f)) := by
  apply agrees_guard
  · grind
  · intro _
    exact h.applied h.settled rfl rfl rfl rfl (by simp [hk])

theorem agrees_start (hk : f.kind = kindStart) :
    Agrees (Applied build reboot f) (Device.applyStart s f) (q.appendStart f (Row.ofFields f)) := by
  have hs := h.settled
  apply agrees_guard
  · rw [hs.started]
    simp [Device.dhStartSequence]
  · intro _
    exact h.applied { hs with started := rfl } rfl rfl rfl rfl (by simp [hk])

theorem agrees_stop (hk : f.kind = kindStop) :
    Agrees (Applied build reboot f) (Device.applyStop s f) (q.appendStop f (Row.ofFields f)) := by
  have hs := h.settled
  apply agrees_guard
  · simp [Device.swWitness]
    omega
  · intro _
    exact h.applied { hs with stopped := rfl } rfl rfl rfl rfl (by simp [hk])

theorem agrees_release (hk : f.kind = kindRelease) :
    Agrees (Applied build reboot f) (Device.applyRelease build s f)
      (q.appendRelease f (Row.ofFields f)) := by
  have hs := h.settled
  apply agrees_guard
  · simp [hs.selected, Revision.selection]
  · intro _
    apply agrees_guard
    · rw [hs.complete, hs.off, hs.released]
      simp [Device.dhReleaseSequence]
    · intro _
      exact h.applied { hs with released := rfl } rfl rfl rfl rfl (by simp [hk])

theorem agrees_complete (hk : f.kind = kindComplete) :
    Agrees (Applied build reboot f) (Device.applyComplete build s f)
      (q.appendComplete f (Row.ofFields f)) := by
  have hs := h.settled
  apply agrees_merge_tests
  apply agrees_merge_tests
  apply agrees_merge
  apply agrees_merge
  apply agrees_guard
  · rw [hs.started, hs.complete, hs.progress, hs.packageIntent, hs.packageComplete,
      hs.configCreated, hs.configRetired, hs.selected]
    by_cases hcron : build.definesCronConfig
    · have hreboot := Revision.definesReboot_of_cronConfig hcron
      have hphase := (hs.bound hreboot).1
      rw [hs.bootPhase hcron, hs.rebootPhase_eq hreboot]
      simp [Device.dhSamples, Revision.selection, hcron, Option.isSome_iff_ne_none]
      grind
    · have hpackage := mt Revision.definesCronConfig_of_package hcron
      simp [Device.dhSamples, Revision.selection, hcron, hpackage]
  · intro _
    exact h.applied { hs with complete := rfl } rfl rfl rfl rfl (by simp [hk])

end

theorem ne_nil_of_event {rows : List Row} (hevent : (lastRow rows).event = 5) : rows ≠ [] := by
  rintro rfl
  simp [lastRow, Row.ofFields] at hevent

theorem Settled.childPassed_iff {now : Nat} (hs : Settled build reboot s q now) :
    ¬ ((q.progress.length = 1 ∧ (s.lastEvent 0 ≠ 5 ∨ s.status 0 ≠ 0)) ∨
        (q.progress.length = 2 ∧ (s.lastEvent 1 ≠ 5 ∨ s.status 1 ≠ 0))) ↔
      (q.progress.length ≠ 1 ∧ q.progress.length ≠ 2 ∨ (q.prior q.progress.length ≠ [] ∧
          (lastRow (q.prior q.progress.length)).event = 5 ∧
          (lastRow (q.prior q.progress.length)).b = 0)) := by
  obtain ⟨-, hevent₁, -, hstatus₁, -⟩ := hs.first
  obtain ⟨-, hevent₂, -, hstatus₂, -⟩ := hs.second
  have hchild {phase : Nat} : (lastRow (q.prior phase)).event = 5 →
      q.prior phase ≠ [] := ne_nil_of_event
  by_cases hone : q.progress.length = 1
  · rw [hone]
    simp at hevent₁ hstatus₁
    simp [hevent₁, hstatus₁]
    grind
  · by_cases htwo : q.progress.length = 2
    · rw [htwo]
      simp at hevent₂ hstatus₂
      simp [hevent₂, hstatus₂]
      grind
    · simp [hone, htwo]

theorem agrees_progress (h : Admitted build reboot s q f) (hk : f.kind = kindProgress) :
    Agrees (Applied build reboot f) (Device.applyProgress build s f)
      (q.appendProgress f (Row.ofFields f)) := by
  have hs := h.settled
  have hle := hs.progress_le
  have hchild := hs.childPassed_iff
  apply agrees_merge
  apply agrees_guard
  · rw [← hchild, hs.started, hs.complete, hs.progress, hs.progressMs]
    by_cases hevent : f.event =
        if q.progress.length < 3 then 0 else q.progress.length - 2
    · have hsmall : f.event ≤ 13 := by
        rw [hevent]
        split <;> omega
      rw [wrap64_of_lt (by simp [Device.dhSampleMs]; omega),
        wrap64_of_lt (by simp [Device.dhSampleMs]; omega)]
      simp [Device.scValid, Device.dhSamples, Device.dhSampleMs, hs.selected, Revision.selection]
      grind
    · simp [hevent]
  · intro haccepted
    apply agrees_guard
    · rw [hs.progress, hs.aptClock, hs.selected]
      cases q.aptClock <;> simp [Revision.selection]
      grind
    · intro _
      have hlt : q.progress.length < 15 := haccepted.1.2.2.1
      refine h.applied { hs with
        progress := ?_
        progressMs := ?_
        progress_le := ?_
        second_empty := ?_ } rfl rfl ?_ ?_ (by simp [hk])
      · simp [hs.progress, wrap32_of_lt (show q.progress.length + 1 < 2 ^ 32 by omega)]
      · rw [lastRow_append]
        split <;> rfl
      · rw [List.length_append, List.length_singleton]
        exact hlt
      · intro hshort
        exact hs.second_empty (by simp at hshort; simp [hshort])
      · split <;> rfl
      · split <;> rfl

theorem not_mem_allowed_iff (phase last event : Nat) :
    (if last = 0 then event ≠ (if phase = 1 then 1 else 2)
      else if last = 1 then event ≠ 2
      else if last = 2 then event ≠ 3
      else if last = 3 ∨ last = 4 then event ≠ 4 ∧ event ≠ 5
      else True) ↔ event ∉ Chain.allowed phase last := by
  rcases last with _ | _ | _ | _ | _ | last
  · by_cases hphase : phase = 1 <;> simp [Chain.allowed, hphase]
  all_goals simp [Chain.allowed]

theorem ite_ne_nil_event (rows : List Row) :
    (if rows ≠ [] then (lastRow rows).event else 0) = (lastRow rows).event := by
  by_cases hrows : rows = []
  · simp [hrows, lastRow, Row.ofFields]
  · simp [hrows]

theorem Settled.phaseAgrees {now phase : Nat} (hs : Settled build reboot s q now)
    (hphase : phase = 1 ∨ phase = 2) : PhaseAgrees s q phase := by
  rcases hphase with rfl | rfl
  · exact hs.first
  · exact hs.second

theorem phaseAgrees_append {phase other : Nat} {row : Row}
    (hphase : 1 ≤ phase) (hother : 1 ≤ other) (hrow : row.phase = phase)
    (hagrees : PhaseAgrees s q other)
    (hcount : s.boundary (phase - 1) = (q.prior phase).length) :
    PhaseAgrees { s with
        boundary := Function.update s.boundary (phase - 1)
          (s.boundary (phase - 1) + 1)
        lastEvent := Function.update s.lastEvent (phase - 1) row.event
        pid := Function.update s.pid (phase - 1) row.a
        status := Function.update s.status (phase - 1) row.b
        waitMs := Function.update s.waitMs (phase - 1) row.elapsedMs }
      { q with boundaries := q.boundaries ++ [row] } other := by
  by_cases hsame : other = phase
  · subst other
    simp [PhaseAgrees, prior_append_same hrow, hcount]
  · have hindex : other - 1 ≠ phase - 1 := by omega
    simpa [PhaseAgrees, prior_append_other (hrow.trans_ne (Ne.symm hsame)),
      Function.update_of_ne hindex] using hagrees

theorem Settled.boundary {now : Nat} (row : Row)
    (hs : Settled build reboot s q now) (hphase : row.phase = 1 ∨ row.phase = 2)
    (hprogress : q.progress.length = row.phase) (helapsed : row.elapsedMs = now)
    (hshort : (q.prior row.phase).length < 40) :
    Settled build reboot { s with
        boundary := Function.update s.boundary (row.phase - 1)
          (s.boundary (row.phase - 1) + 1)
        lastEvent := Function.update s.lastEvent (row.phase - 1) row.event
        pid := Function.update s.pid (row.phase - 1) row.a
        status := Function.update s.status (row.phase - 1) row.b
        waitMs := Function.update s.waitMs (row.phase - 1) row.elapsedMs }
      { q with boundaries := q.boundaries ++ [row] } now := by
  have hpositive : 1 ≤ row.phase := by omega
  have hcount := (hs.phaseAgrees hphase).1
  refine { hs with
    first := phaseAgrees_append hpositive le_rfl rfl hs.first hcount
    second := phaseAgrees_append hpositive one_le_two rfl hs.second hcount
    boundary_le := ?_
    split := ?_
    second_empty := ?_
    wait_le := ?_ }
  · intro phase
    by_cases hsame : row.phase = phase
    · subst phase
      rw [prior_append_same rfl]
      rw [List.length_append, List.length_singleton]
      exact hshort
    · rw [prior_append_other hsame]
      exact hs.boundary_le phase
  · rcases hphase with hone | htwo
    · have hempty := hs.second_empty (by omega)
      have hother : row.phase ≠ 2 := by omega
      have hsplit := hs.split
      rw [hempty, List.append_nil] at hsplit
      rw [prior_append_same hone, prior_append_other hother, hempty, List.append_nil, ← hsplit]
    · have hother : row.phase ≠ 1 := by omega
      rw [prior_append_same htwo, prior_append_other hother, ← List.append_assoc, ← hs.split]
  · intro hshort
    have hother : row.phase ≠ 2 := by
      have : q.progress.length ≤ 1 := hshort
      omega
    rw [prior_append_other hother]
    exact hs.second_empty hshort
  · intro phase
    by_cases hsame : row.phase = phase
    · rw [lastRow_prior_append hsame]
      exact helapsed.le
    · rw [prior_append_other hsame]
      exact hs.wait_le phase

theorem agrees_boundary (h : Admitted build reboot s q f) :
    Agrees (Applied build reboot f) (Device.applyBoundary s f)
      (q.appendBoundary f (Row.ofFields f)) := by
  have hs := h.settled
  have hlt := h.elapsed_lt
  apply agrees_guard
  · rw [hs.started, hs.complete, hs.progress]
    simp
    grind
  · rintro ⟨-, -, hphase, hprogress⟩
    obtain ⟨hcount, hevent, hpid, hstatus, hwait⟩ := hs.phaseAgrees hphase
    have hearlier := hs.wait_le f.phase
    apply agrees_merge
    apply agrees_merge
    apply agrees_guard
    · rw [hcount, hevent, hpid, hwait, hs.off, ite_ne_nil_event,
        sub64_of_le hearlier (by omega), not_mem_allowed_iff]
      simp [Device.dhBoundaryMax, Device.intMax, Device.dhSampleMs]
      grind
    · rintro ⟨⟨⟨hshort, -, hchild⟩, -⟩, -⟩
      have hbyte : f.b < 2 ^ 32 := by
        split at hchild <;> omega
      have hcounter : wrap32 (s.boundary (f.phase - 1) + 1) =
          s.boundary (f.phase - 1) + 1 := wrap32_of_lt (by omega)
      rw [hcounter, wrap32_of_lt hbyte]
      exact {
        settled := hs.boundary { Row.ofFields f with reportingReopened := _ }
          hphase hprogress rfl hshort
        count := h.related.count
        count_lt := h.count_lt
        kind := rfl
        phase := rfl
        boundary := fun _ => ⟨(lastRow_prior_append rfl).symm, hprogress.symm⟩ }

theorem not_range_of_openLoss {error : Nat}
    (herror : error ∈ [Chain.enoent, Chain.eio, Chain.enodev, Chain.enxio]) :
    ¬ (error = 0 ∨ error > 4095) := by
  simp [Chain.enoent, Chain.eio, Chain.enodev, Chain.enxio] at herror
  omega

theorem deTransportError_iff (error : Nat) :
    Device.deTransportError error ↔ error ∈ [Chain.eio, Chain.enodev, Chain.enxio,
      Chain.epipe, Chain.econnreset, Chain.etimedout] := by
  simp [Device.deTransportError, Device.eio, Device.enodev, Device.enxio,
    Device.epipe, Device.econnreset, Device.etimedout, Chain.eio, Chain.enodev,
    Chain.enxio, Chain.epipe, Chain.econnreset, Chain.etimedout]

theorem not_range_of_transport {error : Nat} (herror : Device.deTransportError error) :
    ¬ (error = 0 ∨ error > 4095) := by
  simp [Device.deTransportError, Device.eio, Device.enodev, Device.enxio,
    Device.epipe, Device.econnreset, Device.etimedout] at herror
  omega

theorem Related.last_event (h : Related build reboot s q)
    (hkind : (lastRow q.rows).kind = kindBoundary) (hone : q.progress.length = 1) :
    s.lastEvent 0 = (lastRow q.rows).event := by
  obtain ⟨hrow, hphase⟩ := h.last_boundary hkind
  have hevent : s.lastEvent 0 = (lastRow (q.prior 1)).event := h.settled.first.2.1
  rw [hevent, hrow, hphase, hone]

theorem Admitted.boundaryLoss_iff (h : Admitted build reboot s q f) (hle : f.phase ≤ 2) :
    ¬ (s.lastKind ≠ kindBoundary ∨ f.phase = 0 ∨ f.phase ≠ s.lastPhase ∨
        f.c ≠ wrap32 ((if f.phase = 1 then 3000 else 3100) + s.boundary (f.phase - 1) - 1)) ↔
      (lastRow q.rows).kind = kindBoundary ∧ (f.phase = 1 ∨ f.phase = 2) ∧
        f.phase = (lastRow q.rows).phase ∧
        f.c = (if f.phase = 1 then 3000 else 3100) + (q.prior f.phase).length - 1 := by
  by_cases hzero : f.phase = 0
  · simp [hzero]
  · have hphase : f.phase = 1 ∨ f.phase = 2 := by omega
    have hcount := (h.settled.phaseAgrees hphase).1
    have hshort := h.settled.boundary_le f.phase
    have hsmall : (if f.phase = 1 then 3000 else 3100) + (q.prior f.phase).length - 1 < 2 ^ 32 := by
      split <;> omega
    rw [hcount, wrap32_of_lt hsmall, h.related.lastKind, h.related.lastPhase]
    simp [hzero, hphase]

theorem agrees_reportLost (h : Admitted build reboot s q f) (hk : f.kind = kindReportLost) :
    Agrees (Applied build reboot f) (Device.applyReportLost build s f)
      (q.appendReportLost f (Row.ofFields f)) := by
  have hs := h.settled
  have hle := hs.progress_le
  have happlied : Applied build reboot f { s with off := 1 }
      ({ q with off := true }, Row.ofFields f) :=
    h.applied { hs with off := rfl } rfl rfl rfl rfl (by simp [hk])
  apply agrees_guard
  · simp [hs.selected, Revision.selection]
  · intro _
    by_cases hrange : f.a = 0 ∨ f.a > 4095
    · have hopen := fun herror : f.a ∈ _ => not_range_of_openLoss herror hrange
      have hsend := fun herror : Device.deTransportError f.a =>
        not_range_of_transport herror hrange
      rw [deTransportError_iff] at hsend
      rw [if_pos (by tauto)]
      apply agrees_none_guard
      intro _
      by_cases hzero : f.b = 0
      · simp only [hzero]
        exact agrees_none_guard fun haccepted => absurd haccepted.2.1 hopen
      · simp only [hzero]
        exact agrees_none_guard fun haccepted => absurd haccepted hsend
    · apply agrees_guard
      · rw [hs.started, hs.off, hs.released]
        simp
        omega
      · intro hphase
        have hother : f.phase ≤ 2 := hphase.2.2.2.1
        apply agrees_ite Iff.rfl
        · intro _
          apply agrees_guard
          · rw [h.related.lastKind, hs.progress]
            have hevent := h.related.last_event
            simp [Chain.enoent, Chain.eio, Chain.enodev, Chain.enxio,
              Device.enoent, Device.eio, Device.enodev, Device.enxio]
            grind
          · intro _
            exact happlied
        · intro _
          apply agrees_guard
          · rw [not_not, deTransportError_iff]
          · intro _
            apply agrees_ite Iff.rfl
            · intro _
              apply agrees_guard
              · simp [h.related.lastKind, Device.dhStartSequence]
              · exact fun _ => happlied
            · intro _
              apply agrees_ite Iff.rfl
              · intro _
                apply agrees_guard
                · rw [h.related.lastKind, hs.progress, wrap32_of_lt (by omega)]
                  simp
                · exact fun _ => happlied
              · intro _
                apply agrees_ite Iff.rfl
                · intro _
                  apply agrees_guard
                  · exact h.boundaryLoss_iff hother
                  · exact fun _ => happlied
                · intro _
                  exact agrees_error _

end NativeInitLab.Evidence
