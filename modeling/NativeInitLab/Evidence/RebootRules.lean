import NativeInitLab.Evidence.Rules

namespace NativeInitLab.Evidence

open FixedWidth LittleEndian Lockstep
open Host (Chain Row Selection lastRow)
open Device (DeChain Seal)

/-! Agreement on the kinds that the reboot-capable builds add. -/

variable {build : Revision} {reboot : Host.Reboot} {s : DeChain} {q : Chain} {f : Fields}

section

variable (h : Admitted build reboot s q f)
include h

theorem agrees_configCreated {consts : Seal} (hk : f.kind = kindConfigCreated)
    (hcron : build.definesCronConfig) (hconsts : consts.cfConfigSize = Chain.scheduleLength) :
    Agrees (Applied build reboot f) (Device.applyConfigCreated build consts s f)
      (q.appendConfigCreated f (Row.ofFields f)) := by
  have hs := h.settled
  have hreboot := Revision.definesReboot_of_cronConfig hcron
  have hle := hs.created_le
  apply agrees_guard
  · rw [hs.aptClock, hs.selected]
    cases q.aptClock <;> simp [Revision.selection]
  · intro _
    apply agrees_guard
    · rw [hs.secondChildDone_iff, hs.bootPhase hcron, hs.rebootPhase_eq hreboot,
        hs.started, hs.complete, hs.progress, hs.configCreated,
        wrap32_of_lt (show q.configCreated.length + 1 < 2 ^ 32 by omega)]
      simp
      grind
    · rintro ⟨-, -, -, -, -, -, hevent, hshort⟩
      have happlied (s' : DeChain) (hsettled : Settled build reboot
          { s' with configCreated := s.configCreated } q f.elapsed)
          (hcreated : s'.configCreated = wrap32 (s.configCreated + 1))
          (hcount : s'.count = s.count) :
          Applied build reboot f s' ({ q with configCreated := q.configCreated ++
                [{ Row.ofFields f with name := "CONFIG_CREATED" }] },
              { Row.ofFields f with name := "CONFIG_CREATED" }) := by
        refine h.applied { hsettled with configCreated := ?_, created_le := ?_ } hcount rfl rfl rfl
          (by simp [hk])
        · rw [hcreated, hs.configCreated, wrap32_of_lt (by omega)]
          simp
        · simp
          omega
      by_cases hone : f.event = 1
      · simp only [hone]
        apply agrees_guard
        · simp
          omega
        · intro _
          exact happlied _ { hs with } rfl rfl
      · simp only [hone]
        apply agrees_guard
        · rw [h.related.lastKind, hconsts]
          simp
        · intro _
          exact happlied _ { hs with } rfl rfl

theorem agrees_configRetired (hk : f.kind = kindConfigRetired) (hcron : build.definesCronConfig) :
    Agrees (Applied build reboot f) (Device.applyConfigRetired s f)
      (q.appendConfigRetired f (Row.ofFields f)) := by
  have hs := h.settled
  have hreboot := Revision.definesReboot_of_cronConfig hcron
  apply agrees_guard
  · rw [hs.bootPhase hcron, hs.rebootPhase_eq hreboot, hs.started, hs.complete,
      hs.progress, hs.configCreated, hs.configRetired]
    simp [Device.dhSamples, Device.intMax]
    grind
  · intro _
    exact h.applied { hs with configRetired := rfl } rfl rfl rfl rfl (by simp [hk])

theorem agrees_package {consts : Seal}
    (hk : f.kind = kindPackageIntent ∨ f.kind = kindPackageComplete)
    (hpackage : build.definesPackage)
    (hconsts : (consts.pkAdded, consts.pkRows) = Chain.packageCounts (build.selection reboot)) :
    Agrees (Applied build reboot f) (Device.applyPackage build consts s f)
      (q.appendPackage f (Row.ofFields f)) := by
  have hs := h.settled
  have hcron := Revision.definesCronConfig_of_package hpackage
  have hreboot := Revision.definesReboot_of_cronConfig hcron
  have hphase := (hs.bound hreboot).1
  have hkind : f.kind ≠ kindBoundary := by
    rcases hk with hk | hk <;> simp [hk]
  have hcounts : Chain.packageCounts q.sel = (consts.pkAdded, consts.pkRows) := by
    rw [hs.selected, hconsts]
  simp only [Chain.appendPackage, hcounts]
  apply agrees_guard
  · rw [hs.bootPhase hcron, hs.rebootPhase_eq hreboot, hs.started, hs.complete,
      hs.progress, hs.configCreated, hs.configRetired]
    simp [Device.dhSamples, Option.isSome_iff_ne_none]
    grind
  · intro _
    by_cases hintent : f.kind = kindPackageIntent
    · simp only [hintent]
      apply agrees_merge_tests
      apply agrees_merge
      apply agrees_guard
      · rw [hs.packageIntent, hs.packageComplete, hs.aptClock, hs.aptAcquired,
          h.related.lastKind, hs.selected]
        simp [Revision.selection, Option.isSome_iff_ne_none]
        grind
      · intro _
        exact h.applied { hs with packageIntent := rfl } rfl rfl rfl rfl hkind
    · simp only [hintent]
      apply agrees_guard
      · rw [hs.packageIntent, hs.packageComplete, h.related.lastKind]
        simp [Device.intMax, Option.isSome_iff_ne_none]
      · intro _
        exact h.applied { hs with packageComplete := rfl } rfl rfl rfl rfl hkind

theorem agrees_aptClock (hk : f.kind = kindAptClock) (hapt : build.definesApt) :
    Agrees (Applied build reboot f) (Device.applyAptClock s f)
      (q.appendAptClock f (Row.ofFields f)) := by
  have hs := h.settled
  have hcron := Revision.definesCronConfig_of_package
    (Revision.definesPackage_of_apt hapt)
  have hreboot := Revision.definesReboot_of_cronConfig hcron
  apply agrees_guard
  · rw [hs.secondChildDone_iff, hs.bootPhase hcron, hs.rebootPhase_eq hreboot,
      hs.started, hs.complete, hs.aptClock, hs.progress, hs.configCreated,
      hs.configRetired]
    simp
    grind
  · intro _
    exact h.applied { hs with aptClock := rfl } rfl rfl rfl rfl (by simp [hk])

theorem agrees_aptAcquired {consts : Seal} (hk : f.kind = kindAptAcquired) (hapt : build.definesApt)
    (hconsts : (consts.apReleaseSize, consts.apIndexSize, consts.apArchiveSize) =
      Chain.repositorySizes) :
    Agrees (Applied build reboot f) (Device.applyAptAcquired consts s f)
      (q.appendAptAcquired f (Row.ofFields f)) := by
  have hs := h.settled
  have hcron := Revision.definesCronConfig_of_package
    (Revision.definesPackage_of_apt hapt)
  have hreboot := Revision.definesReboot_of_cronConfig hcron
  simp only [Chain.appendAptAcquired, ← hconsts]
  apply agrees_guard
  · rw [hs.bootPhase hcron, hs.rebootPhase_eq hreboot, hs.started, hs.complete,
      hs.aptClock, hs.aptAcquired, hs.progress, hs.configCreated, hs.configRetired,
      hs.packageIntent]
    simp [Device.dhSamples, Option.isSome_iff_ne_none]
    grind
  · intro _
    exact h.applied { hs with aptAcquired := rfl } rfl rfl rfl rfl (by simp [hk])

end

/-- A control intent names the phase of the boot that records it. -/
def OwnPhase (reboot : Host.Reboot) (f : Fields) : Prop :=
  (f.kind = kindRebootIntent → reboot.phase = 1) ∧ (f.kind = kindShutdownIntent → reboot.phase = 2)

instance (reboot : Host.Reboot) (f : Fields) : Decidable (OwnPhase reboot f) :=
  inferInstanceAs (Decidable (_ ∧ _))

theorem agrees_intent {consts : Seal} (h : Admitted build reboot s q f)
    (hk : f.kind = kindRebootIntent ∨ f.kind = kindShutdownIntent)
    (hreboot : build.definesReboot) (hown : OwnPhase reboot f)
    (hconsts : consts.rbBaseCount = reboot.initialMountCount) :
    Agrees (Applied build reboot f) (Device.applyIntent consts s f)
      (q.appendIntent f (Row.ofFields f)) := by
  have hs := h.settled
  have hcount := (hs.bound hreboot).2
  have hkind : f.kind ≠ kindBoundary := by
    rcases hk with hk | hk <;> simp [hk]
  have hcontrol : some f.kind ≠ some 0 := by
    rcases hk with hk | hk <;> simp [hk]
  have hwanted : reboot.phase = if f.kind = kindRebootIntent then 1 else 2 := by
    rcases hk with hk | hk
    · simpa [hk] using hown.1 hk
    · simpa [hk] using hown.2 hk
  have hsmall : consts.rbBaseCount + 2 * (if f.kind = kindRebootIntent then 1 else 2) < 2 ^ 32 := by
    split <;> omega
  apply agrees_guard
  · rw [wrap32_of_lt hsmall, hs.rebootPhase_eq hreboot, hs.mountCount_eq hreboot,
      hs.complete, hs.off, hs.released, hconsts, ← hwanted]
    simp
  · intro _
    exact h.applied { hs with control := rfl, control_ne_zero := hcontrol } rfl rfl rfl rfl hkind

end NativeInitLab.Evidence
