import NativeInitLab.Evidence.RebootRules

namespace NativeInitLab.Evidence

open FixedWidth LittleEndian Lockstep
open Host (Chain Row Selection lastRow)
open Device (DeChain Seal)

/-! One record, and every sequence of records. -/

section Simulation

variable {build : Revision} {reboot : Host.Reboot} {consts : Seal} {mac : Mac}
  {s : DeChain} {q : Chain} {f : Fields} {record : Record}

structure Matches (build : Revision) (reboot : Host.Reboot) (consts : Seal) :
    Prop where
  count : consts.rbBaseCount = reboot.initialMountCount
  declares : Declares consts (build.selection reboot)

theorem agrees_kind (h : Admitted build reboot s q f)
    (hconsts : build.definesReboot → Matches build reboot consts)
    (hown : build.definesReboot → OwnPhase reboot f) :
    Agrees (Applied build reboot f) (Device.applyKind build consts s f)
      (q.appendKind f (Row.ofFields f)) := by
  have hsel := h.settled.selected
  have hcron : q.sel.cronConfig = true ↔ build.definesCronConfig := by
    simp [hsel, Revision.selection]
  have hpackage : q.sel.package = true ↔ build.definesPackage := by
    simp [hsel, Revision.selection]
  have hapt : q.sel.apt = true ↔ build.definesApt := by
    simp [hsel, Revision.selection]
  have hreboot : q.sel.reboot.isSome = true ↔ build.definesReboot := by
    simp [hsel, Revision.selection]
  have hguard {kind flag defined : Prop} (hflag : flag ↔ defined) :
      defined ∧ kind ↔ kind ∧ flag := by
    rw [hflag, and_comm]
  have hdeclares (hbuild : build.definesCronConfig) :=
    (hconsts (Revision.definesReboot_of_cronConfig hbuild)).declares
  refine agrees_ite Iff.rfl (agrees_init h) fun _ => ?_
  refine agrees_ite Iff.rfl (agrees_start h) fun _ => ?_
  refine agrees_ite Iff.rfl (agrees_reportLost h) fun _ => ?_
  refine agrees_ite Iff.rfl (agrees_progress h) fun _ => ?_
  refine agrees_ite Iff.rfl (fun _ => agrees_boundary h) fun _ => ?_
  refine agrees_ite Iff.rfl (agrees_complete h) fun _ => ?_
  refine agrees_ite (hguard hcron) ?_ fun _ => ?_
  · rintro ⟨hk, hsel⟩
    exact agrees_configCreated h hk (hcron.mp hsel) (hdeclares (hcron.mp hsel)).configSize
  refine agrees_ite (hguard hcron) ?_ fun _ => ?_
  · rintro ⟨hk, hsel⟩
    exact agrees_configRetired h hk (hcron.mp hsel)
  refine agrees_ite (hguard hpackage) ?_ fun _ => ?_
  · rintro ⟨hk, hsel⟩
    have hbuild := Revision.definesCronConfig_of_package (hpackage.mp hsel)
    exact agrees_package h hk (hpackage.mp hsel) (hdeclares hbuild).package
  refine agrees_ite (hguard hapt) ?_ fun _ => ?_
  · rintro ⟨hk, hsel⟩
    exact agrees_aptClock h hk (hapt.mp hsel)
  refine agrees_ite (hguard hapt) ?_ fun _ => ?_
  · rintro ⟨hk, hsel⟩
    have hbuild := Revision.definesCronConfig_of_package
      (Revision.definesPackage_of_apt (hapt.mp hsel))
    exact agrees_aptAcquired h hk (hapt.mp hsel) (hdeclares hbuild).repository
  refine agrees_ite Iff.rfl (agrees_release h) fun _ => ?_
  refine agrees_ite (hguard hreboot) ?_ fun _ => ?_
  · rintro ⟨hk, hsel⟩
    have hbuild := hreboot.mp hsel
    exact agrees_intent h hk hbuild (hown hbuild) (hconsts hbuild).count
  exact agrees_ite Iff.rfl (agrees_stop h) fun _ => agrees_error _

theorem Applied.related {row : Row} (h : Applied build reboot f s (q, row)) :
    Related build reboot (Device.advance s record f)
      (q.advance record f row) where
  settled := { h.settled with }
  count := by
    have hlt := h.count_lt
    have hcount := h.count
    simp only [recordLimit] at hlt
    simp only [Device.advance, Chain.advance, hcount, List.length_append,
      List.length_singleton]
    exact wrap32_of_lt (by omega)
  count_le := by
    have hlt : q.rows.length < recordLimit := h.count_lt
    simpa [Chain.advance] using Nat.succ_le_of_lt hlt
  elapsed := rfl
  elapsed_fresh := by simp [Chain.advance]
  tag := rfl
  lastKind := by simpa [Chain.advance, Device.advance] using h.kind.symm
  lastPhase := by simpa [Chain.advance, Device.advance] using h.phase.symm
  last_boundary := by
    intro hkind
    have hrow : row.kind = f.kind := h.kind
    have hphase : row.phase = f.phase := h.phase
    simp only [Chain.advance, lastRow_append] at hkind ⊢
    rw [hphase]
    exact h.boundary (hrow.symm.trans hkind)

theorem domain_agrees (build : Revision) (reboot : Host.Reboot) :
    Host.domain (build.selection reboot) = .ok (Device.domain build) := by
  cases build <;> rfl

theorem tag_agrees (build : Revision) (reboot : Host.Reboot) (mac : Mac)
    (body : List UInt8) :
    Host.tag mac (build.selection reboot) body = .ok (Device.deTag mac build body) := by
  rw [Host.tag, domain_agrees]
  rfl

theorem Related.control_iff (h : Related build reboot s q) :
    s.control = 0 ↔ q.control = none := by
  have hcontrol := h.settled.control
  have hne := h.settled.control_ne_zero
  cases hcase : q.control with
  | none => simp [hcontrol, hcase]
  | some kind =>
    rw [hcase] at hcontrol hne
    simp_all

theorem Related.admits_iff (h : Related build reboot s q) (tag : Tag) :
    ¬ (record.bytes.take 8 ≠ recordMagic ∨ f.seq ≠ s.count ∨ f.seq ≥ recordLimit ∨
        f.reserved ≠ 0 ∨ f.elapsed ≥ Device.swTimeoutMs ∨
        (f.seq ≠ 0 ∧ f.elapsed < s.elapsed) ∨ f.flags ≠ s.off ∨ s.stopped ≠ 0 ∨
        s.control ≠ 0 ∨ constantTimeEqual record.previousTag s.tag.bytes = false ∨
        constantTimeEqual record.ownTag.bytes tag.bytes = false) ↔
      (record.bytes.length = recordBytes ∧ record.bytes.take 8 = recordMagic) ∧
        f.seq = q.rows.length ∧ q.rows.length < recordLimit ∧ f.reserved = 0 ∧
        f.flags = q.off.toNat ∧ q.stopped = false ∧ q.control = none ∧
        q.elapsed ≤ f.elapsed ∧ f.elapsed < 300000 ∧
        record.previousTag = q.tag.bytes ∧ record.ownTag = tag := by
  have hprevious : constantTimeEqual record.previousTag q.tag.bytes = true ↔
      record.previousTag = q.tag.bytes :=
    constantTimeEqual_iff (by rw [record.length_previousTag, q.tag.size])
  have hown : constantTimeEqual record.ownTag.bytes tag.bytes = true ↔
      record.ownTag = tag := by
    rw [constantTimeEqual_iff (by rw [record.ownTag.size, tag.size]), Tag.mk.injEq]
  have hfresh : f.seq = q.rows.length → (f.seq = 0 → q.elapsed = 0) := by
    intro hseq hzero
    exact h.elapsed_fresh (List.length_eq_zero_iff.mp (hseq.symm.trans hzero))
  rw [h.count, h.elapsed, h.settled.off, h.settled.stopped, h.tag, ne_eq s.control,
    h.control_iff, ← hprevious, ← hown]
  simp [record.size, Device.swTimeoutMs]
  grind

theorem agrees_append (h : Related build reboot s q)
    (hconsts : build.definesReboot → Matches build reboot consts)
    (hown : build.definesReboot → OwnPhase reboot (Device.fields record)) :
    Agrees (Related build reboot) (Device.deApply build consts mac s record)
      (Chain.append mac q record) := by
  rw [Chain.append, h.settled.selected, tag_agrees, ← fields_agree]
  apply agrees_merge
  apply agrees_guard
  · exact h.admits_iff _
  · rintro ⟨-, -, hcount, -, -, -, -, hle, hlt, -⟩
    have hkind := agrees_kind ⟨h, hcount, hle, hlt⟩ hconsts hown
    exact hkind.map fun _ _ happlied => happlied.related

def Device.deRun (build : Revision) (consts : Seal) (mac : Mac) (s : DeChain)
    (records : List Record) : Option DeChain :=
  runLeft (Device.deApply build consts mac) s records

def Host.appendAll (mac : Mac) (q : Chain) (records : List Record) :
    Except String Chain :=
  runRight (Chain.append mac) q records

theorem agrees_records (h : Related build reboot s q)
    (hconsts : build.definesReboot → Matches build reboot consts)
    {records : List Record} (hown : build.definesReboot →
      ∀ record ∈ records, OwnPhase reboot (Device.fields record)) :
    Agrees (Related build reboot) (Device.deRun build consts mac s records)
      (Host.appendAll mac q records) := by
  refine agrees_run
    (fun record => build.definesReboot → OwnPhase reboot (Device.fields record))
    ?_ h ?_
  · intro s q record hown hrelated
    exact agrees_append hrelated hconsts hown
  · intro record hmember hreboot
    exact hown hreboot record hmember

theorem related_start (reboot : Host.Reboot) (tag : Tag) {phase : Nat}
    (hbound : build.definesReboot → (reboot.phase = 1 ∨ reboot.phase = 2) ∧
      reboot.initialMountCount ≤ 65531)
    (hphase : build.definesCronConfig → phase = reboot.phase) :
    Related build reboot { tag, bootPhase := phase }
      { tag, sel := build.selection reboot } where
  settled :=
    { selected := rfl
      bound := hbound
      started := rfl
      off := rfl
      complete := rfl
      released := rfl
      stopped := rfl
      progress := rfl
      progressMs := rfl
      first := ⟨rfl, rfl, rfl, rfl, rfl⟩
      second := ⟨rfl, rfl, rfl, rfl, rfl⟩
      control := rfl
      control_ne_zero := by simp
      packageIntent := rfl
      packageComplete := rfl
      aptClock := rfl
      aptAcquired := rfl
      configCreated := rfl
      configRetired := rfl
      bootPhase := hphase
      progress_le := Nat.zero_le _
      boundary_le := fun _ => Nat.zero_le _
      created_le := Nat.zero_le _
      split := rfl
      second_empty := fun _ => rfl
      wait_le := fun _ => Nat.zero_le _ }
  count := rfl
  count_le := Nat.zero_le _
  elapsed := rfl
  elapsed_fresh := fun _ => rfl
  tag := rfl
  lastKind := rfl
  lastPhase := rfl
  last_boundary := by simp [lastRow, Row.ofFields]

end Simulation

/-- The builds without reboot: base, autoboot and single-CPU autoboot. -/
theorem deRun_agrees_appendAll (mac : Mac) (consts : Seal) (build : Revision)
    (hbuild : ¬ build.definesReboot) (tag : Tag) (records : List Record) :
    ∃ q₀, Chain.init tag
        { autoboot := decide build.definesAutoboot
          singleCpu := decide build.definesSingleCpu } = .ok q₀ ∧
      ((Device.deRun build consts mac { tag } records).isSome = true ↔
        ∃ q, Host.appendAll mac q₀ records = .ok q) ∧
      ∀ accepted s, accepted <+: records →
        Device.deRun build consts mac { tag } accepted = some s →
        ∃ q, Host.appendAll mac q₀ accepted = .ok q ∧ Corresponds s q := by
  have hselection : build.selection ⟨0, 0⟩ =
      { autoboot := decide build.definesAutoboot
        singleCpu := decide build.definesSingleCpu } := by
    cases build <;> first | rfl | exact absurd (by decide) hbuild
  refine ⟨{ tag, sel := build.selection ⟨0, 0⟩ }, ?_, ?_⟩
  · rw [← hselection]
    cases build <;> rfl
  · have hstart : Related build ⟨0, 0⟩ { tag } { tag, sel := build.selection ⟨0, 0⟩ } :=
      related_start ⟨0, 0⟩ tag (fun hreboot => absurd hreboot hbuild) fun _ => rfl
    have hagrees (records : List Record) :
        Agrees (Related build ⟨0, 0⟩) (Device.deRun build consts mac { tag } records)
          (Host.appendAll mac { tag, sel := build.selection ⟨0, 0⟩ } records) :=
      agrees_records hstart (fun hreboot => absurd hreboot hbuild)
        (fun hreboot => absurd hreboot hbuild)
    refine ⟨agrees_isSome_iff (hagrees records), ?_⟩
    intro accepted s _ hrun
    obtain ⟨q, hq⟩ := (agrees_isSome_iff (hagrees accepted)).mp (by
      rw [hrun]
      rfl)
    refine ⟨q, hq, ?_⟩
    have hrelated := hagrees accepted
    rw [hrun, hq] at hrelated
    exact hrelated.corresponds

namespace Sample

def tag : Tag := ⟨List.replicate 32 0, rfl⟩

/-- A toy code, in which every byte takes part. -/
def mac : Mac := fun domain body =>
  ⟨List.replicate 32 (body.foldl (fun sum byte => 31 * sum + byte) domain.length.toUInt8), rfl⟩

def consts : Seal where
  rbBaseCount := 7
  base_le := by decide
  cfConfigSize := Chain.scheduleLength
  pkRows := 54
  pkAdded := 52
  apReleaseSize := Chain.repositorySizes.1
  apIndexSize := Chain.repositorySizes.2.1
  apArchiveSize := Chain.repositorySizes.2.2

def step (seq kind elapsed phase event a b c : Nat) : Fields :=
  ⟨seq, kind, elapsed, phase, event, a, b, c, 0, 0⟩

def chain (build : Revision) (previous : Tag) : List Fields → List Record
  | [] => []
  | fields :: rest =>
    let own := Device.deTag mac build (Record.ofFields fields previous tag).body
    Record.ofFields fields previous own :: chain build own rest

def opening : List Record :=
  chain .singleCpu tag [step 0 kindInit 0 0 0 1 0 0, step 1 kindStart 0 0 0 8 0 0,
    step 2 kindProgress 0 1 0 0 0 257]

end Sample

theorem deRun_agrees_appendAll_opening :
    ∃ q₀ s q, Chain.init Sample.tag { autoboot := true, singleCpu := true } = .ok q₀ ∧
      Device.deRun .singleCpu Sample.consts Sample.mac { tag := Sample.tag }
        Sample.opening = some s ∧
      Host.appendAll Sample.mac q₀ Sample.opening = .ok q ∧ Corresponds s q := by
  obtain ⟨q₀, hinit, -, hreported⟩ := deRun_agrees_appendAll Sample.mac Sample.consts
    .singleCpu (by decide) Sample.tag Sample.opening
  have haccepts : (Device.deRun .singleCpu Sample.consts Sample.mac
      { tag := Sample.tag } Sample.opening).isSome = true := by
    decide +kernel
  obtain ⟨s, hs⟩ := Option.isSome_iff_exists.mp haccepts
  obtain ⟨q, hq, hcorresponds⟩ := hreported Sample.opening s List.prefix_rfl hs
  exact ⟨q₀, s, q, hinit, hs, hq, hcorresponds⟩

end NativeInitLab.Evidence
