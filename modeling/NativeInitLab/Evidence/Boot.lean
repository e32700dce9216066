import NativeInitLab.Evidence.Agreement

namespace NativeInitLab.Evidence

open LittleEndian Lockstep
open Host (Chain Row Selection lastRow)
open Device (DeChain Seal)

/-! The reboot-capable builds: the header binds a boot to its phase and to the
sealed mount count. -/

section Headers

variable {build : Revision} {reboot : Host.Reboot} {consts : Seal} {mac : Mac}
  {bound : Device.Binding} {header : Header} {q : Chain} {record : Record}

namespace Device

theorem length_headerIdentity : (headerIdentity build bound).length = 200 := by
  simp [headerIdentity, headerMagic, bound.run_size, bound.boot_size,
    bound.nonce_size, bound.init_size, bound.hook_size]

theorem length_deHeader : (deHeader build consts mac bound).length = headerBytes := by
  have hreboot : (headerReboot build consts bound).length = 12 := by
    rw [headerReboot]
    split <;> simp
  simp [deHeader, headerBody, length_headerIdentity, hreboot, Tag.size, headerBytes]

theorem window_baseCount (hreboot : build.definesReboot) :
    window 204 4 (deHeader build consts mac bound) = store 4 consts.rbBaseCount := by
  have hlength : (headerIdentity build bound).length = 200 := length_headerIdentity
  rw [deHeader, headerBody, headerReboot, if_pos hreboot,
    window_append_left (by simp [hlength]), window_append_right (by simp [hlength]),
    window_append_left (by simp [hlength]), window_append_right (by simp [hlength]),
    window_append_left (by simp [hlength])]
  simpa [hlength] using window_self (store 4 consts.rbBaseCount)

theorem headerAccepts.baseCount (hreboot : build.definesReboot)
    (haccepts : headerAccepts build consts mac bound header) :
    value (window 204 4 header.bytes) = consts.rbBaseCount := by
  have hle := consts.base_le
  rw [haccepts, window_baseCount hreboot]
  exact value_store_of_lt (by omega)

end Device

theorem Host.decodeHeader_eq_ok {sha256 : List UInt8 → List UInt8}
    {expected : Host.Expected} (hreboot : build.definesReboot)
    (hdecode : Host.decodeHeader mac sha256 (build.selection reboot) expected header = .ok q) :
    (reboot.phase = 1 ∨ reboot.phase = 2) ∧ reboot.initialMountCount ≤ 65531 ∧
      value (window 200 4 header.bytes) = reboot.phase ∧
      value (window 204 4 header.bytes) = reboot.initialMountCount ∧
      q = { tag := header.ownTag, sel := build.selection reboot } := by
  have hselected : (build.selection reboot).reboot = some reboot := by
    simp [Revision.selection, hreboot]
  simp only [Host.decodeHeader, hselected, tag_agrees, require_bind_eq_ok, ok_bind] at hdecode
  obtain ⟨-, -, ⟨-, -, hphase⟩, hcount, ⟨-, -, -, -, hfields, htag⟩, -, -, hinit⟩ :=
    hdecode
  refine ⟨hphase, hcount, ?_, ?_, ?_⟩
  · simp [Host.rebootFields, hselected, Host.unpackFrom] at hfields
    exact hfields.1.1
  · simp [Host.rebootFields, hselected, Host.unpackFrom] at hfields
    exact hfields.1.2.1
  · simp only [Chain.init, require_bind_eq_ok] at hinit
    rw [htag]
    exact (Except.ok.inj hinit.2.2.2.2.2).symm

theorem Host.appendKind_intent {f : Fields} {row : Row}
    (hkind : f.kind = kindRebootIntent ∨ f.kind = kindShutdownIntent)
    (hreboot : q.sel.reboot.isSome = true) :
    q.appendKind f row = q.appendIntent f row := by
  rcases hkind with hkind | hkind <;> simp [Chain.appendKind, hkind, hreboot]

theorem ownPhase_of_append {next : Chain} (hreboot : build.definesReboot)
    (hselected : q.sel = build.selection reboot)
    (happend : Chain.append mac q record = .ok next) :
    OwnPhase reboot (Device.fields record) := by
  have hphase : q.rebootPhase = reboot.phase := by
    simp [Chain.rebootPhase, hselected, Revision.selection, hreboot]
  have hsome : q.sel.reboot.isSome = true := by
    simp [hselected, Revision.selection, hreboot]
  have hwanted (hkind : (Device.fields record).kind = kindRebootIntent ∨
      (Device.fields record).kind = kindShutdownIntent) :
      reboot.phase =
        if (Device.fields record).kind = kindRebootIntent then 1 else 2 := by
    rw [Chain.append, hselected, tag_agrees, ← fields_agree] at happend
    simp only [require_bind_eq_ok, ok_bind] at happend
    rw [Host.appendKind_intent hkind hsome, Chain.appendIntent] at happend
    by_contra hne
    rw [require_of_neg _ (by rw [hphase]; tauto)] at happend
    simp at happend
  refine ⟨fun hkind => ?_, fun hkind => ?_⟩
  · simpa [hkind] using hwanted (.inl hkind)
  · simpa [hkind] using hwanted (.inr hkind)

section Accepted

variable {sha256 : List UInt8 → List UInt8} {expected : Host.Expected}

theorem related_of_headers (hreboot : build.definesReboot)
    (hdevice : Device.headerAccepts build consts mac bound header)
    (hhost : Host.decodeHeader mac sha256 (build.selection reboot) expected header = .ok q) :
    Related build reboot (Device.scanStart build header) q ∧
      consts.rbBaseCount = reboot.initialMountCount := by
  obtain ⟨hphase, hcount, hword, hmount, rfl⟩ := Host.decodeHeader_eq_ok hreboot hhost
  refine ⟨related_start reboot header.ownTag (fun _ => ⟨hphase, hcount⟩) ?_, ?_⟩
  · intro hcron
    have hsize : header.bytes.length = 256 := header.size
    rw [if_pos hcron, Device.fs1U32_eq_value (by omega), hword]
  · rw [← hdevice.baseCount hreboot, hmount]

theorem ownPhase_of_appendAll {s : DeChain} {q' : Chain} {records : List Record}
    (hreboot : build.definesReboot) (hmatches : Matches build reboot consts)
    (hrelated : Related build reboot s q)
    (hrun : Host.appendAll mac q records = .ok q') :
    ∀ record ∈ records, OwnPhase reboot (Device.fields record) := by
  refine forall_of_runRight (fun q => ∃ s, Related build reboot s q) ?_ ⟨s, hrelated⟩ hrun
  rintro q record next ⟨s, hrelated⟩ happend
  have hown := ownPhase_of_append hreboot hrelated.settled.selected happend
  have hagrees : Agrees (Related build reboot)
      (Device.deApply build consts mac s record) (Chain.append mac q record) :=
    agrees_append hrelated (fun _ => hmatches) fun _ => hown
  refine ⟨hown, ?_⟩
  cases hstep : Device.deApply build consts mac s record with
  | none => simp [hstep, happend, Agrees] at hagrees
  | some s' =>
    rw [hstep, happend] at hagrees
    exact ⟨s', hagrees⟩

end Accepted

namespace Device

/-- An accepted control intent is the last record. -/
theorem control_of_intent {s next : DeChain} (hreboot : build.definesReboot)
    (hkind : (fields record).kind = kindRebootIntent ∨ (fields record).kind = kindShutdownIntent)
    (happly : deApply build consts mac s record = some next) : next.control ≠ 0 := by
  unfold deApply at happly
  dsimp only at happly
  split at happly
  · cases happly
  · obtain ⟨applied, happlied, rfl⟩ := Option.map_eq_some_iff.mp happly
    have hintent : applyKind build consts s (fields record) = applyIntent consts s (fields record) := by
      rcases hkind with hkind | hkind <;> simp [applyKind, hkind, hreboot]
    simp only [hintent, applyIntent, Option.ite_none_left_eq_some, Option.some.injEq] at happlied
    obtain ⟨-, rfl⟩ := happlied
    rcases hkind with hkind | hkind <;> simp [advance, hkind]

theorem deApply_of_control {s : DeChain} (hcontrol : s.control ≠ 0) :
    deApply build consts mac s record = none := by
  unfold deApply
  dsimp only
  rw [if_pos (by tauto)]

theorem ownPhase_of_deRun {s : DeChain} {records : List Record} (hreboot : build.definesReboot)
    (hrun : (deRun build consts mac s records).isSome = true) :
    ∀ record ∈ records.dropLast, OwnPhase reboot (fields record) := by
  induction records generalizing s with
  | nil => exact nofun
  | cons record records ih =>
    cases records with
    | nil => exact nofun
    | cons second rest =>
      rw [deRun, runLeft_cons] at hrun
      cases hfirst : deApply build consts mac s record with
      | none =>
        rw [hfirst] at hrun
        cases hrun
      | some next =>
        rw [hfirst] at hrun
        refine List.forall_mem_cons.mpr ⟨?_, ih hrun⟩
        have hopen : next.control = 0 := by
          by_contra hcontrol
          rw [Option.bind_some, runLeft_cons, deApply_of_control hcontrol] at hrun
          cases hrun
        constructor
        · exact fun hkind => absurd hopen (control_of_intent hreboot (.inl hkind) hfirst)
        · exact fun hkind => absurd hopen (control_of_intent hreboot (.inr hkind) hfirst)

end Device

/-- The two checkers give one verdict on every sequence that does not end with a control intent of
the other boot phase.  The host accepts such an intent nowhere, the device at the end only. -/
theorem deRun_iff_appendAll_of_ownPhase {sha256 : List UInt8 → List UInt8}
    {expected : Host.Expected} (reboot : Host.Reboot) (hreboot : build.definesReboot)
    (hdeclares : Declares consts (build.selection reboot))
    (hdevice : Device.headerAccepts build consts mac bound header)
    (hhost : Host.decodeHeader mac sha256 (build.selection reboot) expected header = .ok q)
    (records : List Record) :
    ((∀ record ∈ records.getLast?, OwnPhase reboot (Device.fields record)) →
      ((Device.deRun build consts mac (Device.scanStart build header) records).isSome = true ↔
        ∃ q', Host.appendAll mac q records = .ok q')) ∧
    ((∃ q', Host.appendAll mac q records = .ok q') →
      ∀ record ∈ records, OwnPhase reboot (Device.fields record)) ∧
    ((Device.deRun build consts mac (Device.scanStart build header) records).isSome = true →
      ∀ record ∈ records.dropLast, OwnPhase reboot (Device.fields record)) := by
  obtain ⟨hrelated, hcount⟩ := related_of_headers hreboot hdevice hhost
  have hmatches : Matches build reboot consts := ⟨hcount, hdeclares⟩
  have hsame (hown : ∀ record ∈ records, OwnPhase reboot (Device.fields record)) :
      (Device.deRun build consts mac (Device.scanStart build header) records).isSome =
          true ↔ ∃ q', Host.appendAll mac q records = .ok q' :=
    agrees_isSome_iff (agrees_records hrelated (fun _ => hmatches) fun _ => hown)
  have hright : (∃ q', Host.appendAll mac q records = .ok q') →
      ∀ record ∈ records, OwnPhase reboot (Device.fields record) :=
    fun ⟨q', hrun⟩ => ownPhase_of_appendAll hreboot hmatches hrelated hrun
  refine ⟨fun hlast => ⟨fun haccepts => ?_, fun hrun => (hsame (hright hrun)).mpr hrun⟩, hright,
    Device.ownPhase_of_deRun hreboot⟩
  refine (hsame ?_).mp haccepts
  rcases List.eq_nil_or_concat records with rfl | ⟨before, last, rfl⟩
  · exact nofun
  · rw [List.concat_eq_append] at hlast haccepts ⊢
    refine List.forall_mem_append.mpr ⟨?_, List.forall_mem_singleton.mpr (hlast last (by simp))⟩
    simpa using Device.ownPhase_of_deRun hreboot haccepts

end Headers

/-! A complete second boot of the reboot build. -/

namespace Sample

def binding : Device.Binding where
  run := List.replicate 16 1
  boot := List.replicate 32 2
  nonce := List.replicate 32 3
  deadlineMs := 300000
  initSha := List.replicate 32 4
  hookSha := List.replicate 32 5
  rootDevice := 6
  rbPhase := 2
  run_size := rfl
  boot_size := rfl
  nonce_size := rfl
  init_size := rfl
  hook_size := rfl

def header : Header where
  bytes := Device.deHeader .reboot consts mac binding
  size := Device.length_deHeader

def expected : Host.Expected where
  runId := binding.run
  boot := binding.boot
  nonceSha256 := binding.nonce
  initSha := binding.initSha
  hookSha := binding.hookSha
  rootDevice := binding.rootDevice

def reboot : Host.Reboot := ⟨2, 7⟩

def samples : List Fields :=
  (List.range 12).map fun i =>
    step (12 + i) kindProgress ((i + 1) * 10000) 4 (i + 1) ((i + 1) * 10000) 3 257

def history (last : List Fields) : List Record :=
  chain .reboot header.ownTag ([step 0 kindInit 0 0 0 1 0 0, step 1 kindStart 0 0 0 8 0 0,
    step 2 kindProgress 0 1 0 0 0 257,
    step 3 kindBoundary 0 1 1 0 0 0,
    step 4 kindBoundary 0 1 2 0 0 0,
    step 5 kindBoundary 0 1 3 2 0 0,
    step 6 kindBoundary 0 1 5 2 0 0,
    step 7 kindProgress 0 2 0 0 0 257,
    step 8 kindBoundary 0 2 2 0 0 0,
    step 9 kindBoundary 0 2 3 2 0 0,
    step 10 kindBoundary 0 2 5 2 0 0,
    step 11 kindProgress 0 3 0 0 3 257] ++ samples ++
    [step 24 kindComplete 120000 0 0 0 0 0] ++ last)

def completed : List Record := history []

def crossed : List Record := history [step 25 kindRebootIntent 120000 1 0 7 9 0]

def closed : List Record := history [step 25 kindShutdownIntent 120000 2 0 7 11 0]

theorem declares : Declares consts (Revision.reboot.selection reboot) :=
  ⟨rfl, rfl, rfl⟩

end Sample

/-- A second boot that records its own shutdown intent. -/
theorem deRun_iff_appendAll_of_ownPhase_shutdown :
    ∃ q q', Host.decodeHeader Sample.mac id (Revision.reboot.selection Sample.reboot)
        Sample.expected Sample.header = .ok q ∧
      Host.appendAll Sample.mac q Sample.closed = .ok q' := by
  have hdevice : Device.headerAccepts .reboot Sample.consts Sample.mac Sample.binding
      Sample.header := rfl
  have haccepts : (Device.deRun .reboot Sample.consts Sample.mac
      (Device.scanStart .reboot Sample.header) Sample.closed).isSome = true := by
    decide +kernel
  have hown : ∀ record ∈ Sample.closed.getLast?, OwnPhase Sample.reboot (Device.fields record) := by
    decide +kernel
  cases hhost : Host.decodeHeader Sample.mac id
      (Revision.reboot.selection Sample.reboot) Sample.expected Sample.header with
  | error failure =>
    have hok : (Host.decodeHeader Sample.mac id
        (Revision.reboot.selection Sample.reboot) Sample.expected
        Sample.header).isOk = true := by
      decide +kernel
    simp [hhost, Except.isOk, Except.toBool] at hok
  | ok q =>
    obtain ⟨q', hrun⟩ := ((deRun_iff_appendAll_of_ownPhase Sample.reboot (by decide)
      Sample.declares hdevice hhost Sample.closed).1 hown).mp haccepts
    exact ⟨q, q', rfl, hrun⟩

/-- The device accepts the first phase's reboot intent in the second boot. -/
theorem deRun_accepts_crossPhase_intent :
    Device.headerAccepts .reboot Sample.consts Sample.mac Sample.binding Sample.header ∧
      (Device.deRun .reboot Sample.consts Sample.mac (Device.scanStart .reboot Sample.header)
        Sample.crossed).isSome = true ∧
      ((Host.decodeHeader Sample.mac id (Revision.reboot.selection Sample.reboot)
          Sample.expected Sample.header).bind fun q =>
        Host.appendAll Sample.mac q Sample.completed).isOk = true ∧
      ((Host.decodeHeader Sample.mac id (Revision.reboot.selection Sample.reboot)
          Sample.expected Sample.header).bind fun q =>
        Host.appendAll Sample.mac q Sample.crossed).isOk = false := by
  refine ⟨rfl, ?_, ?_, ?_⟩
  · decide +kernel
  · decide +kernel
  · decide +kernel

end NativeInitLab.Evidence
