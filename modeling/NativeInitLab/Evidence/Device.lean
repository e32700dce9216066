import Mathlib.Logic.Function.Basic
import NativeInitLab.Evidence.Wire
import NativeInitLab.Library.FixedWidth

namespace NativeInitLab.Evidence

open FixedWidth LittleEndian

/-! The device checker.  Scalar summaries in `unsigned` and `uint64_t`; every
refusal is `EPROTO` and is modelled by `none`. -/

namespace Device

def byteAt (bytes : List UInt8) (offset : Nat) : Nat :=
  (bytes.getD offset 0).toNat

def fs1U16 (bytes : List UInt8) (offset : Nat) : Nat :=
  byteAt bytes offset ||| byteAt bytes (offset + 1) <<< 8

def fs1U32 (bytes : List UInt8) (offset : Nat) : Nat :=
  fs1U16 bytes offset ||| fs1U16 bytes (offset + 2) <<< 16

def deU64 (bytes : List UInt8) (offset : Nat) : Nat :=
  (List.range 8).foldl (fun number i => number ||| byteAt bytes (offset + i) <<< (8 * i)) 0

def fields (record : Record) : Fields where
  seq := fs1U32 record.bytes 8
  kind := fs1U32 record.bytes 12
  elapsed := deU64 record.bytes 16
  phase := fs1U32 record.bytes 24
  event := fs1U32 record.bytes 28
  a := deU64 record.bytes 32
  b := deU64 record.bytes 40
  c := deU64 record.bytes 48
  flags := fs1U32 record.bytes 56
  reserved := fs1U32 record.bytes 60

def swTimeoutMs : Nat := 300000
def dhSamples : Nat := 12
def dhSampleMs : Nat := 10000
def dhBoundaryMax : Nat := 40
def dhStartSequence : Nat := 8
def dhReleaseSequence : Nat := 9
def dhStartAck : Nat := 175
def dhProgress : Nat := 176
def dhBoundary : Nat := 177
def swWitness : Nat := 8
def intMax : Nat := 2147483647

def enoent : Nat := 2
def eio : Nat := 5
def enxio : Nat := 6
def enodev : Nat := 19
def epipe : Nat := 32
def econnreset : Nat := 104
def etimedout : Nat := 110

/-- The constants that the generated seal headers define for one build, with the
static assertion that four read-write setups cannot wrap. -/
structure Seal where
  rbBaseCount : Nat
  base_le : rbBaseCount ≤ 65531
  cfConfigSize : Nat
  pkRows : Nat
  pkAdded : Nat
  apReleaseSize : Nat
  apIndexSize : Nat
  apArchiveSize : Nat

def domain (build : Revision) : String :=
  if build.definesApt then "S22PLUS-FYG8-DEBIAN-APT-DURABLE-v1"
  else if build.definesPackage then "S22PLUS-FYG8-DEBIAN-PACKAGE-DURABLE-v1"
  else if build.definesDownload then "S22PLUS-FYG8-DEBIAN-DOWNLOAD-DURABLE-v1"
  else if build.definesCronConfig then
    "S22PLUS-FYG8-DEBIAN-CRON-CONFIG-DURABLE-v1"
  else if build.definesReboot then "S22PLUS-FYG8-DEBIAN-REBOOT-DURABLE-v1"
  else if build.definesAutoboot then "S22PLUS-FYG8-DEBIAN-AUTO-DURABLE-v1"
  else "S22PLUS-FYG8-DEBIAN-DURABLE-v1"

def deTag (mac : Mac) (build : Revision) (body : List UInt8) : Tag :=
  mac (domain build) body

def deTransportError (error : Nat) : Prop :=
  error = eio ∨ error = enodev ∨ error = enxio ∨ error = epipe ∨
    error = econnreset ∨ error = etimedout

instance (error : Nat) : Decidable (deTransportError error) :=
  inferInstanceAs (Decidable (_ ∨ _))

def scValid (build : Revision) (sample : Nat) : Prop :=
  sample = if build.definesSingleCpu then 257 else 0

instance (build : Revision) (sample : Nat) : Decidable (scValid build sample) :=
  inferInstanceAs (Decidable (_ = _))

/-- `struct de_chain`.  The two-element arrays are indexed by `phase - 1`; the
members that a build leaves out stay at zero. -/
structure DeChain where
  count : Nat := 0
  started : Nat := 0
  off : Nat := 0
  complete : Nat := 0
  released : Nat := 0
  stopped : Nat := 0
  progress : Nat := 0
  lastKind : Nat := 0
  lastPhase : Nat := 0
  control : Nat := 0
  boundary : Nat → Nat := fun _ => 0
  lastEvent : Nat → Nat := fun _ => 0
  status : Nat → Nat := fun _ => 0
  elapsed : Nat := 0
  pid : Nat → Nat := fun _ => 0
  waitMs : Nat → Nat := fun _ => 0
  progressMs : Nat := 0
  tag : Tag
  packageIntent : Nat := 0
  packageComplete : Nat := 0
  aptClock : Nat := 0
  aptAcquired : Nat := 0
  bootPhase : Nat := 0
  configCreated : Nat := 0
  configRetired : Nat := 0
  configInode : Nat := 0
  configMtimeSec : Nat := 0
  configMtimeNsec : Nat := 0
  configCtimeSec : Nat := 0
  configCtimeNsec : Nat := 0
  configCreatedMs : Nat := 0

/-! One function per record kind.  `s` is the state before the record and `f`
the decoded fields. -/

def applyInit (s : DeChain) (f : Fields) : Option DeChain :=
  if f.seq ≠ 0 ∨ f.phase ≠ 0 ∨ f.event ≠ 0 ∨ f.a ≠ 1 ∨ f.b ≠ 0 ∨ f.c ≠ 0 then
    none
  else some s

def applyStart (s : DeChain) (f : Fields) : Option DeChain :=
  if f.seq ≠ 1 ∨ s.started ≠ 0 ∨ f.phase ≠ 0 ∨ f.event ≠ 0 ∨
      f.a ≠ dhStartSequence ∨ f.b ≠ 0 ∨ f.c ≠ 0 then none
  else some { s with started := 1 }

def applyReportLost (build : Revision) (s : DeChain) (f : Fields) : Option DeChain :=
  if build.definesAutoboot then none
  else if s.started = 0 ∨ s.off ≠ 0 ∨ s.released ≠ 0 ∨ f.phase > 2 ∨
      f.event ≠ 0 ∨ f.a = 0 ∨ f.a > 4095 then none
  else if f.b = 0 then
    if f.c ≠ 0 ∨ (f.a ≠ enoent ∧ f.a ≠ eio ∧ f.a ≠ enodev ∧ f.a ≠ enxio) ∨
        ¬ ((f.phase = 1 ∧ ((s.progress = 0 ∧ s.lastKind = kindStart) ∨
              (s.progress = 1 ∧ s.lastKind = kindBoundary ∧ s.lastEvent 0 = 1))) ∨
          (f.phase = 2 ∧ s.progress = 2 ∧ s.lastKind = kindProgress)) then none
    else some { s with off := 1 }
  else if ¬ deTransportError f.a then none
  else if f.b = dhStartAck then
    if f.phase ≠ 0 ∨ f.c ≠ dhStartSequence ∨ s.lastKind ≠ kindStart then none
    else some { s with off := 1 }
  else if f.b = dhProgress then
    if s.lastKind ≠ kindProgress ∨ f.phase ≠ (if s.progress ≤ 2 then 1 else 2) ∨
        f.c ≠ wrap32 (2000 + s.progress - 1) then none
    else some { s with off := 1 }
  else if f.b = dhBoundary then
    if s.lastKind ≠ kindBoundary ∨ f.phase = 0 ∨ f.phase ≠ s.lastPhase ∨
        f.c ≠ wrap32 ((if f.phase = 1 then 3000 else 3100) + s.boundary (f.phase - 1) - 1) then none
    else some { s with off := 1 }
  else none

def applyProgress (build : Revision) (s : DeChain) (f : Fields) : Option DeChain :=
  let ordinal := s.progress
  let expected := if ordinal < 3 then ordinal + 1 else 4
  if s.started = 0 ∨ s.complete ≠ 0 ∨ ordinal ≥ dhSamples + 3 ∨
      f.phase ≠ expected ∨ f.event ≠ (if ordinal < 3 then 0 else ordinal - 2) ∨
      ¬ scValid build f.c ∨
      (if ordinal < 2 then f.a ≠ 0 ∨ f.b ≠ 0
        else f.b ≠ 3 ∨ f.a < wrap64 (f.event * dhSampleMs) ∨
          f.a > wrap64 (f.event * dhSampleMs + 10000) ∨ f.a > f.elapsed ∨
          (ordinal ≥ 3 ∧ f.a ≤ s.progressMs)) ∨
      (ordinal = 1 ∧ (s.lastEvent 0 ≠ 5 ∨ s.status 0 ≠ 0)) ∨
      (ordinal = 2 ∧ (s.lastEvent 1 ≠ 5 ∨ s.status 1 ≠ 0)) then none
  else if build.definesApt ∧ ordinal ≥ 2 ∧ s.aptClock = 0 then none
  else some { s with progress := wrap32 (s.progress + 1), progressMs := f.a }

def applyBoundary (s : DeChain) (f : Fields) : Option DeChain :=
  if s.started = 0 ∨ s.complete ≠ 0 ∨ f.phase < 1 ∨ f.phase > 2 ∨ s.progress ≠ f.phase then none
  else
    let i := f.phase - 1
    let last := s.lastEvent i
    if s.boundary i ≥ dhBoundaryMax ∨ (if last = 0 then f.event ≠ (if f.phase = 1 then 1 else 2)
          else if last = 1 then f.event ≠ 2
          else if last = 2 then f.event ≠ 3
          else if last = 3 ∨ last = 4 then f.event ≠ 4 ∧ f.event ≠ 5
          else True) ∨
        (if f.event ≤ 2 then f.a ≠ 0 ∨ f.b ≠ 0
          else f.a ≤ 1 ∨ f.a > intMax ∨ (f.event ≠ 5 ∧ f.b ≠ 0) ∨ f.b > 65535) ∨
        (if f.phase = 1 ∧ f.event = 2 then
            (if s.off ≠ 0 then f.c ≠ 0 else f.c < s.waitMs i ∨ f.c > f.elapsed)
          else f.c ≠ 0) ∨
        (f.event ≥ 4 ∧ (f.a ≠ s.pid i ∨
          (f.event = 4 ∧ sub64 f.elapsed (s.waitMs i) < dhSampleMs))) then none
    else some { s with
      boundary := Function.update s.boundary i (wrap32 (s.boundary i + 1))
      lastEvent := Function.update s.lastEvent i f.event
      pid := Function.update s.pid i f.a
      status := Function.update s.status i (wrap32 f.b)
      waitMs := Function.update s.waitMs i f.elapsed }

def applyComplete (build : Revision) (s : DeChain) (f : Fields) : Option DeChain :=
  if s.started = 0 ∨ s.complete ≠ 0 ∨ s.progress ≠ dhSamples + 3 ∨
      f.phase ≠ 0 ∨ f.event ≠ 0 ∨ f.a ≠ 0 ∨ f.b ≠ 0 ∨ f.c ≠ 0 then none
  else if build.definesPackage ∧ (s.packageIntent = 0 ∨ s.packageComplete = 0) then
    none
  else if build.definesCronConfig ∧
      (if s.bootPhase = 1 then s.configCreated ≠ 2 ∨ s.configRetired ≠ 0
        else s.bootPhase ≠ 2 ∨ s.configCreated ≠ 0 ∨ s.configRetired = 0) then none
  else some { s with complete := 1 }

def applyConfigCreated (build : Revision) (consts : Seal) (s : DeChain)
    (f : Fields) : Option DeChain :=
  if build.definesApt ∧ s.aptClock = 0 then none
  else if s.bootPhase ≠ 1 ∨ s.started = 0 ∨ s.complete ≠ 0 ∨ s.progress ≠ 2 ∨
      s.lastEvent 1 ≠ 5 ∨ s.status 1 ≠ 0 ∨ f.phase ≠ 1 ∨
      f.event ≠ wrap32 (s.configCreated + 1) ∨ f.event > 2 then none
  else if f.event = 1 then
    if f.a = 0 ∨ f.b = 0 ∨ f.c ≥ 1000000000 then none
    else some { s with
      configInode := f.a
      configMtimeSec := f.b
      configMtimeNsec := f.c
      configCreated := wrap32 (s.configCreated + 1) }
  else if f.a = 0 ∨ f.b ≥ 1000000000 ∨ f.c ≠ consts.cfConfigSize ∨
      s.lastKind ≠ kindConfigCreated then none
  else some { s with
    configCtimeSec := f.a
    configCtimeNsec := f.b
    configCreatedMs := f.elapsed
    configCreated := wrap32 (s.configCreated + 1) }

def applyConfigRetired (s : DeChain) (f : Fields) : Option DeChain :=
  if s.bootPhase ≠ 2 ∨ s.started = 0 ∨ s.complete ≠ 0 ∨
      s.progress ≠ dhSamples + 3 ∨ s.configCreated ≠ 0 ∨ s.configRetired ≠ 0 ∨
      f.phase ≠ 2 ∨ f.event ≠ 1 ∨ f.a = 0 ∨ f.b ≤ 1 ∨ f.b > intMax ∨ f.c = 0 then
    none
  else some { s with configInode := f.a, configRetired := 1 }

def applyPackage (build : Revision) (consts : Seal) (s : DeChain) (f : Fields) : Option DeChain :=
  if s.started = 0 ∨ s.complete ≠ 0 ∨ s.progress ≠ dhSamples + 3 ∨
      (s.bootPhase ≠ 1 ∧ s.bootPhase ≠ 2) ∨ f.phase ≠ s.bootPhase ∨
      f.event ≠ f.phase ∨
      (if f.phase = 1 then s.configCreated ≠ 2 ∨ s.configRetired ≠ 0
        else s.configCreated ≠ 0 ∨ s.configRetired = 0) then none
  else if f.kind = kindPackageIntent then
    if s.packageIntent ≠ 0 ∨ s.packageComplete ≠ 0 ∨ f.a ≠ consts.pkAdded ∨
        f.b ≠ consts.pkRows ∨ f.c ≠ 0 then none
    else if build.definesApt ∧ (s.aptClock = 0 ∨
        (if f.phase = 1 then s.aptAcquired = 0 ∨ s.lastKind ≠ kindAptAcquired
          else s.aptAcquired ≠ 0)) then none
    else some { s with packageIntent := 1 }
  else if s.packageIntent = 0 ∨ s.packageComplete ≠ 0 ∨
      s.lastKind ≠ kindPackageIntent ∨ f.a ≤ 1 ∨ f.a > intMax ∨ f.b ≠ 0 ∨
      f.c ≠ consts.pkRows then none
  else some { s with packageComplete := 1 }

def applyAptClock (s : DeChain) (f : Fields) : Option DeChain :=
  if s.started = 0 ∨ s.complete ≠ 0 ∨ s.aptClock ≠ 0 ∨ s.progress ≠ 2 ∨
      s.lastEvent 1 ≠ 5 ∨ s.status 1 ≠ 0 ∨ f.phase ≠ s.bootPhase ∨ f.event ≠ 1 ∨
      f.a < 1577836800 ∨ f.a ≥ 4102444800 ∨ f.b ≥ 1000000000 ∨ f.c > 20000 ∨
      s.configCreated ≠ 0 ∨ s.configRetired ≠ 0 then none
  else some { s with aptClock := 1 }

def applyAptAcquired (consts : Seal) (s : DeChain) (f : Fields) : Option DeChain :=
  if s.started = 0 ∨ s.complete ≠ 0 ∨ s.aptClock = 0 ∨ s.aptAcquired ≠ 0 ∨
      s.progress ≠ dhSamples + 3 ∨ s.bootPhase ≠ 1 ∨ f.phase ≠ 1 ∨ f.event ≠ 1 ∨
      s.configCreated ≠ 2 ∨ s.configRetired ≠ 0 ∨ s.packageIntent ≠ 0 ∨
      f.a ≠ consts.apReleaseSize ∨ f.b ≠ consts.apIndexSize ∨
      f.c ≠ consts.apArchiveSize then none
  else some { s with aptAcquired := 1 }

def applyRelease (build : Revision) (s : DeChain) (f : Fields) : Option DeChain :=
  if build.definesAutoboot then none
  else if s.complete = 0 ∨ s.off ≠ 0 ∨ s.released ≠ 0 ∨ f.phase ≠ 0 ∨
      f.event ≠ 0 ∨ f.a ≠ dhReleaseSequence ∨ f.b ≠ 0 ∨ f.c ≠ 0 then none
  else some { s with released := 1 }

/-- The control intent names its phase, but `boot_phase` is not consulted. -/
def applyIntent (consts : Seal) (s : DeChain) (f : Fields) : Option DeChain :=
  let wanted := if f.kind = kindRebootIntent then 1 else 2
  if s.complete = 0 ∨ s.off ≠ 0 ∨ s.released ≠ 0 ∨ f.phase ≠ wanted ∨
      f.event ≠ 0 ∨ f.a ≠ consts.rbBaseCount ∨
      f.b ≠ wrap32 (consts.rbBaseCount + 2 * wanted) ∨ f.c ≠ 0 then none
  else some { s with control := f.kind }

def applyStop (s : DeChain) (f : Fields) : Option DeChain :=
  if f.seq = 0 ∨ f.phase ≠ 0 ∨ f.event ≠ 0 ∨ f.a = 0 ∨ f.a > 4095 ∨
      f.b ≠ swWitness ∨ f.c ≠ 0 then none
  else some { s with stopped := 1 }

/-- The `else if` chain over the record kind, with the branches each build
compiles in. -/
def applyKind (build : Revision) (consts : Seal) (s : DeChain) (f : Fields) : Option DeChain :=
  if f.kind = kindInit then applyInit s f
  else if f.kind = kindStart then applyStart s f
  else if f.kind = kindReportLost then applyReportLost build s f
  else if f.kind = kindProgress then applyProgress build s f
  else if f.kind = kindBoundary then applyBoundary s f
  else if f.kind = kindComplete then applyComplete build s f
  else if build.definesCronConfig ∧ f.kind = kindConfigCreated then
    applyConfigCreated build consts s f
  else if build.definesCronConfig ∧ f.kind = kindConfigRetired then
    applyConfigRetired s f
  else if build.definesPackage ∧ (f.kind = kindPackageIntent ∨ f.kind = kindPackageComplete) then
    applyPackage build consts s f
  else if build.definesApt ∧ f.kind = kindAptClock then applyAptClock s f
  else if build.definesApt ∧ f.kind = kindAptAcquired then
    applyAptAcquired consts s f
  else if f.kind = kindRelease then applyRelease build s f
  else if build.definesReboot ∧ (f.kind = kindRebootIntent ∨ f.kind = kindShutdownIntent) then
    applyIntent consts s f
  else if f.kind = kindStop then applyStop s f
  else none

def advance (s : DeChain) (record : Record) (f : Fields) : DeChain :=
  { s with
    tag := record.ownTag
    count := wrap32 (s.count + 1)
    elapsed := f.elapsed
    lastKind := f.kind
    lastPhase := f.phase }

def deApply (build : Revision) (consts : Seal) (mac : Mac) (s : DeChain)
    (record : Record) : Option DeChain :=
  let f := fields record
  let tag := deTag mac build record.body
  if record.bytes.take 8 ≠ recordMagic ∨ f.seq ≠ s.count ∨ f.seq ≥ recordLimit ∨
      f.reserved ≠ 0 ∨ f.elapsed ≥ swTimeoutMs ∨
      (f.seq ≠ 0 ∧ f.elapsed < s.elapsed) ∨ f.flags ≠ s.off ∨ s.stopped ≠ 0 ∨
      s.control ≠ 0 ∨ constantTimeEqual record.previousTag s.tag.bytes = false ∨
      constantTimeEqual record.ownTag.bytes tag.bytes = false then none
  else (applyKind build consts s f).map fun next => advance next record f

/-! The header, and the state `de_scan` starts from. -/

structure Binding where
  run : List UInt8
  boot : List UInt8
  nonce : List UInt8
  deadlineMs : Nat
  initSha : List UInt8
  hookSha : List UInt8
  rootDevice : Nat
  rbPhase : Nat
  run_size : run.length = 16
  boot_size : boot.length = 32
  nonce_size : nonce.length = 32
  init_size : initSha.length = 32
  hook_size : hookSha.length = 32

def rbInstalled (consts : Seal) (phase : Nat) : Nat :=
  wrap32 (consts.rbBaseCount + 2 * phase)

def headerIdentity (build : Revision) (bound : Binding) : List UInt8 :=
  headerMagic ++ store 4 1 ++ store 4 headerBytes ++ bound.run ++ bound.boot ++
    bound.nonce ++ store 8 (sub64 bound.deadlineMs swTimeoutMs) ++
    store 8 bound.deadlineMs ++ store 4 build.number ++ store 4 recordBytes ++
    store 4 recordLimit ++ store 4 maximumBytes ++ bound.initSha ++
    bound.hookSha ++ store 8 bound.rootDevice

/-- The words at 200, 204 and 208; builds without reboot leave them zero. -/
def headerReboot (build : Revision) (consts : Seal) (bound : Binding) : List UInt8 :=
  if build.definesReboot then
    store 4 bound.rbPhase ++ (store 4 consts.rbBaseCount ++
      store 4 (rbInstalled consts bound.rbPhase))
  else store 4 0 ++ (store 4 0 ++ store 4 0)

def headerBody (build : Revision) (consts : Seal) (bound : Binding) : List UInt8 :=
  headerIdentity build bound ++ (headerReboot build consts bound ++ List.replicate 12 0)

def deHeader (build : Revision) (consts : Seal) (mac : Mac) (bound : Binding) : List UInt8 :=
  headerBody build consts bound ++ (deTag mac build (headerBody build consts bound)).bytes

/-- `memset` and the two assignments before the record loop of `de_scan`. -/
def scanStart (build : Revision) (header : Header) : DeChain :=
  { tag := header.ownTag
    bootPhase := if build.definesCronConfig then fs1U32 header.bytes 200 else 0 }

def headerAccepts (build : Revision) (consts : Seal) (mac : Mac) (bound : Binding)
    (header : Header) : Prop :=
  header.bytes = deHeader build consts mac bound

instance (build : Revision) (consts : Seal) (mac : Mac) (bound : Binding)
    (header : Header) : Decidable (headerAccepts build consts mac bound header) :=
  inferInstanceAs (Decidable (_ = _))

end Device

end NativeInitLab.Evidence
