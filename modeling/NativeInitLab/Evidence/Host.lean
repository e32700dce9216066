import NativeInitLab.Evidence.Wire
import NativeInitLab.Library.Lockstep

namespace NativeInitLab.Evidence

open LittleEndian Lockstep

/-! The host checker.  It keeps every accepted row and recomputes its conditions
from the lists; a refusal carries the message of the failed `require`. -/

namespace Host

/-- `struct.unpack_from` with the widths of `'<IIQIIQQQII'`: consecutive
little-endian fields from a starting offset. -/
def unpackFrom (bytes : List UInt8) : Nat → List Nat → List Nat
  | _, [] => []
  | offset, width :: widths =>
    value (window offset width bytes) :: unpackFrom bytes (offset + width) widths

def recordWidths : List Nat := [4, 4, 8, 4, 4, 8, 8, 8, 4, 4]

def fields (record : Record) : Fields :=
  match unpackFrom record.bytes 8 recordWidths with
  | [seq, kind, elapsed, phase, event, a, b, c, flags, reserved] =>
    { seq, kind, elapsed, phase, event, a, b, c, flags, reserved }
  | _ => ⟨0, 0, 0, 0, 0, 0, 0, 0, 0, 0⟩

structure Platform where
  onlineCpus : List Nat
  watchdogDriverEnabled : Bool
  hardwarePetProved : Bool
  deriving DecidableEq

structure Row where
  sequence : Nat
  kind : Nat
  name : String
  elapsedMs : Nat
  phase : Nat
  event : Nat
  a : Nat
  b : Nat
  c : Nat
  reportDisabled : Bool
  platform : Option Platform := none
  reportingReopened : Option Bool := none
  deriving DecidableEq

def names : List String :=
  ["INIT", "START", "PROGRESS", "BOUNDARY", "REPORT_LOST", "COMPLETE", "RELEASE", "STOP"]

def Row.ofFields (f : Fields) : Row where
  sequence := f.seq
  kind := f.kind
  name := if 1 ≤ f.kind ∧ f.kind < 9 then names.getD (f.kind - 1) "" else "UNKNOWN"
  elapsedMs := f.elapsed
  phase := f.phase
  event := f.event
  a := f.a
  b := f.b
  c := f.c
  reportDisabled := f.flags != 0

/-- `rows[-1]`.  On an empty list the source raises; every use stands behind a
check that excludes it. -/
def lastRow (rows : List Row) : Row :=
  rows.getLast?.getD (Row.ofFields ⟨0, 0, 0, 0, 0, 0, 0, 0, 0, 0⟩)

structure Reboot where
  phase : Nat
  initialMountCount : Nat
  deriving DecidableEq

/-- The keyword arguments shared by `tag`, `Chain` and `decode`. -/
structure Selection where
  autoboot : Bool := false
  singleCpu : Bool := false
  reboot : Option Reboot := none
  cronConfig : Bool := false
  download : Bool := false
  package : Bool := false
  apt : Bool := false
  deriving DecidableEq

def domain (sel : Selection) : Except String String := do
  if sel.reboot.isSome then
    require (sel.autoboot = true) "reboot durable domain requires automatic startup"
  if sel.cronConfig then
    require (sel.reboot.isSome = true ∧ sel.autoboot = true)
      "configuration durable domain requires reboot"
  if sel.download then
    require (sel.cronConfig = true) "Download durable domain needs configuration selection"
  if sel.package then
    require (sel.download = true) "package durable domain needs Download selection"
  if sel.apt then
    require (sel.package = true) "APT durable domain needs package selection"
  return if sel.apt then "S22PLUS-FYG8-DEBIAN-APT-DURABLE-v1"
    else if sel.package then "S22PLUS-FYG8-DEBIAN-PACKAGE-DURABLE-v1"
    else if sel.download then "S22PLUS-FYG8-DEBIAN-DOWNLOAD-DURABLE-v1"
    else if sel.cronConfig then "S22PLUS-FYG8-DEBIAN-CRON-CONFIG-DURABLE-v1"
    else if sel.reboot.isSome then "S22PLUS-FYG8-DEBIAN-REBOOT-DURABLE-v1"
    else if sel.autoboot then "S22PLUS-FYG8-DEBIAN-AUTO-DURABLE-v1"
    else "S22PLUS-FYG8-DEBIAN-DURABLE-v1"

def tag (mac : Mac) (sel : Selection) (body : List UInt8) : Except String Tag := do
  return mac (← domain sel) body

structure Chain where
  tag : Tag
  sel : Selection
  rows : List Row := []
  started : Bool := false
  off : Bool := false
  complete : Bool := false
  released : Bool := false
  stopped : Bool := false
  progress : List Row := []
  boundaries : List Row := []
  elapsed : Nat := 0
  control : Option Nat := none
  aptClock : Option Row := none
  aptAcquired : Option Row := none
  packageIntent : Option Row := none
  packageComplete : Option Row := none
  configCreated : List Row := []
  configRetired : Option Row := none

def Chain.init (firstTag : Tag) (sel : Selection) : Except String Chain := do
  require (sel.singleCpu = false ∨ sel.autoboot = true)
    "single CPU evidence requires automatic startup"
  require (sel.cronConfig = false ∨ sel.reboot.isSome = true)
    "configuration chain needs a reboot binding"
  require (sel.download = false ∨ sel.cronConfig = true) "Download chain selection differs"
  require (sel.package = false ∨ sel.download = true) "package chain selection differs"
  require (sel.apt = false ∨ sel.package = true) "APT chain selection differs"
  return { tag := firstTag, sel }

namespace Chain

def enoent : Nat := 2
def eio : Nat := 5
def enxio : Nat := 6
def enodev : Nat := 19
def epipe : Nat := 32
def econnreset : Nat := 104
def etimedout : Nat := 110

def prior (q : Chain) (phase : Nat) : List Row :=
  q.boundaries.filter fun row => row.phase == phase

def rebootPhase (q : Chain) : Nat := (q.sel.reboot.map Reboot.phase).getD 0

def mountCount (q : Chain) : Nat :=
  (q.sel.reboot.map Reboot.initialMountCount).getD 0

/-- The length of the fixed cron schedule of a run: its 60-byte run line and the
125-byte job table. -/
def scheduleLength : Nat := 60 + 125

def packageCounts (sel : Selection) : Nat × Nat :=
  if sel.apt then (10, 64) else (52, 54)

def repositorySizes : Nat × Nat × Nat := (140421, 20656989, 57900)

def appendInit (q : Chain) (f : Fields) (row : Row) : Except String (Chain × Row) := do
  require (f.seq = 0 ∧ f.phase = 0 ∧ f.event = 0 ∧ f.a = 1 ∧ f.b = 0 ∧ f.c = 0)
    "durable init fact differs"
  return (q, row)

def appendStart (q : Chain) (f : Fields) (row : Row) : Except String (Chain × Row) := do
  require (f.seq = 1 ∧ q.started = false ∧ f.phase = 0 ∧ f.event = 0 ∧ f.a = 8 ∧ f.b = 0 ∧ f.c = 0)
    "durable START is out of order"
  return ({ q with started := true }, row)

def appendReportLost (q : Chain) (f : Fields) (row : Row) : Except String (Chain × Row) := do
  require (q.sel.autoboot = false) "automatic record cannot claim transport loss"
  require (q.started = true ∧ q.off = false ∧ q.released = false ∧ f.phase ≤ 2 ∧
      f.event = 0) "durable reporting loss phase differs"
  let last := lastRow q.rows
  if f.b = 0 then
    require (f.c = 0 ∧ f.a ∈ [enoent, eio, enodev, enxio] ∧
        (f.phase = 1 ∧ ((q.progress.length = 0 ∧ last.kind = kindStart) ∨
            (q.progress.length = 1 ∧ last.kind = kindBoundary ∧ last.event = 1)) ∨
          f.phase = 2 ∧ q.progress.length = 2 ∧ last.kind = kindProgress))
      "durable open loss is unclassified or out of order"
    return ({ q with off := true }, row)
  else
    require (f.a ∈ [eio, enodev, enxio, epipe, econnreset, etimedout])
      "durable send loss is not a reporting error"
    if f.b = 175 then
      require (f.phase = 0 ∧ f.c = 8 ∧ last.kind = kindStart) "START ACK loss differs"
      return ({ q with off := true }, row)
    else if f.b = 176 then
      require (last.kind = kindProgress ∧ f.phase = (if q.progress.length ≤ 2 then 1 else 2) ∧
          f.c = 2000 + q.progress.length - 1)
        "progress loss differs from preceding event"
      return ({ q with off := true }, row)
    else if f.b = 177 then
      require (last.kind = kindBoundary ∧ (f.phase = 1 ∨ f.phase = 2) ∧ f.phase = last.phase ∧
          f.c = (if f.phase = 1 then 3000 else 3100) + (q.prior f.phase).length - 1)
        "boundary loss differs from preceding event"
      return ({ q with off := true }, row)
    else throw "unknown reporting loss operation"

def appendProgress (q : Chain) (f : Fields) (row : Row) : Except String (Chain × Row) := do
  let ordinal := q.progress.length
  let expected := if ordinal < 3 then ordinal + 1 else 4
  require (q.started = true ∧ q.complete = false ∧ ordinal < 15 ∧
      f.phase = expected ∧ f.event = (if ordinal < 3 then 0 else ordinal - 2) ∧
      f.c = (if q.sel.singleCpu = true then 257 else 0) ∧
      (if ordinal < 2 then f.a = 0 ∧ f.b = 0
        else f.b = 3 ∧ f.event * 10000 ≤ f.a ∧ f.a ≤ f.event * 10000 + 10000 ∧
          f.a ≤ f.elapsed ∧ (ordinal < 3 ∨ f.a > (lastRow q.progress).a)))
    "durable progress accounting differs"
  require (ordinal ≠ 1 ∧ ordinal ≠ 2 ∨ (q.prior ordinal ≠ [] ∧
      (lastRow (q.prior ordinal)).event = 5 ∧ (lastRow (q.prior ordinal)).b = 0))
    "local completion lacks successful child"
  require (q.sel.apt = false ∨ ordinal < 2 ∨ q.aptClock.isSome = true)
    "service sampling precedes clock handoff"
  let row := if q.sel.singleCpu then
      { row with platform := some ⟨[0], true, false⟩ } else row
  return ({ q with progress := q.progress ++ [row] }, row)

def allowed (phase : Nat) : Nat → List Nat
  | 0 => if phase = 1 then [1] else [2]
  | 1 => [2]
  | 2 => [3]
  | 3 => [4, 5]
  | 4 => [4, 5]
  | _ => []

def appendBoundary (q : Chain) (f : Fields) (row : Row) : Except String (Chain × Row) := do
  require (q.started = true ∧ q.complete = false ∧ (f.phase = 1 ∨ f.phase = 2) ∧
      q.progress.length = f.phase) "durable boundary phase differs"
  let prior := q.prior f.phase
  let last := if prior ≠ [] then (lastRow prior).event else 0
  require (prior.length < 40 ∧ f.event ∈ allowed f.phase last ∧
      (if f.event ≤ 2 then f.a = 0 ∧ f.b = 0
        else 1 < f.a ∧ f.a ≤ 2147483647 ∧ f.b ≤ 65535 ∧ (f.event = 5 ∨ f.b = 0)))
    "durable boundary ordering or child differs"
  require (if f.phase = 1 ∧ f.event = 2 then
        (if q.off = true then f.c = 0
          else (lastRow prior).elapsedMs ≤ f.c ∧ f.c ≤ f.elapsed)
      else f.c = 0) "local close-return differs"
  require (f.event < 4 ∨ (f.a = (lastRow prior).a ∧
      (f.event ≠ 4 ∨ f.elapsed - (lastRow prior).elapsedMs ≥ 10000)))
    "local wait child or sample timing differs"
  let row := { row with
    reportingReopened := some (f.event = 2 ∧ q.off = false ∧ q.sel.autoboot = false) }
  return ({ q with boundaries := q.boundaries ++ [row] }, row)

def appendComplete (q : Chain) (f : Fields) (row : Row) : Except String (Chain × Row) := do
  require (q.started = true ∧ q.complete = false ∧ q.progress.length = 15 ∧
      f.phase = 0 ∧ f.event = 0 ∧ f.a = 0 ∧ f.b = 0 ∧ f.c = 0)
    "durable local completion precedes full service proof"
  require (q.sel.cronConfig = false ∨
      (if q.rebootPhase = 1 then q.configCreated.length = 2 ∧ q.configRetired = none
        else q.configCreated = [] ∧ q.configRetired.isSome = true))
    "configuration lifecycle is incomplete"
  require (q.sel.package = false ∨
      (q.packageIntent.isSome = true ∧ q.packageComplete.isSome = true))
    "package lifecycle is incomplete"
  return ({ q with complete := true }, row)

def secondChildDone (q : Chain) : Prop :=
  (lastRow q.boundaries).phase = 2 ∧ (lastRow q.boundaries).event = 5 ∧ (lastRow q.boundaries).b = 0

instance (q : Chain) : Decidable q.secondChildDone :=
  inferInstanceAs (Decidable (_ ∧ _))

def appendConfigCreated (q : Chain) (f : Fields) (row : Row) : Except String (Chain × Row) := do
  require (q.sel.apt = false ∨ q.aptClock.isSome = true) "configuration precedes clock handoff"
  require (q.rebootPhase = 1 ∧ q.started = true ∧ q.complete = false ∧
      q.progress.length = 2 ∧ q.secondChildDone ∧ f.phase = 1 ∧
      f.event = q.configCreated.length + 1 ∧ f.event ≤ 2)
    "configuration creation ordering differs"
  require (if f.event = 1 then f.a > 0 ∧ f.b > 0 ∧ f.c < 1000000000
      else f.a > 0 ∧ f.b < 1000000000 ∧ f.c = scheduleLength ∧
        (lastRow q.rows).kind = kindConfigCreated)
    "configuration creation metadata differs"
  let row := { row with name := "CONFIG_CREATED" }
  return ({ q with configCreated := q.configCreated ++ [row] }, row)

def appendConfigRetired (q : Chain) (f : Fields) (row : Row) : Except String (Chain × Row) := do
  require (q.rebootPhase = 2 ∧ q.started = true ∧ q.complete = false ∧
      q.progress.length = 15 ∧ q.configCreated = [] ∧ q.configRetired = none ∧
      f.phase = 2 ∧ f.event = 1 ∧ f.a > 0 ∧ 1 < f.b ∧ f.b ≤ 2147483647 ∧ f.c > 0)
    "configuration retirement ordering differs"
  let row := { row with name := "CONFIG_RETIRED" }
  return ({ q with configRetired := some row }, row)

def appendPackage (q : Chain) (f : Fields) (row : Row) : Except String (Chain × Row) := do
  require (q.started = true ∧ q.complete = false ∧ q.progress.length = 15 ∧
      f.phase = q.rebootPhase ∧ f.event = f.phase ∧
      (if f.phase = 1 then q.configCreated.length = 2 ∧ q.configRetired = none
        else q.configCreated = [] ∧ q.configRetired.isSome = true))
    "package transaction ordering differs"
  let (added, rows) := packageCounts q.sel
  if f.kind = kindPackageIntent then
    require (q.sel.apt = false ∨ (q.aptClock.isSome = true ∧
        (if f.phase = 1 then q.aptAcquired.isSome = true ∧ (lastRow q.rows).kind = kindAptAcquired
          else q.aptAcquired = none)))
      "APT installation precedes acquisition or repeats on second boot"
    require (q.packageIntent = none ∧ q.packageComplete = none ∧ f.a = added ∧
        f.b = rows ∧ f.c = 0) "package transaction intent repeats or differs"
    let row := { row with name := "PACKAGE_INTENT" }
    return ({ q with packageIntent := some row }, row)
  else
    require (q.packageIntent.isSome = true ∧ q.packageComplete = none ∧
        (lastRow q.rows).kind = kindPackageIntent ∧ 1 < f.a ∧ f.a ≤ 2147483647 ∧
        f.b = 0 ∧ f.c = rows) "package transaction completion differs"
    let row := { row with name := "PACKAGE_COMPLETE" }
    return ({ q with packageComplete := some row }, row)

def appendAptClock (q : Chain) (f : Fields) (row : Row) : Except String (Chain × Row) := do
  require (q.started = true ∧ q.complete = false ∧ q.aptClock = none ∧
      q.progress.length = 2 ∧ q.secondChildDone ∧ f.phase = q.rebootPhase ∧
      f.event = 1 ∧ 1577836800 ≤ f.a ∧ f.a < 4102444800 ∧ f.b < 1000000000 ∧
      f.c ≤ 20000 ∧ q.configCreated = [] ∧ q.configRetired = none)
    "clock handoff phase, numeric value or ordering differs"
  let row := { row with name := "APT_CLOCK" }
  return ({ q with aptClock := some row }, row)

def appendAptAcquired (q : Chain) (f : Fields) (row : Row) : Except String (Chain × Row) := do
  let (release, index, payload) := repositorySizes
  require (q.started = true ∧ q.complete = false ∧ q.aptClock.isSome = true ∧
      q.aptAcquired = none ∧ q.progress.length = 15 ∧ f.phase = q.rebootPhase ∧
      q.rebootPhase = 1 ∧ f.event = 1 ∧ q.configCreated.length = 2 ∧
      q.configRetired = none ∧ q.packageIntent = none ∧
      f.a = release ∧ f.b = index ∧ f.c = payload)
    "APT acquisition ordering or pinned sizes differ"
  let row := { row with name := "APT_ACQUIRED" }
  return ({ q with aptAcquired := some row }, row)

def appendRelease (q : Chain) (f : Fields) (row : Row) : Except String (Chain × Row) := do
  require (q.sel.autoboot = false) "automatic record cannot claim host release"
  require (q.complete = true ∧ q.off = false ∧ q.released = false ∧
      f.phase = 0 ∧ f.event = 0 ∧ f.a = 9 ∧ f.b = 0 ∧ f.c = 0)
    "durable release lacks ordered host-authorized boundary"
  return ({ q with released := true }, row)

def appendIntent (q : Chain) (f : Fields) (row : Row) : Except String (Chain × Row) := do
  let wanted := if f.kind = kindRebootIntent then 1 else 2
  require (q.complete = true ∧ q.off = false ∧ q.released = false ∧
      q.rebootPhase = wanted ∧ f.phase = wanted ∧ f.event = 0 ∧
      f.a = q.mountCount ∧ f.b = q.mountCount + 2 * wanted ∧ f.c = 0)
    "reboot control intent is not the selected completed phase"
  let row := { row with
    name := if f.kind = kindRebootIntent then "REBOOT_INTENT" else "SHUTDOWN_INTENT" }
  return ({ q with control := some f.kind }, row)

def appendStop (q : Chain) (f : Fields) (row : Row) : Except String (Chain × Row) := do
  require (f.seq > 0 ∧ f.phase = 0 ∧ f.event = 0 ∧ 0 < f.a ∧ f.a ≤ 4095 ∧
      f.b = 8 ∧ f.c = 0) "durable stop differs"
  return ({ q with stopped := true }, row)

def appendKind (q : Chain) (f : Fields) (row : Row) : Except String (Chain × Row) :=
  if f.kind = kindInit then q.appendInit f row
  else if f.kind = kindStart then q.appendStart f row
  else if f.kind = kindReportLost then q.appendReportLost f row
  else if f.kind = kindProgress then q.appendProgress f row
  else if f.kind = kindBoundary then q.appendBoundary f row
  else if f.kind = kindComplete then q.appendComplete f row
  else if f.kind = kindConfigCreated ∧ q.sel.cronConfig = true then
    q.appendConfigCreated f row
  else if f.kind = kindConfigRetired ∧ q.sel.cronConfig = true then
    q.appendConfigRetired f row
  else if (f.kind = kindPackageIntent ∨ f.kind = kindPackageComplete) ∧
      q.sel.package = true then q.appendPackage f row
  else if f.kind = kindAptClock ∧ q.sel.apt = true then q.appendAptClock f row
  else if f.kind = kindAptAcquired ∧ q.sel.apt = true then
    q.appendAptAcquired f row
  else if f.kind = kindRelease then q.appendRelease f row
  else if (f.kind = kindRebootIntent ∨ f.kind = kindShutdownIntent) ∧
      q.sel.reboot.isSome = true then q.appendIntent f row
  else if f.kind = kindStop then q.appendStop f row
  else .error "unknown durable event"

def advance (q : Chain) (record : Record) (f : Fields) (row : Row) : Chain :=
  { q with tag := record.ownTag, elapsed := f.elapsed, rows := q.rows ++ [row] }

def append (mac : Mac) (q : Chain) (record : Record) : Except String Chain := do
  require (record.bytes.length = recordBytes ∧ record.bytes.take 8 = recordMagic)
    "durable record framing differs"
  let f := fields record
  let expected ← Host.tag mac q.sel record.body
  require (f.seq = q.rows.length ∧ q.rows.length < recordLimit ∧ f.reserved = 0 ∧
      f.flags = q.off.toNat ∧ q.stopped = false ∧ q.control = none ∧
      q.elapsed ≤ f.elapsed ∧ f.elapsed < 300000 ∧
      record.previousTag = q.tag.bytes ∧ record.ownTag = expected)
    "durable record sequence, deadline, state or authentication differs"
  let (next, row) ← q.appendKind f (Row.ofFields f)
  return next.advance record f row

end Chain

/-! The header checks of `decode` for the identity of one retained run. -/

structure Expected where
  runId : List UInt8
  boot : List UInt8
  nonceSha256 : List UInt8
  initSha : List UInt8
  hookSha : List UInt8
  rootDevice : Nat

def revisionNumber (sel : Selection) : Nat :=
  if sel.apt then 11 else if sel.package then 10 else if sel.download then 9
  else if sel.cronConfig then 8 else if sel.reboot.isSome then 7
  else if sel.singleCpu then 6 else if sel.autoboot then 5 else 4

def rebootFields (sel : Selection) (header : List UInt8) : Bool :=
  match sel.reboot with
  | some reboot =>
    unpackFrom header 200 [4, 4, 4] == [reboot.phase, reboot.initialMountCount,
          reboot.initialMountCount + 2 * reboot.phase] &&
      (window 212 12 header).all (· == 0)
  | none => (window 200 24 header).all (· == 0)

def decodeHeader (mac : Mac) (sha256 : List UInt8 → List UInt8) (sel : Selection)
    (expected : Expected) (header : Header) : Except String Chain := do
  require (sel.singleCpu = false ∨ sel.autoboot = true)
    "single CPU evidence requires automatic startup"
  require (sel.cronConfig = false ∨ sel.reboot.isSome = true) "configuration needs reboot"
  match sel.reboot with
  | none => pure ()
  | some reboot =>
    require (sel.autoboot = true ∧ sel.singleCpu = true ∧
      (reboot.phase = 1 ∨ reboot.phase = 2)) "durable reboot selection differs"
    require (reboot.initialMountCount ≤ 65531) "sealed mount count would wrap"
  let own ← tag mac sel header.body
  require (header.bytes.length = headerBytes ∧ header.bytes.take 8 = headerMagic ∧
      unpackFrom header.bytes 8 [4, 4] = [1, headerBytes] ∧
      unpackFrom header.bytes 112 [4, 4, 4, 4] =
        [revisionNumber sel, recordBytes, recordLimit, maximumBytes] ∧
      rebootFields sel header.bytes = true ∧ header.ownTag = own)
    "durable header authentication or shape differs"
  let origin := value (window 96 8 header.bytes)
  let deadline := value (window 104 8 header.bytes)
  require (deadline ≥ 300000 ∧ deadline - origin = 300000 ∧
      window 16 16 header.bytes = expected.runId ∧
      window 32 32 header.bytes = expected.boot ∧
      sha256 (window 64 32 header.bytes) = expected.nonceSha256 ∧
      window 128 32 header.bytes = expected.initSha ∧
      window 160 32 header.bytes = expected.hookSha ∧
      value (window 192 8 header.bytes) = expected.rootDevice)
    "durable identity does not join retained run/boot/init/root"
  require (sel.autoboot = false ∨ (origin = 0 ∧ deadline = 300000)) "automatic deadline was renewed"
  Chain.init own sel

end Host

end NativeInitLab.Evidence
