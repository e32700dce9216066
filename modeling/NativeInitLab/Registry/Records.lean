import NativeInitLab.F1.Journal

namespace NativeInitLab.Registry

open Lockstep NumberedFiles
open F1 (Str digestText zeroSha256)

/-! The records of the consumed-candidate registry: the check of the whole chain, the head that
summarises it, and the record that a claim or a release adds. -/

inductive Failure where
  | registry (text : String)
  | unavailable (text : String)
  | duplicate (text : String)
  | os
  deriving DecidableEq

inductive Event where
  | claim
  | release
  deriving DecidableEq

def Event.text : Event → String
  | .claim => "claim"
  | .release => "release"

def maxRecords : Nat := 4096

def maxRecordBytes : Nat := 64 * 1024

def maxHeadBytes : Nat := 16 * 1024

structure Identity where
  candidateKey : Str
  targetProfileSha256 : Str
  targetKey : Str
  candidateApSha256 : Str
  candidateApSize : Int
  bootMemberName : Str
  bootMemberSize : Int
  bootMemberSha256 : Str
  manifestId : Str
  runId : Str
  approvalBindingSha256 : Str
  deriving DecidableEq

structure Body extends Identity where
  sequence : Nat
  event : Event
  claimId : Str
  previousRecordSha256 : Str
  releaseReason : Option Str
  deviceSessionStarted : Option Bool
  partitionTransfer : Option Bool
  deriving DecidableEq

structure Record extends Body where
  recordSha256 : Str
  deriving DecidableEq

/-- The fields of which the candidate key is the digest. -/
structure KeyBody where
  targetKey : Str
  candidateApSha256 : Str
  candidateApSize : Int
  bootMemberName : Str
  bootMemberSize : Int
  bootMemberSha256 : Str
  deriving DecidableEq

def Identity.keyBody (identity : Identity) : KeyBody where
  targetKey := identity.targetKey
  candidateApSha256 := identity.candidateApSha256
  candidateApSize := identity.candidateApSize
  bootMemberName := identity.bootMemberName
  bootMemberSize := identity.bootMemberSize
  bootMemberSha256 := identity.bootMemberSha256

structure HeadBody where
  recordCount : Nat
  lastSequence : Int
  lastRecordSha256 : Str
  deriving DecidableEq

structure Head extends HeadBody where
  headSha256 : Str
  deriving DecidableEq

/-- The digests and the lengths of the canonical texts.  A digest is 64 lowercase hexadecimal
digits, and the text of a head of digests is short. -/
structure Codec where
  recordHash : Body → Str
  headHash : HeadBody → Str
  claimHash : Str → Str → Str → Nat → Str
  keyHash : KeyBody → Str
  recordSize : Record → Nat
  headSize : Head → Nat
  recordHash_hex : ∀ body, digestText (recordHash body) = true
  headHash_hex : ∀ body, digestText (headHash body) = true
  headSize_le : ∀ head : Head, head.recordCount ≤ maxRecords →
    head.lastSequence = head.recordCount - 1 → digestText head.lastRecordSha256 = true →
    digestText head.headSha256 = true → headSize head ≤ maxHeadBytes

structure Name where
  sequence : Nat
  event : Event
  deriving DecidableEq

def pad8 (number : Nat) : String :=
  String.ofList (List.replicate (8 - (Nat.repr number).length) '0') ++ Nat.repr number

def Name.text (name : Name) : String := pad8 name.sequence ++ "-" ++ name.event.text ++ ".json"

def Record.name (record : Record) : Name := ⟨record.sequence, record.event⟩

def idText (text : Str) : Bool :=
  let letter (character : Char) : Bool :=
    ('a' ≤ character && character ≤ 'z') || ('0' ≤ character && character ≤ '9')
  match text with
  | [] => false
  | first :: rest => letter first && 2 ≤ rest.length && rest.length ≤ 95 &&
      rest.all fun character =>
        letter character || character == '.' || character == '_' || character == '-'

def bootMember : Str := "boot.img.lz4".toList

def memberSize (size : Int) : Bool := 0 < size && size ≤ 256 * 1024 * 1024

def checkFields : List (String × Bool) → Except Failure Unit
  | [] => .ok ()
  | (key, good) :: rest => do
    require (good = true) (Failure.registry s!"registry {key} is malformed")
    checkFields rest

def validateIdentityFields (identity : Identity) (claimId previousRecordSha256 : Str) :
    Except Failure Unit := do
  checkFields [("candidate_key", digestText identity.candidateKey),
      ("target_profile_sha256", digestText identity.targetProfileSha256),
      ("target_key", digestText identity.targetKey),
      ("candidate_ap_sha256", digestText identity.candidateApSha256),
      ("approval_binding_sha256", digestText identity.approvalBindingSha256),
      ("claim_id", digestText claimId),
      ("previous_record_sha256", digestText previousRecordSha256),
      ("boot_member_sha256", digestText identity.bootMemberSha256),
      ("manifest_id", idText identity.manifestId),
      ("run_id", idText identity.runId),
      ("boot_member_name", idText identity.bootMemberName)]
  require (identity.bootMemberName = bootMember) (Failure.registry "registry boot member differs")
  checkFields [("candidate_ap_size", memberSize identity.candidateApSize),
      ("boot_member_size", memberSize identity.bootMemberSize)]

def parseFailure : Str := "odin_local_parse_failure".toList

def validateRelease (record : Body) : Except Failure Unit :=
  match record.event with
  | .claim => require (record.releaseReason = none ∧ record.deviceSessionStarted = none ∧
      record.partitionTransfer = none) (Failure.registry "claim record contains release fields")
  | .release => require (record.releaseReason = some parseFailure ∧
      record.deviceSessionStarted = some false ∧ record.partitionTransfer = some false)
      (Failure.registry "release record is not the exact pre-session exception")

section Checks

variable (codec : Codec)

def validateIdentity (identity : Identity) : Except Failure Unit := do
  validateIdentityFields identity zeroSha256 zeroSha256
  require (identity.candidateKey = codec.keyHash identity.keyBody)
    (Failure.registry "verified candidate key derivation differs")

def validateRecord (record : Record) (sequence : Nat) (previous : Str) :
    Except Failure Unit := do
  require (record.sequence = sequence) (Failure.registry "registry record sequence differs")
  validateIdentityFields record.toIdentity record.claimId record.previousRecordSha256
  require (record.candidateKey = codec.keyHash record.keyBody)
    (Failure.registry "registry record candidate key derivation differs")
  require (record.previousRecordSha256 = previous)
    (Failure.registry "registry record chain predecessor differs")
  validateRelease record.toBody
  require (record.recordSha256 = codec.recordHash record.toBody)
    (Failure.registry "registry record digest differs")

def Binds (record prior : Record) : Prop :=
  record.targetProfileSha256 = prior.targetProfileSha256 ∧ record.targetKey = prior.targetKey ∧
    record.candidateApSha256 = prior.candidateApSha256 ∧
    record.candidateApSize = prior.candidateApSize ∧
    record.bootMemberName = prior.bootMemberName ∧
    record.bootMemberSize = prior.bootMemberSize ∧
    record.bootMemberSha256 = prior.bootMemberSha256 ∧ record.manifestId = prior.manifestId ∧
    record.runId = prior.runId ∧
    record.approvalBindingSha256 = prior.approvalBindingSha256 ∧ record.claimId = prior.claimId

instance (record prior : Record) : Decidable (Binds record prior) := by
  unfold Binds
  infer_instance

abbrev Claims := Str → Option Record

structure Scan where
  previous : Str := zeroSha256
  active : Claims := fun _ => none
  records : List Record := []

def Scan.follow (scan : Scan) (record : Record) : Except Failure Claims :=
  match record.event with
  | .claim => do
    require (scan.active record.candidateKey = none)
      (Failure.registry "candidate has multiple active claims")
    require (record.claimId = codec.claimHash record.candidateKey record.runId
        record.approvalBindingSha256 scan.records.length)
      (Failure.registry "claim identifier derivation differs")
    return Function.update scan.active record.candidateKey (some record)
  | .release =>
    match scan.active record.candidateKey with
    | none => .error (.registry "release has no active claim")
    | some prior => do
      require (Binds record prior) (Failure.registry "release does not bind its active claim")
      return Function.update scan.active record.candidateKey none

def Scan.enter (scan : Scan) (file : Slot Name Record) : Except Failure Scan :=
  match file.content with
  | none => .error (.registry s!"registry record {scan.records.length} is not strict JSON")
  | some record => do
    require (codec.recordSize record ≤ maxRecordBytes)
      (Failure.registry s!"registry record {scan.records.length} exceeds its size bound")
    require (file.name = ⟨scan.records.length, record.event⟩)
      (Failure.registry "registry record filename sequence/event differs")
    validateRecord codec record scan.records.length scan.previous
    let active ← scan.follow codec record
    return { previous := record.recordSha256, active, records := scan.records ++ [record] }

def scanRecords (files : List (Slot Name Record)) : Except Failure Scan := do
  require (files.length ≤ maxRecords) (Failure.registry "registry record count exceeds its bound")
  files.foldlM (Scan.enter codec) {}

def headValue (recordCount : Nat) (lastSequence : Int) (lastRecordSha256 : Str) : Head where
  recordCount
  lastSequence
  lastRecordSha256
  headSha256 := codec.headHash ⟨recordCount, lastSequence, lastRecordSha256⟩

def validateHead (head : Head) : Except Failure Unit := do
  require (head.recordCount ≤ maxRecords) (Failure.registry "registry head record count differs")
  require (head.lastSequence = head.recordCount - 1)
    (Failure.registry "registry head sequence differs")
  require (digestText head.lastRecordSha256 = true)
    (Failure.registry "registry head record digest differs")
  require (digestText head.headSha256 = true) (Failure.registry "registry head digest is malformed")
  require (head.headSha256 = codec.headHash head.toHeadBody)
    (Failure.registry "registry head digest does not verify")
  require (head.recordCount = 0 → head.lastRecordSha256 = zeroSha256)
    (Failure.registry "empty registry head has a nonempty digest")

def lastSha256 (records : List Record) : Str :=
  (records.getLast?.map Record.recordSha256).getD zeroSha256

def Head.Covers (head : Head) (records : List Record) : Prop :=
  head.recordCount = records.length ∧ head.lastSequence = records.length - 1 ∧
    head.lastRecordSha256 = lastSha256 records

instance (head : Head) (records : List Record) : Decidable (head.Covers records) := by
  unfold Head.Covers
  infer_instance

def tailHead (head : Head) (records : List Record) : Except Failure Head := do
  require (records.length = head.recordCount + 1 ∧ head.recordCount ≤ maxRecords)
    (Failure.registry "registry head does not match records")
  let earlier := lastSha256 (records.take head.recordCount)
  match records.getLast? with
  | none => .error (.registry "registry head has an invalid tail")
  | some tail => do
    require (head.lastSequence = head.recordCount - 1 ∧ head.lastRecordSha256 = earlier ∧
      tail.sequence = head.recordCount ∧ tail.previousRecordSha256 = earlier)
      (Failure.registry "registry head has an invalid tail")
    return headValue codec records.length (records.length - 1) tail.recordSha256

def claims (records : List Record) : Claims :=
  records.foldl (fun active record =>
    match record.event with
    | .claim => Function.update active record.candidateKey (some record)
    | .release => Function.update active record.candidateKey none) fun _ => none

def sealRecord (records : List Record) (draft : Body) : Record :=
  let body := { draft with
    sequence := records.length
    previousRecordSha256 := lastSha256 records }
  { toBody := body, recordSha256 := codec.recordHash body }

def checkAppend (records : List Record) (draft : Body) : Except Failure Record := do
  require (records.length < maxRecords) (Failure.registry "registry record count bound exceeded")
  let record := sealRecord codec records draft
  validateRecord codec record records.length record.previousRecordSha256
  require (codec.recordSize record ≤ maxRecordBytes)
    (Failure.registry "registry record exceeds its size bound")
  return record

/-- Candidates that were consumed before the registry, and those that are claimed. -/
def refuseConsumed (legacy : List Str) (records : List Record) (identity : Identity)
    (claimed : String) : Except Failure Unit := do
  require (legacy.contains identity.candidateApSha256 = false)
    (Failure.duplicate "candidate AP was consumed before global registry activation")
  require (claims records identity.candidateKey = none) (Failure.duplicate claimed)

def claimDraft (records : List Record) (identity : Identity) : Body where
  toIdentity := identity
  sequence := records.length
  event := .claim
  claimId := codec.claimHash identity.candidateKey identity.runId
    identity.approvalBindingSha256 records.length
  previousRecordSha256 := zeroSha256
  releaseReason := none
  deviceSessionStarted := none
  partitionTransfer := none

end Checks

structure ReleaseRequest where
  candidateKey : Str
  claimId : Str
  record : Option Record
  releaseReason : Str := parseFailure
  deviceSessionStarted : Bool := false
  partitionTransfer : Bool := false
  deriving DecidableEq

def ReleaseRequest.validate (request : ReleaseRequest) : Except Failure Unit := do
  require (digestText request.candidateKey = true ∧ digestText request.claimId = true)
    (Failure.registry "claim receipt identity is malformed")
  require (request.releaseReason = parseFailure ∧ request.deviceSessionStarted = false ∧
    request.partitionTransfer = false)
    (Failure.registry "only exact pre-session parse failure may release a claim")

def ReleaseRequest.names (request : ReleaseRequest) (event : Event) (record : Record) : Bool :=
  record.event == event && record.candidateKey == request.candidateKey &&
    record.claimId == request.claimId

def releaseDraft (records : List Record) (request : ReleaseRequest) (claimed : Record) : Body where
  toIdentity := { claimed.toIdentity with candidateKey := request.candidateKey }
  sequence := records.length
  event := .release
  claimId := request.claimId
  previousRecordSha256 := zeroSha256
  releaseReason := some request.releaseReason
  deviceSessionStarted := some false
  partitionTransfer := some false

/-- A release that is recorded already is returned as it is. -/
inductive ReleasePlan where
  | recorded (record : Record)
  | append (draft : Body)

def planRelease (records : List Record) (request : ReleaseRequest) :
    Except Failure ReleasePlan := do
  match request.record, records.find? (request.names .claim) with
  | some supplied, some owner => do
    require (supplied = owner) (Failure.registry "claim receipt owner differs from active claim")
    match (claims records request.candidateKey).filter
        fun existing => existing.claimId == request.claimId with
    | some existing => return .append (releaseDraft records request existing)
    | none =>
      match records.reverse.find? (request.names .release) with
      | some item => return .recorded item
      | none => .error (.registry "active candidate claim is absent or differs")
  | _, _ => .error (.registry "claim receipt lacks its recorded owner")

end NativeInitLab.Registry
