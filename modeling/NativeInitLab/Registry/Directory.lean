import NativeInitLab.Library.CrashProgram
import NativeInitLab.Registry.Records

namespace NativeInitLab.Registry

open CrashProgram CrashProgram.Program Lockstep NumberedFiles
open F1 (Str)

/-! The files of the registry, and the calls that change them.  The lock files and the activation
record do not change after the registry was created; the digests of the legacy candidates of the
activation record are a parameter. -/

structure StagingName where
  pid : Nat
  object : Nat
  deriving DecidableEq

structure Staging where
  name : StagingName
  content : Option Head := none
  flushed : Bool := false
  deriving DecidableEq

/-- The changing files of the root: the head, and files that are to become the head. -/
structure Root where
  head : Option Head
  staging : List Staging := []
  deriving DecidableEq

/-- `unsynced` are the earlier versions of the root since it was last synced: its changes reach
the disk in order. -/
structure Directory where
  records : List (Slot Name Record) := []
  root : Root
  unsynced : List Root := []
  deriving DecidableEq

inductive File where
  | record (record : Record)
  | staging (name : StagingName) (head : Head)

inductive Folder where
  | records
  | root
  deriving DecidableEq

def File.parent : File → Folder
  | .record _ => .records
  | .staging _ _ => .root

def StagingName.text (name : StagingName) : String :=
  ".head.json.next-" ++ Nat.repr name.pid ++ "-" ++ Nat.repr name.object

def File.text : File → String
  | .record value => value.name.text
  | .staging name _ => name.text

inductive Effect where
  | create (file : File)
  | write (file : File)
  | sync (file : File)
  | syncFolder (folder : Folder)
  | unlink (name : StagingName)
  | replaceHead (name : StagingName)

inductive Op where
  | listRoot
  | read
  | pickStaging
  | change (effect : Effect)

inductive Outcome where
  | done
  | taken
  | failed
  deriving DecidableEq

def Answer : Op → Type
  | .listRoot => Option (List StagingName)
  | .read => Option Directory
  | .pickStaging => StagingName
  | .change _ => Outcome

namespace Root

def names (root : Root) : List StagingName := root.staging.map Staging.name

def update (root : Root) (name : StagingName) (change : Staging → Staging) : Root :=
  { root with staging := root.staging.map fun file =>
      if file.name = name then change file else file }

def remove (root : Root) (name : StagingName) : Root :=
  { root with staging := root.staging.filter fun file => file.name != name }

end Root

def Directory.change (directory : Directory) (root : Root) : Directory :=
  { directory with root, unsynced := directory.root :: directory.unsynced }

def handleCreate : File → Directory → Outcome × Directory
  | .record record, directory =>
    match NumberedFiles.create Name.sequence record.name directory.records with
    | none => (.taken, directory)
    | some records => (.done, { directory with records })
  | .staging name _, directory =>
    if directory.root.names.contains name = true then (.taken, directory)
    else (.done, directory.change
      { directory.root with staging := { name } :: directory.root.staging })

def handleWrite : File → Directory → Directory
  | .record record, directory =>
    { directory with records := NumberedFiles.write record.name record directory.records }
  | .staging name head, directory =>
    { directory with
      root := directory.root.update name fun file => { file with content := some head } }

def handleSync : File → Directory → Directory
  | .record record, directory =>
    { directory with records := flush record.name directory.records }
  | .staging name _, directory =>
    { directory with root := directory.root.update name fun file => { file with flushed := true } }

def handleSyncFolder : Folder → Directory → Directory
  | .records, directory => { directory with records := settle directory.records }
  | .root, directory => { directory with unsynced := [] }

def handleUnlink (name : StagingName) (directory : Directory) : Outcome × Directory :=
  if directory.root.names.contains name = true then
    (.done, directory.change (directory.root.remove name))
  else (.failed, directory)

def handleReplace (name : StagingName) (directory : Directory) : Outcome × Directory :=
  match directory.root.staging.find? fun file => file.name == name with
  | none => (.failed, directory)
  | some file =>
    (.done, directory.change { directory.root.remove name with head := file.content })

def apply : Effect → Directory → Outcome × Directory
  | .create file, directory => handleCreate file directory
  | .write file, directory => (.done, handleWrite file directory)
  | .sync file, directory => (.done, handleSync file directory)
  | .syncFolder folder, directory => (.done, handleSyncFolder folder directory)
  | .unlink name, directory => handleUnlink name directory
  | .replaceHead name, directory => handleReplace name directory

def handle : (op : Op) → Directory → Answer op × Directory
  | .listRoot, directory => (some directory.root.names, directory)
  | .read, directory => (some directory, directory)
  | .pickStaging, directory => ((⟨0, 0⟩ : StagingName), directory)
  | .change effect, directory => apply effect directory

/-- An operation completes, or it fails; a change that fails may have had its effect.  A new
staging file has any name. -/
def After : (op : Op) → Directory → Answer op → Directory → Prop
  | .listRoot, directory, answer, next =>
    (answer = none ∨ answer = some directory.root.names) ∧ next = directory
  | .read, directory, answer, next =>
    (answer = none ∨ answer = some directory) ∧ next = directory
  | .pickStaging, directory, _, next => next = directory
  | .change effect, directory, answer, next =>
    apply effect directory = (answer, next) ∨
      answer = Outcome.failed ∧ (next = directory ∨ next = (apply effect directory).2)

def machine : Machine Op Answer Directory where
  during _ _ _ := False
  after := After

/-- What a loss of power leaves of the root: the content of a file that was not synced may be
lost. -/
structure Root.Crash (root after : Root) : Prop where
  head : after.head = root.head
  staging : List.Forall₂ (fun file left => left.name = file.name ∧
    (left.content = file.content ∨ file.flushed = false ∧ left.content = none))
    root.staging after.staging

structure Directory.Crash (directory after : Directory) : Prop where
  records : NumberedFiles.Crash directory.records after.records
  root : ∃ version ∈ directory.root :: directory.unsynced, version.Crash after.root
  unsynced : after.unsynced = []

abbrev Action := ExceptT Failure (Program Op Answer)

def act (op : Op) : Action (Answer op) := ExceptT.lift (perform op)

def check {A : Type} (result : Except Failure A) : Action A := ExceptT.mk (pure result)

def listRoot : Action (List StagingName) := do
  let found : Option (List StagingName) ← act .listRoot
  match found with
  | none => throw (.unavailable "registry namespace cannot be enumerated")
  | some names => return names

def layout : Action Unit := do
  let children ← listRoot
  let staged ← listRoot
  check (require (children.all staged.contains = true)
    (Failure.registry "registry root contains an unexpected child"))
  check (require (staged.length ≤ 1) (Failure.registry "registry head has multiple staging files"))

def read : Action Directory := do
  let found : Option Directory ← act .read
  match found with
  | none => throw (.unavailable "registry head cannot be read")
  | some directory => return directory

def Folder.text : Folder → String
  | .records => "records"
  | .root => "consumed-candidate-registry-v1"

def demand (effect : Effect) (failure : Failure) : Action Unit := do
  let outcome : Outcome ← act (.change effect)
  check (require (outcome = .done) failure)

def fsyncFolder (folder : Folder) : Action Unit :=
  demand (.syncFolder folder) (.unavailable ("cannot fsync " ++ folder.text))

def Directory.holds (directory : Directory) : File → Bool
  | .record record => directory.records.any fun slot =>
    slot.name == record.name && slot.content == some record
  | .staging name head => directory.root.staging.any fun file =>
    file.name == name && file.content == some head

def createFile (file : File) : Action Unit := do
  let created : Outcome ← act (.change (.create file))
  check (require (created ≠ .taken) (Failure.registry ("refusing to clobber " ++ file.text)))
  check (require (created ≠ .failed) (Failure.unavailable ("cannot publish " ++ file.text)))

def writeNoReplace (file : File) : Action Unit := do
  createFile file
  demand (.write file) (.unavailable ("cannot publish " ++ file.text))
  demand (.sync file) (.unavailable ("cannot publish " ++ file.text))
  fsyncFolder file.parent
  let reopened ← read
  check (require (reopened.holds file = true)
    (Failure.registry ("published " ++ file.text ++ " changed after reopen")))

section Programs

variable (codec : Codec)

/-- `os.replace` of the staging file; where it fails the file is removed. -/
def publishHead (name : StagingName) : Action Unit := do
  let replaced : Outcome ← act (.change (.replaceHead name))
  if replaced = .done then fsyncFolder .root
  else do
    discard (act (.change (.unlink name)))
    throw (.unavailable "cannot publish registry head")

def writeHead (head : Head) : Action Unit := do
  check (require (codec.headSize head ≤ maxHeadBytes)
    (Failure.registry "registry head exceeds its bound"))
  let name : StagingName ← act .pickStaging
  let children ← listRoot
  check (require (children.contains name = false)
    (Failure.registry "head staging path already exists"))
  writeNoReplace (.staging name head)
  publishHead name
  let reopened ← read
  check (require (reopened.root.head = some head)
    (Failure.registry "registry head changed after publication"))

def readHead (directory : Directory) : Except Failure Head :=
  match directory.root.head with
  | none => .error (.registry "registry head is not strict JSON")
  | some head => do
    require (codec.headSize head ≤ maxHeadBytes)
      (Failure.registry "registry head exceeds its size bound")
    validateHead codec head
    return head

/-- `_scan`; with `repairTail` a head that lacks the last record is replaced. -/
def scan (repairTail : Bool) : Action (Head × List Record) := do
  layout
  let directory ← read
  let head ← check (readHead codec directory)
  let found ← check (scanRecords codec directory.records)
  if head.Covers found.records then return (head, found.records)
  else if repairTail = true then do
    let repaired ← check (tailHead codec head found.records)
    writeHead codec repaired
    return (repaired, found.records)
  else throw (.registry "registry head does not match records")

def beforeLock : Action Unit := do
  layout
  layout

def removeStaging : List StagingName → Action Unit
  | [] => return ()
  | name :: _ => do
    demand (.unlink name) .os
    fsyncFolder .root

def enter : Action Unit := do
  let staged ← listRoot
  check (require (staged.length ≤ 1) (Failure.registry "registry head has multiple staging files"))
  removeStaging staged
  discard (scan codec true)

def writer : Action Unit := do
  beforeLock
  enter codec

structure Receipt where
  record : Record
  head : Option Head
  deriving DecidableEq

def append (draft : Body) : Action Receipt := do
  layout
  let (_, records) ← scan codec false
  let record ← check (checkAppend codec records draft)
  writeNoReplace (.record record)
  let head := headValue codec (records.length + 1) records.length record.recordSha256
  writeHead codec head
  fsyncFolder .records
  fsyncFolder .root
  discard (scan codec false)
  return ⟨record, some head⟩

inductive Call where
  | preflight (identity : Identity)
  | claim (identity : Identity)
  | release (request : ReleaseRequest)

namespace Call

def validate : Call → Except Failure Unit
  | .preflight identity => validateIdentity codec identity
  | .claim identity => validateIdentity codec identity
  | .release request => request.validate

inductive Plan where
  | nothing
  | recorded (record : Record)
  | append (draft : Body)

def plan (legacy : List Str) (records : List Record) : Call → Except Failure Plan
  | .preflight identity => do
    refuseConsumed legacy records identity "candidate identity was already consumed"
    return .nothing
  | .claim identity => do
    refuseConsumed legacy records identity "candidate identity is already globally claimed"
    return .append (claimDraft codec records identity)
  | .release request => do
    let planned ← planRelease records request
    match planned with
    | .recorded record => return .recorded record
    | .append draft => return .append draft

def carryOut : Plan → Action (Option Receipt)
  | .nothing => return none
  | .recorded record => return some ⟨record, none⟩
  | .append draft => some <$> append codec draft

def outside (call : Call) : Action Unit := do
  check (call.validate codec)
  beforeLock

def inside (legacy : List Str) (call : Call) : Action (Option Receipt) := do
  enter codec
  let (_, records) ← scan codec false
  let planned ← check (call.plan codec legacy records)
  carryOut codec planned

def program (legacy : List Str) (call : Call) : Action (Option Receipt) := do
  call.outside codec
  call.inside codec legacy

end Call

end Programs

end NativeInitLab.Registry
