import NativeInitLab.Library.CrashProgram
import NativeInitLab.F1.Journal

namespace NativeInitLab.F1

open CrashProgram CrashProgram.Program NumberedFiles

/-! The files of an F1 run, and the operations by which they change. -/

/-- The files.  `oldHead` is the head on the disk until the directory is synced, and `temporary`
the file that is to become the head. -/
structure RunDirectory where
  journal : List (Slot Name Record) := []
  head : Option Head := none
  oldHead : Option Head := none
  temporary : Option Head := none

inductive Op where
  | read
  | createRecord (name : Name)
  | writeRecord (name : Name) (record : Record)
  | syncRecord (name : Name)
  | syncJournal
  | createHead
  | writeHead (head : Head)
  | syncHead
  | replaceHead
  | syncRun

def Answer : Op → Type
  | .read => RunDirectory
  | .createRecord _ => Bool
  | _ => Unit

abbrev Run := Program Op Answer

def act (op : Op) : Run (Answer op) := perform op

/-- Every operation completes; only an exclusive creation can find its name taken. -/
def handle : (op : Op) → RunDirectory → Answer op × RunDirectory
  | .read, directory => (directory, directory)
  | .createRecord name, directory =>
    match create Name.sequence name directory.journal with
    | none => (false, directory)
    | some journal => (true, { directory with journal })
  | .writeRecord name record, directory =>
    ((), { directory with journal := write name record directory.journal })
  | .syncRecord name, directory =>
    ((), { directory with journal := flush name directory.journal })
  | .syncJournal, directory => ((), { directory with journal := settle directory.journal })
  | .createHead, directory => ((), { directory with temporary := none })
  | .writeHead head, directory => ((), { directory with temporary := some head })
  | .syncHead, directory => ((), directory)
  | .replaceHead, directory => ((), { directory with head := directory.temporary })
  | .syncRun, directory => ((), { directory with oldHead := directory.head })

section Journal

variable (codec : Codec) (binding : Str)

def headOf (record : Record) : Head where
  bindingSha256 := binding
  recordCount := record.sequence + 1
  lastSequence := record.sequence
  lastRecordSha256 := record.recordSha256

def writeHead (record : Record) : Run Unit := do
  act .createHead
  act (.writeHead (headOf binding record))
  act .syncHead
  act .syncRun
  act .replaceHead
  act .syncRun

def fill (record : Record) : Run (Except String Unit) := do
  act (.writeRecord record.name record)
  act (.syncRecord record.name)
  act .syncJournal
  writeHead binding record
  return .ok ()

def store (record : Record) : Run (Except String Unit) := do
  if codec.size record ≤ maxRecord then
    let created : Bool ← act (.createRecord record.name)
    if created = true then fill binding record
    else return .error "File exists"
  else return .error "durable record exceeds its bound"

def RunDirectory.records (directory : RunDirectory) : Except String (List Record) :=
  readRecords codec binding directory.journal directory.head

def appendTo (timestampUtc : Str) (call : Call) (directory : RunDirectory) :
    Run (Except String Unit) :=
  match directory.records codec binding with
  | .error failure => return .error failure
  | .ok records =>
    match prepare codec binding records timestampUtc call with
    | .error failure => return .error failure
    | .ok record => store codec binding record

def append (timestampUtc : Str) (call : Call) : Run (Except String Unit) := do
  let directory : RunDirectory ← act .read
  appendTo codec binding timestampUtc call directory

def createJournal (timestampUtc : Str) (details : Details) : Run (Except String Unit) :=
  append codec binding timestampUtc (.transition .preflight "ok".toList details)

def reopenFrom (directory : RunDirectory) : Run (Except String (List Record)) :=
  match directory.records codec binding with
  | .error failure => return .error failure
  | .ok records =>
    match records.getLast? with
    | none => return .ok records
    | some record => do
      writeHead binding record
      return .ok records

/-- `Journal.reopen`; the result is the records it has read. -/
def reopen : Run (Except String (List Record)) := do
  let directory : RunDirectory ← act .read
  reopenFrom codec binding directory

end Journal

end NativeInitLab.F1
