import Mathlib.Logic.Function.Basic
import NativeInitLab.Library.CrashProgram
import NativeInitLab.Library.DurableFile

namespace NativeInitLab.Handoff

open CrashProgram CrashProgram.Program DurableFile

/-! The automatic handoff: an enable file that arms it, and a latch file that it leaves. -/

abbrev Str := List Char

def eperm : Int := 1
def eio : Int := 5
def eexist : Int := 17
def einval : Int := 22
def eoverflow : Int := 75
def ealready : Int := 114
def estale : Int := 116

/-- What `printf` and `strcmp` see of the bytes of a buffer. -/
def cString (bytes : Str) : Str := bytes.takeWhile (· ≠ '\x00')

def hex64Valid (value : Str) : Bool :=
  value.length == 64 && value.all fun digit =>
    ('0' ≤ digit && digit ≤ '9') || ('a' ≤ digit && digit ≤ 'f')

/-- The number of the userdata device: compiled in, or resolved at run time by a policy. -/
inductive Devt where
  | dev (text : Str)
  | dynamic (number policy : Str)

inductive Root where
  | image (path sha256 : Str)
  | userdata (devname : Str) (devt : Devt) (sectors label marker uuid manifestPath
      manifestFileSha256 manifestSha256 : Str)

structure Build where
  initBuild : Str
  root : Root

def Devt.valid : Devt → Bool
  | .dev text => cString text == "259:17".toList
  | .dynamic number policy =>
    cString number == [] && cString policy == "runtime-resolved-same-session".toList

def bindingValid (build : Build) : Bool :=
  match build.root with
  | .image path sha256 =>
    "/mnt/sdext/a90/runtime/".toList.isPrefixOf (cString path) && hex64Valid (cString sha256)
  | .userdata devname devt sectors label marker uuid manifestPath manifestFileSha256
      manifestSha256 =>
      cString devname == "sda33".toList && devt.valid &&
        cString sectors == "231577432".toList && cString label == "A90D4ROOT".toList &&
        cString marker == "userdata=appliance-root".toList &&
        cString uuid == "300aaf21-412c-4238-9106-56414eaab105".toList &&
        cString manifestPath == ("workspace/public/src/scripts/revalidation/a90_flat_builder/" ++
          "versions/phase3-minimal-h14/userdata-content-manifest.json").toList &&
        hex64Valid (cString manifestFileSha256) && hex64Valid (cString manifestSha256)

def line (key : String) (value : Str) : Str := key.toList ++ cString value ++ ['\n']

def Devt.schema : Devt → String
  | .dev _ => "a90-auto-handoff-userdata-ro-v1"
  | .dynamic _ _ => "a90-auto-handoff-userdata-ro-v2"

def Devt.line : Devt → Str
  | .dev text => Handoff.line "userdata_dev=" text
  | .dynamic _ policy => Handoff.line "userdata_devt_policy=" policy

def preamble (build : Build) : Str :=
  match build.root with
  | .image path sha256 =>
    line "schema=" "a90-auto-handoff-benchmark-v1".toList ++ line "build=" build.initBuild ++
      line "image=" path ++ line "image_sha256=" sha256
  | .userdata devname devt sectors label marker uuid _ _ manifestSha256 =>
    line "schema=" devt.schema.toList ++ line "build=" build.initBuild ++
      "root_kind=userdata-ext4-ro-noload\n".toList ++ line "userdata_devname=" devname ++
      devt.line ++ line "userdata_sectors=" sectors ++ line "userdata_label=" label ++
      line "userdata_marker=" marker ++ line "userdata_uuid=" uuid ++
      line "userdata_content_manifest_sha256=" manifestSha256

def stateText (build : Build) (intent : Str) (state : String) : Str :=
  preamble build ++ line "intent_sha256=" intent ++ line "state=" state.toList

def stateMax : Nat := 768

def formatState (build : Build) (intent : Str) (state : String) : Option Str :=
  if (stateText build intent state).length < stateMax then some (stateText build intent state)
  else none

def armed : String := "armed-after-native-health"

def dispatchedState : String := "automatic-handoff-dispatched-no-replay"

def armToken : Str := "AUTO-HANDOFF-BENCHMARK-V1-ARM".toList

inductive Name where
  | enable
  | latch
  deriving DecidableEq

structure Attributes where
  plain : Bool
  owned : Bool
  confined : Bool

def Attributes.proper (attributes : Attributes) : Bool :=
  attributes.plain && attributes.owned && attributes.confined

abbrev CacheFile := Path Char Attributes

structure Dispatch where
  files : Name → CacheFile

structure World where
  files : Name → CacheFile := fun _ => {}
  dispatches : List Dispatch := []

inductive Stat where
  | absent
  | failed (errno : Int)
  | found (attributes : Attributes) (size : Nat)

inductive Op where
  | lstat (name : Name)
  | openRead (name : Name)
  | fstat (name : Name)
  | read (name : Name)
  | readMore (name : Name) (offset : Nat)
  | create (name : Name)
  | chown (name : Name)
  | chmod (name : Name)
  | write (name : Name) (content : Str)
  | fsync (name : Name)
  | close (name : Name)
  | unlink (name : Name)
  | openDirectory
  | fsyncDirectory
  | closeDirectory
  | sync
  | qualify
  | publish
  | reboot
  | switchRoot

abbrev Answer : Op → Type
  | .lstat _ => Stat
  | .read _ => Except Int Str
  | .readMore _ _ => Int
  | .sync => Unit
  | .qualify => Int
  | .publish => Int
  | .switchRoot => Int
  | _ => Option Int

abbrev Run := Program Op Answer

def act (op : Op) : Run (Answer op) := perform op

def statePath (name : Name) : Run Int := do
  let stat : Stat ← act (.lstat name)
  match stat with
  | .absent => return 0
  | .failed errno => return -errno
  | .found attributes _ => if attributes.proper = true then return 1 else return -eperm

def fsyncCacheDir : Run Int := do
  let opened : Option Int ← act .openDirectory
  match opened with
  | some errno => return -errno
  | none => do
    let synced : Option Int ← act .fsyncDirectory
    let closed : Option Int ← act .closeDirectory
    match synced.or closed with
    | some errno => return -errno
    | none => return 0

/-- The calls that give a new file its owner, mode and content, up to the first that fails. -/
def fill (name : Name) (content : Str) : Run (Option Int) := do
  let chowned : Option Int ← act (.chown name)
  if chowned ≠ none then return chowned
  else do
    let chmodded : Option Int ← act (.chmod name)
    if chmodded ≠ none then return chmodded
    else do
      let written : Option Int ← act (.write name content)
      if written ≠ none then return written
      else act (.fsync name)

def abandon (name : Name) (rc : Int) : Run Int := do
  let _ ← act (.unlink name)
  let _ ← fsyncCacheDir
  return rc

def createState (name : Name) (content : Str) : Run Int := do
  let created : Option Int ← act (.create name)
  match created with
  | some errno => return -errno
  | none => do
    let filled ← fill name content
    let closed : Option Int ← act (.close name)
    match filled.or closed with
    | some errno => abandon name (-errno)
    | none => do
      let rc ← fsyncCacheDir
      if rc < 0 then abandon name rc else return 0

section Commands

variable (build : Build)

def createEnable (intent : Str) : Run Int :=
  match formatState build intent armed with
  | none => return -eoverflow
  | some content => createState .enable content

def createLatch (intent : Str) : Run Int :=
  match formatState build intent dispatchedState with
  | none => return -eoverflow
  | some content => createState .latch content

def after (needle : Str) : Str → Option Str
  | [] => if needle = [] then some [] else none
  | first :: rest =>
    if needle.isPrefixOf (first :: rest) then some ((first :: rest).drop needle.length)
    else after needle rest

/-- The part of `a90_auto_handoff_read_enable` that looks at the bytes. -/
def parseEnable (content : Str) : Int × Str :=
  match after "intent_sha256=".toList (cString content) with
  | none => (-einval, [])
  | some rest =>
    let intent := rest.takeWhile (· ≠ '\n')
    if rest.contains '\n' = true ∧ intent.length = 64 ∧ hex64Valid intent = true ∧
        formatState build intent armed = some (cString content) then (1, intent)
    else (-einval, [])

def readOpened (size : Nat) : Run (Int × Str) := do
  let read : Except Int Str ← act (.read .enable)
  match read with
  | .error errno => do
    let _ ← act (.close .enable)
    return (-errno, [])
  | .ok content => do
    let extra : Int ← act (.readMore .enable content.length)
    let closed : Option Int ← act (.close .enable)
    match (if extra = 0 then closed else none) with
    | some errno => return (-errno, [])
    | none =>
      if content.length = size ∧ extra = 0 then return parseEnable build content
      else return (-eoverflow, [])

/-- `a90_auto_handoff_read_enable`: its result, and the intent if that is 1. -/
def readEnable : Run (Int × Str) := do
  let stat : Stat ← act (.lstat .enable)
  match stat with
  | .absent => return (0, [])
  | .failed errno => return (-errno, [])
  | .found attributes size =>
    if attributes.proper = true ∧ 0 < size ∧ size < stateMax then do
      let opened : Option Int ← act (.openRead .enable)
      match opened with
      | some errno => return (-errno, [])
      | none => do
        let same : Option Int ← act (.fstat .enable)
        match same with
        | some errno => do
          let _ ← act (.close .enable)
          return (-errno, [])
        | none => readOpened build size
    else return (-eperm, [])

def armIntent (intent : Str) : Run Int := do
  let latchState ← statePath .latch
  if latchState ≠ 0 then return if 0 < latchState then -ealready else latchState
  else do
    let enableState ← statePath .enable
    if enableState ≠ 0 then return if 0 < enableState then -eexist else enableState
    else do
      let rc : Int ← act .qualify
      if rc < 0 then return rc
      else do
        let rc ← createEnable build intent
        if rc < 0 then return rc else return 0

def arm (argv : List Str) : Run Int :=
  match argv with
  | [_, token, intent] =>
    if token ≠ armToken then return -eperm
    else if bindingValid build = true ∧ hex64Valid intent = true then armIntent build intent
    else return -einval
  | _ => return -eperm

def cancelEnable (intent : Str) : Run Int := do
  let (state, observed) ← readEnable build
  if state = 1 ∧ observed = intent then do
    let unlinked : Option Int ← act (.unlink .enable)
    match unlinked with
    | some errno => return -errno
    | none => do
      let rc ← fsyncCacheDir
      return if rc < 0 then rc else 0
  else return if state < 0 then state else -estale

/-- `a90_auto_handoff_arm_reboot_cmd`.  A reboot that is carried out does not return. -/
def armReboot (argv : List Str) : Run Int := do
  let rc ← arm build argv
  if rc < 0 then return rc
  else do
    act .sync
    let failure : Option Int ← act .reboot
    let cancelled ← cancelEnable build (argv.getD 2 [])
    act .sync
    if cancelled < 0 then return cancelled else return -failure.getD eio

def dispatch : Run Int := do
  let _ : Int ← act .publish
  let rc : Int ← act .switchRoot
  if rc < 0 then return rc else return -eio

def runOnce : Run Int :=
  if bindingValid build = false then return -einval
  else do
    let latchState ← statePath .latch
    if 0 < latchState then return 1
    else if latchState < 0 then return latchState
    else do
      let (enableState, intent) ← readEnable build
      if enableState = 0 then return 2
      else if enableState < 0 then return enableState
      else do
        let rc : Int ← act .qualify
        if rc < 0 then return rc
        else do
          let rc ← createLatch build intent
          if rc < 0 then return rc else dispatch

inductive Call where
  | arm (argv : List Str)
  | armReboot (argv : List Str)
  | runOnce

def Call.run : Call → Run Int
  | .arm argv => Handoff.arm build argv
  | .armReboot argv => Handoff.armReboot build argv
  | .runOnce => Handoff.runOnce build

end Commands

/-! The file system.  Every call may fail; one that fails has no effect, except that a failed
write may have written a part. -/

def World.alter (world : World) (name : Name) (change : CacheFile → CacheFile) : World :=
  { world with files := Function.update world.files name (change (world.files name)) }

def World.settle (world : World) : World :=
  { world with files := fun name => (world.files name).settle }

def Attempts (world : World) (name : Name) (change : CacheFile → CacheFile)
    (answer : Option Int) (after : World) : Prop :=
  (answer = none ∧ after = world.alter name change) ∨
    ∃ errno, 0 < errno ∧ answer = some errno ∧ after = world

def Fails (world : World) (answer : Option Int) (after : World) : Prop :=
  after = world ∧ ∀ errno, answer = some errno → 0 < errno

inductive Stats (file : CacheFile) : Stat → Prop
  | absent (hnone : file.now = none) : Stats file .absent
  | failed {errno : Int} (hpositive : 0 < errno) : Stats file (.failed errno)
  | found {stored : Stored Char Attributes} (hsome : file.now = some stored) :
      Stats file (.found stored.attributes stored.content.length)

/-- A read returns a part of the file from its start, up to the size of the buffer. -/
inductive Reads (file : CacheFile) : Except Int Str → Prop
  | part {stored : Stored Char Attributes} {content : Str} (hsome : file.now = some stored)
      (hpart : content <+: stored.content) (hbuffer : content.length < stateMax) :
      Reads file (.ok content)
  | failed {errno : Int} (hpositive : 0 < errno) : Reads file (.error errno)

def Acts : (op : Op) → World → Answer op → World → Prop
  | .lstat name, world, answer, next => Stats (world.files name) answer ∧ next = world
  | .read name, world, answer, next => Reads (world.files name) answer ∧ next = world
  | .readMore name offset, world, answer, next =>
    (answer = 0 → ∀ stored, (world.files name).now = some stored →
      stored.content.length ≤ offset) ∧ next = world
  | .create name, world, answer, next =>
    (∃ attributes, (world.files name).now = none ∧ answer = none ∧
      next = world.alter name (Path.create attributes)) ∨
      ∃ errno, 0 < errno ∧ answer = some errno ∧ next = world
  | .chown name, world, answer, next =>
    Attempts world name (Path.setAttributes fun attributes => { attributes with owned := true })
      answer next
  | .chmod name, world, answer, next =>
    Attempts world name
      (Path.setAttributes fun attributes => { attributes with confined := true }) answer next
  | .write name content, world, answer, next =>
    (answer = none ∧ next = world.alter name (Path.write content)) ∨
      ∃ errno part, 0 < errno ∧ part <+: content ∧ answer = some errno ∧
        next = world.alter name (Path.write part)
  | .fsync name, world, answer, next => Attempts world name Path.flush answer next
  | .unlink name, world, answer, next => Attempts world name Path.unlink answer next
  | .fsyncDirectory, world, answer, next =>
    (answer = none ∧ next = world.settle) ∨ ∃ errno, 0 < errno ∧ answer = some errno ∧ next = world
  | .sync, world, _, next => next = world ∨ next = world.settle
  | .openRead _, world, answer, next => Fails world answer next
  | .fstat _, world, answer, next => Fails world answer next
  | .close _, world, answer, next => Fails world answer next
  | .openDirectory, world, answer, next => Fails world answer next
  | .closeDirectory, world, answer, next => Fails world answer next
  | .reboot, world, answer, next => Fails world answer next
  | .qualify, world, _, next => next = world
  | .publish, world, _, next => next = world
  | .switchRoot, world, _, next =>
    next = { world with dispatches := world.dispatches ++ [⟨world.files⟩] }

def machine : Machine Op Answer World where
  during op world now := match op with
    | .write name content => ∃ part, part <+: content ∧ now = world.alter name (Path.write part)
    | _ => False
  after := Acts

structure World.Crash (world next : World) : Prop where
  files : ∀ name, (world.files name).Crash (next.files name)
  dispatches : next.dispatches = world.dispatches

/-- A file that the reader of the enable file takes at its word: it is not longer than an armed
text, or it holds no NUL and is on the medium. -/
def Plain (build : Build) (stored : Stored Char Attributes) : Prop :=
  stored.content.length ≤ (stateText build (List.replicate 64 '0') armed).length ∨
    stored.flushed = true ∧ '\x00' ∉ stored.content

/-- What a sequence of calls, cut off by losses of power, can lead to, from any latch file and a
plain enable file. -/
inductive Reaches (build : Build) : World → Prop
  | start {files : Name → CacheFile} (hplain : (files .enable).All (Plain build)) :
      Reaches build { files }
  | called {world next : World} {call : Call} {rc : Int} (hearlier : Reaches build world)
      (hreturns : Returns machine (call.run build) world rc next) : Reaches build next
  | crashed {world now next : World} {call : Call} (hearlier : Reaches build world)
      (hvisits : Visits machine (call.run build) world now) (hcrash : now.Crash next) :
      Reaches build next

end NativeInitLab.Handoff
