import NativeInitLab.Cmdproto.Host

namespace NativeInitLab.Cmdproto.Controller

/-! What the device allows while its menu is on the screen.  `argv` holds the command
name first. -/

structure Build where
  noBootWriteFlashSurface : Bool := false
  noDoomCommandSurface : Bool := false

def oneOf (name : Text) (names : List String) : Bool := (names.map ascii).contains name

def commandIsMenuControl (name : Text) : Bool :=
  oneOf name ["screenmenu", "menu", "hide", "hidemenu", "resume", "stophud"]

def commandWaitsForInput (name : Text) : Bool :=
  oneOf name ["blindmenu", "waitkey", "readinput", "waitgesture"]

def commandAllowedOnPowerPage (name : Text) : Bool :=
  oneOf name ["help", "version", "status", "bootstatus", "exposure", "policycheck",
    "storage", "timeline", "last", "logpath", "logcat", "inputlayout", "inputmonitor",
    "uname", "pwd", "mounts", "reattach", "stophud"]

def commandAllowedDuringMenu (name : Text) : Bool :=
  oneOf name ["help", "cmdmeta", "cmdgroups", "version", "status", "bootstatus",
    "exposure", "policycheck", "storage", "runtime", "timeline", "last", "logpath",
    "logcat", "inputlayout", "uname", "pwd", "mounts", "reattach"]

def argEquals (argv : List Text) (index : Nat) (value : String) : Bool :=
  argv[index]? == some (ascii value)

def subcmdOneOf (argv : List Text) (allowed : List String) : Bool :=
  argv.length == 2 && oneOf (argv.getD 1 []) allowed

def subcmdAbsentOrOneOf (argv : List Text) (allowed : List String) : Bool :=
  argv.length ≤ 1 || subcmdOneOf argv allowed

def helpersReadOnly (argv : List Text) : Bool :=
  subcmdAbsentOrOneOf argv ["status", "verbose", "manifest", "plan"] ||
    (argv.length == 3 && argEquals argv 1 "path")

def serviceReadOnly (argv : List Text) : Bool :=
  if argv.length ≤ 1 then true
  else if argEquals argv 1 "list" then argv.length == 2
  else if argEquals argv 1 "status" then argv.length == 2 || argv.length == 3
  else false

def wifiReadOnly (argv : List Text) : Bool :=
  argv.length == 1 || (argv.length == 2 && argEquals argv 1 "status") ||
    ((argv.length == 2 || argv.length == 3) && argEquals argv 1 "events") ||
    ((argv.length == 2 || argv.length == 3) && argEquals argv 1 "netevents") ||
    (argv.length == 3 && argEquals argv 1 "config" && argEquals argv 2 "status")

def longsoakAllowed (argv : List Text) : Bool :=
  subcmdAbsentOrOneOf argv ["status", "start", "stop", "path", "tail"] ||
    (argv.length == 3 && (argEquals argv 1 "start" || argEquals argv 1 "tail" ||
      (argEquals argv 1 "status" && argEquals argv 2 "verbose")))

/-- `command_allowed_during_menu_ex`, the policy by name and sub-command. -/
def commandAllowedDuringMenuEx (build : Build) (argv : List Text) : Bool :=
  let name := argv.headD []
  if commandAllowedDuringMenu name then true
  else if oneOf name ["selftest", "pid1guard"] then
    subcmdAbsentOrOneOf argv ["status", "verbose"]
  else if oneOf name ["helpers"] then helpersReadOnly argv
  else if oneOf name ["mountsd"] then subcmdOneOf argv ["status"]
  else if oneOf name ["hudlog", "netservice"] then subcmdAbsentOrOneOf argv ["status"]
  else if oneOf name ["boot-audit"] then argv.length ≤ 2
  else if build.noBootWriteFlashSurface = false ∧
      oneOf name ["boot-write-open-probe"] = true then argv.length == 2
  else if oneOf name ["diag", "wifiinv"] then subcmdAbsentOrOneOf argv ["summary", "paths"]
  else if oneOf name ["wififeas"] then
    subcmdAbsentOrOneOf argv ["summary", "gate", "paths"]
  else if oneOf name ["audio"] then
    subcmdAbsentOrOneOf argv ["status"] || subcmdOneOf argv ["adsp-status", "snd-status"]
  else if oneOf name ["video"] then subcmdAbsentOrOneOf argv ["status"]
  else if oneOf name ["wifi"] then wifiReadOnly argv
  else if oneOf name ["rshell"] then subcmdAbsentOrOneOf argv ["status", "audit"]
  else if oneOf name ["service"] then serviceReadOnly argv
  else if oneOf name ["longsoak"] then longsoakAllowed argv
  else false

inductive BusyReason where
  | autoMenu
  | dangerous
  | power
  deriving DecidableEq

def busyMessage : BusyReason → Text
  | .power => ascii "[busy] power menu active; send hide/q before commands"
  | .dangerous => ascii "[busy] auto menu active; hide/q before dangerous command"
  | .autoMenu => ascii "[busy] auto menu active; send hide/q before command"

def cmdDangerous : Nat := 4

def commandBusyReasonEx (build : Build) (flags : Nat) (argv : List Text)
    (menuActive powerPageActive : Bool) : Option BusyReason :=
  let name := argv.headD []
  if menuActive = false then none
  else if commandIsMenuControl name then none
  else if powerPageActive = false then
    if commandWaitsForInput name then some .autoMenu
    else if commandAllowedDuringMenuEx build argv then none
    else if flags &&& cmdDangerous ≠ 0 then some .dangerous
    else some .autoMenu
  else if commandAllowedOnPowerPage name then none
  else some .power

end NativeInitLab.Cmdproto.Controller
