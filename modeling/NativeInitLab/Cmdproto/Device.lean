import NativeInitLab.Cmdproto.Controller
import NativeInitLab.Library.FixedWidth

namespace NativeInitLab.Cmdproto.Device

open Controller FixedWidth Numerals

/-! The bytes that the device writes for one command in protocol mode. -/

def crlf : Text := [cr, lf]

/-- `vsnprintf` into the buffer of `a90_console_printf`, which cuts at 1023 bytes. -/
def consolePrintf (text : Text) : Text := text.take 1023

def signed (number : Int) : Text :=
  if number < 0 then Host.minus :: decimal number.natAbs else decimal number.natAbs

/-- What `strerror` is documented to return: a short message of one line. -/
structure Libc where
  strerror : Int → Text
  one_line : ∀ error, lf ∉ strerror error ∧ cr ∉ strerror error
  no_nul : ∀ error, 0 ∉ strerror error
  valid : ∀ error, Utf8.valid (strerror error) = true
  short : ∀ error, (strerror error).length ≤ 512

/-- An entry of `command_table`; every name in it is one of the protocol's and at most 34
bytes long. -/
structure ShellCommand where
  name : Text
  flags : Nat
  name_valid : Host.commandName name = true
  name_size : name.length ≤ 34
  flags_lt : flags < 2 ^ 32

def cmdNone : Nat := 0
def cmdNoDone : Nat := 16

def enoent : Int := 2
def ebusy : Int := 16
def einval : Int := 22
def enotsup : Int := 95

def cmdprotoStatus (result : Int) (unknown busy : Bool) : Text :=
  if unknown then ascii "unknown"
  else if busy then ascii "busy"
  else if result = 0 then ascii "ok"
  else ascii "error"

def cmdprotoBegin (seq : Nat) (command : Text) (argc flags : Nat) : Text :=
  ascii "A90P1 BEGIN seq=" ++ decimal seq ++ ascii " cmd=" ++ command ++
    ascii " argc=" ++ decimal argc ++ ascii " flags=0x" ++ hex flags ++ crlf

def cmdprotoEnd (seq : Nat) (command : Text) (result resultErrno durationMs : Int)
    (flags : Nat) (status : Text) : Text :=
  ascii "A90P1 END seq=" ++ decimal seq ++ ascii " cmd=" ++ command ++
    ascii " rc=" ++ signed result ++ ascii " errno=" ++ signed resultErrno ++
    ascii " duration_ms=" ++ signed durationMs ++ ascii " flags=0x" ++ hex flags ++
    ascii " status=" ++ status ++ crlf

/-- `-result` on `int`, which wraps for the least of them. -/
def shellResultErrno (result : Int) : Int :=
  if result < 0 then Int.bmod (-result) (2 ^ 32) else 0

def printResult (libc : Libc) (command : ShellCommand) (result resultErrno durationMs : Int) :
    Text :=
  if command.flags &&& cmdNoDone ≠ 0 ∧ result = 0 then []
  else if result = 0 then
    consolePrintf (ascii "[done] " ++ command.name ++ ascii " (" ++ signed durationMs ++
      ascii "ms)" ++ crlf)
  else if result < 0 then
    consolePrintf (ascii "[err] " ++ command.name ++ ascii " rc=" ++ signed result ++
      ascii " errno=" ++ signed resultErrno ++ ascii " (" ++ libc.strerror resultErrno ++
      ascii ") (" ++ signed durationMs ++ ascii "ms)" ++ crlf)
  else
    consolePrintf (ascii "[err] " ++ command.name ++ ascii " rc=" ++ signed result ++
      ascii " (" ++ signed durationMs ++ ascii "ms)" ++ crlf)

/-- What a handler writes to the console and returns, and the clock around it.  The
output includes what stopping the status display writes before it. -/
structure Reply where
  output : Text
  result : Int
  startedMs : Int
  endedMs : Int
  result_ge : -2 ^ 31 ≤ result
  result_lt : result < 2 ^ 31
  started_ge : 0 ≤ startedMs
  ended_lt : endedMs < 2 ^ 63

def Reply.durationMs (reply : Reply) : Int :=
  if reply.endedMs - reply.startedMs < 0 then 0 else reply.endedMs - reply.startedMs

/-- The frame of one command: the values of its two markers and the bytes between. -/
structure Report where
  seq : Nat
  command : Text
  argc : Nat
  flags : Nat
  result : Int
  resultErrno : Int
  durationMs : Int
  status : Text
  body : Text

def Report.opening (report : Report) : Text :=
  cmdprotoBegin report.seq report.command report.argc report.flags

def Report.closing (report : Report) : Text :=
  cmdprotoEnd report.seq report.command report.result report.resultErrno report.durationMs
    report.flags report.status

def Report.emitted (report : Report) : Text :=
  consolePrintf report.opening ++ report.body ++ consolePrintf report.closing

structure Shell where
  libc : Libc
  build : Build
  table : List ShellCommand
  menuActive : Bool
  powerPageActive : Bool
  handler : ShellCommand → List Text → Reply

def findCommand (table : List ShellCommand) (name : Text) : Option ShellCommand :=
  table.find? fun command => command.name == name

def handled (shell : Shell) (seq : Nat) (command : ShellCommand) (argv : List Text)
    (output : Text) (result durationMs : Int) : Report where
  seq
  command := command.name
  argc := argv.length
  flags := command.flags
  result
  resultErrno := shellResultErrno result
  durationMs
  status := cmdprotoStatus result false false
  body := output ++ printResult shell.libc command result (shellResultErrno result) durationMs

def minimalRemovedDoomCommand (build : Build) (argv : List Text) : Bool :=
  build.noDoomCommandSurface &&
    (argEquals argv 0 "video" && argEquals argv 1 "demo" && argEquals argv 2 "doom")

def videoDemoMinimalUsage : Text :=
  ascii "usage: video demo [bars|checker|mono|0xRRGGBB|badapple|badapple-scale|nyan] " ++
    ascii "[--trust-cache] [--frames N] [--present setcrtc|pageflip] " ++
    ascii "[--layout full|player-hud] " ++
    ascii "[--sync-audio-status /cache/a90-audio-play/status.txt] [--sync-audio-pid PID] " ++
    ascii "[--sync-wait-ms N] [--sync-start-offset-ms N]" ++ crlf

/-- What `video_demo_doom_removed` prints; it returns `-ENOTSUP`. -/
def videoDemoDoomRemoved : Text :=
  consolePrintf (ascii "video.demo.doom=removed" ++ crlf) ++ consolePrintf videoDemoMinimalUsage

def unknown (seq : Nat) (argv : List Text) : Report where
  seq
  command := argv.headD []
  argc := argv.length
  flags := cmdNone
  result := -enoent
  resultErrno := enoent
  durationMs := 0
  status := cmdprotoStatus (-enoent) true false
  body := consolePrintf (ascii "[err] unknown command: " ++ argv.headD [] ++ crlf)

def refused (seq : Nat) (command : ShellCommand) (argv : List Text) (reason : BusyReason) :
    Report where
  seq
  command := command.name
  argc := argv.length
  flags := command.flags
  result := -ebusy
  resultErrno := ebusy
  durationMs := 0
  status := cmdprotoStatus (-ebusy) false true
  body := consolePrintf (busyMessage reason ++ crlf)

/-- `execute_shell_command` with `protocol_v1`, for a vector that is not empty; `seq` is
the number of this command. -/
def executeShellCommand (shell : Shell) (seq : Nat) (argv : List Text) : Report :=
  match findCommand shell.table (argv.headD []) with
  | none => unknown seq argv
  | some command =>
    if minimalRemovedDoomCommand shell.build argv then
      handled shell seq command argv videoDemoDoomRemoved (-enotsup) 0
    else
      match commandBusyReasonEx shell.build command.flags argv shell.menuActive
          shell.powerPageActive with
      | some reason => refused seq command argv reason
      | none =>
        let reply := shell.handler command argv
        handled shell seq command argv reply.output reply.result reply.durationMs

def decodeFailure (libc : Libc) (seq : Nat) (result resultErrno : Int) : Report where
  seq
  command := ascii "cmdv1x"
  argc := 1
  flags := cmdNone
  result
  resultErrno
  durationMs := 0
  status := ascii "error"
  body := consolePrintf (ascii "[err] cmdv1x decode rc=" ++ signed result ++
    ascii " errno=" ++ signed resultErrno ++ ascii " (" ++ libc.strerror resultErrno ++
    ascii ")" ++ crlf)

/-- `print_cmdv1x_error` on the result of the decoder; the negation is that of `int`. -/
def cmdv1xError (libc : Libc) (seq : Nat) (result : Int) : Report :=
  let resultErrno := Int.bmod (-result) (2 ^ 32)
  if resultErrno ≤ 0 then decodeFailure libc seq (-einval) einval
  else decodeFailure libc seq result resultErrno

def printPrompt (cwd : Text) : Text := consolePrintf (ascii "a90:" ++ cwd ++ ascii "# ")

end NativeInitLab.Cmdproto.Device
