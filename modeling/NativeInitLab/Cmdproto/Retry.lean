import NativeInitLab.Cmdproto.Controller
import NativeInitLab.Cmdproto.Request

namespace NativeInitLab.Cmdproto.Host

open Lockstep

/-! The retry loop around one exchange with the bridge. -/

def safeRetryCommands : List Text :=
  ["version", "status", "bootstatus", "selftest", "pid1guard", "runtime", "storage",
    "mountsd", "helpers", "userland", "service", "netservice", "rshell", "diag", "wifi",
    "wififeas", "wifiinv", "logpath", "hudlog", "timeline", "last", "pwd", "uname",
    "mounts", "ls", "cat", "stat", "screenapp"].map ascii

def commandAllowsRetry (command : List Str) : Bool :=
  match command with
  | [] => false
  | name :: _ => safeRetryCommands.contains (utf8 name)

/-- An unsupported mode makes every exchange fail before it sends. -/
inductive InputMode where
  | normal
  | double
  | slow
  deriving DecidableEq

def bridgeSerialMissingText : Str := "serial device is not connected".toList
def bridgeBusyText : Str := "busy: another client is active".toList
def endPrefix : Str := "A90P1 END ".toList
def promptText : Str := "a90:/#".toList

def strip (text : Str) : Str :=
  ((text.dropWhile isSpace).reverse.dropWhile isSpace).reverse

def normalizeNewlines : Str → Str
  | [] => []
  | '\r' :: '\n' :: rest => '\n' :: normalizeNewlines rest
  | character :: rest =>
    (if character = '\r' then '\n' else character) :: normalizeNewlines rest

def promptOnlyCmdv1Echo (text : Str) : Bool :=
  let lines := (((normalizeNewlines text).splitOn '\n').map strip).filter (· != [])
  lines != [] && promptText ∈ lines && lines.all fun line =>
      line == promptText || "cmdv1 ".toList.isPrefixOf line || "cmdv1x ".toList.isPrefixOf line

def shouldRetryCmdv1Exchange (text : Str) (mode : InputMode) : Bool :=
  if strip text = [] ∨ bridgeSerialMissingText <:+: text ∨ bridgeBusyText <:+: text then true
  else if mode ≠ .normal ∧ promptOnlyCmdv1Echo text = true then true
  else mode ≠ .normal ∧ "[err] unknown command:".toList <:+: text

/-- What `bridge_exchange` comes to; `sent` says whether an exception came after the first
byte of the command line was written. -/
inductive Exchange where
  | socketError (sent : Bool) (message : Str)
  | failure (sent : Bool) (message : String)
  | output (text : Str)

def Exchange.sends : Exchange → Nat
  | .socketError sent _ => sent.toNat
  | .failure sent _ => sent.toNat
  | .output _ => 1

inductive Rejected where
  | output (text : Str)
  | mismatch (expected actual : Text)

inductive Failure where
  | encoding (message : String)
  | socket (message : Str)
  | exchange (message : String)
  | framing (message : String)
  | mismatch (expected actual : Text)
  | busy (text : Str)
  | timeout (lastError : Option Str) (lastText : Option Rejected)

structure Run where
  sends : Nat
  result : Except Failure ProtocolResult

def parsed (sha256 : Text → Text) (text : Str) : Except Failure ProtocolResult :=
  match parseProtocolOutput sha256 (utf8 text) with
  | .ok result => .ok result
  | .error message => .error (.framing message)

def mismatched (result : ProtocolResult) (command : List Str) : Prop :=
  utf8 (command.headD []) ≠ [] ∧ field result.endFields "cmd" ≠ [] ∧
    field result.endFields "cmd" ≠ utf8 (command.headD [])

instance (result : ProtocolResult) (command : List Str) :
    Decidable (mismatched result command) := inferInstanceAs (Decidable (_ ∧ _))

inductive Next where
  | stop (result : Except Failure ProtocolResult)
  | again (lastError : Option Str) (lastText : Option Rejected)

def turn (sha256 : Text → Text) (allowRetry : Bool) (mode : InputMode) (command : List Str)
    (lastError : Option Str) (lastText : Option Rejected) : Exchange → Next
  | .socketError _ message =>
    if allowRetry then .again (some message) lastText else .stop (.error (.socket message))
  | .failure _ message => .stop (.error (.exchange message))
  | .output text =>
    if endPrefix <:+: text then
      match parsed sha256 text with
      | .error failure => .stop (.error failure)
      | .ok result =>
        let expected := utf8 (command.headD [])
        let actual := field result.endFields "cmd"
        if mismatched result command then
          if allowRetry = false ∨ mode = .normal then
            .stop (.error (.mismatch expected actual))
          else .again lastError (some (.mismatch expected actual))
        else .stop (.ok result)
    else if bridgeBusyText <:+: text then
      if allowRetry then .again lastError (some (.output text))
      else .stop (.error (.busy text))
    else if allowRetry = false then .stop (parsed sha256 text)
    else if shouldRetryCmdv1Exchange text mode = false then .stop (parsed sha256 text)
    else .again lastError (some (.output text))

def exchangeLoop (sha256 : Text → Text) (allowRetry : Bool) (mode : InputMode)
    (command : List Str) (lastError : Option Str) (lastText : Option Rejected) :
    List Exchange → Run
  | [] => ⟨0, .error (.timeout lastError lastText)⟩
  | exchange :: rest =>
    match turn sha256 allowRetry mode command lastError lastText exchange with
    | .stop result => ⟨exchange.sends, result⟩
    | .again lastError lastText =>
      let run := exchangeLoop sha256 allowRetry mode command lastError lastText rest
      { run with sends := exchange.sends + run.sends }

def runCmdv1Command (sha256 : Text → Text) (command : List Str) (retryUnsafe : Bool)
    (mode : InputMode) (exchanges : List Exchange) : Run :=
  let allowRetry := retryUnsafe || commandAllowsRetry command
  match encodeCmdv1Line command with
  | .error message => ⟨0, .error (.encoding message)⟩
  | .ok _ => exchangeLoop sha256 allowRetry mode command none none exchanges

section Loop

variable {sha256 : Text → Text} {mode : InputMode} {command : List Str}
  {lastError : Option Str} {lastText : Option Rejected}

theorem Exchange.sends_le (exchange : Exchange) : exchange.sends ≤ 1 := by
  cases exchange with
  | socketError sent message => exact Bool.toNat_le sent
  | failure sent message => exact Bool.toNat_le sent
  | output text => exact Nat.le_refl 1

theorem turn_stops (exchange : Exchange) :
    ∃ result, turn sha256 false mode command lastError lastText exchange = .stop result := by
  cases exchange with
  | socketError sent message => exact ⟨_, rfl⟩
  | failure sent message => exact ⟨_, rfl⟩
  | output text =>
    by_cases hend : endPrefix <:+: text
    · cases hparsed : parsed sha256 text with
      | error failure => exact ⟨.error failure, by simp [turn, hend, hparsed]⟩
      | ok result =>
        by_cases hmismatched : mismatched result command
        · exact ⟨.error (.mismatch (utf8 (command.headD [])) (field result.endFields "cmd")),
            by simp [turn, hend, hparsed, hmismatched]⟩
        · exact ⟨.ok result, by simp [turn, hend, hparsed, hmismatched]⟩
    · by_cases hbusy : bridgeBusyText <:+: text
      · exact ⟨.error (.busy text), by simp [turn, hend, hbusy]⟩
      · exact ⟨parsed sha256 text, by simp [turn, hend, hbusy]⟩

theorem exchangeLoop_once (exchanges : List Exchange) :
    (exchangeLoop sha256 false mode command lastError lastText exchanges).sends ≤ 1 := by
  cases exchanges with
  | nil => exact Nat.zero_le 1
  | cons exchange rest =>
    obtain ⟨result, hresult⟩ := turn_stops exchange
    rw [exchangeLoop, hresult]
    exact exchange.sends_le

theorem commandAllowsRetry_iff :
    commandAllowsRetry command = true ↔ utf8 (command.headD []) ∈ safeRetryCommands := by
  cases command with
  | nil => decide
  | cons name arguments => exact List.contains_iff_mem

theorem encodeCmdv1Line_of_safe (hsafe : utf8 (command.headD []) ∈ safeRetryCommands)
    (hnul : ∀ argument ∈ command, '\x00' ∉ argument) :
    ∃ line, encodeCmdv1Line command = .ok line := by
  have hnames : ∀ name ∈ safeRetryCommands, commandName name = true := by decide
  have hne : command ≠ [] := by
    rintro rfl
    revert hsafe
    decide
  rw [encodeCmdv1Line, require_of_pos _ hne, ok_bind, require_of_pos _ (hnames _ hsafe),
    ok_bind, require_of_pos _ hnul, ok_bind]
  split
  case isTrue => exact ⟨_, rfl⟩
  case isFalse =>
    rw [encodeCmdv1xArg_of_nul_free hnul]
    exact ⟨_, rfl⟩

theorem encodeCmdv1Line_nul (hnul : ¬ ∀ argument ∈ command, '\x00' ∉ argument) :
    ∃ message, encodeCmdv1Line command = .error message := by
  cases hline : encodeCmdv1Line command with
  | error message => exact ⟨message, rfl⟩
  | ok line =>
    simp only [encodeCmdv1Line, require_bind_eq_ok] at hline
    exact absurd hline.2.2.1 hnul

end Loop

/-- A vector that the controller does not take as read-only is sent at most once, whatever
the bridge does, exactly if its name is not one of those that are always retried (or it
holds a NUL and is never sent). -/
theorem retry_is_confined_iff (sha256 : Text → Text) (build : Controller.Build)
    (command : List Str) :
    (Controller.commandAllowedDuringMenuEx build (command.map utf8) = false →
      ∀ mode exchanges, (runCmdv1Command sha256 command false mode exchanges).sends ≤ 1) ↔
    (Controller.commandAllowedDuringMenuEx build (command.map utf8) = false →
      utf8 (command.headD []) ∉ safeRetryCommands ∨ ∃ argument ∈ command, '\x00' ∈ argument) := by
  refine imp_congr_right fun _ => ?_
  constructor
  · intro hall
    by_contra hcondition
    obtain ⟨hsafe, hnul⟩ := not_or.mp hcondition
    rw [not_not] at hsafe
    obtain ⟨line, hline⟩ := encodeCmdv1Line_of_safe hsafe
      fun argument hmember hargument => hnul ⟨argument, hmember, hargument⟩
    have htwice := hall .normal [.socketError true [], .socketError true []]
    rw [runCmdv1Command, commandAllowsRetry_iff.mpr hsafe, hline] at htwice
    simp [exchangeLoop, turn, Exchange.sends] at htwice
  · intro hcondition mode exchanges
    rcases hcondition with hsafe | ⟨argument, hmember, hargument⟩
    · have hretry : commandAllowsRetry command = false := by
        rw [Bool.eq_false_iff]
        exact fun htrue => hsafe (commandAllowsRetry_iff.mp htrue)
      rw [runCmdv1Command, hretry]
      cases encodeCmdv1Line command with
      | error message => exact Nat.zero_le 1
      | ok line => exact exchangeLoop_once exchanges
    · obtain ⟨message, hmessage⟩ :=
        encodeCmdv1Line_nul fun hnul => hnul argument hmember hargument
      rw [runCmdv1Command, hmessage]
      exact Nat.zero_le 1

/-- A service is started twice after a socket error. -/
theorem service_start_is_sent_twice :
    Controller.commandAllowedDuringMenuEx {} [ascii "service", ascii "start", ascii "adbd"] =
        false ∧
      (runCmdv1Command id ["service".toList, "start".toList, "adbd".toList] false .normal
        [.socketError true "timed out".toList, .socketError true "timed out".toList]).sends =
          2 := by
  decide +kernel

end NativeInitLab.Cmdproto.Host
