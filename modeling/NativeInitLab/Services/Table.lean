import Mathlib.Logic.Function.Basic
import NativeInitLab.Library.CrashProgram
import NativeInitLab.Library.Processes

namespace NativeInitLab.Services

open CrashProgram CrashProgram.Program Processes

/-! The service table of native init, its two reapers and the stop of a service. -/

inductive Service where
  | hud
  | tcpctl
  | adbd
  | rshell
  | longsoak
  deriving DecidableEq

def serviceDescriptors : List Service := [.hud, .tcpctl, .adbd, .rshell, .longsoak]

inductive Signal where
  | term
  | kill
  deriving DecidableEq

/-- A signal that `a90_service_stop` has sent: the process that the table entry was set for, and
the process that the signal has reached. -/
structure Sent where
  service : Service
  signal : Signal
  owner : Option Nat
  reached : Option Nat

structure Report where
  service : Service
  owner : Option Nat
  rc : Int
  status : Int

/-- The kernel, `service_pids`, and for the statements: the process that each entry was set for,
the processes that were started, and what was sent and reported. -/
structure World where
  kernel : Kernel
  servicePids : Service → Int := fun _ => -1
  owner : Service → Option Nat := fun _ => none
  started : List (Service × Nat) := []
  sent : List Sent := []
  reports : List Report := []

def World.elapse (world : World) (kernel : Kernel) : World := { world with kernel }

inductive Waited where
  | got (status : Int)
  | running
  | failed (errno : Int)

inductive Op where
  | fork (service : Service)
  | servicePid (service : Service)
  | setPid (service : Service) (pid : Int)
  | clear (service : Service)
  | waitpid (pid : Int) (nohang : Bool)
  | waitAny
  | kill (service : Service) (pid : Int) (signal : Signal)
  | clock
  | sleep
  | report (service : Service) (rc status : Int)

abbrev Answer : Op → Type
  | .fork _ => Except Int Int
  | .servicePid _ => Int
  | .waitpid _ _ => Waited
  | .waitAny => Waited
  | .kill _ _ _ => Option Int
  | .clock => Int
  | _ => Unit

abbrev Run := Program Op Answer

def act (op : Op) : Run (Answer op) := perform op

def echild : Int := 10

def esrch : Int := 3

def start (service : Service) : Run Int := do
  let forked : Except Int Int ← act (.fork service)
  match forked with
  | .error errno => return -errno
  | .ok pid => do
    act (.setPid service pid)
    return 0

/-- `a90_run_reap_pid`: its result, and the status if the result is 1. -/
def reapPid (pid : Int) : Run (Int × Int) :=
  if pid ≤ 0 then return (1, 0)
  else do
    let waited : Waited ← act (.waitpid pid true)
    match waited with
    | .got status => return (1, status)
    | .running => return (0, 0)
    | .failed errno => if errno = echild then return (1, 0) else return (-errno, 0)

def reap (service : Service) : Run (Int × Int) := do
  let pid : Int ← act (.servicePid service)
  if pid ≤ 0 then return (0, 0)
  else do
    let (rc, status) ← reapPid pid
    if rc = 1 then do
      act (.report service 1 status)
      act (.clear service)
      return (1, status)
    else return (rc, 0)

/-- `a90_reaper_reap_orphans`.  A run whose fuel is spent is one that is still in the loop. -/
def reapOrphans (count : Nat) : Nat → Run (Option Int)
  | 0 => return none
  | fuel + 1 => do
    let waited : Waited ← act .waitAny
    match waited with
    | .got _ => reapOrphans (count + 1) fuel
    | .running => return some count
    | .failed errno => if errno = echild then return some count else return some (-errno)

def reapEach : List Service → Run Unit
  | [] => return ()
  | service :: rest => do
    let _ ← reap service
    reapEach rest

def reapAll (fuel : Nat) : Run (Option Int) := do
  reapEach serviceDescriptors
  reapOrphans 0 fuel

def forceExit (service : Service) (pid : Int) : Run (Option (Int × Int)) := do
  let failure : Option Int ← act (.kill service pid .kill)
  match failure.filter (· ≠ esrch) with
  | some errno => return some (-errno, 0)
  | none => do
    let waited : Waited ← act (.waitpid pid false)
    match waited with
    | .got status => return some (0, status)
    | .running => return some (0, 0)
    | .failed errno => if errno = echild then return some (0, 0) else return some (-errno, 0)

def awaitExit (service : Service) (pid deadline : Int) : Nat → Run (Option (Int × Int))
  | 0 => return none
  | fuel + 1 => do
    let now : Int ← act .clock
    if now < deadline then do
      let (rc, status) ← reapPid pid
      if rc = 1 then return some (0, status)
      else if rc < 0 then return some (rc, 0)
      else do
        act .sleep
        awaitExit service pid deadline fuel
    else forceExit service pid

/-- `a90_run_stop_pid` for a service: its result and the status that it stores. -/
def stopPid (fuel : Nat) (service : Service) (pid termTimeoutMs : Int) : Run (Option (Int × Int)) :=
  if pid ≤ 0 then return some (0, 0)
  else do
    let failure : Option Int ← act (.kill service pid .term)
    match failure.filter (· ≠ esrch) with
    | some errno => return some (-errno, 0)
    | none => do
      let now : Int ← act .clock
      awaitExit service pid (now + if termTimeoutMs ≤ 0 then 2000 else termTimeoutMs) fuel

def stop (fuel : Nat) (service : Service) (timeoutMs : Int) : Run (Option Int) := do
  let pid : Int ← act (.servicePid service)
  if pid ≤ 0 then return some 0
  else do
    let stopped ← stopPid fuel service pid timeoutMs
    match stopped with
    | none => return none
    | some (rc, status) => do
      act (.clear service)
      act (.report service rc status)
      return some rc

inductive Call where
  | start (service : Service)
  | reap (service : Service)
  | reapAll
  | reapOrphans
  | stop (service : Service) (timeoutMs : Int)

def Call.run (fuel : Nat) : Call → Run (Option Int)
  | .start service => some <$> Services.start service
  | .reap service => (fun result => some result.1) <$> Services.reap service
  | .reapAll => Services.reapAll fuel
  | .reapOrphans => Services.reapOrphans 0 fuel
  | .stop service timeoutMs => Services.stop fuel service timeoutMs

section Answers

/-- The outcomes of a wait among the children that `wanted` selects. -/
inductive Waits (world : World) (wanted : Process → Prop) (nohang : Bool) : Waited → World → Prop
  | got {process : Process} {status : Int} (hmem : process ∈ world.kernel.processes)
      (hchild : process.child = true) (hwanted : wanted process)
      (hstatus : process.status = some status) :
      Waits world wanted nohang (.got status) (world.elapse (world.kernel.collect process.id))
  | running {process : Process} (hmem : process ∈ world.kernel.processes)
      (hchild : process.child = true) (hwanted : wanted process) (hnohang : nohang = true)
      (hlive : ∀ other ∈ world.kernel.processes, other.child = true → wanted other →
        other.status = none) : Waits world wanted nohang .running world
  | nobody (hnone : ∀ process ∈ world.kernel.processes, process.child = true →
        ¬ wanted process) : Waits world wanted nohang (.failed echild) world
  | failed {errno : Int} (hpositive : 0 < errno) (hother : errno ≠ echild) :
      Waits world wanted nohang (.failed errno) world

def World.signalled (world : World) (service : Service) (signal : Signal)
    (reached : Option Nat) : World :=
  { world with sent := world.sent ++ [⟨service, signal, world.owner service, reached⟩] }

inductive Kills (world : World) (service : Service) (pid : Int) (signal : Signal) :
    Option Int → World → Prop
  | reached {process : Process} (hfind : world.kernel.find pid = some process) :
      Kills world service pid signal none (world.signalled service signal (some process.id))
  | nobody (hfind : world.kernel.find pid = none) :
      Kills world service pid signal (some esrch) (world.signalled service signal none)
  | refused {errno : Int} (hpositive : 0 < errno) (hother : errno ≠ esrch) :
      Kills world service pid signal (some errno) (world.signalled service signal none)

inductive Forks (world : World) (service : Service) : Except Int Int → World → Prop
  | child {pid : Nat} (hpositive : 0 < pid) (hfree : pid ∉ world.kernel.processes.map Process.pid) :
      Forks world service (.ok pid) { world with
          kernel := world.kernel.spawn pid true hfree
          started := world.started ++ [(service, world.kernel.born)] }
  | failed {errno : Int} (hpositive : 0 < errno) : Forks world service (.error errno) world

def World.setPid (world : World) (service : Service) (pid : Int) : World :=
  { world with
    servicePids := Function.update world.servicePids service pid
    owner := Function.update world.owner service ((world.kernel.find pid).map Process.id) }

def World.clear (world : World) (service : Service) : World :=
  { world with servicePids := Function.update world.servicePids service (-1) }

def World.report (world : World) (service : Service) (rc status : Int) : World :=
  { world with reports := world.reports ++ [⟨service, world.owner service, rc, status⟩] }

def Acts : (op : Op) → World → Answer op → World → Prop
  | .fork service, world, answer, after => Forks world service answer after
  | .servicePid service, world, answer, after =>
    answer = world.servicePids service ∧ after = world
  | .setPid service pid, world, _, after => after = world.setPid service pid
  | .clear service, world, _, after => after = world.clear service
  | .waitpid pid nohang, world, answer, after =>
    Waits world (fun process => (process.pid : Int) = pid) nohang answer after
  | .waitAny, world, answer, after => Waits world (fun _ => True) true answer after
  | .kill service pid signal, world, answer, after =>
    Kills world service pid signal answer after
  | .clock, world, _, after => after = world
  | .sleep, world, _, after => after = world
  | .report service rc status, world, _, after => after = world.report service rc status

/-- Before and during each operation, other processes go on.  `allowed` is a condition on the
worlds in which init waits for any child. -/
def machine (allowed : World → Prop) : Machine Op Answer World where
  during _ world now := ∃ kernel, Elapses world.kernel kernel ∧ now = world.elapse kernel
  after op world answer after := ∃ kernel, Elapses world.kernel kernel ∧
    (op = .waitAny → allowed (world.elapse kernel)) ∧
    Acts op (world.elapse kernel) answer after

inductive Reaches (allowed : World → Prop) : World → Prop
  | boot (kernel : Kernel) : Reaches allowed { kernel }
  | called {world after : World} {call : Call} {fuel : Nat} {rc : Int}
      (hearlier : Reaches allowed world)
      (hreturns : Returns (machine allowed) (call.run fuel) world (some rc) after) :
      Reaches allowed after
  | elapsed {world : World} {kernel : Kernel} (hearlier : Reaches allowed world)
      (helapses : Elapses world.kernel kernel) : Reaches allowed (world.elapse kernel)

end Answers

end NativeInitLab.Services
