import Mathlib.Data.List.Basic

namespace NativeInitLab.SerialBridge

/-! The bridge between one serial device and one TCP client.  What the system calls of an event
return is part of the event. -/

abbrev Bytes := List UInt8

/-- An `OSError`: `EAGAIN` or `EWOULDBLOCK`, or any other. -/
inductive Fault where
  | wouldBlock
  | failed
  deriving DecidableEq

/-- A loop of non-blocking writes: the counts that they return, then an error. -/
structure Transfer where
  counts : List Nat
  ending : Fault

/-- What `os.read` or `recv` comes to; no bytes are the end of the stream. -/
inductive Received where
  | data (bytes : Bytes)
  | fault (fault : Fault)

/-- `sendall` on a non-blocking socket: the bytes the socket took, and the error raised. -/
def sendall (ending : Fault) : Bytes → List Nat → Bytes × Option Fault
  | [], _ => ([], none)
  | _ :: _, [] => ([], some ending)
  | byte :: data, count :: counts =>
    let rest := sendall ending ((byte :: data).drop count) counts
    ((byte :: data).take count ++ rest.1, rest.2)

structure Written where
  written : Bytes
  rest : Bytes
  fault : Option Fault

def writeLoop (ending : Fault) : Bytes → List Nat → Written
  | [], _ => ⟨[], [], none⟩
  | byte :: buffer, [] => ⟨[], byte :: buffer, some ending⟩
  | byte :: buffer, 0 :: _ => ⟨[], byte :: buffer, none⟩
  | byte :: buffer, (count + 1) :: counts =>
    let loop := writeLoop ending ((byte :: buffer).drop (count + 1)) counts
    { loop with written := (byte :: buffer).take (count + 1) ++ loop.written }

/-- A serial connection, with the bytes that clients sent during it and those written. -/
structure Connection where
  fd : Nat
  received : Bytes := []
  written : Bytes := []

/-- An attached client, with the serial bytes read since and those its socket took. -/
structure Client where
  conn : Nat
  owed : Bytes := []
  handed : Bytes := []

inductive Departure where
  | closed
  | failed
  | full
  | serialLost
  deriving DecidableEq

/-- The fields of the bridge; `sockets`, `ended` and `departed` are its history. -/
structure Bridge where
  allowClientWithoutSerial : Bool
  serial : Option Connection := none
  serialTxBuffer : Bytes := []
  client : Option Client := none
  sockets : List Nat := []
  ended : List Connection := []
  departed : List (Client × Departure) := []

inductive Ready where
  | server (conn : Nat)
  | serial (fd : Nat) (reading : Option (Received × Transfer)) (writing : Option Transfer)
  | client (conn : Nat) (received : Received) (writes : Transfer)

namespace Bridge

def closeClient (bridge : Bridge) (reason : Departure) : Bridge :=
  match bridge.client with
  | none => bridge
  | some client => { bridge with
      client := none
      sockets := bridge.sockets.erase client.conn
      departed := bridge.departed ++ [(client, reason)] }

def closeSerial (bridge : Bridge) : Bridge :=
  match bridge.serial with
  | none => bridge
  | some connection =>
    { bridge with
      serial := none
      serialTxBuffer := []
      ended := bridge.ended ++ [connection] }.closeClient .serialLost

def openSerial (bridge : Bridge) (fd : Nat) : Bridge :=
  match bridge.serial with
  | none => { bridge with serial := some { fd } }
  | some _ => bridge

def acceptClient (bridge : Bridge) (conn : Nat) : Bridge :=
  let accepted := { bridge with sockets := conn :: bridge.sockets }
  if bridge.serial.isNone && !bridge.allowClientWithoutSerial then
    { accepted with sockets := accepted.sockets.erase conn }
  else if bridge.client.isSome then
    { accepted with sockets := accepted.sockets.erase conn }
  else { accepted with client := some { conn } }

def handOver (bridge : Bridge) (data : Bytes) (sends : Transfer) : Bridge :=
  match bridge.client with
  | none => bridge
  | some client =>
    let sent := sendall sends.ending data sends.counts
    let served := { bridge with client := some { client with
      owed := client.owed ++ data
      handed := client.handed ++ sent.1 } }
    match sent.2 with
    | none => served
    | some .wouldBlock => served.closeClient .full
    | some .failed => served.closeClient .failed

def forwardSerial (bridge : Bridge) (read : Received) (sends : Transfer) : Bridge :=
  match bridge.serial with
  | none => bridge
  | some _ =>
    match read with
    | .fault .wouldBlock => bridge
    | .fault .failed => bridge.closeSerial
    | .data [] => bridge.closeSerial
    | .data (byte :: data) => bridge.handOver (byte :: data) sends

def flushSerialTx (bridge : Bridge) (writes : Transfer) : Bridge :=
  match bridge.serial with
  | none => { bridge with serialTxBuffer := [] }
  | some connection =>
    let loop := writeLoop writes.ending bridge.serialTxBuffer writes.counts
    let flushed := { bridge with
      serial := some { connection with written := connection.written ++ loop.written }
      serialTxBuffer := loop.rest }
    if loop.fault = some .failed then flushed.closeSerial else flushed

def forwardClient (bridge : Bridge) (received : Received) (writes : Transfer) : Bridge :=
  match bridge.client with
  | none => bridge
  | some _ =>
    match received with
    | .fault .wouldBlock => bridge.closeClient .full
    | .fault .failed => bridge.closeClient .failed
    | .data [] => bridge.closeClient .closed
    | .data (byte :: data) =>
      match bridge.serial with
      | none => bridge
      | some connection =>
        { bridge with
          serial := some { connection with
            received := connection.received ++ byte :: data }
          serialTxBuffer := bridge.serialTxBuffer ++ byte :: data }.flushSerialTx writes

/-- One entry of the list that `select` returns; a stale key is passed over. -/
def serve (bridge : Bridge) : Ready → Bridge
  | .server conn => bridge.acceptClient conn
  | .serial fd reading writing =>
    if bridge.serial.map Connection.fd = some fd then
      let forwarded :=
        match reading with
        | none => bridge
        | some (read, sends) => bridge.forwardSerial read sends
      match writing with
      | none => forwarded
      | some writes => forwarded.flushSerialTx writes
    else bridge
  | .client conn received writes =>
    if bridge.client.map Client.conn = some conn then bridge.forwardClient received writes
    else bridge

end Bridge

/-- The parts of a tick: the identity check that loses the device, the reopening, and what is
ready. -/
inductive Action where
  | identityLost
  | reopened (fd : Nat)
  | ready (event : Ready)

structure Tick where
  identityLost : Bool
  reopened : Option Nat
  events : List Ready

def Tick.actions (tick : Tick) : List Action :=
  (if tick.identityLost then [.identityLost] else []) ++
    (tick.reopened.map Action.reopened).toList ++ tick.events.map Action.ready

def Bridge.act (bridge : Bridge) : Action → Bridge
  | .identityLost => bridge.closeSerial
  | .reopened fd => bridge.openSerial fd
  | .ready event => bridge.serve event

structure Step where
  before : Bridge
  action : Action

def Step.after (step : Step) : Bridge := step.before.act step.action

def Bridge.steps : Bridge → List Action → List Step
  | _, [] => []
  | bridge, action :: actions => ⟨bridge, action⟩ :: (bridge.act action).steps actions

def run (allowClientWithoutSerial : Bool) (ticks : List Tick) : List Step :=
  Bridge.steps { allowClientWithoutSerial } (ticks.flatMap Tick.actions)

end NativeInitLab.SerialBridge
