import NativeInitLab.SerialBridge.Bridge
import Mathlib.Algebra.Order.Ring.Nat

namespace NativeInitLab.SerialBridge

/-! The relay property, and the only way it fails. -/

section Loops

variable {ending : Fault} {data : Bytes} {counts : List Nat}

theorem sendall_complete (h : (sendall ending data counts).2 = none) :
    (sendall ending data counts).1 = data := by
  induction counts generalizing data with
  | nil =>
    cases data with
    | nil => rfl
    | cons byte data => cases h
  | cons count counts ih =>
    cases data with
    | nil => rfl
    | cons byte data =>
      rw [sendall, ih h]
      exact List.take_append_drop count _

theorem sendall_fault :
    (sendall ending data counts).2 = if counts.sum < data.length then some ending else none := by
  induction counts generalizing data with
  | nil =>
    cases data with
    | nil => rfl
    | cons byte data => simp [sendall]
  | cons count counts ih =>
    cases data with
    | nil => simp [sendall]
    | cons byte data =>
      rw [sendall, ih, List.length_drop, List.sum_cons]
      exact if_congr (by omega) rfl rfl

theorem writeLoop_split :
    (writeLoop ending data counts).written ++ (writeLoop ending data counts).rest = data := by
  induction counts generalizing data with
  | nil =>
    cases data with
    | nil => rfl
    | cons byte data => rfl
  | cons count counts ih =>
    cases data with
    | nil => rfl
    | cons byte data =>
      cases count with
      | zero => rfl
      | succ count =>
        rw [writeLoop, List.append_assoc, ih]
        exact List.take_append_drop (count + 1) _

end Loops

/-- At most one client is attached; the device has a prefix of what the clients sent during its
connection, and all of it when the buffer is empty; an attached client has what was read since
it was accepted; and a client leaves only by its own close or failure, or with the device. -/
structure Bridge.Faithful (bridge : Bridge) : Prop where
  single : bridge.sockets.length ≤ 1
  relayed : ∀ connection, bridge.serial = some connection →
    connection.written <+: connection.received ∧
      (bridge.serialTxBuffer = [] → connection.written = connection.received)
  ended : ∀ connection ∈ bridge.ended, connection.written <+: connection.received
  served : ∀ client, bridge.client = some client → client.handed = client.owed
  departed : ∀ client reason, (client, reason) ∈ bridge.departed →
    reason = .closed ∨ reason = .failed ∨ reason = .serialLost ∧ client.handed = client.owed

/-- A socket that takes only a part of the data and then would block. -/
def Transfer.Fills (sends : Transfer) (data : Bytes) : Prop :=
  sends.counts.sum < data.length ∧ sends.ending = .wouldBlock

inductive Stalls : Step → Prop
  | full {bridge : Bridge} {fd : Nat} {data : Bytes} {sends : Transfer}
      {writing : Option Transfer} (hserial : bridge.serial.map Connection.fd = some fd)
      (hclient : bridge.client ≠ none) (hfills : sends.Fills data) :
      Stalls ⟨bridge, .ready (.serial fd (some (.data data, sends)) writing)⟩
  | empty {bridge : Bridge} {conn : Nat} {writes : Transfer}
      (hclient : bridge.client.map Client.conn = some conn) :
      Stalls ⟨bridge, .ready (.client conn (.fault .wouldBlock) writes)⟩

structure Bridge.Coherent (bridge : Bridge) : Prop where
  sockets : bridge.sockets = (bridge.client.map Client.conn).toList
  current : ∀ connection, bridge.serial = some connection →
    connection.written ++ bridge.serialTxBuffer = connection.received
  ended : ∀ connection ∈ bridge.ended, connection.written <+: connection.received
  served : ∀ client, bridge.client = some client → client.handed = client.owed
  departed : ∀ client, (client, .serialLost) ∈ bridge.departed → client.handed = client.owed
  idle : bridge.serial = none → bridge.serialTxBuffer = []

def Bridge.Dropped (bridge : Bridge) : Prop := ∃ client, (client, .full) ∈ bridge.departed

theorem faithful_iff {bridge : Bridge} (h : bridge.Coherent) :
    bridge.Faithful ↔ ¬ bridge.Dropped := by
  constructor
  · rintro hfaithful ⟨client, hclient⟩
    rcases hfaithful.departed client .full hclient with h | h | h
    · cases h
    · cases h
    · cases h.1
  · intro hkept
    refine ⟨?_, ?_, h.ended, h.served, ?_⟩
    · rw [h.sockets]
      cases bridge.client with
      | none => exact Nat.zero_le 1
      | some client => exact Nat.le_refl 1
    · intro connection hconnection
      have hsplit := h.current connection hconnection
      refine ⟨⟨_, hsplit⟩, fun hempty => ?_⟩
      rwa [hempty, List.append_nil] at hsplit
    · intro client reason hclient
      cases reason with
      | closed => exact .inl rfl
      | failed => exact .inr (.inl rfl)
      | full => exact absurd ⟨client, hclient⟩ hkept
      | serialLost => exact .inr (.inr ⟨rfl, h.departed client hclient⟩)

section Operations

variable {bridge : Bridge}

theorem coherent_closeClient {reason : Departure}
    (hsockets : bridge.sockets = (bridge.client.map Client.conn).toList)
    (hcurrent : ∀ connection, bridge.serial = some connection →
      connection.written ++ bridge.serialTxBuffer = connection.received)
    (hended : ∀ connection ∈ bridge.ended, connection.written <+: connection.received)
    (hserved : reason = .serialLost → ∀ client, bridge.client = some client →
      client.handed = client.owed)
    (hdeparted : ∀ client, (client, .serialLost) ∈ bridge.departed → client.handed = client.owed)
    (hidle : bridge.serial = none → bridge.serialTxBuffer = []) :
    (bridge.closeClient reason).Coherent := by
  unfold Bridge.closeClient
  cases hclient : bridge.client with
  | none =>
    refine ⟨hsockets, hcurrent, hended, fun client h => ?_, hdeparted, hidle⟩
    rw [hclient] at h
    cases h
  | some client =>
    refine ⟨?_, hcurrent, hended, fun _ h => (by cases h), fun other h => ?_, hidle⟩
    · simp [hsockets, hclient]
    · rcases List.mem_append.mp h with hold | hnew
      · exact hdeparted other hold
      · rw [List.mem_singleton, Prod.mk.injEq] at hnew
        obtain ⟨rfl, hreason⟩ := hnew
        exact hserved hreason.symm other hclient

theorem Bridge.Coherent.closeClient (h : bridge.Coherent) (reason : Departure) :
    (bridge.closeClient reason).Coherent :=
  coherent_closeClient h.sockets h.current h.ended (fun _ => h.served) h.departed h.idle

theorem dropped_closeClient {reason : Departure} : (bridge.closeClient reason).Dropped ↔
      bridge.Dropped ∨ bridge.client ≠ none ∧ reason = .full := by
  unfold Bridge.closeClient Bridge.Dropped
  cases hclient : bridge.client with
  | none => simp
  | some client => simp [exists_or, eq_comm]

theorem Bridge.Coherent.closeSerial (h : bridge.Coherent) : bridge.closeSerial.Coherent := by
  unfold Bridge.closeSerial
  cases hserial : bridge.serial with
  | none => exact h
  | some connection =>
    refine coherent_closeClient h.sockets (fun _ hother => by cases hother) ?_
      (fun _ => h.served) h.departed (fun _ => rfl)
    intro other hother
    rcases List.mem_append.mp hother with hold | hnew
    · exact h.ended other hold
    · rw [List.mem_singleton] at hnew
      subst hnew
      exact ⟨_, h.current other hserial⟩

theorem dropped_closeSerial : bridge.closeSerial.Dropped ↔ bridge.Dropped := by
  unfold Bridge.closeSerial
  cases bridge.serial with
  | none => exact Iff.rfl
  | some connection =>
    rw [dropped_closeClient]
    exact or_iff_left fun h => by cases h.2

theorem Bridge.Coherent.openSerial (h : bridge.Coherent) (fd : Nat) :
    (bridge.openSerial fd).Coherent := by
  unfold Bridge.openSerial
  cases hserial : bridge.serial with
  | none =>
    refine ⟨h.sockets, ?_, h.ended, h.served, h.departed, fun hnone => by cases hnone⟩
    intro connection hconnection
    cases hconnection
    exact h.idle hserial
  | some connection => exact h

theorem dropped_openSerial {fd : Nat} : (bridge.openSerial fd).Dropped ↔ bridge.Dropped := by
  unfold Bridge.openSerial
  cases bridge.serial with
  | none => exact Iff.rfl
  | some connection => exact Iff.rfl

theorem Bridge.Coherent.acceptClient (h : bridge.Coherent) (conn : Nat) :
    (bridge.acceptClient conn).Coherent := by
  have hrejected : { bridge with sockets := (conn :: bridge.sockets).erase conn } = bridge := by
    rw [List.erase_cons_head]
  unfold Bridge.acceptClient
  dsimp only
  rw [hrejected]
  split
  case isTrue => exact h
  case isFalse =>
    split
    case isTrue => exact h
    case isFalse hfree =>
      have hnone : bridge.client = none := by simpa using hfree
      refine ⟨?_, h.current, h.ended, fun client hclient => ?_, h.departed, h.idle⟩
      · simp [h.sockets, hnone]
      · cases hclient
        rfl

theorem dropped_acceptClient {conn : Nat} :
    (bridge.acceptClient conn).Dropped ↔ bridge.Dropped := by
  unfold Bridge.acceptClient
  dsimp only
  split
  case isTrue => exact Iff.rfl
  case isFalse =>
    split
    case isTrue => exact Iff.rfl
    case isFalse => exact Iff.rfl

theorem Bridge.Coherent.handOver (h : bridge.Coherent) (data : Bytes) (sends : Transfer) :
    (bridge.handOver data sends).Coherent := by
  unfold Bridge.handOver
  cases hclient : bridge.client with
  | none => exact h
  | some client =>
    have hsockets : bridge.sockets = [client.conn] := by simp [h.sockets, hclient]
    dsimp only
    cases hsent : (sendall sends.ending data sends.counts).2 with
    | none =>
      refine ⟨hsockets, h.current, h.ended, fun other hother => ?_, h.departed, h.idle⟩
      cases hother
      dsimp only
      rw [sendall_complete hsent, h.served client hclient]
    | some fault =>
      cases fault with
      | wouldBlock =>
        exact coherent_closeClient hsockets h.current h.ended nofun h.departed h.idle
      | failed =>
        exact coherent_closeClient hsockets h.current h.ended nofun h.departed h.idle

theorem dropped_handOver {data : Bytes} {sends : Transfer} : (bridge.handOver data sends).Dropped ↔
      bridge.Dropped ∨ bridge.client ≠ none ∧ sends.Fills data := by
  unfold Bridge.handOver
  cases hclient : bridge.client with
  | none => simp
  | some client =>
    dsimp only
    rw [sendall_fault]
    by_cases hshort : sends.counts.sum < data.length
    · rw [if_pos hshort]
      cases hending : sends.ending with
      | wouldBlock =>
        refine dropped_closeClient.trans ?_
        simp [Transfer.Fills, hshort, hending, Bridge.Dropped]
      | failed =>
        refine dropped_closeClient.trans ?_
        simp [Transfer.Fills, hending, Bridge.Dropped]
    · rw [if_neg hshort]
      simp [Transfer.Fills, hshort, Bridge.Dropped]

theorem Bridge.Coherent.forwardSerial (h : bridge.Coherent) (read : Received)
    (sends : Transfer) : (bridge.forwardSerial read sends).Coherent := by
  unfold Bridge.forwardSerial
  cases bridge.serial with
  | none => exact h
  | some connection =>
    dsimp only
    split
    case h_1 => exact h
    case h_2 => exact h.closeSerial
    case h_3 => exact h.closeSerial
    case h_4 => exact h.handOver _ sends

theorem dropped_forwardSerial {read : Received} {sends : Transfer}
    (hserial : bridge.serial ≠ none) : (bridge.forwardSerial read sends).Dropped ↔
      bridge.Dropped ∨ bridge.client ≠ none ∧ ∃ data, read = .data data ∧ sends.Fills data := by
  unfold Bridge.forwardSerial
  cases hconnection : bridge.serial with
  | none => exact absurd hconnection hserial
  | some connection =>
    dsimp only
    split
    case h_1 => simp
    case h_2 => simp [dropped_closeSerial]
    case h_3 => simp [dropped_closeSerial, Transfer.Fills]
    case h_4 => simp [dropped_handOver]

theorem Bridge.Coherent.flushSerialTx (h : bridge.Coherent) (writes : Transfer) :
    (bridge.flushSerialTx writes).Coherent := by
  unfold Bridge.flushSerialTx
  cases hserial : bridge.serial with
  | none => exact ⟨h.sockets, nofun, h.ended, h.served, h.departed, fun _ => rfl⟩
  | some connection =>
    have hflushed : ({ bridge with
        serial := some { connection with
          written := connection.written ++
            (writeLoop writes.ending bridge.serialTxBuffer writes.counts).written }
        serialTxBuffer :=
          (writeLoop writes.ending bridge.serialTxBuffer writes.counts).rest } :
        Bridge).Coherent := by
      refine ⟨h.sockets, ?_, h.ended, h.served, h.departed, fun hnone => by cases hnone⟩
      intro other hother
      cases hother
      dsimp only
      rw [List.append_assoc, writeLoop_split]
      exact h.current connection hserial
    dsimp only
    split
    case isTrue => exact hflushed.closeSerial
    case isFalse => exact hflushed

theorem dropped_flushSerialTx {writes : Transfer} :
    (bridge.flushSerialTx writes).Dropped ↔ bridge.Dropped := by
  unfold Bridge.flushSerialTx
  cases bridge.serial with
  | none => exact Iff.rfl
  | some connection =>
    dsimp only
    split
    case isTrue => exact dropped_closeSerial
    case isFalse => exact Iff.rfl

theorem Bridge.Coherent.forwardClient (h : bridge.Coherent) (received : Received)
    (writes : Transfer) : (bridge.forwardClient received writes).Coherent := by
  unfold Bridge.forwardClient
  cases hclient : bridge.client with
  | none => exact h
  | some client =>
    dsimp only
    split
    case h_1 => exact h.closeClient .full
    case h_2 => exact h.closeClient .failed
    case h_3 => exact h.closeClient .closed
    case h_4 byte data =>
      cases hserial : bridge.serial with
      | none => exact h
      | some connection =>
        refine Bridge.Coherent.flushSerialTx ?_ writes
        rw [← hclient]
        refine ⟨h.sockets, ?_, h.ended, h.served, h.departed, fun hnone => by cases hnone⟩
        intro other hother
        cases hother
        dsimp only
        rw [← List.append_assoc, h.current connection hserial]

theorem dropped_forwardClient {received : Received} {writes : Transfer}
    (hclient : bridge.client ≠ none) : (bridge.forwardClient received writes).Dropped ↔
      bridge.Dropped ∨ received = .fault .wouldBlock := by
  unfold Bridge.forwardClient
  cases hattached : bridge.client with
  | none => exact absurd hattached hclient
  | some client =>
    dsimp only
    split
    case h_1 => simp [dropped_closeClient, hclient]
    case h_2 => simp [dropped_closeClient]
    case h_3 => simp [dropped_closeClient]
    case h_4 =>
      cases bridge.serial with
      | none => simp
      | some connection =>
        dsimp only
        rw [dropped_flushSerialTx]
        simp [Bridge.Dropped]

theorem Bridge.Coherent.serve (h : bridge.Coherent) (event : Ready) :
    (bridge.serve event).Coherent := by
  unfold Bridge.serve
  cases event with
  | server conn => exact h.acceptClient conn
  | serial fd reading writing =>
    dsimp only
    split
    case isTrue =>
      cases reading with
      | none =>
        cases writing with
        | none => exact h
        | some writes => exact h.flushSerialTx writes
      | some reading =>
        have hforwarded := h.forwardSerial reading.1 reading.2
        cases writing with
        | none => exact hforwarded
        | some writes => exact hforwarded.flushSerialTx writes
    case isFalse => exact h
  | client conn received writes =>
    dsimp only
    split
    case isTrue => exact h.forwardClient received writes
    case isFalse => exact h

theorem dropped_serve {event : Ready} : (bridge.serve event).Dropped ↔
    bridge.Dropped ∨ Stalls ⟨bridge, .ready event⟩ := by
  unfold Bridge.serve
  cases event with
  | server conn =>
    rw [dropped_acceptClient]
    exact (or_iff_left nofun).symm
  | serial fd reading writing =>
    have hstalls : Stalls ⟨bridge, .ready (.serial fd reading writing)⟩ ↔
        bridge.serial.map Connection.fd = some fd ∧ bridge.client ≠ none ∧
          ∃ data sends, reading = some (.data data, sends) ∧ sends.Fills data := by
      constructor
      · rintro ⟨hserial, hclient, hfills⟩
        exact ⟨hserial, hclient, _, _, rfl, hfills⟩
      · rintro ⟨hserial, hclient, data, sends, rfl, hfills⟩
        exact .full hserial hclient hfills
    dsimp only
    split
    case isTrue hfd =>
      have hserial : bridge.serial ≠ none := by
        intro hnone
        simp [hnone] at hfd
      rw [hstalls]
      cases reading with
      | none =>
        have hsame : bridge.Dropped ↔ bridge.Dropped ∨
            bridge.serial.map Connection.fd = some fd ∧ bridge.client ≠ none ∧
              ∃ (data : Bytes) (sends : Transfer), none = some (Received.data data, sends) ∧
                sends.Fills data := by
          simp
        cases writing with
        | none => exact hsame
        | some writes => exact dropped_flushSerialTx.trans hsame
      | some reading =>
        obtain ⟨read, sends⟩ := reading
        have hforwarded : (bridge.forwardSerial read sends).Dropped ↔ bridge.Dropped ∨
            bridge.serial.map Connection.fd = some fd ∧ bridge.client ≠ none ∧
              ∃ data taken, some (read, sends) = some (.data data, taken) ∧
                taken.Fills data := by
          refine (dropped_forwardSerial hserial).trans ?_
          simp [hfd]
        cases writing with
        | none => exact hforwarded
        | some writes => exact dropped_flushSerialTx.trans hforwarded
    case isFalse hstale =>
      rw [hstalls]
      exact (or_iff_left fun h => hstale h.1).symm
  | client conn received writes =>
    have hstalls : Stalls ⟨bridge, .ready (.client conn received writes)⟩ ↔
        bridge.client.map Client.conn = some conn ∧ received = .fault .wouldBlock := by
      constructor
      · rintro ⟨⟩
        case empty hclient => exact ⟨hclient, rfl⟩
      · rintro ⟨hclient, rfl⟩
        exact .empty hclient
    rw [hstalls]
    dsimp only
    split
    case isTrue hconn =>
      have hclient : bridge.client ≠ none := by
        intro hnone
        simp [hnone] at hconn
      rw [dropped_forwardClient hclient, and_iff_right hconn]
    case isFalse hstale => exact (or_iff_left fun h => hstale h.1).symm

theorem Bridge.Coherent.act (h : bridge.Coherent) (action : Action) :
    (bridge.act action).Coherent := by
  cases action with
  | identityLost => exact h.closeSerial
  | reopened fd => exact h.openSerial fd
  | ready event => exact h.serve event

theorem dropped_act {action : Action} :
    (bridge.act action).Dropped ↔ bridge.Dropped ∨ Stalls ⟨bridge, action⟩ := by
  cases action with
  | identityLost => exact dropped_closeSerial.trans (or_iff_left nofun).symm
  | reopened fd => exact dropped_openSerial.trans (or_iff_left nofun).symm
  | ready event => exact dropped_serve

end Operations

theorem faithful_steps_iff {bridge : Bridge} (h : bridge.Coherent) (hkept : ¬ bridge.Dropped)
    (actions : List Action) :
    (∀ step ∈ bridge.steps actions, step.after.Faithful) ↔
      ∀ step ∈ bridge.steps actions, ¬ Stalls step := by
  induction actions generalizing bridge with
  | nil => simp [Bridge.steps]
  | cons action actions ih =>
    have hdropped := @dropped_act bridge action
    rw [or_iff_right hkept] at hdropped
    have hstep : (Step.mk bridge action).after.Faithful ↔ ¬ Stalls ⟨bridge, action⟩ := by
      rw [← hdropped]
      exact faithful_iff (h.act action)
    simp only [Bridge.steps, List.forall_mem_cons, hstep]
    refine and_congr_right fun hstays => ih (h.act action) ?_
    rwa [hdropped]

/-- Over every run of the event loop: the relay is faithful after every event if and only if the
socket of an attached client never would block. -/
theorem relay_is_faithful_iff (allowClientWithoutSerial : Bool) (ticks : List Tick) :
    (∀ step ∈ run allowClientWithoutSerial ticks, step.after.Faithful) ↔
      ∀ step ∈ run allowClientWithoutSerial ticks, ¬ Stalls step := by
  have hstart : ({ allowClientWithoutSerial } : Bridge).Coherent := by
    constructor <;> simp
  refine faithful_steps_iff hstart ?_ _
  rintro ⟨client, hclient⟩
  cases hclient

/-- The device answers with three bytes; the socket takes one of them and is full. -/
def fullSocket : List Tick :=
  [⟨false, some 5, [.server 7]⟩,
    ⟨false, none, [.serial 5 (some (.data [0x41, 0x42, 0x43], ⟨[1], .wouldBlock⟩)) none]⟩]

theorem full_socket_is_dropped : ∃ step ∈ run false fullSocket, step.after.client = none ∧
      step.after.departed = [(⟨7, [0x41, 0x42, 0x43], [0x41]⟩, .full)] ∧
      step.after.serial.isSome = true :=
  ⟨_, .tail _ (.tail _ (.head _)), rfl, rfl, rfl⟩

end NativeInitLab.SerialBridge
