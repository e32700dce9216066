import Mathlib.Data.List.Basic

namespace NativeInitLab.Tcpctl

/-! `a90_tcpctl`: the command that runs a program and forwards its output. -/

abbrev Bytes := List UInt8

def runOutputLimit : Nat := 128 * 1024

inductive Status where
  | exited (code : Nat)
  | signaled (signal : Nat)
  | other

inductive Reply where
  | ready
  | readError (rc : Int)
  | empty
  | line (text : String)
  | unknownCommand (name : Bytes)
  | authNotRequired
  | authUsage
  | authTokenUnavailable (errno : Nat)
  | authFailed
  | authenticated
  | authRequired
  | runUsage
  | runPathNotAbsolute
  | callFailed (call : String) (errno : Nat)
  | pid (pid : Nat)
  | output (bytes : Bytes)
  | timeout
  | truncated
  | exit (code : Nat)
  | exitError (code : Nat)
  | signal (number : Nat)
  | signalError (number : Nat)
  | childStatus
  deriving DecidableEq

def ok : Reply := .line "OK\n"

def reportChildStatus : Status → List Reply
  | .exited code => [.exit code, if code = 0 then ok else .exitError code]
  | .signaled number => [.signal number, .signalError number]
  | .other => [.childStatus]

structure Chunk where
  bytes : Bytes
  nonempty : bytes ≠ []
  small : bytes.length ≤ 4096

inductive Wait where
  | running
  | exited (status : Status)

/-- A `poll` and the reads that follow it; a pipe that is neither readable nor closed is read as
one without chunks.  In the loop for a hang-up the reads end in any way. -/
inductive Poll where
  | interrupted
  | failed (errno : Nat)
  | readable (chunks : List Chunk)
  | readFailed (chunks : List Chunk) (errno : Nat)
  | hungUp (chunks hung : List Chunk)

/-- One pass of the loop of `command_run`: how the child is found, the status of a child that is
killed because its time is over, and the `poll` if the pipe is open. -/
inductive Turn where
  | waitFailed (errno : Nat)
  | closed (wait : Wait) (expired : Option Status)
  | opened (wait : Wait) (expired : Option Status) (poll : Poll)

structure State where
  childDone : Bool := false
  pipeOpen : Bool := true
  status : Status := .exited 0
  forwarded : Nat := 0
  truncated : Bool := false
  sent : List Reply := []

def State.forward (s : State) (chunk : Chunk) : State :=
  if s.forwarded < runOutputLimit then
    let allowed := runOutputLimit - s.forwarded
    let toSend := if chunk.bytes.length < allowed then chunk.bytes.length else allowed
    { s with sent := s.sent ++ [.output (chunk.bytes.take toSend)], forwarded := s.forwarded + toSend }
  else { s with truncated := true }

def State.readPolled (s : State) (chunk : Chunk) : State :=
  let s := s.forward chunk
  if runOutputLimit - (if s.forwarded < runOutputLimit then s.forwarded else runOutputLimit) <
      chunk.bytes.length then
    { s with truncated := true }
  else s

def State.reap (s : State) (wait : Wait) : State :=
  match s.childDone, wait with
  | false, .exited status => { s with childDone := true, status }
  | _, _ => s

def State.expire (s : State) (expired : Option Status) : State :=
  match s.childDone, expired with
  | false, some status => { s with childDone := true, status, sent := s.sent ++ [.timeout] }
  | _, _ => s

def State.await (s : State) (wait : Wait) (expired : Option Status) : State :=
  (s.reap wait).expire expired

def State.finish (s : State) : List Reply :=
  s.sent ++ (if s.truncated then [.truncated] else []) ++ reportChildStatus s.status

def State.fail (s : State) (call : String) (errno : Nat) : List Reply :=
  s.sent ++ [.callFailed call errno]

def State.poll (s : State) : Poll → Except (List Reply) State
  | .interrupted => .ok s
  | .failed errno => .error (s.fail "poll" errno)
  | .readable chunks => .ok (chunks.foldl State.readPolled s)
  | .readFailed chunks errno => .error ((chunks.foldl State.readPolled s).fail "read" errno)
  | .hungUp chunks hung =>
    .ok { hung.foldl State.forward (chunks.foldl State.readPolled s) with pipeOpen := false }

/-- One pass of the loop; `none` if it is not a pass from this state. -/
def State.turn (s : State) : Turn → Option (Except (List Reply) State)
  | .waitFailed errno => if s.childDone then none else some (.error (s.fail "waitpid" errno))
  | .closed wait expired => if s.pipeOpen then none else some (.ok (s.await wait expired))
  | .opened wait expired poll =>
    if s.pipeOpen then some ((s.await wait expired).poll poll) else none

/-- The loop, on the turns of a whole run; `none` if these are not the turns of one. -/
def forwardLoop : List Turn → State → Option (List Reply)
  | [], s => if s.pipeOpen || !s.childDone then none else some s.finish
  | turn :: rest, s =>
    if s.pipeOpen || !s.childDone then
      match s.turn turn with
      | some (.ok s) => forwardLoop rest s
      | some (.error sent) => if rest.isEmpty then some sent else none
      | none => none
    else none

inductive Spawn where
  | pipeFailed (errno : Nat)
  | forkFailed (errno : Nat)
  | forked (pid : Nat) (turns : List Turn)

def commandRun (authorized : Bool) (argv : List Bytes) (spawn : Spawn) : Option (List Reply) :=
  if authorized = false then some [.authRequired]
  else
    match argv with
    | _ :: path :: _ =>
      if path.head? ≠ some 0x2F then some [.runPathNotAbsolute]
      else
        match spawn with
        | .pipeFailed errno => some [.callFailed "pipe" errno]
        | .forkFailed errno => some [.callFailed "fork" errno]
        | .forked pid turns => forwardLoop turns { sent := [.pid pid] }
    | _ => some [.runUsage]

def Poll.polled : Poll → List Chunk
  | .readable chunks => chunks
  | .readFailed chunks _ => chunks
  | .hungUp chunks _ => chunks
  | _ => []

def Poll.hung : Poll → List Chunk
  | .hungUp _ hung => hung
  | _ => []

def Turn.polled : Turn → List Chunk
  | .opened _ _ poll => poll.polled
  | _ => []

def Turn.hung : Turn → List Chunk
  | .opened _ _ poll => poll.hung
  | _ => []

def Poll.fails : Poll → Bool
  | .failed _ => true
  | .readFailed _ _ => true
  | _ => false

def Turn.fails : Turn → Bool
  | .waitFailed _ => true
  | .closed _ _ => false
  | .opened _ _ poll => poll.fails

def polled (turns : List Turn) : List Chunk := turns.flatMap Turn.polled
def hung (turns : List Turn) : List Chunk := turns.flatMap Turn.hung

def bytes (chunks : List Chunk) : Bytes := chunks.flatMap Chunk.bytes

def Reply.data : Reply → Bytes
  | .output bytes => bytes
  | _ => []

def forwarded (sent : List Reply) : Bytes := sent.flatMap Reply.data

/-- A chunk of the first loop is announced as cut when twice its size does not fit. -/
def Crowded (polled : List Chunk) : Prop :=
  ∃ before chunk after, polled = before ++ chunk :: after ∧
    runOutputLimit < (bytes before).length + 2 * chunk.bytes.length

/-- A chunk of the second loop is announced as cut when nothing of it fits. -/
def Overrun (polled hung : List Chunk) : Prop :=
  ∃ before chunk after, hung = before ++ chunk :: after ∧
    runOutputLimit ≤ (bytes polled).length + (bytes before).length

section Splits

variable {A : Type} {Q : List A → A → Prop}

theorem exists_split_concat (items : List A) (last : A) :
    (∃ before item after, items ++ [last] = before ++ item :: after ∧ Q before item) ↔
      (∃ before item after, items = before ++ item :: after ∧ Q before item) ∨ Q items last := by
  constructor
  · rintro ⟨before, item, after, hsplit, hitem⟩
    rcases List.eq_nil_or_concat after with rfl | ⟨init, final, rfl⟩
    · obtain ⟨rfl, hlast⟩ := List.append_inj' hsplit rfl
      cases hlast
      exact .inr hitem
    · rw [List.concat_eq_append, ← List.cons_append, ← List.append_assoc] at hsplit
      obtain ⟨rfl, -⟩ := List.append_inj' hsplit rfl
      exact .inl ⟨before, item, init, rfl, hitem⟩
  · rintro (⟨before, item, after, rfl, hitem⟩ | hlast)
    · exact ⟨before, item, after ++ [last], by simp, hitem⟩
    · exact ⟨items, last, [], rfl, hlast⟩

end Splits

@[simp] theorem bytes_append (first second : List Chunk) :
    bytes (first ++ second) = bytes first ++ bytes second := List.flatMap_append

theorem bytes_nil : bytes [] = [] := rfl

theorem bytes_cons (chunk : Chunk) (chunks : List Chunk) :
    bytes (chunk :: chunks) = chunk.bytes ++ bytes chunks := rfl

theorem bytes_concat (chunks : List Chunk) (chunk : Chunk) :
    bytes (chunks ++ [chunk]) = bytes chunks ++ chunk.bytes := by
  simp [bytes]

theorem crowded_concat (polled : List Chunk) (chunk : Chunk) : Crowded (polled ++ [chunk]) ↔
      Crowded polled ∨ runOutputLimit < (bytes polled).length + 2 * chunk.bytes.length :=
  exists_split_concat polled chunk

theorem overrun_concat (polled hung : List Chunk) (chunk : Chunk) :
    Overrun polled (hung ++ [chunk]) ↔
      Overrun polled hung ∨ runOutputLimit ≤ (bytes polled).length + (bytes hung).length :=
  exists_split_concat hung chunk

theorem not_overrun_nil (polled : List Chunk) : ¬ Overrun polled [] := by
  rintro ⟨before, chunk, after, hsplit, -⟩
  simp at hsplit

structure Follows (polled hung : List Chunk) (s : State) : Prop where
  data : forwarded s.sent = (bytes (polled ++ hung)).take runOutputLimit
  count : s.forwarded = min (bytes (polled ++ hung)).length runOutputLimit
  truncated : s.truncated = true ↔ Crowded polled ∨ Overrun polled hung
  quiet : .truncated ∉ s.sent

section Loop

variable {polled hung : List Chunk} {s : State}

theorem Follows.start (sent : List Reply) (hdata : forwarded sent = []) (hquiet : .truncated ∉ sent) :
    Follows [] [] { sent } where
  data := hdata
  count := rfl
  truncated := by
    refine ⟨nofun, ?_⟩
    rintro (⟨before, chunk, after, hsplit, -⟩ | hoverrun)
    · simp at hsplit
    · exact absurd hoverrun (not_overrun_nil _)
  quiet := hquiet

theorem State.forward_eq (s : State) (chunk : Chunk) : s.forward chunk =
      if s.forwarded < runOutputLimit then
        { s with
          sent := s.sent ++ [.output (chunk.bytes.take (runOutputLimit - s.forwarded))]
          forwarded := min (s.forwarded + chunk.bytes.length) runOutputLimit }
      else { s with truncated := true } := by
  unfold State.forward
  split
  case isTrue hroom =>
    dsimp only
    split
    case isTrue hfits =>
      rw [List.take_of_length_le (Nat.le_refl _), List.take_of_length_le (Nat.le_of_lt hfits),
        Nat.min_eq_left (by omega)]
    case isFalse hcut =>
      rw [Nat.min_eq_right (by omega)]
      congr 1
      omega
  case isFalse => rfl

theorem forwarded_append (first second : List Reply) :
    forwarded (first ++ second) = forwarded first ++ forwarded second := List.flatMap_append

theorem take_append_limit {limit : Nat} (first second : Bytes) :
    first.take limit ++ second.take (limit - min first.length limit) =
      (first ++ second).take limit := by
  rw [List.take_append]
  congr 2
  omega

theorem forward_data {read : Bytes} (chunk : Chunk)
    (hdata : forwarded s.sent = read.take runOutputLimit)
    (hforwarded : s.forwarded = min read.length runOutputLimit) :
    forwarded (s.forward chunk).sent = (read ++ chunk.bytes).take runOutputLimit ∧
      (s.forward chunk).forwarded = min (read ++ chunk.bytes).length runOutputLimit := by
  rw [State.forward_eq]
  split
  case isTrue hroom =>
    refine ⟨?_, ?_⟩
    · rw [forwarded_append, hdata, hforwarded]
      exact (congrArg _ (List.append_nil _)).trans (take_append_limit _ _)
    · rw [List.length_append]
      dsimp only
      omega
  case isFalse hfull =>
    have hlong : runOutputLimit ≤ read.length := by omega
    refine ⟨?_, ?_⟩
    · rw [hdata, List.take_append_of_le_length hlong]
    · rw [List.length_append]
      dsimp only
      omega

theorem forward_truncated (chunk : Chunk) : (s.forward chunk).truncated = true ↔
      s.truncated = true ∨ runOutputLimit ≤ s.forwarded := by
  rw [State.forward_eq]
  split
  case isTrue hroom => exact ⟨.inl, fun h => h.resolve_right (by omega)⟩
  case isFalse hfull => exact ⟨fun _ => .inr (by omega), fun _ => rfl⟩

theorem forward_quiet (chunk : Chunk) (hquiet : .truncated ∉ s.sent) :
    .truncated ∉ (s.forward chunk).sent := by
  rw [State.forward_eq]
  split
  case isTrue => simpa using hquiet
  case isFalse => exact hquiet

theorem Follows.forward (hfollows : Follows polled hung s) (chunk : Chunk) :
    Follows polled (hung ++ [chunk]) (s.forward chunk) where
  data := by
    rw [← List.append_assoc, bytes_concat]
    exact (forward_data chunk hfollows.data hfollows.count).1
  count := by
    rw [← List.append_assoc, bytes_concat]
    exact (forward_data chunk hfollows.data hfollows.count).2
  truncated := by
    have hroom : runOutputLimit ≤ s.forwarded ↔
        runOutputLimit ≤ (bytes polled).length + (bytes hung).length := by
      rw [hfollows.count, bytes_append, List.length_append]
      omega
    rw [forward_truncated, hfollows.truncated, overrun_concat, hroom, or_assoc]
  quiet := forward_quiet chunk hfollows.quiet

theorem Follows.readPolled (hfollows : Follows polled [] s) (chunk : Chunk) :
    Follows (polled ++ [chunk]) [] (s.readPolled chunk) := by
  have hlast := List.length_pos_of_ne_nil chunk.nonempty
  have hread : bytes (polled ++ []) = bytes polled := by rw [List.append_nil]
  have hbefore := hfollows.count
  rw [hread] at hbefore
  obtain ⟨hdata, hforwarded⟩ := forward_data chunk (hread ▸ hfollows.data) hbefore
  rw [← bytes_concat, ← List.append_nil (polled ++ [chunk])] at hdata hforwarded
  have hflag := @forward_truncated s chunk
  rw [hfollows.truncated, or_iff_left (not_overrun_nil _)] at hflag
  have hlength : (s.forward chunk).forwarded =
      min ((bytes polled).length + chunk.bytes.length) runOutputLimit := by
    rw [hforwarded, List.append_nil, bytes_concat, List.length_append]
  have hcrowded := crowded_concat polled chunk
  have hover := not_overrun_nil (polled ++ [chunk])
  have hinner : (if (s.forward chunk).forwarded < runOutputLimit then (s.forward chunk).forwarded
      else runOutputLimit) = (s.forward chunk).forwarded := by
    split
    · rfl
    · omega
  unfold State.readPolled
  dsimp only
  rw [hinner]
  split
  case isTrue hcut =>
    exact ⟨hdata, hforwarded, ⟨fun _ => .inl (hcrowded.mpr (.inr (by omega))), fun _ => rfl⟩,
      forward_quiet chunk hfollows.quiet⟩
  case isFalse hfits =>
    refine ⟨hdata, hforwarded, ?_, forward_quiet chunk hfollows.quiet⟩
    rw [hflag, or_iff_left hover, hcrowded]
    exact or_congr_right ⟨fun _ => by omega, fun _ => by omega⟩

theorem Follows.foldl_readPolled (hfollows : Follows polled [] s) (chunks : List Chunk) :
    Follows (polled ++ chunks) [] (chunks.foldl State.readPolled s) := by
  induction chunks generalizing polled s with
  | nil => rwa [List.append_nil]
  | cons chunk chunks ih =>
    have hnext := ih (hfollows.readPolled chunk)
    rwa [List.append_assoc, List.singleton_append] at hnext

section

variable (hfollows : Follows polled hung s)
include hfollows

theorem Follows.foldl_forward (chunks : List Chunk) :
    Follows polled (hung ++ chunks) (chunks.foldl State.forward s) := by
  induction chunks generalizing hung s with
  | nil => rwa [List.append_nil]
  | cons chunk chunks ih =>
    have hnext := ih (hfollows.forward chunk)
    rwa [List.append_assoc, List.singleton_append] at hnext

theorem Follows.reap (wait : Wait) : Follows polled hung (s.reap wait) := by
  unfold State.reap
  split
  · exact ⟨hfollows.data, hfollows.count, hfollows.truncated, hfollows.quiet⟩
  · exact hfollows

theorem Follows.expire (expired : Option Status) : Follows polled hung (s.expire expired) := by
  unfold State.expire
  split
  · refine ⟨?_, hfollows.count, hfollows.truncated, by simpa using hfollows.quiet⟩
    rw [forwarded_append]
    exact (List.append_nil _).trans hfollows.data
  · exact hfollows

theorem Follows.await (wait : Wait) (expired : Option Status) :
    Follows polled hung (s.await wait expired) :=
  (hfollows.reap wait).expire expired

end

theorem State.await_pipeOpen (s : State) (wait : Wait) (expired : Option Status) :
    (s.await wait expired).pipeOpen = s.pipeOpen := by
  have hreap : (s.reap wait).pipeOpen = s.pipeOpen := by
    unfold State.reap
    split <;> rfl
  rw [← hreap]
  unfold State.await State.expire
  split <;> rfl

structure Delivered (polled hung : List Chunk) (failed : Bool) (sent : List Reply) : Prop where
  data : forwarded sent = (bytes (polled ++ hung)).take runOutputLimit
  notice : .truncated ∈ sent ↔ failed = false ∧ (Crowded polled ∨ Overrun polled hung)

theorem forwarded_report (status : Status) : forwarded (reportChildStatus status) = [] := by
  cases status with
  | exited code =>
    by_cases hcode : code = 0
    · subst hcode
      rfl
    · simp [reportChildStatus, hcode, forwarded, Reply.data]
  | signaled number => rfl
  | other => rfl

theorem quiet_report (status : Status) : .truncated ∉ reportChildStatus status := by
  cases status with
  | exited code =>
    by_cases hcode : code = 0
    · simp [reportChildStatus, ok, hcode]
    · simp [reportChildStatus, hcode]
  | signaled number => simp [reportChildStatus]
  | other => simp [reportChildStatus]

theorem Follows.finish (hfollows : Follows polled hung s) :
    Delivered polled hung false s.finish where
  data := by
    have hnotice : forwarded (if s.truncated then [Reply.truncated] else []) = [] := by
      split <;> rfl
    rw [State.finish, forwarded_append, forwarded_append, forwarded_report, hnotice,
      List.append_nil, List.append_nil, hfollows.data]
  notice := by
    have hreport := quiet_report s.status
    have hquiet := hfollows.quiet
    rw [← hfollows.truncated]
    simp only [State.finish, List.mem_append, hreport, hquiet, true_and, false_or, or_false]
    split
    case isTrue htrue => simp [htrue]
    case isFalse hfalse => simp [hfalse]

theorem Follows.fail (hfollows : Follows polled hung s) (call : String) (errno : Nat) :
    Delivered polled hung true (s.fail call errno) where
  data := by
    rw [State.fail, forwarded_append]
    exact (List.append_nil _).trans hfollows.data
  notice := by simp [State.fail, hfollows.quiet]

def Settled (hung : List Chunk) (s : State) : Prop := s.pipeOpen = true → hung = []

theorem Follows.poll_ok {next : State} {poll : Poll} (hfollows : Follows polled [] s)
    (hpoll : s.poll poll = .ok next) :
    Follows (polled ++ poll.polled) poll.hung next ∧ Settled poll.hung next ∧
      poll.fails = false := by
  cases poll with
  | interrupted =>
    cases hpoll
    refine ⟨?_, fun _ => rfl, rfl⟩
    change Follows (polled ++ []) [] s
    rwa [List.append_nil]
  | failed errno => cases hpoll
  | readable chunks =>
    cases hpoll
    exact ⟨hfollows.foldl_readPolled chunks, fun _ => rfl, rfl⟩
  | readFailed chunks errno => cases hpoll
  | hungUp chunks hung =>
    cases hpoll
    have hread := (hfollows.foldl_readPolled chunks).foldl_forward hung
    exact ⟨⟨hread.data, hread.count, hread.truncated, hread.quiet⟩, nofun, rfl⟩

theorem Follows.poll_error {sent : List Reply} {poll : Poll} (hfollows : Follows polled [] s)
    (hpoll : s.poll poll = .error sent) :
    Delivered (polled ++ poll.polled) poll.hung true sent ∧ poll.fails = true := by
  cases poll with
  | interrupted => cases hpoll
  | failed errno =>
    cases hpoll
    refine ⟨?_, rfl⟩
    change Delivered (polled ++ []) [] true _
    rw [List.append_nil]
    exact hfollows.fail "poll" errno
  | readable chunks => cases hpoll
  | readFailed chunks errno =>
    cases hpoll
    exact ⟨(hfollows.foldl_readPolled chunks).fail "read" errno, rfl⟩
  | hungUp chunks hung => cases hpoll

theorem Follows.turn_ok {next : State} {turn : Turn} (hfollows : Follows polled hung s)
    (hsettled : Settled hung s) (hturn : s.turn turn = some (.ok next)) :
    Follows (polled ++ turn.polled) (hung ++ turn.hung) next ∧
      Settled (hung ++ turn.hung) next ∧ turn.fails = false := by
  cases turn with
  | waitFailed errno =>
    rw [State.turn] at hturn
    split at hturn <;> cases hturn
  | closed wait expired =>
    rw [State.turn] at hturn
    split at hturn
    case isTrue => cases hturn
    case isFalse hclosed =>
      cases hturn
      simp only [Turn.polled, Turn.hung, List.append_nil]
      refine ⟨hfollows.await wait expired, fun h => ?_, rfl⟩
      rw [State.await_pipeOpen] at h
      exact absurd h hclosed
  | opened wait expired poll =>
    rw [State.turn] at hturn
    split at hturn
    case isTrue hopened =>
      obtain rfl := hsettled hopened
      exact (hfollows.await wait expired).poll_ok (Option.some.inj hturn)
    case isFalse => cases hturn

theorem Follows.turn_error {sent : List Reply} {turn : Turn} (hfollows : Follows polled hung s)
    (hsettled : Settled hung s) (hturn : s.turn turn = some (.error sent)) :
    Delivered (polled ++ turn.polled) (hung ++ turn.hung) true sent ∧ turn.fails = true := by
  cases turn with
  | waitFailed errno =>
    rw [State.turn] at hturn
    split at hturn
    case isTrue => cases hturn
    case isFalse =>
      cases hturn
      simp only [Turn.polled, Turn.hung, List.append_nil]
      exact ⟨hfollows.fail _ _, rfl⟩
  | closed wait expired =>
    rw [State.turn] at hturn
    split at hturn <;> cases hturn
  | opened wait expired poll =>
    rw [State.turn] at hturn
    split at hturn
    case isTrue hopened =>
      obtain rfl := hsettled hopened
      exact (hfollows.await wait expired).poll_error (Option.some.inj hturn)
    case isFalse => cases hturn

theorem delivered_forwardLoop {turns : List Turn} {sent : List Reply}
    (hfollows : Follows polled hung s) (hsettled : Settled hung s)
    (hsent : forwardLoop turns s = some sent) :
    Delivered (polled ++ Tcpctl.polled turns) (hung ++ Tcpctl.hung turns) (turns.any Turn.fails)
      sent := by
  induction turns generalizing polled hung s with
  | nil =>
    rw [forwardLoop] at hsent
    split at hsent
    case isTrue => cases hsent
    case isFalse =>
      cases hsent
      simp only [Tcpctl.polled, Tcpctl.hung, List.flatMap_nil, List.append_nil]
      exact hfollows.finish
  | cons turn rest ih =>
    have hpolled : Tcpctl.polled (turn :: rest) = turn.polled ++ Tcpctl.polled rest := rfl
    have hhung : Tcpctl.hung (turn :: rest) = turn.hung ++ Tcpctl.hung rest := rfl
    rw [hpolled, hhung, ← List.append_assoc, ← List.append_assoc, List.any_cons]
    rw [forwardLoop] at hsent
    split at hsent
    case isFalse => cases hsent
    case isTrue =>
      split at hsent
      case h_1 next hturn =>
        obtain ⟨hnext, hsettled, hfails⟩ := hfollows.turn_ok hsettled hturn
        rw [hfails, Bool.false_or]
        exact ih hnext hsettled hsent
      case h_2 failed hturn =>
        obtain ⟨hdelivered, hfails⟩ := hfollows.turn_error hsettled hturn
        split at hsent
        case isTrue hlast =>
          obtain rfl := List.isEmpty_iff.mp hlast
          cases hsent
          simp only [Tcpctl.polled, Tcpctl.hung, List.flatMap_nil, List.append_nil, hfails,
            Bool.true_or]
          exact hdelivered
        case isFalse => cases hsent
      case h_3 => cases hsent

end Loop

/-- The chunks of a run for which the notice says what happened.  A run that ends in an error sends
none. -/
def Honest (turns : List Turn) : Prop :=
  (bytes (polled turns ++ hung turns)).length ≤ runOutputLimit ∧
      (turns.any Turn.fails = true ∨ ¬ Crowded (polled turns)) ∨
    runOutputLimit < (bytes (polled turns ++ hung turns)).length ∧ turns.any Turn.fails = false ∧
      (Crowded (polled turns) ∨ Overrun (polled turns) (hung turns))

theorem not_overrun_of_fits {polled hung : List Chunk}
    (hfits : (bytes (polled ++ hung)).length ≤ runOutputLimit) : ¬ Overrun polled hung := by
  rintro ⟨before, chunk, after, rfl, hlimit⟩
  have hlast := List.length_pos_of_ne_nil chunk.nonempty
  have hwhole : (bytes (polled ++ (before ++ chunk :: after))).length =
      (bytes polled).length +
        ((bytes before).length + (chunk.bytes.length + (bytes after).length)) := by
    simp [bytes]
  omega

theorem commandRun_forked {pid : Nat} {turns : List Turn} {name path : Bytes}
    {arguments : List Bytes} (hpath : path.head? = some 0x2F) :
    commandRun true (name :: path :: arguments) (.forked pid turns) =
      forwardLoop turns { sent := [.pid pid] } := by
  simp [commandRun, hpath]

theorem delivered_started {pid : Nat} {turns : List Turn} {sent : List Reply}
    (hsent : forwardLoop turns { sent := [.pid pid] } = some sent) :
    Delivered (polled turns) (hung turns) (turns.any Turn.fails) sent :=
  delivered_forwardLoop (.start [.pid pid] rfl (by simp)) (fun _ => rfl) hsent

/-- The output is cut where it must be, and the notice of it tells the truth exactly for honest
chunks. -/
theorem truncation_notice_truthful_iff {pid : Nat} {turns : List Turn} {name path : Bytes}
    {arguments : List Bytes} {sent : List Reply} (hpath : path.head? = some 0x2F)
    (hsent : commandRun true (name :: path :: arguments) (.forked pid turns) = some sent) :
    forwarded sent = (bytes (polled turns ++ hung turns)).take runOutputLimit ∧
      ((.truncated ∈ sent ↔ runOutputLimit < (bytes (polled turns ++ hung turns)).length) ↔
        Honest turns) := by
  rw [commandRun_forked hpath] at hsent
  obtain ⟨hdata, hnotice⟩ := delivered_started hsent
  refine ⟨hdata, ?_⟩
  rw [hnotice, Honest]
  by_cases hfits : (bytes (polled turns ++ hung turns)).length ≤ runOutputLimit
  · have hover := not_overrun_of_fits hfits
    have hlimit : ¬ runOutputLimit < (bytes (polled turns ++ hung turns)).length := by omega
    rw [or_iff_left hover, iff_false_right hlimit, not_and_or, Bool.not_eq_false]
    simp only [hfits, hlimit, true_and, false_and, or_false]
  · have hlimit : runOutputLimit < (bytes (polled turns ++ hung turns)).length := by omega
    rw [iff_true_right hlimit]
    simp only [hfits, hlimit, true_and, false_and, false_or]

def zeros (count : Nat) (hpos : 0 < count) (hsmall : count ≤ 4096) : Chunk where
  bytes := List.replicate count 0
  nonempty h := by
    rw [List.replicate_eq_nil_iff] at h
    omega
  small := by rwa [List.length_replicate]

theorem length_zeros (count : Nat) (hpos : 0 < count) (hsmall : count ≤ 4096) :
    (zeros count hpos hsmall).bytes.length = count := List.length_replicate

def full : Chunk := zeros 4096 (by decide) (by decide)
def half : Chunk := zeros 2048 (by decide) (by decide)

theorem length_full : full.bytes.length = 4096 := length_zeros ..
theorem length_half : half.bytes.length = 2048 := length_zeros ..

def wholeRun (chunks hung : List Chunk) : List Turn :=
  [.opened (.exited (.exited 0)) none (.hungUp chunks hung)]

theorem bytes_full (count : Nat) : (bytes (List.replicate count full)).length = count * 4096 := by
  induction count with
  | zero => rfl
  | succ count ih =>
    rw [List.replicate_succ', bytes_concat, List.length_append, ih, length_full, Nat.succ_mul]

theorem State.forward_childDone (s : State) (chunk : Chunk) :
    (s.forward chunk).childDone = s.childDone := by
  unfold State.forward
  split <;> rfl

theorem State.readPolled_childDone (s : State) (chunk : Chunk) :
    (s.readPolled chunk).childDone = s.childDone := by
  rw [← s.forward_childDone chunk]
  exact (apply_ite State.childDone _ _ _).trans (ite_self _)

theorem foldl_childDone {step : State → Chunk → State}
    (hstep : ∀ s chunk, (step s chunk).childDone = s.childDone) (chunks : List Chunk) (s : State) :
    (chunks.foldl step s).childDone = s.childDone := by
  induction chunks generalizing s with
  | nil => rfl
  | cons chunk chunks ih => rw [List.foldl_cons, ih, hstep]

theorem forwardLoop_wholeRun (chunks hung : List Chunk) (sent : List Reply) :
    ∃ replies, forwardLoop (wholeRun chunks hung) { sent } = some replies := by
  have hdone (s : State) (hs : s.childDone = true) :
      (hung.foldl State.forward (chunks.foldl State.readPolled s)).childDone = true := by
    rw [foldl_childDone State.forward_childDone, foldl_childDone State.readPolled_childDone, hs]
  refine ⟨State.finish { hung.foldl State.forward (chunks.foldl State.readPolled
    { childDone := true, sent }) with pipeOpen := false }, ?_⟩
  change (if (false || !(hung.foldl State.forward _).childDone) = true then none else some _) = _
  rw [hdone _ rfl]
  rfl

theorem polled_wholeRun (chunks hung : List Chunk) : polled (wholeRun chunks hung) = chunks :=
  List.append_nil _

theorem hung_wholeRun (chunks hung : List Chunk) : Tcpctl.hung (wholeRun chunks hung) = hung :=
  List.append_nil _

theorem crowded_full {count : Nat} (hcount : 31 < count) : Crowded (List.replicate count full) := by
  refine ⟨List.replicate 31 full, full, List.replicate (count - 32) full, ?_, ?_⟩
  · rw [← List.replicate_succ, List.replicate_append_replicate]
    congr 1
    omega
  · rw [bytes_full, length_full]
    decide

theorem not_crowded_full : ¬ Crowded (List.replicate 31 full) := by
  rintro ⟨before, chunk, after, hsplit, hlimit⟩
  obtain rfl : chunk = full :=
    List.eq_of_mem_replicate (hsplit ▸ List.mem_append_right _ (List.mem_cons_self ..))
  have hlength := congrArg (fun chunks => (bytes chunks).length) hsplit
  simp only [bytes_full, bytes_append, bytes_cons, List.length_append, length_full] at hlength
  rw [length_full] at hlimit
  unfold runOutputLimit at hlimit
  omega

/-- 131072 bytes, the last 4096 of them after the hang-up, come through without a notice; 135168
bytes before it are cut with one. -/
theorem truncation_notice_truthful_iff_limit :
    (∃ sent, commandRun true [[], [0x2F]]
          (.forked 1 (wholeRun (List.replicate 31 full) [full])) = some sent ∧
        (forwarded sent).length = runOutputLimit ∧ .truncated ∉ sent) ∧
      ∃ sent, commandRun true [[], [0x2F]]
          (.forked 1 (wholeRun (List.replicate 33 full) [])) = some sent ∧
        (forwarded sent).length = runOutputLimit ∧ .truncated ∈ sent := by
  constructor
  · obtain ⟨sent, hsent⟩ := forwardLoop_wholeRun (List.replicate 31 full) [full] [.pid 1]
    have hrun : commandRun true [[], [0x2F]] (.forked 1 (wholeRun (List.replicate 31 full) [full])) =
        some sent := (commandRun_forked rfl).trans hsent
    obtain ⟨hdata, hiff⟩ := truncation_notice_truthful_iff rfl hrun
    rw [Honest, polled_wholeRun, hung_wholeRun, ← List.replicate_succ', bytes_full] at hiff
    rw [polled_wholeRun, hung_wholeRun, ← List.replicate_succ'] at hdata
    refine ⟨sent, hrun, ?_, fun htruncated => ?_⟩
    · rw [hdata, List.length_take, bytes_full]
      rfl
    · have hover := (hiff.mpr (.inl ⟨by decide, .inr not_crowded_full⟩)).mp htruncated
      exact absurd hover (by decide)
  · obtain ⟨sent, hsent⟩ := forwardLoop_wholeRun (List.replicate 33 full) [] [.pid 1]
    have hrun : commandRun true [[], [0x2F]] (.forked 1 (wholeRun (List.replicate 33 full) [])) =
        some sent := (commandRun_forked rfl).trans hsent
    obtain ⟨hdata, hiff⟩ := truncation_notice_truthful_iff rfl hrun
    rw [Honest, polled_wholeRun, hung_wholeRun, List.append_nil, bytes_full] at hiff
    rw [polled_wholeRun, hung_wholeRun, List.append_nil] at hdata
    refine ⟨sent, hrun, ?_, ?_⟩
    · rw [hdata, List.length_take, bytes_full]
      rfl
    · exact (hiff.mpr (.inr ⟨by decide, rfl, .inl (crowded_full (by decide))⟩)).mpr (by decide)

/-- 131072 bytes come through whole and are announced as cut; of 133120 bytes the last 2048 are
dropped without a word. -/
theorem truncation_notice_misleads :
    (∃ sent, commandRun true [[], [0x2F]] (.forked 1 (wholeRun (List.replicate 32 full) [])) =
        some sent ∧ .truncated ∈ sent ∧
        forwarded sent = bytes (List.replicate 32 full)) ∧
      ∃ sent, commandRun true [[], [0x2F]]
          (.forked 1 (wholeRun (List.replicate 31 full) [half, full])) = some sent ∧
        .truncated ∉ sent ∧
        forwarded sent ≠ bytes (List.replicate 31 full ++ [half, full]) := by
  refine ⟨?_, ?_⟩
  · obtain ⟨sent, hsent⟩ := forwardLoop_wholeRun (List.replicate 32 full) [] [.pid 1]
    obtain ⟨hdata, hnotice⟩ := delivered_started hsent
    rw [polled_wholeRun, hung_wholeRun] at hdata hnotice
    refine ⟨sent, (commandRun_forked rfl).trans hsent,
      hnotice.mpr ⟨rfl, .inl (crowded_full (by decide))⟩, ?_⟩
    rw [hdata, List.append_nil, List.take_of_length_le]
    rw [bytes_full]
    decide
  · obtain ⟨sent, hsent⟩ := forwardLoop_wholeRun (List.replicate 31 full) [half, full] [.pid 1]
    obtain ⟨hdata, hnotice⟩ := delivered_started hsent
    rw [polled_wholeRun, hung_wholeRun] at hdata hnotice
    refine ⟨sent, (commandRun_forked rfl).trans hsent, ?_, ?_⟩
    · rw [hnotice]
      rintro ⟨-, hcrowded | ⟨before, chunk, after, hsplit, hlimit⟩⟩
      · exact not_crowded_full hcrowded
      · rw [bytes_full] at hlimit
        unfold runOutputLimit at hlimit
        match before with
        | [] =>
          rw [bytes_nil, List.length_nil] at hlimit
          omega
        | [first] =>
          have hfirst : first.bytes.length = 2048 := by
            rw [← (List.cons.inj hsplit).1, length_half]
          rw [bytes_cons, List.length_append, hfirst, bytes_nil, List.length_nil] at hlimit
          omega
        | first :: second :: rest =>
          have hlength := congrArg List.length hsplit
          simp only [List.length_cons, List.length_append, List.length_nil] at hlength
          omega
    · intro hwhole
      have hlength := congrArg List.length (hdata.symm.trans hwhole)
      simp only [List.length_take, bytes_append, bytes_cons, bytes_nil, List.length_append,
        bytes_full, length_half, length_full, List.length_nil, runOutputLimit] at hlength
      omega

end NativeInitLab.Tcpctl
