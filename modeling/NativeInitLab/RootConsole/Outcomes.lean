import NativeInitLab.RootConsole.Console

namespace NativeInitLab.RootConsole.Device

open LittleEndian

/-! What each stage of the loop can do to the state, stated once. -/

theorem andThen_leads {P Q : State → Prop} {result : Result} {next : State → Result}
    (hresult : P result.1) (hstop : ∀ s, P s → Q s) (hnext : ∀ s, P s → Q (next s).1) :
    Q (andThen result next).1 := by
  rcases result with ⟨s, error⟩
  cases error with
  | none => exact hnext s hresult
  | some errno => exact hstop s hresult

theorem andThen_keeps {P : State → Prop} {result : Result} {next : State → Result}
    (hresult : P result.1) (hnext : ∀ s, P s → P (next s).1) :
    P (andThen result next).1 :=
  andThen_leads hresult (fun _ hs => hs) hnext

theorem andThen_none {s : State} {next : State → Result} :
    andThen (s, none) next = next s := rfl

@[simp] theorem length_replyBody (s : State) (disposition : Nat) :
    (replyBody s disposition).length = 32 := by
  simp [replyBody]

@[simp] theorem length_exitBody (s : State) : (exitBody s).length = 28 := by
  simp [exitBody]

theorem queue_of_lt {link : Link} {s : State} {kind seq : Nat} {body : List UInt8}
    (hbody : body.length + 32 ≤ maxPayload) (hroom : s.queue.length < queueSlots) :
    queue link s kind seq body = (enqueue link s ⟨kind, seq, body⟩, none) := by
  rw [queue, if_neg]
  omega

theorem replyState_of_lt {link : Link} {s : State} {kind seq disposition : Nat}
    (hroom : s.queue.length < queueSlots) :
    replyState link s kind seq disposition =
      (enqueue link s ⟨kind, seq, replyBody s disposition⟩, none) :=
  queue_of_lt (by simp [maxPayload]) hroom

theorem cancel_of_active {s : State} (hactive : s.active = true) (now flag : Nat) :
    cancel s now flag =
      { s with
        flags := s.flags ||| flag
        cancelPhase := if s.cancelPhase = 0 then 1 else s.cancelPhase
        cancelStart := if s.cancelPhase = 0 then now else s.cancelStart
        log := s.log ++ if s.cancelPhase = 0 then signals s 15 else [] } := by
  rw [cancel, if_pos hactive]
  split
  case isTrue hphase => rfl
  case isFalse hphase => simp

theorem cancel_of_idle {s : State} (hidle : s.active = false) (now flag : Nat) :
    cancel s now flag = s := by
  simp [cancel, hidle]

theorem signals_signalled (s : State) (sig : Nat) :
    ∀ event ∈ signals s sig, ∃ pid, event = .signalled pid sig := by
  intro event hevent
  unfold signals at hevent
  split at hevent
  case isTrue =>
    rcases List.mem_cons.mp hevent with rfl | hevent
    · exact ⟨_, rfl⟩
    · split at hevent
      case isTrue => simp at hevent
      case isFalse => exact ⟨_, List.mem_singleton.mp hevent⟩
  case isFalse => simp at hevent

theorem cancel_frame (s : State) (now flag : Nat) :
    ∃ flags cancelPhase cancelStart sent,
      cancel s now flag =
        { s with flags, cancelPhase, cancelStart, log := s.log ++ sent } ∧
      ∀ event ∈ sent, ∃ pid, event = .signalled pid 15 := by
  rcases Bool.eq_false_or_eq_true s.active with hactive | hidle
  · rw [cancel_of_active hactive]
    refine ⟨_, _, _, _, rfl, ?_⟩
    split
    case isTrue => exact signals_signalled s 15
    case isFalse => simp
  · rw [cancel_of_idle hidle]
    exact ⟨s.flags, s.cancelPhase, s.cancelStart, [], by simp, by simp⟩

@[simp] theorem cancel_queue (s : State) (now flag : Nat) :
    (cancel s now flag).queue = s.queue := by
  obtain ⟨_, _, _, _, hcancel, -⟩ := cancel_frame s now flag
  rw [hcancel]

@[simp] theorem cancel_active (s : State) (now flag : Nat) :
    (cancel s now flag).active = s.active := by
  obtain ⟨_, _, _, _, hcancel, -⟩ := cancel_frame s now flag
  rw [hcancel]

/-- A request that was consumed, with the state it leaves. -/
inductive Dispatched (link : Link) (s : State) (seq kind : Nat) (body : List UInt8)
    (now : Nat) : State → Prop where
  | detached (hkind : kind = kindDetach) (hidle : s.active = false) (hpid : s.pid = 0)
      (hempty : s.queue = []) (hflags : s.flags = 0) (hdropped : s.dropped = 0) :
      Dispatched link s seq kind body now
        (enqueue link (latched s 3 seq now)
          ⟨kindDetachAck, seq, replyBody (latched s 3 seq now) 0⟩)
  | controlled (hkind : kind = kindControl) (hbody : body = []) :
      Dispatched link s seq kind body now (control s seq now)
  | overloaded (hother : ¬ (kind = kindControl ∧ body = []))
      (hfull : queueSlots - 1 ≤ s.queue.length) :
      Dispatched link s seq kind body now (overloaded s seq)
  | refused (hkind : kind = kindExec) (hbusy : s.active ∨ s.blocked)
      (hroom : s.queue.length < queueSlots - 1) :
      Dispatched link s seq kind body now
        (enqueue link s ⟨kindAck, seq, replyBody s 1⟩)
  | unspawned (hkind : kind = kindExec) (hidle : s.active = false)
      (hroom : s.queue.length < queueSlots - 1) (errno : Errno) :
      Dispatched link s seq kind body now
        (enqueue link (setupFailed (assign s seq) seq errno)
          ⟨kindExit, seq, setupBody seq errno⟩)
  | spawned (hkind : kind = kindExec) (hidle : s.active = false)
      (hopen : s.blocked = false) (hroom : s.queue.length < queueSlots - 1)
      (pid : PNat) :
      Dispatched link s seq kind body now
        (enqueue link (launched (assign s seq) body now pid)
          ⟨kindAck, seq, replyBody (launched (assign s seq) body now pid) 0⟩)
  | status (hkind : kind = kindStatus) (hroom : s.queue.length < queueSlots - 1) :
      Dispatched link s seq kind body now
        (enqueue link s ⟨kindStatusReply, seq, replyBody s 0⟩)
  | cancelled (hkind : kind = kindCancel) (htarget : value body = s.id)
      (hactive : s.active = true) (hroom : s.queue.length < queueSlots - 1) :
      Dispatched link s seq kind body now
        (enqueue link (cancel (note s (.cancelled seq)) now flagCancel)
          ⟨kindAck, seq,
            replyBody (cancel (note s (.cancelled seq)) now flagCancel) 0⟩)
  | completed (hkind : kind = kindCancel) (htarget : value body = s.lastId)
      (hnonzero : value body ≠ 0) (hroom : s.queue.length < queueSlots - 1) :
      Dispatched link s seq kind body now
        (enqueue link s ⟨kindAck, seq, replyBody s 1⟩)
  | stale (hkind : kind = kindCancel) (hid : ¬ (value body = s.id ∧ s.active = true))
      (hlast : ¬ (value body = s.lastId ∧ value body ≠ 0))
      (hroom : s.queue.length < queueSlots - 1) :
      Dispatched link s seq kind body now
        (enqueue link s ⟨kindAck, seq, replyBody s 2⟩)
  | malformed (hother : ¬ (kind = kindControl ∧ body = [])) :
      Dispatched link s seq kind body now s

theorem detach_spec (link : Link) (s : State) (seq : Nat) (body : List UInt8)
    (now : Nat) (answers : RequestAnswers) :
    Dispatched link s seq kindDetach body now (detach link s seq now answers).1 := by
  rw [detach]
  split
  case isTrue => exact .malformed (by simp)
  case isFalse hclean =>
    simp only [not_or, Bool.not_eq_true, not_not] at hclean
    obtain ⟨hidle, hpid, -, hempty, -, -, hflags, hdropped, -⟩ := hclean
    rw [replyState_of_lt (by simp [latched, hempty])]
    exact .detached rfl hidle hpid hempty hflags hdropped

theorem spawn_spec (s : State) (body : List UInt8) (now : Nat)
    (answers : RequestAnswers) :
    (∃ errno, spawn s body now answers = (s, some errno)) ∨
      ∃ pid, spawn s body now answers = (launched s body now pid, none) := by
  rw [spawn]
  split
  case isTrue =>
    cases openPipes answers with
    | error errno => exact .inl ⟨errno, rfl⟩
    | ok pid => exact .inr ⟨pid, rfl⟩
  case isFalse => exact .inl ⟨Errno.eproto, rfl⟩

theorem exec_spec (link : Link) (s : State) (seq : Nat) (body : List UInt8) (now : Nat)
    (answers : RequestAnswers) (hroom : s.queue.length < queueSlots - 1) :
    Dispatched link s seq kindExec body now (exec link s seq body now answers).1 := by
  have hroom' : s.queue.length < queueSlots := Nat.lt_of_lt_pred hroom
  rw [exec]
  split
  case isTrue hbusy =>
    rw [replyState_of_lt hroom']
    exact .refused rfl (by simpa using hbusy) hroom
  case isFalse hidle =>
    simp only [not_or, Bool.not_eq_true] at hidle
    rcases spawn_spec (assign s seq) body now answers with
      ⟨errno, hspawn⟩ | ⟨pid, hspawn⟩
    · rw [hspawn]
      simp only
      rw [queue_of_lt (by simp [setupBody, maxPayload]) (by exact hroom')]
      exact .unspawned rfl hidle.1 hroom errno
    · rw [hspawn]
      simp only
      rw [replyState_of_lt (by exact hroom')]
      exact .spawned rfl hidle.1 hidle.2 hroom pid

theorem cancelRequest_spec (link : Link) (s : State) (seq : Nat) (body : List UInt8)
    (now : Nat) (hroom : s.queue.length < queueSlots - 1) :
    Dispatched link s seq kindCancel body now
      (cancelRequest link s seq (value body) now).1 := by
  have hroom' : s.queue.length < queueSlots := Nat.lt_of_lt_pred hroom
  rw [cancelRequest]
  split
  case isTrue hcurrent =>
    rw [replyState_of_lt (by simpa [note] using hroom')]
    exact .cancelled rfl hcurrent.1 hcurrent.2 hroom
  case isFalse hid =>
    split
    case isTrue hlast =>
      rw [replyState_of_lt hroom']
      exact .completed rfl hlast.1 hlast.2 hroom
    case isFalse hlast =>
      rw [replyState_of_lt hroom']
      exact .stale rfl hid hlast hroom

theorem dispatch_spec (p : Profile) (s : State) (seq kind : Nat) (body : List UInt8)
    (now : Nat) (answers : RequestAnswers) :
    Dispatched p.link s seq kind body now
      (dispatch p s seq kind body now answers).1 := by
  rw [dispatch]
  split
  case isTrue hdetach =>
    rw [hdetach.2.1]
    exact detach_spec p.link s seq body now answers
  case isFalse =>
    split
    case isTrue hcontrol => exact .controlled hcontrol.1 hcontrol.2
    case isFalse hother =>
      split
      case isTrue hfull => exact .overloaded hother hfull
      case isFalse hroom =>
        rw [Nat.not_le] at hroom
        split
        case isTrue hexec =>
          subst hexec
          exact exec_spec p.link s seq body now answers hroom
        case isFalse =>
          split
          case isTrue hstatus =>
            rw [replyState_of_lt (Nat.lt_of_lt_pred hroom)]
            exact .status hstatus.1 hroom
          case isFalse =>
            split
            case isTrue hcancel =>
              rw [hcancel.1]
              exact cancelRequest_spec p.link s seq body now hroom
            case isFalse => exact .malformed hother

/-- One `rc1_receive`.  A frame is dispatched only when it is whole. -/
inductive Received (p : Profile) (s : State) (now : Nat) : State → Prop where
  | idle : Received p s now s
  | appended (bytes : List UInt8) (rxSize : Nat) :
      Received p s now { append s bytes now with rxSize := rxSize }
  | rejected (bytes : List UInt8) :
      Received p s now { append s bytes now with rx := [], rxSize := 0 }
  | requested (bytes : List UInt8) (rxSize : Nat) (whole : State)
      (hwhole : whole = { append s bytes now with rxSize := rxSize })
      (hlength : whole.rx.length = rxSize) (hok : requestOk p.link whole) (t : State)
      (hdispatched : Dispatched p.link
        (consume whole whole.next (headKind whole.rx) (requestBody whole))
        whole.next (headKind whole.rx) (requestBody whole) now t) :
      Received p s now { t with rx := [], rxSize := 0 }

theorem header_eq (s : State) : ∃ rxSize, (header s).1 = { s with rxSize := rxSize } := by
  rw [header]
  split
  case isTrue =>
    split
    case isTrue => exact ⟨_, rfl⟩
    case isFalse => exact ⟨s.rxSize, rfl⟩
  case isFalse => exact ⟨s.rxSize, rfl⟩

theorem complete_spec (p : Profile) (s : State) (bytes : List UInt8) (rxSize now : Nat)
    (answers : RequestAnswers) :
    Received p s now
      (complete p { append s bytes now with rxSize := rxSize } now answers).1 := by
  rw [complete]
  split
  case isTrue hwhole =>
    rw [request]
    split
    case isTrue hok =>
      have hseq := hok.2.1
      rw [hseq]
      exact .requested bytes rxSize _ rfl hwhole.2 hok _ (dispatch_spec p _ _ _ _ now _)
    case isFalse => exact .rejected bytes
  case isFalse => exact .appended bytes rxSize

theorem receive_spec (p : Profile) (s : State) (now : Nat) (answer : ReadAnswer)
    (answers : RequestAnswers) :
    Received p s now (receive p s now answer answers).1 := by
  cases answer with
  | failed errno => exact .idle
  | data bytes =>
    rw [receive]
    split
    case isTrue => exact .idle
    case isFalse =>
      obtain ⟨rxSize, hheader⟩ := header_eq (append s bytes now)
      rcases hresult : header (append s bytes now) with ⟨t, error⟩
      obtain rfl : t = { append s bytes now with rxSize := rxSize } := by
        rw [← hheader, hresult]
      cases error with
      | none => exact complete_spec p s bytes rxSize now answers
      | some errno => exact .appended bytes rxSize

inductive Slotted (link : Link) (s : State) (stream : Nat) : State → Prop where
  | idle : Slotted link s stream s
  | ended (hopen : s.pipe stream = true) :
      Slotted link s stream (closePipe (note s (.ended s.id stream)) stream)
  | discarded (data : List UInt8) (hopen : s.pipe stream = true) (hdata : data ≠ [])
      (hchunk : data.length ≤ outputChunk)
      (hfull : outputLimit < s.total + data.length ∨ outputFrameLimit ≤ s.ordinal) :
      Slotted link s stream (discard (note s (.read s.id stream data)) data.length)
  | forwarded (data : List UInt8) (hopen : s.pipe stream = true) (hdata : data ≠ [])
      (hchunk : data.length ≤ outputChunk) (htotal : s.total + data.length ≤ outputLimit)
      (hordinal : s.ordinal < outputFrameLimit)
      (hroom : s.queue.length < queueSlots - 3) :
      Slotted link s stream
        { enqueue link (note s (.read s.id stream data))
            ⟨kindOutput, s.id, outputBody s stream data⟩ with
          ordinal := s.ordinal + 1
          total := s.total + data.length
          outputTurn := (stream + 1) % 2 }

theorem outputData_spec (link : Link) (s : State) (stream : Nat) (data : List UInt8)
    (hopen : s.pipe stream = true) (hstalled : ¬ outputStalled s) (hdata : data ≠ [])
    (hchunk : data.length ≤ outputChunk) :
    Slotted link s stream (outputData link s stream data).1 := by
  rw [outputData]
  split
  case isTrue hfull => exact .discarded data hopen hdata hchunk hfull
  case isFalse hfits =>
    simp only [not_or, Nat.not_lt, Nat.not_le, gt_iff_lt, ge_iff_le] at hfits
    obtain ⟨htotal, hordinal⟩ : s.total + data.length ≤ outputLimit ∧
      s.ordinal < outputFrameLimit := hfits
    have hpositive := List.length_pos_iff.mpr hdata
    have hroom : s.queue.length < queueSlots - 3 := by
      by_contra hfull
      exact hstalled ⟨Nat.not_lt.mp hfull, by omega, hordinal⟩
    have hbody : (outputBody s stream data).length + 32 ≤ maxPayload := by
      simp only [outputBody, List.length_append, length_words, List.length_cons,
        List.length_nil, maxPayload, outputChunk] at hchunk ⊢
      omega
    have hqueue := @queue_of_lt link
      { note s (.read s.id stream data) with ordinal := s.ordinal + 1 } kindOutput s.id
      (outputBody s stream data) hbody (Nat.lt_of_lt_of_le hroom (Nat.sub_le _ _))
    have hforward : (forward link (note s (.read s.id stream data)) stream data).1 =
        { enqueue link (note s (.read s.id stream data))
            ⟨kindOutput, s.id, outputBody s stream data⟩ with
          ordinal := s.ordinal + 1
          total := s.total + data.length
          outputTurn := (stream + 1) % 2 } := by
      rw [forward]
      exact congrArg (fun result => (andThen result _).1) hqueue
    rw [hforward]
    exact .forwarded data hopen hdata hchunk htotal hordinal hroom

theorem outputSlot_spec (link : Link) (s : State) (stream : Nat) (answer : ReadAnswer) :
    Slotted link s stream (outputSlot link s stream answer).1 := by
  rw [outputSlot]
  split
  case isTrue => exact .idle
  case isFalse hready =>
    simp only [not_or, Bool.not_eq_false] at hready
    cases answer with
    | failed errno => exact .idle
    | data bytes =>
      have hchunk : (bytes.take outputChunk).length ≤ outputChunk :=
        List.length_take_le _ _
      simp only [ReadAnswer.clip]
      cases hdata : bytes.take outputChunk with
      | nil => exact .ended hready.1
      | cons byte data =>
        rw [hdata] at hchunk
        exact outputData_spec link s stream (byte :: data) hready.1 hready.2
          (List.cons_ne_nil byte data) hchunk

theorem Slotted.active {link : Link} {s t : State} {stream : Nat}
    (hslot : Slotted link s stream t) : t.active = s.active := by
  cases hslot <;> rfl

inductive Executed (s : State) (answer : ReadAnswer) : State → Prop where
  | idle : Executed s answer s
  | started (hopen : s.pipe 2 = true) (hbytes : s.execBytes = []) :
      Executed s answer (closePipe { s with execSeen := true } 2)
  | incomplete (bytes : List UInt8) :
      Executed s answer { s with execBytes := s.execBytes ++ bytes }
  | failed (bytes : List UInt8) (hopen : s.pipe 2 = true)
      (hanswer : answer = .data bytes) (report : List UInt8)
      (hreport : report = s.execBytes ++ bytes.take (4 - s.execBytes.length))
      (hlength : report.length = 4) (hbytes : bytes ≠ []) :
      Executed s answer
        (closePipe
          { s with
            execBytes := report
            execErrno := toSigned (value report)
            flags := s.flags ||| flagSetup
            execSeen := true } 2)

theorem execStage_spec (s : State) (answer : ReadAnswer) :
    Executed s answer (execStage s answer).1 := by
  rw [execStage]
  split
  case isTrue => exact .idle
  case isFalse hopen =>
    rw [Bool.not_eq_false] at hopen
    cases answer with
    | failed errno => exact .idle
    | data bytes =>
      simp only [ReadAnswer.clip]
      cases hbytes : bytes.take (4 - s.execBytes.length) with
      | nil =>
        simp only
        split
        case isTrue => exact .idle
        case isFalse hempty => exact .started hopen (not_not.mp hempty)
      | cons byte rest =>
        simp only
        split
        case isTrue hlength =>
          refine .failed bytes hopen rfl _ (by rw [hbytes]) hlength ?_
          rintro rfl
          simp at hbytes
        case isFalse => exact .incomplete (byte :: rest)

theorem Executed.active {s t : State} {answer : ReadAnswer}
    (hexecuted : Executed s answer t) : t.active = s.active := by
  cases hexecuted <;> rfl

inductive Waited (s : State) (now : Nat) (answer : WaitAnswer) : State → Prop where
  | idle : Waited s now answer s
  | reaped (status : WaitStatus) (hanswer : answer = .reaped status)
      (hreaped : s.reaped = false) :
      Waited s now answer
        (cancel { s with status := status.word, reaped := true, drainStart := now } now 0)

theorem waitStage_spec (s : State) (now : Nat) (answer : WaitAnswer) :
    Waited s now answer (waitStage s now answer).1 := by
  unfold waitStage
  split
  case isTrue => exact .idle
  case isFalse hreaped =>
    cases answer with
    | running => exact .idle
    | failed errno => exact .idle
    | reaped status => exact .reaped status rfl (Bool.eq_false_iff.mpr hreaped)

theorem Waited.active {s t : State} {now : Nat} {answer : WaitAnswer}
    (hwaited : Waited s now answer t) : t.active = s.active := by
  cases hwaited with
  | idle => rfl
  | reaped status hanswer hreaped => exact cancel_active _ now 0

/-- The terminal of `rc1_child_tick`: nothing, flags without room for the frame, or
the frame. -/
inductive Reaped (link : Link) (s : State) : State → Prop where
  | idle : Reaped link s s
  | held (isClean : Bool) (t : State) (ht : t = unknownFlags (uncleanFlags s isClean))
      (hclean : isClean = true → s.reaped = true ∧ s.pipe 0 = false ∧
        s.pipe 1 = false ∧ s.execSeen = true) :
      Reaped link s t
  | sent (isClean : Bool) (t : State) (ht : t = unknownFlags (uncleanFlags s isClean))
      (hclean : isClean = true → s.reaped = true ∧ s.pipe 0 = false ∧
        s.pipe 1 = false ∧ s.execSeen = true)
      (hroom : s.queue.length < queueSlots - 1) :
      Reaped link s
        { retire (enqueue link t ⟨kindExit, t.id, exitBody t⟩) with
          pid := if isClean then 0 else t.pid }

@[simp] theorem unknownFlags_queue (s : State) : (unknownFlags s).queue = s.queue := rfl

@[simp] theorem uncleanFlags_queue (s : State) (isClean : Bool) :
    (uncleanFlags s isClean).queue = s.queue := by
  cases isClean <;> rfl

theorem sendTerminal_of_lt {link : Link} {s : State}
    (hroom : s.queue.length < queueSlots) :
    sendTerminal link s =
      (retire (enqueue link s ⟨kindExit, s.id, exitBody s⟩), none) := by
  rw [sendTerminal, queue_of_lt (by simp [maxPayload]) hroom, andThen_none]

theorem terminalStage_spec (link : Link) (s : State) (isClean : Bool)
    (hclean : isClean = true → s.reaped = true ∧ s.pipe 0 = false ∧
      s.pipe 1 = false ∧ s.execSeen = true) :
    Reaped link s (terminalStage link s isClean).1 := by
  simp only [terminalStage, unknownFlags_queue, uncleanFlags_queue]
  split
  case isTrue => exact .held isClean _ rfl hclean
  case isFalse hroom =>
    rw [Nat.not_le] at hroom
    rw [sendTerminal_of_lt (by simpa using Nat.lt_of_lt_pred hroom), andThen_none]
    have hsent : Reaped link s _ := .sent isClean _ rfl hclean hroom
    cases isClean with
    | false => exact hsent
    | true => exact hsent

theorem reapStage_spec (link : Link) (s : State) (now : Nat) (answers : ChildAnswers) :
    Reaped link s (reapStage link s now answers).1 := by
  rw [reapStage]
  split
  case isTrue =>
    cases groupFailure s answers with
    | some errno => exact .idle
    | none =>
      simp only
      split
      case isTrue =>
        apply terminalStage_spec
        intro hclean
        obtain ⟨hreaped, -, -, hstdout, hstderr, hseen⟩ := of_decide_eq_true hclean
        exact ⟨hreaped, hstdout, hstderr, hseen⟩
      case isFalse => exact .idle
  case isFalse => exact .idle

inductive Controlled (link : Link) (s : State) (answer : WaitAnswer) : State → Prop where
  | idle : Controlled link s answer s
  | acknowledged (hcontrol : s.control ≠ 2 ∧ s.control ≠ 3) (hempty : s.queue = [])
      (hidle : s.active = false) :
      Controlled link s answer
        { enqueue link s ⟨kindControlAck, s.controlSeq, replyBody s 0⟩ with control := 2 }
  | interrupted (hcontrol : s.control ≠ 2 ∧ s.control ≠ 3) (hempty : s.queue = [])
      (hactive : s.active = true) (t r : State)
      (ht : t = controlFlags (controlWait s answer))
      (hr : r = retire (enqueue link t ⟨kindExit, t.id, exitBody t⟩)) :
      Controlled link s answer
        { enqueue link r ⟨kindControlAck, r.controlSeq, replyBody r 0⟩ with control := 2 }

@[simp] theorem controlWait_queue (s : State) (answer : WaitAnswer) :
    (controlWait s answer).queue = s.queue := by
  unfold controlWait
  split <;> rfl

theorem controlTick_spec (link : Link) (s : State) (answer : WaitAnswer) :
    Controlled link s answer (controlTick link s answer).1 := by
  rw [controlTick]
  split
  case isTrue => exact .idle
  case isFalse hready =>
    simp only [not_or, not_not] at hready
    obtain ⟨hdetach, hempty, hdone⟩ := hready
    rw [controlTerminal]
    split
    case isTrue hactive =>
      rw [sendTerminal_of_lt (by simp [controlFlags, hempty]), andThen_none,
        replyState_of_lt (by simp [retire, closePipes, enqueue, controlFlags, hempty]),
        andThen_none]
      exact .interrupted ⟨hdone, hdetach⟩ hempty hactive _ _ rfl rfl
    case isFalse hidle =>
      rw [andThen_none, replyState_of_lt (by simp [hempty]), andThen_none]
      exact .acknowledged ⟨hdone, hdetach⟩ hempty (Bool.eq_false_iff.mpr hidle)

inductive Faulted (link : Link) (s : State) : State → Prop where
  | idle : Faulted link s s
  | sent (hoverload : s.overload ≠ 0) (hfresh : s.faultSent = false)
      (hcontrol : s.control = 0) (hroom : s.queue.length < queueSlots - 1) :
      Faulted link s
        { enqueue link s ⟨kindFault, s.overload, words [s.overload, 1]⟩ with
          faultSent := true }

theorem faultStage_spec (link : Link) (s : State) :
    Faulted link s (faultStage link s).1 := by
  rw [faultStage]
  split
  case isTrue hdue =>
    rw [queue_of_lt (by simp [maxPayload]) (Nat.lt_of_lt_pred hdue.2.2.2), andThen_none]
    exact .sent hdue.1 hdue.2.1 hdue.2.2.1 hdue.2.2.2
  case isFalse => exact .idle

def unsent (queue : List Queued) : List UInt8 :=
  queue.flatMap fun frame => frame.bytes.drop frame.used

theorem flush_spec (s : State) (answer : WriteAnswer) :
    ∃ queue, (flush s answer).1.1 = { s with queue := queue } ∧
      queue.length ≤ s.queue.length ∧
      (flush s answer).2 ++ unsent queue = unsent s.queue := by
  unfold flush
  split
  case h_1 hempty => exact ⟨s.queue, rfl, Nat.le_refl _, rfl⟩
  case h_2 frame rest hqueue =>
    cases answer with
    | failed errno => exact ⟨s.queue, rfl, Nat.le_refl _, by rw [hqueue]; rfl⟩
    | wrote count =>
      simp only
      split
      case isTrue => exact ⟨s.queue, rfl, Nat.le_refl _, by rw [hqueue]; rfl⟩
      case isFalse hcount =>
        split
        case isTrue hwhole =>
          refine ⟨rest, rfl, by rw [hqueue]; exact Nat.le_succ _, ?_⟩
          rw [hqueue, unsent, unsent, List.flatMap_cons, window,
            List.take_of_length_le]
          rw [List.length_drop]
          omega
        case isFalse =>
          refine ⟨_, rfl, by rw [hqueue]; exact Nat.le_refl _, ?_⟩
          rw [hqueue, unsent, unsent, List.flatMap_cons, List.flatMap_cons, window,
            ← List.append_assoc, ← List.drop_drop, List.take_append_drop]

/-- What a stage of `rc1_child_tick` does to the state of a running command. -/
inductive Stage (link : Link) (now : Nat) (s : State) : State → Prop where
  | timedOut : Stage link now s (cancel s now flagTimeout)
  | killed : Stage link now s { signal s 9 with cancelPhase := 2 }
  | slotted {t : State} (stream : Nat) (hstream : stream < 2) (hslot : Slotted link s stream t) :
      Stage link now s t
  | executed {t : State} (answer : ReadAnswer) (hexecuted : Executed s answer t) :
      Stage link now s t
  | waited {t : State} (answer : WaitAnswer) (hwaited : Waited s now answer t) :
      Stage link now s t
  | reaped {t : State} (hreaped : Reaped link s t) : Stage link now s t

section Runs

variable {P : State → Prop} {p : Profile} {link : Link} {s : State} {answers : TickAnswers}

theorem outputTick_keeps {answers : Nat → ReadAnswer}
    (hslot : ∀ s stream answer, stream < 2 → P s → P (outputSlot link s stream answer).1) (hs : P s) :
    P (outputTick link s answers).1 :=
  andThen_keeps (hslot s _ _ (Nat.mod_lt _ (by decide)) hs) fun t ht =>
    hslot t _ _ (Nat.mod_lt _ (by decide)) ht

theorem childTick_keeps {now : Nat} {answers : ChildAnswers}
    (hstage : ∀ s t, s.active = true → P s → Stage link now s t → P t) (hs : P s) :
    P (childTick link s now answers).1 := by
  rw [childTick]
  split
  case isTrue => exact hs
  case isFalse h =>
    -- Only the last stage can end the command.
    let Q (t : State) : Prop := P t ∧ t.active = true
    have hstop (t : State) (ht : Q t) : P t := ht.1
    have hnext {t u : State} (ht : Q t) (hactive : u.active = t.active)
        (htu : Stage link now t u) : Q u :=
      ⟨hstage t u ht.2 ht.1 htu, hactive.trans ht.2⟩
    have hrunning : Q s := ⟨hs, Bool.eq_true_of_not_eq_false h⟩
    have htimeout : Q (timeoutStage s now) := by
      rw [timeoutStage]
      split
      case isTrue => exact hnext hrunning (cancel_active s now flagTimeout) .timedOut
      case isFalse => exact hrunning
    have hkill : Q (killStage (timeoutStage s now) now) := by
      rw [killStage]
      split
      case isTrue => exact hnext htimeout rfl .killed
      case isFalse => exact htimeout
    have hslot (t : State) (stream : Nat) (answer : ReadAnswer) (hstream : stream < 2) (ht : Q t) :
        Q (outputSlot link t stream answer).1 :=
      have hslot := outputSlot_spec link t stream answer
      hnext ht hslot.active (.slotted stream hstream hslot)
    refine andThen_leads (P := Q) (outputTick_keeps hslot hkill) hstop fun t ht => ?_
    have hexecuted := execStage_spec t answers.exec
    refine andThen_leads (hnext ht hexecuted.active (.executed _ hexecuted)) hstop fun t ht => ?_
    have hwaited := waitStage_spec t now answers.wait
    exact andThen_leads (hnext ht hwaited.active (.waited _ hwaited)) hstop
      fun t ht => hstage _ _ ht.2 ht.1 (.reaped (reapStage_spec link t now answers))

/-- The stages that follow `rc1_receive` keep the invariant. -/
structure Carried (p : Profile) (P : State → Prop) : Prop where
  child : ∀ s now answers, s.control = 0 → P s → P (childTick p.link s now answers).1
  control : ∀ s answer, s.control ≠ 0 → P s → P (controlTick p.link s answer).1
  fault : ∀ s, P s → P (faultStage p.link s).1
  queue : ∀ s queue, queue.length ≤ s.queue.length → P s → P { s with queue := queue }
  signal : ∀ s, P s → P (signal s 9)

/-- An invariant of the loop is kept by each of its stages. -/
structure Kept (p : Profile) (P : State → Prop) : Prop extends Carried p P where
  receive : ∀ s now answer answers, s.control = 0 → P s →
    P (receive p s now answer answers).1

def filling (p : Profile) (s : State) (now : Nat) (answers : TickAnswers) : Result :=
  andThen (receiveStage p s now answers) fun s =>
    andThen (progressStage p s now answers) fun s => faultStage p.link s

theorem andThen_assoc (result : Result) (first second : State → Result) :
    andThen (andThen result first) second =
      andThen result fun s => andThen (first s) second := by
  rcases result with ⟨s, error⟩
  cases error <;> rfl

theorem stages_eq (p : Profile) (s : State) (now : Nat) (answers : TickAnswers) :
    stages p s now answers =
      andThen (filling p s now answers) fun s => (flush s answers.write).1 := by
  simp only [stages, filling, andThen_assoc]

theorem Carried.filling (hcarried : Carried p P) {now : Nat}
    (hreceived : P (receiveStage p s now answers).1) : P (filling p s now answers).1 := by
  refine andThen_keeps hreceived fun s hs => andThen_keeps ?_ fun s hs =>
    hcarried.fault s hs
  rw [progressStage]
  split
  case isTrue hcontrol =>
    split
    case isTrue => exact hs
    case isFalse => exact hcarried.control s _ hcontrol hs
  case isFalse hcontrol => exact hcarried.child s now _ (not_not.mp hcontrol) hs

theorem Carried.stages (hcarried : Carried p P) {now : Nat}
    (hreceived : P (receiveStage p s now answers).1) : P (stages p s now answers).1 := by
  rw [stages_eq]
  refine andThen_keeps (hcarried.filling hreceived) fun s hs => ?_
  obtain ⟨queue, hflush, hlength, -⟩ := flush_spec s answers.write
  rw [hflush]
  exact hcarried.queue s queue hlength hs

theorem Carried.tick (hcarried : Carried p P) (hs : P s) (hreceived : ∀ now, answers.now = .ok now →
      deadline p s now answers = none → P (receiveStage p s now answers).1) :
    ∃ t, P t ∧ (tick p s answers).1.log = t.log ∧
      ((tick p s answers).2 = .continued → (tick p s answers).1 = t) ∧
      ((tick p s answers).2 = .controlled → t.control = 2) := by
  have hstop (s : State) (errno : Errno) (hs : P s) :
      ∃ t, P t ∧ (stop s).log = t.log ∧ (Turn.failed errno = .continued → stop s = t) ∧
        (Turn.failed errno = .controlled → t.control = 2) :=
    ⟨Device.signal s 9, hcarried.signal s hs, rfl, by simp, by simp⟩
  unfold Device.tick
  split
  case h_1 errno hnow => exact hstop s errno hs
  case h_2 now hnow =>
    split
    case h_1 errno hdeadline => exact hstop s errno hs
    case h_2 hdeadline =>
      have hstages := hcarried.stages (hreceived now hnow hdeadline)
      split
      case h_1 t errno hresult =>
        rw [hresult] at hstages
        exact hstop t errno hstages
      case h_2 t hresult =>
        rw [hresult] at hstages
        rw [finish]
        split
        case isTrue => exact ⟨t, hstages, rfl, by simp, by simp⟩
        case isFalse =>
          split
          case isTrue hdone =>
            exact ⟨Device.signal t 9, hcarried.signal t hstages, rfl, by simp,
              fun _ => hdone.1⟩
          case isFalse => exact ⟨t, hstages, rfl, fun _ => rfl, by simp⟩

theorem Kept.receiveStage (hkept : Kept p P) (now : Nat) (answers : TickAnswers) (hs : P s) :
    P (receiveStage p s now answers).1 := by
  rw [Device.receiveStage]
  split
  case isTrue hcontrol => exact hkept.receive s now _ _ hcontrol hs
  case isFalse => exact hs

theorem Carried.turns (hcarried : Carried p P) (Fair : State → List TickAnswers → Prop)
    (hreceive : ∀ s answers rest, Fair s (answers :: rest) → P s →
      ∀ now, answers.now = .ok now → P (receiveStage p s now answers).1)
    (hnext : ∀ s answers rest, Fair s (answers :: rest) →
      (Device.tick p s answers).2 = .continued → Fair (Device.tick p s answers).1 rest)
    (answers : List TickAnswers) (hfair : Fair s answers) (hs : P s) :
    ∃ t, P t ∧ (turns p s answers).1.log = t.log ∧
      ((turns p s answers).2 = .continued → (turns p s answers).1 = t) ∧
      ((turns p s answers).2 = .controlled → t.control = 2) := by
  induction answers generalizing s with
  | nil => exact ⟨s, hs, rfl, fun _ => rfl, by simp [Device.turns]⟩
  | cons answer answers ih =>
    obtain ⟨t, ht, hlog, hcontinued, hcontrolled⟩ :=
      hcarried.tick hs fun now hnow _ => hreceive s answer answers hfair hs now hnow
    rw [Device.turns]
    split
    case h_1 u hresult =>
      have hfair' := hnext s answer answers hfair
      rw [hresult] at hcontinued hfair'
      obtain rfl : u = t := hcontinued rfl
      exact ih (hfair' rfl) ht
    case h_2 => exact ⟨t, ht, hlog, hcontinued, hcontrolled⟩

theorem Kept.turns (hkept : Kept p P) (answers : List TickAnswers) (hs : P s) :
    ∃ t, P t ∧ (turns p s answers).1.log = t.log ∧
      ((turns p s answers).2 = .continued → (turns p s answers).1 = t) ∧
      ((turns p s answers).2 = .controlled → t.control = 2) :=
  hkept.toCarried.turns (fun _ _ => True)
    (fun _ answers _ _ hs now _ => hkept.receiveStage now answers hs)
    (fun _ _ _ _ _ => trivial) answers trivial hs

end Runs

end NativeInitLab.RootConsole.Device
