import Mathlib.Data.List.Nodup
import NativeInitLab.RootConsole.Reader

namespace NativeInitLab.RootConsole.Device

open LittleEndian EventLog

/-! The account of a command: what was read from its pipes, what was forwarded and
what its terminal says. -/

namespace Event

def output (id : Nat) : Event → List (List UInt8)
  | .queued frame => if frame.kind = kindOutput ∧ frame.seq = id then [frame.body] else []
  | _ => []

def exit (id : Nat) : Event → List (List UInt8)
  | .queued frame => if frame.kind = kindExit ∧ frame.seq = id then [frame.body] else []
  | _ => []

def reads (id stream : Nat) : Event → List UInt8
  | .read id' stream' data => if id' = id ∧ stream' = stream then data else []
  | _ => []

structure Foreign (id : Nat) (event : Event) : Prop where
  output : event.output id = []
  exit : event.exit id = []
  reads : ∀ stream, event.reads id stream = []

end Event

/-- The OUTPUT and EXIT bodies of a command and the bytes read from its pipes. -/
structure Account where
  outputs : List (List UInt8)
  exits : List (List UInt8)
  reads : Nat → List UInt8

def account (id : Nat) (log : List Event) : Account where
  outputs := log.flatMap (Event.output id)
  exits := log.flatMap (Event.exit id)
  reads stream := log.flatMap (Event.reads id stream)

namespace Account

def forwarded (a : Account) (stream : Nat) : List UInt8 :=
  a.outputs.flatMap fun body => if word 2 body = stream + 1 then body.drop 12 else []

def forwardedBytes (a : Account) : Nat :=
  (a.outputs.map fun body => body.length - 12).sum

def readBytes (a : Account) : Nat := (a.reads 0).length + (a.reads 1).length

end Account

theorem account_append (id : Nat) (log events : List Event) :
    account id (log ++ events) =
      ⟨(account id log).outputs ++ (account id events).outputs,
        (account id log).exits ++ (account id events).exits,
        fun stream => (account id log).reads stream ++ (account id events).reads stream⟩ := by
  simp [account]

theorem account_foreign {id : Nat} {events : List Event}
    (hforeign : ∀ event ∈ events, event.Foreign id) :
    account id events = ⟨[], [], fun _ => []⟩ := by
  simp only [account, Account.mk.injEq]
  refine ⟨?_, ?_, ?_⟩
  · exact List.flatMap_eq_nil_iff.mpr fun event hevent => (hforeign event hevent).output
  · exact List.flatMap_eq_nil_iff.mpr fun event hevent => (hforeign event hevent).exit
  · funext stream
    exact List.flatMap_eq_nil_iff.mpr fun event hevent =>
      (hforeign event hevent).reads stream

theorem account_append_foreign {id : Nat} {log events : List Event}
    (hforeign : ∀ event ∈ events, event.Foreign id) :
    account id (log ++ events) = account id log := by
  rw [account_append, account_foreign hforeign]
  simp

structure Running (s : State) : Prop where
  ordinals : (account s.id s.log).outputs.map (word 1) = List.range' 1 s.ordinal
  total : (account s.id s.log).forwardedBytes = s.total
  total_le : s.total ≤ outputLimit
  ordinal_le : s.ordinal ≤ outputFrameLimit
  open_ : (account s.id s.log).exits = []
  read : s.total ≤ (account s.id s.log).readBytes
  dropped : s.dropped = min ((account s.id s.log).readBytes - s.total) (2 ^ 32 - 1)
  flags : s.flags < 512
  forwarded : s.flags.testBit 2 = false → ∀ stream < 2,
    (account s.id s.log).forwarded stream = (account s.id s.log).reads stream
  ended : ∀ stream < 2, s.pipe stream = false → .ended s.id stream ∈ s.log

/-- What one terminal says of the account that it closes; without the flags for
truncated and incomplete output, each stream is `whole`. -/
structure Terminal (a : Account) (whole : Nat → Prop) (exit : List UInt8) : Prop where
  total : word 4 exit = a.forwardedBytes
  total_le : word 4 exit ≤ outputLimit
  ordinal : word 6 exit = a.outputs.length
  ordinal_le : word 6 exit ≤ outputFrameLimit
  read : word 4 exit ≤ a.readBytes
  dropped : word 5 exit = min (a.readBytes - word 4 exit) (2 ^ 32 - 1)
  forwarded : ¬ bit (word 1 exit) flagTruncated →
    ¬ bit (word 1 exit) flagOutputIncomplete → ∀ stream < 2, whole stream

theorem Terminal.mono {a : Account} {whole whole' : Nat → Prop} {exit : List UInt8}
    (hterminal : Terminal a whole exit) (hwhole : ∀ stream < 2, whole stream → whole' stream) :
    Terminal a whole' exit :=
  { hterminal with
    forwarded := fun htruncated hincomplete stream hstream =>
      hwhole stream hstream (hterminal.forwarded htruncated hincomplete stream hstream) }

structure Settled (log : List Event) (id : Nat) : Prop where
  ordinals : (account id log).outputs.map (word 1) =
    List.range' 1 (account id log).outputs.length
  exit : ∃ exit, (account id log).exits = [exit] ∧
    Terminal (account id log) (fun stream =>
      (account id log).forwarded stream = (account id log).reads stream ∧
        .ended id stream ∈ log) exit

theorem Settled.append {log events : List Event} {id : Nat} (hlog : Settled log id)
    (hforeign : ∀ event ∈ events, event.Foreign id) : Settled (log ++ events) id := by
  have haccount : account id (log ++ events) = account id log :=
    account_append_foreign hforeign
  constructor
  · rw [haccount]
    exact hlog.ordinals
  · obtain ⟨exit, hexits, hterminal⟩ := hlog.exit
    rw [haccount]
    refine ⟨exit, hexits, hterminal.mono ?_⟩
    exact fun stream _ h => ⟨h.1, List.mem_append_left events h.2⟩

/-- Each command is spawned after the terminals of all earlier ones. -/
def Successive (log : List Event) : Prop :=
  ∀ before id after, log = before ++ .spawned id :: after → ∀ earlier,
    .spawned earlier ∈ before → (account earlier before).exits ≠ []

structure Accounted (s : State) : Prop where
  acknowledged : ∀ id body, .queued ⟨kindAck, id, body⟩ ∈ s.log → word 1 body = 0 →
    .spawned id ∈ s.log ∨ ∃ target, .consumed id kindCancel target ∈ s.log
  running : s.active = true → Running s
  settled : ∀ id, .spawned id ∈ s.log → Settled s.log id ∨ s.active = true ∧ id = s.id
  ordered : ∀ id, NoneAfter (fun event => event.exit id ≠ [])
    (fun event => event.output id ≠ []) s.log
  successive : Successive s.log
  controlled : s.control = 2 → s.active = false

section Accounting

variable {link : Link} {s t : State}

/-- An event that belongs to no account and accepts no command. -/
structure Event.Bland (event : Event) : Prop where
  foreign : ∀ id, event.Foreign id
  spawned : ∀ id, event ≠ .spawned id
  ack : ∀ id body, event = .queued ⟨kindAck, id, body⟩ → word 1 body ≠ 0

def Event.plain : Event → Bool
  | .queued _ => false
  | .read .. => false
  | .spawned _ => false
  | _ => true

theorem bland_of_plain {event : Event} (hplain : event.plain = true) : event.Bland := by
  cases event with
  | queued => cases hplain
  | read => cases hplain
  | spawned => cases hplain
  | _ => exact ⟨fun _ => ⟨rfl, rfl, fun _ => rfl⟩, by simp, by simp⟩

theorem bland_signalled {sig : Nat} {sent : List Event}
    (hsent : ∀ event ∈ sent, ∃ pid, event = .signalled pid sig) :
    ∀ event ∈ sent, event.Bland := by
  intro event hevent
  obtain ⟨pid, rfl⟩ := hsent event hevent
  exact bland_of_plain rfl

theorem bland_queued {frame : Frame} (houtput : frame.kind ≠ kindOutput)
    (hexit : frame.kind ≠ kindExit) (hack : frame.kind = kindAck → word 1 frame.body ≠ 0) :
    (Event.queued frame).Bland := by
  refine ⟨fun id => ⟨?_, ?_, fun stream => rfl⟩, by simp, ?_⟩
  · simp [Event.output, houtput]
  · simp [Event.exit, hexit]
  · rintro id body hframe
    cases hframe
    exact hack rfl

theorem Running.congr (hs : Running s) (events : List Event)
    (hlog : t.log = s.log ++ events) (hbland : ∀ event ∈ events, event.Foreign s.id)
    (hstate : t.id = s.id ∧ t.ordinal = s.ordinal ∧ t.total = s.total ∧
      t.dropped = s.dropped)
    (hflags : t.flags < 512) (htruncated : t.flags.testBit 2 = s.flags.testBit 2)
    (hpipe : ∀ stream < 2, t.pipe stream = false →
      s.pipe stream = false ∨ .ended s.id stream ∈ events) : Running t := by
  obtain ⟨hid, hordinal, htotal, hdropped⟩ := hstate
  have haccount : account t.id t.log = account s.id s.log := by
    rw [hid, hlog, account_append_foreign hbland]
  refine ⟨?_, ?_, ?_, ?_, ?_, ?_, ?_, hflags, ?_, ?_⟩
  · rw [haccount, hordinal]
    exact hs.ordinals
  · rw [haccount, htotal]
    exact hs.total
  · rw [htotal]
    exact hs.total_le
  · rw [hordinal]
    exact hs.ordinal_le
  · rw [haccount]
    exact hs.open_
  · rw [haccount, htotal]
    exact hs.read
  · rw [haccount, htotal, hdropped]
    exact hs.dropped
  · rw [haccount, htruncated]
    exact hs.forwarded
  · intro stream hstream hclosed
    rw [hid, hlog]
    rcases hpipe stream hstream hclosed with hold | hnew
    · exact List.mem_append_left events (hs.ended stream hstream hold)
    · exact List.mem_append_right s.log hnew

theorem or_flag {flags : Nat} (mask : Nat) (hmask : mask < 512) (hbit : mask.testBit 2 = false)
    (hflags : flags < 512) :
    flags ||| mask < 512 ∧ (flags ||| mask).testBit 2 = flags.testBit 2 := by
  refine ⟨Nat.or_lt_two_pow (n := 9) hflags hmask, ?_⟩
  rw [Nat.testBit_or, hbit, Bool.or_false]

/-- What of a state its account is about, apart from the log. -/
def State.ledger (s : State) :=
  (s.active, s.id, s.ordinal, s.total, s.dropped, s.flags, s.pipe, s.control)

section

variable (hs : Accounted s)
include hs

theorem Accounted.grow (events : List Event) (hlog : t.log = s.log ++ events)
    (hspawned : ∀ id, .spawned id ∉ events)
    (hack : ∀ id body, .queued ⟨kindAck, id, body⟩ ∈ events → word 1 body = 0 →
      ∃ target, .consumed id kindCancel target ∈ s.log)
    (hforeign : ∀ id, .spawned id ∈ s.log → Settled s.log id →
      ∀ event ∈ events, event.Foreign id)
    (houtput : ∀ id, (∀ event ∈ events, event.output id = []) ∨
      (∀ event ∈ events, event.exit id = []) ∧ (account id s.log).exits = [])
    (hcurrent : s.active = true → Settled t.log s.id ∨ t.active = true ∧ s.id = t.id)
    (hrunning : t.active = true → Running t) (hcontrolled : t.control = 2 → t.active = false) :
    Accounted t := by
  refine ⟨?_, hrunning, ?_, ?_, ?_, hcontrolled⟩
  · intro id body hmem hzero
    rw [hlog] at hmem ⊢
    rcases List.mem_append.mp hmem with hold | hnew
    · rcases hs.acknowledged id body hold hzero with hspawn | ⟨target, htarget⟩
      · exact .inl (List.mem_append_left events hspawn)
      · exact .inr ⟨target, List.mem_append_left events htarget⟩
    · obtain ⟨target, htarget⟩ := hack id body hnew hzero
      exact .inr ⟨target, List.mem_append_left events htarget⟩
  · intro id hmem
    rw [hlog] at hmem
    rcases List.mem_append.mp hmem with hold | hnew
    · rcases hs.settled id hold with hsettled | ⟨hactive, rfl⟩
      · rw [hlog]
        exact .inl (hsettled.append (hforeign id hold hsettled))
      · exact hcurrent hactive
    · exact absurd hnew (hspawned id)
  · intro id
    rw [hlog]
    rcases houtput id with hnone | ⟨hnone, hopen⟩
    · refine (hs.ordered id).append ?_ ?_
      · intro before event after hsplit _ later hlater hout
        exact hout (hnone later (by simp [hsplit, hlater]))
      · exact fun _ event hevent hout => hout (hnone event hevent)
    · refine (hs.ordered id).append (noneAfter_of_forall_not ?_) ?_
      · exact fun event hevent hexit => hexit (hnone event hevent)
      · rintro ⟨event, hevent, hexit⟩
        exact absurd (List.flatMap_eq_nil_iff.mp hopen event hevent) hexit
  · intro before id after hsplit earlier hearlier
    rw [hlog] at hsplit
    rcases split_append hsplit with ⟨rest, hbefore, -⟩ | ⟨rest, rfl, hrest⟩
    · exact hs.successive before id rest hbefore earlier hearlier
    · exact absurd (by simp [hrest]) (hspawned id)

theorem Accounted.bland (events : List Event) (hlog : t.log = s.log ++ events)
    (hbland : ∀ event ∈ events, event.Bland) (hactive : t.active = s.active)
    (hstate : t.id = s.id ∧ t.ordinal = s.ordinal ∧ t.total = s.total ∧
      t.dropped = s.dropped ∨ s.active = false)
    (hflags : s.active = true → s.flags < 512 → t.flags < 512 ∧
      t.flags.testBit 2 = s.flags.testBit 2)
    (hpipe : s.active = true → ∀ stream < 2, t.pipe stream = false →
      s.pipe stream = false ∨ .ended s.id stream ∈ events)
    (hcontrolled : t.control = 2 → s.control = 2 ∨ s.active = false) : Accounted t := by
  have hforeign (id : Nat) : ∀ event ∈ events, event.Foreign id :=
    fun event hevent => (hbland event hevent).foreign id
  refine hs.grow events hlog (fun id hmem => (hbland _ hmem).spawned id rfl)
    (fun id body hmem hzero => absurd hzero ((hbland _ hmem).ack id body rfl))
    (fun id _ _ => hforeign id) (fun id => .inl fun event hevent =>
      (hforeign id event hevent).output) ?_ ?_ ?_
  · intro hrunning
    rcases hstate with hstate | hidle
    · exact .inr ⟨hactive.trans hrunning, hstate.1.symm⟩
    · exact absurd (hidle.symm.trans hrunning) (by simp)
  · intro hrunning
    rw [hactive] at hrunning
    rcases hstate with hstate | hidle
    · have hcurrent := hs.running hrunning
      obtain ⟨hlt, htruncated⟩ := hflags hrunning hcurrent.flags
      exact hcurrent.congr events hlog (hforeign s.id) hstate hlt htruncated (hpipe hrunning)
    · exact absurd (hidle.symm.trans hrunning) (by simp)
  · intro hcontrol
    rw [hactive]
    rcases hcontrolled hcontrol with hold | hidle
    · exact hs.controlled hold
    · exact hidle

theorem Accounted.congr (hlog : t.log = s.log) (hactive : t.active = s.active)
    (hstate : t.id = s.id ∧ t.ordinal = s.ordinal ∧ t.total = s.total ∧ t.dropped = s.dropped)
    (hflags : s.active = true → s.flags < 512 → t.flags < 512 ∧
      t.flags.testBit 2 = s.flags.testBit 2)
    (hpipe : s.active = true → ∀ stream < 2, t.pipe stream = false → s.pipe stream = false)
    (hcontrolled : t.control = 2 → s.control = 2 ∨ s.active = false) : Accounted t :=
  hs.bland [] (by rw [hlog, List.append_nil]) (by simp) hactive (.inl hstate) hflags
    (fun h stream hstream hclosed => .inl (hpipe h stream hstream hclosed)) hcontrolled

theorem Accounted.same (hlog : t.log = s.log) (hsame : t.ledger = s.ledger) : Accounted t := by
  simp only [State.ledger, Prod.mk.injEq] at hsame
  obtain ⟨hactive, hid, hordinal, htotal, hdropped, hflags, hpipe, hcontrol⟩ := hsame
  refine hs.congr hlog hactive ⟨hid, hordinal, htotal, hdropped⟩ ?_ ?_ ?_
  · exact fun _ h => ⟨hflags ▸ h, by rw [hflags]⟩
  · exact fun _ _ _ h => hpipe ▸ h
  · exact fun h => .inl (hcontrol ▸ h)

theorem Accounted.signal (sig : Nat) : Accounted (signal s sig) :=
  hs.bland (signals s sig) rfl (bland_signalled (signals_signalled s sig)) rfl
    (.inl ⟨rfl, rfl, rfl, rfl⟩) (fun _ h => ⟨h, rfl⟩) (fun _ _ _ h => .inl h) .inl

theorem Accounted.cancel (now : Nat) {flag : Nat} (hlt : flag < 512) (hbit : flag.testBit 2 = false) :
    Accounted (cancel s now flag) := by
  rcases Bool.eq_false_or_eq_true s.active with hactive | hidle
  · rw [cancel_of_active hactive]
    refine hs.bland _ rfl ?_ rfl (.inl ⟨rfl, rfl, rfl, rfl⟩)
      (fun _ hflags => or_flag flag hlt hbit hflags) (fun _ _ _ h => .inl h) .inl
    split
    case isTrue => exact bland_signalled (signals_signalled s 15)
    case isFalse => simp
  · rw [cancel_of_idle hidle]
    exact hs

theorem Accounted.executed {answer : ReadAnswer} (hexecuted : Executed s answer t) :
    Accounted t := by
  have hpipe : ∀ stream < 2, Function.update s.pipe 2 false stream = false →
      s.pipe stream = false := by
    intro stream hstream
    rw [Function.update_of_ne (by omega)]
    exact id
  cases hexecuted with
  | idle => exact hs
  | started hopen hbytes =>
    exact hs.congr rfl rfl ⟨rfl, rfl, rfl, rfl⟩ (fun _ h => ⟨h, rfl⟩) (fun _ => hpipe) .inl
  | incomplete bytes =>
    exact hs.same rfl rfl
  | failed bytes hopen hanswer report hreport hlength =>
    exact hs.congr rfl rfl ⟨rfl, rfl, rfl, rfl⟩
      (fun _ h => or_flag flagSetup (by decide) (by decide) h) (fun _ => hpipe) .inl

theorem Accounted.waited {now : Nat} {answer : WaitAnswer} (hwaited : Waited s now answer t) :
    Accounted t := by
  cases hwaited with
  | idle => exact hs
  | reaped status hanswer hreaped =>
    refine Accounted.cancel ?_ now (by decide) (by decide)
    exact hs.same rfl rfl

end

theorem foreign_read {id id' stream : Nat} {data : List UInt8} (hne : id' ≠ id) :
    (Event.read id' stream data).Foreign id :=
  ⟨rfl, rfl, fun _ => if_neg fun h => hne h.1⟩

theorem foreign_queued {id : Nat} {frame : Frame} (hne : frame.seq ≠ id) :
    (Event.queued frame).Foreign id :=
  ⟨if_neg fun h => hne h.2, if_neg fun h => hne h.2, fun _ => rfl⟩

theorem Running.ne_settled {id : Nat} (hs : Running s) (hsettled : Settled s.log id) :
    s.id ≠ id := by
  rintro rfl
  obtain ⟨exit, hexits, -⟩ := hsettled.exit
  rw [hs.open_] at hexits
  cases hexits

theorem readBytes_append {a : Account} {stream : Nat} (hstream : stream < 2)
    (data : List UInt8) (outputs exits : List (List UInt8)) :
    (Account.mk outputs exits
      fun i => a.reads i ++ if stream = i then data else []).readBytes =
        a.readBytes + data.length := by
  obtain rfl | rfl : stream = 0 ∨ stream = 1 := by omega
  · simp [Account.readBytes]
    omega
  · simp [Account.readBytes]
    omega

theorem saturating_add {counter counted count bound : Nat} (hcount : count ≤ bound)
    (hcounter : counter = min counted bound) :
    (if counter ≤ bound - count then counter + count else bound) =
      min (counted + count) bound := by
  split <;> omega

theorem Running.discarded {stream : Nat} {data : List UInt8} (hs : Running s)
    (hstream : stream < 2) (hchunk : data.length ≤ outputChunk) :
    Running (discard (note s (.read s.id stream data)) data.length) := by
  have haccount : account s.id (s.log ++ [.read s.id stream data]) =
      ⟨(account s.id s.log).outputs, (account s.id s.log).exits,
        fun i => (account s.id s.log).reads i ++ if stream = i then data else []⟩ := by
    simp [account, Event.output, Event.exit, Event.reads]
  have hread := readBytes_append (a := account s.id s.log) hstream data
    (account s.id s.log).outputs (account s.id s.log).exits
  refine ⟨?_, ?_, hs.total_le, hs.ordinal_le, ?_, ?_, ?_, ?_, ?_, ?_⟩
  all_goals simp only [discard, note, haccount]
  · exact hs.ordinals
  · exact hs.total
  · exact hs.open_
  · rw [hread]
    exact Nat.le_add_right_of_le hs.read
  · rw [hread, Nat.sub_add_comm hs.read]
    exact saturating_add (hchunk.trans (by decide)) hs.dropped
  · exact Nat.or_lt_two_pow (n := 9) hs.flags (by decide)
  · intro hclear
    rw [Nat.testBit_or, Bool.or_eq_false_iff] at hclear
    exact absurd hclear.2 (by decide)
  · intro i hi hclosed
    exact List.mem_append_left _ (hs.ended i hi hclosed)

theorem word_outputBody (s : State) (stream : Nat) (data : List UInt8)
    (hordinal : s.ordinal < outputFrameLimit) (hstream : stream < 2) :
    word 1 (outputBody s stream data) = s.ordinal + 1 ∧
      word 2 (outputBody s stream data) = stream + 1 := by
  simp only [outputFrameLimit] at hordinal
  exact ⟨word_append_eq rfl (by omega) data, word_append_eq rfl (by omega) data⟩

theorem drop_outputBody (s : State) (stream : Nat) (data : List UInt8) :
    (outputBody s stream data).drop 12 = data := by
  rw [outputBody, List.drop_append_of_le_length (by simp), List.drop_of_length_le (by simp),
    List.nil_append]

theorem Running.forwarded_output {stream : Nat} {data : List UInt8} (hs : Running s)
    (hstream : stream < 2) (htotal : s.total + data.length ≤ outputLimit)
    (hordinal : s.ordinal < outputFrameLimit) :
    Running
      { enqueue link (note s (.read s.id stream data))
          ⟨kindOutput, s.id, outputBody s stream data⟩ with
        ordinal := s.ordinal + 1
        total := s.total + data.length
        outputTurn := (stream + 1) % 2 } := by
  obtain ⟨hword1, hword2⟩ := word_outputBody s stream data hordinal hstream
  have hdrop := drop_outputBody s stream data
  have hlength : (outputBody s stream data).length - 12 = data.length := by
    rw [← List.length_drop, hdrop]
  have haccount : account s.id (s.log ++ [.read s.id stream data] ++
      [.queued ⟨kindOutput, s.id, outputBody s stream data⟩]) =
        ⟨(account s.id s.log).outputs ++ [outputBody s stream data],
          (account s.id s.log).exits,
          fun i => (account s.id s.log).reads i ++ if stream = i then data else []⟩ := by
    simp [account, Event.output, Event.exit, Event.reads]
  have hread := readBytes_append (a := account s.id s.log) hstream data
    ((account s.id s.log).outputs ++ [outputBody s stream data]) (account s.id s.log).exits
  refine ⟨?_, ?_, htotal, hordinal, ?_, ?_, ?_, hs.flags, ?_, ?_⟩
  all_goals simp only [enqueue, note, haccount]
  · rw [List.map_append, hs.ordinals, List.map_singleton, hword1, List.range'_concat]
    simp [Nat.add_comm]
  · have hsum := hs.total
    simp only [Account.forwardedBytes] at hsum ⊢
    rw [List.map_append, List.sum_append, hsum, List.map_singleton, hlength,
      List.sum_singleton]
  · exact hs.open_
  · rw [hread]
    exact Nat.add_le_add_right hs.read _
  · rw [hread, Nat.add_sub_add_right]
    exact hs.dropped
  · intro hclear i hi
    have hold := hs.forwarded hclear i hi
    simp only [Account.forwarded] at hold ⊢
    rw [List.flatMap_append, hold, List.flatMap_singleton, hword2, hdrop]
    simp only [Nat.add_right_cancel_iff]
  · intro i hi hclosed
    exact List.mem_append_left _ (List.mem_append_left _ (hs.ended i hi hclosed))

theorem not_bit {flags i : Nat} (hbit : ¬ bit flags (2 ^ i)) : flags.testBit i = false := by
  rw [bit_two_pow, Bool.not_eq_true] at hbit
  exact hbit

theorem Running.settle (hs : Running s)
    (hcomplete : s.flags.testBit 7 = false → ∀ stream < 2, s.pipe stream = false) :
    Settled (s.log ++ [.queued ⟨kindExit, s.id, exitBody s⟩]) s.id := by
  have haccount : account s.id (s.log ++ [.queued ⟨kindExit, s.id, exitBody s⟩]) =
      { account s.id s.log with exits := [exitBody s] } := by
    have hopen := hs.open_
    simp only [account] at hopen
    simp [account, Event.output, Event.exit, Event.reads, hopen]
  have hcount : (account s.id s.log).outputs.length = s.ordinal := by
    have hlength := congrArg List.length hs.ordinals
    simpa using hlength
  have htotal := hs.total_le
  have hordinal := hs.ordinal_le
  have hflags := hs.flags
  have hdropped := hs.dropped
  simp only [outputLimit, outputFrameLimit] at htotal hordinal
  have hword1 : word 1 (exitBody s) = s.flags := word_eq rfl (by omega)
  have hword4 : word 4 (exitBody s) = s.total := word_eq rfl (by omega)
  have hword5 : word 5 (exitBody s) = s.dropped := word_eq rfl (by omega)
  have hword6 : word 6 (exitBody s) = s.ordinal := word_eq rfl (by omega)
  refine ⟨?_, exitBody s, ?_, ?_⟩
  · rw [haccount]
    exact hs.ordinals.trans (by rw [hcount])
  · rw [haccount]
  · rw [haccount]
    constructor
    · rw [hword4]
      exact hs.total.symm
    · rw [hword4]
      exact hs.total_le
    · rw [hword6]
      exact hcount.symm
    · rw [hword6]
      exact hs.ordinal_le
    · rw [hword4]
      exact hs.read
    · rw [hword5, hword4]
      exact hs.dropped
    · rw [hword1]
      intro htruncated hincomplete stream hstream
      have hclosed := hcomplete (not_bit (i := 7) hincomplete) stream hstream
      exact ⟨hs.forwarded (not_bit (i := 2) htruncated) stream hstream,
        List.mem_append_left _ (hs.ended stream hstream hclosed)⟩

theorem complete_unknownFlags (isClean : Bool)
    (hclean : isClean = true → s.pipe 0 = false ∧ s.pipe 1 = false)
    (hflag : (unknownFlags (uncleanFlags s isClean)).flags.testBit 7 = false) :
    ∀ stream < 2, (unknownFlags (uncleanFlags s isClean)).pipe stream = false := by
  cases isClean with
  | true =>
    intro stream hstream
    obtain rfl | rfl : stream = 0 ∨ stream = 1 := by omega
    · exact (hclean rfl).1
    · exact (hclean rfl).2
  | false =>
    simp only [unknownFlags, uncleanFlags, Nat.testBit_or, Bool.or_eq_false_iff,
      Bool.false_eq_true, if_false] at hflag
    exact absurd hflag.1.1.2 (by decide)

theorem foreign_of_behalf {event : Event} {id : Nat} (hbehalf : event.behalf ≠ some id) :
    event.Foreign id := by
  cases event with
  | queued frame =>
    refine ⟨if_neg ?_, if_neg ?_, fun _ => rfl⟩
    · rintro ⟨hkind, hseq⟩
      exact hbehalf (by simp [Event.behalf, hkind, hseq])
    · rintro ⟨hkind, hseq⟩
      exact hbehalf (by simp [Event.behalf, hkind, hseq])
  | read id' stream data =>
    exact foreign_read fun hid => hbehalf (by simp [Event.behalf, hid])
  | _ => exact ⟨rfl, rfl, fun _ => rfl⟩

variable {seq kind : Nat} {body : List UInt8}

theorem word_replyBody (s : State) {disposition : Nat} (hlt : disposition < 2 ^ 32) :
    word 1 (replyBody s disposition) = disposition :=
  word_eq rfl hlt

theorem running_launched (hfresh : ∀ event ∈ s.log, event.behalf ≠ some seq)
    (command : List UInt8) (now : Nat) (pid : PNat) (payload : List UInt8) :
    Running (Device.enqueue link (launched (assign s seq) command now pid)
      ⟨kindAck, seq, payload⟩) := by
  have haccount : account seq (s.log ++ [.spawned seq] ++
      [.queued ⟨kindAck, seq, payload⟩]) = ⟨[], [], fun _ => []⟩ := by
    apply account_foreign
    intro event hevent
    simp only [List.mem_append, List.mem_singleton] at hevent
    rcases hevent with (hold | rfl) | rfl
    · exact foreign_of_behalf (hfresh event hold)
    · exact ⟨rfl, rfl, fun _ => rfl⟩
    · exact ⟨by simp [Event.output], by simp [Event.exit], fun _ => rfl⟩
  refine ⟨?_, ?_, Nat.zero_le _, Nat.zero_le _, ?_, Nat.zero_le _, ?_, ?_, ?_, ?_⟩
  all_goals simp only [Device.enqueue, launched, assign, haccount]
  · rfl
  · rfl
  · rfl
  · decide
  · exact fun _ _ _ => rfl
  · intro stream hstream hclosed
    exact absurd (of_decide_eq_false hclosed) (not_not.mpr (by omega))

section

variable (hs : Accounted s)
include hs

theorem Accounted.slotted {stream : Nat} (hactive : s.active = true) (hstream : stream < 2)
    (hslot : Slotted link s stream t) : Accounted t := by
  have hrunning := hs.running hactive
  cases hslot with
  | idle => exact hs
  | ended hopen =>
    refine hs.bland [.ended s.id stream] rfl ?_ rfl (.inl ⟨rfl, rfl, rfl, rfl⟩)
      (fun _ h => ⟨h, rfl⟩) ?_ .inl
    · exact List.forall_mem_singleton.mpr (bland_of_plain rfl)
    · intro _ i hi hclosed
      cases hsame : decide (i = stream) with
      | true =>
        rw [of_decide_eq_true hsame]
        exact .inr List.mem_cons_self
      | false =>
        simp only [closePipe, note] at hclosed
        rw [Function.update_of_ne (of_decide_eq_false hsame)] at hclosed
        exact .inl hclosed
  | discarded data hopen hdata hchunk hfull =>
    refine hs.grow [.read s.id stream data] rfl (by simp) (by simp) ?_ ?_
      (fun _ => .inr ⟨hactive, rfl⟩) (fun _ => hrunning.discarded hstream hchunk)
      hs.controlled
    · intro id _ hsettled
      exact List.forall_mem_singleton.mpr (foreign_read (hrunning.ne_settled hsettled))
    · exact fun id => .inl (by simp [Event.output])
  | forwarded data hopen hdata hchunk htotal hordinal hroom =>
    refine hs.grow [.read s.id stream data,
      .queued ⟨kindOutput, s.id, outputBody s stream data⟩] (by simp [enqueue, note])
      (by simp) (by simp) ?_ ?_ (fun _ => .inr ⟨hactive, rfl⟩)
      (fun _ => hrunning.forwarded_output hstream htotal hordinal) hs.controlled
    · intro id _ hsettled
      have hne := hrunning.ne_settled hsettled
      exact List.forall_mem_cons.mpr ⟨foreign_read hne,
        List.forall_mem_singleton.mpr (foreign_queued hne)⟩
    · intro id
      cases hsame : decide (s.id = id) with
      | true =>
        refine .inr ⟨by simp [Event.exit], ?_⟩
        rw [← of_decide_eq_true hsame]
        exact hrunning.open_
      | false => exact .inl (by simp [Event.output, of_decide_eq_false hsame])

theorem Accounted.terminal (hactive : s.active = true)
    (hcomplete : s.flags.testBit 7 = false → ∀ stream < 2, s.pipe stream = false)
    (hlog : t.log = s.log ++ [.queued ⟨kindExit, s.id, exitBody s⟩]) (hidle : t.active = false) :
    Accounted t := by
  have hrunning := hs.running hactive
  refine hs.grow _ hlog (by simp) (by simp) ?_ (fun id => .inl (by simp [Event.output])) ?_
    (fun h => absurd (hidle.symm.trans h) (by simp)) (fun _ => hidle)
  · intro id _ hsettled
    exact List.forall_mem_singleton.mpr (foreign_queued (hrunning.ne_settled hsettled))
  · intro _
    rw [hlog]
    exact .inl (hrunning.settle hcomplete)

theorem Accounted.unknownFlags : Accounted (unknownFlags s) := by
  refine hs.congr rfl rfl ⟨rfl, rfl, rfl, rfl⟩ ?_ (fun _ _ _ h => h) .inl
  intro _ hflags
  have hwait := or_flag (if s.reaped then 0 else flagWaitUnknown)
    (by split <;> decide) (by split <;> decide) hflags
  have hexec := or_flag (if s.execSeen then 0 else flagExecUnknown)
    (by split <;> decide) (by split <;> decide) hwait.1
  exact ⟨hexec.1, hexec.2.trans hwait.2⟩

theorem Accounted.uncleanFlags (isClean : Bool) : Accounted (uncleanFlags s isClean) := by
  cases isClean with
  | true => exact hs
  | false =>
    refine hs.congr rfl rfl ⟨rfl, rfl, rfl, rfl⟩ ?_ (fun _ _ _ h => h) .inl
    intro _ hflags
    have hcleanup := or_flag flagCleanup (by decide) (by decide) hflags
    have hincomplete := or_flag flagOutputIncomplete (by decide) (by decide) hcleanup.1
    exact ⟨hincomplete.1, hincomplete.2.trans hcleanup.2⟩

theorem Accounted.reaped (hactive : s.active = true) (hreaped : Reaped link s t) : Accounted t := by
  cases hreaped with
  | idle => exact hs
  | held isClean t ht hclean =>
    rw [ht]
    exact (hs.uncleanFlags isClean).unknownFlags
  | sent isClean t ht hclean hroom =>
    have haccounted : Accounted t := by
      rw [ht]
      exact (hs.uncleanFlags isClean).unknownFlags
    have hactive' : t.active = true := by
      rw [ht]
      cases isClean <;> exact hactive
    refine haccounted.terminal hactive' ?_ rfl rfl
    rw [ht]
    exact complete_unknownFlags isClean fun h => ⟨(hclean h).2.1, (hclean h).2.2.1⟩

theorem Accounted.stage {now : Nat} (hactive : s.active = true) (hstage : Stage link now s t) :
    Accounted t := by
  cases hstage with
  | timedOut => exact hs.cancel now (by decide) (by decide)
  | killed => exact (hs.signal 9).same rfl rfl
  | slotted stream hstream hslot => exact hs.slotted hactive hstream hslot
  | executed answer hexecuted => exact hs.executed hexecuted
  | waited answer hwaited => exact hs.waited hwaited
  | reaped hreaped => exact hs.reaped hactive hreaped

theorem Accounted.enqueue (link : Link) (frame : Frame) (houtput : frame.kind ≠ kindOutput)
    (hexit : frame.kind ≠ kindExit) (hack : frame.kind = kindAck → word 1 frame.body ≠ 0) :
    Accounted (enqueue link s frame) := by
  refine hs.bland [.queued frame] rfl ?_ rfl (.inl ⟨rfl, rfl, rfl, rfl⟩)
    (fun _ h => ⟨h, rfl⟩) (fun _ _ _ h => .inl h) .inl
  exact List.forall_mem_singleton.mpr (bland_queued houtput hexit hack)

theorem Accounted.acknowledge (hidle : s.active = false) (seq : Nat) (body : List UInt8) :
    Accounted { Device.enqueue link s ⟨kindControlAck, seq, body⟩ with control := 2 } :=
  (hs.enqueue link ⟨kindControlAck, seq, body⟩ (by simp) (by simp) (by simp)).congr rfl rfl
    ⟨rfl, rfl, rfl, rfl⟩ (fun _ h => ⟨h, rfl⟩) (fun _ _ _ h => h) fun _ => .inr hidle

theorem Accounted.controlTick {answer : WaitAnswer} (hcontrolled : Controlled link s answer t) :
    Accounted t := by
  cases hcontrolled with
  | idle => exact hs
  | acknowledged hopen hempty hidle => exact hs.acknowledge hidle _ _
  | interrupted hopen hempty hactive t r ht hr =>
    have hwait : Accounted (controlWait s answer) ∧
        (controlWait s answer).active = true := by
      unfold controlWait
      split <;>
        exact ⟨hs.same rfl rfl, hactive⟩
    have haccounted : Accounted t := by
      rw [ht]
      refine Accounted.unknownFlags (hwait.1.congr rfl rfl ⟨rfl, rfl, rfl, rfl⟩ ?_
        (fun _ _ _ h => h) .inl)
      intro _ hflags
      have h1 := or_flag flagControl (by decide) (by decide) hflags
      have h2 := or_flag flagCleanup (by decide) (by decide) h1.1
      have h3 := or_flag flagOutputIncomplete (by decide) (by decide) h2.1
      exact ⟨h3.1, h3.2.trans (h2.2.trans h1.2)⟩
    have hterminal : Accounted r := by
      rw [hr]
      refine haccounted.terminal (by rw [ht]; exact hwait.2) ?_ rfl rfl
      intro hflag
      rw [ht] at hflag
      simp only [controlFlags, Device.unknownFlags, Nat.testBit_or,
        Bool.or_eq_false_iff] at hflag
      exact absurd hflag.1.1.2 (by decide)
    exact hterminal.acknowledge (by rw [hr]; rfl) _ _

theorem Accounted.faulted (hfaulted : Faulted link s t) : Accounted t := by
  cases hfaulted with
  | idle => exact hs
  | sent hoverload hfresh hcontrol hroom =>
    refine (hs.enqueue link ⟨kindFault, s.overload, words [s.overload, 1]⟩ (by simp) (by simp)
      (by simp)).same rfl rfl

theorem Accounted.note (event : Event) (hplain : event.plain = true) : Accounted (note s event) :=
  hs.bland [event] rfl (List.forall_mem_singleton.mpr (bland_of_plain hplain)) rfl
    (.inl ⟨rfl, rfl, rfl, rfl⟩) (fun _ h => ⟨h, rfl⟩) (fun _ _ _ h => .inl h) .inl

theorem Accounted.latched {mode : Nat} (hmode : mode ≠ 2) (now : Nat) :
    Accounted (latched s mode seq now) :=
  (hs.note (.latched seq) rfl).congr rfl rfl ⟨rfl, rfl, rfl, rfl⟩ (fun _ h => ⟨h, rfl⟩)
    (fun _ _ _ h => h) fun h => absurd h hmode

theorem Accounted.overloaded (seq : Nat) : Accounted (overloaded s seq) :=
  (hs.note (.overloaded seq) rfl).same rfl rfl

theorem Accounted.refused (seq : Nat) {disposition : Nat} (hpositive : 0 < disposition)
    (hlt : disposition < 2 ^ 32) :
    Accounted (Device.enqueue link s ⟨kindAck, seq, replyBody s disposition⟩) := by
  refine hs.enqueue link _ (by simp) (by simp) ?_
  intro _
  rw [word_replyBody s hlt]
  omega

theorem Accounted.cancelAck {payload : List UInt8} (target : List UInt8)
    (hconsumed : .consumed seq kindCancel target ∈ s.log) :
    Accounted (Device.enqueue link s ⟨kindAck, seq, payload⟩) := by
  have hforeign (id : Nat) : (Event.queued ⟨kindAck, seq, payload⟩).Foreign id :=
    ⟨by simp [Event.output], by simp [Event.exit], fun _ => rfl⟩
  refine hs.grow [.queued ⟨kindAck, seq, payload⟩] rfl (by simp) ?_ ?_
    (fun id => .inl (by simp [Event.output])) (fun h => .inr ⟨h, rfl⟩) ?_ hs.controlled
  · intro id body hmem _
    cases List.mem_singleton.mp hmem
    exact ⟨target, hconsumed⟩
  · exact fun id _ _ => List.forall_mem_singleton.mpr (hforeign id)
  · intro hactive
    have hrunning := hs.running hactive
    exact hrunning.congr [.queued ⟨kindAck, seq, payload⟩] rfl
      (List.forall_mem_singleton.mpr (hforeign s.id)) ⟨rfl, rfl, rfl, rfl⟩ hrunning.flags rfl
      fun _ _ h => .inl h

theorem Accounted.unspawned (hidle : s.active = false)
    (hfresh : ∀ event ∈ s.log, event.behalf ≠ some seq) (errno : Errno) :
    Accounted (Device.enqueue link (setupFailed (assign s seq) seq errno)
      ⟨kindExit, seq, setupBody seq errno⟩) := by
  refine hs.grow [.queued ⟨kindExit, seq, setupBody seq errno⟩] rfl (by simp) (by simp) ?_
    (fun id => .inl (by simp [Event.output]))
    (fun h => absurd (hidle.symm.trans h) (by simp))
    (fun h => absurd (hidle.symm.trans h) (by simp)) (fun _ => hidle)
  intro id hspawned _
  refine List.forall_mem_singleton.mpr (foreign_queued ?_)
  rintro rfl
  exact hfresh _ hspawned rfl

theorem Accounted.spawned (hidle : s.active = false) (hcontrol : s.control = 0)
    (hfresh : ∀ event ∈ s.log, event.behalf ≠ some seq) (command : List UInt8) (now : Nat)
    (pid : PNat) (payload : List UInt8) :
    Accounted (Device.enqueue link (launched (assign s seq) command now pid)
      ⟨kindAck, seq, payload⟩) := by
  have hlog : (Device.enqueue link (launched (assign s seq) command now pid)
      ⟨kindAck, seq, payload⟩).log =
        s.log ++ [.spawned seq, .queued ⟨kindAck, seq, payload⟩] := by
    simp [Device.enqueue, launched, assign]
  have hforeign (id : Nat) : ∀ event ∈ [Event.spawned seq,
      .queued ⟨kindAck, seq, payload⟩], event.Foreign id :=
    List.forall_mem_cons.mpr ⟨⟨rfl, rfl, fun _ => rfl⟩, List.forall_mem_singleton.mpr
      ⟨by simp [Event.output], by simp [Event.exit], fun _ => rfl⟩⟩
  have hsettled (id : Nat) (hid : .spawned id ∈ s.log) : Settled s.log id := by
    rcases hs.settled id hid with h | ⟨hactive, -⟩
    · exact h
    · exact absurd (hidle.symm.trans hactive) (by simp)
  refine ⟨?_, fun _ => running_launched hfresh command now pid payload, ?_, ?_, ?_, ?_⟩
  · intro id ack hmem hzero
    rw [hlog] at hmem ⊢
    rcases List.mem_append.mp hmem with hold | hnew
    · rcases hs.acknowledged id ack hold hzero with hspawn | ⟨target, htarget⟩
      · exact .inl (List.mem_append_left _ hspawn)
      · exact .inr ⟨target, List.mem_append_left _ htarget⟩
    · simp only [List.mem_cons, reduceCtorEq, List.not_mem_nil, or_false, false_or,
        Event.queued.injEq, Frame.mk.injEq] at hnew
      exact .inl (by simp [hnew.2.1])
  · intro id hmem
    rw [hlog] at hmem ⊢
    rcases List.mem_append.mp hmem with hold | hnew
    · exact .inl ((hsettled id hold).append (hforeign id))
    · simp only [List.mem_cons, reduceCtorEq, List.not_mem_nil, or_false,
        Event.spawned.injEq] at hnew
      exact .inr ⟨rfl, hnew⟩
  · intro id
    rw [hlog]
    refine (hs.ordered id).append (noneAfter_of_forall_not ?_) ?_
    · exact fun event hevent hexit => hexit (hforeign id event hevent).exit
    · exact fun _ event hevent hout => hout (hforeign id event hevent).output
  · intro before id after hsplit earlier hearlier
    rw [hlog] at hsplit
    rcases split_append hsplit with ⟨rest, hbefore, -⟩ | ⟨rest, rfl, hrest⟩
    · exact hs.successive before id rest hbefore earlier hearlier
    · cases rest with
      | nil =>
        rw [List.append_nil] at hearlier ⊢
        obtain ⟨exit, hexits, -⟩ := (hsettled earlier hearlier).exit
        simp [hexits]
      | cons first rest =>
        obtain ⟨rfl, htail⟩ := List.cons.inj hrest
        cases rest with
        | _ => simp at htail
  · intro h
    exact absurd (hcontrol.symm.trans h) (by simp)

theorem Accounted.dispatched {now : Nat} (hcontrol : s.control = 0)
    (hfresh : ∀ event ∈ s.log, event.behalf ≠ some seq)
    (hconsumed : .consumed seq kind body ∈ s.log)
    (hdispatched : Dispatched link s seq kind body now t) : Accounted t := by
  cases hdispatched with
  | detached hkind hidle hpid hempty hflags hdropped =>
    exact (hs.latched (by decide) now).enqueue link _ (by simp) (by simp) (by simp)
  | controlled hkind hbody =>
    exact ((hs.latched (by decide) now).cancel now (by decide) (by decide)).signal 9
  | overloaded hnot hfull => exact hs.overloaded seq
  | refused hkind hbusy hroom => exact hs.refused seq (by decide) (by decide)
  | unspawned hkind hidle hroom errno => exact hs.unspawned hidle hfresh errno
  | spawned hkind hidle hopen hroom pid =>
    exact hs.spawned hidle hcontrol hfresh body now pid _
  | status hkind hroom => exact hs.enqueue link _ (by simp) (by simp) (by simp)
  | cancelled hkind htarget hactive hroom =>
    have hcancel : Accounted (Device.cancel (Device.note s (.cancelled seq)) now flagCancel) :=
      (hs.note (.cancelled seq) rfl).cancel now (by decide) (by decide)
    obtain ⟨_, _, _, sent, hframe, -⟩ :=
      cancel_frame (Device.note s (.cancelled seq)) now flagCancel
    refine hcancel.cancelAck body ?_
    rw [hframe, ← hkind]
    exact List.mem_append_left _ (List.mem_append_left _ hconsumed)
  | completed hkind htarget hnonzero hroom => exact hs.refused seq (by decide) (by decide)
  | stale hkind hid hlast hroom => exact hs.refused seq (by decide) (by decide)
  | malformed hnot => exact hs

end

theorem Accounted.received {p : Profile} {now : Nat} (hordered : Ordered p.link s)
    (hs : Accounted s) (hcontrol : s.control = 0) (hreceived : Received p s now t) :
    Accounted t := by
  have happend (bytes : List UInt8) : Accounted (append s bytes now) :=
    (hs.note (.received bytes) rfl).same rfl rfl
  cases hreceived with
  | idle => exact hs
  | appended bytes rxSize =>
    exact (happend bytes).same rfl rfl
  | rejected bytes =>
    exact (happend bytes).same rfl rfl
  | requested bytes rxSize whole hwhole hlength hok t hdispatched =>
    have hwholeOrdered : Ordered p.link whole := by
      rw [hwhole]
      exact (hordered.appended bytes now).same rfl rfl rfl rfl
    have hwholeAccounted : Accounted whole := by
      rw [hwhole]
      exact (happend bytes).same rfl rfl
    have hwholeControl : whole.control = 0 := by
      rw [hwhole]
      exact hcontrol
    have hconsumed : Accounted
        (consume whole whole.next (headKind whole.rx) (requestBody whole)) :=
      (hwholeAccounted.note (.consumed ..) rfl).same rfl rfl
    have hfresh : ∀ event ∈ (consume whole whole.next (headKind whole.rx)
        (requestBody whole)).log, event.behalf ≠ some whole.next := by
      intro event hevent hbehalf
      rcases List.mem_append.mp hevent with hold | hnew
      · exact Nat.lt_irrefl _ (hwholeOrdered.history.behalf_lt hold hbehalf)
      · rw [List.mem_singleton.mp hnew] at hbehalf
        cases hbehalf
    have hmem : .consumed whole.next (headKind whole.rx) (requestBody whole) ∈
        (consume whole whole.next (headKind whole.rx) (requestBody whole)).log :=
      List.mem_append_right _ List.mem_cons_self
    exact (hconsumed.dispatched hwholeControl hfresh hmem hdispatched).same rfl rfl

end Accounting

theorem accounted_boot (link : Link) (start uid gid : Nat) :
    Accounted (boot link start uid gid) := by
  rw [boot_eq]
  refine Accounted.enqueue ?_ link _ (by simp) (by simp) (by simp)
  refine ⟨?_, ?_, ?_, ?_, ?_, ?_⟩
  · simp
  · simp
  · simp
  · exact fun _ => noneAfter_of_forall_not (by simp)
  · intro before id after hsplit
    simp at hsplit
  · simp

theorem accounted_kept (p : Profile) :
    Kept p fun s => Ordered p.link s ∧ Accounted s where
  receive s now answer answers hcontrol hs :=
    ⟨(ordered_kept p).receive s now answer answers hcontrol hs.1,
      hs.2.received hs.1 hcontrol (receive_spec p s now answer answers)⟩
  child s now answers hcontrol hs :=
    ⟨(ordered_kept p).child s now answers hcontrol hs.1,
      childTick_keeps (fun _ _ hactive hs => hs.stage hactive) hs.2⟩
  control s answer hcontrol hs :=
    ⟨(ordered_kept p).control s answer hcontrol hs.1,
      hs.2.controlTick (controlTick_spec p.link s answer)⟩
  fault s hs :=
    ⟨(ordered_kept p).fault s hs.1, hs.2.faulted (faultStage_spec p.link s)⟩
  queue s queue hlength hs :=
    ⟨(ordered_kept p).queue s queue hlength hs.1,
      hs.2.same rfl rfl⟩
  signal _ hs := ⟨hs.1.signal 9, hs.2.signal 9⟩

def Accepted (log : List Event) (id : Nat) : Prop :=
  (∃ body, .queued ⟨kindAck, id, body⟩ ∈ log ∧ word 1 body = 0) ∧
    ∃ command, .consumed id kindExec command ∈ log

/-- What a run says of one accepted command; `written` are the bytes that its
process tree wrote to the two pipes. -/
structure CommandAccount (log : List Event) (turn : Turn) (id : Nat)
    (written : Nat → List UInt8) : Prop where
  ordinals : (account id log).outputs.map (word 1) =
    List.range' 1 (account id log).outputs.length
  ordered : NoneAfter (fun event => event.exit id ≠ [])
    (fun event => event.output id ≠ []) log
  atMostOne : (account id log).exits.length ≤ 1
  exactlyOne : turn = .controlled → (account id log).exits.length = 1
  terminal : ∀ exit ∈ (account id log).exits,
    Terminal (account id log)
      (fun stream => (account id log).forwarded stream = written stream) exit

/-- A pipe gives its bytes in order and reports its end only after all of them. -/
def PipesComplete (log : List Event) (written : Nat → Nat → List UInt8) : Prop :=
  ∀ id stream, .ended id stream ∈ log → (account id log).reads stream = written id stream

theorem History.consumed_unique {link : Link} {next : Nat} {rx : List UInt8}
    {log : List Event} (hlog : History link next rx log) {id kind kind' : Nat}
    {body body' : List UInt8} (hfirst : .consumed id kind body ∈ log)
    (hsecond : .consumed id kind' body' ∈ log) : kind = kind' := by
  have hnodup : ((consumed log).map Prod.fst).Nodup := by
    rw [hlog.numbered]
    exact List.nodup_range'
  have hentry := List.inj_on_of_nodup_map hnodup
    (List.mem_filterMap.mpr ⟨_, hfirst, rfl⟩) (List.mem_filterMap.mpr ⟨_, hsecond, rfl⟩) rfl
  exact congrArg (fun entry => entry.2.1) hentry

theorem Accounted.spawned_of_accepted {link : Link} {s : State} (hs : Accounted s)
    (hordered : Ordered link s) {id : Nat} (haccepted : Accepted s.log id) :
    .spawned id ∈ s.log := by
  obtain ⟨⟨body, hack, hzero⟩, command, hexec⟩ := haccepted
  rcases hs.acknowledged id body hack hzero with hspawned | ⟨target, hcancel⟩
  · exact hspawned
  · exact absurd (hordered.history.consumed_unique hexec hcancel) (by decide)

/-- In every run of the console, each accepted command is accounted for, and a
command is started only after the terminals of all earlier ones. -/
theorem console_accounts_for_output (p : Profile) (start uid gid : Nat)
    (answers : List TickAnswers) (written : Nat → Nat → List UInt8)
    (hpipes : PipesComplete (console p start uid gid answers).1.log written) :
    (∀ id, Accepted (console p start uid gid answers).1.log id →
      CommandAccount (console p start uid gid answers).1.log
        (console p start uid gid answers).2 id (written id)) ∧
      Successive (console p start uid gid answers).1.log := by
  obtain ⟨t, ⟨hordered, hs⟩, hlog, -, hcontrolled⟩ := (accounted_kept p).turns answers
    ⟨ordered_boot p.link start uid gid, accounted_boot p.link start uid gid⟩
  rw [console, hlog] at hpipes ⊢
  refine ⟨?_, hs.successive⟩
  intro id haccepted
  rcases hs.settled id (hs.spawned_of_accepted hordered haccepted) with
    hsettled | ⟨hactive, rfl⟩
  · obtain ⟨exit, hexits, hterminal⟩ := hsettled.exit
    refine ⟨hsettled.ordinals, hs.ordered id, by simp [hexits], by simp [hexits], ?_⟩
    intro other hother
    rw [hexits, List.mem_singleton] at hother
    rw [hother]
    exact hterminal.mono fun stream _ h => h.1.trans (hpipes id stream h.2)
  · have hrunning := hs.running hactive
    have hcount := congrArg List.length hrunning.ordinals
    rw [List.length_map, List.length_range'] at hcount
    refine ⟨?_, hs.ordered t.id, by simp [hrunning.open_], ?_, by simp [hrunning.open_]⟩
    · rw [hcount]
      exact hrunning.ordinals
    · intro hturn
      exact absurd (hs.controlled (hcontrolled hturn)) (by simp [hactive])

namespace EchoSession

def link : Link := Link.keyless

def command : List UInt8 := [0xe8, 3, 0, 0, 1, 0, 0x2f, 0x78]

def wire : List UInt8 := Frame.encode link ⟨kindExec, 3, command⟩

def answers : List TickAnswers :=
  [{ receive := .data (wire.take 16) },
    { receive := .data (wire.drop 16)
      child :=
        { output := fun i => .data (if i = 0 then [0x68, 0x69] else [])
          exec := .data []
          wait := .reaped WaitStatus.success } },
    { child :=
        { output := fun _ => .data []
          waitGroup := some Errno.echild
          killGroup := some Errno.esrch } }]

def log : List Event := (console ⟨link, false⟩ 0 0 0 answers).1.log

def written (id stream : Nat) : List UInt8 :=
  if id = 3 ∧ stream = 0 then [0x68, 0x69] else []

def endedPipe : Event → Option (Nat × Nat)
  | .ended id stream => some (id, stream)
  | _ => none

theorem pipesComplete : PipesComplete log written := by
  have hended : log.filterMap endedPipe = [(3, 1), (3, 0)] := by decide +kernel
  intro id stream hmem
  have hkey : (id, stream) ∈ log.filterMap endedPipe :=
    List.mem_filterMap.mpr ⟨_, hmem, rfl⟩
  rw [hended] at hkey
  simp only [List.mem_cons, Prod.mk.injEq, List.not_mem_nil, or_false] at hkey
  rcases hkey with ⟨rfl, rfl⟩ | ⟨rfl, rfl⟩
  · decide +kernel
  · decide +kernel

theorem accepted : Accepted log 3 :=
  ⟨⟨words [3, 0, 1, 0, 0, 0, 0, 0], by decide +kernel, by decide +kernel⟩, command,
    by decide +kernel⟩

end EchoSession

theorem console_accounts_for_output_echo :
    Accepted EchoSession.log 3 ∧
      CommandAccount EchoSession.log
        (console ⟨EchoSession.link, false⟩ 0 0 0 EchoSession.answers).2 3
        (EchoSession.written 3) :=
  ⟨EchoSession.accepted,
    (console_accounts_for_output ⟨EchoSession.link, false⟩ 0 0 0 EchoSession.answers
      EchoSession.written EchoSession.pipesComplete).1 3 EchoSession.accepted⟩

end NativeInitLab.RootConsole.Device
