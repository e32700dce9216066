import NativeInitLab.Library.EventLog
import NativeInitLab.RootConsole.Outcomes

namespace NativeInitLab.RootConsole.Device

open LittleEndian EventLog

/-! Requests are acted on at most once and in the order in which they were issued,
whatever bytes arrive. -/

namespace Event

def bytes : Event → List UInt8
  | .received bytes => bytes
  | _ => []

def request : Event → Option (Nat × Nat × List UInt8)
  | .consumed seq kind body => some (seq, kind, body)
  | _ => none

def consumes : Event → Option Nat
  | .consumed seq _ _ => some seq
  | _ => none

def behalf : Event → Option Nat
  | .queued frame => if frame.kind = kindReady then none else some frame.seq
  | .spawned id => some id
  | .read id _ _ => some id
  | .ended id _ => some id
  | .cancelled seq => some seq
  | .latched seq => some seq
  | .overloaded seq => some seq
  | .received _ => none
  | .consumed _ _ _ => none
  | .signalled _ _ => none
  | .refused _ => none

inductive Act where
  | spawn
  | cancel
  | latch
  | overload
  | reply
  | terminal
  | fault
  deriving DecidableEq, Repr

def act : Event → Option (Nat × Act)
  | .spawned id => some (id, .spawn)
  | .cancelled seq => some (seq, .cancel)
  | .latched seq => some (seq, .latch)
  | .overloaded seq => some (seq, .overload)
  | .queued frame =>
    if frame.kind ∈ [kindAck, kindStatusReply, kindControlAck, kindDetachAck] then
      some (frame.seq, .reply)
    else if frame.kind = kindExit then some (frame.seq, .terminal)
    else if frame.kind = kindFault then some (frame.seq, .fault)
    else none
  | _ => none

def isControl : Event → Prop
  | .consumed _ kind body => kind = kindControl ∧ body = []
  | _ => False

end Event

def delivered (log : List Event) : List UInt8 := log.flatMap Event.bytes

def consumed (log : List Event) : List (Nat × Nat × List UInt8) :=
  log.filterMap Event.request

def acts (log : List Event) : List (Nat × Event.Act) := log.filterMap Event.act

section Projections

variable (first second : List Event)

@[simp] theorem delivered_append :
    delivered (first ++ second) = delivered first ++ delivered second := by
  simp [delivered]

@[simp] theorem consumed_append :
    consumed (first ++ second) = consumed first ++ consumed second := by
  simp [consumed]

@[simp] theorem acts_append : acts (first ++ second) = acts first ++ acts second := by
  simp [acts]

end Projections

/-- An event that brings neither bytes nor a request, and only serves requests of `served`. -/
structure Event.Serves (served : Nat → Prop) (event : Event) : Prop where
  bytes : event.bytes = []
  request : event.request = none
  behalf : ∀ seq, event.behalf = some seq → served seq

theorem delivered_of_serves {served : Nat → Prop} {events : List Event}
    (hserves : ∀ event ∈ events, event.Serves served) : delivered events = [] :=
  List.flatMap_eq_nil_iff.mpr fun event hevent => (hserves event hevent).bytes

theorem Event.serves_of_behalf {served : Nat → Prop} {event : Event} {seq : Nat}
    (hbehalf : event.behalf = some seq) (hserved : served seq) : event.Serves served := by
  cases event with
  | received => cases hbehalf
  | consumed => cases hbehalf
  | _ => exact ⟨rfl, rfl, fun other hother => Option.some.inj (hbehalf.symm.trans hother) ▸ hserved⟩

theorem serves_all {served : Nat → Prop} {events : List Event} {seq : Nat}
    (hbehalf : ∀ event ∈ events, event.behalf = some seq) (hserved : served seq) :
    ∀ event ∈ events, event.Serves served :=
  fun event hevent => Event.serves_of_behalf (hbehalf event hevent) hserved

structure Event.Quiet (event : Event) : Prop where
  bytes : event.bytes = []
  request : event.request = none
  behalf : event.behalf = none
  act : event.act = none

theorem Event.Quiet.serves {served : Nat → Prop} {event : Event} (hquiet : event.Quiet) :
    event.Serves served :=
  ⟨hquiet.bytes, hquiet.request, fun seq hseq => by rw [hquiet.behalf] at hseq; cases hseq⟩

theorem quiet_signalled {sig : Nat} {sent : List Event}
    (hsent : ∀ event ∈ sent, ∃ pid, event = .signalled pid sig) :
    ∀ event ∈ sent, event.Quiet := by
  intro event hevent
  obtain ⟨pid, rfl⟩ := hsent event hevent
  exact ⟨rfl, rfl, rfl, rfl⟩

def numbered (issued : List (Nat × List UInt8)) : List (Nat × Nat × List UInt8) :=
  issued.mapIdx fun index request => (index + 3, request)

/-- No tag in the stream verifies except those issued for that sequence number,
type and body. -/
def Unforged (link : Link) (issued : List (Nat × List UInt8)) (stream : List UInt8) : Prop :=
  ∀ seq < 2 ^ 32, ∀ kind < 256, ∀ body, body ++ link.tag seq kind body <:+: stream →
      3 ≤ seq ∧ issued[seq - 3]? = some (kind, body)

theorem not_isControl {event : Event} (hrequest : event.request = none) : ¬ event.isControl := by
  cases event <;> simp_all [Event.request, Event.isControl]

structure History (link : Link) (next : Nat) (rx : List UInt8) (log : List Event) : Prop where
  buffered : rx <:+ delivered log
  numbered : (consumed log).map Prod.fst = List.range' 3 (consumed log).length
  authentic : ∀ entry ∈ consumed log, entry.1 < 2 ^ 32 ∧ entry.2.1 < 256 ∧
    entry.2.2 ++ link.tag entry.1 entry.2.1 entry.2.2 <:+: delivered log
  count : next = (consumed log).length + 3
  caused : Caused Event.behalf Event.consumes log
  once : (acts log).Nodup
  bounded : ∀ act ∈ acts log, act.1 < next
  final : NoneAfter Event.isControl (fun event => event.request ≠ none) log

def Consumed (log : List Event) (seq : Nat) : Prop :=
  ∃ event ∈ log, event.consumes = some seq

theorem Consumed.append {log : List Event} {seq : Nat} (hseq : Consumed log seq)
    (new : List Event) : Consumed (log ++ new) seq := by
  obtain ⟨event, hevent, hconsumes⟩ := hseq
  exact ⟨event, List.mem_append_left new hevent, hconsumes⟩

section

variable {link : Link} {next : Nat} {rx : List UInt8} {log : List Event}
  (hlog : History link next rx log)
include hlog

theorem History.consumed_lt {seq : Nat} (hseq : Consumed log seq) : seq < next := by
  obtain ⟨event, hevent, hconsumes⟩ := hseq
  cases event <;> simp only [Event.consumes, reduceCtorEq, Option.some_inj] at hconsumes
  case consumed seq' kind body =>
    subst hconsumes
    have hmem : seq' ∈ (consumed log).map Prod.fst :=
      List.mem_map.mpr ⟨(seq', kind, body), List.mem_filterMap.mpr ⟨_, hevent, rfl⟩, rfl⟩
    rw [hlog.numbered, List.mem_range'_1] at hmem
    rw [hlog.count]
    omega

theorem History.next_not_mem (kind : Nat) (body : List UInt8) :
    (next, kind, body) ∉ consumed log := by
  intro hmem
  obtain ⟨event, hevent, hrequest⟩ := List.mem_filterMap.mp hmem
  cases event <;> simp only [Event.request, reduceCtorEq, Option.some_inj] at hrequest
  case consumed seq kind' body' =>
    obtain ⟨rfl, rfl, rfl⟩ := Prod.mk.inj hrequest |>.imp_right Prod.mk.inj
    exact Nat.lt_irrefl _ (hlog.consumed_lt ⟨_, hevent, rfl⟩)

theorem History.behalf_lt {event : Event} (hevent : event ∈ log) {seq : Nat}
    (hbehalf : event.behalf = some seq) : seq < next := by
  obtain ⟨before, after, rfl⟩ := List.append_of_mem hevent
  obtain ⟨cause, hcause, hconsumes⟩ := hlog.caused before event after rfl seq hbehalf
  exact hlog.consumed_lt ⟨cause, List.mem_append_left _ hcause, hconsumes⟩

theorem History.grow {events : List Event} {rx' : List UInt8} (hrx : rx' <:+ rx ++ delivered events)
    (hrequest : ∀ event ∈ events, event.request = none)
    (hbehalf : ∀ event ∈ events, ∀ seq, event.behalf = some seq → Consumed log seq)
    (honce : (acts events).Nodup) (hfresh : ∀ act ∈ acts events, act ∉ acts log ∧ act.1 < next) :
    History link next rx' (log ++ events) := by
  have hconsumed : consumed events = [] := List.filterMap_eq_nil_iff.mpr hrequest
  refine ⟨?_, ?_, ?_, ?_, hlog.caused.append hbehalf, ?_, ?_, ?_⟩
  · obtain ⟨front, hfront⟩ := hlog.buffered
    rw [delivered_append, ← hfront, List.append_assoc]
    exact hrx.trans (List.suffix_append front _)
  · rw [consumed_append, hconsumed, List.append_nil]
    exact hlog.numbered
  · rw [consumed_append, hconsumed, List.append_nil, delivered_append]
    intro entry hentry
    obtain ⟨hseq, hkind, htag⟩ := hlog.authentic entry hentry
    exact ⟨hseq, hkind, htag.trans (List.prefix_append _ _).isInfix⟩
  · rw [consumed_append, hconsumed, List.append_nil]
    exact hlog.count
  · rw [acts_append]
    refine List.nodup_append.mpr ⟨hlog.once, honce, ?_⟩
    rintro act hold _ hnew rfl
    exact (hfresh act hnew).1 hold
  · intro act hact
    rw [acts_append] at hact
    rcases List.mem_append.mp hact with hold | hnew
    · exact hlog.bounded act hold
    · exact (hfresh act hnew).2
  · refine hlog.final.append (noneAfter_of_forall_not fun event hevent =>
      not_isControl (hrequest event hevent)) ?_
    intro _ event hevent hnone
    exact hnone (hrequest event hevent)

end

/-- The requests that the state of the session points to. -/
structure Pointers (s : State) : Prop where
  command : s.active = true → Consumed s.log s.id ∧ (s.id, .terminal) ∉ acts s.log
  latch : s.control = 1 → Consumed s.log s.controlSeq ∧ (s.controlSeq, .reply) ∉ acts s.log
  overload : s.overload ≠ 0 → Consumed s.log s.overload
  fault : s.faultSent = false → ∀ seq, (seq, .fault) ∉ acts s.log
  mode : s.control ≤ 3

/-- What the pointers depend on, apart from the log. -/
def State.desk (s : State) :=
  (s.active, s.id, s.control, s.controlSeq, s.overload, s.faultSent)

structure Ordered (link : Link) (s : State) : Prop where
  history : History link s.next s.rx s.log
  pointers : Pointers s
  admitting : s.control = 0 → ∀ event ∈ s.log, ¬ event.isControl

section Stages

variable {link : Link} {s t : State}

theorem Pointers.grow (hs : Pointers s) (events : List Event)
    (hlog : t.log = s.log ++ events)
    (hcommand : t.active = true → s.active = true ∧ t.id = s.id ∧ (s.id, .terminal) ∉ acts events)
    (hlatch : t.control = 1 → s.control = 1 ∧ t.controlSeq = s.controlSeq ∧
      (s.controlSeq, .reply) ∉ acts events)
    (hoverload : t.overload = s.overload)
    (hfault : t.faultSent = false → s.faultSent = false ∧ ∀ seq, (seq, .fault) ∉ acts events)
    (hmode : t.control ≤ 3) : Pointers t := by
  refine ⟨?_, ?_, ?_, ?_, hmode⟩
  · intro h
    obtain ⟨hactive, hid, hnew⟩ := hcommand h
    obtain ⟨hconsumed, hold⟩ := hs.command hactive
    rw [hid, hlog, acts_append, List.mem_append, not_or]
    exact ⟨hconsumed.append events, hold, hnew⟩
  · intro h
    obtain ⟨hcontrol, hseq, hnew⟩ := hlatch h
    obtain ⟨hconsumed, hold⟩ := hs.latch hcontrol
    rw [hseq, hlog, acts_append, List.mem_append, not_or]
    exact ⟨hconsumed.append events, hold, hnew⟩
  · rw [hoverload, hlog]
    exact fun h => (hs.overload h).append events
  · intro h seq
    obtain ⟨hfresh, hnew⟩ := hfault h
    rw [hlog, acts_append, List.mem_append, not_or]
    exact ⟨hs.fault hfresh seq, hnew seq⟩

theorem Pointers.inert (hs : Pointers s) (events : List Event)
    (hlog : t.log = s.log ++ events) (hacts : acts events = []) (hdesk : t.desk = s.desk) :
    Pointers t := by
  simp only [State.desk, Prod.mk.injEq] at hdesk
  obtain ⟨hactive, hid, hcontrol, hcontrolSeq, hoverload, hfaultSent⟩ := hdesk
  refine hs.grow events hlog ?_ ?_ hoverload ?_ (hcontrol ▸ hs.mode)
  · simp [hactive, hid, hacts]
  · simp [hcontrol, hcontrolSeq, hacts]
  · simp [hfaultSent, hacts]

variable (hs : Ordered link s)
include hs

theorem Ordered.grow (events : List Event) (hlog : t.log = s.log ++ events)
    (hrx : t.rx <:+ s.rx ++ delivered events) (hnext : t.next = s.next)
    (hcontrol : t.control = 0 → s.control = 0) (hrequest : ∀ event ∈ events, event.request = none)
    (hbehalf : ∀ event ∈ events, ∀ seq, event.behalf = some seq → Consumed s.log seq)
    (honce : (acts events).Nodup) (hfresh : ∀ act ∈ acts events, act ∉ acts s.log ∧ act.1 < s.next)
    (hpointers : Pointers t) : Ordered link t := by
  refine ⟨?_, hpointers, ?_⟩
  · rw [hlog, hnext]
    exact hs.history.grow hrx hrequest hbehalf honce hfresh
  · intro hopen event hevent
    rw [hlog] at hevent
    rcases List.mem_append.mp hevent with hold | hnew
    · exact hs.admitting (hcontrol hopen) event hold
    · exact not_isControl (hrequest event hnew)

theorem Ordered.passive (events : List Event) (hlog : t.log = s.log ++ events)
    (hserves : ∀ event ∈ events, event.Serves (Consumed s.log))
    (hpassive : ∀ event ∈ events, event.act = none) (hrx : t.rx <:+ s.rx) (hnext : t.next = s.next)
    (hdesk : t.desk = s.desk) : Ordered link t := by
  have hacts : acts events = [] := List.filterMap_eq_nil_iff.mpr hpassive
  have hcontrol : t.control = s.control := congrArg (fun desk => desk.2.2.1) hdesk
  refine hs.grow events hlog ?_ hnext (hcontrol ▸ id)
    (fun event hevent => (hserves event hevent).request)
    (fun event hevent => (hserves event hevent).behalf) (by simp [hacts]) (by simp [hacts])
    (hs.pointers.inert events hlog hacts hdesk)
  rw [delivered_of_serves hserves, List.append_nil]
  exact hrx

theorem Ordered.quiet (events : List Event) (hlog : t.log = s.log ++ events)
    (hquiet : ∀ event ∈ events, event.Quiet) (hrx : t.rx = s.rx) (hnext : t.next = s.next)
    (hdesk : t.desk = s.desk) : Ordered link t :=
  hs.passive events hlog (fun event hevent => (hquiet event hevent).serves)
    (fun event hevent => (hquiet event hevent).act) (hrx ▸ List.suffix_refl _) hnext hdesk

theorem Ordered.signal (sig : Nat) : Ordered link (signal s sig) :=
  hs.quiet _ rfl (quiet_signalled (signals_signalled s sig)) rfl rfl rfl

theorem Ordered.congr (hlog : t.log = s.log) (hrx : t.rx <:+ s.rx) (hnext : t.next = s.next)
    (hdesk : t.desk = s.desk) : Ordered link t :=
  hs.passive [] (by rw [hlog, List.append_nil]) (by simp) (by simp) hrx hnext hdesk

theorem Ordered.same (hlog : t.log = s.log) (hrx : t.rx = s.rx) (hnext : t.next = s.next)
    (hdesk : t.desk = s.desk) : Ordered link t :=
  hs.congr hlog (hrx ▸ List.suffix_refl _) hnext hdesk

theorem Ordered.cancel (now flag : Nat) : Ordered link (cancel s now flag) := by
  obtain ⟨_, _, _, sent, hcancel, hsent⟩ := cancel_frame s now flag
  rw [hcancel]
  exact hs.quiet sent rfl (quiet_signalled hsent) rfl rfl rfl

theorem Ordered.slotted {stream : Nat} (hactive : s.active = true) (hslot : Slotted link s stream t) :
    Ordered link t := by
  have hid := (hs.pointers.command hactive).1
  cases hslot with
  | idle => exact hs
  | ended hopen =>
    exact hs.passive [.ended s.id stream] rfl
      (serves_all (by simp [Event.behalf]) hid) (by simp [Event.act])
      (List.suffix_refl _) rfl rfl
  | discarded data hopen hdata hchunk hfull =>
    exact hs.passive [.read s.id stream data] rfl
      (serves_all (by simp [Event.behalf]) hid) (by simp [Event.act])
      (List.suffix_refl _) rfl rfl
  | forwarded data hopen hdata hchunk htotal hordinal hroom =>
    exact hs.passive [.read s.id stream data,
      .queued ⟨kindOutput, s.id, outputBody s stream data⟩] (by simp [enqueue, note])
      (serves_all (by simp [Event.behalf]) hid)
      (by simp [Event.act]) (List.suffix_refl _) rfl rfl

theorem Ordered.send (frame : Frame) (act : Event.Act)
    (hact : (Event.queued frame).act = some (frame.seq, act)) (hseq : Consumed s.log frame.seq)
    (hfresh : (frame.seq, act) ∉ acts s.log) (hlog : t.log = s.log ++ [.queued frame])
    (hrx : t.rx = s.rx) (hnext : t.next = s.next) (hcontrol : t.control = 0 → s.control = 0)
    (hpointers : acts [.queued frame] = [(frame.seq, act)] → Pointers t) : Ordered link t := by
  have hacts : acts [.queued frame] = [(frame.seq, act)] := by simp [acts, hact]
  refine hs.grow _ hlog ?_ hnext hcontrol ?_ ?_ ?_ ?_ (hpointers hacts)
  · simp [delivered, Event.bytes, hrx]
  · simp [Event.request]
  · refine List.forall_mem_singleton.mpr fun seq hbehalf => ?_
    simp only [Event.behalf, Option.ite_none_left_eq_some, Option.some_inj] at hbehalf
    exact hbehalf.2 ▸ hseq
  · simp [hacts]
  · simpa [hacts] using And.intro hfresh (hs.history.consumed_lt hseq)

theorem Ordered.terminal (hactive : s.active = true) (body : List UInt8)
    (hlog : t.log = s.log ++ [.queued ⟨kindExit, s.id, body⟩]) (hrx : t.rx = s.rx)
    (hnext : t.next = s.next) (hdesk : t.desk = { s with active := false }.desk) :
    Ordered link t := by
  obtain ⟨hid, hterminal⟩ := hs.pointers.command hactive
  simp only [State.desk, Prod.mk.injEq] at hdesk
  obtain ⟨hidle, -, hcontrol, hcontrolSeq, hoverload, hfaultSent⟩ := hdesk
  refine hs.send _ .terminal rfl hid hterminal hlog hrx hnext (hcontrol ▸ id) fun hacts => ?_
  refine hs.pointers.grow _ hlog ?_ ?_ hoverload ?_ (hcontrol ▸ hs.pointers.mode)
  · simp [hidle]
  · simp [hcontrol, hcontrolSeq, hacts]
  · simp [hfaultSent, hacts]

theorem Ordered.reaped (hactive : s.active = true) (hreaped : Reaped link s t) :
    Ordered link t := by
  cases hreaped with
  | idle => exact hs
  | held isClean t ht hclean =>
    subst ht
    cases isClean <;> exact hs.same rfl rfl rfl rfl
  | sent isClean t ht hclean hroom =>
    subst ht
    cases isClean <;> exact hs.terminal hactive _ rfl rfl rfl rfl

theorem Ordered.executed {answer : ReadAnswer} (hexecuted : Executed s answer t) :
    Ordered link t := by
  cases hexecuted <;> exact hs.same rfl rfl rfl rfl

theorem Ordered.waited {now : Nat} {answer : WaitAnswer} (hwaited : Waited s now answer t) :
    Ordered link t := by
  cases hwaited with
  | idle => exact hs
  | reaped status hanswer hreaped =>
    refine Ordered.cancel ?_ now 0
    exact hs.same rfl rfl rfl rfl

theorem Ordered.stage {now : Nat} (hactive : s.active = true) (hstage : Stage link now s t) :
    Ordered link t := by
  cases hstage with
  | timedOut => exact hs.cancel now _
  | killed => exact (hs.signal 9).same rfl rfl rfl rfl
  | slotted stream hstream hslot => exact hs.slotted hactive hslot
  | executed answer hexecuted => exact hs.executed hexecuted
  | waited answer hwaited => exact hs.waited hwaited
  | reaped hreaped => exact hs.reaped hactive hreaped

theorem Ordered.childTick (now : Nat) (answers : ChildAnswers) :
    Ordered link (childTick link s now answers).1 :=
  childTick_keeps (fun _ _ hactive hs => hs.stage hactive) hs

theorem Ordered.acknowledge (hcontrol : s.control = 1) (body : List UInt8) :
    Ordered link { enqueue link s ⟨kindControlAck, s.controlSeq, body⟩ with control := 2 } := by
  obtain ⟨hseq, hreply⟩ := hs.pointers.latch hcontrol
  refine hs.send ⟨kindControlAck, s.controlSeq, body⟩ .reply rfl hseq hreply
    rfl rfl rfl (by simp) fun hacts => ?_
  refine hs.pointers.grow _ rfl ?_ (by simp) rfl ?_ (by simp)
  · exact fun h => ⟨h, rfl, by simp [hacts]⟩
  · exact fun h => ⟨h, by simp [hacts]⟩

theorem Ordered.controlled {answer : WaitAnswer} (hcontrol : s.control ≠ 0)
    (hcontrolled : Controlled link s answer t) : Ordered link t := by
  have hmode := hs.pointers.mode
  cases hcontrolled with
  | idle => exact hs
  | acknowledged hopen hempty hidle => exact hs.acknowledge (by omega) _
  | interrupted hopen hempty hactive t r ht hr =>
    have hwait : Ordered link t ∧ t.active = true ∧ t.control = s.control := by
      rw [ht]
      unfold controlWait
      split <;> exact ⟨hs.same rfl rfl rfl rfl, hactive, rfl⟩
    have hterminal : Ordered link r ∧ r.control = s.control := by
      rw [hr]
      exact ⟨hwait.1.terminal hwait.2.1 _ rfl rfl rfl rfl, hwait.2.2⟩
    exact hterminal.1.acknowledge (by omega) _

theorem Ordered.faulted (hfaulted : Faulted link s t) : Ordered link t := by
  cases hfaulted with
  | idle => exact hs
  | sent hoverload hfresh hcontrol hroom =>
    refine hs.send ⟨kindFault, s.overload, words [s.overload, 1]⟩ .fault rfl
      (hs.pointers.overload hoverload) (hs.pointers.fault hfresh s.overload) rfl rfl rfl id
      fun hacts => ?_
    refine hs.pointers.grow _ rfl ?_ ?_ rfl (by simp) hs.pointers.mode
    · exact fun h => ⟨h, rfl, by simp [hacts]⟩
    · exact fun h => ⟨h, rfl, by simp [hacts]⟩

end Stages

/-- A state in which the request `seq` was consumed and nothing was done for it. -/
structure Pending (link : Link) (seq kind : Nat) (body : List UInt8) (s : State) : Prop where
  history : History link s.next s.rx s.log
  pointers : Pointers s
  taken : Consumed s.log seq
  fresh : ∀ act ∈ acts s.log, act.1 ≠ seq
  next : seq < s.next
  admitting : s.control = 0
  control : ∀ event ∈ s.log, event.isControl → kind = kindControl ∧ body = []

section Requests

variable {link : Link} {seq kind : Nat} {body : List UInt8} {s t : State}

section

variable (hs : Pending link seq kind body s)
include hs

theorem Pending.grow (events : List Event) (hlog : t.log = s.log ++ events) (hrx : t.rx = s.rx)
    (hnext : t.next = s.next) (hserves : ∀ event ∈ events, event.Serves (· = seq))
    (honce : (acts events).Nodup) (hacts : ∀ act ∈ acts events, act.1 = seq)
    (hcontrol : kind = kindControl ∧ body = [] → t.control ≠ 0) (hpointers : Pointers t) :
    Ordered link t := by
  refine ⟨?_, hpointers, ?_⟩
  · rw [hlog, hnext]
    refine hs.history.grow ?_ (fun event hevent => (hserves event hevent).request) ?_ honce ?_
    · simp only [delivered_of_serves hserves, List.append_nil, hrx, List.suffix_refl]
    · intro event hevent other hbehalf
      rw [(hserves event hevent).behalf other hbehalf]
      exact hs.taken
    · intro act hact
      refine ⟨fun hold => hs.fresh act hold (hacts act hact), ?_⟩
      rw [hacts act hact]
      exact hs.next
  · intro hopen event hevent hisControl
    rw [hlog] at hevent
    rcases List.mem_append.mp hevent with hold | hnew
    · exact hcontrol (hs.control event hold hisControl) hopen
    · exact not_isControl (hserves event hnew).request hisControl

theorem Pending.answer (events : List Event) (hlog : t.log = s.log ++ events) (hrx : t.rx = s.rx)
    (hnext : t.next = s.next) (hserves : ∀ event ∈ events, event.Serves (· = seq))
    (honce : (acts events).Nodup)
    (hacts : ∀ act ∈ acts events, act.1 = seq ∧ act.2 ≠ .terminal ∧ act.2 ≠ .fault)
    (hother : ¬ (kind = kindControl ∧ body = []))
    (hstate : t.active = s.active ∧ t.id = s.id ∧ t.control = s.control ∧
      t.overload = s.overload ∧ t.faultSent = s.faultSent) : Ordered link t := by
  obtain ⟨hactive, hid, hcontrol, hoverload, hfaultSent⟩ := hstate
  refine hs.grow events hlog hrx hnext hserves honce (fun act hact => (hacts act hact).1)
    (fun h => absurd h hother) ?_
  refine hs.pointers.grow events hlog ?_ ?_ hoverload ?_ (hcontrol ▸ hs.pointers.mode)
  · intro h
    exact ⟨hactive ▸ h, hid, fun hact => (hacts _ hact).2.1 rfl⟩
  · rw [hcontrol, hs.admitting]
    simp
  · intro h
    exact ⟨hfaultSent ▸ h, fun seq hact => (hacts _ hact).2.2 rfl⟩

theorem Pending.reply (hother : ¬ (kind = kindControl ∧ body = [])) {reply : Nat}
    (hreply : reply = kindAck ∨ reply = kindStatusReply) (payload : List UInt8) :
    Ordered link (enqueue link s ⟨reply, seq, payload⟩) := by
  have hact : (Event.queued ⟨reply, seq, payload⟩).act = some (seq, .reply) := by
    rcases hreply with rfl | rfl <;> rfl
  have hbehalf : (Event.queued ⟨reply, seq, payload⟩).behalf = some seq := by
    rcases hreply with rfl | rfl <;> rfl
  exact hs.answer [.queued ⟨reply, seq, payload⟩] rfl rfl rfl
    (serves_all (by simp [hbehalf]) rfl) (by simp [acts, hact])
    (by simp [acts, hact]) hother ⟨rfl, rfl, rfl, rfl, rfl⟩

theorem Pending.fresh_act (act : Event.Act) : (seq, act) ∉ acts s.log :=
  fun hact => hs.fresh _ hact rfl

theorem Pending.unlatched : s.control ≠ 1 := by
  rw [hs.admitting]
  exact Nat.zero_ne_one

theorem Pending.latched (now : Nat) : Ordered link (latched s 1 seq now) := by
  have hacts : acts [.latched seq] = [(seq, .latch)] := rfl
  refine hs.grow [.latched seq] rfl rfl rfl
    (serves_all (by simp [Event.behalf]) rfl) (by simp [hacts])
    (by simp [hacts]) (by simp [Device.latched]) ⟨?_, ?_, ?_, ?_, by simp [Device.latched]⟩
  · intro h
    obtain ⟨hid, hterminal⟩ := hs.pointers.command h
    refine ⟨hid.append _, ?_⟩
    simpa [Device.latched, hacts] using hterminal
  · intro _
    refine ⟨hs.taken.append _, ?_⟩
    simpa [Device.latched, hacts] using hs.fresh_act .reply
  · exact fun h => (hs.pointers.overload h).append _
  · intro h other
    simpa [Device.latched, hacts] using hs.pointers.fault h other

theorem Pending.detached (hidle : s.active = false) (now : Nat) (payload : List UInt8) :
    Ordered link (enqueue link (Device.latched s 3 seq now) ⟨kindDetachAck, seq, payload⟩) := by
  have hacts : acts [.latched seq, .queued ⟨kindDetachAck, seq, payload⟩] =
      [(seq, .latch), (seq, .reply)] := by
    simp [acts, Event.act]
  have hlog : (enqueue link (Device.latched s 3 seq now) ⟨kindDetachAck, seq, payload⟩).log =
        s.log ++ [.latched seq, .queued ⟨kindDetachAck, seq, payload⟩] := by
    simp [enqueue, Device.latched]
  refine hs.grow _ hlog rfl rfl (serves_all (by simp [Event.behalf]) rfl) (by simp [hacts])
    (by simp [hacts]) (by simp [enqueue, Device.latched]) ?_
  refine hs.pointers.grow _ hlog ?_ ?_ rfl ?_ (Nat.le_refl 3)
  · simp [enqueue, Device.latched, hidle]
  · simp [enqueue, Device.latched]
  · simp [enqueue, Device.latched, hacts]

section

variable (hother : ¬ (kind = kindControl ∧ body = []))
include hother

theorem Pending.overloaded : Ordered link (overloaded s seq) := by
  have hacts : acts [.overloaded seq] = [(seq, .overload)] := rfl
  refine hs.grow [.overloaded seq] rfl rfl rfl
    (serves_all (by simp [Event.behalf]) rfl) (by simp [hacts])
    (by simp [hacts]) (fun h => absurd h hother) ⟨?_, ?_, ?_, ?_, hs.pointers.mode⟩
  · intro h
    obtain ⟨hid, hterminal⟩ := hs.pointers.command h
    refine ⟨hid.append _, ?_⟩
    simpa [Device.overloaded, hacts] using hterminal
  · exact fun h => absurd h hs.unlatched
  · intro h
    cases hold : decide (s.overload = 0) with
    | true =>
      simp only [Device.overloaded, of_decide_eq_true hold, if_true]
      exact hs.taken.append _
    | false =>
      simp only [Device.overloaded, if_neg (of_decide_eq_false hold)]
      exact (hs.pointers.overload (of_decide_eq_false hold)).append _
  · intro h other
    simpa [Device.overloaded, hacts] using hs.pointers.fault h other

theorem Pending.unspawned (hidle : s.active = false) (errno : Errno) :
    Ordered link (enqueue link (setupFailed (assign s seq) seq errno)
      ⟨kindExit, seq, setupBody seq errno⟩) := by
  have hacts : acts [.queued ⟨kindExit, seq, setupBody seq errno⟩] = [(seq, .terminal)] := by
    simp [acts, Event.act]
  refine hs.grow [.queued ⟨kindExit, seq, setupBody seq errno⟩] rfl rfl rfl
    (serves_all (by simp [Event.behalf]) rfl) (by simp [hacts])
    (by simp [hacts]) (fun h => absurd h hother) ?_
  refine hs.pointers.grow _ rfl ?_ (fun h => absurd h hs.unlatched) rfl ?_ hs.pointers.mode
  · exact fun h => absurd (hidle.symm.trans h) (by simp)
  · exact fun h => ⟨h, by simp [hacts]⟩

theorem Pending.spawned (command : List UInt8) (now : Nat) (pid : PNat) (payload : List UInt8) :
    Ordered link (enqueue link (launched (assign s seq) command now pid)
      ⟨kindAck, seq, payload⟩) := by
  have hacts : acts [.spawned seq, .queued ⟨kindAck, seq, payload⟩] =
      [(seq, .spawn), (seq, .reply)] := by
    simp [acts, Event.act]
  have hlog : (enqueue link (launched (assign s seq) command now pid) ⟨kindAck, seq, payload⟩).log =
        s.log ++ [.spawned seq, .queued ⟨kindAck, seq, payload⟩] := by
    simp [enqueue, launched, assign]
  refine hs.grow _ hlog rfl rfl (serves_all (by simp [Event.behalf]) rfl) (by simp [hacts])
    (by simp [hacts]) (fun h => absurd h hother) ⟨?_, ?_, ?_, ?_, hs.pointers.mode⟩
  · intro _
    rw [hlog, acts_append, hacts]
    refine ⟨hs.taken.append _, ?_⟩
    simpa [enqueue, launched, assign] using hs.fresh_act .terminal
  · exact fun h => absurd h hs.unlatched
  · rw [hlog]
    exact fun h => (hs.pointers.overload h).append _
  · intro h other
    rw [hlog, acts_append, hacts]
    simpa using hs.pointers.fault h other

theorem Pending.cancelled (now : Nat) (payload : List UInt8) :
    Ordered link (enqueue link (cancel (note s (.cancelled seq)) now flagCancel)
      ⟨kindAck, seq, payload⟩) := by
  obtain ⟨_, _, _, sent, hcancel, hsent⟩ :=
    cancel_frame (note s (.cancelled seq)) now flagCancel
  have hquiet := quiet_signalled hsent
  have hquietActs : acts sent = [] :=
    List.filterMap_eq_nil_iff.mpr fun event hevent => (hquiet event hevent).act
  have hacts : acts ([.cancelled seq] ++ sent ++ [.queued ⟨kindAck, seq, payload⟩]) =
      [(seq, .cancel), (seq, .reply)] := by
    rw [acts_append, acts_append, hquietActs]
    simp [acts, Event.act]
  rw [hcancel]
  refine hs.answer ([.cancelled seq] ++ sent ++ [.queued ⟨kindAck, seq, payload⟩])
    (by simp [enqueue, note]) rfl rfl ?_ (by rw [hacts]; simp) (by rw [hacts]; simp)
    hother ⟨rfl, rfl, rfl, rfl, rfl⟩
  intro event hevent
  rw [List.append_assoc, List.mem_append, List.mem_append, List.mem_singleton,
    List.mem_singleton] at hevent
  rcases hevent with rfl | hevent | rfl
  · exact Event.serves_of_behalf rfl rfl
  · exact (hquiet event hevent).serves
  · exact Event.serves_of_behalf rfl rfl

end

theorem Pending.dispatched {now : Nat} (hdispatched : Dispatched link s seq kind body now t) :
    Ordered link t := by
  have hother {number : Nat} (hkind : kind = number) (hnumber : number ≠ kindControl) :
      ¬ (kind = kindControl ∧ body = []) :=
    fun h => hnumber (hkind.symm.trans h.1)
  cases hdispatched with
  | detached hkind hidle hpid hempty hflags hdropped => exact hs.detached hidle now _
  | controlled hkind hbody => exact ((hs.latched now).cancel now flagCancel).signal 9
  | overloaded hnot hfull => exact hs.overloaded hnot
  | refused hkind hbusy hroom => exact hs.reply (hother hkind (by decide)) (.inl rfl) _
  | unspawned hkind hidle hroom errno =>
    exact hs.unspawned (hother hkind (by decide)) hidle errno
  | spawned hkind hidle hopen hroom pid =>
    exact hs.spawned (hother hkind (by decide)) body now pid _
  | status hkind hroom => exact hs.reply (hother hkind (by decide)) (.inr rfl) _
  | cancelled hkind htarget hactive hroom =>
    exact hs.cancelled (hother hkind (by decide)) now _
  | completed hkind htarget hnonzero hroom =>
    exact hs.reply (hother hkind (by decide)) (.inl rfl) _
  | stale hkind hid hlast hroom =>
    exact hs.reply (hother hkind (by decide)) (.inl rfl) _
  | malformed hnot =>
    exact hs.answer [] (by simp) rfl rfl (by simp) (by simp [acts]) (by simp [acts]) hnot
      ⟨rfl, rfl, rfl, rfl, rfl⟩

end

theorem Ordered.appended (hs : Ordered link s) (bytes : List UInt8) (now : Nat) :
    Ordered link (append s bytes now) := by
  have hacts : acts [.received bytes] = [] := rfl
  refine hs.grow [.received bytes] rfl ?_ rfl (fun h => h) ?_ ?_ ?_ ?_ ?_
  · simp [delivered, Event.bytes, append]
  · simp [Event.request]
  · simp [Event.behalf]
  · simp [hacts]
  · simp [hacts]
  · exact hs.pointers.inert _ rfl hacts rfl

theorem delivered_of_requestOk (hlength : s.rx.length = s.rxSize) (hok : requestOk link s) :
    requestBody s ++ link.tag s.next (headKind s.rx) (requestBody s) <:+: s.rx := by
  obtain ⟨hsize, hseq, -, -, htag⟩ := hok
  simp only [headerSize] at hsize
  have htagLength : (requestTag s).length = 32 := length_window (by omega)
  have htagEq : link.tag s.next (headKind s.rx) (requestBody s) = requestTag s := by
    rw [← hseq]
    refine (constantTimeEqual_iff ?_).mp htag
    rw [link.tag_length, htagLength]
  have hpayload : requestBody s ++ requestTag s = s.rx.drop headerSize := by
    have hsplit := window_add headerSize (s.rxSize - headerSize - 32) 32 s.rx
    have hoffset : headerSize + (s.rxSize - headerSize - 32) = s.rxSize - 32 := by
      simp only [headerSize]
      omega
    have hwhole : s.rxSize - headerSize - 32 + 32 = s.rx.length - headerSize := by
      simp only [headerSize]
      omega
    rw [hoffset, hwhole, window, ← List.length_drop, List.take_length] at hsplit
    exact hsplit.symm
  rw [htagEq, hpayload]
  exact (List.drop_suffix headerSize s.rx).isInfix

theorem seq_lt_of_requestOk (hlength : s.rx.length = s.rxSize) (hok : requestOk link s) :
    s.next < 2 ^ 32 := by
  obtain ⟨hsize, hseq, -⟩ := hok
  simp only [headerSize] at hsize
  have hvalue := value_lt (window 8 4 s.rx)
  rw [length_window (by omega)] at hvalue
  rw [← hseq]
  exact hvalue

theorem Ordered.consumed (hs : Ordered link s) (hcontrol : s.control = 0)
    (hlength : s.rx.length = s.rxSize) (hok : requestOk link s) :
    Pending link s.next (headKind s.rx) (requestBody s)
      (consume s s.next (headKind s.rx) (requestBody s)) := by
  obtain ⟨hlog, hpointers, hadmitting⟩ := hs
  have hcount := hlog.count
  have hconsumed : Device.consumed (s.log ++ [.consumed s.next (headKind s.rx) (requestBody s)]) =
        Device.consumed s.log ++ [(s.next, headKind s.rx, requestBody s)] := by
    rw [consumed_append]
    rfl
  have hdelivered : delivered (s.log ++ [.consumed s.next (headKind s.rx) (requestBody s)]) =
        delivered s.log := by
    rw [delivered_append]
    exact List.append_nil _
  have hacts : acts (s.log ++ [.consumed s.next (headKind s.rx) (requestBody s)]) = acts s.log := by
    rw [acts_append]
    exact List.append_nil _
  have hmem : Event.consumed s.next (headKind s.rx) (requestBody s) ∈
      s.log ++ [.consumed s.next (headKind s.rx) (requestBody s)] := by
    simp
  constructor
  case history =>
    refine ⟨?_, ?_, ?_, ?_, hlog.caused.append (by simp [Event.behalf]), ?_, ?_, ?_⟩
    · rw [consume, hdelivered]
      exact hlog.buffered
    · rw [consume, hconsumed, List.map_append, hlog.numbered, List.length_append,
        List.length_singleton, List.range'_concat]
      simp [hcount, Nat.add_comm]
    · rw [consume, hconsumed, hdelivered]
      intro entry hentry
      rcases List.mem_append.mp hentry with hold | hnew
      · exact hlog.authentic entry hold
      · rw [List.mem_singleton] at hnew
        subst hnew
        exact ⟨seq_lt_of_requestOk hlength hok, UInt8.toNat_lt _,
          (delivered_of_requestOk hlength hok).trans hlog.buffered.isInfix⟩
    · rw [consume, hconsumed, List.length_append, List.length_singleton]
      exact congrArg (· + 1) hcount
    · rw [consume, hacts]
      exact hlog.once
    · rw [consume, hacts]
      exact fun act hact => Nat.lt_succ_of_lt (hlog.bounded act hact)
    · refine hlog.final.append (noneAfter_singleton _) ?_
      rintro ⟨event, hevent, hisControl⟩
      exact absurd hisControl (hadmitting hcontrol event hevent)
  case pointers => exact hpointers.inert _ rfl rfl rfl
  case taken => exact ⟨_, hmem, rfl⟩
  case fresh =>
    rw [consume, hacts]
    exact fun act hact => Nat.ne_of_lt (hlog.bounded act hact)
  case next => exact Nat.lt_succ_self _
  case admitting => exact hcontrol
  case control =>
    intro event hevent hisControl
    rcases List.mem_append.mp hevent with hold | hnew
    · exact absurd hisControl (hadmitting hcontrol event hold)
    · rw [List.mem_singleton] at hnew
      subst hnew
      exact hisControl

theorem Ordered.received {p : Profile} {now : Nat} (hs : Ordered p.link s)
    (hcontrol : s.control = 0) (hreceived : Received p s now t) : Ordered p.link t := by
  cases hreceived with
  | idle => exact hs
  | appended bytes rxSize =>
    exact (hs.appended bytes now).same rfl rfl rfl rfl
  | rejected bytes =>
    exact (hs.appended bytes now).congr rfl List.nil_suffix rfl rfl
  | requested bytes rxSize whole hwhole hlength hok t hdispatched =>
    have hordered : Ordered p.link whole := by
      rw [hwhole]
      exact (hs.appended bytes now).same rfl rfl rfl rfl
    have hcontrol' : whole.control = 0 := by
      rw [hwhole]
      exact hcontrol
    have hsize : whole.rx.length = whole.rxSize := by
      rw [hlength, hwhole]
    have hpending := hordered.consumed hcontrol' hsize hok
    exact (hpending.dispatched hdispatched).congr rfl List.nil_suffix rfl rfl

end Requests

theorem boot_eq (link : Link) (start uid gid : Nat) : boot link start uid gid =
      enqueue link { start := start } ⟨kindReady, 2, readyBody uid gid⟩ := by
  rw [boot, queue_of_lt (by simp [readyBody, maxPayload]) (by simp)]

theorem ordered_boot (link : Link) (start uid gid : Nat) :
    Ordered link (boot link start uid gid) := by
  rw [boot_eq]
  have hconsumed : consumed [.queued ⟨kindReady, 2, readyBody uid gid⟩] = [] := rfl
  have hacts : acts [.queued ⟨kindReady, 2, readyBody uid gid⟩] = [] := by
    simp [acts, Event.act]
  have hcontrol : ∀ event ∈ [Event.queued ⟨kindReady, 2, readyBody uid gid⟩],
      ¬ event.isControl := by
    simp [Event.isControl]
  refine ⟨⟨List.nil_suffix, rfl, ?_, rfl, ?_, ?_, ?_, noneAfter_of_forall_not hcontrol⟩,
    ⟨?_, ?_, ?_, ?_, Nat.zero_le 3⟩, fun _ => hcontrol⟩
  · simp [enqueue, hconsumed]
  · exact caused_nil.append (by simp [Event.behalf])
  · simp [enqueue, hacts]
  · simp [enqueue, hacts]
  · simp [enqueue]
  · simp [enqueue]
  · simp [enqueue]
  · simp [enqueue, hacts]

theorem ordered_kept (p : Profile) : Kept p (Ordered p.link) where
  receive s now answer answers hcontrol hs :=
    hs.received hcontrol (receive_spec p s now answer answers)
  child _ now answers _ hs := hs.childTick now answers
  control s answer hcontrol hs := hs.controlled hcontrol (controlTick_spec p.link s answer)
  fault s hs := hs.faulted (faultStage_spec p.link s)
  queue _ _ _ hs := hs.same rfl rfl rfl rfl
  signal _ hs := hs.signal 9

theorem History.inOrder {link : Link} {next : Nat} {rx : List UInt8} {log : List Event}
    (hlog : History link next rx log) {issued : List (Nat × List UInt8)}
    (hunforged : Unforged link issued (delivered log)) :
    consumed log <+: Device.numbered issued := by
  rw [List.prefix_iff_getElem?]
  intro index hindex
  obtain ⟨hseq, hkind, htag⟩ := hlog.authentic _ (List.getElem_mem hindex)
  obtain ⟨hthree, hissued⟩ := hunforged _ hseq _ hkind _ htag
  have hnumber : (consumed log)[index].1 = 3 + index := by
    have hmap := congrArg (fun seqs => seqs[index]?) hlog.numbered
    simpa [hindex] using hmap
  rw [hnumber, Nat.add_sub_cancel_left] at hissued
  rw [Device.numbered, List.getElem?_mapIdx, hissued, Option.map_some, Option.some_inj]
  rw [Nat.add_comm, ← hnumber]

/-- In every run of the console, whatever bytes arrive, the consumed requests are
the first ones the host issued, in order and each once; every act follows the
consumption of the request it serves and happens once; and no request is consumed
after CONTROL. -/
theorem console_acts_in_order (p : Profile) (start uid gid : Nat)
    (answers : List TickAnswers) (issued : List (Nat × List UInt8))
    (hunforged : Unforged p.link issued (delivered (console p start uid gid answers).1.log)) :
    consumed (console p start uid gid answers).1.log <+: numbered issued ∧
      Caused Event.behalf Event.consumes (console p start uid gid answers).1.log ∧
      (acts (console p start uid gid answers).1.log).Nodup ∧
      NoneAfter Event.isControl (fun event => event.request ≠ none)
        (console p start uid gid answers).1.log := by
  obtain ⟨t, ht, hlog, -⟩ :=
    (ordered_kept p).turns answers (ordered_boot p.link start uid gid)
  rw [console, hlog] at hunforged ⊢
  exact ⟨ht.history.inOrder hunforged, ht.history.caused, ht.history.once, ht.history.final⟩

namespace StatusSession

def link : Link :=
  { Link.keyless with
    tag := fun seq kind body =>
      if seq = 3 ∧ kind = kindStatus ∧ body = [] then List.replicate 32 0xaa
      else List.replicate 32 0xff
    tag_length := fun seq kind body => by split <;> rfl }

def wire : List UInt8 := Frame.encode link ⟨kindStatus, 3, []⟩

def answers : List TickAnswers :=
  [{ receive := .data (wire.take 16) }, { receive := .data (wire.drop 16) }]

theorem unforged : Unforged link [(kindStatus, [])]
    (delivered (console ⟨link, false⟩ 0 0 0 answers).1.log) := by
  have hstream : delivered (console ⟨link, false⟩ 0 0 0 answers).1.log = wire := by
    decide +kernel
  rw [hstream]
  intro seq _ kind _ body hinfix
  cases hissued : decide (seq = 3 ∧ kind = kindStatus ∧ body = []) with
  | true =>
    obtain ⟨rfl, rfl, rfl⟩ := of_decide_eq_true hissued
    exact ⟨Nat.le_refl 3, rfl⟩
  | false =>
    have htag : link.tag seq kind body = List.replicate 32 0xff :=
      if_neg (of_decide_eq_false hissued)
    have hmem : (0xff : UInt8) ∈ wire := by
      refine hinfix.subset (List.mem_append_right body ?_)
      rw [htag]
      simp
    exact absurd hmem (by decide +kernel)

theorem consumed_status :
    consumed (console ⟨link, false⟩ 0 0 0 answers).1.log = [(3, kindStatus, [])] := by
  decide +kernel

end StatusSession

theorem console_acts_in_order_status :
    consumed (console ⟨StatusSession.link, false⟩ 0 0 0 StatusSession.answers).1.log =
        [(3, kindStatus, [])] ∧
      (acts (console ⟨StatusSession.link, false⟩ 0 0 0 StatusSession.answers).1.log).Nodup :=
  ⟨StatusSession.consumed_status,
    (console_acts_in_order ⟨StatusSession.link, false⟩ 0 0 0 StatusSession.answers
      [(kindStatus, [])] StatusSession.unforged).2.2.1⟩

end NativeInitLab.RootConsole.Device
