import NativeInitLab.RootConsole.Reader

namespace NativeInitLab.RootConsole.Device

open LittleEndian EventLog

/-! The response queue.  A host that waits for the answer to each normal request
leaves room for the answer to the next one. -/

def Event.frame : Event → Option Frame
  | .queued frame => some frame
  | _ => none

def framed (log : List Event) : List Frame := log.filterMap Event.frame

@[simp] theorem framed_append (first second : List Event) :
    framed (first ++ second) = framed first ++ framed second := by
  simp [framed]

@[simp] theorem framed_queued (frame : Frame) : framed [.queued frame] = [frame] := rfl

def State.flushed (s : State) : List Frame :=
  (framed s.log).take ((framed s.log).length - s.queue.length)

def Normal (request : Nat × Nat × List UInt8) : Prop :=
  ¬ (request.2.1 = kindControl ∧ request.2.2 = [])

instance (request : Nat × Nat × List UInt8) : Decidable (Normal request) :=
  inferInstanceAs (Decidable (¬ _))

def Answered (s : State) : Prop :=
  ∀ request ∈ consumed s.log, Normal request → ∃ frame ∈ s.flushed, frame.seq = request.1

instance (s : State) : Decidable (Answered s) :=
  inferInstanceAs (Decidable (∀ request ∈ consumed s.log, _))

/-- A normal request that the turn consumes was sent when none was unanswered. -/
def Patient (p : Profile) (s : State) (answers : TickAnswers) : Prop :=
  ∀ now, answers.now = .ok now → ∀ request ∈ consumed (receiveStage p s now answers).1.log,
      request ∉ consumed s.log → Normal request → Answered s

/-- The host has at most one unanswered normal request throughout the run. -/
def Conforming (p : Profile) : State → List TickAnswers → Prop
  | _, [] => True
  | s, answers :: rest =>
    Patient p s answers ∧
      ((tick p s answers).2 = .continued → Conforming p (tick p s answers).1 rest)

/-! What follows the last answer is short. -/

/-- The last answer is the first frame with its number, and few of the frames
after it are still queued. -/
def Paced (requests : List (Nat × Nat × List UInt8)) (frames : List Frame)
    (queued limit : Nat) : Prop :=
  ∃ before recent, frames = before ++ recent ∧ min queued recent.length ≤ limit ∧
    (before = [] ∨ ∃ earlier answer request, before = earlier ++ [answer] ∧
      request ∈ requests ∧ Normal request ∧ answer.seq = request.1 ∧
      ∀ frame ∈ earlier, frame.seq ≠ answer.seq)

section Paced

variable {requests : List (Nat × Nat × List UInt8)} {frames : List Frame} {queued limit : Nat}

theorem paced_of_le (hqueued : queued ≤ limit) : Paced requests frames queued limit :=
  ⟨[], frames, rfl, Nat.le_trans (Nat.min_le_left _ _) hqueued, .inl rfl⟩

theorem paced_answer {request : Nat × Nat × List UInt8} (hrequest : request ∈ requests)
    (hnormal : Normal request) {answer : Frame} (hseq : answer.seq = request.1)
    (hfresh : ∀ frame ∈ frames, frame.seq ≠ answer.seq) :
    Paced requests (frames ++ [answer]) queued limit :=
  ⟨frames ++ [answer], [], (List.append_nil _).symm, by simp,
    .inr ⟨frames, answer, request, rfl, hrequest, hnormal, hseq, hfresh⟩⟩

theorem Paced.append (hpaced : Paced requests frames queued limit) (frame : Frame) :
    Paced requests (frames ++ [frame]) (queued + 1) (limit + 1) := by
  obtain ⟨before, recent, rfl, hmin, hbefore⟩ := hpaced
  refine ⟨before, recent ++ [frame], List.append_assoc _ _ _, ?_, hbefore⟩
  rw [List.length_append, List.length_singleton]
  omega

theorem Paced.mono (hpaced : Paced requests frames queued limit)
    {requests' : List (Nat × Nat × List UInt8)} (hrequests : requests ⊆ requests')
    {queued' : Nat} (hqueued : queued' ≤ queued) : Paced requests' frames queued' limit := by
  obtain ⟨before, recent, rfl, hmin, hbefore⟩ := hpaced
  refine ⟨before, recent, rfl, by omega, ?_⟩
  rcases hbefore with hempty | ⟨earlier, answer, request, hsplit, hmem, hrest⟩
  · exact .inl hempty
  · exact .inr ⟨earlier, answer, request, hsplit, hrequests hmem, hrest⟩

theorem Paced.queued_le (hpaced : Paced requests frames queued limit)
    (hheld : queued ≤ frames.length)
    (hanswered : ∀ request ∈ requests, Normal request →
      ∃ frame ∈ frames.take (frames.length - queued), frame.seq = request.1) :
    queued ≤ limit := by
  obtain ⟨before, recent, rfl, hmin, hbefore⟩ := hpaced
  rw [List.length_append] at hheld
  suffices hrecent : queued ≤ recent.length by omega
  rcases hbefore with rfl | ⟨earlier, answer, request, rfl, hmem, hnormal, hseq, hfresh⟩
  · simpa using hheld
  · by_contra hlong
    obtain ⟨frame, hframe, hframeSeq⟩ := hanswered request hmem hnormal
    rw [List.append_assoc, List.take_append_of_le_length (by
      simp only [List.length_append, List.length_singleton] at hheld ⊢
      omega)] at hframe
    exact hfresh frame (List.mem_of_mem_take hframe) (hframeSeq.trans hseq.symm)

end Paced

/-- The frames that may follow the last answer in the queue: the output of the
command and, once it has ended, its terminal. -/
def backlogLimit (active : Bool) : Nat :=
  if active then queueSlots - 3 else queueSlots - 2

theorem backlogLimit_ge (active : Bool) : queueSlots - 3 ≤ backlogLimit active := by
  cases active <;> decide

structure Backlogged (s : State) : Prop where
  slots : s.queue.length ≤ queueSlots - 1
  taken : ∀ frame, .refused frame ∉ s.log
  held : s.queue.length ≤ (framed s.log).length
  ready : ∀ frame ∈ framed s.log, frame.kind = kindReady → frame.seq = 2
  unfaulted : s.overload = 0 → ∀ frame ∈ framed s.log, frame.kind ≠ kindFault
  paced : s.overload = 0 →
    Paced (consumed s.log) (framed s.log) s.queue.length (backlogLimit s.active)

/-- An event that queues nothing and refuses nothing. -/
def Event.Silent (event : Event) : Prop :=
  event.frame = none ∧ ∀ frame, event ≠ .refused frame

theorem silent_signalled {sig : Nat} {sent : List Event}
    (hsent : ∀ event ∈ sent, ∃ pid, event = .signalled pid sig) :
    ∀ event ∈ sent, event.Silent := by
  intro event hevent
  obtain ⟨pid, rfl⟩ := hsent event hevent
  exact ⟨rfl, by simp⟩

section Stages

variable {link : Link} {s t : State} (hs : Backlogged s)
include hs

theorem Backlogged.silent (events : List Event) (hlog : t.log = s.log ++ events)
    (hevents : ∀ event ∈ events, event.Silent) (hqueue : t.queue.length ≤ s.queue.length)
    (hactive : t.active = s.active) (hoverload : t.overload = 0 → s.overload = 0) :
    Backlogged t := by
  have hnone : framed events = [] :=
    List.filterMap_eq_nil_iff.mpr fun event hevent => (hevents event hevent).1
  have hframed : framed t.log = framed s.log := by
    rw [hlog, framed_append, hnone, List.append_nil]
  refine ⟨Nat.le_trans hqueue hs.slots, ?_, ?_, ?_, ?_, ?_⟩
  · intro frame hmem
    rw [hlog] at hmem
    rcases List.mem_append.mp hmem with hold | hnew
    · exact hs.taken frame hold
    · exact (hevents _ hnew).2 frame rfl
  · rw [hframed]
    exact Nat.le_trans hqueue hs.held
  · rw [hframed]
    exact hs.ready
  · rw [hframed]
    exact fun h => hs.unfaulted (hoverload h)
  · intro h
    rw [hframed, hactive]
    refine (hs.paced (hoverload h)).mono ?_ hqueue
    rw [hlog, consumed_append]
    exact List.subset_append_left _ _

theorem Backlogged.same (hlog : t.log = s.log) (hqueue : t.queue.length ≤ s.queue.length)
    (hactive : t.active = s.active) (hoverload : t.overload = s.overload) : Backlogged t :=
  hs.silent [] (by rw [hlog, List.append_nil]) (by simp) hqueue hactive (hoverload ▸ id)

theorem Backlogged.note (event : Event) (hframe : event.frame = none)
    (hrefused : ∀ frame, event ≠ .refused frame) : Backlogged (note s event) :=
  hs.silent [event] rfl (List.forall_mem_singleton.mpr ⟨hframe, hrefused⟩) (Nat.le_refl _) rfl id

theorem Backlogged.queued (events : List Event) (frame : Frame)
    (hlog : t.log = s.log ++ (events ++ [.queued frame])) (hevents : ∀ event ∈ events, event.Silent)
    (hqueue : t.queue.length = s.queue.length + 1) (hroom : s.queue.length < queueSlots - 1)
    (hready : frame.kind ≠ kindReady)
    (hfault : t.overload = 0 → s.overload = 0 ∧ frame.kind ≠ kindFault)
    (hpaced : t.overload = 0 → Paced (consumed s.log) (framed s.log ++ [frame])
      (s.queue.length + 1) (backlogLimit t.active)) : Backlogged t := by
  have hnone : framed events = [] :=
    List.filterMap_eq_nil_iff.mpr fun event hevent => (hevents event hevent).1
  have hframed : framed t.log = framed s.log ++ [frame] := by
    rw [hlog, framed_append, framed_append, hnone, framed_queued, List.nil_append]
  refine ⟨by omega, ?_, ?_, ?_, ?_, ?_⟩
  · intro other hmem
    rw [hlog, List.mem_append, List.mem_append, List.mem_singleton] at hmem
    rcases hmem with hold | hnew | hlast
    · exact hs.taken other hold
    · exact (hevents _ hnew).2 other rfl
    · cases hlast
  · rw [hframed, hqueue, List.length_append, List.length_singleton]
    exact Nat.succ_le_succ hs.held
  · rw [hframed]
    intro other hother hkind
    rcases List.mem_append.mp hother with hold | hnew
    · exact hs.ready other hold hkind
    · rw [List.mem_singleton.mp hnew] at hkind
      exact absurd hkind hready
  · rw [hframed]
    intro h other hother
    rcases List.mem_append.mp hother with hold | hnew
    · exact hs.unfaulted (hfault h).1 other hold
    · rw [List.mem_singleton.mp hnew]
      exact (hfault h).2
  · intro h
    rw [hframed, hqueue]
    refine (hpaced h).mono ?_ (Nat.le_refl _)
    rw [hlog, consumed_append]
    exact List.subset_append_left _ _

theorem Backlogged.signal (sig : Nat) : Backlogged (signal s sig) :=
  hs.silent _ rfl (silent_signalled (signals_signalled s sig)) (Nat.le_refl _) rfl id

theorem Backlogged.cancel (now flag : Nat) : Backlogged (cancel s now flag) := by
  obtain ⟨_, _, _, sent, hcancel, hsent⟩ := cancel_frame s now flag
  rw [hcancel]
  exact hs.silent sent rfl (silent_signalled hsent) (Nat.le_refl _) rfl id

theorem Backlogged.slotted {stream : Nat} (hactive : s.active = true)
    (hslot : Slotted link s stream t) : Backlogged t := by
  cases hslot with
  | idle => exact hs
  | ended hopen => exact (hs.note _ rfl (by simp)).same rfl (Nat.le_refl _) rfl rfl
  | discarded data hopen hdata hchunk hfull =>
    exact (hs.note _ rfl (by simp)).same rfl (Nat.le_refl _) rfl rfl
  | forwarded data hopen hdata hchunk htotal hordinal hroom =>
    refine hs.queued [.read s.id stream data] _ (List.append_assoc _ _ _)
      (by simp [Event.Silent, Event.frame]) (by simp [enqueue, Device.note]) ?_ (by simp)
      (fun h => ⟨h, by simp⟩) ?_
    · exact Nat.lt_of_lt_of_le hroom (by decide)
    · intro _
      apply paced_of_le
      change s.queue.length + 1 ≤ backlogLimit s.active
      rw [hactive]
      exact hroom

theorem Backlogged.executed {answer : ReadAnswer} (hexecuted : Executed s answer t) :
    Backlogged t := by
  cases hexecuted <;> exact hs.same rfl (Nat.le_refl _) rfl rfl

theorem Backlogged.waited {now : Nat} {answer : WaitAnswer} (hwaited : Waited s now answer t) :
    Backlogged t := by
  cases hwaited with
  | idle => exact hs
  | reaped status hanswer hreaped =>
    refine Backlogged.cancel ?_ now 0
    exact hs.same rfl (Nat.le_refl _) rfl rfl

theorem Backlogged.terminal (hactive : s.active = true) (body : List UInt8)
    (hlog : t.log = s.log ++ [.queued ⟨kindExit, s.id, body⟩])
    (hqueue : t.queue.length = s.queue.length + 1) (hroom : s.queue.length < queueSlots - 1)
    (hidle : t.active = false) (hoverload : t.overload = s.overload) : Backlogged t := by
  refine hs.queued [] _ hlog (by simp) hqueue hroom (by simp) (fun h => ⟨hoverload ▸ h, by simp⟩) ?_
  intro h
  have hpaced := (hs.paced (hoverload ▸ h)).append ⟨kindExit, s.id, body⟩
  rw [hactive] at hpaced
  rw [hidle]
  exact hpaced

theorem Backlogged.reaped (hactive : s.active = true) (hreaped : Reaped link s t) :
    Backlogged t := by
  cases hreaped with
  | idle => exact hs
  | held isClean t ht hclean =>
    subst ht
    cases isClean <;> exact hs.same rfl (Nat.le_refl _) rfl rfl
  | sent isClean t ht hclean hroom =>
    subst ht
    cases isClean <;>
      exact hs.terminal hactive _ rfl (by simp [retire, closePipes, enqueue]) hroom rfl rfl

theorem Backlogged.stage {now : Nat} (hactive : s.active = true) (hstage : Stage link now s t) :
    Backlogged t := by
  cases hstage with
  | timedOut => exact hs.cancel now _
  | killed => exact (hs.signal 9).same rfl (Nat.le_refl _) rfl rfl
  | slotted stream hstream hslot => exact hs.slotted hactive hslot
  | executed answer hexecuted => exact hs.executed hexecuted
  | waited answer hwaited => exact hs.waited hwaited
  | reaped hreaped => exact hs.reaped hactive hreaped

theorem Backlogged.short (frame : Frame) (hlog : t.log = s.log ++ [.queued frame])
    (hqueue : t.queue.length = s.queue.length + 1) (hshort : s.queue.length ≤ 1)
    (hkind : frame.kind ≠ kindReady ∧ frame.kind ≠ kindFault) (hoverload : t.overload = s.overload) :
    Backlogged t := by
  refine hs.queued [] frame hlog (by simp) hqueue (Nat.lt_of_le_of_lt hshort (by decide)) hkind.1
    (fun h => ⟨hoverload ▸ h, hkind.2⟩) fun _ => paced_of_le ?_
  exact Nat.le_trans (Nat.succ_le_succ hshort) (Nat.le_trans (by decide) (backlogLimit_ge t.active))

theorem Backlogged.controlled {answer : WaitAnswer} (hcontrolled : Controlled link s answer t) :
    Backlogged t := by
  cases hcontrolled with
  | idle => exact hs
  | acknowledged hopen hempty hidle =>
    exact hs.short _ rfl (by simp [enqueue]) (by simp [hempty]) (by simp) rfl
  | interrupted hopen hempty hactive t r ht hr =>
    have hwait : Backlogged t ∧ t.active = true ∧ t.queue = [] := by
      rw [ht]
      unfold controlWait
      split <;> exact ⟨hs.same rfl (Nat.le_refl _) rfl rfl, hactive, hempty⟩
    obtain ⟨ht, htactive, htempty⟩ := hwait
    have hlength : r.queue.length = 1 := by
      rw [hr]
      simp [retire, closePipes, enqueue, htempty]
    have hterminal : Backlogged r := by
      refine ht.terminal htactive (exitBody t) ?_ ?_ ?_ ?_ ?_
      · rw [hr]
        rfl
      · rw [hlength, htempty]
        rfl
      · rw [htempty]
        decide
      · rw [hr]
        rfl
      · rw [hr]
        rfl
    exact hterminal.short _ rfl (by simp [enqueue]) (Nat.le_of_eq hlength) (by simp) rfl

theorem Backlogged.faulted (hfaulted : Faulted link s t) : Backlogged t := by
  cases hfaulted with
  | idle => exact hs
  | sent hoverload hfresh hcontrol hroom =>
    exact hs.queued [] _ rfl (by simp) (by simp [enqueue]) hroom (by simp)
      (fun h => absurd h hoverload) fun h => absurd h hoverload

end Stages

section Requests

variable {link : Link} {s t : State} {seq kind : Nat} {body : List UInt8}

section

variable (hs : Backlogged s)
  (hrequest : (seq, kind, body) ∈ consumed s.log)
  (hfresh : ∀ frame ∈ framed s.log, frame.seq ≠ seq)
include hs hrequest hfresh

theorem Backlogged.answer (hnormal : Normal (seq, kind, body)) (events : List Event)
    (hevents : ∀ event ∈ events, event.Silent) {reply : Nat}
    (hreply : reply = kindAck ∨ reply = kindStatusReply ∨ reply = kindExit) (payload : List UInt8)
    (hlog : t.log = s.log ++ (events ++ [.queued ⟨reply, seq, payload⟩]))
    (hqueue : t.queue.length = s.queue.length + 1) (hroom : s.queue.length < queueSlots - 1)
    (hoverload : t.overload = s.overload) : Backlogged t := by
  have hkind : reply ≠ kindReady ∧ reply ≠ kindFault := by
    rcases hreply with rfl | rfl | rfl <;> decide
  exact hs.queued events _ hlog hevents hqueue hroom hkind.1
    (fun h => ⟨hoverload ▸ h, hkind.2⟩) fun _ => paced_answer hrequest hnormal rfl hfresh

theorem Backlogged.reply (hnormal : Normal (seq, kind, body)) {reply : Nat}
    (hreply : reply = kindAck ∨ reply = kindStatusReply) (payload : List UInt8)
    (hroom : s.queue.length < queueSlots - 1) : Backlogged (enqueue link s ⟨reply, seq, payload⟩) :=
  hs.answer hrequest hfresh hnormal [] (by simp) (hreply.imp id .inl) payload rfl
    (by simp [enqueue]) hroom rfl

theorem Backlogged.dispatched {now : Nat} (hdispatched : Dispatched link s seq kind body now t) :
    Backlogged t := by
  have hnormal {number : Nat} (hkind : kind = number) (hnumber : number ≠ kindControl) :
      Normal (seq, kind, body) :=
    fun h => hnumber (hkind.symm.trans h.1)
  cases hdispatched with
  | detached hkind hidle hpid hempty hflags hdropped =>
    have hlatched : Backlogged (latched s 3 seq now) :=
      (hs.note _ rfl (by simp)).same rfl (Nat.le_refl _) rfl rfl
    exact hlatched.short _ rfl (by simp [enqueue]) (by simp [latched, hempty]) (by simp) rfl
  | controlled hkind hbody =>
    have hlatched : Backlogged (latched s 1 seq now) :=
      (hs.note _ rfl (by simp)).same rfl (Nat.le_refl _) rfl rfl
    exact (hlatched.cancel now flagCancel).signal 9
  | overloaded hnot hfull =>
    refine hs.silent [.overloaded seq] rfl (by simp [Event.Silent, Event.frame]) (Nat.le_refl _) rfl ?_
    intro h
    by_contra hfaulty
    simp [overloaded, hfaulty] at h
  | refused hkind hbusy hroom =>
    exact hs.reply hrequest hfresh (hnormal hkind (by decide)) (.inl rfl) _ hroom
  | unspawned hkind hidle hroom errno =>
    exact hs.answer hrequest hfresh (hnormal hkind (by decide)) [] (by simp)
      (.inr (.inr rfl)) _ rfl (by simp [enqueue, setupFailed, assign]) hroom rfl
  | spawned hkind hidle hopen hroom pid =>
    exact hs.answer hrequest hfresh (hnormal hkind (by decide)) [.spawned seq]
      (by simp [Event.Silent, Event.frame]) (.inl rfl) _ (List.append_assoc _ _ _)
      (by simp [enqueue, launched, assign]) hroom rfl
  | status hkind hroom =>
    exact hs.reply hrequest hfresh (hnormal hkind (by decide)) (.inr rfl) _ hroom
  | cancelled hkind htarget hactive hroom =>
    obtain ⟨_, _, _, sent, hcancel, hsent⟩ :=
      cancel_frame (Device.note s (.cancelled seq)) now flagCancel
    have hsilent : ∀ event ∈ Event.cancelled seq :: sent, event.Silent :=
      List.forall_mem_cons.mpr ⟨⟨rfl, by simp⟩, silent_signalled hsent⟩
    generalize replyBody _ 0 = payload
    rw [hcancel]
    exact hs.answer hrequest hfresh (hnormal hkind (by decide)) _ hsilent (.inl rfl) payload
      (by simp [enqueue, Device.note]) (by simp [enqueue, Device.note]) hroom rfl
  | completed hkind htarget hnonzero hroom =>
    exact hs.reply hrequest hfresh (hnormal hkind (by decide)) (.inl rfl) _ hroom
  | stale hkind hid hlast hroom =>
    exact hs.reply hrequest hfresh (hnormal hkind (by decide)) (.inl rfl) _ hroom
  | malformed hnot => exact hs

end

theorem Backlogged.fresh (hs : Backlogged s) (hordered : Ordered link s) :
    ∀ frame ∈ framed s.log, frame.seq ≠ s.next := by
  intro frame hframe
  apply Nat.ne_of_lt
  obtain ⟨event, hevent, heq⟩ := List.mem_filterMap.mp hframe
  cases event <;> simp only [Event.frame, reduceCtorEq, Option.some_inj] at heq
  case queued other =>
    subst heq
    cases hkind : decide (other.kind = kindReady) with
    | true =>
      rw [hs.ready other hframe (of_decide_eq_true hkind), hordered.history.count]
      omega
    | false =>
      apply hordered.history.behalf_lt hevent
      rw [Event.behalf, if_neg (of_decide_eq_false hkind)]

theorem consumed_consume (s : State) (seq kind : Nat) (body : List UInt8) :
    consumed (consume s seq kind body).log = consumed s.log ++ [(seq, kind, body)] := by
  rw [consume, consumed_append]
  rfl

theorem Backlogged.received {p : Profile} {now : Nat} (hs : Backlogged s)
    (hordered : Ordered p.link s) (hreceived : Received p s now t) : Backlogged t := by
  have happended (bytes : List UInt8) : Backlogged (append s bytes now) :=
    (hs.note (.received bytes) rfl (by simp)).same rfl (Nat.le_refl _) rfl rfl
  cases hreceived with
  | idle => exact hs
  | appended bytes rxSize => exact (happended bytes).same rfl (Nat.le_refl _) rfl rfl
  | rejected bytes => exact (happended bytes).same rfl (Nat.le_refl _) rfl rfl
  | requested bytes rxSize whole hwhole hlength hok t hdispatched =>
    have hframed : framed whole.log = framed s.log := by
      rw [hwhole, append, framed_append]
      exact List.append_nil _
    have hnext : whole.next = s.next := by
      rw [hwhole]
      rfl
    have hconsumed : Backlogged
        (consume whole whole.next (headKind whole.rx) (requestBody whole)) := by
      rw [hwhole]
      exact ((happended bytes).note (.consumed _ _ _) rfl (by simp)).same rfl
        (Nat.le_refl _) rfl rfl
    refine (hconsumed.dispatched ?_ ?_ hdispatched).same rfl (Nat.le_refl _) rfl rfl
    · rw [consumed_consume]
      exact List.mem_append_right _ (List.mem_singleton_self _)
    · rw [consume, framed_append, hframed, hnext]
      simpa [framed, Event.frame] using hs.fresh hordered

end Requests

theorem backlogged_boot (link : Link) (start uid gid : Nat) :
    Backlogged (boot link start uid gid) := by
  rw [boot_eq]
  refine ⟨by simp [enqueue], by simp [enqueue], by simp [enqueue, framed, Event.frame],
    by simp [enqueue, framed, Event.frame], by simp [enqueue, framed, Event.frame], ?_⟩
  exact fun _ => paced_of_le (show 1 ≤ backlogLimit false by decide)

theorem backlogged_kept (p : Profile) : Kept p fun s => Ordered p.link s ∧ Backlogged s where
  receive s now answer answers hcontrol hs :=
    ⟨(ordered_kept p).receive s now answer answers hcontrol hs.1,
      hs.2.received hs.1 (receive_spec p s now answer answers)⟩
  child s now answers hcontrol hs :=
    ⟨(ordered_kept p).child s now answers hcontrol hs.1,
      childTick_keeps (fun _ _ hactive hs => hs.stage hactive) hs.2⟩
  control s answer hcontrol hs :=
    ⟨(ordered_kept p).control s answer hcontrol hs.1,
      hs.2.controlled (controlTick_spec p.link s answer)⟩
  fault s hs :=
    ⟨(ordered_kept p).fault s hs.1, hs.2.faulted (faultStage_spec p.link s)⟩
  queue s queue hqueue hs :=
    ⟨(ordered_kept p).queue s queue hqueue hs.1, hs.2.same rfl hqueue rfl rfl⟩
  signal s hs := ⟨(ordered_kept p).signal s hs.1, hs.2.signal 9⟩

/-! With a conforming host no request is refused for want of room. -/

section Overload

variable {link : Link} {s t : State}

theorem cancel_overload (s : State) (now flag : Nat) :
    (cancel s now flag).overload = s.overload := by
  obtain ⟨_, _, _, _, hcancel, -⟩ := cancel_frame s now flag
  rw [hcancel]

theorem Faulted.overload (hfaulted : Faulted link s t) : t.overload = s.overload := by
  cases hfaulted <;> rfl

theorem Reaped.overload (hreaped : Reaped link s t) : t.overload = s.overload := by
  cases hreaped with
  | idle => rfl
  | held isClean t ht hclean =>
    subst ht
    cases isClean <;> rfl
  | sent isClean t ht hclean hroom =>
    subst ht
    cases isClean <;> rfl

theorem Stage.overload {now : Nat} (hstage : Stage link now s t) : t.overload = s.overload := by
  cases hstage with
  | timedOut => exact cancel_overload s now flagTimeout
  | killed => rfl
  | slotted stream hstream hslot => cases hslot <;> rfl
  | executed answer hexecuted => cases hexecuted <;> rfl
  | waited answer hwaited =>
    cases hwaited with
    | idle => rfl
    | reaped status hanswer hreaped => exact cancel_overload _ now 0
  | reaped hreaped => exact hreaped.overload

theorem Controlled.overload {answer : WaitAnswer} (hcontrolled : Controlled link s answer t) :
    t.overload = s.overload := by
  cases hcontrolled with
  | idle => rfl
  | acknowledged hopen hempty hidle => rfl
  | interrupted hopen hempty hactive t r ht hr =>
    subst hr ht
    unfold controlWait
    split <;> rfl

theorem childTick_overload (link : Link) (s : State) (now : Nat) (answers : ChildAnswers) :
    (childTick link s now answers).1.overload = s.overload :=
  childTick_keeps (P := fun t => t.overload = s.overload)
    (fun _ _ _ ht hstage => hstage.overload.trans ht) rfl

end Overload

/-- The invariant of the runs in which no request met a full queue. -/
def Unloaded (p : Profile) (s : State) : Prop :=
  (Ordered p.link s ∧ Backlogged s) ∧ s.overload = 0

theorem unloaded_carried (p : Profile) : Carried p (Unloaded p) where
  child s now answers hcontrol hs :=
    ⟨(backlogged_kept p).child s now answers hcontrol hs.1,
      (childTick_overload p.link s now answers).trans hs.2⟩
  control s answer hcontrol hs :=
    ⟨(backlogged_kept p).control s answer hcontrol hs.1,
      (controlTick_spec p.link s answer).overload.trans hs.2⟩
  fault s hs :=
    ⟨(backlogged_kept p).fault s hs.1, (faultStage_spec p.link s).overload.trans hs.2⟩
  queue s queue hqueue hs := ⟨(backlogged_kept p).queue s queue hqueue hs.1, hs.2⟩
  signal s hs := ⟨(backlogged_kept p).signal s hs.1, hs.2⟩

theorem dispatched_overload {link : Link} {s t : State} {seq kind now : Nat}
    {body : List UInt8} (hdispatched : Dispatched link s seq kind body now t) :
    t.overload = s.overload ∨ t = overloaded s seq ∧ Normal (seq, kind, body) ∧
        queueSlots - 1 ≤ s.queue.length := by
  cases hdispatched with
  | controlled hkind hbody => exact .inl (cancel_overload _ now flagCancel)
  | overloaded hnot hfull => exact .inr ⟨rfl, hnot, hfull⟩
  | cancelled hkind htarget hactive hroom => exact .inl (cancel_overload _ now flagCancel)
  | _ => exact .inl rfl

theorem Unloaded.room {p : Profile} {s : State} (hs : Unloaded p s)
    (hanswered : Answered s) : s.queue.length < queueSlots - 1 := by
  have hqueued := (hs.1.2.paced hs.2).queued_le hs.1.2.held hanswered
  refine Nat.lt_of_le_of_lt hqueued ?_
  cases s.active <;> decide

theorem Unloaded.received {p : Profile} {s t : State} {now : Nat} (hs : Unloaded p s)
    (hreceived : Received p s now t)
    (hpatient : ∀ request ∈ consumed t.log, request ∉ consumed s.log → Normal request →
      Answered s) : t.overload = 0 := by
  cases hreceived with
  | idle => exact hs.2
  | appended bytes rxSize => exact hs.2
  | rejected bytes => exact hs.2
  | requested bytes rxSize whole hwhole hlength hok t hdispatched =>
    rcases dispatched_overload hdispatched with hkept | ⟨rfl, hnormal, hfull⟩
    · exact hkept.trans (by rw [hwhole]; exact hs.2)
    · have hconsumed : consumed whole.log = consumed s.log := by
        rw [hwhole, append, consumed_append]
        exact List.append_nil _
      have hmem : (whole.next, headKind whole.rx, requestBody whole) ∈ consumed
          (overloaded (consume whole whole.next (headKind whole.rx) (requestBody whole))
            whole.next).log := by
        rw [overloaded, consumed_append, consumed_consume]
        simp
      have hroom := hs.room
        (hpatient _ hmem (hwhole ▸ hs.1.1.history.next_not_mem _ _) hnormal)
      rw [hwhole] at hfull
      exact absurd hroom (Nat.not_lt.mpr hfull)

theorem Unloaded.receiveStage {p : Profile} {s : State} {answers : TickAnswers}
    (hs : Unloaded p s) (hpatient : Patient p s answers) {now : Nat}
    (hnow : answers.now = .ok now) : Unloaded p (receiveStage p s now answers).1 := by
  have hnew := hpatient now hnow
  refine ⟨(backlogged_kept p).receiveStage now answers hs.1, ?_⟩
  rw [Device.receiveStage] at hnew ⊢
  split
  case isTrue hcontrol =>
    rw [if_pos hcontrol] at hnew
    exact hs.received (receive_spec p s now answers.receive answers.request) hnew
  case isFalse => exact hs.2

/-- `rc1_queue` takes every frame it is given, whatever the host, the command and the
transport do, and a slot is always left.  When the host has at most one unanswered
normal request, FAULT is never queued. -/
theorem console_queue_never_refuses (p : Profile) (start uid gid : Nat)
    (answers : List TickAnswers) :
    (∀ frame, .refused frame ∉ (console p start uid gid answers).1.log) ∧
      ((console p start uid gid answers).2 = .continued →
        ∀ now answer, (filling p (console p start uid gid answers).1 now answer).1.queue.length ≤
          queueSlots - 1) ∧
      (Conforming p (boot p.link start uid gid) answers →
        ∀ seq body, .queued ⟨kindFault, seq, body⟩ ∉ (console p start uid gid answers).1.log) := by
  have hboot := And.intro (ordered_boot p.link start uid gid)
    (backlogged_boot p.link start uid gid)
  obtain ⟨t, ht, hlog, hcontinued, -⟩ := (backlogged_kept p).turns answers hboot
  refine ⟨?_, ?_, ?_⟩
  · rw [console, hlog]
    exact ht.2.taken
  · intro h now answer
    rw [console, hcontinued h]
    exact ((backlogged_kept p).toCarried.filling
      ((backlogged_kept p).receiveStage now answer ht)).2.slots
  · intro hconforming seq body hmem
    obtain ⟨u, hu, hlog, -⟩ := (unloaded_carried p).turns (Conforming p)
      (fun s answers rest hfair hs now hnow => hs.receiveStage hfair.1 hnow)
      (fun s answers rest hfair hnext => hfair.2 hnext) answers hconforming
      ⟨hboot, by rw [boot_eq]; rfl⟩
    rw [console, hlog] at hmem
    exact hu.1.2.unfaulted hu.2 _ (List.mem_filterMap.mpr ⟨_, hmem, rfl⟩) rfl

namespace PatientSession

def wire (seq : Nat) : List UInt8 := Frame.encode Link.keyless ⟨kindStatus, seq, []⟩

def answers : List TickAnswers :=
  [{ receive := .data ((wire 3).take 16), write := .wrote 80 },
    { receive := .data ((wire 3).drop 16), write := .wrote 80 },
    { receive := .data ((wire 4).take 16) }, { receive := .data ((wire 4).drop 16) }]

theorem conforming : Conforming ⟨Link.keyless, false⟩ (boot Link.keyless 0 0 0) answers := by
  refine ⟨?_, fun _ => ⟨?_, fun _ => ⟨?_, fun _ => ⟨?_, fun _ => trivial⟩⟩⟩⟩
  all_goals
    intro now hnow
    cases hnow
    decide +kernel

end PatientSession

theorem console_queue_never_refuses_status :
    Conforming ⟨Link.keyless, false⟩ (boot Link.keyless 0 0 0) PatientSession.answers ∧
      (consumed (console ⟨Link.keyless, false⟩ 0 0 0 PatientSession.answers).1.log).length = 2 ∧
      ∀ seq body, .queued ⟨kindFault, seq, body⟩ ∉
        (console ⟨Link.keyless, false⟩ 0 0 0 PatientSession.answers).1.log :=
  ⟨PatientSession.conforming, by decide +kernel,
    (console_queue_never_refuses ⟨Link.keyless, false⟩ 0 0 0 PatientSession.answers).2.2
      PatientSession.conforming⟩

end NativeInitLab.RootConsole.Device
