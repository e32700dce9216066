import NativeInitLab.RootConsole.Accounting
import NativeInitLab.RootConsole.Framing

namespace NativeInitLab.RootConsole.Device

open FixedWidth LittleEndian

/-! Truncated output.  Each chunk read from a pipe is forwarded or dropped as a whole,
against one budget for both streams. -/

/-- A chunk as it was read, and whether its OUTPUT frame followed. -/
structure Fate where
  stream : Nat
  data : List UInt8
  sent : Bool
  deriving DecidableEq, Repr

namespace Fate

def chunk (fate : Fate) : Nat × Nat := (fate.stream, fate.data.length)

theorem eq_mk {fate : Fate} {stream : Nat} {sent : Bool} (hstream : fate.stream = stream)
    (hsent : fate.sent = sent) : fate = ⟨stream, fate.data, sent⟩ := by
  subst hstream hsent
  rfl

end Fate

namespace Event

def isOutput : Event → Bool
  | .queued frame => frame.kind == kindOutput
  | _ => false

def traffic : Event → Bool
  | .read _ _ _ => true
  | .queued frame => frame.kind == kindOutput
  | _ => false

def fate (id : Nat) (rest : List Event) : Event → List Fate
  | .read id' stream data =>
    if id' = id then [⟨stream, data, rest.head?.any isOutput⟩] else []
  | _ => []

end Event

/-- What became of the chunks of a command: a frame is queued right after its read. -/
def fates (id : Nat) : List Event → List Fate
  | [] => []
  | event :: rest => event.fate id rest ++ fates id rest

theorem fates_append (id : Nat) {log events : List Event}
    (hevents : events.head?.any Event.isOutput = false) :
    fates id (log ++ events) = fates id log ++ fates id events := by
  induction log with
  | nil => rfl
  | cons event log ih =>
    have hfate : event.fate id (log ++ events) = event.fate id log := by
      cases log with
      | nil =>
        cases event <;> simp [Event.fate, hevents]
      | cons next log => cases event <;> rfl
    rw [List.cons_append, fates, fates, ih, hfate, List.append_assoc]

theorem fates_eq_nil {id : Nat} {events : List Event}
    (hevents : ∀ event ∈ events, event.traffic = false) : fates id events = [] := by
  induction events with
  | nil => rfl
  | cons event events ih =>
    have hevent := hevents event List.mem_cons_self
    rw [fates, ih fun other hother => hevents other (List.mem_cons_of_mem event hother)]
    cases event with
    | read => cases hevent
    | _ => rfl

theorem account_outputs_eq_nil {id : Nat} {events : List Event}
    (hevents : ∀ event ∈ events, event.traffic = false) :
    (account id events).outputs = [] := by
  refine List.flatMap_eq_nil_iff.mpr fun event hevent => ?_
  have htraffic := hevents event hevent
  cases event with
  | queued frame =>
    refine if_neg fun hkind => ?_
    rw [Event.traffic, hkind.1] at htraffic
    cases htraffic
  | _ => rfl

/-! The budget, on the sizes of the reads alone. -/

def Fits (used : Nat × Nat) (size : Nat) : Prop :=
  used.1 + size ≤ outputLimit ∧ used.2 < outputFrameLimit

instance (used : Nat × Nat) (size : Nat) : Decidable (Fits used size) :=
  inferInstanceAs (Decidable (_ ∧ _))

def charge (used : Nat × Nat) (chunk : Nat × Nat) : Nat × Nat :=
  if Fits used chunk.2 then (used.1 + chunk.2, used.2 + 1) else used

theorem charge_of_fits {used chunk : Nat × Nat} (hfits : Fits used chunk.2) :
    charge used chunk = (used.1 + chunk.2, used.2 + 1) := if_pos hfits

theorem charge_of_not_fits {used chunk : Nat × Nat} (hfits : ¬ Fits used chunk.2) :
    charge used chunk = used := if_neg hfits

def spent (chunks : List (Nat × Nat)) : Nat × Nat := chunks.foldl charge (0, 0)

theorem spent_concat (chunks : List (Nat × Nat)) (chunk : Nat × Nat) :
    spent (chunks ++ [chunk]) = charge (spent chunks) chunk := by
  simp [spent]

/-- After a chunk of the stream that exceeds the budget, no chunk of it fits. -/
def Tapers (stream : Nat) (chunks : List (Nat × Nat)) : Prop :=
  ∀ before size between later after,
    chunks = before ++ (stream, size) :: (between ++ (stream, later) :: after) →
    ¬ Fits (spent before) size → ¬ Fits (spent (before ++ (stream, size) :: between)) later

/-- A chunk of the stream is forwarded after one that was dropped. -/
def Resumes (stream : Nat) (fates : List Fate) : Prop :=
  ∃ before dropped between later after,
    fates = before ++ ⟨stream, dropped, false⟩ :: (between ++ ⟨stream, later, true⟩ :: after)

/-- A chunk is forwarded exactly when it fits into what the earlier reads left. -/
structure Rationed (log : List Event) : Prop where
  decided : ∀ id before fate after, fates id log = before ++ fate :: after →
    (fate.sent = true ↔ Fits (spent (before.map Fate.chunk)) fate.data.length)
  used : ∀ id, spent ((fates id log).map Fate.chunk) =
    ((account id log).forwardedBytes, (account id log).outputs.length)
  outputs : ∀ id, (account id log).outputs.map (fun body => (word 2 body, body.drop 12)) =
    ((fates id log).filter Fate.sent).map fun fate => (fate.stream + 1, fate.data)

def Spared (log log' : List Event) : Prop :=
  ∃ events, log' = log ++ events ∧ ∀ event ∈ events, event.traffic = false

section Rationing

variable {link : Link} {s t : State} {log : List Event}

theorem Rationed.spared {log' : List Event} (hlog : Rationed log) (hspared : Spared log log') :
    Rationed log' := by
  obtain ⟨events, rfl, hevents⟩ := hspared
  have hhead : events.head?.any Event.isOutput = false := by
    cases events with
    | nil => rfl
    | cons event events =>
      have hevent := hevents event List.mem_cons_self
      cases event with
      | queued frame => exact hevent
      | _ => rfl
  have hfates (id : Nat) : fates id (log ++ events) = fates id log := by
    rw [fates_append id hhead, fates_eq_nil hevents, List.append_nil]
  have houtputs (id : Nat) : (account id (log ++ events)).outputs = (account id log).outputs := by
    rw [account_append]
    show (account id log).outputs ++ (account id events).outputs = _
    rw [account_outputs_eq_nil hevents, List.append_nil]
  constructor
  · intro id
    rw [hfates]
    exact hlog.decided id
  · intro id
    rw [hfates, Account.forwardedBytes, houtputs]
    exact hlog.used id
  · intro id
    rw [hfates, houtputs]
    exact hlog.outputs id

namespace Spared

theorem refl (log : List Event) : Spared log log :=
  ⟨[], (List.append_nil log).symm, fun _ hmem => absurd hmem List.not_mem_nil⟩

theorem trans {first second third : List Event} (hfirst : Spared first second)
    (hsecond : Spared second third) : Spared first third := by
  obtain ⟨events, rfl, hevents⟩ := hfirst
  obtain ⟨more, rfl, hmore⟩ := hsecond
  refine ⟨events ++ more, List.append_assoc first events more, ?_⟩
  intro event hmem
  rcases List.mem_append.mp hmem with hmem | hmem
  · exact hevents event hmem
  · exact hmore event hmem

theorem single (log : List Event) {event : Event} (htraffic : event.traffic = false) :
    Spared log (log ++ [event]) := by
  refine ⟨[event], rfl, ?_⟩
  intro other hmem
  rw [List.mem_singleton.mp hmem]
  exact htraffic

theorem signalled {sig : Nat} {sent : List Event}
    (hsent : ∀ event ∈ sent, ∃ pid, event = .signalled pid sig) : Spared log (log ++ sent) := by
  refine ⟨sent, rfl, ?_⟩
  intro event hmem
  obtain ⟨pid, rfl⟩ := hsent event hmem
  rfl

theorem cancel (s : State) (now flag : Nat) : Spared s.log (cancel s now flag).log := by
  obtain ⟨_, _, _, sent, hframe, hsent⟩ := cancel_frame s now flag
  rw [hframe]
  exact signalled hsent

theorem enqueue (link : Link) (s : State) {kind seq : Nat} {body : List UInt8}
    (hkind : (kind == kindOutput) = false) :
    Spared s.log (enqueue link s ⟨kind, seq, body⟩).log :=
  single s.log hkind

theorem executed {answer : ReadAnswer} (hexecuted : Executed s answer t) : Spared s.log t.log := by
  cases hexecuted <;> exact refl s.log

theorem waited {now : Nat} {answer : WaitAnswer} (hwaited : Waited s now answer t) :
    Spared s.log t.log := by
  cases hwaited with
  | idle => exact refl s.log
  | reaped status hanswer hreaped =>
    exact cancel { s with status := status.word, reaped := true, drainStart := now } now 0

theorem ended {isClean : Bool} (ht : t = unknownFlags (uncleanFlags s isClean)) :
    t.log = s.log := by
  subst ht
  cases isClean <;> rfl

theorem reaped (hreaped : Reaped link s t) : Spared s.log t.log := by
  cases hreaped with
  | idle => exact refl s.log
  | held isClean t ht hclean =>
    rw [ended ht]
    exact refl s.log
  | sent isClean t ht hclean hroom =>
    rw [← ended ht]
    exact enqueue link t rfl

theorem controlled {answer : WaitAnswer} (hcontrolled : Controlled link s answer t) :
    Spared s.log t.log := by
  cases hcontrolled with
  | idle => exact refl s.log
  | acknowledged hopen hempty hidle => exact enqueue link s rfl
  | interrupted hopen hempty hactive t r ht hr =>
    have hwait : (controlWait s answer).log = s.log := by
      unfold controlWait
      split <;> rfl
    have hlog : t.log = s.log := by
      rw [ht, ← hwait]
      rfl
    have hexit : Spared s.log r.log := by
      rw [← hlog, hr]
      exact enqueue link t rfl
    exact hexit.trans (enqueue link r rfl)

theorem faulted (hfaulted : Faulted link s t) : Spared s.log t.log := by
  cases hfaulted with
  | idle => exact refl s.log
  | sent hoverload hfresh hcontrol hroom => exact enqueue link s rfl

theorem dispatched {seq kind now : Nat} {body : List UInt8}
    (hdispatched : Dispatched link s seq kind body now t) : Spared s.log t.log := by
  have hlatched (mode : Nat) : Spared s.log (latched s mode seq now).log :=
    single s.log rfl
  cases hdispatched with
  | detached hkind hidle hpid hempty hflags hdropped =>
    exact (hlatched 3).trans (enqueue link _ rfl)
  | controlled hkind hbody =>
    exact ((hlatched 1).trans (cancel _ now flagCancel)).trans (signalled (signals_signalled _ 9))
  | overloaded hother hfull => exact single s.log rfl
  | refused hkind hbusy hroom => exact enqueue link s rfl
  | unspawned hkind hidle hroom errno =>
    exact enqueue link (setupFailed (assign s seq) seq errno) rfl
  | spawned hkind hidle hopen hroom pid =>
    have hspawned : Spared s.log (launched (assign s seq) body now pid).log :=
      single s.log rfl
    exact hspawned.trans (enqueue link _ rfl)
  | status hkind hroom => exact enqueue link s rfl
  | cancelled hkind htarget hactive hroom =>
    have hnote : Spared s.log (note s (.cancelled seq)).log := single s.log rfl
    exact (hnote.trans (cancel _ now flagCancel)).trans (enqueue link _ rfl)
  | completed hkind htarget hnonzero hroom => exact enqueue link s rfl
  | stale hkind hid hlast hroom => exact enqueue link s rfl
  | malformed hother => exact refl s.log

theorem received {p : Profile} {now : Nat} (hreceived : Received p s now t) :
    Spared s.log t.log := by
  have happend (bytes : List UInt8) : Spared s.log (append s bytes now).log :=
    single s.log rfl
  cases hreceived with
  | idle => exact refl s.log
  | appended bytes rxSize => exact happend bytes
  | rejected bytes => exact happend bytes
  | requested bytes rxSize whole hwhole hlength hok t hdispatched =>
    have hlog : whole.log = (append s bytes now).log := by rw [hwhole]
    have hconsumed : Spared whole.log
        (consume whole whole.next (headKind whole.rx) (requestBody whole)).log :=
      single whole.log rfl
    have hlast : Spared
        (consume whole whole.next (headKind whole.rx) (requestBody whole)).log t.log :=
      dispatched hdispatched
    exact ((happend bytes).trans (hlog ▸ hconsumed)).trans hlast

end Spared

theorem Rationed.chunk {events : List Event} (id : Nat) (fate : Fate) (hlog : Rationed log)
    (hhead : events.head?.any Event.isOutput = false) (hfates : fates id events = [fate])
    (hdecided : fate.sent = true ↔
      Fits ((account id log).forwardedBytes, (account id log).outputs.length) fate.data.length)
    (houtputs : (account id events).outputs.map (fun body => (word 2 body, body.drop 12)) =
      ([fate].filter Fate.sent).map fun fate => (fate.stream + 1, fate.data))
    (hother : ∀ other ≠ id, fates other events = [] ∧ (account other events).outputs = []) :
    Rationed (log ++ events) := by
  have hused := hlog.used id
  have happend (other : Nat) : (account other (log ++ events)).outputs =
      (account other log).outputs ++ (account other events).outputs := by
    rw [account_append]
  have hforeign (other : Nat) (hne : other ≠ id) : fates other (log ++ events) = fates other log ∧
        (account other (log ++ events)).outputs = (account other log).outputs := by
    rw [fates_append other hhead, happend, (hother other hne).1, (hother other hne).2,
      List.append_nil, List.append_nil]
    exact ⟨rfl, rfl⟩
  have hgrown : fates id (log ++ events) = fates id log ++ [fate] := by
    rw [fates_append id hhead, hfates]
  constructor
  · intro other before found after hsplit
    by_cases hsame : other = id
    · subst hsame
      rw [hgrown] at hsplit
      rcases List.eq_nil_or_concat' after with rfl | ⟨middle, last, rfl⟩
      · obtain ⟨rfl, hlast⟩ := List.append_inj' hsplit rfl
        rw [← List.singleton_inj.mp hlast, hused]
        exact hdecided
      · rw [← List.cons_append, ← List.append_assoc] at hsplit
        exact hlog.decided other before found middle (List.append_inj' hsplit rfl).1
    · rw [(hforeign other hsame).1] at hsplit
      exact hlog.decided other before found after hsplit
  · intro other
    by_cases hsame : other = id
    · subst hsame
      have hcount := congrArg List.length houtputs
      have hbytes := congrArg (fun pairs => (pairs.map fun pair => pair.2.length).sum) houtputs
      simp only [List.map_map, Function.comp_def, List.length_drop, List.length_map] at hbytes hcount
      have hforwarded : (account other (log ++ events)).forwardedBytes =
          (account other log).forwardedBytes +
            (([fate].filter Fate.sent).map fun fate => fate.data.length).sum := by
        simp only [Account.forwardedBytes, happend, List.map_append, List.sum_append, hbytes]
      rw [hgrown, List.map_append, List.map_singleton, spent_concat, hused, hforwarded, happend,
        List.length_append, hcount]
      by_cases hsent : fate.sent = true
      · rw [charge_of_fits (hdecided.mp hsent), List.filter_cons_of_pos hsent]
        rfl
      · rw [charge_of_not_fits fun hfits => hsent (hdecided.mpr hfits),
          List.filter_cons_of_neg hsent]
        rfl
    · rw [(hforeign other hsame).1, Account.forwardedBytes, (hforeign other hsame).2]
      exact hlog.used other
  · intro other
    by_cases hsame : other = id
    · subst hsame
      rw [hgrown, happend, List.map_append, hlog.outputs, houtputs, List.filter_append,
        List.map_append]
    · rw [(hforeign other hsame).1, (hforeign other hsame).2]
      exact hlog.outputs other

theorem Running.used (hs : Running s) :
    ((account s.id s.log).forwardedBytes, (account s.id s.log).outputs.length) =
      (s.total, s.ordinal) := by
  have hcount := congrArg List.length hs.ordinals
  rw [List.length_map, List.length_range'] at hcount
  rw [hs.total, hcount]

theorem Rationed.slotted {stream : Nat} (hlog : Rationed s.log) (hs : Running s)
    (hstream : stream < 2) (hslot : Slotted link s stream t) : Rationed t.log := by
  cases hslot with
  | idle => exact hlog
  | ended hopen => exact hlog.spared (Spared.single s.log rfl)
  | discarded data hopen hdata hchunk hfull =>
    refine hlog.chunk s.id ⟨stream, data, false⟩ rfl ?_ ?_ rfl ?_
    · simp [fates, Event.fate]
    · rw [hs.used, Fits]
      simp only [Bool.false_eq_true, false_iff]
      omega
    · intro other hne
      refine ⟨?_, rfl⟩
      simp [fates, Event.fate, Ne.symm hne]
  | forwarded data hopen hdata hchunk htotal hordinal hroom =>
    have hevents : (enqueue link (note s (.read s.id stream data))
        ⟨kindOutput, s.id, outputBody s stream data⟩).log = s.log ++ [.read s.id stream data,
            .queued ⟨kindOutput, s.id, outputBody s stream data⟩] := by
      simp [enqueue, note]
    show Rationed (enqueue link (note s (.read s.id stream data))
        ⟨kindOutput, s.id, outputBody s stream data⟩).log
    rw [hevents]
    refine hlog.chunk s.id ⟨stream, data, true⟩ rfl ?_ ?_ ?_ ?_
    · simp [fates, Event.fate, Event.isOutput]
    · rw [hs.used, Fits]
      simp only [true_iff]
      exact ⟨htotal, hordinal⟩
    · have hword := (word_outputBody s stream data hordinal hstream).2
      have hdrop := drop_outputBody s stream data
      simp [account, Event.output, hword, hdrop]
    · intro other hne
      simp [fates, Event.fate, account, Event.output, Ne.symm hne]

theorem Rationed.stage {now : Nat} (hs : Accounted s) (hlog : Rationed s.log)
    (hactive : s.active = true) (hstage : Stage link now s t) : Rationed t.log := by
  cases hstage with
  | timedOut => exact hlog.spared (Spared.cancel s now flagTimeout)
  | killed => exact hlog.spared (Spared.signalled (signals_signalled s 9))
  | slotted stream hstream hslot => exact hlog.slotted (hs.running hactive) hstream hslot
  | executed answer hexecuted => exact hlog.spared (Spared.executed hexecuted)
  | waited answer hwaited => exact hlog.spared (Spared.waited hwaited)
  | reaped hreaped => exact hlog.spared (Spared.reaped hreaped)

end Rationing

theorem rationed_boot (link : Link) (start uid gid : Nat) :
    Rationed (boot link start uid gid).log := by
  have hempty : Rationed [] := by
    refine ⟨?_, fun id => rfl, fun id => rfl⟩
    intro id before fate after hsplit
    simp [fates] at hsplit
  rw [boot_eq]
  exact hempty.spared (Spared.single [] rfl)

theorem rationed_kept (p : Profile) :
    Kept p fun s => (Ordered p.link s ∧ Accounted s) ∧ Rationed s.log where
  receive s now answer answers hcontrol hs :=
    ⟨(accounted_kept p).receive s now answer answers hcontrol hs.1,
      hs.2.spared (Spared.received (receive_spec p s now answer answers))⟩
  child s now answers hcontrol hs :=
    ⟨(accounted_kept p).child s now answers hcontrol hs.1,
      (childTick_keeps (P := fun s => Accounted s ∧ Rationed s.log)
        (fun _ _ hactive hs hstage => ⟨hs.1.stage hactive hstage, hs.2.stage hs.1 hactive hstage⟩)
        ⟨hs.1.2, hs.2⟩).2⟩
  control s answer hcontrol hs :=
    ⟨(accounted_kept p).control s answer hcontrol hs.1,
      hs.2.spared (Spared.controlled (controlTick_spec p.link s answer))⟩
  fault s hs :=
    ⟨(accounted_kept p).fault s hs.1, hs.2.spared (Spared.faulted (faultStage_spec p.link s))⟩
  queue s queue hlength hs := ⟨(accounted_kept p).queue s queue hlength hs.1, hs.2⟩
  signal s hs :=
    ⟨(accounted_kept p).signal s hs.1, hs.2.spared (Spared.signalled (signals_signalled s 9))⟩

theorem rationed_console (p : Profile) (start uid gid : Nat) (answers : List TickAnswers) :
    Rationed (console p start uid gid answers).1.log := by
  obtain ⟨t, ht, hlog, -⟩ := (rationed_kept p).turns answers
    ⟨⟨ordered_boot p.link start uid gid, accounted_boot p.link start uid gid⟩,
      rationed_boot p.link start uid gid⟩
  rw [console, hlog]
  exact ht.2

section Prefix

variable {log : List Event}

theorem Rationed.resumes_iff (hlog : Rationed log) (id stream : Nat) :
    ¬ Resumes stream (fates id log) ↔ Tapers stream ((fates id log).map Fate.chunk) := by
  constructor
  · intro hstraight before size between later after hsplit hdropped hfits
    obtain ⟨first, rest, hfates, hbefore, hrest⟩ := List.map_eq_append_iff.mp hsplit
    obtain ⟨dropped, rest, rfl, hdrop, hrest⟩ := List.map_eq_cons_iff.mp hrest
    obtain ⟨middle, rest, rfl, hbetween, hrest⟩ := List.map_eq_append_iff.mp hrest
    obtain ⟨resumed, last, rfl, hresumed, -⟩ := List.map_eq_cons_iff.mp hrest
    obtain ⟨hstream, hsize⟩ := Prod.mk.inj hdrop
    obtain ⟨hsame, hlater⟩ := Prod.mk.inj hresumed
    have hnotSent : dropped.sent = false := by
      rw [← Bool.not_eq_true, hlog.decided id first dropped _ hfates, hbefore, hsize]
      exact hdropped
    have hsent : resumed.sent = true := by
      rw [hlog.decided id (first ++ dropped :: middle) resumed last
        (by rw [hfates, List.append_assoc, List.cons_append]), List.map_append, List.map_cons,
        hbefore, hbetween, hdrop, hlater]
      exact hfits
    refine hstraight ⟨first, dropped.data, middle, resumed.data, last, ?_⟩
    rw [← Fate.eq_mk hstream hnotSent, ← Fate.eq_mk hsame hsent]
    exact hfates
  · rintro htapers ⟨before, dropped, between, later, after, hfates⟩
    have hdropped := hlog.decided id before _ _ hfates
    have hlater := hlog.decided id (before ++ ⟨stream, dropped, false⟩ :: between)
      ⟨stream, later, true⟩ after (by rw [hfates, List.append_assoc, List.cons_append])
    refine htapers (before.map Fate.chunk) dropped.length (between.map Fate.chunk) later.length
      (after.map Fate.chunk) ?_ ?_ ?_
    · rw [hfates]
      simp [Fate.chunk]
    · exact fun hfits => absurd (hdropped.mpr hfits) (by simp)
    · rw [List.map_append, List.map_cons] at hlater
      exact hlater.mp rfl

def bytesOf (stream : Nat) (fates : List Fate) : List UInt8 :=
  fates.flatMap fun fate => if fate.stream = stream then fate.data else []

theorem reads_eq_bytesOf (id stream : Nat) (log : List Event) :
    (account id log).reads stream = bytesOf stream (fates id log) := by
  induction log with
  | nil => rfl
  | cons event log ih =>
    have hfate : event.reads id stream = bytesOf stream (event.fate id log) := by
      cases event with
      | read id' stream' data =>
        by_cases hid : id' = id
        · simp [Event.reads, Event.fate, bytesOf, hid]
        · simp [Event.reads, Event.fate, bytesOf, hid]
      | _ => rfl
    calc (account id (event :: log)).reads stream
        = event.reads id stream ++ (account id log).reads stream := rfl
      _ = bytesOf stream (event.fate id log) ++ bytesOf stream (fates id log) := by
          rw [hfate, ih]
      _ = bytesOf stream (fates id (event :: log)) := by
          rw [fates, bytesOf, bytesOf, bytesOf, List.flatMap_append]

theorem Rationed.forwarded_eq (hlog : Rationed log) (id stream : Nat) :
    (account id log).forwarded stream = bytesOf stream ((fates id log).filter Fate.sent) := by
  have hpairs := congrArg (List.flatMap fun pair : Nat × List UInt8 =>
    if pair.1 = stream + 1 then pair.2 else []) (hlog.outputs id)
  rw [List.flatMap_map, List.flatMap_map] at hpairs
  simpa only [Account.forwarded, bytesOf, Nat.add_right_cancel_iff] using hpairs

theorem Resumes.cons {stream : Nat} {fates : List Fate} (fate : Fate)
    (hresumes : Resumes stream fates) : Resumes stream (fate :: fates) := by
  obtain ⟨before, dropped, between, later, after, rfl⟩ := hresumes
  exact ⟨fate :: before, dropped, between, later, after, rfl⟩

theorem bytesOf_initial {stream : Nat} {fates : List Fate} (hstraight : ¬ Resumes stream fates) :
    bytesOf stream (fates.filter Fate.sent) <+: bytesOf stream fates := by
  induction fates with
  | nil => exact List.prefix_refl _
  | cons fate fates ih =>
    have hrest := ih fun hresumes => hstraight (hresumes.cons fate)
    have hcons (first : Fate) (rest : List Fate) : bytesOf stream (first :: rest) =
        (if first.stream = stream then first.data else []) ++ bytesOf stream rest := rfl
    by_cases hsent : fate.sent = true
    · rw [List.filter_cons_of_pos hsent, hcons, hcons]
      exact (List.prefix_append_right_inj _).mpr hrest
    · rw [List.filter_cons_of_neg hsent, hcons]
      by_cases hstream : fate.stream = stream
      · have hnothing : bytesOf stream (fates.filter Fate.sent) = [] := by
          refine List.flatMap_eq_nil_iff.mpr fun later hlater => if_neg fun hsame => ?_
          obtain ⟨hmem, hlaterSent⟩ := List.mem_filter.mp hlater
          obtain ⟨between, after, rfl⟩ := List.append_of_mem hmem
          refine hstraight ⟨[], fate.data, between, later.data, after, ?_⟩
          rw [← Fate.eq_mk hstream (Bool.eq_false_of_not_eq_true hsent),
            ← Fate.eq_mk hsame hlaterSent, List.nil_append]
        rw [hnothing]
        exact List.nil_prefix
      · rw [if_neg hstream, List.nil_append]
        exact hrest

end Prefix

/-- In every run, the OUTPUT frames of a command carry the chunks that fit.  A stream
is forwarded without a gap exactly when its reads taper off, and then its output is
a prefix of what was written. -/
theorem output_is_prefix_iff (p : Profile) (start uid gid : Nat) (answers : List TickAnswers)
    (id stream : Nat) :
    let log := (console p start uid gid answers).1.log
    (account id log).outputs.map (fun body => (word 2 body, body.drop 12)) =
        ((fates id log).filter Fate.sent).map (fun fate => (fate.stream + 1, fate.data)) ∧
      (¬ Resumes stream (fates id log) ↔ Tapers stream ((fates id log).map Fate.chunk)) ∧
      (¬ Resumes stream (fates id log) → ∀ written, (account id log).reads stream <+: written →
          (account id log).forwarded stream <+: written) := by
  intro log
  have hlog : Rationed log := rationed_console p start uid gid answers
  refine ⟨hlog.outputs id, hlog.resumes_iff id stream, ?_⟩
  intro hstraight written hwritten
  rw [hlog.forwarded_eq]
  rw [reads_eq_bytesOf] at hwritten
  exact (bytesOf_initial hstraight).trans hwritten

theorem Accepted.mono {log log' : List Event} {id : Nat} (haccepted : Accepted log id)
    (hgrown : log <+: log') : Accepted log' id := by
  obtain ⟨⟨body, hack, hzero⟩, command, hconsumed⟩ := haccepted
  exact ⟨⟨body, hgrown.subset hack, hzero⟩, command, hgrown.subset hconsumed⟩

namespace Spill

def profile : Profile := ⟨EchoSession.link, false⟩

def opening : List TickAnswers :=
  [{ receive := .data (EchoSession.wire.take 16), write := .wrote 80 },
    { receive := .data (EchoSession.wire.drop 16), write := .wrote 80 }]

/-- A turn that reads `data` from the output of the command and sends its frame. -/
def pump (data : List UInt8) : TickAnswers where
  child :=
    { output := fun stream => if stream = 0 then .data data else .failed Errno.eagain }
  write := .wrote (data.length + 60)

structure Pumping (s : State) (total ordinal : Nat) : Prop where
  active : s.active = true
  control : s.control = 0
  start : s.start = 0
  rx : s.rx = []
  commandStart : s.commandStart = 0
  timeout : 0 < s.timeout
  cancelPhase : s.cancelPhase = 0
  pipe : s.pipe 0 = true
  reaped : s.reaped = false
  queue : s.queue = []
  overload : s.overload = 0
  turn : s.outputTurn < 2
  id : s.id = 3
  total : s.total = total
  ordinal : s.ordinal = ordinal

variable {link : Link} {s t : State} {total ordinal : Nat} {data : List UInt8}

theorem sub64_zero : sub64 0 0 = 0 := by decide

theorem outputSlot_eagain (link : Link) (s : State) (stream : Nat) :
    outputSlot link s stream (.failed Errno.eagain) = (s, none) := by
  rw [outputSlot]
  split
  · rfl
  · rfl

theorem execStage_eagain (s : State) : execStage s (.failed Errno.eagain) = (s, none) := by
  rw [execStage]
  split
  · rfl
  · rfl

theorem childTick_pump (hs : Pumping s total ordinal)
    (hslot : outputSlot link s 0 (.data data) = (t, none)) (hreaped : t.reaped = false)
    (hphase : t.cancelPhase = 0) :
    childTick link s 0 (pump data).child = (t, none) := by
  have htimeout : timeoutStage s 0 = s := by
    rw [timeoutStage, hs.commandStart, sub64_zero, if_neg (Nat.not_le.mpr hs.timeout)]
  have hkill : killStage s 0 = s := by
    rw [killStage, hs.cancelPhase, if_neg (by simp)]
  have houtput : outputTick link s (pump data).child.output = (t, none) := by
    rw [outputTick]
    have hturn := hs.turn
    obtain hfirst | hfirst : s.outputTurn = 0 ∨ s.outputTurn = 1 := by omega
    · simp only [hfirst]
      show andThen (outputSlot link s 0 (.data data))
        (fun s => outputSlot link s 1 (.failed Errno.eagain)) = (t, none)
      rw [hslot, andThen_none, outputSlot_eagain]
    · simp only [hfirst]
      show andThen (outputSlot link s 1 (.failed Errno.eagain))
        (fun s => outputSlot link s 0 (.data data)) = (t, none)
      rw [outputSlot_eagain, andThen_none, hslot]
  have hwait : waitStage t 0 .running = (t, none) := by
    rw [waitStage, hreaped]
    rfl
  have hreap : reapStage link t 0 (pump data).child = (t, none) := by
    rw [reapStage, if_neg]
    simp [hreaped, overdue, hphase]
  rw [childTick, if_neg (by simp [hs.active]), htimeout, hkill, houtput, andThen_none]
  rw [show (pump data).child.exec = .failed Errno.eagain from rfl, execStage_eagain,
    andThen_none, show (pump data).child.wait = .running from rfl, hwait, andThen_none, hreap]

theorem tick_pump (hs : Pumping s total ordinal)
    (hslot : outputSlot profile.link s 0 (.data data) = (t, none)) (hreaped : t.reaped = false)
    (hphase : t.cancelPhase = 0) (hoverload : t.overload = 0)
    {sent : List UInt8} {u : State}
    (hflush : flush t (.wrote (data.length + 60)) = ((u, none), sent)) (hlast : u.control = 0) :
    tick profile s (pump data) = (u, .continued) := by
  have hdeadline : deadline profile s 0 (pump data) = none := by
    rw [deadline, if_neg (by simp [profile]), if_neg]
    rw [hs.start, hs.rx, sub64_zero]
    simp
  have hreceive : receiveStage profile s 0 (pump data) = (s, none) := by
    rw [receiveStage, if_pos hs.control]
    rfl
  have hprogress : progressStage profile s 0 (pump data) = (t, none) := by
    rw [progressStage, if_neg (not_not.mpr hs.control)]
    exact childTick_pump hs hslot hreaped hphase
  have hfault : faultStage profile.link t = (t, none) := by
    rw [faultStage, if_neg fun h => h.1 hoverload]
  have hstages : stages profile s 0 (pump data) = (u, none) := by
    rw [stages, hreceive, andThen_none, hprogress, andThen_none, hfault, andThen_none]
    exact congrArg Prod.fst hflush
  have hfinish : finish u = (u, .continued) := by
    rw [finish, hlast, if_neg (by simp), if_neg (by simp)]
  have hnow : (pump data).now = .ok 0 := rfl
  rw [tick, hnow]
  simp only [hdeadline, hstages]
  exact hfinish

theorem outputSlot_data (hs : Pumping s total ordinal) (hdata : data ≠ [])
    (hchunk : data.length ≤ outputChunk) (link : Link) :
    outputSlot link s 0 (.data data) = outputData link s 0 data := by
  have hstalled : ¬ outputStalled s := by
    rw [outputStalled, hs.queue]
    exact fun h => absurd h.1 (by decide)
  rw [outputSlot, if_neg (by simp [hs.pipe, hstalled]), ReadAnswer.clip,
    List.take_of_length_le hchunk]
  cases data with
  | nil => exact absurd rfl hdata
  | cons byte data => rfl

theorem flush_nil (hqueue : s.queue = []) (answer : WriteAnswer) :
    flush s answer = ((s, none), []) := by
  unfold flush
  rw [hqueue]

theorem flush_whole {bytes : List UInt8} (hqueue : s.queue = [⟨bytes, 0⟩])
    (hbytes : bytes.length ≠ 0) :
    flush s (.wrote bytes.length) =
      (({ s with queue := [] }, none), window 0 bytes.length bytes) := by
  unfold flush
  rw [hqueue]
  simp [hbytes]

def queuedChunk (s : State) (data : List UInt8) : State :=
  { enqueue profile.link (note s (.read s.id 0 data)) ⟨kindOutput, s.id, outputBody s 0 data⟩ with
    ordinal := s.ordinal + 1
    total := s.total + data.length
    outputTurn := 1 }

theorem tick_forwards (hs : Pumping s total ordinal) (hdata : data ≠ [])
    (hchunk : data.length ≤ outputChunk) (hfits : Fits (total, ordinal) data.length) :
    ∃ t, tick profile s (pump data) = (t, .continued) ∧
      Pumping t (total + data.length) (ordinal + 1) ∧
      t.log = s.log ++ [.read 3 0 data, .queued ⟨kindOutput, 3, outputBody s 0 data⟩] := by
  have hbody : (outputBody s 0 data).length = data.length + 12 := by
    simp [outputBody, Nat.add_comm]
  have hroom : ¬ ((outputBody s 0 data).length + 32 > maxPayload ∨
      s.queue.length = queueSlots) := by
    rw [hbody, hs.queue]
    simp only [outputChunk] at hchunk
    simp only [maxPayload, List.length_nil, queueSlots]
    omega
  have hslot : outputSlot profile.link s 0 (.data data) = (queuedChunk s data, none) := by
    rw [outputSlot_data hs hdata hchunk, outputData, if_neg]
    · rw [forward, queue]
      show andThen (if (outputBody s 0 data).length + 32 > maxPayload ∨
          s.queue.length = queueSlots then _ else _) _ = _
      rw [if_neg hroom]
      rfl
    · show ¬ (s.total + data.length > outputLimit ∨ s.ordinal ≥ outputFrameLimit)
      rw [hs.total, hs.ordinal]
      have hbytes := hfits.1
      have hframes := hfits.2
      omega
  have hlength : (Frame.encode profile.link ⟨kindOutput, s.id, outputBody s 0 data⟩).length =
      data.length + 60 := by
    rw [Frame.length_encode, hbody, headerSize]
    omega
  have hqueue : (queuedChunk s data).queue =
      [⟨Frame.encode profile.link ⟨kindOutput, s.id, outputBody s 0 data⟩, 0⟩] := by
    show s.queue ++ [_] = _
    rw [hs.queue]
    rfl
  have hflush := flush_whole hqueue (by omega)
  rw [hlength] at hflush
  refine ⟨_, tick_pump hs hslot hs.reaped hs.cancelPhase hs.overload hflush hs.control, ?_, ?_⟩
  · exact ⟨hs.active, hs.control, hs.start, hs.rx, hs.commandStart, hs.timeout, hs.cancelPhase,
      hs.pipe, hs.reaped, rfl, hs.overload, (by decide : 1 < 2), hs.id,
      congrArg (· + data.length) hs.total, congrArg (· + 1) hs.ordinal⟩
  · show s.log ++ [.read s.id 0 data] ++ [.queued ⟨kindOutput, s.id, outputBody s 0 data⟩] = _
    rw [hs.id, List.append_assoc]
    rfl

theorem tick_drops (hs : Pumping s total ordinal) (hdata : data ≠ [])
    (hchunk : data.length ≤ outputChunk) (hfits : ¬ Fits (total, ordinal) data.length) :
    ∃ t, tick profile s (pump data) = (t, .continued) ∧
      Pumping t total ordinal ∧ t.log = s.log ++ [.read 3 0 data] := by
  have hslot : outputSlot profile.link s 0 (.data data) =
      (discard (note s (.read s.id 0 data)) data.length, none) := by
    rw [outputSlot_data hs hdata hchunk, outputData, if_pos]
    show s.total + data.length > outputLimit ∨ s.ordinal ≥ outputFrameLimit
    rw [hs.total, hs.ordinal]
    rw [Fits] at hfits
    omega
  have hqueue : (discard (note s (.read s.id 0 data)) data.length).queue = [] := hs.queue
  refine ⟨_, tick_pump hs hslot hs.reaped hs.cancelPhase hs.overload (flush_nil hqueue _)
    hs.control, ?_, ?_⟩
  · exact ⟨hs.active, hs.control, hs.start, hs.rx, hs.commandStart, hs.timeout, hs.cancelPhase,
      hs.pipe, hs.reaped, hs.queue, hs.overload, hs.turn, hs.id, hs.total, hs.ordinal⟩
  · rw [← hs.id]
    rfl

theorem opened_pumping : Pumping (console profile 0 0 0 opening).1 0 0 where
  active := by decide +kernel
  control := by decide +kernel
  start := by decide +kernel
  rx := by decide +kernel
  commandStart := by decide +kernel
  timeout := by decide +kernel
  cancelPhase := by decide +kernel
  pipe := by decide +kernel
  reaped := by decide +kernel
  queue := by decide +kernel
  overload := by decide +kernel
  turn := by decide +kernel
  id := by decide +kernel
  total := by decide +kernel
  ordinal := by decide +kernel

theorem turns_append {p : Profile} {s t : State} {first second : List TickAnswers}
    (hfirst : turns p s first = (t, .continued)) :
    turns p s (first ++ second) = turns p t second := by
  induction first generalizing s with
  | nil =>
    cases hfirst
    rfl
  | cons answers first ih =>
    rw [turns] at hfirst
    rw [List.cons_append, turns]
    rcases htick : tick p s answers with ⟨u, turn⟩
    rw [htick] at hfirst
    cases turn with
    | continued => exact ih hfirst
    | controlled => cases hfirst
    | detached => cases hfirst
    | failed errno => cases hfirst

theorem account_chunk (s : State) (data : List UInt8) (hordinal : s.ordinal < outputFrameLimit)
    (log : List Event) :
    let grown := log ++ [.read 3 0 data, .queued ⟨kindOutput, 3, outputBody s 0 data⟩]
    (account 3 grown).reads 0 = (account 3 log).reads 0 ++ data ∧
      (account 3 grown).forwarded 0 = (account 3 log).forwarded 0 ++ data := by
  have hword := (word_outputBody s 0 data hordinal (by decide)).2
  have hdrop := drop_outputBody s 0 data
  constructor
  · simp [account, Event.reads]
  · simp [account, Event.output, Account.forwarded, hword, hdrop]

theorem turns_forward (hdata : data ≠ []) (hchunk : data.length ≤ outputChunk) (count : Nat)
    (hs : Pumping s total ordinal) (hbytes : total + count * data.length ≤ outputLimit)
    (hframes : ordinal + count ≤ outputFrameLimit) :
    ∃ t, turns profile s (List.replicate count (pump data)) = (t, .continued) ∧
      Pumping t (total + count * data.length) (ordinal + count) ∧ s.log <+: t.log ∧
      (account 3 t.log).reads 0 = (account 3 s.log).reads 0 ++ (List.replicate count data).flatten ∧
      (account 3 t.log).forwarded 0 =
        (account 3 s.log).forwarded 0 ++ (List.replicate count data).flatten := by
  induction count generalizing s total ordinal with
  | zero =>
    refine ⟨s, rfl, ?_, List.prefix_refl _, ?_, ?_⟩
    · simpa using hs
    · simp
    · simp
  | succ count ih =>
    have hproduct : (count + 1) * data.length = data.length + count * data.length := by
      rw [Nat.add_mul, Nat.one_mul, Nat.add_comm]
    have hfits : Fits (total, ordinal) data.length := by
      constructor
      · show total + data.length ≤ outputLimit
        omega
      · show ordinal < outputFrameLimit
        omega
    obtain ⟨t, htick, hnext, hlog⟩ := tick_forwards hs hdata hchunk hfits
    obtain ⟨u, hturns, hlast, hgrown, hreads, hforwarded⟩ := ih hnext (by omega) (by omega)
    obtain ⟨hread, hforward⟩ := account_chunk s data (hs.ordinal ▸ hfits.2) s.log
    refine ⟨u, ?_, ?_, (List.prefix_append s.log _).trans (hlog ▸ hgrown), ?_, ?_⟩
    · rw [List.replicate_succ, turns, htick]
      exact hturns
    · rwa [hproduct, ← Nat.add_assoc, Nat.add_comm count 1, ← Nat.add_assoc]
    · rw [hreads, hlog, hread, List.append_assoc, List.replicate_succ, List.flatten_cons]
    · rw [hforwarded, hlog, hforward, List.append_assoc, List.replicate_succ, List.flatten_cons]

def full (byte : UInt8) : List UInt8 := List.replicate outputChunk byte

/-- The command writes as much as fits in full chunks, one chunk more, and then one
byte. -/
def answers : List TickAnswers :=
  opening ++ (List.replicate 1365 (pump (full 0x61)) ++ [pump (full 0x62), pump [0x63]])

theorem length_full (byte : UInt8) : (full byte).length = 768 := List.length_replicate

theorem full_ne_nil (byte : UInt8) : full byte ≠ [] := by
  intro hnil
  have hlength := length_full byte
  rw [hnil] at hlength
  cases hlength

theorem opening_continues :
    console profile 0 0 0 opening = ((console profile 0 0 0 opening).1, .continued) := by
  have hresult : (console profile 0 0 0 opening).2 = .continued := by decide +kernel
  rw [← hresult]

theorem opening_accepts : Accepted (console profile 0 0 0 opening).1.log 3 :=
  ⟨⟨words [3, 0, 1, 0, 0, 0, 0, 0], by decide +kernel, by decide +kernel⟩,
    EchoSession.command, by decide +kernel⟩

theorem run : ∃ t, console profile 0 0 0 answers = (t, .continued) ∧ (account 3 t.log).reads 0 =
        (List.replicate 1365 (full 0x61)).flatten ++ (full 0x62 ++ [0x63]) ∧
      (account 3 t.log).forwarded 0 =
        (List.replicate 1365 (full 0x61)).flatten ++ [0x63] ∧ Accepted t.log 3 := by
  have hchunk (byte : UInt8) : (full byte).length ≤ outputChunk :=
    Nat.le_of_eq (length_full byte)
  have hbytes : 0 + 1365 * (full 0x61).length ≤ outputLimit := by
    rw [length_full]
    decide
  obtain ⟨s, hturns, hs, hgrown, hreads, hforwarded⟩ :=
    turns_forward (full_ne_nil 0x61) (hchunk 0x61) 1365 opened_pumping hbytes (by decide)
  rw [length_full] at hs
  obtain ⟨t, hdrop, ht, hdropped⟩ := tick_drops hs (full_ne_nil 0x62) (hchunk 0x62) (by
    rw [length_full]
    decide)
  obtain ⟨u, hforward, -, hlog⟩ := tick_forwards ht (List.cons_ne_nil 0x63 []) (by decide)
    (by decide)
  have hopenReads : (account 3 (console profile 0 0 0 opening).1.log).reads 0 = [] := by
    decide +kernel
  have hopenForwarded : (account 3 (console profile 0 0 0 opening).1.log).forwarded 0 = [] := by
    decide +kernel
  have hordinal : t.ordinal < outputFrameLimit := by
    rw [ht.ordinal]
    decide
  obtain ⟨hlastRead, hlastForward⟩ := account_chunk t [0x63] hordinal t.log
  refine ⟨u, ?_, ?_, ?_, ?_⟩
  · rw [answers, console, turns_append opening_continues, turns_append hturns, turns, hdrop]
    show turns profile t [pump [0x63]] = (u, .continued)
    rw [turns, hforward]
    rfl
  · rw [hlog, hlastRead, hdropped]
    have hread : (account 3 (s.log ++ [.read 3 0 (full 0x62)])).reads 0 =
        (account 3 s.log).reads 0 ++ full 0x62 := by
      simp [account, Event.reads]
    rw [hread, hreads, hopenReads, List.nil_append, List.append_assoc]
  · rw [hlog, hlastForward, hdropped]
    have hforwards : (account 3 (s.log ++ [.read 3 0 (full 0x62)])).forwarded 0 =
        (account 3 s.log).forwarded 0 := by
      simp [account, Event.output, Account.forwarded]
    rw [hforwards, hforwarded, hopenForwarded, List.nil_append]
  · refine Accepted.mono opening_accepts ?_
    rw [hlog, hdropped, List.append_assoc]
    exact hgrown.trans (List.prefix_append _ _)

end Spill

/-- After a chunk that exceeds the byte limit was dropped, a later byte of the same
stream is forwarded, and the output is no prefix of what was written. -/
theorem output_resumes_after_drop :
    let log := (console Spill.profile 0 0 0 Spill.answers).1.log
    Accepted log 3 ∧ ¬ (account 3 log).forwarded 0 <+: (account 3 log).reads 0 := by
  obtain ⟨t, hrun, hreads, hforwarded, haccepted⟩ := Spill.run
  rw [hrun]
  refine ⟨haccepted, ?_⟩
  show ¬ (account 3 t.log).forwarded 0 <+: (account 3 t.log).reads 0
  rw [hreads, hforwarded, List.prefix_append_right_inj]
  rintro ⟨rest, hprefix⟩
  have hhead := congrArg List.head? hprefix
  have hfull : Spill.full 0x62 = 0x62 :: List.replicate 767 0x62 := List.replicate_succ
  rw [hfull] at hhead
  simp only [List.cons_append, List.head?_cons, Option.some.injEq] at hhead
  exact absurd hhead (by decide)

end NativeInitLab.RootConsole.Device
