import NativeInitLab.F1.Journal

namespace NativeInitLab.F1

open Lockstep

/-! Which journals can record the rollback. -/

section Summary

variable {records : List Record} {record : Record}

theorem currentState_append : currentState (records ++ [record]) =
    if record.kind = .transition then some record.state else currentState records := by
  rw [currentState, List.reverse_append, List.reverse_singleton, List.singleton_append,
    List.find?_cons]
  cases hkind : record.kind with
  | transition => rfl
  | event => rfl
  | checkpoint => rfl

theorem recordedEvents_append : recordedEvents (records ++ [record]) =
    recordedEvents records ++ (recordedEvent record).toList := by
  rw [recordedEvents, List.filterMap_append, recordedEvents]
  cases hevent : recordedEvent record with
  | none => simp [hevent]
  | some name => simp [hevent]

theorem recordedAttempts_append : recordedAttempts (records ++ [record]) =
    recordAttempt (recordedAttempts records) record := by
  rw [recordedAttempts, List.foldl_append]
  rfl

end Summary

inductive Adds (records : List Record) (record : Record) : Prop
  | transition (hkind : record.kind = .transition)
      (haction : record.action = stateAction record.state)
      (hnext : record.state ∈ nextStates (currentState records))
  | event {name : EventName} (hkind : record.kind = .event) (haction : record.action = .event name)
      (hstate : currentState records = some record.state)
      (hevent : eventState name = record.state)
      (horder : (eventOrder (currentState records) (recordedEvents records))[
        (recordedEvents records).length]? = some name)
  | checkpoint {name : CheckpointName} {attempts : Attempts}
      (hkind : record.kind = .checkpoint) (haction : record.action = .checkpoint name)
      (hstate : currentState records = some record.state)
      (hcheckpoint : checkpointState name = record.state)
      (hvalid : validateCheckpoint name record.outcome record.details
        (recordedAttempts records) = .ok attempts)

section Prepare

variable {codec : Codec} {binding : Str} {records : List Record} {timestampUtc : Str}

theorem prepare_eq_ok {call : Call} {record : Record}
    (h : prepare codec binding records timestampUtc call = .ok record) :
    ∃ entry, call.entry (currentState records) = .ok entry ∧
      checkEntry records entry = .ok () ∧ boundedText entry.outcome 96 = true ∧
      record = newRecord codec binding records timestampUtc entry := by
  unfold prepare at h
  rw [bind_eq_ok] at h
  obtain ⟨entry, hentry, h⟩ := h
  rw [bind_eq_ok] at h
  obtain ⟨checked, hcheck, h⟩ := h
  rw [require_bind_eq_ok] at h
  obtain ⟨hbounded, h⟩ := h
  cases h
  exact ⟨entry, hentry, hcheck, hbounded, rfl⟩

theorem checkEntry_adds {entry : Entry} (h : checkEntry records entry = .ok ()) :
    Adds records (newRecord codec binding records timestampUtc entry) := by
  obtain ⟨kind, state, action, outcome, details⟩ := entry
  unfold checkEntry at h
  split at h
  case h_1 hkind =>
    cases hkind
    rw [require_eq_ok] at h
    exact .transition rfl h.2 h.1
  case h_2 name hkind haction =>
    cases hkind
    cases haction
    rw [require_eq_ok] at h
    exact .event rfl rfl h.1 h.2.1 h.2.2
  case h_3 => cases h
  case h_4 name hkind haction =>
    cases hkind
    cases haction
    rw [require_bind_eq_ok] at h
    obtain ⟨hstate, h⟩ := h
    cases hvalid : validateCheckpoint name outcome details (recordedAttempts records) with
    | error failure =>
      rw [hvalid] at h
      cases h
    | ok attempts => exact .checkpoint rfl rfl hstate.1 hstate.2 hvalid
  case h_5 => cases h

theorem prepare_adds {call : Call} {record : Record}
    (h : prepare codec binding records timestampUtc call = .ok record) : Adds records record := by
  obtain ⟨entry, -, hcheck, -, rfl⟩ := prepare_eq_ok h
  exact checkEntry_adds hcheck

theorem prepare_transition {state : RunState} {details : Details}
    (hnext : state ∈ nextStates (currentState records)) :
    prepare codec binding records timestampUtc (.transition state "ok".toList details) =
      .ok (newRecord codec binding records timestampUtc
        ⟨.transition, state, stateAction state, "ok".toList, details⟩) := by
  have hcheck : checkEntry records
      ⟨.transition, state, stateAction state, "ok".toList, details⟩ = .ok () :=
    require_of_pos _ ⟨hnext, rfl⟩
  simp only [prepare, Call.entry, ok_bind, hcheck]
  rfl

theorem prepare_event {name : EventName} {details : Details}
    (hstate : currentState records = some (eventState name))
    (horder : (eventOrder (currentState records) (recordedEvents records))[
      (recordedEvents records).length]? = some name) :
    prepare codec binding records timestampUtc (.event (.event name) details) =
      .ok (newRecord codec binding records timestampUtc
        ⟨.event, eventState name, .event name, "recorded".toList, details⟩) := by
  have hcheck : checkEntry records
      ⟨.event, eventState name, .event name, "recorded".toList, details⟩ = .ok () :=
    require_of_pos _ ⟨hstate, rfl, horder⟩
  simp only [prepare, Call.entry, hstate, ok_bind, hcheck]
  rfl

theorem prepare_event_iff {name : EventName} {details : Details}
    (hstate : currentState records = some (eventState name)) :
    (∃ record, prepare codec binding records timestampUtc (.event (.event name) details) =
        .ok record) ↔
      (eventOrder (currentState records) (recordedEvents records))[
        (recordedEvents records).length]? = some name := by
  constructor
  · rintro ⟨record, h⟩
    obtain ⟨entry, hentry, hcheck, -, -⟩ := prepare_eq_ok h
    simp only [Call.entry, hstate] at hentry
    cases hentry
    rw [checkEntry, require_eq_ok] at hcheck
    exact hcheck.2.2
  · exact fun horder => ⟨_, prepare_event hstate horder⟩

end Prepare

/-- The record passes the checks of `_append` and the bound of `_write_exclusive_bounded`. -/
structure Accepts (codec : Codec) (binding : Str) (records : List Record) (timestampUtc : Str)
    (call : Call) (record : Record) : Prop where
  prepared : prepare codec binding records timestampUtc call = .ok record
  fits : codec.size record ≤ maxRecord

/-- The journals that `create` and accepted calls lead to. -/
inductive Reachable (codec : Codec) (binding : Str) : List Record → Prop
  | created {timestampUtc : Str} {details : Details} {record : Record}
      (hrecord : Accepts codec binding [] timestampUtc
        (.transition .preflight "ok".toList details) record) :
      Reachable codec binding [record]
  | appended {records : List Record} {timestampUtc : Str} {call : Call} {record : Record}
      (hearlier : Reachable codec binding records)
      (hrecord : Accepts codec binding records timestampUtc call record) :
      Reachable codec binding (records ++ [record])

inductive Extends (codec : Codec) (binding : Str) : List Record → List Call → List Record → Prop
  | nil (records : List Record) : Extends codec binding records [] records
  | cons {records final : List Record} {timestampUtc : Str} {call : Call} {record : Record}
      {calls : List Call}
      (hrecord : Accepts codec binding records timestampUtc call record)
      (hrest : Extends codec binding (records ++ [record]) calls final) :
      Extends codec binding records (call :: calls) final

section Timeline

variable {codec : Codec} {binding : Str} {records final : List Record} {record : Record}
  {events : List EventName}

/-- Before the rollback starts, the events follow the full timeline. -/
def Ordered (records : List Record) : Prop :=
  (∃ n, recordedEvents records = timeline.take n) ∨ .rollbackFlashStart ∈ recordedEvents records

theorem take_timeline_succ {n : Nat} {name : EventName}
    (h : timeline[(timeline.take n).length]? = some name) :
    timeline.take n ++ [name] = timeline.take (n + 1) := by
  have hlt : n < timeline.length := by
    by_contra hlarge
    rw [List.take_of_length_le (by omega), List.getElem?_eq_none (Nat.le_refl _)] at h
    cases h
  rw [List.length_take, Nat.min_eq_left (Nat.le_of_lt hlt)] at h
  rw [List.take_add_one, h]
  rfl

theorem rollback_of_recoveryTimeline {n : Nat} {name : EventName}
    (hcandidate : .candidateFlashStart ∉ timeline.take n)
    (hname : recoveryTimeline[(timeline.take n).length]? = some name)
    (hlate : eventState name ∈ recoveryEventStates) : name = .rollbackFlashStart := by
  match n with
  | 0 =>
    cases hname
    exact absurd hlate (by decide)
  | 1 =>
    cases hname
    rfl
  | n + 2 => exact absurd (by simp [timeline]) hcandidate

theorem Ordered.append (h : Ordered records) (hadds : Adds records record) :
    Ordered (records ++ [record]) := by
  unfold Ordered at h ⊢
  rw [recordedEvents_append]
  cases hadds with
  | transition hkind =>
    rw [recordedEvent, hkind]
    simpa using h
  | checkpoint hkind =>
    rw [recordedEvent, hkind]
    simpa using h
  | event hkind haction hstate hevent horder =>
    rename_i name
    have hname : recordedEvent record = some name := by rw [recordedEvent, hkind, haction]
    rw [hname, Option.toList_some]
    rcases h with ⟨n, hevents⟩ | hrollback
    · rw [hevents] at horder ⊢
      unfold eventOrder at horder
      split at horder
      case isTrue hrecovery =>
        rw [hstate, Option.any_some, List.contains_iff_mem, ← hevent] at hrecovery
        have := rollback_of_recoveryTimeline hrecovery.2 horder hrecovery.1
        exact .inr (by simp [this])
      case isFalse => exact .inl ⟨n + 1, take_timeline_succ horder⟩
    · exact .inr (List.mem_append_left _ hrollback)

theorem Reachable.ordered (h : Reachable codec binding records) : Ordered records := by
  induction h with
  | created hrecord =>
    have hstart : Ordered [] := .inl ⟨0, rfl⟩
    exact hstart.append (prepare_adds hrecord.prepared)
  | appended _ hrecord ih => exact ih.append (prepare_adds hrecord.prepared)

structure At (records : List Record) (state : RunState) (events : List EventName) : Prop where
  state : currentState records = some state
  events : recordedEvents records = events

theorem At.event (name : EventName) (h : At records (eventState name) events) (codec : Codec)
    (binding timestampUtc : Str) (details : Details)
    (horder : (eventOrder (some (eventState name)) events)[events.length]? = some name) :
    ∃ record, prepare codec binding records timestampUtc (.event (.event name) details) =
        .ok record ∧
      At (records ++ [record]) (eventState name) (events ++ [name]) := by
  rw [← h.state, ← h.events] at horder
  refine ⟨_, prepare_event h.state horder, ?_, ?_⟩
  · rw [currentState_append]
    exact h.state
  · rw [recordedEvents_append, h.events]
    rfl

theorem At.transition {state : RunState} (next : RunState) (h : At records state events)
    (codec : Codec) (binding timestampUtc : Str) (details : Details)
    (hnext : next ∈ nextStates (some state)) :
    ∃ record, prepare codec binding records timestampUtc
        (.transition next "ok".toList details) = .ok record ∧
      At (records ++ [record]) next events := by
  rw [← h.state] at hnext
  refine ⟨_, prepare_transition hnext, ?_, ?_⟩
  · rw [currentState_append]
    rfl
  · rw [recordedEvents_append, h.events]
    exact List.append_nil _

def noDetails : Details := .other "{}".toList

/-- From the start of the rollback to the end of the run. -/
def closing : List Call :=
  [.event (.event .rollbackFlashStart) noDetails,
    .transition .rollbackFlashed "ok".toList noDetails,
    .event (.event .rollbackFlashDone) noDetails,
    .transition .healthVerified "ok".toList noDetails,
    .event (.event .rollbackBootReady) noDetails,
    .event (.event .liveSessionEnd) noDetails,
    .transition .closed "ok".toList noDetails]

/-- The records of these calls, which have no details, fit in every journal. -/
def Room (codec : Codec) (binding now : Str) : Prop :=
  ∀ records, Reachable codec binding records → ∀ call ∈ closing, ∀ record,
    prepare codec binding records now call = .ok record → codec.size record ≤ maxRecord

def rollbackEntry (details : Details) : Entry :=
  ⟨.event, .recoveryDownload, .event .rollbackFlashStart, "recorded".toList, details⟩

/-- The rollback is accepted next with all details that fit, and a sequence of calls records all of
it and closes. -/
structure Recordable (codec : Codec) (binding : Str) (records : List Record) : Prop where
  accepted : ∀ timestampUtc details,
    codec.size (newRecord codec binding records timestampUtc (rollbackEntry details)) ≤ maxRecord →
      Accepts codec binding records timestampUtc (.event (.event .rollbackFlashStart) details)
        (newRecord codec binding records timestampUtc (rollbackEntry details))
  closes : ∃ details calls final,
    Extends codec binding records (.event (.event .rollbackFlashStart) details :: calls) final ∧
      .rollbackFlashDone ∈ recordedEvents final ∧ .rollbackBootReady ∈ recordedEvents final ∧
      .liveSessionEnd ∈ recordedEvents final ∧ currentState final = some .closed

/-- The two journals in which the rollback comes next: no candidate was flashed, or one was and
has booted. -/
def Due (events : List EventName) : Prop :=
  events = [.liveSessionStart] ∨ events = timeline.take 4

instance (events : List EventName) : Decidable (Due events) :=
  inferInstanceAs (Decidable (_ ∨ _))

theorem order_of_due {state : RunState} {name : EventName} (hdue : Due events)
    (later : List EventName) (hstate : state ∈ recoveryEventStates)
    (hlater : .candidateFlashStart ∉ later)
    (hname : recoveryTimeline[later.length + 1]? = some name) :
    (eventOrder (some state) (events ++ later))[(events ++ later).length]? = some name := by
  have hrecovery : (some state).any (fun state => recoveryEventStates.contains state) = true := by
    rw [Option.any_some, List.contains_iff_mem]
    exact hstate
  rcases hdue with rfl | rfl
  · rw [eventOrder, if_pos ⟨hrecovery, by simp [hlater]⟩, List.length_append, Nat.add_comm]
    exact hname
  · rw [eventOrder, if_neg fun h => h.2 (by simp [timeline]), List.length_append,
      List.length_take, Nat.min_eq_left (by decide), Nat.add_comm]
    exact hname

theorem closes_of_due {now : Str} (hroom : Room codec binding now)
    (hreachable : Reachable codec binding records) (hat : At records .recoveryDownload events)
    (hdue : Due events) :
    ∃ final, Extends codec binding records closing final ∧
      At final .closed (events ++ [.rollbackFlashStart] ++ [.rollbackFlashDone] ++
        [.rollbackBootReady] ++ [.liveSessionEnd]) := by
  have horder (later : List EventName) {state : RunState} {name : EventName}
      (hstate : state ∈ recoveryEventStates) (hlater : .candidateFlashStart ∉ later)
      (hname : recoveryTimeline[later.length + 1]? = some name) :=
    order_of_due hdue later hstate hlater hname
  have hstep {later : List Record} {call : Call} {record : Record}
      (hlater : Reachable codec binding later) (hcall : call ∈ closing)
      (hprepared : prepare codec binding later now call = .ok record) :
      Accepts codec binding later now call record ∧ Reachable codec binding (later ++ [record]) := by
    have haccepts := Accepts.mk hprepared (hroom later hlater call hcall record hprepared)
    exact ⟨haccepts, .appended hlater haccepts⟩
  obtain ⟨first, hfirst, hat⟩ := hat.event .rollbackFlashStart codec binding now noDetails
    (by simpa using horder [] (by decide) (by decide) rfl)
  obtain ⟨hfirst, hreachable⟩ := hstep hreachable (by simp [closing]) hfirst
  obtain ⟨second, hsecond, hat⟩ := hat.transition .rollbackFlashed codec binding now noDetails
    (by decide)
  obtain ⟨hsecond, hreachable⟩ := hstep hreachable (by simp [closing]) hsecond
  obtain ⟨third, hthird, hat⟩ := hat.event .rollbackFlashDone codec binding now noDetails
    (horder _ (by decide) (by decide) rfl)
  obtain ⟨hthird, hreachable⟩ := hstep hreachable (by simp [closing]) hthird
  obtain ⟨fourth, hfourth, hat⟩ := hat.transition .healthVerified codec binding now noDetails
    (by decide)
  obtain ⟨hfourth, hreachable⟩ := hstep hreachable (by simp [closing]) hfourth
  obtain ⟨fifth, hfifth, hat⟩ := hat.event .rollbackBootReady codec binding now noDetails
    (by simpa using horder [_, _] (by decide) (by decide) rfl)
  obtain ⟨hfifth, hreachable⟩ := hstep hreachable (by simp [closing]) hfifth
  obtain ⟨sixth, hsixth, hat⟩ := hat.event .liveSessionEnd codec binding now noDetails
    (by simpa using horder [_, _, _] (by decide) (by decide) rfl)
  obtain ⟨hsixth, hreachable⟩ := hstep hreachable (by simp [closing]) hsixth
  obtain ⟨last, hlast, hat⟩ := hat.transition .closed codec binding now noDetails (by decide)
  have hlast := (hstep hreachable (by simp [closing]) hlast).1
  exact ⟨_, .cons hfirst (.cons hsecond (.cons hthird (.cons hfourth (.cons hfifth
    (.cons hsixth (.cons hlast (.nil _))))))), hat⟩

theorem due_iff (hordered : Ordered records) (hnone : .rollbackFlashStart ∉ recordedEvents records)
    (hsession : .liveSessionStart ∈ recordedEvents records) :
    (eventOrder (some .recoveryDownload) (recordedEvents records))[
        (recordedEvents records).length]? = some .rollbackFlashStart ↔
      Due (recordedEvents records) := by
  rcases hordered with ⟨n, hevents⟩ | hrollback
  · rw [hevents] at hnone hsession ⊢
    match n with
    | 0 => exact absurd hsession (by decide)
    | 1 => decide
    | 2 => decide
    | 3 => decide
    | 4 => decide
    | n + 5 => exact absurd (by simp [timeline]) hnone
  · exact absurd hrollback hnone

theorem due_iff_candidate (hordered : Ordered records)
    (hnone : .rollbackFlashStart ∉ recordedEvents records)
    (hsession : .liveSessionStart ∈ recordedEvents records) :
    Due (recordedEvents records) ↔ .candidateFlashStart ∉ recordedEvents records ∨
      .candidateBootReady ∈ recordedEvents records := by
  rcases hordered with ⟨n, hevents⟩ | hrollback
  · rw [hevents] at hnone hsession ⊢
    match n with
    | 0 => exact absurd hsession (by decide)
    | 1 => decide
    | 2 => decide
    | 3 => decide
    | 4 => decide
    | n + 5 => exact absurd (by simp [timeline]) hnone
  · exact absurd hrollback hnone

/-- A run in recovery can record the rollback if and only if it has not started a candidate or
has seen it boot. -/
theorem rollback_is_recordable_iff {now : Str} (hroom : Room codec binding now)
    (hreachable : Reachable codec binding records)
    (hstate : currentState records = some .recoveryDownload)
    (hnone : .rollbackFlashStart ∉ recordedEvents records)
    (hsession : .liveSessionStart ∈ recordedEvents records) :
    Recordable codec binding records ↔ .candidateFlashStart ∉ recordedEvents records ∨
      .candidateBootReady ∈ recordedEvents records := by
  have hordered := hreachable.ordered
  have hdue := due_iff hordered hnone hsession
  rw [← hstate] at hdue
  rw [← due_iff_candidate hordered hnone hsession]
  constructor
  · rintro ⟨-, details, calls, final, hextends, -⟩
    cases hextends with
    | cons hrecord => exact hdue.mp ((prepare_event_iff hstate).mp ⟨_, hrecord.prepared⟩)
  · intro h
    refine ⟨fun timestampUtc details hfits => ⟨?_, hfits⟩, ?_⟩
    · exact prepare_event hstate (hdue.mpr h)
    obtain ⟨final, hextends, hat⟩ := closes_of_due hroom hreachable ⟨hstate, rfl⟩ h
    refine ⟨noDetails, _, final, hextends, ?_, ?_, ?_, hat.state⟩
    all_goals simp [hat.events]

end Timeline

namespace Sample

def weight : Details → Nat
  | .attempt _ start => start.path.length
  | .revalidation reason errorType errorSha256 =>
    reason.length + errorType.length + errorSha256.length
  | .other text => text.length

/-- A toy hash, in which every record before it takes part. -/
def hash (body : Body) : Str :=
  Nat.digitChar ((body.sequence + weight body.details +
    (body.timestampUtc ++ body.outcome).foldl (fun sum character => sum + character.toNat) 0) % 16) ::
    body.previousRecordSha256.take 63

def codec : Codec :=
  ⟨hash, fun record => 512 + record.timestampUtc.length + record.outcome.length + weight record.details⟩

def binding : Str := zeroSha256

section Accepted

variable {records : List Record} {record : Record}

theorem accepts_event {name : EventName}
    (h : prepare codec binding records [] (.event (.event name) noDetails) = .ok record) :
    Accepts codec binding records [] (.event (.event name) noDetails) record := by
  refine ⟨h, ?_⟩
  obtain ⟨entry, hentry, -, -, rfl⟩ := prepare_eq_ok h
  generalize currentState records = state at hentry
  cases state <;> cases hentry
  exact of_decide_eq_true rfl

theorem accepts_transition {state : RunState}
    (h : prepare codec binding records [] (.transition state "ok".toList noDetails) = .ok record) :
    Accepts codec binding records [] (.transition state "ok".toList noDetails) record := by
  refine ⟨h, ?_⟩
  obtain ⟨entry, hentry, -, -, rfl⟩ := prepare_eq_ok h
  cases hentry
  exact of_decide_eq_true rfl

end Accepted

theorem room : Room codec binding [] := by
  intro records _ call hcall record h
  simp only [closing, List.mem_cons, List.not_mem_nil, or_false] at hcall
  rcases hcall with rfl | rfl | rfl | rfl | rfl | rfl | rfl
  all_goals first | exact (accepts_event h).fits | exact (accepts_transition h).fits

theorem approved : ∃ records, Reachable codec binding records ∧
    At records .approved [.liveSessionStart] := by
  have hempty : .preflight ∈ nextStates (currentState []) := by decide
  have hcreated : Reachable codec binding [newRecord codec binding [] [] ⟨.transition,
      .preflight, stateAction .preflight, "ok".toList, noDetails⟩] :=
    .created (accepts_transition (prepare_transition hempty))
  have hat : At [newRecord codec binding [] [] ⟨.transition, .preflight,
      stateAction .preflight, "ok".toList, noDetails⟩] .preflight [] := ⟨rfl, rfl⟩
  obtain ⟨first, hfirst, hat⟩ := hat.event .liveSessionStart codec binding [] noDetails rfl
  obtain ⟨second, hsecond, hat⟩ := hat.transition .approved codec binding [] noDetails (by decide)
  exact ⟨_, .appended (.appended hcreated (accepts_event hfirst)) (accepts_transition hsecond), hat⟩

theorem requestCut : ∃ records, Reachable codec binding records ∧
    At records .recoveryDownload [.liveSessionStart] := by
  obtain ⟨records, hreachable, hat⟩ := approved
  obtain ⟨record, hrecord, hat⟩ := hat.transition .recoveryDownload codec binding [] noDetails
    (by decide)
  exact ⟨_, .appended hreachable (accepts_transition hrecord), hat⟩

theorem candidateCut : ∃ records, Reachable codec binding records ∧
    At records .recoveryDownload [.liveSessionStart, .candidateFlashStart] := by
  obtain ⟨records, hreachable, hat⟩ := approved
  obtain ⟨first, hfirst, hat⟩ := hat.transition .downloadIdentified codec binding [] noDetails
    (by decide)
  obtain ⟨second, hsecond, hat⟩ := hat.event .candidateFlashStart codec binding [] noDetails rfl
  obtain ⟨third, hthird, hat⟩ := hat.transition .recoveryDownload codec binding [] noDetails
    (by decide)
  exact ⟨_, .appended (.appended (.appended hreachable (accepts_transition hfirst))
    (accepts_event hsecond)) (accepts_transition hthird), hat⟩

end Sample

theorem rollback_is_recordable_request_cut :
    ∃ records, Reachable Sample.codec Sample.binding records ∧
      currentState records = some .recoveryDownload ∧
      Recordable Sample.codec Sample.binding records := by
  obtain ⟨records, hreachable, hat⟩ := Sample.requestCut
  have hnone : .rollbackFlashStart ∉ recordedEvents records := by
    rw [hat.events]
    decide
  have hsession : .liveSessionStart ∈ recordedEvents records := by
    rw [hat.events]
    decide
  refine ⟨records, hreachable, hat.state,
    (rollback_is_recordable_iff Sample.room hreachable hat.state hnone hsession).mpr (.inl ?_)⟩
  rw [hat.events]
  decide

/-- The candidate's transfer was started, and the run went to recovery from there: no rollback
event is accepted. -/
theorem candidate_cut_refuses_rollback : ∃ records, Reachable Sample.codec Sample.binding records ∧
      currentState records = some .recoveryDownload ∧
      recordedEvents records = [.liveSessionStart, .candidateFlashStart] ∧
      ∀ timestampUtc details record, prepare Sample.codec Sample.binding records timestampUtc
          (.event (.event .rollbackFlashStart) details) ≠ .ok record := by
  obtain ⟨records, hreachable, hat⟩ := Sample.candidateCut
  refine ⟨records, hreachable, hat.state, hat.events, fun timestampUtc details record h => ?_⟩
  have horder := (prepare_event_iff hat.state).mp ⟨record, h⟩
  rw [hat.state, hat.events] at horder
  exact absurd horder (by decide)

end NativeInitLab.F1
