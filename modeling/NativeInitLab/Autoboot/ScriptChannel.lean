import Mathlib.Data.List.Chain
import NativeInitLab.Autoboot.ScriptPacket

/-!
The owner's end of the dispatcher channel, `s22plus_autoboot_script_channel_v1.h`: `ap_packets`
drains at most eight datagrams per call and records the packets that continue the run.
-/

namespace NativeInitLab.Autoboot

open FixedWidth Numerals

inductive Turn
  | expired
  | again
  | failed
  | datagram (bytes : List UInt8)

/-- The channel's part of `ap`; `flagged` is `AP_CHANNEL`.  `reads` lists the datagrams received so
far and `recorded` the packets given to `ap_record`. -/
structure Channel where
  receive : Bool
  flagged : Bool
  packets : Nat
  packetSequence : Nat
  scriptId : Nat
  scriptOpen : Bool
  scriptDone : Bool
  reads : List (List UInt8)
  recorded : List Packet
  deriving DecidableEq, Repr

def Channel.opened : Channel := ⟨true, false, 0, 0, 0, false, false, [], []⟩

def Channel.flag (channel : Channel) : Channel := { channel with flagged := true }

def Channel.read (channel : Channel) (bytes : List UInt8) : Channel :=
  { channel with reads := channel.reads ++ [bytes] }

def Channel.record (channel : Channel) (packet : Packet) : Channel :=
  { channel with
    packets := wrap32 (channel.packets + 1)
    packetSequence := packet.sequence
    recorded := channel.recorded ++ [packet] }

def apChannelClose (channel : Channel) : Channel :=
  { channel with
    receive := false
    flagged := channel.flagged ||
      (channel.receive && (!channel.scriptDone || channel.scriptOpen)) }

def decode (limits : Limits) (bytes : List UInt8) : Option Packet :=
  if bytes.isEmpty || 79 < bytes.length || bytes.contains 0 then none
  else apPacketParse limits bytes

def allow (limits : Limits) (channel : Channel) (packet : Packet) : Option Channel :=
  if packet.sequence ≠ wrap32 (channel.packetSequence + 1) ∨
      limits.recordCap ≤ channel.packets ∨ channel.scriptDone = true ∨
      (channel.packetSequence = 0 ∧ packet.kind ≠ .d) then none
  else
    match packet.kind with
    | .d => if channel.packetSequence ≠ 0 then none else some (channel.record packet)
    | .b =>
      if channel.scriptOpen = true ∨ packet.id ≤ channel.scriptId then none
      else some ({ channel with scriptOpen := true, scriptId := packet.id }.record packet)
    | .e =>
      if channel.scriptOpen = false ∨ packet.id ≠ channel.scriptId then none
      else some ({ channel with scriptOpen := false }.record packet)
    | .x =>
      if channel.scriptOpen = true then none
      else some ({ channel with scriptDone := true }.record packet)

def apPacketsLoop (limits : Limits) : Nat → List Turn → Channel → Channel
  | 0, _, channel => channel
  | _ + 1, [], channel => channel
  | _ + 1, .expired :: _, channel => channel
  | _ + 1, .again :: _, channel => channel
  | _ + 1, .failed :: _, channel => channel.flag
  | n + 1, .datagram bytes :: turns, channel =>
    match (decode limits bytes).bind (allow limits (channel.read bytes)) with
    | none => (channel.read bytes).flag
    | some next => apPacketsLoop limits n turns next

def apPackets (limits : Limits) (turns : List Turn) (channel : Channel) : Channel :=
  if channel.receive = false then channel
  else
    let after := apPacketsLoop limits 8 turns channel
    if after.flagged then apChannelClose after else after

/-- What the owner does with the channel: `ap_packets`, with what its loop meets, or
`ap_channel_close`. -/
inductive Call
  | packets (turns : List Turn)
  | close

def Call.perform (limits : Limits) (channel : Channel) : Call → Channel
  | .packets turns => apPackets limits turns channel
  | .close => apChannelClose channel

def run (limits : Limits) (calls : List Call) : Channel :=
  calls.foldl (Call.perform limits) Channel.opened

/-- The datagrams that a loop of so many rounds meets if none of them stops it. -/
def datagrams : Nat → List Turn → List (List UInt8)
  | n + 1, .datagram bytes :: turns => bytes :: datagrams n turns
  | _, _ => []

def Call.datagrams : Call → List (List UInt8)
  | .packets turns => Autoboot.datagrams 8 turns
  | .close => []

/-! The language of the channel: `D`, then a pair `B`, `E` for each script, then `X`. -/

def scripts (ids : List Nat) : List (Kind × Nat) :=
  ids.flatMap fun identifier => [(.b, identifier), (.e, identifier)]

def dispatch (ids : List Nat) : List (Kind × Nat) := (.d, 0) :: (scripts ids ++ [(.x, 0)])

def Packet.action (packet : Packet) : Kind × Nat := (packet.kind, packet.id)

structure Language (limits : Limits) (packets : List Packet) : Prop where
  length_le : packets.length ≤ limits.recordCap
  sequences : packets.map Packet.sequence = List.range' 1 packets.length
  actions : ∃ ids : List Nat, ids.Pairwise (· < ·) ∧ (∀ identifier ∈ ids, identifier ≠ 0) ∧
    packets.map Packet.action <+: dispatch ids

def Violates (limits : Limits) (recorded : List Packet) (bytes : List UInt8) : Prop :=
  ∀ packet, decode limits bytes = some packet → ¬ Language limits (recorded ++ [packet])

/-! The order of the actions as an automaton, which is what `allow` keeps in `ap`. -/

structure Place where
  started : Bool
  scriptId : Nat
  scriptOpen : Bool
  scriptDone : Bool
  deriving DecidableEq

def Place.initial : Place := ⟨false, 0, false, false⟩

def Place.after (identifier : Nat) : Place := ⟨true, identifier, false, false⟩

def advance (place : Place) : Kind × Nat → Option Place
  | (.d, identifier) =>
    if place.started = false ∧ place.scriptDone = false ∧ identifier = 0 then
      some { place with started := true }
    else none
  | (.b, identifier) =>
    if place.started = true ∧ place.scriptDone = false ∧ place.scriptOpen = false ∧
        place.scriptId < identifier then
      some { place with scriptOpen := true, scriptId := identifier }
    else none
  | (.e, identifier) =>
    if place.started = true ∧ place.scriptDone = false ∧ place.scriptOpen = true ∧
        identifier = place.scriptId then
      some { place with scriptOpen := false }
    else none
  | (.x, identifier) =>
    if place.started = true ∧ place.scriptDone = false ∧ place.scriptOpen = false ∧
        identifier = 0 then
      some { place with scriptDone := true }
    else none

def track (place : Place) (actions : List (Kind × Nat)) : Option Place := actions.foldlM advance place

@[simp] theorem track_nil (place : Place) : track place [] = some place := rfl

theorem track_cons (place : Place) (action : Kind × Nat) (actions : List (Kind × Nat)) :
    track place (action :: actions) = (advance place action).bind fun next => track next actions :=
  rfl

theorem track_append (place : Place) (front back : List (Kind × Nat)) :
    track place (front ++ back) = (track place front).bind fun next => track next back :=
  List.foldlM_append

theorem advance_of_done {place : Place} (hdone : place.scriptDone = true) (action : Kind × Nat) :
    advance place action = none := by
  obtain ⟨kind, identifier⟩ := action
  cases kind <;> simp [advance, hdone]

@[simp] theorem scripts_cons (identifier : Nat) (ids : List Nat) :
    scripts (identifier :: ids) = (.b, identifier) :: (.e, identifier) :: scripts ids := rfl

theorem track_scripts {ids : List Nat} {last : Nat} (hids : (last :: ids).Pairwise (· < ·)) :
    ∃ identifier, track (.after last) (scripts ids) = some (.after identifier) := by
  induction ids generalizing last with
  | nil => exact ⟨last, rfl⟩
  | cons identifier ids ih =>
    obtain ⟨hlast, hids⟩ := List.pairwise_cons.mp hids
    obtain ⟨final, hfinal⟩ := ih hids
    have hbelow : last < identifier := hlast identifier List.mem_cons_self
    have hbegin : advance (.after last) (.b, identifier) =
        some ⟨true, identifier, true, false⟩ := by
      simp [advance, Place.after, hbelow]
    have hend : advance ⟨true, identifier, true, false⟩ (.e, identifier) =
        some (.after identifier) := by
      simp [advance, Place.after]
    refine ⟨final, ?_⟩
    rw [scripts_cons, track_cons, hbegin, Option.bind_some, track_cons, hend, Option.bind_some,
      hfinal]

theorem track_dispatch {ids : List Nat} (hids : (0 :: ids).Pairwise (· < ·)) :
    ∃ place, track .initial (dispatch ids) = some place := by
  obtain ⟨identifier, hscripts⟩ := track_scripts hids
  have hstart : advance .initial (.d, 0) = some (.after 0) := rfl
  refine ⟨⟨true, identifier, false, true⟩, ?_⟩
  rw [dispatch, track_cons, hstart, Option.bind_some, track_append, hscripts, Option.bind_some]
  rfl

theorem scripts_of_track : ∀ (actions : List (Kind × Nat)) (last : Nat) (place : Place),
    track (.after last) actions = some place →
    ∃ ids, (last :: ids).Pairwise (· < ·) ∧ actions <+: scripts ids ++ [(.x, 0)]
  | [], last, _, _ => ⟨[], List.pairwise_singleton _ last, List.nil_prefix⟩
  | (.d, identifier) :: actions, last, place, htrack => by
      simp [track_cons, advance, Place.after] at htrack
  | (.e, identifier) :: actions, last, place, htrack => by
      simp [track_cons, advance, Place.after] at htrack
  | (.x, identifier) :: actions, last, place, htrack => by
      rw [track_cons, Option.bind_eq_some_iff] at htrack
      obtain ⟨next, hadvance, htrack⟩ := htrack
      simp only [advance, Option.ite_none_right_eq_some, Option.some.injEq] at hadvance
      obtain ⟨⟨-, -, -, rfl⟩, rfl⟩ := hadvance
      cases actions with
      | nil => exact ⟨[], List.pairwise_singleton _ last, List.prefix_rfl⟩
      | cons action actions => simp [track_cons, advance_of_done] at htrack
  | [(.b, identifier)], last, place, htrack => by
      rw [track_cons, Option.bind_eq_some_iff] at htrack
      obtain ⟨next, hadvance, htrack⟩ := htrack
      simp only [advance, Option.ite_none_right_eq_some, Option.some.injEq] at hadvance
      refine ⟨[identifier], by simpa [Place.after] using hadvance.1.2.2.2, ?_⟩
      exact ⟨[(.e, identifier), (.x, 0)], rfl⟩
  | (.b, identifier) :: action :: actions, last, place, htrack => by
      rw [track_cons, Option.bind_eq_some_iff] at htrack
      obtain ⟨next, hadvance, htrack⟩ := htrack
      simp only [advance, Option.ite_none_right_eq_some, Option.some.injEq] at hadvance
      obtain ⟨⟨-, -, -, hbelow⟩, rfl⟩ := hadvance
      rw [track_cons, Option.bind_eq_some_iff] at htrack
      obtain ⟨next, hadvance, htrack⟩ := htrack
      obtain ⟨kind, other⟩ := action
      cases kind with
      | d => simp [advance, Place.after] at hadvance
      | b | x => simp [advance] at hadvance
      | e =>
        simp only [advance, Option.ite_none_right_eq_some, Option.some.injEq] at hadvance
        obtain ⟨⟨-, -, -, rfl⟩, rfl⟩ := hadvance
        obtain ⟨ids, hids, hactions⟩ := scripts_of_track actions other place htrack
        refine ⟨other :: ids, ?_, ?_⟩
        · refine List.pairwise_cons.mpr ⟨?_, hids⟩
          intro later hlater
          cases hlater with
          | head => exact hbelow
          | tail _ hlater => exact hbelow.trans ((List.pairwise_cons.mp hids).1 later hlater)
        · rw [scripts_cons, List.cons_append, List.cons_append, List.prefix_cons_inj,
            List.prefix_cons_inj]
          exact hactions

theorem track_iff (actions : List (Kind × Nat)) : (∃ place, track .initial actions = some place) ↔
      ∃ ids, (0 :: ids).Pairwise (· < ·) ∧ actions <+: dispatch ids := by
  constructor
  · rintro ⟨place, htrack⟩
    cases actions with
    | nil => exact ⟨[], List.pairwise_singleton _ 0, List.nil_prefix⟩
    | cons action actions =>
      rw [track_cons, Option.bind_eq_some_iff] at htrack
      obtain ⟨next, hadvance, htrack⟩ := htrack
      obtain ⟨kind, identifier⟩ := action
      cases kind with
      | b | e | x => simp [advance, Place.initial] at hadvance
      | d =>
        simp only [advance, Option.ite_none_right_eq_some, Option.some.injEq] at hadvance
        obtain ⟨⟨-, -, rfl⟩, rfl⟩ := hadvance
        obtain ⟨ids, hids, hactions⟩ := scripts_of_track actions 0 place htrack
        exact ⟨ids, hids, (List.prefix_cons_inj _).mpr hactions⟩
  · rintro ⟨ids, hids, rest, hactions⟩
    obtain ⟨place, htrack⟩ := track_dispatch hids
    rw [← hactions, track_append, Option.bind_eq_some_iff] at htrack
    obtain ⟨next, htrack, -⟩ := htrack
    exact ⟨next, htrack⟩

theorem language_iff {limits : Limits} {packets : List Packet} :
    Language limits packets ↔ packets.length ≤ limits.recordCap ∧
      packets.map Packet.sequence = List.range' 1 packets.length ∧
      ∃ place, track .initial (packets.map Packet.action) = some place := by
  rw [track_iff]
  constructor
  · intro hlanguage
    obtain ⟨ids, hids, hpos, hactions⟩ := hlanguage.actions
    exact ⟨hlanguage.length_le, hlanguage.sequences, ids,
      List.pairwise_cons.mpr ⟨fun identifier hmember => Nat.pos_of_ne_zero (hpos identifier hmember),
        hids⟩, hactions⟩
  · rintro ⟨hlength, hsequences, ids, hids, hactions⟩
    obtain ⟨hpos, hids⟩ := List.pairwise_cons.mp hids
    exact ⟨hlength, hsequences, ids, hids,
      fun identifier hmember => Nat.ne_of_gt (hpos identifier hmember), hactions⟩

def Channel.place (channel : Channel) : Place :=
  ⟨channel.packetSequence != 0, channel.scriptId, channel.scriptOpen, channel.scriptDone⟩

/-- What the source keeps of the recorded packets is right. -/
structure Ordered (limits : Limits) (channel : Channel) : Prop where
  packets : channel.packets = channel.recorded.length
  packetSequence : channel.packetSequence = channel.recorded.length
  length_le : channel.recorded.length ≤ limits.recordCap
  sequences : channel.recorded.map Packet.sequence = List.range' 1 channel.recorded.length
  tracked : track .initial (channel.recorded.map Packet.action) = some channel.place

structure Live (limits : Limits) (channel : Channel) : Prop extends Ordered limits channel where
  receive : channel.receive = true
  flagged : channel.flagged = false
  reads : channel.reads.map (decode limits) = channel.recorded.map some

theorem Ordered.language {limits : Limits} {channel : Channel}
    (hordered : Ordered limits channel) : Language limits channel.recorded :=
  language_iff.mpr ⟨hordered.length_le, hordered.sequences, channel.place, hordered.tracked⟩

theorem Ordered.read {limits : Limits} {channel : Channel} (hordered : Ordered limits channel)
    (bytes : List UInt8) : Ordered limits (channel.read bytes) :=
  ⟨hordered.packets, hordered.packetSequence, hordered.length_le, hordered.sequences,
    hordered.tracked⟩

def Channel.moveTo (channel : Channel) (place : Place) : Channel :=
  { channel with
    scriptId := place.scriptId
    scriptOpen := place.scriptOpen
    scriptDone := place.scriptDone }

section Step

variable {limits : Limits} {channel next : Channel} {packet : Packet} {bytes : List UInt8}

theorem started_of_advance {place next : Place} {action : Kind × Nat}
    (hadvance : advance place action = some next) : next.started = true := by
  obtain ⟨kind, identifier⟩ := action
  cases kind <;>
    simp only [advance, Option.ite_none_right_eq_some, Option.some.injEq] at hadvance <;>
    obtain ⟨hguard, rfl⟩ := hadvance
  · rfl
  · exact hguard.1
  · exact hguard.1
  · exact hguard.1

theorem allow_eq (hadmitted : packet.admitted = true) : allow limits channel packet =
      if packet.sequence = wrap32 (channel.packetSequence + 1) ∧ channel.packets < limits.recordCap
      then (advance channel.place packet.action).map fun place =>
        (channel.moveTo place).record packet
      else none := by
  obtain ⟨receive, flagged, packets, packetSequence, scriptId, scriptOpen, scriptDone, reads,
    recorded⟩ := channel
  by_cases hcount : packet.sequence = wrap32 (packetSequence + 1) ∧ packets < limits.recordCap
  · obtain ⟨hsequence, hcap⟩ := hcount
    rw [if_pos ⟨hsequence, hcap⟩, allow]
    cases scriptDone with
    | true => simp [advance_of_done, Channel.place]
    | false =>
      have hroom : ¬ limits.recordCap ≤ packets := Nat.not_le.mpr hcap
      simp only [Packet.admitted] at hadmitted
      cases hkind : packet.kind with
      | b =>
        by_cases hid : scriptId < packet.id
        · have hnot : ¬ packet.id ≤ scriptId := Nat.not_le.mpr hid
          by_cases hstart : packetSequence = 0 <;> cases scriptOpen <;>
            simp [advance, Packet.action, Channel.place, Channel.moveTo, *]
        · have hle : packet.id ≤ scriptId := Nat.le_of_not_lt hid
          by_cases hstart : packetSequence = 0 <;> cases scriptOpen <;>
            simp [advance, Packet.action, Channel.place, Channel.moveTo, *]
      | d | e | x =>
        by_cases hstart : packetSequence = 0 <;> cases scriptOpen <;>
          simp_all [advance, Packet.action, Channel.place, Channel.moveTo]
  · rw [if_neg hcount, allow, if_pos]
    by_cases hsequence : packet.sequence = wrap32 (packetSequence + 1)
    · exact .inr (.inl (Nat.le_of_not_lt fun hcap => hcount ⟨hsequence, hcap⟩))
    · exact .inl hsequence

theorem decode_wellFormed (hdecode : decode limits bytes = some packet) :
    packet.WellFormed limits := by
  simp only [decode, Option.ite_none_left_eq_some] at hdecode
  exact apPacketParse_wellFormed hdecode.2

theorem Ordered.sequence_eq (hordered : Ordered limits channel)
    (hcap : channel.recorded.length < limits.recordCap) :
    wrap32 (channel.packetSequence + 1) = channel.recorded.length + 1 := by
  rw [hordered.packetSequence]
  exact wrap32_of_lt (by have := limits.recordCap_lt; omega)

theorem map_concat_sequence (packets : List Packet) (packet : Packet) :
    (packets ++ [packet]).map Packet.sequence = List.range' 1 (packets ++ [packet]).length ↔
      packets.map Packet.sequence = List.range' 1 packets.length ∧
        packet.sequence = packets.length + 1 := by
  rw [List.length_append, List.length_singleton, List.range'_1_concat, List.map_append,
    List.map_singleton, Nat.add_comm 1]
  constructor
  · intro hsame
    obtain ⟨hfront, hlast⟩ := List.append_inj' hsame rfl
    exact ⟨hfront, List.singleton_inj.mp hlast⟩
  · rintro ⟨hfront, hlast⟩
    rw [hfront, hlast]

theorem Ordered.allow_iff (hordered : Ordered limits channel) (hformed : packet.WellFormed limits) :
    (∃ next, allow limits channel packet = some next) ↔
      Language limits (channel.recorded ++ [packet]) := by
  rw [allow_eq hformed.admitted, language_iff, map_concat_sequence, List.map_append, track_append,
    hordered.tracked, Option.bind_some, List.length_append, hordered.packets]
  by_cases hcap : channel.recorded.length < limits.recordCap
  · rw [hordered.sequence_eq hcap]
    by_cases hsequence : packet.sequence = channel.recorded.length + 1
    · rw [if_pos ⟨hsequence, hcap⟩]
      cases hadvance : advance channel.place packet.action with
      | none => simp [track_cons, hadvance]
      | some place => simp [track_cons, hadvance, hsequence, hordered.sequences, hcap]
    · simp [hsequence]
  · rw [if_neg fun hcount => hcap hcount.2]
    constructor
    · rintro ⟨_, hnone⟩
      cases hnone
    · rintro ⟨hlength, -⟩
      exact absurd hlength hcap

theorem Live.allow (hlive : Live limits channel) (hdecode : decode limits bytes = some packet)
    (hallowed : allow limits (channel.read bytes) packet = some next) : Live limits next := by
  have hformed := decode_wellFormed hdecode
  rw [allow_eq hformed.admitted, Option.ite_none_right_eq_some, Option.map_eq_some_iff] at hallowed
  obtain ⟨⟨hsequence, hcap⟩, place, hadvance, rfl⟩ := hallowed
  replace hcap : channel.recorded.length < limits.recordCap := hlive.packets ▸ hcap
  replace hsequence : packet.sequence = channel.recorded.length + 1 :=
    hsequence.trans (hlive.sequence_eq hcap)
  have hlength : (channel.recorded ++ [packet]).length = channel.recorded.length + 1 :=
    List.length_append
  refine ⟨⟨?_, hsequence.trans hlength.symm, hlength.trans_le hcap,
    (map_concat_sequence _ packet).mpr ⟨hlive.sequences, hsequence⟩, ?_⟩, hlive.receive,
    hlive.flagged, ?_⟩
  · show wrap32 (channel.packets + 1) = (channel.recorded ++ [packet]).length
    rw [hlive.packets, hlength]
    exact wrap32_of_lt (by have := limits.recordCap_lt; omega)
  · show track .initial ((channel.recorded ++ [packet]).map Packet.action) =
      some ⟨packet.sequence != 0, place.scriptId, place.scriptOpen, place.scriptDone⟩
    have hstarted : (packet.sequence != 0) = place.started := by
      rw [started_of_advance hadvance, bne_iff_ne]
      exact hformed.sequence_pos
    rw [List.map_append, track_append, hlive.tracked, Option.bind_some, List.map_singleton,
      track_cons, hstarted]
    exact congrArg (Option.bind · _) hadvance
  · show (channel.reads ++ [bytes]).map (decode limits) = (channel.recorded ++ [packet]).map some
    rw [List.map_append, List.map_append, hlive.reads, List.map_singleton, hdecode]
    rfl

theorem Live.refuse (hlive : Live limits channel)
    (hrefused : (decode limits bytes).bind (Autoboot.allow limits (channel.read bytes)) = none) :
    Violates limits channel.recorded bytes := by
  intro packet hdecode hlanguage
  have hordered := hlive.toOrdered.read bytes
  obtain ⟨next, hallowed⟩ := (hordered.allow_iff (decode_wellFormed hdecode)).mpr hlanguage
  rw [hdecode, Option.bind_some, hallowed] at hrefused
  cases hrefused

/-- What holds of the channel when `ap_packets` stops: no packet was lost, and a datagram that was
not recorded is the last one and a violation. -/
structure Accounted (limits : Limits) (channel : Channel) (refused : List (List UInt8)) : Prop where
  language : Language limits channel.recorded
  reads : ∃ accepted, channel.reads = accepted ++ refused ∧
    accepted.map (decode limits) = channel.recorded.map some
  length_le : refused.length ≤ 1
  violates : ∀ bytes ∈ refused, Violates limits channel.recorded bytes

theorem Live.accounted (hlive : Live limits channel) : Accounted limits channel [] :=
  ⟨hlive.language, ⟨channel.reads, (List.append_nil _).symm, hlive.reads⟩, Nat.zero_le 1,
    fun _ hmember => nomatch hmember⟩

theorem Live.loop (n : Nat) (turns : List Turn) (hlive : Live limits channel) :
    Live limits (apPacketsLoop limits n turns channel) ∨
      ((apPacketsLoop limits n turns channel).flagged = true ∧
        ∃ refused, Accounted limits (apPacketsLoop limits n turns channel) refused) := by
  induction n generalizing turns channel with
  | zero => exact .inl hlive
  | succ n ih =>
    cases turns with
    | nil => exact .inl hlive
    | cons turn turns =>
      cases turn with
      | expired | again => exact .inl hlive
      | failed =>
        have haccounted := hlive.accounted
        exact .inr ⟨rfl, [], haccounted.language, haccounted.reads, haccounted.length_le,
          haccounted.violates⟩
      | datagram bytes =>
        rw [apPacketsLoop]
        cases hstep : (decode limits bytes).bind (Autoboot.allow limits (channel.read bytes)) with
        | none =>
          refine .inr ⟨rfl, [bytes], hlive.language, ⟨channel.reads, rfl, hlive.reads⟩,
            Nat.le_refl 1, ?_⟩
          intro other hmember
          rw [List.mem_singleton.mp hmember]
          exact hlive.refuse hstep
        | some next =>
          obtain ⟨packet, hdecode, hallowed⟩ := Option.bind_eq_some_iff.mp hstep
          exact ih turns (hlive.allow hdecode hallowed)

theorem reads_loop (n : Nat) (turns : List Turn) (channel : Channel) :
    ∃ part, (apPacketsLoop limits n turns channel).reads = channel.reads ++ part ∧
      part <+: datagrams n turns ∧
      ((apPacketsLoop limits n turns channel).flagged = false → part = datagrams n turns) := by
  fun_induction apPacketsLoop limits n turns channel with
  | case6 n bytes turns channel hrefused =>
    exact ⟨[bytes], rfl, ⟨datagrams n turns, rfl⟩, fun hflagged => nomatch hflagged⟩
  | case7 n bytes turns channel next hstep ih =>
    obtain ⟨packet, hdecode, hallowed⟩ := Option.bind_eq_some_iff.mp hstep
    rw [allow_eq (decode_wellFormed hdecode).admitted, Option.ite_none_right_eq_some,
      Option.map_eq_some_iff] at hallowed
    obtain ⟨-, place, -, rfl⟩ := hallowed
    obtain ⟨part, hreads, hpart, hwhole⟩ := ih
    refine ⟨bytes :: part, ?_, (List.prefix_cons_inj bytes).mpr hpart, fun hflagged => ?_⟩
    · rw [hreads, List.append_cons]
      rfl
    · rw [hwhole hflagged, datagrams]
  | _ => exact ⟨[], (List.append_nil _).symm, List.nil_prefix, fun _ => by simp [datagrams]⟩

end Step

section Run

variable {limits : Limits} {channel : Channel}

/-- The channel between two calls: live, or closed with all that was read accounted for. -/
def Settled (limits : Limits) (channel : Channel) : Prop :=
  Live limits channel ∨ (channel.receive = false ∧ ∃ refused, Accounted limits channel refused ∧
      (refused ≠ [] → channel.flagged = true))

theorem Accounted.close {refused : List (List UInt8)}
    (haccounted : Accounted limits channel refused) :
    Accounted limits (apChannelClose channel) refused :=
  ⟨haccounted.language, haccounted.reads, haccounted.length_le, haccounted.violates⟩

theorem Settled.close (hsettled : Settled limits channel) :
    Settled limits (apChannelClose channel) := by
  rcases hsettled with hlive | ⟨hclosed, refused, haccounted, hflagged⟩
  · exact .inr ⟨rfl, [], hlive.accounted.close, fun hne => absurd rfl hne⟩
  · refine .inr ⟨rfl, refused, haccounted.close, fun hne => ?_⟩
    show (channel.flagged || _) = true
    rw [hflagged hne, Bool.true_or]

theorem Settled.apPackets (turns : List Turn) (hsettled : Settled limits channel) :
    Settled limits (apPackets limits turns channel) := by
  unfold Autoboot.apPackets
  rcases hsettled with hlive | ⟨hclosed, hrest⟩
  · rw [if_neg (by simp [hlive.receive])]
    rcases hlive.loop 8 turns with hafter | ⟨hflagged, refused, haccounted⟩
    · simp only [hafter.flagged, Bool.false_eq_true, if_false]
      exact .inl hafter
    · simp only [hflagged, if_true]
      refine .inr ⟨rfl, refused, haccounted.close, fun _ => ?_⟩
      show ((apPacketsLoop limits 8 turns channel).flagged || _) = true
      rw [hflagged, Bool.true_or]
  · rw [if_pos hclosed]
    exact .inr ⟨hclosed, hrest⟩

theorem Settled.perform (call : Call) (hsettled : Settled limits channel) :
    Settled limits (call.perform limits channel) := by
  cases call with
  | packets turns => exact hsettled.apPackets turns
  | close => exact hsettled.close

theorem live_opened (limits : Limits) : Live limits .opened :=
  ⟨⟨rfl, rfl, Nat.zero_le _, rfl, rfl⟩, rfl, rfl, rfl⟩

theorem settled_foldl (calls : List Call) (hsettled : Settled limits channel) :
    Settled limits (calls.foldl (Call.perform limits) channel) := by
  induction calls generalizing channel with
  | nil => exact hsettled
  | cons call calls ih => exact ih (hsettled.perform call)

theorem closed_foldl (calls : List Call) (hclosed : channel.receive = false) :
    calls.foldl (Call.perform limits) channel = channel := by
  induction calls with
  | nil => rfl
  | cons call calls ih =>
    have hstep : call.perform limits channel = channel := by
      cases call with
      | packets turns => exact if_pos hclosed
      | close =>
        obtain ⟨receive, flagged, _⟩ := channel
        subst hclosed
        simp [Call.perform, apChannelClose]
    rw [List.foldl_cons, hstep, ih]

/-- What was read of the datagrams that came: all of them while the channel is open. -/
def Reads (channel : Channel) (came : List (List UInt8)) : Prop :=
  channel.reads <+: came ∧ (channel.receive = true → channel.reads = came)

theorem Reads.perform {came : List (List UInt8)} (hreads : Reads channel came) (call : Call) :
    Reads (call.perform limits channel) (came ++ call.datagrams) := by
  cases call with
  | close => exact ⟨hreads.1.trans ( List.prefix_append ..), fun hopen => nomatch hopen⟩
  | packets turns =>
    rw [Call.perform, Autoboot.apPackets]
    split
    case isTrue hclosed =>
      refine ⟨hreads.1.trans ( List.prefix_append ..), fun hopen => ?_⟩
      rw [hclosed] at hopen
      cases hopen
    case isFalse hopen =>
      obtain ⟨part, hpart, hprefix, hwhole⟩ := @reads_loop limits 8 turns channel
      rw [hreads.2 (Bool.eq_true_of_not_eq_false hopen)] at hpart
      dsimp only
      split
      case isTrue =>
        refine ⟨?_, fun hopen => nomatch hopen⟩
        exact hpart.symm ▸ ( List.prefix_append_right_inj came).mpr hprefix
      case isFalse hflagged =>
        have hall := hpart.trans (congrArg (came ++ ·) (hwhole (Bool.eq_false_of_not_eq_true hflagged)))
        exact ⟨hall ▸ List.prefix_rfl, fun _ => hall⟩

theorem reads_foldl {came : List (List UInt8)} (calls : List Call) (hreads : Reads channel came) :
    Reads (calls.foldl (Call.perform limits) channel) (came ++ calls.flatMap Call.datagrams) := by
  induction calls generalizing channel came with
  | nil => simpa using hreads
  | cons call calls ih =>
    rw [List.flatMap_cons, ← List.append_assoc]
    exact ih (hreads.perform call)

/-- In every run of the owner the recorded packets are a beginning of `D (B id, E id)* X` with
sequence numbers from 1 and rising ids.  They are the datagrams read, in order and without
omission, except for at most one last datagram, which does not continue them; from it on the channel
is flagged and neither reads nor records.  The datagrams read are the first of those that the calls
meet, and all of them while the channel is open.  The number parser takes the longest run of digits and
accepts it exactly when it is not empty, has at most 20 digits and its value fits 64 bits. -/
theorem script_channel_records_dispatch (limits : Limits) (calls : List Call) :
    Language limits (run limits calls).recorded ∧
      ((run limits calls).reads <+: calls.flatMap Call.datagrams ∧
        ((run limits calls).receive = true →
          (run limits calls).reads = calls.flatMap Call.datagrams)) ∧
      (∃ accepted refused, (run limits calls).reads = accepted ++ refused ∧
        accepted.map (decode limits) = (run limits calls).recorded.map some ∧
        refused.length ≤ 1 ∧
        ∀ bytes ∈ refused, Violates limits (run limits calls).recorded bytes ∧
          ∀ later, (run limits (calls ++ later)).flagged = true ∧
            (run limits (calls ++ later)).reads = (run limits calls).reads ∧
            (run limits (calls ++ later)).recorded = (run limits calls).recorded) ∧
      ∀ text, apUnsigned text =
        if digitsOf text ≠ [] ∧ (digitsOf text).length ≤ 20 ∧ value 10 (digitsOf text) < 2 ^ 64
        then some (value 10 (digitsOf text), afterDigits text)
        else none := by
  have hsettled : Settled limits (run limits calls) := settled_foldl calls (.inl (live_opened limits))
  refine ⟨?_, reads_foldl calls ⟨List.prefix_rfl, fun _ => rfl⟩, ?_, apUnsigned_eq⟩
  · rcases hsettled with hlive | ⟨-, refused, haccounted, -⟩
    · exact hlive.language
    · exact haccounted.language
  · rcases hsettled with hlive | ⟨hclosed, refused, haccounted, hflagged⟩
    · exact ⟨(run limits calls).reads, [], (List.append_nil _).symm, hlive.reads, Nat.zero_le 1,
        fun _ hmember => nomatch hmember⟩
    · obtain ⟨accepted, hreads, hdecoded⟩ := haccounted.reads
      refine ⟨accepted, refused, hreads, hdecoded, haccounted.length_le, ?_⟩
      intro bytes hmember
      refine ⟨haccounted.violates bytes hmember, ?_⟩
      intro later
      have hlater : run limits (calls ++ later) = run limits calls := by
        rw [run, List.foldl_append]
        exact closed_foldl later hclosed
      rw [hlater]
      exact ⟨hflagged (List.ne_nil_of_mem hmember), rfl, rfl⟩

end Run

namespace Sample

def limits : Limits := ⟨34, 16, by decide, by decide⟩

-- `1 D 0 0`, `2 B 3 0`; then `3 E 4 0`, for another script, and `3 E 3 0`.
def wrongEnd : List Call :=
  [.packets [.datagram [49, 32, 68, 32, 48, 32, 48, 10],
      .datagram [50, 32, 66, 32, 51, 32, 48, 10], .again],
    .packets [.datagram [51, 32, 69, 32, 52, 32, 48, 10],
      .datagram [51, 32, 69, 32, 51, 32, 48, 10]]]

end Sample

theorem script_channel_records_dispatch_wrongEnd :
    (run Sample.limits Sample.wrongEnd).recorded.map Packet.action = [(.d, 0), (.b, 3)] ∧
      (run Sample.limits Sample.wrongEnd).flagged = true ∧
      (run Sample.limits Sample.wrongEnd).reads.length = 3 ∧
      Language Sample.limits (run Sample.limits Sample.wrongEnd).recorded ∧
      (run Sample.limits Sample.wrongEnd).reads <+: Sample.wrongEnd.flatMap Call.datagrams :=
  have htheorem := script_channel_records_dispatch Sample.limits Sample.wrongEnd
  ⟨by decide +kernel, by decide +kernel, by decide +kernel, htheorem.1, htheorem.2.1.1⟩

end NativeInitLab.Autoboot
