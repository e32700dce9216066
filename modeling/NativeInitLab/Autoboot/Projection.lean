import NativeInitLab.Autoboot.ScriptChannel

/-!
The host's view of the script channel: `script_sample` reads one record of the kernel log, and
`script_projection` looks for conflicts between the records that have survived.
-/

namespace NativeInitLab.Autoboot.Projection

/-- A packet as `script_sample` lets it through, for a profile with `count` scripts. -/
structure ScriptPacket (count : Nat) where
  packetSequence : Nat
  action : Kind
  scriptId : Nat
  status : Nat
  positive : 1 ≤ packetSequence
  capped : packetSequence ≤ 2 + 2 * count
  known : scriptId ≤ count
  named : scriptId ≠ 0 ↔ action = .b ∨ action = .e

inductive Sample (count : Nat)
  | setup (startedMs windowEndMs : Int)
  | childChannel
  | script (packet : ScriptPacket count)
  | parent (ordinal : Nat) (elapsedMs : Int) (scriptId : Nat) (scriptOpen : Bool) (packets : Nat)
  | summary (usedMs : Int) (packets flags : Nat) (dispatcherEnd : Bool) (parentRecords : Nat)

def actionOf (c : Nat) : Option Kind :=
  if c = 68 then some .d
  else if c = 66 then some .b
  else if c = 69 then some .e
  else if c = 88 then some .x
  else none

def packetSample (count : Nat) (value : Int) (error a b c d ms : Nat) : Option (ScriptPacket count) :=
  (actionOf c).bind fun action =>
    if h : error = 0 ∧ (1 ≤ a ∧ a ≤ 2 + 2 * count) ∧ b ≤ count ∧ d = 0 ∧ (0 ≤ value ∧ value ≤ 255) ∧
        ms < 300000 ∧ (action ≠ .e → value = 0) ∧ (b ≠ 0 ↔ action = .b ∨ action = .e) then
      some ⟨a, action, b, value.toNat, h.2.1.1, h.2.1.2, h.2.2.1, h.2.2.2.2.2.2.2⟩
    else none

def scriptDue : List Int := [250, 1000, 5000, 10000, 30000, 60000, 90000, 119000]

def scriptSample (count stage kind : Nat) (value : Int) (error a b c d ms : Nat) :
    Option (Sample count) :=
  if kind ≠ 4 then none
  else
    match stage with
    | 91 =>
      if 0 ≤ value ∧ value ≤ ms ∧ (a : Int) = min (value + 120000) 300000 ∧
          b = 0 ∧ c = 0 ∧ d = 0 then
        some (.setup value a)
      else none
    | 92 => if value = 0 ∧ a = 0 ∧ b = 0 ∧ c = 0 ∧ d = 0 then some .childChannel else none
    | 93 => (packetSample count value error a b c d ms).map .script
    | 94 =>
      if error = 0 ∧ 1 ≤ a ∧ a ≤ 8 ∧ scriptDue.getD (a - 1) 0 ≤ value ∧ value < 120000 ∧
          value ≤ ms ∧ b ≤ count ∧ c ≤ 1 ∧ d ≤ 2 + 2 * count ∧ (c ≠ 0 → b ≠ 0) then
        some (.parent a value b (c != 0) d)
      else none
    | 95 =>
      if error = 0 ∧ 0 ≤ value ∧ value ≤ 300000 ∧ a ≤ 2 + 2 * count ∧ b &&& 120 = b ∧ c ≤ 1 ∧
          d ≤ 8 then
        some (.summary value a b (c != 0) d)
      else none
    | _ => none

structure Record (count : Nat) where
  actorId : Nat
  sequence : Nat
  boottimeMs : Nat
  error : Nat
  priorLogLosses : Nat
  priorLogError : Nat
  scriptChannel : Option (Sample count)

/-- The texts of the conflicts, in the order of `sorted`. -/
inductive Issue
  | afterSummary
  | dispatcherOrder
  | failedSetupPackets
  | packetOrder
  | pairOrder
  | parentClock
  | parentOrder
  | recordCap
  | summaryDeficit
  | summaryEnd
  | window
  deriving DecidableEq

def Issue.all : List Issue :=
  [.afterSummary, .dispatcherOrder, .failedSetupPackets, .packetOrder, .pairOrder, .parentClock,
    .parentOrder, .recordCap, .summaryDeficit, .summaryEnd, .window]

def Issue.text : Issue → String
  | .afterSummary => "script_after_summary"
  | .dispatcherOrder => "script_dispatcher_order"
  | .failedSetupPackets => "script_failed_setup_packets"
  | .packetOrder => "script_packet_order"
  | .pairOrder => "script_pair_order"
  | .parentClock => "script_parent_clock"
  | .parentOrder => "script_parent_order"
  | .recordCap => "script_record_cap"
  | .summaryDeficit => "script_summary_deficit"
  | .summaryEnd => "script_summary_end"
  | .window => "script_window"

section Projection

variable {count : Nat}

def Record.atMost (r s : Record count) : Bool :=
  r.actorId < s.actorId || r.actorId == s.actorId && r.sequence ≤ s.sequence

def rows (records : List (Record count)) : List (Record count) :=
  (records.filter fun r => r.scriptChannel.isSome).mergeSort Record.atMost

def packetOf (r : Record count) : Option (ScriptPacket count) :=
  match r.scriptChannel with
  | some (.script packet) => some packet
  | _ => none

def setupOf (r : Record count) : Option (Record count × Int × Int) :=
  match r.scriptChannel with
  | some (.setup startedMs windowEndMs) => some (r, startedMs, windowEndMs)
  | _ => none

def parentOf (r : Record count) : Option (Record count × Nat × Int) :=
  match r.scriptChannel with
  | some (.parent ordinal elapsedMs ..) => some (r, ordinal, elapsedMs)
  | _ => none

structure Summary where
  sequence : Nat
  packets : Nat
  flags : Nat
  dispatcherEnd : Bool
  parentRecords : Nat

def summaryOf (r : Record count) : Option Summary :=
  match r.scriptChannel with
  | some (.summary _ packets flags dispatcherEnd parentRecords) =>
    some ⟨r.sequence, packets, flags, dispatcherEnd, parentRecords⟩
  | _ => none

structure Loop where
  issues : List Issue := []
  gap : Bool := false
  previous : Nat := 0
  opened : Nat := 0
  identifier : Nat := 0
  ended : Bool := false

def issueIf (condition : Bool) (issue : Issue) : List Issue := if condition then [issue] else []

def Loop.step (s : Loop) (p : ScriptPacket count) : Loop :=
  let next := p.packetSequence == s.previous + 1
  let s := { s with
    issues := s.issues ++ issueIf (p.packetSequence ≤ s.previous || s.ended) .packetOrder
    gap := s.gap || !next
    previous := p.packetSequence }
  match p.action with
  | .d => { s with issues := s.issues ++ issueIf (p.packetSequence != 1) .dispatcherOrder }
  | .b =>
    { s with
      issues := s.issues ++ issueIf (next && s.opened != 0 || p.scriptId ≤ s.identifier) .pairOrder
      opened := p.scriptId
      identifier := p.scriptId }
  | .e =>
    { s with
      issues := s.issues ++ issueIf (next && s.opened != p.scriptId) .pairOrder
      opened := 0
      identifier := p.scriptId }
  | .x =>
    { s with issues := s.issues ++ issueIf (next && s.opened != 0) .pairOrder, ended := true }

def setupIssues (packetRows : List (Record count)) (parents : List (Record count × Nat × Int)) :
    Record count × Int × Int → List Issue
  | (setup, start, stop) =>
    (packetRows ++ parents.map Prod.fst).flatMap (fun r =>
      issueIf (r.sequence ≤ setup.sequence ||
        !(start ≤ r.boottimeMs && (r.boottimeMs : Int) < stop)) .window) ++
    parents.flatMap (fun p => issueIf ((p.1.boottimeMs : Int) - start < p.2.2) .parentClock) ++
    issueIf (setup.error != 0 && !packetRows.isEmpty) .failedSetupPackets

def parentIssues : List (Record count × Nat × Int) → List Issue
  | p :: q :: rest => issueIf (q.2.1 ≤ p.2.1) .parentOrder ++ parentIssues (q :: rest)
  | _ => []

def summaryIssues (packetRows : List (Record count)) (parents : List (Record count × Nat × Int))
    (ended : Bool) (summary : Summary) : List Issue :=
  issueIf ((packetRows ++ parents.map Prod.fst).any fun r => summary.sequence ≤ r.sequence)
      .afterSummary ++
    issueIf (summary.packets < packetRows.length || summary.parentRecords < parents.length)
      .summaryDeficit ++
    issueIf (ended && !summary.dispatcherEnd) .summaryEnd

def exactPackets (count : Nat) : List (Kind × Nat × Nat) :=
  (.d, 0, 0) :: (List.range' 1 count).flatMap (fun i => [(.b, i, 0), (.e, i, 0)]) ++ [(.x, 0, 0)]

structure View (count : Nat) where
  packets : List (ScriptPacket count)
  conflicts : List String
  packetGapDetected : Bool
  dispatcherExecObserved : Bool
  completeChannelObserved : Bool

def scriptProjection (records : List (Record count)) : View count :=
  let rows := rows records
  let packetRows := rows.filter fun r => (packetOf r).isSome
  let packets := rows.filterMap packetOf
  let setups := rows.filterMap setupOf
  let summaries := rows.filterMap summaryOf
  let parents := rows.filterMap parentOf
  let loop := packets.foldl Loop.step {}
  let issues :=
    issueIf (1 < setups.length || 1 < summaries.length || 8 < parents.length ||
      2 + 2 * count < packets.length) .recordCap ++ loop.issues ++
    (setups.head?.map (setupIssues packetRows parents)).getD [] ++ parentIssues parents ++
    (summaries.head?.map (summaryIssues packetRows parents loop.ended)).getD []
  let ordered := packets.map fun p =>
    (p.action, p.scriptId, if p.action = .e then 0 else p.status)
  { packets := packets
    conflicts := (Issue.all.filter issues.contains).map Issue.text
    packetGapDetected := loop.gap
    dispatcherExecObserved := packets.any fun p => p.action == .d
    completeChannelObserved :=
      issues.isEmpty && !loop.gap && (match setups, summaries with
        | [setup], [summary] =>
          setup.1.error == 0 && summary.flags == 0 && summary.packets == 2 + 2 * count &&
            summary.dispatcherEnd && ordered == exactPackets count &&
            !rows.any fun r => r.priorLogLosses != 0 || r.priorLogError != 0
        | _, _ => false) }

end Projection

/-! What a run of the dispatcher can have recorded. -/

/-- A prefix of a dispatch, numbered from one, with the packets at their own numbers. -/
structure Survivors {count : Nat} (packets : List (ScriptPacket count)) (legal : List (Kind × Nat)) :
    Prop where
  shape : ∃ ids : List Nat, (0 :: ids).Pairwise (· < ·) ∧ (∀ id ∈ ids, id ≤ count) ∧
    legal <+: dispatch ids
  order : packets.Pairwise fun p q => p.packetSequence < q.packetSequence
  place : ∀ p ∈ packets, legal[p.packetSequence - 1]? = some (p.action, p.scriptId)

def Legal {count : Nat} (packets : List (ScriptPacket count)) : Prop :=
  ∃ legal, Survivors packets legal

structure Point where
  number : Nat
  action : Kind
  id : Nat

def Point.start : Point := ⟨0, .d, 0⟩

def ScriptPacket.point {count : Nat} (p : ScriptPacket count) : Point :=
  ⟨p.packetSequence, p.action, p.scriptId⟩

@[simp] theorem point_number {count : Nat} (p : ScriptPacket count) :
    p.point.number = p.packetSequence := rfl

@[simp] theorem point_action {count : Nat} (p : ScriptPacket count) : p.point.action = p.action := rfl

@[simp] theorem point_id {count : Nat} (p : ScriptPacket count) : p.point.id = p.scriptId := rfl

structure Follows (q r : Point) : Prop where
  number : q.number < r.number
  unended : q.action ≠ .x
  dispatcher : r.action = .d → r.number = 1
  begins : r.action = .b → (r.number = q.number + 1 → q.action ≠ .b) ∧ q.id < r.id
  ends : r.action = .e → r.number = q.number + 1 → q.action = .b ∧ q.id = r.id
  leaves : r.action = .x → r.number = q.number + 1 → q.action ≠ .b

/-- What is not: the first packet is the dispatcher's, the numbers tell a begin from an end, and
there are identifiers enough for the pairs that are missing. -/
structure Numbered (count : Nat) (q r : Point) : Prop where
  first : r.number = 1 → r.action = .d
  even : r.action = .b ∨ r.action = .x → r.number % 2 = 0
  odd : r.action = .e → r.number % 2 = 1
  room : r.action = .b ∨ r.action = .e → q.number / 2 < r.number / 2 →
    q.id + (r.number / 2 - q.number / 2) ≤ r.id
  rest : r.action = .x → q.id + (r.number / 2 - 1 - q.number / 2) ≤ count

def points {count : Nat} (packets : List (ScriptPacket count)) : List Point :=
  .start :: packets.map ScriptPacket.point

/-! The loop tests that each packet follows the one before it. -/

section Loop

variable {count : Nat} {q : Point} {s : Loop}

theorem issueIf_eq_nil {condition : Bool} {issue : Issue} :
    issueIf condition issue = [] ↔ condition = false := by
  cases condition <;> simp [issueIf]

structure Matches (q : Point) (s : Loop) : Prop where
  clean : s.issues = []
  previous : s.previous = q.number
  ended : s.ended = true ↔ q.action = .x
  opened : q.action ≠ .x → s.opened = if q.action = .b then q.id else 0
  identifier : q.action ≠ .x → s.identifier = q.id
  named : q.action = .b → q.id ≠ 0
  blank : q.number = 0 → q = .start

theorem Matches.opened_eq_zero (hmatches : Matches q s) (hunended : q.action ≠ .x) :
    s.opened = 0 ↔ q.action ≠ .b := by
  rw [hmatches.opened hunended]
  split
  case isTrue hbegan => simp [hbegan, hmatches.named hbegan]
  case isFalse hbegan => simp [hbegan]

theorem step_issues (s : Loop) (p : ScriptPacket count) :
    ∃ more, (s.step p).issues = s.issues ++ more := by
  unfold Loop.step
  cases p.action with
  | _ => exact ⟨_, List.append_assoc ..⟩

theorem foldl_issues (packets : List (ScriptPacket count)) (s : Loop) :
    ∃ more, (packets.foldl Loop.step s).issues = s.issues ++ more := by
  induction packets generalizing s with
  | nil => exact ⟨[], (List.append_nil _).symm⟩
  | cons p packets ih =>
    obtain ⟨first, hfirst⟩ := step_issues s p
    obtain ⟨more, hmore⟩ := ih (s.step p)
    exact ⟨first ++ more, by rw [List.foldl_cons, hmore, hfirst, List.append_assoc]⟩

theorem step_clean_iff (hmatches : Matches q s) (p : ScriptPacket count) :
    (s.step p).issues = [] ↔ Follows q p.point := by
  by_cases hunended : q.action = .x
  · have hended : s.ended = true := hmatches.ended.mpr hunended
    constructor
    · intro hclean
      cases haction : p.action with
      | _ => simp [Loop.step, haction, hmatches.clean, issueIf, hended] at hclean
    · intro hfollows
      exact absurd hunended hfollows.unended
  · have hended : s.ended = false := by simpa [hunended] using mt hmatches.ended.mp hunended
    have hopened := hmatches.opened_eq_zero hunended
    have hidentifier := hmatches.identifier hunended
    have hnamed := p.named
    cases haction : p.action with
    | d =>
      simp only [Loop.step, haction, hmatches.clean, hmatches.previous, hended, List.nil_append,
        List.append_eq_nil_iff, issueIf_eq_nil]
      constructor
      · rintro ⟨horder, hfirst⟩
        exact ⟨by simpa using horder, hunended, fun _ => by simpa using hfirst,
          by simp [haction], by simp [haction],
          by simp [haction]⟩
      · intro hfollows
        exact ⟨by simpa using hfollows.number, by simpa using hfollows.dispatcher haction⟩
    | b =>
      simp only [Loop.step, haction, hmatches.clean, hmatches.previous, hended, List.nil_append,
        List.append_eq_nil_iff, issueIf_eq_nil, hidentifier]
      constructor
      · rintro ⟨horder, hpair⟩
        simp only [Bool.or_eq_false_iff, Bool.and_eq_false_iff] at hpair
        refine ⟨by simpa using horder, hunended, by simp [haction],
          fun _ => ⟨fun hnext => hopened.mp ?_, by simpa using hpair.2⟩,
          by simp [haction], by simp [haction]⟩
        have hnext' : p.packetSequence = q.number + 1 := hnext
        simpa [hnext'] using hpair.1
      · intro hfollows
        obtain ⟨hpair, hid⟩ := hfollows.begins haction
        refine ⟨by simpa using hfollows.number, ?_⟩
        by_cases hnext : p.packetSequence = q.number + 1
        · have hid' : q.id < p.scriptId := hid
          simp [hopened.mpr (hpair hnext), hid']
        · have hid' : q.id < p.scriptId := hid
          simp [hnext, hid']
    | e =>
      have hid : p.scriptId ≠ 0 := hnamed.mpr (.inr haction)
      have hsame : s.opened = p.scriptId ↔ q.action = .b ∧ q.id = p.scriptId := by
        rw [hmatches.opened hunended]
        split
        case isTrue hbegan => simp [hbegan]
        case isFalse hbegan => simp [hbegan, Ne.symm hid]
      simp only [Loop.step, haction, hmatches.clean, hmatches.previous, hended, List.nil_append,
        List.append_eq_nil_iff, issueIf_eq_nil]
      constructor
      · rintro ⟨horder, hpair⟩
        refine ⟨by simpa using horder, hunended, by simp [haction],
          by simp [haction], fun _ hnext => hsame.mp ?_,
          by simp [haction]⟩
        have hnext' : p.packetSequence = q.number + 1 := hnext
        simpa [hnext'] using hpair
      · intro hfollows
        refine ⟨by simpa using hfollows.number, ?_⟩
        by_cases hnext : p.packetSequence = q.number + 1
        · simp [hsame.mpr (hfollows.ends haction hnext)]
        · simp [hnext]
    | x =>
      simp only [Loop.step, haction, hmatches.clean, hmatches.previous, hended, List.nil_append,
        List.append_eq_nil_iff, issueIf_eq_nil]
      constructor
      · rintro ⟨horder, hpair⟩
        refine ⟨by simpa using horder, hunended, by simp [haction],
          by simp [haction], by simp [haction],
          fun _ hnext => hopened.mp ?_⟩
        have hnext' : p.packetSequence = q.number + 1 := hnext
        simpa [hnext'] using hpair
      · intro hfollows
        refine ⟨by simpa using hfollows.number, ?_⟩
        by_cases hnext : p.packetSequence = q.number + 1
        · simp [hopened.mpr (hfollows.leaves haction hnext)]
        · simp [hnext]

theorem Matches.step (hmatches : Matches q s) {p : ScriptPacket count}
    (hfollows : Follows q p.point) : Matches p.point (s.step p) := by
  have hclean := (step_clean_iff hmatches p).mpr hfollows
  have hunended := hfollows.unended
  have hended : s.ended = false := by simpa using mt hmatches.ended.mp hunended
  have hidentifier := hmatches.identifier hunended
  have hopened := hmatches.opened hunended
  have hnamed : p.action = .b → p.scriptId ≠ 0 := fun haction => p.named.mpr (.inl haction)
  have hblank : p.packetSequence = 0 → p.point = .start := fun hzero =>
    absurd hzero (Nat.ne_of_gt p.positive)
  cases haction : p.action with
  | d =>
    have hfirst : p.packetSequence = 1 := hfollows.dispatcher haction
    have hstart : q = .start := hmatches.blank (by
      have : q.number < p.packetSequence := hfollows.number
      omega)
    have hid : p.scriptId = 0 := by simpa [haction] using p.named
    subst hstart
    exact ⟨hclean, by simp [Loop.step, haction],
      by simp [Loop.step, haction, hended],
      by simpa [Loop.step, haction, Point.start] using hopened,
      by simpa [Loop.step, haction, hid, Point.start] using hidentifier,
      hnamed, hblank⟩
  | b =>
    exact ⟨hclean, by simp [Loop.step, haction],
      by simp [Loop.step, haction, hended],
      by simp [Loop.step, haction],
      by simp [Loop.step, haction], hnamed, hblank⟩
  | e =>
    exact ⟨hclean, by simp [Loop.step, haction],
      by simp [Loop.step, haction, hended],
      by simp [Loop.step, haction],
      by simp [Loop.step, haction], hnamed, hblank⟩
  | x =>
    exact ⟨hclean, by simp [Loop.step, haction],
      by simp [Loop.step, haction],
      by simp [haction], by simp [haction], hnamed, hblank⟩

theorem loop_clean_iff (hmatches : Matches q s) (packets : List (ScriptPacket count)) :
    (packets.foldl Loop.step s).issues = [] ↔
      List.IsChain Follows (q :: packets.map ScriptPacket.point) := by
  induction packets generalizing q s with
  | nil => simp [hmatches.clean]
  | cons p packets ih =>
    rw [List.foldl_cons, List.map_cons, List.isChain_cons_cons]
    constructor
    · intro hclean
      obtain ⟨more, hmore⟩ := foldl_issues packets (s.step p)
      rw [hclean] at hmore
      have hfollows := (step_clean_iff hmatches p).mp (List.append_eq_nil_iff.mp hmore.symm).1
      exact ⟨hfollows, (ih (hmatches.step hfollows)).mp hclean⟩
    · rintro ⟨hfollows, hchain⟩
      exact (ih (hmatches.step hfollows)).mpr hchain

theorem length_le_of_chain {packets : List (ScriptPacket count)} (hq : q.number ≤ 2 + 2 * count)
    (hchain : List.IsChain Follows (q :: packets.map ScriptPacket.point)) :
    q.number + packets.length ≤ 2 + 2 * count := by
  induction packets generalizing q with
  | nil => exact hq
  | cons p packets ih =>
    rw [List.map_cons, List.isChain_cons_cons] at hchain
    have hnumber : q.number < p.packetSequence := hchain.1.number
    have hlater : p.packetSequence + packets.length ≤ 2 + 2 * count := ih p.capped hchain.2
    rw [List.length_cons]
    omega

end Loop

section Dispatch

variable {count : Nat} {ids : List Nat} {q r : Point}

def Sits (ids : List Nat) (q : Point) : Prop :=
  match q.action with
  | .d => q.number = 1 ∧ q.id = 0
  | .b => ∃ k, q.number = 2 * k + 2 ∧ ids[k]? = some q.id
  | .e => ∃ k, q.number = 2 * k + 3 ∧ ids[k]? = some q.id
  | .x => q.number = 2 * ids.length + 2 ∧ q.id = 0

theorem scripts_at (ids : List Nat) (k : Nat) :
    (scripts ids)[2 * k]? = ids[k]?.map (Kind.b, ·) ∧
      (scripts ids)[2 * k + 1]? = ids[k]?.map (Kind.e, ·) := by
  induction ids generalizing k with
  | nil => simp [scripts]
  | cons id ids ih =>
    cases k with
    | zero => simp [scripts]
    | succ k => simpa [scripts, Nat.mul_add] using ih k

theorem length_scripts (ids : List Nat) : (scripts ids).length = 2 * ids.length := by
  induction ids with
  | nil => rfl
  | cons id ids ih => simp [scripts, Nat.mul_add] at ih ⊢; omega

theorem sits_cases (hr : Sits ids r) : r.action = .d ∧ r.number = 1 ∧ r.id = 0 ∨
      (∃ k, r.action = .b ∧ r.number = 2 * k + 2 ∧ ids[k]? = some r.id) ∨
      (∃ k, r.action = .e ∧ r.number = 2 * k + 3 ∧ ids[k]? = some r.id) ∨
      r.action = .x ∧ r.number = 2 * ids.length + 2 ∧ r.id = 0 := by
  unfold Sits at hr
  cases haction : r.action with
  | _ => simpa [haction] using hr

theorem sits_number (hr : Sits ids r) :
    r.action = .d ∧ r.number = 1 ∨ r.action = .b ∧ r.number % 2 = 0 ∧ 2 ≤ r.number ∨
      r.action = .e ∧ r.number % 2 = 1 ∧ 3 ≤ r.number ∨
      r.action = .x ∧ r.number = 2 * ids.length + 2 := by
  rcases sits_cases hr with h | ⟨k, haction, hnumber, -⟩ | ⟨k, haction, hnumber, -⟩ | h
  · exact .inl ⟨h.1, h.2.1⟩
  · exact .inr (.inl ⟨haction, by omega, by omega⟩)
  · exact .inr (.inr (.inl ⟨haction, by omega, by omega⟩))
  · exact .inr (.inr (.inr ⟨h.1, h.2.1⟩))

theorem number_le_of_sits (hr : Sits ids r) : r.number ≤ 2 * ids.length + 2 := by
  rcases sits_cases hr with h | ⟨k, -, hnumber, hid⟩ | ⟨k, -, hnumber, hid⟩ | h
  · omega
  · have := (List.getElem?_eq_some_iff.mp hid).1
    omega
  · have := (List.getElem?_eq_some_iff.mp hid).1
    omega
  · exact Nat.le_of_eq h.2.1

theorem dispatch_at {n id : Nat} {action : Kind} (hn : 1 ≤ n) :
    (dispatch ids)[n - 1]? = some (action, id) ↔ Sits ids ⟨n, action, id⟩ := by
  have hlength := length_scripts ids
  by_cases hone : n = 1
  · subst hone
    cases action with
    | _ => simp [dispatch, Sits, eq_comm]
  obtain ⟨m, rfl⟩ : ∃ m, n = m + 2 := ⟨n - 2, by omega⟩
  show (scripts ids ++ [(Kind.x, 0)])[m]? = some (action, id) ↔ _
  by_cases hinside : m < 2 * ids.length
  · rw [List.getElem?_append_left (by omega)]
    obtain ⟨k, rfl | rfl⟩ := Nat.even_or_odd' m
    · rw [(scripts_at ids k).1]
      cases action with
      | d | b => simp [Sits]
      | e =>
        refine iff_of_false (by simp) fun hsits => ?_
        have := sits_number hsits
        simp at this
      | x =>
        refine iff_of_false (by simp) fun hsits => ?_
        have := sits_number hsits
        simp at this
        omega
    · rw [(scripts_at ids k).2]
      cases action with
      | d => simp [Sits]
      | b =>
        refine iff_of_false (by simp) fun hsits => ?_
        have := sits_number hsits
        simp at this
      | e => simp [Sits]
      | x =>
        refine iff_of_false (by simp) fun hsits => ?_
        have := sits_number hsits
        simp at this
        omega
  · rw [List.getElem?_append_right (by omega), hlength]
    by_cases hend : m = 2 * ids.length
    · subst hend
      cases action with
      | d | b => simp [Sits]
      | e =>
        refine iff_of_false (by simp) fun hsits => ?_
        have := sits_number hsits
        simp at this
      | x => simp [Sits, eq_comm]
    · rw [List.getElem?_eq_none (by simp; omega)]
      refine iff_of_false (by simp) fun hsits => ?_
      have hle : m + 2 ≤ 2 * ids.length + 2 := number_le_of_sits hsits
      omega

theorem spread {l : List Nat} (hl : l.Pairwise (· < ·)) {j k a b : Nat} (hj : l[j]? = some a)
    (hk : l[k]? = some b) (hjk : j ≤ k) : a + (k - j) ≤ b := by
  induction k, hjk using Nat.le_induction generalizing b with
  | base =>
    rw [hj] at hk
    simp [Option.some.inj hk]
  | succ k hjk ih =>
    obtain ⟨hlt, hvalue⟩ := List.getElem?_eq_some_iff.mp hk
    have hprior : l[k]? = some l[k] := List.getElem?_eq_getElem (by omega)
    have hstep : l[k] < l[k + 1] := List.pairwise_iff_getElem.mp hl k (k + 1) _ _ (by omega)
    have := ih hprior
    omega

theorem level (hq : q = .start ∨ Sits ids q) (hunended : q.action ≠ .x) :
    (0 :: ids)[q.number / 2]? = some q.id := by
  rcases hq with rfl | hsits
  · rfl
  · rcases sits_cases hsits with h | ⟨k, -, hnumber, hid⟩ | ⟨k, -, hnumber, hid⟩ | h
    · rw [h.2.1, h.2.2]
      rfl
    · rw [hnumber, show (2 * k + 2) / 2 = k + 1 by omega]
      exact hid
    · rw [hnumber, show (2 * k + 3) / 2 = k + 1 by omega]
      exact hid
    · exact absurd h.1 hunended

theorem start_or_sits_number (hq : q = .start ∨ Sits ids q) :
    (q.action = .b → q.number % 2 = 0 ∧ 2 ≤ q.number) ∧
      (q.number % 2 = 0 → 2 ≤ q.number → q.action ≠ .x → q.action = .b) ∧
      (q.action = .x → q.number = 2 * ids.length + 2) := by
  rcases hq with rfl | hsits
  · exact ⟨nofun, fun _ h => absurd h (by decide), nofun⟩
  · rcases sits_number hsits with h | h | h | h
    · exact ⟨by simp [h.1], fun heven => absurd heven (by omega), by simp [h.1]⟩
    · exact ⟨fun _ => h.2, fun _ _ _ => h.1, by simp [h.1]⟩
    · exact ⟨by simp [h.1], fun heven => absurd heven (by omega), by simp [h.1]⟩
    · exact ⟨by simp [h.1], fun _ _ hunended => absurd h.1 hunended, fun _ => h.2⟩

theorem between (hids : (0 :: ids).Pairwise (· < ·)) (hbound : ∀ id ∈ ids, id ≤ count)
    (hq : q = .start ∨ Sits ids q) (hr : Sits ids r) (hlt : q.number < r.number) :
    Follows q r ∧ Numbered count q r := by
  obtain ⟨hbegan, hopen, hended⟩ := start_or_sits_number hq
  have hunended : q.action ≠ .x := by
    intro hx
    have := hended hx
    have := number_le_of_sits hr
    omega
  have hlevel := level hq hunended
  have hgrows (hleft : r.action ≠ .x) : q.id + (r.number / 2 - q.number / 2) ≤ r.id :=
    spread hids hlevel (level (.inr hr) hleft) (by omega)
  rcases sits_number hr with h | h | h | h
  · have haction := h.1
    exact ⟨⟨hlt, hunended, fun _ => h.2, by simp [haction], by simp [haction], by simp [haction]⟩,
      ⟨fun _ => haction, by simp [haction], by simp [haction], by simp [haction], by simp [haction]⟩⟩
  · have haction := h.1
    have hid := hgrows (by simp [haction])
    refine ⟨⟨hlt, hunended, by simp [haction], fun _ => ⟨fun hnext hb => ?_, by omega⟩,
      by simp [haction], by simp [haction]⟩,
      ⟨fun hone => absurd hone (by omega), fun _ => h.2.1, by simp [haction], fun _ _ => hid,
        by simp [haction]⟩⟩
    have := (hbegan hb).1
    omega
  · have haction := h.1
    have hid := hgrows (by simp [haction])
    refine ⟨⟨hlt, hunended, by simp [haction], by simp [haction], fun _ hnext => ?_,
      by simp [haction]⟩,
      ⟨fun hone => absurd hone (by omega), by simp [haction], fun _ => h.2.1, fun _ _ => hid,
        by simp [haction]⟩⟩
    have hother := level (.inr hr) (by simp [haction])
    rw [show r.number / 2 = q.number / 2 by omega, hlevel] at hother
    exact ⟨hopen (by omega) (by omega) hunended, Option.some.inj hother⟩
  · have haction := h.1
    refine ⟨⟨hlt, hunended, by simp [haction], by simp [haction], by simp [haction],
      fun _ hnext hb => ?_⟩,
      ⟨fun hone => absurd hone (by omega), fun _ => by omega, by simp [haction], by simp [haction],
        fun _ => ?_⟩⟩
    · have := (hbegan hb).1
      omega
    · obtain ⟨hlength, -⟩ := List.getElem?_eq_some_iff.mp hlevel
      have hlast : (0 :: ids)[ids.length]? = some ((0 :: ids)[ids.length]) :=
        List.getElem?_eq_getElem (by simp)
      have hspread := spread hids hlevel hlast (by omega)
      have hcount : (0 :: ids)[ids.length] ≤ count := by
        rcases List.mem_cons.mp (List.getElem_mem (l := 0 :: ids) (n := ids.length) (by simp)) with
          hzero | hmem
        · rw [hzero]
          exact Nat.zero_le _
        · exact hbound _ hmem
      rw [h.2, show (2 * ids.length + 2) / 2 - 1 = ids.length by omega]
      exact hspread.trans hcount

end Dispatch

/-! Packets that pass every test and have the numbers of a dispatch leave room for the others. -/

section Completion

variable {count : Nat} {q r : Point}

structure Completes (count : Nat) (q : Point) (points : List Point) (ids : List Nat) : Prop where
  increases : (q.id :: ids).Pairwise (· < ·)
  bounded : ∀ id ∈ ids, id ≤ count
  sits : ∀ front : List Nat, front.length = q.number / 2 →
    (0 :: front)[q.number / 2]? = some q.id → ∀ r ∈ points, Sits (front ++ ids) r

/-- The tests and the numbers, together. -/
def Links (count : Nat) (q r : Point) : Prop := Follows q r ∧ Numbered count q r

theorem links_iff {l : List Point} : List.IsChain (Links count) l ↔
    List.IsChain Follows l ∧ List.IsChain (Numbered count) l := by
  induction l with
  | nil => simp
  | cons q l ih =>
    cases l with
    | nil => simp
    | cons r l =>
      simp only [List.isChain_cons_cons, ih, Links]
      tauto

theorem sits_of_last {front ids : List Nat}
    (haction : r.action = .b ∧ r.number % 2 = 0 ∨ r.action = .e ∧ r.number % 2 = 1)
    (hpair : 1 ≤ r.number / 2) (hlength : front.length = r.number / 2)
    (hlast : (0 :: front)[r.number / 2]? = some r.id) : Sits (front ++ ids) r := by
  obtain ⟨level, hnumber⟩ : ∃ level, r.number / 2 = level + 1 := ⟨r.number / 2 - 1, by omega⟩
  rw [hnumber, List.getElem?_cons_succ] at hlast
  have hid : (front ++ ids)[level]? = some r.id := by
    rw [List.getElem?_append_left (by omega)]
    exact hlast
  unfold Sits
  rcases haction with ⟨haction, hparity⟩ | ⟨haction, hparity⟩
  · rw [haction]
    exact ⟨level, by omega, hid⟩
  · rw [haction]
    exact ⟨level, by omega, hid⟩

/-- Scripts that have left no packet take the identifiers after the last one. -/
theorem Completes.jump {points : List Point} {ids : List Nat}
    (hcompletes : Completes count r points ids)
    (haction : r.action = .b ∧ r.number % 2 = 0 ∨ r.action = .e ∧ r.number % 2 = 1)
    (hlater : q.number / 2 < r.number / 2)
    (hroom : q.id + (r.number / 2 - q.number / 2) ≤ r.id) (hcount : r.id ≤ count) :
    Completes count q (r :: points)
      (List.range' (q.id + 1) (r.number / 2 - q.number / 2 - 1) ++ r.id :: ids) := by
  generalize hgap : r.number / 2 - q.number / 2 - 1 = gap
  have hgap' : q.id + gap < r.id := by omega
  refine ⟨?_, ?_, ?_⟩
  · rw [← List.cons_append, List.pairwise_append]
    refine ⟨?_, hcompletes.increases, ?_⟩
    · show (List.range' q.id (gap + 1)).Pairwise (· < ·)
      exact List.pairwise_lt_range' 1
    · intro first hfirst second hsecond
      have hlow : first < r.id := by
        rcases List.mem_cons.mp hfirst with rfl | hmem
        · omega
        · have := List.mem_range'_1.mp hmem
          omega
      rcases List.mem_cons.mp hsecond with rfl | hmem
      · exact hlow
      · exact hlow.trans ((List.pairwise_cons.mp hcompletes.increases).1 second hmem)
  · intro id hid
    rcases List.mem_append.mp hid with hmem | hmem
    · have := List.mem_range'_1.mp hmem
      omega
    · rcases List.mem_cons.mp hmem with rfl | hmem
      · exact hcount
      · exact hcompletes.bounded id hmem
  · intro front hlength _ s hs
    have hfull : (front ++ List.range' (q.id + 1) gap ++ [r.id]).length = r.number / 2 := by
      simp only [List.length_append, List.length_range', List.length_singleton]
      omega
    have hlast : (0 :: (front ++ List.range' (q.id + 1) gap ++ [r.id]))[r.number / 2]? = some r.id := by
      rw [← hfull, List.length_append, List.length_singleton, List.getElem?_cons_succ,
        List.getElem?_append_right (Nat.le_refl _), Nat.sub_self]
      rfl
    have hassoc : front ++ (List.range' (q.id + 1) gap ++ r.id :: ids) =
        front ++ List.range' (q.id + 1) gap ++ [r.id] ++ ids := by
      simp
    rw [hassoc]
    rcases List.mem_cons.mp hs with rfl | hmem
    · exact sits_of_last haction (by omega) hfull hlast
    · exact hcompletes.sits _ hfull hlast s hmem

theorem complete {points : List Point} (hchain : List.IsChain (Links count) (q :: points))
    (hblank : q.number = 0 → q = .start)
    (hpoints : ∀ r ∈ points, r.id ≤ count ∧ (r.action = .d ∨ r.action = .x → r.id = 0)) :
    ∃ ids, Completes count q points ids := by
  induction points generalizing q with
  | nil => exact ⟨[], ⟨List.pairwise_singleton .., nofun, fun _ _ _ _ h => absurd h List.not_mem_nil⟩⟩
  | cons r points ih =>
    rw [List.isChain_cons_cons] at hchain
    obtain ⟨⟨hfollows, hnumbered⟩, hrest⟩ := hchain
    have hnumber := hfollows.number
    obtain ⟨hcount, hunnamed⟩ := hpoints r List.mem_cons_self
    obtain ⟨ids, hcompletes⟩ := ih hrest (fun hzero => absurd hzero (by omega))
      fun s hs => hpoints s (List.mem_cons_of_mem _ hs)
    cases haction : r.action with
    | d =>
      have hone := hfollows.dispatcher haction
      have hstart := hblank (by omega)
      have hid : r.id = 0 := hunnamed (.inl haction)
      subst hstart
      refine ⟨ids, ⟨by simpa [hid, Point.start] using hcompletes.increases, hcompletes.bounded, ?_⟩⟩
      intro front hlength hlast s hs
      rcases List.mem_cons.mp hs with rfl | hmem
      · unfold Sits
        rw [haction]
        exact ⟨hone, hid⟩
      · refine hcompletes.sits front ?_ ?_ s hmem
        · rw [hone]
          exact hlength
        · rw [hone, hid]
          exact hlast
    | b =>
      have heven := hnumbered.even (.inl haction)
      exact ⟨_, hcompletes.jump (.inl ⟨haction, heven⟩) (by omega)
        (hnumbered.room (.inl haction) (by omega)) hcount⟩
    | e =>
      have hodd := hnumbered.odd haction
      by_cases hlater : q.number / 2 < r.number / 2
      · exact ⟨_, hcompletes.jump (.inr ⟨haction, hodd⟩) hlater
          (hnumbered.room (.inr haction) hlater) hcount⟩
      · obtain ⟨hbegan, hid⟩ := hfollows.ends haction (by omega)
        have hfirst : r.number ≠ 1 := fun hone => by
          rw [hnumbered.first hone] at haction
          cases haction
        have hsame : r.number / 2 = q.number / 2 := by omega
        refine ⟨ids, ⟨by rw [hid]; exact hcompletes.increases, hcompletes.bounded, ?_⟩⟩
        intro front hlength hlast s hs
        rw [hid, ← hsame] at hlast
        rw [← hsame] at hlength
        rcases List.mem_cons.mp hs with rfl | hmem
        · exact sits_of_last (.inr ⟨haction, hodd⟩) (by omega) hlength hlast
        · exact hcompletes.sits front hlength hlast s hmem
    | x =>
      have heven := hnumbered.even (.inr haction)
      have hroom := hnumbered.rest haction
      have hlast : points = [] := by
        cases points with
        | nil => rfl
        | cons s points =>
          rw [List.isChain_cons_cons] at hrest
          exact absurd haction hrest.1.1.unended
      subst hlast
      refine ⟨List.range' (q.id + 1) (r.number / 2 - 1 - q.number / 2), ⟨?_, ?_, ?_⟩⟩
      · show (List.range' q.id (r.number / 2 - 1 - q.number / 2 + 1)).Pairwise (· < ·)
        exact List.pairwise_lt_range' 1
      · intro id hid
        have := List.mem_range'_1.mp hid
        omega
      · intro front hlength _ s hs
        rw [List.mem_singleton.mp hs]
        unfold Sits
        rw [haction]
        refine ⟨?_, hunnamed (.inr haction)⟩
        rw [List.length_append, List.length_range']
        omega

end Completion

section Exact

variable {count : Nat} {packets : List (ScriptPacket count)}

theorem sits_of_survivors {legal : List (Kind × Nat)} {ids : List Nat}
    (hlegal : legal <+: dispatch ids)
    (hplace : ∀ p ∈ packets, legal[p.packetSequence - 1]? = some (p.action, p.scriptId)) :
    ∀ p ∈ packets, Sits ids p.point := by
  intro p hp
  obtain ⟨more, hmore⟩ := hlegal
  have hinside := hplace p hp
  refine (dispatch_at p.positive).mp ?_
  rw [← hmore, List.getElem?_append_left (List.getElem?_eq_some_iff.mp hinside).1]
  exact hinside

theorem chain_of_sits {ids : List Nat} (hids : (0 :: ids).Pairwise (· < ·))
    (hbound : ∀ id ∈ ids, id ≤ count) {q : Point} (hq : q = .start ∨ Sits ids q)
    (hsits : ∀ p ∈ packets, Sits ids p.point) (hfirst : ∀ p ∈ packets, q.number < p.packetSequence)
    (horder : packets.Pairwise fun p q => p.packetSequence < q.packetSequence) :
    List.IsChain (Links count) (q :: packets.map ScriptPacket.point) := by
  induction packets generalizing q with
  | nil => exact List.isChain_singleton _
  | cons p packets ih =>
    obtain ⟨hlater, horder⟩ := List.pairwise_cons.mp horder
    have hp := hsits p List.mem_cons_self
    rw [List.map_cons, List.isChain_cons_cons]
    exact ⟨between hids hbound hq hp (hfirst p List.mem_cons_self),
      ih (.inr hp) (fun r hr => hsits r (List.mem_cons_of_mem _ hr)) hlater horder⟩

theorem order_of_chain {q : Point}
    (hchain : List.IsChain Follows (q :: packets.map ScriptPacket.point)) :
    (∀ p ∈ packets, q.number < p.packetSequence) ∧
      packets.Pairwise fun p q => p.packetSequence < q.packetSequence := by
  induction packets generalizing q with
  | nil => exact ⟨nofun, .nil⟩
  | cons p packets ih =>
    rw [List.map_cons, List.isChain_cons_cons] at hchain
    obtain ⟨hlater, horder⟩ := ih hchain.2
    have hnumber : q.number < p.packetSequence := hchain.1.number
    refine ⟨fun r hr => ?_, List.pairwise_cons.mpr ⟨hlater, horder⟩⟩
    rcases List.mem_cons.mp hr with rfl | hmem
    · exact hnumber
    · exact hnumber.trans (hlater r hmem)

/-- Packets are what has survived of a run exactly if each is linked to the one before it. -/
theorem legal_iff (packets : List (ScriptPacket count)) :
    Legal packets ↔ List.IsChain (Links count) (points packets) := by
  constructor
  · rintro ⟨legal, ⟨ids, hids, hbound, hlegal⟩, horder, hplace⟩
    exact chain_of_sits hids hbound (.inl rfl) (sits_of_survivors hlegal hplace)
      (fun p _ => p.positive) horder
  · intro hchain
    obtain ⟨ids, hcompletes⟩ := complete hchain (fun _ => rfl) (by
      intro r hr
      obtain ⟨p, -, rfl⟩ := List.mem_map.mp hr
      refine ⟨p.known, fun haction => ?_⟩
      by_contra hid
      rcases haction with haction | haction
      · simpa [show p.action = .d from haction] using p.named.mp hid
      · simpa [show p.action = .x from haction] using p.named.mp hid)
    refine ⟨dispatch ids, ⟨ids, hcompletes.increases, hcompletes.bounded, List.prefix_refl _⟩,
      (order_of_chain (hchain.imp fun _ _ h => h.1)).2, fun p hp => ?_⟩
    exact (dispatch_at p.positive).mpr
      (hcompletes.sits [] rfl rfl p.point (List.mem_map_of_mem hp))

end Exact

section Records

variable {count : Nat} {records ordered : List (Record count)}

def Earlier (r s : Record count) : Prop :=
  r.actorId < s.actorId ∨ r.actorId = s.actorId ∧ r.sequence < s.sequence

theorem eq_of_same_place (hordered : ordered.Pairwise Earlier) {r s : Record count} (hr : r ∈ ordered)
    (hs : s ∈ ordered) (hactor : r.actorId = s.actorId) (hsequence : r.sequence = s.sequence) :
    r = s := by
  induction ordered with
  | nil => cases hr
  | cons first ordered ih =>
    obtain ⟨hfirst, hrest⟩ := List.pairwise_cons.mp hordered
    rcases List.mem_cons.mp hr with rfl | hr' <;> rcases List.mem_cons.mp hs with rfl | hs'
    · rfl
    · have := hfirst s hs'
      unfold Earlier at this
      omega
    · have := hfirst r hr'
      unfold Earlier at this
      omega
    · exact ih hrest hr' hs'

theorem atMost_iff {r s : Record count} : r.atMost s = true ↔
    r.actorId < s.actorId ∨ r.actorId = s.actorId ∧ r.sequence ≤ s.sequence := by
  simp [Record.atMost]

theorem mergeSort_eq (hperm : records.Perm ordered) (hordered : ordered.Pairwise Earlier) :
    records.mergeSort Record.atMost = ordered := by
  have hsorted : (records.mergeSort Record.atMost).Pairwise fun r s => r.atMost s = true := by
    refine List.pairwise_mergeSort (fun r s u hrs hsu => ?_) (fun r s => ?_) records
    · rw [atMost_iff] at *
      omega
    · rw [Bool.or_eq_true, atMost_iff, atMost_iff]
      omega
  have hperm' := (List.mergeSort_perm records Record.atMost).trans hperm
  refine hperm'.eq_of_pairwise (fun r s hr hs hrs hsr => ?_) hsorted (hordered.imp fun hearlier => ?_)
  · rw [atMost_iff] at hrs hsr
    exact eq_of_same_place hordered (hperm'.mem_iff.mp hr) hs (by omega) (by omega)
  · unfold Earlier at hearlier
    rw [atMost_iff]
    omega

theorem rows_eq (hperm : records.Perm ordered) (hordered : ordered.Pairwise Earlier)
    (hpackets : ∀ r ∈ records, (packetOf r).isSome = true) : rows records = ordered := by
  have hall : (records.filter fun r => r.scriptChannel.isSome) = records := by
    refine List.filter_eq_self.mpr fun r hr => ?_
    have hpacket := hpackets r hr
    cases hsample : r.scriptChannel with
    | none => simp [packetOf, hsample] at hpacket
    | some sample => rfl
  rw [rows, hall]
  exact mergeSort_eq hperm hordered

theorem conflicts_eq_nil_iff (issues : List Issue) :
    (Issue.all.filter issues.contains).map Issue.text = [] ↔ issues = [] := by
  rw [List.map_eq_nil_iff, List.filter_eq_nil_iff]
  constructor
  · intro hnone
    refine List.eq_nil_iff_forall_not_mem.mpr fun issue hissue => ?_
    have hall : issue ∈ Issue.all := by cases issue <;> decide
    exact hnone issue hall (List.contains_iff_mem.mpr hissue)
  · rintro rfl issue -
    simp

theorem others_eq_nil {f : Record count → Option α}
    (hpackets : ∀ r ∈ ordered, (packetOf r).isSome = true)
    (hother : ∀ r : Record count, (packetOf r).isSome = true → f r = none) :
    ordered.filterMap f = [] :=
  List.filterMap_eq_nil_iff.mpr fun r hr => hother r (hpackets r hr)

theorem projection_clean_iff (hperm : records.Perm ordered) (hordered : ordered.Pairwise Earlier)
    (hpackets : ∀ r ∈ records, (packetOf r).isSome = true) :
    (scriptProjection records).conflicts = [] ↔
      List.IsChain Follows (points (ordered.filterMap packetOf)) := by
  have hpackets' : ∀ r ∈ ordered, (packetOf r).isSome = true :=
    fun r hr => hpackets r (hperm.mem_iff.mpr hr)
  have hpacket {r : Record count} (hr : (packetOf r).isSome = true) :
      ∃ packet, r.scriptChannel = some (.script packet) := by
    unfold packetOf at hr
    split at hr
    case h_1 packet hsample => exact ⟨packet, hsample⟩
    case h_2 => cases hr
  have hsetups : ordered.filterMap setupOf = [] := others_eq_nil hpackets' fun r hr => by
    obtain ⟨packet, hsample⟩ := hpacket hr
    simp [setupOf, hsample]
  have hsummaries : ordered.filterMap summaryOf = [] := others_eq_nil hpackets' fun r hr => by
    obtain ⟨packet, hsample⟩ := hpacket hr
    simp [summaryOf, hsample]
  have hparents : ordered.filterMap parentOf = [] := others_eq_nil hpackets' fun r hr => by
    obtain ⟨packet, hsample⟩ := hpacket hr
    simp [parentOf, hsample]
  have hstart : Matches .start ({} : Loop) :=
    ⟨rfl, rfl, by decide, fun _ => rfl, fun _ => rfl, by decide, fun _ => rfl⟩
  unfold scriptProjection
  dsimp only
  rw [rows_eq hperm hordered hpackets, conflicts_eq_nil_iff, hsetups, hsummaries, hparents]
  generalize ordered.filterMap packetOf = packets
  simp only [List.append_eq_nil_iff, issueIf_eq_nil, List.head?_nil, Option.map_none, Option.getD_none,
    parentIssues, and_true]
  rw [loop_clean_iff hstart packets]
  constructor
  · rintro ⟨-, hchain⟩
    exact hchain
  · intro hchain
    have hlength := length_le_of_chain (Nat.zero_le _) hchain
    refine ⟨?_, hchain⟩
    simp only [List.length_nil, Bool.or_eq_false_iff, decide_eq_false_iff_not]
    refine ⟨⟨⟨by decide, by decide⟩, by decide⟩, ?_⟩
    simp only [Point.start] at hlength
    omega

/-- What has survived of a run is never in conflict; the other direction holds exactly if the packets
that pass every test also have the numbers of a dispatch. -/
theorem packet_conflicts_exact_iff (records ordered : List (Record count))
    (hperm : records.Perm ordered) (hordered : ordered.Pairwise Earlier)
    (hpackets : ∀ r ∈ records, (packetOf r).isSome = true) :
    (Legal (ordered.filterMap packetOf) → (scriptProjection records).conflicts = []) ∧
      (((scriptProjection records).conflicts = [] ↔ Legal (ordered.filterMap packetOf)) ↔
        (List.IsChain Follows (points (ordered.filterMap packetOf)) →
          List.IsChain (Numbered count) (points (ordered.filterMap packetOf)))) := by
  rw [projection_clean_iff hperm hordered hpackets, legal_iff]
  rw [links_iff]
  constructor
  · exact And.left
  · constructor
    · intro hexact hfollows
      exact (hexact.mp hfollows).2
    · intro hnumbers
      exact ⟨fun hfollows => ⟨hfollows, hnumbers hfollows⟩, And.left⟩

end Records

/-- A record of the kernel log that `script_sample` has read, with the sixteen scripts of the
profile. -/
def logged (sequence : Nat) (value : Int) (a b c : Nat) : Record 16 :=
  { actorId := 6, sequence, boottimeMs := 1000, error := 0, priorLogLosses := 0, priorLogError := 0
    scriptChannel := scriptSample 16 93 4 value 0 a b c 0 1000 }

def survivors : List (Record 16) :=
  [logged 11 0 1 0 68, logged 12 0 2 1 66, logged 13 7 5 2 69, logged 14 0 34 0 88]

def beginAtOdd : Record 16 := logged 11 0 3 1 66

theorem packet_conflicts_exact_iff_survivors : (survivors.filterMap packetOf).length = 4 ∧
      Legal (survivors.filterMap packetOf) ∧
      (scriptProjection survivors.reverse).conflicts = [] := by
  have hlegal : Legal (survivors.filterMap packetOf) :=
    ⟨dispatch (List.range' 1 16), ⟨List.range' 1 16, by decide, by decide, List.prefix_rfl⟩,
      by decide, by decide⟩
  refine ⟨rfl, hlegal, (packet_conflicts_exact_iff survivors.reverse survivors
    (List.reverse_perm _) ?_ ?_).1 hlegal⟩
  · simp [survivors, logged, Earlier]
  · decide

theorem begin_at_odd_number_is_no_conflict :
    (scriptProjection [beginAtOdd]).conflicts = [] ∧ ¬ Legal ([beginAtOdd].filterMap packetOf) := by
  constructor
  · have hread : beginAtOdd.scriptChannel.isSome = true := rfl
    simp only [scriptProjection, rows, List.filter_cons, hread, if_true, List.filter_nil,
      List.mergeSort_singleton]
    decide
  · rintro ⟨legal, ⟨ids, -, -, hlegal⟩, -, hplace⟩
    obtain ⟨k, hnumber, -⟩ := sits_of_survivors hlegal hplace _ (List.mem_singleton_self _)
    have : 3 = 2 * k + 2 := hnumber
    omega

end NativeInitLab.Autoboot.Projection
