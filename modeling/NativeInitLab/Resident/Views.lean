import Mathlib.Algebra.Group.Nat.Defs
import Mathlib.Data.Fintype.Basic
import Mathlib.Logic.Function.Basic

namespace NativeInitLab.Resident.Views

/-! The samples of the workers, the views that the supervisor makes of them, and the renderer that
reads the views. -/

def sampleMagic : Nat := 0x31525353
def viewMagic : Nat := 0x31565253
def viewLimit : Nat := 2 ^ 64 - 1

abbrev RunId := Vector UInt8 16

inductive SourceState
  | absent
  | running
  | eof
  | fault
  | waitUnknown
  deriving DecidableEq

structure StatusMetrics where
  magic : Nat := 0
  valid : UInt32 := 0
  source : Nat := 0
  reserved : Nat := 0
  sequence : Nat := 0
  collectedMs : Nat := 0
  memTotalKib : Nat := 0
  memAvailableKib : Nat := 0
  cpuPermille : Nat := 0
  batteryTempDeci : Int := 0
  batteryPct : Nat := 0
  charge : Nat := 0
  run : RunId := Vector.replicate 16 0
  gaugeSequence : Nat := 0
  gaugeMs : Nat := 0
  gaugeSocPermille : Nat := 0
  gaugeVoltageUv : Nat := 0
  gaugeCurrentUa : Int := 0
  cpuTempMc : Int := 0
  cpuMask : UInt32 := 0
  cpuExpected : Nat := 0
  reserved2 : Nat × Nat := (0, 0)
  deriving DecidableEq

namespace StatusMetrics

def has (m : StatusMetrics) (bit : UInt32) : Bool := m.valid &&& bit != 0

def gauge (m : StatusMetrics) : Bool := m.has 224

def gaugeFollows (m old : StatusMetrics) : Bool :=
  old.gaugeSequence ≤ m.gaugeSequence && old.gaugeMs ≤ m.gaugeMs &&
    (m.gaugeSequence != old.gaugeSequence ||
      m.gaugeMs == old.gaugeMs && m.gaugeSocPermille == old.gaugeSocPermille &&
        m.gaugeVoltageUv == old.gaugeVoltageUv && m.gaugeCurrentUa == old.gaugeCurrentUa)

/-- The checks of `resident_sample_valid` that look at the predecessor. -/
def follows (m old : StatusMetrics) : Bool :=
  old.sequence < m.sequence && old.collectedMs ≤ m.collectedMs && (!m.gauge || m.gaugeFollows old)

def sound (m : StatusMetrics) (source now : Nat) (run : RunId) : Bool :=
  m.magic == sampleMagic && m.source == source && m.reserved == 0 && m.reserved2 == (0, 0) &&
    m.sequence != 0 && m.collectedMs ≤ now &&
    !m.has (~~~(if source = 0 then 3 else 508)) && m.run == run &&
    (!m.has 1 || m.memTotalKib != 0 && m.memTotalKib ≤ 2 ^ 30 &&
      m.memAvailableKib ≤ m.memTotalKib) &&
    (!m.has 2 || m.cpuPermille ≤ 1000) && (!m.has 4 || m.batteryPct ≤ 100) &&
    (!m.has 16 || -500 ≤ m.batteryTempDeci && m.batteryTempDeci ≤ 1500) &&
    (!m.has 8 || m.charge ≤ 4) && (!m.gauge || m.gaugeSequence != 0 && m.gaugeMs ≤ now) &&
    (!m.has 32 || m.gaugeSocPermille ≤ 1000) &&
    (!m.has 64 || 2000000 ≤ m.gaugeVoltageUv && m.gaugeVoltageUv ≤ 5000000) &&
    (!m.has 128 || -25600000 ≤ m.gaugeCurrentUa && m.gaugeCurrentUa ≤ 25599218) &&
    m.cpuExpected == (if source = 0 then 0 else 13) && m.cpuMask &&& ~~~8191 == 0 &&
    (!m.has 256 || m.cpuMask != 0 && -40000 ≤ m.cpuTempMc && m.cpuTempMc ≤ 150000)

end StatusMetrics

def residentSampleValid (m old : StatusMetrics) (source now : Nat) (run : RunId) : Bool :=
  m.sound source now run && m.follows old

structure Child where
  started : Bool := false
  reaped : Bool := false
  unknown : Bool := false
  status : Int := 0

inductive Waited
  | nothing
  | exited (status : Int)
  | failed

def residentReap (child : Child) (answer : Waited) : Child :=
  if child.started = false ∨ child.reaped = true ∨ child.unknown = true then child
  else
    match answer with
    | .nothing => child
    | .exited status => { child with reaped := true, status := status }
    | .failed => { child with unknown := true }

structure Hud where
  child : Fin 3 → Child := fun _ => {}
  input : Bool := false
  metrics : Fin 2 → Bool := fun _ => false
  failed : Bool := false
  state : Fin 2 → SourceState := fun _ => .absent
  sequence : Nat := 0
  last : Nat := 0
  sample : Fin 2 → StatusMetrics := fun _ => {}
  gaugeBaseline : StatusMetrics := {}

/-- What `recv` returns, and the clock that is read after it. -/
inductive Receipt
  | again
  | eof
  | other
  | datagram (next : StatusMetrics) (received : Option Nat)

def Hud.stop (h : Hud) (i : Fin 2) (state : SourceState) : Hud :=
  { h with state := Function.update h.state i state, metrics := Function.update h.metrics i false }

def Hud.baseline (h : Hud) (i : Fin 2) : StatusMetrics :=
  if i = 0 then h.sample i
  else
    { h.sample i with
      gaugeSequence := h.gaugeBaseline.gaugeSequence, gaugeMs := h.gaugeBaseline.gaugeMs,
      gaugeSocPermille := h.gaugeBaseline.gaugeSocPermille,
      gaugeVoltageUv := h.gaugeBaseline.gaugeVoltageUv,
      gaugeCurrentUa := h.gaugeBaseline.gaugeCurrentUa }

def Hud.store (h : Hud) (i : Fin 2) (next : StatusMetrics) : Hud :=
  { h with
    sample := Function.update h.sample i next
    gaugeBaseline := if i ≠ 0 ∧ next.gauge = true then next else h.gaugeBaseline }

/-- Up to `turns` datagrams of one worker. -/
def residentReceive (run : RunId) (i : Fin 2) (now : Nat) : Nat → Hud → List Receipt → Hud
  | 0, h, _ => h
  | _, h, [] => h
  | _, h, .again :: _ => h
  | _, h, .eof :: _ => h.stop i .eof
  | _, h, .other :: _ => h.stop i .fault
  | turns + 1, h, .datagram next received :: rest =>
    match received with
    | none => h.stop i .fault
    | some received =>
      if now ≤ received ∧ residentSampleValid next (h.baseline i) i received run = true then
        residentReceive run i now turns (h.store i next) rest
      else h.stop i .fault

def receiveOpen (run : RunId) (i : Fin 2) (now : Nat) (h : Hud) (receipts : List Receipt) : Hud :=
  if h.metrics i = true then residentReceive run i now 8 h receipts else h

def settle (state : SourceState) (child : Child) : SourceState :=
  if state = .running ∨ state = .eof then
    if child.unknown = true then .waitUnknown
    else if child.reaped = true then (if child.status ≠ 0 then .fault else .eof)
    else state
  else state

def Hud.reap (h : Hud) (waits : Fin 3 → Waited) : Hud :=
  let child := fun i => residentReap (h.child i) (waits i)
  { h with
    child := child
    state := fun i => settle (h.state i) (child i.castSucc)
    input := h.input && !((child 2).reaped || (child 2).unknown) }

structure View where
  magic : Nat := viewMagic
  state : Nat
  sequence : Nat
  uptimeMs : Nat
  run : RunId
  sourceState : Fin 2 → SourceState
  sample : Fin 2 → StatusMetrics

inductive Sent
  | whole
  | full
  | failed

structure Tick where
  now : Nat
  phase : Fin 9
  receipts : Fin 2 → List Receipt
  waits : Fin 3 → Waited
  sent : Sent

def Tick.received (tick : Tick) (run : RunId) (h : Hud) : Hud :=
  (receiveOpen run 1 tick.now (receiveOpen run 0 tick.now h (tick.receipts 0))
    (tick.receipts 1)).reap tick.waits

/-- `hud1_tick` without the log; also the view that has entered the socket. -/
def hud1Tick (run : RunId) (h : Hud) (tick : Tick) : Hud × Option View :=
  let h := tick.received run h
  if h.input = false ∨ h.failed = true then (h, none)
  else if h.sequence ≠ 0 ∧ (tick.now < h.last ∨ tick.now - h.last < 1000) then (h, none)
  else if h.sequence = viewLimit then ({ h with failed := true, input := false }, none)
  else
    let h := { h with last := tick.now, sequence := h.sequence + 1 }
    match tick.sent with
    | .whole => (h, some {
        state := tick.phase, sequence := h.sequence, uptimeMs := tick.now, run := run,
        sourceState := h.state, sample := h.sample })
    | .full => (h, none)
    | .failed => ({ h with failed := true, input := false }, none)

structure Renderer where
  lastSequence : Nat := 0
  lastUptime : Nat := 0
  sample : Fin 2 → StatusMetrics := fun _ => {}

def sampleError (next old : StatusMetrics) (source now : Nat) (run : RunId) : Option String :=
  if next.sequence ≠ 0 then
    if next.sequence = old.sequence then
      if next = old then none else some "hud-sample-rewrite"
    else if residentSampleValid next old source now run = true then none
    else some "hud-sample-invalid"
  else if next = {} ∧ old.sequence = 0 then none
  else some "hud-sample-cleared"

/-- One view in `hud_snapshot_read`; the clock is read for the view and for each sample. -/
def hudSnapshotRead (run : RunId) (renderer : Renderer) (next : View) (now : Nat)
    (clock : Fin 2 → Nat) : Except String Renderer :=
  if ¬ (next.magic = viewMagic ∧ next.state ≤ 8 ∧ renderer.lastSequence < next.sequence ∧
      renderer.lastUptime ≤ next.uptimeMs ∧ next.uptimeMs ≤ now) then
    .error "hud-snapshot-order"
  else if next.run ≠ run then .error "hud-snapshot-run"
  else
    match sampleError (next.sample 0) (renderer.sample 0) 0 (clock 0) next.run,
      sampleError (next.sample 1) (renderer.sample 1) 1 (clock 1) next.run with
    | some failure, _ => .error failure
    | none, some failure => .error failure
    | none, none => .ok ⟨next.sequence, next.uptimeMs, next.sample⟩

section Gauge

variable {a b c : StatusMetrics}

theorem gaugeFollows_iff : b.gaugeFollows a = true ↔
    a.gaugeSequence ≤ b.gaugeSequence ∧ a.gaugeMs ≤ b.gaugeMs ∧
      (b.gaugeSequence = a.gaugeSequence → b.gaugeMs = a.gaugeMs ∧
        b.gaugeSocPermille = a.gaugeSocPermille ∧ b.gaugeVoltageUv = a.gaugeVoltageUv ∧
        b.gaugeCurrentUa = a.gaugeCurrentUa) := by
  simp [StatusMetrics.gaugeFollows, and_assoc, or_iff_not_imp_left]

theorem gaugeFollows_refl (a : StatusMetrics) : a.gaugeFollows a = true :=
  gaugeFollows_iff.mpr ⟨Nat.le_refl _, Nat.le_refl _, fun _ => ⟨rfl, rfl, rfl, rfl⟩⟩

theorem gaugeFollows_trans (hab : b.gaugeFollows a = true) (hbc : c.gaugeFollows b = true) :
    c.gaugeFollows a = true := by
  rw [gaugeFollows_iff] at *
  refine ⟨hab.1.trans hbc.1, hab.2.1.trans hbc.2.1, fun hsame => ?_⟩
  have hfirst : b.gaugeSequence = a.gaugeSequence := by omega
  have hsecond : c.gaugeSequence = b.gaugeSequence := by omega
  obtain ⟨h1, h2, h3, h4⟩ := hab.2.2 hfirst
  obtain ⟨k1, k2, k3, k4⟩ := hbc.2.2 hsecond
  exact ⟨k1.trans h1, k2.trans h2, k3.trans h3, k4.trans h4⟩

theorem sound_mono {m : StatusMetrics} {source now later : Nat} {run : RunId}
    (hle : now ≤ later) (h : m.sound source now run = true) :
    m.sound source later run = true := by
  simp only [StatusMetrics.sound, Bool.and_eq_true, Bool.or_eq_true, decide_eq_true_eq] at h ⊢
  grind

end Gauge

/-! What stands between a view and the samples that follow it. -/

/-- The counters, samples and gauge baseline at one moment. -/
structure Mark where
  sequence : Nat
  uptime : Nat
  clock : Nat
  sample : Fin 2 → StatusMetrics
  base : StatusMetrics

def Hud.mark (h : Hud) (clock : Nat) : Mark := ⟨h.sequence, h.last, clock, h.sample, h.gaugeBaseline⟩

structure Mark.Sound (run : RunId) (mark : Mark) : Prop where
  samples : ∀ i, mark.sample i = {} ∨ (mark.sample i).sound i mark.clock run = true
  below : mark.base.gaugeFollows (mark.sample 1) = true
  above : (mark.sample 1).gauge = true → (mark.sample 1).gaugeFollows mark.base = true
  unsent : mark.sequence = 0 → mark.uptime = 0

structure Mark.Before (a b : Mark) : Prop where
  sequence : a.sequence ≤ b.sequence
  uptime : a.uptime ≤ b.uptime
  samples : ∀ i, b.sample i = a.sample i ∨ (a.sample i).sequence < (b.sample i).sequence ∧
    (a.sample i).collectedMs ≤ (b.sample i).collectedMs
  base : b.base.gaugeFollows a.base = true

theorem Mark.Before.trans {a b c : Mark} (hab : a.Before b) (hbc : b.Before c) : a.Before c := by
  refine ⟨hab.sequence.trans hbc.sequence, hab.uptime.trans hbc.uptime, fun i => ?_,
    gaugeFollows_trans hab.base hbc.base⟩
  rcases hab.samples i with hfirst | hfirst
  · rw [← hfirst]
    exact hbc.samples i
  · rcases hbc.samples i with hsecond | hsecond
    · rw [hsecond]
      exact .inr hfirst
    · exact .inr ⟨hfirst.1.trans hsecond.1, hfirst.2.trans hsecond.2⟩

/-- A sample without gauge bits carries gauge values no later than the last ones that counted. -/
def Quiet : StatusMetrics → List Receipt → Prop
  | _, [] => True
  | base, .datagram next _ :: rest =>
    (next.gauge = false → base.gaugeFollows next = true) ∧
      Quiet (if next.gauge = true then next else base) rest
  | base, _ :: rest => Quiet base rest

def Within (limit : Nat) (receipts : List Receipt) : Prop :=
  ∀ next received, .datagram next (some received) ∈ receipts → received ≤ limit

section Receive

variable {run : RunId} {limit now : Nat} {i : Fin 2} {h : Hud}

/-- Receiving moves the samples and the baseline forward and touches no counter. -/
structure Grown (run : RunId) (limit : Nat) (i : Fin 2) (h h' : Hud) : Prop where
  before : (h.mark limit).Before (h'.mark limit)
  sound : (h'.mark limit).Sound run
  sequence : h'.sequence = h.sequence
  last : h'.last = h.last
  base : i = 0 → h'.gaugeBaseline = h.gaugeBaseline

theorem Mark.Before.refl (mark : Mark) : mark.Before mark :=
  ⟨Nat.le_refl _, Nat.le_refl _, fun _ => .inl rfl, gaugeFollows_refl _⟩

theorem Grown.same (hsound : (h.mark limit).Sound run) : Grown run limit i h h :=
  ⟨.refl _, hsound, rfl, rfl, fun _ => rfl⟩

theorem Grown.stop (hsound : (h.mark limit).Sound run) (state : SourceState) :
    Grown run limit i h (h.stop i state) :=
  ⟨.refl _, hsound, rfl, rfl, fun _ => rfl⟩

theorem Grown.trans {h' h'' : Hud} (hfirst : Grown run limit i h h')
    (hsecond : Grown run limit i h' h'') : Grown run limit i h h'' :=
  ⟨hfirst.before.trans hsecond.before, hsecond.sound, hsecond.sequence.trans hfirst.sequence,
    hsecond.last.trans hfirst.last, fun hi => (hsecond.base hi).trans (hfirst.base hi)⟩

theorem follows_baseline {next : StatusMetrics} (hfollows : next.follows (h.baseline i) = true) :
    (h.sample i).sequence < next.sequence ∧ (h.sample i).collectedMs ≤ next.collectedMs ∧
      (i ≠ 0 → next.gauge = true → next.gaugeFollows h.gaugeBaseline = true) := by
  simp only [StatusMetrics.follows, Bool.and_eq_true, Bool.or_eq_true, decide_eq_true_eq,
    Bool.not_eq_true'] at hfollows
  by_cases hi : i = 0
  · simp only [Hud.baseline, if_pos hi] at hfollows
    exact ⟨hfollows.1.1, hfollows.1.2, fun h => (h hi).elim⟩
  · simp only [Hud.baseline, if_neg hi] at hfollows
    refine ⟨hfollows.1.1, hfollows.1.2, fun _ hgauge => ?_⟩
    exact hfollows.2.resolve_left (by rw [hgauge]; decide)

theorem Grown.store (hsound : (h.mark limit).Sound run) {next : StatusMetrics} {received : Nat}
    (hlimit : received ≤ limit)
    (hvalid : residentSampleValid next (h.baseline i) i received run = true)
    (hquiet : i = 1 → next.gauge = false → h.gaugeBaseline.gaugeFollows next = true) :
    Grown run limit i h (h.store i next) := by
  obtain ⟨hnext, hfollows⟩ := (Bool.and_eq_true _ _).mp hvalid
  obtain ⟨hsequence, hcollected, hgauge⟩ := follows_baseline hfollows
  have hlater := sound_mono hlimit hnext
  refine ⟨⟨Nat.le_refl _, Nat.le_refl _, fun j => ?_, ?_⟩, ⟨fun j => ?_, ?_, ?_, hsound.unsent⟩, rfl,
    rfl, fun hi => ?_⟩
  · by_cases hj : j = i
    · subst hj
      simp [Hud.mark, Hud.store, hsequence, hcollected]
    · simp [Hud.mark, Hud.store, Function.update_of_ne hj]
  · show StatusMetrics.gaugeFollows (if i ≠ 0 ∧ next.gauge = true then next else _) _ = true
    split
    case isTrue hcounts => exact hgauge hcounts.1 hcounts.2
    case isFalse => exact gaugeFollows_refl _
  · by_cases hj : j = i
    · subst hj
      exact .inr (by simpa [Hud.mark, Hud.store] using hlater)
    · simpa [Hud.mark, Hud.store, Function.update_of_ne hj] using hsound.samples j
  · by_cases hi : i = 0
    · subst hi
      exact hsound.below
    · have hone : i = 1 := by omega
      subst hone
      by_cases hcounts : next.gauge = true
      · simp [Hud.mark, Hud.store, hcounts, gaugeFollows_refl]
      · simpa [Hud.mark, Hud.store, hcounts] using hquiet rfl (by simpa using hcounts)
  · by_cases hi : i = 0
    · subst hi
      exact hsound.above
    · have hone : i = 1 := by omega
      subst hone
      intro hcounts
      have hcounts' : next.gauge = true := by simpa [Hud.mark, Hud.store] using hcounts
      simp [Hud.mark, Hud.store, hcounts', gaugeFollows_refl]
  · simp [Hud.store, hi]

theorem receive_grows (hsound : (h.mark limit).Sound run) {receipts : List Receipt}
    (hwithin : Within limit receipts) (hquiet : i = 1 → Quiet h.gaugeBaseline receipts)
    (turns : Nat) : Grown run limit i h (residentReceive run i now turns h receipts) := by
  induction receipts generalizing h turns with
  | nil =>
    cases turns with
    | _ => exact Grown.same hsound
  | cons receipt receipts ih =>
    cases turns with
    | zero => exact Grown.same hsound
    | succ turns =>
      cases receipt with
      | again => exact Grown.same hsound
      | eof | other => exact Grown.stop hsound _
      | datagram next received =>
        cases received with
        | none => exact Grown.stop hsound _
        | some received =>
          rw [residentReceive]
          split
          case isFalse => exact Grown.stop hsound _
          case isTrue haccepted =>
            have hfirst := Grown.store hsound (hwithin next received List.mem_cons_self)
              haccepted.2 fun hi => (hquiet hi).1
            refine hfirst.trans (ih hfirst.sound
              (fun m at' hm => hwithin m at' (List.mem_cons_of_mem _ hm)) (fun hi => ?_) turns)
            subst hi
            have hrest := (hquiet rfl).2
            by_cases hcounts : next.gauge = true
            · simpa [Hud.store, hcounts] using hrest
            · simpa [Hud.store, hcounts] using hrest

theorem open_grows (hsound : (h.mark limit).Sound run) {receipts : List Receipt}
    (hwithin : Within limit receipts) (hquiet : i = 1 → Quiet h.gaugeBaseline receipts) :
    Grown run limit i h (receiveOpen run i now h receipts) := by
  unfold receiveOpen
  split
  · exact receive_grows hsound hwithin hquiet 8
  · exact Grown.same hsound

end Receive

section Ticks

variable {run : RunId} {limit : Nat} {h : Hud}

structure Tick.Timely (tick : Tick) (limit : Nat) : Prop where
  now : tick.now ≤ limit
  receipts : ∀ i, Within limit (tick.receipts i)

theorem received_grows (hsound : (h.mark limit).Sound run) {tick : Tick}
    (htimely : tick.Timely limit) (hquiet : Quiet h.gaugeBaseline (tick.receipts 1)) :
    (h.mark limit).Before ((tick.received run h).mark limit) ∧
      ((tick.received run h).mark limit).Sound run ∧
      (tick.received run h).sequence = h.sequence ∧ (tick.received run h).last = h.last := by
  have hfirst : Grown run limit 0 h (receiveOpen run 0 tick.now h (tick.receipts 0)) :=
    open_grows hsound (htimely.receipts 0) nofun
  have hsecond : Grown run limit 1 (receiveOpen run 0 tick.now h (tick.receipts 0))
      (receiveOpen run 1 tick.now (receiveOpen run 0 tick.now h (tick.receipts 0))
        (tick.receipts 1)) := by
    refine open_grows hfirst.sound (htimely.receipts 1) fun _ => ?_
    rw [hfirst.base rfl]
    exact hquiet
  exact ⟨hfirst.before.trans hsecond.before, hsecond.sound,
    hsecond.sequence.trans hfirst.sequence, hsecond.last.trans hfirst.last⟩

structure Shows (run : RunId) (view : View) (mark : Mark) : Prop where
  magic : view.magic = viewMagic
  state : view.state ≤ 8
  sequence : view.sequence = mark.sequence
  uptime : view.uptimeMs = mark.uptime
  clock : mark.uptime ≤ mark.clock
  run : view.run = run
  sample : view.sample = mark.sample

/-- A tick moves the mark forward, and the view that it sends shows the new one. -/
structure Ticked (run : RunId) (limit : Nat) (h : Hud) (result : Hud × Option View) : Prop where
  before : (h.mark limit).Before (result.1.mark limit)
  sound : (result.1.mark limit).Sound run
  view : ∀ view ∈ result.2, h.sequence < result.1.sequence ∧ Shows run view (result.1.mark limit)

theorem tick_marks (hsound : (h.mark limit).Sound run) {tick : Tick} (htimely : tick.Timely limit)
    (hquiet : Quiet h.gaugeBaseline (tick.receipts 1)) :
    Ticked run limit h (hud1Tick run h tick) := by
  obtain ⟨hbefore, hafter, hsequence, hlast⟩ := received_grows hsound htimely hquiet
  unfold hud1Tick
  dsimp only
  generalize tick.received run h = g at *
  by_cases hclosed : g.input = false ∨ g.failed = true
  · rw [if_pos hclosed]
    exact ⟨hbefore, hafter, nofun⟩
  rw [if_neg hclosed]
  by_cases hearly : g.sequence ≠ 0 ∧ (tick.now < g.last ∨ tick.now - g.last < 1000)
  · rw [if_pos hearly]
    exact ⟨hbefore, hafter, nofun⟩
  rw [if_neg hearly]
  by_cases hend : g.sequence = viewLimit
  · rw [if_pos hend]
    exact ⟨hbefore, hafter, nofun⟩
  rw [if_neg hend]
  have hlater : g.last ≤ tick.now := by
    by_cases hzero : g.sequence = 0
    · have : g.last = 0 := hafter.unsent hzero
      omega
    · have := not_and.mp hearly hzero
      omega
  have hnext (g' : Hud) (hcounter : g'.sequence = g.sequence + 1) (htime : g'.last = tick.now)
      (hsample : g'.sample = g.sample) (hbase : g'.gaugeBaseline = g.gaugeBaseline) :
      (h.mark limit).Before (g'.mark limit) ∧ (g'.mark limit).Sound run := by
    refine ⟨hbefore.trans ⟨?_, ?_, fun j => .inl ?_, ?_⟩, ⟨fun j => ?_, ?_, ?_, fun hzero => ?_⟩⟩
    · show g.sequence ≤ g'.sequence
      omega
    · show g.last ≤ g'.last
      omega
    · exact congrFun hsample j
    · show g'.gaugeBaseline.gaugeFollows g.gaugeBaseline = true
      rw [hbase]
      exact gaugeFollows_refl _
    · show g'.sample j = {} ∨ (g'.sample j).sound j limit run = true
      rw [hsample]
      exact hafter.samples j
    · show g'.gaugeBaseline.gaugeFollows (g'.sample 1) = true
      rw [hbase, hsample]
      exact hafter.below
    · show (g'.sample 1).gauge = true → (g'.sample 1).gaugeFollows g'.gaugeBaseline = true
      rw [hbase, hsample]
      exact hafter.above
    · have : g'.sequence = 0 := hzero
      omega
  have hsent := hnext { g with last := tick.now, sequence := g.sequence + 1 } rfl rfl rfl rfl
  cases tick.sent with
  | whole =>
    refine ⟨hsent.1, hsent.2, ?_⟩
    intro view hview
    obtain rfl := Option.some.inj hview
    refine ⟨?_, ⟨rfl, Nat.le_of_lt_succ tick.phase.isLt, rfl, rfl, htimely.now, rfl, rfl⟩⟩
    show h.sequence < g.sequence + 1
    omega
  | full | failed => exact ⟨hsent.1, hsent.2, nofun⟩

end Ticks

section Render

variable {run : RunId} {last next : Mark}

theorem gauge_eq_false {m : StatusMetrics} {now : Nat} (hsound : m.sound 0 now run = true) :
    m.gauge = false := by
  have hbits : m.valid &&& ~~~3 = 0 := by
    by_contra hbits
    simp [StatusMetrics.sound, StatusMetrics.has, hbits] at hsound
  have hmask : m.valid &&& 224 = (m.valid &&& ~~~3) &&& 224 := by
    rw [UInt32.and_assoc]
    rfl
  simp [StatusMetrics.gauge, StatusMetrics.has, hmask, hbits]

/-- A sample of a later mark passes the renderer's check against the earlier mark. -/
theorem sampleError_eq_none (hlast : last.Sound run) (hnext : next.Sound run)
    (hbefore : last.Before next) (i : Fin 2) {now : Nat} (hnow : next.clock ≤ now) :
    sampleError (next.sample i) (last.sample i) i now run = none := by
  unfold sampleError
  rcases hbefore.samples i with hsame | ⟨hsequence, hcollected⟩
  · by_cases hzero : (next.sample i).sequence = 0
    · have hempty : next.sample i = {} := by
        rcases hnext.samples i with hempty | hsound
        · exact hempty
        · simp [StatusMetrics.sound, hzero] at hsound
      rw [if_neg (not_not_intro hzero), if_pos ⟨hempty, by rw [← hsame]; exact hzero⟩]
    · rw [if_pos hzero, if_pos (congrArg _ hsame), if_pos hsame]
  · have hsound : (next.sample i).sound i now run = true := by
      rcases hnext.samples i with hempty | hsound
      · rw [hempty] at hsequence
        exact absurd hsequence (Nat.not_lt_zero _)
      · exact sound_mono hnow hsound
    have hgauge : (next.sample i).gauge = true →
        (next.sample i).gaugeFollows (last.sample i) = true := by
      intro hcounts
      by_cases hi : i = 0
      · subst hi
        rw [gauge_eq_false hsound] at hcounts
        cases hcounts
      · have hone : i = 1 := by omega
        subst hone
        exact gaugeFollows_trans hlast.below (gaugeFollows_trans hbefore.base (hnext.above hcounts))
    have hvalid : residentSampleValid (next.sample i) (last.sample i) i now run = true := by
      simp only [residentSampleValid, StatusMetrics.follows, hsound, hsequence, hcollected,
        decide_true, Bool.true_and]
      cases hcounts : (next.sample i).gauge with
      | false => rfl
      | true => exact hgauge hcounts
    rw [if_pos (Nat.ne_of_gt (Nat.zero_lt_of_lt hsequence)), if_neg (Nat.ne_of_gt hsequence),
      if_pos hvalid]

def Mark.renderer (mark : Mark) : Renderer := ⟨mark.sequence, mark.uptime, mark.sample⟩

theorem read_later (hlast : last.Sound run) (hnext : next.Sound run) (hbefore : last.Before next)
    (hsequence : last.sequence < next.sequence) {view : View} (hshows : Shows run view next)
    {now : Nat} {clock : Fin 2 → Nat} (hnow : next.clock ≤ now)
    (hclock : ∀ i, next.clock ≤ clock i) :
    hudSnapshotRead run last.renderer view now clock = .ok next.renderer := by
  have horder : view.magic = viewMagic ∧ view.state ≤ 8 ∧ last.renderer.lastSequence < view.sequence ∧
      last.renderer.lastUptime ≤ view.uptimeMs ∧ view.uptimeMs ≤ now := by
    refine ⟨hshows.magic, hshows.state, ?_, ?_, ?_⟩
    · rw [hshows.sequence]
      exact hsequence
    · rw [hshows.uptime]
      exact hbefore.uptime
    · rw [hshows.uptime]
      exact hshows.clock.trans hnow
  have hsample (i : Fin 2) :
      sampleError (view.sample i) (last.renderer.sample i) i (clock i) view.run = none := by
    rw [hshows.sample, hshows.run]
    exact sampleError_eq_none hlast hnext hbefore i (hclock i)
  have hfirst := hsample 0
  have hsecond := hsample 1
  unfold hudSnapshotRead
  rw [if_neg (not_not_intro horder), if_neg (not_not_intro hshows.run)]
  simp only [Fin.val_zero, Fin.val_one] at hfirst hsecond
  rw [hfirst, hsecond, hshows.sequence, hshows.uptime, hshows.sample]
  rfl

end Render

/-- The views in the socket, each with the greatest reading of the clock before it was sent. -/
structure System where
  hud : Hud
  queue : List (View × Nat) := []
  renderer : Renderer := {}
  clock : Nat := 0

def System.tick (s : System) (run : RunId) (tick : Tick) (limit : Nat) : System :=
  let (hud, sent) := hud1Tick run s.hud tick
  { s with hud := hud, queue := s.queue ++ (sent.map (·, limit)).toList, clock := limit }

/-- The state that `hud1_start` leaves, whichever of the children it has started. -/
structure Hud.Fresh (h : Hud) : Prop where
  sequence : h.sequence = 0
  last : h.last = 0
  sample : h.sample = fun _ => {}
  base : h.gaugeBaseline = {}

/-- Runs in which every tick meets the condition. -/
inductive Reaches (run : RunId) (condition : Hud → Tick → Prop) : System → Prop
  | start {hud : Hud} (hfresh : hud.Fresh) : Reaches run condition { hud := hud }
  | tick {s : System} (hreaches : Reaches run condition s) {tick : Tick} {limit : Nat}
      (hclock : s.clock ≤ limit) (htimely : tick.Timely limit) (hmeets : condition s.hud tick) :
      Reaches run condition (s.tick run tick limit)
  | read {s : System} (hreaches : Reaches run condition s) {view : View} {sentAt : Nat}
      {rest : List (View × Nat)} (hqueue : s.queue = (view, sentAt) :: rest) {now : Nat}
      {clock : Fin 2 → Nat} (hnow : sentAt ≤ now) (hclock : ∀ i, sentAt ≤ clock i)
      {renderer : Renderer} (hread : hudSnapshotRead run s.renderer view now clock = .ok renderer) :
      Reaches run condition { s with queue := rest, renderer := renderer }

/-- A sample without gauge bits carries no gauge values of its own. -/
def Gauged (h : Hud) (tick : Tick) : Prop := Quiet h.gaugeBaseline (tick.receipts 1)

def Chained (run : RunId) : Mark → List (View × Nat) → Mark → Prop
  | first, [], last => first.Before last
  | first, (view, sentAt) :: rest, last =>
    ∃ mark : Mark, first.Before mark ∧ first.sequence < mark.sequence ∧ mark.Sound run ∧
      mark.clock = sentAt ∧ Shows run view mark ∧ Chained run mark rest last

section Runs

variable {run : RunId} {first last next : Mark} {queue : List (View × Nat)}

theorem Chained.extend (hchained : Chained run first queue last) (hbefore : last.Before next) :
    Chained run first queue next := by
  induction queue generalizing first with
  | nil => exact Mark.Before.trans hchained hbefore
  | cons entry queue ih =>
    obtain ⟨mark, hfirst, hsequence, hsound, hclock, hshows, hrest⟩ := hchained
    exact ⟨mark, hfirst, hsequence, hsound, hclock, hshows, ih hrest⟩

theorem Chained.snoc (hchained : Chained run first queue last) (hbefore : last.Before next)
    (hsequence : last.sequence < next.sequence) (hsound : next.Sound run) {view : View}
    (hshows : Shows run view next) : Chained run first (queue ++ [(view, next.clock)]) next := by
  induction queue generalizing first with
  | nil =>
    exact ⟨next, Mark.Before.trans hchained hbefore,
      Nat.lt_of_le_of_lt (Mark.Before.sequence hchained) hsequence, hsound, rfl, hshows, .refl next⟩
  | cons entry queue ih =>
    obtain ⟨mark, hfirst, hgrows, hsound', hclock, hshows', hrest⟩ := hchained
    exact ⟨mark, hfirst, hgrows, hsound', hclock, hshows', ih hrest⟩

structure Kept (run : RunId) (s : System) (read : Mark) : Prop where
  renderer : s.renderer = read.renderer
  sound : read.Sound run
  chained : Chained run read s.queue (s.hud.mark s.clock)
  current : (s.hud.mark s.clock).Sound run

theorem Hud.Fresh.sound {hud : Hud} (hfresh : hud.Fresh) : (hud.mark 0).Sound run := by
  obtain ⟨hsequence, hlast, hsample, hbase⟩ := hfresh
  refine ⟨fun i => .inl ?_, ?_, fun _ => ?_, fun _ => hlast⟩
  · exact congrFun hsample i
  · show hud.gaugeBaseline.gaugeFollows (hud.sample 1) = true
    rw [hbase, hsample]
    exact gaugeFollows_refl _
  · show (hud.sample 1).gaugeFollows hud.gaugeBaseline = true
    rw [hbase, hsample]
    exact gaugeFollows_refl _

theorem Mark.Sound.later {hud : Hud} {clock limit : Nat} (hsound : (hud.mark clock).Sound run)
    (hle : clock ≤ limit) : (hud.mark limit).Sound run :=
  ⟨fun i => (hsound.samples i).imp_right (sound_mono hle), hsound.below, hsound.above, hsound.unsent⟩

theorem Kept.tick {s : System} {read : Mark} (hkept : Kept run s read) {tick : Tick} {limit : Nat}
    (hclock : s.clock ≤ limit) (htimely : tick.Timely limit) (hgauged : Gauged s.hud tick) :
    Kept run (s.tick run tick limit) read := by
  have hticked := tick_marks (hkept.current.later hclock) htimely hgauged
  have hbefore : (s.hud.mark s.clock).Before ((hud1Tick run s.hud tick).1.mark limit) :=
    ⟨hticked.before.sequence, hticked.before.uptime, hticked.before.samples, hticked.before.base⟩
  refine ⟨hkept.renderer, hkept.sound, ?_, hticked.sound⟩
  show Chained run read (s.queue ++ ((hud1Tick run s.hud tick).2.map (·, limit)).toList)
    ((hud1Tick run s.hud tick).1.mark limit)
  cases hsent : (hud1Tick run s.hud tick).2 with
  | none =>
    simp only [Option.map_none, Option.toList_none, List.append_nil]
    exact hkept.chained.extend hbefore
  | some view =>
    obtain ⟨hsequence, hshows⟩ := hticked.view view hsent
    exact hkept.chained.snoc hbefore hsequence hticked.sound hshows

theorem Kept.accepted {s : System} {read : Mark} (hkept : Kept run s read) {view : View}
    {sentAt : Nat} {rest : List (View × Nat)} (hqueue : s.queue = (view, sentAt) :: rest) {now : Nat}
    {clock : Fin 2 → Nat} (hnow : sentAt ≤ now) (hclock : ∀ i, sentAt ≤ clock i) :
    ∃ mark : Mark, hudSnapshotRead run s.renderer view now clock = .ok mark.renderer ∧
      mark.Sound run ∧ Chained run mark rest (s.hud.mark s.clock) := by
  have hchained := hkept.chained
  rw [hqueue] at hchained
  obtain ⟨mark, hbefore, hsequence, hsound, rfl, hshows, hrest⟩ := hchained
  refine ⟨mark, ?_, hsound, hrest⟩
  rw [hkept.renderer]
  exact read_later hkept.sound hsound hbefore hsequence hshows hnow hclock

theorem Reaches.kept {s : System} (hreaches : Reaches run Gauged s) :
    ∃ read : Mark, Kept run s read := by
  induction hreaches with
  | @start hud hfresh =>
    refine ⟨hud.mark 0, ?_, hfresh.sound, .refl _, hfresh.sound⟩
    simp [Mark.renderer, Hud.mark, hfresh.sequence, hfresh.last, hfresh.sample]
  | tick _ hclock htimely hgauged ih =>
    obtain ⟨read, hkept⟩ := ih
    exact ⟨read, hkept.tick hclock htimely hgauged⟩
  | read _ hqueue hnow hclock hread ih =>
    obtain ⟨_, hkept⟩ := ih
    obtain ⟨mark, haccepted, hsound, hrest⟩ := hkept.accepted hqueue hnow hclock
    refine ⟨mark, ?_, hsound, hrest, hkept.current⟩
    exact Except.ok.inj (hread.symm.trans haccepted)

end Runs

/-- In every run whose hardware samples without gauge bits carry no gauge values of their own, the
renderer accepts the view at the head of the socket. -/
theorem views_accepted_when_gauged (run : RunId) (s : System) (hreaches : Reaches run Gauged s)
    (view : View) (sentAt : Nat) (rest : List (View × Nat)) (hqueue : s.queue = (view, sentAt) :: rest)
    (now : Nat) (clock : Fin 2 → Nat) (hnow : sentAt ≤ now) (hclock : ∀ i, sentAt ≤ clock i) :
    ∃ renderer, hudSnapshotRead run s.renderer view now clock = .ok renderer := by
  obtain ⟨_, hkept⟩ := hreaches.kept
  obtain ⟨mark, haccepted, _⟩ := hkept.accepted hqueue hnow hclock
  exact ⟨mark.renderer, haccepted⟩

/-! A sample that carries gauge values without a gauge bit, and a gauge sample after it. -/

def zeroRun : RunId := Vector.replicate 16 0

def opened : Hud := { input := true, metrics := fun _ => true }

def hardwareTick (now : Nat) (next : StatusMetrics) : Tick :=
  { now := now, phase := 0, waits := fun _ => .nothing, sent := .whole
    receipts := fun i => if i = 1 then [.datagram next (some now)] else [] }

def unmarked (value : Nat) : StatusMetrics :=
  { magic := sampleMagic, source := 1, sequence := 1, gaugeSequence := value, cpuExpected := 13 }

def marked : StatusMetrics :=
  { magic := sampleMagic, valid := 224, source := 1, sequence := 2, gaugeSequence := 1
    gaugeVoltageUv := 4000000, cpuExpected := 13 }

def firstShown (value : Nat) : System :=
  System.tick { hud := opened } zeroRun (hardwareTick 1000 (unmarked value)) 1000

def firstView (value : Nat) : View :=
  { state := 0, sequence := 1, uptimeMs := 1000, run := zeroRun
    sourceState := (firstShown value).hud.state, sample := (firstShown value).hud.sample }

def secondShown (value : Nat) : System :=
  System.tick { firstShown value with
    queue := [], renderer := ⟨1, 1000, (firstView value).sample⟩ }
    zeroRun (hardwareTick 2000 marked) 2000

theorem hardwareTick_timely (now : Nat) (next : StatusMetrics) :
    (hardwareTick now next).Timely now := by
  refine ⟨Nat.le_refl _, fun i m received hmem => ?_⟩
  by_cases hi : i = 1
  · have : .datagram m (some received) = Receipt.datagram next (some now) := by
      simpa [hardwareTick, hi] using hmem
    cases this
    exact Nat.le_refl _
  · simp [hardwareTick, hi] at hmem

theorem secondShown_reached {condition : Hud → Tick → Prop} {value : Nat}
    (hfirst : condition opened (hardwareTick 1000 (unmarked value)))
    (hsecond : condition (firstShown value).hud (hardwareTick 2000 marked))
    (hsent : (firstShown value).queue = [(firstView value, 1000)])
    (hread : hudSnapshotRead zeroRun {} (firstView value) 1000 (fun _ => 1000) =
      .ok ⟨1, 1000, (firstView value).sample⟩) :
    Reaches zeroRun condition (secondShown value) := by
  have hstart : Reaches zeroRun condition { hud := opened } := .start ⟨rfl, rfl, rfl, rfl⟩
  have htick := hstart.tick (Nat.zero_le 1000) (hardwareTick_timely 1000 (unmarked value)) hfirst
  have hshown := htick.read hsent (Nat.le_refl 1000) (fun _ => Nat.le_refl 1000) hread
  exact hshown.tick (show 1000 ≤ 2000 by decide) (hardwareTick_timely 2000 marked) hsecond

theorem gauge_values_without_bits_stop_the_renderer :
    ∃ (s : System) (view : View), Reaches zeroRun (fun _ _ => True) s ∧ s.queue = [(view, 2000)] ∧
      hudSnapshotRead zeroRun s.renderer view 2000 (fun _ => 2000) = .error "hud-sample-invalid" := by
  refine ⟨secondShown 9, _, secondShown_reached trivial trivial ?_ ?_, rfl, ?_⟩
  · rfl
  · rfl
  · rfl

theorem views_accepted_when_gauged_twice :
    ∃ (s : System) (view : View), Reaches zeroRun Gauged s ∧ s.queue = [(view, 2000)] ∧
      ∃ renderer, hudSnapshotRead zeroRun s.renderer view 2000 (fun _ => 2000) = .ok renderer := by
  have hreaches : Reaches zeroRun Gauged (secondShown 0) :=
    secondShown_reached ⟨fun _ => by decide, trivial⟩ ⟨nofun, trivial⟩ rfl rfl
  exact ⟨secondShown 0, _, hreaches, rfl,
    views_accepted_when_gauged zeroRun (secondShown 0) hreaches _ 2000 [] rfl 2000 (fun _ => 2000)
      (Nat.le_refl _) (fun _ => Nat.le_refl _)⟩

end NativeInitLab.Resident.Views
