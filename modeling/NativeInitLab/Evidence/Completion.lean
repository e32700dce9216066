import NativeInitLab.Evidence.Boot

namespace NativeInitLab.Evidence.Device

open FixedWidth LittleEndian Lockstep

/-! What a file that holds a COMPLETE record says about the run it records.  `de_apply`
remembers a few numbers; the order of all records follows from them. -/

def progressOf (history : List Fields) : List Fields :=
  history.filter fun f => f.kind == kindProgress

def boundariesOf (phase : Nat) (history : List Fields) : List Fields :=
  history.filter fun f => f.kind == kindBoundary && f.phase == phase

def Closing (f : Fields) : Prop :=
  f.kind = kindStop ∨ f.kind = kindRebootIntent ∨ f.kind = kindShutdownIntent

/-- The members of `struct de_chain` that order the records. -/
structure Order where
  count : Nat
  started : Nat
  complete : Nat
  stopped : Nat
  control : Nat
  elapsed : Nat
  progress : Nat
  progressMs : Nat
  lastEvent : Nat → Nat
  pid : Nat → Nat
  status : Nat → Nat
  waitMs : Nat → Nat

def DeChain.order (s : DeChain) : Order :=
  ⟨s.count, s.started, s.complete, s.stopped, s.control, s.elapsed, s.progress, s.progressMs,
    s.lastEvent, s.pid, s.status, s.waitMs⟩

structure SampleOk (o : Order) (f : Fields) : Prop where
  lower : 10000 * (o.progress - 2) ≤ f.a
  upper : f.a ≤ 10000 * (o.progress - 2) + 10000
  recorded : f.a ≤ f.elapsed
  later : 3 ≤ o.progress → o.progressMs < f.a

def Succeeds (phase last event : Nat) : Prop :=
  (last = 0 ∧ event = if phase = 1 then 1 else 2) ∨ (last = 1 ∧ event = 2) ∨
    (last = 2 ∧ event = 3) ∨ ((last = 3 ∨ last = 4) ∧ (event = 4 ∨ event = 5))

def Order.bounded (o : Order) (i : Nat) (f : Fields) : Order :=
  { o with
    lastEvent := Function.update o.lastEvent i f.event
    pid := Function.update o.pid i f.a
    status := Function.update o.status i f.b
    waitMs := Function.update o.waitMs i f.elapsed }

def Neutral (f : Fields) : Prop :=
  f.kind ∈ [kindReportLost, kindRelease, kindConfigCreated, kindConfigRetired,
    kindPackageIntent, kindPackageComplete, kindAptClock, kindAptAcquired]

/-- What one accepted record does to the members that order the records. -/
inductive Step (o : Order) (f : Fields) : Order → Prop where
  | init (hkind : f.kind = kindInit) (hseq : f.seq = 0) : Step o f o
  | start (hkind : f.kind = kindStart) (hseq : f.seq = 1) : Step o f { o with started := 1 }
  | progress (hkind : f.kind = kindProgress) (hstarted : o.started ≠ 0)
      (hsample : 2 ≤ o.progress → SampleOk o f)
      (hended : ∀ i < 2, o.progress = i + 1 → o.lastEvent i = 5 ∧ o.status i = 0) :
      Step o f { o with progress := o.progress + 1, progressMs := f.a }
  | boundary (hkind : f.kind = kindBoundary) (hstarted : o.started ≠ 0) (i : Nat)
      (hi : i < 2) (hphase : f.phase = i + 1) (hprogress : o.progress = i + 1)
      (hnext : Succeeds f.phase (o.lastEvent i) f.event)
      (hpid : 3 ≤ f.event → 1 < f.a ∧ f.a ≤ intMax)
      (hsame : 4 ≤ f.event → f.a = o.pid i)
      (hwait : f.event = 4 → dhSampleMs ≤ sub64 f.elapsed (o.waitMs i)) :
      Step o f (o.bounded i f)
  | complete (hkind : f.kind = kindComplete) (hstarted : o.started ≠ 0)
      (hprogress : o.progress = 15) : Step o f { o with complete := 1 }
  | stop (hkind : f.kind = kindStop) (hseq : f.seq ≠ 0) : Step o f { o with stopped := 1 }
  | intent (hkind : f.kind = kindRebootIntent ∨ f.kind = kindShutdownIntent)
      (hcomplete : o.complete ≠ 0) : Step o f { o with control := f.kind }
  | other (hkind : Neutral f) (hopen : o.started ≠ 0 ∨ o.complete ≠ 0) : Step o f o

section Steps

variable {build : Revision} {consts : Seal} {mac : Mac} {s t : DeChain} {f : Fields}

theorem applyProgress_step (hkind : f.kind = kindProgress)
    (h : applyProgress build s f = some t) : Step s.order f t.order := by
  rw [applyProgress, Option.ite_none_left_eq_some, Option.ite_none_left_eq_some] at h
  obtain ⟨hchecks, -, hnext⟩ := h
  cases hnext
  simp only [not_or, dhSamples] at hchecks
  obtain ⟨hstarted, -, hlimit, -, hevent, -, htimes, hfirst, hsecond⟩ := hchecks
  have hwrap : wrap32 (s.progress + 1) = s.progress + 1 := wrap32_of_lt (by omega)
  rw [hwrap]
  refine @Step.progress s.order f hkind hstarted ?_ ?_
  · intro (htwo : 2 ≤ s.progress)
    have hnumber : f.event = s.progress - 2 := by
      split at hevent <;> omega
    rw [if_neg (by omega)] at htimes
    simp only [not_or, dhSampleMs, hnumber] at htimes
    rw [wrap64_of_lt (by omega), wrap64_of_lt (by omega)] at htimes
    obtain ⟨-, hlower, hupper, hrecorded, hlater⟩ := htimes
    refine ⟨?_, ?_, by omega, ?_⟩
    · show 10000 * (s.progress - 2) ≤ f.a
      omega
    · show f.a ≤ 10000 * (s.progress - 2) + 10000
      omega
    · intro (hthree : 3 ≤ s.progress)
      show s.progressMs < f.a
      omega
  · intro i hi (hphase : s.progress = i + 1)
    show s.lastEvent i = 5 ∧ s.status i = 0
    obtain rfl | rfl : i = 0 ∨ i = 1 := by omega
    · omega
    · omega

theorem applyBoundary_step (hkind : f.kind = kindBoundary)
    (h : applyBoundary s f = some t) : Step s.order f t.order := by
  rw [applyBoundary, Option.ite_none_left_eq_some, Option.ite_none_left_eq_some] at h
  obtain ⟨hguard, hchecks, hnext⟩ := h
  cases hnext
  simp only [not_or, not_not, Nat.not_lt] at hguard
  obtain ⟨hstarted, -, hlow, hhigh, hprogress⟩ := hguard
  simp only [not_or] at hchecks
  obtain ⟨-, hevent, hvalues, -, hsame⟩ := hchecks
  have hstatus : wrap32 f.b = f.b := by
    apply wrap32_of_lt
    split at hvalues <;> omega
  rw [hstatus]
  refine @Step.boundary s.order f hkind hstarted (f.phase - 1) (by omega) (by omega)
    (hprogress.trans (by omega)) ?_ ?_ ?_ ?_
  · show Succeeds f.phase (s.lastEvent (f.phase - 1)) f.event
    unfold Succeeds
    by_cases hzero : s.lastEvent (f.phase - 1) = 0
    · rw [if_pos hzero, not_not] at hevent
      exact .inl ⟨hzero, hevent⟩
    · rw [if_neg hzero] at hevent
      by_cases hone : s.lastEvent (f.phase - 1) = 1
      · rw [if_pos hone] at hevent
        omega
      · rw [if_neg hone] at hevent
        by_cases htwo : s.lastEvent (f.phase - 1) = 2
        · rw [if_pos htwo] at hevent
          omega
        · rw [if_neg htwo] at hevent
          by_cases hmore : s.lastEvent (f.phase - 1) = 3 ∨ s.lastEvent (f.phase - 1) = 4
          · rw [if_pos hmore] at hevent
            omega
          · rw [if_neg hmore] at hevent
            exact absurd trivial hevent
  · intro hthree
    rw [if_neg (by omega)] at hvalues
    omega
  · intro hfour
    show f.a = s.pid (f.phase - 1)
    omega
  · intro hfour
    show dhSampleMs ≤ sub64 f.elapsed (s.waitMs (f.phase - 1))
    omega

def Keeps (s : DeChain) (result : Option DeChain) : Prop :=
  ∀ t, result = some t → (s.started ≠ 0 ∨ s.complete ≠ 0) ∧ t.order = s.order

theorem keeps_none : Keeps s none := by
  intro t ht
  cases ht

theorem keeps_some (hopen : s.started ≠ 0 ∨ s.complete ≠ 0) (hsame : t.order = s.order) :
    Keeps s (some t) := by
  intro u hu
  cases hu
  exact ⟨hopen, hsame⟩

theorem keeps_ite {condition : Prop} [Decidable condition] {first second : Option DeChain}
    (hfirst : Keeps s first) (hsecond : Keeps s second) :
    Keeps s (if condition then first else second) := by
  split
  case isTrue => exact hfirst
  case isFalse => exact hsecond

theorem keeps_refuse {condition : Prop} [Decidable condition] {second : Option DeChain}
    (hsecond : ¬ condition → Keeps s second) : Keeps s (if condition then none else second) := by
  split
  case isTrue => exact keeps_none
  case isFalse hcondition => exact hsecond hcondition

theorem keeps_reportLost : Keeps s (applyReportLost build s f) := by
  refine keeps_refuse fun _ => keeps_refuse fun hguard => ?_
  have hoff {condition : Prop} [Decidable condition] :
      Keeps s (if condition then none else some { s with off := 1 }) :=
    keeps_refuse fun _ => keeps_some (.inl (not_or.mp hguard).1) rfl
  refine keeps_ite hoff (keeps_refuse fun _ => keeps_ite hoff ?_)
  exact keeps_ite hoff (keeps_ite hoff keeps_none)

theorem keeps_release : Keeps s (applyRelease build s f) :=
  keeps_refuse fun _ => keeps_refuse fun hguard =>
    keeps_some (.inr (not_or.mp hguard).1) rfl

theorem keeps_configCreated : Keeps s (applyConfigCreated build consts s f) := by
  refine keeps_refuse fun _ => keeps_refuse fun hguard => ?_
  have hstarted : s.started ≠ 0 := (not_or.mp (not_or.mp hguard).2).1
  exact keeps_ite (keeps_refuse fun _ => keeps_some (.inl hstarted) rfl)
    (keeps_refuse fun _ => keeps_some (.inl hstarted) rfl)

theorem keeps_configRetired : Keeps s (applyConfigRetired s f) :=
  keeps_refuse fun hguard =>
    keeps_some (.inl (not_or.mp (not_or.mp hguard).2).1) rfl

theorem keeps_package : Keeps s (applyPackage build consts s f) := by
  refine keeps_refuse fun hguard => ?_
  have hstarted : s.started ≠ 0 := (not_or.mp hguard).1
  refine keeps_ite (keeps_refuse fun _ => keeps_refuse fun _ => ?_) (keeps_refuse fun _ => ?_)
  · exact keeps_some (.inl hstarted) rfl
  · exact keeps_some (.inl hstarted) rfl

theorem keeps_aptClock : Keeps s (applyAptClock s f) :=
  keeps_refuse fun hguard => keeps_some (.inl (not_or.mp hguard).1) rfl

theorem keeps_aptAcquired : Keeps s (applyAptAcquired consts s f) :=
  keeps_refuse fun hguard => keeps_some (.inl (not_or.mp hguard).1) rfl

theorem Keeps.step {result : Option DeChain} (hkeeps : Keeps s result) (h : result = some t)
    (hkind : Neutral f) : Step s.order f t.order := by
  obtain ⟨hopen, hsame⟩ := hkeeps t h
  rw [hsame]
  exact .other hkind hopen

theorem cases_of_ite {condition : Prop} [Decidable condition] {first second : Option DeChain}
    (h : (if condition then first else second) = some t) :
    (condition ∧ first = some t) ∨ second = some t := by
  by_cases hcondition : condition
  · rw [if_pos hcondition] at h
    exact .inl ⟨hcondition, h⟩
  · rw [if_neg hcondition] at h
    exact .inr h

theorem applyKind_step (h : applyKind build consts s f = some t) : Step s.order f t.order := by
  rw [applyKind] at h
  rcases cases_of_ite h with ⟨hkind, h⟩ | h
  · rw [applyInit, Option.ite_none_left_eq_some] at h
    obtain ⟨hguard, hnext⟩ := h
    cases hnext
    exact .init hkind (not_not.mp (not_or.mp hguard).1)
  rcases cases_of_ite h with ⟨hkind, h⟩ | h
  · rw [applyStart, Option.ite_none_left_eq_some] at h
    obtain ⟨hguard, hnext⟩ := h
    cases hnext
    exact @Step.start s.order f hkind (not_not.mp (not_or.mp hguard).1)
  rcases cases_of_ite h with ⟨hkind, h⟩ | h
  · exact keeps_reportLost.step h (by simp [Neutral, hkind])
  rcases cases_of_ite h with ⟨hkind, h⟩ | h
  · exact applyProgress_step hkind h
  rcases cases_of_ite h with ⟨hkind, h⟩ | h
  · exact applyBoundary_step hkind h
  rcases cases_of_ite h with ⟨hkind, h⟩ | h
  · rw [applyComplete, Option.ite_none_left_eq_some, Option.ite_none_left_eq_some,
      Option.ite_none_left_eq_some] at h
    obtain ⟨hguard, -, -, hnext⟩ := h
    cases hnext
    simp only [not_or, not_not] at hguard
    exact @Step.complete s.order f hkind hguard.1 hguard.2.2.1
  rcases cases_of_ite h with ⟨hkind, h⟩ | h
  · exact keeps_configCreated.step h (by simp [Neutral, hkind.2])
  rcases cases_of_ite h with ⟨hkind, h⟩ | h
  · exact keeps_configRetired.step h (by simp [Neutral, hkind.2])
  rcases cases_of_ite h with ⟨hkind, h⟩ | h
  · refine keeps_package.step h ?_
    rcases hkind.2 with hkind | hkind
    · simp [Neutral, hkind]
    · simp [Neutral, hkind]
  rcases cases_of_ite h with ⟨hkind, h⟩ | h
  · exact keeps_aptClock.step h (by simp [Neutral, hkind.2])
  rcases cases_of_ite h with ⟨hkind, h⟩ | h
  · exact keeps_aptAcquired.step h (by simp [Neutral, hkind.2])
  rcases cases_of_ite h with ⟨hkind, h⟩ | h
  · exact keeps_release.step h (by simp [Neutral, hkind])
  rcases cases_of_ite h with ⟨hkind, h⟩ | h
  · rw [applyIntent, Option.ite_none_left_eq_some] at h
    obtain ⟨hguard, hnext⟩ := h
    cases hnext
    exact @Step.intent s.order f hkind.2 (not_or.mp hguard).1
  rcases cases_of_ite h with ⟨hkind, h⟩ | h
  · rw [applyStop, Option.ite_none_left_eq_some] at h
    obtain ⟨hguard, hnext⟩ := h
    cases hnext
    exact @Step.stop s.order f hkind (not_or.mp hguard).1
  · cases h

structure Admits (o : Order) (f : Fields) : Prop where
  seq : f.seq = o.count
  limit : o.count < recordLimit
  short : f.elapsed < swTimeoutMs
  later : o.count ≠ 0 → o.elapsed ≤ f.elapsed
  running : o.stopped = 0
  open_ : o.control = 0

def Order.advance (o : Order) (f : Fields) : Order :=
  { o with count := wrap32 (o.count + 1), elapsed := f.elapsed }

theorem deApply_step {record : Record} (h : deApply build consts mac s record = some t) :
    Admits s.order (fields record) ∧
      ∃ o, Step s.order (fields record) o ∧ t.order = o.advance (fields record) := by
  rw [deApply, Option.ite_none_left_eq_some] at h
  obtain ⟨hchecks, hkind⟩ := h
  simp only [not_or, not_not, Nat.not_le, not_and, Nat.not_lt] at hchecks
  obtain ⟨-, hseq, hlimit, -, hshort, hlater, -, hrunning, hopen, -⟩ := hchecks
  obtain ⟨u, hu, rfl⟩ := Option.map_eq_some_iff.mp hkind
  rw [hseq] at hlimit hlater
  exact ⟨⟨hseq, hlimit, hshort, hlater, hrunning, hopen⟩, u.order, applyKind_step hu, rfl⟩

end Steps

/-! What these members say about the records so far. -/

/-- The events of a phase up to `last`, with a number of waits. -/
def eventsUpTo (phase last waits : Nat) : List Nat :=
  let lead := if phase = 1 then [1] else []
  match last with
  | 0 => []
  | 1 => lead
  | 2 => lead ++ [2]
  | 3 => lead ++ [2, 3]
  | 4 => lead ++ [2, 3] ++ List.replicate (waits + 1) 4
  | _ => lead ++ [2, 3] ++ List.replicate waits 4 ++ [5]

theorem eventsUpTo_append {phase last event : Nat} (hnext : Succeeds phase last event)
    (waits : Nat) :
    ∃ waits', eventsUpTo phase last waits ++ [event] = eventsUpTo phase event waits' := by
  rcases hnext with ⟨rfl, rfl⟩ | ⟨rfl, rfl⟩ | ⟨rfl, rfl⟩ | ⟨rfl | rfl, rfl | rfl⟩
  · refine ⟨0, ?_⟩
    by_cases hphase : phase = 1
    · simp [eventsUpTo, hphase]
    · simp [eventsUpTo, hphase]
  · exact ⟨0, rfl⟩
  · exact ⟨0, by simp [eventsUpTo]⟩
  · exact ⟨0, by simp [eventsUpTo]⟩
  · exact ⟨0, by simp [eventsUpTo]⟩
  · exact ⟨waits + 1, by simp [eventsUpTo, List.replicate_succ']⟩
  · exact ⟨waits + 1, by simp [eventsUpTo]⟩

theorem le_last_of_mem {phase last waits event : Nat} (hlast : last ≤ 4)
    (hmem : event ∈ eventsUpTo phase last waits) : event ≤ max last 1 := by
  have hlead (event : Nat) (hmem : event ∈ if phase = 1 then [1] else []) : event = 1 := by
    split at hmem
    · exact List.mem_singleton.mp hmem
    · exact absurd hmem List.not_mem_nil
  obtain rfl | rfl | rfl | rfl | rfl : last = 0 ∨ last = 1 ∨ last = 2 ∨ last = 3 ∨ last = 4 := by
    omega
  · exact absurd hmem List.not_mem_nil
  · rw [hlead event hmem]
    decide
  all_goals
    simp only [eventsUpTo, List.mem_append, List.mem_cons, List.not_mem_nil, or_false,
      List.mem_replicate, or_assoc] at hmem
    rcases hmem with hmem | hmem
    · rw [hlead event hmem]
      decide
    · omega

structure PhaseSoFar (phase : Nat) (records : List Fields) (last pid status wait : Nat) : Prop where
  events : ∃ waits, records.map Fields.event = eventsUpTo phase last waits
  pids : ∀ f ∈ records, 3 ≤ f.event → f.a = pid
  known : 3 ≤ last → 1 < pid ∧ pid ≤ intMax
  statuses : ∀ f ∈ records, f.event = 5 → f.b = status
  waited : ∀ f ∈ records, f.elapsed ≤ wait

section Summaries

variable {h : List Fields} {o o' : Order} {f : Fields}

theorem PhaseSoFar.append {phase last pid status wait : Nat} {records : List Fields}
    (hphase : PhaseSoFar phase records last pid status wait)
    (hnext : Succeeds phase last f.event) (hpid : 3 ≤ f.event → 1 < f.a ∧ f.a ≤ intMax)
    (hsame : 4 ≤ f.event → f.a = pid) (hwait : wait ≤ f.elapsed) :
    PhaseSoFar phase (records ++ [f]) f.event f.a f.b f.elapsed := by
  obtain ⟨waits, hevents⟩ := hphase.events
  obtain ⟨waits', hgrown⟩ := eventsUpTo_append hnext waits
  have hlast : last ≤ 4 ∧ (f.event ≤ 3 → last ≤ 2) := by
    unfold Succeeds at hnext
    split at hnext <;> omega
  have hbelow (g : Fields) (hg : g ∈ records) : g.event ≤ max last 1 :=
    le_last_of_mem hlast.1 (hevents ▸ List.mem_map_of_mem hg)
  refine ⟨⟨waits', ?_⟩, ?_, hpid, ?_, ?_⟩
  · rw [List.map_append, hevents, List.map_singleton, hgrown]
  · intro g hg hthree
    rcases List.mem_append.mp hg with hg | hg
    · have hmax := hbelow g hg
      rw [hphase.pids g hg hthree, hsame]
      omega
    · rw [List.mem_singleton.mp hg]
  · intro g hg hfive
    rcases List.mem_append.mp hg with hg | hg
    · have hmax := hbelow g hg
      omega
    · rw [List.mem_singleton.mp hg]
  · intro g hg
    rcases List.mem_append.mp hg with hg | hg
    · exact (hphase.waited g hg).trans hwait
    · rw [List.mem_singleton.mp hg]

structure Envelope (h : List Fields) (o : Order) : Prop where
  count : o.count = h.length
  first : ∀ f rest, h = f :: rest → f.kind = kindInit
  started : o.started ≠ 0 → ∃ init start rest, h = init :: start :: rest ∧
    init.kind = kindInit ∧ start.kind = kindStart
  complete : o.complete ≠ 0 → o.started ≠ 0
  closed : ∀ f ∈ h, Closing f → o.stopped ≠ 0 ∨ o.control ≠ 0
  fresh : h = [] → o.elapsed = 0
  elapsed : ∀ f ∈ h, f.elapsed ≤ o.elapsed

structure Sampling (h : List Fields) (o : Order) : Prop where
  progress : (progressOf h).length = o.progress
  samples : ∀ f ∈ (progressOf h).drop 2, f.a ≤ o.progressMs

structure Phases (h : List Fields) (o : Order) : Prop where
  phases : ∀ i < 2, PhaseSoFar (i + 1) (boundariesOf (i + 1) h) (o.lastEvent i) (o.pid i)
    (o.status i) (o.waitMs i)
  waited : ∀ i < 2, o.waitMs i ≤ o.elapsed

structure Summary (h : List Fields) (o : Order) : Prop where
  opening : Envelope h o
  sampling : Sampling h o
  phases : Phases h o

theorem Envelope.elapsed_le (hs : Envelope h o) (hadmits : Admits o f) : o.elapsed ≤ f.elapsed := by
  by_cases hcount : o.count = 0
  · have hempty : h = [] := by
      rw [hs.count] at hcount
      exact List.length_eq_zero_iff.mp hcount
    rw [hs.fresh hempty]
    exact Nat.zero_le _
  · exact hadmits.later hcount

theorem Envelope.early (hs : Envelope h o) (hstep : Step o f o') (hnot : o.started = 0) :
    (f.kind = kindInit ∧ f.seq = 0) ∨ (f.kind = kindStart ∧ f.seq = 1) ∨
      (f.kind = kindStop ∧ f.seq ≠ 0) := by
  have hincomplete : o.complete = 0 := by
    by_contra hcomplete
    exact hs.complete hcomplete hnot
  cases hstep with
  | init hkind hseq => exact .inl ⟨hkind, hseq⟩
  | start hkind hseq => exact .inr (.inl ⟨hkind, hseq⟩)
  | stop hkind hseq => exact .inr (.inr ⟨hkind, hseq⟩)
  | progress hkind hstarted | boundary hkind hstarted | complete hkind hstarted =>
    exact absurd hnot hstarted
  | intent hkind hcomplete => exact absurd hincomplete hcomplete
  | other hkind hopen => exact absurd hopen (by simp [hnot, hincomplete])

theorem Step.count (hstep : Step o f o') : o'.count = o.count := by
  cases hstep <;> rfl

theorem Step.started (hstep : Step o f o') :
    o'.started = o.started ∨ f.kind = kindStart ∧ f.seq = 1 ∧ o'.started = 1 := by
  cases hstep with
  | start hkind hseq => exact .inr ⟨hkind, hseq, rfl⟩
  | _ => exact .inl rfl

theorem Step.complete_started (hs : Envelope h o) (hstep : Step o f o')
    (hcomplete : o'.complete ≠ 0) : o'.started ≠ 0 := by
  cases hstep with
  | start hkind hseq => exact Nat.one_ne_zero
  | complete hkind hstarted => exact hstarted
  | _ => exact hs.complete hcomplete

theorem Step.closes (hstep : Step o f o') (hclosing : Closing f) :
    o'.stopped ≠ 0 ∨ o'.control ≠ 0 := by
  rw [Closing] at hclosing
  have hnot {kind : Nat} (hkind : f.kind = kind)
      (hother : ¬ (kind = kindStop ∨ kind = kindRebootIntent ∨ kind = kindShutdownIntent)) :
      o'.stopped ≠ 0 ∨ o'.control ≠ 0 :=
    absurd (hkind ▸ hclosing) hother
  cases hstep with
  | stop hkind hseq => exact .inl Nat.one_ne_zero
  | intent hkind hcomplete =>
    refine .inr ?_
    show f.kind ≠ 0
    rcases hkind with hkind | hkind
    · rw [hkind]
      decide
    · rw [hkind]
      decide
  | other hkind hopen =>
    rw [Neutral] at hkind
    rcases hclosing with hstop | hstop | hstop
    all_goals
      rw [hstop] at hkind
      exact absurd hkind (by decide)
  | init hkind | start hkind | progress hkind | boundary hkind | complete hkind =>
    exact hnot hkind (by decide)

theorem Step.kinds (hstep : Step o f o') :
    (f.kind = kindProgress ∧ o.started ≠ 0 ∧ (2 ≤ o.progress → SampleOk o f) ∧
      (∀ i < 2, o.progress = i + 1 → o.lastEvent i = 5 ∧ o.status i = 0) ∧
      o' = { o with progress := o.progress + 1, progressMs := f.a }) ∨
    (f.kind = kindBoundary ∧ ∃ i < 2, f.phase = i + 1 ∧ o.progress = i + 1 ∧
      Succeeds f.phase (o.lastEvent i) f.event ∧ (3 ≤ f.event → 1 < f.a ∧ f.a ≤ intMax) ∧
      (4 ≤ f.event → f.a = o.pid i) ∧
      (f.event = 4 → dhSampleMs ≤ sub64 f.elapsed (o.waitMs i)) ∧ o' = o.bounded i f) ∨
    (f.kind = kindComplete ∧ o.started ≠ 0 ∧ o.progress = 15 ∧ o' = { o with complete := 1 }) ∨
    ((f.kind ≠ kindProgress ∧ f.kind ≠ kindBoundary ∧ f.kind ≠ kindComplete) ∧
      (o'.progress = o.progress ∧ o'.progressMs = o.progressMs) ∧
      o'.lastEvent = o.lastEvent ∧ o'.pid = o.pid ∧ o'.status = o.status ∧
      o'.waitMs = o.waitMs) := by
  have hrest {kind : Nat} (hkind : f.kind = kind)
      (hother : kind ≠ kindProgress ∧ kind ≠ kindBoundary ∧ kind ≠ kindComplete) :
      f.kind ≠ kindProgress ∧ f.kind ≠ kindBoundary ∧ f.kind ≠ kindComplete :=
    hkind ▸ hother
  cases hstep with
  | progress hkind hstarted hsample hended =>
    exact .inl ⟨hkind, hstarted, hsample, hended, rfl⟩
  | boundary hkind hstarted i hi hphase hprogress hnext hpid hsame hwait =>
    exact .inr (.inl ⟨hkind, i, hi, hphase, hprogress, hnext, hpid, hsame, hwait, rfl⟩)
  | complete hkind hstarted hprogress =>
    exact .inr (.inr (.inl ⟨hkind, hstarted, hprogress, rfl⟩))
  | init hkind =>
    exact .inr (.inr (.inr ⟨hrest hkind (by decide), ⟨rfl, rfl⟩, rfl, rfl, rfl, rfl⟩))
  | start hkind =>
    exact .inr (.inr (.inr ⟨hrest hkind (by decide), ⟨rfl, rfl⟩, rfl, rfl, rfl, rfl⟩))
  | stop hkind =>
    exact .inr (.inr (.inr ⟨hrest hkind (by decide), ⟨rfl, rfl⟩, rfl, rfl, rfl, rfl⟩))
  | intent hkind =>
    refine .inr (.inr (.inr ⟨?_, ⟨rfl, rfl⟩, rfl, rfl, rfl, rfl⟩))
    rcases hkind with hkind | hkind
    · exact hrest hkind (by decide)
    · exact hrest hkind (by decide)
  | other hkind =>
    have hout {kind : Nat} (hother : kind ∉ [kindReportLost, kindRelease, kindConfigCreated,
        kindConfigRetired, kindPackageIntent, kindPackageComplete, kindAptClock,
        kindAptAcquired]) : f.kind ≠ kind :=
      fun hsame => hother (hsame ▸ hkind)
    exact .inr (.inr (.inr ⟨⟨hout (by decide), hout (by decide), hout (by decide)⟩,
      ⟨rfl, rfl⟩, rfl, rfl, rfl, rfl⟩))

theorem Envelope.step (hs : Envelope h o) (hadmits : Admits o f) (hstep : Step o f o') :
    Envelope (h ++ [f]) (o'.advance f) := by
  have hclock := hs.elapsed_le hadmits
  have hseq : f.seq = h.length := hadmits.seq.trans hs.count
  have hfirst : h = [] → f.kind = kindInit := by
    rintro rfl
    have hnot : o.started = 0 := by
      by_contra hstarted
      obtain ⟨_, _, _, hnil, -⟩ := hs.started hstarted
      cases hnil
    rw [List.length_nil] at hseq
    rcases hs.early hstep hnot with ⟨hkind, -⟩ | ⟨-, hone⟩ | ⟨-, hsome⟩
    · exact hkind
    · omega
    · omega
  refine ⟨?_, ?_, ?_, ?_, ?_, ?_, ?_⟩
  · have hlimit := hadmits.limit
    show wrap32 (o'.count + 1) = (h ++ [f]).length
    rw [hstep.count, List.length_append, List.length_singleton, ← hs.count]
    apply wrap32_of_lt
    simp only [recordLimit] at hlimit
    omega
  · intro g rest hsplit
    cases h with
    | nil =>
      obtain ⟨rfl, -⟩ := List.cons.inj hsplit
      exact hfirst rfl
    | cons first others =>
      obtain ⟨rfl, -⟩ := List.cons.inj hsplit
      exact hs.first first others rfl
  · intro (hstarted : o'.started ≠ 0)
    rcases hstep.started with hsame | ⟨hkind, hone, -⟩
    · rw [hsame] at hstarted
      obtain ⟨init, start, rest, rfl, hinit, hstart⟩ := hs.started hstarted
      exact ⟨init, start, rest ++ [f], rfl, hinit, hstart⟩
    · rw [hone] at hseq
      obtain ⟨init, rfl⟩ := List.length_eq_one_iff.mp hseq.symm
      exact ⟨init, f, [], rfl, hs.first init [] rfl, hkind⟩
  · intro hcomplete
    have hstarted : o'.started ≠ 0 := hstep.complete_started hs hcomplete
    exact hstarted
  · intro g hg hclosing
    rcases List.mem_append.mp hg with hg | hg
    · have hold := hs.closed g hg hclosing
      rw [hadmits.running, hadmits.open_] at hold
      simp at hold
    · rw [List.mem_singleton.mp hg] at hclosing
      exact hstep.closes hclosing
  · intro hnil
    simp at hnil
  · intro g hg
    show g.elapsed ≤ f.elapsed
    rcases List.mem_append.mp hg with hg | hg
    · exact (hs.elapsed g hg).trans hclock
    · rw [List.mem_singleton.mp hg]

theorem progressOf_append (h : List Fields) (f : Fields) :
    progressOf (h ++ [f]) = if f.kind = kindProgress then progressOf h ++ [f]
      else progressOf h := by
  by_cases hkind : f.kind = kindProgress
  · simp [progressOf, hkind]
  · simp [progressOf, hkind]

theorem boundariesOf_append (phase : Nat) (h : List Fields) (f : Fields) :
    boundariesOf phase (h ++ [f]) = if f.kind = kindBoundary ∧ f.phase = phase then
      boundariesOf phase h ++ [f] else boundariesOf phase h := by
  by_cases hkind : f.kind = kindBoundary ∧ f.phase = phase
  · simp [boundariesOf, hkind.1, hkind.2]
  · have hfalse : (f.kind == kindBoundary && f.phase == phase) = false := by
      simpa using hkind
    rw [if_neg hkind, boundariesOf, List.filter_append, List.filter_singleton, hfalse]
    exact List.append_nil _

theorem Sampling.congr (hs : Sampling h o) (hkind : f.kind ≠ kindProgress)
    (hprogress : o'.progress = o.progress) (hms : o'.progressMs = o.progressMs) :
    Sampling (h ++ [f]) (o'.advance f) := by
  have hsame : progressOf (h ++ [f]) = progressOf h := by
    rw [progressOf_append, if_neg hkind]
  refine ⟨?_, ?_⟩
  · show (progressOf (h ++ [f])).length = o'.progress
    rw [hsame, hprogress, hs.progress]
  · intro g hg
    show g.a ≤ o'.progressMs
    rw [hsame] at hg
    rw [hms]
    exact hs.samples g hg

theorem Sampling.step (hs : Sampling h o) (hstep : Step o f o') :
    Sampling (h ++ [f]) (o'.advance f) := by
  rcases hstep.kinds with ⟨hkind, -, hsample, -, rfl⟩ | ⟨hkind, i, -, -, -, -, -, -, -, rfl⟩ |
    ⟨hkind, -, -, rfl⟩ | ⟨⟨hkind, -, -⟩, ⟨hprogress, hms⟩, -⟩
  · have hgrown : progressOf (h ++ [f]) = progressOf h ++ [f] := by
      rw [progressOf_append, if_pos hkind]
    refine ⟨?_, ?_⟩
    · show (progressOf (h ++ [f])).length = o.progress + 1
      rw [hgrown, List.length_append, hs.progress, List.length_singleton]
    · intro g hg
      show g.a ≤ f.a
      rw [hgrown] at hg
      have hlength := List.length_pos_of_mem hg
      rw [List.length_drop, List.length_append, hs.progress, List.length_singleton] at hlength
      have htwo : 2 ≤ o.progress := by omega
      rw [List.drop_append_of_le_length (hs.progress ▸ htwo)] at hg
      rcases List.mem_append.mp hg with hg | hg
      · have hsome := List.length_pos_of_mem hg
        rw [List.length_drop, hs.progress] at hsome
        have hlater := (hsample htwo).later (by omega)
        exact (hs.samples g hg).trans (Nat.le_of_lt hlater)
      · rw [List.mem_singleton.mp hg]
  · exact hs.congr (by rw [hkind]; decide) rfl rfl
  · exact hs.congr (by rw [hkind]; decide) rfl rfl
  · exact hs.congr hkind hprogress hms

theorem Phases.congr (hs : Phases h o) (hclock : o.elapsed ≤ f.elapsed)
    (hkind : f.kind ≠ kindBoundary) (hlast : o'.lastEvent = o.lastEvent) (hpid : o'.pid = o.pid)
    (hstatus : o'.status = o.status) (hwait : o'.waitMs = o.waitMs) :
    Phases (h ++ [f]) (o'.advance f) := by
  refine ⟨?_, ?_⟩
  · intro i hi
    show PhaseSoFar (i + 1) (boundariesOf (i + 1) (h ++ [f])) (o'.lastEvent i) (o'.pid i)
      (o'.status i) (o'.waitMs i)
    rw [boundariesOf_append, if_neg fun hboth => hkind hboth.1, hlast, hpid, hstatus, hwait]
    exact hs.phases i hi
  · intro i hi
    show o'.waitMs i ≤ f.elapsed
    rw [hwait]
    exact (hs.waited i hi).trans hclock

theorem Phases.step (hs : Phases h o) (hclock : o.elapsed ≤ f.elapsed)
    (hstep : Step o f o') : Phases (h ++ [f]) (o'.advance f) := by
  rcases hstep.kinds with ⟨hkind, -, -, -, rfl⟩ |
    ⟨hkind, i, hi, hphase, -, hnext, hpid, hsame, -, rfl⟩ | ⟨hkind, -, -, rfl⟩ |
    ⟨⟨-, hkind, -⟩, -, hlast, hpid, hstatus, hwait⟩
  · exact hs.congr hclock (by rw [hkind]; decide) rfl rfl rfl rfl
  · have hwaited := (hs.waited i hi).trans hclock
    refine ⟨?_, ?_⟩
    · intro j hj
      show PhaseSoFar (j + 1) (boundariesOf (j + 1) (h ++ [f]))
        (Function.update o.lastEvent i f.event j) (Function.update o.pid i f.a j)
        (Function.update o.status i f.b j) (Function.update o.waitMs i f.elapsed j)
      rw [boundariesOf_append]
      by_cases hindex : j = i
      · subst hindex
        rw [if_pos ⟨hkind, hphase⟩, Function.update_self, Function.update_self,
          Function.update_self, Function.update_self]
        exact (hs.phases j hj).append (hphase ▸ hnext) hpid hsame hwaited
      · rw [if_neg fun hboth => hindex (by omega), Function.update_of_ne hindex,
          Function.update_of_ne hindex, Function.update_of_ne hindex,
          Function.update_of_ne hindex]
        exact hs.phases j hj
    · intro j hj
      show Function.update o.waitMs i f.elapsed j ≤ f.elapsed
      by_cases hindex : j = i
      · rw [hindex, Function.update_self]
      · rw [Function.update_of_ne hindex]
        exact (hs.waited j hj).trans hclock
  · exact hs.congr hclock (by rw [hkind]; decide) rfl rfl rfl rfl
  · exact hs.congr hclock hkind hlast hpid hstatus hwait

theorem Summary.step (hs : Summary h o) (hadmits : Admits o f) (hstep : Step o f o') :
    Summary (h ++ [f]) (o'.advance f) where
  opening := hs.opening.step hadmits hstep
  sampling := hs.sampling.step hstep
  phases := hs.phases.step (hs.opening.elapsed_le hadmits) hstep

end Summaries

section Runs

variable {build : Revision} {consts : Seal} {mac : Mac} {header : Header}
  {records : List Record} {s : DeChain}

theorem summary_scanStart : Summary [] (scanStart build header).order where
  opening :=
    { count := rfl
      first := nofun
      started := fun hstarted => absurd rfl hstarted
      complete := fun hcomplete => absurd rfl hcomplete
      closed := nofun
      fresh := fun _ => rfl
      elapsed := nofun }
  sampling := ⟨rfl, nofun⟩
  phases :=
    { phases := fun i _ => ⟨⟨0, rfl⟩, nofun, fun hlast => absurd hlast (by decide : ¬ 3 ≤ 0),
        nofun, nofun⟩
      waited := fun _ _ => Nat.le_refl 0 }

theorem deRun_summary {h : List Fields} {t : DeChain} (hs : Summary h s.order)
    (hrun : deRun build consts mac s records = some t) :
    Summary (h ++ records.map fields) t.order := by
  induction records generalizing h s with
  | nil =>
    cases hrun
    rw [List.map_nil, List.append_nil]
    exact hs
  | cons record later ih =>
    rw [deRun, runLeft_cons] at hrun
    obtain ⟨u, hrecord, hlater⟩ := Option.bind_eq_some_iff.mp hrun
    obtain ⟨hadmits, o, hstep, horder⟩ := deApply_step hrecord
    have hnext : Summary (h ++ [fields record]) u.order := horder ▸ hs.step hadmits hstep
    rw [List.map_cons, List.append_cons]
    exact ih hnext hlater

theorem accepted_at (hrun : deRun build consts mac (scanStart build header) records = some s)
    {before after : List Fields} {r : Fields} (hsplit : records.map fields = before ++ r :: after) :
    ∃ o o', Summary before o ∧ Admits o r ∧ Step o r o' := by
  obtain ⟨earlier, rest, rfl, rfl, hrest⟩ := List.map_eq_append_iff.mp hsplit
  obtain ⟨record, later, rfl, rfl, rfl⟩ := List.map_eq_cons_iff.mp hrest
  rw [deRun, runLeft_append] at hrun
  obtain ⟨t, hearlier, hlast⟩ := Option.bind_eq_some_iff.mp hrun
  rw [runLeft_cons] at hlast
  obtain ⟨u, hrecord, -⟩ := Option.bind_eq_some_iff.mp hlast
  obtain ⟨hadmits, o, hstep, -⟩ := deApply_step hrecord
  exact ⟨t.order, o, deRun_summary summary_scanStart hearlier, hadmits, hstep⟩

end Runs

structure PhaseDone (phase : Nat) (records : List Fields) : Prop where
  events : ∃ waits, records.map Fields.event =
    (if phase = 1 then [1] else []) ++ [2, 3] ++ List.replicate waits 4 ++ [5]
  child : ∃ pid, 1 < pid ∧ pid ≤ intMax ∧ ∀ f ∈ records, 3 ≤ f.event → f.a = pid
  status : ∀ f ∈ records, f.event = 5 → f.b = 0

theorem PhaseSoFar.done {phase pid wait : Nat} {records : List Fields}
    (hphase : PhaseSoFar phase records 5 pid 0 wait) : PhaseDone phase records where
  events := hphase.events
  child := ⟨pid, (hphase.known (by decide)).1, (hphase.known (by decide)).2, hphase.pids⟩
  status := hphase.statuses

structure CompletedShape (history : List Fields) : Prop where
  opening : ∃ init start rest, history = init :: start :: rest ∧ init.kind = kindInit ∧
    start.kind = kindStart
  progress : ∀ before r after, history = before ++ r :: after → r.kind = kindComplete →
    (progressOf before).length = 15
  samples : ∀ before r after, history = before ++ r :: after → r.kind = kindProgress →
    ∀ k, (progressOf before).length = k + 2 →
      10000 * k ≤ r.a ∧ r.a ≤ 10000 * k + 10000 ∧ r.a ≤ r.elapsed ∧
        ∀ g ∈ (progressOf before).drop 2, g.a < r.a
  bounded : ∀ f ∈ history, f.kind = kindBoundary → f.phase = 1 ∨ f.phase = 2
  phases : ∀ i < 2, PhaseDone (i + 1) (boundariesOf (i + 1) history)
  ended : ∀ i < 2, ∀ before r after, history = before ++ r :: after → r.kind = kindProgress →
    (progressOf before).length = i + 1 → boundariesOf (i + 1) before = boundariesOf (i + 1) history
  waits : ∀ before r after, history = before ++ r :: after → r.kind = kindBoundary →
    r.event = 4 → ∀ g ∈ boundariesOf r.phase before, g.elapsed + 10000 ≤ r.elapsed
  elapsed : ∀ before r after, history = before ++ r :: after →
    r.elapsed < 300000 ∧ ∀ g ∈ before, g.elapsed ≤ r.elapsed
  closed : ∀ before r after, history = before ++ r :: after → Closing r → after = []

theorem exists_progress {history : List Fields} {n : Nat}
    (hmany : n < (progressOf history).length) :
    ∃ before r after, history = before ++ r :: after ∧ r.kind = kindProgress ∧
      (progressOf before).length = n := by
  have hparts : progressOf history = (progressOf history).take n ++
      (progressOf history)[n] :: (progressOf history).drop (n + 1) := by
    rw [← List.drop_eq_getElem_cons hmany, List.take_append_drop]
  obtain ⟨left, right, hhistory, hleft, hright⟩ := List.filter_eq_append_iff.mp hparts
  obtain ⟨gap, rest, hgap, hskipped, hkind, -⟩ := List.filter_eq_cons_iff.mp hright
  refine ⟨left ++ gap, _, rest, ?_, by simpa using hkind, ?_⟩
  · rw [List.append_assoc, ← hgap, ← hhistory]
  · have hnone : progressOf gap = [] := List.filter_eq_nil_iff.mpr hskipped
    have hboth : progressOf (left ++ gap) = progressOf left ++ progressOf gap :=
      List.filter_append ..
    rw [hboth, hnone, List.append_nil]
    show (left.filter fun f => f.kind == kindProgress).length = n
    rw [hleft, List.length_take]
    exact Nat.min_eq_left (Nat.le_of_lt hmany)

/-- The records that a step accepts after the summary of the records before it. -/
def Traced (history : List Fields) : Prop :=
  ∀ before r after, history = before ++ r :: after →
    ∃ o o', Summary before o ∧ Admits o r ∧ Step o r o'

namespace Traced

variable {history before after : List Fields} {r : Fields}

section

variable (htraced : Traced history) (hsplit : history = before ++ r :: after)
include htraced hsplit

theorem complete (hkind : r.kind = kindComplete) :
    (progressOf before).length = 15 ∧ ∃ init start rest, before = init :: start :: rest ∧
      init.kind = kindInit ∧ start.kind = kindStart := by
  obtain ⟨o, o', hsummary, -, hstep⟩ := htraced before r after hsplit
  rcases hstep.kinds with ⟨hother, -⟩ | ⟨hother, -⟩ | ⟨-, hstarted, hprogress, -⟩ |
    ⟨⟨-, -, hother⟩, -⟩
  · exact absurd (hkind.symm.trans hother) (by decide)
  · exact absurd (hkind.symm.trans hother) (by decide)
  · exact ⟨hsummary.sampling.progress.trans hprogress, hsummary.opening.started hstarted⟩
  · exact absurd hkind hother

theorem progress (hkind : r.kind = kindProgress) :
    ∃ o, Summary before o ∧ (2 ≤ o.progress → SampleOk o r) ∧
      ∀ i < 2, o.progress = i + 1 → o.lastEvent i = 5 ∧ o.status i = 0 := by
  obtain ⟨o, o', hsummary, -, hstep⟩ := htraced before r after hsplit
  rcases hstep.kinds with ⟨-, -, hsample, hended, -⟩ | ⟨hother, -⟩ | ⟨hother, -⟩ | ⟨⟨hother, -⟩, -⟩
  · exact ⟨o, hsummary, hsample, hended⟩
  · exact absurd (hkind.symm.trans hother) (by decide)
  · exact absurd (hkind.symm.trans hother) (by decide)
  · exact absurd hkind hother

theorem boundary (hkind : r.kind = kindBoundary) :
    ∃ o, Summary before o ∧ Admits o r ∧ ∃ i < 2, r.phase = i + 1 ∧ o.progress = i + 1 ∧
      (r.event = 4 → dhSampleMs ≤ sub64 r.elapsed (o.waitMs i)) := by
  obtain ⟨o, o', hsummary, hadmits, hstep⟩ := htraced before r after hsplit
  rcases hstep.kinds with ⟨hother, -⟩ | ⟨-, i, hi, hphase, hprogress, -, -, -, hwait, -⟩ |
    ⟨hother, -⟩ | ⟨⟨-, hother, -⟩, -⟩
  · exact absurd (hkind.symm.trans hother) (by decide)
  · exact ⟨o, hsummary, hadmits, i, hi, hphase, hprogress, hwait⟩
  · exact absurd (hkind.symm.trans hother) (by decide)
  · exact absurd hkind hother

theorem samples (hkind : r.kind = kindProgress) {k : Nat}
    (hnumber : (progressOf before).length = k + 2) :
    10000 * k ≤ r.a ∧ r.a ≤ 10000 * k + 10000 ∧ r.a ≤ r.elapsed ∧
      ∀ g ∈ (progressOf before).drop 2, g.a < r.a := by
  obtain ⟨o, hsummary, hsample, -⟩ := htraced.progress hsplit hkind
  have hprogress : o.progress = k + 2 := hsummary.sampling.progress.symm.trans hnumber
  have hsample := hsample (by omega)
  have hlower := hsample.lower
  have hupper := hsample.upper
  rw [hprogress, Nat.add_sub_cancel] at hlower hupper
  refine ⟨hlower, hupper, hsample.recorded, ?_⟩
  intro g hg
  have hsome := List.length_pos_of_mem hg
  rw [List.length_drop, hnumber] at hsome
  have hearlier := hsummary.sampling.samples g hg
  have hlater := hsample.later (by omega)
  omega

theorem waits (hkind : r.kind = kindBoundary) (hevent : r.event = 4) {g : Fields}
    (hg : g ∈ boundariesOf r.phase before) : g.elapsed + 10000 ≤ r.elapsed := by
  obtain ⟨o, hsummary, hadmits, i, hi, hphase, -, hwait⟩ := htraced.boundary hsplit hkind
  have hwait := hwait hevent
  have hpast := (hsummary.phases.waited i hi).trans (hsummary.opening.elapsed_le hadmits)
  have hshort : r.elapsed < 300000 := hadmits.short
  rw [sub64_of_le hpast (by omega), dhSampleMs] at hwait
  rw [hphase] at hg
  have hearlier := (hsummary.phases.phases i hi).waited g hg
  omega

theorem boundariesOf_after (hkind : r.kind = kindProgress) {i : Nat}
    (hnumber : (progressOf before).length = i + 1) : boundariesOf (i + 1) (r :: after) = [] := by
  have hafter : boundariesOf (i + 1) after = [] := by
    refine List.filter_eq_nil_iff.mpr fun g hg hboundary => ?_
    obtain ⟨hboundary, hphase⟩ : g.kind = kindBoundary ∧ g.phase = i + 1 := by
      simpa using hboundary
    obtain ⟨middle, rest, rfl⟩ := List.append_of_mem hg
    have hlater : history = (before ++ r :: middle) ++ g :: rest := by
      rw [hsplit, List.append_assoc, List.cons_append]
    obtain ⟨o, hsummary, -, j, -, hsame, hprogress, -⟩ := htraced.boundary hlater hboundary
    have hcount := hsummary.sampling.progress
    have hgrown : progressOf (before ++ r :: middle) =
        progressOf before ++ r :: progressOf middle := by
      simp [progressOf, hkind]
    rw [hgrown, List.length_append, List.length_cons, hnumber] at hcount
    omega
  have hnot : (r.kind == kindBoundary && r.phase == i + 1) = false := by
    rw [hkind]
    rfl
  rw [boundariesOf, List.filter_cons, hnot]
  exact hafter

theorem ended (hkind : r.kind = kindProgress) {i : Nat} (hi : i < 2)
    (hnumber : (progressOf before).length = i + 1) :
    PhaseDone (i + 1) (boundariesOf (i + 1) before) ∧
      boundariesOf (i + 1) before = boundariesOf (i + 1) history := by
  obtain ⟨o, hsummary, -, hended⟩ := htraced.progress hsplit hkind
  obtain ⟨hlast, hstatus⟩ := hended i hi (hsummary.sampling.progress.symm.trans hnumber)
  have hphase := hsummary.phases.phases i hi
  rw [hlast, hstatus] at hphase
  have hboth : boundariesOf (i + 1) (before ++ r :: after) =
      boundariesOf (i + 1) before ++ boundariesOf (i + 1) (r :: after) :=
    List.filter_append ..
  rw [hsplit, hboth, htraced.boundariesOf_after hsplit hkind hnumber, List.append_nil]
  exact ⟨hphase.done, rfl⟩

theorem closed (hclosing : Closing r) : after = [] := by
  cases after with
  | nil => rfl
  | cons next rest =>
    have hlater : history = (before ++ [r]) ++ next :: rest := by
      rw [hsplit, List.append_assoc, List.singleton_append]
    obtain ⟨o, o', hsummary, hadmits, -⟩ := htraced _ _ _ hlater
    have hmem : r ∈ before ++ [r] := List.mem_append_right _ (List.mem_singleton_self r)
    rcases hsummary.opening.closed r hmem hclosing with hstopped | hcontrol
    · exact absurd hadmits.running hstopped
    · exact absurd hadmits.open_ hcontrol

end

theorem completedShape (htraced : Traced history)
    (hcomplete : ∃ f ∈ history, f.kind = kindComplete) : CompletedShape history := by
  obtain ⟨f, hmem, hkind⟩ := hcomplete
  obtain ⟨before, after, hsplit⟩ := List.append_of_mem hmem
  obtain ⟨hfifteen, init, start, rest, hopening, hinit, hstart⟩ :=
    htraced.complete hsplit hkind
  refine
    { opening := ⟨init, start, rest ++ f :: after, by rw [hsplit, hopening]; rfl, hinit, hstart⟩
      progress := fun before r after hsplit hkind => (htraced.complete hsplit hkind).1
      samples := fun before r after hsplit hkind k => htraced.samples hsplit hkind
      bounded := ?_
      phases := ?_
      ended := fun i hi before r after hsplit hkind hnumber =>
        (htraced.ended hsplit hkind hi hnumber).2
      waits := fun before r after hsplit hkind hevent g => htraced.waits hsplit hkind hevent
      elapsed := ?_
      closed := fun before r after => htraced.closed }
  · intro g hg hboundary
    obtain ⟨left, right, hparts⟩ := List.append_of_mem hg
    obtain ⟨o, -, -, i, hi, hphase, -⟩ := htraced.boundary hparts hboundary
    omega
  · intro i hi
    have hmany : i + 1 < (progressOf history).length := by
      have hboth : progressOf (before ++ f :: after) =
          progressOf before ++ progressOf (f :: after) :=
        List.filter_append ..
      rw [hsplit, hboth, List.length_append, hfifteen]
      omega
    obtain ⟨left, r, right, hparts, hprogress, hnumber⟩ := exists_progress hmany
    obtain ⟨hdone, hall⟩ := htraced.ended hparts hprogress hi hnumber
    rwa [hall] at hdone
  · intro left r right hparts
    obtain ⟨o, o', hsummary, hadmits, -⟩ := htraced left r right hparts
    refine ⟨hadmits.short, fun g hg => ?_⟩
    exact (hsummary.opening.elapsed g hg).trans (hsummary.opening.elapsed_le hadmits)

end Traced

theorem completed_history_shape {build : Revision} {consts : Seal} {mac : Mac} {header : Header}
    {records : List Record} {s : DeChain}
    (hrun : deRun build consts mac (scanStart build header) records = some s)
    (hcomplete : ∃ record ∈ records, (fields record).kind = kindComplete) :
    CompletedShape (records.map fields) := by
  have htraced : Traced (records.map fields) := fun before r after => accepted_at hrun
  obtain ⟨record, hmem, hkind⟩ := hcomplete
  exact htraced.completedShape ⟨fields record, List.mem_map_of_mem hmem, hkind⟩

theorem completed_history_shape_sample : CompletedShape (Sample.completed.map fields) ∧
      (progressOf (Sample.completed.map fields)).length = 15 := by
  have haccepts : (deRun .reboot Sample.consts Sample.mac (scanStart .reboot Sample.header)
      Sample.completed).isSome = true := by
    decide +kernel
  have hcomplete : ∃ record ∈ Sample.completed, (fields record).kind = kindComplete := by
    decide +kernel
  obtain ⟨s, hrun⟩ := Option.isSome_iff_exists.mp haccepts
  exact ⟨completed_history_shape hrun hcomplete, by decide +kernel⟩

end NativeInitLab.Evidence.Device
