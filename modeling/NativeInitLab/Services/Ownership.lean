import NativeInitLab.Services.Table

namespace NativeInitLab.Services

open CrashProgram CrashProgram.Program Processes

/-! Whose process a table entry names, over all interleavings. -/

/-- A signal that has reached a process has reached the one that was started for the service. -/
def Sent.Owned (world : World) (sent : Sent) : Prop :=
  ∀ id, sent.reached = some id → sent.owner = some id ∧ (sent.service, id) ∈ world.started

/-- A reported status is the one with which the service's process has exited. -/
def Report.Owned (world : World) (report : Report) : Prop :=
  0 ≤ report.rc → ∃ id, report.owner = some id ∧ (report.service, id) ∈ world.started ∧
    (id, report.status) ∈ world.kernel.exits

/-- A service shown as running has the process that was started for it, not waited for yet. -/
def Named (world : World) (service : Service) : Prop :=
  0 < world.servicePids service → ∃ process ∈ world.kernel.processes,
    (process.pid : Int) = world.servicePids service ∧ process.child = true ∧
    world.owner service = some process.id ∧ (service, process.id) ∈ world.started

structure Honest (world : World) : Prop where
  sent : ∀ sent ∈ world.sent, sent.Owned world
  reports : ∀ report ∈ world.reports, report.Owned world

def Spared (world : World) : Prop :=
  ∀ service, ∀ process ∈ world.kernel.processes, 0 < world.servicePids service →
    (process.pid : Int) = world.servicePids service → process.status = none

/-- The started processes are known to the kernel, each started for one service. -/
structure Sound (world : World) : Prop extends Honest world where
  older : ∀ service id, (service, id) ∈ world.started → id < world.kernel.born
  single : ∀ service other id, (service, id) ∈ world.started → (other, id) ∈ world.started →
    service = other

structure Ready (world : World) : Prop extends Sound world where
  named : ∀ service, Named world service

section Elapse

variable {world : World} {kernel : Kernel} {service : Service}

theorem Sound.elapse (h : Sound world) (hkeeps : Keeps world.kernel kernel) :
    Sound (world.elapse kernel) := by
  refine ⟨⟨h.sent, fun report hreport hrc => ?_⟩, fun service id hstarted => ?_, h.single⟩
  · obtain ⟨id, howner, hstarted, hexits⟩ := h.reports report hreport hrc
    exact ⟨id, howner, hstarted, hkeeps.exits hexits⟩
  · exact Nat.lt_of_lt_of_le (h.older service id hstarted) hkeeps.born

theorem Named.elapse (h : Named world service) (hkeeps : Keeps world.kernel kernel) :
    Named (world.elapse kernel) service := by
  intro hpositive
  obtain ⟨process, hprocess, hpid, hchild, howner, hstarted⟩ := h hpositive
  obtain ⟨now, hnow, hid, hnumber, hchild⟩ := hkeeps.children process hprocess hchild
  refine ⟨now, hnow, ?_, hchild, ?_, ?_⟩
  · rw [hnumber]
    exact hpid
  · rw [hid]
    exact howner
  · rw [hid]
    exact hstarted

theorem Ready.elapse (h : Ready world) (hkeeps : Keeps world.kernel kernel) :
    Ready (world.elapse kernel) :=
  ⟨h.toSound.elapse hkeeps, fun service => (h.named service).elapse hkeeps⟩

end Elapse

/-- A child was forked, and the table does not name it yet. -/
structure Forked (service : Service) (pid : Int) (world : World) : Prop extends Ready world where
  positive : 0 < pid
  child : ∃ process ∈ world.kernel.processes, (process.pid : Int) = pid ∧ process.child = true ∧
    (service, process.id) ∈ world.started

structure Watched (service : Service) (pid : Int) (world : World) : Prop extends Ready world where
  positive : 0 < pid
  current : world.servicePids service = pid

def Exited (service : Service) (status : Int) (world : World) : Prop :=
  ∃ id, world.owner service = some id ∧ (service, id) ∈ world.started ∧
    (id, status) ∈ world.kernel.exits

/-- The service's process was waited for, and the table still names it. -/
structure Collected (service : Service) (status : Int) (world : World) : Prop
    extends Sound world where
  others : ∀ other, other ≠ service → Named world other
  exited : Exited service status world

def Stable (P : World → Prop) : Prop :=
  ∀ world kernel, P world → Keeps world.kernel kernel → P (world.elapse kernel)

theorem stable_ready : Stable Ready := fun _ _ h hkeeps => h.elapse hkeeps

theorem stable_exited {service : Service} {status : Int} : Stable (Exited service status) := by
  rintro world kernel ⟨id, howner, hstarted, hexits⟩ hkeeps
  exact ⟨id, howner, hstarted, hkeeps.exits hexits⟩

theorem stable_forked {service : Service} {pid : Int} : Stable (Forked service pid) := by
  intro world kernel h hkeeps
  obtain ⟨process, hprocess, hpid, hchild, hstarted⟩ := h.child
  obtain ⟨now, hnow, hid, hnumber, hchild⟩ := hkeeps.children process hprocess hchild
  refine ⟨h.toReady.elapse hkeeps, h.positive, now, hnow, ?_, hchild, ?_⟩
  · rw [hnumber]
    exact hpid
  · rw [hid]
    exact hstarted

theorem stable_watched {service : Service} {pid : Int} : Stable (Watched service pid) :=
  fun _ _ h hkeeps => ⟨h.toReady.elapse hkeeps, h.positive, h.current⟩

theorem stable_collected {service : Service} {status : Int} :
    Stable (Collected service status) := fun _ _ h hkeeps =>
  ⟨h.toSound.elapse hkeeps, fun other hother => (h.others other hother).elapse hkeeps,
    stable_exited _ _ h.exited hkeeps⟩

section Acts

variable {A : Type} {op : Op} {next : Answer op → Run A} {post : A → World → Prop}
  {world after : World} {service : Service} {pid : Int} {status : Int}

theorem holds_act {P : World → Prop} (hstable : Stable P) (hhonest : ∀ world, P world → Honest world)
    (h : P world)
    (hnext : ∀ now answer after, P now → (op = .waitAny → Spared now) → Acts op now answer after →
      Holds (machine Spared) Honest (next answer) post after) :
    Holds (machine Spared) Honest (act op >>= next) post world := by
  refine holds_perform (hhonest world h) ?_ ?_
  · rintro now ⟨kernel, helapses, rfl⟩
    exact hhonest _ (hstable world kernel h (keeps_of_elapses helapses))
  · rintro answer after ⟨kernel, helapses, hspared, hacts⟩
    exact hnext _ answer after (hstable world kernel h (keeps_of_elapses helapses)) hspared hacts

theorem Watched.process (h : Watched service pid world) :
    ∃ process, world.kernel.find pid = some process ∧ process ∈ world.kernel.processes ∧
      (process.pid : Int) = pid ∧ process.child = true ∧ world.owner service = some process.id ∧
      (service, process.id) ∈ world.started := by
  have hpositive : 0 < world.servicePids service := by
    rw [h.current]
    exact h.positive
  obtain ⟨process, hprocess, hpid, hchild, howner, hstarted⟩ := h.named service hpositive
  rw [h.current] at hpid
  refine ⟨process, ?_, hprocess, hpid, hchild, howner, hstarted⟩
  rw [← hpid]
  exact Kernel.find_of_mem hprocess

theorem Named.collect {other : Service} {process : Process} (h : Named world other)
    (hother : world.owner other ≠ some process.id) :
    Named (world.elapse (world.kernel.collect process.id)) other := by
  intro hpositive
  obtain ⟨found, hfound, hpid, hchild, howner, hstarted⟩ := h hpositive
  refine ⟨found, Kernel.mem_collect hfound fun hid => ?_, hpid, hchild, howner, hstarted⟩
  rw [hid] at howner
  exact hother howner

theorem Sound.collect {id : Nat} (h : Sound world) :
    Sound (world.elapse (world.kernel.collect id)) :=
  ⟨⟨h.sent, h.reports⟩, h.older, h.single⟩

theorem Watched.waits {nohang : Bool} {waited : Waited} (h : Watched service pid world)
    (hwaits : Acts (.waitpid pid nohang) world waited after) :
    (∃ status, waited = .got status ∧ Collected service status after) ∨
      (waited = .running ∧ nohang = true ∧ after = world) ∨
      ∃ errno, waited = .failed errno ∧ 0 < errno ∧ errno ≠ echild ∧ after = world := by
  obtain ⟨own, -, hown, hpid, hchild, howner, hstarted⟩ := h.process
  cases hwaits with
  | @got process status hmem _ hwanted hstatus =>
    have hsame : process = own := by
      have hfirst := Kernel.find_of_mem hmem
      rw [hwanted, ← hpid, Kernel.find_of_mem hown] at hfirst
      exact (Option.some.inj hfirst).symm
    subst hsame
    refine .inl ⟨status, rfl, h.toSound.collect, fun other hother => ?_,
      process.id, howner, hstarted, world.kernel.recorded process hmem status hstatus⟩
    intro hpositive
    refine (h.named other).collect (fun hsame => ?_) hpositive
    obtain ⟨found, -, -, -, hfound, hother'⟩ := h.named other hpositive
    rw [hsame] at hfound
    rw [← Option.some.inj hfound] at hother'
    exact hother (h.single other service process.id hother' hstarted)
  | running _ _ _ hnohang _ => exact .inr (.inl ⟨rfl, hnohang, rfl⟩)
  | nobody hnone => exact absurd hpid (hnone own hown hchild)
  | failed hpositive hother => exact .inr (.inr ⟨_, rfl, hpositive, hother, rfl⟩)

theorem Watched.kills {signal : Signal} {failure : Option Int} (h : Watched service pid world)
    (hkills : Acts (.kill service pid signal) world failure after) :
    Watched service pid after := by
  obtain ⟨own, hfind, -, -, -, howner, hstarted⟩ := h.process
  have hsent (reached : Option Nat) (hreached : ∀ id, reached = some id → id = own.id) :
      Watched service pid (world.signalled service signal reached) := by
    refine ⟨⟨⟨⟨fun sent hsent => ?_, h.reports⟩, h.older, h.single⟩, h.named⟩, h.positive,
      h.current⟩
    rcases List.mem_append.mp hsent with hold | hnew
    · exact h.sent sent hold
    · rw [List.mem_singleton.mp hnew]
      intro id hid
      rw [hreached id hid]
      exact ⟨howner, hstarted⟩
  cases hkills with
  | reached hfound =>
    rw [hfind] at hfound
    cases hfound
    exact hsent _ fun id hid => (Option.some.inj hid).symm
  | nobody | refused => exact hsent none fun id hid => nomatch hid

theorem Honest.report {rc : Int} (h : Honest world)
    (hexited : 0 ≤ rc → Exited service status world) :
    Honest (world.report service rc status) := by
  refine ⟨h.sent, fun report hreport => ?_⟩
  rcases List.mem_append.mp hreport with hold | hnew
  · exact h.reports report hold
  · rw [List.mem_singleton.mp hnew]
    exact hexited

theorem Sound.clear (h : Sound world) (hothers : ∀ other, other ≠ service → Named world other) :
    Ready (world.clear service) := by
  refine ⟨⟨⟨h.sent, h.reports⟩, h.older, h.single⟩, fun other hpositive => ?_⟩
  by_cases hother : other = service
  · subst hother
    have hcleared : (world.clear other).servicePids other = -1 := Function.update_self ..
    rw [hcleared] at hpositive
    exact absurd hpositive (by decide)
  · have hsame : (world.clear service).servicePids other = world.servicePids other :=
      Function.update_of_ne hother _ _
    rw [hsame] at hpositive ⊢
    exact hothers other hother hpositive

end Acts

section Start

variable {world : World} {service : Service} {pid : Int}

def World.startedFor (world : World) (service : Service) (id : Nat) : World :=
  { world with started := world.started ++ [(service, id)] }

theorem Ready.startedFor {id : Nat} (h : Ready world) (hborn : id < world.kernel.born)
    (hnew : ∀ other, (other, id) ∉ world.started) : Ready (world.startedFor service id) := by
  have hmore : world.started ⊆ world.started ++ [(service, id)] := List.subset_append_left _ _
  have hcases {other : Service} {number : Nat}
      (hstarted : (other, number) ∈ world.started ++ [(service, id)]) :
      (other, number) ∈ world.started ∨ (other = service ∧ number = id) := by
    rcases List.mem_append.mp hstarted with hold | hlast
    · exact .inl hold
    · cases List.mem_singleton.mp hlast
      exact .inr ⟨rfl, rfl⟩
  refine ⟨⟨⟨fun sent hsent number hnumber => ?_, fun report hreport hrc => ?_⟩,
    fun other number hstarted => ?_, fun first second number hfirst hsecond => ?_⟩,
    fun other hpositive => ?_⟩
  · obtain ⟨howner, hstarted⟩ := h.sent sent hsent number hnumber
    exact ⟨howner, hmore hstarted⟩
  · obtain ⟨number, howner, hstarted, hexits⟩ := h.reports report hreport hrc
    exact ⟨number, howner, hmore hstarted, hexits⟩
  · rcases hcases hstarted with hold | ⟨-, rfl⟩
    · exact h.older other number hold
    · exact hborn
  · rcases hcases hfirst with hold | ⟨rfl, rfl⟩
    · rcases hcases hsecond with hold' | ⟨rfl, rfl⟩
      · exact h.single first second number hold hold'
      · exact absurd hold (hnew first)
    · rcases hcases hsecond with hold' | ⟨rfl, -⟩
      · exact absurd hold' (hnew second)
      · rfl
  · obtain ⟨process, hprocess, hpid, hchild, howner, hstarted⟩ := h.named other hpositive
    exact ⟨process, hprocess, hpid, hchild, howner, hmore hstarted⟩

theorem Ready.forks {forked : Except Int Int} {after : World} (h : Ready world)
    (hforks : Acts (.fork service) world forked after) :
    (∃ pid, forked = .ok pid ∧ Forked service pid after) ∨
      ∃ errno, forked = .error errno ∧ after = world := by
  cases hforks with
  | failed => exact .inr ⟨_, rfl, rfl⟩
  | @child pid hpositive hfree =>
    have hready : Ready ((world.elapse (world.kernel.spawn pid true hfree)).startedFor service
        world.kernel.born) := by
      refine (h.elapse (keeps_spawn hfree)).startedFor (Nat.lt_succ_self _) fun other hother => ?_
      exact Nat.lt_irrefl _ (h.older other _ hother)
    refine .inl ⟨pid, rfl, hready, Int.ofNat_lt.mpr hpositive,
      ⟨world.kernel.born, pid, true, none⟩, ?_, rfl, rfl, ?_⟩
    · exact List.mem_append_right _ (List.mem_singleton.mpr rfl)
    · exact List.mem_append_right _ (List.mem_singleton.mpr rfl)

theorem Forked.setPid (h : Forked service pid world) : Ready (world.setPid service pid) := by
  obtain ⟨process, hprocess, hpid, hchild, hstarted⟩ := h.child
  refine ⟨⟨⟨h.sent, h.reports⟩, h.older, h.single⟩, fun other hpositive => ?_⟩
  by_cases hother : other = service
  · subst hother
    refine ⟨process, hprocess, ?_, hchild, ?_, hstarted⟩
    · rw [hpid]
      exact (Function.update_self other pid world.servicePids).symm
    · have hfind : (world.kernel.find pid).map Process.id = some process.id := by
        rw [← hpid, Kernel.find_of_mem hprocess]
        rfl
      rw [← hfind]
      exact Function.update_self ..
  · have hnumber : (world.setPid service pid).servicePids other = world.servicePids other :=
      Function.update_of_ne hother _ _
    have howner : (world.setPid service pid).owner other = world.owner other :=
      Function.update_of_ne hother _ _
    rw [hnumber] at hpositive ⊢
    rw [howner]
    exact h.named other hpositive

end Start

section Calls

variable {world : World} {service : Service} {pid : Int}

theorem start_holds (h : Ready world) :
    Holds (machine Spared) Honest (start service) (fun _ after => Ready after) world := by
  refine holds_act stable_ready (fun _ h => h.toHonest) h ?_
  intro now forked after hnow _ hforks
  rcases hnow.forks hforks with ⟨pid, rfl, hforked⟩ | ⟨errno, rfl, rfl⟩
  · refine holds_act stable_forked (fun _ h => h.toHonest) hforked ?_
    rintro later answer final hlater - rfl
    exact holds_pure hlater.setPid.toHonest hlater.setPid
  · exact holds_pure hnow.toHonest hnow

theorem reapPid_holds (h : Watched service pid world) :
    Holds (machine Spared) Honest (reapPid pid) (fun result after =>
      (result.1 = 1 ∧ Collected service result.2 after) ∨
        (result.1 ≤ 0 ∧ Watched service pid after)) world := by
  rw [reapPid, if_neg (Int.not_le.mpr h.positive)]
  refine holds_act stable_watched (fun _ h => h.toHonest) h ?_
  intro now waited after hnow _ hwaits
  rcases hnow.waits hwaits with ⟨status, rfl, hcollected⟩ | ⟨rfl, -, rfl⟩ |
    ⟨errno, rfl, hpositive, hother, rfl⟩
  · exact holds_pure hcollected.toHonest (.inl ⟨rfl, hcollected⟩)
  · exact holds_pure hnow.toHonest (.inr ⟨Int.le_refl 0, hnow⟩)
  · dsimp only
    rw [if_neg hother]
    exact holds_pure hnow.toHonest (.inr ⟨by dsimp only; omega, hnow⟩)

theorem Collected.report {status rc : Int} (h : Collected service status world) :
    Collected service status (world.report service rc status) :=
  ⟨⟨h.toHonest.report fun _ => h.exited, h.older, h.single⟩, h.others, h.exited⟩

theorem reap_holds (h : Ready world) :
    Holds (machine Spared) Honest (reap service) (fun _ after => Ready after) world := by
  refine holds_act stable_ready (fun _ h => h.toHonest) h ?_
  rintro now number after hnow - ⟨rfl, rfl⟩
  refine holds_ite (fun _ => holds_pure hnow.toHonest hnow) fun hpositive => ?_
  have hwatched : Watched service (after.servicePids service) after :=
    ⟨hnow, Int.not_le.mp hpositive, rfl⟩
  refine holds_bind ((reapPid_holds hwatched).mono ?_)
  rintro ⟨rc, status⟩ later (⟨hone, hcollected⟩ | ⟨hzero, hlater⟩)
  · dsimp only at hone hcollected ⊢
    rw [if_pos hone]
    refine holds_act stable_collected (fun _ h => h.toHonest) hcollected ?_
    rintro reported answer next hreported - rfl
    refine holds_act stable_collected (fun _ h => h.toHonest) hreported.report ?_
    rintro cleared answer final hcleared - rfl
    have hready := hcleared.toSound.clear hcleared.others
    exact holds_pure hready.toHonest hready
  · dsimp only at hzero hlater ⊢
    rw [if_neg (by omega)]
    exact holds_pure hlater.toHonest hlater.toReady

theorem reapEach_holds (services : List Service) (h : Ready world) :
    Holds (machine Spared) Honest (reapEach services) (fun _ after => Ready after) world := by
  induction services generalizing world with
  | nil => exact holds_pure h.toHonest h
  | cons service rest ih => exact holds_bind ((reap_holds h).mono fun _ _ hafter => ih hafter)

theorem Ready.waitAny {waited : Waited} {after : World} (h : Ready world) (hspared : Spared world)
    (hwaits : Acts .waitAny world waited after) : Ready after := by
  cases hwaits with
  | @got process status hmem _ _ hstatus =>
    refine ⟨h.toSound.collect, fun service hpositive => ?_⟩
    refine (h.named service).collect (fun howner => ?_) hpositive
    obtain ⟨found, hfound, hpid, -, hown, -⟩ := h.named service hpositive
    have hsame : process = found := by
      rw [howner] at hown
      exact Kernel.eq_of_id hfound hmem (Option.some.inj hown)
    subst hsame
    rw [hspared service process hmem hpositive hpid] at hstatus
    cases hstatus
  | running | nobody | failed => exact h

theorem reapOrphans_holds (fuel count : Nat) (h : Ready world) :
    Holds (machine Spared) Honest (reapOrphans count fuel) (fun _ after => Ready after) world := by
  induction fuel generalizing world count with
  | zero => exact holds_pure h.toHonest h
  | succ fuel ih =>
    refine holds_act stable_ready (fun _ h => h.toHonest) h ?_
    intro now waited after hnow hspared hwaits
    have hafter := hnow.waitAny (hspared rfl) hwaits
    cases waited with
    | got status => exact ih (count + 1) hafter
    | running => exact holds_pure hafter.toHonest hafter
    | failed errno =>
      exact holds_ite (fun _ => holds_pure hafter.toHonest hafter)
        fun _ => holds_pure hafter.toHonest hafter

def Stopped (service : Service) (result : Option (Int × Int)) (world : World) : Prop :=
  ∀ rc status, result = some (rc, status) → Sound world ∧
    (∀ other, other ≠ service → Named world other) ∧ (0 ≤ rc → Exited service status world)

theorem Collected.stopped {status : Int} (h : Collected service status world) :
    Stopped service (some (0, status)) world := by
  rintro rc found hresult
  cases hresult
  exact ⟨h.toSound, h.others, fun _ => h.exited⟩

theorem Watched.stopped {rc : Int} (h : Watched service pid world) (hrc : rc < 0) :
    Stopped service (some (rc, 0)) world := by
  rintro other found hresult
  cases hresult
  exact ⟨h.toSound, fun other _ => h.named other, fun hle => absurd hrc (Int.not_lt.mpr hle)⟩

theorem kills_failed {signal : Signal} {failure : Option Int} {after : World} {errno : Int}
    (hkills : Acts (.kill service pid signal) world failure after)
    (hfailed : failure.filter (· ≠ esrch) = some errno) : -errno < 0 := by
  cases hkills with
  | reached | nobody => cases hfailed
  | refused hpositive hother =>
    rw [Option.filter_some, if_pos (decide_eq_true hother)] at hfailed
    cases hfailed
    omega

theorem forceExit_holds (h : Watched service pid world) :
    Holds (machine Spared) Honest (forceExit service pid) (Stopped service) world := by
  refine holds_act stable_watched (fun _ h => h.toHonest) h ?_
  intro now failure after hnow _ hkills
  have hafter := hnow.kills hkills
  cases hfailed : failure.filter (· ≠ esrch) with
  | some errno =>
    exact holds_pure hafter.toHonest (hafter.stopped (kills_failed hkills hfailed))
  | none =>
    refine holds_act stable_watched (fun _ h => h.toHonest) hafter ?_
    intro later waited final hlater _ hwaits
    rcases hlater.waits hwaits with ⟨status, rfl, hcollected⟩ | ⟨-, hnohang, -⟩ |
      ⟨errno, rfl, herrno, hother, rfl⟩
    · exact holds_pure hcollected.toHonest hcollected.stopped
    · cases hnohang
    · dsimp only
      rw [if_neg hother]
      exact holds_pure hlater.toHonest (hlater.stopped (by omega))

theorem awaitExit_holds (deadline : Int) (fuel : Nat) (h : Watched service pid world) :
    Holds (machine Spared) Honest (awaitExit service pid deadline fuel) (Stopped service)
      world := by
  induction fuel generalizing world with
  | zero => exact holds_pure h.toHonest fun _ _ hresult => nomatch hresult
  | succ fuel ih =>
    refine holds_act stable_watched (fun _ h => h.toHonest) h ?_
    rintro now answer after hnow - rfl
    refine holds_ite (fun _ => ?_) fun _ => forceExit_holds hnow
    refine holds_bind ((reapPid_holds hnow).mono ?_)
    rintro ⟨rc, status⟩ later (⟨hone, hcollected⟩ | ⟨hzero, hlater⟩)
    · dsimp only at hone hcollected ⊢
      rw [if_pos hone]
      exact holds_pure hcollected.toHonest hcollected.stopped
    · dsimp only at hzero hlater ⊢
      rw [if_neg (by omega)]
      refine holds_ite (fun hrc => holds_pure hlater.toHonest (hlater.stopped hrc)) fun _ => ?_
      refine holds_act stable_watched (fun _ h => h.toHonest) hlater ?_
      rintro slept answer final hslept - rfl
      exact ih hslept

theorem stopPid_holds (fuel : Nat) (termTimeoutMs : Int) (h : Watched service pid world) :
    Holds (machine Spared) Honest (stopPid fuel service pid termTimeoutMs) (Stopped service)
      world := by
  rw [stopPid, if_neg (Int.not_le.mpr h.positive)]
  refine holds_act stable_watched (fun _ h => h.toHonest) h ?_
  intro now failure after hnow _ hkills
  have hafter := hnow.kills hkills
  cases hfailed : failure.filter (· ≠ esrch) with
  | some errno =>
    exact holds_pure hafter.toHonest (hafter.stopped (kills_failed hkills hfailed))
  | none =>
    refine holds_act stable_watched (fun _ h => h.toHonest) hafter ?_
    rintro later answer final hlater - rfl
    exact awaitExit_holds _ fuel hlater

/-- The entry is cleared, and what the stop has found out is reported next. -/
structure Cleared (service : Service) (rc status : Int) (world : World) : Prop
    extends Ready world where
  exited : 0 ≤ rc → Exited service status world

theorem stable_cleared {rc status : Int} : Stable (Cleared service rc status) :=
  fun _ _ h hkeeps => ⟨h.toReady.elapse hkeeps, fun hrc => stable_exited _ _ (h.exited hrc) hkeeps⟩

theorem stop_holds (fuel : Nat) (timeoutMs : Int) (h : Ready world) :
    Holds (machine Spared) Honest (stop fuel service timeoutMs)
      (fun result after => result ≠ none → Ready after) world := by
  refine holds_act stable_ready (fun _ h => h.toHonest) h ?_
  rintro now number after hnow - ⟨rfl, rfl⟩
  refine holds_ite (fun _ => holds_pure hnow.toHonest fun _ => hnow) fun hpositive => ?_
  have hwatched : Watched service (after.servicePids service) after :=
    ⟨hnow, Int.not_le.mp hpositive, rfl⟩
  refine holds_bind ((stopPid_holds fuel timeoutMs hwatched).with_inv.mono ?_)
  rintro result later ⟨hhonest, hstopped⟩
  rcases result with _ | ⟨rc, status⟩
  · exact holds_pure hhonest fun hnone => absurd rfl hnone
  · obtain ⟨hsound, hothers, hexited⟩ := hstopped rc status rfl
    have hstable : Stable fun world => Sound world ∧
        (∀ other, other ≠ service → Named world other) ∧
          (0 ≤ rc → Exited service status world) := fun _ _ h hkeeps =>
      ⟨h.1.elapse hkeeps, fun other hother => (h.2.1 other hother).elapse hkeeps,
        fun hrc => stable_exited _ _ (h.2.2 hrc) hkeeps⟩
    refine holds_act hstable (fun _ h => h.1.toHonest) ⟨hsound, hothers, hexited⟩ ?_
    rintro cleared answer next ⟨hsound, hothers, hexited⟩ - rfl
    have hcleared : Cleared service rc status (cleared.clear service) :=
      ⟨hsound.clear hothers, hexited⟩
    refine holds_act stable_cleared (fun _ h => h.toHonest) hcleared ?_
    rintro reported answer final hreported - rfl
    have hready : Ready (reported.report service rc status) :=
      ⟨⟨hreported.toHonest.report hreported.exited, hreported.older, hreported.single⟩,
        hreported.named⟩
    exact holds_pure hready.toHonest fun _ => hready

theorem call_holds (fuel : Nat) (call : Call) (h : Ready world) :
    Holds (machine Spared) Honest (call.run fuel)
      (fun result after => result ≠ none → Ready after) world := by
  cases call with
  | start service => exact holds_map ((start_holds h).mono fun _ _ hafter _ => hafter)
  | reap service => exact holds_map ((reap_holds h).mono fun _ _ hafter _ => hafter)
  | reapAll =>
    refine holds_bind ((reapEach_holds serviceDescriptors h).mono fun _ _ hafter => ?_)
    exact (reapOrphans_holds fuel 0 hafter).mono fun _ _ hfinal _ => hfinal
  | reapOrphans => exact (reapOrphans_holds fuel 0 h).mono fun _ _ hafter _ => hafter
  | stop service timeoutMs => exact stop_holds fuel timeoutMs h

end Calls

theorem ready_of_reaches {world : World} (h : Reaches Spared world) : Ready world := by
  induction h with
  | boot kernel =>
    refine ⟨⟨⟨nofun, nofun⟩, nofun, nofun⟩, fun service hpositive => ?_⟩
    have hnone : ¬ (0 : Int) < -1 := by decide
    exact absurd hpositive hnone
  | called _ hreturns ih => exact ((call_holds _ _ ih).returns hreturns).2 nofun
  | elapsed _ helapses ih => exact ih.elapse (keeps_of_elapses helapses)

/-- In every interleaving in which no process of the table has exited when init waits for any
child: between two calls every entry names the process that was started for it, and at every
instant what was sent and reported is about that process. -/
theorem service_table_names_its_own {world : World} (h : Reaches Spared world) :
    (∀ service, Named world service) ∧ Honest world ∧
      ∀ fuel (call : Call) now, Visits (machine Spared) (call.run fuel) world now →
        Honest now := by
  have hready := ready_of_reaches h
  exact ⟨hready.named, hready.toHonest, fun fuel call now hvisits =>
    (call_holds fuel call hready).visits hvisits⟩

namespace Sample

def kernel : Kernel := ⟨[], 0, [], List.nodup_nil, List.nodup_nil, nofun, nofun⟩

def begun (world : World) (service : Service) (pid : Nat)
    (hfree : pid ∉ world.kernel.processes.map Process.pid) : World :=
  ((world.elapse (world.kernel.spawn pid true hfree)).startedFor service
    world.kernel.born).setPid service pid

theorem reaches_begun {allowed : World → Prop} {world : World} (service : Service) {pid : Nat}
    (hpositive : 0 < pid) (hfree : pid ∉ world.kernel.processes.map Process.pid)
    (h : Reaches allowed world) : Reaches allowed (begun world service pid hfree) := by
  refine @Reaches.called allowed _ _ (.start service) 0 0 h ?_
  refine .call ⟨world.kernel, .refl, nofun, .child hpositive hfree⟩ ?_
  exact @Returns.call _ _ _ _ _ _ _ _ _ _ () _ ⟨_, .refl, nofun, rfl⟩ (.done _ _)

def running : World := begun { kernel } .tcpctl 100 (by decide)

theorem reaches_running (allowed : World → Prop) : Reaches allowed running :=
  reaches_begun .tcpctl (by decide) _ (.boot kernel)

/-- An orphan comes to init and exits beside the running service. -/
def orphaned : Kernel := ((running.kernel.spawn 200 false (by decide)).adopt 1).exit 1 256

theorem elapses_orphaned : Elapses running.kernel orphaned := by
  have hforked : Elapses running.kernel (running.kernel.spawn 200 false (by decide)) :=
    .single (.forks (by decide) _)
  refine (hforked.tail (@Step.adopts _ ⟨1, 200, false, none⟩ (by decide))).tail ?_
  exact @Step.exits _ ⟨1, 200, true, none⟩ 256 (by decide) rfl

theorem spared_orphaned : Spared (running.elapse orphaned) := by
  intro service process hprocess _ hpid
  have hprocesses : (running.elapse orphaned).kernel.processes =
      [⟨0, 100, true, none⟩, ⟨1, 200, true, some 256⟩] := rfl
  rw [hprocesses, List.mem_pair] at hprocess
  rcases hprocess with rfl | rfl
  · rfl
  · cases service <;> cases hpid

def swept : World := running.elapse (orphaned.collect 1)

theorem reaches_swept : Reaches Spared swept := by
  refine @Reaches.called _ _ _ .reapOrphans 2 1 (reaches_running _) ?_
  refine .call ⟨_, elapses_orphaned, fun _ => spared_orphaned,
    @Waits.got _ _ _ ⟨1, 200, true, some 256⟩ 256 (by decide) rfl trivial rfl⟩ ?_
  refine .call ⟨_, .refl, fun _ => ?_,
    @Waits.running _ _ _ ⟨0, 100, true, none⟩ (by decide) rfl trivial rfl (by decide)⟩ (.done _ _)
  intro service process hprocess _ _
  cases List.mem_singleton.mp hprocess
  rfl

/-- The service exits, and the shell's reaper of orphans takes it. -/
def reaped : World :=
  running.elapse ((running.kernel.exit 0 256).collect 0)

theorem reaches_reaped : Reaches (fun _ => True) reaped := by
  have hexits : Elapses running.kernel (running.kernel.exit 0 256) :=
    .single (@Step.exits _ ⟨0, 100, true, none⟩ 256 (by decide) rfl)
  refine @Reaches.called _ _ _ .reapOrphans 2 1 (reaches_running _) ?_
  refine .call ⟨_, hexits, fun _ => trivial,
    @Waits.got _ _ _ ⟨0, 100, true, some 256⟩ 256 (by decide) rfl trivial rfl⟩ ?_
  exact .call ⟨_, .refl, fun _ => trivial, .nobody (by decide)⟩ (.done _ _)

def reused : World := begun reaped .rshell 100 (by decide)

end Sample

theorem service_table_names_its_own_swept :
    Reaches Spared Sample.swept ∧ Sample.swept.kernel.exits = [(1, 256)] ∧
      Sample.swept.kernel.processes.map Process.pid = [100] ∧
      Sample.swept.servicePids .tcpctl = 100 ∧ Named Sample.swept .tcpctl :=
  ⟨Sample.reaches_swept, rfl, rfl, rfl,
    (service_table_names_its_own Sample.reaches_swept).1 .tcpctl⟩

/-- The first service is still shown as running although its process was waited for, and its
stop sends SIGTERM to the process of the second. -/
theorem stop_reaches_another_service : Reaches (fun _ => True) Sample.reused ∧
      Sample.reused.servicePids .tcpctl = 100 ∧
      (∀ process ∈ Sample.reused.kernel.processes, (Service.tcpctl, process.id) ∉
        Sample.reused.started) ∧
      ∃ now, Visits (machine fun _ => True) (Call.run 0 (.stop .tcpctl 2000)) Sample.reused now ∧
        now.sent = [⟨.tcpctl, .term, some 0, some 1⟩] ∧ (.rshell, 1) ∈ now.started := by
  refine ⟨Sample.reaches_begun .rshell (by decide) _ Sample.reaches_reaped, rfl, by decide,
    Sample.reused.signalled .tcpctl .term (some 1), ?_, rfl, by decide⟩
  refine .later ⟨_, .refl, nofun, rfl, rfl⟩ ?_
  exact .later ⟨_, .refl, nofun, @Kills.reached _ _ _ _ ⟨1, 100, true, none⟩ rfl⟩ (.here _ _)

end NativeInitLab.Services
