import Mathlib.Data.List.Nodup
import Mathlib.Logic.Relation

/-! The process table of a kernel, as one of the processes sees it.  Every process has an
identity that is never given again; its number may be, once the process has been waited for. -/

namespace Processes

/-- `child` says whether the observer is the parent, and `status` is there once it has exited. -/
structure Process where
  id : Nat
  pid : Nat
  child : Bool
  status : Option Int
  deriving DecidableEq

/-- The processes that were not waited for yet, and the exits of all processes. -/
structure Kernel where
  processes : List Process
  born : Nat
  exits : List (Nat × Int)
  numbers : (processes.map Process.pid).Nodup
  identities : (processes.map Process.id).Nodup
  older : ∀ process ∈ processes, process.id < born
  recorded : ∀ process ∈ processes, ∀ status, process.status = some status →
    (process.id, status) ∈ exits

namespace Kernel

def find (kernel : Kernel) (pid : Int) : Option Process :=
  kernel.processes.find? fun process => decide ((process.pid : Int) = pid)

theorem find_of_mem {kernel : Kernel} {process : Process} (h : process ∈ kernel.processes) :
    kernel.find process.pid = some process := by
  have hnumbers := kernel.numbers
  unfold find
  revert h hnumbers
  induction kernel.processes with
  | nil => exact fun h => nomatch h
  | cons first rest ih =>
    intro h hnumbers
    rw [List.map_cons, List.nodup_cons] at hnumbers
    rcases List.mem_cons.mp h with rfl | hrest
    · exact List.find?_cons_of_pos (decide_eq_true rfl)
    · have hother : ¬ (first.pid : Int) = process.pid := fun heq =>
        hnumbers.1 (List.mem_map.mpr ⟨process, hrest, (Int.ofNat_inj.mp heq).symm⟩)
      rw [List.find?_cons_of_neg (by simpa using hother)]
      exact ih hrest hnumbers.2

theorem eq_of_id {kernel : Kernel} {process other : Process} (h : process ∈ kernel.processes)
    (hother : other ∈ kernel.processes) (hid : other.id = process.id) : other = process :=
  List.inj_on_of_nodup_map kernel.identities hother h hid

theorem nodup_concat {numbers : List Nat} {number : Nat} (h : numbers.Nodup)
    (hnew : number ∉ numbers) : (numbers ++ [number]).Nodup := by
  refine List.nodup_append.mpr ⟨h, List.nodup_singleton _, fun first hfirst last hlast => ?_⟩
  rw [List.mem_singleton.mp hlast]
  rintro rfl
  exact hnew hfirst

def spawn (kernel : Kernel) (pid : Nat) (child : Bool)
    (hfree : pid ∉ kernel.processes.map Process.pid) : Kernel where
  processes := kernel.processes ++ [⟨kernel.born, pid, child, none⟩]
  born := kernel.born + 1
  exits := kernel.exits
  numbers := by
    rw [List.map_append]
    exact nodup_concat kernel.numbers hfree
  identities := by
    rw [List.map_append]
    refine nodup_concat kernel.identities fun hborn => ?_
    obtain ⟨process, hprocess, hid⟩ := List.mem_map.mp hborn
    exact Nat.ne_of_lt (kernel.older process hprocess) hid
  older := by
    intro process hprocess
    rcases List.mem_append.mp hprocess with hold | hnew
    · exact Nat.lt_succ_of_lt (kernel.older process hold)
    · rw [List.mem_singleton.mp hnew]
      exact Nat.lt_succ_self _
  recorded := by
    intro process hprocess status hstatus
    rcases List.mem_append.mp hprocess with hold | hnew
    · exact kernel.recorded process hold status hstatus
    · rw [List.mem_singleton.mp hnew] at hstatus
      cases hstatus

/-- A change of one process that keeps its number and its identity. -/
def alter (processes : List Process) (id : Nat) (change : Process → Process) : List Process :=
  processes.map fun process => if process.id = id then change process else process

theorem nodup_alter {processes : List Process} {id : Nat} {change : Process → Process}
    {field : Process → Nat} (h : ∀ process, field (change process) = field process)
    (hnodup : (processes.map field).Nodup) : ((alter processes id change).map field).Nodup := by
  have hsame : (alter processes id change).map field = processes.map field := by
    rw [alter, List.map_map]
    refine List.map_congr_left fun process _ => ?_
    dsimp only [Function.comp]
    split
    · exact h process
    · rfl
  rw [hsame]
  exact hnodup

theorem mem_alter {processes : List Process} {id : Nat} {change : Process → Process}
    {process : Process} (h : process ∈ alter processes id change) :
    process ∈ processes ∨ ∃ before ∈ processes, before.id = id ∧ process = change before := by
  obtain ⟨before, hbefore, rfl⟩ := List.mem_map.mp h
  split
  case isTrue hid => exact .inr ⟨before, hbefore, hid, rfl⟩
  case isFalse => exact .inl hbefore

def exit (kernel : Kernel) (id : Nat) (status : Int) : Kernel where
  processes := alter kernel.processes id fun process => { process with status := some status }
  born := kernel.born
  exits := kernel.exits ++ [(id, status)]
  numbers := nodup_alter (fun _ => rfl) kernel.numbers
  identities := nodup_alter (fun _ => rfl) kernel.identities
  older := by
    intro process hprocess
    rcases mem_alter hprocess with hsame | ⟨before, hbefore, -, rfl⟩
    · exact kernel.older process hsame
    · exact kernel.older before hbefore
  recorded := by
    intro process hprocess found hfound
    rcases mem_alter hprocess with hsame | ⟨before, -, rfl, rfl⟩
    · exact List.mem_append_left _ (kernel.recorded process hsame found hfound)
    · cases hfound
      exact List.mem_append_right _ (List.mem_singleton.mpr rfl)

def adopt (kernel : Kernel) (id : Nat) : Kernel where
  processes := alter kernel.processes id fun process => { process with child := true }
  born := kernel.born
  exits := kernel.exits
  numbers := nodup_alter (fun _ => rfl) kernel.numbers
  identities := nodup_alter (fun _ => rfl) kernel.identities
  older := by
    intro process hprocess
    rcases mem_alter hprocess with hsame | ⟨before, hbefore, -, rfl⟩
    · exact kernel.older process hsame
    · exact kernel.older before hbefore
  recorded := by
    intro process hprocess found hfound
    rcases mem_alter hprocess with hsame | ⟨before, hbefore, -, rfl⟩
    · exact kernel.recorded process hsame found hfound
    · exact kernel.recorded before hbefore found hfound

def collect (kernel : Kernel) (id : Nat) : Kernel where
  processes := kernel.processes.filter fun process => decide (process.id ≠ id)
  born := kernel.born
  exits := kernel.exits
  numbers := kernel.numbers.sublist (List.filter_sublist.map _)
  identities := kernel.identities.sublist (List.filter_sublist.map _)
  older := fun process hprocess => kernel.older process (List.mem_of_mem_filter hprocess)
  recorded := fun process hprocess =>
    kernel.recorded process (List.mem_of_mem_filter hprocess)

theorem mem_collect {kernel : Kernel} {id : Nat} {process : Process}
    (h : process ∈ kernel.processes) (hother : process.id ≠ id) :
    process ∈ (kernel.collect id).processes :=
  List.mem_filter.mpr ⟨h, decide_eq_true hother⟩

end Kernel

open Kernel

/-- What happens without the observer: an exit, another process's fork or wait, and the change
of a parent. -/
inductive Step : Kernel → Kernel → Prop
  | exits {kernel : Kernel} {process : Process} (status : Int)
      (hmem : process ∈ kernel.processes) (hlive : process.status = none) :
      Step kernel (kernel.exit process.id status)
  | forks {kernel : Kernel} {pid : Nat} (hpositive : 0 < pid)
      (hfree : pid ∉ kernel.processes.map Process.pid) :
      Step kernel (kernel.spawn pid false hfree)
  | collects {kernel : Kernel} {process : Process} (hmem : process ∈ kernel.processes)
      (hforeign : process.child = false) : Step kernel (kernel.collect process.id)
  | adopts {kernel : Kernel} {process : Process} (hmem : process ∈ kernel.processes) :
      Step kernel (kernel.adopt process.id)

def Elapses : Kernel → Kernel → Prop := Relation.ReflTransGen Step

/-- The observer's children and the record of the exits outlast what happens elsewhere. -/
structure Keeps (kernel after : Kernel) : Prop where
  born : kernel.born ≤ after.born
  exits : kernel.exits ⊆ after.exits
  children : ∀ process ∈ kernel.processes, process.child = true →
    ∃ now ∈ after.processes, now.id = process.id ∧ now.pid = process.pid ∧ now.child = true

theorem Keeps.refl (kernel : Kernel) : Keeps kernel kernel :=
  ⟨Nat.le_refl _, fun _ h => h, fun process hprocess hchild =>
    ⟨process, hprocess, rfl, rfl, hchild⟩⟩

theorem Keeps.trans {kernel middle after : Kernel} (hfirst : Keeps kernel middle)
    (hsecond : Keeps middle after) : Keeps kernel after := by
  refine ⟨Nat.le_trans hfirst.born hsecond.born, fun _ h => hsecond.exits (hfirst.exits h), ?_⟩
  intro process hprocess hchild
  obtain ⟨now, hnow, hid, hpid, hchild⟩ := hfirst.children process hprocess hchild
  obtain ⟨later, hlater, hid', hpid', hchild⟩ := hsecond.children now hnow hchild
  exact ⟨later, hlater, hid'.trans hid, hpid'.trans hpid, hchild⟩

theorem keeps_spawn {kernel : Kernel} {pid : Nat} {child : Bool}
    (hfree : pid ∉ kernel.processes.map Process.pid) : Keeps kernel (kernel.spawn pid child hfree) :=
  ⟨Nat.le_succ _, fun _ h => h, fun process hprocess hchild =>
    ⟨process, List.mem_append_left _ hprocess, rfl, rfl, hchild⟩⟩

theorem keeps_step {kernel after : Kernel} (h : Step kernel after) : Keeps kernel after := by
  cases h with
  | exits status hmem hlive =>
    refine ⟨Nat.le_refl _, List.subset_append_left _ _, fun other hother hchild => ?_⟩
    refine ⟨_, List.mem_map_of_mem hother, ?_⟩
    split
    · exact ⟨rfl, rfl, hchild⟩
    · exact ⟨rfl, rfl, hchild⟩
  | forks hpositive hfree => exact keeps_spawn hfree
  | collects hmem hforeign =>
    refine ⟨Nat.le_refl _, fun _ h => h, fun other hother hchild => ?_⟩
    refine ⟨other, mem_collect hother fun hid => ?_, rfl, rfl, hchild⟩
    rw [eq_of_id hmem hother hid, hforeign] at hchild
    cases hchild
  | adopts hmem =>
    refine ⟨Nat.le_refl _, fun _ h => h, fun other hother hchild => ?_⟩
    refine ⟨_, List.mem_map_of_mem hother, ?_⟩
    split
    · exact ⟨rfl, rfl, rfl⟩
    · exact ⟨rfl, rfl, hchild⟩

theorem keeps_of_elapses {kernel after : Kernel} (h : Elapses kernel after) :
    Keeps kernel after := by
  induction h with
  | refl => exact Keeps.refl kernel
  | tail _ hstep ih => exact ih.trans (keeps_step hstep)

end Processes
