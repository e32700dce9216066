import Mathlib.Data.Nat.Find
import Mathlib.Order.Monotone.Basic
import Mathlib.Data.List.Basic

/-!
A process as the numbered system calls that it makes, and the monotonic clock that passes meanwhile.
-/

namespace TimedCalls

inductive Sleep
  | done
  | interrupted
  | failed

/-- The clock around the calls of one process.  Each call returns, so time passes every instant;
a sleep that is done has reached its deadline, and one that starts after it is not interrupted. -/
structure Clock where
  /-- When a call starts; it has returned when the next one starts. -/
  time : Nat → Nat
  time_le : ∀ call, time call ≤ time (call + 1)
  passes : ∀ instant, ∃ call, instant ≤ time call
  now : Nat → Option Nat
  now_between : ∀ {call instant}, now call = some instant →
    time call ≤ instant ∧ instant ≤ time (call + 1)
  sleep : Nat → Nat → Sleep
  sleep_done : ∀ {call deadline}, sleep call deadline = .done → deadline ≤ time (call + 1)
  sleep_interrupted : ∀ {call deadline}, sleep call deadline = .interrupted → time call < deadline

namespace Clock

variable (clock : Clock)

theorem time_mono {first second : Nat} (hle : first ≤ second) :
    clock.time first ≤ clock.time second :=
  monotone_nat_of_le_succ clock.time_le hle

def horizon (instant : Nat) : Nat := Nat.find (clock.passes instant)

theorem lt_horizon {call instant : Nat} (hlt : clock.time call < instant) :
    call < clock.horizon instant := by
  by_contra hge
  have hreached : instant ≤ clock.time (clock.horizon instant) :=
    Nat.find_spec (clock.passes instant)
  have hmono := clock.time_mono (Nat.le_of_not_lt hge)
  omega

end Clock

structure Trace (A : Type) where
  calls : Nat
  log : List (Nat × A)

namespace Trace

variable {A : Type}

def start : Trace A := ⟨0, []⟩

def skip (trace : Trace A) : Trace A := ⟨trace.calls + 1, trace.log⟩

def note (trace : Trace A) (action : A) : Trace A :=
  ⟨trace.calls + 1, trace.log ++ [(trace.calls, action)]⟩

/-- `after` continues `before` with calls of which all that is remembered is good. -/
structure Adds (good : A → Prop) (before after : Trace A) : Prop where
  calls_le : before.calls ≤ after.calls
  log : ∃ more, after.log = before.log ++ more ∧
    ∀ event ∈ more, before.calls ≤ event.1 ∧ event.1 < after.calls ∧ good event.2

section Adds

variable {good : A → Prop} {before middle after trace : Trace A} {action : A}

theorem Adds.refl (trace : Trace A) : Adds good trace trace :=
  ⟨Nat.le_refl _, [], (List.append_nil _).symm, fun _ hmember => nomatch hmember⟩

theorem Adds.trans (hfirst : Adds good before middle) (hsecond : Adds good middle after) :
    Adds good before after := by
  obtain ⟨first, hfirstLog, hfirstGood⟩ := hfirst.log
  obtain ⟨second, hsecondLog, hsecondGood⟩ := hsecond.log
  have hbefore := hfirst.calls_le
  have hafter := hsecond.calls_le
  refine ⟨Nat.le_trans hbefore hafter, first ++ second, ?_, ?_⟩
  · rw [hsecondLog, hfirstLog, List.append_assoc]
  · intro event hevent
    rcases List.mem_append.mp hevent with hevent | hevent
    · obtain ⟨hge, hlt, hgood⟩ := hfirstGood event hevent
      exact ⟨hge, Nat.lt_of_lt_of_le hlt hafter, hgood⟩
    · obtain ⟨hge, hlt, hgood⟩ := hsecondGood event hevent
      exact ⟨Nat.le_trans hbefore hge, hlt, hgood⟩

theorem Adds.mono {fine : A → Prop} (hadds : Adds good before after)
    (hfine : ∀ action, good action → fine action) : Adds fine before after := by
  obtain ⟨more, hlog, hgood⟩ := hadds.log
  refine ⟨hadds.calls_le, more, hlog, fun event hevent => ?_⟩
  obtain ⟨hge, hlt, hevent⟩ := hgood event hevent
  exact ⟨hge, hlt, hfine _ hevent⟩

theorem adds_skip (trace : Trace A) : Adds good trace trace.skip :=
  ⟨Nat.le_succ _, [], (List.append_nil _).symm, fun _ hmember => nomatch hmember⟩

theorem adds_note (hgood : good action) : Adds good trace (trace.note action) := by
  refine ⟨Nat.le_succ _, [(trace.calls, action)], rfl, ?_⟩
  intro event hevent
  rw [List.mem_singleton.mp hevent]
  exact ⟨Nat.le_refl _, Nat.lt_succ_self _, hgood⟩

theorem Adds.event (hadds : Adds good before after) {event : Nat × A} (hevent : event ∈ after.log) :
    event ∈ before.log ∨ (before.calls ≤ event.1 ∧ good event.2) := by
  obtain ⟨more, hlog, hgood⟩ := hadds.log
  rw [hlog] at hevent
  rcases List.mem_append.mp hevent with hevent | hevent
  · exact .inl hevent
  · exact .inr ⟨(hgood event hevent).1, (hgood event hevent).2.2⟩

theorem Adds.mem (hadds : Adds good before after) {event : Nat × A} (hevent : event ∈ before.log) :
    event ∈ after.log := by
  obtain ⟨more, hlog, -⟩ := hadds.log
  rw [hlog]
  exact List.mem_append_left _ hevent

end Adds

end Trace

end TimedCalls
