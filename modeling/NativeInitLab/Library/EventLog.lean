import Mathlib.Data.List.Basic

namespace EventLog

/-! Order in a log of events: causes before effects, and events after which others
no longer happen. -/

variable {E K : Type}

/-- An event that needs a key comes after one that gives it. -/
def Caused (needs gives : E → Option K) (log : List E) : Prop :=
  ∀ before event after, log = before ++ event :: after → ∀ key,
    needs event = some key → ∃ cause ∈ before, gives cause = some key

def NoneAfter (first second : E → Prop) (log : List E) : Prop :=
  ∀ before event after, log = before ++ event :: after → first event →
    ∀ later ∈ after, ¬ second later

theorem split_append {log new before after : List E} {event : E}
    (hsplit : log ++ new = before ++ event :: after) :
    (∃ rest, log = before ++ event :: rest ∧ after = rest ++ new) ∨
      ∃ rest, before = log ++ rest ∧ new = rest ++ event :: after := by
  rcases List.append_eq_append_iff.mp hsplit with ⟨rest, hbefore, hnew⟩ | ⟨rest, hlog, hrest⟩
  · exact .inr ⟨rest, hbefore, hnew⟩
  · cases rest with
    | nil =>
      refine .inr ⟨[], ?_, hrest.symm⟩
      rw [List.append_nil, hlog, List.append_nil]
    | cons other rest =>
      obtain ⟨rfl, rfl⟩ := List.cons.inj hrest
      exact .inl ⟨rest, hlog, rfl⟩

section Caused

variable {needs gives : E → Option K} {log new : List E}

theorem caused_nil : Caused needs gives ([] : List E) := by
  intro before event after hsplit
  simp at hsplit

theorem Caused.append (hlog : Caused needs gives log)
    (hnew : ∀ event ∈ new, ∀ key, needs event = some key → ∃ cause ∈ log, gives cause = some key) :
    Caused needs gives (log ++ new) := by
  intro before event after hsplit key hneeds
  rcases split_append hsplit with ⟨rest, hbefore, -⟩ | ⟨rest, rfl, rfl⟩
  · exact hlog before event rest hbefore key hneeds
  · obtain ⟨cause, hcause, hgives⟩ := hnew event (by simp) key hneeds
    exact ⟨cause, List.mem_append_left rest hcause, hgives⟩

end Caused

section NoneAfter

variable {first second : E → Prop} {log new : List E}

theorem noneAfter_of_forall_not (hlog : ∀ event ∈ log, ¬ first event) :
    NoneAfter first second log := by
  intro before event after hsplit hfirst
  exact absurd hfirst (hlog event (by simp [hsplit]))

theorem noneAfter_singleton (event : E) : NoneAfter first second [event] := by
  intro before other after hsplit _ later hlater
  cases before with
  | nil =>
    obtain ⟨-, rfl⟩ := List.cons.inj hsplit
    simp at hlater
  | cons head before => simp at hsplit

theorem NoneAfter.append (hlog : NoneAfter first second log) (hnew : NoneAfter first second new)
    (hquiet : (∃ event ∈ log, first event) → ∀ event ∈ new, ¬ second event) :
    NoneAfter first second (log ++ new) := by
  intro before event after hsplit hfirst later hlater
  rcases split_append hsplit with ⟨rest, hbefore, rfl⟩ | ⟨rest, rfl, hsuffix⟩
  · rcases List.mem_append.mp hlater with hrest | hnewer
    · exact hlog before event rest hbefore hfirst later hrest
    · exact hquiet ⟨event, by simp [hbefore], hfirst⟩ later hnewer
  · exact hnew rest event after hsuffix hfirst later hlater

end NoneAfter

end EventLog
