import NativeInitLab.Library.CrashProgram

/-! Calls of any number of processes on one environment.  A call changes the environment only
while it has a lock; a process, or all of them, may end at any instant. -/

namespace LockedCalls

open CrashProgram

variable {Op S A : Type} {Answer : Op → Type}

/-- A call: what it does before it waits for the lock, which says whether it goes on, and what it
does while it has the lock. -/
structure Call (Op : Type) (Answer : Op → Type) (A : Type) where
  outside : Program Op Answer Bool
  inside : Program Op Answer A

structure World (Op : Type) (Answer : Op → Type) (S A : Type) where
  shared : S
  waiting : List (Call Op Answer A) := []
  holder : Option (Program Op Answer A) := none
  returned : List A := []

/-- One operation of one process, the begin or the end of a process, or a loss of power. -/
inductive Step (machine : Machine Op Answer S) (crash : S → S → Prop)
    (admitted : Call Op Answer A → Prop) (w : World Op Answer S A) : World Op Answer S A → Prop
  | arrive (call : Call Op Answer A) (hadmitted : admitted call) :
      Step machine crash admitted w { w with waiting := call :: w.waiting }
  | look {before after : List (Call Op Answer A)} {op : Op} {next : Answer op → Program Op Answer Bool}
      {inside : Program Op Answer A} {answer : Answer op} {t : S}
      (hwaiting : w.waiting = before ++ ⟨.call op next, inside⟩ :: after)
      (hafter : machine.after op w.shared answer t) :
      Step machine crash admitted w
        { w with shared := t, waiting := before ++ ⟨next answer, inside⟩ :: after }
  | leave {before after : List (Call Op Answer A)} {call : Call Op Answer A}
      (hwaiting : w.waiting = before ++ call :: after) :
      Step machine crash admitted w { w with waiting := before ++ after }
  | acquire {before after : List (Call Op Answer A)} {inside : Program Op Answer A}
      (hwaiting : w.waiting = before ++ ⟨.done true, inside⟩ :: after) (hfree : w.holder = none) :
      Step machine crash admitted w { w with waiting := before ++ after, holder := some inside }
  | act {op : Op} {next : Answer op → Program Op Answer A} {answer : Answer op} {t : S}
      (hholder : w.holder = some (.call op next)) (hafter : machine.after op w.shared answer t) :
      Step machine crash admitted w { w with shared := t, holder := some (next answer) }
  | finish {result : A} (hholder : w.holder = some (.done result)) : Step machine crash admitted w
        { w with holder := none, returned := w.returned ++ [result] }
  | die : Step machine crash admitted w { w with holder := none }
  | dieWithin {op : Op} {next : Answer op → Program Op Answer A} {t : S}
      (hholder : w.holder = some (.call op next)) (hduring : machine.during op w.shared t) :
      Step machine crash admitted w { w with shared := t, holder := none }
  | powerLoss {t : S} (hcrash : crash w.shared t) :
      Step machine crash admitted w { w with shared := t, waiting := [], holder := none }

inductive Reaches (machine : Machine Op Answer S) (crash : S → S → Prop)
    (admitted : Call Op Answer A → Prop) (w : World Op Answer S A) : World Op Answer S A → Prop
  | start : Reaches machine crash admitted w w
  | step {w' w'' : World Op Answer S A} (hearlier : Reaches machine crash admitted w w')
      (hstep : Step machine crash admitted w' w'') : Reaches machine crash admitted w w''

section Calls

variable {machine : Machine Op Answer S} {crash : S → S → Prop}
  {admitted : Call Op Answer A → Prop} {w w' : World Op Answer S A} {t : S}

theorem Reaches.look {go : Bool} {outside : Program Op Answer Bool} {inside : Program Op Answer A}
    (hreturns : Returns machine outside w'.shared go t)
    (h : Reaches machine crash admitted w { w' with waiting := ⟨outside, inside⟩ :: w'.waiting }) :
    Reaches machine crash admitted w
      { w' with shared := t, waiting := ⟨.done go, inside⟩ :: w'.waiting } := by
  generalize hshared : w'.shared = s at hreturns
  induction hreturns generalizing w' with
  | done go s =>
    subst hshared
    exact h
  | @call op next s s' t answer go hafter _ ih =>
    subst hshared
    exact @ih { w' with shared := s' }
      (h.step (@Step.look _ _ _ _ _ _ _ _ [] _ _ _ _ _ _ rfl hafter)) rfl

theorem Reaches.act {inside : Program Op Answer A} {result : A}
    (hreturns : Returns machine inside w'.shared result t)
    (h : Reaches machine crash admitted w { w' with holder := some inside }) :
    Reaches machine crash admitted w { w' with shared := t, holder := some (.done result) } := by
  generalize hshared : w'.shared = s at hreturns
  induction hreturns generalizing w' with
  | done result s =>
    subst hshared
    exact h
  | @call op next s s' t answer result hafter _ ih =>
    subst hshared
    exact @ih { w' with shared := s' } (h.step (.act rfl hafter)) rfl

theorem Reaches.call {s : S} {result : A} {call : Call Op Answer A} (hadmitted : admitted call)
    (houtside : Returns machine call.outside w'.shared true s)
    (hinside : Returns machine call.inside s result t) (hfree : w'.holder = none)
    (h : Reaches machine crash admitted w w') :
    Reaches machine crash admitted w
      { w' with shared := t, returned := w'.returned ++ [result] } := by
  have hlooked := Reaches.look houtside (h.step (.arrive call hadmitted))
  have hheld := hlooked.step (@Step.acquire _ _ _ _ _ _ _ _ [] _ _ rfl hfree)
  have hdone := @Reaches.act _ _ _ _ _ _ _ _ { w' with shared := s } _ _ _ hinside hheld
  have hfinished := hdone.step (.finish rfl)
  rw [← hfree] at hfinished
  exact hfinished

end Calls

section Invariant

variable {machine : Machine Op Answer S} {crash : S → S → Prop}
  {admitted : Call Op Answer A → Prop} {reads : Op → Prop} {inv : List A → S → Prop}
  {w w' : World Op Answer S A}

structure Careful (machine : Machine Op Answer S) (reads : Op → Prop) (inv : List A → S → Prop)
    (call : Call Op Answer A) : Prop where
  outside : call.outside.Only reads
  inside : ∀ returned s, inv returned s → Holds machine (inv returned) call.inside
    (fun result t => inv (returned ++ [result]) t) s

structure Kept (machine : Machine Op Answer S) (reads : Op → Prop) (inv : List A → S → Prop)
    (w : World Op Answer S A) : Prop where
  shared : inv w.returned w.shared
  waiting : ∀ call ∈ w.waiting, Careful machine reads inv call
  holder : ∀ program, w.holder = some program → Holds machine (inv w.returned) program
    (fun result t => inv (w.returned ++ [result]) t) w.shared

variable (hreads : ∀ op s answer t, reads op → machine.after op s answer t → t = s)
  (hadmitted : ∀ call, admitted call → Careful machine reads inv call)
  (hcrash : ∀ returned s t, inv returned s → crash s t → inv returned t)

include hreads hadmitted hcrash

theorem Kept.step (h : Kept machine reads inv w) (hstep : Step machine crash admitted w w') :
    Kept machine reads inv w' := by
  cases hstep with
  | arrive call hcall =>
    refine ⟨h.shared, ?_, h.holder⟩
    exact List.forall_mem_cons.mpr ⟨hadmitted call hcall, h.waiting⟩
  | @look before after op next inside answer t hwaiting hafter =>
    have hcalls := h.waiting
    rw [hwaiting, List.forall_mem_append, List.forall_mem_cons] at hcalls
    obtain ⟨hbefore, hcall, hlater⟩ := hcalls
    obtain rfl := hreads op w.shared answer t hcall.outside.1 hafter
    refine ⟨h.shared, ?_, h.holder⟩
    exact List.forall_mem_append.mpr ⟨hbefore, List.forall_mem_cons.mpr
      ⟨⟨hcall.outside.2 answer, hcall.inside⟩, hlater⟩⟩
  | leave hwaiting =>
    have hcalls := h.waiting
    rw [hwaiting, List.forall_mem_append, List.forall_mem_cons] at hcalls
    exact ⟨h.shared, List.forall_mem_append.mpr ⟨hcalls.1, hcalls.2.2⟩, h.holder⟩
  | acquire hwaiting hfree =>
    have hcalls := h.waiting
    rw [hwaiting, List.forall_mem_append, List.forall_mem_cons] at hcalls
    refine ⟨h.shared, List.forall_mem_append.mpr ⟨hcalls.1, hcalls.2.2⟩, ?_⟩
    rintro program ⟨⟩
    exact hcalls.2.1.inside w.returned w.shared h.shared
  | act hholder hafter =>
    have hnext := (h.holder _ hholder).call hafter
    refine ⟨hnext.start, h.waiting, ?_⟩
    rintro program ⟨⟩
    exact hnext
  | finish hholder =>
    exact ⟨(h.holder _ hholder).result, h.waiting, nofun⟩
  | die => exact ⟨h.shared, h.waiting, nofun⟩
  | dieWithin hholder hduring =>
    exact ⟨(h.holder _ hholder).during hduring, h.waiting, nofun⟩
  | powerLoss hlost => exact ⟨hcrash _ _ _ h.shared hlost, nofun, nofun⟩

theorem Reaches.invariant (hreaches : Reaches machine crash admitted w w')
    (hstart : Kept machine reads inv w) : inv w'.returned w'.shared := by
  have hkept : Kept machine reads inv w' := by
    induction hreaches with
    | start => exact hstart
    | step _ hstep ih => exact ih.step hreads hadmitted hcrash hstep
  exact hkept.shared

end Invariant

end LockedCalls
