import Mathlib.Tactic.Basic

/-! Programs that call an unreliable environment and may be cut off at any
instant, with a logic of invariants that hold at every instant of a run. -/

namespace CrashProgram

/-- A program over the operations `Op`: a result, or a call and what follows each
of its answers. -/
inductive Program (Op : Type) (Answer : Op → Type) (A : Type) : Type where
  | done (result : A)
  | call (op : Op) (next : Answer op → Program Op Answer A)

variable {Op S A B : Type} {Answer : Op → Type}

namespace Program

def bind : Program Op Answer A → (A → Program Op Answer B) → Program Op Answer B
  | .done result, rest => rest result
  | .call op next, rest => .call op fun answer => (next answer).bind rest

instance : Monad (Program Op Answer) where
  pure := .done
  bind := bind

def perform (op : Op) : Program Op Answer (Answer op) := .call op .done

/-- Execution with an environment that answers every call in one way. -/
def run (handler : (op : Op) → S → Answer op × S) : Program Op Answer A → S → A × S
  | .done result, s => (result, s)
  | .call op next, s => (next (handler op s).1).run handler (handler op s).2

/-- The state in which an execution is when it is stopped after some calls. -/
def runFor (handler : (op : Op) → S → Answer op × S) : Nat → Program Op Answer A → S → S
  | 0, _, s => s
  | _ + 1, .done _, s => s
  | count + 1, .call op next, s =>
    runFor handler count (next (handler op s).1) (handler op s).2

def Only (allowed : Op → Prop) : Program Op Answer A → Prop
  | .done _ => True
  | .call op next => allowed op ∧ ∀ answer, (next answer).Only allowed

section Only

variable {allowed : Op → Prop}

theorem only_bind {program : Program Op Answer A} {rest : A → Program Op Answer B}
    (hprogram : program.Only allowed) (hrest : ∀ result, (rest result).Only allowed) :
    (program >>= rest).Only allowed := by
  induction program with
  | done result => exact hrest result
  | call op next ih => exact ⟨hprogram.1, fun answer => ih answer (hprogram.2 answer)⟩

theorem only_map {program : Program Op Answer A} {f : A → B} (hprogram : program.Only allowed) :
    (f <$> program).Only allowed := by
  induction program with
  | done result => trivial
  | call op next ih => exact ⟨hprogram.1, fun answer => ih answer (hprogram.2 answer)⟩

end Only

section Run

variable {handler : (op : Op) → S → Answer op × S} {s : S}

@[simp] theorem run_bind (program : Program Op Answer A) (rest : A → Program Op Answer B) :
    (program >>= rest).run handler s =
      (rest (program.run handler s).1).run handler (program.run handler s).2 := by
  induction program generalizing s with
  | done => rfl
  | call op next ih => exact ih (handler op s).1

@[simp] theorem run_map (program : Program Op Answer A) (f : A → B) :
    (f <$> program).run handler s = (f (program.run handler s).1, (program.run handler s).2) :=
  run_bind program fun result => pure (f result)

theorem runFor_eq_run (handler : (op : Op) → S → Answer op × S)
    (program : Program Op Answer A) (s : S) :
    ∃ count, ∀ later, count ≤ later →
      runFor handler later program s = (program.run handler s).2 := by
  induction program generalizing s with
  | done result =>
    refine ⟨0, fun later _ => ?_⟩
    cases later with
    | zero => rfl
    | succ later => rfl
  | call op next ih =>
    obtain ⟨count, hcount⟩ := ih (handler op s).1 (handler op s).2
    refine ⟨count + 1, fun later hlater => ?_⟩
    cases later with
    | zero => omega
    | succ later => exact hcount later (by omega)

end Run

end Program

open Program

/-- What a call may do: the states seen while it is in progress, and the answers
with which it may come back. -/
structure Machine (Op : Type) (Answer : Op → Type) (S : Type) where
  during : Op → S → S → Prop
  after : (op : Op) → S → Answer op → S → Prop

variable {machine : Machine Op Answer S}

/-- The states of all instants of the runs of a program. -/
inductive Visits (machine : Machine Op Answer S) : Program Op Answer A → S → S → Prop
  | here (program : Program Op Answer A) (s : S) : Visits machine program s s
  | within {op : Op} {next : Answer op → Program Op Answer A} {s t : S}
      (hduring : machine.during op s t) : Visits machine (.call op next) s t
  | later {op : Op} {next : Answer op → Program Op Answer A} {s s' t : S}
      {answer : Answer op} (hafter : machine.after op s answer s')
      (hvisits : Visits machine (next answer) s' t) :
      Visits machine (.call op next) s t

inductive Returns (machine : Machine Op Answer S) : Program Op Answer A → S → A → S → Prop
  | done (result : A) (s : S) : Returns machine (.done result) s result s
  | call {op : Op} {next : Answer op → Program Op Answer A} {s s' t : S}
      {answer : Answer op} {result : A} (hafter : machine.after op s answer s')
      (hreturns : Returns machine (next answer) s' result t) :
      Returns machine (.call op next) s result t

theorem returns_run {handler : (op : Op) → S → Answer op × S}
    (hhandler : ∀ op s, machine.after op s (handler op s).1 (handler op s).2)
    (program : Program Op Answer A) (s : S) :
    Returns machine program s (program.run handler s).1 (program.run handler s).2 := by
  induction program generalizing s with
  | done result => exact .done result s
  | call op next ih => exact .call (hhandler op s) (ih _ _)

theorem visits_runFor {handler : (op : Op) → S → Answer op × S}
    (hhandler : ∀ op s, machine.after op s (handler op s).1 (handler op s).2) (count : Nat)
    (program : Program Op Answer A) (s : S) :
    Visits machine program s (runFor handler count program s) := by
  induction count generalizing program s with
  | zero => exact .here program s
  | succ count ih =>
    cases program with
    | done result => exact .here _ s
    | call op next => exact .later (hhandler op s) (ih _ _)

theorem Returns.visits {program : Program Op Answer A} {s t : S} {result : A}
    (hreturns : Returns machine program s result t) : Visits machine program s t := by
  induction hreturns with
  | done result s => exact .here _ s
  | call hafter _ ih => exact .later hafter ih

/-- `inv` holds at every instant of every run from `s`, and `post` of every
complete run. -/
def Holds (machine : Machine Op Answer S) (inv : S → Prop) :
    Program Op Answer A → (A → S → Prop) → S → Prop
  | .done result, post, s => inv s ∧ post result s
  | .call op next, post, s =>
    inv s ∧ (∀ t, machine.during op s t → inv t) ∧ ∀ answer t, machine.after op s answer t →
        Holds machine inv (next answer) post t

section Rules

variable {inv : S → Prop} {post post' : A → S → Prop} {s t : S} {program : Program Op Answer A}
  {rest : A → Program Op Answer B} {op : Op} {next : Answer op → Program Op Answer A}

theorem Holds.start (hholds : Holds machine inv program post s) : inv s := by
  cases program with
  | done => exact hholds.1
  | call => exact hholds.1

theorem Holds.during (hholds : Holds machine inv (.call op next) post s)
    (hduring : machine.during op s t) : inv t :=
  hholds.2.1 t hduring

theorem Holds.call {answer : Answer op} (hholds : Holds machine inv (.call op next) post s)
    (hafter : machine.after op s answer t) : Holds machine inv (next answer) post t :=
  hholds.2.2 answer t hafter

theorem Holds.result {result : A}
    (hholds : Holds machine inv (.done result : Program Op Answer A) post s) : post result s :=
  hholds.2

theorem holds_pure {result : A} (hinv : inv s) (hpost : post result s) :
    Holds machine inv (pure result : Program Op Answer A) post s :=
  ⟨hinv, hpost⟩

theorem holds_ite {condition : Prop} [Decidable condition] {program other : Program Op Answer A}
    (hthen : condition → Holds machine inv program post s)
    (helse : ¬ condition → Holds machine inv other post s) :
    Holds machine inv (if condition then program else other) post s := by
  by_cases hcondition : condition
  · rw [if_pos hcondition]
    exact hthen hcondition
  · rw [if_neg hcondition]
    exact helse hcondition

theorem holds_perform (hinv : inv s) (hduring : ∀ t, machine.during op s t → inv t)
    (hafter : ∀ answer t, machine.after op s answer t → Holds machine inv (next answer) post t) :
    Holds machine inv (perform op >>= next) post s :=
  ⟨hinv, hduring, hafter⟩

theorem Holds.weaken {inv' : S → Prop} (hholds : Holds machine inv program post s)
    (hinv : ∀ t, inv t → inv' t) (hpost : ∀ result t, post result t → post' result t) :
    Holds machine inv' program post' s := by
  induction program generalizing s with
  | done result => exact ⟨hinv _ hholds.1, hpost _ _ hholds.2⟩
  | call op next ih =>
    exact ⟨hinv _ hholds.1, fun t hduring => hinv t (hholds.2.1 t hduring),
      fun answer t hafter => ih answer (hholds.2.2 answer t hafter)⟩

theorem Holds.with_inv (hholds : Holds machine inv program post s) :
    Holds machine inv program (fun result t => inv t ∧ post result t) s := by
  induction program generalizing s with
  | done result => exact ⟨hholds.1, hholds⟩
  | call op next ih =>
    exact ⟨hholds.1, hholds.2.1, fun answer t hafter => ih answer (hholds.2.2 answer t hafter)⟩

theorem Holds.mono (hholds : Holds machine inv program post s)
    (hpost : ∀ result t, post result t → post' result t) : Holds machine inv program post' s :=
  hholds.weaken (fun _ hinv => hinv) hpost

theorem holds_bind {post : B → S → Prop} (hholds : Holds machine inv program
      (fun result t => Holds machine inv (rest result) post t) s) :
    Holds machine inv (program >>= rest) post s := by
  induction program generalizing s with
  | done result => exact hholds.2
  | call op next ih =>
    exact ⟨hholds.1, hholds.2.1, fun answer t hafter =>
      ih answer (hholds.2.2 answer t hafter)⟩

theorem holds_map {f : A → B} {post : B → S → Prop}
    (hholds : Holds machine inv program (fun result t => post (f result) t) s) :
    Holds machine inv (f <$> program) post s := by
  induction program generalizing s with
  | done result => exact hholds
  | call op next ih =>
    exact ⟨hholds.1, hholds.2.1, fun answer t hafter =>
      ih answer (hholds.2.2 answer t hafter)⟩

theorem holds_only {allowed : Op → Prop} {kept : S → Prop} (hinv : ∀ s, kept s → inv s)
    (hduring : ∀ op s t, allowed op → kept s → machine.during op s t → inv t)
    (hafter : ∀ op s answer t, allowed op → kept s → machine.after op s answer t → kept t)
    (honly : program.Only allowed) (hkept : kept s) :
    Holds machine inv program (fun _ t => kept t) s := by
  induction program generalizing s with
  | done => exact ⟨hinv s hkept, hkept⟩
  | call op next ih =>
    exact ⟨hinv s hkept, fun t ht => hduring op s t honly.1 hkept ht,
      fun answer t ht => ih answer (honly.2 answer) (hafter op s answer t honly.1 hkept ht)⟩

theorem Holds.visits (hholds : Holds machine inv program post s)
    (hvisits : Visits machine program s t) : inv t := by
  induction hvisits with
  | here => exact hholds.start
  | within hduring => exact hholds.2.1 _ hduring
  | later hafter _ ih => exact ih (hholds.2.2 _ _ hafter)

theorem Holds.returns {result : A} (hholds : Holds machine inv program post s)
    (hreturns : Returns machine program s result t) : inv t ∧ post result t := by
  induction hreturns with
  | done => exact hholds
  | call hafter _ ih => exact ih (hholds.2.2 _ _ hafter)

end Rules

section Fallible

variable {E : Type} {inv pre : S → Prop} {ok : A → S → Prop} {bad : E → S → Prop}

/-- A program that may fail: from `pre` it leads to `ok` where it succeeds and to `bad` where it
fails, and `inv` holds at every instant. -/
def Triple (machine : Machine Op Answer S) (inv pre : S → Prop)
    (program : ExceptT E (Program Op Answer) A) (ok : A → S → Prop) (bad : E → S → Prop) : Prop :=
  ∀ s, pre s → Holds machine inv program.run (fun result t =>
    match result with
    | .ok value => ok value t
    | .error failure => bad failure t) s

theorem triple_pure {value : A} (h : ∀ s, pre s → inv s ∧ ok value s) :
    Triple machine inv pre (pure value) ok bad :=
  fun s hs => holds_pure (h s hs).1 (h s hs).2

theorem triple_throw {failure : E} (h : ∀ s, pre s → inv s ∧ bad failure s) :
    Triple machine inv pre (throw failure : ExceptT E (Program Op Answer) A) ok bad :=
  fun s hs => holds_pure (h s hs).1 (h s hs).2

theorem Triple.bind {program : ExceptT E (Program Op Answer) A}
    {rest : A → ExceptT E (Program Op Answer) B} {next : B → S → Prop}
    (hprogram : Triple machine inv pre program ok bad) (hbad : ∀ failure s, bad failure s → inv s)
    (hrest : ∀ value, Triple machine inv (ok value) (rest value) next bad) :
    Triple machine inv pre (program >>= rest) next bad := by
  intro s hs
  refine holds_bind ((hprogram s hs).mono fun result t ht => ?_)
  cases result with
  | ok value => exact hrest value t ht
  | error failure => exact holds_pure (hbad failure t ht) ht

theorem Triple.mono {pre' : S → Prop} {ok' : A → S → Prop} {bad' : E → S → Prop}
    {program : ExceptT E (Program Op Answer) A} (hprogram : Triple machine inv pre program ok bad)
    (hpre : ∀ s, pre' s → pre s) (hok : ∀ value s, ok value s → ok' value s)
    (hbad : ∀ failure s, bad failure s → bad' failure s) :
    Triple machine inv pre' program ok' bad' := by
  intro s hs
  refine (hprogram s (hpre s hs)).mono fun result t ht => ?_
  cases result with
  | ok value => exact hok value t ht
  | error failure => exact hbad failure t ht

theorem triple_perform {op : Op} {ok : Answer op → S → Prop}
    (h : ∀ s, pre s → inv s ∧ (∀ t, machine.during op s t → inv t) ∧
      ∀ answer t, machine.after op s answer t → inv t ∧ ok answer t) :
    Triple machine inv pre (ExceptT.lift (perform op) : ExceptT E (Program Op Answer) (Answer op))
      ok bad := by
  intro s hs
  obtain ⟨hinv, hduring, hafter⟩ := h s hs
  refine holds_map (holds_perform hinv hduring fun answer t ht => ?_)
  exact holds_pure (hafter answer t ht).1 (hafter answer t ht).2

end Fallible

attribute [irreducible] Holds

/-- The states in which a sequence of runs, each cut off at some instant, can
leave the environment. -/
inductive Restarts (machine : Machine Op Answer S)
    (admitted : Program Op Answer A → Prop) : S → S → Prop
  | start (s : S) : Restarts machine admitted s s
  | run {s s' t : S} {program : Program Op Answer A}
      (hearlier : Restarts machine admitted s s') (hadmitted : admitted program)
      (hvisits : Visits machine program s' t) : Restarts machine admitted s t

theorem Restarts.invariant {admitted : Program Op Answer A → Prop} {inv : S → Prop}
    (hrun : ∀ program s, admitted program → inv s → Holds machine inv program (fun _ _ => True) s)
    {s t : S} (hrestarts : Restarts machine admitted s t) (hstart : inv s) :
    inv t := by
  induction hrestarts with
  | start => exact hstart
  | run _ hadmitted hvisits ih => exact (hrun _ _ hadmitted ih).visits hvisits

end CrashProgram
