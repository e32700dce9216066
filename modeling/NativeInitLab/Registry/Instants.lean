import NativeInitLab.Registry.Entry

namespace NativeInitLab.Registry

open CrashProgram CrashProgram.Program Lockstep NumberedFiles

/-! Rules for what holds at every instant of every run, operations that fail included. -/

variable {A B : Type} {inv pre : Directory → Prop} {ok : A → Directory → Prop}
  {effect : Effect} {failure : Failure} {program : Action A}

/-- From `pre` and `inv`, `inv` holds at every instant, and `ok` where the program returns. -/
def Guarded (inv pre : Directory → Prop) (program : Action A) (ok : A → Directory → Prop) : Prop :=
  Triple machine inv (fun directory => inv directory ∧ pre directory) program
    (fun value directory => inv directory ∧ ok value directory) fun _ directory => inv directory

theorem guarded_pure {value : A} (hok : ∀ directory, pre directory → ok value directory) :
    Guarded inv pre (pure value) ok :=
  triple_pure fun directory h => ⟨h.1, h.1, hok directory h.2⟩

theorem guarded_throw : Guarded inv pre (throw failure : Action A) ok :=
  triple_throw fun _ h => ⟨h.1, h.1⟩

theorem Guarded.bind {rest : A → Action B} {next : B → Directory → Prop}
    (hprogram : Guarded inv pre program ok)
    (hrest : ∀ value, Guarded inv (ok value) (rest value) next) :
    Guarded inv pre (program >>= rest) next :=
  Triple.bind hprogram (fun _ _ h => h) hrest

theorem Guarded.mono {pre' : Directory → Prop} {ok' : A → Directory → Prop}
    (hprogram : Guarded inv pre program ok) (hpre : ∀ directory, pre' directory → pre directory)
    (hok : ∀ value directory, ok value directory → ok' value directory) :
    Guarded inv pre' program ok' :=
  Triple.mono hprogram (fun directory h => ⟨h.1, hpre directory h.2⟩)
    (fun value directory h => ⟨h.1, hok value directory h.2⟩) fun _ _ h => h

theorem Guarded.map {f : A → B} {ok' : B → Directory → Prop} (hprogram : Guarded inv pre program ok)
    (hok : ∀ value directory, ok value directory → ok' (f value) directory) :
    Guarded inv pre (f <$> program) ok' := by
  show Guarded inv pre (program >>= fun value => pure (f value)) ok'
  exact hprogram.bind fun value => guarded_pure (hok value)

theorem guarded_of_fact {fact : Prop} (h : fact → Guarded inv pre program ok) :
    Guarded inv (fun directory => pre directory ∧ fact) program ok :=
  fun directory hpre => h hpre.2.2 directory ⟨hpre.1, hpre.2.1⟩

theorem guarded_check {result : Except Failure A} :
    Guarded inv pre (check result) fun value directory => pre directory ∧ result = .ok value := by
  cases result with
  | error failure => exact guarded_throw
  | ok value => exact guarded_pure fun directory h => ⟨h, rfl⟩

theorem guarded_require {condition : Prop} [Decidable condition] :
    Guarded inv pre (check (require condition failure)) fun _ directory =>
      pre directory ∧ condition :=
  guarded_check.mono (fun _ h => h) fun _ _ h => ⟨h.1, require_eq_ok.mp h.2⟩

theorem guarded_listRoot : Guarded inv pre listRoot fun names directory =>
      pre directory ∧ names = directory.root.names := by
  have hact : Guarded inv pre (act .listRoot) fun (answer : Option (List StagingName)) directory =>
      pre directory ∧ (answer = none ∨ answer = some directory.root.names) := by
    refine triple_perform fun directory h => ⟨h.1, fun _ hduring => hduring.elim, ?_⟩
    rintro answer _ ⟨hanswer, rfl⟩
    exact ⟨h.1, h.1, h.2, hanswer⟩
  refine hact.bind fun answer => ?_
  cases answer with
  | none => exact guarded_throw
  | some names => exact guarded_pure fun _ h => ⟨h.1, Option.some.inj (h.2.resolve_left nofun)⟩

theorem guarded_read : Guarded inv pre read fun found directory =>
      pre directory ∧ found = directory := by
  have hact : Guarded inv pre (act .read) fun (answer : Option Directory) directory =>
      pre directory ∧ (answer = none ∨ answer = some directory) := by
    refine triple_perform fun directory h => ⟨h.1, fun _ hduring => hduring.elim, ?_⟩
    rintro answer _ ⟨hanswer, rfl⟩
    exact ⟨h.1, h.1, h.2, hanswer⟩
  refine hact.bind fun answer => ?_
  cases answer with
  | none => exact guarded_throw
  | some found => exact guarded_pure fun _ h => ⟨h.1, Option.some.inj (h.2.resolve_left nofun)⟩

theorem guarded_pickStaging : Guarded inv pre (act .pickStaging) fun _ directory =>
      pre directory := by
  refine triple_perform fun directory h => ⟨h.1, fun _ hduring => hduring.elim, ?_⟩
  rintro answer _ rfl
  exact ⟨h.1, h⟩

theorem guarded_layout : Guarded inv pre layout fun _ directory => pre directory := by
  refine guarded_listRoot.bind fun children => guarded_listRoot.bind fun staged => ?_
  refine guarded_require.bind fun _ => guarded_require.mono (fun _ h => h) ?_
  exact fun _ directory h => h.1.1.1.1

section Effects

variable (heffect : ∀ directory, pre directory → inv (apply effect directory).2)
include heffect

theorem guarded_change :
    Guarded inv pre (act (.change effect)) fun (outcome : Outcome) next =>
      ∃ directory, pre directory ∧ (apply effect directory = (outcome, next) ∨
        outcome = .failed ∧ (next = directory ∨ next = (apply effect directory).2)) := by
  refine triple_perform fun directory h => ⟨h.1, fun _ hduring => hduring.elim, ?_⟩
  intro outcome next hafter
  have hcompleted := heffect directory h.2
  have hnext : inv next := by
    rcases hafter with happlied | ⟨-, rfl | rfl⟩
    · rw [happlied] at hcompleted
      exact hcompleted
    · exact h.1
    · exact hcompleted
  exact ⟨hnext, hnext, directory, h.2, hafter⟩

theorem guarded_discard : Guarded inv pre (discard (act (.change effect))) fun _ _ => True :=
  (guarded_change heffect).map fun _ _ _ => trivial

theorem guarded_demand {done : Directory → Prop}
    (hdone : ∀ directory, pre directory → done (apply effect directory).2) :
    Guarded inv pre (demand effect failure) fun _ next => done next := by
  refine (guarded_change heffect).bind fun (outcome : Outcome) => ?_
  refine guarded_require.mono (fun _ h => h) ?_
  rintro - next ⟨⟨directory, hpre, happlied | ⟨hfailed, -⟩⟩, rfl⟩
  · have hcompleted := hdone directory hpre
    rw [happlied] at hcompleted
    exact hcompleted
  · cases hfailed

end Effects

theorem guarded_createFile {file : File} {done : Directory → Prop}
    (heffect : ∀ directory, pre directory → inv (apply (.create file) directory).2)
    (hdone : ∀ directory, pre directory → (apply (.create file) directory).1 = .done →
      done (apply (.create file) directory).2) :
    Guarded inv pre (createFile file) fun _ next => done next := by
  refine (guarded_change heffect).bind fun (created : Outcome) => ?_
  refine guarded_require.bind fun _ => guarded_require.mono (fun _ h => h) ?_
  rintro - next ⟨⟨⟨directory, hpre, happlied | ⟨hrefused, -⟩⟩, hexists⟩, hfailed⟩
  · have hcompleted := hdone directory hpre
    rw [happlied] at hcompleted
    cases created with
    | done => exact hcompleted rfl
    | taken => exact absurd rfl hexists
    | failed => exact absurd rfl hfailed
  · exact absurd hrefused hfailed

end NativeInitLab.Registry
