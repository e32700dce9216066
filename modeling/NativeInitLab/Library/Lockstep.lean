import Mathlib.Data.List.Basic

namespace Lockstep

/-! Two deterministic checkers that read the same input.  One refuses with
`none`, the other with an error; they agree when they refuse together and their
states stay related while they accept. -/

variable {S T I E : Type} {condition : Prop} [Decidable condition] {failure : E}

def Agrees (related : S → T → Prop) : Option S → Except E T → Prop
  | some left, .ok right => related left right
  | none, .error _ => True
  | _, _ => False

def require (condition : Prop) [Decidable condition] (failure : E) : Except E Unit :=
  if condition then .ok () else .error failure

@[simp] theorem require_of_pos (failure : E) (hcondition : condition) :
    require condition failure = .ok () := by
  simp [require, hcondition]

@[simp] theorem require_of_neg (failure : E) (hcondition : ¬ condition) :
    require condition failure = .error failure := by
  simp [require, hcondition]

theorem require_eq_ok {value : Unit} : require condition failure = .ok value ↔ condition := by
  by_cases hcondition : condition
  · simp [hcondition]
  · simp [hcondition]

theorem require_bind_eq_ok {next : Unit → Except E T} {result : T} :
    (require condition failure >>= next) = .ok result ↔ condition ∧ next () = .ok result := by
  by_cases hcondition : condition
  · simp [require, hcondition, Bind.bind, Except.bind]
  · simp [require, hcondition, Bind.bind, Except.bind]

@[simp] theorem ok_bind (value : S) (next : S → Except E T) :
    (Except.ok value >>= next) = next value := rfl

@[simp] theorem error_bind (failure : E) (next : S → Except E T) :
    (Except.error failure >>= next) = .error failure := rfl

theorem bind_eq_ok {first : Except E S} {next : S → Except E T} {result : T} :
    (first >>= next) = .ok result ↔ ∃ value, first = .ok value ∧ next value = .ok result := by
  cases first with
  | error failure => simp [Bind.bind, Except.bind]
  | ok value => simp [Bind.bind, Except.bind]

theorem mapM_eq_ok {step : S → Except E T} {value : S → T} {items : List S}
    (h : ∀ item ∈ items, step item = .ok (value item)) :
    items.mapM step = .ok (items.map value) := by
  induction items with
  | nil => rfl
  | cons item items ih =>
    rw [List.mapM_cons, h item (List.mem_cons_self ..), ok_bind,
      ih fun other hother => h other (List.mem_cons_of_mem _ hother)]
    rfl

section Agrees

variable {related : S → T → Prop} {left : Option S} {right : Unit → Except E T} {failure : E}

@[simp] theorem agrees_error (failure : E) : Agrees related none (.error failure) := trivial

theorem agrees_guard {refused accepted : Prop} [Decidable refused] [Decidable accepted]
    (hguard : ¬ refused ↔ accepted) (hnext : accepted → Agrees related left (right ())) :
    Agrees related (if refused then none else left) (require accepted failure >>= right) := by
  by_cases haccepted : accepted
  · have hrefused : ¬ refused := hguard.mpr haccepted
    simpa [hrefused, haccepted, Bind.bind, Except.bind] using hnext haccepted
  · have hrefused : refused := by
      by_contra hnot
      exact haccepted (hguard.mp hnot)
    simp [hrefused, haccepted, Bind.bind, Except.bind]

theorem agrees_none_guard {accepted : Prop} [Decidable accepted]
    (hnext : accepted → Agrees related none (right ())) :
    Agrees related none (require accepted failure >>= right) := by
  by_cases haccepted : accepted
  · simpa [haccepted, Bind.bind, Except.bind] using hnext haccepted
  · simp [haccepted, Bind.bind, Except.bind]

theorem agrees_ite {selected selected' : Prop} [Decidable selected]
    [Decidable selected'] {left left' : Option S} {right right' : Except E T}
    (hselected : selected ↔ selected')
    (hthen : selected' → Agrees related left right)
    (helse : ¬ selected' → Agrees related left' right') :
    Agrees related (if selected then left else left') (if selected' then right else right') := by
  by_cases hcase : selected'
  · simpa [hselected, hcase] using hthen hcase
  · simpa [hselected, hcase] using helse hcase

theorem agrees_merge {first second : Prop} [Decidable first] [Decidable second]
    {failure failure' : E} {left : Option S} {right : Unit → Except E T}
    (hboth : Agrees related left (require (first ∧ second) failure >>= right)) :
    Agrees related left (require first failure >>= fun _ => require second failure' >>= right) := by
  by_cases hfirst : first <;> by_cases hsecond : second <;> cases left <;>
    simp_all [Bind.bind, Except.bind, Agrees]

theorem agrees_merge_tests {first second : Prop} [Decidable first]
    [Decidable second] {left : Option S} {right : Except E T}
    (hboth : Agrees related (if first ∨ second then none else left) right) :
    Agrees related (if first then none else if second then none else left)
      right := by
  by_cases hfirst : first <;> simp_all

theorem agrees_isSome_iff {left : Option S} {right : Except E T}
    (hagrees : Agrees related left right) :
    left.isSome = true ↔ ∃ state, right = .ok state := by
  cases left with
  | none =>
    cases right with
    | error _ => simp
    | ok _ => exact False.elim hagrees
  | some left =>
    cases right with
    | error _ => exact False.elim hagrees
    | ok right => simp

theorem Agrees.map {S' T' : Type} {related' : S' → T' → Prop} {left : Option S}
    {right : Except E T} {onLeft : S → S'} {onRight : T → T'}
    (hagrees : Agrees related left right)
    (hmap : ∀ s t, related s t → related' (onLeft s) (onRight t)) :
    Agrees related' (left.map onLeft) (onRight <$> right) := by
  cases left with
  | none =>
    cases right with
    | error failure => exact agrees_error failure
    | ok _ => exact False.elim hagrees
  | some left =>
    cases right with
    | error _ => exact False.elim hagrees
    | ok right => exact hmap left right hagrees

end Agrees

def runLeft (step : S → I → Option S) (start : S) (inputs : List I) : Option S :=
  inputs.foldlM step start

def runRight (step : T → I → Except E T) (start : T) (inputs : List I) : Except E T :=
  inputs.foldlM step start

theorem runLeft_cons (step : S → I → Option S) (start : S) (input : I) (inputs : List I) :
    runLeft step start (input :: inputs) =
      (step start input).bind fun next => runLeft step next inputs := rfl

theorem runLeft_append (step : S → I → Option S) (start : S) (inputs later : List I) :
    runLeft step start (inputs ++ later) =
      (runLeft step start inputs).bind fun next => runLeft step next later :=
  List.foldlM_append

theorem runRight_cons (step : T → I → Except E T) (start : T) (input : I) (inputs : List I) :
    runRight step start (input :: inputs) =
      (step start input).bind fun next => runRight step next inputs := rfl

theorem agrees_run {related : S → T → Prop} (admitted : I → Prop)
    {left : S → I → Option S} {right : T → I → Except E T}
    (hstep : ∀ s t input, admitted input → related s t →
      Agrees related (left s input) (right t input))
    {s : S} {t : T} (hstart : related s t) {inputs : List I}
    (hinputs : ∀ input ∈ inputs, admitted input) :
    Agrees related (runLeft left s inputs) (runRight right t inputs) := by
  induction inputs generalizing s t with
  | nil => exact hstart
  | cons input inputs ih =>
    obtain ⟨hinput, hinputs⟩ := List.forall_mem_cons.mp hinputs
    have hone := hstep s t input hinput hstart
    rw [runLeft_cons, runRight_cons]
    cases hleft : left s input with
    | none =>
      cases hright : right t input with
      | error failure => exact agrees_error failure
      | ok next => simp [hleft, hright, Agrees] at hone
    | some next =>
      cases hright : right t input with
      | error failure => simp [hleft, hright, Agrees] at hone
      | ok other =>
        rw [hleft, hright] at hone
        exact ih hone hinputs

theorem foldlM_keeps (kept : T → Prop) {step : T → I → Except E T}
    (hstep : ∀ t input next, kept t → step t input = .ok next → kept next)
    {start final : T} {inputs : List I} (hstart : kept start)
    (hrun : inputs.foldlM step start = .ok final) : kept final := by
  induction inputs generalizing start with
  | nil => exact Except.ok.inj hrun ▸ hstart
  | cons input inputs ih =>
    rw [List.foldlM_cons, bind_eq_ok] at hrun
    obtain ⟨next, hone, hrest⟩ := hrun
    exact ih (hstep _ _ _ hstart hone) hrest

theorem forall_of_runRight (kept : T → Prop) {accepted : I → Prop} {step : T → I → Except E T}
    (hstep : ∀ t input next, kept t → step t input = .ok next → accepted input ∧ kept next)
    {start final : T} {inputs : List I} (hstart : kept start)
    (hrun : runRight step start inputs = .ok final) :
    ∀ input ∈ inputs, accepted input := by
  induction inputs generalizing start with
  | nil => simp
  | cons input inputs ih =>
    rw [runRight_cons] at hrun
    cases hone : step start input with
    | error failure => simp [hone, Except.bind] at hrun
    | ok next =>
      rw [hone] at hrun
      obtain ⟨haccepted, hnext⟩ := hstep _ _ _ hstart hone
      exact List.forall_mem_cons.mpr ⟨haccepted, ih hnext hrun⟩

end Lockstep
