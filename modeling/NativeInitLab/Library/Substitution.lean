import Mathlib.Data.List.Infix

/-! Texts in which parts are replaced, and the words that no replacement can bring about. -/

namespace Substitution

variable {α β : Type}

/-- Characters that carry a mark of where they come from; those of a replacement are fresh. -/
structure View (α β : Type) where
  code : β → α
  fresh : α → β
  code_fresh : ∀ a, code (fresh a) = a

def plain : View α α := ⟨id, id, fun _ => rfl⟩

def traced : View α (α × Bool) := ⟨Prod.fst, (·, false), fun _ => rfl⟩

/-- Every occurrence of `old`, from the left and without overlaps, becomes `new`. -/
def replaceAll [DecidableEq α] (view : View α β) (old new : List α) : Nat → List β → List β
  | _, [] => []
  | skip + 1, _ :: rest => replaceAll view old new skip rest
  | 0, first :: rest =>
    if old.isPrefixOf ((first :: rest).map view.code) then
      new.map view.fresh ++ replaceAll view old new (old.length - 1) rest
    else first :: replaceAll view old new 0 rest

/-- Characters are copied, or parts are replaced by texts in a way of this kind. -/
inductive Rewrites (kind : List β → List β → Prop) : List β → List β → Prop
  | nil : Rewrites kind [] []
  | copy {text result : List β} (first : β) (hrest : Rewrites kind text result) :
      Rewrites kind (first :: text) (first :: result)
  | replace {text result : List β} (part new : List β) (hkind : kind part new)
      (hrest : Rewrites kind text result) : Rewrites kind (part ++ text) (new ++ result)

/-- No occurrence of the word reaches into the text or lies inside it. -/
def Barrier (word : List β) (text : List β) : Prop :=
  ∃ first middle last, text = first :: (middle ++ [last]) ∧ first ∉ word ∧ last ∉ word ∧
    ¬ word <:+: middle

section Words

variable {kind : List β → List β → Prop} {word text result : List β}

theorem Rewrites.copies (part : List β) (hrest : Rewrites kind text result) :
    Rewrites kind (part ++ text) (part ++ result) := by
  induction part with
  | nil => exact hrest
  | cons first part ih => exact .copy first ih

theorem infix_split {before after : List β} {middle : β} (hmiddle : middle ∉ word)
    (h : word <:+: before ++ middle :: after) : word <:+: before ∨ word <:+: after := by
  induction before with
  | nil =>
    rcases List.infix_cons_iff.mp h with hinitial | hinside
    · cases word with
      | nil => exact .inl (List.nil_infix)
      | cons first word =>
        rw [(List.cons_prefix_cons.mp hinitial).1] at hmiddle
        exact (hmiddle List.mem_cons_self).elim
    · exact .inr hinside
  | cons first before ih =>
    rcases List.infix_cons_iff.mp h with hinitial | hinside
    · have hcut : first :: before ++ [middle] <+: first :: (before ++ middle :: after) :=
        ⟨after, by simp⟩
      rcases List.prefix_or_prefix_of_prefix hinitial hcut with hshort | hlong
      · rcases List.prefix_concat_iff.mp hshort with rfl | hwithin
        · exact (hmiddle (by simp)).elim
        · exact .inl hwithin.isInfix
      · exact (hmiddle (hlong.subset (by simp))).elim
    · rcases ih hinside with hbefore | hafter
      · exact .inl (hbefore.trans (List.suffix_cons first before).isInfix)
      · exact .inr hafter

theorem Barrier.inside (hword : word ≠ []) {new : List β} (hbarrier : Barrier word new)
    (h : word <:+: new ++ result) : word <:+: result := by
  obtain ⟨first, middle, last, rfl, hfirst, hlast, hmiddle⟩ := hbarrier
  have hshape : first :: (middle ++ [last]) ++ result = [] ++ first :: (middle ++ last :: result) :=
    by simp
  rw [hshape] at h
  rcases infix_split hfirst h with hnil | hrest
  · exact (hword (List.infix_nil.mp hnil)).elim
  · rcases infix_split hlast hrest with hinside | hresult
    · exact (hmiddle hinside).elim
    · exact hresult

theorem barrier_of_disjoint (hword : word ≠ []) {new : List β} (hlength : 2 ≤ new.length)
    (hnew : ∀ c ∈ new, c ∉ word) : Barrier word new := by
  cases new with
  | nil => exact absurd hlength (by simp)
  | cons first rest =>
    have hrest : rest ≠ [] := by
      rintro rfl
      exact absurd hlength (by simp)
    obtain ⟨hfirst, hothers⟩ := List.forall_mem_cons.mp hnew
    refine ⟨first, rest.dropLast, rest.getLast hrest, ?_, hfirst,
      hothers _ (List.getLast_mem hrest), fun hinside => ?_⟩
    · rw [List.dropLast_append_getLast hrest]
    · obtain ⟨c, hc⟩ := List.exists_mem_of_ne_nil word hword
      exact hothers c (List.dropLast_subset _ (hinside.subset hc)) hc

theorem Rewrites.isPrefix (h : Rewrites (fun _ => Barrier word) text result) {part : List β}
    (hpart : ∀ c ∈ part, c ∈ word) (hinitial : part <+: result) : part <+: text := by
  induction h generalizing part with
  | nil => exact hinitial
  | copy first hrest ih =>
    cases part with
    | nil => exact List.nil_prefix
    | cons c part =>
      obtain ⟨rfl, hrest⟩ := List.cons_prefix_cons.mp hinitial
      exact List.cons_prefix_cons.mpr
        ⟨rfl, ih (fun d hd => hpart d (List.mem_cons_of_mem _ hd)) hrest⟩
  | replace old new hkind hrest ih =>
    cases part with
    | nil => exact List.nil_prefix
    | cons c part =>
      obtain ⟨first, middle, last, rfl, hfirst, -⟩ := hkind
      obtain ⟨rfl, -⟩ := List.cons_prefix_cons.mp hinitial
      exact (hfirst (hpart c List.mem_cons_self)).elim

/-- What stands in the result stood in the text. -/
theorem Rewrites.isInfix (hword : word ≠ []) (h : Rewrites (fun _ => Barrier word) text result)
    (hinside : word <:+: result) : word <:+: text := by
  induction h with
  | nil => exact hinside
  | copy first hrest ih =>
    rcases List.infix_cons_iff.mp hinside with hinitial | htail
    · exact ((hrest.copy first).isPrefix (fun _ h => h) hinitial).isInfix
    · exact (ih htail).trans (List.suffix_cons first _).isInfix
  | replace old new hkind hrest ih =>
    exact (ih (hkind.inside hword hinside)).trans (List.suffix_append old _).isInfix

/-- What stands in the text stands in the result, if no part with a character of it is replaced. -/
theorem Rewrites.keeps (hword : word ≠ [])
    (h : Rewrites (fun part _ => part ≠ [] ∧ ∀ c ∈ part, c ∉ word) text result)
    (hinside : word <:+: text) : word <:+: result := by
  have hinitially {text result : List β}
      (h : Rewrites (fun part _ => part ≠ [] ∧ ∀ c ∈ part, c ∉ word) text result) {piece : List β}
      (hpiece : ∀ c ∈ piece, c ∈ word) (hinitial : piece <+: text) : piece <+: result := by
    induction h generalizing piece with
    | nil => exact hinitial
    | copy first hrest ih =>
      cases piece with
      | nil => exact List.nil_prefix
      | cons c piece =>
        obtain ⟨rfl, hrest⟩ := List.cons_prefix_cons.mp hinitial
        exact List.cons_prefix_cons.mpr
          ⟨rfl, ih (fun d hd => hpiece d (List.mem_cons_of_mem _ hd)) hrest⟩
    | replace old new hkind hrest ih =>
      cases piece with
      | nil => exact List.nil_prefix
      | cons c piece =>
        obtain ⟨d, old, rfl⟩ := List.exists_cons_of_ne_nil hkind.1
        obtain ⟨rfl, -⟩ := List.cons_prefix_cons.mp hinitial
        exact absurd (hpiece c List.mem_cons_self) (hkind.2 c List.mem_cons_self)
  induction h with
  | nil => exact hinside
  | copy first hrest ih =>
    rcases List.infix_cons_iff.mp hinside with hinitial | htail
    · exact (hinitially (hrest.copy first) (fun _ h => h) hinitial).isInfix
    · exact (ih htail).trans (List.suffix_cons first _).isInfix
  | replace old new hkind hrest ih =>
    refine (ih ?_).trans (List.suffix_append new _).isInfix
    have hnone := hkind.2
    clear hkind ih
    induction old with
    | nil => exact hinside
    | cons c old ih =>
      obtain ⟨hc, hothers⟩ := List.forall_mem_cons.mp hnone
      rcases List.infix_cons_iff.mp hinside with hinitial | htail
      · obtain ⟨d, word, rfl⟩ := List.exists_cons_of_ne_nil hword
        obtain ⟨rfl, -⟩ := List.cons_prefix_cons.mp hinitial
        exact absurd List.mem_cons_self hc
      · exact ih htail hothers

theorem Rewrites.countP_le (marked : β → Bool) (h : Rewrites kind text result)
    (hkind : ∀ part new, kind part new → new.countP marked = 0) :
    result.countP marked ≤ text.countP marked := by
  induction h with
  | nil => exact Nat.le_refl _
  | copy first hrest ih =>
    rw [List.countP_cons, List.countP_cons]
    exact Nat.add_le_add_right ih _
  | replace old new hnew hrest ih =>
    rw [List.countP_append, List.countP_append, hkind old new hnew]
    omega

theorem Rewrites.forall_mem {good : β → Prop} (h : Rewrites kind text result)
    (hkind : ∀ part new, kind part new → ∀ c ∈ new, good c) (htext : ∀ c ∈ text, good c) :
    ∀ c ∈ result, good c := by
  induction h with
  | nil => exact htext
  | copy first hrest ih =>
    obtain ⟨hfirst, htail⟩ := List.forall_mem_cons.mp htext
    exact List.forall_mem_cons.mpr ⟨hfirst, ih htail⟩
  | replace old new hnew hrest ih =>
    exact List.forall_mem_append.mpr ⟨hkind old new hnew, ih (List.forall_mem_append.mp htext).2⟩

theorem Rewrites.mono {kind' : List β → List β → Prop} (h : Rewrites kind text result)
    (hkind : ∀ part new, kind part new → kind' part new) : Rewrites kind' text result := by
  induction h with
  | nil => exact .nil
  | copy first hrest ih => exact .copy first ih
  | replace old new hnew hrest ih => exact .replace old new (hkind old new hnew) ih

end Words

section ReplaceAll

variable [DecidableEq α] {view : View α β} {old new : List α}

theorem replaceAll_skip (skip : Nat) (text : List β) :
    replaceAll view old new skip text = replaceAll view old new 0 (text.drop skip) := by
  induction skip generalizing text with
  | zero => rfl
  | succ skip ih =>
    cases text with
    | nil => rfl
    | cons first rest => exact ih rest

theorem map_replaceAll (skip : Nat) (text : List β) :
    (replaceAll view old new skip text).map view.code =
      replaceAll plain old new skip (text.map view.code) := by
  have hnew : (new.map view.fresh).map view.code = new.map (@plain α).fresh := by
    rw [List.map_map]
    exact List.map_congr_left fun a _ => view.code_fresh a
  induction text generalizing skip with
  | nil =>
    cases skip with
    | _ => rfl
  | cons first rest ih =>
    cases skip with
    | zero =>
      have hplain : (view.code first :: rest.map view.code).map (@plain α).code =
          view.code first :: rest.map view.code := List.map_id _
      rw [replaceAll, List.map_cons, replaceAll, hplain]
      by_cases hfound : old.isPrefixOf (view.code first :: rest.map view.code) = true
      · rw [if_pos hfound, if_pos hfound, List.map_append, hnew, ih]
      · rw [if_neg hfound, if_neg hfound, List.map_cons, ih]
    | succ skip => exact ih skip

theorem replaceAll_rewrites (text : List β) :
    Rewrites (fun _ => (· = new.map view.fresh)) text (replaceAll view old new 0 text) := by
  induction hlength : text.length using Nat.strongRecOn generalizing text with
  | ind length ih =>
    subst hlength
    cases text with
    | nil => exact .nil
    | cons first rest =>
      rw [replaceAll]
      split
      · have hshape : first :: rest =
            (first :: rest.take (old.length - 1)) ++ rest.drop (old.length - 1) := by simp
        have hshorter : (rest.drop (old.length - 1)).length < (first :: rest).length := by
          simp only [List.length_drop, List.length_cons]
          omega
        rw [replaceAll_skip, hshape]
        exact Rewrites.replace _ (new.map view.fresh) rfl (ih _ hshorter _ rfl)
      · exact .copy first (ih _ (Nat.lt_succ_self _) rest rfl)

/-- The word itself is gone. -/
theorem not_infix_replaceAll {word new : List α} (hword : word ≠ []) (hbarrier : Barrier word new)
    (text : List α) : ¬ word <:+: replaceAll plain word new 0 text := by
  have hnew : new.map plain.fresh = new := List.map_id new
  have hrewrites (text : List α) : Rewrites (fun _ => Barrier word) text
      (replaceAll plain word new 0 text) :=
    (replaceAll_rewrites text).mono fun _ other hother => by rw [hother, hnew]; exact hbarrier
  induction hlength : text.length using Nat.strongRecOn generalizing text with
  | ind length ih =>
    subst hlength
    cases text with
    | nil => exact fun h => hword (List.infix_nil.mp h)
    | cons first rest =>
      have hcopy := hrewrites (first :: rest)
      rw [replaceAll] at hcopy ⊢
      split
      · intro h
        rw [hnew, replaceAll_skip] at h
        refine ih _ ?_ _ rfl (hbarrier.inside hword h)
        simp only [List.length_drop, List.length_cons]
        omega
      case isFalse hother =>
        rw [if_neg hother] at hcopy
        intro h
        rcases List.infix_cons_iff.mp h with hinitial | htail
        · refine hother (List.isPrefixOf_iff_prefix.mpr ?_)
          have hcode : (first :: rest).map (@plain α).code = first :: rest := List.map_id _
          rw [hcode]
          exact hcopy.isPrefix (fun _ hc => hc) hinitial
        · exact ih _ (Nat.lt_succ_self _) rest rfl htail

end ReplaceAll

end Substitution
