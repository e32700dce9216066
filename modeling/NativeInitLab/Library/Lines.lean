import Mathlib.Data.List.Basic

/-! The lines of a text, as a reader sees them that takes one character after the other. -/

namespace Lines

variable {α : Type} [DecidableEq α] (newline : α)

def complete (text : List α) : List (List α) := (text.splitOn newline).dropLast

def unfinished (text : List α) : List α := (text.splitOn newline).getLastD []

variable {newline}

theorem splitOn_cons (first : α) (text : List α) : (first :: text).splitOn newline =
      if first = newline then [] :: text.splitOn newline
      else (text.splitOn newline).modifyHead (List.cons first) := by
  rw [List.splitOn, List.splitOnP_cons_eq_if_modifyHead]
  simp only [beq_iff_eq]
  rfl

theorem splitOn_eq (text : List α) :
    text.splitOn newline = complete newline text ++ [unfinished newline text] := by
  have hne : text.splitOn newline ≠ [] := List.splitOn_ne_nil newline text
  rw [complete, unfinished, List.getLastD_eq_getLast?, List.getLast?_eq_getLast_of_ne_nil hne,
    Option.getD_some, List.dropLast_append_getLast hne]

theorem eq_of_splitOn {text : List α} {lines : List (List α)} {rest : List α}
    (h : text.splitOn newline = lines ++ [rest]) :
    complete newline text = lines ∧ unfinished newline text = rest := by
  rw [splitOn_eq] at h
  obtain ⟨hlines, hrest⟩ := List.append_inj' h rfl
  exact ⟨hlines, (List.cons.inj hrest).1⟩

@[simp] theorem unfinished_nil : unfinished newline ([] : List α) = [] := rfl

theorem splitOn_newline (text : List α) : (text ++ [newline]).splitOn newline =
      complete newline text ++ [unfinished newline text] ++ [[]] := by
  rw [← splitOn_eq]
  exact List.splitOnP_append_cons text [] (beq_self_eq_true newline)

theorem splitOn_other {text : List α} {last : α} (hlast : last ≠ newline) :
    (text ++ [last]).splitOn newline =
      complete newline text ++ [unfinished newline text ++ [last]] := by
  induction text with
  | nil =>
    rw [List.nil_append, splitOn_cons, if_neg hlast]
    rfl
  | cons first text ih =>
    have hsplit := @splitOn_cons α _ newline first text
    rw [List.cons_append, splitOn_cons, ih]
    rw [splitOn_eq text] at hsplit
    by_cases hfirst : first = newline
    · rw [if_pos hfirst] at hsplit ⊢
      obtain ⟨hcomplete, hunfinished⟩ := @eq_of_splitOn α _ newline (first :: text)
        ([] :: complete newline text) _ hsplit
      rw [hcomplete, hunfinished]
      rfl
    · rw [if_neg hfirst] at hsplit ⊢
      cases hlines : complete newline text with
      | nil =>
        rw [hlines] at hsplit
        obtain ⟨hcomplete, hunfinished⟩ := @eq_of_splitOn α _ newline (first :: text) []
          _ hsplit
        rw [hcomplete, hunfinished]
        rfl
      | cons line lines =>
        rw [hlines] at hsplit
        obtain ⟨hcomplete, hunfinished⟩ :=
          @eq_of_splitOn α _ newline (first :: text) ((first :: line) :: lines) _ hsplit
        rw [hcomplete, hunfinished]
        rfl

@[simp] theorem complete_newline (text : List α) :
    complete newline (text ++ [newline]) = complete newline text ++ [unfinished newline text] :=
  (eq_of_splitOn (splitOn_newline text)).1

@[simp] theorem unfinished_newline (text : List α) : unfinished newline (text ++ [newline]) = [] :=
  (eq_of_splitOn (splitOn_newline text)).2

theorem complete_other {text : List α} {last : α} (hlast : last ≠ newline) :
    complete newline (text ++ [last]) = complete newline text :=
  (eq_of_splitOn (splitOn_other hlast)).1

theorem unfinished_other {text : List α} {last : α} (hlast : last ≠ newline) :
    unfinished newline (text ++ [last]) = unfinished newline text ++ [last] :=
  (eq_of_splitOn (splitOn_other hlast)).2

end Lines
