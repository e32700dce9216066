import Mathlib.Data.List.Basic

namespace NumberedFiles

/-! A directory of files with numbered names, as a listing in the order of the names.  A file is
complete when it was written; what was not synced may be lost in a crash. -/

variable {N V : Type}

/-- A file: its content if it can be read, whether the content was synced, and whether its
directory was synced after that. -/
structure Slot (N V : Type) where
  name : N
  content : Option V := none
  flushed : Bool := false
  settled : Bool := false
  deriving DecidableEq

def Slot.complete (name : N) (value : V) : Slot N V := ⟨name, some value, true, true⟩

def Slot.kept (slot : Slot N V) : Slot N V := { slot with flushed := true, settled := true }

theorem Slot.kept_eq {slot : Slot N V} (hflushed : slot.flushed = true)
    (hsettled : slot.settled = true) : slot.kept = slot := by
  obtain ⟨name, content, flushed, settled⟩ := slot
  cases hflushed
  cases hsettled
  rfl

variable (number : N → Nat)

def insert (slot : Slot N V) : List (Slot N V) → List (Slot N V)
  | [] => [slot]
  | first :: rest =>
    if number slot.name < number first.name then slot :: first :: rest
    else first :: insert slot rest

theorem mem_insert {slot file : Slot N V} {files : List (Slot N V)} :
    file ∈ insert number slot files ↔ file = slot ∨ file ∈ files := by
  induction files with
  | nil => exact List.mem_singleton.trans (or_iff_left List.not_mem_nil).symm
  | cons first rest ih =>
    rw [insert]
    split
    · exact List.mem_cons
    · rw [List.mem_cons, ih, List.mem_cons, or_left_comm]

theorem insert_last {slot : Slot N V} {files : List (Slot N V)}
    (h : ∀ file ∈ files, number file.name < number slot.name) :
    insert number slot files = files ++ [slot] := by
  induction files with
  | nil => rfl
  | cons first rest ih =>
    have hfirst := h first (List.mem_cons_self ..)
    rw [insert, if_neg (by omega), ih fun file hfile => h file (List.mem_cons_of_mem _ hfile)]
    rfl

section Names

variable [DecidableEq N]

def create (name : N) (files : List (Slot N V)) : Option (List (Slot N V)) :=
  if name ∈ files.map Slot.name then none else some (insert number { name } files)

def update (name : N) (change : Slot N V → Slot N V) (files : List (Slot N V)) : List (Slot N V) :=
  files.map fun slot => if slot.name = name then change slot else slot

def write (name : N) (value : V) : List (Slot N V) → List (Slot N V) :=
  update name fun slot => { slot with content := some value }

def flush (name : N) : List (Slot N V) → List (Slot N V) :=
  update name fun slot => { slot with flushed := true }

end Names

def settle (files : List (Slot N V)) : List (Slot N V) :=
  files.map fun slot => { slot with settled := slot.settled || slot.flushed }

inductive Crash : List (Slot N V) → List (Slot N V) → Prop
  | nil : Crash [] []
  | kept {slot : Slot N V} {files after : List (Slot N V)} (hrest : Crash files after) :
      Crash (slot :: files) (slot.kept :: after)
  | torn {slot : Slot N V} {files after : List (Slot N V)} (hunsynced : slot.flushed = false)
      (hrest : Crash files after) : Crash (slot :: files) (⟨slot.name, none, true, true⟩ :: after)
  | lost {slot : Slot N V} {files after : List (Slot N V)} (hunsettled : slot.settled = false)
      (hrest : Crash files after) : Crash (slot :: files) after

section Complete

variable [DecidableEq N] {number} {name : N} {value : V} {slot : Slot N V} {files : List (Slot N V)}
  {change : Slot N V → Slot N V}

theorem create_last (h : ∀ file ∈ files, number file.name < number name) :
    create number name files = some (files ++ [⟨name, none, false, false⟩]) := by
  have hnew : name ∉ files.map Slot.name := by
    intro hname
    obtain ⟨file, hfile, rfl⟩ := List.mem_map.mp hname
    exact Nat.lt_irrefl _ (h file hfile)
  rw [create, if_neg hnew, insert_last number h]

theorem create_eq_some {created : List (Slot N V)} (h : create number name files = some created) :
    (∀ file ∈ files, file.name ≠ name) ∧ created = insert number { name } files := by
  rw [create, Option.ite_none_left_eq_some] at h
  refine ⟨fun file hfile hname => h.1 ?_, (Option.some.inj h.2).symm⟩
  exact List.mem_map.mpr ⟨file, hfile, hname⟩

theorem mem_update (hslot : slot ∈ files) (hname : slot.name = name) :
    change slot ∈ update name change files := by
  rw [update]
  refine List.mem_map.mpr ⟨slot, hslot, ?_⟩
  rw [if_pos hname]

theorem mem_update_of_ne (hslot : slot ∈ files) (hname : slot.name ≠ name) :
    slot ∈ update name change files := by
  rw [update]
  refine List.mem_map.mpr ⟨slot, hslot, ?_⟩
  rw [if_neg hname]

theorem update_last (hname : slot.name = name) (h : ∀ file ∈ files, file.name ≠ name) :
    update name change (files ++ [slot]) = files ++ [change slot] := by
  have hold : files.map (fun slot => if slot.name = name then change slot else slot) = files := by
    conv_rhs => rw [← List.map_id files]
    exact List.map_congr_left fun file hfile => if_neg (h file hfile)
  rw [update, List.map_append, hold, List.map_singleton, if_pos hname]

end Complete

theorem mem_settle {slot : Slot N V} {files : List (Slot N V)} (hslot : slot ∈ files)
    (hflushed : slot.flushed = true) : slot.kept ∈ settle files := by
  rw [settle]
  refine List.mem_map.mpr ⟨slot, hslot, ?_⟩
  rw [Slot.kept, hflushed, Bool.or_true]

theorem Crash.mem {slot : Slot N V} {files after : List (Slot N V)} (h : Crash files after)
    (hslot : slot ∈ files) (hflushed : slot.flushed = true) (hsettled : slot.settled = true) :
    slot ∈ after := by
  induction h with
  | nil => exact hslot
  | kept _ ih =>
    rcases List.mem_cons.mp hslot with rfl | hslot
    · rw [Slot.kept_eq hflushed hsettled]
      exact List.mem_cons_self
    · exact List.mem_cons_of_mem _ (ih hslot)
  | torn hunsynced _ ih =>
    rcases List.mem_cons.mp hslot with rfl | hslot
    · rw [hflushed] at hunsynced
      cases hunsynced
    · exact List.mem_cons_of_mem _ (ih hslot)
  | lost hunsettled _ ih =>
    rcases List.mem_cons.mp hslot with rfl | hslot
    · rw [hsettled] at hunsettled
      cases hunsettled
    · exact ih hslot

section Settled

variable {slot : Slot N V} {files after : List (Slot N V)}

def Settled (files : List (Slot N V)) : Prop :=
  ∀ file ∈ files, file.flushed = true ∧ file.settled = true

theorem settle_of_settled (h : Settled files) : settle files = files := by
  conv_rhs => rw [← List.map_id files]
  refine List.map_congr_left fun file hfile => ?_
  obtain ⟨hflushed, hsettled⟩ := h file hfile
  obtain ⟨name, content, flushed, settled⟩ := file
  cases hsettled
  rfl

theorem crash_settled (h : Settled files) (hcrash : Crash files after) : after = files := by
  induction files generalizing after with
  | nil =>
    cases hcrash
    rfl
  | cons first rest ih =>
    obtain ⟨hflushed, hsettled⟩ := h first (List.mem_cons_self ..)
    cases hcrash with
    | kept hcrash =>
      rw [Slot.kept_eq hflushed hsettled,
        ih (fun file hfile => h file (List.mem_cons_of_mem _ hfile)) hcrash]
    | torn hunsynced =>
      rw [hflushed] at hunsynced
      cases hunsynced
    | lost hunsettled =>
      rw [hsettled] at hunsettled
      cases hunsettled

theorem crash_last (h : Settled files) (hcrash : Crash (files ++ [slot]) after) :
    after = files ++ [slot.kept] ∨
      slot.flushed = false ∧ after = files ++ [⟨slot.name, none, true, true⟩] ∨
      slot.settled = false ∧ after = files := by
  induction files generalizing after with
  | nil =>
    cases hcrash with
    | kept hrest =>
      cases hrest
      exact .inl rfl
    | torn hunsynced hrest =>
      cases hrest
      exact .inr (.inl ⟨hunsynced, rfl⟩)
    | lost hunsettled hrest =>
      cases hrest
      exact .inr (.inr ⟨hunsettled, rfl⟩)
  | cons first rest ih =>
    obtain ⟨hflushed, hsettled⟩ := h first (List.mem_cons_self ..)
    have hrest : Settled rest := fun file hfile => h file (List.mem_cons_of_mem _ hfile)
    cases hcrash with
    | kept hcrash =>
      rw [Slot.kept_eq hflushed hsettled]
      rcases ih hrest hcrash with rfl | ⟨hunsynced, rfl⟩ | ⟨hunsettled, rfl⟩
      · exact .inl rfl
      · exact .inr (.inl ⟨hunsynced, rfl⟩)
      · exact .inr (.inr ⟨hunsettled, rfl⟩)
    | torn hunsynced =>
      rw [hflushed] at hunsynced
      cases hunsynced
    | lost hunsettled =>
      rw [hsettled] at hunsettled
      cases hunsettled

end Settled

end NumberedFiles
