import Mathlib.Data.List.DropRight
import Mathlib.Data.List.Infix

/-! Texts that are read in pieces: the words that occur in them, found with a suffix carried from
piece to piece, and their blocks, absorbed through a buffer. -/

namespace Pieces

variable {α : Type} {word before chunk carry : List α}

/-- An occurrence lies in one of the two parts or reaches over the seam. -/
theorem infix_append_iff : word <:+: before ++ chunk ↔ word <:+: before ∨ word <:+: chunk ∨
    ∃ left right, left ≠ [] ∧ right ≠ [] ∧ left ++ right = word ∧ left <:+ before ∧
      right <+: chunk := by
  constructor
  · rintro ⟨first, last, hsplit⟩
    rw [List.append_assoc] at hsplit
    rcases List.append_eq_append_iff.mp hsplit with ⟨mid, rfl, hrest⟩ | ⟨mid, rfl, hrest⟩
    · rcases List.append_eq_append_iff.mp hrest with ⟨tail, rfl, rfl⟩ | ⟨tail, rfl, rfl⟩
      · exact .inl ⟨first, tail, List.append_assoc ..⟩
      · by_cases hmid : mid = []
        · subst hmid
          exact .inr (.inl (List.prefix_append tail last).isInfix)
        · by_cases htail : tail = []
          · subst htail
            rw [List.append_nil]
            exact .inl (List.suffix_append first mid).isInfix
          · exact .inr (.inr ⟨mid, tail, hmid, htail, rfl, List.suffix_append first mid,
              List.prefix_append tail last⟩)
    · exact .inr (.inl ⟨mid, last, by rw [List.append_assoc, hrest]⟩)
  · rintro (h | h | ⟨left, right, -, -, rfl, ⟨first, rfl⟩, ⟨last, rfl⟩⟩)
    · exact h.trans (List.prefix_append before chunk).isInfix
    · exact h.trans (List.suffix_append before chunk).isInfix
    · exact ⟨first, last, by simp⟩

/-- What is carried is enough when only one element of the word is missing from its length. -/
theorem infix_seam_iff (hcarry : carry <:+ before)
    (hlong : carry = before ∨ word.length ≤ carry.length + 1) :
    word <:+: before ++ chunk ↔ word <:+: before ∨ word <:+: carry ++ chunk := by
  constructor
  · intro h
    rcases infix_append_iff.mp h with
      hbefore | hchunk | ⟨left, right, hleft, hright, hword, hsuffix, hinitial⟩
    · exact .inl hbefore
    · exact .inr (hchunk.trans (List.suffix_append carry chunk).isInfix)
    · refine .inr (infix_append_iff.mpr (.inr (.inr ⟨left, right, hleft, hright, hword, ?_, hinitial⟩)))
      rcases hlong with rfl | hlong
      · exact hsuffix
      · apply List.suffix_of_suffix_length_le hsuffix hcarry
        have hlength := congrArg List.length hword
        rw [List.length_append] at hlength
        have := List.length_pos_iff.mpr hright
        omega
  · rintro (h | h)
    · exact h.trans (List.prefix_append before chunk).isInfix
    · obtain ⟨front, rfl⟩ := hcarry
      rw [List.append_assoc]
      exact h.trans (List.suffix_append front _).isInfix

/-- Of the new piece only the front can belong to an occurrence that starts before it. -/
theorem infix_front_iff : word <:+: carry ++ chunk ↔
    word <:+: chunk ∨ word <:+: carry ++ chunk.take (word.length - 1) := by
  constructor
  · intro h
    rcases infix_append_iff.mp h with
      hcarry | hchunk | ⟨left, right, hleft, hright, hword, hsuffix, hinitial⟩
    · exact .inr (hcarry.trans (List.prefix_append carry _).isInfix)
    · exact .inl hchunk
    · refine .inr (infix_append_iff.mpr (.inr (.inr ⟨left, right, hleft, hright, hword, hsuffix, ?_⟩)))
      apply List.prefix_take_iff.mpr
      refine ⟨hinitial, ?_⟩
      have hlength := congrArg List.length hword
      rw [List.length_append] at hlength
      have := List.length_pos_iff.mpr hleft
      omega
  · rintro (h | h)
    · exact h.trans (List.suffix_append carry chunk).isInfix
    · exact h.trans ((List.prefix_append_right_inj carry).mpr (List.take_prefix _ chunk)).isInfix

theorem rtake_of_length_le {count : Nat} (hshort : before.length ≤ count) :
    before.rtake count = before := by
  rw [List.rtake, Nat.sub_eq_zero_of_le hshort, List.drop_zero]

theorem length_rtake {count : Nat} (hlong : count ≤ before.length) :
    (before.rtake count).length = count := by
  rw [List.rtake, List.length_drop, Nat.sub_sub_self hlong]

theorem rtake_append_of_le {count : Nat} (hcount : count ≤ chunk.length) (before : List α) :
    (before ++ chunk).rtake count = chunk.rtake count := by
  rw [List.rtake, List.rtake, List.length_append, Nat.add_sub_assoc hcount, List.drop_append,
    List.drop_eq_nil_of_le (Nat.le_add_right ..), List.nil_append, Nat.add_sub_cancel_left]

theorem rtake_rtake_append (before chunk : List α) (count : Nat) :
    (before.rtake count ++ chunk).rtake count = (before ++ chunk).rtake count := by
  rcases Nat.le_total before.length count with hshort | hlong
  · rw [rtake_of_length_le hshort]
  · have hlength : count ≤ (before.rtake count ++ chunk).length := by
      rw [List.length_append, length_rtake hlong]
      exact Nat.le_add_right ..
    have hsplit : before.take (before.length - count) ++ (before.rtake count ++ chunk) =
        before ++ chunk := by
      rw [← List.append_assoc, List.rtake, List.take_append_drop]
    rw [← hsplit, rtake_append_of_le hlength]

theorem infix_rtake_iff {count : Nat} (hcount : word.length ≤ count + 1) :
    word <:+: before ++ chunk ↔ word <:+: before ∨ word <:+: before.rtake count ++ chunk := by
  have hcarry : before.rtake count <:+ before := List.drop_suffix _ before
  apply infix_seam_iff hcarry
  rcases Nat.le_total before.length count with hshort | hlong
  · exact .inl (rtake_of_length_le hshort)
  · right
    rw [length_rtake hlong]
    exact hcount

section Blocks

variable {S : Type} (size : Nat) (step : S → List α → S)

/-- One more element; a buffer that has become a whole block goes into the state. -/
def feed (absorbed : S × List α) (element : α) : S × List α :=
  if absorbed.2.length + 1 = size then (step absorbed.1 (absorbed.2 ++ [element]), [])
  else (absorbed.1, absorbed.2 ++ [element])

def absorb (absorbed : S × List α) (part : List α) : S × List α :=
  part.foldl (feed size step) absorbed

variable {size} {state : S} {buffer part : List α}

theorem absorb_append (absorbed : S × List α) (first second : List α) :
    absorb size step absorbed (first ++ second) =
      absorb size step (absorb size step absorbed first) second :=
  List.foldl_append

theorem absorb_of_lt (hroom : buffer.length + part.length < size) :
    absorb size step (state, buffer) part = (state, buffer ++ part) := by
  induction part generalizing buffer with
  | nil => rw [List.append_nil]; rfl
  | cons element part ih =>
    rw [List.length_cons] at hroom
    have hfeed : feed size step (state, buffer) element = (state, buffer ++ [element]) :=
      if_neg (by simp only; omega)
    rw [absorb, List.foldl_cons, hfeed, List.append_cons buffer element part]
    apply ih
    rw [List.length_append, List.length_singleton]
    omega

theorem absorb_block (hpart : part ≠ []) (hwhole : buffer.length + part.length = size) :
    absorb size step (state, buffer) part = (step state (buffer ++ part), []) := by
  obtain ⟨front, last, hconcat⟩ := (List.eq_nil_or_concat part).resolve_left hpart
  rw [List.concat_eq_append] at hconcat
  subst hconcat
  rw [List.length_append, List.length_singleton] at hwhole
  have hfront : absorb size step (state, buffer) front = (state, buffer ++ front) :=
    absorb_of_lt step (by omega)
  rw [absorb_append, hfront, ← List.append_assoc]
  apply if_pos
  change (buffer ++ front).length + 1 = size
  rw [List.length_append]
  omega

theorem length_absorb (state : S) (hroom : buffer.length < size) (part : List α) :
    (absorb size step (state, buffer) part).2.length = (buffer.length + part.length) % size := by
  induction part generalizing state buffer with
  | nil => exact (Nat.mod_eq_of_lt hroom).symm
  | cons element part ih =>
    rw [absorb, List.foldl_cons, feed, List.length_cons]
    split
    case isTrue hwhole =>
      have hfull : buffer.length + (part.length + 1) = part.length + size := by
        simp only at hwhole
        omega
      rw [hfull, Nat.add_mod_right, ← Nat.zero_add part.length]
      exact ih _ (Nat.lt_of_le_of_lt (Nat.zero_le _) hroom)
    case isFalse hshort =>
      have hlonger : (buffer ++ [element]).length = buffer.length + 1 := List.length_append
      rw [Nat.add_comm part.length 1, ← Nat.add_assoc, ← hlonger]
      have hleft : (buffer ++ [element]).length < size := by
        simp only at hshort
        omega
      exact ih _ hleft

end Blocks

end Pieces
