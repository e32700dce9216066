import Mathlib.Data.List.Basic
import Mathlib.Data.Nat.ModEq
import Mathlib.Logic.Function.Basic

/-! A ring of slots that is used as a queue. -/

namespace RingBuffer

/-- `count` slots from `head` on are in use; the others keep what they held last. -/
structure Ring (capacity : Nat) (A : Type) where
  slots : Fin capacity → A
  head : Fin capacity
  count : Nat
  bounded : count ≤ capacity

namespace Ring

variable {capacity : Nat} {A : Type} (ring : Ring capacity A)

def position (distance : Nat) : Fin capacity :=
  ⟨(ring.head.val + distance) % capacity, Nat.mod_lt _ (Nat.zero_lt_of_lt ring.head.isLt)⟩

def contents : List A :=
  (List.range ring.count).map fun distance => ring.slots (ring.position distance)

def Used (slot : Fin capacity) : Prop := ∃ distance < ring.count, ring.position distance = slot

def push (value : A) (hroom : ring.count < capacity) : Ring capacity A where
  slots := Function.update ring.slots (ring.position ring.count) value
  head := ring.head
  count := ring.count + 1
  bounded := hroom

def setFront (value : A) : Ring capacity A where
  slots := Function.update ring.slots ring.head value
  head := ring.head
  count := ring.count
  bounded := ring.bounded

def pop : Ring capacity A where
  slots := ring.slots
  head := ring.position 1
  count := ring.count - 1
  bounded := Nat.le_trans (Nat.sub_le _ _) ring.bounded

variable {ring}

theorem slots_push_next (value : A) (hroom : ring.count < capacity) :
    (ring.push value hroom).slots (ring.position ring.count) = value :=
  Function.update_self ..

theorem slots_push_of_ne (value : A) (hroom : ring.count < capacity) {slot : Fin capacity}
    (hne : slot ≠ ring.position ring.count) : (ring.push value hroom).slots slot = ring.slots slot :=
  Function.update_of_ne hne ..

theorem slots_setFront_head (value : A) : (ring.setFront value).slots ring.head = value :=
  Function.update_self ..

theorem slots_setFront_of_ne (value : A) {slot : Fin capacity} (hne : slot ≠ ring.head) :
    (ring.setFront value).slots slot = ring.slots slot :=
  Function.update_of_ne hne ..

theorem position_zero : ring.position 0 = ring.head :=
  Fin.ext (Nat.mod_eq_of_lt ring.head.isLt)

theorem position_inj {first second : Nat} (hfirst : first < capacity) (hsecond : second < capacity)
    (hposition : ring.position first = ring.position second) : first = second := by
  have hhead := ring.head.isLt
  have hmod : (ring.head.val + first) % capacity = (ring.head.val + second) % capacity :=
    congrArg Fin.val hposition
  have hcongruent : Nat.ModEq capacity first second :=
    Nat.ModEq.add_left_cancel' ring.head.val hmod
  exact hcongruent.eq_of_lt_of_lt hfirst hsecond

theorem position_pop (distance : Nat) : ring.pop.position distance = ring.position (distance + 1) := by
  refine Fin.ext ?_
  change ((ring.head.val + 1) % capacity + distance) % capacity =
    (ring.head.val + (distance + 1)) % capacity
  rw [Nat.mod_add_mod]
  congr 1
  omega

theorem not_used_next (hroom : ring.count < capacity) : ¬ ring.Used (ring.position ring.count) := by
  rintro ⟨distance, hlt, hposition⟩
  have heq := position_inj (by omega) hroom hposition
  omega

theorem used_head (hcount : 0 < ring.count) : ring.Used ring.head :=
  ⟨0, hcount, position_zero⟩

theorem contents_push (value : A) (hroom : ring.count < capacity) :
    (ring.push value hroom).contents = ring.contents ++ [value] := by
  change (List.range (ring.count + 1)).map (fun distance =>
    Function.update ring.slots (ring.position ring.count) value (ring.position distance)) = _
  rw [List.range_succ, List.map_append, List.map_singleton, Function.update_self]
  congr 1
  refine List.map_congr_left fun distance hdistance => Function.update_of_ne (fun hposition => ?_) _ _
  exact not_used_next hroom ⟨distance, List.mem_range.mp hdistance, hposition⟩

theorem contents_cons (hcount : 0 < ring.count) :
    ring.contents = ring.slots ring.head :: ring.pop.contents := by
  obtain ⟨count, hsucc⟩ := Nat.exists_eq_succ_of_ne_zero (Nat.ne_of_gt hcount)
  change (List.range ring.count).map _ = _ :: (List.range (ring.count - 1)).map _
  rw [hsucc, Nat.succ_sub_one, List.range_succ_eq_map, List.map_cons, position_zero, List.map_map]
  congr 1
  refine List.map_congr_left fun distance _ => ?_
  rw [position_pop]
  rfl

theorem length_contents : ring.contents.length = ring.count := by
  rw [contents, List.length_map, List.length_range]

theorem contents_eq_nil (hcount : ring.count = 0) : ring.contents = [] := by
  rw [contents, hcount]
  rfl

theorem contents_pop_setFront (value : A) : (ring.setFront value).pop.contents = ring.pop.contents := by
  refine List.map_congr_left fun distance hdistance => Function.update_of_ne (fun hposition => ?_) _ _
  have hbound := ring.bounded
  have hlt : distance < ring.count - 1 := List.mem_range.mp hdistance
  have hsame : ring.position (distance + 1) = ring.position 0 := by
    rw [position_zero, ← position_pop]
    exact hposition
  exact absurd (position_inj (by omega) (by omega) hsame) (Nat.succ_ne_zero _)

theorem contents_setFront (value : A) (hcount : 0 < ring.count) :
    (ring.setFront value).contents = value :: ring.pop.contents := by
  have hcons : (ring.setFront value).contents = _ := contents_cons hcount
  rw [hcons, contents_pop_setFront]
  exact congrArg (· :: _) (slots_setFront_head value)

theorem used_push {value : A} {hroom : ring.count < capacity} {slot : Fin capacity} :
    (ring.push value hroom).Used slot ↔ ring.Used slot ∨ slot = ring.position ring.count := by
  constructor
  · rintro ⟨distance, hlt, rfl⟩
    rcases Nat.lt_succ_iff_lt_or_eq.mp hlt with hold | rfl
    · exact .inl ⟨distance, hold, rfl⟩
    · exact .inr rfl
  · rintro (⟨distance, hlt, rfl⟩ | rfl)
    · exact ⟨distance, Nat.lt_succ_of_lt hlt, rfl⟩
    · exact ⟨ring.count, Nat.lt_succ_self _, rfl⟩

theorem used_pop (hcount : 0 < ring.count) {slot : Fin capacity} :
    ring.pop.Used slot ↔ ring.Used slot ∧ slot ≠ ring.head := by
  have hbound := ring.bounded
  constructor
  · rintro ⟨distance, hlt, rfl⟩
    change distance < ring.count - 1 at hlt
    rw [position_pop]
    refine ⟨⟨distance + 1, by omega, rfl⟩, fun hhead => ?_⟩
    rw [← position_zero] at hhead
    exact absurd (position_inj (by omega) (by omega) hhead) (Nat.succ_ne_zero _)
  · rintro ⟨⟨distance, hlt, rfl⟩, hne⟩
    cases distance with
    | zero => exact absurd position_zero hne
    | succ distance =>
      exact ⟨distance, (by change distance < ring.count - 1; omega), position_pop distance⟩

end Ring

end RingBuffer
