import Mathlib.Data.List.Basic
import Mathlib.Data.Nat.Bitwise
import Mathlib.Tactic.Ring

namespace LittleEndian

/-! Byte strings as unsigned numbers, least significant byte first, and the
windows of a byte string that fixed layouts read. -/

def value : List UInt8 → Nat
  | [] => 0
  | byte :: rest => byte.toNat + 256 * value rest

def store : Nat → Nat → List UInt8
  | 0, _ => []
  | width + 1, number => UInt8.ofNat number :: store width (number / 256)

@[simp] theorem length_store (width number : Nat) :
    (store width number).length = width := by
  induction width generalizing number with
  | zero => rfl
  | succ width ih => simp [store, ih]

theorem value_store (width number : Nat) :
    value (store width number) = number % 256 ^ width := by
  induction width generalizing number with
  | zero => simp [store, value, Nat.mod_one]
  | succ width ih =>
    have hbyte : (UInt8.ofNat number).toNat = number % 256 :=
      UInt8.toNat_ofNat'
    rw [store, value, ih, hbyte, Nat.pow_succ,
      Nat.mul_comm (256 ^ width) 256, Nat.mod_mul]

theorem value_store_of_lt {width number : Nat} (hlt : number < 256 ^ width) :
    value (store width number) = number := by
  rw [value_store, Nat.mod_eq_of_lt hlt]

theorem value_lt (bytes : List UInt8) : value bytes < 256 ^ bytes.length := by
  induction bytes with
  | nil => simp [value]
  | cons byte rest ih =>
    have hbyte := byte.toNat_lt
    simp only [value, List.length_cons, Nat.pow_succ]
    omega

theorem store_value (bytes : List UInt8) :
    store bytes.length (value bytes) = bytes := by
  induction bytes with
  | nil => rfl
  | cons byte rest ih =>
    have hbyte := byte.toNat_lt
    have hhead : UInt8.ofNat (byte.toNat + 256 * value rest) = byte := by
      apply UInt8.toNat_inj.mp
      rw [UInt8.toNat_ofNat']
      omega
    have htail : (byte.toNat + 256 * value rest) / 256 = value rest := by
      omega
    simp only [List.length_cons, value, store, hhead, htail, ih]

theorem value_append (low high : List UInt8) :
    value (low ++ high) = value low + 256 ^ low.length * value high := by
  induction low with
  | nil => simp [value]
  | cons byte rest ih =>
    simp only [List.cons_append, value, ih, List.length_cons, Nat.pow_succ]
    ring

theorem or_shiftLeft {low high width : Nat} (hlow : low < 2 ^ width) :
    low ||| high <<< width = low + 2 ^ width * high := by
  rw [Nat.or_comm, ← Nat.shiftLeft_add_eq_or_of_lt hlow, Nat.shiftLeft_eq,
    Nat.add_comm, Nat.mul_comm]

def window (offset length : Nat) (bytes : List α) : List α :=
  (bytes.drop offset).take length

theorem length_window {offset length : Nat} {bytes : List α}
    (hbound : offset + length ≤ bytes.length) :
    (window offset length bytes).length = length := by
  simp only [window, List.length_take, List.length_drop]
  omega

theorem window_add (offset first second : Nat) (bytes : List α) :
    window offset (first + second) bytes =
      window offset first bytes ++ window (offset + first) second bytes := by
  simp only [window]
  rw [List.take_add, List.drop_drop]

theorem window_one {offset : Nat} {bytes : List α} (fallback : α)
    (hbound : offset < bytes.length) :
    window offset 1 bytes = [bytes.getD offset fallback] := by
  rw [window, List.drop_eq_getElem_cons hbound, List.take_succ_cons,
    List.take_zero, List.getD_eq_getElem _ _ hbound]

theorem window_append_left {offset length : Nat} {left right : List α}
    (hbound : offset + length ≤ left.length) :
    window offset length (left ++ right) = window offset length left := by
  simp only [window]
  rw [List.drop_append_of_le_length (by omega),
    List.take_append_of_le_length (by simp; omega)]

theorem window_append_right {offset length : Nat} {left right : List α}
    (hbound : left.length ≤ offset) :
    window offset length (left ++ right) =
      window (offset - left.length) length right := by
  simp only [window]
  rw [List.drop_append, List.drop_eq_nil_of_le hbound, List.nil_append]

theorem window_take {offset length size : Nat} {bytes : List α} (hbound : offset + length ≤ size) :
    window offset length (bytes.take size) = window offset length bytes := by
  rw [window, window, List.drop_take, List.take_take, Nat.min_eq_left (by omega)]

theorem window_self (bytes : List α) : window 0 bytes.length bytes = bytes := by
  simp [window]

/-! Comparison without an early exit: the differences of all positions are
accumulated and only the accumulator is tested. -/

def constantTimeEqual (left right : List UInt8) : Bool :=
  (List.zipWith (· ^^^ ·) left right).foldl (· ||| ·) 0 == 0

theorem foldl_or_eq_zero (bytes : List UInt8) (start : UInt8) :
    bytes.foldl (· ||| ·) start = 0 ↔ start = 0 ∧ ∀ byte ∈ bytes, byte = 0 := by
  induction bytes generalizing start with
  | nil => simp
  | cons byte rest ih =>
    simp only [List.foldl_cons, ih, List.forall_mem_cons, UInt8.or_eq_zero_iff]
    tauto

theorem constantTimeEqual_iff {left right : List UInt8}
    (hlength : left.length = right.length) :
    constantTimeEqual left right = true ↔ left = right := by
  simp only [constantTimeEqual, beq_iff_eq, foldl_or_eq_zero, true_and]
  induction left generalizing right with
  | nil =>
    have hright : right = [] := List.length_eq_zero_iff.mp hlength.symm
    simp [hright]
  | cons byte rest ih =>
    cases right with
    | nil => simp at hlength
    | cons other tail =>
      have hrest : rest.length = tail.length := by simpa using hlength
      simp only [List.zipWith_cons_cons, List.forall_mem_cons, ih hrest,
        UInt8.xor_eq_zero_iff, List.cons.injEq]

end LittleEndian
