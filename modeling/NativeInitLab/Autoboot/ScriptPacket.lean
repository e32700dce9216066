import Mathlib.Data.List.TakeWhile
import NativeInitLab.Library.FixedWidth
import NativeInitLab.Library.Numerals

/-!
The text of one dispatcher packet, `s22plus_autoboot_script_packet_v1.h`.  A text is the list of
its bytes before the terminating NUL.
-/

namespace NativeInitLab.Autoboot

open FixedWidth Numerals

structure Limits where
  recordCap : Nat
  scriptCount : Nat
  recordCap_lt : recordCap < 2 ^ 32
  scriptCount_lt : scriptCount < 2 ^ 32

def apUnsignedLoop (value count : Nat) : List UInt8 → Option (Nat × Nat × List UInt8)
  | [] => some (value, count, [])
  | byte :: rest =>
    if isDecimal byte then
      if 20 < count + 1 ∨ (2 ^ 64 - 1 - (byte.toNat - 48)) / 10 < value then none
      else apUnsignedLoop (wrap64 (value * 10 + (byte.toNat - 48))) (count + 1) rest
    else some (value, count, byte :: rest)

def apUnsigned (text : List UInt8) : Option (Nat × List UInt8) :=
  match apUnsignedLoop 0 0 text with
  | none => none
  | some (value, count, rest) => if count = 0 then none else some (value, rest)

def apSigned (text : List UInt8) : Option (Int × List UInt8) :=
  let negative := text.head? == some 45
  match apUnsigned (if negative then text.drop 1 else text) with
  | none => none
  | some (value, rest) =>
    if 2 ^ 31 - 1 + negative.toNat < value then none
    else some (if negative then -(value : Int) else value, rest)

inductive Kind
  | d
  | b
  | e
  | x
  deriving DecidableEq, Repr

def Kind.ofByte (byte : UInt8) : Option Kind :=
  if byte = 68 then some .d
  else if byte = 66 then some .b
  else if byte = 69 then some .e
  else if byte = 88 then some .x
  else none

structure Packet where
  sequence : Nat
  kind : Kind
  id : Nat
  result : Int
  deriving DecidableEq, Repr

def space : List UInt8 → Option (List UInt8)
  | [] => none
  | byte :: rest => if byte = 32 then some rest else none

def Packet.admitted (packet : Packet) : Bool :=
  match packet.kind with
  | .b => packet.id != 0 && packet.result == 0
  | .e => packet.id != 0 && (0 ≤ packet.result && packet.result ≤ 255 : Bool)
  | .d => packet.id == 0 && packet.result == 0
  | .x => packet.id == 0 && packet.result == 0

def apPacketParse (limits : Limits) (text : List UInt8) : Option Packet := do
  let (number, text) ← apUnsigned text
  guard (number ≠ 0 ∧ number ≤ limits.recordCap)
  let text ← space text
  let kind ← text.head?.bind Kind.ofByte
  let text ← space (text.drop 1)
  let (identifier, text) ← apUnsigned text
  guard (identifier ≤ limits.scriptCount)
  let text ← space text
  let (result, text) ← apSigned text
  guard (text = [10])
  let packet : Packet := ⟨wrap32 number, kind, wrap32 identifier, result⟩
  guard packet.admitted
  return packet

def digitsOf (text : List UInt8) : List UInt8 := text.takeWhile isDecimal

def afterDigits (text : List UInt8) : List UInt8 := text.dropWhile isDecimal

theorem digitValue_of_isDecimal {byte : UInt8} (hdigit : isDecimal byte = true) :
    digitValue byte = byte.toNat - 48 ∧ byte.toNat - 48 ≤ 9 := by
  simp only [isDecimal, Bool.and_eq_true, decide_eq_true_eq] at hdigit
  have hle : byte.toNat ≤ 57 := UInt8.le_iff_toNat_le.mp hdigit.2
  exact ⟨if_pos hdigit, by omega⟩

def valueFrom (value : Nat) (digits : List UInt8) : Nat :=
  digits.foldl (fun number byte => 10 * number + digitValue byte) value

theorem le_valueFrom (digits : List UInt8) (value : Nat) : value ≤ valueFrom value digits := by
  induction digits generalizing value with
  | nil => exact Nat.le_refl value
  | cons byte digits ih =>
    have hstep := ih (10 * value + digitValue byte)
    rw [valueFrom, List.foldl_cons, ← valueFrom]
    omega

theorem apUnsignedLoop_eq (text : List UInt8) (value count : Nat) (hvalue : value < 2 ^ 64)
    (hcount : count ≤ 20) :
    apUnsignedLoop value count text =
      if count + (digitsOf text).length ≤ 20 ∧ valueFrom value (digitsOf text) < 2 ^ 64 then
        some (valueFrom value (digitsOf text), count + (digitsOf text).length, afterDigits text)
      else none := by
  induction text generalizing value count with
  | nil =>
    rw [if_pos ⟨hcount, hvalue⟩]
    rfl
  | cons byte text ih =>
    by_cases hdigit : isDecimal byte = true
    · obtain ⟨hdigitValue, hnine⟩ := digitValue_of_isDecimal hdigit
      have hdigits : digitsOf (byte :: text) = byte :: digitsOf text :=
        List.takeWhile_cons_of_pos hdigit
      have hrest : afterDigits (byte :: text) = afterDigits text :=
        List.dropWhile_cons_of_pos hdigit
      have hnext : valueFrom value (byte :: digitsOf text) =
          valueFrom (value * 10 + (byte.toNat - 48)) (digitsOf text) := by
        simp only [valueFrom, List.foldl_cons, hdigitValue, Nat.mul_comm]
      have hle := le_valueFrom (digitsOf text) (value * 10 + (byte.toNat - 48))
      rw [apUnsignedLoop, if_pos hdigit, hdigits, hrest, hnext, List.length_cons]
      by_cases hguard : 20 < count + 1 ∨ (2 ^ 64 - 1 - (byte.toNat - 48)) / 10 < value
      · rw [if_pos hguard, if_neg]
        omega
      · have hfits : value * 10 + (byte.toNat - 48) < 2 ^ 64 := by omega
        rw [if_neg hguard, wrap64_of_lt hfits, ih _ _ hfits (by omega), Nat.add_assoc,
          Nat.add_comm 1]
    · have hdigits : digitsOf (byte :: text) = [] := List.takeWhile_cons_of_neg hdigit
      have hrest : afterDigits (byte :: text) = byte :: text := List.dropWhile_cons_of_neg hdigit
      rw [apUnsignedLoop, if_neg hdigit, hdigits, hrest, if_pos ⟨hcount, hvalue⟩]
      rfl

theorem apUnsigned_eq (text : List UInt8) : apUnsigned text =
      if digitsOf text ≠ [] ∧ (digitsOf text).length ≤ 20 ∧ value 10 (digitsOf text) < 2 ^ 64 then
        some (value 10 (digitsOf text), afterDigits text)
      else none := by
  have hvalue : valueFrom 0 (digitsOf text) = value 10 (digitsOf text) := rfl
  rw [apUnsigned, apUnsignedLoop_eq text 0 0 (by decide) (by decide), hvalue, Nat.zero_add]
  by_cases hempty : digitsOf text = []
  · simp [hempty, value]
  · by_cases hfits : (digitsOf text).length ≤ 20 ∧ value 10 (digitsOf text) < 2 ^ 64
    · have hcount : (digitsOf text).length ≠ 0 := mt List.eq_nil_of_length_eq_zero hempty
      rw [if_pos hfits, if_pos ⟨hempty, hfits⟩]
      exact if_neg hcount
    · rw [if_neg hfits, if_neg fun hall => hfits hall.2]

/-- What `ap_packet_parse` promises of a packet that it accepts. -/
structure Packet.WellFormed (limits : Limits) (packet : Packet) : Prop where
  sequence_pos : packet.sequence ≠ 0
  sequence_le : packet.sequence ≤ limits.recordCap
  id_le : packet.id ≤ limits.scriptCount
  admitted : packet.admitted = true

theorem apPacketParse_wellFormed {limits : Limits} {text : List UInt8} {packet : Packet}
    (hparse : apPacketParse limits text = some packet) : packet.WellFormed limits := by
  simp only [apPacketParse, Option.bind_eq_bind, Option.bind_eq_some_iff, Prod.exists,
    Option.guard_eq_some', Option.pure_def, Option.some.injEq] at hparse
  obtain ⟨number, rest, -, -, ⟨hpos, hcap⟩, -, -, kind, -, -, -, identifier, -, -, -, hcount, -, -,
    result, -, -, -, -, -, hadmitted, rfl⟩ := hparse
  have hnumber : wrap32 number = number := wrap32_of_lt (by have := limits.recordCap_lt; omega)
  have hidentifier : wrap32 identifier = identifier :=
    wrap32_of_lt (by have := limits.scriptCount_lt; omega)
  exact ⟨hnumber.trans_ne hpos, hnumber.trans_le hcap, hidentifier.trans_le hcount, hadmitted⟩

end NativeInitLab.Autoboot
