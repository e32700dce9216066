import Mathlib.Data.Nat.Digits.Lemmas

/-! Numbers as text: the digits that `printf` writes and their value. -/

namespace Numerals

def digit (number : Nat) : UInt8 :=
  if number < 10 then (48 + number).toUInt8 else (87 + number).toUInt8

def digitValue (byte : UInt8) : Nat :=
  if 48 ≤ byte ∧ byte ≤ 57 then byte.toNat - 48
  else if 97 ≤ byte ∧ byte ≤ 102 then byte.toNat - 87
  else 0

def isDecimal (byte : UInt8) : Bool := 48 ≤ byte && byte ≤ 57

def isHex (byte : UInt8) : Bool := isDecimal byte || (97 ≤ byte && byte ≤ 102)

def canonical (isDigit : UInt8 → Bool) (bytes : List UInt8) : Bool :=
  bytes == [48] || (bytes != [] && bytes.head? != some 48 && bytes.all isDigit)

def numeral (base number : Nat) : List UInt8 :=
  if number = 0 then [48] else ((Nat.digits base number).reverse).map digit

def value (base : Nat) (bytes : List UInt8) : Nat :=
  bytes.foldl (fun number byte => base * number + digitValue byte) 0

theorem digitValue_digit {number : Nat} (hlt : number < 16) :
    digitValue (digit number) = number := by
  revert number
  decide

theorem digit_ne_zero {number : Nat} (hlt : number < 16) (hne : number ≠ 0) :
    digit number ≠ 48 := by
  revert number
  decide

theorem isDecimal_digit {number : Nat} (hlt : number < 10) : isDecimal (digit number) = true := by
  revert number
  decide

theorem isHex_digit {number : Nat} (hlt : number < 16) : isHex (digit number) = true := by
  revert number
  decide

theorem canonical_cons {isDigit : UInt8 → Bool} {first : UInt8} {rest : List UInt8}
    (hne : first ≠ 48) :
    canonical isDigit (first :: rest) = (isDigit first && rest.all isDigit) := by
  have hfirst : (first == 48) = false := beq_eq_false_iff_ne.mpr hne
  simp [canonical, bne, hfirst]

section Base

variable {base : Nat} {isDigit : UInt8 → Bool}

theorem canonical_numeral (hbase : 1 < base)
    (hdigit : ∀ number, number < base → isDigit (digit number) = true)
    (hzero : ∀ number, number < base → number ≠ 0 → digit number ≠ 48) (number : Nat) :
    canonical isDigit (numeral base number) = true := by
  by_cases hnumber : number = 0
  · simp [numeral, hnumber, canonical]
  · have hnonempty : Nat.digits base number ≠ [] := Nat.digits_ne_nil_iff_ne_zero.mpr hnumber
    have hlast := Nat.getLast_digit_ne_zero base hnumber
    have hbound : ∀ d ∈ Nat.digits base number, d < base :=
      fun d hmember => Nat.digits_lt_base hbase hmember
    obtain ⟨init, last, hsplit⟩ := List.eq_nil_or_concat _ |>.resolve_left hnonempty
    rw [List.concat_eq_append] at hsplit
    have hlastne : last ≠ 0 := by
      simpa [hsplit] using hlast
    have hlastlt : last < base := hbound last (by simp [hsplit])
    rw [numeral, if_neg hnumber, hsplit, List.reverse_append, List.reverse_singleton,
      List.singleton_append, List.map_cons, canonical_cons (hzero last hlastlt hlastne)]
    simp only [Bool.and_eq_true, List.all_eq_true, List.mem_map, List.mem_reverse]
    refine ⟨hdigit last hlastlt, ?_⟩
    rintro byte ⟨d, hmember, rfl⟩
    exact hdigit d (hbound d (by simp [hsplit, hmember]))

theorem value_numeral (hbase : 1 < base) (hsmall : base ≤ 16) (number : Nat) :
    value base (numeral base number) = number := by
  by_cases hnumber : number = 0
  · simp [numeral, hnumber, value, digitValue]
  · have hread (digits : List Nat) (hdigits : ∀ d ∈ digits, d < base) :
        value base ((digits.reverse).map digit) = Nat.ofDigits base digits := by
      induction digits with
      | nil => rfl
      | cons d digits ih =>
        obtain ⟨hd, hdigits⟩ := List.forall_mem_cons.mp hdigits
        rw [List.reverse_cons, List.map_append, value, List.foldl_append, ← value, ih hdigits]
        simp only [List.map_cons, List.map_nil, List.foldl_cons, List.foldl_nil]
        rw [digitValue_digit (by omega), Nat.ofDigits_cons]
        omega
    rw [numeral, if_neg hnumber, hread _ fun d hmember => Nat.digits_lt_base hbase hmember,
      Nat.ofDigits_digits]

theorem length_numeral_le {number count : Nat} (hbase : 1 < base) (hpos : 0 < count)
    (hlt : number < base ^ count) : (numeral base number).length ≤ count := by
  unfold numeral
  split
  case isTrue => exact hpos
  case isFalse =>
    rw [List.length_map, List.length_reverse]
    exact (Nat.digits_length_le_iff hbase number).mpr hlt

end Base

def decimal (number : Nat) : List UInt8 := numeral 10 number

def hex (number : Nat) : List UInt8 := numeral 16 number

theorem canonical_decimal (number : Nat) : canonical isDecimal (decimal number) = true :=
  canonical_numeral (by decide) (fun _ => isDecimal_digit)
    (fun _ hlt => digit_ne_zero (by omega)) number

theorem canonical_hex (number : Nat) : canonical isHex (hex number) = true :=
  canonical_numeral (by decide) (fun _ => isHex_digit) (fun _ => digit_ne_zero) number

@[simp] theorem value_decimal (number : Nat) : value 10 (decimal number) = number :=
  value_numeral (by decide) (by decide) number

end Numerals
