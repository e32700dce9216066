import Mathlib.Tactic.NormNum
import NativeInitLab.Evidence.Device
import NativeInitLab.Evidence.Host

namespace NativeInitLab.Evidence

open LittleEndian

/-! Both sides read the same ten numbers out of a record. -/

namespace Device

variable {bytes : List UInt8} {offset : Nat}

theorem byteAt_eq_value (hbound : offset + 1 ≤ bytes.length) :
    byteAt bytes offset = value (window offset 1 bytes) := by
  rw [window_one 0 hbound]
  simp [byteAt, value]

theorem fs1U16_eq_value (hbound : offset + 2 ≤ bytes.length) :
    fs1U16 bytes offset = value (window offset 2 bytes) := by
  have hlow : byteAt bytes offset < 2 ^ 8 := (bytes.getD offset 0).toNat_lt
  have hlength : (window offset 1 bytes).length = 1 :=
    length_window (by omega)
  rw [fs1U16, or_shiftLeft hlow, byteAt_eq_value (by omega),
    byteAt_eq_value (by omega), window_add offset 1 1, value_append, hlength]
  norm_num

theorem fs1U32_eq_value (hbound : offset + 4 ≤ bytes.length) :
    fs1U32 bytes offset = value (window offset 4 bytes) := by
  have hlength : (window offset 2 bytes).length = 2 :=
    length_window (by omega)
  have hlow : fs1U16 bytes offset < 2 ^ 16 := by
    have hlt := value_lt (window offset 2 bytes)
    rw [hlength] at hlt
    rw [fs1U16_eq_value (by omega)]
    exact hlt
  rw [fs1U32, or_shiftLeft hlow, fs1U16_eq_value (by omega),
    fs1U16_eq_value (by omega), window_add offset 2 2, value_append, hlength]
  norm_num

theorem foldl_or_eq_value (count : Nat) (hbound : offset + count ≤ bytes.length) :
    (List.range count).foldl (fun number i => number ||| byteAt bytes (offset + i) <<< (8 * i)) 0 =
      value (window offset count bytes) := by
  induction count with
  | zero => simp [window, value]
  | succ count ih =>
    have hlength : (window offset count bytes).length = count :=
      length_window (by omega)
    have hlow : value (window offset count bytes) < 2 ^ (8 * count) := by
      have hlt := value_lt (window offset count bytes)
      rwa [hlength, show (256 : Nat) = 2 ^ 8 by rfl, ← Nat.pow_mul] at hlt
    rw [List.range_succ, List.foldl_append, ih (by omega), List.foldl_cons,
      List.foldl_nil, or_shiftLeft hlow, byteAt_eq_value (by omega),
      window_add offset count 1, value_append, hlength, Nat.pow_mul]

theorem deU64_eq_value (hbound : offset + 8 ≤ bytes.length) :
    deU64 bytes offset = value (window offset 8 bytes) :=
  foldl_or_eq_value 8 hbound

end Device

theorem fields_agree (record : Record) : Device.fields record = Host.fields record := by
  have hsize : record.bytes.length = 128 := record.size
  simp only [Device.fields, Host.fields, Host.recordWidths, Host.unpackFrom]
  rw [Device.fs1U32_eq_value (by omega), Device.fs1U32_eq_value (by omega),
    Device.deU64_eq_value (by omega), Device.fs1U32_eq_value (by omega),
    Device.fs1U32_eq_value (by omega), Device.deU64_eq_value (by omega),
    Device.deU64_eq_value (by omega), Device.deU64_eq_value (by omega),
    Device.fs1U32_eq_value (by omega), Device.fs1U32_eq_value (by omega)]

end NativeInitLab.Evidence
