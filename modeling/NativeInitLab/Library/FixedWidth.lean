import Mathlib.Data.Nat.Bitwise

/-! Unsigned arithmetic of fixed width on natural numbers. -/

namespace FixedWidth

def wrap32 (number : Nat) : Nat := number % 2 ^ 32
def wrap64 (number : Nat) : Nat := number % 2 ^ 64

def sub64 (x y : Nat) : Nat := wrap64 (x + 2 ^ 64 - y)

theorem wrap64_of_lt {number : Nat} (hlt : number < 2 ^ 64) : wrap64 number = number :=
  Nat.mod_eq_of_lt hlt

theorem wrap32_of_lt {number : Nat} (hlt : number < 2 ^ 32) : wrap32 number = number :=
  Nat.mod_eq_of_lt hlt

theorem wrap64_add (number more : Nat) : wrap64 (wrap64 number + more) = wrap64 (number + more) :=
  Nat.mod_add_mod number (2 ^ 64) more

theorem sub64_of_le {x y : Nat} (hle : y ≤ x) (hlt : x < 2 ^ 64) : sub64 x y = x - y := by
  rw [sub64, wrap64]
  omega

end FixedWidth
