import Mathlib.Tactic.Basic

/-! Well-formed UTF-8, read one byte at a time. -/

namespace Utf8

/-- The continuation bytes that are owed, and the bounds of the next of them. -/
structure State where
  owed : Nat
  low : UInt8 := 0x80
  high : UInt8 := 0xBF
  low_ge : 0x80 ≤ low := by decide

def start : State := { owed := 0 }

def lead (byte : UInt8) : Option State :=
  if byte < 0x80 then some start
  else if byte < 0xC2 then none
  else if byte < 0xE0 then some { owed := 1 }
  else if byte = 0xE0 then some { owed := 2, low := 0xA0 }
  else if byte = 0xED then some { owed := 2, high := 0x9F }
  else if byte < 0xF0 then some { owed := 2 }
  else if byte = 0xF0 then some { owed := 3, low := 0x90 }
  else if byte < 0xF4 then some { owed := 3 }
  else if byte = 0xF4 then some { owed := 3, high := 0x8F }
  else none

def step (s : State) (byte : UInt8) : Option State :=
  if s.owed = 0 then lead byte
  else if s.low ≤ byte ∧ byte ≤ s.high then some { owed := s.owed - 1 }
  else none

def accepts : State → List UInt8 → Bool
  | s, [] => s.owed = 0
  | s, byte :: bytes =>
    match step s byte with
    | none => false
    | some next => accepts next bytes

def valid (bytes : List UInt8) : Bool := accepts start bytes

@[simp] theorem valid_nil : valid [] = true := rfl

theorem accepts_of_owed {s : State} (howed : s.owed = 0) (bytes : List UInt8) :
    accepts s bytes = valid bytes := by
  cases bytes with
  | nil => simp [accepts, howed]
  | cons byte bytes => simp [valid, accepts, step, howed, start]

theorem accepts_append {s : State} {first : List UInt8} (second : List UInt8)
    (hfirst : accepts s first = true) : accepts s (first ++ second) = valid second := by
  induction first generalizing s with
  | nil => exact accepts_of_owed (by simpa [accepts] using hfirst) second
  | cons byte first ih =>
    rw [List.cons_append, accepts]
    rw [accepts] at hfirst
    cases hstep : step s byte with
    | none => simp [hstep] at hfirst
    | some next =>
      rw [hstep] at hfirst
      exact ih hfirst

theorem valid_append {first : List UInt8} (second : List UInt8)
    (hfirst : valid first = true) : valid (first ++ second) = valid second :=
  accepts_append second hfirst

theorem step_ascii {byte : UInt8} (hascii : byte < 0x80) (s : State) :
    step s byte = if s.owed = 0 then some start else none := by
  by_cases howed : s.owed = 0
  · simp [step, lead, howed, hascii]
  · have hlow : ¬ s.low ≤ byte := fun hle =>
      absurd (UInt8.lt_of_le_of_lt (UInt8.le_trans s.low_ge hle) hascii) (UInt8.lt_irrefl _)
    simp [step, howed, hlow]

theorem accepts_ascii_append {byte : UInt8} (hascii : byte < 0x80) (s : State)
    (first second : List UInt8) :
    accepts s (first ++ byte :: second) = (accepts s first && valid second) := by
  induction first generalizing s with
  | nil =>
    simp only [List.nil_append, accepts, step_ascii hascii]
    by_cases howed : s.owed = 0
    · simp [howed, valid]
    · simp [howed]
  | cons other first ih =>
    rw [List.cons_append, accepts, accepts]
    cases step s other with
    | none => rfl
    | some next => exact ih next

theorem valid_of_ascii {bytes : List UInt8} (hascii : ∀ byte ∈ bytes, byte < 0x80) :
    valid bytes = true := by
  induction bytes with
  | nil => rfl
  | cons byte bytes ih =>
    obtain ⟨hbyte, hbytes⟩ := List.forall_mem_cons.mp hascii
    have happend := accepts_ascii_append hbyte start [] bytes
    rw [List.nil_append] at happend
    rw [valid, happend, ih hbytes]
    rfl

end Utf8
