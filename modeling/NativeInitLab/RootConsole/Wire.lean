import NativeInitLab.Library.LittleEndian
import NativeInitLab.Library.FixedWidth

namespace NativeInitLab.RootConsole

open LittleEndian

/-! Frames of the root console.  Both directions use one layout: a 16-byte header,
the body, and a 32-byte tag over sequence, type and body. -/

abbrev kindExec : Nat := 32
abbrev kindStatus : Nat := 33
abbrev kindCancel : Nat := 34
abbrev kindControl : Nat := 35
abbrev kindDetach : Nat := 36
abbrev kindAck : Nat := 160
abbrev kindOutput : Nat := 161
abbrev kindExit : Nat := 162
abbrev kindStatusReply : Nat := 163
abbrev kindControlAck : Nat := 164
abbrev kindFault : Nat := 165
abbrev kindReady : Nat := 166
abbrev kindDetachAck : Nat := 167

abbrev headerSize : Nat := 16
abbrev maxPayload : Nat := 1055
abbrev outputLimit : Nat := 1048576
abbrev outputFrameLimit : Nat := 2048
abbrev sessionMs : Nat := 600000
abbrev timeoutMaxMs : Nat := 300000

/-- HMAC-SHA256 under the key, run identity and nonce of one session, and the
frame checksum. -/
structure Link where
  tag : Nat → Nat → List UInt8 → List UInt8
  crc : List UInt8 → Nat
  tag_length : ∀ seq kind body, (tag seq kind body).length = 32
  crc_lt : ∀ bytes, crc bytes < 2 ^ 32

def Link.keyless : Link where
  tag _ _ _ := List.replicate 32 0
  crc _ := 0
  tag_length _ _ _ := rfl
  crc_lt _ := by decide

structure Frame where
  kind : Nat
  seq : Nat
  body : List UInt8
  deriving DecidableEq, Repr

def magic : List UInt8 := [0x53, 0x33, 0x32, 0x38]

namespace Frame

def head (frame : Frame) : List UInt8 :=
  magic ++ [1, UInt8.ofNat frame.kind] ++ store 2 (frame.body.length + 32) ++ store 4 frame.seq

def payload (link : Link) (frame : Frame) : List UInt8 :=
  frame.body ++ link.tag frame.seq frame.kind frame.body

def encode (link : Link) (frame : Frame) : List UInt8 :=
  frame.head ++ (store 4 (link.crc (frame.head ++ frame.payload link)) ++ frame.payload link)

end Frame

def headKind (bytes : List UInt8) : Nat := (bytes.getD 5 0).toNat
def headSize (bytes : List UInt8) : Nat := value (window 6 2 bytes)
def headSeq (bytes : List UInt8) : Nat := value (window 8 4 bytes)
def headCrc (bytes : List UInt8) : Nat := value (window 12 4 bytes)

def headOk (bytes : List UInt8) : Prop :=
  bytes.take 4 = magic ∧ bytes.getD 4 0 = 1 ∧ 32 ≤ headSize bytes ∧ headSize bytes ≤ maxPayload

instance (bytes : List UInt8) : Decidable (headOk bytes) :=
  inferInstanceAs (Decidable (_ ∧ _))

def ofSigned (number : Int) : Nat := (number % 2 ^ 32).toNat

def toSigned (number : Nat) : Int :=
  if number < 2 ^ 31 then number else (number : Int) - 2 ^ 32

def words (numbers : List Nat) : List UInt8 := numbers.flatMap (store 4)

def word (i : Nat) (body : List UInt8) : Nat := value (window (4 * i) 4 body)

@[simp] theorem length_words (numbers : List Nat) :
    (words numbers).length = 4 * numbers.length := by
  induction numbers with
  | nil => rfl
  | cons number numbers ih =>
    rw [words, List.flatMap_cons, List.length_append, length_store, ← words, ih, List.length_cons]
    omega

theorem word_words (numbers : List Nat) (data : List UInt8) (i : Nat) (hi : i < numbers.length) :
    word i (words numbers ++ data) = numbers[i] % 2 ^ 32 := by
  induction numbers generalizing i with
  | nil => simp at hi
  | cons number numbers ih =>
    have hcons : words (number :: numbers) ++ data = store 4 number ++ (words numbers ++ data) := by
      rw [words, List.flatMap_cons, ← words, List.append_assoc]
    rw [hcons]
    cases i with
    | zero =>
      rw [word, window_append_left (by simp), Nat.mul_zero]
      have hwindow := window_self (store 4 number)
      rw [length_store] at hwindow
      rw [hwindow, value_store]
      rfl
    | succ i =>
      rw [word, window_append_right (by simp), length_store,
        show 4 * (i + 1) - 4 = 4 * i by omega, ← word]
      exact ih i (by simpa using hi)

theorem word_append_eq {numbers : List Nat} {i number : Nat}
    (hget : numbers[i]? = some number) (hlt : number < 2 ^ 32) (data : List UInt8) :
    word i (words numbers ++ data) = number := by
  obtain ⟨hi, rfl⟩ := List.getElem?_eq_some_iff.mp hget
  rw [word_words numbers data i hi, Nat.mod_eq_of_lt hlt]

theorem word_eq {numbers : List Nat} {i number : Nat}
    (hget : numbers[i]? = some number) (hlt : number < 2 ^ 32) :
    word i (words numbers) = number := by
  have h := word_append_eq hget hlt []
  rwa [List.append_nil] at h

def bit (flags mask : Nat) : Prop := flags &&& mask ≠ 0

instance (flags mask : Nat) : Decidable (bit flags mask) :=
  inferInstanceAs (Decidable (_ ≠ _))

theorem bit_two_pow (flags i : Nat) : bit flags (2 ^ i) ↔ flags.testBit i = true := by
  rw [bit, Nat.and_two_pow]
  cases flags.testBit i <;> simp

end NativeInitLab.RootConsole
