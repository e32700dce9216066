import NativeInitLab.Library.Pieces

/-! The helper's SHA-256: the compression of a block, and the digest of bytes that arrive in pieces. -/

namespace NativeInitLab.BootWrite.Sha256

abbrev Bytes := List UInt8

structure Words where
  a : UInt32
  b : UInt32
  c : UInt32
  d : UInt32
  e : UInt32
  f : UInt32
  g : UInt32
  h : UInt32

def rotr (value shift : UInt32) : UInt32 := value >>> shift ||| value <<< (32 - shift)

def load32 : Bytes → UInt32
  | b0 :: b1 :: b2 :: b3 :: _ =>
    b0.toUInt32 <<< 24 ||| b1.toUInt32 <<< 16 ||| b2.toUInt32 <<< 8 ||| b3.toUInt32
  | _ => 0

def store32 (value : UInt32) : Bytes :=
  [(value >>> 24).toUInt8, (value >>> 16).toUInt8, (value >>> 8).toUInt8, value.toUInt8]

def constants : List UInt32 :=
  [0x428a2f98, 0x71374491, 0xb5c0fbcf, 0xe9b5dba5, 0x3956c25b, 0x59f111f1, 0x923f82a4, 0xab1c5ed5,
    0xd807aa98, 0x12835b01, 0x243185be, 0x550c7dc3, 0x72be5d74, 0x80deb1fe, 0x9bdc06a7, 0xc19bf174,
    0xe49b69c1, 0xefbe4786, 0x0fc19dc6, 0x240ca1cc, 0x2de92c6f, 0x4a7484aa, 0x5cb0a9dc, 0x76f988da,
    0x983e5152, 0xa831c66d, 0xb00327c8, 0xbf597fc7, 0xc6e00bf3, 0xd5a79147, 0x06ca6351, 0x14292967,
    0x27b70a85, 0x2e1b2138, 0x4d2c6dfc, 0x53380d13, 0x650a7354, 0x766a0abb, 0x81c2c92e, 0x92722c85,
    0xa2bfe8a1, 0xa81a664b, 0xc24b8b70, 0xc76c51a3, 0xd192e819, 0xd6990624, 0xf40e3585, 0x106aa070,
    0x19a4c116, 0x1e376c08, 0x2748774c, 0x34b0bcb5, 0x391c0cb3, 0x4ed8aa4a, 0x5b9cca4f, 0x682e6ff3,
    0x748f82ee, 0x78a5636f, 0x84c87814, 0x8cc70208, 0x90befffa, 0xa4506ceb, 0xbef9a3f7, 0xc67178f2]

def nextWord (words : List UInt32) (index : Nat) : UInt32 :=
  let w15 := words.getD (index - 15) 0
  let w2 := words.getD (index - 2) 0
  let sigma0 := rotr w15 7 ^^^ rotr w15 18 ^^^ w15 >>> 3
  let sigma1 := rotr w2 17 ^^^ rotr w2 19 ^^^ w2 >>> 10
  words.getD (index - 16) 0 + sigma0 + words.getD (index - 7) 0 + sigma1

def schedule (block : Bytes) : List UInt32 :=
  (List.range' 16 48).foldl (fun words index => words ++ [nextWord words index])
    ((List.range 16).map fun index => load32 (block.drop (index * 4)))

def round (s : Words) (constant word : UInt32) : Words :=
  let sum1 := rotr s.e 6 ^^^ rotr s.e 11 ^^^ rotr s.e 25
  let choose := s.e &&& s.f ^^^ ~~~s.e &&& s.g
  let temp1 := s.h + sum1 + choose + constant + word
  let sum0 := rotr s.a 2 ^^^ rotr s.a 13 ^^^ rotr s.a 22
  let majority := s.a &&& s.b ^^^ s.a &&& s.c ^^^ s.b &&& s.c
  let temp2 := sum0 + majority
  ⟨temp1 + temp2, s.a, s.b, s.c, s.d + temp1, s.e, s.f, s.g⟩

def transform (s : Words) (block : Bytes) : Words :=
  let t := (constants.zip (schedule block)).foldl (fun t step => round t step.1 step.2) s
  ⟨s.a + t.a, s.b + t.b, s.c + t.c, s.d + t.d, s.e + t.e, s.f + t.f, s.g + t.g, s.h + t.h⟩

/-- The eight bytes of the bit count, the highest first. -/
def lengthBlock (bitCount : UInt64) : Bytes :=
  (List.range 8).map fun index => (bitCount >>> UInt64.ofNat ((7 - index) * 8)).toUInt8

def digest (s : Words) : Bytes :=
  [s.a, s.b, s.c, s.d, s.e, s.f, s.g, s.h].flatMap store32

def initial : Words :=
  ⟨0x6a09e667, 0xbb67ae85, 0x3c6ef372, 0xa54ff53a, 0x510e527f, 0x9b05688c, 0x1f83d9ab, 0x5be0cd19⟩

structure Ctx where
  state : Words
  bitCount : UInt64
  buffer : Bytes
  room : buffer.length < 64

def init : Ctx := ⟨initial, 0, [], by decide⟩

namespace Ctx

/-- One turn of the update loop; the buffer is full when there is no more room. -/
def copy (ctx : Ctx) (data : Bytes) : Ctx :=
  let filled := ctx.buffer ++ data.take (64 - ctx.buffer.length)
  if hroom : filled.length < 64 then { ctx with buffer := filled, room := hroom }
  else { ctx with state := transform ctx.state filled, buffer := [], room := by decide }

def copyAll (ctx : Ctx) (data : Bytes) : Ctx :=
  if data.isEmpty then ctx
  else (ctx.copy data).copyAll (data.drop (64 - ctx.buffer.length))
termination_by data.length
decreasing_by
  have hroom := ctx.room
  have hdata : 0 < data.length := by
    cases data with
    | nil => contradiction
    | cons byte data => exact Nat.succ_pos _
  rw [List.length_drop]
  omega

def update (ctx : Ctx) (data : Bytes) : Ctx :=
  { ctx with bitCount := ctx.bitCount + UInt64.ofNat data.length * 8 }.copyAll data

def final (ctx : Ctx) : Bytes :=
  let marked := ctx.buffer ++ [0x80]
  let left :=
    if marked.length > 56 then
      (transform ctx.state (marked ++ List.replicate (64 - marked.length) 0), [])
    else (ctx.state, marked)
  digest (transform left.1
    (left.2 ++ List.replicate (56 - left.2.length) 0 ++ lengthBlock ctx.bitCount))

end Ctx

/-! The digest of a message as the standard has it: the message is padded to whole blocks, and
these are compressed in turn. -/

def padding (length : Nat) : Bytes :=
  0x80 :: (List.replicate ((119 - length % 64) % 64) 0 ++ lengthBlock (UInt64.ofNat length * 8))

def sha256 (message : Bytes) : Bytes :=
  digest (Pieces.absorb 64 transform (initial, []) (message ++ padding message.length)).1

example : sha256 [97, 98, 99] =
    [0xba, 0x78, 0x16, 0xbf, 0x8f, 0x01, 0xcf, 0xea, 0x41, 0x41, 0x40, 0xde, 0x5d, 0xae, 0x22, 0x23,
      0xb0, 0x03, 0x61, 0xa3, 0x96, 0x17, 0x7a, 0x9c, 0xb4, 0x10, 0xff, 0x61, 0xf2, 0x00, 0x15,
      0xad] := by
  decide +kernel

structure Absorbed (ctx : Ctx) (message : Bytes) : Prop where
  blocks : (ctx.state, ctx.buffer) = Pieces.absorb 64 transform (initial, []) message
  counted : ctx.bitCount = UInt64.ofNat message.length * 8

theorem absorbed_init : Absorbed init [] := ⟨rfl, rfl⟩

namespace Ctx

variable (ctx : Ctx) (data : Bytes)

theorem copy_eq (hdata : data ≠ []) : ((ctx.copy data).state, (ctx.copy data).buffer) =
    Pieces.absorb 64 transform (ctx.state, ctx.buffer) (data.take (64 - ctx.buffer.length)) := by
  have hroom := ctx.room
  have hlength : (ctx.buffer ++ data.take (64 - ctx.buffer.length)).length =
      ctx.buffer.length + (data.take (64 - ctx.buffer.length)).length := List.length_append
  rw [copy]
  split
  case isTrue hshort => exact (Pieces.absorb_of_lt transform (hlength ▸ hshort)).symm
  case isFalse hfull =>
    refine (Pieces.absorb_block transform ?_ ?_).symm
    · rw [Ne, List.take_eq_nil_iff]
      exact fun hnone => hnone.elim (by omega) hdata
    · have htake := List.length_take_le (64 - ctx.buffer.length) data
      omega

theorem copyAll_eq : ((ctx.copyAll data).state, (ctx.copyAll data).buffer) =
    Pieces.absorb 64 transform (ctx.state, ctx.buffer) data := by
  fun_induction copyAll ctx data with
  | case1 ctx data hempty =>
    rw [List.isEmpty_iff.mp hempty]
    rfl
  | case2 ctx data hdata ih =>
    rw [ih, copy_eq ctx data (by simpa using hdata), ← Pieces.absorb_append, List.take_append_drop]

theorem bitCount_copyAll : (ctx.copyAll data).bitCount = ctx.bitCount := by
  fun_induction copyAll ctx data with
  | case1 => rfl
  | case2 ctx data hdata ih =>
    rw [ih, copy]
    split <;> rfl

end Ctx

section Message

variable {ctx : Ctx} {message : Bytes}

theorem Absorbed.update (h : Absorbed ctx message) (data : Bytes) :
    Absorbed (ctx.update data) (message ++ data) where
  blocks := by
    rw [Ctx.update, Ctx.copyAll_eq, h.blocks, Pieces.absorb_append]
  counted := by
    rw [Ctx.update, Ctx.bitCount_copyAll, h.counted, List.length_append, UInt64.ofNat_add,
      UInt64.add_mul]

theorem Absorbed.length_buffer (h : Absorbed ctx message) :
    ctx.buffer.length = message.length % 64 := by
  have hempty : ([] : Bytes).length < 64 := by decide
  have hlength := Pieces.length_absorb transform initial hempty message
  rw [← h.blocks, List.length_nil, Nat.zero_add] at hlength
  exact hlength

/-- The two ways in which the buffer is closed are the padding in one block and in two. -/
theorem Absorbed.final (h : Absorbed ctx message) : ctx.final = sha256 message := by
  have hroom := ctx.room
  have hmarked : (ctx.buffer ++ [(0x80 : UInt8)]).length = ctx.buffer.length + 1 := List.length_append
  have hlast : (lengthBlock ctx.bitCount).length = 8 := rfl
  rw [sha256, Pieces.absorb_append, ← h.blocks, padding, ← h.counted, ← h.length_buffer, Ctx.final]
  split
  case isTrue htwo =>
    have hzeros : (119 - ctx.buffer.length) % 64 = (63 - ctx.buffer.length) + 56 := by omega
    have hfirst : Pieces.absorb 64 transform (ctx.state, ctx.buffer)
        (0x80 :: List.replicate (63 - ctx.buffer.length) 0) =
        (transform ctx.state (ctx.buffer ++ 0x80 :: List.replicate (63 - ctx.buffer.length) 0),
          []) := by
      apply Pieces.absorb_block transform (List.cons_ne_nil _ _)
      rw [List.length_cons, List.length_replicate]
      omega
    have hsplit : 0x80 :: (List.replicate ((63 - ctx.buffer.length) + 56) 0 ++
        lengthBlock ctx.bitCount) = (0x80 :: List.replicate (63 - ctx.buffer.length) 0) ++
          (List.replicate 56 0 ++ lengthBlock ctx.bitCount) := by
      rw [List.replicate_add, List.append_assoc, List.cons_append]
    rw [hzeros, hsplit, Pieces.absorb_append, hfirst,
      Pieces.absorb_block transform (by simp) (by simp [hlast]), hmarked]
    simp
  case isFalse hone =>
    have hzeros : (119 - ctx.buffer.length) % 64 = 55 - ctx.buffer.length := by omega
    rw [hzeros, Pieces.absorb_block transform (List.cons_ne_nil _ _)]
    · simp
    · rw [List.length_cons, List.length_append, List.length_replicate, hlast]
      omega

end Message

end NativeInitLab.BootWrite.Sha256
