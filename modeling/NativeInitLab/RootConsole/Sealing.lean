import NativeInitLab.RootConsole.Framing

namespace NativeInitLab.RootConsole

open LittleEndian Lockstep

/-! The tag and the checksum of a frame, as each end computes them.  SHA-256 is a
parameter: the device hashes the bytes of its `update` calls in order. -/

structure Digest where
  sha256 : List UInt8 → List UInt8
  length_sha256 : ∀ bytes, (sha256 bytes).length = 32

/-- The key, run identity and nonce of a session; the host refuses other sizes and
the device has arrays of these sizes. -/
structure Identity where
  key : List UInt8
  runId : List UInt8
  nonce : List UInt8
  length_key : key.length = 32
  length_runId : runId.length = 16
  length_nonce : nonce.length = 32

def domain : List UInt8 :=
  "S22PLUS-FYG8-ROOT-CONSOLE-v1".toList.map fun char => UInt8.ofNat char.toNat

/-- One byte of the reflected CRC-32 with polynomial `0xedb88320`. -/
def crcByte (crc : UInt32) (byte : UInt8) : UInt32 :=
  (List.range 8).foldl
    (fun crc _ => (crc >>> 1) ^^^ (0xedb88320 &&& (0 - (crc &&& 1)))) (crc ^^^ byte.toUInt32)

namespace Host

def crc32 (bytes : List UInt8) : UInt32 := ~~~ bytes.foldl crcByte 0xffffffff

/-- `hmac.digest` with SHA-256; a key of at most one block is filled with zeros. -/
def hmacDigest (digest : Digest) (key message : List UInt8) : List UInt8 :=
  let block := key ++ List.replicate (64 - key.length) 0
  digest.sha256 (block.map (· ^^^ 0x5c) ++ digest.sha256 (block.map (· ^^^ 0x36) ++ message))

def tag (digest : Digest) (identity : Identity) (sequence kind : Nat) (body : List UInt8) :
    Except String (List UInt8) := do
  require (sequence < 2 ^ 32) "'I' format requires 0 <= number <= 4294967295"
  require (kind < 256) "bytes must be in range(0, 256)"
  return hmacDigest digest identity.key (domain ++ identity.runId ++ identity.nonce ++
    store 4 sequence ++ [UInt8.ofNat kind] ++ body)

def frame (digest : Digest) (identity : Identity) (sequence kind : Nat)
    (body : List UInt8) : Except String (List UInt8) := do
  let signature ← tag digest identity sequence kind body
  let payload := body ++ signature
  require (payload.length ≤ maxPayload) "payload too large"
  let head := magic ++ [1, UInt8.ofNat kind] ++ store 2 payload.length ++ store 4 sequence
  return head ++ store 4 (crc32 (head ++ payload)).toNat ++ payload

def link (digest : Digest) (identity : Identity) : Link where
  tag sequence kind body := hmacDigest digest identity.key (domain ++ identity.runId ++
    identity.nonce ++ store 4 sequence ++ [UInt8.ofNat kind] ++ body)
  crc bytes := (crc32 bytes).toNat
  tag_length _ _ _ := digest.length_sha256 _
  crc_lt bytes := (crc32 bytes).toNat_lt

variable {digest : Digest} {identity : Identity}

theorem tag_of_lt {sequence kind : Nat} (hsequence : sequence < 2 ^ 32) (hkind : kind < 256)
    (body : List UInt8) :
    tag digest identity sequence kind body =
      .ok ((link digest identity).tag sequence kind body) := by
  rw [tag, require_of_pos _ hsequence, ok_bind, require_of_pos _ hkind, ok_bind]
  rfl

theorem frame_eq_ok {sequence kind : Nat} {body wire : List UInt8} :
    frame digest identity sequence kind body = .ok wire ↔ Frame.Fits ⟨kind, sequence, body⟩ ∧
        wire = Frame.encode (link digest identity) ⟨kind, sequence, body⟩ := by
  have hlength : (body ++ (link digest identity).tag sequence kind body).length =
      body.length + 32 := by
    rw [List.length_append, (link digest identity).tag_length]
  constructor
  · intro hframe
    rw [frame, bind_eq_ok] at hframe
    obtain ⟨signature, htag, hframe⟩ := hframe
    have hranges : sequence < 2 ^ 32 ∧ kind < 256 := by
      rw [tag, require_bind_eq_ok, require_bind_eq_ok] at htag
      exact ⟨htag.1, htag.2.1⟩
    rw [tag_of_lt hranges.1 hranges.2] at htag
    cases htag
    rw [require_bind_eq_ok] at hframe
    obtain ⟨hpayload, hwire⟩ := hframe
    refine ⟨⟨hranges.2, hranges.1, hlength ▸ hpayload⟩, ?_⟩
    rw [hlength] at hwire
    cases hwire
    simp only [Frame.encode, Frame.head, Frame.payload, List.append_assoc]
    rfl
  · rintro ⟨hfits, rfl⟩
    rw [frame, tag_of_lt hfits.seq hfits.kind, ok_bind]
    simp only [hlength]
    rw [require_of_pos _ hfits.body, ok_bind]
    simp only [Frame.encode, Frame.head, Frame.payload, List.append_assoc]
    rfl

end Host

namespace Device

def crc32Update (crc : UInt32) (data : List UInt8) : UInt32 :=
  ~~~ data.foldl crcByte (~~~ crc)

def frameCrc (header payload : List UInt8) : UInt32 :=
  crc32Update (crc32Update 0 (header.take 12)) payload

def hmacMessage (digest : Digest) (key domain runId nonce : List UInt8) (sequence : Nat)
    (command : List UInt8) : List UInt8 :=
  let keyByte (index : Nat) : UInt8 := if index < 32 then key.getD index 0 else 0
  let innerPad := (List.range 64).map fun index => keyByte index ^^^ 0x36
  let outerPad := (List.range 64).map fun index => keyByte index ^^^ 0x5c
  digest.sha256 (outerPad ++
    digest.sha256 (innerPad ++ domain ++ runId ++ nonce ++ store 4 sequence ++ command))

/-- `rc1_tag`; the length of type and body is passed as `uint16_t`. -/
def tag (digest : Digest) (identity : Identity) (sequence kind : Nat) (body : List UInt8) :
    List UInt8 :=
  let bytes := UInt8.ofNat kind :: body
  hmacMessage digest identity.key domain identity.runId identity.nonce sequence
    (bytes.take ((body.length + 1) % 2 ^ 16))

def link (digest : Digest) (identity : Identity) : Link where
  tag := tag digest identity
  crc bytes := (frameCrc bytes (bytes.drop 12)).toNat
  tag_length _ _ _ := digest.length_sha256 _
  crc_lt bytes := (frameCrc bytes (bytes.drop 12)).toNat_lt

variable {digest : Digest} {identity : Identity}

theorem frameCrc_eq_crc32 (bytes : List UInt8) :
    frameCrc bytes (bytes.drop 12) = Host.crc32 bytes := by
  have hstart : ~~~ (0 : UInt32) = 0xffffffff := rfl
  calc frameCrc bytes (bytes.drop 12)
      = ~~~ (bytes.drop 12).foldl crcByte ((bytes.take 12).foldl crcByte 0xffffffff) := by
        rw [frameCrc, crc32Update, crc32Update, UInt32.not_not, hstart]
    _ = ~~~ (bytes.take 12 ++ bytes.drop 12).foldl crcByte 0xffffffff := by
        rw [List.foldl_append]
    _ = Host.crc32 bytes := by rw [List.take_append_drop, Host.crc32]

theorem pad_eq {key : List UInt8} (hkey : key.length = 32) (mask : UInt8) :
    ((List.range 64).map fun index =>
        (if index < 32 then key.getD index 0 else 0) ^^^ mask) =
      (key ++ List.replicate (64 - key.length) 0).map (· ^^^ mask) := by
  apply List.ext_getElem
  · simp [hkey]
  · intro index hleft hright
    rw [List.getElem_map, List.getElem_map, List.getElem_range]
    by_cases hindex : index < 32
    · rw [if_pos hindex, List.getElem_append_left (by omega), List.getD_eq_getElem]
    · rw [if_neg hindex, List.getElem_append_right (by omega), List.getElem_replicate]

theorem tag_eq {body : List UInt8} (hbody : body.length + 32 ≤ maxPayload) (sequence kind : Nat) :
    tag digest identity sequence kind body =
      (Host.link digest identity).tag sequence kind body := by
  have htake : (UInt8.ofNat kind :: body).take ((body.length + 1) % 2 ^ 16) =
      UInt8.ofNat kind :: body := by
    apply List.take_of_length_le
    rw [List.length_cons, Nat.mod_eq_of_lt]
    simp only [maxPayload] at hbody
    omega
  simp only [tag, hmacMessage, htake, pad_eq identity.length_key]
  simp only [Host.link, Host.hmacDigest, List.append_assoc, List.cons_append, List.nil_append]

theorem encode_link {frame : Frame} (hfits : frame.Fits) :
    frame.encode (link digest identity) = frame.encode (Host.link digest identity) := by
  have hpayload : frame.payload (link digest identity) =
      frame.payload (Host.link digest identity) := by
    rw [Frame.payload, Frame.payload]
    exact congrArg (frame.body ++ ·) (tag_eq hfits.body frame.seq frame.kind)
  have hcrc (bytes : List UInt8) :
      (link digest identity).crc bytes = (Host.link digest identity).crc bytes :=
    congrArg UInt32.toNat (frameCrc_eq_crc32 bytes)
  rw [Frame.encode, Frame.encode, hpayload, hcrc]

end Device
end NativeInitLab.RootConsole
