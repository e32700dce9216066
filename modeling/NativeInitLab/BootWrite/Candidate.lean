import NativeInitLab.BootWrite.Sha256

/-! The scan of a boot candidate: its digest, and whether it holds the expected marker. -/

namespace NativeInitLab.BootWrite

open Sha256 (Bytes Ctx)

def maxMarker : Nat := 128

/-- What `E1_STREAM_CHUNK` can be. -/
abbrev ChunkSize := { count : Nat // 0 < count }

inductive Errno where
  | einval
  | enomem
  | eio
  | pread (number : Nat)

/-- An open file; `pread` at an offset may fail. -/
structure File where
  bytes : Bytes
  fault : Nat → Option Nat

def File.pread (file : File) (want offset : Nat) : Except Errno Bytes :=
  match file.fault offset with
  | some number => .error (.pread number)
  | none => .ok ((file.bytes.drop offset).take want)

def f0MemContains (hay needle : Bytes) : Bool :=
  if needle.length = 0 then true
  else if hay.length < needle.length then false
  else (List.range (hay.length - needle.length + 1)).any fun index =>
    (hay.drop index).take needle.length == needle

def e1Hex (digest : Bytes) : List Char :=
  digest.flatMap fun byte =>
    [Nat.digitChar (byte.toNat / 16 % 16), Nat.digitChar (byte.toNat % 16)]

structure Scan where
  ctx : Ctx := Sha256.init
  tail : Bytes := []
  markerFound : Bool := false

section Scanning

variable (marker : Bytes)

def searchChunk (scan : Scan) (chunk : Bytes) : Bool :=
  if scan.markerFound then true
  else if f0MemContains chunk marker then true
  else if 0 < scan.tail.length then
    f0MemContains (scan.tail ++ chunk.take (min (marker.length - 1) chunk.length)) marker
  else false

def keepTail (tail chunk : Bytes) : Bytes :=
  if 1 < marker.length then
    let keep := min (marker.length - 1) maxMarker
    if keep ≤ chunk.length then chunk.drop (chunk.length - keep)
    else
      let merged := tail ++ chunk
      if keep < merged.length then merged.drop (merged.length - keep) else merged
  else tail

def scanChunk (scan : Scan) (chunk : Bytes) : Scan where
  ctx := scan.ctx.update chunk
  tail := keepTail marker scan.tail chunk
  markerFound := searchChunk marker scan chunk

variable (file : File) (size : Nat) (chunkSize : ChunkSize)

def scanFrom (offset : Nat) (scan : Scan) : Except Errno Scan :=
  if offset < size then
    let want := min chunkSize.1 (size - offset)
    match file.pread want offset with
    | .error errno => .error errno
    | .ok chunk =>
      if chunk.length = want then scanFrom (offset + want) (scanChunk marker scan chunk)
      else .error .eio
  else .ok scan
termination_by size - offset
decreasing_by
  have := chunkSize.2
  omega

/-- `allocated` is whether `malloc` gives the buffer. -/
def f0ScanCandidate (allocated : Bool) : Except Errno (Bool × List Char) :=
  if marker.length = 0 ∨ maxMarker < marker.length then .error .einval
  else if allocated = false then .error .enomem
  else (scanFrom marker file size chunkSize 0 {}).map fun scan =>
    (scan.markerFound, e1Hex scan.ctx.final)

end Scanning

theorem f0MemContains_iff {hay needle : Bytes} : f0MemContains hay needle = true ↔ needle <:+: hay := by
  rw [f0MemContains]
  split
  case isTrue hempty =>
    rw [List.eq_nil_of_length_eq_zero hempty]
    exact iff_of_true rfl List.nil_infix
  case isFalse =>
    split
    case isTrue hshort =>
      exact iff_of_false Bool.false_ne_true fun h => Nat.not_le.mpr hshort h.length_le
    case isFalse hlong =>
      rw [List.any_eq_true]
      constructor
      · rintro ⟨index, -, hindex⟩
        rw [← beq_iff_eq.mp hindex]
        exact (List.take_prefix _ _).isInfix.trans (List.drop_suffix index hay).isInfix
      · rintro ⟨front, back, rfl⟩
        refine ⟨front.length, ?_, ?_⟩
        · simp only [List.mem_range, List.length_append]
          omega
        · rw [List.append_assoc, List.drop_left, List.take_left]
          exact beq_self_eq_true needle

structure Scanned (marker : Bytes) (scan : Scan) (before : Bytes) : Prop where
  absorbed : Sha256.Absorbed scan.ctx before
  tail : scan.tail = before.rtake (marker.length - 1)
  found : scan.markerFound = true ↔ marker <:+: before

section Steps

variable {marker before : Bytes} {scan : Scan}

theorem scanned_start (hmarker : marker ≠ []) : Scanned marker {} [] where
  absorbed := Sha256.absorbed_init
  tail := (List.rtake_nil _).symm
  found := iff_of_false Bool.false_ne_true fun h => hmarker (List.infix_nil.mp h)

theorem keepTail_eq (hmarker : marker.length ≤ maxMarker) (before chunk : Bytes) :
    keepTail marker (before.rtake (marker.length - 1)) chunk =
      (before ++ chunk).rtake (marker.length - 1) := by
  have hkeep : min (marker.length - 1) maxMarker = marker.length - 1 :=
    Nat.min_eq_left (Nat.le_trans (Nat.sub_le ..) hmarker)
  rw [keepTail]
  split
  case isTrue hlong =>
    simp only [hkeep]
    split
    case isTrue hwhole => exact (Pieces.rtake_append_of_le hwhole before).symm
    case isFalse hpart =>
      rw [← Pieces.rtake_rtake_append]
      split
      case isTrue => rfl
      case isFalse hshort => exact (Pieces.rtake_of_length_le (Nat.not_lt.mp hshort)).symm
  case isFalse hshort =>
    have hnone : marker.length - 1 = 0 := by omega
    rw [hnone, List.rtake_zero, List.rtake_zero]

theorem searchChunk_iff (h : Scanned marker scan before) (chunk : Bytes) :
    searchChunk marker scan chunk = true ↔ marker <:+: before ++ chunk := by
  have hhead : chunk.take (min (marker.length - 1) chunk.length) = chunk.take (marker.length - 1) := by
    rw [← List.take_eq_take_min]
  rw [Pieces.infix_rtake_iff (Nat.le_succ_of_pred_le (Nat.le_refl (marker.length - 1))), ← h.found,
    ← h.tail, Pieces.infix_front_iff, searchChunk, hhead]
  split
  case isTrue hfound => simp [hfound]
  case isFalse hfound =>
    split
    case isTrue hchunk => simp [f0MemContains_iff.mp hchunk]
    case isFalse hchunk =>
      rw [f0MemContains_iff] at hchunk
      split
      case isTrue => simp [hfound, hchunk, f0MemContains_iff]
      case isFalse hnone =>
        have htail : scan.tail = [] := List.eq_nil_of_length_eq_zero (Nat.eq_zero_of_not_pos hnone)
        have hfront : ¬ marker <:+: chunk.take (marker.length - 1) := fun hinside =>
          hchunk (hinside.trans (List.take_prefix _ chunk).isInfix)
        simp [hfound, hchunk, htail, hfront]

theorem Scanned.scanChunk (h : Scanned marker scan before) (hmarker : marker.length ≤ maxMarker)
    (chunk : Bytes) : Scanned marker (scanChunk marker scan chunk) (before ++ chunk) where
  absorbed := h.absorbed.update chunk
  tail := by
    rw [BootWrite.scanChunk, h.tail]
    exact keepTail_eq hmarker before chunk
  found := searchChunk_iff h chunk

end Steps

section Runs

variable {marker : Bytes} {file : File} {size offset : Nat} {chunkSize : ChunkSize} {scan : Scan}

theorem pread_eq_ok {want : Nat} {chunk : Bytes} (hread : file.pread want offset = .ok chunk) :
    chunk = (file.bytes.drop offset).take want := by
  rw [File.pread] at hread
  split at hread
  · cases hread
  · exact (Except.ok.inj hread).symm

/-- The chunk that follows what was read is the next part of the file. -/
theorem take_pread {want : Nat} {chunk : Bytes} (hread : file.pread want offset = .ok chunk) :
    file.bytes.take (offset + want) = file.bytes.take offset ++ chunk := by
  rw [pread_eq_ok hread, List.take_add]

theorem scanned_scanFrom (hmarker : marker.length ≤ maxMarker) {final : Scan}
    (hoffset : offset ≤ min size file.bytes.length)
    (h : Scanned marker scan (file.bytes.take offset))
    (hfinal : scanFrom marker file size chunkSize offset scan = .ok final) :
    size ≤ file.bytes.length ∧ Scanned marker final (file.bytes.take size) := by
  fun_induction scanFrom marker file size chunkSize offset scan with
  | case1 => cases hfinal
  | case2 offset scan hmore want chunk hread hlength ih =>
    have hfits : chunk.length ≤ file.bytes.length - offset := by
      rw [pread_eq_ok hread, List.length_take, List.length_drop]
      exact Nat.min_le_right ..
    apply ih
    · omega
    · rw [take_pread hread]
      exact h.scanChunk hmarker chunk
    · exact hfinal
  | case3 => cases hfinal
  | case4 offset scan hdone =>
    obtain rfl : offset = size := by omega
    obtain rfl := Except.ok.inj hfinal
    exact ⟨by omega, h⟩

theorem scanFrom_returns (hsize : size ≤ file.bytes.length)
    (hfaults : ∀ offset, file.fault offset = none) (marker : Bytes) (chunkSize : ChunkSize) (offset : Nat) (scan : Scan) :
    ∃ final, scanFrom marker file size chunkSize offset scan = .ok final := by
  fun_induction scanFrom marker file size chunkSize offset scan with
  | case1 offset scan hmore want errno hread =>
    rw [File.pread, hfaults offset] at hread
    cases hread
  | case2 offset scan hmore want chunk hread hlength ih => exact ih
  | case3 offset scan hmore want chunk hread hlength =>
    refine absurd ?_ hlength
    rw [pread_eq_ok hread, List.length_take, List.length_drop]
    omega
  | case4 offset scan => exact ⟨scan, rfl⟩

end Runs

/-- The scan answers for every file that can be read, and its answer is the whole file's. -/
theorem candidate_scan_is_complete (file : File) (size : Nat) (marker : Bytes)
    (chunkSize : ChunkSize) (hsome : 1 ≤ marker.length) (hmarker : marker.length ≤ maxMarker) :
    (∀ allocated found sha,
      f0ScanCandidate marker file size chunkSize allocated = .ok (found, sha) →
        size ≤ file.bytes.length ∧ (found = true ↔ marker <:+: file.bytes.take size) ∧
        sha = e1Hex (Sha256.sha256 (file.bytes.take size))) ∧
      (size ≤ file.bytes.length → (∀ offset, file.fault offset = none) →
        ∃ answer, f0ScanCandidate marker file size chunkSize true = .ok answer) := by
  have haccepted : ¬ (marker.length = 0 ∨ maxMarker < marker.length) := by omega
  simp only [f0ScanCandidate, if_neg haccepted]
  constructor
  · intro allocated found sha hanswer
    cases allocated with
    | false => cases hanswer
    | true => ?_
    cases hscan : scanFrom marker file size chunkSize 0 {} with
    | error errno =>
      rw [hscan] at hanswer
      cases hanswer
    | ok final =>
      rw [hscan] at hanswer
      cases hanswer
      obtain ⟨hsize, hscanned⟩ := scanned_scanFrom hmarker (Nat.zero_le _)
        (scanned_start (List.ne_nil_of_length_pos hsome)) hscan
      exact ⟨hsize, hscanned.found, congrArg e1Hex hscanned.absorbed.final⟩
  · intro hsize hfaults
    obtain ⟨final, hfinal⟩ := scanFrom_returns hsize hfaults marker chunkSize 0 {}
    rw [hfinal]
    exact ⟨_, rfl⟩

theorem candidate_scan_is_complete_short_chunks :
    ∃ sha, f0ScanCandidate [2, 3, 4] ⟨[1, 2, 3, 4, 5], fun _ => none⟩ 5 ⟨2, Nat.two_pos⟩ true =
      .ok (true, sha) := by
  obtain ⟨hexact, hanswers⟩ := candidate_scan_is_complete ⟨[1, 2, 3, 4, 5], fun _ => none⟩ 5 [2, 3, 4]
    ⟨2, Nat.two_pos⟩ (by decide) (by decide)
  obtain ⟨⟨found, sha⟩, hanswer⟩ := hanswers (by decide) fun _ => rfl
  refine ⟨sha, ?_⟩
  rw [hanswer, (hexact true found sha hanswer).2.1.mpr ⟨[1], [5], rfl⟩]

end NativeInitLab.BootWrite
