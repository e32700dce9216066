import NativeInitLab.F1.Rollback
import NativeInitLab.F1.RunDirectory

namespace NativeInitLab.F1

open Lockstep NumberedFiles

/-! What the writer accepts, the reader accepts. -/

theorem validateCheckpoint_eq_ok {name : CheckpointName} {outcome : Str} {details : Details}
    {attempts updated : Attempts}
    (h : validateCheckpoint name outcome details attempts = .ok updated) :
    name = .downloadRequestRevalidation ∧ updated = Function.update attempts name 1 ∨
      name ≠ .downloadRequestRevalidation ∧ ∃ attempt start,
        details = .attempt attempt start ∧ attempt = attempts name + 1 ∧
        attempt ≤ maxTransferAttempts ∧
        updated = Function.update attempts name (attempts name + 1) := by
  unfold validateCheckpoint at h
  split at h
  case isTrue hname =>
    refine .inl ⟨hname, ?_⟩
    cases details with
    | revalidation reason errorType errorSha256 =>
      dsimp only at h
      rw [require_bind_eq_ok] at h
      cases h.2
      rfl
    | attempt attempt start => cases h
    | other text => cases h
  case isFalse hname =>
    rw [require_bind_eq_ok] at h
    obtain ⟨-, h⟩ := h
    cases details with
    | revalidation reason errorType errorSha256 => cases h
    | other text => cases h
    | attempt attempt start =>
      dsimp only at h
      rw [require_bind_eq_ok] at h
      obtain ⟨hattempt, h⟩ := h
      rw [bind_eq_ok] at h
      obtain ⟨-, -, h⟩ := h
      cases h
      exact .inr ⟨hname, attempt, start, rfl, hattempt.1, hattempt.2, rfl⟩

theorem recordAttempt_of_valid {record : Record} {name : CheckpointName}
    {attempts updated : Attempts} (hkind : record.kind = .checkpoint)
    (haction : record.action = .checkpoint name)
    (hvalid : validateCheckpoint name record.outcome record.details attempts = .ok updated) :
    recordAttempt attempts record = updated := by
  rw [recordAttempt, hkind, haction]
  rcases validateCheckpoint_eq_ok hvalid with
    ⟨rfl, rfl⟩ | ⟨hname, attempt, start, hdetails, hattempt, -, rfl⟩
  · rfl
  · have htoNat : attempt.toNat = attempts name + 1 := by omega
    rw [hdetails]
    cases name with
    | candidateTransferAttempt => rw [← htoNat]
    | rollbackTransferAttempt => rw [← htoNat]
    | downloadRequestRevalidation => exact absurd rfl hname

theorem recordAttempt_of_other {record : Record} {attempts : Attempts}
    (hkind : record.kind ≠ .checkpoint) : recordAttempt attempts record = attempts := by
  unfold recordAttempt
  split
  case h_1 h _ => exact absurd h hkind
  case h_2 h _ _ => exact absurd h hkind
  case h_3 => rfl

structure Scan.Sums (scan : Scan) : Prop where
  state : scan.state = currentState scan.records
  events : scan.events = recordedEvents scan.records
  attempts : scan.attempts = recordedAttempts scan.records
  previous : scan.previous = lastSha256 scan.records
  sequences : ∀ (index : Nat) (record : Record), scan.records[index]? = some record →
    record.sequence = index

theorem lastSha256_append {records : List Record} {record : Record} :
    lastSha256 (records ++ [record]) = record.recordSha256 := by
  simp [lastSha256]

section Scanning

variable {codec : Codec} {binding : Str} {scan after : Scan} {record : Record}

theorem Scan.Sums.next (h : scan.Sums) (hrecord : record.sequence = scan.records.length)
    {followed : Scan} (hstate : followed.state = currentState (scan.records ++ [record]))
    (hevents : followed.events = recordedEvents (scan.records ++ [record]))
    (hattempts : followed.attempts = recordedAttempts (scan.records ++ [record])) :
    Scan.Sums { followed with
      previous := record.recordSha256
      records := scan.records ++ [record] } := by
  refine ⟨hstate, hevents, hattempts, lastSha256_append.symm, ?_⟩
  intro index other hother
  dsimp only at hother
  rw [List.getElem?_append] at hother
  split at hother
  case isTrue => exact h.sequences index other hother
  case isFalse hlarge =>
    rw [List.getElem?_singleton] at hother
    split at hother
    case isTrue hzero =>
      cases hother
      omega
    case isFalse => cases hother

theorem Scan.Sums.follow (h : scan.Sums) {followed : Scan}
    (hfollow : scan.follow record = .ok followed) :
    followed.state = currentState (scan.records ++ [record]) ∧
      followed.events = recordedEvents (scan.records ++ [record]) ∧
      followed.attempts = recordedAttempts (scan.records ++ [record]) := by
  rw [currentState_append, recordedEvents_append, recordedAttempts_append, ← h.state,
    ← h.events, ← h.attempts]
  unfold Scan.follow at hfollow
  split at hfollow
  case h_1 hkind =>
    rw [require_bind_eq_ok] at hfollow
    cases hfollow.2
    refine ⟨by simp [hkind], by simp [recordedEvent, hkind], ?_⟩
    rw [recordAttempt_of_other (by simp [hkind])]
  case h_2 name hkind haction =>
    rw [require_bind_eq_ok, require_bind_eq_ok] at hfollow
    cases hfollow.2.2
    refine ⟨by simp [hkind], by simp [recordedEvent, hkind, haction], ?_⟩
    rw [recordAttempt_of_other (by simp [hkind])]
  case h_3 => cases hfollow
  case h_4 name hkind haction =>
    rw [require_bind_eq_ok, bind_eq_ok] at hfollow
    obtain ⟨-, attempts, hvalid, hfollow⟩ := hfollow
    cases hfollow
    refine ⟨by simp [hkind], by simp [recordedEvent, hkind], ?_⟩
    exact (recordAttempt_of_valid hkind haction hvalid).symm
  case h_5 => cases hfollow

theorem Scan.Sums.enter (h : scan.Sums) {file : Slot Name Record}
    (henter : scan.enter codec binding file = .ok after) : after.Sums := by
  unfold Scan.enter at henter
  cases hcontent : file.content with
  | none =>
    rw [hcontent] at henter
    cases henter
  | some record =>
    rw [hcontent] at henter
    dsimp only at henter
    rw [require_bind_eq_ok, require_bind_eq_ok, bind_eq_ok] at henter
    obtain ⟨hidentity, -, followed, hfollow, henter⟩ := henter
    cases henter
    obtain ⟨hstate, hevents, hattempts⟩ := h.follow hfollow
    exact h.next hidentity.2 hstate hevents hattempts

theorem follow_of_adds (h : scan.Sums) (hadds : Adds scan.records record) :
    ∃ followed, scan.follow record = .ok followed := by
  unfold Scan.follow
  cases hadds with
  | transition hkind haction hnext =>
    rw [← h.state] at hnext
    rw [hkind]
    exact ⟨_, require_bind_eq_ok.mpr ⟨⟨hnext, haction⟩, rfl⟩⟩
  | event hkind haction hstate hevent horder =>
    rename_i name
    rw [← h.state] at hstate horder
    rw [← h.events] at horder
    rw [hkind, haction]
    dsimp only
    exact ⟨_, require_bind_eq_ok.mpr ⟨⟨hstate.symm, by rw [hevent, hstate]⟩,
      require_bind_eq_ok.mpr ⟨horder, rfl⟩⟩⟩
  | checkpoint hkind haction hstate hcheckpoint hvalid =>
    rename_i name attempts
    rw [← h.state] at hstate
    rw [← h.attempts] at hvalid
    rw [hkind, haction]
    dsimp only
    exact ⟨_, require_bind_eq_ok.mpr ⟨⟨hstate.symm, by rw [hcheckpoint, hstate]⟩,
      bind_eq_ok.mpr ⟨attempts, hvalid, rfl⟩⟩⟩

end Scanning

def fileOf (record : Record) : Slot Name Record := Slot.complete record.name record

/-- The records of complete files that the reader accepts. -/
def Chain (codec : Codec) (binding : Str) (records : List Record) : Prop :=
  ∃ scan, (records.map fileOf).foldlM (Scan.enter codec binding) {} = .ok scan ∧
    scan.records = records ∧ scan.Sums

section Chain

variable {codec : Codec} {binding : Str} {records : List Record} {record : Record}

theorem chain_nil : Chain codec binding [] :=
  ⟨{}, rfl, rfl, rfl, rfl, rfl, rfl, fun _ _ h => by simp at h⟩

theorem Chain.sequence (h : Chain codec binding records) {index : Nat}
    (hrecord : records[index]? = some record) : record.sequence = index := by
  obtain ⟨scan, -, rfl, hsums⟩ := h
  exact hsums.sequences index record hrecord

theorem Chain.append (h : Chain codec binding records) {timestampUtc : Str} {call : Call}
    (hrecord : prepare codec binding records timestampUtc call = .ok record) :
    Chain codec binding (records ++ [record]) := by
  have hadds := prepare_adds hrecord
  obtain ⟨entry, -, -, -, rfl⟩ := prepare_eq_ok hrecord
  obtain ⟨scan, hscan, rfl, hsums⟩ := h
  obtain ⟨followed, hfollow⟩ := follow_of_adds hsums hadds
  have henter : scan.enter codec binding
      (fileOf (newRecord codec binding scan.records timestampUtc entry)) = .ok { followed with
        previous := (newRecord codec binding scan.records timestampUtc entry).recordSha256
        records := scan.records ++ [newRecord codec binding scan.records timestampUtc entry] } := by
    unfold Scan.enter
    dsimp only [fileOf, Slot.complete]
    exact require_bind_eq_ok.mpr ⟨⟨rfl, rfl⟩, require_bind_eq_ok.mpr
      ⟨⟨rfl, hsums.previous.symm, rfl⟩, bind_eq_ok.mpr ⟨followed, hfollow, rfl⟩⟩⟩
  refine ⟨_, ?_, rfl, hsums.enter henter⟩
  rw [List.map_append, List.foldlM_append, hscan, ok_bind, List.map_singleton]
  simp only [List.foldlM_cons, List.foldlM_nil, henter]
  rfl

end Chain

end NativeInitLab.F1
