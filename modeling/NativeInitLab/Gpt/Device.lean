import NativeInitLab.Gpt.Core

namespace NativeInitLab.Gpt

open CrashProgram TornWrite

/-! The device under the image: 62305280 blocks, of which the image captures the
first six and the last nine. -/

abbrev Media := Nat → UInt8

/-- The byte of the device that an image position captures. -/
def address (i : Fin imageBytes) : Nat :=
  if i.val < primaryBytes then i.val
  else (totalLbas - 9) * blockBytes + (i.val - primaryBytes)

def image (media : Media) : Image := fun i => media (address i)

def sector (lba : Nat) : Set Nat :=
  { a | lba * blockBytes ≤ a ∧ a < lba * blockBytes + blockBytes }

def mutableLba (lba : Nat) : Prop := ∃ i < 4, lba = lbas i

instance (lba : Nat) : Decidable (mutableLba lba) :=
  inferInstanceAs (Decidable (∃ i < 4, lba = lbas i))

def sectorData (lba : Nat) (data : Nat → UInt8) : Media := fun a =>
  data (a - lba * blockBytes)

def writeSector (lba : Nat) (data : Nat → UInt8) (media : Media) : Media := fun a =>
  if lba * blockBytes ≤ a ∧ a < lba * blockBytes + blockBytes then
    sectorData lba data a
  else media a

def working : (op : Op) → Media → Answer op × Media
  | .read, media => (some (image media), media)
  | .write lba data, media =>
    if mutableLba lba then (true, writeSector lba data media) else (false, media)
  | .sync, media => (true, media)
  | .event _ _ _, media => ((), media)

/-- What a call may do.  Reads return the bytes of the media and a write reaches
only its own block; under `faulty` any call may also report an error, and a write
may stop part way whatever it reports. -/
def device (faulty : Prop) : Machine Op Answer Media where
  during
    | .write lba data, before, now =>
      if mutableLba lba then Torn (sector lba) (sectorData lba data) before now
      else now = before
    | _, before, now => now = before
  after
    | .read, before, answer, now =>
      now = before ∧ (answer = some (image before) ∨ faulty ∧ answer = none)
    | .write lba data, before, written, now =>
      if mutableLba lba then
        written = true ∧ now = writeSector lba data before ∨
          faulty ∧ Torn (sector lba) (sectorData lba data) before now
      else written = false ∧ now = before
    | .sync, before, synced, now => now = before ∧ (synced = true ∨ faulty)
    | .event _ _ _, before, _, now => now = before

theorem device_working (faulty : Prop) (op : Op) (media : Media) :
    (device faulty).after op media (working op media).1 (working op media).2 := by
  cases op with
  | read => exact ⟨rfl, .inl rfl⟩
  | write lba data =>
    by_cases hlba : mutableLba lba
    · simp [device, working, hlba]
    · simp [device, working, hlba]
  | sync => exact ⟨rfl, .inl rfl⟩
  | event => rfl

theorem torn_writeSector (lba : Nat) (data : Nat → UInt8) (media : Media) :
    Torn (sector lba) (sectorData lba data) media (writeSector lba data media) := by
  intro a
  by_cases hsector : lba * blockBytes ≤ a ∧ a < lba * blockBytes + blockBytes
  · exact .inr ⟨hsector, by simp [writeSector, hsector]⟩
  · exact .inl (by simp [writeSector, hsector])

theorem mutableLba_lbas {i : Nat} (hi : i < 4) : mutableLba (lbas i) := ⟨i, hi, rfl⟩

theorem address_mem_sector {i : Nat} (hi : i < 4) (j : Fin imageBytes) :
    address j ∈ sector (lbas i) ↔ j ∈ span (offsets i) blockBytes := by
  have hj : j.val < 61440 := j.isLt
  have hcases : i = 0 ∨ i = 1 ∨ i = 2 ∨ i = 3 := by omega
  simp only [address, sector, span, Set.mem_ofPred_eq, blockBytes, primaryBytes, totalLbas]
  rcases hcases with rfl | rfl | rfl | rfl <;>
    simp only [lbas, offsets, blockBytes, primaryBytes, totalLbas] <;> split <;> omega

theorem sectorData_address {i : Nat} (hi : i < 4) (target : Image) {j : Fin imageBytes}
    (hj : j ∈ span (offsets i) blockBytes) :
    sectorData (lbas i) (blockAt target (offsets i)) (address j) = target j := by
  have hplace : offsets i + (address j - lbas i * blockBytes) = j.val := by
    have hlt : j.val < 61440 := j.isLt
    have hcases : i = 0 ∨ i = 1 ∨ i = 2 ∨ i = 3 := by omega
    simp only [span, Set.mem_ofPred_eq, blockBytes] at hj
    simp only [address, blockBytes, primaryBytes, totalLbas]
    rcases hcases with rfl | rfl | rfl | rfl <;>
      simp only [lbas, offsets, blockBytes, primaryBytes, totalLbas] at hj ⊢ <;>
      split <;> omega
  simp [sectorData, blockAt, hplace]

theorem torn_image {i : Nat} (hi : i < 4) {target : Image} {before now : Media}
    (htorn : Torn (sector (lbas i)) (sectorData (lbas i) (blockAt target (offsets i))) before now) :
    Torn (span (offsets i) blockBytes) target (image before) (image now) := by
  intro j
  rcases htorn (address j) with hold | ⟨hsector, hnew⟩
  · exact .inl hold
  · have hj := (address_mem_sector hi j).mp hsector
    exact .inr ⟨hj, hnew.trans (sectorData_address hi target hj)⟩

theorem image_writeSector {i : Nat} (hi : i < 4) (target : Image) (media : Media) :
    image (writeSector (lbas i) (blockAt target (offsets i)) media) =
      patch (image media) target (offsets i) := by
  funext j
  have hplace := address_mem_sector hi j
  simp only [sector, span, Set.mem_ofPred_eq] at hplace
  by_cases hj : offsets i ≤ j.val ∧ j.val < offsets i + blockBytes
  · rw [patch, if_pos hj, image, writeSector, if_pos (hplace.mpr hj),
      sectorData_address hi target hj]
  · rw [patch, if_neg hj, image, writeSector, if_neg (mt hplace.mp hj), image]

theorem not_mem_sector_of_not_captured {i a : Nat} (hi : i < 4)
    (hcaptured : ∀ j, address j ≠ a) : a ∉ sector (lbas i) := by
  intro hsector
  have hcases : i = 0 ∨ i = 1 ∨ i = 2 ∨ i = 3 := by omega
  have hplace (offset : Nat) (hbound : offset < 61440) := hcaptured ⟨offset, hbound⟩
  simp only [address, blockBytes, primaryBytes, totalLbas] at hplace
  simp only [sector, Set.mem_ofPred_eq, blockBytes] at hsector
  rcases hcases with rfl | rfl | rfl | rfl <;> simp only [lbas, totalLbas] at hsector
  · exact hplace (a - 62305271 * 4096 + 24576) (by omega) (by split <;> omega)
  · exact hplace (a - 62305271 * 4096 + 24576) (by omega) (by split <;> omega)
  · exact hplace a (by omega) (by split <;> omega)
  · exact hplace a (by omega) (by split <;> omega)

end NativeInitLab.Gpt
