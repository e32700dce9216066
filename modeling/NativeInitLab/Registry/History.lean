import NativeInitLab.Registry.Entry
import Mathlib.Data.List.Induction

namespace NativeInitLab.Registry

open Lockstep NumberedFiles
open F1 (Str)

/-! What a chain of records says about its claims. -/

structure Releases (release claim : Record) : Prop where
  event : release.event = .release
  key : release.candidateKey = claim.candidateKey
  id : release.claimId = claim.claimId

section History

variable {codec : Codec} {records before between after : List Record} {record claim : Record}
  {key : Str}

theorem claims_append_of_ne (hkey : key ≠ record.candidateKey) :
    claims (records ++ [record]) key = claims records key := by
  rw [claims_append]
  cases record.event with
  | claim | release => exact Function.update_of_ne hkey ..

theorem claims_append_claim (hevent : record.event = .claim) :
    claims (records ++ [record]) record.candidateKey = some record := by
  rw [claims_append, hevent]
  exact Function.update_self ..

theorem claims_append_release (hevent : record.event = .release) :
    claims (records ++ [record]) record.candidateKey = none := by
  rw [claims_append, hevent]
  exact Function.update_self ..

theorem claims_eq_some (h : claims records key = some claim) :
    ∃ before after, records = before ++ claim :: after ∧ claim.event = .claim ∧
      claim.candidateKey = key ∧ ∀ other ∈ after, other.candidateKey ≠ key := by
  induction records using List.reverseRecOn with
  | nil => cases h
  | append_singleton earlier last ih =>
    by_cases hkey : key = last.candidateKey
    · subst hkey
      cases hevent : last.event with
      | claim =>
        rw [claims_append_claim hevent] at h
        cases h
        exact ⟨earlier, [], rfl, hevent, rfl, nofun⟩
      | release =>
        rw [claims_append_release hevent] at h
        cases h
    · rw [claims_append_of_ne hkey] at h
      obtain ⟨before, after, rfl, hclaim, hsame, hafter⟩ := ih h
      refine ⟨before, after ++ [last], by rw [List.append_assoc, List.cons_append], hclaim,
        hsame, ?_⟩
      refine List.forall_mem_append.mpr ⟨hafter, ?_⟩
      exact List.forall_mem_singleton.mpr fun hlast => hkey hlast.symm

theorem Chain.of_append (h : Chain codec (before ++ after)) : Chain codec before := by
  have hlength := h.length_le
  obtain ⟨found, hscan, hrecords⟩ := h
  rw [scanRecords, require_bind_eq_ok, List.map_append, List.foldlM_append, bind_eq_ok] at hscan
  obtain ⟨-, earlier, hearlier, -⟩ := hscan
  have hscan : scanRecords codec (before.map fileOf) = .ok earlier := by
    refine require_bind_eq_ok.mpr ⟨?_, hearlier⟩
    rw [List.length_append] at hlength
    rw [List.length_map]
    omega
  have hcontents := (scanRecords_eq_ok hscan).contents
  rw [contents_fileOf] at hcontents
  have hsame : before = earlier.records := by
    refine List.map_injective_iff.mpr ?_ hcontents
    intro first second hboth
    exact Option.some.inj (Prod.mk.inj hboth).2
  exact ⟨earlier, hscan, hsame.symm⟩

theorem Chain.valid (h : Chain codec (before ++ record :: after)) :
    ValidRecord codec record before.length (lastSha256 before) := by
  rw [List.append_cons] at h
  exact h.of_append.split.2

theorem Chain.followed (h : Chain codec (records ++ [record])) :
    record.event = .claim ∧ claims records record.candidateKey = none ∧
        record.claimId = codec.claimHash record.candidateKey record.runId
          record.approvalBindingSha256 records.length ∨
      record.event = .release ∧ ∃ prior, claims records record.candidateKey = some prior ∧
        Binds record prior := by
  obtain ⟨-, found, active, rfl, hsums, hentered⟩ := h.last
  rw [← hsums.active]
  cases follow_eq_ok.mp hentered.rule with
  | claim hevent hfree hid => exact .inl ⟨hevent, hfree, hid⟩
  | release hevent prior hprior hbinds => exact .inr ⟨hevent, prior, hprior, hbinds⟩

theorem Binds.id {prior : Record} (h : Binds record prior) : record.claimId = prior.claimId := by
  obtain ⟨-, -, -, -, -, -, -, -, -, -, hid⟩ := h
  exact hid

theorem Chain.active_or_released (h : Chain codec (before ++ claim :: after))
    (hclaim : claim.event = .claim) :
    claims (before ++ claim :: after) claim.candidateKey = some claim ∨
      ∃ release ∈ after, Releases release claim := by
  induction after using List.reverseRecOn with
  | nil =>
    exact .inl (claims_append_claim hclaim)
  | append_singleton later last ih =>
    have hsplit : before ++ claim :: (later ++ [last]) = (before ++ claim :: later) ++ [last] := by
      rw [List.append_assoc, List.cons_append]
    rw [hsplit] at h ⊢
    rcases ih h.of_append with hactive | ⟨release, hrelease, hreleases⟩
    · by_cases hkey : claim.candidateKey = last.candidateKey
      · rcases h.followed with ⟨-, hfree, -⟩ | ⟨hevent, prior, hprior, hbinds⟩
        · rw [← hkey, hactive] at hfree
          cases hfree
        · rw [← hkey, hactive] at hprior
          cases hprior
          exact .inr ⟨last, by simp, hevent, hkey.symm, hbinds.id⟩
      · exact .inl ((claims_append_of_ne hkey).trans hactive)
    · exact .inr ⟨release, List.mem_append_left _ hrelease, hreleases⟩

theorem Chain.exclusive {second : Record}
    (h : Chain codec (before ++ claim :: between ++ second :: after))
    (hclaim : claim.event = .claim) (hsecond : second.event = .claim)
    (hkey : claim.candidateKey = second.candidateKey) :
    ∃ release ∈ between, Releases release claim := by
  rw [List.append_cons] at h
  have hchain := h.of_append
  rcases hchain.of_append.active_or_released hclaim with hactive | hreleased
  · rcases hchain.followed with ⟨-, hfree, -⟩ | ⟨hevent, -⟩
    · rw [← hkey, hactive] at hfree
      cases hfree
    · rw [hsecond] at hevent
      cases hevent
  · exact hreleased

end History

end NativeInitLab.Registry
