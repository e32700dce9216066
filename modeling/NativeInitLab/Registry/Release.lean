import NativeInitLab.Registry.History
import NativeInitLab.Registry.Repair

namespace NativeInitLab.Registry

open CrashProgram CrashProgram.Program Lockstep NumberedFiles
open F1 (Str digestText)

/-! A release of a claim that is released already. -/

/-- No two claims have one identifier: their sequence numbers are among what is hashed. -/
def Codec.SeparatesClaims (codec : Codec) : Prop :=
  ∀ key run approval key' run' approval' sequence sequence',
    codec.claimHash key run approval sequence = codec.claimHash key' run' approval' sequence' →
      sequence = sequence'

def requestOf (claim : Record) : ReleaseRequest where
  candidateKey := claim.candidateKey
  claimId := claim.claimId
  record := some claim

section Release

variable {codec : Codec} {legacy : List Str} {records before between after : List Record}
  {claim other release : Record}

theorem Chain.claimId (h : Chain codec (before ++ claim :: after)) (hclaim : claim.event = .claim) :
    claim.claimId = codec.claimHash claim.candidateKey claim.runId
      claim.approvalBindingSha256 before.length := by
  rw [List.append_cons] at h
  rcases h.of_append.followed with ⟨-, -, hid⟩ | ⟨hrelease, -⟩
  · exact hid
  · rw [hclaim] at hrelease
    cases hrelease

theorem Chain.eq_of_claimId (hids : codec.SeparatesClaims) (h : Chain codec records)
    (hmem : claim ∈ records) (hother : other ∈ records) (hclaim : claim.event = .claim)
    (hevent : other.event = .claim) (hid : claim.claimId = other.claimId) : claim = other := by
  obtain ⟨before, after, hfirst⟩ := List.append_of_mem hmem
  obtain ⟨before', after', hsecond⟩ := List.append_of_mem hother
  have hleft := (hfirst ▸ h).claimId hclaim
  have hright := (hsecond ▸ h).claimId hevent
  have hlength : before.length = before'.length :=
    hids _ _ _ _ _ _ _ _ (hleft.symm.trans (hid.trans hright))
  have hsame := hfirst.symm.trans hsecond
  exact (List.cons.inj (List.append_inj hsame hlength).2).1

theorem Chain.released (h : Chain codec (before ++ release :: after))
    (hevent : release.event = .release) :
    ∃ claim earlier later, before = earlier ++ claim :: later ∧ claim.event = .claim ∧
      Releases release claim ∧ claims before claim.candidateKey = some claim ∧
      ∀ record ∈ later, record.candidateKey ≠ claim.candidateKey := by
  rw [List.append_cons] at h
  rcases h.of_append.followed with ⟨hclaim, -⟩ | ⟨-, claim, hactive, hbinds⟩
  · rw [hevent] at hclaim
    cases hclaim
  · obtain ⟨earlier, later, hbefore, hclaim, hkey, hlater⟩ := claims_eq_some hactive
    refine ⟨claim, earlier, later, hbefore, hclaim, ⟨hevent, hkey.symm, hbinds.id⟩, ?_, ?_⟩
    · rw [hkey]
      exact hactive
    · rw [hkey]
      exact hlater

theorem Chain.release_after (hids : codec.SeparatesClaims)
    (h : Chain codec (before ++ claim :: after)) (hclaim : claim.event = .claim)
    (hmem : release ∈ before ++ claim :: after) (hreleases : Releases release claim) :
    release ∈ after := by
  obtain ⟨left, right, hsplit⟩ := List.append_of_mem hmem
  obtain ⟨other, earlier, later, rfl, hother, hsame, -⟩ := (hsplit ▸ h).released hreleases.event
  have hmember : other ∈ before ++ claim :: after := by
    rw [hsplit]
    simp
  obtain rfl : claim = other := h.eq_of_claimId hids (by simp) hmember hclaim hother
    (hreleases.id.symm.trans hsame.id)
  rw [List.append_assoc, List.cons_append] at hsplit
  have hlength : before.length = earlier.length :=
    h.valid.sequence.symm.trans (hsplit ▸ h).valid.sequence
  obtain ⟨-, htail⟩ := List.append_inj hsplit hlength
  rw [(List.cons.inj htail).2]
  simp

theorem Chain.not_active (hids : codec.SeparatesClaims) (h : Chain codec records)
    (hclaim : claim.event = .claim) (hmem : release ∈ records)
    (hreleases : Releases release claim) : claims records claim.candidateKey ≠ some claim := by
  intro hactive
  obtain ⟨before, after, rfl, -, -, hnone⟩ := claims_eq_some hactive
  exact hnone release (h.release_after hids hclaim hmem hreleases) hreleases.key

theorem Chain.release_once (hids : codec.SeparatesClaims) {second : Record}
    (h : Chain codec (before ++ release :: between ++ second :: after))
    (hrelease : release.event = .release) (hsecond : second.event = .release) :
    release.claimId ≠ second.claimId := by
  intro hid
  have hfirst : Chain codec (before ++ release :: between) := h.of_append
  obtain ⟨claim, earlier, later, hbefore, hclaim, hreleases, -⟩ := hfirst.released hrelease
  obtain ⟨other, earlier', later', hsplit, hother, hsame, hactive, -⟩ := h.released hsecond
  obtain rfl : claim = other := by
    refine hfirst.eq_of_claimId hids ?_ ?_ hclaim hother ?_
    · rw [hbefore]
      simp
    · rw [hsplit]
      simp
    · exact hreleases.id.symm.trans (hid.trans hsame.id)
  exact hfirst.not_active hids hclaim (by simp) hreleases hactive

theorem Chain.release_local (h : Chain codec (before ++ release :: after))
    (hrelease : release.event = .release) (hother : other.claimId ≠ release.claimId) :
    claims (before ++ [release]) other.candidateKey = some other ↔
      claims before other.candidateKey = some other := by
  by_cases hkey : other.candidateKey = release.candidateKey
  · obtain ⟨claim, -, -, -, -, hreleases, hactive, -⟩ := h.released hrelease
    have hnone : claims (before ++ [release]) release.candidateKey = none :=
      claims_append_release hrelease
    rw [hkey, hnone, hreleases.key, hactive]
    refine ⟨nofun, fun hsame => ?_⟩
    cases hsame
    exact absurd hreleases.id.symm hother
  · rw [claims_append_of_ne hkey]

theorem planRelease_recorded (hids : codec.SeparatesClaims) (h : Chain codec records)
    (hmem : claim ∈ records) (hclaim : claim.event = .claim)
    (hreleased : ∃ release ∈ records, Releases release claim) :
    ∃ item ∈ records, Releases item claim ∧
      planRelease records (requestOf claim) = .ok (.recorded item) := by
  obtain ⟨release, hrelease, hreleases⟩ := hreleased
  have hnames {event : Event} {record : Record} : (requestOf claim).names event record = true ↔
      record.event = event ∧ record.candidateKey = claim.candidateKey ∧
        record.claimId = claim.claimId := by
    simp [ReleaseRequest.names, requestOf, and_assoc]
  have howner : records.find? ((requestOf claim).names .claim) = some claim := by
    cases hfind : records.find? ((requestOf claim).names .claim) with
    | none =>
      have hmissing := List.find?_eq_none.mp hfind claim hmem
      exact absurd (hnames.mpr ⟨hclaim, rfl, rfl⟩) hmissing
    | some owner =>
      obtain ⟨howner, -, hid⟩ := hnames.mp (List.find?_some hfind)
      rw [h.eq_of_claimId hids (List.mem_of_find?_eq_some hfind) hmem howner hclaim hid]
  have hinactive : (claims records claim.candidateKey).filter
      (fun existing => existing.claimId == claim.claimId) = none := by
    refine Option.filter_eq_none_iff.mpr fun existing hexisting hid => ?_
    obtain ⟨before, after, hsplit, hevent, -, -⟩ := claims_eq_some hexisting
    have hmember : existing ∈ records := by
      rw [hsplit]
      simp
    obtain rfl : existing = claim :=
      h.eq_of_claimId hids hmember hmem hevent hclaim (beq_iff_eq.mp hid)
    exact h.not_active hids hclaim hrelease hreleases hexisting
  cases hfind : records.reverse.find? ((requestOf claim).names .release) with
  | none =>
    have hmissing := List.find?_eq_none.mp hfind release (List.mem_reverse.mpr hrelease)
    exact absurd (hnames.mpr ⟨hreleases.event, hreleases.key, hreleases.id⟩) hmissing
  | some item =>
    obtain ⟨hevent, hkey, hid⟩ := hnames.mp (List.find?_some hfind)
    refine ⟨item, List.mem_reverse.mp (List.mem_of_find?_eq_some hfind), ⟨hevent, hkey, hid⟩, ?_⟩
    have hclaims : (claims records (requestOf claim).candidateKey).filter
        (fun existing => existing.claimId == (requestOf claim).claimId) = none := hinactive
    rw [planRelease, howner, hclaims, hfind]
    exact require_bind_eq_ok.mpr ⟨rfl, rfl⟩

theorem checkFields_eq_ok {fields : List (String × Bool)} (h : checkFields fields = .ok ())
    (field : String × Bool) (hfield : field ∈ fields) : field.2 = true := by
  induction fields with
  | nil => cases hfield
  | cons first rest ih =>
    obtain ⟨hfirst, hrest⟩ := require_bind_eq_ok.mp h
    rcases List.mem_cons.mp hfield with rfl | hfield
    · exact hfirst
    · exact ih hrest hfield

theorem Chain.validate (h : Chain codec records) (hmem : claim ∈ records) :
    (requestOf claim).validate = .ok () := by
  obtain ⟨before, after, rfl⟩ := List.append_of_mem hmem
  have hidentity := h.valid.identity
  rw [validateIdentityFields, bind_eq_ok] at hidentity
  obtain ⟨⟨⟩, hfields, -⟩ := hidentity
  have hkey := checkFields_eq_ok hfields ("candidate_key", digestText claim.candidateKey) (by simp)
  have hid := checkFields_eq_ok hfields ("claim_id", digestText claim.claimId) (by simp)
  exact require_bind_eq_ok.mpr ⟨⟨hkey, hid⟩, rfl⟩

theorem contents_of_visits {call : Call} {directory stopped after : Directory}
    (hplan : ∀ draft, call.plan codec legacy records ≠ .ok (.append draft))
    (hstart : Recoverable codec records directory)
    (hvisits : Visits machine (call.program codec legacy).run directory stopped)
    (hafter : after = stopped ∨ directory.Synced ∧ stopped.Crash after) :
    contents after.records = entries records := by
  rcases instant_of_visits hstart hvisits with hresting | ⟨-, record, ⟨draft, hdraft, -⟩, -⟩
  · rcases hafter with rfl | ⟨hsynced, hcrash⟩
    · exact hresting.contents
    · exact (hresting.crash hsynced hcrash).contents
  · exact absurd hdraft (hplan draft)

theorem succeeds_recorded (legacy : List Str) {directory : Directory} {item : Record}
    (hstart : Recoverable codec records directory) (hmem : claim ∈ records)
    (hplan : planRelease records (requestOf claim) = .ok (.recorded item)) :
    ∃ next, Succeeds ((Call.release (requestOf claim)).program codec legacy) directory
      (some ⟨item, none⟩) next ∧ contents next.records = entries records := by
  obtain ⟨entered, henter, -, hordered⟩ := hstart.enter
  have hrecorded : (Call.release (requestOf claim)).plan codec legacy records =
      .ok (.recorded item) :=
    bind_eq_ok.mpr ⟨_, hplan, rfl⟩
  refine ⟨entered, ?_, hordered.contents⟩
  refine ((succeeds_check (hstart.chain.validate hmem)).bind
    (succeeds_beforeLock hstart.near.1)).bind ?_
  exact henter.bind ((hordered.scan false).bind ((succeeds_check hrecorded).bind succeeds_pure))

theorem release_is_idempotent_and_local (legacy : List Str) (hids : codec.SeparatesClaims)
    (hchain : Chain codec records) :
    (∀ claim ∈ records, claim.event = .claim → (∃ release ∈ records, Releases release claim) →
      ∀ directory, Recoverable codec records directory → (∃ item next, Releases item claim ∧
          Succeeds ((Call.release (requestOf claim)).program codec legacy) directory
            (some ⟨item, none⟩) next ∧ contents next.records = entries records) ∧
        ∀ stopped after,
          Visits machine ((Call.release (requestOf claim)).program codec legacy).run directory
            stopped → after = stopped ∨ directory.Synced ∧ stopped.Crash after →
          contents after.records = entries records) ∧
    (∀ before release between second after,
      records = before ++ release :: between ++ second :: after →
      release.event = .release → second.event = .release → release.claimId ≠ second.claimId) ∧
    ∀ before release after, records = before ++ release :: after → release.event = .release →
      ∀ other, other.claimId ≠ release.claimId →
        (claims (before ++ [release]) other.candidateKey = some other ↔
          claims before other.candidateKey = some other) := by
  refine ⟨?_, ?_, ?_⟩
  · intro claim hmem hclaim hreleased directory hstart
    obtain ⟨item, -, hreleases, hplan⟩ := planRelease_recorded hids hchain hmem hclaim hreleased
    obtain ⟨next, hsucceeds, hcontents⟩ := succeeds_recorded legacy hstart hmem hplan
    refine ⟨⟨item, next, hreleases, hsucceeds, hcontents⟩, ?_⟩
    intro stopped after hvisits hafter
    refine contents_of_visits ?_ hstart hvisits hafter
    intro draft hdraft
    obtain ⟨planned, hplanned, hdraft⟩ := bind_eq_ok.mp hdraft
    rw [hplan] at hplanned
    cases hplanned
    cases hdraft
  · rintro before release between second after rfl hrelease hsecond
    exact hchain.release_once hids hrelease hsecond
  · rintro before release after rfl hrelease other hother
    exact hchain.release_local hrelease hother

end Release

namespace Sample

theorem codec_separatesClaims : codec.SeparatesClaims := by
  intro key run approval key' run' approval' sequence sequence' hsame
  have hcount := congrArg (List.count 'f') hsame
  have hnone (count number : Nat) : (digits count number).count 'f' = 0 :=
    List.count_eq_zero.mpr fun hmem => (digits_spec hmem).2 rfl
  simpa [codec, List.count_append, List.count_replicate, hnone] using hcount

def first : Record := sealRecord codec [] (claimDraft codec [] identity)

def released : Record :=
  sealRecord codec [first] (releaseDraft [first] (requestOf first) first)

def again : Record := sealRecord codec [first, released]
  (claimDraft codec [first, released] identity)

def history : List Record := [first, released, again]

def registry : Directory where
  records := history.map fileOf
  root := ⟨some (headOf codec history), []⟩

theorem history_chain : Chain codec history := by
  have hscan : (scanRecords codec (history.map fileOf)).toOption.map Scan.records =
      some history := by decide +kernel
  cases hfound : scanRecords codec (history.map fileOf) with
  | error => simp [hfound, Except.toOption] at hscan
  | ok found =>
    rw [hfound] at hscan
    exact ⟨found, hfound, Option.some.inj hscan⟩

theorem registry_recoverable : Recoverable codec history registry :=
  ⟨contents_fileOf, history_chain, Nat.zero_le 1, .inl rfl⟩

end Sample

theorem release_is_idempotent_and_local_sample :
    claims Sample.history Sample.first.candidateKey = some Sample.again ∧
      ∃ item next, Releases item Sample.first ∧
        Succeeds ((Call.release (requestOf Sample.first)).program Sample.codec [])
          Sample.registry (some ⟨item, none⟩) next ∧
        contents next.records = entries Sample.history := by
  have hlocal := release_is_idempotent_and_local [] Sample.codec_separatesClaims
    Sample.history_chain
  have hreleased : ∃ release ∈ Sample.history, Releases release Sample.first :=
    ⟨Sample.released, by simp [Sample.history], rfl, rfl, rfl⟩
  refine ⟨by decide +kernel, ?_⟩
  exact (hlocal.1 Sample.first (by simp [Sample.history]) rfl hreleased Sample.registry
    Sample.registry_recoverable).1

end NativeInitLab.Registry
