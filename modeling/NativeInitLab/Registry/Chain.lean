import NativeInitLab.Registry.Directory

namespace NativeInitLab.Registry

open Lockstep NumberedFiles
open F1 (Str digestText zeroSha256)

/-! What a scan accepts, and that it accepts what a call appends. -/

def contents (files : List (Slot Name Record)) : List (Name × Option Record) :=
  files.map fun file => (file.name, file.content)

def entries (records : List Record) : List (Name × Option Record) :=
  records.map fun record => (record.name, some record)

theorem entries_append (records : List Record) (record : Record) :
    entries (records ++ [record]) = entries records ++ [(record.name, some record)] :=
  List.map_append

theorem contents_append (files : List (Slot Name Record)) (file : Slot Name Record) :
    contents (files ++ [file]) = contents files ++ [(file.name, file.content)] :=
  List.map_append

theorem lastSha256_append {records : List Record} {record : Record} :
    lastSha256 (records ++ [record]) = record.recordSha256 := by
  simp [lastSha256]

theorem claims_append {records : List Record} {record : Record} :
    claims (records ++ [record]) = match record.event with
      | .claim => Function.update (claims records) record.candidateKey (some record)
      | .release => Function.update (claims records) record.candidateKey none := by
  rw [claims, List.foldl_append]
  rfl

section Scanning

variable {codec : Codec} {found after : Scan} {record : Record} {file : Slot Name Record}

structure ValidRecord (codec : Codec) (record : Record) (sequence : Nat) (previous : Str) :
    Prop where
  sequence : record.sequence = sequence
  identity : validateIdentityFields record.toIdentity record.claimId
    record.previousRecordSha256 = .ok ()
  key : record.candidateKey = codec.keyHash record.keyBody
  previous : record.previousRecordSha256 = previous
  release : validateRelease record.toBody = .ok ()
  digest : record.recordSha256 = codec.recordHash record.toBody

theorem validateRecord_eq_ok {sequence : Nat} {previous : Str} :
    validateRecord codec record sequence previous = .ok () ↔
      ValidRecord codec record sequence previous := by
  rw [validateRecord, require_bind_eq_ok, bind_eq_ok]
  constructor
  · rintro ⟨hsequence, ⟨⟩, hidentity, h⟩
    rw [require_bind_eq_ok, require_bind_eq_ok, bind_eq_ok] at h
    obtain ⟨hkey, hprevious, ⟨⟩, hrelease, hdigest⟩ := h
    exact ⟨hsequence, hidentity, hkey, hprevious, hrelease, require_eq_ok.mp hdigest⟩
  · intro h
    refine ⟨h.sequence, (), h.identity, require_bind_eq_ok.mpr ⟨h.key, ?_⟩⟩
    refine require_bind_eq_ok.mpr ⟨h.previous, bind_eq_ok.mpr ⟨(), h.release, ?_⟩⟩
    exact require_eq_ok.mpr h.digest

structure Entered (codec : Codec) (found : Scan) (file : Slot Name Record) (record : Record)
    (active : Claims) : Prop where
  content : file.content = some record
  size : codec.recordSize record ≤ maxRecordBytes
  name : file.name = ⟨found.records.length, record.event⟩
  valid : ValidRecord codec record found.records.length found.previous
  rule : found.follow codec record = .ok active

def Scan.next (found : Scan) (record : Record) (active : Claims) : Scan where
  previous := record.recordSha256
  active
  records := found.records ++ [record]

theorem enter_eq_ok : found.enter codec file = .ok after ↔
    ∃ record active, Entered codec found file record active ∧ after = found.next record active := by
  rw [Scan.enter]
  constructor
  · intro h
    cases hcontent : file.content with
    | none =>
      rw [hcontent] at h
      cases h
    | some record =>
      rw [hcontent] at h
      dsimp only at h
      rw [require_bind_eq_ok, require_bind_eq_ok, bind_eq_ok] at h
      obtain ⟨hsize, hname, ⟨⟩, hvalid, h⟩ := h
      obtain ⟨active, hrule, h⟩ := bind_eq_ok.mp h
      cases h
      exact ⟨record, active, ⟨hcontent, hsize, hname, validateRecord_eq_ok.mp hvalid, hrule⟩, rfl⟩
  · rintro ⟨record, active, h, rfl⟩
    rw [h.content]
    dsimp only
    refine require_bind_eq_ok.mpr ⟨h.size, require_bind_eq_ok.mpr ⟨h.name, ?_⟩⟩
    refine bind_eq_ok.mpr ⟨(), validateRecord_eq_ok.mpr h.valid, bind_eq_ok.mpr ?_⟩
    exact ⟨active, h.rule, rfl⟩

inductive Followed (codec : Codec) (found : Scan) (record : Record) : Claims → Prop where
  | claim (hevent : record.event = .claim) (hfree : found.active record.candidateKey = none)
      (hid : record.claimId = codec.claimHash record.candidateKey record.runId
        record.approvalBindingSha256 found.records.length) :
      Followed codec found record (Function.update found.active record.candidateKey (some record))
  | release (hevent : record.event = .release) (prior : Record)
      (hprior : found.active record.candidateKey = some prior) (hbinds : Binds record prior) :
      Followed codec found record (Function.update found.active record.candidateKey none)

theorem follow_eq_ok {active : Claims} :
    found.follow codec record = .ok active ↔ Followed codec found record active := by
  rw [Scan.follow]
  constructor
  · intro h
    cases hevent : record.event with
    | claim =>
      rw [hevent] at h
      dsimp only at h
      rw [require_bind_eq_ok, require_bind_eq_ok] at h
      obtain ⟨hfree, hid, h⟩ := h
      cases h
      exact .claim hevent hfree hid
    | release =>
      rw [hevent] at h
      dsimp only at h
      cases hprior : found.active record.candidateKey with
      | none =>
        rw [hprior] at h
        cases h
      | some prior =>
        rw [hprior] at h
        dsimp only at h
        rw [require_bind_eq_ok] at h
        cases h.2
        exact .release hevent prior hprior h.1
  · intro h
    cases h with
    | claim hevent hfree hid =>
      rw [hevent]
      exact require_bind_eq_ok.mpr ⟨hfree, require_bind_eq_ok.mpr ⟨hid, rfl⟩⟩
    | release hevent prior hprior hbinds =>
      rw [hevent, hprior]
      exact require_bind_eq_ok.mpr ⟨hbinds, rfl⟩

structure Scan.Sums (codec : Codec) (found : Scan) : Prop where
  active : found.active = claims found.records
  keyed : ∀ key prior, found.active key = some prior → prior.candidateKey = key
  previous : found.previous = lastSha256 found.records
  hex : digestText found.previous = true
  sequences : ∀ record ∈ found.records, record.sequence < found.records.length

theorem sums_start (codec : Codec) : Scan.Sums codec {} :=
  ⟨rfl, nofun, rfl, by decide, nofun⟩

theorem Scan.Sums.next {active : Claims} (h : found.Sums codec)
    (hentered : Entered codec found file record active) :
    (found.next record active).Sums codec := by
  have hfollowed := follow_eq_ok.mp hentered.rule
  refine ⟨?_, ?_, lastSha256_append.symm, ?_, ?_⟩
  · show active = claims (found.records ++ [record])
    rw [claims_append, ← h.active]
    cases hfollowed with
    | claim hevent => rw [hevent]
    | release hevent => rw [hevent]
  · intro key prior (hprior : active key = some prior)
    by_cases hkey : key = record.candidateKey
    · cases hfollowed with
      | claim =>
        rw [hkey, Function.update_self] at hprior
        cases hprior
        exact hkey.symm
      | release =>
        rw [hkey, Function.update_self] at hprior
        cases hprior
    · cases hfollowed with
      | claim =>
        rw [Function.update_of_ne hkey] at hprior
        exact h.keyed key prior hprior
      | release =>
        rw [Function.update_of_ne hkey] at hprior
        exact h.keyed key prior hprior
  · show digestText record.recordSha256 = true
    rw [hentered.valid.digest]
    exact codec.recordHash_hex _
  · intro other hother
    show other.sequence < (found.records ++ [record]).length
    rw [List.length_append]
    rcases List.mem_append.mp hother with hother | hother
    · exact Nat.lt_succ_of_lt (h.sequences other hother)
    · rw [List.mem_singleton.mp hother, hentered.valid.sequence]
      exact Nat.lt_succ_self _

end Scanning

section Chain

variable {codec : Codec} {records : List Record} {record : Record}
  {files : List (Slot Name Record)} {found : Scan}

theorem enter_congr {file other : Slot Name Record} (hname : file.name = other.name)
    (hcontent : file.content = other.content) :
    found.enter codec file = found.enter codec other := by
  rw [Scan.enter, Scan.enter, hname, hcontent]

theorem scanRecords_congr {other : List (Slot Name Record)} (h : contents files = contents other) :
    scanRecords codec files = scanRecords codec other := by
  have hlength : files.length = other.length := by
    simpa [contents] using congrArg List.length h
  have hfold (start : Scan) : files.foldlM (Scan.enter codec) start =
      other.foldlM (Scan.enter codec) start := by
    clear hlength
    induction files generalizing other start with
    | nil =>
      cases other with
      | nil => rfl
      | cons => cases h
    | cons file rest ih =>
      cases other with
      | nil => cases h
      | cons second others =>
        obtain ⟨hfirst, hrest⟩ := List.cons.inj h
        obtain ⟨hname, hcontent⟩ := Prod.mk.inj hfirst
        rw [List.foldlM_cons, List.foldlM_cons, enter_congr hname hcontent]
        exact bind_congr fun next => ih hrest next
  rw [scanRecords, scanRecords, hlength, hfold]

structure Scanned (codec : Codec) (files : List (Slot Name Record)) (found : Scan) : Prop where
  sums : found.Sums codec
  contents : contents files = entries found.records

theorem foldlM_enter {start : Scan} {earlier : List (Slot Name Record)}
    (hstart : Scanned codec earlier start)
    (h : files.foldlM (Scan.enter codec) start = .ok found) :
    Scanned codec (earlier ++ files) found := by
  induction files generalizing start earlier with
  | nil =>
    cases h
    rw [List.append_nil]
    exact hstart
  | cons file rest ih =>
    rw [List.foldlM_cons, bind_eq_ok] at h
    obtain ⟨next, henter, hrest⟩ := h
    obtain ⟨record, active, hentered, rfl⟩ := enter_eq_ok.mp henter
    rw [List.append_cons]
    refine ih ⟨hstart.sums.next hentered, ?_⟩ hrest
    have hname : file.name = record.name := by
      rw [hentered.name, Record.name, hentered.valid.sequence]
    show Registry.contents (earlier ++ [file]) = entries (start.records ++ [record])
    rw [contents_append, entries_append, hstart.contents, hentered.content, hname]

theorem scanRecords_eq_ok (h : scanRecords codec files = .ok found) :
    Scanned codec files found := by
  rw [scanRecords, require_bind_eq_ok] at h
  have hstart : Scanned codec [] {} := ⟨sums_start codec, rfl⟩
  exact foldlM_enter hstart h.2

def fileOf (record : Record) : Slot Name Record := Slot.complete record.name record

theorem contents_fileOf : contents (records.map fileOf) = entries records := by
  rw [contents, entries, List.map_map]
  rfl

def Chain (codec : Codec) (records : List Record) : Prop :=
  ∃ found, scanRecords codec (records.map fileOf) = .ok found ∧ found.records = records

theorem chain_of_scan (h : scanRecords codec files = .ok found) : Chain codec found.records := by
  have hsame : contents (found.records.map fileOf) = contents files := by
    rw [contents_fileOf, (scanRecords_eq_ok h).contents]
  exact ⟨found, (scanRecords_congr hsame).trans h, rfl⟩

theorem Chain.scan (h : Chain codec records) (hfiles : contents files = entries records) :
    ∃ found, scanRecords codec files = .ok found ∧ found.records = records := by
  obtain ⟨found, hscan, hrecords⟩ := h
  rw [← contents_fileOf] at hfiles
  exact ⟨found, (scanRecords_congr hfiles).trans hscan, hrecords⟩

theorem chain_nil : Chain codec [] := ⟨{}, rfl, rfl⟩

theorem Chain.length_le (h : Chain codec records) : records.length ≤ maxRecords := by
  obtain ⟨found, hscan, -⟩ := h
  rw [scanRecords, require_bind_eq_ok] at hscan
  simpa using hscan.1

theorem Chain.sequence_lt (h : Chain codec records) (hrecord : record ∈ records) :
    record.sequence < records.length := by
  obtain ⟨found, hscan, rfl⟩ := h
  exact (scanRecords_eq_ok hscan).sums.sequences record hrecord

theorem Chain.hex (h : Chain codec records) : digestText (lastSha256 records) = true := by
  obtain ⟨found, hscan, rfl⟩ := h
  have hsums := (scanRecords_eq_ok hscan).sums
  rw [← hsums.previous]
  exact hsums.hex

end Chain

section Appending

variable {codec : Codec} {legacy : List Str} {records : List Record} {record : Record} {call : Call}

def Call.Adds (codec : Codec) (legacy : List Str) (call : Call) (records : List Record)
    (record : Record) : Prop :=
  ∃ draft, call.plan codec legacy records = .ok (.append draft) ∧
    checkAppend codec records draft = .ok record

theorem checkAppend_eq_ok {draft : Body} (h : checkAppend codec records draft = .ok record) :
    records.length < maxRecords ∧ record = sealRecord codec records draft ∧
      ValidRecord codec record records.length (lastSha256 records) ∧
      codec.recordSize record ≤ maxRecordBytes := by
  rw [checkAppend, require_bind_eq_ok, bind_eq_ok] at h
  obtain ⟨hlength, ⟨⟩, hvalid, h⟩ := h
  obtain ⟨hsize, h⟩ := require_bind_eq_ok.mp h
  cases h
  exact ⟨hlength, rfl, validateRecord_eq_ok.mp hvalid, hsize⟩

theorem refuseConsumed_eq_ok {identity : Identity} {claimed : String}
    (h : refuseConsumed legacy records identity claimed = .ok ()) :
    legacy.contains identity.candidateApSha256 = false ∧
      claims records identity.candidateKey = none := by
  rw [refuseConsumed, require_bind_eq_ok] at h
  exact ⟨h.1, require_eq_ok.mp h.2⟩

inductive Planned (codec : Codec) (records : List Record) : Call → Body → Prop where
  | claim {identity : Identity} (hfree : claims records identity.candidateKey = none) :
      Planned codec records (.claim identity) (claimDraft codec records identity)
  | release {request : ReleaseRequest} {existing : Record}
      (hclaimed : claims records request.candidateKey = some existing)
      (hid : existing.claimId = request.claimId) :
      Planned codec records (.release request) (releaseDraft records request existing)

theorem planRelease_append {request : ReleaseRequest} {draft : Body}
    (h : planRelease records request = .ok (.append draft)) :
    ∃ existing, claims records request.candidateKey = some existing ∧
      existing.claimId = request.claimId ∧ draft = releaseDraft records request existing := by
  unfold planRelease at h
  split at h
  case h_2 => cases h
  case h_1 supplied owner _ _ =>
    obtain ⟨-, h⟩ := require_bind_eq_ok.mp h
    split at h
    case h_1 existing hfilter =>
      cases h
      obtain ⟨hclaimed, hid⟩ := Option.filter_eq_some_iff.mp hfilter
      exact ⟨existing, hclaimed, beq_iff_eq.mp hid, rfl⟩
    case h_2 =>
      split at h
      · cases h
      · cases h

theorem plan_append {draft : Body} (h : call.plan codec legacy records = .ok (.append draft)) :
    Planned codec records call draft := by
  unfold Call.plan at h
  cases call with
  | preflight identity =>
    obtain ⟨⟨⟩, -, h⟩ := bind_eq_ok.mp h
    cases h
  | claim identity =>
    obtain ⟨⟨⟩, hrefused, h⟩ := bind_eq_ok.mp h
    cases h
    exact .claim (refuseConsumed_eq_ok hrefused).2
  | release request =>
    obtain ⟨planned, hplanned, h⟩ := bind_eq_ok.mp h
    cases planned with
    | recorded item => cases h
    | append draft =>
      cases h
      obtain ⟨existing, hclaimed, hid, rfl⟩ := planRelease_append hplanned
      exact .release hclaimed hid

theorem Planned.followed {found : Scan} {draft : Body} (hsums : found.Sums codec)
    (hplanned : Planned codec found.records call draft) :
    ∃ active, Followed codec found (sealRecord codec found.records draft) active := by
  cases hplanned with
  | claim hfree =>
    refine ⟨_, .claim rfl ?_ rfl⟩
    rw [hsums.active]
    exact hfree
  | @release request existing hclaimed hid =>
    rw [← hsums.active] at hclaimed
    exact ⟨_, .release rfl existing hclaimed
      ⟨rfl, rfl, rfl, rfl, rfl, rfl, rfl, rfl, rfl, rfl, hid.symm⟩⟩

theorem Call.Adds.sequence (h : call.Adds codec legacy records record) :
    record.sequence = records.length := by
  obtain ⟨draft, -, hcheck⟩ := h
  exact (checkAppend_eq_ok hcheck).2.2.1.sequence

theorem Chain.append (hchain : Chain codec records)
    (hadds : call.Adds codec legacy records record) : Chain codec (records ++ [record]) := by
  obtain ⟨draft, hplan, hcheck⟩ := hadds
  obtain ⟨hlength, hrecord, hvalid, hsize⟩ := checkAppend_eq_ok hcheck
  obtain ⟨found, hscan, rfl⟩ := hchain
  have hsums := (scanRecords_eq_ok hscan).sums
  obtain ⟨active, hfollowed⟩ := (plan_append hplan).followed hsums
  rw [← hrecord] at hfollowed
  have hentered : Entered codec found (fileOf record) record active := by
    refine ⟨rfl, hsize, ?_, hsums.previous ▸ hvalid, follow_eq_ok.mpr hfollowed⟩
    show (⟨record.sequence, record.event⟩ : Name) = _
    rw [hvalid.sequence]
  rw [scanRecords, require_bind_eq_ok] at hscan
  refine ⟨found.next record active, require_bind_eq_ok.mpr ⟨?_, ?_⟩, rfl⟩
  · rw [List.length_map, List.length_append]
    exact hlength
  · rw [List.map_append, List.foldlM_append, hscan.2, ok_bind, List.map_singleton,
      List.foldlM_cons, enter_eq_ok.mpr ⟨record, active, hentered, rfl⟩, ok_bind]
    rfl

end Appending

section Heads

variable {codec : Codec} {records : List Record} {record : Record}

def headOf (codec : Codec) (records : List Record) : Head :=
  headValue codec records.length (records.length - 1) (lastSha256 records)

theorem headOf_covers : (headOf codec records).Covers records := ⟨rfl, rfl, rfl⟩

theorem headOf_append_covers : ¬ (headOf codec records).Covers (records ++ [record]) := by
  rintro ⟨hcount, -, -⟩
  have hlength : records.length = (records ++ [record]).length := hcount
  rw [List.length_append, List.length_singleton] at hlength
  omega

theorem headValue_append : headValue codec (records.length + 1) records.length
    record.recordSha256 = headOf codec (records ++ [record]) := by
  have hsequence : ((records.length + 1 : Nat) : Int) - 1 = records.length := by omega
  rw [headOf, lastSha256_append, List.length_append, List.length_singleton, hsequence]

theorem Chain.headSize (h : Chain codec records) :
    codec.headSize (headOf codec records) ≤ maxHeadBytes :=
  codec.headSize_le _ h.length_le rfl h.hex (codec.headHash_hex _)

theorem Chain.validateHead (h : Chain codec records) :
    validateHead codec (headOf codec records) = .ok () := by
  rw [Registry.validateHead]
  refine require_bind_eq_ok.mpr ⟨h.length_le, require_bind_eq_ok.mpr ⟨rfl, ?_⟩⟩
  refine require_bind_eq_ok.mpr ⟨h.hex, require_bind_eq_ok.mpr ⟨codec.headHash_hex _, ?_⟩⟩
  refine require_bind_eq_ok.mpr ⟨rfl, require_eq_ok.mpr ?_⟩
  intro (hempty : records.length = 0)
  rw [List.length_eq_zero_iff.mp hempty]
  rfl

theorem Chain.readHead (h : Chain codec records) {directory : Directory}
    (hhead : directory.root.head = some (headOf codec records)) :
    readHead codec directory = .ok (headOf codec records) := by
  rw [Registry.readHead, hhead]
  exact require_bind_eq_ok.mpr ⟨h.headSize, bind_eq_ok.mpr ⟨(), h.validateHead, rfl⟩⟩

theorem Chain.last (h : Chain codec (records ++ [record])) :
    Chain codec records ∧ ∃ found active, found.records = records ∧ found.Sums codec ∧
      Entered codec found (fileOf record) record active := by
  have hlength := h.length_le
  obtain ⟨found, hscan, hrecords⟩ := h
  rw [scanRecords, require_bind_eq_ok, List.map_append, List.foldlM_append, bind_eq_ok] at hscan
  obtain ⟨-, earlier, hearlier, hlast⟩ := hscan
  rw [List.map_singleton, List.foldlM_cons, bind_eq_ok] at hlast
  obtain ⟨next, henter, hnil⟩ := hlast
  cases hnil
  obtain ⟨entered, active, hentered, rfl⟩ := enter_eq_ok.mp henter
  obtain ⟨rfl, hsame⟩ := List.append_inj' hrecords rfl
  cases hsame
  have hscan : scanRecords codec (earlier.records.map fileOf) = .ok earlier := by
    refine require_bind_eq_ok.mpr ⟨?_, hearlier⟩
    rw [List.length_append] at hlength
    rw [List.length_map]
    omega
  exact ⟨⟨earlier, hscan, rfl⟩, earlier, active, rfl, (scanRecords_eq_ok hscan).sums, hentered⟩

theorem Chain.split (h : Chain codec (records ++ [record])) :
    Chain codec records ∧ ValidRecord codec record records.length (lastSha256 records) := by
  obtain ⟨hchain, found, active, rfl, hsums, hentered⟩ := h.last
  exact ⟨hchain, hsums.previous ▸ hentered.valid⟩

theorem Chain.tailHead (h : Chain codec (records ++ [record])) :
    tailHead codec (headOf codec records) (records ++ [record]) =
      .ok (headOf codec (records ++ [record])) := by
  obtain ⟨hchain, hvalid⟩ := h.split
  have htake : (records ++ [record]).take (headOf codec records).recordCount = records :=
    List.take_left
  rw [Registry.tailHead]
  refine require_bind_eq_ok.mpr ⟨⟨?_, hchain.length_le⟩, ?_⟩
  · rw [List.length_append]
    rfl
  · rw [htake, List.getLast?_append_of_ne_nil _ (List.cons_ne_nil record []),
      List.getLast?_singleton]
    refine require_bind_eq_ok.mpr ⟨⟨rfl, rfl, hvalid.sequence, hvalid.previous⟩, ?_⟩
    rw [headOf, lastSha256_append]
    rfl

end Heads

end NativeInitLab.Registry
