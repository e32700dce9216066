import NativeInitLab.Registry.Chain

namespace NativeInitLab.Registry

open CrashProgram CrashProgram.Program Lockstep NumberedFiles
open F1 (Str)

/-! The runs in which every operation completes. -/

section Runs

variable {A B : Type} {directory next last : Directory}

def Succeeds (program : Action A) (directory : Directory) (value : A) (next : Directory) : Prop :=
  program.run.run handle directory = (.ok value, next)

theorem succeeds_pure {value : A} : Succeeds (pure value) directory value directory := rfl

theorem Succeeds.bind {program : Action A} {rest : A → Action B} {value : A} {result : B}
    (hprogram : Succeeds program directory value next)
    (hrest : Succeeds (rest value) next result last) :
    Succeeds (program >>= rest) directory result last := by
  rw [Succeeds, ExceptT.run_bind, run_bind, hprogram]
  exact hrest

theorem Succeeds.map {program : Action A} {value : A}
    (hprogram : Succeeds program directory value next) (f : A → B) :
    Succeeds (f <$> program) directory (f value) next :=
  hprogram.bind (succeeds_pure : Succeeds (pure (f value)) next (f value) next)

theorem succeeds_check {result : Except Failure A} {value : A} (h : result = .ok value) :
    Succeeds (check result) directory value directory := by
  rw [h]
  rfl

theorem succeeds_require {condition : Prop} [Decidable condition] {failure : Failure}
    (h : condition) : Succeeds (check (require condition failure)) directory () directory :=
  succeeds_check (require_eq_ok.mpr h)

theorem succeeds_listRoot : Succeeds listRoot directory directory.root.names directory := rfl

theorem succeeds_read : Succeeds read directory directory directory := rfl

theorem succeeds_change {effect : Effect} {outcome : Outcome}
    (h : apply effect directory = (outcome, next)) :
    Succeeds (act (.change effect)) directory outcome next := by
  show (Except.ok (apply effect directory).1, (apply effect directory).2) = _
  rw [h]
  rfl

theorem succeeds_demand {effect : Effect} {failure : Failure}
    (h : apply effect directory = (.done, next)) :
    Succeeds (demand effect failure) directory () next :=
  (succeeds_change h).bind (succeeds_require rfl)

theorem succeeds_layout (hone : directory.root.staging.length ≤ 1) :
    Succeeds layout directory () directory := by
  refine succeeds_listRoot.bind (succeeds_listRoot.bind ((succeeds_require ?_).bind
    (succeeds_require ?_)))
  · rw [List.all_eq_true]
    intro name hname
    exact List.contains_iff_mem.mpr hname
  · rw [Root.names, List.length_map]
    exact hone

end Runs

section Heads

variable {codec : Codec} {records : List Record} {record : Record} {directory : Directory}
  {head : Head}

def Directory.withHead (directory : Directory) (head : Head) : Directory :=
  { directory with root := ⟨some head, []⟩, unsynced := [] }

theorem succeeds_writeHead (hsize : codec.headSize head ≤ maxHeadBytes)
    (hempty : directory.root.staging = []) :
    Succeeds (writeHead codec head) directory () (directory.withHead head) := by
  obtain ⟨files, ⟨old, staging⟩, unsynced⟩ := directory
  cases hempty
  let name : StagingName := ⟨0, 0⟩
  let staged : Directory := ⟨files, ⟨old, [⟨name, some head, true⟩]⟩, []⟩
  have hcreate : Succeeds (createFile (.staging name head)) ⟨files, ⟨old, []⟩, unsynced⟩ ()
      ⟨files, ⟨old, [⟨name, none, false⟩]⟩, ⟨old, []⟩ :: unsynced⟩ := rfl
  have hwrite : Succeeds (writeNoReplace (.staging name head)) ⟨files, ⟨old, []⟩, unsynced⟩ ()
      staged := by
    refine hcreate.bind ((succeeds_demand rfl).bind ((succeeds_demand rfl).bind
      ((succeeds_demand rfl).bind (succeeds_read.bind (succeeds_require ?_)))))
    show staged.holds (.staging name head) = true
    simp [Directory.holds, staged]
  have hpublish : Succeeds (publishHead name) staged () ⟨files, ⟨some head, []⟩, []⟩ := rfl
  refine (succeeds_require hsize).bind ?_
  refine Succeeds.bind (rfl : Succeeds (act .pickStaging) _ name _) ?_
  refine succeeds_listRoot.bind ((succeeds_require rfl).bind (hwrite.bind (hpublish.bind ?_)))
  exact succeeds_read.bind (succeeds_require rfl)

/-- The head names all records, or all but the last one, and at most one file is staged. -/
def Root.Near (codec : Codec) (records : List Record) (root : Root) : Prop :=
  root.staging.length ≤ 1 ∧ (root.head = some (headOf codec records) ∨
    ∃ earlier tail, records = earlier ++ [tail] ∧ root.head = some (headOf codec earlier))

/-- The registry of these records, up to what an entry of the writer puts in order. -/
structure Recoverable (codec : Codec) (records : List Record) (directory : Directory) : Prop where
  contents : contents directory.records = entries records
  chain : Chain codec records
  near : directory.root.Near codec records

structure Ordered (codec : Codec) (records : List Record) (directory : Directory) : Prop where
  contents : contents directory.records = entries records
  chain : Chain codec records
  root : directory.root = ⟨some (headOf codec records), []⟩

theorem Ordered.recoverable (h : Ordered codec records directory) :
    Recoverable codec records directory :=
  ⟨h.contents, h.chain, by rw [h.root]; exact ⟨Nat.zero_le 1, .inl rfl⟩⟩

theorem succeeds_scan_covered (hcontents : contents directory.records = entries records)
    (hchain : Chain codec records) (hone : directory.root.staging.length ≤ 1)
    (hhead : directory.root.head = some (headOf codec records)) (repairTail : Bool) :
    Succeeds (scan codec repairTail) directory (headOf codec records, records) directory := by
  obtain ⟨found, hscan, rfl⟩ := hchain.scan hcontents
  refine (succeeds_layout hone).bind (succeeds_read.bind ?_)
  refine (succeeds_check (hchain.readHead hhead)).bind ((succeeds_check hscan).bind ?_)
  rw [if_pos headOf_covers]
  exact succeeds_pure

theorem succeeds_scan_lagging {earlier : List Record} {tail : Record}
    (hcontents : contents directory.records = entries (earlier ++ [tail]))
    (hchain : Chain codec (earlier ++ [tail])) (hempty : directory.root.staging = [])
    (hhead : directory.root.head = some (headOf codec earlier)) :
    Succeeds (scan codec true) directory (headOf codec (earlier ++ [tail]), earlier ++ [tail])
      (directory.withHead (headOf codec (earlier ++ [tail]))) := by
  obtain ⟨found, hscan, hrecords⟩ := hchain.scan hcontents
  refine (succeeds_layout (by rw [hempty]; exact Nat.zero_le 1)).bind (succeeds_read.bind ?_)
  refine (succeeds_check (hchain.split.1.readHead hhead)).bind ((succeeds_check hscan).bind ?_)
  rw [hrecords, if_neg headOf_append_covers]
  refine (succeeds_check hchain.tailHead).bind ?_
  exact (succeeds_writeHead hchain.headSize hempty).bind succeeds_pure

theorem Root.Near.scan (h : directory.root.Near codec records)
    (hempty : directory.root.staging = []) (hchain : Chain codec records)
    (hcontents : Registry.contents directory.records = entries records) :
    ∃ next, Succeeds (scan codec true) directory (headOf codec records, records) next ∧
      next.records = directory.records ∧ Ordered codec records next := by
  rcases h.2 with hhead | ⟨earlier, tail, rfl, hhead⟩
  · refine ⟨directory, succeeds_scan_covered hcontents hchain h.1 hhead true, rfl, hcontents,
      hchain, ?_⟩
    rw [← hhead, ← hempty]
  · exact ⟨_, succeeds_scan_lagging hcontents hchain hempty hhead, rfl, hcontents, hchain, rfl⟩

theorem succeeds_removeStaging (hone : directory.root.staging.length ≤ 1) :
    ∃ next, Succeeds (removeStaging directory.root.names) directory () next ∧
      next.records = directory.records ∧ next.root = ⟨directory.root.head, []⟩ := by
  obtain ⟨files, ⟨old, staging⟩, unsynced⟩ := directory
  cases staging with
  | nil => exact ⟨_, succeeds_pure, rfl, rfl⟩
  | cons file rest =>
    have hrest : rest.length ≤ 0 := Nat.le_of_succ_le_succ hone
    obtain rfl := List.length_eq_zero_iff.mp (Nat.le_zero.mp hrest)
    have hunlink : apply (.unlink file.name) ⟨files, ⟨old, [file]⟩, unsynced⟩ =
        (.done, ⟨files, ⟨old, []⟩, ⟨old, [file]⟩ :: unsynced⟩) := by
      simp [apply, handleUnlink, Root.names, Root.remove, Directory.change]
    exact ⟨⟨files, ⟨old, []⟩, []⟩, (succeeds_demand hunlink).bind (succeeds_demand rfl), rfl, rfl⟩

theorem Recoverable.enter (h : Recoverable codec records directory) :
    ∃ next, Succeeds (enter codec) directory () next ∧ next.records = directory.records ∧
      Ordered codec records next := by
  obtain ⟨cleared, hcleared, hfiles, hroot⟩ := succeeds_removeStaging h.near.1
  have hnear : cleared.root.Near codec records := by
    rw [hroot]
    exact ⟨Nat.zero_le 1, h.near.2⟩
  have hcontents : Registry.contents cleared.records = entries records := by
    rw [hfiles, h.contents]
  obtain ⟨next, hscan, hsame, hordered⟩ :=
    hnear.scan (by rw [hroot]) h.chain hcontents
  refine ⟨next, ?_, hsame.trans hfiles, hordered⟩
  refine succeeds_listRoot.bind ((succeeds_require ?_).bind (hcleared.bind (hscan.map _)))
  rw [Root.names, List.length_map]
  exact h.near.1

theorem succeeds_beforeLock (hone : directory.root.staging.length ≤ 1) :
    Succeeds beforeLock directory () directory :=
  (succeeds_layout hone).bind (succeeds_layout hone)

theorem Recoverable.writer (h : Recoverable codec records directory) :
    ∃ next, Succeeds (writer codec) directory () next ∧ next.records = directory.records ∧
      Ordered codec records next := by
  obtain ⟨next, henter, hsame, hordered⟩ := h.enter
  exact ⟨next, (succeeds_beforeLock h.near.1).bind henter, hsame, hordered⟩

theorem Ordered.scan (h : Ordered codec records directory) (repairTail : Bool) :
    Succeeds (scan codec repairTail) directory (headOf codec records, records) directory :=
  succeeds_scan_covered h.contents h.chain (by rw [h.root]; exact Nat.zero_le 1)
    (by rw [h.root]) repairTail

theorem Ordered.writer (h : Ordered codec records directory) :
    Succeeds (writer codec) directory () directory := by
  have hnames : directory.root.names = [] := by
    rw [h.root]
    rfl
  refine (succeeds_beforeLock h.recoverable.near.1).bind ?_
  refine succeeds_listRoot.bind ?_
  rw [hnames]
  exact (succeeds_require (Nat.zero_le 1)).bind (succeeds_pure.bind ((h.scan true).map _))

theorem name_lt_of_contents (hcontents : contents directory.records = entries records)
    (hchain : Chain codec records) {file : Slot Name Record} (hfile : file ∈ directory.records) :
    file.name.sequence < records.length := by
  have hmem : (file.name, file.content) ∈ entries records := by
    rw [← hcontents]
    exact List.mem_map_of_mem hfile
  obtain ⟨other, hother, hsame⟩ := List.mem_map.mp hmem
  rw [← (Prod.mk.inj hsame).1]
  exact hchain.sequence_lt hother

section Append

variable {call : Call} {legacy : List Str}

section

variable (hcontents : contents directory.records = entries records)
  (hchain : Chain codec records)
  (hadds : call.Adds codec legacy records record)
include hcontents hchain hadds

theorem create_record :
    apply (.create (.record record)) directory = (.done, { directory with
      records := directory.records ++ [⟨record.name, none, false, false⟩] }) := by
  have hcreate : NumberedFiles.create Name.sequence record.name directory.records =
      some (directory.records ++ [⟨record.name, none, false, false⟩]) := by
    refine create_last fun file hfile => ?_
    show file.name.sequence < record.sequence
    rw [hadds.sequence]
    exact name_lt_of_contents hcontents hchain hfile
  rw [apply, handleCreate, hcreate]

theorem name_ne_of_contents {file : Slot Name Record} (hfile : file ∈ directory.records) :
    file.name ≠ record.name := by
  intro hname
  have hlt := name_lt_of_contents hcontents hchain hfile
  rw [hname, Record.name, hadds.sequence] at hlt
  exact Nat.lt_irrefl _ hlt

theorem write_record (slot : Slot Name Record) (hname : slot.name = record.name) :
    NumberedFiles.write record.name record (directory.records ++ [slot]) =
      directory.records ++ [{ slot with content := some record }] :=
  update_last hname fun _ hfile => name_ne_of_contents hcontents hchain hadds hfile

theorem flush_record (slot : Slot Name Record) (hname : slot.name = record.name) :
    flush record.name (directory.records ++ [slot]) =
      directory.records ++ [{ slot with flushed := true }] :=
  update_last hname fun _ hfile => name_ne_of_contents hcontents hchain hadds hfile

end

theorem contents_settle (files : List (Slot Name Record)) :
    contents (settle files) = contents files := by
  rw [contents, settle, List.map_map]
  rfl

theorem succeeds_writeRecord (h : Ordered codec records directory)
    (hadds : call.Adds codec legacy records record) :
    Succeeds (writeNoReplace (.record record)) directory () { directory with
        records := settle (directory.records ++ [⟨record.name, some record, true, false⟩]) } := by
  obtain ⟨files, root, unsynced⟩ := directory
  have hcreate : Succeeds (createFile (.record record)) ⟨files, root, unsynced⟩ ()
      ⟨files ++ [⟨record.name, none, false, false⟩], root, unsynced⟩ := by
    have hcreated := succeeds_change (create_record h.contents h.chain hadds)
    exact hcreated.bind ((succeeds_require nofun).bind (succeeds_require nofun))
  have hwrite : apply (.write (.record record))
      ⟨files ++ [⟨record.name, none, false, false⟩], root, unsynced⟩ =
        (.done, ⟨files ++ [⟨record.name, some record, false, false⟩], root, unsynced⟩) := by
    rw [apply, handleWrite, write_record h.contents h.chain hadds _ rfl]
  have hflush : apply (.sync (.record record))
      ⟨files ++ [⟨record.name, some record, false, false⟩], root, unsynced⟩ =
        (.done, ⟨files ++ [⟨record.name, some record, true, false⟩], root, unsynced⟩) := by
    rw [apply, handleSync, flush_record h.contents h.chain hadds _ rfl]
  refine hcreate.bind ((succeeds_demand hwrite).bind ((succeeds_demand hflush).bind
    ((succeeds_demand rfl).bind (succeeds_read.bind (succeeds_require ?_)))))
  rw [Directory.holds, List.any_eq_true]
  refine ⟨⟨record.name, some record, true, true⟩, ?_, by simp⟩
  show _ ∈ settle (files ++ [⟨record.name, some record, true, false⟩])
  rw [settle, List.map_append]
  exact List.mem_append_right _ (List.mem_singleton_self _)

theorem succeeds_append {draft : Body} (h : Ordered codec records directory)
    (hplan : call.plan codec legacy records = .ok (.append draft))
    (hcheck : checkAppend codec records draft = .ok record) :
    ∃ next, Succeeds (append codec draft) directory
      ⟨record, some (headOf codec (records ++ [record]))⟩ next ∧
      Ordered codec (records ++ [record]) next := by
  have hadds : call.Adds codec legacy records record := ⟨draft, hplan, hcheck⟩
  have hchain := h.chain.append hadds
  let written : Directory := { directory with
    records := settle (directory.records ++ [⟨record.name, some record, true, false⟩]) }
  let headed := written.withHead (headOf codec (records ++ [record]))
  let final : Directory := { headed with records := settle headed.records }
  have hcontents : contents final.records = entries (records ++ [record]) := by
    show contents (settle (settle (directory.records ++ _))) = _
    rw [contents_settle, contents_settle, contents_append, h.contents, entries_append]
  have hordered : Ordered codec (records ++ [record]) final := ⟨hcontents, hchain, rfl⟩
  refine ⟨final, ?_, hordered⟩
  refine (succeeds_layout h.recoverable.near.1).bind ((h.scan false).bind ?_)
  refine (succeeds_check hcheck).bind ((succeeds_writeRecord h hadds).bind ?_)
  rw [headValue_append]
  have hempty : written.root.staging = [] := by
    show directory.root.staging = []
    rw [h.root]
  refine (succeeds_writeHead hchain.headSize hempty).bind ?_
  have hrecords : Succeeds (fsyncFolder .records) headed () final := succeeds_demand rfl
  have hroot : Succeeds (fsyncFolder .root) final () final := succeeds_demand rfl
  exact hrecords.bind (hroot.bind (((hordered.scan false).map _).bind succeeds_pure))

theorem Recoverable.program (h : Recoverable codec records directory)
    (hvalid : call.validate codec = .ok ()) (hadds : call.Adds codec legacy records record) :
    ∃ next, Succeeds (call.program codec legacy) directory
      (some ⟨record, some (headOf codec (records ++ [record]))⟩) next ∧
      Ordered codec (records ++ [record]) next := by
  obtain ⟨draft, hplan, hcheck⟩ := hadds
  obtain ⟨entered, henter, -, hordered⟩ := h.enter
  obtain ⟨next, happend, hnext⟩ := succeeds_append hordered hplan hcheck
  refine ⟨next, ?_, hnext⟩
  refine ((succeeds_check hvalid).bind (succeeds_beforeLock h.near.1)).bind ?_
  refine henter.bind ((hordered.scan false).bind ((succeeds_check hplan).bind ?_))
  exact happend.map some

end Append

end Heads

end NativeInitLab.Registry
