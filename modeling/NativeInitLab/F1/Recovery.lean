import NativeInitLab.F1.Chain

namespace NativeInitLab.F1

open CrashProgram CrashProgram.Program Lockstep NumberedFiles

/-! A process that is killed during an append, and the journal that the next one opens. -/

section Readable

variable (codec : Codec) (binding : Str)

structure Listed (directory : RunDirectory) (records : List Record) : Prop where
  journal : directory.journal = records.map fileOf
  chain : Chain codec binding records

structure Readable (directory : RunDirectory) (records : List Record) : Prop
    extends Listed codec binding directory records where
  head : ∃ (index : Nat) (record : Record), records[index]? = some record ∧
    directory.head = some (headOf binding record)

end Readable

def RunDirectory.restart (directory : RunDirectory) : RunDirectory :=
  { directory with journal := directory.journal.map Slot.kept }

def RunDirectory.staged (directory : RunDirectory) (slot : Slot Name Record) : RunDirectory :=
  { directory with journal := directory.journal ++ [slot] }

section Reading

variable {codec : Codec} {binding : Str} {directory : RunDirectory} {records : List Record}
  {record : Record}

theorem map_kept_fileOf : (records.map fileOf).map Slot.kept = records.map fileOf := by
  rw [List.map_map]
  rfl

theorem settled_fileOf : Settled (records.map fileOf) := by
  intro file hfile
  obtain ⟨record, -, rfl⟩ := List.mem_map.mp hfile
  exact ⟨rfl, rfl⟩

theorem headCount_headOf {index : Nat} (hrecord : records[index]? = some record)
    (hsequence : record.sequence = index) :
    headCount binding (some (headOf binding record)) records = .ok (index + 1) := by
  cases records with
  | nil => cases hrecord
  | cons first rest =>
    have hlt : index < (first :: rest).length := by
      by_contra hlarge
      rw [List.getElem?_eq_none (by omega)] at hrecord
      cases hrecord
    refine require_bind_eq_ok.mpr ⟨⟨rfl, ?_, ?_, ?_, ?_⟩, ?_⟩
    · exact Nat.le_add_left 1 _
    · rw [headOf, hsequence]
      exact hlt
    · exact (Nat.add_sub_cancel ..).symm
    · rw [headOf, Nat.add_sub_cancel, hsequence, hrecord]
      rfl
    · rw [headOf, hsequence]
      rfl

theorem Readable.read (h : Readable codec binding directory records) :
    directory.records codec binding = .ok records := by
  obtain ⟨index, record, hrecord, hhead⟩ := h.head
  obtain ⟨scan, hscan, hrecords, -⟩ := h.chain
  rw [RunDirectory.records, readRecords, h.journal, hscan, ok_bind, hhead, hrecords,
    headCount_headOf hrecord (h.chain.sequence hrecord)]
  rfl

theorem Readable.restart (h : Readable codec binding directory records) :
    Readable codec binding directory.restart records :=
  ⟨⟨by rw [RunDirectory.restart, h.journal, map_kept_fileOf], h.chain⟩, h.head⟩

theorem torn_unreadable (h : Listed codec binding directory records) (name : Name)
    {flushed settled : Bool} :
    ∃ failure, (directory.staged ⟨name, none, flushed, settled⟩).restart.records codec binding =
      .error failure := by
  obtain ⟨scan, hscan, -, -⟩ := h.chain
  refine ⟨s!"journal record {scan.records.length} is not valid JSON", ?_⟩
  rw [RunDirectory.records, readRecords, RunDirectory.restart, RunDirectory.staged, h.journal,
    List.map_append, map_kept_fileOf, List.foldlM_append, hscan, ok_bind]
  rfl

end Reading

section Writing

variable {codec : Codec} {binding : Str} {directory : RunDirectory} {records : List Record}
  {record : Record}

theorem readable_writeHead {A : Type} (result : A)
    (h : Readable codec binding directory records) {index : Nat}
    (hrecord : records[index]? = some record) (count : Nat) :
    Readable codec binding
      (runFor handle count (writeHead binding record >>= fun _ => pure result) directory)
      records := by
  have hkept (temporary oldHead : Option Head) :
      Readable codec binding { directory with temporary, oldHead } records :=
    ⟨⟨h.journal, h.chain⟩, h.head⟩
  have hnew (oldHead : Option Head) : Readable codec binding { directory with
      temporary := some (headOf binding record)
      head := some (headOf binding record)
      oldHead } records := ⟨⟨h.journal, h.chain⟩, index, record, hrecord, rfl⟩
  match count with
  | 0 => exact h
  | 1 => exact hkept _ _
  | 2 => exact hkept _ _
  | 3 => exact hkept _ _
  | 4 => exact hkept _ _
  | 5 => exact hnew _
  | count + 6 =>
    cases count with
    | zero => exact hnew _
    | succ count => exact hnew _

section

variable (h : Listed codec binding directory records)
include h

theorem Listed.earlier {file : Slot Name Record} (hfile : file ∈ directory.journal) :
    file.name.sequence < records.length := by
  rw [h.journal] at hfile
  obtain ⟨other, hother, rfl⟩ := List.mem_map.mp hfile
  obtain ⟨index, hindex⟩ := List.mem_iff_getElem?.mp hother
  have hlt : index < records.length := by
    by_contra hlarge
    rw [List.getElem?_eq_none (by omega)] at hindex
    cases hindex
  rw [← h.chain.sequence hindex] at hlt
  exact hlt

theorem Listed.creates (hnext : record.sequence = records.length) :
    handle (.createRecord record.name) directory =
      (true, directory.staged ⟨record.name, none, false, false⟩) := by
  have hcreate : create Name.sequence record.name directory.journal =
      some (directory.journal ++ [⟨record.name, none, false, false⟩]) :=
    create_last fun file hfile => Nat.lt_of_lt_of_eq (h.earlier hfile) hnext.symm
  rw [handle, hcreate]
  rfl

theorem Listed.updates (hnext : record.sequence = records.length) {slot : Slot Name Record}
    (hname : slot.name = record.name) (change : Slot Name Record → Slot Name Record) :
    update record.name change (directory.journal ++ [slot]) =
      directory.journal ++ [change slot] := by
  refine update_last hname fun file hfile heq => ?_
  have hlt := h.earlier hfile
  rw [heq] at hlt
  exact absurd hnext (Nat.ne_of_lt hlt)

theorem Listed.settles (record : Record) :
    settle (directory.journal ++ [⟨record.name, some record, true, false⟩]) =
      directory.journal ++ [fileOf record] := by
  rw [h.journal, NumberedFiles.settle, List.map_append]
  exact congrArg (· ++ [fileOf record]) (settle_of_settled settled_fileOf)

theorem runFor_store (hnext : record.sequence = records.length)
    (hsize : codec.size record ≤ maxRecord) (count : Nat) :
    runFor handle count (store codec binding record) directory =
      match count with
      | 0 => directory
      | 1 => directory.staged ⟨record.name, none, false, false⟩
      | 2 => directory.staged ⟨record.name, some record, false, false⟩
      | 3 => directory.staged ⟨record.name, some record, true, false⟩
      | count + 4 => runFor handle count
          (writeHead binding record >>= fun _ => pure (Except.ok () : Except String Unit))
          (directory.staged (fileOf record)) := by
  rw [store, if_pos hsize]
  match count with
  | 0 => rfl
  | count + 1 =>
    change runFor handle count ((fun created : Bool => if created = true then
        fill binding record else pure (.error "File exists"))
      (handle (.createRecord record.name) directory).1)
      (handle (.createRecord record.name) directory).2 = _
    rw [h.creates hnext]
    let created := directory.journal ++ [⟨record.name, none, false, false⟩]
    have hwrite : write record.name record created =
        directory.journal ++ [⟨record.name, some record, false, false⟩] :=
      h.updates hnext rfl _
    have hflush : flush record.name (write record.name record created) =
        directory.journal ++ [⟨record.name, some record, true, false⟩] := by
      rw [hwrite]
      exact h.updates hnext rfl _
    have hsettle : settle (flush record.name (write record.name record created)) =
        directory.journal ++ [fileOf record] := by
      rw [hflush]
      exact h.settles record
    match count with
    | 0 => rfl
    | 1 => exact congrArg (fun journal => { directory with journal }) hwrite
    | 2 => exact congrArg (fun journal => { directory with journal }) hflush
    | count + 3 =>
      exact congrArg (fun journal => runFor handle count
        (writeHead binding record >>= fun _ => pure (Except.ok () : Except String Unit))
        { directory with journal }) hsettle

end

theorem getElem?_last : (records ++ [record])[records.length]? = some record := by
  rw [List.getElem?_append_right (Nat.le_refl _), Nat.sub_self]
  rfl

section

variable (h : Readable codec binding directory records)
  (hchain : Chain codec binding (records ++ [record]))
include h hchain

theorem Readable.staged :
    Readable codec binding (directory.staged (fileOf record)) (records ++ [record]) := by
  obtain ⟨index, other, hother, hhead⟩ := h.head
  refine ⟨⟨?_, hchain⟩, index, other, ?_, hhead⟩
  · rw [RunDirectory.staged, h.journal, List.map_append]
    rfl
  · have hlt : index < records.length := by
      by_contra hlarge
      rw [List.getElem?_eq_none (by omega)] at hother
      cases hother
    rw [List.getElem?_append_left hlt]
    exact hother

theorem Readable.filled (hnext : record.sequence = records.length)
    (hsize : codec.size record ≤ maxRecord) (count : Nat) :
    Readable codec binding (runFor handle (count + 4) (store codec binding record) directory)
      (records ++ [record]) := by
  rw [runFor_store h.toListed hnext hsize]
  exact readable_writeHead _ (h.staged hchain) getElem?_last count

theorem Readable.cut (hnext : record.sequence = records.length)
    (hsize : codec.size record ≤ maxRecord) {count : Nat} (hcount : count ≠ 1) :
    Readable codec binding (runFor handle count (store codec binding record) directory).restart
        records ∨
      Readable codec binding (runFor handle count (store codec binding record) directory).restart
        (records ++ [record]) := by
  have hwritten (flushed : Bool) :
      (directory.staged ⟨record.name, some record, flushed, false⟩).restart =
        (directory.staged (fileOf record)).restart := by
    simp only [RunDirectory.restart, RunDirectory.staged, List.map_append]
    rfl
  match count with
  | 0 => exact .inl h.restart
  | 1 => exact absurd rfl hcount
  | 2 =>
    rw [runFor_store h.toListed hnext hsize]
    exact .inr (hwritten false ▸ (h.staged hchain).restart)
  | 3 =>
    rw [runFor_store h.toListed hnext hsize]
    exact .inr (hwritten true ▸ (h.staged hchain).restart)
  | count + 4 => exact .inr (h.filled hchain hnext hsize count).restart

end

end Writing

section Appending

variable {codec : Codec} {binding : Str} {directory : RunDirectory} {records : List Record}
  {record : Record} {timestampUtc : Str} {call : Call}

theorem runFor_append (hread : directory.records codec binding = .ok records)
    (hprepare : prepare codec binding records timestampUtc call = .ok record) (count : Nat) :
    runFor handle (count + 1) (append codec binding timestampUtc call) directory =
      runFor handle count (store codec binding record) directory := by
  change runFor handle count (appendTo codec binding timestampUtc call directory) directory = _
  rw [appendTo, hread]
  dsimp only
  rw [hprepare]

theorem runFor_refused {failure : String} (hread : directory.records codec binding = .ok records)
    (hprepare : prepare codec binding records timestampUtc call = .error failure)
    (count : Nat) :
    runFor handle count (append codec binding timestampUtc call) directory = directory := by
  cases count with
  | zero => rfl
  | succ count =>
    change runFor handle count (appendTo codec binding timestampUtc call directory) directory = _
    rw [appendTo, hread]
    dsimp only
    rw [hprepare]
    cases count with
    | zero => rfl
    | succ count => rfl

theorem runFor_oversized (hsize : ¬ codec.size record ≤ maxRecord) (count : Nat) :
    runFor handle count (store codec binding record) directory = directory := by
  rw [store, if_neg hsize]
  cases count with
  | zero => rfl
  | succ count => rfl

theorem prepare_sequence (h : prepare codec binding records timestampUtc call = .ok record) :
    record.sequence = records.length := by
  obtain ⟨entry, -, -, -, rfl⟩ := prepare_eq_ok h
  rfl

theorem Readable.completed (h : Readable codec binding directory records)
    (timestampUtc : Str) (call : Call) : ∃ records, Readable codec binding
      ((append codec binding timestampUtc call).run handle directory).2 records := by
  obtain ⟨count, hcount⟩ := runFor_eq_run handle (append codec binding timestampUtc call) directory
  rw [← hcount (count + 5) (Nat.le_add_right _ _)]
  cases hprepare : prepare codec binding records timestampUtc call with
  | error failure =>
    rw [runFor_refused h.read hprepare]
    exact ⟨records, h⟩
  | ok record =>
    rw [runFor_append h.read hprepare]
    by_cases hsize : codec.size record ≤ maxRecord
    · exact ⟨_, h.filled (h.chain.append hprepare) (prepare_sequence hprepare) hsize count⟩
    · rw [runFor_oversized hsize]
      exact ⟨records, h⟩

theorem Readable.reopen (h : Readable codec binding directory records) :
    ((reopen codec binding).run handle directory).1 = .ok records ∧
      Readable codec binding ((reopen codec binding).run handle directory).2 records := by
  obtain ⟨index, first, hfirst, -⟩ := h.head
  cases hlast : records.getLast? with
  | none =>
    rw [List.getLast?_eq_none_iff.mp hlast] at hfirst
    cases hfirst
  | some last =>
    have hrun : (F1.reopen codec binding).run handle directory =
        (writeHead binding last >>= fun _ =>
          pure (Except.ok records : Except String (List Record))).run handle directory := by
      change (reopenFrom codec binding directory).run handle directory = _
      rw [reopenFrom, h.read]
      dsimp only
      rw [hlast]
    rw [hrun]
    refine ⟨rfl, ?_⟩
    obtain ⟨count, hcount⟩ := runFor_eq_run handle (writeHead binding last >>= fun _ =>
        pure (Except.ok records : Except String (List Record))) directory
    rw [← hcount count (Nat.le_refl _)]
    rw [List.getLast?_eq_getElem?] at hlast
    exact readable_writeHead _ h hlast count

theorem reopen_unreadable {failure : String}
    (h : directory.records codec binding = .error failure) :
    ((reopen codec binding).run handle directory).1 = .error failure := by
  change ((reopenFrom codec binding directory).run handle directory).1 = _
  rw [reopenFrom, h]
  rfl

end Appending

/-- A call, and after how many of its operations the process is killed, if it is. -/
structure Issued where
  timestampUtc : Str
  call : Call
  killed : Option Nat

section History

variable (codec : Codec) (binding : Str)

def Issued.append (issued : Issued) : Run (Except String Unit) :=
  F1.append codec binding issued.timestampUtc issued.call

/-- The directory that the process that follows a kill finds. -/
def Issued.left (issued : Issued) (count : Nat) (directory : RunDirectory) : RunDirectory :=
  (runFor handle count (issued.append codec binding) directory).restart

def Issued.leaves (issued : Issued) (directory : RunDirectory) : RunDirectory :=
  match issued.killed with
  | none => ((issued.append codec binding).run handle directory).2
  | some count =>
    ((reopen codec binding).run handle (issued.left codec binding count directory)).2

def history : RunDirectory → List Issued → List (RunDirectory × Issued)
  | _, [] => []
  | directory, issued :: rest =>
    (directory, issued) :: history (issued.leaves codec binding directory) rest

/-- After a kill the journal opens, with the records of before or with one complete new
record. -/
def Issued.Recovers (issued : Issued) (directory : RunDirectory) : Prop :=
  ∀ count, issued.killed = some count → ∃ records, directory.records codec binding = .ok records ∧
      (((reopen codec binding).run handle (issued.left codec binding count directory)).1 =
          .ok records ∨
        ∃ record, prepare codec binding records issued.timestampUtc issued.call = .ok record ∧
          ((reopen codec binding).run handle (issued.left codec binding count directory)).1 =
            .ok (records ++ [record]))

/-- The process is killed between the creation and the write of a record's file: these are the
second and the third operation, after the read. -/
def Issued.Tears (issued : Issued) (directory : RunDirectory) : Prop :=
  issued.killed = some 2 ∧ ∃ records record, directory.records codec binding = .ok records ∧
    prepare codec binding records issued.timestampUtc issued.call = .ok record ∧
    codec.size record ≤ maxRecord

end History

section Killed

variable {codec : Codec} {binding : Str} {directory : RunDirectory} {records : List Record}

section

variable (h : Readable codec binding directory records)
include h

theorem Readable.left (issued : Issued) {count : Nat} (hkilled : issued.killed = some count)
    (hwhole : ¬ issued.Tears codec binding directory) :
    Readable codec binding (issued.left codec binding count directory) records ∨
      ∃ record, prepare codec binding records issued.timestampUtc issued.call = .ok record ∧
        Readable codec binding (issued.left codec binding count directory)
          (records ++ [record]) := by
  unfold Issued.left Issued.append
  cases hprepare : prepare codec binding records issued.timestampUtc issued.call with
  | error failure =>
    rw [runFor_refused h.read hprepare]
    exact .inl h.restart
  | ok record =>
    cases count with
    | zero => exact .inl h.restart
    | succ count =>
      rw [runFor_append h.read hprepare]
      by_cases hsize : codec.size record ≤ maxRecord
      · have hcount : count ≠ 1 := by
          rintro rfl
          exact hwhole ⟨hkilled, records, record, h.read, hprepare, hsize⟩
        rcases h.cut (h.chain.append hprepare) (prepare_sequence hprepare) hsize hcount with
          hold | hnew
        · exact .inl hold
        · exact .inr ⟨record, rfl, hnew⟩
      · rw [runFor_oversized hsize]
        exact .inl h.restart

theorem Readable.not_recovers (issued : Issued) (htears : issued.Tears codec binding directory) :
    ¬ issued.Recovers codec binding directory := by
  intro hrecovers
  obtain ⟨hkilled, others, record, hothers, hprepare, hsize⟩ := htears
  rw [h.read] at hothers
  cases hothers
  obtain ⟨failure, hfailure⟩ := @torn_unreadable _ _ _ _ h.toListed record.name false false
  have hleft : issued.left codec binding 2 directory =
      (directory.staged ⟨record.name, none, false, false⟩).restart := by
    unfold Issued.left Issued.append
    rw [runFor_append h.read hprepare, runFor_store h.toListed (prepare_sequence hprepare) hsize]
  obtain ⟨found, -, hopened⟩ := hrecovers 2 hkilled
  rw [hleft, reopen_unreadable hfailure] at hopened
  rcases hopened with hold | ⟨_, -, hnew⟩
  · cases hold
  · cases hnew

theorem Readable.recovers_iff (issued : Issued) :
    issued.Recovers codec binding directory ↔ ¬ issued.Tears codec binding directory := by
  constructor
  · exact fun hrecovers htears => h.not_recovers issued htears hrecovers
  · intro hwhole count hkilled
    refine ⟨records, h.read, ?_⟩
    rcases h.left issued hkilled hwhole with hold | ⟨record, hprepare, hnew⟩
    · exact .inl hold.reopen.1
    · exact .inr ⟨record, hprepare, hnew.reopen.1⟩

theorem Readable.leaves (issued : Issued) (hwhole : ¬ issued.Tears codec binding directory) :
    ∃ records, Readable codec binding (issued.leaves codec binding directory) records := by
  unfold Issued.leaves
  cases hkilled : issued.killed with
  | none => exact h.completed issued.timestampUtc issued.call
  | some count =>
    rcases h.left issued hkilled hwhole with hold | ⟨record, -, hnew⟩
    · exact ⟨_, hold.reopen.2⟩
    · exact ⟨_, hnew.reopen.2⟩

end

theorem history_recovers_iff (h : Readable codec binding directory records) (calls : List Issued) :
    (∀ entry ∈ history codec binding directory calls, entry.2.Recovers codec binding entry.1) ↔
      ∀ entry ∈ history codec binding directory calls, ¬ entry.2.Tears codec binding entry.1 := by
  induction calls generalizing directory records with
  | nil => simp [history]
  | cons issued calls ih =>
    simp only [history, List.forall_mem_cons]
    rw [h.recovers_iff issued]
    refine and_congr_right fun hwhole => ?_
    obtain ⟨records, hnext⟩ := h.leaves issued hwhole
    exact ih hnext

theorem created_eq {timestampUtc : Str} {details : Details}
    (h : (createJournal codec binding timestampUtc details).run handle {} = (.ok (), directory)) :
    ∃ record, prepare codec binding [] timestampUtc
        (.transition .preflight "ok".toList details) = .ok record ∧
      directory = {
        journal := [fileOf record]
        head := some (headOf binding record)
        oldHead := some (headOf binding record)
        temporary := some (headOf binding record) } := by
  have hempty : Listed codec binding {} [] := ⟨rfl, chain_nil⟩
  have hnext : RunState.preflight ∈ nextStates (currentState []) := by decide
  have hprepare := @prepare_transition codec binding [] timestampUtc .preflight details hnext
  set record := newRecord codec binding [] timestampUtc
    ⟨.transition, .preflight, stateAction .preflight, "ok".toList, details⟩
  have hrun : (createJournal codec binding timestampUtc details).run handle {} =
      (store codec binding record).run handle {} := by
    change (appendTo codec binding timestampUtc
      (.transition .preflight "ok".toList details) {}).run handle {} = _
    have hread : RunDirectory.records codec binding {} = .ok [] := rfl
    rw [appendTo, hread]
    dsimp only
    rw [hprepare]
  rw [hrun] at h
  by_cases hsize : codec.size record ≤ maxRecord
  · obtain ⟨count, hcount⟩ := runFor_eq_run handle (store codec binding record) {}
    have hfinal : runFor handle (count + 7 + 4) (store codec binding record) {} =
        directory := by rw [hcount _ (by omega), h]
    rw [runFor_store hempty rfl hsize] at hfinal
    exact ⟨record, hprepare, hfinal.symm⟩
  · rw [store, if_neg hsize] at h
    cases h

theorem created_readable {timestampUtc : Str} {details : Details}
    (h : (createJournal codec binding timestampUtc details).run handle {} = (.ok (), directory)) :
    ∃ records, Readable codec binding directory records := by
  obtain ⟨record, hprepare, rfl⟩ := created_eq h
  have hchain : Chain codec binding ([] ++ [record]) := chain_nil.append hprepare
  exact ⟨[record], ⟨rfl, hchain⟩, 0, record, rfl, rfl⟩

end Killed

/-- Over every history of calls and kills of a created journal: after every kill the journal
opens with the records of before or one more, if and only if no kill falls between the creation
and the write of a record's file. -/
theorem journal_recovers_iff {codec : Codec} {binding timestampUtc : Str} {details : Details}
    {directory : RunDirectory}
    (hcreated : (createJournal codec binding timestampUtc details).run handle {} =
      (.ok (), directory)) (calls : List Issued) :
    (∀ entry ∈ history codec binding directory calls, entry.2.Recovers codec binding entry.1) ↔
      ∀ entry ∈ history codec binding directory calls, ¬ entry.2.Tears codec binding entry.1 := by
  obtain ⟨records, hreadable⟩ := created_readable hcreated
  exact history_recovers_iff hreadable calls

namespace Sample

def created : RunDirectory :=
  ((createJournal codec binding [] noDetails).run handle {}).2

theorem creates : (createJournal codec binding [] noDetails).run handle {} = (.ok (), created) :=
  rfl

def approval (count : Nat) : Issued := ⟨[], .transition .approved "ok".toList noDetails, some count⟩

end Sample

theorem journal_recovers_written_record :
    (createJournal Sample.codec Sample.binding [] noDetails).run handle {} =
        (.ok (), Sample.created) ∧
      ∀ entry ∈ history Sample.codec Sample.binding Sample.created [Sample.approval 3],
        entry.2.Recovers Sample.codec Sample.binding entry.1 := by
  refine ⟨Sample.creates, (journal_recovers_iff Sample.creates _).mpr ?_⟩
  intro entry hentry htears
  rw [history, history, List.mem_singleton] at hentry
  subst hentry
  exact absurd htears.1 (by decide)

/-- The empty file of the killed approval makes the journal unreadable for good. -/
theorem empty_record_closes_the_journal :
    (createJournal Sample.codec Sample.binding [] noDetails).run handle {} =
        (.ok (), Sample.created) ∧
      ((reopen Sample.codec Sample.binding).run handle
        ((Sample.approval 2).left Sample.codec Sample.binding 2 Sample.created)).1 =
          .error "journal record 1 is not valid JSON" :=
  ⟨Sample.creates, rfl⟩

end NativeInitLab.F1
