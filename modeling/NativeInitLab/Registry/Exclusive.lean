import NativeInitLab.Library.LockedCalls
import NativeInitLab.Registry.Release

namespace NativeInitLab.Registry

open CrashProgram CrashProgram.Program Lockstep NumberedFiles
open F1 (Str)

/-! Claims of any number of processes: two claims of one candidate both succeed only with a
release of the first between them. -/

/-! The operations of a program. -/

section Performs

variable {A B : Type} {allowed : Op → Prop}

def Performs (allowed : Op → Prop) (program : Action A) : Prop := program.run.Only allowed

theorem performs_pure {value : A} : Performs allowed (pure value) := trivial

theorem performs_throw {failure : Failure} : Performs allowed (throw failure : Action A) := trivial

theorem Performs.bind {program : Action A} {rest : A → Action B}
    (hprogram : Performs allowed program) (hrest : ∀ value, Performs allowed (rest value)) :
    Performs allowed (program >>= rest) := by
  refine only_bind hprogram fun result => ?_
  cases result with
  | ok value => exact hrest value
  | error failure => exact trivial

theorem Performs.map {program : Action A} (hprogram : Performs allowed program) (f : A → B) :
    Performs allowed (f <$> program) := by
  show Performs allowed (program >>= fun value => pure (f value))
  exact hprogram.bind fun _ => performs_pure

theorem performs_act {op : Op} (hop : allowed op) : Performs allowed (act op) :=
  ⟨hop, fun _ => trivial⟩

theorem performs_check {result : Except Failure A} : Performs allowed (check result) := trivial

theorem performs_listRoot (hlist : allowed .listRoot) : Performs allowed listRoot := by
  refine (performs_act hlist).bind fun found => ?_
  cases found with
  | none => exact performs_throw
  | some names => exact performs_pure

theorem performs_layout (hlist : allowed .listRoot) : Performs allowed layout :=
  (performs_listRoot hlist).bind fun _ => (performs_listRoot hlist).bind fun _ =>
    performs_check.bind fun _ => performs_check

end Performs

section RootOnly

def RootOp : Op → Prop
  | .change (.create (.record _)) => False
  | .change (.write (.record _)) => False
  | .change (.sync (.record _)) => False
  | .change (.syncFolder .records) => False
  | _ => True

variable {A : Type}

theorem rootOnly_read : Performs RootOp read := by
  refine (performs_act (by trivial)).bind fun found => ?_
  cases found with
  | none => exact performs_throw
  | some directory => exact performs_pure

theorem rootOnly_demand {effect : Effect} {failure : Failure} (heffect : RootOp (.change effect)) :
    Performs RootOp (demand effect failure) :=
  (performs_act heffect).bind fun _ => performs_check

theorem rootOnly_writeStaging {name : StagingName} {head : Head} :
    Performs RootOp (writeNoReplace (.staging name head)) := by
  have hcreate : Performs RootOp (createFile (.staging name head)) :=
    (performs_act (by trivial)).bind fun _ => performs_check.bind fun _ => performs_check
  refine hcreate.bind fun _ => (rootOnly_demand (by trivial)).bind fun _ => ?_
  refine (rootOnly_demand (by trivial)).bind fun _ => (rootOnly_demand (by trivial)).bind fun _ => ?_
  exact rootOnly_read.bind fun _ => performs_check

theorem rootOnly_publishHead {name : StagingName} : Performs RootOp (publishHead name) := by
  refine (performs_act (by trivial)).bind fun (replaced : Outcome) => ?_
  by_cases hreplaced : replaced = .done
  · rw [if_pos hreplaced]
    exact rootOnly_demand (by trivial)
  · rw [if_neg hreplaced]
    exact ((performs_act (by trivial)).map _).bind fun _ => performs_throw

variable {codec : Codec}

theorem rootOnly_writeHead {head : Head} : Performs RootOp (writeHead codec head) := by
  refine performs_check.bind fun _ => (performs_act (by trivial)).bind fun _ => ?_
  refine (performs_listRoot (by trivial)).bind fun _ => performs_check.bind fun _ => ?_
  refine rootOnly_writeStaging.bind fun _ => rootOnly_publishHead.bind fun _ => ?_
  exact rootOnly_read.bind fun _ => performs_check

theorem rootOnly_scan {repairTail : Bool} : Performs RootOp (scan codec repairTail) := by
  refine (performs_layout (by trivial)).bind fun _ => rootOnly_read.bind fun _ => ?_
  refine performs_check.bind fun head => performs_check.bind fun found => ?_
  by_cases hcovers : head.Covers found.records
  · rw [if_pos hcovers]
    exact performs_pure
  · rw [if_neg hcovers]
    cases repairTail with
    | false => exact performs_throw
    | true =>
      exact performs_check.bind fun _ => rootOnly_writeHead.bind fun _ => performs_pure

theorem rootOnly_enter : Performs RootOp (enter codec) := by
  refine (performs_listRoot (by trivial)).bind fun staged => performs_check.bind fun _ => ?_
  refine Performs.bind ?_ fun _ => rootOnly_scan.map _
  cases staged with
  | nil => exact performs_pure
  | cons name rest => exact (rootOnly_demand (by trivial)).bind fun _ => rootOnly_demand (by trivial)

theorem records_of_rootOp {op : Op} {directory next : Directory} {answer : Answer op}
    (hop : RootOp op) (hafter : After op directory answer next) :
    next.records = directory.records := by
  cases op with
  | listRoot => rw [hafter.2]
  | read => rw [hafter.2]
  | pickStaging => rw [show next = directory from hafter]
  | change effect =>
    have heffect : (apply effect directory).2.records = directory.records := by
      cases effect with
      | create file =>
        cases file with
        | record record => exact hop.elim
        | staging name head =>
          rw [apply, handleCreate]
          split
          · rfl
          · rfl
      | write file =>
        cases file with
        | record record => exact hop.elim
        | staging name head => rfl
      | sync file =>
        cases file with
        | record record => exact hop.elim
        | staging name head => rfl
      | syncFolder folder =>
        cases folder with
        | records => exact hop.elim
        | root => rfl
      | unlink name =>
        rw [apply, handleUnlink]
        split
        · rfl
        · rfl
      | replaceHead name =>
        rw [apply, handleReplace]
        split
        · rfl
        · rfl
    rcases hafter with happlied | ⟨-, rfl | rfl⟩
    · rw [happlied] at heffect
      exact heffect
    · rfl
    · exact heffect

variable {inv : Directory → Prop} (good : List (Slot Name Record) → Prop)

theorem guarded_rootOnly (hinv : ∀ directory, good directory.records → inv directory)
    {program : Action A} (honly : Performs RootOp program) :
    Guarded inv (fun directory => good directory.records) program
      fun _ directory => good directory.records := by
  intro directory hgood
  have hholds : Holds machine inv program.run (fun _ next => good next.records) directory := by
    refine holds_only (fun directory hkept => hinv directory hkept) ?_ ?_ honly hgood.2
    · intro op before next _ _ hduring
      exact hduring.elim
    · intro op before answer next hop hkept hafter
      rw [records_of_rootOp hop hafter]
      exact hkept
  refine hholds.mono fun result next hnext => ?_
  cases result with
  | ok value => exact ⟨hinv next hnext, hnext⟩
  | error failure => exact hinv next hnext

structure Shows (codec : Codec) (records : List Record) (files : List (Slot Name Record)) :
    Prop where
  contents : contents files = entries records
  chain : Chain codec records

theorem entries_inj {records other : List Record} (h : entries records = entries other) :
    records = other := by
  refine List.map_injective_iff.mpr ?_ h
  intro first second hboth
  exact Option.some.inj (Prod.mk.inj hboth).2

theorem guarded_shows (hinv : ∀ directory, good directory.records → inv directory)
    (repairTail : Bool) :
    Guarded inv (fun directory => good directory.records) (scan codec repairTail)
      fun result directory => good directory.records ∧ Shows codec result.2 directory.records := by
  refine guarded_layout.bind fun _ => guarded_read.bind fun found => ?_
  refine guarded_check.bind fun head => guarded_check.bind fun scanned => ?_
  have hstart : Guarded inv (fun directory => good directory.records ∧
      Shows codec scanned.records directory.records)
      (if head.Covers scanned.records then return (head, scanned.records)
        else if repairTail = true then do
          let repaired ← check (tailHead codec head scanned.records)
          writeHead codec repaired
          return (repaired, scanned.records)
        else throw (.registry "registry head does not match records"))
      fun result directory => good directory.records ∧ Shows codec result.2 directory.records := by
    by_cases hcovers : head.Covers scanned.records
    · rw [if_pos hcovers]
      exact guarded_pure fun _ h => h
    · rw [if_neg hcovers]
      cases repairTail with
      | false => exact guarded_throw
      | true =>
        refine guarded_check.bind fun repaired => guarded_of_fact fun _ => ?_
        have hwrite := guarded_rootOnly
          (fun files => good files ∧ Shows codec scanned.records files)
          (fun directory h => hinv directory h.1) (@rootOnly_writeHead codec repaired)
        exact hwrite.bind fun _ => guarded_pure fun _ h => h
  refine hstart.mono ?_ fun _ _ h => h
  rintro directory ⟨⟨⟨hgood, rfl⟩, -⟩, hscan⟩
  exact ⟨hgood, (scanRecords_eq_ok hscan).contents, chain_of_scan hscan⟩

end RootOnly

section Receipts

variable {codec : Codec} {receipts : List Record} {record : Record} {inv : Directory → Prop}
  {files : List (Slot Name Record)}

def Kept (receipts : List Record) (files : List (Slot Name Record)) : Prop :=
  ∀ receipt ∈ receipts, fileOf receipt ∈ files

theorem Kept.earlier (h : Kept (receipts ++ [record]) files) : Kept receipts files :=
  fun receipt hreceipt => h receipt (List.mem_append_left _ hreceipt)

theorem Kept.settle (h : Kept receipts files) : Kept receipts (settle files) := by
  intro receipt hreceipt
  exact mem_settle (h receipt hreceipt) rfl

theorem Kept.crash {files after : List (Slot Name Record)} (h : Kept receipts files)
    (hcrash : Crash files after) : Kept receipts after := by
  intro receipt hreceipt
  exact hcrash.mem (h receipt hreceipt) rfl rfl

theorem Kept.update (h : Kept receipts files)
    (hfresh : ∀ receipt ∈ receipts, receipt.name ≠ record.name)
    (change : Slot Name Record → Slot Name Record) :
    Kept receipts (update record.name change files) := by
  intro receipt hreceipt
  exact mem_update_of_ne (h receipt hreceipt) (hfresh receipt hreceipt)

structure Writing (receipts : List Record) (record : Record) (state : Slot Name Record → Prop)
    (files : List (Slot Name Record)) : Prop where
  kept : Kept receipts files
  fresh : ∀ receipt ∈ receipts, receipt.name ≠ record.name
  file : ∃ slot ∈ files, slot.name = record.name ∧ state slot

theorem Writing.update {state state' : Slot Name Record → Prop}
    {change : Slot Name Record → Slot Name Record} (h : Writing receipts record state files)
    (hname : ∀ slot, (change slot).name = slot.name)
    (hstate : ∀ slot, state slot → state' (change slot)) :
    Writing receipts record state' (NumberedFiles.update record.name change files) := by
  obtain ⟨slot, hslot, hsame, hold⟩ := h.file
  refine ⟨h.kept.update h.fresh change, h.fresh, change slot, mem_update hslot hsame, ?_,
    hstate slot hold⟩
  rw [hname, hsame]

theorem create_writing {directory : Directory} (h : Kept receipts directory.records) :
    Kept receipts (apply (.create (.record record)) directory).2.records ∧
      ((apply (.create (.record record)) directory).1 = .done →
        Writing receipts record (fun _ => True)
          (apply (.create (.record record)) directory).2.records) := by
  rw [apply, handleCreate]
  cases hcreate : NumberedFiles.create Name.sequence record.name directory.records with
  | none => exact ⟨h, fun hdone => by cases hdone⟩
  | some created =>
    obtain ⟨hfresh, rfl⟩ := create_eq_some hcreate
    have hkept : Kept receipts (insert Name.sequence { name := record.name } directory.records) :=
      fun receipt hreceipt => (mem_insert _).mpr (.inr (h receipt hreceipt))
    refine ⟨hkept, fun _ => ⟨hkept, ?_, { name := record.name }, (mem_insert _).mpr (.inl rfl),
      rfl, trivial⟩⟩
    intro receipt hreceipt
    exact hfresh (fileOf receipt) (h receipt hreceipt)

variable (hinv : ∀ directory, Kept receipts directory.records → inv directory)

include hinv

theorem guarded_changeWriting {effect : Effect} {failure : Failure}
    {state state' : Slot Name Record → Prop} {change : Slot Name Record → Slot Name Record}
    (heffect : ∀ directory, (apply effect directory).2.records =
      NumberedFiles.update record.name change directory.records)
    (hname : ∀ slot, (change slot).name = slot.name)
    (hstate : ∀ slot, state slot → state' (change slot)) :
    Guarded inv (fun directory => Writing receipts record state directory.records)
      (demand effect failure)
      fun _ directory => Writing receipts record state' directory.records := by
  have hchanged (directory : Directory) (h : Writing receipts record state directory.records) :
      Writing receipts record state' (apply effect directory).2.records := by
    rw [heffect directory]
    exact h.update hname hstate
  exact guarded_demand (fun directory h => hinv _ (hchanged directory h).kept) hchanged

theorem guarded_publishRecord : Guarded inv (fun directory => Kept receipts directory.records)
      (writeNoReplace (.record record))
      fun _ directory => Kept (receipts ++ [record]) directory.records := by
  have hcreate : Guarded inv (fun directory => Kept receipts directory.records)
      (createFile (.record record)) fun _ directory =>
        Writing receipts record (fun _ => True) directory.records :=
    guarded_createFile (fun directory h => hinv _ (create_writing h).1)
      fun directory h => (create_writing h).2
  have hwrite : Guarded inv
      (fun directory => Writing receipts record (fun _ => True) directory.records)
      (demand (.write (.record record))
        (.unavailable ("cannot publish " ++ (File.record record).text))) fun _ directory =>
        Writing receipts record (fun slot => slot.content = some record) directory.records :=
    guarded_changeWriting hinv (fun _ => rfl) (fun _ => rfl) fun _ _ => rfl
  have hsync : Guarded inv (fun directory =>
        Writing receipts record (fun slot => slot.content = some record) directory.records)
      (demand (.sync (.record record))
        (.unavailable ("cannot publish " ++ (File.record record).text))) fun _ directory =>
        Writing receipts record (fun slot => slot.content = some record ∧ slot.flushed = true)
          directory.records :=
    guarded_changeWriting hinv (fun _ => rfl) (fun _ => rfl) fun _ h => ⟨h, rfl⟩
  have hsettled (directory : Directory) (h : Writing receipts record
      (fun slot => slot.content = some record ∧ slot.flushed = true) directory.records) :
      Kept (receipts ++ [record]) (apply (.syncFolder .records) directory).2.records := by
    refine List.forall_mem_append.mpr ⟨h.kept.settle, List.forall_mem_singleton.mpr ?_⟩
    obtain ⟨slot, hslot, hname, hcontent, hflushed⟩ := h.file
    have hsame : slot.kept = fileOf record := by
      rw [fileOf, Slot.complete, Slot.kept, hname, hcontent]
    rw [← hsame]
    exact mem_settle hslot hflushed
  refine hcreate.bind fun _ => hwrite.bind fun _ => hsync.bind fun _ => ?_
  have hfolder : Guarded inv (fun directory => Writing receipts record
      (fun slot => slot.content = some record ∧ slot.flushed = true) directory.records)
      (fsyncFolder .records) fun _ directory => Kept (receipts ++ [record]) directory.records :=
    guarded_demand (fun directory h => hinv _ (hsettled directory h).earlier) hsettled
  refine hfolder.bind fun _ => guarded_read.bind fun reopened => ?_
  exact guarded_require.mono (fun _ h => h) fun _ directory h => h.1.1

theorem guarded_appended {draft : Body} {records : List Record} :
    Guarded inv (fun directory => Kept receipts directory.records ∧
        Shows codec records directory.records) (append codec draft)
      fun receipt directory => Kept (receipts ++ [receipt.record]) directory.records ∧
        checkAppend codec records draft = .ok receipt.record := by
  refine guarded_layout.bind fun _ =>
    (guarded_shows (fun files => Kept receipts files ∧ Shows codec records files)
      (fun directory h => hinv directory h.1) false).bind ?_
  rintro ⟨head, found⟩
  have hsame : Guarded inv (fun directory => Kept receipts directory.records ∧ found = records) (do
        let record ← check (checkAppend codec found draft)
        writeNoReplace (.record record)
        let head := headValue codec (found.length + 1) found.length record.recordSha256
        writeHead codec head
        fsyncFolder .records
        fsyncFolder .root
        discard (scan codec false)
        return (⟨record, some head⟩ : Receipt))
      fun receipt directory => Kept (receipts ++ [receipt.record]) directory.records ∧
        checkAppend codec records draft = .ok receipt.record := by
    refine guarded_of_fact fun hfound => ?_
    subst hfound
    refine guarded_check.bind fun record => guarded_of_fact fun hcheck => ?_
    have hgrown (directory : Directory) (h : Kept (receipts ++ [record]) directory.records) :
        inv directory := hinv directory h.earlier
    refine (guarded_publishRecord hinv).bind fun _ => ?_
    refine (guarded_rootOnly (Kept (receipts ++ [record])) hgrown rootOnly_writeHead).bind fun _ => ?_
    have hfolder : Guarded inv (fun directory => Kept (receipts ++ [record]) directory.records)
        (fsyncFolder .records)
        fun _ directory => Kept (receipts ++ [record]) directory.records :=
      guarded_demand (fun directory h => hgrown _ h.settle) fun directory h => h.settle
    refine hfolder.bind fun _ => ?_
    refine (guarded_rootOnly (Kept (receipts ++ [record])) hgrown
      (rootOnly_demand (by trivial))).bind fun _ => ?_
    refine (guarded_rootOnly (Kept (receipts ++ [record])) hgrown
      (rootOnly_scan.map _)).bind fun _ => ?_
    exact guarded_pure fun directory h => ⟨h, hcheck⟩
  refine hsame.mono ?_ fun _ _ h => h
  rintro directory ⟨⟨hkept, hshows⟩, hfound⟩
  exact ⟨hkept, entries_inj (hfound.contents.symm.trans hshows.contents)⟩

end Receipts

abbrev Given := Call × Except Failure (Option Receipt)

def Call.locked (codec : Codec) (legacy : List Str) (call : Call) :
    LockedCalls.Call Op Answer Given where
  outside := Except.isOk <$> (call.outside codec).run
  inside := (call, ·) <$> (call.inside codec legacy).run

def claimedRecord : Given → Option Record
  | (.claim _, .ok receipt) => receipt.map Receipt.record
  | _ => none

def claimed (returned : List Given) : List Record := returned.filterMap claimedRecord

/-- Two claims of one candidate, the second made after a release of the first. -/
def Separated (codec : Codec) (first second : Record) : Prop :=
  first.candidateKey = second.candidateKey →
    ∃ before between, Chain codec (before ++ first :: between ++ [second]) ∧
      ∃ release ∈ between, Releases release first

/-- What is true of the receipts that have been returned. -/
structure Honoured (codec : Codec) (returned : List Given) (directory : Directory) : Prop where
  kept : Kept (claimed returned) directory.records
  event : ∀ receipt ∈ claimed returned, receipt.event = .claim
  separated : (claimed returned).Pairwise (Separated codec)

section Calls

variable {codec : Codec} {legacy : List Str} {call : Call} {returned : List Given}
  {directory : Directory} {records : List Record} {record : Record}

theorem claimed_append (given : Given) :
    claimed (returned ++ [given]) = claimed returned ++ (claimedRecord given).toList := by
  rw [claimed, List.filterMap_append]
  cases hrecord : claimedRecord given with
  | none => simp [claimed, hrecord]
  | some record => simp [claimed, hrecord]

theorem Honoured.unclaimed {given : Given} (h : Honoured codec returned directory)
    (hgiven : claimedRecord given = none) : Honoured codec (returned ++ [given]) directory := by
  have hsame : claimed (returned ++ [given]) = claimed returned := by
    rw [claimed_append, hgiven]
    exact List.append_nil _
  refine ⟨?_, ?_, ?_⟩
  · rw [hsame]
    exact h.kept
  · rw [hsame]
    exact h.event
  · rw [hsame]
    exact h.separated

theorem Shows.mem {files : List (Slot Name Record)} (h : Shows codec records files)
    {receipts : List Record} (hkept : Kept receipts files) (hrecord : record ∈ receipts) :
    record ∈ records := by
  have hfile : (record.name, some record) ∈ entries records := by
    rw [← h.contents]
    exact List.mem_map_of_mem (hkept record hrecord)
  obtain ⟨other, hother, hsame⟩ := List.mem_map.mp hfile
  obtain rfl : other = record := Option.some.inj (Prod.mk.inj hsame).2
  exact hother

theorem Chain.separated (h : Chain codec (records ++ [record])) {first : Record}
    (hfirst : first ∈ records) (hevent : first.event = .claim) (hrecord : record.event = .claim) :
    Separated codec first record := by
  intro hkey
  obtain ⟨before, between, rfl⟩ := List.append_of_mem hfirst
  exact ⟨before, between, h, h.exclusive hevent hrecord hkey⟩

theorem claim_adds {identity : Identity}
    (h : (Call.claim identity).Adds codec legacy records record) : record.event = .claim := by
  obtain ⟨draft, hplan, hcheck⟩ := h
  obtain ⟨-, rfl, -⟩ := checkAppend_eq_ok hcheck
  cases plan_append hplan with
  | claim hfree => rfl

theorem Honoured.claim {identity : Identity} {receipt : Receipt} {before : Directory}
    (h : Honoured codec returned before) (hshows : Shows codec records before.records)
    (hadds : (Call.claim identity).Adds codec legacy records receipt.record)
    (hkept : Kept (claimed returned ++ [receipt.record]) directory.records) :
    Honoured codec (returned ++ [(.claim identity, .ok (some receipt))]) directory := by
  have hsame : claimed (returned ++ [(.claim identity, .ok (some receipt))]) =
      claimed returned ++ [receipt.record] := claimed_append _
  have hevent := claim_adds hadds
  have hchain := hshows.chain.append hadds
  refine ⟨?_, ?_, ?_⟩
  · rw [hsame]
    exact hkept
  · rw [hsame]
    exact List.forall_mem_append.mpr ⟨h.event, List.forall_mem_singleton.mpr hevent⟩
  · rw [hsame]
    refine List.pairwise_append.mpr ⟨h.separated, List.pairwise_singleton _ _, ?_⟩
    intro first hfirst second hsecond
    obtain rfl := List.mem_singleton.mp hsecond
    exact hchain.separated (hshows.mem h.kept hfirst) (h.event first hfirst) hevent

theorem guarded_inside :
    Guarded (Honoured codec returned) (fun _ => True) (call.inside codec legacy)
      fun receipt directory => Honoured codec (returned ++ [(call, .ok receipt)]) directory := by
  rintro directory ⟨hstart, -⟩
  have hinv (directory : Directory) (h : Kept (claimed returned) directory.records) :
      Honoured codec returned directory := ⟨h, hstart.event, hstart.separated⟩
  have hprogram : Guarded (Honoured codec returned)
      (fun directory => Kept (claimed returned) directory.records) (call.inside codec legacy)
      fun receipt directory => Honoured codec (returned ++ [(call, .ok receipt)]) directory := by
    refine (guarded_rootOnly (Kept (claimed returned)) hinv rootOnly_enter).bind fun _ => ?_
    refine (guarded_shows (Kept (claimed returned)) hinv false).bind ?_
    rintro ⟨head, records⟩
    refine guarded_check.bind fun planned => guarded_of_fact fun hplan => ?_
    cases planned with
    | nothing =>
      refine guarded_pure fun directory h => (hinv directory h.1).unclaimed ?_
      cases call with
      | preflight identity => rfl
      | claim identity => rfl
      | release request => rfl
    | recorded item =>
      refine guarded_pure fun directory h => (hinv directory h.1).unclaimed ?_
      cases call with
      | preflight identity =>
        obtain ⟨⟨⟩, -, hdone⟩ := bind_eq_ok.mp hplan
        cases hdone
      | claim identity =>
        obtain ⟨⟨⟩, -, hdone⟩ := bind_eq_ok.mp hplan
        cases hdone
      | release request => rfl
    | append draft =>
      intro before hbefore
      refine ((guarded_appended hinv).map fun receipt directory h => ?_) before hbefore
      have hreceipts := hinv directory h.1.earlier
      cases call with
      | preflight identity => exact hreceipts.unclaimed rfl
      | release request => exact hreceipts.unclaimed rfl
      | claim identity => exact hbefore.1.claim hbefore.2.2 ⟨draft, hplan, h.2⟩ h.1
  exact hprogram directory ⟨hstart, hstart.kept⟩

def ListsRoot (op : Op) : Prop := op = .listRoot

theorem careful_locked :
    LockedCalls.Careful machine ListsRoot (Honoured codec) (call.locked codec legacy) := by
  have hlist : ListsRoot .listRoot := rfl
  have houtside : Performs ListsRoot (call.outside codec) :=
    performs_check.bind fun _ => (performs_layout hlist).bind fun _ => performs_layout hlist
  refine ⟨only_map houtside, fun returned directory hstart => holds_map ?_⟩
  refine (guarded_inside directory ⟨hstart, trivial⟩).mono fun result next hnext => ?_
  cases result with
  | ok receipt => exact hnext.2
  | error failure =>
    refine hnext.unclaimed ?_
    cases call with
    | preflight identity => rfl
    | claim identity => rfl
    | release request => rfl

theorem Honoured.crash {after : Directory} (h : Honoured codec returned directory)
    (hcrash : directory.Crash after) : Honoured codec returned after :=
  ⟨h.kept.crash hcrash.1, h.event, h.separated⟩

theorem honoured_of_reaches {start : Directory} {w : LockedCalls.World Op Answer Directory Given}
    (h : LockedCalls.Reaches machine Directory.Crash
      (fun call => ∃ asked : Call, call = asked.locked codec legacy) { shared := start } w) :
    Honoured codec w.returned w.shared := by
  have hreads (op : Op) (directory : Directory) (answer : Answer op) (next : Directory)
      (hop : ListsRoot op) (hafter : machine.after op directory answer next) :
      next = directory := by
    obtain rfl : op = .listRoot := hop
    exact hafter.2
  refine LockedCalls.Reaches.invariant hreads ?_ (fun _ _ _ hkept hcrash => hkept.crash hcrash)
    h ⟨⟨nofun, nofun, .nil⟩, nofun, nofun⟩
  rintro call ⟨asked, rfl⟩
  exact careful_locked

/-- Whatever the registry holds at the start, and however the calls interleave and end: a scan
that succeeds finds linked records, an exclusive claim for each candidate, and every claim whose
receipt was returned, active or released; two such claims of one candidate are separated. -/
theorem claims_are_exclusive {start : Directory} {w : LockedCalls.World Op Answer Directory Given}
    (hreaches : LockedCalls.Reaches machine Directory.Crash
      (fun call => ∃ asked : Call, call = asked.locked codec legacy) { shared := start } w) :
    (∀ repairTail head records next,
      Returns machine (scan codec repairTail).run w.shared (.ok (head, records)) next →
        (∀ before record after, records = before ++ record :: after →
          ValidRecord codec record before.length (lastSha256 before)) ∧
        (∀ before first between second after,
          records = before ++ first :: between ++ second :: after →
          first.event = .claim → second.event = .claim →
          first.candidateKey = second.candidateKey →
          ∃ release ∈ between, Releases release first) ∧
        ∀ receipt ∈ claimed w.returned, ∃ before after, records = before ++ receipt :: after ∧
            (claims records receipt.candidateKey = some receipt ∨
              ∃ release ∈ after, Releases release receipt)) ∧
      (claimed w.returned).Pairwise (Separated codec) := by
  have hhonoured := honoured_of_reaches hreaches
  refine ⟨?_, hhonoured.separated⟩
  intro repairTail head records next hreturns
  have hholds := @guarded_shows codec _ (Kept (claimed w.returned)) (fun _ h => h) repairTail
    w.shared ⟨hhonoured.kept, hhonoured.kept⟩
  obtain ⟨-, -, hkept, hshows⟩ := hholds.returns hreturns
  refine ⟨?_, ?_, ?_⟩
  · rintro before record after rfl
    exact hshows.chain.valid
  · rintro before first between second after rfl hfirst hsecond hkey
    exact hshows.chain.exclusive hfirst hsecond hkey
  · intro receipt hreceipt
    obtain ⟨before, after, rfl⟩ := List.append_of_mem (hshows.mem hkept hreceipt)
    exact ⟨before, after, rfl, hshows.chain.active_or_released (hhonoured.event receipt hreceipt)⟩

def Call.alone (codec : Codec) (legacy : List Str) (call : Call)
    (w : LockedCalls.World Op Answer Directory Given) :
    LockedCalls.World Op Answer Directory Given :=
  let entered := ((call.outside codec).run.run handle w.shared).2
  let result := (call.inside codec legacy).run.run handle entered
  { w with
    shared := result.2
    returned := w.returned ++ [(call, result.1)] }

theorem reaches_alone {w w' : LockedCalls.World Op Answer Directory Given}
    (hok : ((call.outside codec).run.run handle w'.shared).1.isOk = true)
    (hfree : w'.holder = none)
    (h : LockedCalls.Reaches machine Directory.Crash
      (fun call => ∃ asked : Call, call = asked.locked codec legacy) w w') :
    LockedCalls.Reaches machine Directory.Crash
      (fun call => ∃ asked : Call, call = asked.locked codec legacy) w
      (call.alone codec legacy w') := by
  have houtside := returns_run after_handle (call.locked codec legacy).outside w'.shared
  rw [Call.locked, run_map, hok] at houtside
  have hinside := returns_run after_handle (call.locked codec legacy).inside
    ((call.outside codec).run.run handle w'.shared).2
  rw [Call.locked, run_map] at hinside
  exact h.call ⟨call, rfl⟩ houtside hinside hfree

end Calls

namespace Sample

def vacant : Directory := { root := ⟨some (headOf codec []), []⟩ }

def reclaimed : LockedCalls.World Op Answer Directory Given :=
  (Call.claim identity).alone codec [] ((Call.release (requestOf first)).alone codec []
      ((Call.claim identity).alone codec [] { shared := vacant }))

theorem reaches_reclaimed : LockedCalls.Reaches machine Directory.Crash
    (fun call => ∃ asked : Call, call = asked.locked codec []) { shared := vacant }
    reclaimed := by
  refine reaches_alone (by decide +kernel) rfl ?_
  refine reaches_alone (by decide +kernel) rfl ?_
  exact reaches_alone (by decide +kernel) rfl .start

end Sample

theorem claims_are_exclusive_sample :
    claimed Sample.reclaimed.returned = [Sample.first, Sample.again] ∧
      Separated Sample.codec Sample.first Sample.again := by
  have hclaimed : claimed Sample.reclaimed.returned = [Sample.first, Sample.again] := by
    decide +kernel
  have hseparated := (claims_are_exclusive Sample.reaches_reclaimed).2
  rw [hclaimed, List.pairwise_pair] at hseparated
  exact ⟨hclaimed, hseparated⟩

end NativeInitLab.Registry
