import NativeInitLab.Registry.Instants
import Mathlib.Algebra.Group.Nat.Defs
import Mathlib.Data.List.Forall2

namespace NativeInitLab.Registry

open CrashProgram CrashProgram.Program Lockstep NumberedFiles
open F1 (Str digestText)

/-! A call that is interrupted at any instant leaves a registry that the next entry of the writer
puts in order. -/

section States

variable {codec : Codec} {synced : Prop} {records : List Record} {directory : Directory}
  {root : Root}

/-- The registry can be put in order, also after a loss of power if it was synced at first. -/
structure Resting (codec : Codec) (synced : Prop) (records : List Record)
    (directory : Directory) : Prop extends Recoverable codec records directory where
  settled : synced → Settled directory.records
  versions : synced → ∀ version ∈ directory.unsynced, version.Near codec records

def Flushed (codec : Codec) (synced : Prop) (records : List Record)
    (directory : Directory) : Prop :=
  Resting codec synced records directory ∧ (synced → directory.unsynced = [])

structure Cleared (codec : Codec) (synced : Prop) (records : List Record)
    (directory : Directory) : Prop extends Resting codec synced records directory where
  empty : directory.root.staging = []
  flushed : synced → directory.unsynced = []

structure Ready (codec : Codec) (synced : Prop) (records : List Record)
    (directory : Directory) : Prop extends Ordered codec records directory where
  settled : synced → Settled directory.records
  flushed : synced → directory.unsynced = []

theorem Ready.cleared (h : Ready codec synced records directory) :
    Cleared codec synced records directory where
  toRecoverable := h.toOrdered.recoverable
  settled := h.settled
  versions hsynced := by
    rw [h.flushed hsynced]
    exact nofun
  empty := by rw [h.root]
  flushed := h.flushed

section

variable (h : Resting codec synced records directory)
include h

theorem Resting.change (hroot : root.Near codec records) :
    Resting codec synced records (directory.change root) where
  contents := h.contents
  chain := h.chain
  near := hroot
  settled := h.settled
  versions hsynced := List.forall_mem_cons.mpr ⟨h.near, h.versions hsynced⟩

theorem Resting.setRoot (hroot : root.Near codec records) :
    Resting codec synced records { directory with root } where
  contents := h.contents
  chain := h.chain
  near := hroot
  settled := h.settled
  versions := h.versions

theorem Resting.syncRoot : Resting codec synced records { directory with unsynced := [] } where
  contents := h.contents
  chain := h.chain
  near := h.near
  settled := h.settled
  versions _ := nofun

theorem Resting.remove (name : StagingName) : (directory.root.remove name).Near codec records :=
  ⟨Nat.le_trans (List.length_filter_le ..) h.near.1, h.near.2⟩

theorem Resting.unlink (name : StagingName) :
    Resting codec synced records (apply (.unlink name) directory).2 := by
  rw [apply, handleUnlink]
  split
  · exact h.change (h.remove name)
  · exact h

end

theorem Ready.syncFolder (h : Ready codec synced records directory) (folder : Folder) :
    Ready codec synced records (apply (.syncFolder folder) directory).2 := by
  cases folder with
  | records =>
    refine ⟨⟨(contents_settle directory.records).trans h.contents, h.chain, h.root⟩,
      fun hsynced => ?_, h.flushed⟩
    show Settled (settle directory.records)
    rw [settle_of_settled (h.settled hsynced)]
    exact h.settled hsynced
  | root => exact ⟨⟨h.contents, h.chain, h.root⟩, h.settled, fun _ => rfl⟩

end States

section Heads

variable {codec : Codec} {synced : Prop} {records : List Record} {inv : Directory → Prop}
  {name : StagingName} {head : Head}

def Staged (codec : Codec) (synced : Prop) (records : List Record) (files : List Staging)
    (directory : Directory) : Prop :=
  Resting codec synced records directory ∧ directory.root.staging = files

variable (hinv : ∀ directory, Resting codec synced records directory → inv directory)

include hinv

theorem guarded_syncRoot (good : Root → Prop) :
    Guarded inv (fun directory => Resting codec synced records directory ∧ good directory.root)
      (fsyncFolder .root) fun _ directory => Resting codec synced records directory ∧
        good directory.root ∧ directory.unsynced = [] :=
  guarded_demand (fun _ h => hinv _ h.1.syncRoot) fun _ h => ⟨h.1.syncRoot, h.2, rfl⟩

theorem guarded_createStaging :
    Guarded inv (Staged codec synced records []) (createFile (.staging name head))
      fun _ => Staged codec synced records [⟨name, none, false⟩] := by
  have hstaged (directory : Directory) (h : Staged codec synced records [] directory) :
      Staged codec synced records [⟨name, none, false⟩]
        (apply (.create (.staging name head)) directory).2 := by
    have hcreate : apply (.create (.staging name head)) directory = (.done,
        directory.change { directory.root with staging := [⟨name, none, false⟩] }) := by
      rw [apply, handleCreate, Root.names, h.2]
      rfl
    rw [hcreate]
    exact ⟨h.1.change ⟨Nat.le_refl 1, h.1.near.2⟩, rfl⟩
  exact guarded_createFile (fun directory h => hinv _ (hstaged directory h).1)
    fun directory h _ => hstaged directory h

theorem guarded_changeStaging {effect : Effect} {failure : Failure} {before after : Staging}
    (heffect : ∀ directory, directory.root.staging = [before] → (apply effect directory).2 =
        { directory with root := { directory.root with staging := [after] } }) :
    Guarded inv (Staged codec synced records [before]) (demand effect failure)
      fun _ => Staged codec synced records [after] := by
  have hchanged (directory : Directory) (h : Staged codec synced records [before] directory) :
      Staged codec synced records [after] (apply effect directory).2 := by
    rw [heffect directory h.2]
    exact ⟨h.1.setRoot ⟨Nat.le_refl 1, h.1.near.2⟩, rfl⟩
  exact guarded_demand (fun directory h => hinv _ (hchanged directory h).1) hchanged

theorem guarded_writeStaging :
    Guarded inv (Staged codec synced records []) (writeNoReplace (.staging name head))
      fun _ => Staged codec synced records [⟨name, some head, true⟩] := by
  refine (guarded_createStaging hinv).bind fun _ => ?_
  have hwrite (directory : Directory) (hstaging : directory.root.staging = [⟨name, none, false⟩]) :
      (apply (.write (.staging name head)) directory).2 = { directory with
        root := { directory.root with staging := [⟨name, some head, false⟩] } } := by
    simp [apply, handleWrite, Root.update, hstaging]
  have hsync (directory : Directory)
      (hstaging : directory.root.staging = [⟨name, some head, false⟩]) :
      (apply (.sync (.staging name head)) directory).2 = { directory with
        root := { directory.root with staging := [⟨name, some head, true⟩] } } := by
    simp [apply, handleSync, Root.update, hstaging]
  refine (guarded_changeStaging hinv hwrite).bind fun _ => ?_
  refine (guarded_changeStaging hinv hsync).bind fun _ => ?_
  refine (guarded_syncRoot hinv fun root => root.staging = [⟨name, some head, true⟩]).bind
    fun _ => guarded_read.bind fun reopened => guarded_require.mono (fun _ h => h) ?_
  exact fun _ directory h => ⟨h.1.1.1, h.1.1.2.1⟩

theorem guarded_publishHead (hhead : head = headOf codec records) :
    Guarded inv (Staged codec synced records [⟨name, some head, true⟩]) (publishHead name)
      fun _ => Ready codec synced records := by
  have hreplace (directory : Directory)
      (h : Staged codec synced records [⟨name, some head, true⟩] directory) :
      apply (.replaceHead name) directory =
        (.done, directory.change ⟨some (headOf codec records), []⟩) := by
    rw [apply, handleReplace, Root.remove, h.2]
    simp [hhead]
  have hreplaced (directory : Directory)
      (h : Staged codec synced records [⟨name, some head, true⟩] directory) :
      Resting codec synced records (apply (.replaceHead name) directory).2 := by
    rw [hreplace directory h]
    exact h.1.change ⟨Nat.zero_le 1, .inl rfl⟩
  have hchange : Guarded inv (Staged codec synced records [⟨name, some head, true⟩])
      (act (.change (.replaceHead name))) fun (outcome : Outcome) next =>
        Resting codec synced records next ∧
          (outcome = .done → next.root = ⟨some (headOf codec records), []⟩) := by
    refine (guarded_change fun directory h => hinv _ (hreplaced directory h)).mono
      (fun _ h => h) ?_
    rintro outcome next ⟨directory, hstaged, happlied | ⟨rfl, rfl | rfl⟩⟩
    · have hresting := hreplaced directory hstaged
      rw [happlied] at hresting
      rw [hreplace directory hstaged] at happlied
      exact ⟨hresting, fun _ => by rw [← (Prod.mk.inj happlied).2]; rfl⟩
    · exact ⟨hstaged.1, fun hdone => by cases hdone⟩
    · exact ⟨hreplaced directory hstaged, fun hdone => by cases hdone⟩
  refine hchange.bind fun (outcome : Outcome) => ?_
  by_cases houtcome : outcome = .done
  · rw [if_pos houtcome]
    exact (guarded_syncRoot hinv fun root => root = ⟨some (headOf codec records), []⟩).mono
      (fun next h => ⟨h.1, h.2 houtcome⟩) fun _ directory h =>
        ⟨⟨h.1.contents, h.1.chain, h.2.1⟩, h.1.settled, fun _ => h.2.2⟩
  · rw [if_neg houtcome]
    exact (guarded_discard fun next h => hinv _ (h.1.unlink name)).bind fun _ => guarded_throw

theorem guarded_writeHead (hhead : head = headOf codec records) :
    Guarded inv (Staged codec synced records []) (writeHead codec head)
      fun _ => Ready codec synced records := by
  refine guarded_require.bind fun _ => guarded_pickStaging.bind fun (name : StagingName) => ?_
  refine guarded_listRoot.bind fun children => guarded_require.bind fun _ => ?_
  refine ((guarded_writeStaging hinv).mono (fun directory h => h.1.1.1) fun _ _ h => h).bind
    fun _ => (guarded_publishHead hinv hhead).bind fun _ => ?_
  refine guarded_read.bind fun reopened => guarded_require.mono (fun _ h => h) ?_
  exact fun _ directory h => h.1.1

end Heads

section Entry

variable {codec : Codec} {synced : Prop} {records : List Record} {inv : Directory → Prop}
  (hinv : ∀ directory, Resting codec synced records directory → inv directory)

include hinv

theorem guarded_scan (repairTail : Bool) :
    Guarded inv (Cleared codec synced records) (scan codec repairTail)
      fun result directory => Ready codec synced records directory ∧ result.2 = records := by
  refine guarded_layout.bind fun _ => guarded_read.bind fun found => ?_
  refine guarded_check.bind fun head => guarded_check.bind fun scanned => ?_
  rintro directory ⟨hstart, ⟨⟨h, rfl⟩, hhead⟩, hscan⟩
  have hrecords : scanned.records = records := by
    obtain ⟨other, hother, hsame⟩ := h.chain.scan h.contents
    rw [hscan] at hother
    cases hother
    exact hsame
  rw [hrecords]
  have hfound : found.root.head = some head := by
    unfold readHead at hhead
    cases hroot : found.root.head with
    | none =>
      rw [hroot] at hhead
      cases hhead
    | some other =>
      rw [hroot] at hhead
      obtain ⟨-, hhead⟩ := require_bind_eq_ok.mp hhead
      obtain ⟨-, -, hhead⟩ := bind_eq_ok.mp hhead
      cases hhead
      rfl
  rcases h.near.2 with hcurrent | ⟨earlier, tail, rfl, hlagging⟩
  · obtain rfl : head = headOf codec records := Option.some.inj (hfound.symm.trans hcurrent)
    rw [if_pos headOf_covers]
    refine holds_pure hstart ⟨hstart, ⟨⟨h.contents, h.chain, ?_⟩, h.settled, h.flushed⟩, rfl⟩
    rw [← hcurrent, ← h.empty]
  · obtain rfl : head = headOf codec earlier := Option.some.inj (hfound.symm.trans hlagging)
    rw [if_neg headOf_append_covers, h.chain.tailHead]
    cases repairTail with
    | false => exact guarded_throw found ⟨hstart, h⟩
    | true =>
      have hreturn : Guarded inv (Ready codec synced (earlier ++ [tail]))
          (pure (headOf codec (earlier ++ [tail]), earlier ++ [tail]))
          fun result directory => Ready codec synced (earlier ++ [tail]) directory ∧
            result.2 = earlier ++ [tail] :=
        guarded_pure fun _ h => ⟨h, rfl⟩
      exact ((guarded_writeHead hinv rfl).bind fun _ => hreturn) found
        ⟨hstart, h.toResting, h.empty⟩

theorem guarded_removeStaging (staged : List StagingName) (hone : staged.length ≤ 1) :
    Guarded inv (fun directory => Flushed codec synced records directory ∧
        staged = directory.root.names)
      (removeStaging staged) fun _ => Cleared codec synced records := by
  cases staged with
  | nil =>
    refine guarded_pure ?_
    rintro directory ⟨⟨hresting, hflushed⟩, hnames⟩
    exact ⟨hresting, List.map_eq_nil_iff.mp hnames.symm, hflushed⟩
  | cons name rest =>
    have hrest : rest.length ≤ 0 := Nat.le_of_succ_le_succ hone
    obtain rfl := List.length_eq_zero_iff.mp (Nat.le_zero.mp hrest)
    have hunlink : Guarded inv (fun directory => Flushed codec synced records directory ∧
        [name] = directory.root.names) (demand (.unlink name) .os)
        fun _ => Staged codec synced records [] := by
      refine guarded_demand (fun directory h => hinv _ (h.1.1.unlink name)) ?_
      rintro directory ⟨⟨hresting, -⟩, hnames⟩
      refine ⟨hresting.unlink name, ?_⟩
      obtain ⟨file, hstaging, hname⟩ := List.map_eq_singleton_iff.mp hnames.symm
      simp [apply, handleUnlink, Root.names, Root.remove, Directory.change, hstaging, hname]
    refine hunlink.bind fun _ => ?_
    refine (guarded_syncRoot hinv fun root => root.staging = []).mono (fun _ h => h) ?_
    exact fun _ directory h => ⟨h.1, h.2.1, fun _ => h.2.2⟩

theorem guarded_enter : Guarded inv (Flushed codec synced records) (enter codec)
      fun _ => Ready codec synced records := by
  refine guarded_listRoot.bind fun staged => guarded_require.bind fun _ => ?_
  refine (guarded_of_fact fun hone => guarded_removeStaging hinv staged hone).bind fun _ => ?_
  exact (guarded_scan hinv true).map fun _ _ h => h.1

end Entry

section Records

variable {codec : Codec} {legacy : List Str} {call : Call} {synced : Prop}
  {records : List Record} {record : Record} {slot : Slot Name Record}

def Growing (codec : Codec) (synced : Prop) (records : List Record) (slot : Slot Name Record)
    (directory : Directory) : Prop :=
  ∃ base, Ready codec synced records base ∧
    directory = { base with records := base.records ++ [slot] }

/-- The directory at an instant of a call: its record is not there, is being written, or is
complete. -/
def Instant (codec : Codec) (legacy : List Str) (call : Call) (synced : Prop)
    (records : List Record) (directory : Directory) : Prop :=
  Resting codec synced records directory ∨
    call.validate codec = .ok () ∧ ∃ record, call.Adds codec legacy records record ∧
      (Resting codec synced (records ++ [record]) directory ∨ ∃ slot, slot.name = record.name ∧
          (slot.content = none ∨ slot.content = some record) ∧
          Growing codec synced records slot directory)

theorem settled_append {files : List (Slot Name Record)} (hfiles : Settled files)
    (hslot : slot.flushed = true) : Settled (settle (files ++ [slot])) := by
  intro file hfile
  rw [settle, List.map_append, List.map_singleton] at hfile
  rcases List.mem_append.mp hfile with hfile | hfile
  · obtain ⟨other, hother, rfl⟩ := List.mem_map.mp hfile
    obtain ⟨hflushed, hsettled⟩ := hfiles other hother
    exact ⟨hflushed, by simp [hsettled]⟩
  · rw [List.mem_singleton.mp hfile]
    exact ⟨hslot, by simp [hslot]⟩

theorem Ready.grown {base : Directory} (h : Ready codec synced records base)
    (hadds : call.Adds codec legacy records record) :
    Cleared codec synced (records ++ [record]) { base with
      records := settle (base.records ++ [⟨record.name, some record, true, false⟩]) } where
  contents := by
    rw [contents_settle, contents_append, h.contents, entries_append]
  chain := h.chain.append hadds
  near := by
    rw [h.root]
    exact ⟨Nat.zero_le 1, .inr ⟨records, record, rfl, rfl⟩⟩
  settled hsynced := settled_append (h.settled hsynced) rfl
  versions hsynced := by
    rw [h.flushed hsynced]
    exact nofun
  empty := by rw [h.root]
  flushed := h.flushed

section Writing

variable (hvalid : call.validate codec = .ok ()) (hadds : call.Adds codec legacy records record)

include hvalid hadds

theorem instant_growing {directory : Directory} (hname : slot.name = record.name)
    (hcontent : slot.content = none ∨ slot.content = some record)
    (h : Growing codec synced records slot directory) :
    Instant codec legacy call synced records directory :=
  .inr ⟨hvalid, record, hadds, .inr ⟨slot, hname, hcontent, h⟩⟩

theorem guarded_changeRecord {effect : Effect} {failure : Failure} {before after : Slot Name Record}
    (hafter : after.name = record.name ∧ (after.content = none ∨ after.content = some record))
    (heffect : ∀ base, Ready codec synced records base →
      (apply effect { base with records := base.records ++ [before] }).2 =
        { base with records := base.records ++ [after] }) :
    Guarded (Instant codec legacy call synced records) (Growing codec synced records before)
      (demand effect failure) fun _ => Growing codec synced records after := by
  have hchanged (directory : Directory) (h : Growing codec synced records before directory) :
      Growing codec synced records after (apply effect directory).2 := by
    obtain ⟨base, hready, rfl⟩ := h
    exact ⟨base, hready, heffect base hready⟩
  exact guarded_demand (fun directory h =>
    instant_growing hvalid hadds hafter.1 hafter.2 (hchanged directory h)) hchanged

theorem guarded_writeRecord :
    Guarded (Instant codec legacy call synced records) (Ready codec synced records)
      (writeNoReplace (.record record)) fun _ => Cleared codec synced (records ++ [record]) := by
  have hcreate : Guarded (Instant codec legacy call synced records) (Ready codec synced records)
      (createFile (.record record)) fun _ =>
        Growing codec synced records ⟨record.name, none, false, false⟩ := by
    have hcreated (directory : Directory) (h : Ready codec synced records directory) :
        Growing codec synced records ⟨record.name, none, false, false⟩
          (apply (.create (.record record)) directory).2 :=
      ⟨directory, h, by rw [create_record h.contents h.chain hadds]⟩
    exact guarded_createFile (fun directory h =>
      instant_growing hvalid hadds rfl (.inl rfl) (hcreated directory h))
      fun directory h _ => hcreated directory h
  have hwrite (base : Directory) (h : Ready codec synced records base) :
      (apply (.write (.record record)) { base with
        records := base.records ++ [⟨record.name, none, false, false⟩] }).2 =
      { base with records := base.records ++ [⟨record.name, some record, false, false⟩] } := by
    rw [apply, handleWrite, write_record h.contents h.chain hadds _ rfl]
  have hflush (base : Directory) (h : Ready codec synced records base) :
      (apply (.sync (.record record)) { base with
        records := base.records ++ [⟨record.name, some record, false, false⟩] }).2 =
      { base with records := base.records ++ [⟨record.name, some record, true, false⟩] } := by
    rw [apply, handleSync, flush_record h.contents h.chain hadds _ rfl]
  have hsync : Guarded (Instant codec legacy call synced records)
      (Growing codec synced records ⟨record.name, some record, true, false⟩)
      (fsyncFolder .records) fun _ => Cleared codec synced (records ++ [record]) := by
    have hsettled (directory : Directory)
        (h : Growing codec synced records ⟨record.name, some record, true, false⟩ directory) :
        Cleared codec synced (records ++ [record]) (apply (.syncFolder .records) directory).2 := by
      obtain ⟨base, hbase, rfl⟩ := h
      exact hbase.grown hadds
    exact guarded_demand (fun directory h =>
      .inr ⟨hvalid, record, hadds, .inl (hsettled directory h).toResting⟩) hsettled
  refine hcreate.bind fun _ => ?_
  refine (guarded_changeRecord hvalid hadds ⟨rfl, .inr rfl⟩ hwrite).bind fun _ => ?_
  refine (guarded_changeRecord hvalid hadds ⟨rfl, .inr rfl⟩ hflush).bind fun _ => ?_
  refine hsync.bind fun _ => guarded_read.bind fun reopened => ?_
  exact guarded_require.mono (fun _ h => h) fun _ directory h => h.1.1

end Writing

theorem guarded_append {draft : Body} (hvalid : call.validate codec = .ok ())
    (hplan : call.plan codec legacy records = .ok (.append draft)) :
    Guarded (Instant codec legacy call synced records) (Ready codec synced records)
      (append codec draft) fun _ _ => True := by
  have hresting (directory : Directory) (h : Resting codec synced records directory) :
      Instant codec legacy call synced records directory := .inl h
  refine guarded_layout.bind fun _ => ?_
  refine ((guarded_scan hresting false).mono (fun _ h => h.cleared) fun _ _ h => h).bind ?_
  rintro ⟨head, found⟩
  refine guarded_of_fact fun (hfound : found = records) => ?_
  subst hfound
  refine guarded_check.bind fun record => guarded_of_fact fun hcheck => ?_
  have hadds : call.Adds codec legacy found record := ⟨draft, hplan, hcheck⟩
  have hgrown (directory : Directory) (h : Resting codec synced (found ++ [record]) directory) :
      Instant codec legacy call synced found directory :=
    .inr ⟨hvalid, record, hadds, .inl h⟩
  refine (guarded_writeRecord hvalid hadds).bind fun _ => ?_
  refine ((guarded_writeHead hgrown headValue_append).mono
    (fun directory h => ⟨h.toResting, h.empty⟩) fun _ _ h => h).bind fun _ => ?_
  have hfolder (folder : Folder) : Guarded (Instant codec legacy call synced found)
      (Ready codec synced (found ++ [record])) (fsyncFolder folder)
      fun _ => Ready codec synced (found ++ [record]) :=
    guarded_demand (fun _ h => hgrown _ (h.syncFolder folder).cleared.toResting)
      fun directory h => h.syncFolder folder
  refine (hfolder .records).bind fun _ => (hfolder .root).bind fun _ => ?_
  have hscan := (guarded_scan hgrown false).mono (fun _ h => Ready.cleared h) fun _ _ h => h
  have hdiscard : Guarded (Instant codec legacy call synced found)
      (Ready codec synced (found ++ [record])) (discard (scan codec false))
      fun _ => Ready codec synced (found ++ [record]) :=
    hscan.map fun _ _ h => h.1
  exact hdiscard.bind fun _ => guarded_pure fun _ _ => trivial

theorem guarded_program : Guarded (Instant codec legacy call synced records)
      (Flushed codec synced records) (call.program codec legacy) fun _ _ => True := by
  have hresting (directory : Directory) (h : Resting codec synced records directory) :
      Instant codec legacy call synced records directory := .inl h
  have houtside : Guarded (Instant codec legacy call synced records) (Flushed codec synced records)
      (call.outside codec)
      fun _ directory => Flushed codec synced records directory ∧ call.validate codec = .ok () :=
    guarded_check.bind fun _ => guarded_layout.bind fun _ => guarded_layout
  refine houtside.bind fun _ => guarded_of_fact fun hvalid => ?_
  refine (guarded_enter hresting).bind fun _ => ?_
  refine ((guarded_scan hresting false).mono (fun _ h => h.cleared) fun _ _ h => h).bind ?_
  rintro ⟨head, found⟩
  refine guarded_of_fact fun (hfound : found = records) => ?_
  subst hfound
  refine guarded_check.bind fun planned => guarded_of_fact fun hplan => ?_
  cases planned with
  | nothing => exact guarded_pure fun _ _ => trivial
  | recorded record => exact guarded_pure fun _ _ => trivial
  | append draft => exact (guarded_append hvalid hplan).map fun _ _ h => h

end Records

section Interruption

variable {codec : Codec} {legacy : List Str} {call : Call} {records : List Record}
  {directory stopped after : Directory}

structure Directory.Synced (directory : Directory) : Prop where
  settled : Settled directory.records
  flushed : directory.unsynced = []

theorem Root.Near.crash {root left : Root} (h : root.Near codec records) (hcrash : root.Crash left) :
    left.Near codec records := by
  refine ⟨?_, ?_⟩
  · rw [← hcrash.staging.length_eq]
    exact h.1
  · rw [hcrash.head]
    exact h.2

theorem Resting.crash {synced : Prop} (hsynced : synced)
    (h : Resting codec synced records directory) (hcrash : directory.Crash after) :
    Recoverable codec records after := by
  obtain ⟨version, hversion, hroot⟩ := hcrash.root
  have hnear : version.Near codec records := by
    rcases List.mem_cons.mp hversion with rfl | hversion
    · exact h.near
    · exact h.versions hsynced version hversion
  refine ⟨?_, h.chain, hnear.crash hroot⟩
  rw [crash_settled (h.settled hsynced) hcrash.records]
  exact h.contents

theorem Ready.near {synced : Prop} (h : Ready codec synced records directory) {record : Record} :
    directory.root.Near codec (records ++ [record]) := by
  rw [h.root]
  exact ⟨Nat.zero_le 1, .inr ⟨records, record, rfl, rfl⟩⟩

inductive Left (codec : Codec) (legacy : List Str) (call : Call) (records : List Record)
    (after : Directory) : Prop where
  | before (h : Recoverable codec records after)
  | torn (record : Record) (h : contents after.records = entries records ++ [(record.name, none)])
  | complete (record : Record) (hvalid : call.validate codec = .ok ())
      (hadds : call.Adds codec legacy records record)
      (h : Recoverable codec (records ++ [record]) after)

theorem Growing.left {synced : Prop} {record : Record} {slot : Slot Name Record}
    (hvalid : call.validate codec = .ok ()) (hadds : call.Adds codec legacy records record)
    (hname : slot.name = record.name)
    (hcontent : slot.content = none ∨ slot.content = some record)
    (h : Growing codec synced records slot stopped) : Left codec legacy call records stopped := by
  obtain ⟨base, hbase, rfl⟩ := h
  have hcontents : contents (base.records ++ [slot]) =
      entries records ++ [(record.name, slot.content)] := by
    rw [contents_append, hbase.contents, hname]
  rcases hcontent with hnone | hsome
  · rw [hnone] at hcontents
    exact .torn record hcontents
  · rw [hsome, ← entries_append] at hcontents
    exact .complete record hvalid hadds ⟨hcontents, hbase.chain.append hadds, hbase.near⟩

theorem Growing.crash {synced : Prop} (hsynced : synced) {record : Record}
    {slot : Slot Name Record} (hvalid : call.validate codec = .ok ())
    (hadds : call.Adds codec legacy records record) (hname : slot.name = record.name)
    (hcontent : slot.content = none ∨ slot.content = some record)
    (h : Growing codec synced records slot stopped) (hcrash : stopped.Crash after) :
    Left codec legacy call records after := by
  obtain ⟨base, hbase, rfl⟩ := h
  obtain ⟨version, hversion, hroot⟩ := hcrash.root
  have hflushed : base.unsynced = [] := hbase.flushed hsynced
  obtain rfl : version = base.root := by
    simpa [hflushed] using hversion
  have hnear : after.root.Near codec records := hbase.cleared.near.crash hroot
  have hlagging : after.root.Near codec (records ++ [record]) := hbase.near.crash hroot
  rcases crash_last (hbase.settled hsynced) hcrash.records with hfiles | ⟨-, hfiles⟩ | ⟨-, hfiles⟩
  · have hcontents : contents after.records = entries records ++ [(record.name, slot.content)] := by
      rw [hfiles, contents_append, hbase.contents, ← hname]
      rfl
    rcases hcontent with hnone | hsome
    · rw [hnone] at hcontents
      exact .torn record hcontents
    · rw [hsome, ← entries_append] at hcontents
      exact .complete record hvalid hadds ⟨hcontents, hbase.chain.append hadds, hlagging⟩
  · refine .torn record ?_
    rw [hfiles, contents_append, hbase.contents, hname]
  · refine .before ⟨?_, hbase.chain, hnear⟩
    rw [hfiles, hbase.contents]

theorem instant_of_visits (hstart : Recoverable codec records directory)
    (hvisits : Visits machine (call.program codec legacy).run directory stopped) :
    Instant codec legacy call directory.Synced records stopped := by
  have hresting : Resting codec directory.Synced records directory := by
    refine ⟨hstart, fun hsynced => hsynced.settled, fun hsynced => ?_⟩
    rw [hsynced.flushed]
    exact nofun
  have hguarded := @guarded_program codec legacy call directory.Synced records directory
    ⟨.inl hresting, hresting, fun hsynced => hsynced.flushed⟩
  exact hguarded.visits hvisits

theorem left_of_visits (hstart : Recoverable codec records directory)
    (hvisits : Visits machine (call.program codec legacy).run directory stopped)
    (hafter : after = stopped ∨ directory.Synced ∧ stopped.Crash after) :
    Left codec legacy call records after := by
  rcases instant_of_visits hstart hvisits with hbefore | ⟨hvalid, record, hadds, hcomplete | hgrowing⟩
  · rcases hafter with rfl | ⟨hsynced, hcrash⟩
    · exact .before hbefore.toRecoverable
    · exact .before (hbefore.crash hsynced hcrash)
  · rcases hafter with rfl | ⟨hsynced, hcrash⟩
    · exact .complete record hvalid hadds hcomplete.toRecoverable
    · exact .complete record hvalid hadds (hcomplete.crash hsynced hcrash)
  · obtain ⟨slot, hname, hcontent, hgrowing⟩ := hgrowing
    rcases hafter with rfl | ⟨hsynced, hcrash⟩
    · exact hgrowing.left hvalid hadds hname hcontent
    · exact hgrowing.crash hsynced hvalid hadds hname hcontent hcrash

theorem after_handle (op : Op) (directory : Directory) :
    machine.after op directory (handle op directory).1 (handle op directory).2 := by
  cases op with
  | listRoot => exact ⟨.inr rfl, rfl⟩
  | read => exact ⟨.inr rfl, rfl⟩
  | pickStaging => exact rfl
  | change effect => exact .inl rfl

/-- The next entry of the writer succeeds and leaves the registry of these records; one more
changes nothing. -/
def Repaired (codec : Codec) (records : List Record) (directory : Directory) : Prop :=
  ∃ next, Succeeds (writer codec) directory () next ∧ Ordered codec records next ∧
    Succeeds (writer codec) next () next

theorem Recoverable.repaired (h : Recoverable codec records directory) :
    Repaired codec records directory := by
  obtain ⟨next, hwriter, -, hordered⟩ := h.writer
  exact ⟨next, hwriter, hordered, hordered.writer⟩

theorem interrupted_call_is_repaired (hstart : Recoverable codec records directory)
    (hvisits : Visits machine (call.program codec legacy).run directory stopped)
    (hafter : after = stopped ∨ directory.Synced ∧ stopped.Crash after) :
    (after.records.map Slot.name = directory.records.map Slot.name → Repaired codec records after) ∧
    ∀ record, contents after.records = contents directory.records ++ [(record.name, some record)] →
      Repaired codec (records ++ [record]) after ∧
        ∃ receipt next, Succeeds (call.program codec legacy) directory (some receipt) next ∧
          receipt.record = record ∧ Ordered codec (records ++ [record]) next := by
  rw [hstart.contents]
  have hnames (files : List (Slot Name Record)) :
      files.map Slot.name = (contents files).map Prod.fst := by
    rw [contents, List.map_map]
    rfl
  rw [hnames, hnames, hstart.contents]
  cases left_of_visits hstart hvisits hafter with
  | before h =>
    refine ⟨fun _ => h.repaired, fun record hrecord => ?_⟩
    have hlength := congrArg List.length (h.contents.symm.trans hrecord)
    simp at hlength
  | torn record h =>
    refine ⟨fun hsame => ?_, fun other hother => ?_⟩
    · have hlength := congrArg List.length hsame
      simp [h] at hlength
    · have hlast := List.append_cancel_left (h.symm.trans hother)
      simp at hlast
  | complete record hvalid hadds h =>
    refine ⟨fun hsame => ?_, fun other hother => ?_⟩
    · have hlength := congrArg List.length hsame
      simp [h.contents, entries_append] at hlength
    · have hlast := List.append_cancel_left ((entries_append ..).symm.trans
        (h.contents.symm.trans hother))
      obtain rfl : record = other := by simpa using congrArg (List.map Prod.snd) hlast
      obtain ⟨next, hprogram, hordered⟩ := hstart.program hvalid hadds
      exact ⟨h.repaired, _, next, hprogram, rfl, hordered⟩

end Interruption

namespace Sample

/-- The digits of a toy hash; none is an `f`. -/
def digits (count number : Nat) : Str :=
  (List.range count).map fun i => Nat.digitChar (number / 15 ^ i % 15)

theorem digits_spec {count number : Nat} {digit : Char} (h : digit ∈ digits count number) :
    (('0' ≤ digit && digit ≤ '9') || ('a' ≤ digit && digit ≤ 'f')) = true ∧ digit ≠ 'f' := by
  have hdigit : ∀ k < 15, (('0' ≤ Nat.digitChar k && Nat.digitChar k ≤ '9') ||
      ('a' ≤ Nat.digitChar k && Nat.digitChar k ≤ 'f')) = true ∧ Nat.digitChar k ≠ 'f' := by decide
  obtain ⟨i, -, rfl⟩ := List.mem_map.mp h
  exact hdigit _ (Nat.mod_lt _ (by decide))

theorem digest_hex (number : Nat) : digestText (digits 64 number) = true := by
  simp only [digestText, Bool.and_eq_true, List.all_eq_true]
  exact ⟨by simp [digits], fun digit hdigit => (digits_spec hdigit).1⟩

def weigh (text : Str) : Nat := text.foldl (fun sum character => 31 * sum + character.toNat) 1

def codec : Codec where
  recordHash body := digits 64 (weigh (body.previousRecordSha256 ++ body.claimId ++
    body.candidateKey ++ body.runId ++ body.releaseReason.getD []) + body.sequence)
  headHash body := digits 64 (weigh body.lastRecordSha256 + body.recordCount)
  claimHash key run approval sequence :=
    List.replicate sequence 'f' ++ digits (64 - sequence) (weigh (key ++ run ++ approval))
  keyHash body := digits 64 (weigh (body.targetKey ++ body.candidateApSha256))
  recordSize record := 1024 + record.runId.length
  headSize _ := 256
  recordHash_hex _ := digest_hex _
  headHash_hex _ := digest_hex _
  headSize_le _ _ _ _ _ := by decide

def identity : Identity where
  candidateKey := digits 64 (weigh (F1.zeroSha256 ++ F1.zeroSha256))
  targetProfileSha256 := F1.zeroSha256
  targetKey := F1.zeroSha256
  candidateApSha256 := F1.zeroSha256
  candidateApSize := 1
  bootMemberName := bootMember
  bootMemberSize := 1
  bootMemberSha256 := F1.zeroSha256
  manifestId := "run".toList
  runId := "run".toList
  approvalBindingSha256 := F1.zeroSha256

def record : Record := sealRecord codec [] (claimDraft codec [] identity)

def empty : Directory := { root := ⟨some (headOf codec []), []⟩ }

/-- The claim is stopped when it has written the staging file, before that is synced. -/
def stopped : Directory :=
  runFor handle 25 ((Call.claim identity).program codec []).run empty

theorem empty_recoverable : Recoverable codec [] empty :=
  ⟨rfl, chain_nil, Nat.zero_le 1, .inl rfl⟩

end Sample

theorem interrupted_call_is_repaired_sample :
    Sample.stopped.root.head = some (headOf Sample.codec []) ∧
      Sample.stopped.root.staging.length = 1 ∧
      Repaired Sample.codec [Sample.record] Sample.stopped := by
  have hcontents : contents Sample.stopped.records =
      contents Sample.empty.records ++ [(Sample.record.name, some Sample.record)] := by
    decide +kernel
  have hvisits := visits_runFor after_handle 25
    ((Call.claim Sample.identity).program Sample.codec []).run Sample.empty
  have hrepaired := interrupted_call_is_repaired Sample.empty_recoverable hvisits (.inl rfl)
  exact ⟨by decide +kernel, by decide +kernel, (hrepaired.2 Sample.record hcontents).1⟩

end NativeInitLab.Registry
