import NativeInitLab.Library.LittleEndian

namespace NativeInitLab.Evidence

open LittleEndian

/-! The bounded durable history: a 256-byte header and at most 120 records of
128 bytes, each naming the tag of its predecessor. -/

def headerBytes : Nat := 256
def recordBytes : Nat := 128
def recordLimit : Nat := 120
def maximumBytes : Nat := headerBytes + recordBytes * recordLimit

abbrev kindInit : Nat := 1
abbrev kindStart : Nat := 2
abbrev kindProgress : Nat := 3
abbrev kindBoundary : Nat := 4
abbrev kindReportLost : Nat := 5
abbrev kindComplete : Nat := 6
abbrev kindRelease : Nat := 7
abbrev kindStop : Nat := 8
abbrev kindRebootIntent : Nat := 9
abbrev kindShutdownIntent : Nat := 10
abbrev kindConfigCreated : Nat := 11
abbrev kindConfigRetired : Nat := 12
abbrev kindPackageIntent : Nat := 13
abbrev kindPackageComplete : Nat := 14
abbrev kindAptClock : Nat := 15
abbrev kindAptAcquired : Nat := 16

structure Record where
  bytes : List UInt8
  size : bytes.length = recordBytes
  deriving DecidableEq

structure Tag where
  bytes : List UInt8
  size : bytes.length = 32
  deriving DecidableEq

/-- HMAC-SHA256 under the session key, as a function of the domain text and the
body that follows it in the authenticated message. -/
abbrev Mac := String → List UInt8 → Tag

/-- The selectable builds, in the order in which each adds to its predecessor. -/
inductive Revision where
  | base
  | autoboot
  | singleCpu
  | reboot
  | cronConfig
  | download
  | package
  | apt
  deriving DecidableEq, Repr

namespace Revision

def number : Revision → Nat
  | .base => 4
  | .autoboot => 5
  | .singleCpu => 6
  | .reboot => 7
  | .cronConfig => 8
  | .download => 9
  | .package => 10
  | .apt => 11

def definesAutoboot (revision : Revision) : Prop := 5 ≤ revision.number
def definesSingleCpu (revision : Revision) : Prop := 6 ≤ revision.number
def definesReboot (revision : Revision) : Prop := 7 ≤ revision.number
def definesCronConfig (revision : Revision) : Prop := 8 ≤ revision.number
def definesDownload (revision : Revision) : Prop := 9 ≤ revision.number
def definesPackage (revision : Revision) : Prop := 10 ≤ revision.number
def definesApt (revision : Revision) : Prop := 11 ≤ revision.number

instance (revision : Revision) : Decidable revision.definesAutoboot :=
  inferInstanceAs (Decidable (_ ≤ _))
instance (revision : Revision) : Decidable revision.definesSingleCpu :=
  inferInstanceAs (Decidable (_ ≤ _))
instance (revision : Revision) : Decidable revision.definesReboot :=
  inferInstanceAs (Decidable (_ ≤ _))
instance (revision : Revision) : Decidable revision.definesCronConfig :=
  inferInstanceAs (Decidable (_ ≤ _))
instance (revision : Revision) : Decidable revision.definesDownload :=
  inferInstanceAs (Decidable (_ ≤ _))
instance (revision : Revision) : Decidable revision.definesPackage :=
  inferInstanceAs (Decidable (_ ≤ _))
instance (revision : Revision) : Decidable revision.definesApt :=
  inferInstanceAs (Decidable (_ ≤ _))

end Revision

structure Fields where
  seq : Nat
  kind : Nat
  elapsed : Nat
  phase : Nat
  event : Nat
  a : Nat
  b : Nat
  c : Nat
  flags : Nat
  reserved : Nat
  deriving DecidableEq, Repr

/-- `S22DER1` and `S22DE01`, each with its terminating zero byte. -/
def recordMagic : List UInt8 := [0x53, 0x32, 0x32, 0x44, 0x45, 0x52, 0x31, 0]
def headerMagic : List UInt8 := [0x53, 0x32, 0x32, 0x44, 0x45, 0x30, 0x31, 0]

namespace Record

def body (record : Record) : List UInt8 := record.bytes.take 96

def previousTag (record : Record) : List UInt8 := window 64 32 record.bytes
def ownTag (record : Record) : Tag :=
  ⟨record.bytes.drop 96, by
    rw [List.length_drop, record.size]
    rfl⟩

theorem length_previousTag (record : Record) : record.previousTag.length = 32 := by
  apply length_window
  rw [record.size]
  decide

def ofFields (fields : Fields) (previous own : Tag) : Record where
  bytes :=
    recordMagic ++ store 4 fields.seq ++ store 4 fields.kind ++
      store 8 fields.elapsed ++ store 4 fields.phase ++ store 4 fields.event ++
      store 8 fields.a ++ store 8 fields.b ++ store 8 fields.c ++
      store 4 fields.flags ++ store 4 fields.reserved ++
      previous.bytes ++ own.bytes
  size := by
    simp [recordMagic, previous.size, own.size, recordBytes]

end Record

structure Header where
  bytes : List UInt8
  size : bytes.length = headerBytes
  deriving DecidableEq

namespace Header

def body (header : Header) : List UInt8 := header.bytes.take 224

def ownTag (header : Header) : Tag :=
  ⟨header.bytes.drop 224, by
    rw [List.length_drop, header.size]
    rfl⟩

end Header

end NativeInitLab.Evidence
