import Mathlib.Data.List.Sort
import NativeInitLab.Library.LittleEndian
import NativeInitLab.Library.Lockstep
import NativeInitLab.Library.Numerals

/-! The storage census: two captured partition tables between two readings of sysfs, and the
checks of the host that accepts them. -/

namespace NativeInitLab.StorageCensus

open LittleEndian (value)
open Lockstep (require require_eq_ok require_bind_eq_ok bind_eq_ok)

abbrev Bytes := List UInt8

abbrev Str := List Char

def blockSize : Nat := 4096

def primaryBlocks : Nat := 6

def maxOutput : Nat := 65536

structure Python where
  crc32 : Bytes → Nat
  sha256 : Bytes → Str
  utf16 : Bytes → Option Str

def ascii (text : String) : Bytes := text.toList.map fun character => character.toNat.toUInt8

def slice (bytes : Bytes) (first last : Nat) : Bytes := (bytes.drop first).take (last - first)

def zeros (count : Nat) : Bytes := List.replicate count 0

def lower (name : Str) : Str := name.map Char.toLower

def afterPrefix (start text : Bytes) : Option Bytes :=
  if start.isPrefixOf text then some (text.drop start.length) else none

def bounded (isDigit : UInt8 → Bool) (limit : Nat) (text : Bytes) : Bool :=
  text != [] && text.length ≤ limit && text.all isDigit

def deviceNumber (text : Bytes) (hexadecimal : Bool) : Except String (Nat × Nat) :=
  let isDigit := if hexadecimal then Numerals.isHex else Numerals.isDecimal
  let base := if hexadecimal then 16 else 10
  match text.splitOn 58 with
  | [major, minor] => do
    require (bounded isDigit (if hexadecimal then 3 else 4) major = true ∧
      bounded isDigit (if hexadecimal then 5 else 7) minor = true)
      "device number spelling is not bounded"
    let number := (Numerals.value base major, Numerals.value base minor)
    require (number.1 < 4096 ∧ number.2 < 1048576) "device number exceeds target dev_t"
    .ok number
  | _ => .error "device number spelling is not bounded"

/-- The parent and the partition of a path that the pattern of `geometry` matches. -/
def matchAncestry (path : Bytes) : Option (Bytes × Bytes) := do
  let rest ← afterPrefix (ascii "/sys/devices/platform/soc") path
  let rest ← afterPrefix (ascii "/1d84000.ufshc/host") ((afterPrefix (ascii "@0") rest).getD rest)
  let host := rest.takeWhile Numerals.isDecimal
  guard (host != [])
  let rest ← afterPrefix (host ++ ascii "/target" ++ host ++ ascii ":0:0/" ++ host ++
    ascii ":0:0:0/block/") rest
  let parent := rest.take 3
  guard (parent.take 2 == ascii "sd" && (parent.drop 2).all fun byte => 97 ≤ byte && byte ≤ 122)
  let userdata ← afterPrefix (parent ++ ascii "/") rest
  let number ← afterPrefix parent userdata
  guard (parent.length == 3 && number != [] && number.head? != some 48 &&
    number.all Numerals.isDecimal)
  return (parent, userdata)

def field (lines : List Bytes) (index : Nat) : Bytes := lines.getD index []

def decimal (lines : List Bytes) (index : Nat) : Nat := Numerals.value 10 (field lines index)

structure Geometry where
  ancestry : Bytes
  parent : Bytes
  userdata : Bytes
  userdataDevice : Bytes
  parentDevice : Bytes
  logicalBlockSize : Nat
  capacityBytes : Nat
  totalLbas : Nat
  userdataFirstLba : Nat
  userdataLastLba : Nat
  deriving DecidableEq

def geometry (lines : List Bytes) : Except String Geometry := do
  require (lines.length = 8) "geometry field count differs"
  require (lines.all (fun line => line.all (· < 128)) = true) "geometry is not ASCII"
  match matchAncestry (field lines 0) with
  | none => .error "userdata is not on the exact FYG8 UFS LU0"
  | some (parent, userdata) => do
    let _ ← deviceNumber (field lines 1) false
    let expectedDevice ← deviceNumber (field lines 4) false
    let heldDevice ← deviceNumber (field lines 7) true
    require ([2, 3, 5, 6].all (fun index => bounded Numerals.isDecimal 16 (field lines index)) = true)
      "geometry length is not bounded decimal"
    let start := decimal lines 2
    let size := decimal lines 3
    let sectors := decimal lines 5
    let logical := decimal lines 6
    require (logical = blockSize ∧ 128 < sectors ∧ sectors < 281474976710656 ∧ sectors % 8 = 0 ∧
      0 < start ∧ start < start + size ∧ start + size ≤ sectors ∧ start % 8 = 0 ∧ size % 8 = 0)
      "geometry capacity or alignment differs"
    require (heldDevice = expectedDevice) "held block path has a different device number"
    .ok { ancestry := field lines 0, parent := parent, userdata := userdata,
          userdataDevice := field lines 1, parentDevice := field lines 4,
          logicalBlockSize := logical, capacityBytes := sectors * 512, totalLbas := sectors / 8,
          userdataFirstLba := start / 8, userdataLastLba := (start + size) / 8 - 1 }

structure Fields where
  signature : Bytes
  revision : Nat
  size : Nat
  crc : Nat
  reserved : Nat
  current : Nat
  alternate : Nat
  first : Nat
  last : Nat
  guid : Bytes
  tableLba : Nat
  count : Nat
  entrySize : Nat
  tableCrc : Nat

def unsigned (width : Nat) (bytes : Bytes) (offset : Nat) : Nat :=
  value (slice bytes offset (offset + width))

def unpackHeader (block : Bytes) : Fields where
  signature := slice block 0 8
  revision := unsigned 4 block 8
  size := unsigned 4 block 12
  crc := unsigned 4 block 16
  reserved := unsigned 4 block 20
  current := unsigned 8 block 24
  alternate := unsigned 8 block 32
  first := unsigned 8 block 40
  last := unsigned 8 block 48
  guid := slice block 56 72
  tableLba := unsigned 8 block 72
  count := unsigned 4 block 80
  entrySize := unsigned 4 block 84
  tableCrc := unsigned 4 block 88

structure Gpt where
  firstUsableLba : Nat
  lastUsableLba : Nat
  diskGuid : Bytes
  entryCount : Nat
  entrySize : Nat
  entriesSha256 : Str
  deriving DecidableEq

structure Blob where
  bytes : Bytes
  captureFirstLba : Nat

namespace Blob

variable (blob : Blob)

def offset (lba : Nat) : Int := ((lba : Int) - blob.captureFirstLba) * blockSize

def block (lba : Nat) : Bytes :=
  slice blob.bytes (blob.offset lba).toNat (blob.offset lba + blockSize).toNat

def fields (lba : Nat) : Fields := unpackHeader (blob.block lba)

def table (fields : Fields) : Bytes :=
  slice blob.bytes (blob.offset fields.tableLba).toNat
    (blob.offset fields.tableLba + fields.count * fields.entrySize).toNat

end Blob

def Fields.blocks (fields : Fields) : Nat :=
  (fields.count * fields.entrySize + blockSize - 1) / blockSize

def checkArray (fields : Fields) : Except String Unit :=
  if fields.current = 1 then
    require (2 ≤ fields.tableLba ∧ fields.tableLba + fields.blocks ≤ fields.first)
      "primary GPT array overlaps usable storage"
  else
    require (fields.last < fields.tableLba ∧ fields.tableLba + fields.blocks ≤ fields.current)
      "backup GPT array overlaps usable storage"

section Checks

variable (python : Python)

def header (blob : Blob) (myLba alternateLba totalLbas backupBlocks : Nat) :
    Except String (Gpt × Bytes) := do
  let offset := blob.offset myLba
  require (0 ≤ offset ∧ offset + blockSize ≤ blob.bytes.length)
    "GPT header is outside its fixed capture"
  let block := blob.block myLba
  let fields := blob.fields myLba
  require (fields.signature = ascii "EFI PART" ∧ fields.revision = 65536 ∧ 92 ≤ fields.size ∧
    fields.size ≤ blockSize ∧ fields.reserved = 0 ∧ fields.current = myLba ∧
    fields.alternate = alternateLba) "GPT header identity differs"
  let checked := block.take 16 ++ zeros 4 ++ (block.take fields.size).drop 20
  require (python.crc32 checked = fields.crc) "GPT header CRC differs"
  require (fields.guid ≠ zeros 16 ∧ primaryBlocks ≤ fields.first ∧ fields.first ≤ fields.last ∧
    fields.last + backupBlocks < totalLbas) "GPT usable range differs"
  require (0 < fields.count ∧ fields.count ≤ 128 ∧ 128 ≤ fields.entrySize ∧
    fields.entrySize % 128 = 0 ∧ fields.count * fields.entrySize ≤ 4 * blockSize)
    "GPT entry array exceeds the fixed metadata read"
  let tableOffset := blob.offset fields.tableLba
  let tableEnd := tableOffset + fields.count * fields.entrySize
  require (0 ≤ tableOffset ∧ tableOffset < tableEnd ∧ tableEnd ≤ blob.bytes.length ∧
    (tableEnd ≤ offset ∨ offset + blockSize ≤ tableOffset))
    "GPT entry array is outside its capture or overlaps its header"
  checkArray fields
  let table := blob.table fields
  require (python.crc32 table = fields.tableCrc) "GPT entry-array CRC differs"
  .ok ({ firstUsableLba := fields.first, lastUsableLba := fields.last, diskGuid := fields.guid,
         entryCount := fields.count, entrySize := fields.entrySize,
         entriesSha256 := python.sha256 table }, table)

structure Entry where
  index : Nat
  name : Str
  typeGuid : Bytes
  uniqueGuid : Bytes
  firstLba : Nat
  lastLba : Nat
  attributes : Nat
  sizeBytes : Nat
  entrySha256 : Str
  deriving DecidableEq

structure Listing where
  entries : List Entry := []
  guids : List Bytes := []
  names : List Str := []

def nameCharacter (character : Char) : Bool :=
  character.isAlphanum || character == '_' || character == '.' || character == '-'

def readEntry (gpt : Gpt) (table : Bytes) (listing : Listing) (index : Nat) :
    Except String Listing :=
  let entry := slice table (index * gpt.entrySize) ((index + 1) * gpt.entrySize)
  if entry.take 16 = zeros 16 then do
    require (entry.any (· != 0) = false) "unused GPT entry contains unexpected bytes"
    .ok listing
  else
    let uniqueGuid := slice entry 16 32
    let first := unsigned 8 entry 32
    let last := unsigned 8 entry 40
    match python.utf16 (slice entry 56 128) with
    | none => .error "GPT partition name is malformed"
    | some text => do
      let name := text.takeWhile (· != '\x00')
      require (name ≠ [] ∧ name.all nameCharacter = true ∧ name.length ≤ 36 ∧
        listing.names.contains (lower name) = false ∧ uniqueGuid ≠ zeros 16 ∧
        listing.guids.contains uniqueGuid = false)
        "GPT partition name or GUID is missing or ambiguous"
      require (gpt.firstUsableLba ≤ first ∧ first ≤ last ∧ last ≤ gpt.lastUsableLba)
        "GPT partition is outside usable storage"
      .ok { entries := listing.entries ++
              [{ index := index + 1, name := name, typeGuid := slice entry 0 16,
                 uniqueGuid := uniqueGuid, firstLba := first, lastLba := last,
                 attributes := unsigned 8 entry 48, sizeBytes := (last - first + 1) * blockSize,
                 entrySha256 := python.sha256 entry }],
            guids := listing.guids ++ [uniqueGuid], names := listing.names ++ [lower name] }

def readEntries (gpt : Gpt) (table : Bytes) : Except String Listing :=
  (List.range gpt.entryCount).foldlM (readEntry python gpt table) {}

def adjacentApart (ordered : List Entry) : Bool :=
  (ordered.zip ordered.tail).all fun pair => pair.1.lastLba < pair.2.firstLba

def userdataName : Str := "userdata".toList

def users (entries : List Entry) : List Entry :=
  entries.filter fun entry => lower entry.name == userdataName

/-- `split` of Python at newlines, at most `limit` times. -/
def split : Nat → Bytes → List Bytes
  | 0, text => [text]
  | limit + 1, text =>
    match text.dropWhile (· != 10) with
    | [] => [text]
    | _ :: rest => text.takeWhile (· != 10) :: split limit rest

/-- `splitlines` of Python, behind the unfinished `line`. -/
def splitlines (line : Bytes) : Bytes → List Bytes
  | [] => if line = [] then [] else [line]
  | 13 :: 10 :: rest => line :: splitlines [] rest
  | byte :: rest =>
    if byte = 10 ∨ byte = 13 then line :: splitlines [] rest
    else splitlines (line ++ [byte]) rest

structure Capture where
  before : List Bytes
  geometry : Geometry
  primary : Bytes
  backup : Bytes
  after : List Bytes

/-- The part of `decode` up to the comparison of the two geometries. -/
def readCapture (stdout : Bytes) (backupBlocks : Nat) : Except String Capture := do
  require (backupBlocks = 5 ∨ backupBlocks = 9) "unsupported fixed GPT capture profile"
  require (stdout.length ≤ maxOutput ∧ stdout.take 3 = ascii "G0\n")
    "census prefix or output bound differs"
  let parts := split 8 (stdout.drop 3)
  require (parts.length = 9) "initial geometry is incomplete"
  let before ← geometry (parts.take 8)
  let remaining := field parts 8
  let primarySize := primaryBlocks * blockSize
  let backupSize := backupBlocks * blockSize
  require (primarySize + backupSize + 3 ≤ remaining.length) "GPT capture is short"
  let tail := remaining.drop (primarySize + backupSize)
  require (tail.take 3 = ascii "G1\n" ∧ tail.drop (tail.length - 4) = ascii "END\n")
    "final geometry bracket is absent"
  let lines := splitlines [] ((tail.take (tail.length - 4)).drop 3)
  let after ← geometry lines
  require (before = after) "LU0 geometry changed during the census"
  .ok { before := parts.take 8, geometry := before, primary := remaining.take primarySize,
        backup := slice remaining primarySize (primarySize + backupSize), after := lines }

def checkMbr (primary : Bytes) (totalLbas : Nat) : Except String Unit := do
  require (slice primary 510 512 = [85, 170]) "protective MBR signature differs"
  let mbr := (List.range 4).map fun i => slice primary (446 + i * 16) (462 + i * 16)
  let protective := mbr.filter fun row => row.getD 4 0 == 238
  require (protective.length = 1 ∧ mbr.all (fun row => row.getD 4 0 == 0 || row.getD 4 0 == 238) = true)
    "protective MBR is missing or hybrid"
  let row := protective.headD []
  require (unsigned 4 row 8 = 1 ∧ unsigned 4 row 12 = min (totalLbas - 1) 4294967295)
    "protective MBR capacity differs"

structure Census where
  geometry : Geometry
  gpt : Gpt
  entries : List Entry
  userdata : Entry
  primarySha256 : Str
  backupSha256 : Str

namespace Capture

variable (capture : Capture)

def primaryBlob : Blob := ⟨capture.primary, 0⟩

def backupBlob (backupBlocks : Nat) : Blob :=
  ⟨capture.backup, capture.geometry.totalLbas - backupBlocks⟩

end Capture

def decimalText (number : Nat) : Bytes :=
  (Nat.toDigits 10 number).map fun character => character.toNat.toUInt8

def checkTables (capture : Capture) (backupBlocks : Nat) : Except String Census := do
  let total := capture.geometry.totalLbas
  checkMbr capture.primary total
  let (gpt, table) ← header python capture.primaryBlob 1 (total - 1) total backupBlocks
  let other ← header python (capture.backupBlob backupBlocks) (total - 1) 1 total backupBlocks
  require ((gpt, table) = other) "primary and backup GPT disagree"
  let listing ← readEntries python gpt table
  let ordered := listing.entries.insertionSort fun a b => a.firstLba ≤ b.firstLba
  require (adjacentApart ordered = true) "GPT partition extents overlap"
  match users listing.entries with
  | [user] => do
    require (user.firstLba = capture.geometry.userdataFirstLba ∧
      user.lastLba = capture.geometry.userdataLastLba ∧
      capture.geometry.userdata = capture.geometry.parent ++ decimalText user.index)
      "live userdata GPT and sysfs extents disagree"
    .ok { geometry := capture.geometry, gpt := gpt, entries := listing.entries, userdata := user,
          primarySha256 := python.sha256 capture.primary,
          backupSha256 := python.sha256 capture.backup }
  | _ => .error "live userdata GPT and sysfs extents disagree"

def decode (stdout : Bytes) (backupBlocks : Nat) : Except String Census := do
  let capture ← readCapture stdout backupBlocks
  checkTables python capture backupBlocks

end Checks

def Entry.Covers (entry : Entry) (lba : Nat) : Prop := entry.firstLba ≤ lba ∧ lba ≤ entry.lastLba

/-- Some byte of the entry array lies in the block. -/
def Fields.Touches (fields : Fields) (lba : Nat) : Prop :=
  fields.tableLba ≤ lba ∧
    lba * blockSize < fields.tableLba * blockSize + fields.count * fields.entrySize

/-- The header has the usable range and the layout of entries of the census. -/
structure Fields.Carries (fields : Fields) (gpt : Gpt) : Prop where
  first : fields.first = gpt.firstUsableLba
  last : fields.last = gpt.lastUsableLba
  count : fields.count = gpt.entryCount
  entrySize : fields.entrySize = gpt.entrySize

namespace Capture

variable (capture : Capture) (backupBlocks : Nat)

def primaryFields : Fields := capture.primaryBlob.fields 1

def backupFields : Fields :=
  (capture.backupBlob backupBlocks).fields (capture.geometry.totalLbas - 1)

/-- The protective record, the two headers and the two entry arrays. -/
def Metadata (lba : Nat) : Prop :=
  lba = 0 ∨ lba = 1 ∨ lba = capture.geometry.totalLbas - 1 ∨
    capture.primaryFields.Touches lba ∨ (capture.backupFields backupBlocks).Touches lba

end Capture

structure Sound (python : Python) (capture : Capture) (backupBlocks : Nat) (census : Census) :
    Prop where
  apart : census.entries.Pairwise fun a b => ∀ lba, a.Covers lba → ¬ b.Covers lba
  usable : ∀ entry ∈ census.entries, census.gpt.firstUsableLba ≤ entry.firstLba ∧
    entry.firstLba ≤ entry.lastLba ∧ entry.lastLba ≤ census.gpt.lastUsableLba
  clear : ∀ entry ∈ census.entries, ∀ lba, entry.Covers lba → ¬ capture.Metadata backupBlocks lba
  primary : capture.primaryFields.Carries census.gpt
  backup : (capture.backupFields backupBlocks).Carries census.gpt
  sameArray : capture.primaryBlob.table capture.primaryFields =
    (capture.backupBlob backupBlocks).table (capture.backupFields backupBlocks)
  listed : (readEntries python census.gpt (capture.primaryBlob.table capture.primaryFields)).map
    Listing.entries = .ok census.entries
  names : (census.entries.map fun entry => lower entry.name).Nodup
  guids : (census.entries.map Entry.uniqueGuid).Nodup
  userdata : users census.entries = [census.userdata]
  extent : ∀ lines ∈ [capture.before, capture.after],
    census.userdata.firstLba * blockSize = decimal lines 2 * 512 ∧
    (census.userdata.lastLba + 1 - census.userdata.firstLba) * blockSize = decimal lines 3 * 512

theorem geometry_spec {lines : List Bytes} {found : Geometry} (hread : geometry lines = .ok found) :
    16 < found.totalLbas ∧ decimal lines 2 = 8 * found.userdataFirstLba ∧
      decimal lines 2 + decimal lines 3 = 8 * (found.userdataLastLba + 1) := by
  rw [geometry, require_bind_eq_ok, require_bind_eq_ok] at hread
  obtain ⟨-, -, hread⟩ := hread
  split at hread
  · cases hread
  · simp only [bind_eq_ok, require_eq_ok, exists_const] at hread
    obtain ⟨-, -, -, -, -, -, -, hsizes, -, hread⟩ := hread
    cases hread
    dsimp only
    omega

theorem readCapture_spec {stdout : Bytes} {backupBlocks : Nat} {capture : Capture}
    (hread : readCapture stdout backupBlocks = .ok capture) :
    (backupBlocks = 5 ∨ backupBlocks = 9) ∧
      ∀ lines ∈ [capture.before, capture.after], geometry lines = .ok capture.geometry := by
  simp only [readCapture, bind_eq_ok, require_eq_ok, exists_const] at hread
  obtain ⟨hblocks, -, -, before, hbefore, -, -, after, hafter, rfl, hread⟩ := hread
  cases hread
  exact ⟨hblocks, List.forall_mem_cons.mpr ⟨hbefore, List.forall_mem_singleton.mpr hafter⟩⟩

theorem checkArray_spec {fields : Fields} {done : Unit} (hcheck : checkArray fields = .ok done) :
    (fields.current = 1 → fields.tableLba + fields.blocks ≤ fields.first) ∧
      (fields.current ≠ 1 → fields.last < fields.tableLba) := by
  rw [checkArray] at hcheck
  split at hcheck
  · next hfirst =>
    have hbounds := require_eq_ok.mp hcheck
    exact ⟨fun _ => hbounds.2, fun hother => absurd hfirst hother⟩
  · next hother =>
    have hbounds := require_eq_ok.mp hcheck
    exact ⟨fun hfirst => absurd hfirst hother, fun _ => hbounds.1⟩

theorem header_spec {python : Python} {blob : Blob} {myLba alternateLba totalLbas backupBlocks : Nat}
    {gpt : Gpt} {table : Bytes}
    (hread : header python blob myLba alternateLba totalLbas backupBlocks = .ok (gpt, table)) :
    ((blob.fields myLba).Carries gpt ∧ blob.table (blob.fields myLba) = table) ∧
    (6 ≤ gpt.firstUsableLba ∧ gpt.lastUsableLba + backupBlocks < totalLbas) ∧
    (myLba = 1 → (blob.fields myLba).tableLba + (blob.fields myLba).blocks ≤ gpt.firstUsableLba) ∧
    (myLba ≠ 1 → gpt.lastUsableLba < (blob.fields myLba).tableLba) := by
  simp only [header, bind_eq_ok, require_eq_ok, exists_const] at hread
  obtain ⟨-, hidentity, -, hrange, -, -, _, harray, -, hread⟩ := hread
  have hspec := checkArray_spec harray
  rw [hidentity.2.2.2.2.2.1] at hspec
  cases hread
  exact ⟨⟨⟨rfl, rfl, rfl, rfl⟩, rfl⟩, ⟨hrange.2.1, hrange.2.2.2⟩, hspec⟩

theorem Fields.Touches.lt_blocks {fields : Fields} {lba : Nat} (htouches : fields.Touches lba) :
    lba < fields.tableLba + fields.blocks := by
  obtain ⟨-, hbytes⟩ := htouches
  simp only [Fields.blocks, blockSize] at hbytes ⊢
  omega

structure Listing.Sound (gpt : Gpt) (listing : Listing) : Prop where
  usable : ∀ entry ∈ listing.entries, gpt.firstUsableLba ≤ entry.firstLba ∧
    entry.firstLba ≤ entry.lastLba ∧ entry.lastLba ≤ gpt.lastUsableLba
  names : (listing.entries.map fun entry => lower entry.name) = listing.names
  guids : listing.entries.map Entry.uniqueGuid = listing.guids
  freshNames : listing.names.Nodup
  freshGuids : listing.guids.Nodup

theorem Listing.Sound.readEntry {python : Python} {gpt : Gpt} {table : Bytes}
    {listing next : Listing} {index : Nat} (hsound : listing.Sound gpt)
    (hread : readEntry python gpt table listing index = .ok next) : next.Sound gpt := by
  rw [StorageCensus.readEntry] at hread
  split at hread
  · obtain ⟨-, hread⟩ := require_bind_eq_ok.mp hread
    cases hread
    exact hsound
  · split at hread
    · cases hread
    · obtain ⟨⟨-, -, -, hname, -, hguid⟩, hread⟩ := require_bind_eq_ok.mp hread
      obtain ⟨hrange, hread⟩ := require_bind_eq_ok.mp hread
      rw [List.contains_eq_mem, decide_eq_false_iff_not] at hname hguid
      cases hread
      constructor
      · exact List.forall_mem_append.mpr ⟨hsound.usable, List.forall_mem_singleton.mpr hrange⟩
      · rw [List.map_append, hsound.names]
        rfl
      · rw [List.map_append, hsound.guids]
        rfl
      · have hfresh := hsound.freshNames.concat hname
        rwa [List.concat_eq_append] at hfresh
      · have hfresh := hsound.freshGuids.concat hguid
        rwa [List.concat_eq_append] at hfresh

theorem readEntries_sound {python : Python} {gpt : Gpt} {table : Bytes} {listing : Listing}
    (hread : readEntries python gpt table = .ok listing) : listing.Sound gpt :=
  Lockstep.foldlM_keeps (Listing.Sound gpt) (fun _ _ _ hsound hnext => hsound.readEntry hnext)
    ⟨by simp, rfl, rfl, List.nodup_nil, List.nodup_nil⟩ hread

theorem pairwise_of_adjacentApart {ordered : List Entry}
    (hextents : ∀ entry ∈ ordered, entry.firstLba ≤ entry.lastLba)
    (hadjacent : adjacentApart ordered = true) :
    ordered.Pairwise fun a b => a.lastLba < b.firstLba := by
  induction ordered with
  | nil => exact List.Pairwise.nil
  | cons first rest ih =>
    cases rest with
    | nil => exact List.pairwise_singleton _ _
    | cons second rest =>
      obtain ⟨hfirst, hrest⟩ := (Bool.and_eq_true_iff).mp hadjacent
      obtain ⟨-, hextents⟩ := List.forall_mem_cons.mp hextents
      have hpairs := ih hextents hrest
      have hsecond := hextents second (List.mem_cons_self ..)
      refine List.pairwise_cons.mpr ⟨List.forall_mem_cons.mpr ⟨of_decide_eq_true hfirst, ?_⟩, hpairs⟩
      intro later hlater
      have hlast := (List.pairwise_cons.mp hpairs).1 later hlater
      have hone : first.lastLba < second.firstLba := of_decide_eq_true hfirst
      omega

theorem entries_apart {entries : List Entry}
    (hextents : ∀ entry ∈ entries, entry.firstLba ≤ entry.lastLba)
    (hadjacent : adjacentApart (entries.insertionSort fun a b => a.firstLba ≤ b.firstLba) = true) :
    entries.Pairwise fun a b => ∀ lba, a.Covers lba → ¬ b.Covers lba := by
  have hperm := List.perm_insertionSort (fun a b : Entry => a.firstLba ≤ b.firstLba) entries
  have hpairs := pairwise_of_adjacentApart
    (fun entry hentry => hextents entry (hperm.mem_iff.mp hentry)) hadjacent
  refine (hperm.pairwise_iff fun hapart lba hb ha => hapart lba ha hb).mp (hpairs.imp ?_)
  intro a b hbefore lba ha hb
  exact absurd (Nat.le_trans hb.1 ha.2) (Nat.not_le.mpr hbefore)

theorem checkTables_sound {python : Python} {capture : Capture} {backupBlocks : Nat}
    {census : Census} (hblocks : backupBlocks = 5 ∨ backupBlocks = 9)
    (hgeometry : ∀ lines ∈ [capture.before, capture.after], geometry lines = .ok capture.geometry)
    (hcheck : checkTables python capture backupBlocks = .ok census) :
    Sound python capture backupBlocks census := by
  have htotal := (geometry_spec (hgeometry _ (List.mem_cons_self ..))).1
  simp only [checkTables, bind_eq_ok, require_eq_ok, exists_const, Prod.exists] at hcheck
  obtain ⟨-, -, gpt, table, hprimary, other, otherTable, hbackup, hsame, listing, hlisting,
    hadjacent, hcheck⟩ := hcheck
  cases hsame
  have hsound := readEntries_sound hlisting
  obtain ⟨⟨hcarries, rfl⟩, hrange, harray, -⟩ := header_spec hprimary
  obtain ⟨⟨hcopied, hsame⟩, -, -, hother⟩ := header_spec hbackup
  split at hcheck
  · next user husers =>
    obtain ⟨⟨hfirst, hlast, -⟩, hcheck⟩ := require_bind_eq_ok.mp hcheck
    cases hcheck
    refine
      { apart := entries_apart (fun entry hentry => (hsound.usable entry hentry).2.1) hadjacent
        usable := hsound.usable
        clear := ?_
        primary := hcarries
        backup := hcopied
        sameArray := hsame.symm
        listed := ?_
        names := ?_
        guids := ?_
        userdata := husers
        extent := ?_ }
    · intro entry hentry lba hcovers hmetadata
      obtain ⟨hlow, -, hhigh⟩ := hsound.usable entry hentry
      have hlow := Nat.le_trans hlow hcovers.1
      have hhigh := Nat.le_trans hcovers.2 hhigh
      rcases hmetadata with rfl | rfl | rfl | htouches | htouches
      · omega
      · omega
      · omega
      · have hend : lba < gpt.firstUsableLba := Nat.lt_of_lt_of_le htouches.lt_blocks (harray rfl)
        omega
      · have hstart : gpt.lastUsableLba < lba := Nat.lt_of_lt_of_le (hother (by omega)) htouches.1
        omega
    · exact congrArg (Except.map Listing.entries) hlisting
    · exact hsound.names ▸ hsound.freshNames
    · exact hsound.guids ▸ hsound.freshGuids
    · intro lines hlines
      obtain ⟨-, hstart, hend⟩ := geometry_spec (hgeometry lines hlines)
      dsimp only [blockSize]
      omega
  · cases hcheck

theorem accepted_census_is_sound {python : Python} {stdout : Bytes} {backupBlocks : Nat}
    {census : Census} (haccepted : decode python stdout backupBlocks = .ok census) :
    ∃ capture, readCapture stdout backupBlocks = .ok capture ∧
      Sound python capture backupBlocks census := by
  obtain ⟨capture, hread, hcheck⟩ := bind_eq_ok.mp haccepted
  obtain ⟨hblocks, hgeometry⟩ := readCapture_spec hread
  exact ⟨capture, hread, checkTables_sound hblocks hgeometry hcheck⟩

/-! A disk of twenty blocks with three partitions, the userdata in blocks 9 to 14. -/

def sampleSum (bytes : Bytes) : Nat :=
  bytes.foldl (fun sum byte => (31 * sum + byte.toNat + 1) % 4294967296) 7

def samplePython : Python where
  crc32 := sampleSum
  sha256 := fun bytes => Nat.toDigits 16 (sampleSum bytes)
  utf16 := fun bytes => some ((bytes.filter (· != 0)).map fun byte => Char.ofNat byte.toNat)

def sampleEntry (guid first last : Nat) (name : String) : Bytes :=
  let store := LittleEndian.store
  [store 16 1, store 16 guid, store 8 first, store 8 last, zeros 8,
    (ascii name).flatMap fun byte => [byte, 0], zeros (72 - 2 * name.length)].flatten

def sampleTable : Bytes :=
  sampleEntry 2 8 8 "vbmeta" ++ sampleEntry 3 6 7 "boot" ++ sampleEntry 4 9 14 "userdata"

def sampleHeader (current alternate tableLba : Nat) : Bytes :=
  let store := LittleEndian.store
  let front := [ascii "EFI PART", store 4 65536, store 4 92].flatten
  let back := [zeros 4, store 8 current, store 8 alternate, store 8 6, store 8 14, store 16 1,
    store 8 tableLba, store 4 3, store 4 128, store 4 (sampleSum sampleTable)].flatten
  [front, store 4 (sampleSum (front ++ zeros 4 ++ back)), back, zeros 4004].flatten

def sampleMbr : Bytes :=
  [zeros 450, [238, 0, 0, 0, 1, 0, 0, 0, 19, 0, 0, 0], zeros 48, [85, 170], zeros 3584].flatten

def sampleGeometry : Bytes :=
  ascii "/sys/devices/platform/soc/1d84000.ufshc/host0/target0:0:0/0:0:0:0/block/sda/sda3\n" ++
    ascii "8:3\n72\n48\n8:0\n160\n4096\n8:0\n"

def sampleStdout : Bytes :=
  [ascii "G0\n", sampleGeometry, sampleMbr, sampleHeader 1 19 2, sampleTable, zeros 16000,
    sampleTable, zeros 16000, sampleHeader 19 1 15, ascii "G1\n", sampleGeometry,
    ascii "END\n"].flatten

theorem accepted_census_is_sound_sample :
    ∃ census capture, decode samplePython sampleStdout 5 = .ok census ∧
      census.entries.map Entry.index = [1, 2, 3] ∧ readCapture sampleStdout 5 = .ok capture ∧
      Sound samplePython capture 5 census := by
  have haccepted : (decode samplePython sampleStdout 5).toOption.map
      (fun census => census.entries.map Entry.index) = some [1, 2, 3] := by decide +kernel
  cases hcensus : decode samplePython sampleStdout 5 with
  | error text =>
    rw [hcensus] at haccepted
    cases haccepted
  | ok census =>
    rw [hcensus] at haccepted
    obtain ⟨capture, hread, hsound⟩ := accepted_census_is_sound hcensus
    exact ⟨census, capture, rfl, Option.some.inj haccepted, hread, hsound⟩

end NativeInitLab.StorageCensus
