import NativeInitLab.Library.CrashProgram
import NativeInitLab.Library.TornWrite
import Mathlib.Data.Fintype.Pi

namespace NativeInitLab.Gpt

open CrashProgram

/-! The fixed partition-table rewrite: both regions of the table are read as one
image, and only four blocks of it may change. -/

abbrev blockBytes : Nat := 4096
abbrev primaryBytes : Nat := 6 * blockBytes
abbrev backupBytes : Nat := 9 * blockBytes
abbrev imageBytes : Nat := primaryBytes + backupBytes
abbrev totalLbas : Nat := 62305280

abbrev Image := Fin imageBytes → UInt8

inductive Mode where
  | observe
  | apply
  | restore
  | unknown
  deriving DecidableEq, Repr

inductive Error where
  | ok
  | badMode
  | read
  | outside
  | noCopy
  | notOriginal
  | write
  | sync
  | readback
  | final
  deriving DecidableEq, Repr

inductive Event where
  | intent
  | complete
  | skip
  deriving DecidableEq, Repr

structure Result where
  writesAttempted : Nat := 0
  writesCompleted : Nat := 0
  skipped : Nat := 0
  primaryKind : Nat := 0
  backupKind : Nat := 0
  finalKind : Nat := 0
  deriving DecidableEq, Repr

/-- Backup table block 2, backup header, primary table block 2, primary header. -/
def offsets : Nat → Nat
  | 0 => primaryBytes + blockBytes
  | 1 => primaryBytes + 8 * blockBytes
  | 2 => 3 * blockBytes
  | _ => blockBytes

def lbas : Nat → Nat
  | 0 => totalLbas - 8
  | 1 => totalLbas - 1
  | 2 => 3
  | _ => 1

def span (off size : Nat) : Set (Fin imageBytes) :=
  { i | off ≤ i.val ∧ i.val < off + size }

def same (data other : Image) (off size : Nat) : Prop :=
  Set.EqOn data other (span off size)

@[irreducible]
instance decidableSame (data other : Image) (off size : Nat) :
    Decidable (same data other off size) :=
  inferInstanceAs (Decidable (∀ i : Fin imageBytes,
    (off ≤ i.val ∧ i.val < off + size) → data i = other i))

def kind (data original proposed : Image) (off size : Nat) : Nat :=
  if same data original off size then 1
  else if same data proposed off size then 2
  else 0

/-- Blocks outside the four mutable ones are original, and so is every byte that
the proposal does not change. -/
def scope (data original proposed : Image) : Prop :=
  (∀ n < imageBytes / blockBytes, (∀ i < 4, n * blockBytes ≠ offsets i) →
      same data original (n * blockBytes) blockBytes) ∧
    ∀ i, original i = proposed i → data i = original i

instance (data original proposed : Image) : Decidable (scope data original proposed) :=
  inferInstanceAs (Decidable (_ ∧ _))

def copies (data original proposed : Image) (r : Result) : Result :=
  { r with
    primaryKind := kind data original proposed 0 primaryBytes
    backupKind := kind data original proposed primaryBytes backupBytes
    finalKind := kind data original proposed 0 imageBytes }

inductive Op where
  | read
  | write (lba : Nat) (data : Nat → UInt8)
  | sync
  | event (event : Event) (ordinal lba : Nat)

/-- A failed read has no image; the other calls answer whether they succeeded. -/
abbrev Answer : Op → Type
  | .read => Option Image
  | .write _ _ => Bool
  | .sync => Bool
  | .event _ _ _ => Unit

abbrev Io (A : Type) := Program Op Answer A

def call (op : Op) : Io (Answer op) := Program.perform op

def blockAt (target : Image) (off : Nat) : Nat → UInt8 := fun j =>
  if h : off + j < imageBytes then target ⟨off + j, h⟩ else 0

def patch (expected target : Image) (off : Nat) : Image := fun i =>
  if off ≤ i.val ∧ i.val < off + blockBytes then target i else expected i

def finish (original proposed target : Image) (r : Result) : Io (Error × Result) := do
  match ← call .read with
  | none => return (.read, r)
  | some work =>
    if same work target 0 imageBytes then
      return (.ok, copies work original proposed r)
    else return (.final, r)

/-- The loop over the ordinals that remain, with the `expected` buffer and the
result record as its state. -/
def writeBlocks (original proposed target : Image) (first : Nat) :
    List Nat → Image → Result → Io (Error × Result)
  | [], _, r => finish original proposed target r
  | ordinal :: rest, expected, r =>
    let i := (first + ordinal) % 4
    if same expected target (offsets i) blockBytes then do
      let _ ← call (.event .skip ordinal (lbas i))
      writeBlocks original proposed target first rest expected { r with skipped := r.skipped + 1 }
    else do
      let _ ← call (.event .intent ordinal (lbas i))
      let r := { r with writesAttempted := r.writesAttempted + 1 }
      let written ← call (.write (lbas i) (blockAt target (offsets i)))
      if written = false then return (.write, r)
      else
        let synced ← call .sync
        if synced = false then return (.sync, r)
        else
          let expected := patch expected target (offsets i)
          match ← call .read with
          | none => return (.read, r)
          | some work =>
            if ¬ same work expected 0 imageBytes then return (.readback, r)
            else
              let r := copies work original proposed r
              if r.primaryKind = 0 ∧ r.backupKind = 0 then return (.noCopy, r)
              else
                let r := { r with writesCompleted := r.writesCompleted + 1 }
                let _ ← call (.event .complete ordinal (lbas i))
                writeBlocks original proposed target first rest expected r

def execute (mode : Mode) (original proposed : Image) : Io (Error × Result) :=
  if mode = .unknown then return (.badMode, {})
  else do
    match ← call .read with
    | none => return (.read, {})
    | some work =>
      if ¬ scope work original proposed then return (.outside, {})
      else
        let r := copies work original proposed {}
        if r.primaryKind = 0 ∧ r.backupKind = 0 then return (.noCopy, r)
        else if mode = .observe then return (.ok, r)
        else if mode = .apply ∧ r.finalKind ≠ 1 then return (.notOriginal, r)
        else
          let target := if mode = .apply then proposed else original
          let first := if r.primaryKind ≠ 0 then 0 else 2
          writeBlocks original proposed target first [0, 1, 2, 3] work r

end NativeInitLab.Gpt
