/-! One name of a directory, its file, and what a loss of power leaves of them. -/

namespace DurableFile

/-- A file; `flushed` says whether its content and attributes are on the medium. -/
structure Stored (β A : Type) where
  content : List β
  attributes : A
  flushed : Bool

/-- A name: the file that it stands for, and those that it stood for since the directory was last
synced, the latest first. -/
structure Path (β A : Type) where
  now : Option (Stored β A) := none
  past : List (Option (Stored β A)) := []

variable {β A : Type}

namespace Path

def versions (path : Path β A) : List (Option (Stored β A)) := path.now :: path.past

def create (attributes : A) (path : Path β A) : Path β A :=
  ⟨some ⟨[], attributes, false⟩, path.versions⟩

def unlink (path : Path β A) : Path β A := ⟨none, path.versions⟩

def write (content : List β) (path : Path β A) : Path β A :=
  { path with now := path.now.map fun stored => { stored with content, flushed := false } }

def setAttributes (change : A → A) (path : Path β A) : Path β A :=
  { path with now := path.now.map fun stored =>
      { stored with attributes := change stored.attributes, flushed := false } }

def flush (path : Path β A) : Path β A :=
  { path with now := path.now.map fun stored => { stored with flushed := true } }

def settle (path : Path β A) : Path β A := { path with past := [] }

end Path

/-- A file after a loss of power: what was not flushed is anything that is not longer. -/
inductive Left : Option (Stored β A) → Option (Stored β A) → Prop
  | none : Left none none
  | whole {stored : Stored β A} (hflushed : stored.flushed = true) :
      Left (some stored) (some stored)
  | torn {stored : Stored β A} {content : List β} (attributes : A)
      (hlength : content.length ≤ stored.content.length) (hunflushed : stored.flushed = false) :
      Left (some stored) (some ⟨content, attributes, true⟩)

/-- A name after a loss of power: of the changes since the last sync, only the first few may have
reached the medium. -/
structure Path.Crash (path after : Path β A) : Prop where
  now : ∃ version ∈ path.versions, Left version after.now
  past : after.past = []

def Path.Durable (path : Path β A) : Prop :=
  path.past = [] ∧ ∃ stored, path.now = some stored ∧ stored.flushed = true

theorem Path.Durable.crash {path after : Path β A} (h : path.Durable) (hcrash : path.Crash after) :
    after.Durable := by
  obtain ⟨hpast, stored, hnow, hflushed⟩ := h
  refine ⟨hcrash.past, ?_⟩
  obtain ⟨version, hversion, hleft⟩ := hcrash.now
  rw [versions, hpast, hnow, List.mem_singleton] at hversion
  subst hversion
  generalize after.now = found at hleft
  cases hleft with
  | whole => exact ⟨stored, rfl, hflushed⟩
  | torn _ _ hunflushed =>
    rw [hflushed] at hunflushed
    cases hunflushed

theorem Path.Durable.settle {path : Path β A} (h : path.Durable) : path.settle.Durable :=
  ⟨rfl, h.2⟩

theorem Path.Durable.present {path : Path β A} (h : path.Durable) : path.now ≠ none := by
  obtain ⟨-, stored, hnow, -⟩ := h
  rw [hnow]
  exact Option.some_ne_none stored

/-- All files that a name can stand for, now or after a loss of power, satisfy `good`. -/
def Path.All (good : Stored β A → Prop) (path : Path β A) : Prop :=
  ∀ stored, some stored ∈ path.versions → good stored

/-- A property that a file which was not flushed leaves to whatever becomes of it. -/
def Inherited (good : Stored β A → Prop) : Prop :=
  ∀ stored content attributes, good stored → stored.flushed = false →
    content.length ≤ stored.content.length → good ⟨content, attributes, true⟩

theorem Left.all {good : Stored β A → Prop} {before after : Option (Stored β A)}
    (h : Left before after) (hgood : Inherited good)
    (hbefore : ∀ stored, before = some stored → good stored) :
    ∀ stored, after = some stored → good stored := by
  cases h with
  | none => exact fun _ hnone => (by cases hnone)
  | whole => exact hbefore
  | @torn stored content attributes hlength hunflushed =>
    rintro _ ⟨⟩
    exact hgood stored content attributes (hbefore stored rfl) hunflushed hlength

theorem Path.All.crash {good : Stored β A → Prop} {path after : Path β A} (h : path.All good)
    (hgood : Inherited good) (hcrash : path.Crash after) : after.All good := by
  obtain ⟨version, hversion, hleft⟩ := hcrash.now
  intro stored hstored
  rw [versions, hcrash.past, List.mem_singleton] at hstored
  exact hleft.all hgood (fun earlier hearlier => h earlier (hearlier ▸ hversion)) stored hstored.symm

theorem Path.All.settle {good : Stored β A → Prop} {path : Path β A} (h : path.All good) :
    path.settle.All good := by
  intro stored hstored
  rw [versions, Path.settle, List.mem_singleton] at hstored
  exact h stored (hstored ▸ List.mem_cons_self)

end DurableFile
