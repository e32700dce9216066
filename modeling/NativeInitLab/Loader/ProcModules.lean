import NativeInitLab.Library.FixedWidth
import NativeInitLab.Library.Lines
import Mathlib.Data.List.Induction
import Mathlib.Data.List.Nodup
import Mathlib.Data.List.TakeWhile

namespace NativeInitLab.Loader

open FixedWidth

/-! The scan of the modules file for expected names, a chunk at a time. -/

def procScanChunk : Nat := 4096

def runtimeNameMax : Nat := 128

inductive Status where
  | ok
  | errArgument
  | errRead
  | errMalformed
  deriving DecidableEq

structure CString where
  bytes : List UInt8
  terminated : bytes.contains 0 = false
  deriving DecidableEq

def streq : List UInt8 → List UInt8 → Bool
  | [], [] => true
  | [], second :: _ => second == 0
  | first :: _, [] => first == 0
  | first :: rest, second :: others =>
    if first = 0 ∨ second = 0 then first == second
    else if first ≠ second then false
    else streq rest others

def checkNames (earlier : List CString) : List CString → Status
  | [] => .ok
  | name :: rest =>
    if name.bytes.length = 0 ∨ runtimeNameMax ≤ name.bytes.length then .errArgument
    else if earlier.any (fun other => streq name.bytes other.bytes) = true then .errArgument
    else checkNames (earlier ++ [name]) rest

def validateExpectedNames (names : List CString) : Status :=
  if names.isEmpty = true then .errArgument else checkNames [] names

def matchProcToken (token : List UInt8) : List CString → List Bool → Nat → List Bool × Nat
  | name :: names, seen :: found, foundCount =>
    if seen = false ∧ streq token name.bytes = true then (true :: found, foundCount + 1)
    else
      let later := matchProcToken token names found foundCount
      (seen :: later.1, later.2)
  | _, found, foundCount => (found, foundCount)

/-- The line that is being read; the buffer has room for the NUL after the token. -/
structure Line where
  token : List UInt8 := []
  fits : token.length < runtimeNameMax := by decide
  inFirstToken : Bool := true
  lineHasData : Bool := false
  matchedLine : Bool := false

def Line.endToken (line : Line) : Line :=
  { line with lineHasData := true, matchedLine := true, inFirstToken := false }

def Line.push (line : Line) (value : UInt8) (hfits : (line.token ++ [value]).length < runtimeNameMax) :
    Line where
  token := line.token ++ [value]
  fits := hfits
  inFirstToken := line.inFirstToken
  lineHasData := true
  matchedLine := line.matchedLine

structure Progress where
  line : Line := {}
  found : List Bool
  foundCount : Nat := 0
  linesSeen : Nat := 0

def Progress.matchToken (progress : Progress) (names : List CString) : Progress :=
  let matched := matchProcToken progress.line.token names progress.found progress.foundCount
  { progress with found := matched.1, foundCount := matched.2 }

def Progress.endLine (progress : Progress) : Progress :=
  { progress with linesSeen := wrap64 (progress.linesSeen + 1) }

def isBlank (value : UInt8) : Bool := value == 32 || value == 9

def step (names : List CString) (progress : Progress) (value : UInt8) : Except Progress Progress :=
  if value = 0 then .error progress
  else if value = 10 then
    let ended :=
      if progress.line.lineHasData = true then
        (if progress.line.inFirstToken = true ∧ progress.line.matchedLine = false then
          progress.matchToken names
        else progress).endLine
      else progress
    .ok { ended with line := {} }
  else if progress.line.inFirstToken = false then
    .ok { progress with line := { progress.line with lineHasData := true } }
  else if isBlank value = true then
    if progress.line.token.length = 0 then .error progress
    else .ok { progress.matchToken names with line := progress.line.endToken }
  else if hfits : (progress.line.token ++ [value]).length < runtimeNameMax then
    .ok { progress with line := progress.line.push value hfits }
  else .error progress

def Progress.finish (progress : Progress) (names : List CString) : Progress :=
  if progress.line.lineHasData = true then
    (if progress.line.inFirstToken = true then progress.matchToken names else progress).endLine
  else progress

structure ScanResult where
  bytesRead : Nat
  readCalls : Nat
  linesSeen : Nat
  foundCount : Nat
  eofSeen : Bool
  malformed : Bool
  deriving DecidableEq

structure Memory where
  found : List Bool
  result : ScanResult
  deriving DecidableEq

def Progress.report (progress : Progress) (bytesRead readCalls : Nat) (eofSeen malformed : Bool) :
    Memory where
  found := progress.found
  result := ⟨bytesRead, readCalls, progress.linesSeen, progress.foundCount, eofSeen, malformed⟩

inductive Read where
  | failed
  | data (bytes : List UInt8)

/-- The loop; where the list ends, the reads give nothing. -/
def scanReads (names : List CString) (progress : Progress) (bytesRead readCalls : Nat) :
    List Read → Status × Memory
  | [] => (.ok, (progress.finish names).report bytesRead (wrap64 (readCalls + 1)) true false)
  | .failed :: _ => (.errRead, progress.report bytesRead (wrap64 (readCalls + 1)) false false)
  | .data bytes :: reads =>
    if bytes.length = 0 then
      (.ok, (progress.finish names).report bytesRead (wrap64 (readCalls + 1)) true false)
    else if procScanChunk < bytes.length then
      (.errMalformed, progress.report bytesRead (wrap64 (readCalls + 1)) false true)
    else
      match bytes.foldlM (step names) progress with
      | .error stopped => (.errMalformed, stopped.report (wrap64 (bytesRead + bytes.length))
          (wrap64 (readCalls + 1)) false true)
      | .ok next => scanReads names next (wrap64 (bytesRead + bytes.length))
          (wrap64 (readCalls + 1)) reads

def scanProcModules (names : List CString) (reads : List Read) (memory : Memory) :
    Status × Memory :=
  match validateExpectedNames names with
  | .ok => scanReads names { found := List.replicate names.length false } 0 0 reads
  | status => (status, memory)

section Names

variable {names earlier : List CString} {name : CString}

theorem CString.zero_not_mem (name : CString) : (0 : UInt8) ∉ name.bytes := by
  intro hmem
  have hcontains := List.contains_iff_mem.mpr hmem
  rw [name.terminated] at hcontains
  cases hcontains

theorem streq_iff {left right : List UInt8} (hleft : (0 : UInt8) ∉ left)
    (hright : (0 : UInt8) ∉ right) : streq left right = true ↔ left = right := by
  induction left generalizing right with
  | nil =>
    cases right with
    | nil => exact ⟨fun _ => rfl, fun _ => rfl⟩
    | cons second others =>
      have hsecond : second ≠ 0 := fun h => hright (h ▸ List.mem_cons_self)
      simp [streq, hsecond]
  | cons first rest ih =>
    have hfirst : first ≠ 0 := fun h => hleft (h ▸ List.mem_cons_self)
    cases right with
    | nil => simp [streq, hfirst]
    | cons second others =>
      have hsecond : second ≠ 0 := fun h => hright (h ▸ List.mem_cons_self)
      rw [streq, if_neg (not_or.mpr ⟨hfirst, hsecond⟩)]
      by_cases hsame : first = second
      · rw [if_neg (not_not.mpr hsame), ih (fun h => hleft (List.mem_cons_of_mem _ h))
          fun h => hright (List.mem_cons_of_mem _ h), hsame]
        exact ⟨fun h => by rw [h], fun h => (List.cons.inj h).2⟩
      · rw [if_pos hsame]
        exact ⟨nofun, fun h => (hsame (List.cons.inj h).1).elim⟩

structure Expected (names : List CString) : Prop where
  some : names ≠ []
  sizes : ∀ name ∈ names, 0 < name.bytes.length ∧ name.bytes.length < runtimeNameMax
  distinct : (names.map CString.bytes).Nodup

theorem checkNames_eq_ok : checkNames earlier names = .ok ↔
    (∀ name ∈ names, 0 < name.bytes.length ∧ name.bytes.length < runtimeNameMax) ∧
      (names.map CString.bytes).Nodup ∧
      ∀ name ∈ names, name.bytes ∉ earlier.map CString.bytes := by
  induction names generalizing earlier with
  | nil => exact ⟨fun _ => ⟨nofun, .nil, nofun⟩, fun _ => rfl⟩
  | cons name rest ih =>
    have hany : earlier.any (fun other => streq name.bytes other.bytes) = true ↔
        name.bytes ∈ earlier.map CString.bytes := by
      rw [List.any_eq_true, List.mem_map]
      refine exists_congr fun other => and_congr_right fun _ => ?_
      rw [streq_iff name.zero_not_mem other.zero_not_mem, eq_comm]
    rw [checkNames, List.forall_mem_cons, List.forall_mem_cons, List.map_cons, List.nodup_cons]
    by_cases hsize : name.bytes.length = 0 ∨ runtimeNameMax ≤ name.bytes.length
    · rw [if_pos hsize]
      refine ⟨nofun, fun h => ?_⟩
      omega
    rw [if_neg hsize]
    by_cases hearlier : name.bytes ∈ earlier.map CString.bytes
    · rw [if_pos (hany.mpr hearlier)]
      exact ⟨nofun, fun h => (h.2.2.1 hearlier).elim⟩
    rw [if_neg (fun h => hearlier (hany.mp h)), ih]
    have hlater : (∀ other ∈ rest, other.bytes ∉ (earlier ++ [name]).map CString.bytes) ↔
        name.bytes ∉ rest.map CString.bytes ∧
          ∀ other ∈ rest, other.bytes ∉ earlier.map CString.bytes := by
      simp only [List.map_append, List.map_singleton, List.mem_append, List.mem_singleton,
        not_or, List.mem_map, not_exists, not_and]
      exact ⟨fun h => ⟨fun other hother hsame => (h other hother).2 hsame,
        fun other hother => (h other hother).1⟩,
        fun h other hother => ⟨h.2 other hother, h.1 other hother⟩⟩
    rw [hlater]
    constructor
    · rintro ⟨hsizes, hnodup, hnew, hothers⟩
      exact ⟨⟨by omega, hsizes⟩, ⟨hnew, hnodup⟩, hearlier, hothers⟩
    · rintro ⟨⟨-, hsizes⟩, ⟨hnew, hnodup⟩, -, hothers⟩
      exact ⟨hsizes, hnodup, hnew, hothers⟩

theorem validateExpectedNames_eq_ok : validateExpectedNames names = .ok ↔ Expected names := by
  unfold validateExpectedNames
  cases names with
  | nil => exact ⟨nofun, fun h => (h.some rfl).elim⟩
  | cons name rest =>
    rw [if_neg (show ¬ (name :: rest).isEmpty = true by simp), checkNames_eq_ok]
    constructor
    · rintro ⟨hsizes, hdistinct, -⟩
      exact ⟨List.cons_ne_nil _ _, hsizes, hdistinct⟩
    · intro h
      exact ⟨h.sizes, h.distinct, nofun⟩

def foundIn (tokens : List (List UInt8)) (names : List CString) : List Bool :=
  names.map fun name => tokens.contains name.bytes

theorem foundIn_of_not_mem {tokens : List (List UInt8)} {token : List UInt8}
    (h : token ∉ names.map CString.bytes) :
    foundIn (tokens ++ [token]) names = foundIn tokens names := by
  refine List.map_congr_left fun name hname => ?_
  have hne : name.bytes ≠ token := fun hsame => h (hsame ▸ List.mem_map_of_mem hname)
  rw [Bool.eq_iff_iff, List.contains_iff_mem, List.contains_iff_mem, List.mem_append,
    List.mem_singleton, or_iff_left hne]

theorem matchProcToken_of_not_mem {token : List UInt8} {found : List Bool} {count : Nat}
    (htoken : (0 : UInt8) ∉ token) (h : token ∉ names.map CString.bytes) :
    matchProcToken token names found count = (found, count) := by
  induction names generalizing found with
  | nil => rfl
  | cons name names ih =>
    obtain ⟨hname, hnames⟩ := not_or.mp (List.mem_cons.not.mp h)
    cases found with
    | nil => rfl
    | cons seen found =>
      rw [matchProcToken, if_neg, ih hnames]
      rintro ⟨-, hsame⟩
      exact hname ((streq_iff htoken name.zero_not_mem).mp hsame)

theorem matchProcToken_eq {tokens : List (List UInt8)} {token : List UInt8} {count : Nat}
    (hdistinct : (names.map CString.bytes).Nodup) (htoken : (0 : UInt8) ∉ token) :
    (matchProcToken token names (foundIn tokens names) count).1 =
        foundIn (tokens ++ [token]) names ∧
      (matchProcToken token names (foundIn tokens names) count).2 +
          (foundIn tokens names).count true =
        count + (foundIn (tokens ++ [token]) names).count true := by
  induction names with
  | nil => exact ⟨rfl, rfl⟩
  | cons name names ih =>
    obtain ⟨hname, hnames⟩ := List.nodup_cons.mp hdistinct
    obtain ⟨hfound, hcount⟩ := ih hnames
    have hcons (tokens : List (List UInt8)) : foundIn tokens (name :: names) =
        tokens.contains name.bytes :: foundIn tokens names := rfl
    rw [hcons, hcons, matchProcToken]
    by_cases hsame : token = name.bytes
    · have hlater : foundIn (tokens ++ [token]) names = foundIn tokens names :=
        foundIn_of_not_mem (hsame ▸ hname)
      have hnow : (tokens ++ [token]).contains name.bytes = true := by
        rw [List.contains_iff_mem, hsame]
        exact List.mem_append_right _ (List.mem_singleton.mpr rfl)
      rw [hlater, hnow]
      cases hseen : tokens.contains name.bytes with
      | false =>
        rw [if_pos ⟨rfl, (streq_iff htoken name.zero_not_mem).mpr hsame⟩]
        refine ⟨rfl, ?_⟩
        rw [List.count_cons_of_ne (by decide), List.count_cons_self]
        omega
      | true =>
        rw [if_neg (fun h => nomatch h.1), matchProcToken_of_not_mem htoken (hsame ▸ hname)]
        exact ⟨rfl, rfl⟩
    · have hnow : (tokens ++ [token]).contains name.bytes = tokens.contains name.bytes := by
        rw [Bool.eq_iff_iff, List.contains_iff_mem, List.contains_iff_mem, List.mem_append,
          List.mem_singleton, or_iff_left (Ne.symm hsame)]
      rw [if_neg (fun h => hsame ((streq_iff htoken name.zero_not_mem).mp h.2)), hnow]
      refine ⟨congrArg _ hfound, ?_⟩
      rw [List.count_cons, List.count_cons]
      show (matchProcToken token names (foundIn tokens names) count).2 + _ = _
      omega

end Names

section Text

variable {line text : List UInt8} {value : UInt8}

def firstToken (line : List UInt8) : List UInt8 := line.takeWhile fun value => !isBlank value

def unbroken (line : List UInt8) : Bool := line.all fun value => !isBlank value

structure Readable (line : List UInt8) : Prop where
  noNul : (0 : UInt8) ∉ line
  start : ∀ first, line.head? = some first → isBlank first = false
  short : (firstToken line).length < runtimeNameMax

theorem readable_nil : Readable [] := ⟨nofun, nofun, by decide⟩

theorem firstToken_of_unbroken (h : unbroken line = true) : firstToken line = line :=
  List.takeWhile_eq_self_iff.mpr (List.all_eq_true.mp h)

theorem firstToken_concat (h : unbroken line = true) :
    firstToken (line ++ [value]) = if isBlank value = true then line else line ++ [value] := by
  have hline : ∀ first ∈ line, (!isBlank first) = true := List.all_eq_true.mp h
  rw [firstToken, List.takeWhile_append_of_pos hline, List.takeWhile_cons]
  cases isBlank value with
  | true => exact List.append_nil line
  | false => rfl

theorem firstToken_concat_of_broken (h : unbroken line = false) :
    firstToken (line ++ [value]) = firstToken line := by
  have hlength : (line.takeWhile fun value => !isBlank value).length ≠ line.length := by
    intro hlength
    have hall := List.takeWhile_eq_self_iff.mp
      ((List.takeWhile_sublist _).eq_of_length hlength)
    rw [unbroken, List.all_eq_true.mpr hall] at h
    cases h
  rw [firstToken, List.takeWhile_append, if_neg hlength]
  rfl

theorem unbroken_concat : unbroken (line ++ [value]) = (unbroken line && !isBlank value) := by
  rw [unbroken, unbroken, List.all_append, List.all_cons, List.all_nil, Bool.and_true]

theorem readable_concat (h : Readable line) : Readable (line ++ [value]) ↔
    value ≠ 0 ∧ (line = [] → isBlank value = false) ∧
      (unbroken line = true → isBlank value = false → (line ++ [value]).length < runtimeNameMax) := by
  constructor
  · intro hnext
    refine ⟨fun hzero => hnext.noNul (by simp [hzero]), ?_, fun hunbroken hblank => ?_⟩
    · rintro rfl
      exact hnext.start value rfl
    · have hshort := hnext.short
      rw [firstToken_concat hunbroken, if_neg (by rw [hblank]; exact Bool.false_ne_true)] at hshort
      exact hshort
  · rintro ⟨hzero, hstart, hshort⟩
    refine ⟨?_, ?_, ?_⟩
    · rw [List.mem_append, List.mem_singleton, not_or]
      exact ⟨h.noNul, Ne.symm hzero⟩
    · cases line with
      | nil =>
        rintro first ⟨⟩
        exact hstart rfl
      | cons head rest => exact h.start
    · cases hunbroken : unbroken line with
      | false =>
        rw [firstToken_concat_of_broken hunbroken]
        exact h.short
      | true =>
        rw [firstToken_concat hunbroken]
        cases hblank : isBlank value with
        | true =>
          rw [if_pos rfl, ← firstToken_of_unbroken hunbroken]
          exact h.short
        | false =>
          rw [if_neg Bool.false_ne_true]
          exact hshort hunbroken hblank

theorem Readable.of_concat (h : Readable (line ++ [value])) : Readable line := by
  refine ⟨fun hmem => h.noNul (List.mem_append_left _ hmem), ?_, ?_⟩
  · cases line with
    | nil => exact nofun
    | cons head rest => exact h.start
  · have hshort := h.short
    cases hunbroken : unbroken line with
    | false =>
      rw [firstToken_concat_of_broken hunbroken] at hshort
      exact hshort
    | true =>
      rw [firstToken_of_unbroken hunbroken]
      rw [firstToken_concat hunbroken] at hshort
      split at hshort
      · exact hshort
      · rw [List.length_append] at hshort
        omega

def ReadableText (text : List UInt8) : Prop := ∀ line ∈ text.splitOn 10, Readable line

theorem readableText_nil : ReadableText [] := List.forall_mem_singleton.mpr readable_nil

theorem readableText_iff : ReadableText text ↔
    (∀ line ∈ Lines.complete 10 text, Readable line) ∧ Readable (Lines.unfinished 10 text) := by
  rw [ReadableText, Lines.splitOn_eq, List.forall_mem_append, List.forall_mem_singleton]

theorem readableText_concat : ReadableText (text ++ [value]) ↔
    ReadableText text ∧ Readable (Lines.unfinished 10 (text ++ [value])) := by
  rw [readableText_iff, readableText_iff]
  by_cases hvalue : value = 10
  · subst hvalue
    rw [Lines.complete_newline, Lines.unfinished_newline, List.forall_mem_append,
      List.forall_mem_singleton]
  · rw [Lines.complete_other hvalue, Lines.unfinished_other hvalue]
    exact ⟨fun h => ⟨⟨h.1, h.2.of_concat⟩, h.2⟩, fun h => ⟨h.1.1, h.2⟩⟩

theorem ReadableText.of_append {more : List UInt8} (h : ReadableText (text ++ more)) :
    ReadableText text := by
  induction more generalizing text with
  | nil => rwa [List.append_nil] at h
  | cons value more ih =>
    rw [List.append_cons] at h
    exact (readableText_concat.mp (ih h)).1

end Text

/-! What the scanner has seen of the text: the lines before the last one, without the empty ones, and
the last one. -/

section Scanning

variable {names : List CString} {lines : List (List UInt8)} {line : List UInt8}
  {progress : Progress} {value : UInt8}

def nonempty (lines : List (List UInt8)) : List (List UInt8) := lines.filter fun line => !line.isEmpty

theorem nonempty_concat (lines : List (List UInt8)) (line : List UInt8) :
    nonempty (lines ++ [line]) = nonempty lines ++ nonempty [line] := List.filter_append ..

def tokensSeen (lines : List (List UInt8)) (line : List UInt8) : List (List UInt8) :=
  lines.map firstToken ++ if unbroken line = true then [] else [firstToken line]

structure Tally (names : List CString) (tokens : List (List UInt8)) (progress : Progress) :
    Prop where
  found : progress.found = foundIn tokens names
  foundCount : progress.foundCount = (foundIn tokens names).count true

structure Sees (names : List CString) (lines : List (List UInt8)) (line : List UInt8)
    (progress : Progress) : Prop where
  token : progress.line.token = firstToken line
  inFirstToken : progress.line.inFirstToken = unbroken line
  lineHasData : progress.line.lineHasData = !line.isEmpty
  matchedLine : progress.line.matchedLine = !unbroken line
  tally : Tally names (tokensSeen lines line) progress
  linesSeen : progress.linesSeen = wrap64 lines.length

theorem sees_start : Sees names [] [] { found := List.replicate names.length false } := by
  have hnone : foundIn (tokensSeen [] []) names = List.replicate names.length false := by
    show names.map (fun _ => false) = _
    rw [List.map_const']
  refine ⟨rfl, rfl, rfl, rfl, ⟨hnone.symm, ?_⟩, rfl⟩
  rw [hnone, List.count_replicate]
  rfl

theorem tokensSeen_of_unbroken (h : unbroken line = true) :
    tokensSeen lines line = lines.map firstToken := by
  rw [tokensSeen, if_pos h, List.append_nil]

theorem tokensSeen_of_broken (h : unbroken line = false) :
    tokensSeen lines line = lines.map firstToken ++ [firstToken line] := by
  rw [tokensSeen, h, if_neg Bool.false_ne_true]

section Step

variable (h : Sees names lines line progress)

include h

theorem Sees.skip (hbroken : unbroken line = false) : Sees names lines (line ++ [value])
      { progress with line := { progress.line with lineHasData := true } } := by
  have hstill : unbroken (line ++ [value]) = unbroken line := by
    rw [unbroken_concat, hbroken, Bool.false_and]
  have hfirst := @firstToken_concat_of_broken line value hbroken
  refine ⟨h.token.trans hfirst.symm, h.inFirstToken.trans hstill.symm, by simp, ?_, ?_, h.linesSeen⟩
  · rw [hstill]
    exact h.matchedLine
  · rw [tokensSeen, hstill, hfirst]
    exact ⟨h.tally.found, h.tally.foundCount⟩

theorem Sees.push (hunbroken : unbroken line = true) (hblank : isBlank value = false)
    (hfits : (progress.line.token ++ [value]).length < runtimeNameMax) :
    Sees names lines (line ++ [value]) { progress with line := progress.line.push value hfits } := by
  have hstill : unbroken (line ++ [value]) = true := by
    rw [unbroken_concat, hunbroken, hblank]
    rfl
  refine ⟨?_, ?_, by simp [Line.push], ?_, ?_, h.linesSeen⟩
  · rw [firstToken_of_unbroken hstill, ← firstToken_of_unbroken hunbroken, ← h.token]
    rfl
  · rw [hstill, ← hunbroken]
    exact h.inFirstToken
  · rw [hstill, ← hunbroken]
    exact h.matchedLine
  · rw [tokensSeen_of_unbroken hstill, ← tokensSeen_of_unbroken hunbroken]
    exact ⟨h.tally.found, h.tally.foundCount⟩

variable (hread : Readable line) (hdistinct : (names.map CString.bytes).Nodup)

include hread hdistinct

theorem Sees.matchToken :
    Tally names (tokensSeen lines line ++ [firstToken line]) (progress.matchToken names) := by
  have hzero : (0 : UInt8) ∉ firstToken line :=
    fun hmem => hread.noNul ((List.takeWhile_sublist _).mem hmem)
  obtain ⟨hfound, hcount⟩ :=
    @matchProcToken_eq names (tokensSeen lines line) _ progress.foundCount hdistinct hzero
  rw [Progress.matchToken, h.tally.found, h.token]
  refine ⟨hfound, ?_⟩
  rw [← h.tally.foundCount] at hcount
  show (matchProcToken _ _ _ _).2 = _
  omega

theorem Sees.endToken (hunbroken : unbroken line = true) (hblank : isBlank value = true) :
    Sees names lines (line ++ [value])
      { progress.matchToken names with line := progress.line.endToken } := by
  have hbroken : unbroken (line ++ [value]) = false := by
    rw [unbroken_concat, hblank, Bool.not_true, Bool.and_false]
  have htoken : firstToken (line ++ [value]) = firstToken line := by
    rw [firstToken_concat hunbroken, if_pos hblank, firstToken_of_unbroken hunbroken]
  have htally := h.matchToken hread hdistinct
  refine ⟨h.token.trans htoken.symm, hbroken.symm, by simp [Line.endToken], ?_, ?_, h.linesSeen⟩
  · rw [hbroken]
    rfl
  · rw [tokensSeen_of_broken hbroken, htoken, ← tokensSeen_of_unbroken hunbroken]
    exact ⟨htally.found, htally.foundCount⟩

theorem Sees.finish : Tally names ((lines ++ nonempty [line]).map firstToken) (progress.finish names) ∧
      (progress.finish names).linesSeen = wrap64 (lines ++ nonempty [line]).length := by
  have hlines : wrap64 (progress.linesSeen + 1) = wrap64 (lines ++ [line]).length := by
    rw [h.linesSeen, List.length_append]
    exact wrap64_add _ _
  rw [Progress.finish, h.lineHasData, h.inFirstToken]
  cases line with
  | nil =>
    have htally := h.tally
    rw [tokensSeen_of_unbroken rfl] at htally
    rw [show nonempty [[]] = [] from rfl, List.append_nil]
    exact ⟨htally, h.linesSeen⟩
  | cons first rest =>
    refine ⟨?_, ?_⟩
    · rw [show nonempty [first :: rest] = [first :: rest] from rfl, List.map_append]
      cases hunbroken : unbroken (first :: rest) with
      | true =>
        have htally := h.matchToken hread hdistinct
        rw [tokensSeen_of_unbroken hunbroken] at htally
        exact ⟨htally.found, htally.foundCount⟩
      | false =>
        have htally := h.tally
        rw [tokensSeen_of_broken hunbroken] at htally
        exact ⟨htally.found, htally.foundCount⟩
    · cases unbroken (first :: rest) with
      | true => exact hlines
      | false => exact hlines

theorem Sees.newline : ∃ next, step names progress 10 = .ok next ∧
      Sees names (lines ++ nonempty [line]) [] next := by
  have hmatched : progress.line.inFirstToken = true ∧ progress.line.matchedLine = false ↔
      progress.line.inFirstToken = true := by
    rw [h.matchedLine, ← h.inFirstToken]
    simp
  have hstep : step names progress 10 = .ok { progress.finish names with line := {} } := by
    show Except.ok _ = _
    simp only [hmatched]
    rfl
  obtain ⟨htally, hlines⟩ := h.finish hread hdistinct
  refine ⟨_, hstep, rfl, rfl, rfl, rfl, ?_, hlines⟩
  rw [tokensSeen_of_unbroken rfl]
  exact ⟨htally.found, htally.foundCount⟩

theorem Sees.other (hvalue : value ≠ 10) :
    (Readable (line ++ [value]) ∧
        ∃ next, step names progress value = .ok next ∧ Sees names lines (line ++ [value]) next) ∨
      ¬ Readable (line ++ [value]) ∧ step names progress value = .error progress := by
  rw [readable_concat hread]
  unfold step
  by_cases hzero : value = 0
  · rw [if_pos hzero]
    exact .inr ⟨fun hok => hok.1 hzero, rfl⟩
  rw [if_neg hzero, if_neg hvalue, h.inFirstToken]
  cases hunbroken : unbroken line with
  | false =>
    rw [if_pos rfl]
    refine .inl ⟨⟨hzero, fun hempty => ?_, nofun⟩, _, rfl, h.skip hunbroken⟩
    rw [hempty] at hunbroken
    cases hunbroken
  | true =>
    have htoken : progress.line.token = line := by
      rw [h.token, firstToken_of_unbroken hunbroken]
    rw [if_neg (by decide)]
    cases hblank : isBlank value with
    | true =>
      rw [if_pos rfl]
      by_cases hempty : progress.line.token.length = 0
      · rw [if_pos hempty]
        rw [htoken] at hempty
        refine .inr ⟨fun hok => ?_, rfl⟩
        cases hok.2.1 (List.length_eq_zero_iff.mp hempty)
      · rw [if_neg hempty]
        refine .inl ⟨⟨hzero, fun hnil => ?_, fun _ => nofun⟩, _, rfl,
          h.endToken hread hdistinct hunbroken hblank⟩
        rw [htoken, hnil] at hempty
        exact (hempty rfl).elim
    | false =>
      rw [if_neg Bool.false_ne_true]
      by_cases hfits : (progress.line.token ++ [value]).length < runtimeNameMax
      · rw [dif_pos hfits]
        refine .inl ⟨⟨hzero, fun _ => rfl, fun _ _ => ?_⟩, _, rfl, h.push hunbroken hblank hfits⟩
        rw [← htoken]
        exact hfits
      · rw [dif_neg hfits]
        refine .inr ⟨fun hok => hfits ?_, rfl⟩
        rw [htoken]
        exact hok.2.2 rfl rfl

end Step

section Texts

variable {text : List UInt8}

def SeesText (names : List CString) (text : List UInt8) (progress : Progress) : Prop :=
  Sees names (nonempty (Lines.complete 10 text)) (Lines.unfinished 10 text) progress

variable (h : SeesText names text progress) (hread : ReadableText text)
  (hdistinct : (names.map CString.bytes).Nodup)

include h hread hdistinct

theorem SeesText.step (value : UInt8) :
    (ReadableText (text ++ [value]) ∧ ∃ next, Loader.step names progress value = .ok next ∧
        SeesText names (text ++ [value]) next) ∨
      ¬ ReadableText (text ++ [value]) ∧ Loader.step names progress value = .error progress := by
  have hline := (readableText_iff.mp hread).2
  rw [readableText_concat, and_iff_right hread]
  unfold SeesText
  by_cases hvalue : value = 10
  · subst hvalue
    rw [Lines.unfinished_newline, Lines.complete_newline, nonempty_concat]
    exact .inl ⟨readable_nil, h.newline hline hdistinct⟩
  · rw [Lines.unfinished_other hvalue, Lines.complete_other hvalue]
    exact h.other hline hdistinct hvalue

theorem SeesText.run (bytes : List UInt8) :
    (ReadableText (text ++ bytes) ∧ ∃ next, bytes.foldlM (Loader.step names) progress = .ok next ∧
          SeesText names (text ++ bytes) next) ∨
      ¬ ReadableText (text ++ bytes) ∧
        ∃ stopped, bytes.foldlM (Loader.step names) progress = .error stopped := by
  induction bytes generalizing text progress with
  | nil =>
    rw [List.append_nil]
    exact .inl ⟨hread, progress, rfl, h⟩
  | cons value bytes ih =>
    rw [List.foldlM_cons, List.append_cons]
    rcases h.step hread hdistinct value with ⟨hmore, next, hstep, hnext⟩ | ⟨hmore, hstep⟩
    · rw [hstep]
      exact ih hnext hmore
    · rw [hstep]
      exact .inr ⟨fun hall => hmore hall.of_append, progress, rfl⟩

theorem SeesText.finish :
    Tally names ((nonempty (text.splitOn 10)).map firstToken) (progress.finish names) ∧
      (progress.finish names).linesSeen = wrap64 (nonempty (text.splitOn 10)).length := by
  rw [Lines.splitOn_eq, nonempty_concat]
  exact Sees.finish h (readableText_iff.mp hread).2 hdistinct

end Texts

end Scanning

section Reads

variable {names : List CString} {reads : List Read} {content : List UInt8}

/-- The content of the file, if every read up to its end gives 1 to 4096 bytes. -/
def contentOf : List Read → Option (List UInt8)
  | [] => some []
  | .failed :: _ => none
  | .data bytes :: reads =>
    if bytes.length = 0 then some []
    else if procScanChunk < bytes.length then none
    else (contentOf reads).map (bytes ++ ·)

theorem scanReads_of_content (hcontent : contentOf reads = some content) (progress : Progress)
    (before calls : Nat) :
    ∃ bytesRead readCalls, scanReads names progress (wrap64 before) calls reads =
      match content.foldlM (step names) progress with
      | .ok next => (.ok, (next.finish names).report (wrap64 (before + content.length)) readCalls
          true false)
      | .error stopped => (.errMalformed, stopped.report bytesRead readCalls false true) := by
  induction reads generalizing content progress before calls with
  | nil =>
    cases hcontent
    exact ⟨0, _, rfl⟩
  | cons read reads ih =>
    cases read with
    | failed => cases hcontent
    | data bytes =>
      rw [contentOf] at hcontent
      rw [scanReads]
      by_cases hempty : bytes.length = 0
      · rw [if_pos hempty] at hcontent ⊢
        cases hcontent
        exact ⟨0, _, rfl⟩
      rw [if_neg hempty] at hcontent ⊢
      by_cases hlong : procScanChunk < bytes.length
      · rw [if_pos hlong] at hcontent
        cases hcontent
      rw [if_neg hlong] at hcontent ⊢
      obtain ⟨rest, hrest, rfl⟩ := Option.map_eq_some_iff.mp hcontent
      rw [List.foldlM_append]
      cases bytes.foldlM (step names) progress with
      | error stopped => exact ⟨_, _, rfl⟩
      | ok next =>
        obtain ⟨bytesRead, readCalls, heq⟩ :=
          ih hrest next (before + bytes.length) (wrap64 (calls + 1))
        rw [List.length_append, ← Nat.add_assoc, wrap64_add]
        exact ⟨bytesRead, readCalls, heq⟩

theorem scanReads_from_start (hcontent : contentOf reads = some content) (names : List CString)
    (progress : Progress) :
    ∃ bytesRead readCalls, scanReads names progress 0 0 reads =
      match content.foldlM (step names) progress with
      | .ok next => (.ok, (next.finish names).report (wrap64 content.length) readCalls true false)
      | .error stopped => (.errMalformed, stopped.report bytesRead readCalls false true) := by
  have hscan := @scanReads_of_content names reads content hcontent progress 0 0
  rw [Nat.zero_add] at hscan
  exact hscan

theorem scanReads_of_no_content (hcontent : contentOf reads = none) (progress : Progress)
    (before calls : Nat) : (scanReads names progress before calls reads).1 ≠ .ok := by
  induction reads generalizing progress before calls with
  | nil => cases hcontent
  | cons read reads ih =>
    cases read with
    | failed => exact nofun
    | data bytes =>
      rw [contentOf] at hcontent
      rw [scanReads]
      by_cases hempty : bytes.length = 0
      · rw [if_pos hempty] at hcontent
        cases hcontent
      rw [if_neg hempty] at hcontent ⊢
      by_cases hlong : procScanChunk < bytes.length
      · rw [if_pos hlong]
        exact nofun
      rw [if_neg hlong] at hcontent ⊢
      cases bytes.foldlM (step names) progress with
      | error stopped => exact nofun
      | ok next => exact ih (Option.map_eq_none_iff.mp hcontent) _ _ _

/-- The same for the caller, but for the number of reads and, where the file is malformed, the
number of bytes that were read by then. -/
structure SameOutcome (first second : Status × Memory) : Prop where
  status : first.1 = second.1
  found : first.2.found = second.2.found
  linesSeen : first.2.result.linesSeen = second.2.result.linesSeen
  foundCount : first.2.result.foundCount = second.2.result.foundCount
  eofSeen : first.2.result.eofSeen = second.2.result.eofSeen
  malformed : first.2.result.malformed = second.2.result.malformed
  bytesRead : first.1 = .ok → first.2.result.bytesRead = second.2.result.bytesRead

theorem sameOutcome_refl (outcome : Status × Memory) : SameOutcome outcome outcome :=
  ⟨rfl, rfl, rfl, rfl, rfl, rfl, fun _ => rfl⟩

theorem scanReads_sameOutcome {other : List Read} (hreads : contentOf reads = some content)
    (hother : contentOf other = some content) (progress : Progress) :
    SameOutcome (scanReads names progress 0 0 reads) (scanReads names progress 0 0 other) := by
  obtain ⟨bytesRead, readCalls, hfirst⟩ := scanReads_from_start hreads names progress
  obtain ⟨bytesRead', readCalls', hsecond⟩ := scanReads_from_start hother names progress
  rw [hfirst, hsecond]
  cases content.foldlM (step names) progress with
  | ok next => exact ⟨rfl, rfl, rfl, rfl, rfl, rfl, fun _ => rfl⟩
  | error stopped => exact ⟨rfl, rfl, rfl, rfl, rfl, rfl, nofun⟩

theorem scanProcModules_of_expected (hnames : Expected names) (memory : Memory) :
    scanProcModules names reads memory =
      scanReads names { found := List.replicate names.length false } 0 0 reads := by
  rw [scanProcModules, validateExpectedNames_eq_ok.mpr hnames]

theorem scanProcModules_of_unexpected (hnames : ¬ Expected names) (memory : Memory) :
    ∃ status, status ≠ .ok ∧ scanProcModules names reads memory = (status, memory) := by
  have hinvalid := validateExpectedNames_eq_ok.not.mpr hnames
  unfold scanProcModules
  cases hstatus : validateExpectedNames names with
  | ok => exact (hinvalid hstatus).elim
  | errArgument => exact ⟨.errArgument, nofun, rfl⟩
  | errRead => exact ⟨.errRead, nofun, rfl⟩
  | errMalformed => exact ⟨.errMalformed, nofun, rfl⟩

structure Reported (names : List CString) (content : List UInt8) (memory : Memory) : Prop where
  found : memory.found = foundIn ((nonempty (content.splitOn 10)).map firstToken) names
  foundCount : memory.result.foundCount =
    (foundIn ((nonempty (content.splitOn 10)).map firstToken) names).count true
  linesSeen : memory.result.linesSeen = wrap64 (nonempty (content.splitOn 10)).length
  bytesRead : memory.result.bytesRead = wrap64 content.length
  eofSeen : memory.result.eofSeen = true
  malformed : memory.result.malformed = false

theorem scanReads_readable (hnames : Expected names) (hcontent : contentOf reads = some content) :
    (ReadableText content ∧
        (scanReads names { found := List.replicate names.length false } 0 0 reads).1 = .ok ∧
        Reported names content
          (scanReads names { found := List.replicate names.length false } 0 0 reads).2) ∨
      ¬ ReadableText content ∧
        (scanReads names { found := List.replicate names.length false } 0 0 reads).1 =
          .errMalformed := by
  obtain ⟨bytesRead, readCalls, hscan⟩ := scanReads_from_start hcontent names
    { found := List.replicate names.length false }
  rw [hscan]
  have hstart : SeesText names [] { found := List.replicate names.length false } := sees_start
  rcases hstart.run readableText_nil hnames.distinct content with
    ⟨hread, next, hrun, hsees⟩ | ⟨hread, stopped, hrun⟩
  · rw [List.nil_append] at hread hsees
    rw [hrun]
    obtain ⟨htally, hlines⟩ := hsees.finish hread hnames.distinct
    exact .inl ⟨hread, rfl, htally.found, htally.foundCount, hlines, rfl, rfl, rfl⟩
  · rw [List.nil_append] at hread
    rw [hrun]
    exact .inr ⟨hread, rfl⟩

theorem length_nonempty_le (content : List UInt8) :
    (nonempty (content.splitOn 10)).length ≤ content.length := by
  have hone (line : List UInt8) : (nonempty [line]).length ≤ 1 := List.length_filter_le _ _
  induction content using List.reverseRecOn with
  | nil => exact Nat.le_refl 0
  | append_singleton text value ih =>
    rw [Lines.splitOn_eq, nonempty_concat, List.length_append] at ih
    by_cases hvalue : value = 10
    · subst hvalue
      have hlast := hone []
      rw [Lines.splitOn_newline, nonempty_concat, nonempty_concat]
      simp only [List.length_append, List.length_singleton]
      omega
    · have hlast := hone (Lines.unfinished 10 text ++ [value])
      rw [Lines.splitOn_other hvalue, nonempty_concat]
      simp only [List.length_append, List.length_singleton]
      omega

end Reads

/-- However the file is divided into reads, the outcome is the same; the scan succeeds exactly for
names that may be asked for, reads that succeed and a file whose lines can be read, and then it
reports the file exactly. -/
theorem scan_proc_modules_is_exact (names : List CString) (memory : Memory) :
    (∀ reads other content, contentOf reads = some content → contentOf other = some content →
      SameOutcome (scanProcModules names reads memory) (scanProcModules names other memory)) ∧
    (∀ reads, (scanProcModules names reads memory).1 = .ok ↔
      Expected names ∧ ∃ content, contentOf reads = some content ∧ ReadableText content) ∧
    ∀ reads content, contentOf reads = some content → (scanProcModules names reads memory).1 = .ok →
      Reported names content (scanProcModules names reads memory).2 ∧ (content.length < 2 ^ 64 →
          (scanProcModules names reads memory).2.result.bytesRead = content.length ∧
          (scanProcModules names reads memory).2.result.linesSeen =
            (nonempty (content.splitOn 10)).length) := by
  by_cases hnames : Expected names
  · simp only [scanProcModules_of_expected hnames, hnames, true_and]
    refine ⟨fun reads other content hreads hother => scanReads_sameOutcome hreads hother _, ?_, ?_⟩
    · intro reads
      cases hcontent : contentOf reads with
      | none =>
        exact ⟨fun hok => (scanReads_of_no_content hcontent _ _ _ hok).elim, nofun⟩
      | some content =>
        rcases scanReads_readable hnames hcontent with ⟨hread, hok, -⟩ | ⟨hread, hbad⟩
        · exact ⟨fun _ => ⟨content, rfl, hread⟩, fun _ => hok⟩
        · rw [hbad]
          refine ⟨nofun, ?_⟩
          rintro ⟨same, ⟨⟩, hsame⟩
          exact (hread hsame).elim
    · intro reads content hcontent hok
      rcases scanReads_readable hnames hcontent with ⟨-, -, hreported⟩ | ⟨-, hbad⟩
      · refine ⟨hreported, fun hsmall => ?_⟩
        rw [hreported.bytesRead, hreported.linesSeen]
        have hlines := length_nonempty_le content
        exact ⟨wrap64_of_lt hsmall, wrap64_of_lt (by omega)⟩
      · rw [hbad] at hok
        cases hok
  · refine ⟨fun reads other content _ _ => ?_, fun reads => ?_, fun reads content _ hok => ?_⟩
    · unfold scanProcModules
      have hinvalid := validateExpectedNames_eq_ok.not.mpr hnames
      cases hstatus : validateExpectedNames names with
      | ok => exact (hinvalid hstatus).elim
      | _ => exact sameOutcome_refl _
    · obtain ⟨status, hstatus, hscan⟩ := @scanProcModules_of_unexpected names reads hnames memory
      rw [hscan]
      exact ⟨fun hok => (hstatus hok).elim, fun h => (hnames h.1).elim⟩
    · obtain ⟨status, hstatus, hscan⟩ := @scanProcModules_of_unexpected names reads hnames memory
      rw [hscan] at hok
      exact (hstatus hok).elim

namespace Sample

def names : List CString := [⟨[97, 98], rfl⟩]

def reads : List Read := [.data [97], .data [98, 32, 49, 10, 120]]

def memory : Memory := ⟨[], ⟨0, 0, 0, 0, false, false⟩⟩

end Sample

theorem scan_proc_modules_is_exact_sample :
    (scanProcModules Sample.names Sample.reads Sample.memory).1 = .ok ∧
      Reported Sample.names [97, 98, 32, 49, 10, 120]
        (scanProcModules Sample.names Sample.reads Sample.memory).2 := by
  have hok : (scanProcModules Sample.names Sample.reads Sample.memory).1 = .ok := by decide
  exact ⟨hok, ((scan_proc_modules_is_exact Sample.names Sample.memory).2.2 Sample.reads _ rfl
    hok).1⟩

end NativeInitLab.Loader
