import Mathlib.Data.List.Basic
import Mathlib.Data.List.DropRight
import Mathlib.Logic.Function.Basic

namespace NativeInitLab.Handoff.Replay

/-! The replay of the evidence that the previous boot has left in a file: the marker lines of the
file's tail go to the log. -/

abbrev Bytes := List UInt8

def tailMax : Nat := 65536
def linesMax : Nat := 64

def marker : Bytes := "A90OBSREC ".toList.map fun c => c.toNat.toUInt8

/-- What one `read` does; `got n` gives at most `n + 1` bytes, and none only at the end. -/
inductive Answer
  | interrupted
  | failed (errno : Int)
  | got (n : Nat)

/-- The reading loop; when the list of answers has ended every read is a full one. -/
def readTail (limit : Nat) : List Answer → Bytes → Bytes → Except Int Bytes
  | [], consumed, rest => .ok (consumed ++ rest.take (limit - consumed.length))
  | answer :: answers, consumed, rest =>
    if limit ≤ consumed.length then .ok consumed
    else
      match answer with
      | .interrupted => readTail limit answers consumed rest
      | .failed errno => .error (-errno)
      | .got n =>
        let size := min (n + 1) (limit - consumed.length)
        if rest = [] then .ok consumed
        else readTail limit answers (consumed ++ rest.take size) (rest.drop size)

def afterNewline : Bytes → Bytes
  | [] => []
  | b :: rest => if b = 0 then [] else if b = 10 then rest else afterNewline rest

def stripReturns (line : Bytes) : Bytes := line.rdropWhile (· == 13)

def fromMarker : Bytes → Option Bytes
  | [] => none
  | b :: rest => if marker.isPrefixOf (b :: rest) then some (b :: rest) else fromMarker rest

def record (line : Bytes) : Option Bytes := fromMarker (stripReturns line)

structure Records where
  slots : Fin linesMax → Bytes := fun _ => []
  seen : Nat := 0

def slot (n : Nat) : Fin linesMax := ⟨n % linesMax, Nat.mod_lt _ (by decide)⟩

def Records.keep (r : Records) : Option Bytes → Records
  | none => r
  | some text => ⟨Function.update r.slots (slot r.seen) text, r.seen + 1⟩

/-- The loop over the lines; `line` is what `strchr` has passed of the present one. -/
def scan (line : Bytes) : Bytes → Records → Records
  | [], r => r
  | b :: rest, r =>
    if b = 0 then r
    else if b = 10 then scan [] rest (r.keep (record line))
    else scan (line ++ [b]) rest r

def Records.emitted (r : Records) : Nat := min r.seen linesMax

def Records.emit (r : Records) : List Bytes :=
  (List.range r.emitted).map fun index => r.slots (slot (r.seen - r.emitted + index))

inductive Opened
  | failed (errno : Int)
  | other
  | regular (bytes : Bytes)

def start (size : Nat) : Nat := if tailMax < size then size - tailMax - 1 else 0

def readLimit (size : Nat) : Nat := if tailMax < size then tailMax + 1 else tailMax

def skipFragment (begin : Nat) (buffer : Bytes) : Bytes :=
  if 0 < begin then
    if buffer.head? = some 10 then buffer.tail else afterNewline buffer
  else buffer

/-- `a90_auto_handoff_replay_ondevice_evidence`: the lines that go to the log. -/
def replay (file : Opened) (seek : Option Int) (answers : List Answer) : Except Int (List Bytes) :=
  match file with
  | .failed errno => .error (-errno)
  | .other => .error (-22)
  | .regular bytes =>
    match seek with
    | some errno => .error (-errno)
    | none => do
      let begin := start bytes.length
      let buffer ← readTail (readLimit bytes.length) answers [] (bytes.drop begin)
      return (scan [] (skipFragment begin buffer) {}).emit

/-! What is to be replayed: the lines that start in the tail of the file. -/

def firstLine (text : Bytes) : Option Bytes :=
  if text.contains 10 then some (text.takeWhile (· != 10)) else none

/-- The complete lines that start in a text, after the byte that stands before it. -/
def lineStarts : UInt8 → Bytes → List Bytes
  | _, [] => []
  | previous, b :: rest =>
    (if previous = 10 then (firstLine (b :: rest)).toList else []) ++ lineStarts b rest

/-- A file begins as if a newline stood before it; a longer window brings its own byte. -/
def linesIn (whole : Bool) (window : Bytes) : List Bytes :=
  if whole then lineStarts 10 window
  else
    match window with
    | [] => []
    | previous :: text => lineStarts previous text

def lastOf (count : Nat) (texts : List Bytes) : List Bytes := texts.drop (texts.length - count)

def isWhole (bytes : Bytes) : Bool := bytes.length ≤ tailMax + 1

def window (bytes : Bytes) : Bytes := bytes.drop (bytes.length - (tailMax + 1))

def markerLines (bytes : Bytes) : List Bytes :=
  (linesIn (isWhole bytes) (window bytes)).filterMap record

/-- Those that end before the first zero byte of the window. -/
def seenLines (bytes : Bytes) : List Bytes :=
  (linesIn (isWhole bytes) ((window bytes).takeWhile (· != 0))).filterMap record

theorem readTail_eq {limit : Nat} {answers : List Answer}
    (hanswers : ∀ errno, .failed errno ∉ answers) {consumed rest : Bytes}
    (hconsumed : consumed.length ≤ limit) :
    readTail limit answers consumed rest = .ok (consumed ++ rest.take (limit - consumed.length)) := by
  induction answers generalizing consumed rest with
  | nil => rfl
  | cons answer answers ih =>
    have hlater : ∀ errno, .failed errno ∉ answers :=
      fun errno hmem => hanswers errno (List.mem_cons_of_mem _ hmem)
    unfold readTail
    by_cases hfull : limit ≤ consumed.length
    · rw [if_pos hfull, Nat.sub_eq_zero_of_le hfull, List.take_zero, List.append_nil]
    rw [if_neg hfull]
    cases answer with
    | interrupted => exact ih hlater hconsumed
    | failed errno => exact absurd List.mem_cons_self (hanswers errno)
    | got n =>
      dsimp only
      by_cases hrest : rest = []
      · rw [if_pos hrest, hrest, List.take_nil, List.append_nil]
      rw [if_neg hrest]
      generalize hsize : min (n + 1) (limit - consumed.length) = size
      have hgot : (rest.take size).length ≤ limit - consumed.length :=
        Nat.le_trans (List.length_take_le ..) (by omega)
      rw [ih hlater (by rw [List.length_append]; omega), List.append_assoc, List.length_append]
      congr 2
      by_cases hshort : rest.length ≤ size
      · rw [List.drop_eq_nil_of_le hshort, List.take_nil, List.append_nil,
          List.take_of_length_le hshort, List.take_of_length_le (by omega)]
      · rw [List.length_take, Nat.min_eq_left (by omega), Nat.sub_add_eq, List.take_drop,
          Nat.add_sub_cancel' (by omega)]
        conv_rhs => rw [← List.take_append_drop size (rest.take (limit - consumed.length))]
        rw [List.take_take, Nat.min_eq_left (by omega)]

theorem buffer_eq {answers : List Answer} (hanswers : ∀ errno, .failed errno ∉ answers)
    (bytes : Bytes) :
    readTail (readLimit bytes.length) answers [] (bytes.drop (start bytes.length)) =
      .ok (window bytes) := by
  have hstart : start bytes.length = bytes.length - (tailMax + 1) := by
    unfold start
    split <;> omega
  rw [readTail_eq hanswers (Nat.zero_le _), hstart, List.nil_append, List.length_nil, Nat.sub_zero,
    List.take_of_length_le]
  · rfl
  · rw [List.length_drop]
    unfold readLimit
    split <;> omega

theorem start_eq_zero_iff {bytes : Bytes} : start bytes.length = 0 ↔ isWhole bytes = true := by
  unfold start isWhole
  rw [decide_eq_true_iff]
  split <;> omega

structure Holds (r : Records) (texts : List Bytes) : Prop where
  seen : r.seen = texts.length
  slots : ∀ k, texts.length - linesMax ≤ k → ∀ h : k < texts.length, r.slots (slot k) = texts[k]

theorem Holds.keep {r : Records} {texts : List Bytes} (hholds : Holds r texts)
    (found : Option Bytes) : Holds (r.keep found) (texts ++ found.toList) := by
  cases found with
  | none => simpa [Records.keep] using hholds
  | some text =>
    refine ⟨by simp [Records.keep, hholds.seen], fun k hlow hk => ?_⟩
    simp only [Option.toList_some, List.length_append, List.length_singleton] at hlow hk
    show Function.update r.slots (slot r.seen) text (slot k) = _
    by_cases hlast : k = texts.length
    · subst hlast
      simp [hholds.seen]
    · have hne : slot k ≠ slot r.seen := by
        intro hsame
        have hmod : k % linesMax = r.seen % linesMax := congrArg Fin.val hsame
        rw [hholds.seen] at hmod
        unfold linesMax at hmod hlow
        omega
      simp only [Option.toList_some]
      rw [Function.update_of_ne hne, hholds.slots k (by omega) (by omega), List.getElem_append_left]

theorem Holds.emit {r : Records} {texts : List Bytes} (hholds : Holds r texts) :
    r.emit = lastOf linesMax texts := by
  have hseen := hholds.seen
  refine List.ext_getElem ?_ fun index h1 h2 => ?_
  · simp only [Records.emit, Records.emitted, lastOf, List.length_map, List.length_range,
      List.length_drop]
    omega
  · simp only [Records.emit, Records.emitted, lastOf, List.length_map, List.length_range,
      List.length_drop] at h1 h2
    simp only [Records.emit, Records.emitted, lastOf, List.getElem_map, List.getElem_range,
      List.getElem_drop]
    rw [hholds.slots _ (by omega) (by omega)]
    congr 1
    omega

def completeFrom (line : Bytes) : Bytes → List Bytes
  | [] => []
  | b :: rest => if b = 10 then line :: completeFrom [] rest else completeFrom (line ++ [b]) rest

theorem scan_holds {line text : Bytes} {r : Records} {texts : List Bytes} (hholds : Holds r texts) :
    Holds (scan line text r)
      (texts ++ (completeFrom line (text.takeWhile (· != 0))).filterMap record) := by
  induction text generalizing line r texts with
  | nil => simpa [scan, completeFrom] using hholds
  | cons b text ih =>
    by_cases hzero : b = 0
    · simpa [scan, completeFrom, hzero] using hholds
    · rw [scan, if_neg hzero, List.takeWhile_cons_of_pos (by simpa using hzero), completeFrom]
      by_cases hnewline : b = 10
      · rw [if_pos hnewline, if_pos hnewline]
        have hkept := @ih [] _ _ (hholds.keep (record line))
        rw [List.append_assoc] at hkept
        cases hrecord : record line with
        | none => simpa [hrecord] using hkept
        | some found => simpa [hrecord] using hkept
      · rw [if_neg hnewline, if_neg hnewline]
        exact ih hholds

theorem completeFrom_append (line first second : Bytes) :
    ∃ more, completeFrom line (first ++ second) = completeFrom line first ++ more := by
  induction first generalizing line with
  | nil => exact ⟨completeFrom line second, rfl⟩
  | cons b first ih =>
    rw [List.cons_append, completeFrom, completeFrom]
    by_cases hnewline : b = 10
    · obtain ⟨more, hmore⟩ := ih []
      rw [if_pos hnewline, if_pos hnewline, hmore]
      exact ⟨more, rfl⟩
    · rw [if_neg hnewline, if_neg hnewline]
      exact ih (line ++ [b])

theorem lineStarts_newline (text : Bytes) :
    lineStarts 10 text = (firstLine text).toList ++ lineStarts 0 text := by
  cases text with
  | nil => rfl
  | cons b rest => simp [lineStarts]

theorem lineStarts_other {previous : UInt8} (hprevious : previous ≠ 10) (text : Bytes) :
    lineStarts previous text = lineStarts 0 text := by
  cases text with
  | nil => rfl
  | cons b rest => simp [lineStarts, hprevious]

theorem completeFrom_eq (line text : Bytes) :
    completeFrom line text = ((firstLine text).map (line ++ ·)).toList ++ lineStarts 0 text := by
  induction text generalizing line with
  | nil => rfl
  | cons b rest ih =>
    by_cases hnewline : b = 10
    · subst hnewline
      rw [completeFrom, if_pos rfl, ih]
      simp [firstLine, lineStarts, lineStarts_newline]
    · have hfirst : firstLine (b :: rest) = (firstLine rest).map (b :: ·) := by
        by_cases hmem : rest.contains 10 = true
        · have hall : (b :: rest).contains 10 = true := by
            rw [List.contains_cons, hmem, Bool.or_true]
          rw [firstLine, firstLine, if_pos hmem, if_pos hall,
            List.takeWhile_cons_of_pos (by simpa using hnewline)]
          rfl
        · have hall : ¬ (b :: rest).contains 10 = true := by
            rw [List.contains_cons, Bool.or_eq_true, not_or]
            exact ⟨by simpa using Ne.symm hnewline, hmem⟩
          rw [firstLine, firstLine, if_neg hmem, if_neg hall]
          rfl
      rw [completeFrom, if_neg hnewline, ih, hfirst, lineStarts, if_neg (by decide),
        List.nil_append, lineStarts_other hnewline]
      simp [Option.map_map, Function.comp_def]

theorem completeFrom_start (text : Bytes) : completeFrom [] text = lineStarts 10 text := by
  rw [completeFrom_eq, lineStarts_newline]
  simp

theorem lineStarts_zero (text : Bytes) : lineStarts 0 (text.takeWhile (· != 0)) =
      completeFrom [] ((afterNewline text).takeWhile (· != 0)) := by
  induction text with
  | nil => rfl
  | cons b rest ih =>
    by_cases hzero : b = 0
    · simp [afterNewline, hzero, lineStarts, completeFrom]
    · rw [List.takeWhile_cons_of_pos (by simpa using hzero), lineStarts, if_neg (by decide),
        List.nil_append, afterNewline, if_neg hzero]
      by_cases hnewline : b = 10
      · rw [if_pos hnewline, hnewline, completeFrom_start]
      · rw [if_neg hnewline, lineStarts_other hnewline, ih]

theorem lines_of_buffer (whole : Bool) (begin : Nat) (hbegin : begin = 0 ↔ whole = true)
    (buffer : Bytes) :
    completeFrom [] ((skipFragment begin buffer).takeWhile (· != 0)) =
      linesIn whole (buffer.takeWhile (· != 0)) := by
  cases whole with
  | true =>
    rw [skipFragment, hbegin.mpr rfl, if_neg (Nat.lt_irrefl 0), completeFrom_start]
    rfl
  | false =>
    have hpositive : 0 < begin := Nat.pos_of_ne_zero fun h => by simpa using hbegin.mp h
    rw [skipFragment, if_pos hpositive]
    cases buffer with
    | nil => rfl
    | cons previous text =>
      by_cases hzero : previous = 0
      · simp [hzero, afterNewline, completeFrom, linesIn]
      rw [List.takeWhile_cons_of_pos (by simpa using hzero)]
      show _ = lineStarts previous (text.takeWhile (· != 0))
      by_cases hnewline : previous = 10
      · rw [hnewline, if_pos (by rfl), List.tail_cons, completeFrom_start]
      · rw [if_neg (by simpa using hnewline), lineStarts_other hnewline, lineStarts_zero,
          afterNewline, if_neg hzero, if_neg hnewline]

theorem lineStarts_append (previous : UInt8) (first second : Bytes) :
    ∃ more, lineStarts previous (first ++ second) = lineStarts previous first ++ more := by
  induction first generalizing previous with
  | nil => exact ⟨_, rfl⟩
  | cons b first ih =>
    by_cases hnewline : previous = 10
    · rw [hnewline, ← completeFrom_start, ← completeFrom_start]
      exact completeFrom_append [] (b :: first) second
    · obtain ⟨more, hmore⟩ := ih b
      exact ⟨more, by simp [lineStarts, hnewline, hmore]⟩

theorem linesIn_append (whole : Bool) (first second : Bytes) :
    ∃ more, linesIn whole (first ++ second) = linesIn whole first ++ more := by
  cases whole with
  | true => exact lineStarts_append 10 first second
  | false =>
    cases first with
    | nil => exact ⟨_, rfl⟩
    | cons previous first => exact lineStarts_append previous first second

theorem seenLines_initial (bytes : Bytes) : seenLines bytes <+: markerLines bytes := by
  obtain ⟨more, hmore⟩ := linesIn_append (isWhole bytes) ((window bytes).takeWhile (· != 0))
    ((window bytes).dropWhile (· != 0))
  rw [List.takeWhile_append_dropWhile] at hmore
  refine ⟨more.filterMap record, ?_⟩
  rw [markerLines, hmore, List.filterMap_append]
  rfl

theorem length_lastOf (count : Nat) (texts : List Bytes) :
    (lastOf count texts).length = min count texts.length := by
  rw [lastOf, List.length_drop]
  omega

/-- The replay gives the last marker lines before the first zero byte of the window.  They are the
last ones of the window exactly if no marker line ends after that byte, or if there are enough of
them before it and the same texts stand at the end. -/
theorem replay_is_exact_iff (bytes : Bytes) (answers : List Answer)
    (hanswers : ∀ errno, .failed errno ∉ answers) :
    replay (.regular bytes) none answers = .ok (lastOf linesMax (seenLines bytes)) ∧
      seenLines bytes <+: markerLines bytes ∧
      (replay (.regular bytes) none answers = .ok (lastOf linesMax (markerLines bytes)) ↔
        markerLines bytes = seenLines bytes ∨ linesMax ≤ (seenLines bytes).length ∧
          lastOf linesMax (markerLines bytes) = lastOf linesMax (seenLines bytes)) := by
  have hreplay : replay (.regular bytes) none answers = .ok (lastOf linesMax (seenLines bytes)) := by
    have hholds := @scan_holds [] (skipFragment (start bytes.length) (window bytes)) {} []
      ⟨rfl, fun _ _ h => absurd h (Nat.not_lt_zero _)⟩
    rw [lines_of_buffer (isWhole bytes) _ start_eq_zero_iff, List.nil_append] at hholds
    show (readTail _ answers [] _ >>= fun buffer => _) = _
    rw [buffer_eq hanswers]
    exact congrArg Except.ok hholds.emit
  have hinitial := seenLines_initial bytes
  refine ⟨hreplay, hinitial, ?_⟩
  rw [hreplay]
  constructor
  · intro hsame
    have hlast := Except.ok.inj hsame
    by_cases hall : markerLines bytes = seenLines bytes
    · exact .inl hall
    · have hlengths := congrArg List.length hlast
      rw [length_lastOf, length_lastOf] at hlengths
      have hlonger : (seenLines bytes).length < (markerLines bytes).length :=
        Nat.lt_of_le_of_ne hinitial.length_le fun h => hall (hinitial.eq_of_length h).symm
      exact .inr ⟨by omega, hlast.symm⟩
  · rintro (hall | ⟨_, hlast⟩)
    · rw [hall]
    · rw [hlast]

def sampleText (text : String) : Bytes := text.toList.map fun c => c.toNat.toUInt8

theorem replay_is_exact_iff_short_reads :
    replay (.regular (sampleText "a\nA90OBSREC b\r\nA90OBSREC c")) none [.got 3, .interrupted, .got 0] =
      .ok [sampleText "A90OBSREC b"] :=
  ((replay_is_exact_iff (sampleText "a\nA90OBSREC b\r\nA90OBSREC c") [.got 3, .interrupted, .got 0]
    (by simp)).2.2.mpr (.inl (by decide +kernel))).trans (by decide +kernel)

theorem zero_byte_hides_later_lines :
    replay (.regular (sampleText "a\x00\nA90OBSREC b\n")) none [] = .ok [] ∧
      markerLines (sampleText "a\x00\nA90OBSREC b\n") = [sampleText "A90OBSREC b"] := by
  decide +kernel

end NativeInitLab.Handoff.Replay
