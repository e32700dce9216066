import NativeInitLab.Library.FixedWidth
import NativeInitLab.Library.Numerals
import NativeInitLab.Resident.Log

/-!
The exported log, `resident_export` of `hud.inc.c.in`, and its reader on the host, `decode_log` of
`s22plus_native_resident_protocol_v1.py`.
-/

namespace NativeInitLab.Resident

open FixedWidth Numerals RingBuffer

def ascii (text : String) : List UInt8 := text.toList.map fun character => character.toNat.toUInt8

/-- The `do` loop of `resident_number`, the lowest digit first. -/
def lowDigits (number : Nat) : List UInt8 :=
  digit (number % 10) :: if _hmore : number / 10 = 0 then [] else lowDigits (number / 10)
termination_by number
decreasing_by omega

def residentNumber (key : List UInt8) (number : Nat) : List UInt8 := key ++ (lowDigits number).reverse

def Log.first (log : Log) : Nat :=
  if log.ring.count = 0 then 0 else wrap64 (sub64 log.last log.ring.count + 1)

def residentHeader (log : Log) : List UInt8 :=
  residentNumber (ascii "S22RLOG1 first=") log.first ++
  residentNumber (ascii " last=") log.last ++
  residentNumber (ascii " records=") log.ring.count ++
  residentNumber (ascii " evicted=") log.evicted ++
  residentNumber (ascii " dropped=") log.dropped ++
  residentNumber (ascii " partial_bytes=") log.line.length ++
  residentNumber (ascii " exhausted=") log.exhausted.toNat ++ [10]

def completeFooter : List UInt8 := ascii "S22RLOG1 COMPLETE\n"

/-- The writes of `resident_export`, in order, into the file it has just truncated. -/
def residentWrites (log : Log) : List (List UInt8) :=
  residentHeader log :: (log.ring.contents ++ [completeFooter])

def residentExport (log : Log) : List UInt8 := (residentWrites log).flatten

/-- `raw.splitlines(keepends=True)` after the bytes `line` of an unfinished line. -/
def splitLinesFrom (line : List UInt8) : List UInt8 → List (List UInt8)
  | [] => if line.isEmpty then [] else [line]
  | 13 :: 10 :: rest => (line ++ [13, 10]) :: splitLinesFrom [] rest
  | c :: rest =>
    if c = 10 ∨ c = 13 then (line ++ [c]) :: splitLinesFrom [] rest
    else splitLinesFrom (line ++ [c]) rest

def splitLines (raw : List UInt8) : List (List UInt8) := splitLinesFrom [] raw

def strip (key raw : List UInt8) : Option (List UInt8) :=
  if key.isPrefixOf raw then some (raw.drop key.length) else none

def field (key raw : List UInt8) : Option (Nat × List UInt8) :=
  match strip key raw with
  | none => none
  | some rest =>
    if (rest.takeWhile isDecimal).isEmpty then none
    else some (value 10 (rest.takeWhile isDecimal), rest.dropWhile isDecimal)

def flagField (raw : List UInt8) : Option Bool :=
  match strip (ascii " exhausted=") raw with
  | none => none
  | some rest => if rest = [48, 10] then some false else if rest = [49, 10] then some true else none

structure Header where
  first : Nat
  last : Nat
  count : Nat
  evicted : Nat
  dropped : Nat
  partialBytes : Nat
  exhausted : Bool
  deriving DecidableEq, Repr

def matchHeader (line : List UInt8) : Option Header := do
  let (first, line) ← field (ascii "S22RLOG1 first=") line
  let (last, line) ← field (ascii " last=") line
  let (count, line) ← field (ascii " records=") line
  let (evicted, line) ← field (ascii " evicted=") line
  let (dropped, line) ← field (ascii " dropped=") line
  let (partialBytes, line) ← field (ascii " partial_bytes=") line
  let exhausted ← flagField line
  return ⟨first, last, count, evicted, dropped, partialBytes, exhausted⟩

def Header.inRange (header : Header) (lines : Nat) : Bool :=
  header.count ≤ 64 && lines == header.count + 2 && header.partialBytes < 768 &&
    !(header.count == 0 && header.evicted != 0) &&
    [header.first, header.last, header.evicted, header.dropped].all (· ≤ maxCounter) &&
    if header.count = 0 then header.first == 0 && header.last == 0
    else (header.first : Int) == (header.last : Int) - header.count + 1 &&
      header.last == header.evicted + header.count

def validRow (row : List UInt8) : Bool :=
  row.getLast? == some 10 && row.length ≤ 768 && row.dropLast.all printable

structure Decoded where
  header : Header
  records : List (List UInt8)
  deriving DecidableEq, Repr

def decodeLog (raw : List UInt8) : Except String Decoded :=
  if 64 * 768 + 320 + completeFooter.length < raw.length ∨ completeFooter.isSuffixOf raw = false then
    .error "resident log is incomplete or oversized"
  else
    match (splitLines raw).head?.bind matchHeader with
    | none => .error "resident log header differs"
    | some header =>
      if header.inRange (splitLines raw).length = false then
        .error "resident log retained range differs"
      else if ((splitLines raw).tail.dropLast.all validRow) = false then
        .error "resident log contains an incomplete/invalid record"
      else .ok ⟨header, (splitLines raw).tail.dropLast⟩

def Log.header (log : Log) : Header :=
  ⟨log.first, log.last, log.ring.count, log.evicted, log.dropped, log.line.length, log.exhausted⟩

def IsLine (line : List UInt8) : Prop := ∃ body, line = body ++ [10] ∧ body.all printable = true

theorem ne_of_printable {c : UInt8} (hc : printable c = true) : c ≠ 10 ∧ c ≠ 13 := by
  constructor
  · rintro rfl
    cases hc
  · rintro rfl
    cases hc

theorem splitLinesFrom_body {body : List UInt8} (hbody : body.all printable = true)
    (line rest : List UInt8) :
    splitLinesFrom line (body ++ 10 :: rest) = (line ++ body ++ [10]) :: splitLinesFrom [] rest := by
  induction body generalizing line with
  | nil => simp [splitLinesFrom]
  | cons c body ih =>
    rw [List.all_cons, Bool.and_eq_true] at hbody
    obtain ⟨hnewline, hreturn⟩ := ne_of_printable hbody.1
    rw [List.cons_append, splitLinesFrom, if_neg (by simp [hnewline, hreturn]), ih hbody.2]
    · simp
    · intro rest hc
      exact absurd hc hreturn

theorem splitLines_flatten {lines : List (List UInt8)} (hlines : ∀ line ∈ lines, IsLine line) :
    splitLines lines.flatten = lines := by
  induction lines with
  | nil => rfl
  | cons line lines ih =>
    obtain ⟨⟨body, rfl, hbody⟩, hrest⟩ := List.forall_mem_cons.mp hlines
    rw [splitLines, List.flatten_cons, List.append_assoc, List.singleton_append,
      splitLinesFrom_body hbody, ← splitLines, ih hrest]
    rfl

theorem take_of_beginning {lines : List (List UInt8)} {cut : List UInt8}
    (hlines : ∀ line ∈ lines, IsLine line) (hcut : cut <+: lines.flatten)
    (hend : cut.getLast? = some 10) : ∃ count, cut = (lines.take count).flatten := by
  induction lines generalizing cut with
  | nil =>
    rw [List.flatten_nil, List.prefix_nil] at hcut
    subst hcut
    cases hend
  | cons line lines ih =>
    obtain ⟨⟨body, rfl, hbody⟩, hrest⟩ := List.forall_mem_cons.mp hlines
    rw [List.flatten_cons] at hcut
    by_cases hshort : cut.length ≤ (body ++ [10]).length
    · have hline : cut <+: body ++ [10] :=
        List.prefix_of_prefix_length_le hcut (List.prefix_append _ _) hshort
      rcases List.prefix_concat_iff.mp hline with hwhole | hinside
      · exact ⟨1, by simpa using hwhole⟩
      · have hmember : (10 : UInt8) ∈ body := hinside.subset (List.mem_of_getLast? hend)
        exact absurd rfl (ne_of_printable (List.all_eq_true.mp hbody _ hmember)).1
    · have hline : body ++ [10] <+: cut :=
        List.prefix_of_prefix_length_le (List.prefix_append _ _) hcut (by omega)
      obtain ⟨more, rfl⟩ := hline
      have hmore : more ≠ [] := by
        rintro rfl
        exact hshort (by simp)
      rw [List.getLast?_append_of_ne_nil _ hmore] at hend
      obtain ⟨count, hcount⟩ :=
        ih hrest ((List.prefix_append_right_inj _).mp hcut) hend
      exact ⟨count + 1, by rw [List.take_succ_cons, List.flatten_cons, ← hcount]⟩

theorem lowDigits_eq (number : Nat) :
    lowDigits number = if number = 0 then [48] else (Nat.digits 10 number).map digit := by
  induction number using Nat.strong_induction_on with
  | _ number ih =>
    rw [lowDigits]
    by_cases hzero : number = 0
    · subst hzero
      rfl
    · rw [if_neg hzero, Nat.digits_def' (by decide) (Nat.pos_of_ne_zero hzero), List.map_cons]
      congr 1
      by_cases hmore : number / 10 = 0
      · rw [dif_pos hmore, hmore]
        rfl
      · rw [dif_neg hmore, ih (number / 10) (by omega), if_neg hmore]

theorem residentNumber_eq (key : List UInt8) (number : Nat) :
    residentNumber key number = key ++ decimal number := by
  rw [residentNumber, lowDigits_eq, decimal, numeral]
  by_cases hzero : number = 0
  · rw [if_pos hzero, if_pos hzero]
    rfl
  · rw [if_neg hzero, if_neg hzero, List.map_reverse]

theorem all_isDecimal_decimal (number : Nat) : (decimal number).all isDecimal = true := by
  have hcanonical := canonical_decimal number
  simp only [canonical, Bool.or_eq_true, beq_iff_eq, Bool.and_eq_true] at hcanonical
  rcases hcanonical with hzero | ⟨-, hall⟩
  · rw [hzero]
    rfl
  · exact hall

theorem decimal_ne_nil (number : Nat) : decimal number ≠ [] := by
  intro hnil
  have hcanonical := canonical_decimal number
  rw [hnil] at hcanonical
  cases hcanonical

theorem printable_of_isDecimal {c : UInt8} (hc : isDecimal c = true) : printable c = true := by
  simp only [isDecimal, printable, Bool.and_eq_true, decide_eq_true_eq] at hc ⊢
  exact ⟨UInt8.le_trans (by decide) hc.1, UInt8.le_trans hc.2 (by decide)⟩

theorem printable_number {key : List UInt8} (hkey : key.all printable = true) (number : Nat) :
    (residentNumber key number).all printable = true := by
  rw [residentNumber_eq, List.all_append, hkey, Bool.true_and, List.all_eq_true]
  intro c hc
  exact printable_of_isDecimal (List.all_eq_true.mp (all_isDecimal_decimal number) c hc)

theorem field_number (key : List UInt8) (number : Nat) {rest : List UInt8}
    (hrest : ∀ c ∈ rest.head?, isDecimal c = false) :
    field key (residentNumber key number ++ rest) = some (number, rest) := by
  have hstrip : strip key (residentNumber key number ++ rest) = some (decimal number ++ rest) := by
    rw [strip, residentNumber_eq, List.append_assoc, if_pos (by simp), List.drop_left]
  have htake : rest.takeWhile isDecimal = [] ∧ rest.dropWhile isDecimal = rest := by
    cases rest with
    | nil => exact ⟨rfl, rfl⟩
    | cons c rest =>
      have hc : ¬ isDecimal c = true := by simp [hrest c rfl]
      exact ⟨List.takeWhile_cons_of_neg hc, List.dropWhile_cons_of_neg hc⟩
  have hall := List.all_eq_true.mp (all_isDecimal_decimal number)
  rw [field, hstrip]
  show (if ((decimal number ++ rest).takeWhile isDecimal).isEmpty then none else _) = _
  rw [List.takeWhile_append_of_pos hall, List.dropWhile_append_of_pos hall, htake.1, htake.2,
    List.append_nil, value_decimal, if_neg (by simp [decimal_ne_nil])]

theorem matchHeader_residentHeader (log : Log) :
    matchHeader (residentHeader log) = some log.header := by
  have hnext (text : String) (number : Nat) (after : String) (more : Nat) (rest : List UInt8)
      (hafter : ((ascii after).head?.all fun c => !isDecimal c) = true) (hne : ascii after ≠ []) :
      field (ascii text) (residentNumber (ascii text) number ++
          (residentNumber (ascii after) more ++ rest)) =
        some (number, residentNumber (ascii after) more ++ rest) := by
    apply field_number
    rw [residentNumber, List.append_assoc, List.head?_append_of_ne_nil _ hne]
    intro c hc
    simpa [Option.mem_def.mp hc] using hafter
  have hflag : flagField (residentNumber (ascii " exhausted=") log.exhausted.toNat ++ [10]) =
      some log.exhausted := by
    cases log.exhausted <;> rw [residentNumber, lowDigits] <;> decide
  simp only [residentHeader, List.append_assoc, matchHeader, Option.bind_eq_bind]
  rw [hnext _ _ _ _ _ (by decide) (by decide), Option.bind_some,
    hnext _ _ _ _ _ (by decide) (by decide), Option.bind_some,
    hnext _ _ _ _ _ (by decide) (by decide), Option.bind_some,
    hnext _ _ _ _ _ (by decide) (by decide), Option.bind_some,
    hnext _ _ _ _ _ (by decide) (by decide), Option.bind_some,
    hnext _ _ _ _ _ (by decide) (by decide), Option.bind_some, hflag]
  rfl

theorem isLine_residentHeader (log : Log) : IsLine (residentHeader log) := by
  refine ⟨_, rfl, ?_⟩
  simp only [List.all_append, Bool.and_eq_true]
  refine ⟨⟨⟨⟨⟨⟨?_, ?_⟩, ?_⟩, ?_⟩, ?_⟩, ?_⟩, ?_⟩ <;> exact printable_number (by decide) _

theorem length_residentNumber_le (key : List UInt8) {number : Nat} (hnumber : number ≤ maxCounter) :
    (residentNumber key number).length ≤ key.length + 20 := by
  have hdigits : (decimal number).length ≤ 20 :=
    length_numeral_le (by decide) (by decide) (Nat.lt_of_le_of_lt hnumber (by decide))
  rw [residentNumber_eq, List.length_append]
  omega

section RoundTrip

variable {log : Log}

theorem Log.first_le (log : Log) : log.first ≤ maxCounter := by
  unfold Log.first
  split
  · exact Nat.zero_le _
  · exact Nat.le_sub_one_of_lt (Nat.mod_lt _ (by decide))

theorem WellFormed.first_eq (hformed : WellFormed log) (hcount : log.ring.count ≠ 0) :
    log.first = log.last - log.ring.count + 1 := by
  have hlast := hformed.last
  have hle : log.last < 2 ^ 64 := Nat.lt_of_le_of_lt hformed.last_le (by decide)
  rw [Log.first, if_neg hcount, sub64_of_le (by omega) hle]
  exact wrap64_of_lt (by omega)

theorem WellFormed.line_length (hformed : WellFormed log) : log.line.length ≤ 767 :=
  (acceptable_iff.mp hformed.line).1

theorem WellFormed.length_header (hformed : WellFormed log) : (residentHeader log).length ≤ 320 := by
  have hlast := hformed.last
  have hlastLe := hformed.last_le
  have hline := hformed.line_length
  have hmax : 767 ≤ maxCounter := by decide
  have hflag : log.exhausted.toNat ≤ maxCounter :=
    Nat.le_trans (Bool.toNat_le log.exhausted) (by decide)
  have hkeys : (ascii "S22RLOG1 first=").length + (ascii " last=").length +
      (ascii " records=").length + (ascii " evicted=").length + (ascii " dropped=").length +
      (ascii " partial_bytes=").length + (ascii " exhausted=").length ≤ 100 := by decide
  have hfirst := length_residentNumber_le (ascii "S22RLOG1 first=") log.first_le
  have hlastNumber := length_residentNumber_le (ascii " last=") hlastLe
  have hrecords := length_residentNumber_le (ascii " records=")
    (by omega : log.ring.count ≤ maxCounter)
  have hevicted := length_residentNumber_le (ascii " evicted=")
    (by omega : log.evicted ≤ maxCounter)
  have hdropped := length_residentNumber_le (ascii " dropped=") hformed.dropped_le
  have hpartial := length_residentNumber_le (ascii " partial_bytes=")
    (by omega : log.line.length ≤ maxCounter)
  have hexhausted := length_residentNumber_le (ascii " exhausted=") hflag
  simp only [residentHeader, List.length_append, List.length_singleton]
  omega

theorem WellFormed.isLine (hformed : WellFormed log) :
    ∀ line ∈ residentWrites log, IsLine line := by
  intro line hline
  rcases List.mem_cons.mp hline with rfl | hline
  · exact isLine_residentHeader log
  · rcases List.mem_append.mp hline with hrow | hfooter
    · obtain ⟨body, hbody, rfl⟩ := hformed.rows line hrow
      exact ⟨body, rfl, (acceptable_iff.mp hbody).2⟩
    · rw [List.mem_singleton.mp hfooter]
      exact ⟨ascii "S22RLOG1 COMPLETE", by decide, by decide⟩

theorem length_residentWrites (log : Log) : (residentWrites log).length = log.ring.count + 2 := by
  rw [residentWrites, List.length_cons, List.length_append, Ring.length_contents]
  rfl

theorem Header.inRange_iff (header : Header) (lines : Nat) :
    header.inRange lines = true ↔ header.count ≤ 64 ∧ lines = header.count + 2 ∧
      header.partialBytes < 768 ∧ (header.count = 0 → header.evicted = 0) ∧
      (header.first ≤ maxCounter ∧ header.last ≤ maxCounter ∧ header.evicted ≤ maxCounter ∧
        header.dropped ≤ maxCounter) ∧
      (header.count = 0 → header.first = 0 ∧ header.last = 0) ∧
      (header.count ≠ 0 → (header.first : Int) = (header.last : Int) - header.count + 1 ∧
        header.last = header.evicted + header.count) := by
  by_cases hcount : header.count = 0 <;>
    simp [Header.inRange, hcount, and_assoc]

section

variable (hformed : WellFormed log)
include hformed

theorem WellFormed.inRange : log.header.inRange (residentWrites log).length = true := by
  have hline := hformed.line_length
  have hlast := hformed.last
  have hlastLe := hformed.last_le
  have hevicted : log.ring.count = 0 → log.evicted = 0 := by
    intro hcount
    by_contra hne
    rw [hformed.full hne] at hcount
    cases hcount
  refine (Header.inRange_iff _ _).mpr ⟨log.ring.bounded, length_residentWrites log,
    Nat.lt_succ_of_le hline, hevicted, ⟨log.first_le, hlastLe, ?_, hformed.dropped_le⟩, ?_, ?_⟩
  · exact Nat.le_trans (Nat.le_add_right _ _) (hlast ▸ hlastLe)
  · intro hcount
    have hnone : log.ring.count = 0 := hcount
    exact ⟨if_pos hcount, hlast.trans (by rw [hevicted hcount, hnone])⟩
  · intro hcount
    have hfirst := hformed.first_eq hcount
    simp only [Log.header]
    omega

theorem WellFormed.validRows : log.ring.contents.all validRow = true := by
  rw [List.all_eq_true]
  intro row hrow
  obtain ⟨body, hbody, rfl⟩ := hformed.rows row hrow
  obtain ⟨hlength, hprintable⟩ := acceptable_iff.mp hbody
  simp only [validRow, List.getLast?_concat, List.dropLast_concat, hprintable, Bool.and_true,
    beq_self_eq_true, Bool.true_and, List.length_append, List.length_singleton, decide_eq_true_eq]
  omega

theorem WellFormed.length_export :
    (residentExport log).length ≤ 64 * 768 + 320 + completeFooter.length := by
  have hheader := hformed.length_header
  have hrows : log.ring.contents.flatten.length ≤ log.ring.contents.length * 768 := by
    have hlength (rows : List (List UInt8)) (hrows : ∀ row ∈ rows, row.length ≤ 768) :
        rows.flatten.length ≤ rows.length * 768 := by
      induction rows with
      | nil => exact Nat.zero_le _
      | cons row rows ih =>
        obtain ⟨hrow, hrest⟩ := List.forall_mem_cons.mp hrows
        have hmore := ih hrest
        rw [List.flatten_cons, List.length_append, List.length_cons]
        omega
    refine hlength _ fun row hrow => ?_
    obtain ⟨body, hbody, rfl⟩ := hformed.rows row hrow
    rw [List.length_append]
    exact Nat.succ_le_succ (acceptable_iff.mp hbody).1
  have hcount := log.ring.bounded
  rw [Ring.length_contents] at hrows
  rw [residentExport, residentWrites, List.flatten_cons, List.flatten_append, List.length_append,
    List.length_append]
  simp only [List.flatten_cons, List.flatten_nil, List.append_nil]
  omega

theorem decodeLog_residentExport :
    decodeLog (residentExport log) = .ok ⟨log.header, log.ring.contents⟩ := by
  have hsplit : splitLines (residentExport log) = residentWrites log :=
    splitLines_flatten hformed.isLine
  have hfooter : completeFooter.isSuffixOf (residentExport log) = true := by
    rw [List.isSuffixOf_iff_suffix, residentExport, residentWrites, List.flatten_cons,
      List.flatten_append, ← List.append_assoc, List.flatten_cons, List.flatten_nil,
      List.append_nil]
    exact List.suffix_append _ _
  have hrecords : (residentWrites log).tail.dropLast = log.ring.contents := by
    rw [residentWrites, List.tail_cons, List.dropLast_concat]
  have hheader : (residentWrites log).head?.bind matchHeader = some log.header :=
    matchHeader_residentHeader log
  rw [decodeLog, if_neg, hsplit, hheader]
  · show (if log.header.inRange _ = false then _ else if _ = false then _ else _) = _
    rw [hformed.inRange, hrecords, hformed.validRows]
    rfl
  · rw [hfooter]
    rintro (hlong | hfalse)
    · exact Nat.not_lt.mpr hformed.length_export hlong
    · cases hfalse

theorem decodeLog_beginning {cut : List UInt8} (hcut : cut <+: residentExport log)
    (hproper : cut ≠ residentExport log) : ∃ text, decodeLog cut = .error text := by
  unfold decodeLog
  split
  · exact ⟨_, rfl⟩
  · rename_i haccepted
    rw [not_or, Bool.not_eq_false, List.isSuffixOf_iff_suffix] at haccepted
    obtain ⟨front, hfront⟩ := haccepted.2
    have hend : cut.getLast? = some 10 := by
      rw [← hfront, List.getLast?_append_of_ne_nil _ (by decide)]
      decide
    obtain ⟨count, htake⟩ := take_of_beginning hformed.isLine hcut hend
    have hshort : count < (residentWrites log).length := by
      by_contra hall
      rw [List.take_of_length_le (Nat.le_of_not_lt hall)] at htake
      exact hproper htake
    have hsplit : splitLines cut = (residentWrites log).take count := by
      rw [htake]
      exact splitLines_flatten fun line hline => hformed.isLine line (List.mem_of_mem_take hline)
    cases count with
    | zero =>
      rw [htake] at hend
      cases hend
    | succ count =>
      have hheader : (splitLines cut).head?.bind matchHeader = some log.header := by
        rw [hsplit]
        exact matchHeader_residentHeader log
      have hlength : (splitLines cut).length ≠ log.header.count + 2 := by
        rw [hsplit, List.length_take_of_le (Nat.le_of_lt hshort)]
        rw [length_residentWrites] at hshort
        exact Nat.ne_of_lt hshort
      have hrange : log.header.inRange (splitLines cut).length = false := by
        simp [Header.inRange, hlength]
      rw [hheader]
      show ∃ text, (if log.header.inRange _ = false then _ else _) = _
      rw [hrange]
      exact ⟨_, rfl⟩

end

end RoundTrip

/-- However the output is cut into calls, the log is the same.  Until it is exhausted, which takes
`2 ^ 64` accepted or rejected lines, it holds the last 64 accepted lines, with the right counters.
The exported file decodes to those rows and counters, and no proper beginning of it is accepted. -/
theorem resident_log_export_is_exact (chunks : List (List UInt8)) :
    let log := chunks.foldl residentLogFeed Log.empty
    log = residentLogFeed Log.empty chunks.flatten ∧
      (log.exhausted = false ↔ (accepted chunks.flatten).length ≤ maxCounter ∧
        (rejected chunks.flatten).length ≤ maxCounter) ∧ (log.exhausted = false →
        log.ring.count = min 64 (accepted chunks.flatten).length ∧
          log.ring.contents = ((accepted chunks.flatten).drop
            ((accepted chunks.flatten).length - log.ring.count)).map (· ++ [10]) ∧
          log.last = (accepted chunks.flatten).length ∧
          log.evicted = log.last - log.ring.count ∧
          log.dropped = (rejected chunks.flatten).length) ∧
      decodeLog (residentExport log) = .ok ⟨log.header, log.ring.contents⟩ ∧
      ∀ cut, cut <+: residentExport log → cut ≠ residentExport log →
        ∃ text, decodeLog cut = .error text := by
  have hchunks := feed_chunks Log.empty chunks
  have hformed := wellFormed_empty.feed chunks.flatten
  rw [hchunks]
  refine ⟨rfl, live_feed_iff _, ?_, decodeLog_residentExport hformed,
    fun cut => decodeLog_beginning hformed⟩
  intro hlive
  have hshows := shows_feed chunks.flatten hlive
  have hcount := hshows.count
  have hsame : (accepted chunks.flatten).length -
      (residentLogFeed Log.empty chunks.flatten).ring.count =
        (accepted chunks.flatten).length - 64 := by omega
  refine ⟨hcount, ?_, hshows.last, ?_, hshows.dropped⟩
  · rw [hsame]
    exact hshows.contents
  · rw [hshows.last, hsame]
    exact hshows.evicted

theorem resident_log_export_is_exact_two_lines :
    let log := [[104, 105], [10, 7, 10]].foldl residentLogFeed Log.empty
    log.exhausted = false ∧ log.ring.contents = [[104, 105, 10]] ∧ log.last = 1 ∧ log.dropped = 1 ∧
      decodeLog (residentExport log) = .ok ⟨log.header, [[104, 105, 10]]⟩ := by
  obtain ⟨-, hlive, hrows, hdecoded, -⟩ := resident_log_export_is_exact [[104, 105], [10, 7, 10]]
  have hnow := hlive.mpr ⟨by decide, by decide⟩
  obtain ⟨hcount, hcontents, hlast, -, hdropped⟩ := hrows hnow
  rw [hcount] at hcontents
  rw [hcontents] at hdecoded
  exact ⟨hnow, hcontents, hlast, hdropped, hdecoded⟩

end NativeInitLab.Resident
