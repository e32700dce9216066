import Mathlib.Data.Finset.Card
import Mathlib.Data.List.DropRight

namespace NativeInitLab.Ondevice

/-! The evidence that Debian leaves on the device, and the host's verdict on it.  Texts are lists of
code points. -/

abbrev Text := List Nat

def str (text : String) : Text := text.toList.map Char.toNat

def isSpace (c : Nat) : Bool :=
  9 ≤ c && c ≤ 13 || 28 ≤ c && c ≤ 32 || 0x2000 ≤ c && c ≤ 0x200A ||
    [0x85, 0xA0, 0x1680, 0x2028, 0x2029, 0x202F, 0x205F, 0x3000].contains c

def isBreak (c : Nat) : Bool :=
  10 ≤ c && c ≤ 13 || 28 ≤ c && c ≤ 30 || c == 0x85 || c == 0x2028 || c == 0x2029

/-- What is used of Python: `int(text, 10)`, and how values are printed. -/
structure Python where
  int : Text → Option Int
  int_zero : int (str "0") = some 0
  repr : Text → Text
  listed : Finset Text → Text
  stamped : List (Text × Nat) → Text

def marker : Text := str "A90OBSREC "
def schema : Text := str "a90-ondevice-evidence-v1"

def debianPid1 : Text := str "debian_pid1"
def debianDrmMaster : Text := str "debian_drm_master"
def debianSshd : Text := str "debian_sshd"
def debianWifi : Text := str "debian_wifi"

def mandatoryPhases : List Text := [debianPid1, debianDrmMaster, debianSshd]

def phaseRequiredFacts (phase : Text) : List (Text × Text) :=
  if phase = debianPid1 then
    [(str "pid1_comm", str "init"), (str "proc1_exe", str "/usr/sbin/init")]
  else if phase = debianSshd then [(str "dropbear", str "1")]
  else if phase = debianDrmMaster then
    [(str "drm_card0", str "char"), (str "drm_master", str "1"), (str "display_ready", str "1")]
  else if phase = debianWifi then
    [(str "wifi_ready", str "1"), (str "wifi_failure", str "0"), (str "wifi_companion", str "1")]
  else []

def lower (c : Nat) : Bool := 97 ≤ c && c ≤ 122
def digit (c : Nat) : Bool := 48 ≤ c && c ≤ 57

/-! The expressions of the records' values; a value has no white space, so `$` is its end. -/

def phaseRe (text : Text) : Bool := !text.isEmpty && text.all fun c => lower c || digit c || c == 95

def runChar (c : Nat) : Bool := lower c || 65 ≤ c && c ≤ 90 || digit c || c == 46 || c == 95 || c == 45

def runRe (text : Text) : Bool := !text.isEmpty && text.length ≤ 128 && text.all runChar

def hexText (text : Text) : Bool := text.length == 64 && text.all fun c => digit c || 97 ≤ c && c ≤ 102

/-- `$` also stands before a newline at the end. -/
def intentRe (text : Text) : Bool :=
  hexText text || text.getLast? == some 10 && hexText text.dropLast

/-- After the replacement no carriage return is left that could pair with a newline. -/
def splitlines (line : Text) : Text → List Text
  | [] => if line.isEmpty then [] else [line]
  | c :: rest =>
    if isBreak c then line :: splitlines [] rest else splitlines (line ++ [c]) rest

def lines (text : Text) : List Text := splitlines [] (text.map fun c => if c = 13 then 10 else c)

def afterMarker : Text → Option Text
  | [] => none
  | c :: rest =>
    if marker.isPrefixOf (c :: rest) then some ((c :: rest).drop marker.length)
    else afterMarker rest

def strip (text : Text) : Text := (text.dropWhile isSpace).rdropWhile isSpace

def words (word : Text) : Text → List Text
  | [] => if word.isEmpty then [] else [word]
  | c :: rest =>
    if isSpace c then (if word.isEmpty then [] else [word]) ++ words [] rest
    else words (word ++ [c]) rest

abbrev Fields := List (Text × Text)

def get (fields : Fields) (key : Text) : Option Text :=
  (fields.find? fun field => field.1 == key).map Prod.snd

def parseTokens : List Text → Fields → Option Fields
  | [], fields => some fields
  | token :: rest, fields =>
    let key := token.takeWhile (· != 61)
    if token.contains 61 && !key.isEmpty && (get fields key).isNone then
      parseTokens rest (fields ++ [(key, token.drop (key.length + 1))])
    else none

structure Record where
  fields : Fields
  phase : Text
  run : Text
  uptimeMs : Nat
  get_phase : get fields (str "phase") = some phase
  get_run : get fields (str "run") = some run
  run_plain : runRe run = true

def parseFields (python : Python) (fields : Fields) : Option Record :=
  match _hphase : get fields (str "phase"), _hrun : get fields (str "run"),
    (get fields (str "uptime_ms")).bind python.int with
  | some phase, some run, some uptime =>
    if h : (get fields (str "schema") = some schema ∧ phaseRe phase = true) ∧ runRe run = true ∧
        0 ≤ uptime then
      some ⟨fields, phase, run, uptime.toNat, by assumption, by assumption, h.2.1⟩
    else none
  | _, _, _ => none

def parseLine (python : Python) (payload : Text) : Option Record :=
  if payload.isEmpty then none
  else (parseTokens (words [] payload) []).bind (parseFields python)

def recordOf (python : Python) (line : Text) : Option Record :=
  ((afterMarker line).map strip).bind (parseLine python)

def parse (python : Python) (text : Text) : List Record := (lines text).filterMap (recordOf python)

def missingFacts (record : Record) : Option Text :=
  (phaseRequiredFacts record.phase).findSome? fun (field, accepted) =>
    match get record.fields field with
    | none => some (record.phase ++ str " carries no " ++ field)
    | some value =>
      if value = [] ∨ value = str "na" then some (record.phase ++ str " carries no " ++ field)
      else if value ≠ accepted then
        some (record.phase ++ str " recorded " ++ field ++ str "=" ++ value)
      else none

def badState (record : Record) : Option Text :=
  if get record.fields (str "display_failure") = some (str "1") then
    some (record.phase ++ str " recorded display_failure=1")
  else if get record.fields (str "wifi_failure") = some (str "1") then
    some (record.phase ++ str " recorded wifi_failure=1")
  else if record.phase = debianPid1 ∧ ¬ get record.fields (str "pid1_comm") = none ∧
      get record.fields (str "pid1_comm") ≠ some (str "na") ∧
      get record.fields (str "pid1_comm") ≠ some (str "init") then
    some (str "debian_pid1 recorded pid1_comm=" ++ (get record.fields (str "pid1_comm")).getD [])
  else if record.phase = debianSshd ∧ get record.fields (str "dropbear") = some (str "0") then
    some (str "debian_sshd recorded dropbear=0")
  else if record.phase = debianDrmMaster ∧
      get record.fields (str "drm_card0") = some (str "absent") then
    some (str "debian_drm_master recorded drm_card0=absent")
  else if record.phase = debianDrmMaster ∧ get record.fields (str "drm_master") = some (str "0") then
    some (str "debian_drm_master recorded drm_master=0")
  else none

def identityFields : List Text := [str "run", str "pid1_comm", str "proc1_exe"]

def identityValues (records : List Record) (field : Text) : Finset Text :=
  (records.filterMap fun record =>
    (get record.fields field).filter fun value => value != str "na").toFinset

def inconsistent (python : Python) (records : List Record) (field : Text) : Option Text :=
  if 1 < (identityValues records field).card then
    some (field ++ str " is inconsistent within run: " ++ python.listed (identityValues records field))
  else none

def stamp (records : List Record) (phase : Text) : Nat :=
  ((records.filter fun record => record.phase == phase).getLast?.map Record.uptimeMs).getD 0

def missingPhases (records : List Record) : List Text :=
  mandatoryPhases.filter fun phase => !records.any fun record => record.phase == phase

structure Verdict where
  proof : Bool
  reason : Option Text
  deriving DecidableEq

/-- The part of `evaluate` behind the selection of the run. -/
def grade (python : Python) (records : List Record) : Verdict :=
  if missingPhases records ≠ [] then
    ⟨false, some (str "missing phases: " ++ (str ", ").intercalate (missingPhases records))⟩
  else
    match records.findSome? badState with
    | some reason => ⟨false, some reason⟩
    | none =>
      match records.findSome? missingFacts with
      | some reason => ⟨false, some reason⟩
      | none =>
        match identityFields.findSome? (inconsistent python records) with
        | some reason => ⟨false, some reason⟩
        | none =>
          if stamp records debianDrmMaster < stamp records debianPid1 ∨
              stamp records debianSshd < stamp records debianPid1 then
            ⟨false, some (debianPid1 ++ str " is not the earliest stamp: " ++
              python.stamped (mandatoryPhases.map fun phase => (phase, stamp records phase)))⟩
          else ⟨true, none⟩

def select (python : Python) (text run : Text) : List Record :=
  (parse python text).filter fun record => record.run == run

/-- The proof flag and the reason of `evaluate`. -/
def evaluate (python : Python) (text run : Text) : Except Text Verdict :=
  if intentRe run then .ok (grade python (select python text run))
  else .error (str "run identity is not one arming intent_sha256: " ++ python.repr run)

def Terminated (text : Text) : Prop := ∀ c ∈ text.getLast?, isBreak c = true

def Unbroken (text : Text) : Prop := ∀ c ∈ text, isBreak c = false

theorem splitlines_break {c : Nat} (hbreak : isBreak c = true) (line before after : Text) :
    splitlines line (before ++ c :: after) =
      splitlines line (before ++ [c]) ++ splitlines [] after := by
  induction before generalizing line with
  | nil => simp [splitlines, hbreak]
  | cons b before ih =>
    rw [List.cons_append, List.cons_append, splitlines, splitlines]
    split
    · rw [ih, List.cons_append]
    · exact ih _

theorem splitlines_unbroken {text : Text} (htext : Unbroken text) (line : Text) :
    splitlines line text = if (line ++ text).isEmpty then [] else [line ++ text] := by
  induction text generalizing line with
  | nil => simp [splitlines]
  | cons c text ih =>
    rw [splitlines, if_neg (by simp [htext c List.mem_cons_self]),
      ih (fun d hd => htext d (List.mem_cons_of_mem _ hd))]
    simp

theorem splitlines_line {text : Text} (htext : Unbroken text) (line : Text) :
    splitlines line (text ++ [10]) = [line ++ text] := by
  induction text generalizing line with
  | nil => simp [splitlines, isBreak]
  | cons c text ih =>
    rw [List.cons_append, splitlines, if_neg (by simp [htext c List.mem_cons_self]),
      ih (fun d hd => htext d (List.mem_cons_of_mem _ hd))]
    simp

theorem isBreak_replaced (c : Nat) : isBreak (if c = 13 then 10 else c) = isBreak c := by
  split
  case isTrue h => rw [h]; rfl
  case isFalse => rfl

theorem lines_append {before : Text} (hbefore : Terminated before) (after : Text) :
    lines (before ++ after) = lines before ++ lines after := by
  rcases List.eq_nil_or_concat before with rfl | ⟨front, c, rfl⟩
  · rfl
  · have hbreak : isBreak (if c = 13 then 10 else c) = true := by
      rw [isBreak_replaced]
      exact hbefore c (by simp)
    simp only [lines, List.concat_eq_append, List.map_append, List.map_cons, List.map_nil,
      List.append_assoc, List.singleton_append]
    exact splitlines_break hbreak [] _ _

theorem map_replaced {line : Text} (hline : Unbroken line) :
    (line.map fun c => if c = 13 then 10 else c) = line := by
  conv_rhs => rw [← List.map_id line]
  refine List.map_congr_left fun c hc => if_neg fun h => ?_
  have := hline c hc
  rw [h] at this
  cases this

theorem lines_unbroken {line : Text} (hline : Unbroken line) :
    lines line = if line.isEmpty then [] else [line] := by
  rw [lines, map_replaced hline, splitlines_unbroken hline, List.nil_append]

theorem lines_line {line : Text} (hline : Unbroken line) : lines (line ++ [10]) = [line] := by
  rw [lines, List.map_append, map_replaced hline]
  exact splitlines_line hline []

section Parse

variable (python : Python)

theorem parse_append {before : Text} (hbefore : Terminated before) (after : Text) :
    parse python (before ++ after) = parse python before ++ parse python after := by
  rw [parse, lines_append hbefore, List.filterMap_append]
  rfl

theorem parse_unbroken {line : Text} (hline : Unbroken line) :
    parse python line = (recordOf python line).toList := by
  rw [parse, lines_unbroken hline]
  cases line with
  | nil => rfl
  | cons c line =>
    cases hrecord : recordOf python (c :: line) with
    | none => simp [hrecord]
    | some record => simp [hrecord]

end Parse

inductive Ending
  | lf
  | cr
  | crlf

def Ending.text : Ending → Text
  | .lf => [10]
  | .cr => [13]
  | .crlf => [13, 10]

def written (parts : List (Text × Ending)) : Text := parts.flatMap fun part => part.1 ++ part.2.text

theorem parse_ending (python : Python) (line rest : Text) (ending : Ending) :
    parse python (line ++ ending.text ++ rest) = parse python (line ++ [10]) ++ parse python rest := by
  have hterminated (c : Nat) (hbreak : isBreak c = true) : Terminated (line ++ [c]) := by
    intro d hd
    simp only [List.getLast?_append, List.getLast?_singleton, Option.some_or, Option.mem_def,
      Option.some.injEq] at hd
    rw [← hd]
    exact hbreak
  have hreplaced : parse python (line ++ [13]) = parse python (line ++ [10]) := by
    simp [parse, lines]
  cases ending with
  | lf => exact parse_append python (hterminated 10 rfl) rest
  | cr =>
    rw [← hreplaced]
    exact parse_append python (hterminated 13 rfl) rest
  | crlf =>
    have hsecond : parse python ([10] ++ rest) = parse python rest := by
      rw [parse_append python (by simp [Terminated, isBreak])]
      rfl
    rw [← hreplaced, ← hsecond, ← parse_append python (hterminated 13 rfl)]
    simp [Ending.text]

theorem parse_written (python : Python) (parts : List (Text × Ending)) (rest : Text) :
    parse python (written parts ++ rest) =
      (parts.map Prod.fst).flatMap (fun line => parse python (line ++ [10])) ++ parse python rest := by
  induction parts with
  | nil => rfl
  | cons part parts ih =>
    have hcons : written (part :: parts) ++ rest =
        part.1 ++ part.2.text ++ (written parts ++ rest) := by
      simp [written]
    rw [hcons, parse_ending, ih]
    simp

/-- A record that adds nothing to what the others say. -/
structure Harmless (f : Record) : Prop where
  phase : f.phase ∉ mandatoryPhases
  display : get f.fields (str "display_failure") ≠ some (str "1")
  wifi : get f.fields (str "wifi_failure") ≠ some (str "1")
  facts : f.phase = debianWifi → get f.fields (str "wifi_ready") = some (str "1") ∧
    get f.fields (str "wifi_failure") = some (str "0") ∧
    get f.fields (str "wifi_companion") = some (str "1")
  comm : ∀ value, get f.fields (str "pid1_comm") = some value → value = str "na" ∨ value = str "init"
  exe : ∀ value, get f.fields (str "proc1_exe") = some value →
    value = str "na" ∨ value = str "/usr/sbin/init"

section Grade

variable {python : Python} {records : List Record} {f : Record}

theorem accepted_ne {phase : Text} {fact : Text × Text} (hfact : fact ∈ phaseRequiredFacts phase) :
    fact.2 ≠ [] ∧ fact.2 ≠ str "na" := by
  have hall : ∀ facts ∈ [phaseRequiredFacts debianPid1, phaseRequiredFacts debianSshd,
      phaseRequiredFacts debianDrmMaster, phaseRequiredFacts debianWifi], ∀ fact ∈ facts,
      fact.2 ≠ [] ∧ fact.2 ≠ str "na" := by
    decide
  by_cases hphase : phase = debianPid1 ∨ phase = debianSshd ∨ phase = debianDrmMaster ∨
      phase = debianWifi
  · rcases hphase with rfl | rfl | rfl | rfl <;> exact hall _ (by simp) fact hfact
  · obtain ⟨h1, h2, h3, h4⟩ : phase ≠ debianPid1 ∧ phase ≠ debianSshd ∧ phase ≠ debianDrmMaster ∧
        phase ≠ debianWifi := by
      simpa only [not_or] using hphase
    rw [phaseRequiredFacts, if_neg h1, if_neg h2, if_neg h3, if_neg h4] at hfact
    cases hfact

theorem missingFacts_eq_none : missingFacts f = none ↔
    ∀ fact ∈ phaseRequiredFacts f.phase, get f.fields fact.1 = some fact.2 := by
  unfold missingFacts
  rw [List.findSome?_eq_none_iff]
  refine forall₂_congr fun fact hfact => ?_
  obtain ⟨hempty, hna⟩ := accepted_ne hfact
  dsimp only
  generalize get f.fields fact.1 = found
  cases found with
  | none => simp
  | some value =>
    by_cases hsame : value = fact.2
    · simp [hsame, hempty, hna]
    · simp only [Option.some.injEq, hsame, iff_false]
      split
      · exact nofun
      · exact nofun

theorem badState_eq_none (hphase : f.phase ∉ mandatoryPhases) : badState f = none ↔
    get f.fields (str "display_failure") ≠ some (str "1") ∧
      get f.fields (str "wifi_failure") ≠ some (str "1") := by
  simp only [mandatoryPhases, List.mem_cons, List.not_mem_nil, or_false, not_or] at hphase
  obtain ⟨hpid1, hdrm, hsshd⟩ := hphase
  simp only [badState, hpid1, hdrm, hsshd, false_and, if_false]
  split
  case isTrue h => simp [h]
  case isFalse h =>
    split
    case isTrue h' => simp [h']
    case isFalse h' => simp [h, h']

theorem facts_of_present (hpresent : missingPhases records = []) {phase : Text}
    (hphase : phase ∈ mandatoryPhases) (hfacts : records.findSome? missingFacts = none) :
    ∃ r ∈ records, ∀ fact ∈ phaseRequiredFacts phase, get r.fields fact.1 = some fact.2 := by
  have hany := List.filter_eq_nil_iff.mp hpresent phase hphase
  simp only [Bool.not_eq_true, Bool.not_eq_false', List.any_eq_true, beq_iff_eq] at hany
  obtain ⟨r, hr, rfl⟩ := hany
  exact ⟨r, hr, missingFacts_eq_none.mp (List.findSome?_eq_none_iff.mp hfacts r hr)⟩

theorem mem_identityValues {field value : Text} : value ∈ identityValues records field ↔
    ∃ r ∈ records, get r.fields field = some value ∧ value ≠ str "na" := by
  simp only [identityValues, List.mem_toFinset, List.mem_filterMap, Option.filter_eq_some_iff,
    bne_iff_ne]

theorem identityValues_snoc {field known : Text} (hknown : known ∈ identityValues records field)
    (hvalue : ∀ value, get f.fields field = some value → value = str "na" ∨ value = known) :
    identityValues (records ++ [f]) field = identityValues records field := by
  ext value
  constructor
  · intro hmem
    obtain ⟨r, hr, hget, hna⟩ := mem_identityValues.mp hmem
    rcases List.mem_append.mp hr with hr | hr
    · exact mem_identityValues.mpr ⟨r, hr, hget, hna⟩
    · rw [List.mem_singleton.mp hr] at hget
      rw [(hvalue value hget).resolve_left hna]
      exact hknown
  · intro hmem
    obtain ⟨r, hr, hget, hna⟩ := mem_identityValues.mp hmem
    exact mem_identityValues.mpr ⟨r, List.mem_append_left _ hr, hget, hna⟩

theorem stamp_snoc {phase : Text} (hphase : f.phase ≠ phase) :
    stamp (records ++ [f]) phase = stamp records phase := by
  simp [stamp, List.filter_append, hphase]

theorem missingPhases_snoc (hphase : f.phase ∉ mandatoryPhases) :
    missingPhases (records ++ [f]) = missingPhases records := by
  refine List.filter_congr fun phase hmandatory => ?_
  have hne : (f.phase == phase) = false := by
    rw [beq_eq_false_iff_ne]
    rintro rfl
    exact hphase hmandatory
  simp [List.any_append, hne]

theorem identity_snoc (hharmless : Harmless f) {run : Text} (hna : run ≠ str "na")
    (hrun : f.run = run) (hrecords : ∀ r ∈ records, r.run = run)
    (hpresent : missingPhases records = []) (hmissing : records.findSome? missingFacts = none) :
    identityFields.findSome? (inconsistent python (records ++ [f])) =
      identityFields.findSome? (inconsistent python records) := by
  obtain ⟨r, hr, hknown⟩ := facts_of_present hpresent
    (show debianPid1 ∈ mandatoryPhases from List.mem_cons_self) hmissing
  have hfirst : identityValues (records ++ [f]) (str "run") = identityValues records (str "run") := by
    refine identityValues_snoc (mem_identityValues.mpr ⟨r, hr, r.get_run, ?_⟩) fun value hvalue => ?_
    · rw [hrecords r hr]
      exact hna
    · rw [f.get_run, Option.some.injEq] at hvalue
      exact .inr (hvalue.symm.trans (hrun.trans (hrecords r hr).symm))
  have hsecond : identityValues (records ++ [f]) (str "pid1_comm") =
      identityValues records (str "pid1_comm") :=
    identityValues_snoc (mem_identityValues.mpr ⟨r, hr,
      hknown (str "pid1_comm", str "init") (by decide), by decide⟩) hharmless.comm
  have hthird : identityValues (records ++ [f]) (str "proc1_exe") =
      identityValues records (str "proc1_exe") :=
    identityValues_snoc (mem_identityValues.mpr ⟨r, hr,
      hknown (str "proc1_exe", str "/usr/sbin/init") (by decide), by decide⟩) hharmless.exe
  simp only [identityFields, List.findSome?_cons, List.findSome?_nil, inconsistent, hfirst, hsecond,
    hthird]

theorem grade_snoc (hharmless : Harmless f) {run : Text} (hna : run ≠ str "na") (hrun : f.run = run)
    (hrecords : ∀ r ∈ records, r.run = run) :
    grade python (records ++ [f]) = grade python records := by
  have hmandatory := hharmless.phase
  have hbad : badState f = none := (badState_eq_none hmandatory).mpr ⟨hharmless.display, hharmless.wifi⟩
  have hfacts : missingFacts f = none := by
    rw [missingFacts_eq_none]
    simp only [mandatoryPhases, List.mem_cons, List.not_mem_nil, or_false, not_or] at hmandatory
    rw [phaseRequiredFacts, if_neg hmandatory.1, if_neg hmandatory.2.2, if_neg hmandatory.2.1]
    split
    case isTrue hwifi => simpa using hharmless.facts hwifi
    case isFalse => exact nofun
  have hstamp {phase : Text} (hphase : phase ∈ mandatoryPhases) :
      stamp (records ++ [f]) phase = stamp records phase :=
    stamp_snoc fun h => hmandatory (by rw [h]; exact hphase)
  have hstamps : (mandatoryPhases.map fun phase => (phase, stamp (records ++ [f]) phase)) =
      mandatoryPhases.map fun phase => (phase, stamp records phase) :=
    List.map_congr_left fun phase hphase => by rw [hstamp hphase]
  unfold grade
  rw [missingPhases_snoc hmandatory, hstamps,
    hstamp (show debianDrmMaster ∈ mandatoryPhases by decide),
    hstamp (show debianSshd ∈ mandatoryPhases by decide),
    hstamp (show debianPid1 ∈ mandatoryPhases by decide), List.findSome?_append,
    List.findSome?_append, List.findSome?_singleton, List.findSome?_singleton, hbad, hfacts, Option.or_none, Option.or_none]
  by_cases hpresent : missingPhases records = []
  · rw [if_neg (not_not_intro hpresent), if_neg (not_not_intro hpresent)]
    cases hmissing : records.findSome? missingFacts with
    | some reason => rfl
    | none => rw [identity_snoc hharmless hna hrun hrecords hpresent hmissing]
  · rw [if_pos hpresent, if_pos hpresent]

theorem of_grade_proof (hproof : (grade python records).proof = true) :
    missingPhases records = [] ∧ (∀ r ∈ records, badState r = none) ∧
      (∀ r ∈ records, missingFacts r = none) ∧
      ∀ field ∈ identityFields, (identityValues records field).card ≤ 1 := by
  unfold grade at hproof
  split at hproof
  case isTrue => cases hproof
  case isFalse hpresent =>
    cases hbad : records.findSome? badState with
    | some reason => simp [hbad] at hproof
    | none =>
      cases hfacts : records.findSome? missingFacts with
      | some reason => simp [hbad, hfacts] at hproof
      | none =>
        cases hidentity : identityFields.findSome? (inconsistent python records) with
        | some reason => simp [hbad, hfacts, hidentity] at hproof
        | none =>
          refine ⟨not_not.mp hpresent, List.findSome?_eq_none_iff.mp hbad,
            List.findSome?_eq_none_iff.mp hfacts, fun field hfield => ?_⟩
          have hconsistent := List.findSome?_eq_none_iff.mp hidentity field hfield
          unfold inconsistent at hconsistent
          split at hconsistent
          case isTrue => cases hconsistent
          case isFalse hcard => omega

theorem harmless_of_proof (hmandatory : f.phase ∉ mandatoryPhases)
    (hproof : (grade python (records ++ [f])).proof = true) : Harmless f := by
  obtain ⟨hpresent, hbad, hfacts, hidentity⟩ := of_grade_proof hproof
  have hlast : f ∈ records ++ [f] := List.mem_append_right _ (List.mem_singleton_self f)
  obtain ⟨r, hr, hknown⟩ := facts_of_present hpresent
    (show debianPid1 ∈ mandatoryPhases from List.mem_cons_self) (List.findSome?_eq_none_iff.mpr hfacts)
  have hsame {field known : Text} (hfield : field ∈ identityFields)
      (hvalue : get r.fields field = some known) (hna : known ≠ str "na") (value : Text)
      (hget : get f.fields field = some value) : value = str "na" ∨ value = known := by
    by_cases hvalue' : value = str "na"
    · exact .inl hvalue'
    · exact .inr (Finset.card_le_one.mp (hidentity field hfield) value
        (mem_identityValues.mpr ⟨f, hlast, hget, hvalue'⟩) known
        (mem_identityValues.mpr ⟨r, hr, hvalue, hna⟩))
  obtain ⟨hdisplay, hwifi⟩ := (badState_eq_none hmandatory).mp (hbad f hlast)
  refine ⟨hmandatory, hdisplay, hwifi, fun hphase => ?_, ?_, ?_⟩
  · have hall := missingFacts_eq_none.mp (hfacts f hlast)
    rw [hphase] at hall
    exact ⟨hall (str "wifi_ready", str "1") (by decide), hall (str "wifi_failure", str "0") (by decide),
      hall (str "wifi_companion", str "1") (by decide)⟩
  · exact hsame (by decide) (hknown (str "pid1_comm", str "init") (by decide)) (by decide)
  · exact hsame (by decide) (hknown (str "proc1_exe", str "/usr/sbin/init") (by decide)) (by decide)

end Grade

/-! A log with which the proof stands, for any run. -/

section Good

variable {python : Python} {phase run : Text}

def goodEnd : Text :=
  str (" pid1_comm=init proc1_exe=/usr/sbin/init drm_card0=char drm_master=1 dropbear=1 " ++
    "display_ready=1")

def goodBody (phase run : Text) : Text :=
  str "schema=a90-ondevice-evidence-v1 phase=" ++ (phase ++ (str " uptime_ms=0 run=" ++
    (run ++ goodEnd)))

def goodLine (phase run : Text) : Text := marker ++ goodBody phase run

def goodText (run : Text) : Text := mandatoryPhases.flatMap fun phase => goodLine phase run ++ [10]

def goodFields (phase run : Text) : Fields :=
  [(str "schema", schema), (str "phase", phase), (str "uptime_ms", str "0"), (str "run", run),
    (str "pid1_comm", str "init"), (str "proc1_exe", str "/usr/sbin/init"),
    (str "drm_card0", str "char"), (str "drm_master", str "1"), (str "dropbear", str "1"), (str "display_ready", str "1")]

theorem words_plain {plain : Text} (hplain : ∀ c ∈ plain, isSpace c = false) (word rest : Text) :
    words word (plain ++ rest) = words (word ++ plain) rest := by
  induction plain generalizing word with
  | nil => simp
  | cons c plain ih =>
    rw [List.cons_append, words, if_neg (by simp [hplain c List.mem_cons_self]),
      ih fun d hd => hplain d (List.mem_cons_of_mem _ hd)]
    simp

theorem tokens_good (hphase : ∀ c ∈ phase, isSpace c = false) (hrun : ∀ c ∈ run, isSpace c = false) :
    parseTokens (words [] (goodBody phase run)) [] = some (goodFields phase run) := by
  have hfirst : words [] (goodBody phase run) = str "schema=a90-ondevice-evidence-v1" ::
      words (str "phase=") (phase ++ (str " uptime_ms=0 run=" ++ (run ++ goodEnd))) := rfl
  have hsecond : words (str "phase=" ++ phase) (str " uptime_ms=0 run=" ++ (run ++ goodEnd)) =
      (str "phase=" ++ phase) :: str "uptime_ms=0" :: words (str "run=") (run ++ goodEnd) := rfl
  have hthird : words (str "run=" ++ run) goodEnd = (str "run=" ++ run) :: words [] goodEnd := rfl
  rw [hfirst, words_plain hphase, hsecond, words_plain hrun, hthird]
  rfl

theorem recordOf_good (hphase : phaseRe phase = true) (hplain : ∀ c ∈ phase, isSpace c = false)
    (hrun : runRe run = true) (hrunPlain : ∀ c ∈ run, isSpace c = false) :
    ∃ r, recordOf python (goodLine phase run) = some r ∧ r.fields = goodFields phase run ∧
      r.phase = phase ∧ r.run = run ∧ r.uptimeMs = 0 := by
  have hmarker : afterMarker (goodLine phase run) = some (goodBody phase run) := rfl
  have hstrip : strip (goodBody phase run) = goodBody phase run := by
    have hfront : (goodBody phase run).dropWhile isSpace = goodBody phase run := rfl
    rw [strip, hfront, List.rdropWhile_eq_self_iff]
    intro hne
    have hlast : (goodBody phase run).getLast? = some 49 := by
      simp only [goodBody, List.getLast?_append]
      rfl
    rw [List.getLast?_eq_getLast_of_ne_nil hne] at hlast
    rw [Option.some.inj hlast]
    decide
  have huptime : (get (goodFields phase run) (str "uptime_ms")).bind python.int = some 0 :=
    python.int_zero
  have hrecord : recordOf python (goodLine phase run) =
      parseFields python (goodFields phase run) := by
    rw [recordOf, hmarker, Option.map_some, hstrip, Option.bind_some, parseLine,
      if_neg (by exact Bool.false_ne_true), tokens_good hplain hrunPlain, Option.bind_some]
  rw [hrecord, parseFields]
  split
  case h_1 phase' run' uptime hphase' hrun' huptime' =>
    obtain rfl : phase = phase' := Option.some.inj hphase'
    obtain rfl : run = run' := Option.some.inj hrun'
    obtain rfl : 0 = uptime := Option.some.inj (huptime.symm.trans huptime')
    rw [dif_pos ⟨⟨rfl, hphase⟩, hrun, Int.le_refl 0⟩]
    exact ⟨_, rfl, rfl, rfl, rfl, rfl⟩
  case h_2 hnone => exact absurd huptime (hnone phase run 0 rfl rfl)

theorem isSpace_of_isBreak {c : Nat} (hbreak : isBreak c = true) : isSpace c = true := by
  simp only [isBreak, isSpace, Bool.or_eq_true, Bool.and_eq_true, decide_eq_true_eq, beq_iff_eq,
    List.contains_eq_mem, List.mem_cons] at hbreak ⊢
  omega

theorem unbroken_of_plain {text : Text} (hplain : ∀ c ∈ text, isSpace c = false) : Unbroken text := by
  intro c hc
  by_contra hbreak
  have hspace := isSpace_of_isBreak (Bool.not_eq_false _ ▸ hbreak)
  rw [hplain c hc] at hspace
  cases hspace

theorem unbroken_good (hphase : ∀ c ∈ phase, isSpace c = false) (hrun : ∀ c ∈ run, isSpace c = false) :
    Unbroken (goodLine phase run) := by
  have hfirst : ∀ c ∈ marker ++ str "schema=a90-ondevice-evidence-v1 phase=", isBreak c = false := by
    decide
  have hsecond : ∀ c ∈ str " uptime_ms=0 run=", isBreak c = false := by decide
  have hthird : ∀ c ∈ goodEnd, isBreak c = false := by decide
  intro c hc
  simp only [goodLine, goodBody, List.mem_append] at hc
  rcases hc with hc | hc | hc | hc | hc | hc
  · exact hfirst c (List.mem_append_left _ hc)
  · exact hfirst c (List.mem_append_right _ hc)
  · exact unbroken_of_plain hphase c hc
  · exact hsecond c hc
  · exact unbroken_of_plain hrun c hc
  · exact hthird c hc

theorem plain_of_runRe (hrun : runRe run = true) : ∀ c ∈ run, isSpace c = false := by
  have hbounded : ∀ c < 123, 45 ≤ c → isSpace c = false := by decide
  intro c hc
  simp only [runRe, Bool.and_eq_true, List.all_eq_true] at hrun
  have hchar := hrun.2 c hc
  simp only [runChar, lower, digit, Bool.or_eq_true, Bool.and_eq_true, decide_eq_true_eq,
    beq_iff_eq] at hchar
  exact hbounded c (by omega) (by omega)

structure Good (run : Text) (r : Record) : Prop where
  mandatory : r.phase ∈ mandatoryPhases
  fields : r.fields = goodFields r.phase run
  run : r.run = run
  uptime : r.uptimeMs = 0

theorem parse_goodText (hrun : runRe run = true) :
    ∃ records, parse python (goodText run) = records ∧ (∀ r ∈ records, Good run r) ∧
      missingPhases records = [] := by
  have hplain := plain_of_runRe hrun
  have hphases : ∀ phase ∈ mandatoryPhases, phaseRe phase = true ∧ ∀ c ∈ phase, isSpace c = false := by
    decide
  have hline {phase : Text} (hphase : phase ∈ mandatoryPhases) : ∃ r,
      parse python (goodLine phase run ++ [10]) = [r] ∧ Good run r ∧ r.phase = phase := by
    obtain ⟨hre, hspace⟩ := hphases phase hphase
    obtain ⟨r, hrecord, hfields, rfl, hrun', huptime⟩ :=
      @recordOf_good python phase run hre hspace hrun hplain
    refine ⟨r, ?_, ⟨hphase, hfields, hrun', huptime⟩, rfl⟩
    rw [parse, lines_line (unbroken_good hspace hplain)]
    simp [hrecord]
  obtain ⟨first, hfirst, hgood1, hphase1⟩ := hline (show debianPid1 ∈ mandatoryPhases by decide)
  obtain ⟨second, hsecond, hgood2, hphase2⟩ := hline (show debianDrmMaster ∈ mandatoryPhases by decide)
  obtain ⟨third, hthird, hgood3, hphase3⟩ := hline (show debianSshd ∈ mandatoryPhases by decide)
  refine ⟨[first, second, third], ?_, ?_, ?_⟩
  · have hwritten : goodText run = written (mandatoryPhases.map fun phase =>
        (goodLine phase run, .lf)) ++ [] := by
      simp [goodText, written, List.flatMap_map, Ending.text]
    rw [hwritten, parse_written]
    have hnothing : parse python [] = [] := rfl
    simp [mandatoryPhases, hfirst, hsecond, hthird, hnothing]
  · intro r hr
    simp only [List.mem_cons, List.not_mem_nil, or_false] at hr
    rcases hr with rfl | rfl | rfl
    · exact hgood1
    · exact hgood2
    · exact hgood3
  · simp [missingPhases, mandatoryPhases, hphase1, hphase2, hphase3]

theorem Good.badState {r : Record} (hgood : Good run r) : badState r = none := by
  have hdisplay : get r.fields (str "display_failure") = none := by rw [hgood.fields]; rfl
  have hwifi : get r.fields (str "wifi_failure") = none := by rw [hgood.fields]; rfl
  have hcomm : get r.fields (str "pid1_comm") = some (str "init") := by rw [hgood.fields]; rfl
  have hdropbear : get r.fields (str "dropbear") = some (str "1") := by rw [hgood.fields]; rfl
  have hcard : get r.fields (str "drm_card0") = some (str "char") := by rw [hgood.fields]; rfl
  have hmaster : get r.fields (str "drm_master") = some (str "1") := by rw [hgood.fields]; rfl
  rw [Ondevice.badState, hdisplay, hwifi, hcomm, hdropbear, hcard, hmaster, if_neg nofun, if_neg nofun,
    if_neg fun h => h.2.2.2 rfl, if_neg fun h => absurd h.2 (by decide),
    if_neg fun h => absurd h.2 (by decide), if_neg fun h => absurd h.2 (by decide)]

theorem Good.missingFacts {r : Record} (hgood : Good run r) : missingFacts r = none := by
  rw [missingFacts_eq_none, hgood.fields]
  have hmandatory := hgood.mandatory
  simp only [mandatoryPhases, List.mem_cons, List.not_mem_nil, or_false] at hmandatory
  intro fact hfact
  rcases hmandatory with hphase | hphase | hphase
  · rw [hphase] at hfact
    change fact ∈ [(str "pid1_comm", str "init"), (str "proc1_exe", str "/usr/sbin/init")] at hfact
    simp only [List.mem_cons, List.not_mem_nil, or_false] at hfact
    rcases hfact with rfl | rfl <;> rfl
  · rw [hphase] at hfact
    change fact ∈ [(str "drm_card0", str "char"), (str "drm_master", str "1"),
      (str "display_ready", str "1")] at hfact
    simp only [List.mem_cons, List.not_mem_nil, or_false] at hfact
    rcases hfact with rfl | rfl | rfl <;> rfl
  · rw [hphase] at hfact
    change fact ∈ [(str "dropbear", str "1")] at hfact
    rw [List.mem_singleton.mp hfact]
    rfl

theorem grade_good {records : List Record} (hgood : ∀ r ∈ records, Good run r)
    (hpresent : missingPhases records = []) : grade python records = ⟨true, none⟩ := by
  have hbad : records.findSome? Ondevice.badState = none :=
    List.findSome?_eq_none_iff.mpr fun r hr => (hgood r hr).badState
  have hfacts : records.findSome? Ondevice.missingFacts = none :=
    List.findSome?_eq_none_iff.mpr fun r hr => (hgood r hr).missingFacts
  have hidentity : identityFields.findSome? (inconsistent python records) = none := by
    refine List.findSome?_eq_none_iff.mpr fun field hfield => if_neg (Nat.not_lt.mpr ?_)
    refine Finset.card_le_one.mpr fun first hfirst second hsecond => ?_
    obtain ⟨r, hr, hvalue, -⟩ := mem_identityValues.mp hfirst
    obtain ⟨s, hs, hvalue', -⟩ := mem_identityValues.mp hsecond
    rw [(hgood r hr).fields] at hvalue
    rw [(hgood s hs).fields] at hvalue'
    simp only [identityFields, List.mem_cons, List.not_mem_nil, or_false] at hfield
    rcases hfield with rfl | rfl | rfl
    · exact Option.some.inj (hvalue.symm.trans hvalue')
    · exact Option.some.inj (hvalue.symm.trans hvalue')
    · exact Option.some.inj (hvalue.symm.trans hvalue')
  have hstamp (phase : Text) : stamp records phase = 0 := by
    unfold stamp
    cases hlast : (records.filter fun record => record.phase == phase).getLast? with
    | none => rfl
    | some r => exact (hgood r (List.mem_filter.mp (List.mem_of_getLast? hlast)).1).uptime
  rw [grade, if_neg (not_not_intro hpresent), hbad]
  dsimp only
  rw [hfacts]
  dsimp only
  rw [hidentity]
  dsimp only
  rw [hstamp, hstamp, hstamp, if_neg (by simp)]

end Good

section Verdict

variable {python : Python} {run : Text}

theorem select_append {before : Text} (hbefore : Terminated before) (after : Text) :
    select python (before ++ after) run = select python before run ++ select python after run := by
  rw [select, parse_append python hbefore, List.filter_append]
  rfl

theorem evaluate_congr {first second : Text}
    (hsame : select python first run = select python second run) :
    evaluate python first run = evaluate python second run := by
  rw [evaluate, evaluate, hsame]

theorem terminated_goodText : Terminated (goodText run) := by
  intro c hc
  have hlast : (goodText run).getLast? = some 10 := by
    simp only [goodText, mandatoryPhases, List.flatMap_cons, List.flatMap_nil, List.append_nil,
      ← List.append_assoc, List.getLast?_append, List.getLast?_singleton, Option.some_or]
  rw [hlast] at hc
  rw [← Option.some.inj hc]
  rfl

theorem grade_singleton_ne {f : Record} (hphase : f.phase ∈ mandatoryPhases) :
    grade python [f] ≠ grade python [] := by
  have hreason {missing : List Text} (hmissing : missingPhases [f] = missing) (hne : missing ≠ []) :
      (grade python [f]).reason =
        some (str "missing phases: " ++ (str ", ").intercalate missing) := by
    rw [grade, hmissing, if_pos hne]
  have hall : (grade python []).reason =
      some (str "missing phases: " ++ (str ", ").intercalate mandatoryPhases) := rfl
  intro hsame
  simp only [mandatoryPhases, List.mem_cons, List.not_mem_nil, or_false] at hphase
  have hmissing : missingPhases [f] =
      mandatoryPhases.filter fun phase => !(f.phase == phase || false) := rfl
  rw [hsame, hall] at hreason
  rcases hphase with hphase | hphase | hphase
  · rw [hphase] at hmissing
    exact absurd (hreason (hmissing.trans rfl) (by decide)) (by decide)
  · rw [hphase] at hmissing
    exact absurd (hreason (hmissing.trans rfl) (by decide)) (by decide)
  · rw [hphase] at hmissing
    exact absurd (hreason (hmissing.trans rfl) (by decide)) (by decide)

/-- A record of the run, on a line of its own at the end of any log, changes nothing exactly if it is
harmless. -/
theorem fragment_unchanged_iff {fragment : Text} (hfragment : Unbroken fragment) :
    (∀ text, Terminated text → evaluate python (text ++ fragment) run = evaluate python text run) ↔
      (intentRe run = true → ∀ f, recordOf python fragment = some f → f.run = run → Harmless f) := by
  have hlast (text : Text) (htext : Terminated text) : select python (text ++ fragment) run =
      select python text run ++ (recordOf python fragment).toList.filter fun r => r.run == run := by
    rw [select_append htext, select, select, parse_unbroken python hfragment]
  constructor
  · intro hsame hintent f hrecord hrun
    have hgrades (text : Text) (htext : Terminated text) :
        grade python (select python text run ++ [f]) = grade python (select python text run) := by
      have hevaluate := hsame text htext
      rw [evaluate, evaluate, if_pos hintent, if_pos hintent, hlast text htext, hrecord] at hevaluate
      simpa [hrun] using Except.ok.inj hevaluate
    have hmandatory : f.phase ∉ mandatoryPhases := fun hphase =>
      grade_singleton_ne hphase (hgrades [] nofun)
    obtain ⟨records, hparse, hgood, hpresent⟩ := @parse_goodText python run (hrun ▸ f.run_plain)
    have hselect : select python (goodText run) run = records := by
      rw [select, hparse, List.filter_eq_self]
      exact fun r hr => beq_iff_eq.mpr (hgood r hr).run
    have hproof := hgrades (goodText run) terminated_goodText
    rw [hselect, grade_good hgood hpresent] at hproof
    exact harmless_of_proof hmandatory (congrArg Verdict.proof hproof)
  · intro hharmless text htext
    rw [evaluate, evaluate]
    split
    case isFalse => rfl
    case isTrue hintent =>
      have hna : run ≠ str "na" := by
        rintro rfl
        exact absurd hintent (by decide)
      rw [hlast text htext]
      cases hrecord : recordOf python fragment with
      | none => simp
      | some f =>
        by_cases hrun : f.run = run
        · have hselected : ∀ r ∈ select python text run, r.run = run := fun r hr =>
            beq_iff_eq.mp (List.mem_filter.mp hr).2
          rw [← grade_snoc (hharmless hintent f hrecord hrun) hna hrun hselected]
          simp [hrun]
        · simp [hrun]

end Verdict

/-- The verdict does not depend on lines without the marker, on records of other runs or on the line
ends; a cut record of the same run changes no verdict exactly if it is read as no record of that run
or as a harmless one. -/
theorem cut_records_keep_verdict_iff (python : Python) (run : Text) :
    (∀ before block after, Terminated before → Terminated block →
      (∀ line ∈ lines block, afterMarker line = none ∨
        ∃ r, recordOf python line = some r ∧ r.run ≠ run) →
      evaluate python (before ++ (block ++ after)) run = evaluate python (before ++ after) run) ∧
    (∀ first second rest, first.map Prod.fst = second.map Prod.fst →
      evaluate python (written first ++ rest) run = evaluate python (written second ++ rest) run) ∧
    ∀ line r, Unbroken line → recordOf python line = some r → r.run = run →
      ∀ fragment, fragment <+: line → fragment ≠ line → ((∀ text, Terminated text →
            evaluate python (text ++ fragment) run = evaluate python text run) ↔
          (intentRe run = true →
            ∀ f, recordOf python fragment = some f → f.run = run → Harmless f)) := by
  refine ⟨fun before block after hbefore hblock hlines => evaluate_congr ?_,
    fun first second rest hsame => evaluate_congr ?_, fun line r hline _ _ fragment hcut _ => ?_⟩
  · have hnothing : select python block run = [] := by
      refine List.filter_eq_nil_iff.mpr fun record hrecord => ?_
      obtain ⟨line, hline, hsome⟩ := List.mem_filterMap.mp hrecord
      rcases hlines line hline with hmarker | ⟨r, hr, hne⟩
      · simp [recordOf, hmarker] at hsome
      · rw [hr] at hsome
        rw [← Option.some.inj hsome]
        simpa using hne
    rw [select_append hbefore, select_append hblock, hnothing, select_append hbefore, List.nil_append]
  · rw [select, select, parse_written, parse_written, hsame]
  · exact fragment_unchanged_iff fun c hc => hline c (hcut.subset hc)

def samplePython : Python where
  int text :=
    if text.all digit && !text.isEmpty then some (text.foldl (fun n c => 10 * n + (c - 48)) 0)
    else none
  int_zero := by decide
  repr text := text
  listed _ := []
  stamped _ := []

def sampleRun : Text := List.replicate 64 97

def sampleLine : Text := goodLine debianPid1 sampleRun

def sampleCut : Text := sampleLine.take 140

theorem cut_records_keep_verdict_iff_before_run :
    evaluate samplePython (goodText sampleRun ++ sampleLine.take 70) sampleRun =
      evaluate samplePython (goodText sampleRun) sampleRun := by
  obtain ⟨r, hrecord, -, -, hrun, -⟩ := @recordOf_good samplePython debianPid1 sampleRun (by decide)
    (by decide) (by decide) (by decide)
  refine ((cut_records_keep_verdict_iff samplePython sampleRun).2.2 sampleLine r
    (unbroken_good (by decide) (by decide)) hrecord hrun (sampleLine.take 70)
    (List.take_prefix ..) (by decide +kernel)).mpr ?_ _ terminated_goodText
  intro _ f hf
  have hnone : (recordOf samplePython (sampleLine.take 70)).isNone = true := by decide +kernel
  rw [hf] at hnone
  cases hnone

theorem record_cut_after_run_changes_verdict : sampleCut <+: sampleLine ∧ sampleCut ≠ sampleLine ∧
      evaluate samplePython (goodText sampleRun) sampleRun = .ok ⟨true, none⟩ ∧
      evaluate samplePython (goodText sampleRun ++ sampleCut) sampleRun =
        .ok ⟨false, some (str "debian_pid1 carries no pid1_comm")⟩ := by
  exact ⟨List.take_prefix .., by decide +kernel, by decide +kernel, by decide +kernel⟩

end NativeInitLab.Ondevice
