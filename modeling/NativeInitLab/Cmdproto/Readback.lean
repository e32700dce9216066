import NativeInitLab.Cmdproto.Device
import NativeInitLab.Cmdproto.Rendering

namespace NativeInitLab.Cmdproto.Device

open Controller Host Lockstep Numerals

/-! The device's frames in the host's reader. -/

structure Clean (text : Text) : Prop where
  nul : 0 ∉ text
  valid : Utf8.valid text = true

structure Inline (text : Text) : Prop extends Clean text where
  plain : Plain text

theorem clean_iff {text : Text} : Clean text ↔ 0 ∉ text ∧ Utf8.valid text = true :=
  ⟨fun h => ⟨h.nul, h.valid⟩, fun h => ⟨h.1, h.2⟩⟩

theorem inline_iff {text : Text} : Inline text ↔ Clean text ∧ lf ∉ text ∧ cr ∉ text :=
  ⟨fun h => ⟨h.toClean, h.plain⟩, fun h => ⟨h.1, h.2⟩⟩

instance (text : Text) : Decidable (Clean text) := decidable_of_iff' _ clean_iff

instance (text : Text) : Decidable (Inline text) := decidable_of_iff' _ inline_iff

section Inline

variable {first second : Text}

theorem Clean.append (hfirst : Clean first) (hsecond : Clean second) :
    Clean (first ++ second) := by
  constructor
  · simp [hfirst.nul, hsecond.nul]
  · rw [Utf8.valid_append second hfirst.valid, hsecond.valid]

theorem Inline.append (hfirst : Inline first) (hsecond : Inline second) :
    Inline (first ++ second) := by
  refine ⟨hfirst.toClean.append hsecond.toClean, ?_, ?_⟩
  · simp [hfirst.plain.1, hsecond.plain.1]
  · simp [hfirst.plain.2, hsecond.plain.2]

theorem inline_of_safe (hsafe : Safe first) : Inline first :=
  ⟨⟨hsafe.not_mem (by decide), Utf8.valid_of_ascii hsafe.ascii⟩, hsafe.plain⟩

theorem safe_minus : Safe [minus] := by decide

theorem safe_signed (number : Int) : Safe (signed number) := by
  unfold signed
  split
  case isTrue => exact safe_minus.append (safe_decimal _)
  case isFalse => exact safe_decimal _

theorem safe_flags (flags : Nat) : Safe (ascii "0x" ++ hex flags) :=
  Safe.append (by decide) (safe_hex flags)

theorem inline_signed (number : Int) : Inline (signed number) :=
  inline_of_safe (safe_signed number)

theorem inline_strerror (libc : Libc) (error : Int) : Inline (libc.strerror error) :=
  ⟨⟨libc.no_nul error, libc.valid error⟩, libc.one_line error⟩

end Inline

theorem consolePrintf_of_fits {text : Text} (hfits : text.length ≤ 1023) :
    consolePrintf text = text := List.take_of_length_le hfits

theorem int_signed {number : Int} (hlength : (signed number).length ≤ intMaxStrDigits) :
    int (signed number) = .ok number := by
  unfold signed at hlength ⊢
  split
  case isTrue hneg =>
    rw [if_pos hneg, List.length_cons] at hlength
    rw [int_minus_decimal (by omega)]
    congr 1
    omega
  case isFalse hnonneg =>
    rw [if_neg hnonneg] at hlength
    rw [int_decimal hlength]
    congr 1
    omega

theorem signed_of_nonneg {number : Int} (hnonneg : 0 ≤ number) :
    signed number = decimal number.natAbs := by
  rw [signed, if_neg (by omega)]

theorem unsignedDecimal_decimal (number : Nat) : unsignedDecimal (decimal number) = true :=
  canonical_decimal number

theorem unsignedDecimal_signed {number : Int} (hnonneg : 0 ≤ number) :
    unsignedDecimal (signed number) = true := by
  rw [signed_of_nonneg hnonneg]
  exact canonical_decimal _

theorem flagsText_hex (flags : Nat) : flagsText (ascii "0x" ++ hex flags) = true :=
  canonical_hex flags

theorem signedDecimal_signed (number : Int) : signedDecimal (signed number) = true := by
  unfold signed
  split
  case isTrue hneg =>
    have hne : decimal number.natAbs ≠ ascii "0" := decimal_ne_zero (by omega)
    simp [signedDecimal, unsignedDecimal, canonical_decimal, hne]
  case isFalse hnonneg =>
    have hcanonical := canonical_decimal number.natAbs
    have hhead := head_decimal_ne_minus number.natAbs
    cases htext : decimal number.natAbs with
    | nil => exact absurd htext (safe_decimal _).1
    | cons byte rest =>
      rw [htext] at hcanonical hhead
      have hne : byte ≠ minus := by simpa using hhead
      rw [signedDecimal, if_neg hne]
      exact hcanonical

theorem length_decimal_le {number count : Nat} (hpos : 0 < count) (hlt : number < 10 ^ count) :
    (decimal number).length ≤ count := length_numeral_le (by decide) hpos hlt

theorem length_signed_le {number : Int} {count : Nat} (hpos : 0 < count)
    (hlt : number.natAbs < 10 ^ count) : (signed number).length ≤ count + 1 := by
  have hdecimal := length_decimal_le hpos hlt
  unfold signed
  split
  case isTrue => simpa using hdecimal
  case isFalse => omega

inductive BodyLines : Text → Prop
  | nil : BodyLines []
  | cons {text raw : Text} (ending : LineEnding) (hending : ending ≠ .eof)
      (hplain : Plain text) (hbegin : ¬ beginMarker <+: text) (hend : ¬ endMarker <+: text)
      (hrest : BodyLines raw) : BodyLines (text ++ (ending.bytes ++ raw))

theorem BodyLines.append {first second : Text} (hfirst : BodyLines first)
    (hsecond : BodyLines second) : BodyLines (first ++ second) := by
  induction hfirst with
  | nil => exact hsecond
  | cons ending hending hplain hbegin hend hrest ih =>
    rw [List.append_assoc, List.append_assoc]
    exact .cons ending hending hplain hbegin hend ih

theorem BodyLines.tiles {text : Text} (h : BodyLines text) (start : Nat) :
    ∃ lines, Tiles start text lines ∧
      ∀ line ∈ lines, Ordinary line ∧ line.ending ≠ .eof := by
  induction h generalizing start with
  | nil => exact ⟨[], .nil start, by simp⟩
  | @cons text raw ending hending hplain hbegin hend hrest ih =>
    obtain ⟨lines, htiles, hlines⟩ := ih (start + text.length + ending.length)
    refine ⟨lineAt start text ending :: lines, .cons start ending hplain hending htiles, ?_⟩
    rw [List.forall_mem_cons]
    exact ⟨⟨⟨hbegin, hend⟩, hending⟩, hlines⟩

structure Legible (text : Text) : Prop extends Clean text where
  lines : BodyLines text

theorem Legible.append {first second : Text} (hfirst : Legible first)
    (hsecond : Legible second) : Legible (first ++ second) :=
  ⟨hfirst.toClean.append hsecond.toClean, hfirst.lines.append hsecond.lines⟩

theorem legible_nil : Legible [] := ⟨by decide, .nil⟩

theorem legible_crlf {text : Text} (hinline : Inline text) (hbegin : ¬ beginMarker <+: text)
    (hend : ¬ endMarker <+: text) : Legible (text ++ crlf) :=
  ⟨hinline.toClean.append (by decide), .cons .crlf (by decide) hinline.plain hbegin hend .nil⟩

/-- The values of an END that the reader takes as one outcome. -/
structure Coherent (result resultErrno : Int) (status : Text) : Prop where
  errno_nonneg : 0 ≤ resultErrno
  status_mem : status ∈ canonicalStatuses
  ok_iff : result = 0 ↔ status = ascii "ok"
  rules : coherent result resultErrno status

theorem coherent_error {result resultErrno : Int} (hne : result ≠ 0)
    (hneg : result < 0 → resultErrno = -result) (hnonneg : 0 ≤ result → resultErrno = 0) :
    Coherent result resultErrno (ascii "error") := by
  have hok : ascii "error" ≠ ascii "ok" := by decide
  have hunknown : ascii "error" ≠ ascii "unknown" := by decide
  have hbusy : ascii "error" ≠ ascii "busy" := by decide
  refine ⟨?_, by decide, by simp [hne, hok], ?_⟩
  · omega
  · simp only [coherent, ne_eq, not_true_eq_false, hunknown, hbusy, and_false, false_and,
      or_self, or_false, false_or]
    omega

namespace Report

def beginFields (report : Report) : Pairs :=
  [(ascii "seq", decimal report.seq), (ascii "cmd", report.command),
    (ascii "argc", decimal report.argc), (ascii "flags", ascii "0x" ++ hex report.flags)]

def endFields (report : Report) : Pairs :=
  [(ascii "seq", decimal report.seq), (ascii "cmd", report.command),
    (ascii "rc", signed report.result), (ascii "errno", signed report.resultErrno),
    (ascii "duration_ms", signed report.durationMs),
    (ascii "flags", ascii "0x" ++ hex report.flags), (ascii "status", report.status)]

section Fields

variable (report : Report)

@[simp] theorem beginFields_seq : field report.beginFields "seq" = decimal report.seq := rfl

@[simp] theorem beginFields_cmd : field report.beginFields "cmd" = report.command := rfl

@[simp] theorem beginFields_argc : field report.beginFields "argc" = decimal report.argc := rfl

@[simp] theorem beginFields_flags :
    field report.beginFields "flags" = ascii "0x" ++ hex report.flags := rfl

@[simp] theorem endFields_seq : field report.endFields "seq" = decimal report.seq := rfl

@[simp] theorem endFields_cmd : field report.endFields "cmd" = report.command := rfl

@[simp] theorem endFields_rc : field report.endFields "rc" = signed report.result := rfl

@[simp] theorem endFields_errno :
    field report.endFields "errno" = signed report.resultErrno := rfl

@[simp] theorem endFields_durationMs :
    field report.endFields "duration_ms" = signed report.durationMs := rfl

@[simp] theorem endFields_flags :
    field report.endFields "flags" = ascii "0x" ++ hex report.flags := rfl

@[simp] theorem endFields_status : field report.endFields "status" = report.status := rfl

theorem agreeOn : AgreeOn report.beginFields report.endFields :=
  ⟨by simp, by simp, by simp⟩

end Fields

structure Canonical (report : Report) : Prop where
  seq_pos : 0 < report.seq
  argc_pos : 0 < report.argc
  name : commandName report.command = true
  duration_nonneg : 0 ≤ report.durationMs
  values : Coherent report.result report.resultErrno report.status
  opening_fits : report.opening.length ≤ 1023
  closing_fits : report.closing.length ≤ 1023

variable {report : Report}

theorem opening_eq (report : Report) :
    report.opening = beginMarker ++ renderPairs report.beginFields ++ crlf := by
  have hmarker : ascii "A90P1 BEGIN seq=" = beginMarker ++ ascii "seq" ++ [equals] := by decide
  have hcmd : ascii " cmd=" = space :: ascii "cmd" ++ [equals] := by decide
  have hargc : ascii " argc=" = space :: ascii "argc" ++ [equals] := by decide
  have hflags : ascii " flags=0x" = space :: ascii "flags" ++ equals :: ascii "0x" := by decide
  simp [opening, cmdprotoBegin, renderPairs, beginFields, token, List.intercalate, hmarker,
    hcmd, hargc, hflags]

theorem closing_eq (report : Report) :
    report.closing = endMarker ++ renderPairs report.endFields ++ crlf := by
  have hmarker : ascii "A90P1 END seq=" = endMarker ++ ascii "seq" ++ [equals] := by decide
  have hcmd : ascii " cmd=" = space :: ascii "cmd" ++ [equals] := by decide
  have hrc : ascii " rc=" = space :: ascii "rc" ++ [equals] := by decide
  have herrno : ascii " errno=" = space :: ascii "errno" ++ [equals] := by decide
  have hduration : ascii " duration_ms=" = space :: ascii "duration_ms" ++ [equals] := by
    decide
  have hflags : ascii " flags=0x" = space :: ascii "flags" ++ equals :: ascii "0x" := by decide
  have hstatus : ascii " status=" = space :: ascii "status" ++ [equals] := by decide
  simp [closing, cmdprotoEnd, renderPairs, endFields, token, List.intercalate, hmarker,
    hcmd, hrc, herrno, hduration, hflags, hstatus]

theorem safe_beginFields (hname : commandName report.command = true) :
    ∀ pair ∈ report.beginFields, Safe pair.1 ∧ Safe pair.2 := by
  have hcommand := safe_commandName hname
  simp only [beginFields, List.forall_mem_cons, List.not_mem_nil, false_implies, implies_true,
    and_true]
  refine ⟨⟨?_, safe_decimal _⟩, ⟨?_, hcommand⟩, ⟨?_, safe_decimal _⟩, ?_, safe_flags _⟩
  all_goals decide

theorem safe_endFields (hname : commandName report.command = true)
    (hstatus : report.status ∈ canonicalStatuses) :
    ∀ pair ∈ report.endFields, Safe pair.1 ∧ Safe pair.2 := by
  have hcommand := safe_commandName hname
  have hsafe : Safe report.status := by
    have hall : ∀ status ∈ canonicalStatuses, Safe status := by decide
    exact hall report.status hstatus
  simp only [endFields, List.forall_mem_cons, List.not_mem_nil, false_implies, implies_true,
    and_true]
  refine ⟨⟨?_, safe_decimal _⟩, ⟨?_, hcommand⟩, ⟨?_, safe_signed _⟩, ⟨?_, safe_signed _⟩,
    ⟨?_, safe_signed _⟩, ⟨?_, safe_flags _⟩, ?_, hsafe⟩
  all_goals decide

theorem parse_endFields {start : Nat} (hname : commandName report.command = true)
    (hstatus : report.status ∈ canonicalStatuses) :
    parseFields ((lineAt start (endMarker ++ renderPairs report.endFields) .crlf).text.drop
      endMarker.length) endKeyOrder "A90P1 END" = .ok report.endFields := by
  rw [lineAt, List.drop_left]
  exact parseFields_render (by simp [endFields]) rfl (by decide) (safe_endFields hname hstatus)

namespace Canonical

section

variable (h : report.Canonical)
include h

theorem lengths :
    (decimal report.seq).length ≤ intMaxStrDigits ∧
      (decimal report.argc).length ≤ intMaxStrDigits ∧
      (signed report.result).length ≤ intMaxStrDigits ∧
      (signed report.resultErrno).length ≤ intMaxStrDigits ∧
      (signed report.durationMs).length ≤ intMaxStrDigits := by
  have hopening := h.opening_fits
  have hclosing := h.closing_fits
  simp only [opening, cmdprotoBegin, closing, cmdprotoEnd, List.length_append] at hopening hclosing
  unfold intMaxStrDigits
  omega

theorem validateBegin_ok : validateBegin report.beginFields = .ok () := by
  obtain ⟨hseq, hargc, -, -, -⟩ := h.lengths
  have hseqpos : (0 : Int) < report.seq := Int.natCast_pos.mpr h.seq_pos
  have hargcpos : (0 : Int) < report.argc := Int.natCast_pos.mpr h.argc_pos
  simp only [validateBegin_eq_ok, beginFields_seq, beginFields_cmd, beginFields_argc,
    beginFields_flags]
  exact ⟨unsignedDecimal_decimal _, report.seq, int_decimal hseq,
    ⟨hseqpos, h.name, unsignedDecimal_decimal _⟩, report.argc, int_decimal hargc, hargcpos,
    flagsText_hex _⟩

theorem validateEnd_ok : validateEnd report.endFields = .ok () := by
  obtain ⟨hseq, -, hrc, herrno, -⟩ := h.lengths
  have hseqpos : (0 : Int) < report.seq := Int.natCast_pos.mpr h.seq_pos
  have hstatustext : statusText report.status = true := by
    have hall : ∀ status ∈ canonicalStatuses, statusText status = true := by decide
    exact hall report.status h.values.status_mem
  simp only [validateEnd_eq_ok, endFields_seq, endFields_cmd, endFields_rc, endFields_errno,
    endFields_durationMs, endFields_flags, endFields_status]
  exact ⟨unsignedDecimal_decimal _, report.seq, int_decimal hseq,
    ⟨hseqpos, h.name, signedDecimal_signed _, unsignedDecimal_signed h.values.errno_nonneg,
      unsignedDecimal_signed h.duration_nonneg, flagsText_hex _, hstatustext, h.values.status_mem⟩,
    report.result, int_signed hrc, report.resultErrno, int_signed herrno, h.values.ok_iff,
    h.values.rules⟩

theorem opens (start : Nat) :
    Opens (lineAt start (beginMarker ++ renderPairs report.beginFields) .crlf)
      report.beginFields where
  marker := List.prefix_append _ _
  ending := by simp [lineAt]
  parsed := by
    rw [lineAt, List.drop_left]
    exact parseFields_render (by simp [beginFields]) rfl (by decide) (safe_beginFields h.name)
  checked := h.validateBegin_ok

theorem closes (start : Nat) :
    Closes (lineAt start (endMarker ++ renderPairs report.endFields) .crlf) report.endFields where
  marker := List.prefix_append _ _
  ending := by simp [lineAt]
  parsed := parse_endFields h.name h.values.status_mem
  checked := h.validateEnd_ok

end

end Canonical

end Report

structure Carries (frame : Frame) (report : Report) : Prop where
  agree : AgreeOn frame.beginFields frame.endFields
  seq : int (field frame.beginFields "seq") = .ok report.seq
  cmd : field frame.beginFields "cmd" = report.command
  argc : int (field frame.beginFields "argc") = .ok report.argc
  rc : int (field frame.endFields "rc") = .ok report.result
  errno : int (field frame.endFields "errno") = .ok report.resultErrno
  durationMs : int (field frame.endFields "duration_ms") = .ok report.durationMs
  flags : field frame.beginFields "flags" = ascii "0x" ++ hex report.flags
  status : field frame.endFields "status" = report.status
  body : frame.body.flatMap DecodedLine.raw = report.body

namespace Report

variable {report : Report}

theorem Canonical.carries (h : report.Canonical) {body : List DecodedLine}
    (hbody : body.flatMap DecodedLine.raw = report.body) (byteStart byteEnd : Nat) :
    Carries ⟨report.beginFields, report.endFields, body, byteStart, byteEnd⟩ report := by
  obtain ⟨hseq, hargc, hrc, herrno, hduration⟩ := h.lengths
  refine ⟨report.agreeOn, ?_, ?_, ?_, ?_, ?_, ?_, ?_, ?_, hbody⟩
  · rw [beginFields_seq, int_decimal hseq]
  · rw [beginFields_cmd]
  · rw [beginFields_argc, int_decimal hargc]
  · rw [endFields_rc, int_signed hrc]
  · rw [endFields_errno, int_signed herrno]
  · rw [endFields_durationMs, int_signed hduration]
  · rw [beginFields_flags]
  · rw [endFields_status]

theorem inline_renderPairs {pairs : Pairs} (hsafe : ∀ pair ∈ pairs, Safe pair.1 ∧ Safe pair.2) :
    Inline (renderPairs pairs) := by
  have hspace : Inline [space] := by decide
  have htoken (pair : Text × Text) (hpair : Safe pair.1 ∧ Safe pair.2) : Inline (token pair) := by
    have hequals : Inline [equals] := by decide
    exact (inline_of_safe hpair.1).append (hequals.append (inline_of_safe hpair.2))
  unfold renderPairs
  induction pairs with
  | nil => decide
  | cons pair pairs ih =>
    obtain ⟨hpair, hrest⟩ := List.forall_mem_cons.mp hsafe
    cases pairs with
    | nil => simpa [List.intercalate] using htoken pair hpair
    | cons next pairs =>
      have hjoin : [space].intercalate ((pair :: next :: pairs).map token) =
          token pair ++ ([space] ++ [space].intercalate ((next :: pairs).map token)) := by
        simp [List.intercalate]
      rw [hjoin]
      exact (htoken pair hpair).append (hspace.append (ih hrest))

theorem Canonical.emitted_eq (h : report.Canonical) :
    report.emitted = (beginMarker ++ renderPairs report.beginFields) ++ (LineEnding.crlf.bytes ++
      (report.body ++ ((endMarker ++ renderPairs report.endFields) ++
        (LineEnding.crlf.bytes ++ [])))) := by
  have hcrlf : LineEnding.crlf.bytes = crlf := rfl
  rw [emitted, consolePrintf_of_fits h.opening_fits, consolePrintf_of_fits h.closing_fits,
    opening_eq, closing_eq, hcrlf]
  simp only [List.append_assoc, List.append_nil]

theorem Canonical.inline_begin (h : report.Canonical) :
    Inline (beginMarker ++ renderPairs report.beginFields) :=
  Inline.append (by decide) (inline_renderPairs (safe_beginFields h.name))

theorem inline_closing (hname : commandName report.command = true)
    (hstatus : report.status ∈ canonicalStatuses) :
    Inline (endMarker ++ renderPairs report.endFields) :=
  Inline.append (by decide) (inline_renderPairs (safe_endFields hname hstatus))

theorem Canonical.inline_end (h : report.Canonical) :
    Inline (endMarker ++ renderPairs report.endFields) :=
  inline_closing h.name h.values.status_mem

section Emitted

variable (h : report.Canonical) (hlegible : Legible report.body)
include h hlegible

theorem Canonical.clean : Clean report.emitted := by
  have hcrlf : Clean LineEnding.crlf.bytes := by decide
  have hnil : Clean [] := by decide
  rw [h.emitted_eq]
  exact h.inline_begin.toClean.append (hcrlf.append (hlegible.toClean.append
    (h.inline_end.toClean.append (hcrlf.append hnil))))

theorem Canonical.tiles :
    ∃ opening closing body, Tiles 0 report.emitted (opening :: (body ++ [closing])) ∧
      (∀ line ∈ opening :: (body ++ [closing]), line.ending ≠ .eof) ∧
      Opens opening report.beginFields ∧ Closes closing report.endFields ∧
      (∀ line ∈ body, Ordinary line) ∧ body.flatMap DecodedLine.raw = report.body := by
  obtain ⟨body, htiles, hlines⟩ := hlegible.lines.tiles
    (0 + (beginMarker ++ renderPairs report.beginFields).length + LineEnding.crlf.length)
  have hlast := htiles.append (fun line hmember => (hlines line hmember).2)
    (.cons _ .crlf h.inline_end.plain (by decide) (.nil _))
  have hopens := h.opens 0
  have hcloses := h.closes (0 + (beginMarker ++ renderPairs report.beginFields).length +
    LineEnding.crlf.length + report.body.length)
  rw [h.emitted_eq]
  refine ⟨_, _, body, .cons 0 .crlf h.inline_begin.plain (by decide) hlast, ?_, hopens,
    hcloses, fun line hmember => (hlines line hmember).1, htiles.flatMap_raw⟩
  intro line hmember
  rcases List.mem_cons.mp hmember with rfl | hmember
  · exact hopens.ending
  · rcases List.mem_append.mp hmember with hbody | hclosing
    · exact (hlines line hbody).2
    · rw [List.mem_singleton.mp hclosing]
      exact hcloses.ending

theorem Canonical.reads {options : Options} (hexpects : options.expects report.command) :
    ∃ lines frame, Tiles 0 report.emitted lines ∧ (∀ line ∈ lines, line.ending ≠ .eof) ∧
      lines.foldlM (readLine options) {} = .ok { frames := [frame] } ∧
      Carries frame report := by
  obtain ⟨opening, closing, body, htiles, hterminated, hopens, hcloses, hordinary, hbody⟩ :=
    h.tiles hlegible
  have hopened : readLine options {} opening =
      .ok { opened := some (opening, report.beginFields) } := readLine_opens rfl hopens
  have hfold : body.foldlM (readLine options) { opened := some (opening, report.beginFields) } =
      .ok { opened := some (opening, report.beginFields), body } := foldlM_body rfl hordinary
  have hclosed : readLine options { opened := some (opening, report.beginFields), body } closing =
      .ok { frames := [⟨report.beginFields, report.endFields, body, opening.byteStart,
        closing.byteEnd⟩] } := readLine_closes rfl hcloses report.agreeOn hexpects
  refine ⟨_, _, htiles, hterminated, ?_,
    h.carries hbody opening.byteStart closing.byteEnd⟩
  rw [List.foldlM_cons, hopened, ok_bind, List.foldlM_append, hfold, ok_bind,
    List.foldlM_cons, hclosed, ok_bind, List.foldlM_nil]
  rfl

theorem Canonical.parse {sha256 : Text → Text} {options : Options} {chunks : List (List UInt8)}
    (hnames : ∀ command ∈ options.oneWayCommands, commandName command = true)
    (hexpects : options.expects report.command) (hchunks : chunks.flatten = report.emitted) :
    ∃ transcript frame, parseA90p1Chunks sha256 options chunks = .ok transcript ∧
      transcript.frames = [frame] ∧ transcript.transitions = [] ∧ transcript.outside = [] ∧
      Carries frame report := by
  have hclean := h.clean hlegible
  obtain ⟨lines, frame, htiles, -, hfold, hcarries⟩ := h.reads hlegible hexpects
  rw [parseA90p1Chunks, require_of_pos _ hnames, ok_bind, hchunks,
    decodeLines_of_tiles hclean.nul hclean.valid htiles, ok_bind]
  simp only
  rw [hfold, ok_bind, finish_closed rfl (by simp), ok_bind]
  exact ⟨_, frame, rfl, rfl, rfl, rfl, hcarries⟩

end Emitted

end Report

/-- Every message of the device starts with a bracket, which no marker does, and fits the
console's buffer. -/
structure Message (text : Text) : Prop extends Inline text where
  head : text.head? = some 0x5B
  fits : text.length + 2 ≤ 1023

section Messages

variable {text : Text} (h : Message text)
include h

theorem Message.printed : consolePrintf (text ++ crlf) = text ++ crlf :=
  consolePrintf_of_fits (by simpa [crlf] using h.fits)

theorem Message.legible : Legible (consolePrintf (text ++ crlf)) := by
  have hmarker (marker : Text) (hfirst : marker.head? = some 0x41) : ¬ marker <+: text := by
    rintro ⟨rest, rfl⟩
    have hhead := h.head
    cases marker with
    | nil => cases hfirst
    | cons byte marker =>
      rw [List.cons_append, List.head?_cons] at hhead
      rw [List.head?_cons, hhead] at hfirst
      revert hfirst
      decide
  rw [h.printed]
  exact legible_crlf h.toInline (hmarker _ rfl) (hmarker _ rfl)

end Messages

theorem legible_unknown {seq : Nat} {argv : List Text}
    (hname : commandName (unknown seq argv).command = true)
    (hfits : (unknown seq argv).closing.length ≤ 1023) : Legible (unknown seq argv).body := by
  have hinline := inline_of_safe (safe_commandName hname)
  refine Message.legible ⟨Inline.append (by decide) hinline, rfl, ?_⟩
  have hlong : (ascii "[err] unknown command: ").length + 2 ≤
      (ascii "A90P1 END seq=").length + (ascii " cmd=").length + (ascii " rc=").length +
        (ascii " errno=").length := by decide
  simp only [unknown, Report.closing, cmdprotoEnd, List.length_append] at hfits ⊢
  omega

theorem legible_refused (seq : Nat) (command : ShellCommand) (argv : List Text)
    (reason : BusyReason) : Legible (refused seq command argv reason).body := by
  cases reason with
  | autoMenu | dangerous | power => exact Message.legible ⟨by decide, rfl, by decide⟩

section Results

variable {libc : Libc} {command : ShellCommand} {result resultErrno durationMs : Int}

theorem message_done (hduration : durationMs.natAbs < 10 ^ 19) :
    Message (ascii "[done] " ++ command.name ++ ascii " (" ++ signed durationMs ++
      ascii "ms)") := by
  have hname := inline_of_safe (safe_commandName command.name_valid)
  have hdurationtext := inline_signed durationMs
  have hsize := command.name_size
  have hdurationlength := length_signed_le (by decide) hduration
  refine ⟨?_, rfl, ?_⟩
  · repeat' apply Inline.append
    all_goals first | assumption | decide
  · have hfixed : (ascii "[done] ").length + (ascii " (").length + (ascii "ms)").length = 12 :=
      rfl
    simp only [List.length_append]
    omega

section

variable (hresult : result.natAbs < 10 ^ 10) (hduration : durationMs.natAbs < 10 ^ 19)
include hresult hduration

theorem message_error (herrno : resultErrno.natAbs < 10 ^ 10) :
    Message (ascii "[err] " ++ command.name ++ ascii " rc=" ++ signed result ++
      ascii " errno=" ++ signed resultErrno ++ ascii " (" ++ libc.strerror resultErrno ++
      ascii ") (" ++ signed durationMs ++ ascii "ms)") := by
  have hname := inline_of_safe (safe_commandName command.name_valid)
  have hresulttext := inline_signed result
  have herrnotext := inline_signed resultErrno
  have hdurationtext := inline_signed durationMs
  have hstrerror := inline_strerror libc resultErrno
  have hsize := command.name_size
  have hshort := libc.short resultErrno
  have hresultlength := length_signed_le (by decide) hresult
  have herrnolength := length_signed_le (by decide) herrno
  have hdurationlength := length_signed_le (by decide) hduration
  refine ⟨?_, rfl, ?_⟩
  · repeat' apply Inline.append
    all_goals first | assumption | decide
  · have hfixed : (ascii "[err] ").length + (ascii " rc=").length + (ascii " errno=").length +
        (ascii " (").length + (ascii ") (").length + (ascii "ms)").length = 25 := rfl
    simp only [List.length_append]
    omega

theorem message_positive :
    Message (ascii "[err] " ++ command.name ++ ascii " rc=" ++ signed result ++ ascii " (" ++
      signed durationMs ++ ascii "ms)") := by
  have hname := inline_of_safe (safe_commandName command.name_valid)
  have hresulttext := inline_signed result
  have hdurationtext := inline_signed durationMs
  have hsize := command.name_size
  have hresultlength := length_signed_le (by decide) hresult
  have hdurationlength := length_signed_le (by decide) hduration
  refine ⟨?_, rfl, ?_⟩
  · repeat' apply Inline.append
    all_goals first | assumption | decide
  · have hfixed : (ascii "[err] ").length + (ascii " rc=").length + (ascii " (").length +
        (ascii "ms)").length = 15 := rfl
    simp only [List.length_append]
    omega

theorem printResult_cases (herrno : resultErrno.natAbs < 10 ^ 10) :
    (result = 0 ∧ printResult libc command result resultErrno durationMs = []) ∨
      ∃ text, Message text ∧
        printResult libc command result resultErrno durationMs = consolePrintf (text ++ crlf) := by
  unfold printResult
  split
  case isTrue hsilent => exact .inl ⟨hsilent.2, rfl⟩
  case isFalse =>
    right
    split
    case isTrue => exact ⟨_, message_done hduration, rfl⟩
    case isFalse =>
      split
      case isTrue => exact ⟨_, message_error hresult hduration herrno, rfl⟩
      case isFalse => exact ⟨_, message_positive hresult hduration, rfl⟩

theorem legible_printResult (herrno : resultErrno.natAbs < 10 ^ 10) :
    Legible (printResult libc command result resultErrno durationMs) := by
  rcases printResult_cases hresult hduration herrno with ⟨-, hnone⟩ | ⟨text, hmessage, htext⟩
  · rw [hnone]
    exact legible_nil
  · rw [htext]
    exact hmessage.legible

end

theorem legible_decodeFailure {seq : Nat} (hresult : result.natAbs < 10 ^ 10)
    (herrno : resultErrno.natAbs < 10 ^ 10) :
    Legible (decodeFailure libc seq result resultErrno).body := by
  have hresulttext := inline_signed result
  have herrnotext := inline_signed resultErrno
  have hstrerror := inline_strerror libc resultErrno
  have hshort := libc.short resultErrno
  have hresultlength := length_signed_le (by decide) hresult
  have herrnolength := length_signed_le (by decide) herrno
  refine Message.legible ⟨?_, rfl, ?_⟩
  · repeat' apply Inline.append
    all_goals first | assumption | decide
  · have hfixed : (ascii "[err] cmdv1x decode rc=").length + (ascii " errno=").length +
        (ascii " (").length + (ascii ")").length = 33 := rfl
    simp only [List.length_append]
    omega

end Results

theorem legible_videoDemoDoomRemoved : Legible videoDemoDoomRemoved := by
  have hfirst : Legible (ascii "video.demo.doom=removed" ++ crlf) :=
    legible_crlf (by decide) (by decide) (by decide)
  have hsecond : Legible videoDemoMinimalUsage :=
    legible_crlf (by decide +kernel) (by decide) (by decide)
  have hfits : videoDemoMinimalUsage.length ≤ 1023 := by decide +kernel
  rw [videoDemoDoomRemoved, consolePrintf_of_fits (by decide), consolePrintf_of_fits hfits]
  exact hfirst.append hsecond

theorem shellResultErrno_eq {result : Int} (hge : -2 ^ 31 ≤ result) (hne : result ≠ -2 ^ 31)
    (hneg : result < 0) : shellResultErrno result = -result := by
  rw [shellResultErrno, if_pos hneg]
  exact Int.bmod_eq_of_le (by omega) (by omega)

theorem shellResultErrno_lt (result : Int) :
    (shellResultErrno result).natAbs < 10 ^ 10 := by
  unfold shellResultErrno
  split
  case isTrue =>
    have hlow := Int.le_bmod (x := -result) (m := 2 ^ 32) (by decide)
    have hhigh := Int.bmod_lt (x := -result) (m := 2 ^ 32) (by decide)
    omega
  case isFalse => decide

theorem shellResultErrno_nonneg {result : Int} (hnonneg : 0 ≤ result) :
    shellResultErrno result = 0 := by
  rw [shellResultErrno, if_neg (by omega)]

structure Reply.Orderly (reply : Reply) : Prop where
  result_ne : reply.result ≠ -2 ^ 31
  legible : Legible reply.output

def Shell.Orderly (shell : Shell) (argv : List Text) : Prop :=
  ∀ command, findCommand shell.table (argv.headD []) = some command →
    minimalRemovedDoomCommand shell.build argv = false →
    commandBusyReasonEx shell.build command.flags argv shell.menuActive
      shell.powerPageActive = none →
    (shell.handler command argv).Orderly

inductive Answers (shell : Shell) (seq : Nat) : Report → Prop
  | executed (argv : List Text) (hargv : argv ≠ []) (horderly : shell.Orderly argv) :
      Answers shell seq (executeShellCommand shell seq argv)
  | undecoded (result : Int) (hge : -2 ^ 31 ≤ result) (hlt : result < 2 ^ 31) :
      Answers shell seq (cmdv1xError shell.libc seq result)

structure Report.Regular (report : Report) (seq : Nat) : Prop where
  seq_eq : report.seq = seq
  argc_pos : 0 < report.argc
  duration_nonneg : 0 ≤ report.durationMs
  values : Coherent report.result report.resultErrno report.status
  legible : commandName report.command = true → report.closing.length ≤ 1023 →
    Legible report.body

section Outcomes

variable {shell : Shell} {seq : Nat} {argv : List Text} {report : Report}

theorem coherent_unknown : Coherent (-enoent) enoent (ascii "unknown") :=
  ⟨by decide, by decide, by decide, by decide⟩

theorem coherent_busy : Coherent (-ebusy) ebusy (ascii "busy") :=
  ⟨by decide, by decide, by decide, by decide⟩

theorem coherent_handled {result : Int} (hge : -2 ^ 31 ≤ result) (hne : result ≠ -2 ^ 31) :
    Coherent result (shellResultErrno result) (cmdprotoStatus result false false) := by
  by_cases hzero : result = 0
  · subst hzero
    exact ⟨by decide, by decide, by decide, by decide⟩
  · have hstatus : cmdprotoStatus result false false = ascii "error" := by
      simp [cmdprotoStatus, hzero]
    rw [hstatus]
    exact coherent_error hzero (shellResultErrno_eq hge hne) shellResultErrno_nonneg

theorem durationMs_nonneg (reply : Reply) : 0 ≤ reply.durationMs := by
  unfold Reply.durationMs
  split
  case isTrue => decide
  case isFalse hnonneg => omega

theorem durationMs_lt (reply : Reply) : reply.durationMs.natAbs < 10 ^ 19 := by
  have hstarted := reply.started_ge
  have hended := reply.ended_lt
  unfold Reply.durationMs
  split
  case isTrue => decide
  case isFalse => omega

theorem regular_handled {command : ShellCommand} {output : Text} {result durationMs : Int}
    (hargv : argv ≠ []) (hge : -2 ^ 31 ≤ result) (hlt : result < 2 ^ 31)
    (hne : result ≠ -2 ^ 31) (hnonneg : 0 ≤ durationMs)
    (hshort : durationMs.natAbs < 10 ^ 19) (houtput : Legible output) :
    (handled shell seq command argv output result durationMs).Regular seq where
  seq_eq := rfl
  argc_pos := List.length_pos_iff.mpr hargv
  duration_nonneg := hnonneg
  values := coherent_handled hge hne
  legible := by
    intro _ _
    exact houtput.append
      (legible_printResult (by omega) hshort (shellResultErrno_lt result))

theorem regular_unknown (hargv : argv ≠ []) : (unknown seq argv).Regular seq where
  seq_eq := rfl
  argc_pos := List.length_pos_iff.mpr hargv
  duration_nonneg := Int.le_refl 0
  values := coherent_unknown
  legible := legible_unknown

theorem regular_refused (hargv : argv ≠ []) (command : ShellCommand) (reason : BusyReason) :
    (refused seq command argv reason).Regular seq where
  seq_eq := rfl
  argc_pos := List.length_pos_iff.mpr hargv
  duration_nonneg := Int.le_refl 0
  values := coherent_busy
  legible := fun _ _ => legible_refused seq command argv reason

theorem regular_decodeFailure {libc : Libc} {result resultErrno : Int}
    (hvalues : Coherent result resultErrno (ascii "error")) (hresult : result.natAbs < 10 ^ 10)
    (herrno : resultErrno.natAbs < 10 ^ 10) :
    (decodeFailure libc seq result resultErrno).Regular seq where
  seq_eq := rfl
  argc_pos := Nat.one_pos
  duration_nonneg := Int.le_refl 0
  values := hvalues
  legible := fun _ _ => legible_decodeFailure hresult herrno

theorem regular_cmdv1xError {libc : Libc} {result : Int} (hge : -2 ^ 31 ≤ result)
    (hlt : result < 2 ^ 31) : (cmdv1xError libc seq result).Regular seq := by
  unfold cmdv1xError
  by_cases hleast : result = -2 ^ 31
  · subst hleast
    exact regular_decodeFailure (coherent_error (by decide) (by decide) (by decide)) (by decide)
      (by decide)
  · have hwrap : Int.bmod (-result) (2 ^ 32) = -result :=
      Int.bmod_eq_of_le (by omega) (by omega)
    rw [hwrap]
    simp only
    split
    case isTrue =>
      exact regular_decodeFailure (coherent_error (by decide) (by decide) (by decide))
        (by decide) (by decide)
    case isFalse hneg =>
      exact regular_decodeFailure (coherent_error (by omega) (by omega) (by omega)) (by omega)
        (by omega)

theorem Answers.regular (h : Answers shell seq report) : report.Regular seq := by
  cases h with
  | executed argv hargv horderly =>
    unfold executeShellCommand
    cases hfind : findCommand shell.table (argv.headD []) with
    | none => exact regular_unknown hargv
    | some command =>
      simp only
      split
      case isTrue hdoom =>
        exact regular_handled hargv (by decide) (by decide) (by decide) (by decide)
          (by decide) legible_videoDemoDoomRemoved
      case isFalse hdoom =>
        split
        case h_1 reason hbusy => exact regular_refused hargv command reason
        case h_2 hbusy =>
          have hreply := horderly command hfind (by simpa using hdoom) hbusy
          exact regular_handled hargv (Reply.result_ge _) (Reply.result_lt _)
            hreply.result_ne (durationMs_nonneg _) (durationMs_lt _) hreply.legible
  | undecoded result hge hlt => exact regular_cmdv1xError hge hlt

end Outcomes

theorem Report.Regular.canonical {report : Report} {seq : Nat} (h : report.Regular seq)
    (hseq : 1 ≤ seq) (hname : commandName report.command = true)
    (hopening : report.opening.length ≤ 1023) (hclosing : report.closing.length ≤ 1023) :
    report.Canonical where
  seq_pos := by
    rw [h.seq_eq]
    exact hseq
  argc_pos := h.argc_pos
  name := hname
  duration_nonneg := h.duration_nonneg
  values := h.values
  opening_fits := hopening
  closing_fits := hclosing

/-- Whatever a command of the device comes to, the reader returns its report as the one
frame of the bytes. -/
theorem device_frame_is_read_back (sha256 : Text → Text) (options : Options) (shell : Shell)
    (seq : Nat) (report : Report) (chunks : List (List UInt8))
    (hanswers : Answers shell seq report) (hseq : 1 ≤ seq)
    (hname : commandName report.command = true) (hopening : report.opening.length ≤ 1023)
    (hclosing : report.closing.length ≤ 1023)
    (honeWay : ∀ command ∈ options.oneWayCommands, commandName command = true)
    (hexpects : options.expects report.command) (hchunks : chunks.flatten = report.emitted) :
    ∃ transcript frame, parseA90p1Chunks sha256 options chunks = .ok transcript ∧
      transcript.frames = [frame] ∧ transcript.transitions = [] ∧ transcript.outside = [] ∧
      Carries frame report := by
  have hregular := hanswers.regular
  exact (hregular.canonical hseq hname hopening hclosing).parse
    (hregular.legible hname hclosing) honeWay hexpects hchunks

namespace Sample

def libc : Libc where
  strerror _ := ascii "Invalid argument"
  one_line _ := by decide
  no_nul _ := by decide
  valid _ := by decide
  short _ := by decide

def cat : ShellCommand := ⟨ascii "cat", cmdNone, by decide, by decide, by decide⟩

def reply : Reply where
  output := ascii "usage: cat <file>" ++ crlf
  result := -22
  startedMs := 100
  endedMs := 107
  result_ge := by decide
  result_lt := by decide
  started_ge := by decide
  ended_lt := by decide

def answering (reply : Reply) : Shell where
  libc
  build := {}
  table := [cat]
  menuActive := false
  powerPageActive := false
  handler _ _ := reply

def shell : Shell := answering reply

def argv : List Text := [ascii "cat"]

theorem reply_orderly : reply.Orderly :=
  ⟨by decide, legible_crlf (by decide) (by decide) (by decide)⟩

end Sample

theorem device_frame_is_read_back_cat :
    ∃ transcript frame, parseA90p1Chunks id {}
        [(executeShellCommand Sample.shell 3 Sample.argv).emitted] = .ok transcript ∧
      transcript.frames = [frame] ∧ transcript.transitions = [] ∧ transcript.outside = [] ∧
      Carries frame (executeShellCommand Sample.shell 3 Sample.argv) :=
  device_frame_is_read_back id {} Sample.shell 3 _ _
    (.executed Sample.argv (by decide) fun _ _ _ _ => Sample.reply_orderly) (by decide)
    (by decide +kernel) (by decide +kernel) (by decide +kernel) (by decide) (by decide)
    (by simp)

end NativeInitLab.Cmdproto.Device
