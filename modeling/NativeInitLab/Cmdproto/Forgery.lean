import NativeInitLab.Cmdproto.Readback

namespace NativeInitLab.Cmdproto

open Controller Lockstep Numerals

/-! What the transcript of one command can make the host believe.  The handler chooses the
bytes between the markers; the END of the device stands at the start of a line and closes
whatever frame they left open, and the prompt comes after it. -/

namespace Host

/-! Layouts do not depend on where the text starts. -/

def DecodedLine.row (line : DecodedLine) : Text × LineEnding := (line.text, line.ending)

section Moved

variable {options : Options} {byteLength start : Nat} {raw : List UInt8}
  {line moved : DecodedLine} {lines others : List DecodedLine} {pieces : List Piece}

theorem Tiles.move (h : Tiles start raw lines) (other : Nat) :
    ∃ others, Tiles other raw others ∧ others.map DecodedLine.row = lines.map DecodedLine.row := by
  induction h generalizing other with
  | nil => exact ⟨[], .nil other, rfl⟩
  | last start hplain hne => exact ⟨_, .last other hplain hne, rfl⟩
  | cons start ending hplain hending hrest ih =>
    obtain ⟨others, htiles, hrows⟩ := ih _
    refine ⟨_, .cons other ending hplain hending htiles, ?_⟩
    rw [List.map_cons, List.map_cons, hrows]
    rfl

theorem text_of_row (h : moved.row = line.row) : moved.text = line.text := congrArg Prod.fst h

theorem ending_of_row (h : moved.row = line.row) : moved.ending = line.ending :=
  congrArg Prod.snd h

theorem Opens.move {fields : Pairs} (h : Opens line fields) (hrow : moved.row = line.row) :
    Opens moved fields := by
  have htext := text_of_row hrow
  refine ⟨?_, ?_, ?_, h.checked⟩
  · rw [htext]
    exact h.marker
  · rw [ending_of_row hrow]
    exact h.ending
  · rw [htext]
    exact h.parsed

theorem Closes.move {fields : Pairs} (h : Closes line fields) (hrow : moved.row = line.row) :
    Closes moved fields := by
  have htext := text_of_row hrow
  refine ⟨?_, ?_, ?_, h.checked⟩
  · rw [htext]
    exact h.marker
  · rw [ending_of_row hrow]
    exact h.ending
  · rw [htext]
    exact h.parsed

theorem ordinary_move (h : ∀ line ∈ lines, Ordinary line)
    (hrows : others.map DecodedLine.row = lines.map DecodedLine.row) :
    ∀ line ∈ others, Ordinary line := by
  intro line hmember
  have hrow : line.row ∈ lines.map DecodedLine.row := by
    rw [← hrows]
    exact List.mem_map_of_mem hmember
  obtain ⟨origin, horigin, heq⟩ := List.mem_map.mp hrow
  have hordinary := h origin horigin
  rw [Ordinary, text_of_row heq] at hordinary
  exact hordinary

theorem Reads.move (honeWay : options.oneWayCommands = [])
    (h : Reads options byteLength lines pieces)
    (hrows : others.map DecodedLine.row = lines.map DecodedLine.row) (other : Nat) :
    ∃ found, Reads options other others found ∧ (found.filterMap Piece.frame?).map Frame.endFields =
        (pieces.filterMap Piece.frame?).map Frame.endFields := by
  induction h generalizing others with
  | nil =>
    rw [List.map_nil, List.map_eq_nil_iff] at hrows
    subst hrows
    exact ⟨[], .nil, rfl⟩
  | @outside line lines pieces hline hrest ih =>
    obtain ⟨moved, others, rfl, hrow, hrows⟩ := List.map_eq_cons_iff.mp hrows
    obtain ⟨found, hfound, hframes⟩ := ih hrows
    have hmoved : Ordinary moved := by
      rw [Ordinary, text_of_row hrow]
      exact hline
    exact ⟨_, .outside hmoved hfound, hframes⟩
  | @frame opening closing beginFields endFields body lines pieces hopens hbody hcloses hagree
      hexpects hrest ih =>
      obtain ⟨movedOpening, others, rfl, hopening, hrows⟩ := List.map_eq_cons_iff.mp hrows
      rw [List.map_append] at hrows
      obtain ⟨movedBody, others, rfl, hbodyrows, hrows⟩ := List.map_eq_append_iff.mp hrows
      obtain ⟨movedClosing, others, rfl, hclosing, hrows⟩ := List.map_eq_cons_iff.mp hrows
      obtain ⟨found, hfound, hframes⟩ := ih hrows
      refine ⟨_, .frame (hopens.move hopening) (ordinary_move hbody hbodyrows)
        (hcloses.move hclosing) hagree hexpects hfound, ?_⟩
      simp only [List.filterMap_cons, Piece.frame?, List.map_cons, hframes]
  | transition hopens hbody hcommand hexpects hstops hrest ih =>
    rw [honeWay] at hcommand
    cases hcommand

theorem Reads.rc (h : Reads options byteLength lines pieces) :
    ∀ frame ∈ pieces.filterMap Piece.frame?, ∃ rc, int (field frame.endFields "rc") = .ok rc := by
  induction h with
  | nil => simp
  | outside hline hrest ih =>
    rw [List.filterMap_cons_none rfl]
    exact ih
  | frame hopens hbody hcloses hagree hexpects hrest ih =>
    obtain ⟨-, -, -, -, rc, hrc, -⟩ := validateEnd_eq_ok.mp hcloses.checked
    simp only [List.filterMap_cons, Piece.frame?, List.forall_mem_cons]
    exact ⟨⟨rc, hrc⟩, ih⟩
  | transition hopens hbody honeWay hexpects hstops hrest ih =>
    rw [List.filterMap_cons_none rfl]
    exact ih

end Moved

end Host

namespace Device

open Host

structure Shell.Runs (shell : Shell) (argv : List Text) (command : ShellCommand) : Prop where
  found : findCommand shell.table (argv.headD []) = some command
  kept : minimalRemovedDoomCommand shell.build argv = false
  free : commandBusyReasonEx shell.build command.flags argv shell.menuActive
    shell.powerPageActive = none

def transcriptText (shell : Shell) (seq : Nat) (argv : List Text) (cwd : Text) : Text :=
  (executeShellCommand shell seq argv).emitted ++ printPrompt cwd

/-- The prompt in this directory holds a frame of its own. -/
def Forges (cwd : Text) : Prop :=
  Clean (printPrompt cwd) ∧ ∃ start byteLength lines pieces,
    Tiles start (printPrompt cwd) lines ∧ Reads {} byteLength lines pieces ∧
      pieces.filterMap Piece.frame? ≠ []

def ran (shell : Shell) (seq : Nat) (argv : List Text) (command : ShellCommand) : Report :=
  handled shell seq command argv (shell.handler command argv).output
    (shell.handler command argv).result (shell.handler command argv).durationMs

/-- The output ends with a newline, or a result line is printed after it. -/
def EndsLine (libc : Libc) (command : ShellCommand) (reply : Reply) : Prop :=
  reply.output.getLast? = some lf ∨
    printResult libc command reply.result (shellResultErrno reply.result) reply.durationMs ≠ []

section Run

variable (shell : Shell) (seq : Nat) (argv : List Text) (command : ShellCommand)

theorem executeShellCommand_of_runs {shell : Shell} {seq : Nat} {argv : List Text}
    {command : ShellCommand} (h : shell.Runs argv command) :
    executeShellCommand shell seq argv = ran shell seq argv command := by
  simp only [executeShellCommand, h.found, h.kept, h.free, Bool.false_eq_true, if_false, ran]

theorem result_lt (reply : Reply) : reply.result.natAbs < 10 ^ 10 := by
  have hge := reply.result_ge
  have hlt := reply.result_lt
  omega

theorem status_handled (result : Int) : cmdprotoStatus result false false ∈ canonicalStatuses := by
  by_cases hzero : result = 0
  · simp [cmdprotoStatus, hzero, canonicalStatuses]
  · simp [cmdprotoStatus, hzero, canonicalStatuses]

theorem length_status (result : Int) : (cmdprotoStatus result false false).length ≤ 5 := by
  by_cases hzero : result = 0
  · simp [cmdprotoStatus, hzero, ascii]
  · simp [cmdprotoStatus, hzero, ascii]

theorem closing_fits (hseq : seq < 2 ^ 64) :
    (ran shell seq argv command).closing.length ≤ 1023 := by
  have hsize := command.name_size
  have hseqlength : (decimal seq).length ≤ 20 := length_decimal_le (by decide) (by omega)
  have hresult := length_signed_le (by decide) (result_lt (shell.handler command argv))
  have herrno := length_signed_le (by decide)
    (shellResultErrno_lt (shell.handler command argv).result)
  have hduration := length_signed_le (by decide) (durationMs_lt (shell.handler command argv))
  have hflags : (hex command.flags).length ≤ 8 :=
    length_numeral_le (by decide) (by decide) (Nat.lt_of_lt_of_eq command.flags_lt (by decide))
  have hstatus := length_status (shell.handler command argv).result
  have hfixed : (ascii "A90P1 END seq=").length + (ascii " cmd=").length +
      (ascii " rc=").length + (ascii " errno=").length + (ascii " duration_ms=").length +
      (ascii " flags=0x").length + (ascii " status=").length + crlf.length = 62 := rfl
  simp only [ran, handled, Report.closing, cmdprotoEnd, List.length_append]
  omega

theorem body_ends (h : EndsLine shell.libc command (shell.handler command argv)) :
    ∃ front, (ran shell seq argv command).body = front ++ [lf] := by
  rcases printResult_cases (result_lt (shell.handler command argv))
    (durationMs_lt (shell.handler command argv))
    (shellResultErrno_lt (shell.handler command argv).result) with ⟨-, hnone⟩ | ⟨text, hmessage, htext⟩
  · have hlast := h.resolve_right (not_not_intro hnone)
    obtain ⟨front, hfront⟩ := List.getLast?_eq_some_iff.mp hlast
    exact ⟨front, by simp [ran, handled, hnone, hfront]⟩
  · refine ⟨(shell.handler command argv).output ++ text ++ [cr], ?_⟩
    simp only [ran, handled, htext, hmessage.printed]
    simp [crlf]

theorem endsLine_of_failure {libc : Libc} {reply : Reply} (hfailed : reply.result ≠ 0) :
    EndsLine libc command reply := by
  right
  rcases printResult_cases (result_lt reply) (durationMs_lt reply)
    (shellResultErrno_lt reply.result) with ⟨hzero, -⟩ | ⟨text, hmessage, htext⟩
  · exact absurd hzero hfailed
  · rw [htext, hmessage.printed]
    simp [crlf]

end Run

theorem closes_of_read {report : Report} {start : Nat} {s t : Scan}
    (hname : commandName report.command = true) (hstatus : report.status ∈ canonicalStatuses)
    (h : readLine {} s (lineAt start (endMarker ++ renderPairs report.endFields) .crlf) = .ok t) :
    ∃ frame, frame.endFields = report.endFields ∧ t.frames = s.frames ++ [frame] ∧
      t.opened = none := by
  have hmarker : endMarker <+: (lineAt start (endMarker ++ renderPairs report.endFields)
      .crlf).text := List.prefix_append _ _
  cases readLine_step h with
  | opened hclosed hopens => exact absurd hopens.marker (not_beginMarker_of_endMarker hmarker)
  | reopened hopen hopens =>
    exact absurd hopens.marker (not_beginMarker_of_endMarker hmarker)
  | closed hopen hcloses =>
    have hfields := hcloses.parsed
    rw [Report.parse_endFields hname hstatus] at hfields
    exact ⟨_, (Except.ok.inj hfields).symm, rfl, rfl⟩
  | outside hclosed hline => exact absurd hmarker hline.2
  | body hopen hline => exact absurd hmarker hline.2

theorem frames_after_end {sha256 : Text → Text} {report : Report} {front tail : Text}
    {transcript : Transcript} (hname : commandName report.command = true)
    (hstatus : report.status ∈ canonicalStatuses)
    (h : parseA90p1Transcript sha256 {} (front ++ lf :: ((endMarker ++
      renderPairs report.endFields ++ [cr]) ++ lf :: tail)) = .ok transcript) :
    Clean tail ∧ ∃ before frame start byteLength lines pieces,
      frame.endFields = report.endFields ∧ Tiles start tail lines ∧
      Reads {} byteLength lines pieces ∧
      transcript.frames = before ++ frame :: pieces.filterMap Piece.frame? := by
  rw [parseA90p1Transcript, parseA90p1Chunks, require_bind_eq_ok, bind_eq_ok] at h
  obtain ⟨-, decoded, hdecoded, h⟩ := h
  rw [List.flatten_singleton] at hdecoded
  obtain ⟨hlength, htiles, hvalid⟩ := decodeLines_tiles hdecoded
  have hnul := (require_bind_eq_ok.mp hdecoded).1
  obtain ⟨first, later, hlines, -, hlater⟩ := htiles.split rfl
  obtain ⟨middle, rest, rfl, hmiddle, hrest⟩ := hlater.split rfl
  have hclean : Clean tail := by
    constructor
    · intro hmember
      exact hnul (by simp [hmember])
    · have hfirst := Utf8.accepts_ascii_append lf_ascii Utf8.start front
        (endMarker ++ renderPairs report.endFields ++ [cr] ++ lf :: tail)
      have hsecond := Utf8.accepts_ascii_append lf_ascii Utf8.start
        (endMarker ++ renderPairs report.endFields ++ [cr]) tail
      rw [Utf8.valid, hfirst, Utf8.valid, hsecond] at hvalid
      simp only [Bool.and_eq_true] at hvalid
      exact hvalid.2.2
  have hclosing : middle = [lineAt (0 + front.length + 1)
      (endMarker ++ renderPairs report.endFields) .crlf] := by
    have hcrlf : endMarker ++ renderPairs report.endFields ++ [cr] ++ [lf] =
        (endMarker ++ renderPairs report.endFields) ++ (LineEnding.crlf.bytes ++ []) := by
      simp [LineEnding.bytes]
    rw [hcrlf] at hmiddle
    exact hmiddle.unique (.cons _ .crlf (Report.inline_closing hname hstatus).plain (by decide)
      (.nil _))
  subst hclosing
  rw [hlines, List.foldlM_append, List.singleton_append, ← bind_assoc] at h
  obtain ⟨last, hlast, h⟩ := bind_eq_ok.mp h
  rw [bind_assoc] at hlast
  obtain ⟨s, -, hlast⟩ := bind_eq_ok.mp hlast
  rw [List.foldlM_cons, bind_assoc] at hlast
  obtain ⟨t, ht, hlast⟩ := bind_eq_ok.mp hlast
  obtain ⟨frame, hfields, hframes, hopened⟩ := closes_of_read hname hstatus ht
  have hbegun : t.Begun := fun opening fields hopen => by
    rw [hopened] at hopen
    cases hopen
  obtain ⟨pieces, hreads, hadds⟩ := reads_of_fold hbegun hlast
  rw [pending_of_none hopened, List.nil_append] at hreads
  cases h
  refine ⟨hclean, s.frames, frame, _, _, rest, pieces, hfields, hrest, hreads, ?_⟩
  rw [hadds.frames, hframes, List.append_assoc, List.singleton_append]

theorem parseProtocolOutput_eq_ok {sha256 : Text → Text} {text : Text} {result : ProtocolResult} :
    parseProtocolOutput sha256 text = .ok result ↔ endMarker <:+: text ∧ ∃ transcript frame,
        parseA90p1Transcript sha256 {} text = .ok transcript ∧
        transcript.frames.getLast? = some frame ∧
        result = ⟨frame.beginFields, frame.endFields, text⟩ := by
  rw [parseProtocolOutput, require_bind_eq_ok]
  cases hparse : parseA90p1Transcript sha256 {} text with
  | error failure => simp
  | ok transcript =>
    cases hlast : transcript.frames.getLast? with
    | none => simp [hlast]
    | some frame => simp [hlast, eq_comm]

structure Faithful (shell : Shell) (argv : List Text) (command : ShellCommand)
    (result : ProtocolResult) : Prop where
  ok : result.status = ascii "ok" → (shell.handler command argv).result = 0
  rc : EndsLine shell.libc command (shell.handler command argv) →
    result.rc = .ok (shell.handler command argv).result

section Faithful

variable {sha256 : Text → Text} {cwd : Text} {shell : Shell} {seq : Nat} {argv : List Text}
  {command : ShellCommand} {result : ProtocolResult}

theorem endFields_of_parse (hforges : ¬ Forges cwd) (hseq : seq < 2 ^ 64)
    (hends : EndsLine shell.libc command (shell.handler command argv))
    (h : parseProtocolOutput sha256
      ((ran shell seq argv command).emitted ++ printPrompt cwd) = .ok result) :
    result.endFields = (ran shell seq argv command).endFields := by
  obtain ⟨-, transcript, frame, hparse, hlast, rfl⟩ := parseProtocolOutput_eq_ok.mp h
  obtain ⟨front, hfront⟩ := body_ends shell seq argv command hends
  have htext : (ran shell seq argv command).emitted ++ printPrompt cwd =
      (consolePrintf (ran shell seq argv command).opening ++ front) ++ lf :: ((endMarker ++
        renderPairs (ran shell seq argv command).endFields ++ [cr]) ++ lf :: printPrompt cwd) := by
    rw [Report.emitted, consolePrintf_of_fits (closing_fits shell seq argv command hseq), hfront,
      Report.closing_eq]
    simp [crlf]
  rw [htext] at hparse
  obtain ⟨hclean, before, found, start, byteLength, lines, pieces, hfields, htiles, hreads,
    hframes⟩ := frames_after_end command.name_valid (status_handled _) hparse
  have hnone : pieces.filterMap Piece.frame? = [] := by
    by_contra hsome
    exact hforges ⟨hclean, start, byteLength, lines, pieces, htiles, hreads, hsome⟩
  rw [hframes, hnone, List.getLast?_concat] at hlast
  cases hlast
  exact hfields

theorem faithful_of_not_forges (hforges : ¬ Forges cwd) (hseq : seq < 2 ^ 64)
    (h : parseProtocolOutput sha256
      ((ran shell seq argv command).emitted ++ printPrompt cwd) = .ok result) :
    Faithful shell argv command result := by
  constructor
  · intro hok
    by_contra hfailed
    have hfields := endFields_of_parse hforges hseq (endsLine_of_failure command hfailed) h
    rw [ProtocolResult.status, hfields, Report.endFields_status] at hok
    simp only [ran, handled, cmdprotoStatus, hfailed, Bool.false_eq_true, if_false] at hok
    revert hok
    decide
  · intro hends
    have hfields := endFields_of_parse hforges hseq hends h
    have hlength := length_signed_le (by decide) (result_lt (shell.handler command argv))
    rw [ProtocolResult.rc, hfields, Report.endFields_rc]
    exact int_signed (Nat.le_trans hlength (by decide))

end Faithful

theorem parse_with_tail {sha256 : Text → Text} {report : Report} {tail : Text}
    {start byteLength : Nat} {lines : List DecodedLine} {pieces : List Piece}
    (hcanonical : report.Canonical) (hlegible : Legible report.body) (hclean : Clean tail)
    (htiles : Tiles start tail lines) (hreads : Reads {} byteLength lines pieces)
    (hsome : pieces.filterMap Piece.frame? ≠ []) :
    ∃ result, parseProtocolOutput sha256 (report.emitted ++ tail) = .ok result ∧
      some result.endFields = ((pieces.filterMap Piece.frame?).map Frame.endFields).getLast? := by
  have hexpects : ({} : Options).expects report.command := fun expected h => by cases h
  obtain ⟨first, frame, hfirst, hterminated, hfold, -⟩ := hcanonical.reads hlegible hexpects
  obtain ⟨others, hothers, hrows⟩ := htiles.move (0 + report.emitted.length)
  obtain ⟨found, hfound, hframes⟩ := hreads.move rfl hrows (report.emitted ++ tail).length
  obtain ⟨t, ht, hclosed, htframes⟩ := fold_of_reads (s := { frames := [frame] }) rfl hfound rfl
  have hbytes := (hcanonical.clean hlegible).append hclean
  have hwhole := hfirst.append hterminated hothers
  have hparse : parseA90p1Transcript sha256 {} (report.emitted ++ tail) =
      .ok ⟨⟨(report.emitted ++ tail).length, sha256 (report.emitted ++ tail), first ++ others⟩,
        t.frames, t.transitions, t.outside, [(report.emitted ++ tail).length]⟩ := by
    rw [parseA90p1Transcript, parseA90p1Chunks, require_of_pos _ (by simp), ok_bind,
      List.flatten_singleton, decodeLines_of_tiles hbytes.nul hbytes.valid hwhole, ok_bind]
    simp only
    rw [List.foldlM_append, hfold, ok_bind, ht, ok_bind, finish_closed hclosed (by simp [htframes])]
    rfl
  have hmarker : endMarker <:+: report.emitted ++ tail := by
    rw [hcanonical.emitted_eq]
    refine ⟨beginMarker ++ renderPairs report.beginFields ++ (LineEnding.crlf.bytes ++ report.body),
      renderPairs report.endFields ++ LineEnding.crlf.bytes ++ tail, ?_⟩
    simp only [List.append_assoc, List.append_nil]
  rw [← hframes, List.getLast?_map]
  cases hlast : (found.filterMap Piece.frame?).getLast? with
  | none =>
    rw [List.getLast?_eq_none_iff.mp hlast, List.map_nil, eq_comm, List.map_eq_nil_iff] at hframes
    exact absurd hframes hsome
  | some last =>
    refine ⟨⟨last.beginFields, last.endFields, _⟩, parseProtocolOutput_eq_ok.mpr
      ⟨hmarker, _, last, hparse, ?_, rfl⟩, rfl⟩
    simp only [htframes, List.getLast?_append, hlast, Option.some_or]

namespace Sample

def failure (result : Int) (hge : -2 ^ 31 ≤ result) (hlt : result < 2 ^ 31) : Reply where
  output := []
  result
  startedMs := 0
  endedMs := 0
  result_ge := hge
  result_lt := hlt
  started_ge := by decide
  ended_lt := by decide

theorem runs (reply : Reply) : (answering reply).Runs argv cat := ⟨rfl, rfl, rfl⟩

theorem canonical_failure {result : Int} (hge : -2 ^ 31 ≤ result) (hlt : result < 2 ^ 31)
    (hne : result ≠ -2 ^ 31) :
    (ran (answering (failure result hge hlt)) 1 argv cat).Canonical ∧
      Legible (ran (answering (failure result hge hlt)) 1 argv cat).body := by
  have horderly : (failure result hge hlt).Orderly := ⟨hne, legible_nil⟩
  have hanswers : Answers (answering (failure result hge hlt)) 1 _ :=
    .executed argv (by decide) fun _ _ _ _ => horderly
  have hregular := hanswers.regular
  rw [executeShellCommand_of_runs (runs _)] at hregular
  have hopening : (ran (answering (failure result hge hlt)) 1 argv cat).opening =
      cmdprotoBegin 1 cat.name 1 cat.flags := rfl
  have hclosing := closing_fits (answering (failure result hge hlt)) 1 argv cat (by decide)
  refine ⟨hregular.canonical (by decide) cat.name_valid ?_ hclosing,
    hregular.legible cat.name_valid hclosing⟩
  rw [hopening]
  decide

end Sample

theorem unfaithful_of_forges {cwd : Text} (sha256 : Text → Text) (h : Forges cwd) :
    ∃ reply result, parseProtocolOutput sha256
        ((ran (Sample.answering reply) 1 Sample.argv Sample.cat).emitted ++ printPrompt cwd) =
          .ok result ∧
      ¬ Faithful (Sample.answering reply) Sample.argv Sample.cat result := by
  obtain ⟨hclean, start, byteLength, lines, pieces, htiles, hreads, hsome⟩ := h
  obtain ⟨last, hlast⟩ : ∃ last, (pieces.filterMap Piece.frame?).getLast? = some last :=
    Option.ne_none_iff_exists'.mp fun hnone => hsome (List.getLast?_eq_none_iff.mp hnone)
  obtain ⟨rc, hrc⟩ := hreads.rc last (List.mem_of_getLast? hlast)
  -- One of two failures differs from what the frame of the prompt says.
  obtain ⟨failed, hge, hlt, hleast, hzero, hne⟩ : ∃ failed : Int, -2 ^ 31 ≤ failed ∧
      failed < 2 ^ 31 ∧ failed ≠ -2 ^ 31 ∧ failed ≠ 0 ∧ failed ≠ rc := by
    by_cases hrc : rc = -22
    · exact ⟨-5, by decide, by decide, by decide, by decide, by omega⟩
    · exact ⟨-22, by decide, by decide, by decide, by decide, by omega⟩
  obtain ⟨hcanonical, hlegible⟩ := Sample.canonical_failure hge hlt hleast
  obtain ⟨result, hparse, hfields⟩ :=
    parse_with_tail hcanonical hlegible hclean htiles hreads hsome
  rw [List.getLast?_map, hlast] at hfields
  refine ⟨Sample.failure failed hge hlt, result, hparse, ?_⟩
  intro hfaithful
  have hread := hfaithful.rc (endsLine_of_failure Sample.cat hzero)
  rw [ProtocolResult.rc, Option.some.inj hfields, hrc] at hread
  exact hne (Except.ok.inj hread).symm

theorem not_forges_of_plain {cwd : Text} (hplain : Plain cwd) : ¬ Forges cwd := by
  rintro ⟨-, start, byteLength, lines, pieces, htiles, hreads, hsome⟩
  have hne : printPrompt cwd ≠ [] := by
    simp [printPrompt, consolePrintf, ascii]
  have hprompt : Plain (printPrompt cwd) := by
    have hwhole : Plain (ascii "a90:" ++ cwd ++ ascii "# ") := by
      have hfixed : Plain (ascii "a90:") ∧ Plain (ascii "# ") :=
        ⟨⟨by decide, by decide⟩, by decide, by decide⟩
      constructor
      · simp [hfixed.1.1, hfixed.2.1, hplain.1]
      · simp [hfixed.1.2, hfixed.2.2, hplain.2]
    exact ⟨fun hmember => hwhole.1 (List.mem_of_mem_take hmember),
      fun hmember => hwhole.2 (List.mem_of_mem_take hmember)⟩
  have hline := htiles.unique (.last start hprompt hne)
  subst hline
  generalize hlines : [lineAt start (printPrompt cwd) .eof] = lines at hreads
  cases hreads with
  | nil => exact hsome rfl
  | outside hordinary hrest =>
    obtain ⟨-, rfl⟩ := List.cons.inj hlines
    cases hrest with
    | nil => exact hsome rfl
  | frame =>
    simp at hlines
  | transition hopens hbody hcommand => cases hcommand

example : ¬ Forges (ascii "/") := not_forges_of_plain ⟨by decide, by decide⟩

/-- Whatever a handler prints, the host's result is that of the device, exactly if the
prompt that follows holds no frame of its own. -/
theorem output_cannot_forge_iff (sha256 : Text → Text) (cwd : Text) :
    (∀ shell seq argv command result, Shell.Runs shell argv command → seq < 2 ^ 64 →
      parseProtocolOutput sha256 (transcriptText shell seq argv cwd) = .ok result →
        Faithful shell argv command result) ↔ ¬ Forges cwd := by
  constructor
  · intro hall hforges
    obtain ⟨reply, result, hparse, hunfaithful⟩ := unfaithful_of_forges sha256 hforges
    have hruns := Sample.runs reply
    refine hunfaithful (hall _ 1 _ _ result hruns (by decide) ?_)
    rw [transcriptText, executeShellCommand_of_runs hruns]
    exact hparse
  · intro hforges shell seq argv command result hruns hseq hparse
    rw [transcriptText, executeShellCommand_of_runs hruns] at hparse
    exact faithful_of_not_forges hforges hseq hparse

def Sample.forgingDirectory : Text :=
  ascii "/x\nA90P1 BEGIN seq=9 cmd=cat argc=1 flags=0x0\nA90P1 END seq=9 cmd=cat rc=0 " ++
    ascii "errno=0 duration_ms=0 flags=0x0 status=ok\n"

theorem prompt_forges_success : Sample.shell.Runs Sample.argv Sample.cat ∧
      (Sample.shell.handler Sample.cat Sample.argv).result = -22 ∧
      (parseProtocolOutput id (transcriptText Sample.shell 3 Sample.argv
        Sample.forgingDirectory)).toOption.map ProtocolResult.status = some (ascii "ok") :=
  ⟨Sample.runs Sample.reply, rfl, by decide +kernel⟩

end Device

end NativeInitLab.Cmdproto
