import NativeInitLab.Cmdproto.Host

namespace NativeInitLab.Cmdproto.Host

open Lockstep

/-! The two levels of a transcript: bytes tiled by lines, and lines laid out as frames,
transitions and lines outside them. -/

def LineEnding.bytes : LineEnding → List UInt8
  | .lf => [Cmdproto.lf]
  | .crlf => [cr, Cmdproto.lf]
  | .eof => []

theorem LineEnding.length_bytes (ending : LineEnding) : ending.bytes.length = ending.length := by
  cases ending with
  | lf => rfl
  | crlf => rfl
  | eof => rfl

theorem lf_ascii : lf < 0x80 := by decide
theorem cr_ascii : cr < 0x80 := by decide

def DecodedLine.raw (line : DecodedLine) : List UInt8 := line.text ++ line.ending.bytes

def Plain (text : Text) : Prop := lf ∉ text ∧ cr ∉ text

/-- The lines follow each other without a gap, and only the last may be unterminated. -/
inductive Tiles : Nat → List UInt8 → List DecodedLine → Prop
  | nil (start : Nat) : Tiles start [] []
  | last (start : Nat) {text : Text} (hplain : Plain text) (hne : text ≠ []) :
      Tiles start text [lineAt start text .eof]
  | cons (start : Nat) (ending : LineEnding) {text : Text} {raw : List UInt8}
      {lines : List DecodedLine} (hplain : Plain text) (hending : ending ≠ .eof)
      (hrest : Tiles (start + text.length + ending.length) raw lines) :
      Tiles start (text ++ (ending.bytes ++ raw)) (lineAt start text ending :: lines)

section Lines

variable {label : String} {start : Nat} {text : Text} {raw : List UInt8} {lines : List DecodedLine}

theorem map_eq_ok {E A B : Type} {f : A → B} {result : Except E A} {b : B} :
    f <$> result = .ok b ↔ ∃ a, result = .ok a ∧ f a = b := by
  cases result with
  | error failure => simp [Functor.map, Except.map]
  | ok a => simp [Functor.map, Except.map]

theorem Plain.snoc {byte : UInt8} (hplain : Plain text) (hlf : byte ≠ lf) (hcr : byte ≠ cr) :
    Plain (text ++ [byte]) := by
  constructor
  · simpa [hplain.1] using hlf.symm
  · simpa [hplain.2] using hcr.symm

theorem scanLines_tiles (h : scanLines label true start text raw = .ok lines)
    (hplain : Plain text) : Tiles start (text ++ raw) lines := by
  have hempty : Plain [] := ⟨by simp, by simp⟩
  fun_induction scanLines label true start text raw generalizing lines with
  | case1 start =>
    cases h
    exact .nil start
  | case2 start text hne =>
    cases h
    rw [List.append_nil]
    exact .last start hplain hne
  | case3 start text hne hallow => exact absurd rfl hallow
  | case4 start text raw ih =>
    obtain ⟨rest, hrest, rfl⟩ := map_eq_ok.mp h
    exact .cons start .lf hplain (by decide) (ih hrest hempty)
  | case5 => cases h
  | case6 start text raw hne ih =>
    obtain ⟨rest, hrest, rfl⟩ := map_eq_ok.mp h
    exact .cons start .crlf hplain (by decide) (ih hrest hempty)
  | case7 => cases h
  | case8 start text byte raw hlf hcr ih =>
    have hrest := ih h (hplain.snoc hlf hcr)
    rwa [List.append_assoc] at hrest

theorem Tiles.flatMap_raw (h : Tiles start raw lines) : lines.flatMap DecodedLine.raw = raw := by
  induction h with
  | nil => rfl
  | last start hplain hne => simp [DecodedLine.raw, lineAt, LineEnding.bytes]
  | cons start ending hplain hending hrest ih =>
    rw [List.flatMap_cons, ih, DecodedLine.raw, lineAt, List.append_assoc]

theorem Tiles.append {tail : List UInt8} {rest : List DecodedLine} (h : Tiles start raw lines)
    (hterminated : ∀ line ∈ lines, line.ending ≠ .eof)
    (hrest : Tiles (start + raw.length) tail rest) : Tiles start (raw ++ tail) (lines ++ rest) := by
  induction h with
  | nil => exact hrest
  | last start hplain hne => exact absurd rfl (hterminated _ List.mem_cons_self)
  | cons start ending hplain hending htiles ih =>
    obtain ⟨-, hlines⟩ := List.forall_mem_cons.mp hterminated
    rw [List.append_assoc, List.append_assoc]
    refine .cons start ending hplain hending (ih hlines ?_)
    simpa only [List.length_append, LineEnding.length_bytes, Nat.add_assoc] using hrest

theorem append_eq_lf {rest front tail : List UInt8} (hlf : lf ∉ text)
    (h : text ++ rest = front ++ lf :: tail) :
    ∃ middle, front = text ++ middle ∧ rest = middle ++ lf :: tail := by
  rcases List.append_eq_append_iff.mp h with ⟨middle, hfront, hrest⟩ | ⟨middle, htext, hrest⟩
  · exact ⟨middle, hfront, hrest⟩
  · cases middle with
    | nil => exact ⟨[], by simpa using htext.symm, by simpa using hrest.symm⟩
    | cons byte middle =>
      rw [List.cons_append] at hrest
      rw [htext, (List.cons.inj hrest).1] at hlf
      simp at hlf

theorem Tiles.split {front tail : List UInt8} (h : Tiles start raw lines)
    (hraw : raw = front ++ lf :: tail) :
    ∃ first rest, lines = first ++ rest ∧ Tiles start (front ++ [lf]) first ∧
      Tiles (start + front.length + 1) tail rest := by
  induction h generalizing front with
  | nil => simp at hraw
  | last start hplain hne =>
    rw [hraw] at hplain
    exact absurd (by simp) hplain.1
  | @cons start ending text raw lines hplain hending hrest ih =>
    obtain ⟨middle, rfl, hmiddle⟩ := append_eq_lf hplain.1 hraw
    -- Either the feed ends this line, or it stands in what follows the line.
    have hsplit : (middle ++ [lf] = ending.bytes ∧ raw = tail) ∨
        ∃ later, middle = ending.bytes ++ later ∧ raw = later ++ lf :: tail := by
      cases ending with
      | lf =>
        cases middle with
        | nil => exact .inl ⟨rfl, (List.cons.inj hmiddle).2⟩
        | cons byte later =>
          obtain ⟨rfl, hlater⟩ := List.cons.inj hmiddle
          exact .inr ⟨later, rfl, hlater⟩
      | crlf =>
        match middle, hmiddle with
        | [], hmiddle => exact absurd (List.cons.inj hmiddle).1 (by decide)
        | [byte], hmiddle =>
          obtain ⟨rfl, hlater⟩ := List.cons.inj hmiddle
          exact .inl ⟨rfl, (List.cons.inj hlater).2⟩
        | byte :: next :: later, hmiddle =>
          obtain ⟨rfl, hnext⟩ := List.cons.inj hmiddle
          obtain ⟨rfl, hlater⟩ := List.cons.inj hnext
          exact .inr ⟨later, rfl, hlater⟩
      | eof => exact absurd rfl hending
    rcases hsplit with ⟨hbytes, rfl⟩ | ⟨later, rfl, hlater⟩
    · refine ⟨[lineAt start text ending], lines, rfl, ?_, ?_⟩
      · rw [List.append_assoc, hbytes, ← List.append_nil ending.bytes]
        exact .cons start ending hplain hending (.nil _)
      · have hlength := congrArg List.length hbytes
        rw [List.length_append, List.length_singleton, LineEnding.length_bytes] at hlength
        rw [List.length_append]
        have hstart : start + (text.length + middle.length) + 1 =
            start + text.length + ending.length := by omega
        rwa [hstart]
    · obtain ⟨first, rest, rfl, hfirst, hrest⟩ := ih hlater
      refine ⟨lineAt start text ending :: first, rest, rfl, ?_, ?_⟩
      · rw [List.append_assoc, List.append_assoc]
        exact .cons start ending hplain hending hfirst
      · rw [List.length_append, List.length_append, LineEnding.length_bytes]
        have hstart : start + (text.length + (ending.length + later.length)) + 1 =
            start + text.length + ending.length + later.length + 1 := by omega
        rwa [hstart]

theorem Tiles.valid_text (h : Tiles start raw lines) (hraw : Utf8.valid raw = true) :
    ∀ line ∈ lines, Utf8.valid line.text = true := by
  induction h with
  | nil => simp
  | last start hplain hne => simpa [lineAt] using hraw
  | @cons start ending text raw lines hplain hending hrest ih =>
    have hsplit : Utf8.valid text = true ∧ Utf8.valid raw = true := by
      cases ending with
      | lf =>
        have happend := Utf8.accepts_ascii_append lf_ascii Utf8.start text raw
        rw [Utf8.valid, LineEnding.bytes, List.singleton_append, happend] at hraw
        simpa [Utf8.valid] using hraw
      | crlf =>
        have happend := Utf8.accepts_ascii_append cr_ascii Utf8.start text
          (lf :: raw)
        have hlast := Utf8.accepts_ascii_append lf_ascii Utf8.start [] raw
        rw [Utf8.valid, LineEnding.bytes, List.cons_append, List.singleton_append, happend] at hraw
        rw [List.nil_append] at hlast
        simp only [Bool.and_eq_true, Utf8.valid, hlast] at hraw
        exact ⟨hraw.1, hraw.2.2⟩
      | eof => exact absurd rfl hending
    rw [List.forall_mem_cons]
    exact ⟨hsplit.1, ih hsplit.2⟩

def Chained (stop : Nat) : Nat → List DecodedLine → Prop
  | start, [] => start = stop
  | start, line :: lines =>
    line.byteStart = start ∧ start < line.byteEnd ∧ Chained stop line.byteEnd lines

theorem Tiles.chained (h : Tiles start raw lines) : Chained (start + raw.length) start lines := by
  induction h with
  | nil start => rfl
  | @last start text hplain hne =>
    have hpos : 0 < text.length := List.length_pos_iff.mpr hne
    refine ⟨rfl, ?_, ?_⟩
    · simp only [lineAt, LineEnding.length]
      omega
    · simp [lineAt, LineEnding.length, Chained]
  | @cons start ending text raw lines hplain hending hrest ih =>
    have hpos : 0 < ending.length := by
      cases ending with
      | lf => decide
      | crlf => decide
      | eof => exact absurd rfl hending
    refine ⟨rfl, ?_, ?_⟩
    · simp only [lineAt]
      omega
    · simpa only [lineAt, List.length_append, LineEnding.length_bytes, Nat.add_assoc] using ih

theorem chained_append {stop : Nat} {first second : List DecodedLine} :
    Chained stop start (first ++ second) ↔
      ∃ middle, Chained middle start first ∧ Chained stop middle second := by
  induction first generalizing start with
  | nil => simp [Chained]
  | cons line first ih =>
    simp only [List.cons_append, Chained, ih]
    constructor
    · rintro ⟨hstart, hend, middle, hfirst, hsecond⟩
      exact ⟨middle, ⟨hstart, hend, hfirst⟩, hsecond⟩
    · rintro ⟨middle, ⟨hstart, hend, hfirst⟩, hsecond⟩
      exact ⟨hstart, hend, middle, hfirst, hsecond⟩

theorem Chained.le {stop : Nat} (h : Chained stop start lines) : start ≤ stop := by
  induction lines generalizing start with
  | nil => exact Nat.le_of_eq h
  | cons line lines ih =>
    obtain ⟨-, hlt, hrest⟩ := h
    exact Nat.le_trans (Nat.le_of_lt hlt) (ih hrest)

end Lines

inductive Piece where
  | outside (line : DecodedLine)
  | frame (opening closing : DecodedLine) (found : Frame)
  | transition (opening : DecodedLine) (found : Transition)

namespace Piece

def lines : Piece → List DecodedLine
  | .outside line => [line]
  | .frame opening closing found => opening :: (found.body ++ [closing])
  | .transition opening found => opening :: found.body

def frame? : Piece → Option Frame
  | .frame _ _ found => some found
  | _ => none

def transition? : Piece → Option Transition
  | .transition _ found => some found
  | _ => none

def outside? : Piece → Option DecodedLine
  | .outside line => some line
  | _ => none

/-- The bytes from the first to the last of a frame or a transition. -/
def range? : Piece → Option (Nat × Nat)
  | .outside _ => none
  | .frame _ _ found => some (found.byteStart, found.byteEnd)
  | .transition _ found => some (found.byteStart, found.byteEnd)

end Piece

def Ordinary (line : DecodedLine) : Prop :=
  ¬ beginMarker <+: line.text ∧ ¬ endMarker <+: line.text

structure Opens (line : DecodedLine) (fields : Pairs) : Prop where
  marker : beginMarker <+: line.text
  ending : line.ending ≠ .eof
  parsed : parseFields (line.text.drop beginMarker.length) beginKeyOrder "A90P1 BEGIN" = .ok fields
  checked : validateBegin fields = .ok ()

structure Closes (line : DecodedLine) (fields : Pairs) : Prop where
  marker : endMarker <+: line.text
  ending : line.ending ≠ .eof
  parsed : parseFields (line.text.drop endMarker.length) endKeyOrder "A90P1 END" = .ok fields
  checked : validateEnd fields = .ok ()

structure AgreeOn (beginFields endFields : Pairs) : Prop where
  seq : field beginFields "seq" = field endFields "seq"
  cmd : field beginFields "cmd" = field endFields "cmd"
  flags : field beginFields "flags" = field endFields "flags"

/-- The first line of a frame or a transition is the BEGIN with its fields, the last line of a frame
the END, and no other line has a marker. -/
def Piece.Marked : Piece → Prop
  | .outside line => Ordinary line
  | .frame opening closing found => Opens opening found.beginFields ∧
      (∀ line ∈ found.body, Ordinary line) ∧ Closes closing found.endFields ∧
      AgreeOn found.beginFields found.endFields
  | .transition opening found =>
    Opens opening found.beginFields ∧ ∀ line ∈ found.body, Ordinary line

/-- Where a transition stops: at the next BEGIN or at the end of the input. -/
def Stops (byteLength : Nat) (lines : List DecodedLine) (byteEnd : Nat) : Prop :=
  (lines = [] ∧ byteEnd = byteLength) ∨
    ∃ next rest, lines = next :: rest ∧ beginMarker <+: next.text ∧ byteEnd = next.byteStart

inductive Reads (options : Options) (byteLength : Nat) : List DecodedLine → List Piece → Prop
  | nil : Reads options byteLength [] []
  | outside {line : DecodedLine} {lines : List DecodedLine} {pieces : List Piece}
      (hline : Ordinary line) (hrest : Reads options byteLength lines pieces) :
      Reads options byteLength (line :: lines) (.outside line :: pieces)
  | frame {opening closing : DecodedLine} {beginFields endFields : Pairs}
      {body lines : List DecodedLine} {pieces : List Piece}
      (hopens : Opens opening beginFields) (hbody : ∀ line ∈ body, Ordinary line)
      (hcloses : Closes closing endFields) (hagree : AgreeOn beginFields endFields)
      (hexpects : options.expects (field endFields "cmd"))
      (hrest : Reads options byteLength lines pieces) :
      Reads options byteLength (opening :: (body ++ closing :: lines)) (.frame opening closing
          ⟨beginFields, endFields, body, opening.byteStart, closing.byteEnd⟩ :: pieces)
  | transition {opening : DecodedLine} {beginFields : Pairs} {body lines : List DecodedLine}
      {pieces : List Piece} {byteEnd : Nat} (hopens : Opens opening beginFields)
      (hbody : ∀ line ∈ body, Ordinary line)
      (honeWay : field beginFields "cmd" ∈ options.oneWayCommands)
      (hexpects : options.expects (field beginFields "cmd"))
      (hstops : Stops byteLength lines byteEnd)
      (hrest : Reads options byteLength lines pieces) :
      Reads options byteLength (opening :: (body ++ lines))
        (.transition opening ⟨beginFields, body, opening.byteStart, byteEnd⟩ :: pieces)

section Layout

variable {options : Options} {byteLength start : Nat} {lines : List DecodedLine}
  {pieces : List Piece} (h : Reads options byteLength lines pieces)
include h

theorem Reads.lines_eq : pieces.flatMap Piece.lines = lines := by
  induction h with
  | nil => rfl
  | outside hline hrest ih =>
    rw [List.flatMap_cons, ih]
    rfl
  | frame hopens hbody hcloses hagree hexpects hrest ih =>
    rw [List.flatMap_cons, ih]
    simp [Piece.lines]
  | transition hopens hbody honeWay hexpects hstops hrest ih =>
    rw [List.flatMap_cons, ih]
    simp [Piece.lines]

theorem Reads.ranges (hchained : Chained byteLength start lines) :
    (pieces.filterMap Piece.range?).Pairwise (fun first second => first.2 ≤ second.1) ∧
      ∀ range ∈ pieces.filterMap Piece.range?,
        start ≤ range.1 ∧ range.1 < range.2 ∧ range.2 ≤ byteLength := by
  induction h generalizing start with
  | nil => simp
  | outside hline hrest ih =>
    obtain ⟨-, hlt, hlines⟩ := hchained
    obtain ⟨hpairs, hbounds⟩ := ih hlines
    rw [List.filterMap_cons_none rfl]
    refine ⟨hpairs, ?_⟩
    intro range hmember
    have hrange := hbounds range hmember
    exact ⟨by omega, hrange.2⟩
  | @frame opening closing _ _ body lines pieces hopens hbody hcloses hagree hexpects hrest ih =>
    obtain ⟨hstart, hlt, hlines⟩ := hchained
    obtain ⟨middle, hmiddle, hclosing, hclosinglt, hlines⟩ := chained_append.mp hlines
    obtain ⟨hpairs, hbounds⟩ := ih hlines
    have hle := hmiddle.le
    have hstop := hlines.le
    rw [List.filterMap_cons]
    simp only [Piece.range?, List.pairwise_cons, List.forall_mem_cons]
    refine ⟨⟨fun range hmember => (hbounds range hmember).1, hpairs⟩, ?_, ?_⟩
    · omega
    · intro range hmember
      have hrange := hbounds range hmember
      exact ⟨by omega, hrange.2⟩
  | @transition opening _ body lines pieces byteEnd hopens hbody honeWay hexpects hstops hrest ih =>
    obtain ⟨hstart, hlt, hlines⟩ := hchained
    obtain ⟨middle, hmiddle, hlines⟩ := chained_append.mp hlines
    obtain ⟨hpairs, hbounds⟩ := ih hlines
    have hle := hmiddle.le
    have hstop := hlines.le
    have hend : byteEnd = middle := by
      rcases hstops with ⟨rfl, rfl⟩ | ⟨next, rest, rfl, -, rfl⟩
      · exact hlines.symm
      · exact hlines.1
    rw [List.filterMap_cons]
    simp only [Piece.range?, List.pairwise_cons, List.forall_mem_cons]
    refine ⟨⟨fun range hmember => ?_, hpairs⟩, ?_, ?_⟩
    · rw [hend]
      exact (hbounds range hmember).1
    · omega
    · intro range hmember
      have hrange := hbounds range hmember
      exact ⟨by omega, hrange.2⟩

theorem Reads.marked : ∀ piece ∈ pieces, piece.Marked := by
  induction h with
  | nil => simp
  | outside hline hrest ih => exact List.forall_mem_cons.mpr ⟨hline, ih⟩
  | frame hopens hbody hcloses hagree hexpects hrest ih =>
    exact List.forall_mem_cons.mpr ⟨⟨hopens, hbody, hcloses, hagree⟩, ih⟩
  | transition hopens hbody honeWay hexpects hstops hrest ih =>
    exact List.forall_mem_cons.mpr ⟨⟨hopens, hbody⟩, ih⟩

theorem Reads.agree :
    ∀ frame ∈ pieces.filterMap Piece.frame?, AgreeOn frame.beginFields frame.endFields := by
  intro frame hframe
  obtain ⟨piece, hpiece, hfound⟩ := List.mem_filterMap.mp hframe
  cases piece with
  | outside => cases hfound
  | transition => cases hfound
  | frame =>
    cases hfound
    exact (h.marked _ hpiece).2.2.2

end Layout

inductive Step (options : Options) (s : Scan) (line : DecodedLine) : Scan → Prop
  | opened {fields : Pairs} (hclosed : s.opened = none) (hopens : Opens line fields) :
      Step options s line { s with opened := some (line, fields), body := [] }
  | reopened {earlier : DecodedLine} {earlierFields fields : Pairs}
      (hopen : s.opened = some (earlier, earlierFields)) (hopens : Opens line fields)
      (honeWay : field earlierFields "cmd" ∈ options.oneWayCommands)
      (hexpects : options.expects (field earlierFields "cmd")) :
      Step options s line { s with
        transitions := s.transitions ++
          [⟨earlierFields, s.body, earlier.byteStart, line.byteStart⟩]
        opened := some (line, fields)
        body := [] }
  | closed {opening : DecodedLine} {beginFields endFields : Pairs}
      (hopen : s.opened = some (opening, beginFields)) (hcloses : Closes line endFields)
      (hagree : AgreeOn beginFields endFields)
      (hexpects : options.expects (field endFields "cmd")) :
      Step options s line { s with
        frames := s.frames ++
          [⟨beginFields, endFields, s.body, opening.byteStart, line.byteEnd⟩]
        opened := none
        body := [] }
  | outside (hclosed : s.opened = none) (hline : Ordinary line) :
      Step options s line { s with outside := s.outside ++ [line] }
  | body {opening : DecodedLine} {fields : Pairs} (hopen : s.opened = some (opening, fields))
      (hline : Ordinary line) : Step options s line { s with body := s.body ++ [line] }

section Loop

variable {options : Options} {byteLength : Nat} {s t : Scan} {line : DecodedLine}
  {lines : List DecodedLine}

/-- The ways in which an open frame is left without END. -/
inductive Left (options : Options) (s : Scan) (byteEnd : Nat) : Scan → Prop
  | closed (hclosed : s.opened = none) : Left options s byteEnd s
  | opened {opening : DecodedLine} {fields : Pairs} (hopen : s.opened = some (opening, fields))
      (honeWay : field fields "cmd" ∈ options.oneWayCommands)
      (hexpects : options.expects (field fields "cmd")) :
      Left options s byteEnd { s with
        transitions := s.transitions ++ [⟨fields, s.body, opening.byteStart, byteEnd⟩] }

theorem closeTransition_left {byteEnd : Nat} {failure : String}
    (h : closeTransition options s byteEnd failure = .ok t) : Left options s byteEnd t := by
  rw [closeTransition] at h
  split at h
  case h_1 hclosed =>
    cases h
    exact .closed hclosed
  case h_2 opening fields hopen =>
    simp only [require_bind_eq_ok] at h
    obtain ⟨honeWay, hexpects, h⟩ := h
    cases h
    exact .opened hopen honeWay hexpects

theorem readBegin_step (hmarker : beginMarker <+: line.text)
    (h : readBegin options s line = .ok t) : Step options s line t := by
  rw [readBegin, require_bind_eq_ok, bind_eq_ok] at h
  obtain ⟨hending, fields, hparsed, h⟩ := h
  obtain ⟨⟨⟩, hchecked, h⟩ := bind_eq_ok.mp h
  obtain ⟨middle, hmiddle, h⟩ := bind_eq_ok.mp h
  cases h
  have hopens : Opens line fields := ⟨hmarker, hending, hparsed, hchecked⟩
  cases closeTransition_left hmiddle with
  | closed hclosed => exact .opened hclosed hopens
  | opened hopen honeWay hexpects => exact .reopened hopen hopens honeWay hexpects

theorem readEnd_step (hmarker : endMarker <+: line.text)
    (h : readEnd options s line = .ok t) : Step options s line t := by
  rw [readEnd] at h
  split at h
  case h_1 => cases h
  case h_2 opening beginFields hopen =>
    rw [require_bind_eq_ok, bind_eq_ok] at h
    obtain ⟨hending, fields, hparsed, h⟩ := h
    obtain ⟨⟨⟩, hchecked, h⟩ := bind_eq_ok.mp h
    simp only [require_bind_eq_ok] at h
    obtain ⟨hseq, hcmd, hflags, hexpects, h⟩ := h
    cases h
    exact .closed hopen ⟨hmarker, hending, hparsed, hchecked⟩ ⟨hseq, hcmd, hflags⟩ hexpects

theorem readLine_step (h : readLine options s line = .ok t) : Step options s line t := by
  rw [readLine] at h
  split at h
  case isTrue hbegin => exact readBegin_step hbegin h
  case isFalse hbegin =>
    split at h
    case isTrue hend => exact readEnd_step hend h
    case isFalse hend =>
      split at h
      case h_1 hclosed =>
        cases h
        exact .outside hclosed ⟨hbegin, hend⟩
      case h_2 opening hopen =>
        cases h
        exact .body hopen ⟨hbegin, hend⟩

theorem finish_left (h : finish options byteLength s = .ok t) :
    (options.requireFrames = true → t.frames ≠ []) ∧ Left options s byteLength t := by
  rw [finish] at h
  obtain ⟨middle, hmiddle, h⟩ := bind_eq_ok.mp h
  rw [require_bind_eq_ok] at h
  obtain ⟨hframes, h⟩ := h
  cases h
  exact ⟨hframes, closeTransition_left hmiddle⟩

structure Adds (s : Scan) (pieces : List Piece) (t : Scan) : Prop where
  frames : t.frames = s.frames ++ pieces.filterMap Piece.frame?
  transitions : t.transitions = s.transitions ++ pieces.filterMap Piece.transition?
  outside : t.outside = s.outside ++ pieces.filterMap Piece.outside?

theorem Adds.cons {pieces : List Piece} {u : Scan} {piece : Piece} (hfirst : Adds s [piece] t)
    (hrest : Adds t pieces u) : Adds s (piece :: pieces) u := by
  have hsplit : piece :: pieces = [piece] ++ pieces := rfl
  constructor
  · rw [hrest.frames, hfirst.frames, hsplit, List.filterMap_append, List.append_assoc]
  · rw [hrest.transitions, hfirst.transitions, hsplit, List.filterMap_append, List.append_assoc]
  · rw [hrest.outside, hfirst.outside, hsplit, List.filterMap_append, List.append_assoc]

theorem Adds.same {pieces : List Piece} {u : Scan} (hrest : Adds t pieces u)
    (hframes : t.frames = s.frames) (htransitions : t.transitions = s.transitions)
    (houtside : t.outside = s.outside) : Adds s pieces u :=
  ⟨hframes ▸ hrest.frames, htransitions ▸ hrest.transitions, houtside ▸ hrest.outside⟩

def Scan.pending (s : Scan) : List DecodedLine :=
  match s.opened with
  | none => []
  | some (opening, _) => opening :: s.body

def Scan.Begun (s : Scan) : Prop :=
  ∀ opening fields, s.opened = some (opening, fields) →
    Opens opening fields ∧ ∀ line ∈ s.body, Ordinary line

theorem pending_of_none (hclosed : s.opened = none) : s.pending = [] := by
  simp [Scan.pending, hclosed]

theorem pending_of_some {opening : DecodedLine} {fields : Pairs}
    (hopen : s.opened = some (opening, fields)) : s.pending = opening :: s.body := by
  simp [Scan.pending, hopen]

theorem Step.begun (hstep : Step options s line t) (hbegun : s.Begun) : t.Begun := by
  intro opening fields hopen
  cases hstep with
  | opened hclosed hopens =>
    cases hopen
    exact ⟨hopens, by simp⟩
  | reopened hearlier hopens =>
    cases hopen
    exact ⟨hopens, by simp⟩
  | closed => cases hopen
  | outside hclosed => rw [hclosed] at hopen; cases hopen
  | body hopening hline =>
    obtain ⟨hopens, hbody⟩ := hbegun opening fields hopen
    refine ⟨hopens, ?_⟩
    intro other hother
    rcases List.mem_append.mp hother with hearlier | hlast
    · exact hbody other hearlier
    · rw [List.mem_singleton.mp hlast]
      exact hline

theorem reads_of_fold (hbegun : s.Begun)
    (h : (lines.foldlM (readLine options) s >>= finish options byteLength) = .ok t) :
    ∃ pieces, Reads options byteLength (s.pending ++ lines) pieces ∧ Adds s pieces t := by
  induction lines generalizing s with
  | nil =>
    obtain ⟨-, hleft⟩ := finish_left h
    cases hleft with
    | closed hclosed =>
      rw [pending_of_none hclosed]
      exact ⟨[], .nil, by simp, by simp, by simp⟩
    | opened hopen honeWay hexpects =>
      obtain ⟨hopens, hbody⟩ := hbegun _ _ hopen
      rw [pending_of_some hopen]
      refine ⟨_, .transition hopens hbody honeWay hexpects (.inl ⟨rfl, rfl⟩) .nil, ?_⟩
      constructor
      · simp [Piece.frame?]
      · simp [Piece.transition?]
      · simp [Piece.outside?]
  | cons line lines ih =>
    rw [List.foldlM_cons, bind_assoc] at h
    obtain ⟨middle, hread, h⟩ := bind_eq_ok.mp h
    have hstep := readLine_step hread
    obtain ⟨pieces, hreads, hadds⟩ := ih (hstep.begun hbegun) h
    cases hstep with
    | opened hclosed hopens =>
      rw [pending_of_none hclosed]
      exact ⟨pieces, hreads, hadds.same rfl rfl rfl⟩
    | reopened hopen hopens honeWay hexpects =>
      obtain ⟨hearlier, hbody⟩ := hbegun _ _ hopen
      rw [pending_of_some hopen]
      refine ⟨_, .transition hearlier hbody honeWay hexpects
        (.inr ⟨line, lines, rfl, hopens.marker, rfl⟩) hreads, ?_⟩
      refine Adds.cons ?_ hadds
      exact ⟨by simp [Piece.frame?], by simp [Piece.transition?], by simp [Piece.outside?]⟩
    | closed hopen hcloses hagree hexpects =>
      obtain ⟨hopens, hbody⟩ := hbegun _ _ hopen
      rw [pending_of_some hopen]
      refine ⟨_, .frame hopens hbody hcloses hagree hexpects hreads, ?_⟩
      refine Adds.cons ?_ hadds
      exact ⟨by simp [Piece.frame?], by simp [Piece.transition?], by simp [Piece.outside?]⟩
    | outside hclosed hline =>
      rw [pending_of_none (s := { s with outside := s.outside ++ [line] }) hclosed] at hreads
      rw [pending_of_none hclosed]
      refine ⟨_, .outside hline hreads, Adds.cons ?_ hadds⟩
      exact ⟨by simp [Piece.frame?], by simp [Piece.transition?], by simp [Piece.outside?]⟩
    | body hopen hline =>
      rw [pending_of_some (s := { s with body := s.body ++ [line] }) hopen] at hreads
      rw [pending_of_some hopen]
      refine ⟨pieces, ?_, hadds.same rfl rfl rfl⟩
      simpa using hreads

end Loop

section Transcripts

variable {sha256 : Text → Text} {options : Options} {chunks : List (List UInt8)}
  {transcript : Transcript}

theorem decodeLines_tiles {label : String} {raw : List UInt8} {decoded : DecodedText}
    (h : decodeLines sha256 label true raw = .ok decoded) :
    decoded.byteLength = raw.length ∧ Tiles 0 raw decoded.lines ∧ Utf8.valid raw = true := by
  simp only [decodeLines, require_bind_eq_ok] at h
  obtain ⟨-, hvalid, h⟩ := h
  obtain ⟨lines, hlines, h⟩ := bind_eq_ok.mp h
  cases h
  exact ⟨rfl, scanLines_tiles hlines ⟨by simp, by simp⟩, hvalid⟩

theorem reads_of_parse (h : parseA90p1Chunks sha256 options chunks = .ok transcript) :
    Tiles 0 chunks.flatten transcript.decoded.lines ∧ Utf8.valid chunks.flatten = true ∧
      ∃ pieces, Reads options chunks.flatten.length transcript.decoded.lines pieces ∧
        transcript.frames = pieces.filterMap Piece.frame? ∧
        transcript.transitions = pieces.filterMap Piece.transition? ∧
        transcript.outside = pieces.filterMap Piece.outside? := by
  rw [parseA90p1Chunks, require_bind_eq_ok, bind_eq_ok] at h
  obtain ⟨-, decoded, hdecoded, h⟩ := h
  obtain ⟨hlength, htiles, hvalid⟩ := decodeLines_tiles hdecoded
  rw [← bind_assoc] at h
  obtain ⟨s, hs, h⟩ := bind_eq_ok.mp h
  cases h
  have hbegun : ({} : Scan).Begun := fun opening fields hopen => by cases hopen
  obtain ⟨pieces, hreads, hadds⟩ := reads_of_fold hbegun hs
  rw [hlength] at hreads
  exact ⟨htiles, hvalid, pieces, hreads, hadds.frames, hadds.transitions, hadds.outside⟩

theorem parse_of_flatten_eq {other : List (List UInt8)} (h : chunks.flatten = other.flatten) :
    parseA90p1Chunks sha256 options chunks =
      (fun transcript => { transcript with chunkSizes := chunks.map List.length }) <$>
        parseA90p1Chunks sha256 options other := by
  simp only [parseA90p1Chunks, h]
  by_cases hcommands : ∀ command ∈ options.oneWayCommands, commandName command = true
  · rw [require_of_pos _ hcommands, ok_bind, ok_bind]
    cases decodeLines sha256 "A90P1 transcript" true other.flatten with
    | error failure => rfl
    | ok decoded =>
      rw [ok_bind, ok_bind]
      cases decoded.lines.foldlM (readLine options) {} with
      | error failure => rfl
      | ok s =>
        rw [ok_bind, ok_bind]
        cases finish options decoded.byteLength s with
        | error failure => rfl
        | ok last => rfl
  · rw [require_of_neg _ hcommands]
    rfl

end Transcripts

/-- An accepted transcript is its bytes, cut into lines and the lines into pieces, and
no other way of cutting the input into chunks changes that or the verdict. -/
theorem transcript_is_lossless (sha256 : Text → Text) (options : Options)
    (chunks : List (List UInt8)) :
    (∀ transcript, parseA90p1Chunks sha256 options chunks = .ok transcript →
      Tiles 0 chunks.flatten transcript.decoded.lines ∧
      transcript.decoded.lines.flatMap DecodedLine.raw = chunks.flatten ∧
      (∀ line ∈ transcript.decoded.lines, Utf8.valid line.text = true) ∧
      (∀ frame ∈ transcript.frames, AgreeOn frame.beginFields frame.endFields) ∧
      ∃ pieces : List Piece, pieces.flatMap Piece.lines = transcript.decoded.lines ∧
        (∀ piece ∈ pieces, piece.Marked) ∧
        pieces.filterMap Piece.frame? = transcript.frames ∧
        pieces.filterMap Piece.transition? = transcript.transitions ∧
        pieces.filterMap Piece.outside? = transcript.outside ∧
        (pieces.filterMap Piece.range?).Pairwise (fun first second => first.2 ≤ second.1) ∧
        ∀ range ∈ pieces.filterMap Piece.range?,
          range.1 < range.2 ∧ range.2 ≤ chunks.flatten.length) ∧
    ∀ other : List (List UInt8), other.flatten = chunks.flatten →
      parseA90p1Chunks sha256 options other =
        (fun transcript => { transcript with chunkSizes := other.map List.length }) <$>
          parseA90p1Chunks sha256 options chunks := by
  constructor
  · intro transcript h
    obtain ⟨htiles, hvalid, pieces, hreads, hframes, htransitions, houtside⟩ :=
      reads_of_parse h
    have hchained := htiles.chained
    rw [Nat.zero_add] at hchained
    obtain ⟨hpairs, hbounds⟩ := hreads.ranges hchained
    refine ⟨htiles, htiles.flatMap_raw, htiles.valid_text hvalid, ?_, pieces, hreads.lines_eq,
      hreads.marked, hframes.symm, htransitions.symm, houtside.symm, hpairs,
      fun range hmember => (hbounds range hmember).2⟩
    rw [hframes]
    exact hreads.agree
  · intro other hother
    exact parse_of_flatten_eq hother

def sampleChunks : List (List UInt8) :=
  [ascii "A90P1 BEGIN seq=1 cmd=version argc=1 flags=0x0\r\nA90\n[done] versi",
    ascii "on (3ms)\r\nA90P1 END seq=1 cmd=version rc=0 errno=0 duration_ms=3 flags=0x0",
    ascii " status=ok\r\na90:/# "]

theorem transcript_is_lossless_version :
    ∃ transcript, parseA90p1Chunks id {} sampleChunks = .ok transcript ∧
      transcript.decoded.lines.flatMap DecodedLine.raw = sampleChunks.flatten ∧
      parseA90p1Chunks id {} [sampleChunks.flatten] =
        .ok { transcript with chunkSizes := [sampleChunks.flatten.length] } := by
  obtain ⟨haccepted, hchunks⟩ := transcript_is_lossless id {} sampleChunks
  cases hparse : parseA90p1Chunks id {} sampleChunks with
  | error failure =>
    have hok : (parseA90p1Chunks id {} sampleChunks).isOk = true := by
      decide +kernel
    simp [hparse, Except.isOk, Except.toBool] at hok
  | ok transcript =>
    refine ⟨transcript, rfl, (haccepted transcript hparse).2.1, ?_⟩
    rw [hchunks [sampleChunks.flatten] (by simp), hparse]
    rfl

end NativeInitLab.Cmdproto.Host
