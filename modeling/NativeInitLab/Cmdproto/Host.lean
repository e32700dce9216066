import NativeInitLab.Library.Lockstep
import NativeInitLab.Library.Numerals
import NativeInitLab.Library.Utf8

namespace NativeInitLab.Cmdproto

open Lockstep Numerals

/-! The strict reader of A90P1 transcripts.  Text is the bytes of its UTF-8 form; every
separator and every pattern of the reader is ASCII. -/

abbrev Text := List UInt8

def ascii (text : String) : Text := text.toList.map fun character => character.toNat.toUInt8

def lf : UInt8 := 0x0A
def cr : UInt8 := 0x0D
def space : UInt8 := 0x20
def equals : UInt8 := 0x3D

def beginMarker : Text := ascii "A90P1 BEGIN "
def endMarker : Text := ascii "A90P1 END "

namespace Host

inductive LineEnding where
  | lf
  | crlf
  | eof
  deriving DecidableEq

structure DecodedLine where
  text : Text
  byteStart : Nat
  contentEnd : Nat
  byteEnd : Nat
  ending : LineEnding
  deriving DecidableEq

structure DecodedText where
  byteLength : Nat
  sha256 : Text
  lines : List DecodedLine
  deriving DecidableEq

def LineEnding.length : LineEnding → Nat
  | .lf => 1
  | .crlf => 2
  | .eof => 0

def lineAt (start : Nat) (text : Text) (ending : LineEnding) : DecodedLine where
  text
  byteStart := start
  contentEnd := start + text.length
  byteEnd := start + text.length + ending.length
  ending

/-- The `while` loop of `decode_lines`: `text` is `raw[start:index]`, and the last
argument the bytes from `index` on. -/
def scanLines (label : String) (allowUnterminated : Bool) :
    Nat → Text → List UInt8 → Except String (List DecodedLine)
  | start, text, [] =>
    if text = [] then .ok []
    else if allowUnterminated then .ok [lineAt start text .eof]
    else .error (label ++ " is not newline terminated")
  | start, text, byte :: raw =>
    if byte = lf then
      (lineAt start text .lf :: ·) <$>
        scanLines label allowUnterminated (start + text.length + 1) [] raw
    else if byte = cr then
      match raw with
      | [] => .error (label ++ " contains bare CR")
      | next :: raw =>
        if next = lf then
          (lineAt start text .crlf :: ·) <$>
            scanLines label allowUnterminated (start + text.length + 2) [] raw
        else .error (label ++ " contains bare CR")
    else scanLines label allowUnterminated start (text ++ [byte]) raw

def decodeLines (sha256 : Text → Text) (label : String) (allowUnterminated : Bool)
    (raw : List UInt8) : Except String DecodedText := do
  require (0 ∉ raw) (label ++ " contains NUL")
  require (Utf8.valid raw = true) (label ++ " is not valid UTF-8")
  let lines ← scanLines label allowUnterminated 0 [] raw
  return ⟨raw.length, sha256 raw, lines⟩

abbrev Pairs := List (Text × Text)

def keys (fields : Pairs) : List Text := fields.map Prod.fst

def field (fields : Pairs) (key : String) : Text := (fields.lookup (ascii key)).getD []

def addToken (label : String) (fields : Pairs) (token : Text) : Except String Pairs := do
  require (token.count equals = 1) (label ++ " contains a malformed field")
  let key := token.takeWhile (· != equals)
  let value := (token.dropWhile (· != equals)).tail
  require (key ≠ [] ∧ value ≠ [] ∧ key ∉ keys fields)
    (label ++ " fields must be unique and nonempty")
  return fields ++ [(key, value)]

def parseFields (payload : Text) (expected : List Text) (label : String) :
    Except String Pairs := do
  let tokens := payload.splitOn space
  require (∀ token ∈ tokens, token ≠ []) (label ++ " field spacing is not exact")
  let fields ← tokens.foldlM (addToken label) []
  require ((∀ key ∈ keys fields, key ∈ expected) ∧ ∀ key ∈ expected, key ∈ keys fields)
    (label ++ " field set is not exact")
  require (keys fields = expected) (label ++ " field order is not exact")
  return fields

def beginKeyOrder : List Text := ["seq", "cmd", "argc", "flags"].map ascii

def endKeyOrder : List Text :=
  ["seq", "cmd", "rc", "errno", "duration_ms", "flags", "status"].map ascii

def isLetter (byte : UInt8) : Bool :=
  (0x41 ≤ byte && byte ≤ 0x5A) || (0x61 ≤ byte && byte ≤ 0x7A)

def isLower (byte : UInt8) : Bool := 0x61 ≤ byte && byte ≤ 0x7A

def commandName (text : Text) : Bool :=
  text != [] && text.all fun byte =>
    isLetter byte || isDecimal byte || byte ∈ [0x5F, 0x2E, 0x2B, 0x2D]

def unsignedDecimal (text : Text) : Bool := canonical isDecimal text

def minus : UInt8 := 0x2D

def signedDecimal : Text → Bool
  | [] => false
  | byte :: rest =>
    if byte = minus then unsignedDecimal rest && rest != ascii "0"
    else unsignedDecimal (byte :: rest)

def flagsText (text : Text) : Bool :=
  text.take 2 == ascii "0x" && canonical isHex (text.drop 2)

def statusText : Text → Bool
  | [] => false
  | byte :: rest =>
    isLower byte && rest.all fun other => isLower other || isDecimal other || other == minus

def canonicalStatuses : List Text := ["ok", "error", "unknown", "busy"].map ascii

/-- The interpreter's limit on the digits of an integer literal. -/
def intMaxStrDigits : Nat := 4300

def int (text : Text) : Except String Int :=
  let digits := if text.head? = some minus then text.tail else text
  if digits.length > intMaxStrDigits then
    .error "Exceeds the limit (4300 digits) for integer string conversion"
  else if text.head? = some minus then .ok (-(value 10 digits))
  else .ok (value 10 digits)

def validateBegin (fields : Pairs) : Except String Unit := do
  let failure := "A90P1 BEGIN field value is not exact"
  require (unsignedDecimal (field fields "seq") = true) failure
  let seq ← int (field fields "seq")
  require (0 < seq ∧ commandName (field fields "cmd") = true ∧
    unsignedDecimal (field fields "argc") = true) failure
  let argc ← int (field fields "argc")
  require (0 < argc ∧ flagsText (field fields "flags") = true) failure

def coherent (rc errno : Int) (status : Text) : Prop :=
  ¬ ((rc ≥ 0 ∧ errno ≠ 0) ∨ (rc > 0 ∧ status ≠ ascii "error") ∨ (rc < 0 ∧ errno ≠ -rc) ∨
    ((status = ascii "unknown" ∨ status = ascii "busy") ∧ rc ≥ 0) ∨
    (status = ascii "unknown" ∧ ¬ (rc = -2 ∧ errno = 2)) ∨
    (status = ascii "busy" ∧ ¬ (rc = -16 ∧ errno = 16)))

instance (rc errno : Int) (status : Text) : Decidable (coherent rc errno status) :=
  inferInstanceAs (Decidable (¬ _))

def validateEnd (fields : Pairs) : Except String Unit := do
  let failure := "A90P1 END field value is not exact"
  require (unsignedDecimal (field fields "seq") = true) failure
  let seq ← int (field fields "seq")
  require (0 < seq ∧ commandName (field fields "cmd") = true ∧
    signedDecimal (field fields "rc") = true ∧
    unsignedDecimal (field fields "errno") = true ∧
    unsignedDecimal (field fields "duration_ms") = true ∧
    flagsText (field fields "flags") = true ∧ statusText (field fields "status") = true ∧
    field fields "status" ∈ canonicalStatuses) failure
  let rc ← int (field fields "rc")
  let errno ← int (field fields "errno")
  require (rc = 0 ↔ field fields "status" = ascii "ok") "A90P1 END rc/status coherence failed"
  require (coherent rc errno (field fields "status")) "A90P1 END rc/errno coherence failed"

structure Frame where
  beginFields : Pairs
  endFields : Pairs
  body : List DecodedLine
  byteStart : Nat
  byteEnd : Nat
  deriving DecidableEq

/-- A frame of a one-way command that never ended; there is one reason for it. -/
structure Transition where
  beginFields : Pairs
  body : List DecodedLine
  byteStart : Nat
  byteEnd : Nat
  deriving DecidableEq

structure Transcript where
  decoded : DecodedText
  frames : List Frame
  transitions : List Transition
  outside : List DecodedLine
  chunkSizes : List Nat
  deriving DecidableEq

structure Options where
  expectedCommand : Option Text := none
  requireFrames : Bool := true
  oneWayCommands : List Text := []

/-- The variables of the loop over the lines; `opened` is `begin_line` with
`begin_fields`. -/
structure Scan where
  frames : List Frame := []
  transitions : List Transition := []
  outside : List DecodedLine := []
  opened : Option (DecodedLine × Pairs) := none
  body : List DecodedLine := []

def Options.expects (options : Options) (command : Text) : Prop :=
  ∀ expected, options.expectedCommand = some expected → command = expected

instance (options : Options) (command : Text) : Decidable (options.expects command) :=
  match h : options.expectedCommand with
  | none => isTrue fun expected hsome => by simp [h] at hsome
  | some expected =>
    decidable_of_iff (command = expected) ⟨fun heq other hsome => by
        rw [h] at hsome
        exact heq.trans (Option.some.inj hsome), fun hall => hall expected h⟩

/-- A frame that is open when a BEGIN or the end of the input comes; `failure` is the
message for an ordinary command. -/
def closeTransition (options : Options) (s : Scan) (byteEnd : Nat) (failure : String) :
    Except String Scan :=
  match s.opened with
  | none => .ok s
  | some (line, fields) => do
    require (field fields "cmd" ∈ options.oneWayCommands) failure
    require (options.expects (field fields "cmd")) "A90P1 command does not match the issued request"
    return { s with
      transitions := s.transitions ++ [⟨fields, s.body, line.byteStart, byteEnd⟩] }

def readBegin (options : Options) (s : Scan) (line : DecodedLine) : Except String Scan := do
  require (line.ending ≠ .eof) "A90P1 BEGIN is not newline terminated"
  let fields ← parseFields (line.text.drop beginMarker.length) beginKeyOrder "A90P1 BEGIN"
  validateBegin fields
  let s ← closeTransition options s line.byteStart "A90P1 nested BEGIN is ambiguous"
  return { s with opened := some (line, fields), body := [] }

def readEnd (options : Options) (s : Scan) (line : DecodedLine) : Except String Scan :=
  match s.opened with
  | none => .error "A90P1 END lacks BEGIN"
  | some (opening, beginFields) => do
    require (line.ending ≠ .eof) "A90P1 END is not newline terminated"
    let fields ← parseFields (line.text.drop endMarker.length) endKeyOrder "A90P1 END"
    validateEnd fields
    require (field beginFields "seq" = field fields "seq") "A90P1 BEGIN/END seq mismatch"
    require (field beginFields "cmd" = field fields "cmd") "A90P1 BEGIN/END cmd mismatch"
    require (field beginFields "flags" = field fields "flags") "A90P1 BEGIN/END flags mismatch"
    require (options.expects (field fields "cmd")) "A90P1 command does not match the issued request"
    return { s with
      frames := s.frames ++
        [⟨beginFields, fields, s.body, opening.byteStart, line.byteEnd⟩]
      opened := none
      body := [] }

def readLine (options : Options) (s : Scan) (line : DecodedLine) : Except String Scan :=
  if beginMarker <+: line.text then readBegin options s line
  else if endMarker <+: line.text then readEnd options s line
  else
    match s.opened with
    | none => .ok { s with outside := s.outside ++ [line] }
    | some _ => .ok { s with body := s.body ++ [line] }

def finish (options : Options) (byteLength : Nat) (s : Scan) : Except String Scan := do
  let s ← closeTransition options s byteLength "A90P1 BEGIN lacks END"
  require (options.requireFrames = true → s.frames ≠ []) "A90P1 transcript has no complete frame"
  return s

def parseA90p1Chunks (sha256 : Text → Text) (options : Options)
    (chunks : List (List UInt8)) : Except String Transcript := do
  require (∀ command ∈ options.oneWayCommands, commandName command = true)
    "A90P1 one-way command set is invalid"
  let decoded ← decodeLines sha256 "A90P1 transcript" true chunks.flatten
  let s ← decoded.lines.foldlM (readLine options) {}
  let s ← finish options decoded.byteLength s
  return ⟨decoded, s.frames, s.transitions, s.outside, chunks.map List.length⟩

def parseA90p1Transcript (sha256 : Text → Text) (options : Options) (value : List UInt8) :
    Except String Transcript :=
  parseA90p1Chunks sha256 options [value]

structure ProtocolResult where
  beginFields : Pairs
  endFields : Pairs
  text : Text

def ProtocolResult.rc (result : ProtocolResult) : Except String Int :=
  int (field result.endFields "rc")

def ProtocolResult.status (result : ProtocolResult) : Text := field result.endFields "status"

/-- `parse_protocol_output` on a text that was decoded from these bytes; the last frame is
the result. -/
def parseProtocolOutput (sha256 : Text → Text) (text : Text) :
    Except String ProtocolResult := do
  require (endMarker <:+: text) "A90P1 END marker not found"
  match parseA90p1Transcript sha256 {} text with
  | .error failure => .error ("A90P1 strict framing rejected output: " ++ failure)
  | .ok transcript =>
    match transcript.frames.getLast? with
    | none => .error "tuple index out of range"
    | some frame => .ok ⟨frame.beginFields, frame.endFields, text⟩

end Host

end NativeInitLab.Cmdproto
