import NativeInitLab.Cmdproto.Host

namespace NativeInitLab.Cmdproto.Host

open Lockstep Numerals

/-! The command line that the host sends. -/

abbrev Str := List Char

def utf8 (text : Str) : Text := text.flatMap String.utf8EncodeChar

def isSpace (character : Char) : Bool :=
  let code := character.toNat
  (0x09 ≤ code && code ≤ 0x0D) || (0x1C ≤ code && code ≤ 0x20) || code == 0x85 ||
    code == 0xA0 || code == 0x1680 || (0x2000 ≤ code && code ≤ 0x200A) || code == 0x2028 ||
    code == 0x2029 || code == 0x202F || code == 0x205F || code == 0x3000

def canUseLegacyCmdv1Arg (argument : Str) : Bool :=
  if argument = [] ∨ argument.head? = some '#' then false
  else !(argument.any fun character => isSpace character || character ∈ ['\r', '\n'])

def bytesHex (bytes : Text) : Text :=
  bytes.flatMap fun byte => [digit (byte.toNat / 16), digit (byte.toNat % 16)]

def spell (data : Text) : Text := decimal data.length ++ ascii ":" ++ bytesHex data

def encodeCmdv1xArg (argument : Str) : Except String Text := do
  require ('\x00' ∉ argument) "cmdv1x cannot encode NUL bytes"
  return spell (utf8 argument)

def encodeCmdv1Line (command : List Str) : Except String Text := do
  require (command ≠ []) "cmdv1 command is required"
  require (commandName (utf8 (command.headD [])) = true)
    "cmdv1 command name cannot be encoded safely"
  require (∀ argument ∈ command, '\x00' ∉ argument) "cmdv1 cannot encode NUL bytes"
  if command.all canUseLegacyCmdv1Arg then
    return ascii "cmdv1 " ++ [space].intercalate (command.map utf8)
  else
    return ascii "cmdv1x " ++ [space].intercalate (← command.mapM encodeCmdv1xArg)

theorem encodeCmdv1xArg_of_nul_free {command : List Str}
    (hnul : ∀ argument ∈ command, '\x00' ∉ argument) :
    command.mapM encodeCmdv1xArg = .ok (command.map fun argument => spell (utf8 argument)) := by
  refine mapM_eq_ok fun argument hargument => ?_
  rw [encodeCmdv1xArg, require_of_pos _ (hnul argument hargument), ok_bind]
  rfl

end NativeInitLab.Cmdproto.Host
