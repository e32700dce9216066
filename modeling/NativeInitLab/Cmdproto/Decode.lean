import NativeInitLab.Cmdproto.Device
import NativeInitLab.Cmdproto.Request

namespace NativeInitLab.Cmdproto.Decoder

open FixedWidth Numerals
open Device (einval)

/-! The decoder of `cmdv1x` arguments, which share one buffer. -/

def e2big : Int := 7
def eoverflow : Int := 75

def maxArgs : Nat := 32
def bufferBytes : Nat := 4096

def sizeMax : Nat := 2 ^ 64 - 1

def colon : UInt8 := 0x3A

/-- A store into an array; `none` is a store outside of it. -/
def store {A : Type} (array : List A) (index : Nat) (value : A) : Option (List A) :=
  if index < array.length then some (array.set index value) else none

/-- Pointers into the buffer are offsets, and a null pointer is `none`. -/
structure Decoded where
  argv : List (Option Nat) := List.replicate maxArgs none
  buffer : Text := List.replicate bufferBytes 0
  argc : Nat := 0

def hexDigitValue (character : UInt8) : Option Nat :=
  if 48 ≤ character ∧ character ≤ 57 then some (character.toNat - 48)
  else if 97 ≤ character ∧ character ≤ 102 then some (character.toNat - 97 + 10)
  else if 65 ≤ character ∧ character ≤ 70 then some (character.toNat - 65 + 10)
  else none

def readLength : Text → Nat → Except Int (Nat × Text)
  | [], length => .ok (length, [])
  | character :: rest, length =>
    if isDecimal character then
      let digit := character.toNat - 48
      if (sizeMax - digit) / 10 < length then .error (-eoverflow)
      else readLength rest (wrap64 (length * 10 + digit))
    else .ok (length, character :: rest)

structure Parsed where
  rc : Int
  argument : Option Nat := none
  buffer : Text
  position : Nat

/-- The loop over the bytes that are left; past the last digit it reads the NUL of the token. -/
def copyHex (start : Nat) : Nat → Text → Text → Nat → Option Parsed
  | 0, _, buffer, position => do
    return { rc := 0, argument := some start, buffer := ← store buffer position 0
             position := position + 1 }
  | count + 1, high :: low :: rest, buffer, position =>
    match hexDigitValue high, hexDigitValue low with
    | some high, some low =>
      if high * 16 + low = 0 then
        some { rc := -einval, argument := some start, buffer, position }
      else do
        let buffer ← store buffer position (high * 16 + low).toUInt8
        copyHex start count rest buffer (position + 1)
    | _, _ => some { rc := -einval, argument := some start, buffer, position }
  | _ + 1, _, buffer, position =>
    some { rc := -einval, argument := some start, buffer, position }

def parseHex (length : Nat) (hex buffer : Text) (position : Nat) : Option Parsed :=
  if sizeMax / 2 < length ∨ hex.length ≠ wrap64 (length * 2) then
    some { rc := -einval, buffer, position }
  else if bufferBytes < wrap64 (length + 1) ∨ sub64 (sub64 bufferBytes length) 1 < position then
    some { rc := -e2big, buffer, position }
  else copyHex position length hex buffer position

def parseCmdv1xToken (token buffer : Text) (position : Nat) : Option Parsed :=
  if (token.head?.all fun character => !isDecimal character) = true then
    some { rc := -einval, buffer, position }
  else
    match readLength token 0 with
    | .error rc => some { rc, buffer, position }
    | .ok (length, character :: hex) =>
      if character = colon then parseHex length hex buffer position
      else some { rc := -einval, buffer, position }
    | .ok (_, []) => some { rc := -einval, buffer, position }

def assign (argv : List (Option Nat)) (index : Nat) : Option Nat → Option (List (Option Nat))
  | some argument => store argv index (some argument)
  | none => some argv

/-- `decoded->argv[0][0]`; `none` is an access through a null pointer or outside the buffer. -/
def Decoded.firstByte (decoded : Decoded) : Option UInt8 := do
  let argument ← decoded.argv[0]?
  decoded.buffer[← argument]?

def decodeTokens : List Text → Nat → Decoded → Nat → Option (Int × Decoded)
  | [], index, decoded, _ => do
    let decoded := { decoded with argv := ← store decoded.argv index none }
    let first : UInt8 ← decoded.firstByte
    if first = 0 then return (-einval, { decoded with argc := 0 })
    return (index, { decoded with argc := index })
  | token :: rest, index, decoded, position => do
    let parsed ← parseCmdv1xToken token decoded.buffer position
    let argv ← assign decoded.argv index parsed.argument
    let decoded := { decoded with argv, buffer := parsed.buffer }
    if parsed.rc < 0 then
      return (parsed.rc, { decoded with argv := ← store argv 0 none, argc := 0 })
    decodeTokens rest (index + 1) decoded parsed.position

def decodeV1x (tokens : List Text) : Option (Int × Decoded) :=
  if tokens.length = 0 ∨ maxArgs ≤ tokens.length then some (-einval, {})
  else decodeTokens tokens 0 {} 0

def unhex : Text → Option Text
  | [] => some []
  | [_] => none
  | high :: low :: rest => do
    let high ← hexDigitValue high
    let low ← hexDigitValue low
    return (high * 16 + low).toUInt8 :: (← unhex rest)

/-- The number of bytes, a colon, and the digits of the bytes, none of which is zero. -/
def Spells (token string : Text) : Prop :=
  ∃ digits hex, digits ≠ [] ∧ (∀ character ∈ digits, isDecimal character = true) ∧
    token = digits ++ colon :: hex ∧ value 10 digits = string.length ∧
    unhex hex = some string ∧ 0 ∉ string

def layout (strings : List Text) : Text := strings.flatMap fun string => string ++ [0]

structure Accepted (tokens strings : List Text) : Prop where
  count : 1 ≤ tokens.length ∧ tokens.length ≤ 31
  spelled : List.Forall₂ Spells tokens strings
  named : strings.head? ≠ some []
  fits : (strings.map fun string => string.length + 1).sum ≤ bufferBytes

def stringAt (buffer : Text) (offset : Nat) : Text :=
  (buffer.drop offset).takeWhile fun byte => byte != 0

def Decoded.arguments (decoded : Decoded) : List Text :=
  (decoded.argv.takeWhile Option.isSome).map fun argument =>
    stringAt decoded.buffer (argument.getD 0)

section Fill

variable {A : Type} {capacity : Nat} {zero value : A} {written : List A}

def fill (capacity : Nat) (zero : A) (written : List A) : List A :=
  written ++ List.replicate (capacity - written.length) zero

theorem store_fill (hroom : written.length < capacity) :
    store (fill capacity zero written) written.length value =
      some (fill capacity zero (written ++ [value])) := by
  obtain ⟨room, hrest⟩ := Nat.exists_eq_add_of_lt hroom
  have hbefore : capacity - written.length = room + 1 := by omega
  have hafter : capacity - (written ++ [value]).length = room := by
    rw [List.length_append, List.length_singleton]
    omega
  rw [fill, fill, hbefore, hafter, store, if_pos (by simp), List.set_append_right _ _ (Nat.le_refl _),
    Nat.sub_self, List.replicate_succ, List.set_cons_zero, List.append_assoc, List.singleton_append]

theorem fill_append_zero (hroom : written.length < capacity) :
    fill capacity zero (written ++ [zero]) = fill capacity zero written := by
  obtain ⟨room, hrest⟩ := Nat.exists_eq_add_of_lt hroom
  have hbefore : capacity - written.length = room + 1 := by omega
  have hafter : capacity - (written ++ [zero]).length = room := by
    rw [List.length_append, List.length_singleton]
    omega
  rw [fill, fill, hbefore, hafter, List.append_assoc, List.replicate_succ, List.singleton_append]

theorem length_fill (hroom : written.length ≤ capacity) :
    (fill capacity zero written).length = capacity := by
  rw [fill, List.length_append, List.length_replicate]
  omega

end Fill

section Token

variable {digits hex string rest token written : Text} {length : Nat}

theorem digitValue_of_isDecimal {character : UInt8} (h : isDecimal character = true) :
    digitValue character = character.toNat - 48 := by
  have hrange : 48 ≤ character ∧ character ≤ 57 := by simpa [isDecimal] using h
  rw [digitValue, if_pos hrange]

def extend (length : Nat) (digits : Text) : Nat :=
  digits.foldl (fun number byte => 10 * number + digitValue byte) length

theorem extend_cons (length : Nat) (character : UInt8) (digits : Text) :
    extend length (character :: digits) = extend (10 * length + digitValue character) digits := rfl

theorem le_extend (digits : Text) (length : Nat) : length ≤ extend length digits := by
  induction digits generalizing length with
  | nil => exact Nat.le_refl _
  | cons character digits ih =>
    rw [extend_cons]
    exact Nat.le_trans (by omega) (ih _)

theorem readLength_digits (hdigits : ∀ character ∈ digits, isDecimal character = true)
    (hrest : ∀ character, rest.head? = some character → isDecimal character = false)
    (hlength : length ≤ sizeMax) :
    readLength (digits ++ rest) length =
      if extend length digits ≤ sizeMax then .ok (extend length digits, rest)
      else .error (-eoverflow) := by
  induction digits generalizing length with
  | nil =>
    rw [List.nil_append, if_pos (show extend length [] ≤ sizeMax from hlength)]
    cases rest with
    | nil => rfl
    | cons character rest =>
      have hcharacter : ¬ isDecimal character = true := by
        rw [hrest character rfl]
        decide
      rw [readLength, if_neg hcharacter]
      rfl
  | cons character digits ih =>
    obtain ⟨hcharacter, hdigits⟩ := List.forall_mem_cons.mp hdigits
    have hdigit := digitValue_of_isDecimal hcharacter
    have hsmall : character.toNat - 48 ≤ 9 := by
      have hle : character ≤ 57 := by
        have hrange : 48 ≤ character ∧ character ≤ 57 := by simpa [isDecimal] using hcharacter
        exact hrange.2
      have := UInt8.le_iff_toNat_le.mp hle
      simp only [UInt8.reduceToNat] at this
      omega
    rw [List.cons_append, readLength, if_pos hcharacter, extend_cons, hdigit]
    dsimp only
    split
    case isTrue hguard =>
      have hbig : sizeMax < 10 * length + (character.toNat - 48) := by
        unfold sizeMax at hguard ⊢
        omega
      have hfold := le_extend digits (10 * length + (character.toNat - 48))
      rw [if_neg (by omega)]
    case isFalse hguard =>
      have hfit : length * 10 + (character.toNat - 48) ≤ sizeMax := by
        unfold sizeMax at hguard ⊢
        omega
      rw [wrap64_of_lt (by unfold sizeMax at hfit; omega), ih hdigits hfit, Nat.mul_comm]

theorem length_of_unhex (h : unhex hex = some string) : hex.length = 2 * string.length := by
  induction hex using unhex.induct generalizing string with
  | case1 =>
    cases h
    rfl
  | case2 => cases h
  | case3 high low rest ih =>
    simp only [unhex, Option.bind_eq_bind, Option.bind_eq_some_iff] at h
    obtain ⟨highValue, -, lowValue, -, tail, htail, hstring⟩ := h
    cases hstring
    simp only [List.length_cons, ih htail]
    omega

theorem hexDigitValue_lt {character : UInt8} {number : Nat}
    (h : hexDigitValue character = some number) : number < 16 := by
  unfold hexDigitValue at h
  split at h
  · rename_i hrange
    have := UInt8.le_iff_toNat_le.mp hrange.2
    simp only [UInt8.reduceToNat] at this
    cases h
    omega
  · split at h
    · rename_i hrange
      have := UInt8.le_iff_toNat_le.mp hrange.2
      simp only [UInt8.reduceToNat] at this
      cases h
      omega
    · split at h
      · rename_i hrange
        have := UInt8.le_iff_toNat_le.mp hrange.2
        simp only [UInt8.reduceToNat] at this
        cases h
        omega
      · cases h

theorem toUInt8_eq_zero {number : Nat} (hlt : number < 256) (h : number.toUInt8 = 0) :
    number = 0 := by
  have hnumber := congrArg UInt8.toNat h
  rwa [Nat.toUInt8_eq, UInt8.toNat_ofNat_of_lt' hlt] at hnumber

theorem neg_einval : -einval < 0 := by decide

theorem store_buffer {byte : UInt8} (hroom : written.length < bufferBytes) :
    store (fill bufferBytes 0 written) written.length byte =
      some (fill bufferBytes 0 (written ++ [byte])) :=
  store_fill hroom

theorem copyHex_spelled (start : Nat) (hunhex : unhex hex = some string) (hzero : 0 ∉ string)
    (hroom : written.length + string.length < bufferBytes) :
    copyHex start string.length hex (fill bufferBytes 0 written) written.length =
      some { rc := 0, argument := some start
             buffer := fill bufferBytes 0 (written ++ (string ++ [0]))
             position := (written ++ (string ++ [0])).length } := by
  induction hex using unhex.induct generalizing string written with
  | case1 =>
    cases hunhex
    rw [List.length_nil, copyHex, store_buffer (by simpa using hroom)]
    simp
  | case2 => cases hunhex
  | case3 high low rest ih =>
    simp only [unhex, Option.bind_eq_bind, Option.bind_eq_some_iff] at hunhex
    obtain ⟨highValue, hhigh, lowValue, hlow, tail, htail, hstring⟩ := hunhex
    cases hstring
    have hbyte := List.ne_of_not_mem_cons hzero
    replace hzero := List.not_mem_of_not_mem_cons hzero
    rw [List.length_cons] at hroom ⊢
    have hnonzero : highValue * 16 + lowValue ≠ 0 := by
      intro h
      rw [h] at hbyte
      exact hbyte rfl
    have hnext := ih htail hzero (by
      rw [List.length_append, List.length_singleton]
      omega : (written ++ [(highValue * 16 + lowValue).toUInt8]).length + tail.length < _)
    rw [List.length_append, List.length_singleton] at hnext
    simp only [copyHex, hhigh, hlow, if_neg hnonzero]
    rw [store_buffer (by omega)]
    simpa using hnext

theorem copyHex_total (start count : Nat) (hex written : Text)
    (hroom : written.length + count < bufferBytes) (hlength : hex.length = 2 * count) :
    ∃ parsed, copyHex start count hex (fill bufferBytes 0 written) written.length =
      some parsed ∧ parsed.argument = some start ∧
      (parsed.rc < 0 ∨ ∃ string, unhex hex = some string ∧ 0 ∉ string) := by
  induction count generalizing hex written with
  | zero =>
    obtain rfl := List.eq_nil_of_length_eq_zero hlength
    rw [copyHex, store_buffer (by simpa using hroom)]
    exact ⟨_, rfl, rfl, .inr ⟨[], rfl, List.not_mem_nil⟩⟩
  | succ count ih =>
    obtain ⟨high, low, rest, rfl⟩ : ∃ high low rest, hex = high :: low :: rest := by
      match hex with
      | [] => simp at hlength
      | [_] => simp at hlength; omega
      | high :: low :: rest => exact ⟨high, low, rest, rfl⟩
    simp only [copyHex]
    cases hhigh : hexDigitValue high with
    | none => exact ⟨_, rfl, rfl, .inl neg_einval⟩
    | some highValue =>
      cases hlow : hexDigitValue low with
      | none => exact ⟨_, rfl, rfl, .inl neg_einval⟩
      | some lowValue =>
        dsimp only
        split
        case isTrue => exact ⟨_, rfl, rfl, .inl neg_einval⟩
        case isFalse hnonzero =>
          rw [store_buffer (by omega)]
          obtain ⟨parsed, hparsed, hargument, hspelled⟩ :=
            ih rest (written ++ [(highValue * 16 + lowValue).toUInt8])
              (by rw [List.length_append, List.length_singleton]; omega)
              (by simp only [List.length_cons] at hlength; omega)
          rw [List.length_append, List.length_singleton] at hparsed
          refine ⟨parsed, hparsed, hargument, hspelled.imp_right ?_⟩
          rintro ⟨string, hunhex, hzero⟩
          refine ⟨(highValue * 16 + lowValue).toUInt8 :: string, ?_, ?_⟩
          · simp [unhex, hhigh, hlow, hunhex]
          · have hhigh := hexDigitValue_lt hhigh
            have hlow := hexDigitValue_lt hlow
            refine List.not_mem_cons_of_ne_of_not_mem (fun h => hnonzero ?_) hzero
            exact toUInt8_eq_zero (by omega) h.symm

theorem fits_iff {length position : Nat} (hlength : length ≤ sizeMax / 2)
    (hposition : position ≤ bufferBytes) :
    (bufferBytes < wrap64 (length + 1) ∨ sub64 (sub64 bufferBytes length) 1 < position) ↔
      ¬ position + length < bufferBytes := by
  have hwrap : wrap64 (length + 1) = length + 1 := wrap64_of_lt (by unfold sizeMax at hlength; omega)
  rw [hwrap]
  unfold bufferBytes at hposition ⊢
  by_cases hsmall : length + 1 ≤ 4096
  · have hrest : sub64 4096 length = 4096 - length := sub64_of_le (by omega) (by decide)
    rw [hrest, sub64_of_le (by omega) (by omega)]
    omega
  · omega

theorem parseHex_spelled (hunhex : unhex hex = some string) (hzero : 0 ∉ string)
    (hroom : written.length + string.length < bufferBytes) :
    parseHex string.length hex (fill bufferBytes 0 written) written.length =
      some { rc := 0, argument := some written.length
             buffer := fill bufferBytes 0 (written ++ (string ++ [0]))
             position := (written ++ (string ++ [0])).length } := by
  have hsmall : string.length < 4096 := by
    unfold bufferBytes at hroom
    omega
  have hlength : ¬ (sizeMax / 2 < string.length ∨ hex.length ≠ wrap64 (string.length * 2)) := by
    rw [wrap64_of_lt (by omega), length_of_unhex hunhex]
    unfold sizeMax
    omega
  rw [parseHex, if_neg hlength, if_neg, copyHex_spelled _ hunhex hzero hroom]
  rw [fits_iff (by unfold sizeMax; omega) (by omega)]
  exact not_not_intro hroom

theorem parseHex_total (length : Nat) (hex : Text) (hwritten : written.length ≤ bufferBytes) :
    ∃ parsed, parseHex length hex (fill bufferBytes 0 written) written.length = some parsed ∧
      (parsed.argument = none ∨ parsed.argument = some written.length) ∧
      (parsed.rc < 0 ∨ ∃ string, length = string.length ∧ unhex hex = some string ∧ 0 ∉ string ∧
        written.length + string.length < bufferBytes) := by
  unfold parseHex
  split
  case isTrue => exact ⟨_, rfl, .inl rfl, .inl neg_einval⟩
  case isFalse hlength =>
    obtain ⟨hhalf, hdouble⟩ := not_or.mp hlength
    rw [Nat.not_lt] at hhalf
    rw [ne_eq, not_not, wrap64_of_lt (by unfold sizeMax at hhalf; omega)] at hdouble
    split
    case isTrue => exact ⟨_, rfl, .inl rfl, .inl (by decide : -e2big < 0)⟩
    case isFalse hfits =>
      rw [fits_iff hhalf hwritten, not_not] at hfits
      obtain ⟨parsed, hparsed, hargument, hspelled⟩ :=
        copyHex_total written.length length hex written hfits (by omega)
      refine ⟨parsed, hparsed, .inr hargument, hspelled.imp_right ?_⟩
      rintro ⟨string, hunhex, hzero⟩
      have hstring := length_of_unhex hunhex
      exact ⟨string, by omega, hunhex, hzero, by omega⟩

theorem colon_not_decimal : isDecimal colon = false := by decide

theorem parseCmdv1xToken_digits (hne : digits ≠ [])
    (hdigits : ∀ character ∈ digits, isDecimal character = true)
    (hrest : ∀ character, rest.head? = some character → isDecimal character = false)
    (buffer : Text) (position : Nat) :
    parseCmdv1xToken (digits ++ rest) buffer position =
      if value 10 digits ≤ sizeMax ∧ rest.head? = some colon then
        parseHex (value 10 digits) rest.tail buffer position
      else if value 10 digits ≤ sizeMax then some { rc := -einval, buffer, position }
      else some { rc := -eoverflow, buffer, position } := by
  obtain ⟨first, digits, rfl⟩ := List.exists_cons_of_ne_nil hne
  have hfirst := hdigits first (List.mem_cons_self ..)
  have hread := readLength_digits hdigits hrest (Nat.zero_le _)
  rw [show extend 0 (first :: digits) = value 10 (first :: digits) from rfl] at hread
  rw [parseCmdv1xToken, if_neg (by simp [hfirst]), hread]
  by_cases hfits : value 10 (first :: digits) ≤ sizeMax
  · rw [if_pos hfits, if_pos hfits]
    cases rest with
    | nil => simp
    | cons character hex =>
      by_cases hcolon : character = colon
      · simp [hcolon, hfits]
      · simp [hcolon]
  · simp [hfits]

theorem parseCmdv1xToken_spelled (hspells : Spells token string)
    (hroom : written.length + string.length < bufferBytes) :
    parseCmdv1xToken token (fill bufferBytes 0 written) written.length =
      some { rc := 0, argument := some written.length
             buffer := fill bufferBytes 0 (written ++ (string ++ [0]))
             position := (written ++ (string ++ [0])).length } := by
  obtain ⟨digits, hex, hne, hdigits, rfl, hvalue, hunhex, hzero⟩ := hspells
  have hcolon : ∀ character, (colon :: hex).head? = some character →
      isDecimal character = false := by
    rintro character h
    cases h
    exact colon_not_decimal
  have hfits : value 10 digits ≤ sizeMax := by
    rw [hvalue]
    unfold bufferBytes at hroom
    unfold sizeMax
    omega
  rw [parseCmdv1xToken_digits hne hdigits hcolon, if_pos ⟨hfits, rfl⟩, hvalue, List.tail_cons]
  exact parseHex_spelled hunhex hzero hroom

theorem parseCmdv1xToken_total (token : Text) (hwritten : written.length ≤ bufferBytes) :
    ∃ parsed, parseCmdv1xToken token (fill bufferBytes 0 written) written.length = some parsed ∧
      (parsed.argument = none ∨ parsed.argument = some written.length) ∧
      (parsed.rc < 0 ∨ ∃ string, Spells token string ∧
        written.length + string.length < bufferBytes) := by
  by_cases hne : token.takeWhile isDecimal = []
  · rw [parseCmdv1xToken, if_pos]
    · exact ⟨_, rfl, .inl rfl, .inl neg_einval⟩
    · cases token with
      | nil => rfl
      | cons first rest =>
        simp only [List.head?_cons, Option.all_some]
        by_contra hfirst
        simp_all
  · have hdigits : ∀ character ∈ token.takeWhile isDecimal, isDecimal character = true :=
      List.all_eq_true.mp List.all_takeWhile
    have hrest : ∀ character, (token.dropWhile isDecimal).head? = some character →
        isDecimal character = false := by
      intro character h
      have := List.head?_dropWhile_not isDecimal token
      rw [h] at this
      exact this
    have hparse := parseCmdv1xToken_digits hne hdigits hrest (fill bufferBytes 0 written)
      written.length
    rw [List.takeWhile_append_dropWhile] at hparse
    rw [hparse]
    split
    case isTrue hcolon =>
      obtain ⟨parsed, hparsed, hargument, hspelled⟩ :=
        parseHex_total (value 10 (token.takeWhile isDecimal)) (token.dropWhile isDecimal).tail
          hwritten
      refine ⟨parsed, hparsed, hargument, hspelled.imp_right ?_⟩
      rintro ⟨string, hlength, hunhex, hzero, hroom⟩
      refine ⟨string, ⟨token.takeWhile isDecimal, (token.dropWhile isDecimal).tail, hne, hdigits,
        ?_, hlength, hunhex, hzero⟩, hroom⟩
      rw [List.cons_head?_tail hcolon.2, List.takeWhile_append_dropWhile]
    case isFalse =>
      split
      case isTrue => exact ⟨_, rfl, .inl rfl, .inl neg_einval⟩
      case isFalse => exact ⟨_, rfl, .inl rfl, .inl (by decide : -eoverflow < 0)⟩

end Token

end NativeInitLab.Cmdproto.Decoder
