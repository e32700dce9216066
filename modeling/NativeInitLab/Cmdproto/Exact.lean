import NativeInitLab.Cmdproto.Decode

namespace NativeInitLab.Cmdproto.Decoder

open Numerals
open Device (einval)

/-! The decoder takes exactly the token lists that spell strings, and gives the strings back. -/

section Layout

variable {strings : List Text}

def starts (offset : Nat) : List Text → List Nat
  | [] => []
  | string :: rest => offset :: starts (offset + (string ++ [0]).length) rest

theorem length_starts (offset : Nat) (strings : List Text) :
    (starts offset strings).length = strings.length := by
  induction strings generalizing offset with
  | nil => rfl
  | cons string rest ih => rw [starts, List.length_cons, List.length_cons, ih]

theorem layout_cons (string : Text) (rest : List Text) :
    layout (string :: rest) = string ++ [0] ++ layout rest := List.flatMap_cons

theorem layout_concat (strings : List Text) (string : Text) :
    layout (strings ++ [string]) = layout strings ++ (string ++ [0]) := by
  simp [layout]

theorem length_layout (strings : List Text) :
    (layout strings).length = (strings.map fun string => string.length + 1).sum := by
  simp [layout, List.length_flatMap]

theorem starts_concat (offset : Nat) (strings : List Text) (string : Text) :
    starts offset (strings ++ [string]) =
      starts offset strings ++ [offset + (layout strings).length] := by
  induction strings generalizing offset with
  | nil => rfl
  | cons first rest ih =>
    simp only [List.cons_append, starts, ih, layout_cons, List.length_append, Nat.add_assoc]

def laid (strings : List Text) : Decoded where
  argv := fill maxArgs none ((starts 0 strings).map some)
  buffer := fill bufferBytes 0 (layout strings)

theorem length_argv (hcount : strings.length ≤ maxArgs) : (laid strings).argv.length = maxArgs :=
  length_fill (by rwa [List.length_map, length_starts])

theorem store_argv (hcount : strings.length < maxArgs) (argument : Option Nat) :
    store (laid strings).argv strings.length argument =
      some (fill maxArgs none ((starts 0 strings).map some ++ [argument])) := by
  have hlength : ((starts 0 strings).map some).length = strings.length := by
    rw [List.length_map, length_starts]
  have hstore : store (laid strings).argv _ argument = _ := store_fill (hlength ▸ hcount)
  rwa [hlength] at hstore

theorem store_start (hcount : strings.length < maxArgs) (string : Text) :
    store (laid strings).argv strings.length (some (layout strings).length) =
      some (laid (strings ++ [string])).argv := by
  rw [store_argv hcount, laid, starts_concat, List.map_append, Nat.zero_add]
  rfl

theorem store_null (hcount : strings.length < maxArgs) :
    store (laid strings).argv strings.length none = some (laid strings).argv := by
  rw [store_argv hcount, fill_append_zero (by rwa [List.length_map, length_starts])]
  rfl

theorem firstByte_laid (string : Text) (rest : List Text) :
    (laid (string :: rest)).firstByte = some (string.headD 0) := by
  cases string with
  | nil => rfl
  | cons byte string => rfl

end Layout

section Loop

variable {tokens strings done : List Text}

theorem Spells.zero {token string : Text} (hspells : Spells token string) : 0 ∉ string := by
  obtain ⟨_, _, _, _, _, _, _, hzero⟩ := hspells
  exact hzero

theorem headD_ne_zero {string : Text} (hne : string ≠ []) (hzero : 0 ∉ string) :
    string.headD 0 ≠ 0 := by
  cases string with
  | nil => exact absurd rfl hne
  | cons byte string => exact (List.ne_of_not_mem_cons hzero).symm

theorem decodeTokens_named {string : Text} {rest : List Text}
    (hcount : (string :: rest).length < maxArgs) (hne : string ≠ []) (hzero : 0 ∉ string)
    (position : Nat) :
    decodeTokens [] (string :: rest).length (laid (string :: rest)) position =
      some (((string :: rest).length : Int),
        { laid (string :: rest) with argc := (string :: rest).length }) := by
  rw [decodeTokens, store_null hcount]
  change (do
    let first : UInt8 ← (laid (string :: rest)).firstByte
    if first = 0 then _ else _) = _
  rw [firstByte_laid]
  exact if_neg (headD_ne_zero hne hzero)

theorem decodeTokens_unnamed {rest : List Text} (hcount : ([] :: rest).length < maxArgs)
    (position : Nat) :
    decodeTokens [] ([] :: rest).length (laid ([] :: rest)) position =
      some (-einval, { laid ([] :: rest) with argc := 0 }) := by
  rw [decodeTokens, store_null hcount]
  rfl

theorem decodeTokens_cons {token string : Text} (hcount : done.length < maxArgs)
    (hspells : Spells token string)
    (hfits : (layout (done ++ [string])).length ≤ bufferBytes) :
    decodeTokens (token :: tokens) done.length (laid done) (layout done).length =
      decodeTokens tokens (done ++ [string]).length (laid (done ++ [string]))
        (layout (done ++ [string])).length := by
  have hroom : (layout done).length + string.length < bufferBytes := by
    rw [layout_concat, List.length_append, List.length_append, List.length_singleton] at hfits
    omega
  rw [decodeTokens, show (laid done).buffer = fill bufferBytes 0 (layout done) from rfl,
    parseCmdv1xToken_spelled hspells hroom]
  change (do
    let argv ← store (laid done).argv done.length (some (layout done).length)
    _) = _
  rw [store_start hcount string, ← layout_concat, List.length_append]
  rfl

theorem decodeTokens_refused {token : Text} {parsed : Parsed} (hcount : done.length < maxArgs)
    (hparsed : parseCmdv1xToken token (laid done).buffer (layout done).length = some parsed)
    (hargument : parsed.argument = none ∨ parsed.argument = some (layout done).length)
    (hrefused : parsed.rc < 0) :
    ∃ decoded, decodeTokens (token :: tokens) done.length (laid done) (layout done).length =
      some (parsed.rc, decoded) ∧ decoded.argc = 0 := by
  have hassigned : ∃ argv, assign (laid done).argv done.length parsed.argument = some argv ∧
      argv.length = maxArgs := by
    rcases hargument with hnone | hsome
    · rw [hnone]
      exact ⟨_, rfl, length_argv (by omega)⟩
    · rw [hsome, assign, store_start hcount []]
      exact ⟨_, rfl, length_argv (by rw [List.length_append, List.length_singleton]; omega)⟩
  obtain ⟨argv, hargv, hlength⟩ := hassigned
  have hfirst : store argv 0 none = some (argv.set 0 none) := if_pos (by rw [hlength]; decide)
  refine ⟨{ argv := argv.set 0 none, buffer := parsed.buffer, argc := 0 }, ?_, rfl⟩
  rw [decodeTokens, hparsed]
  simp only [Option.bind_eq_bind, Option.bind_some, hargv, if_pos hrefused, hfirst]
  rfl

theorem decodeTokens_spelled (hspelled : List.Forall₂ Spells tokens strings)
    (hzero : ∀ string ∈ done, 0 ∉ string) (hcount : done.length + tokens.length < maxArgs)
    (hfits : (layout (done ++ strings)).length ≤ bufferBytes) (hne : done ++ strings ≠ [])
    (hnamed : (done ++ strings).head? ≠ some []) :
    decodeTokens tokens done.length (laid done) (layout done).length =
      some (((done ++ strings).length : Int),
        { laid (done ++ strings) with argc := (done ++ strings).length }) := by
  induction hspelled generalizing done with
  | nil =>
    rw [List.append_nil] at hne hnamed ⊢
    obtain ⟨string, rest, rfl⟩ := List.exists_cons_of_ne_nil hne
    refine decodeTokens_named (by simpa using hcount) ?_ (hzero _ (List.mem_cons_self ..)) _
    exact fun h => hnamed (congrArg some h)
  | @cons token string tokens strings hspells _ ih =>
    rw [List.length_cons] at hcount
    have happend : done ++ string :: strings = done ++ [string] ++ strings := by
      rw [List.append_assoc, List.singleton_append]
    rw [happend] at hfits hne hnamed ⊢
    have hprefix : (layout (done ++ [string])).length ≤ bufferBytes := by
      rw [length_layout, List.map_append, List.sum_append] at hfits
      rw [length_layout]
      omega
    rw [decodeTokens_cons (by omega) hspells hprefix]
    refine ih ?_ (by rw [List.length_append, List.length_singleton]; omega) hfits hne hnamed
    intro other hother
    rcases List.mem_append.mp hother with hdone | hlast
    · exact hzero other hdone
    · rw [List.mem_singleton.mp hlast]
      exact hspells.zero

theorem decodeTokens_total (hzero : ∀ string ∈ done, 0 ∉ string)
    (hcount : done.length + tokens.length < maxArgs)
    (hfits : (layout done).length ≤ bufferBytes) (hne : done ≠ [] ∨ tokens ≠ []) :
    ∃ rc decoded, decodeTokens tokens done.length (laid done) (layout done).length =
      some (rc, decoded) ∧
      ((rc < 0 ∧ decoded.argc = 0) ∨ ∃ strings, List.Forall₂ Spells tokens strings ∧
        (layout (done ++ strings)).length ≤ bufferBytes ∧
        (done ++ strings).head? ≠ some []) := by
  induction tokens generalizing done with
  | nil =>
    obtain ⟨string, rest, rfl⟩ :=
      List.exists_cons_of_ne_nil (hne.resolve_right fun h => h rfl)
    by_cases hstring : string = []
    · subst hstring
      exact ⟨_, _, decodeTokens_unnamed (by simpa using hcount) _, .inl ⟨neg_einval, rfl⟩⟩
    · refine ⟨_, _, decodeTokens_named (by simpa using hcount) hstring
        (hzero _ (List.mem_cons_self ..)) _, .inr ⟨[], .nil, ?_, ?_⟩⟩
      · rwa [List.append_nil]
      · simpa using hstring
  | cons token tokens ih =>
    rw [List.length_cons] at hcount
    obtain ⟨parsed, hparsed, hargument, hspelled⟩ :=
      parseCmdv1xToken_total token hfits
    rcases hspelled with hrefused | ⟨string, hspells, hroom⟩
    · obtain ⟨decoded, hdecoded, hargc⟩ :=
        decodeTokens_refused (by omega) hparsed hargument hrefused
      exact ⟨parsed.rc, decoded, hdecoded, .inl ⟨hrefused, hargc⟩⟩
    · have hprefix : (layout (done ++ [string])).length ≤ bufferBytes := by
        rw [layout_concat, List.length_append, List.length_append, List.length_singleton]
        omega
      obtain ⟨rc, decoded, hdecoded, hcases⟩ := @ih (done ++ [string]) (by
          intro other hother
          rcases List.mem_append.mp hother with hdone | hlast
          · exact hzero other hdone
          · rw [List.mem_singleton.mp hlast]
            exact hspells.zero)
        (by rw [List.length_append, List.length_singleton]; omega) hprefix (.inl (by simp))
      refine ⟨rc, decoded, ?_, hcases.imp_right ?_⟩
      · rw [decodeTokens_cons (by omega) hspells hprefix, hdecoded]
      · rintro ⟨strings, hspelled, hfits, hnamed⟩
        rw [List.append_assoc, List.singleton_append] at hfits hnamed
        exact ⟨string :: strings, .cons hspells hspelled, hfits, hnamed⟩

end Loop

section Arguments

variable {strings : List Text}

theorem stringAt_fill {before after string : Text} (hzero : 0 ∉ string) :
    stringAt (before ++ (string ++ [0] ++ after)) before.length = string := by
  have hall : ∀ byte ∈ string, (byte != 0) = true := by
    intro byte hbyte
    rw [bne_iff_ne]
    rintro rfl
    exact hzero hbyte
  rw [stringAt, List.drop_left, List.append_assoc, List.takeWhile_append_of_pos hall]
  simp

theorem map_stringAt (hzero : ∀ string ∈ strings, 0 ∉ string) (before after : Text) :
    (starts before.length strings).map (stringAt (before ++ (layout strings ++ after))) =
      strings := by
  induction strings generalizing before with
  | nil => rfl
  | cons string rest ih =>
    obtain ⟨hstring, hrest⟩ := List.forall_mem_cons.mp hzero
    have hbuffer : before ++ (layout (string :: rest) ++ after) =
        before ++ (string ++ [0] ++ (layout rest ++ after)) := by
      rw [layout_cons, List.append_assoc]
    rw [starts, List.map_cons, hbuffer, stringAt_fill hstring, ← List.append_assoc,
      ← List.length_append, ih hrest]

theorem takeWhile_fill {A : Type} (capacity : Nat) (values : List A) :
    (fill capacity none (values.map some)).takeWhile Option.isSome = values.map some := by
  have hall : ∀ value ∈ values.map some, Option.isSome value = true := by
    intro value hvalue
    obtain ⟨_, -, rfl⟩ := List.mem_map.mp hvalue
    rfl
  rw [fill, List.takeWhile_append_of_pos hall]
  cases capacity - (values.map some).length with
  | zero => exact List.append_nil _
  | succ room => exact List.append_nil _

theorem arguments_laid (hzero : ∀ string ∈ strings, 0 ∉ string) (argc : Nat) :
    ({ laid strings with argc } : Decoded).arguments = strings := by
  change ((fill maxArgs none ((starts 0 strings).map some)).takeWhile Option.isSome).map _ = _
  rw [takeWhile_fill, List.map_map]
  exact map_stringAt hzero [] _

theorem terminated_laid (hcount : strings.length < maxArgs) (argc : Nat) :
    ({ laid strings with argc } : Decoded).argv[strings.length]? = some none := by
  have hlength : ((starts 0 strings).map some).length = strings.length := by
    rw [List.length_map, length_starts]
  change (fill maxArgs none ((starts 0 strings).map some))[strings.length]? = _
  rw [fill, List.getElem?_append_right (by omega), hlength, Nat.sub_self,
    List.getElem?_replicate, if_pos (by omega)]

end Arguments

structure Exact (tokens : List Text) (rc : Int) (decoded : Decoded) : Prop where
  accepts : 0 ≤ rc ↔ ∃ strings, Accepted tokens strings
  refused : rc < 0 → decoded.argc = 0
  taken : ∀ strings, Accepted tokens strings → rc = tokens.length ∧
    decoded.argc = tokens.length ∧ decoded.arguments = strings ∧
    decoded.argv[tokens.length]? = some none

theorem zero_free {tokens strings : List Text} (hspelled : List.Forall₂ Spells tokens strings) :
    ∀ string ∈ strings, 0 ∉ string := by
  induction hspelled with
  | nil => exact fun _ h => absurd h List.not_mem_nil
  | cons hspells _ ih =>
    intro string hstring
    rcases List.mem_cons.mp hstring with rfl | hrest
    · exact hspells.zero
    · exact ih string hrest

theorem decodeV1x_accepted {tokens strings : List Text} (haccepted : Accepted tokens strings) :
    decodeV1x tokens = some ((tokens.length : Int),
      { laid strings with argc := tokens.length }) := by
  obtain ⟨hcount, hspelled, hnamed, hfits⟩ := haccepted
  have hlength := hspelled.length_eq
  have hne : strings ≠ [] := by
    rintro rfl
    rw [hlength] at hcount
    exact absurd hcount.1 (by decide)
  rw [decodeV1x, if_neg (by unfold maxArgs; omega), hlength]
  rw [← length_layout] at hfits
  have hzero : ∀ string ∈ ([] : List Text), 0 ∉ string := nofun
  exact decodeTokens_spelled hspelled hzero (by unfold maxArgs; simp; omega) hfits hne hnamed

theorem exact_decodeV1x (tokens : List Text) :
    ∃ rc decoded, decodeV1x tokens = some (rc, decoded) ∧ Exact tokens rc decoded := by
  by_cases haccepted : ∃ strings, Accepted tokens strings
  · obtain ⟨strings, haccepted⟩ := haccepted
    refine ⟨_, _, decodeV1x_accepted haccepted, ?_, fun h => absurd h (by omega), ?_⟩
    · exact ⟨fun _ => ⟨strings, haccepted⟩, fun _ => by omega⟩
    · intro others hothers
      have hsame := (decodeV1x_accepted hothers).symm.trans (decodeV1x_accepted haccepted)
      have hdecoded := congrArg Prod.snd (Option.some.inj hsame)
      dsimp only at hdecoded
      rw [← hdecoded]
      have hlength := hothers.spelled.length_eq
      refine ⟨rfl, rfl, arguments_laid (zero_free hothers.spelled) _, ?_⟩
      rw [hlength]
      refine terminated_laid ?_ _
      have := hothers.count
      unfold maxArgs
      omega
  · have hnone : ∀ strings, ¬ Accepted tokens strings := fun strings h => haccepted ⟨strings, h⟩
    suffices h : ∃ rc decoded, decodeV1x tokens = some (rc, decoded) ∧ rc < 0 ∧ decoded.argc = 0 by
      obtain ⟨rc, decoded, hdecoded, hrc, hargc⟩ := h
      exact ⟨rc, decoded, hdecoded, ⟨fun h => absurd h (by omega), fun h => absurd h haccepted⟩,
        fun _ => hargc, fun strings h => absurd h (hnone strings)⟩
    by_cases hcount : tokens.length = 0 ∨ maxArgs ≤ tokens.length
    · exact ⟨-einval, {}, if_pos hcount, neg_einval, rfl⟩
    · have hlt : tokens.length < maxArgs := by omega
      have hne : tokens ≠ [] := by
        rintro rfl
        exact hcount (.inl rfl)
      have hzero : ∀ string ∈ ([] : List Text), 0 ∉ string := nofun
      obtain ⟨rc, decoded, hdecoded, hcases⟩ :=
        decodeTokens_total hzero (by simpa using hlt) (by decide) (.inr hne)
      rw [decodeV1x, if_neg hcount]
      refine ⟨rc, decoded, hdecoded, ?_⟩
      rcases hcases with hrefused | ⟨strings, hspelled, hfits, hnamed⟩
      · exact hrefused
      · rw [List.nil_append, length_layout] at hfits
        refine absurd ⟨?_, hspelled, hnamed, hfits⟩ (hnone strings)
        unfold maxArgs at hlt
        omega

theorem hexDigitValue_digit {number : Nat} (hlt : number < 16) :
    hexDigitValue (digit number) = some number := by
  revert number
  decide

theorem unhex_bytesHex (data : Text) : unhex (Host.bytesHex data) = some data := by
  induction data with
  | nil => rfl
  | cons byte data ih =>
    have hbyte : byte.toNat < 256 := byte.toNat_lt
    have hjoin : byte.toNat / 16 * 16 + byte.toNat % 16 = byte.toNat := by omega
    change unhex (digit (byte.toNat / 16) :: digit (byte.toNat % 16) :: Host.bytesHex data) = _
    rw [unhex, hexDigitValue_digit (by omega), hexDigitValue_digit (by omega), ih]
    simp only [Option.bind_eq_bind, Option.bind_some, Option.pure_def, hjoin, Nat.toUInt8_eq,
      UInt8.ofNat_toNat]

theorem isDecimal_of_canonical {digits : Text} (h : canonical isDecimal digits = true) :
    ∀ character ∈ digits, isDecimal character = true := by
  rcases Bool.or_eq_true _ _ |>.mp h with hzero | hdigits
  · rw [eq_of_beq hzero]
    intro character hcharacter
    rw [List.mem_singleton.mp hcharacter]
    decide
  · exact List.all_eq_true.mp (Bool.and_eq_true _ _ |>.mp hdigits).2

theorem spells_spell {data : Text} (hzero : 0 ∉ data) : Spells (Host.spell data) data := by
  have hcanonical := canonical_decimal data.length
  refine ⟨decimal data.length, Host.bytesHex data, ?_, ?_, ?_, value_decimal _,
    unhex_bytesHex data, hzero⟩
  · intro hnil
    rw [hnil] at hcanonical
    exact absurd hcanonical (by decide)
  · exact isDecimal_of_canonical hcanonical
  · rw [Host.spell, List.append_assoc]
    rfl

theorem zero_ne_ofNat {number : Nat} (hpos : 0 < number) (hlt : number < 256) :
    (0 : UInt8) ≠ UInt8.ofNat number := by
  intro h
  have hnumber := congrArg UInt8.toNat h
  rw [UInt8.toNat_ofNat_of_lt' hlt] at hnumber
  exact absurd hnumber.symm (Nat.ne_of_gt hpos)

theorem zero_not_mem_utf8EncodeChar {character : Char} (hne : character ≠ '\x00') :
    0 ∉ String.utf8EncodeChar character := by
  have hval : 0 < character.val.toNat := by
    refine Nat.pos_of_ne_zero fun h => hne (Char.ext ?_)
    exact UInt32.toNat.inj h
  unfold String.utf8EncodeChar
  dsimp only
  split
  · simp only [List.mem_singleton]
    exact zero_ne_ofNat hval (by omega)
  · split
    · simp only [List.mem_cons, List.not_mem_nil, or_false, not_or]
      exact ⟨zero_ne_ofNat (by omega) (by omega), zero_ne_ofNat (by omega) (by omega)⟩
    · split
      · simp only [List.mem_cons, List.not_mem_nil, or_false, not_or]
        exact ⟨zero_ne_ofNat (by omega) (by omega), zero_ne_ofNat (by omega) (by omega),
          zero_ne_ofNat (by omega) (by omega)⟩
      · simp only [List.mem_cons, List.not_mem_nil, or_false, not_or]
        exact ⟨zero_ne_ofNat (by omega) (by omega), zero_ne_ofNat (by omega) (by omega),
          zero_ne_ofNat (by omega) (by omega), zero_ne_ofNat (by omega) (by omega)⟩

theorem zero_not_mem_utf8 {argument : Host.Str} (hnul : '\x00' ∉ argument) :
    0 ∉ Host.utf8 argument := by
  intro hmem
  obtain ⟨character, hcharacter, hzero⟩ := List.mem_flatMap.mp hmem
  refine zero_not_mem_utf8EncodeChar ?_ hzero
  rintro rfl
  exact hnul hcharacter

theorem utf8_eq_nil {argument : Host.Str} (h : Host.utf8 argument = []) : argument = [] := by
  cases argument with
  | nil => rfl
  | cons character rest =>
    exact absurd (List.append_eq_nil_iff.mp h).1 String.utf8EncodeChar_ne_nil

theorem decode_v1x_is_exact :
    (∀ tokens, ∃ rc decoded, decodeV1x tokens = some (rc, decoded) ∧ Exact tokens rc decoded) ∧
    ∀ arguments : List Host.Str, 1 ≤ arguments.length → arguments.length ≤ 31 →
      (∀ argument ∈ arguments, '\x00' ∉ argument) → arguments.head? ≠ some [] →
      (arguments.map fun argument => (Host.utf8 argument).length + 1).sum ≤ bufferBytes →
      ∃ tokens decoded, arguments.mapM Host.encodeCmdv1xArg = .ok tokens ∧
        decodeV1x tokens = some ((arguments.length : Int), decoded) ∧
        decoded.argc = arguments.length ∧ decoded.arguments = arguments.map Host.utf8 ∧
        decoded.argv[arguments.length]? = some none := by
  refine ⟨exact_decodeV1x, ?_⟩
  intro arguments hone hmost hnul hnamed hfits
  have haccepted : Accepted (arguments.map fun argument => Host.spell (Host.utf8 argument))
      (arguments.map Host.utf8) := {
    count := by rw [List.length_map]; exact ⟨hone, hmost⟩
    spelled := by
      rw [List.forall₂_map_left_iff, List.forall₂_map_right_iff, List.forall₂_same]
      exact fun argument hargument => spells_spell (zero_not_mem_utf8 (hnul argument hargument))
    named := by
      rw [List.head?_map]
      intro h
      obtain ⟨argument, hargument, hnil⟩ := Option.map_eq_some_iff.mp h
      rw [utf8_eq_nil hnil] at hargument
      exact hnamed hargument
    fits := by rwa [List.map_map] }
  obtain ⟨rc, decoded, hdecoded, hexact⟩ := exact_decodeV1x
    (arguments.map fun argument => Host.spell (Host.utf8 argument))
  obtain ⟨rfl, hargc, harguments, hnull⟩ := hexact.taken _ haccepted
  rw [List.length_map] at hdecoded hargc hnull
  exact ⟨_, decoded, Host.encodeCmdv1xArg_of_nul_free hnul, hdecoded, hargc, harguments, hnull⟩

theorem decode_v1x_is_exact_for_echo :
    ∃ tokens decoded, ["echo".toList, "a b".toList].mapM Host.encodeCmdv1xArg = .ok tokens ∧
      decodeV1x tokens = some (2, decoded) ∧ decoded.argc = 2 ∧
      decoded.arguments = ["echo".toList, "a b".toList].map Host.utf8 ∧
      decoded.argv[2]? = some none :=
  decode_v1x_is_exact.2 ["echo".toList, "a b".toList] (by decide) (by decide) (by decide)
    (by decide) (by decide)

end NativeInitLab.Cmdproto.Decoder
