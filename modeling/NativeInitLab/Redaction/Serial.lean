import Mathlib.Algebra.Group.Nat.Defs
import Mathlib.Data.List.Sort
import NativeInitLab.Library.Substitution

namespace NativeInitLab.Redaction

open Substitution

/-! The redactor of ADB serials.  Texts are lists of code points. -/

abbrev Text := List Nat

def ascii (text : String) : Text := text.toList.map Char.toNat

def alphanumeric (c : Nat) : Bool :=
  65 ≤ c && c ≤ 90 || 97 ≤ c && c ≤ 122 || 48 ≤ c && c ≤ 57

def tokenChar (c : Nat) : Bool := alphanumeric c || c == 46 || c == 95 || c == 58 || c == 45

def isDigest (text : Text) : Bool :=
  text.length == 64 && text.all fun c => 48 ≤ c && c ≤ 57 || 97 ≤ c && c ≤ 102

def isSerial (text : Text) : Bool :=
  text.length != 0 && text.length ≤ 256 && text.all fun c => 33 ≤ c && c ≤ 126

def isScalar (c : Nat) : Bool := c < 0x110000 && !(0xD800 ≤ c && c ≤ 0xDFFF)

/-- The hexadecimal SHA-256 of a text, and the decoder that replaces malformed bytes. -/
structure Platform where
  sha256 : Text → Text
  sha256_digest : ∀ text, isDigest (sha256 text) = true
  decode : List UInt8 → Text
  decode_scalar : ∀ bytes, (decode bytes).all isScalar = true

def marker (digest : Text) : Text := ascii "<A90-ADB-SERIAL-SHA256:" ++ digest ++ ascii ">"

inductive Value
  | str (text : Text)
  | bytes (bytes : List UInt8)
  | object (rendered : Text)

structure SerialRedactor (platform : Platform) where
  hashes : List Text := []
  secrets : List (Text × Text) := []
  hashes_digest : ∀ digest ∈ hashes, isDigest digest = true
  secrets_exact : ∀ item ∈ secrets,
    isSerial item.1 = true ∧ item.2 = platform.sha256 item.1 ∧ item.2 ∈ hashes

section Definitions

variable {β : Type} {platform : Platform}

namespace SerialRedactor

def tokenReplacement (redactor : SerialRedactor platform) (view : View Nat β) (token : List β) :
    List β :=
  let digest := platform.sha256 (token.map view.code)
  if redactor.hashes.contains digest then (marker digest).map view.fresh else token

def flush (redactor : SerialRedactor platform) (view : View Nat β) (token : List β) : List β :=
  if token.length = 0 then [] else redactor.tokenReplacement view token

def joins (view : View Nat β) (token : List β) (c : β) : Bool :=
  token.length != 0 && token.length < 256 && tokenChar (view.code c)

/-- The substitution at every match of `[A-Za-z0-9][A-Za-z0-9._:-]{0,255}`, of which `token` is
read so far. -/
def subTokens (redactor : SerialRedactor platform) (view : View Nat β) : List β → List β → List β
  | token, [] => redactor.flush view token
  | token, c :: rest =>
    if joins view token c then redactor.subTokens view (token ++ [c]) rest
    else redactor.flush view token ++
      if alphanumeric (view.code c) then redactor.subTokens view [c] rest
      else c :: redactor.subTokens view [] rest

def longestFirst (redactor : SerialRedactor platform) : List (Text × Text) :=
  redactor.secrets.insertionSort fun first second => second.1.length ≤ first.1.length

def replaceSecrets (view : View Nat β) (items : List (Text × Text)) (text : List β) : List β :=
  items.foldl (fun text item => replaceAll view item.1 (marker item.2) 0 text) text

def redact (redactor : SerialRedactor platform) (view : View Nat β) (text : List β) : List β :=
  redactor.subTokens view [] (replaceSecrets view redactor.longestFirst text)

def text (redactor : SerialRedactor platform) : Value → Text
  | .str text => redactor.redact plain text
  | .bytes bytes => redactor.redact plain (platform.decode bytes)
  | .object rendered => redactor.redact plain rendered

def argv (redactor : SerialRedactor platform) (values : List Value) : List Text :=
  values.map redactor.text

end SerialRedactor

def closed (token : List β) : List (List β) := if token.length = 0 then [] else [token]

/-- The matches that `subTokens` meets. -/
def tokens (view : View Nat β) : List β → List β → List (List β)
  | token, [] => closed token
  | token, c :: rest =>
    if SerialRedactor.joins view token c then tokens view (token ++ [c]) rest
    else closed token ++ tokens view (if alphanumeric (view.code c) then [c] else []) rest

def encodeChar (c : Nat) : Option (List UInt8) :=
  if c < 0x80 then some [c.toUInt8]
  else if c < 0x800 then some [(0xC0 + c / 64).toUInt8, (0x80 + c % 64).toUInt8]
  else if isScalar c = false then none
  else if c < 0x10000 then
    some [(0xE0 + c / 4096).toUInt8, (0x80 + c / 64 % 64).toUInt8, (0x80 + c % 64).toUInt8]
  else
    some [(0xF0 + c / 262144).toUInt8, (0x80 + c / 4096 % 64).toUInt8,
      (0x80 + c / 64 % 64).toUInt8, (0x80 + c % 64).toUInt8]

def encode : Text → Option (List UInt8)
  | [] => some []
  | c :: rest => do return (← encodeChar c) ++ (← encode rest)

def SerialRedactor.bytes (redactor : SerialRedactor platform) (value : List UInt8) :
    Option (List UInt8) :=
  encode (redactor.text (.bytes value))

end Definitions

/-! Both passes copy characters or put markers in. -/

section Passes

variable {β : Type} {platform : Platform} {redactor : SerialRedactor platform} {view : View Nat β}

def SerialRedactor.Puts (redactor : SerialRedactor platform) (view : View Nat β)
    (_ new : List β) : Prop :=
  ∃ digest ∈ redactor.hashes, new = (marker digest).map view.fresh

def SerialRedactor.Registered (redactor : SerialRedactor platform) (view : View Nat β)
    (token : List β) : Prop :=
  platform.sha256 (token.map view.code) ∈ redactor.hashes

def SerialRedactor.Takes (redactor : SerialRedactor platform) (view : View Nat β)
    (found : List (List β)) (token new : List β) : Prop :=
  token ∈ found ∧ token ≠ [] ∧ redactor.Registered view token ∧ redactor.Puts view token new

theorem mem_closed {token other : List β} : other ∈ closed token ↔ other = token ∧ other ≠ [] := by
  cases token with
  | nil => simp [closed]
  | cons c token => simp +contextual [closed]

theorem flush_rewrites {kind : List β → List β → Prop} {token text result : List β}
    (hkind : ∀ new, redactor.Takes view (closed token) token new → kind token new)
    (hrest : Rewrites kind text result) :
    Rewrites kind (token ++ text) (redactor.flush view token ++ result) := by
  unfold SerialRedactor.flush
  split
  case isTrue hnil =>
    rw [List.length_eq_zero_iff.mp hnil]
    exact hrest
  case isFalse hsome =>
    unfold SerialRedactor.tokenReplacement
    dsimp only
    split
    case isTrue hknown =>
      have hmem := List.contains_iff_mem.mp hknown
      have hne : token ≠ [] := fun hnil => hsome (List.length_eq_zero_iff.mpr hnil)
      exact .replace _ _ (hkind _ ⟨mem_closed.mpr ⟨rfl, hne⟩, hne, hmem, _, hmem, rfl⟩) hrest
    case isFalse => exact hrest.copies token

theorem subTokens_rewrites (redactor : SerialRedactor platform) (view : View Nat β)
    (token text : List β) :
    Rewrites (redactor.Takes view (tokens view token text)) (token ++ text)
      (redactor.subTokens view token text) := by
  induction text generalizing token with
  | nil =>
    rw [SerialRedactor.subTokens, ← List.append_nil (redactor.flush view token)]
    exact flush_rewrites (fun _ h => h) .nil
  | cons c rest ih =>
    rw [SerialRedactor.subTokens, tokens]
    split
    · have hmore := ih (token ++ [c])
      rwa [← List.append_cons] at hmore
    · refine flush_rewrites (fun _ h => ⟨List.mem_append_left _ h.1, h.2⟩) ?_
      split
      · exact (ih [c]).mono fun _ _ h => ⟨List.mem_append_right _ h.1, h.2⟩
      · exact .copy c ((ih []).mono fun _ _ h => ⟨List.mem_append_right _ h.1, h.2⟩)

theorem subTokens_puts (redactor : SerialRedactor platform) (view : View Nat β) (text : List β) :
    Rewrites (redactor.Puts view) text (redactor.subTokens view [] text) :=
  (subTokens_rewrites redactor view [] text).mono fun _ _ h => h.2.2.2

theorem replaceSecrets_induction (redactor : SerialRedactor platform) (good : List β → Prop)
    (hstep : ∀ {text result : List β},
      Rewrites (redactor.Puts view) text result → good text → good result)
    {items : List (Text × Text)} (hitems : ∀ item ∈ items, item ∈ redactor.secrets)
    {text : List β} (htext : good text) :
    good (SerialRedactor.replaceSecrets view items text) := by
  induction items generalizing text with
  | nil => exact htext
  | cons item items ih =>
    obtain ⟨hitem, hrest⟩ := List.forall_mem_cons.mp hitems
    refine ih hrest (hstep ?_ htext)
    exact (replaceAll_rewrites text).mono fun _ new hnew =>
      ⟨item.2, (redactor.secrets_exact item hitem).2.2, hnew⟩

theorem mem_longestFirst {item : Text × Text} :
    item ∈ redactor.longestFirst ↔ item ∈ redactor.secrets :=
  (List.perm_insertionSort _ _).mem_iff

theorem redact_induction (good : List β → Prop) (hstep : ∀ {text result : List β},
      Rewrites (redactor.Puts view) text result → good text → good result)
    {text : List β} (htext : good text) : good (redactor.redact view text) :=
  hstep (subTokens_puts redactor view _)
    (replaceSecrets_induction redactor good hstep (fun _ hitem => mem_longestFirst.mp hitem) htext)

theorem puts_barrier {word : List β} (hword : ∀ c ∈ word, view.code c ≠ 60 ∧ view.code c ≠ 62)
    (hinside : ∀ digest ∈ redactor.hashes, ¬ word <:+: (marker digest).map view.fresh)
    {part new : List β} (hnew : redactor.Puts view part new) : Barrier word new := by
  obtain ⟨digest, hdigest, rfl⟩ := hnew
  refine ⟨view.fresh 60, (ascii "A90-ADB-SERIAL-SHA256:" ++ digest).map view.fresh, view.fresh 62,
    ?_, fun h => (hword _ h).1 (view.code_fresh 60), fun h => (hword _ h).2 (view.code_fresh 62),
    fun h => hinside digest hdigest (h.trans ⟨[view.fresh 60], [view.fresh 62], ?_⟩)⟩
  · simp [marker, ascii]
  · simp [marker, ascii]

theorem rewrites_absent {word text result : List β} (hword : word ≠ [])
    (hbarrier : ∀ part new, redactor.Puts view part new → Barrier word new)
    (h : Rewrites (redactor.Puts view) text result) (habsent : ¬ word <:+: text) :
    ¬ word <:+: result :=
  fun hinside => habsent ((h.mono hbarrier).isInfix hword hinside)

end Passes

section Secrets

variable {platform : Platform} {redactor : SerialRedactor platform}

/-- The secret has no angle bracket and does not occur inside a marker. -/
def SerialRedactor.Plain (redactor : SerialRedactor platform) (secret : Text) : Prop :=
  60 ∉ secret ∧ 62 ∉ secret ∧ ∀ digest ∈ redactor.hashes, ¬ secret <:+: marker digest

theorem SerialRedactor.Plain.barrier {secret : Text} (hplain : redactor.Plain secret)
    {part new : Text} (hnew : redactor.Puts plain part new) : Barrier secret new := by
  refine puts_barrier (fun c hc => ⟨?_, ?_⟩) (fun digest hdigest => ?_) hnew
  · rintro rfl
    exact hplain.1 hc
  · rintro rfl
    exact hplain.2.1 hc
  · rw [show (marker digest).map plain.fresh = marker digest from List.map_id _]
    exact hplain.2.2 digest hdigest

theorem absent_replaceSecrets {item : Text × Text} (hplain : redactor.Plain item.1)
    (hword : item.1 ≠ []) {items : List (Text × Text)}
    (hitems : ∀ other ∈ items, other ∈ redactor.secrets) (hitem : item ∈ items) (text : Text) :
    ¬ item.1 <:+: SerialRedactor.replaceSecrets plain items text := by
  induction items generalizing text with
  | nil => exact nomatch hitem
  | cons other items ih =>
    obtain ⟨hother, hrest⟩ := List.forall_mem_cons.mp hitems
    rcases List.mem_cons.mp hitem with rfl | hlater
    · refine replaceSecrets_induction redactor (fun text => ¬ item.1 <:+: text)
        (rewrites_absent hword fun _ _ => hplain.barrier) hrest ?_
      have hputs : redactor.Puts plain [] (marker item.2) :=
        ⟨item.2, (redactor.secrets_exact item hother).2.2, (List.map_id _).symm⟩
      exact not_infix_replaceAll hword (hplain.barrier hputs) text
    · exact ih hrest hlater _

theorem absent_redact {secret : Text} (hsecret : secret ∈ redactor.secrets.map Prod.fst)
    (hplain : redactor.Plain secret) (text : Text) : ¬ secret <:+: redactor.redact plain text := by
  obtain ⟨item, hitem, rfl⟩ := List.mem_map.mp hsecret
  have hword : item.1 ≠ [] := by
    intro hnil
    have hserial := (redactor.secrets_exact item hitem).1
    rw [hnil] at hserial
    exact absurd hserial (by decide)
  refine rewrites_absent hword (fun _ _ => hplain.barrier) (subTokens_puts redactor plain _) ?_
  exact absent_replaceSecrets hplain hword (fun _ h => mem_longestFirst.mp h)
    (mem_longestFirst.mpr hitem) text

theorem isScalar_marker {digest : Text} (hdigest : isDigest digest = true) :
    ∀ c ∈ marker digest, isScalar c = true := by
  refine List.forall_mem_append.mpr ⟨List.forall_mem_append.mpr ⟨by decide, fun c hc => ?_⟩,
    by decide⟩
  simp only [isDigest, Bool.and_eq_true, List.all_eq_true] at hdigest
  have hhex := hdigest.2 c hc
  simp only [Bool.or_eq_true, Bool.and_eq_true, decide_eq_true_eq] at hhex
  simp only [isScalar, Bool.and_eq_true, decide_eq_true_eq, Bool.not_eq_true',
    Bool.and_eq_false_iff, decide_eq_false_iff_not]
  omega

theorem isScalar_redact (redactor : SerialRedactor platform) {text : Text}
    (htext : ∀ c ∈ text, isScalar c = true) :
    ∀ c ∈ redactor.redact plain text, isScalar c = true := by
  refine redact_induction (fun text => ∀ c ∈ text, isScalar c = true) ?_ htext
  intro text result hrewrites htext
  refine hrewrites.forall_mem ?_ htext
  rintro _ new ⟨digest, hdigest, rfl⟩
  rw [show (marker digest).map plain.fresh = marker digest from List.map_id _]
  exact isScalar_marker (redactor.hashes_digest digest hdigest)

theorem encode_isSome {text : Text} (htext : ∀ c ∈ text, isScalar c = true) :
    ∃ bytes, encode text = some bytes := by
  induction text with
  | nil => exact ⟨[], rfl⟩
  | cons c rest ih =>
    obtain ⟨hc, hrest⟩ := List.forall_mem_cons.mp htext
    obtain ⟨later, hlater⟩ := ih hrest
    have hfirst : ∃ bytes, encodeChar c = some bytes := by
      unfold encodeChar
      rw [hc]
      repeat' split
      all_goals first | exact ⟨_, rfl⟩ | contradiction
    obtain ⟨first, hfirst⟩ := hfirst
    exact ⟨first ++ later, by rw [encode, hfirst, hlater]; rfl⟩

theorem encodeChar_high {c : Nat} (hc : 0x80 ≤ c) {bytes : List UInt8}
    (h : encodeChar c = some bytes) :
    2 ≤ bytes.length ∧ ∀ byte ∈ bytes, 0x80 ≤ byte.toNat := by
  unfold encodeChar at h
  rw [if_neg (Nat.not_lt.mpr hc)] at h
  by_cases htwo : c < 0x800
  · rw [if_pos htwo] at h
    cases h
    simp [Nat.toUInt8]
    omega
  · rw [if_neg htwo, Option.ite_none_left_eq_some] at h
    obtain ⟨hscalar, h⟩ := h
    simp only [isScalar, Bool.and_eq_false_iff, decide_eq_false_iff_not, not_or] at hscalar
    by_cases hthree : c < 0x10000
    · rw [if_pos hthree] at h
      cases h
      simp [Nat.toUInt8]
      omega
    · rw [if_neg hthree] at h
      cases h
      simp [Nat.toUInt8]
      omega

/-- Bytes below 0x80 stand for themselves and for nothing else. -/
theorem encode_rewrites {word text : Text} (hword : word ≠ []) (hascii : ∀ c ∈ word, c < 0x80)
    {bytes : List UInt8} (h : encode text = some bytes) :
    Rewrites (fun _ => Barrier word) text (bytes.map UInt8.toNat) := by
  induction text generalizing bytes with
  | nil =>
    cases h
    exact .nil
  | cons c rest ih =>
    obtain ⟨first, hfirst, h⟩ := Option.bind_eq_some_iff.mp h
    obtain ⟨later, hlater, h⟩ := Option.bind_eq_some_iff.mp h
    cases h
    rw [List.map_append]
    by_cases hc : c < 0x80
    · rw [encodeChar, if_pos hc] at hfirst
      cases hfirst
      have hsame : [c.toUInt8].map UInt8.toNat = [c] := by
        simp [Nat.toUInt8]
        omega
      rw [hsame]
      exact .copy c (ih hlater)
    · obtain ⟨hlength, hhigh⟩ := encodeChar_high (Nat.not_lt.mp hc) hfirst
      refine .replace [c] _ (barrier_of_disjoint hword ?_ ?_) (ih hlater)
      · rw [List.length_map]
        exact hlength
      · intro value hvalue hmem
        obtain ⟨byte, hbyte, rfl⟩ := List.mem_map.mp hvalue
        exact absurd (hascii _ hmem) (Nat.not_lt.mpr (hhigh byte hbyte))

/-- No registered secret is left in what the redactor returns. -/
theorem registered_secrets_never_survive (redactor : SerialRedactor platform)
    (hplain : ∀ secret ∈ redactor.secrets.map Prod.fst, redactor.Plain secret) :
    ∀ secret ∈ redactor.secrets.map Prod.fst, (∀ value, ¬ secret <:+: redactor.text value) ∧
      (∀ value, ∃ bytes, redactor.bytes value = some bytes ∧ ¬ secret <:+: bytes.map UInt8.toNat) ∧
      ∀ values, ∀ element ∈ redactor.argv values, ¬ secret <:+: element := by
  intro secret hsecret
  have htext (value : Value) : ¬ secret <:+: redactor.text value := by
    cases value with
    | _ => exact absent_redact hsecret (hplain secret hsecret) _
  refine ⟨htext, fun value => ?_, fun values element helement => ?_⟩
  · have hscalar := List.all_eq_true.mp (platform.decode_scalar value)
    obtain ⟨bytes, hbytes⟩ := encode_isSome (isScalar_redact redactor hscalar)
    obtain ⟨item, hitem, rfl⟩ := List.mem_map.mp hsecret
    have hserial := (redactor.secrets_exact item hitem).1
    simp only [isSerial, Bool.and_eq_true, bne_iff_ne, List.all_eq_true, decide_eq_true_eq]
      at hserial
    refine ⟨bytes, hbytes, fun hinside => htext (.bytes value) ?_⟩
    refine (encode_rewrites (List.length_pos_iff.mp ?_) (fun c hc => ?_) hbytes).isInfix ?_ hinside
    · omega
    · have := hserial.2 c hc
      omega
    · exact fun hnil => hserial.1.1 (by rw [hnil]; rfl)
  · obtain ⟨value, -, rfl⟩ := List.mem_map.mp helement
    exact htext value

end Secrets

namespace Sample

def serial : Text := ascii "R58M"

def platform : Platform where
  -- not a hash to rely on, but one that reads the whole text
  sha256 text := (List.range 64).map fun place =>
    48 + text.foldl (fun sum c => (31 * sum + c) % 2 ^ 32) 7 / 10 ^ place % 10
  sha256_digest text := by
    simp only [isDigest, List.length_map, List.length_range, List.all_map, List.all_eq_true,
      Bool.and_eq_true, Function.comp]
    refine ⟨rfl, fun place _ => ?_⟩
    simp
    omega
  decode _ := []
  decode_scalar _ := rfl

def nested : SerialRedactor platform where
  hashes := [platform.sha256 serial, platform.sha256 (ascii "58")]
  secrets := [serial, ascii "58"].map fun secret => (secret, platform.sha256 secret)
  hashes_digest := by decide
  secrets_exact := by decide

end Sample

theorem registered_secrets_never_survive_nested :
    ¬ ascii "58" <:+: Sample.nested.text (.str (ascii "R58M 58")) := by
  refine (registered_secrets_never_survive Sample.nested ?_ (ascii "58") (by decide)).1 _
  intro secret hsecret
  rcases List.mem_cons.mp hsecret with rfl | hsecret
  · exact ⟨by decide, by decide, by decide +kernel⟩
  · rw [List.mem_singleton.mp hsecret]
    exact ⟨by decide, by decide, by decide +kernel⟩

end NativeInitLab.Redaction
