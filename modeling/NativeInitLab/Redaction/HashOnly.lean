import NativeInitLab.Redaction.Serial

namespace NativeInitLab.Redaction

open Substitution SerialRedactor

/-! Serials of which only the hash is registered. -/

section Scan

variable {β : Type} {view : View Nat β}

theorem tokenChar_of_alphanumeric {c : Nat} (hc : alphanumeric c = true) : tokenChar c = true := by
  simp [tokenChar, hc]

/-- After a character that no token takes the scan is that of the rest. -/
theorem mem_tokens_after {token before rest other : List β}
    (hbefore : ∀ c ∈ before.getLast?, tokenChar (view.code c) = false)
    (hstart : before = [] → token = []) (hother : other ∈ tokens view [] rest) :
    other ∈ tokens view token (before ++ rest) := by
  induction before generalizing token with
  | nil =>
    rw [hstart rfl]
    exact hother
  | cons c before ih =>
    have hlater : ∀ d ∈ before.getLast?, tokenChar (view.code d) = false := by
      cases before with
      | nil => exact nofun
      | cons d before => exact fun e he => hbefore e (by rwa [List.getLast?_cons_cons])
    have hlast (hnil : before = []) : tokenChar (view.code c) = false := by
      subst hnil
      exact hbefore c rfl
    rw [List.cons_append, tokens]
    split
    case isTrue hjoins =>
      refine ih hlater fun hnil => ?_
      simp [joins, hlast hnil] at hjoins
    case isFalse =>
      refine List.mem_append_right _ (ih hlater fun hnil => if_neg fun hc => ?_)
      exact absurd ((hlast hnil).symm.trans (tokenChar_of_alphanumeric hc)) (by decide)

theorem mem_tokens_grown {token more rest : List β} (hsome : token ≠ [])
    (hmore : ∀ c ∈ more, tokenChar (view.code c) = true)
    (hroom : token.length + more.length ≤ 256)
    (hrest : ∀ c ∈ rest.head?, tokenChar (view.code c) = false) :
    token ++ more ∈ tokens view token (more ++ rest) := by
  induction more generalizing token with
  | nil =>
    rw [List.append_nil, List.nil_append]
    cases rest with
    | nil => exact mem_closed.mpr ⟨rfl, hsome⟩
    | cons c rest =>
      rw [tokens, if_neg (by simp [joins, hrest c rfl])]
      exact List.mem_append_left _ (mem_closed.mpr ⟨rfl, hsome⟩)
  | cons c more ih =>
    obtain ⟨hc, hothers⟩ := List.forall_mem_cons.mp hmore
    rw [List.length_cons] at hroom
    have hjoins : joins view token c = true := by
      have hlength := List.length_pos_iff.mpr hsome
      simp only [joins, Bool.and_eq_true, bne_iff_ne, decide_eq_true_eq]
      exact ⟨⟨by omega, by omega⟩, hc⟩
    have hgrown : (token ++ [c]).length + more.length ≤ 256 := by
      rw [List.length_append, List.length_singleton]
      omega
    have hmem := ih (by simp) hothers hgrown
    rw [← List.append_cons] at hmem
    rwa [List.cons_append, tokens, if_pos hjoins]

/-- A word of letters and digits between characters that no token takes is a token. -/
theorem mem_tokens_whole {before word rest : List β}
    (hbefore : ∀ c ∈ before.getLast?, tokenChar (view.code c) = false) (hsome : word ≠ [])
    (hlength : word.length ≤ 256) (hword : ∀ c ∈ word, alphanumeric (view.code c) = true)
    (hrest : ∀ c ∈ rest.head?, tokenChar (view.code c) = false) :
    word ∈ tokens view [] (before ++ (word ++ rest)) := by
  refine mem_tokens_after hbefore (fun _ => rfl) ?_
  obtain ⟨c, word, rfl⟩ := List.exists_cons_of_ne_nil hsome
  obtain ⟨hc, hmore⟩ := List.forall_mem_cons.mp hword
  rw [List.length_cons] at hlength
  rw [List.cons_append, tokens, if_neg (by simp [joins]), if_pos hc]
  refine List.mem_append_right _ (mem_tokens_grown (List.cons_ne_nil c [])
    (fun d hd => tokenChar_of_alphanumeric (hmore d hd)) ?_ hrest)
  rw [List.length_singleton]
  omega

end Scan

section Traced

variable {platform : Platform} {redactor : SerialRedactor platform} {serial : Text}

def marks (flag : Bool) (text : Text) : List (Nat × Bool) := text.map (·, flag)

def occurrence (before serial after : Text) : List (Nat × Bool) :=
  marks false before ++ (marks true serial ++ marks false after)

/-- The marked characters still stand together in the output. -/
def SerialRedactor.Survives (redactor : SerialRedactor platform) (before serial after : Text) :
    Prop :=
  marks true serial <:+: redactor.redact traced (occurrence before serial after)

theorem map_fst_marks (flag : Bool) (text : Text) : (marks flag text).map Prod.fst = text := by
  rw [marks, List.map_map]
  exact List.map_id text

theorem countP_marks_false (text : Text) : (marks false text).countP Prod.snd = 0 := by
  rw [List.countP_eq_zero]
  intro c hc
  obtain ⟨a, -, rfl⟩ := List.mem_map.mp hc
  exact Bool.false_ne_true

theorem countP_marks_true (text : Text) : (marks true text).countP Prod.snd = text.length := by
  rw [List.countP_eq_length.mpr, marks, List.length_map]
  intro c hc
  obtain ⟨a, -, rfl⟩ := List.mem_map.mp hc
  rfl

theorem countP_puts {part new : List (Nat × Bool)} (hnew : redactor.Puts traced part new) :
    new.countP Prod.snd = 0 := by
  obtain ⟨digest, -, rfl⟩ := hnew
  exact countP_marks_false _

theorem map_flush {β : Type} {view : View Nat β} (token : List β) :
    (redactor.flush view token).map view.code = redactor.flush plain (token.map view.code) := by
  have hcode : (token.map view.code).map (@plain Nat).code = token.map view.code := List.map_id _
  unfold flush
  rw [List.length_map]
  split
  · rfl
  · unfold tokenReplacement
    rw [hcode]
    dsimp only
    split
    · rw [List.map_map]
      exact List.map_congr_left fun a _ => view.code_fresh a
    · rfl

theorem map_subTokens {β : Type} {view : View Nat β} (token text : List β) :
    (redactor.subTokens view token text).map view.code =
      redactor.subTokens plain (token.map view.code) (text.map view.code) := by
  induction text generalizing token with
  | nil => exact map_flush token
  | cons c rest ih =>
    have hjoins : joins view token c = joins plain (token.map view.code) (view.code c) := by
      simp [joins, plain]
    have hcode : (@plain Nat).code (view.code c) = view.code c := rfl
    rw [subTokens, List.map_cons, subTokens, hjoins, hcode]
    split
    · rw [ih, List.map_append, List.map_singleton]
    · rw [List.map_append, map_flush]
      split
      · rw [ih, List.map_singleton]
      · rw [List.map_cons, ih, List.map_nil]

theorem map_redact {β : Type} (view : View Nat β) (text : List β) :
    (redactor.redact view text).map view.code = redactor.redact plain (text.map view.code) := by
  have hsecrets (items : List (Text × Text)) (text : List β) :
      (replaceSecrets view items text).map view.code =
        replaceSecrets plain items (text.map view.code) := by
    induction items generalizing text with
    | nil => rfl
    | cons item items ih =>
      show (replaceSecrets view items _).map view.code = replaceSecrets plain items _
      rw [ih, map_replaceAll]
  rw [redact, map_subTokens, hsecrets]
  rfl

theorem takeWhile_unmarked {before : List (Nat × Bool)} (hbefore : before.countP Prod.snd = 0)
    (hserial : serial ≠ []) (after : List (Nat × Bool)) :
    (before ++ (marks true serial ++ after)).takeWhile (fun c => !c.2) = before := by
  rw [List.takeWhile_append_of_pos]
  · cases serial with
    | nil => exact (hserial rfl).elim
    | cons c serial => exact List.append_nil before
  · intro c hc
    have := List.countP_eq_zero.mp hbefore c hc
    simpa using this

/-- Where the marked characters stand together, they are all the marked ones. -/
theorem unmarked_around {before after : List (Nat × Bool)}
    (hcount : (before ++ (marks true serial ++ after)).countP Prod.snd ≤ serial.length) :
    before.countP Prod.snd = 0 ∧ after.countP Prod.snd = 0 := by
  rw [List.countP_append, List.countP_append, countP_marks_true] at hcount
  omega

theorem countP_occurrence (before serial after : Text) :
    (occurrence before serial after).countP Prod.snd = serial.length := by
  rw [occurrence, List.countP_append, List.countP_append, countP_marks_false, countP_marks_false,
    countP_marks_true]
  omega

theorem tokenChar_ne_bracket {c : Nat} (hc : tokenChar c = true) : c ≠ 60 ∧ c ≠ 62 := by
  constructor
  · rintro rfl
    exact absurd hc (by decide)
  · rintro rfl
    exact absurd hc (by decide)

theorem barrier_marked {word : List (Nat × Bool)} (hmarked : ∃ c ∈ word, c.2 = true)
    (hchars : ∀ c ∈ word, tokenChar c.1 = true) (part new : List (Nat × Bool))
    (hnew : redactor.Puts traced part new) : Barrier word new := by
  have hplain : ∀ c ∈ word, (@traced Nat).code c ≠ 60 ∧ (@traced Nat).code c ≠ 62 :=
    fun c hc => tokenChar_ne_bracket (hchars c hc)
  refine puts_barrier hplain (fun digest _ hinside => ?_) hnew
  obtain ⟨c, hc, hflag⟩ := hmarked
  obtain ⟨a, -, rfl⟩ := List.mem_map.mp (hinside.subset hc)
  exact Bool.false_ne_true hflag

/-- Wherever the marked characters stand together, no token character is next to them. -/
def Delimited (serial : Text) (text : List (Nat × Bool)) : Prop :=
  ∀ before after, text = before ++ (marks true serial ++ after) →
    (∀ c ∈ before.getLast?, tokenChar c.1 = false) ∧ ∀ c ∈ after.head?, tokenChar c.1 = false

/-- Letters and digits, at most 256 of them. -/
structure Alphanumeric (serial : Text) : Prop where
  some : serial ≠ []
  length : serial.length ≤ 256
  chars : ∀ c ∈ serial, alphanumeric c = true

section

variable (hserial : Alphanumeric serial)
include hserial

theorem Alphanumeric.marked : ∀ c ∈ marks true serial, alphanumeric c.1 = true := by
  intro c hc
  obtain ⟨a, ha, rfl⟩ := List.mem_map.mp hc
  exact hserial.chars a ha

theorem Alphanumeric.exists_marked : ∃ c ∈ marks true serial, c.2 = true := by
  obtain ⟨a, ha⟩ := List.exists_mem_of_ne_nil serial hserial.some
  exact ⟨(a, true), List.mem_map_of_mem ha, rfl⟩

theorem delimited_occurrence {before after : Text}
    (hbefore : ∀ c ∈ before.getLast?, tokenChar c = false)
    (hafter : ∀ c ∈ after.head?, tokenChar c = false) :
    Delimited serial (occurrence before serial after) := by
  intro first second hsplit
  have hcount := countP_occurrence before serial after
  rw [hsplit] at hcount
  obtain ⟨hfirst, -⟩ := unmarked_around (Nat.le_of_eq hcount)
  have hwhile := congrArg (List.takeWhile fun c => !c.2) hsplit
  rw [occurrence, takeWhile_unmarked (countP_marks_false _) hserial.some,
    takeWhile_unmarked hfirst hserial.some] at hwhile
  subst hwhile
  have hrest := List.append_cancel_left (List.append_cancel_left hsplit)
  subst hrest
  constructor
  · intro c hc
    rw [marks, List.getLast?_map] at hc
    obtain ⟨a, ha, rfl⟩ := Option.map_eq_some_iff.mp hc
    exact hbefore a ha
  · intro c hc
    rw [marks, List.head?_map] at hc
    obtain ⟨a, ha, rfl⟩ := Option.map_eq_some_iff.mp hc
    exact hafter a ha

theorem Delimited.rewrites {text result : List (Nat × Bool)}
    (h : Rewrites (redactor.Puts traced) text result) (hdelimited : Delimited serial text) :
    Delimited serial result := by
  obtain ⟨d, hd, hflag⟩ := hserial.exists_marked
  have hword (word : List (Nat × Bool)) (hmem : d ∈ word)
      (hchars : ∀ c ∈ word, tokenChar c.1 = true) (hinside : word <:+: result) :
      word <:+: text :=
    (h.mono (barrier_marked ⟨d, hmem, hflag⟩ hchars)).isInfix (List.ne_nil_of_mem hmem) hinside
  have hserialChars (c : Nat × Bool) (hc : c ∈ marks true serial) : tokenChar c.1 = true :=
    tokenChar_of_alphanumeric (hserial.marked c hc)
  rintro before after rfl
  constructor
  · intro c hc
    rw [← Bool.not_eq_true]
    intro htoken
    obtain ⟨init, rfl⟩ := List.getLast?_eq_some_iff.mp hc
    obtain ⟨first, second, rfl⟩ := hword (c :: marks true serial) (List.mem_cons_of_mem _ hd)
      (List.forall_mem_cons.mpr ⟨htoken, hserialChars⟩) ⟨init, after, by simp⟩
    have hleft := (hdelimited (first ++ [c]) second (by simp)).1 c (by simp)
    exact absurd (htoken.symm.trans hleft) (by decide)
  · intro c hc
    rw [← Bool.not_eq_true]
    intro htoken
    obtain ⟨tail, rfl⟩ := List.head?_eq_some_iff.mp hc
    obtain ⟨first, second, rfl⟩ := hword (marks true serial ++ [c]) (List.mem_append_left _ hd)
      (List.forall_mem_append.mpr ⟨hserialChars, List.forall_mem_singleton.mpr htoken⟩)
      ⟨before, tail, by simp⟩
    have hright := (hdelimited first (c :: second) (by simp)).2 c rfl
    exact absurd (htoken.symm.trans hright) (by decide)

end

theorem countP_flush_le (redactor : SerialRedactor platform) (token : List (Nat × Bool)) :
    (redactor.flush traced token).countP Prod.snd ≤ token.countP Prod.snd := by
  have hflush : Rewrites (redactor.Puts traced) (token ++ []) (redactor.flush traced token ++ []) :=
    flush_rewrites (fun _ h => h.2.2.2) .nil
  rw [List.append_nil, List.append_nil] at hflush
  exact hflush.countP_le Prod.snd fun _ _ => countP_puts

theorem countP_flush_registered {token : List (Nat × Bool)} (hsome : token ≠ [])
    (hknown : redactor.Registered traced token) :
    (redactor.flush traced token).countP Prod.snd = 0 := by
  rw [flush, if_neg fun h => hsome (List.length_eq_zero_iff.mp h), tokenReplacement]
  exact (congrArg _ (if_pos (List.contains_iff_mem.mpr hknown))).trans (countP_marks_false _)

/-- The marks of a registered token are gone. -/
theorem countP_subTokens {token text other : List (Nat × Bool)}
    (hother : other ∈ tokens traced token text) (hknown : redactor.Registered traced other) :
    (redactor.subTokens traced token text).countP Prod.snd + other.countP Prod.snd ≤
      (token ++ text).countP Prod.snd := by
  induction text generalizing token with
  | nil =>
    obtain ⟨rfl, hsome⟩ := mem_closed.mp hother
    rw [subTokens, countP_flush_registered hsome hknown, List.append_nil, Nat.zero_add]
  | cons c rest ih =>
    rw [tokens] at hother
    rw [subTokens]
    split at hother
    · rename_i hjoins
      have hmore := ih hother
      rw [← List.append_cons] at hmore
      rwa [if_pos hjoins]
    · rename_i hjoins
      have hlater : ∀ first, (redactor.subTokens traced first rest).countP Prod.snd ≤
          (first ++ rest).countP Prod.snd := fun first =>
        (subTokens_rewrites redactor traced first rest).countP_le Prod.snd
          fun _ _ h => countP_puts h.2.2.2
      have hflush := countP_flush_le redactor token
      rw [if_neg hjoins, List.countP_append, List.countP_append]
      rcases List.mem_append.mp hother with hnow | hmore
      · obtain ⟨rfl, hsome⟩ := mem_closed.mp hnow
        rw [countP_flush_registered hsome hknown]
        split
        · have := hlater [c]
          simp only [List.singleton_append] at this
          omega
        · have := hlater []
          simp only [List.nil_append, List.countP_cons] at this ⊢
          omega
      · split at hmore
        · rename_i hc
          have := ih hmore
          rw [if_pos hc]
          simp only [List.singleton_append] at this
          omega
        · rename_i hc
          have := ih hmore
          rw [if_neg hc]
          simp only [List.nil_append, List.countP_cons] at this ⊢
          omega

/-- A character of the occurrence is replaced: it belongs to a registered secret, or to a token of
the remaining text whose hash is registered. -/
def SerialRedactor.Catches (redactor : SerialRedactor platform) (before serial after : Text) : Prop :=
  let text := replaceSecrets traced redactor.longestFirst (occurrence before serial after)
  ¬ marks true serial <:+: text ∨
    ∃ token ∈ tokens traced [] text, (∃ c ∈ token, c.2 = true) ∧ redactor.Registered traced token

theorem countP_replaceSecrets (redactor : SerialRedactor platform) (before serial after : Text) :
    (replaceSecrets traced redactor.longestFirst (occurrence before serial after)).countP Prod.snd ≤
      serial.length := by
  refine replaceSecrets_induction redactor (fun text => text.countP Prod.snd ≤ serial.length) ?_
    (fun _ hitem => mem_longestFirst.mp hitem) (Nat.le_of_eq (countP_occurrence before serial after))
  intro text result hrewrites hle
  exact Nat.le_trans (hrewrites.countP_le Prod.snd fun _ _ => countP_puts) hle

theorem not_survives_iff (hserial : Alphanumeric serial) (before after : Text) :
    ¬ redactor.Survives before serial after ↔ redactor.Catches before serial after := by
  have hsome : marks true serial ≠ [] := List.ne_nil_of_mem hserial.exists_marked.choose_spec.1
  unfold Survives Catches SerialRedactor.redact
  have hcount := countP_replaceSecrets redactor before serial after
  generalize replaceSecrets traced redactor.longestFirst (occurrence before serial after) = text
    at hcount ⊢
  constructor
  · intro hgone
    by_contra hfree
    obtain ⟨hinside, hfree⟩ := not_or.mp hfree
    refine hgone (((subTokens_rewrites redactor traced [] text).mono ?_).keeps hsome
      (not_not.mp hinside))
    rintro part new ⟨hpart, hpartSome, hknown, -⟩
    refine ⟨hpartSome, fun c hc hmarked => hfree ⟨part, hpart, ⟨c, hc, ?_⟩, hknown⟩⟩
    obtain ⟨a, -, rfl⟩ := List.mem_map.mp hmarked
    rfl
  · rintro (hcut | ⟨token, htoken, ⟨c, hc, hflag⟩, hknown⟩) hsurvives
    · refine hcut (((subTokens_puts redactor traced text).mono (barrier_marked hserial.exists_marked
        fun c hc => ?_)).isInfix hsome hsurvives)
      exact tokenChar_of_alphanumeric (hserial.marked c hc)
    · have hle := hsurvives.sublist.countP_le (p := Prod.snd)
      have hless := countP_subTokens htoken hknown
      have hpos : 0 < token.countP Prod.snd := List.countP_pos_iff.mpr ⟨c, hc, hflag⟩
      rw [countP_marks_true] at hle
      rw [List.nil_append] at hless
      omega

theorem catches_of_delimited (hserial : Alphanumeric serial)
    (hhash : platform.sha256 serial ∈ redactor.hashes) {before after : Text}
    (hbefore : ∀ c ∈ before.getLast?, tokenChar c = false)
    (hafter : ∀ c ∈ after.head?, tokenChar c = false) :
    redactor.Catches before serial after := by
  have hdelimited : Delimited serial
      (replaceSecrets traced redactor.longestFirst (occurrence before serial after)) :=
    replaceSecrets_induction redactor (Delimited serial) (Delimited.rewrites hserial)
      (fun _ hitem => mem_longestFirst.mp hitem) (delimited_occurrence hserial hbefore hafter)
  refine or_iff_not_imp_left.mpr fun hinside => ?_
  obtain ⟨first, second, hsplit⟩ := not_not.mp hinside
  rw [List.append_assoc] at hsplit
  obtain ⟨hleft, hright⟩ := hdelimited first second hsplit.symm
  refine ⟨marks true serial, ?_, hserial.exists_marked, ?_⟩
  · rw [← hsplit]
    refine mem_tokens_whole hleft ?_ ?_ hserial.marked hright
    · exact List.ne_nil_of_mem hserial.exists_marked.choose_spec.1
    · rw [marks, List.length_map]
      exact hserial.length
  · have hcode : (marks true serial).map (@traced Nat).code = serial := map_fst_marks true serial
    rwa [Registered, hcode]

end Traced

namespace Sample

def hashOnly : SerialRedactor platform where
  hashes := [platform.sha256 serial]
  hashes_digest := by decide
  secrets_exact := by decide

def twoHashes : SerialRedactor platform where
  hashes := [platform.sha256 serial, platform.sha256 (ascii "ok")]
  hashes_digest := by decide
  secrets_exact := by decide

end Sample

end NativeInitLab.Redaction
