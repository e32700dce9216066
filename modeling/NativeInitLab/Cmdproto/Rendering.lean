import NativeInitLab.Cmdproto.Grammar

namespace NativeInitLab.Cmdproto.Host

open Lockstep Numerals

/-! What the reader makes of text that is written in its own form. -/

def safeByte (byte : UInt8) : Bool := 0x20 < byte && byte < 0x7F && byte != equals

def Safe (text : Text) : Prop := text ≠ [] ∧ ∀ byte ∈ text, safeByte byte = true

theorem safe_iff {text : Text} : text ≠ [] ∧ text.all safeByte = true ↔ Safe text := by
  rw [List.all_eq_true]
  exact Iff.rfl

instance (text : Text) : Decidable (Safe text) := decidable_of_decidable_of_iff safe_iff

section Safe

variable {text : Text}

theorem Safe.not_mem (h : Safe text) {byte : UInt8} (hbyte : safeByte byte = false) :
    byte ∉ text := by
  intro hmember
  rw [h.2 byte hmember] at hbyte
  cases hbyte

theorem Safe.plain (h : Safe text) : Plain text :=
  ⟨h.not_mem (by decide), h.not_mem (by decide)⟩

theorem Safe.ascii (h : Safe text) : ∀ byte ∈ text, byte < 0x80 := by
  intro byte hmember
  have hsafe := h.2 byte hmember
  simp only [safeByte, Bool.and_eq_true, decide_eq_true_eq] at hsafe
  exact UInt8.lt_trans hsafe.1.2 (by decide)

theorem safe_of_all {isDigit : UInt8 → Bool} (hne : text ≠ []) (hall : text.all isDigit = true)
    (hsafe : ∀ byte, isDigit byte = true → safeByte byte = true) : Safe text :=
  ⟨hne, fun byte hmember => hsafe byte (List.all_eq_true.mp hall byte hmember)⟩

theorem safeByte_of_isHex (byte : UInt8) (h : isHex byte = true) : safeByte byte = true := by
  have hall : ∀ number : Fin 256, isHex (UInt8.ofFin number) = true →
      safeByte (UInt8.ofFin number) = true := by decide +kernel
  exact hall byte.toFin h

theorem safeByte_of_name (byte : UInt8)
    (h : (isLetter byte || isDecimal byte || byte ∈ [0x5F, 0x2E, 0x2B, 0x2D]) = true) :
    safeByte byte = true := by
  have hall : ∀ number : Fin 256,
      (isLetter (UInt8.ofFin number) || isDecimal (UInt8.ofFin number) ||
        UInt8.ofFin number ∈ [0x5F, 0x2E, 0x2B, 0x2D]) = true →
      safeByte (UInt8.ofFin number) = true := by decide +kernel
  exact hall byte.toFin h

theorem isHex_of_isDecimal (byte : UInt8) (h : isDecimal byte = true) : isHex byte = true := by
  simp [isHex, h]

theorem canonical_all {isDigit : UInt8 → Bool} (hzero : isDigit 48 = true)
    (h : canonical isDigit text = true) : text ≠ [] ∧ text.all isDigit = true := by
  simp only [canonical, Bool.or_eq_true, beq_iff_eq, Bool.and_eq_true, bne_iff_ne] at h
  rcases h with rfl | ⟨⟨hne, -⟩, hall⟩
  · simp [hzero]
  · exact ⟨hne, hall⟩

theorem safe_decimal (number : Nat) : Safe (decimal number) := by
  obtain ⟨hne, hall⟩ := canonical_all (by decide) (canonical_decimal number)
  exact safe_of_all hne hall fun byte h => safeByte_of_isHex byte (isHex_of_isDecimal byte h)

theorem safe_hex (number : Nat) : Safe (hex number) := by
  obtain ⟨hne, hall⟩ := canonical_all (by decide) (canonical_hex number)
  exact safe_of_all hne hall safeByte_of_isHex

theorem safe_commandName (h : commandName text = true) : Safe text := by
  simp only [commandName, Bool.and_eq_true, bne_iff_ne] at h
  exact safe_of_all h.1 h.2 safeByte_of_name

theorem Safe.append {other : Text} (h : Safe text) (hother : Safe other) :
    Safe (text ++ other) := by
  refine ⟨by simp [h.1], fun byte hmember => ?_⟩
  rcases List.mem_append.mp hmember with hleft | hright
  · exact h.2 byte hleft
  · exact hother.2 byte hright

end Safe

def token (pair : Text × Text) : Text := pair.1 ++ equals :: pair.2

def renderPairs (pairs : Pairs) : Text := [space].intercalate (pairs.map token)

section Fields

variable {pairs : Pairs} {label : String}

theorem addToken_token {fields : Pairs} {pair : Text × Text} (hkey : Safe pair.1)
    (hvalue : Safe pair.2) (hnew : pair.1 ∉ keys fields) :
    addToken label fields (token pair) = .ok (fields ++ [pair]) := by
  have hkeyplain : equals ∉ pair.1 := hkey.not_mem (by decide)
  have hvalueplain : equals ∉ pair.2 := hvalue.not_mem (by decide)
  have hbefore : ∀ byte ∈ pair.1, (byte != equals) = true := by
    intro byte hmember
    rw [bne_iff_ne]
    rintro rfl
    exact hkeyplain hmember
  have hcount : (token pair).count equals = 1 := by
    rw [token, List.count_append, List.count_cons_self, List.count_eq_zero_of_not_mem hkeyplain,
      List.count_eq_zero_of_not_mem hvalueplain]
  have htake : (token pair).takeWhile (· != equals) = pair.1 := by
    rw [token, List.takeWhile_append_of_pos hbefore]
    simp
  have hdrop : ((token pair).dropWhile (· != equals)).tail = pair.2 := by
    rw [token, List.dropWhile_append_of_pos hbefore]
    simp
  rw [addToken, require_of_pos _ hcount, ok_bind]
  simp only [htake, hdrop]
  rw [require_of_pos _ ⟨hkey.1, hvalue.1, hnew⟩]
  rfl

theorem foldlM_addToken {fields : Pairs} (hsafe : ∀ pair ∈ pairs, Safe pair.1 ∧ Safe pair.2)
    (hnodup : (keys (fields ++ pairs)).Nodup) :
    (pairs.map token).foldlM (addToken label) fields = .ok (fields ++ pairs) := by
  induction pairs generalizing fields with
  | nil =>
    rw [List.append_nil]
    rfl
  | cons pair pairs ih =>
    obtain ⟨⟨hkey, hvalue⟩, hrest⟩ := List.forall_mem_cons.mp hsafe
    have hnew : pair.1 ∉ keys fields := by
      intro hmember
      rw [keys, List.map_append, List.map_cons] at hnodup
      exact (List.nodup_append.mp hnodup).2.2 _ hmember _ List.mem_cons_self rfl
    rw [List.map_cons, List.foldlM_cons, addToken_token hkey hvalue hnew, ok_bind]
    have happend : fields ++ pair :: pairs = fields ++ [pair] ++ pairs := by simp
    rw [happend] at hnodup ⊢
    exact ih hrest hnodup

theorem space_not_mem_token {pair : Text × Text} (hkey : Safe pair.1) (hvalue : Safe pair.2) :
    space ∉ token pair := by
  have hkeyplain : space ∉ pair.1 := hkey.not_mem (by decide)
  have hvalueplain : space ∉ pair.2 := hvalue.not_mem (by decide)
  have hne : space ≠ equals := by decide
  simp [token, hkeyplain, hvalueplain, hne]

theorem parseFields_render {expected : List Text} (hpairs : pairs ≠ [])
    (hkeys : keys pairs = expected) (hnodup : expected.Nodup)
    (hsafe : ∀ pair ∈ pairs, Safe pair.1 ∧ Safe pair.2) :
    parseFields (renderPairs pairs) expected label = .ok pairs := by
  have hsplit : (renderPairs pairs).splitOn space = pairs.map token := by
    refine List.splitOn_intercalate space ?_ (by simpa using hpairs)
    intro text hmember
    obtain ⟨pair, hpair, rfl⟩ := List.mem_map.mp hmember
    exact space_not_mem_token (hsafe pair hpair).1 (hsafe pair hpair).2
  have hnonempty : ∀ text ∈ pairs.map token, text ≠ [] := by
    intro text hmember
    obtain ⟨pair, -, rfl⟩ := List.mem_map.mp hmember
    simp [token]
  have hfold : (pairs.map token).foldlM (addToken label) [] = .ok pairs :=
    foldlM_addToken hsafe (by rwa [List.nil_append, hkeys])
  simp only [parseFields, hsplit]
  rw [require_of_pos _ hnonempty, ok_bind, hfold, ok_bind, hkeys,
    require_of_pos _ ⟨fun _ h => h, fun _ h => h⟩, ok_bind, require_of_pos _ rfl]
  rfl

end Fields

theorem head_decimal_ne_minus (number : Nat) : (decimal number).head? ≠ some minus := by
  intro hhead
  have hmember := List.mem_of_mem_head? (Option.mem_def.mpr hhead)
  obtain ⟨-, hall⟩ := canonical_all (by decide) (canonical_decimal number)
  have hminus := List.all_eq_true.mp hall minus hmember
  revert hminus
  decide

theorem int_decimal {number : Nat} (hlength : (decimal number).length ≤ intMaxStrDigits) :
    int (decimal number) = .ok number := by
  have hhead := head_decimal_ne_minus number
  simp [int, hhead, not_lt.mpr hlength]

theorem int_minus_decimal {number : Nat} (hlength : (decimal number).length ≤ intMaxStrDigits) :
    int (minus :: decimal number) = .ok (-number) := by
  simp [int, not_lt.mpr hlength]

theorem decimal_ne_zero {number : Nat} (hne : number ≠ 0) : decimal number ≠ ascii "0" := by
  intro heq
  have hvalue := congrArg (value 10) heq
  rw [value_decimal] at hvalue
  exact hne (hvalue.trans (by decide))

theorem validateBegin_eq_ok {fields : Pairs} : validateBegin fields = .ok () ↔
      unsignedDecimal (field fields "seq") = true ∧
      ∃ seq, int (field fields "seq") = .ok seq ∧
        (0 < seq ∧ commandName (field fields "cmd") = true ∧
          unsignedDecimal (field fields "argc") = true) ∧
        ∃ argc, int (field fields "argc") = .ok argc ∧
          0 < argc ∧ flagsText (field fields "flags") = true := by
  simp only [validateBegin, bind_eq_ok, require_eq_ok, exists_const]

theorem validateEnd_eq_ok {fields : Pairs} : validateEnd fields = .ok () ↔
      unsignedDecimal (field fields "seq") = true ∧
      ∃ seq, int (field fields "seq") = .ok seq ∧
        (0 < seq ∧ commandName (field fields "cmd") = true ∧
          signedDecimal (field fields "rc") = true ∧
          unsignedDecimal (field fields "errno") = true ∧
          unsignedDecimal (field fields "duration_ms") = true ∧
          flagsText (field fields "flags") = true ∧
          statusText (field fields "status") = true ∧
          field fields "status" ∈ canonicalStatuses) ∧
        ∃ rc, int (field fields "rc") = .ok rc ∧ ∃ errno, int (field fields "errno") = .ok errno ∧
            (rc = 0 ↔ field fields "status" = ascii "ok") ∧
            coherent rc errno (field fields "status") := by
  simp only [validateEnd, bind_eq_ok, require_eq_ok, exists_const]

section Lines

variable {label : String} {start : Nat} {text : Text} {raw : List UInt8} {lines : List DecodedLine}

theorem scanLines_byte {byte : UInt8} (hlf : byte ≠ lf) (hcr : byte ≠ cr) :
    scanLines label true start text (byte :: raw) =
      scanLines label true start (text ++ [byte]) raw := by
  rw [scanLines.eq_def]
  simp only [if_neg hlf, if_neg hcr]

theorem scanLines_lf : scanLines label true start text (lf :: raw) =
      (lineAt start text .lf :: ·) <$> scanLines label true (start + text.length + 1) [] raw := by
  rw [scanLines.eq_def]
  simp only [if_pos]

theorem scanLines_crlf : scanLines label true start text (cr :: lf :: raw) =
      (lineAt start text .crlf :: ·) <$> scanLines label true (start + text.length + 2) [] raw := by
  have hne : cr ≠ lf := by decide
  rw [scanLines.eq_def]
  simp only [if_neg hne, if_pos]

theorem scanLines_plain (hplain : Plain text) (collected : Text) :
    scanLines label true start collected (text ++ raw) =
      scanLines label true start (collected ++ text) raw := by
  induction text generalizing collected with
  | nil => simp
  | cons byte text ih =>
    obtain ⟨hlf, hcr⟩ := hplain
    simp only [List.mem_cons, not_or] at hlf hcr
    rw [List.cons_append, scanLines_byte (Ne.symm hlf.1) (Ne.symm hcr.1),
      ih ⟨hlf.2, hcr.2⟩, List.append_assoc]
    rfl

theorem scanLines_of_tiles (h : Tiles start raw lines) :
    scanLines label true start [] raw = .ok lines := by
  induction h with
  | nil start => simp [scanLines]
  | @last start text hplain hne =>
    calc scanLines label true start [] text
        = scanLines label true start [] (text ++ []) := by rw [List.append_nil]
      _ = scanLines label true start text [] := by
          rw [scanLines_plain hplain, List.nil_append]
      _ = .ok [lineAt start text .eof] := by simp [scanLines, hne]
  | @cons start ending text raw lines hplain hending hrest ih =>
    rw [scanLines_plain hplain, List.nil_append]
    cases ending with
    | lf =>
      rw [LineEnding.length] at ih
      rw [LineEnding.bytes, List.singleton_append, scanLines_lf, ih]
      rfl
    | crlf =>
      rw [LineEnding.length] at ih
      rw [LineEnding.bytes, List.cons_append, List.singleton_append, scanLines_crlf, ih]
      rfl
    | eof => exact absurd rfl hending

theorem Tiles.unique {other : List DecodedLine} (h : Tiles start raw lines)
    (hother : Tiles start raw other) : lines = other := by
  have hlines : scanLines "" true start [] raw = .ok lines := scanLines_of_tiles h
  rw [scanLines_of_tiles hother] at hlines
  exact (Except.ok.inj hlines).symm

theorem decodeLines_of_tiles {sha256 : Text → Text} (hnul : 0 ∉ raw)
    (hvalid : Utf8.valid raw = true) (htiles : Tiles 0 raw lines) :
    decodeLines sha256 label true raw = .ok ⟨raw.length, sha256 raw, lines⟩ := by
  rw [decodeLines, require_of_pos _ hnul, ok_bind, require_of_pos _ hvalid, ok_bind,
    scanLines_of_tiles htiles]
  rfl

end Lines

section Steps

variable {options : Options} {s : Scan} {line : DecodedLine}

theorem not_beginMarker_of_endMarker (h : endMarker <+: line.text) :
    ¬ beginMarker <+: line.text := by
  intro hbegin
  have heither := List.prefix_or_prefix_of_prefix h hbegin
  revert heither
  decide

theorem readLine_opens {fields : Pairs} (hclosed : s.opened = none) (hopens : Opens line fields) :
    readLine options s line = .ok { s with opened := some (line, fields), body := [] } := by
  rw [readLine, if_pos hopens.marker, readBegin, require_of_pos _ hopens.ending, ok_bind,
    hopens.parsed, ok_bind, hopens.checked, ok_bind]
  simp [closeTransition, hclosed, pure, Except.pure, Bind.bind, Except.bind]

theorem readLine_closes {opening : DecodedLine} {beginFields endFields : Pairs}
    (hopen : s.opened = some (opening, beginFields)) (hcloses : Closes line endFields)
    (hagree : AgreeOn beginFields endFields)
    (hexpects : options.expects (field endFields "cmd")) :
    readLine options s line = .ok { s with
      frames := s.frames ++
        [⟨beginFields, endFields, s.body, opening.byteStart, line.byteEnd⟩]
      opened := none
      body := [] } := by
  rw [readLine, if_neg (not_beginMarker_of_endMarker hcloses.marker), if_pos hcloses.marker,
    readEnd]
  simp only [hopen]
  rw [require_of_pos _ hcloses.ending, ok_bind, hcloses.parsed, ok_bind, hcloses.checked,
    ok_bind, require_of_pos _ hagree.seq, ok_bind, require_of_pos _ hagree.cmd, ok_bind,
    require_of_pos _ hagree.flags, ok_bind, require_of_pos _ hexpects]
  rfl

theorem foldlM_body {lines : List DecodedLine} {opening : DecodedLine} {fields : Pairs}
    (hopen : s.opened = some (opening, fields)) (hlines : ∀ line ∈ lines, Ordinary line) :
    lines.foldlM (readLine options) s = .ok { s with body := s.body ++ lines } := by
  induction lines generalizing s with
  | nil => simp [pure, Except.pure]
  | cons line lines ih =>
    obtain ⟨hline, hrest⟩ := List.forall_mem_cons.mp hlines
    have hread : readLine options s line = .ok { s with body := s.body ++ [line] } := by
      rw [readLine, if_neg hline.1, if_neg hline.2]
      simp only [hopen]
    have hfold := ih (s := { s with body := s.body ++ [line] }) hopen hrest
    rw [List.foldlM_cons, hread, ok_bind, hfold]
    simp

theorem fold_of_reads {byteLength : Nat} {lines : List DecodedLine} {pieces : List Piece}
    (honeWay : options.oneWayCommands = []) (h : Reads options byteLength lines pieces)
    (hclosed : s.opened = none) :
    ∃ t, lines.foldlM (readLine options) s = .ok t ∧ t.opened = none ∧
      t.frames = s.frames ++ pieces.filterMap Piece.frame? := by
  induction h generalizing s with
  | nil => exact ⟨s, rfl, hclosed, by simp⟩
  | @outside line lines pieces hline hrest ih =>
    have hread : readLine options s line = .ok { s with outside := s.outside ++ [line] } := by
      rw [readLine, if_neg hline.1, if_neg hline.2]
      simp only [hclosed]
    obtain ⟨t, hfold, htclosed, hframes⟩ :=
      ih (s := { s with outside := s.outside ++ [line] }) hclosed
    rw [List.foldlM_cons, hread, ok_bind]
    exact ⟨t, hfold, htclosed, hframes⟩
  | @frame opening closing beginFields endFields body lines pieces hopens hbody hcloses hagree
      hexpects hrest ih =>
      obtain ⟨t, hfold, htclosed, hframes⟩ := ih (s := { s with
        frames := s.frames ++ [⟨beginFields, endFields, body, opening.byteStart, closing.byteEnd⟩]
        opened := none
        body := [] }) rfl
      have hread : body.foldlM (readLine options)
          { s with opened := some (opening, beginFields), body := [] } =
            .ok { s with opened := some (opening, beginFields), body } :=
        foldlM_body rfl hbody
      have hclose : readLine options { s with opened := some (opening, beginFields), body }
          closing = .ok { s with
            frames := s.frames ++
              [⟨beginFields, endFields, body, opening.byteStart, closing.byteEnd⟩]
            opened := none
            body := [] } := readLine_closes rfl hcloses hagree hexpects
      rw [List.foldlM_cons, readLine_opens hclosed hopens, ok_bind, List.foldlM_append, hread,
        ok_bind, List.foldlM_cons, hclose, ok_bind]
      refine ⟨t, hfold, htclosed, ?_⟩
      rw [hframes, List.filterMap_cons]
      simp [Piece.frame?]
  | transition hopens hbody hcommand hexpects hstops hrest ih =>
    rw [honeWay] at hcommand
    cases hcommand

theorem finish_closed {byteLength : Nat} (hclosed : s.opened = none) (hframes : s.frames ≠ []) :
    finish options byteLength s = .ok s := by
  simp only [finish, closeTransition, hclosed, ok_bind]
  rw [require_of_pos _ fun _ => hframes]
  rfl

end Steps

end NativeInitLab.Cmdproto.Host
