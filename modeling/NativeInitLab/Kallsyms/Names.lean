import Mathlib.Data.Nat.Bitwise
import Mathlib.Data.List.Basic

/-!
The walk over the compressed symbol names of a kernel image, `a90_stock_kallsyms_extract.py`.
-/

namespace NativeInitLab.Kallsyms

/-- What the functions raise: an index past the end of a sequence, or the `RuntimeError` of
`decode_names`. -/
inductive Failure
  | index
  | badRecordLength (cursor : Nat)
  deriving DecidableEq, Repr

def byteAt (data : List UInt8) (cursor : Nat) : Except Failure UInt8 :=
  match data[cursor]? with
  | none => .error .index
  | some byte => .ok byte

def slice (data : List UInt8) (cursor stop : Nat) : List UInt8 := (data.take stop).drop cursor

def parseSymbolRecordLength (data : List UInt8) (cursor stop : Nat) :
    Except Failure (Option (Nat × Nat)) :=
  if stop ≤ cursor then .ok none
  else do
    let first ← byteAt data cursor
    if first &&& 0x80 = 0 then return some (first.toNat, 1)
    else if stop ≤ cursor + 1 then return none
    else
      let second ← byteAt data (cursor + 1)
      if second &&& 0x80 ≠ 0 then return none
      else return some ((first &&& 0x7f).toNat ||| second.toNat <<< 7, 2)

def parseFrom (data : List UInt8) (start stop : Nat) (allowZeroPadding : Bool) (cursor : Nat)
    (offsets : List Nat) : Except Failure (Option (List Nat × Nat)) :=
  if _hcursor : cursor < stop then
    match parseSymbolRecordLength data cursor stop with
    | .error failure => .error failure
    | .ok none =>
      match byteAt data cursor with
      | .error failure => .error failure
      | .ok byte =>
        if byte = 0 ∧ allowZeroPadding = true ∧ (slice data cursor stop).all (· == 0) = true then
          .ok (some (offsets, cursor))
        else .ok none
    | .ok (some (length, headerLen)) =>
      if _hlength : length = 0 then
        if allowZeroPadding = true ∧ (slice data cursor stop).all (· == 0) = true then
          .ok (some (offsets, cursor))
        else .ok none
      else if 0x3FFF < length then .ok none
      else if stop < cursor + headerLen + length then .ok none
      else
        parseFrom data start stop allowZeroPadding (cursor + headerLen + length)
          (offsets ++ [cursor - start])
  else if cursor ≠ stop then .ok none
  else .ok (some (offsets, cursor))
termination_by stop - cursor
decreasing_by omega

def parseRecordOffsets (data : List UInt8) (start stop : Nat) (allowZeroPadding : Bool) :
    Except Failure (Option (List Nat × Nat)) :=
  parseFrom data start stop allowZeroPadding start []

def latin1 (bytes : List UInt8) : String :=
  String.ofList (bytes.map fun byte => Char.ofNat byte.toNat)

def expand (tokens : List (List UInt8)) : List UInt8 → Except Failure (List UInt8)
  | [] => .ok []
  | value :: record =>
    match tokens[value.toNat]? with
    | none => .error .index
    | some token => (token ++ ·) <$> expand tokens record

def decodeNames (data : List UInt8) (start : Nat) (tokens : List (List UInt8)) :
    List Nat → Except Failure (List String)
  | [] => .ok []
  | offset :: offsets => do
    let some (length, headerLen) ← parseSymbolRecordLength data (start + offset) data.length
      | throw (.badRecordLength (start + offset))
    let first := start + offset + headerLen
    let symbol ← expand tokens (slice data first (first + length))
    let decoded ← decodeNames data start tokens offsets
    return latin1 symbol :: decoded

/-! The table as the kernel build writes it. -/

def lengthHeader (length : Nat) : List UInt8 :=
  if length < 0x80 then [length.toUInt8]
  else [(0x80 + length % 0x80).toUInt8, (length / 0x80).toUInt8]

def encodeRecord (record : List UInt8) : List UInt8 := lengthHeader record.length ++ record

def encodeTable (records : List (List UInt8)) : List UInt8 := records.flatMap encodeRecord

def startsFrom (offset : Nat) : List (List UInt8) → List Nat
  | [] => []
  | record :: records => offset :: startsFrom (offset + (encodeRecord record).length) records

def Encodable (record : List UInt8) : Prop := 1 ≤ record.length ∧ record.length ≤ 0x3FFF

theorem byteAt_append (before after : List UInt8) (byte : UInt8) :
    byteAt (before ++ byte :: after) before.length = .ok byte := by
  rw [byteAt, List.getElem?_append_right (Nat.le_refl _), Nat.sub_self]
  rfl

theorem byteAt_append_next (before after : List UInt8) (first second : UInt8) :
    byteAt (before ++ first :: second :: after) (before.length + 1) = .ok second := by
  have hnext := byteAt_append (before ++ [first]) after second
  rwa [List.append_assoc, List.length_append] at hnext

theorem slice_append (before middle after : List UInt8) :
    slice (before ++ (middle ++ after)) before.length (before.length + middle.length) = middle := by
  rw [slice, List.take_length_add_append, List.take_left, List.drop_left]

theorem short_byte {length : Nat} (hlength : length < 0x80) :
    length.toUInt8 &&& 0x80 = 0 ∧ length.toUInt8.toNat = length := by
  revert length
  decide

theorem continued_byte {low : Nat} (hlow : low < 0x80) :
    (0x80 + low).toUInt8 &&& 0x80 ≠ 0 ∧ ((0x80 + low).toUInt8 &&& 0x7f).toNat = low := by
  revert low
  decide

theorem length_lengthHeader (length : Nat) :
    (lengthHeader length).length = if length < 0x80 then 1 else 2 := by
  unfold lengthHeader
  split <;> rfl

section Header

variable {length stop : Nat}

theorem parseSymbolRecordLength_header (before after : List UInt8) (hlength : length ≤ 0x3FFF)
    (hstop : before.length + (lengthHeader length).length ≤ stop) :
    parseSymbolRecordLength (before ++ (lengthHeader length ++ after)) before.length stop =
      .ok (some (length, (lengthHeader length).length)) := by
  rw [length_lengthHeader] at hstop
  unfold parseSymbolRecordLength
  by_cases hshort : length < 0x80
  · obtain ⟨hbit, hvalue⟩ := short_byte hshort
    have hbyte := byteAt_append before after length.toUInt8
    simp only [hshort, if_true] at hstop
    simp only [lengthHeader, hshort, if_true, List.singleton_append, hbyte,
      if_neg (by omega : ¬ stop ≤ before.length)]
    show (if length.toUInt8 &&& 0x80 = 0 then _ else _) = _
    rw [if_pos hbit, hvalue]
    rfl
  · have hhigh : length / 0x80 < 0x80 := by omega
    obtain ⟨hcontinued, hlow⟩ := continued_byte (Nat.mod_lt length (by decide : 0 < 0x80))
    obtain ⟨hbit, hvalue⟩ := short_byte hhigh
    have hbyte := byteAt_append before ((length / 0x80).toUInt8 :: after)
      (0x80 + length % 0x80).toUInt8
    have hnext := byteAt_append_next before after (0x80 + length % 0x80).toUInt8
      (length / 0x80).toUInt8
    have hjoin : length % 0x80 ||| (length / 0x80) <<< 7 = length := by
      rw [Nat.or_comm, Nat.shiftLeft_eq, Nat.mul_comm,
        ← Nat.two_pow_add_eq_or_of_lt (Nat.mod_lt length (by decide : 0 < 2 ^ 7))]
      exact Nat.div_add_mod length 0x80
    simp only [hshort, if_false] at hstop
    simp only [lengthHeader, hshort, if_false, List.cons_append, List.nil_append, hbyte,
      if_neg (by omega : ¬ stop ≤ before.length)]
    show (if (0x80 + length % 0x80).toUInt8 &&& 0x80 = 0 then _
      else if stop ≤ before.length + 1 then _ else _) = _
    rw [if_neg hcontinued, if_neg (by omega), hnext]
    show (if (length / 0x80).toUInt8 &&& 0x80 ≠ 0 then _ else _) = _
    rw [if_neg (not_not_intro hbit), hlow, hvalue, hjoin]
    rfl

theorem parseSymbolRecordLength_cut {count : Nat} (before after : List UInt8) (hpos : 0 < count)
    (hcount : count < (lengthHeader length).length) :
    parseSymbolRecordLength (before ++ ((lengthHeader length).take count ++ after)) before.length
        (before.length + count) = .ok none ∧
      ∃ byte, byteAt (before ++ ((lengthHeader length).take count ++ after)) before.length =
        .ok byte ∧ byte ≠ 0 := by
  rw [length_lengthHeader] at hcount
  have hlong : ¬ length < 0x80 := by
    intro hshort
    rw [if_pos hshort] at hcount
    omega
  rw [if_neg hlong] at hcount
  obtain rfl : count = 1 := by omega
  have hcontinued := (continued_byte (Nat.mod_lt length (by decide : 0 < 0x80))).1
  have hbyte := byteAt_append before after (0x80 + length % 0x80).toUInt8
  have hhead : (lengthHeader length).take 1 ++ after = (0x80 + length % 0x80).toUInt8 :: after := by
    simp [lengthHeader, hlong]
  rw [hhead]
  constructor
  · unfold parseSymbolRecordLength
    rw [if_neg (by omega), hbyte]
    show (if (0x80 + length % 0x80).toUInt8 &&& 0x80 = 0 then _
      else if before.length + 1 ≤ before.length + 1 then _ else _) = _
    rw [if_neg hcontinued, if_pos (Nat.le_refl _)]
    rfl
  · refine ⟨_, hbyte, ?_⟩
    intro hzero
    rw [hzero] at hcontinued
    exact hcontinued (by decide)

end Header

@[simp] theorem encodeTable_nil : encodeTable [] = [] := rfl

@[simp] theorem encodeTable_cons (record : List UInt8) (records : List (List UInt8)) :
    encodeTable (record :: records) = encodeRecord record ++ encodeTable records := rfl

theorem length_encodeRecord (record : List UInt8) :
    (encodeRecord record).length = (lengthHeader record.length).length + record.length :=
  List.length_append

section Walk

variable {data : List UInt8} {start stop : Nat} {allow : Bool} {offsets : List Nat}

theorem parseFrom_record {before record after : List UInt8} (hrecord : Encodable record)
    (hstop : before.length + (encodeRecord record).length ≤ stop) :
    parseFrom (before ++ (encodeRecord record ++ after)) start stop allow before.length offsets =
      parseFrom (before ++ (encodeRecord record ++ after)) start stop allow
        (before ++ encodeRecord record).length (offsets ++ [before.length - start]) := by
  have hlength := length_encodeRecord record
  have hheader : parseSymbolRecordLength (before ++ (encodeRecord record ++ after)) before.length
      stop = .ok (some (record.length, (lengthHeader record.length).length)) := by
    rw [encodeRecord, List.append_assoc]
    exact parseSymbolRecordLength_header _ _ hrecord.2 (by omega)
  have hpos := hrecord.1
  rw [parseFrom, dif_pos (by omega), hheader, List.length_append, hlength, ← Nat.add_assoc]
  show (if _ : record.length = 0 then _ else if 0x3FFF < record.length then _
    else if stop < before.length + (lengthHeader record.length).length + record.length then _
    else _) = _
  rw [dif_neg (by omega), if_neg (by have := hrecord.2; omega), if_neg (by omega)]

theorem parseFrom_records (records : List (List UInt8)) {before after : List UInt8}
    (hrecords : ∀ record ∈ records, Encodable record) (hstart : start ≤ before.length)
    (hstop : (before ++ encodeTable records).length ≤ stop) :
    parseFrom (before ++ (encodeTable records ++ after)) start stop allow before.length offsets =
      parseFrom (before ++ (encodeTable records ++ after)) start stop allow
        (before ++ encodeTable records).length
        (offsets ++ startsFrom (before.length - start) records) := by
  induction records generalizing before offsets with
  | nil => simp [startsFrom]
  | cons record records ih =>
    obtain ⟨hrecord, hrecords⟩ := List.forall_mem_cons.mp hrecords
    have hsplit : before ++ (encodeTable (record :: records) ++ after) =
        before ++ (encodeRecord record ++ (encodeTable records ++ after)) := by
      rw [encodeTable_cons, List.append_assoc]
    have hnext : before ++ (encodeRecord record ++ (encodeTable records ++ after)) =
        before ++ encodeRecord record ++ (encodeTable records ++ after) :=
      (List.append_assoc _ _ _).symm
    rw [encodeTable_cons, ← List.append_assoc before, List.length_append] at hstop
    have hshift : (before ++ encodeRecord record).length - start =
        before.length - start + (encodeRecord record).length := by
      rw [List.length_append]
      omega
    rw [hsplit, parseFrom_record hrecord (by rw [← List.length_append]; omega), hnext,
      ih hrecords (by rw [List.length_append]; omega) (by rw [List.length_append]; omega),
      encodeTable_cons, startsFrom, ← List.append_assoc before, List.append_assoc offsets, hshift]
    rfl

theorem parseFrom_end : parseFrom data start stop allow stop offsets = .ok (some (offsets, stop)) := by
  rw [parseFrom, dif_neg (Nat.lt_irrefl stop), if_neg (not_not_intro rfl)]

theorem parseFrom_padding {before after : List UInt8} {zeros : Nat} (hzeros : 0 < zeros) :
    parseFrom (before ++ (List.replicate zeros 0 ++ after)) start (before.length + zeros) allow
        before.length offsets =
      .ok (if allow = true then some (offsets, before.length) else none) := by
  have hslice : (slice (before ++ (List.replicate zeros 0 ++ after)) before.length
      (before.length + zeros)).all (· == 0) = true := by
    have hzero := slice_append before (List.replicate zeros 0) after
    rw [List.length_replicate] at hzero
    rw [hzero, List.all_replicate]
    simp
  obtain ⟨more, rfl⟩ : ∃ more, zeros = more + 1 := ⟨zeros - 1, by omega⟩
  have hheader : parseSymbolRecordLength (before ++ (List.replicate (more + 1) 0 ++ after))
      before.length (before.length + (more + 1)) = .ok (some (0, 1)) :=
    parseSymbolRecordLength_header _ _ (Nat.zero_le _) (by rw [length_lengthHeader, if_pos] <;> omega)
  rw [parseFrom, dif_pos (by omega), hheader]
  show (if _ : 0 = 0 then if allow = true ∧ _ then _ else _ else _) = _
  rw [dif_pos rfl]
  cases allow with
  | false => rfl
  | true => rw [if_pos ⟨rfl, hslice⟩]; rfl

theorem parseFrom_cut {before record after : List UInt8} {count : Nat} (hrecord : Encodable record)
    (hpos : 0 < count) (hcount : count < (encodeRecord record).length) :
    parseFrom (before ++ ((encodeRecord record).take count ++ after)) start (before.length + count)
      allow before.length offsets = .ok none := by
  have hlength := length_encodeRecord record
  rw [parseFrom, dif_pos (by omega)]
  by_cases hheader : count < (lengthHeader record.length).length
  · have htake : (encodeRecord record).take count = (lengthHeader record.length).take count :=
      List.take_append_of_le_length (Nat.le_of_lt hheader)
    obtain ⟨hparse, byte, hbyte, hne⟩ :=
      parseSymbolRecordLength_cut before after hpos hheader
    rw [htake, hparse]
    show (match byteAt _ before.length with | .error failure => _ | .ok byte => _) = _
    rw [hbyte]
    exact if_neg fun hzero => hne hzero.1
  · have htake : (encodeRecord record).take count ++ after = lengthHeader record.length ++
        (record.take (count - (lengthHeader record.length).length) ++ after) := by
      rw [encodeRecord, List.take_append, List.take_of_length_le (Nat.le_of_not_lt hheader),
        List.append_assoc]
    have hparse : parseSymbolRecordLength (before ++ ((encodeRecord record).take count ++ after))
        before.length (before.length + count) =
          .ok (some (record.length, (lengthHeader record.length).length)) := by
      rw [htake]
      exact parseSymbolRecordLength_header _ _ hrecord.2 (by omega)
    have hrecordPos := hrecord.1
    have hrecordLe := hrecord.2
    rw [hparse]
    show (if _ : record.length = 0 then _ else if 0x3FFF < record.length then _
      else if before.length + count <
        before.length + (lengthHeader record.length).length + record.length then _ else _) = _
    rw [dif_neg (by omega), if_neg (by omega), if_pos (by omega)]

end Walk

section Names

def symbol (tokens : List (List UInt8)) (record : List UInt8) : List UInt8 :=
  record.flatMap fun value => tokens.getD value.toNat []

variable {tokens : List (List UInt8)} {start : Nat}

theorem expand_eq {record : List UInt8} (htokens : ∀ value ∈ record, value.toNat < tokens.length) :
    expand tokens record = .ok (symbol tokens record) := by
  induction record with
  | nil => rfl
  | cons value record ih =>
    obtain ⟨hvalue, hrecord⟩ := List.forall_mem_cons.mp htokens
    have htoken : tokens[value.toNat]? = some (tokens.getD value.toNat []) := by
      rw [List.getD_eq_getElem?_getD, List.getElem?_eq_getElem hvalue]
      rfl
    rw [expand, htoken, ih hrecord]
    rfl

theorem decodeNames_starts (records : List (List UInt8)) {before after : List UInt8} {offset : Nat}
    (hrecords : ∀ record ∈ records, Encodable record)
    (htokens : ∀ record ∈ records, ∀ value ∈ record, value.toNat < tokens.length)
    (hoffset : start + offset = before.length) :
    decodeNames (before ++ (encodeTable records ++ after)) start tokens
        (startsFrom offset records) =
      .ok (records.map fun record => latin1 (symbol tokens record)) := by
  induction records generalizing before offset with
  | nil => rfl
  | cons record records ih =>
    obtain ⟨hrecord, hrecords⟩ := List.forall_mem_cons.mp hrecords
    obtain ⟨hrecordTokens, htokens⟩ := List.forall_mem_cons.mp htokens
    have hdata : before ++ (encodeTable (record :: records) ++ after) =
        before ++ (lengthHeader record.length ++ (record ++ (encodeTable records ++ after))) := by
      rw [encodeTable_cons, encodeRecord, List.append_assoc, List.append_assoc]
    have hroom : before.length + (lengthHeader record.length).length ≤ (before ++
        (lengthHeader record.length ++ (record ++ (encodeTable records ++ after)))).length := by
      simp only [List.length_append]
      omega
    have hheader := parseSymbolRecordLength_header before
      (record ++ (encodeTable records ++ after)) hrecord.2 hroom
    have hslice := slice_append (before ++ lengthHeader record.length) record
      (encodeTable records ++ after)
    rw [List.append_assoc, List.length_append] at hslice
    have hend : start + (offset + (encodeRecord record).length) =
        (before ++ encodeRecord record).length := by
      rw [List.length_append]
      omega
    have hrest := ih hrecords htokens hend
    have hagain : before ++ encodeRecord record ++ (encodeTable records ++ after) =
        before ++ (lengthHeader record.length ++ (record ++ (encodeTable records ++ after))) := by
      rw [encodeRecord, List.append_assoc, List.append_assoc]
    rw [hagain] at hrest
    rw [hdata, startsFrom, decodeNames, hoffset, hheader]
    show (expand tokens (slice _ (before.length + (lengthHeader record.length).length)
      (before.length + (lengthHeader record.length).length + record.length)) >>= _) = _
    rw [hslice, expand_eq hrecordTokens]
    show (decodeNames _ start tokens _ >>= _) = _
    rw [hrest]
    rfl

end Names

/-- The offsets are the starts of the records, and each record ends where the next one, or the
table's end, is. -/
structure Tiles (records : List (List UInt8)) (offsets : List Nat) : Prop where
  length_eq : offsets.length = records.length
  first : (offsets ++ [(encodeTable records).length])[0]? = some 0
  start : ∀ front record back, records = front ++ record :: back →
    offsets[front.length]? = some (encodeTable front).length
  next : ∀ index record, records[index]? = some record → ∃ offset, offsets[index]? = some offset ∧
    (offsets ++ [(encodeTable records).length])[index + 1]? =
      some (offset + (encodeRecord record).length)

theorem length_startsFrom (offset : Nat) (records : List (List UInt8)) :
    (startsFrom offset records).length = records.length := by
  induction records generalizing offset with
  | nil => rfl
  | cons record records ih => rw [startsFrom, List.length_cons, ih, List.length_cons]

theorem startsFrom_boundary (front back : List (List UInt8)) (offset : Nat) :
    (startsFrom offset (front ++ back) ++
        [offset + (encodeTable (front ++ back)).length])[front.length]? =
      some (offset + (encodeTable front).length) := by
  induction front generalizing offset with
  | nil => cases back <;> simp [startsFrom]
  | cons record front ih =>
    have hrest := ih (offset + (encodeRecord record).length)
    simp only [List.cons_append, startsFrom, encodeTable_cons, List.length_append,
      List.length_cons, List.getElem?_cons_succ, ← Nat.add_assoc]
    simpa only [List.length_append, ← Nat.add_assoc] using hrest

theorem tiles_startsFrom (records : List (List UInt8)) : Tiles records (startsFrom 0 records) := by
  have hboundary (front back : List (List UInt8)) (hsplit : records = front ++ back) :
      (startsFrom 0 records ++ [(encodeTable records).length])[front.length]? =
        some (encodeTable front).length := by
    have hat := startsFrom_boundary front back 0
    rwa [← hsplit, Nat.zero_add, Nat.zero_add] at hat
  have hstart (front : List (List UInt8)) (record : List UInt8) (back : List (List UInt8))
      (hsplit : records = front ++ record :: back) :
      (startsFrom 0 records)[front.length]? = some (encodeTable front).length := by
    have hat := hboundary front (record :: back) hsplit
    rwa [List.getElem?_append_left] at hat
    rw [length_startsFrom, hsplit, List.length_append, List.length_cons]
    omega
  refine ⟨length_startsFrom 0 records, hboundary [] records rfl, hstart, ?_⟩
  intro index record hrecord
  obtain ⟨hlt, hget⟩ := List.getElem?_eq_some_iff.mp hrecord
  have hsplit : records = records.take index ++ record :: records.drop (index + 1) := by
    rw [← hget, List.getElem_cons_drop, List.take_append_drop]
  have hlength : (records.take index).length = index := List.length_take_of_le (Nat.le_of_lt hlt)
  have hat := hstart _ record _ hsplit
  have hnext := hboundary (records.take index ++ [record]) (records.drop (index + 1)) (by
    rw [List.append_assoc]
    exact hsplit)
  have htable : (encodeTable (records.take index ++ [record])).length =
      (encodeTable (records.take index)).length + (encodeRecord record).length := by
    simp [encodeTable]
  rw [hlength] at hat
  rw [List.length_append, hlength, htable] at hnext
  exact ⟨_, hat, hnext⟩

/-- The walk inverts the encoding, at any place of an image: it finds the start of every record, the
records tile the table and expand to their tokens; a region cut inside a record is refused, and
zeros after the table are skipped exactly when padding is allowed. -/
theorem kallsyms_walk_inverts_encoding (records : List (List UInt8))
    (hrecords : ∀ record ∈ records, Encodable record) (tokens : List (List UInt8))
    (htokens : ∀ record ∈ records, ∀ value ∈ record, value.toNat < tokens.length)
    (before after : List UInt8) :
    (∀ allow, parseRecordOffsets (before ++ (encodeTable records ++ after)) before.length
      (before ++ encodeTable records).length allow =
        .ok (some (startsFrom 0 records, (before ++ encodeTable records).length))) ∧
    Tiles records (startsFrom 0 records) ∧
    decodeNames (before ++ (encodeTable records ++ after)) before.length tokens
      (startsFrom 0 records) = .ok (records.map fun record => latin1 (symbol tokens record)) ∧
    (∀ front record back count allow, records = front ++ record :: back → 0 < count →
      count < (encodeRecord record).length →
      parseRecordOffsets (before ++ (encodeTable front ++ ((encodeRecord record).take count ++ after)))
        before.length ((before ++ encodeTable front).length + count) allow = .ok none) ∧
    (∀ zeros, parseRecordOffsets
      (before ++ (encodeTable records ++ (List.replicate zeros 0 ++ after))) before.length
      ((before ++ encodeTable records).length + zeros) true =
        .ok (some (startsFrom 0 records, (before ++ encodeTable records).length))) ∧
    ∀ zeros, 0 < zeros → parseRecordOffsets
      (before ++ (encodeTable records ++ (List.replicate zeros 0 ++ after))) before.length
      ((before ++ encodeTable records).length + zeros) false = .ok none := by
  have hpadded (zeros : Nat) (hzeros : 0 < zeros) (allow : Bool) :
      parseRecordOffsets (before ++ (encodeTable records ++ (List.replicate zeros 0 ++ after)))
        before.length ((before ++ encodeTable records).length + zeros) allow =
          .ok (if allow = true then
            some (startsFrom 0 records, (before ++ encodeTable records).length) else none) := by
    rw [parseRecordOffsets, parseFrom_records records hrecords (Nat.le_refl _) (Nat.le_add_right _ _),
      ← List.append_assoc, parseFrom_padding hzeros, Nat.sub_self]
    rfl
  have hwhole (allow : Bool) (after : List UInt8) :
      parseRecordOffsets (before ++ (encodeTable records ++ after)) before.length
        (before ++ encodeTable records).length allow =
          .ok (some (startsFrom 0 records, (before ++ encodeTable records).length)) := by
    rw [parseRecordOffsets, parseFrom_records records hrecords (Nat.le_refl _) (Nat.le_refl _),
      parseFrom_end, Nat.sub_self]
    rfl
  refine ⟨fun allow => hwhole allow after, tiles_startsFrom records,
    decodeNames_starts records hrecords htokens rfl, ?_, ?_,
    fun zeros hzeros => hpadded zeros hzeros false⟩
  · intro front record back count allow hsplit hpos hcount
    have hfront (other : List UInt8) (hother : other ∈ front) : Encodable other :=
      hrecords other (by rw [hsplit]; exact List.mem_append_left _ hother)
    have hrecord : Encodable record :=
      hrecords record (by rw [hsplit]; exact List.mem_append_right _ List.mem_cons_self)
    rw [parseRecordOffsets, parseFrom_records front hfront (Nat.le_refl _) (Nat.le_add_right _ _),
      ← List.append_assoc, parseFrom_cut hrecord hpos hcount]
  · intro zeros
    cases zeros with
    | zero => exact hwhole true after
    | succ zeros => exact hpadded (zeros + 1) (Nat.succ_pos zeros) true

theorem kallsyms_walk_inverts_encoding_sample :
    parseRecordOffsets [9, 2, 1, 0, 1, 2, 0] 1 6 false = .ok (some ([0, 3], 6)) ∧
      decodeNames [9, 2, 1, 0, 1, 2, 0] 1 [[112], [114, 105], [107]] [0, 3] =
        .ok [latin1 [114, 105, 112], latin1 [107]] :=
  have hwalk := kallsyms_walk_inverts_encoding [[1, 0], [2]] (by simp [Encodable])
    [[112], [114, 105], [107]] (by simp) [9] [0]
  ⟨hwalk.1 false, hwalk.2.2.1⟩

end NativeInitLab.Kallsyms
