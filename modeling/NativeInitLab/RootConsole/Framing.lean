import NativeInitLab.RootConsole.Console
import NativeInitLab.RootConsole.Host

namespace NativeInitLab.RootConsole

open LittleEndian Lockstep

/-! Frames on a byte stream.  The device builds and the host decodes with the same
layout, so a stream of encoded frames is read back under every cut into chunks. -/

namespace Frame

structure Fits (frame : Frame) : Prop where
  kind : frame.kind < 256
  seq : frame.seq < 2 ^ 32
  body : frame.body.length + 32 ≤ maxPayload

variable {link : Link} {frame : Frame}

@[simp] theorem length_head : frame.head.length = 12 := by
  simp [head, magic]

@[simp] theorem length_payload : (frame.payload link).length = frame.body.length + 32 := by
  simp [payload, link.tag_length]

@[simp] theorem length_encode :
    (frame.encode link).length = headerSize + (frame.body.length + 32) := by
  simp [encode, headerSize]
  omega

theorem take_head : (frame.encode link).take 12 = frame.head := by
  rw [encode, List.take_append_of_le_length (by simp)]
  exact List.take_of_length_le (by simp)

theorem drop_header : (frame.encode link).drop headerSize = frame.payload link := by
  have hassoc : frame.encode link =
      (frame.head ++ store 4 (link.crc (frame.head ++ frame.payload link))) ++
        frame.payload link := by
    simp [encode]
  rw [hassoc, List.drop_append_of_le_length (by simp), List.drop_of_length_le (by simp),
    List.nil_append]

theorem window_payload : window headerSize (frame.body.length + 32) (frame.encode link) =
      frame.payload link := by
  rw [window, drop_header]
  exact List.take_of_length_le (by simp)

theorem window_body : window headerSize frame.body.length (frame.encode link) = frame.body := by
  rw [window, drop_header, payload]
  simp

theorem window_tag : window (headerSize + frame.body.length) 32 (frame.encode link) =
      link.tag frame.seq frame.kind frame.body := by
  rw [window, ← List.drop_drop, drop_header, payload]
  simp [List.take_of_length_le, link.tag_length]

theorem headKind_encode (hfits : frame.Fits) : headKind (frame.encode link) = frame.kind := by
  have hkind := hfits.kind
  simp [headKind, encode, head, magic, UInt8.toNat_ofNat']
  omega

theorem headSize_encode (hfits : frame.Fits) :
    headSize (frame.encode link) = frame.body.length + 32 := by
  have hbody := hfits.body
  have hwindow : window 6 2 (frame.encode link) = store 2 (frame.body.length + 32) := by
    simp [window, encode, head, magic]
  rw [headSize, hwindow, value_store_of_lt]
  simp only [maxPayload] at hbody
  omega

theorem headSeq_encode (hfits : frame.Fits) : headSeq (frame.encode link) = frame.seq := by
  have hassoc : frame.encode link =
      (magic ++ [1, UInt8.ofNat frame.kind] ++ store 2 (frame.body.length + 32)) ++
        (store 4 frame.seq ++ (store 4 (link.crc (frame.head ++ frame.payload link)) ++
          frame.payload link)) := by
    simp [encode, head]
  have hwindow : window 8 4 (frame.encode link) = store 4 frame.seq := by
    rw [hassoc, window_append_right (by simp [magic])]
    simp [window, magic]
  rw [headSeq, hwindow, value_store_of_lt]
  exact hfits.seq

theorem headCrc_encode :
    headCrc (frame.encode link) = link.crc (frame.head ++ frame.payload link) := by
  have hwindow : window 12 4 (frame.encode link) =
      store 4 (link.crc (frame.head ++ frame.payload link)) := by
    rw [encode, window_append_right (by simp)]
    simp [window]
  rw [headCrc, hwindow, value_store_of_lt]
  exact link.crc_lt _

theorem headOk_encode (hfits : frame.Fits) : headOk (frame.encode link) := by
  have hsize : headSize (frame.encode link) = frame.body.length + 32 :=
    headSize_encode hfits
  have hbody := hfits.body
  refine ⟨?_, ?_, ?_, ?_⟩
  · simp [encode, head, magic]
  · simp [encode, head, magic]
  · omega
  · omega

end Frame

/-! A header is known from the first sixteen bytes. -/

section Header

variable {bytes : List UInt8} (more : List UInt8)

theorem headSize_append (hlength : headerSize ≤ bytes.length) :
    headSize (bytes ++ more) = headSize bytes := by
  simp only [headerSize] at hlength
  rw [headSize, headSize, window_append_left (by omega)]

theorem headOk_append (hlength : headerSize ≤ bytes.length) :
    headOk (bytes ++ more) ↔ headOk bytes := by
  simp only [headerSize] at hlength
  rw [headOk, headOk, headSize_append more hlength,
    List.take_append_of_le_length (by omega), List.getD_append _ _ _ _ (by omega)]

end Header

def encodeAll (link : Link) (frames : List Frame) : List UInt8 :=
  frames.flatMap (Frame.encode link)

@[simp] theorem encodeAll_nil (link : Link) : encodeAll link [] = [] := rfl

@[simp] theorem encodeAll_cons (link : Link) (frame : Frame) (frames : List Frame) :
    encodeAll link (frame :: frames) = frame.encode link ++ encodeAll link frames := rfl

section Cut

variable {link : Link} {frame : Frame} {bytes left rest more : List UInt8}

theorem cut_header (hfits : frame.Fits) (hcut : bytes ++ left = frame.encode link)
    (hlength : headerSize ≤ bytes.length) :
    headOk bytes ∧ headSize bytes = frame.body.length + 32 := by
  have hok : headOk (frame.encode link) := Frame.headOk_encode hfits
  have hsize : headSize (frame.encode link) = frame.body.length + 32 :=
    Frame.headSize_encode hfits
  rw [← hcut, headOk_append left hlength] at hok
  rw [← hcut, headSize_append left hlength] at hsize
  exact ⟨hok, hsize⟩

theorem cut_or_whole (hstream : bytes ++ rest = frame.encode link ++ more) :
    (∃ left, left ≠ [] ∧ bytes ++ left = frame.encode link ∧ rest = left ++ more) ∨
      ∃ tail, bytes = frame.encode link ++ tail ∧ tail ++ rest = more := by
  rcases List.append_eq_append_iff.mp hstream with
    ⟨left, hencode, hrest⟩ | ⟨tail, hbytes, hmore⟩
  · cases left with
    | nil =>
      refine .inr ⟨[], ?_, ?_⟩
      · rw [List.append_nil, hencode, List.append_nil]
      · rw [hrest, List.nil_append]
        rfl
    | cons byte left =>
      exact .inl ⟨byte :: left, List.cons_ne_nil byte left, hencode.symm, hrest⟩
  · exact .inr ⟨tail, hbytes, hmore.symm⟩

theorem cut_length_lt (hleft : left ≠ []) (hcut : bytes ++ left = frame.encode link) :
    bytes.length < headerSize + (frame.body.length + 32) := by
  have hlength := congrArg List.length hcut
  have hpositive := List.length_pos_iff.mpr hleft
  rw [List.length_append, Frame.length_encode] at hlength
  omega

end Cut

namespace Host

variable {link : Link} {frame : Frame}

theorem decodeOne_encode (hfits : frame.Fits) : decodeOne link (frame.encode link) = .ok frame := by
  have hbody : (frame.encode link).length - headerSize - 32 = frame.body.length := by
    rw [Frame.length_encode]
    omega
  have htag : (frame.encode link).length - 32 = headerSize + frame.body.length := by
    rw [Frame.length_encode]
    omega
  simp only [decodeOne, hbody, htag, Frame.window_body, Frame.window_tag,
    Frame.take_head, Frame.drop_header, Frame.headCrc_encode,
    Frame.headKind_encode hfits, Frame.headSeq_encode hfits, require_of_pos, ok_bind]
  rfl

theorem feedLoop_fuel {fuel other : Nat} {bytes : List UInt8}
    (hfuel : bytes.length ≤ fuel) (hother : bytes.length ≤ other) :
    feedLoop link fuel bytes = feedLoop link other bytes := by
  induction fuel generalizing other bytes with
  | zero =>
    rw [List.length_eq_zero_iff.mp (Nat.le_zero.mp hfuel)]
    cases other <;> rfl
  | succ fuel ih =>
    cases other with
    | zero =>
      rw [List.length_eq_zero_iff.mp (Nat.le_zero.mp hother)]
      rfl
    | succ other =>
      have hdrop (count : Nat) (hcount : headerSize ≤ count) {bound : Nat}
          (hbound : bytes.length ≤ bound + 1) : (bytes.drop count).length ≤ bound := by
        simp only [headerSize] at hcount
        rw [List.length_drop]
        omega
      rw [feedLoop, feedLoop, ih (hdrop _ (Nat.le_add_right _ _) hfuel)
        (hdrop _ (Nat.le_add_right _ _) hother)]

theorem feed_eq (bytes : List UInt8) : feed link bytes =
      if bytes.length < headerSize then .ok ([], bytes)
      else if ¬ headOk bytes then .error "invalid frame header"
      else if bytes.length < headerSize + headSize bytes then .ok ([], bytes)
      else do
        let frame ← decodeOne link (bytes.take (headerSize + headSize bytes))
        let (frames, rest) ← feed link (bytes.drop (headerSize + headSize bytes))
        return (frame :: frames, rest) := by
  have hdrop : (bytes.drop (headerSize + headSize bytes)).length ≤ bytes.length := by
    rw [List.length_drop]
    exact Nat.sub_le _ _
  rw [feed, feedLoop_fuel (Nat.le_refl _) (Nat.le_succ bytes.length), feedLoop, feed,
    feedLoop_fuel (Nat.le_refl _) hdrop]

theorem feed_append {bytes more rest tail : List UInt8} {frames later : List Frame}
    (hfirst : feed link bytes = .ok (frames, rest))
    (hsecond : feed link (rest ++ more) = .ok (later, tail)) :
    feed link (bytes ++ more) = .ok (frames ++ later, tail) := by
  induction hlength : bytes.length using Nat.strong_induction_on generalizing bytes frames with
  | _ length ih =>
    rw [feed_eq] at hfirst
    split at hfirst
    case isTrue =>
      cases hfirst
      exact hsecond
    case isFalse hlong =>
      rw [Nat.not_lt] at hlong
      split at hfirst
      case isTrue => cases hfirst
      case isFalse hok =>
        rw [not_not] at hok
        split at hfirst
        case isTrue =>
          cases hfirst
          exact hsecond
        case isFalse hwhole =>
          rw [Nat.not_lt] at hwhole
          cases hframe : decodeOne link (bytes.take (headerSize + headSize bytes)) with
          | error failure =>
            rw [hframe] at hfirst
            cases hfirst
          | ok frame =>
            rw [hframe, ok_bind] at hfirst
            cases hnext : feed link (bytes.drop (headerSize + headSize bytes)) with
            | error failure =>
              rw [hnext] at hfirst
              cases hfirst
            | ok result =>
              obtain ⟨others, rest'⟩ := result
              rw [hnext] at hfirst
              cases hfirst
              have hshorter : (bytes.drop (headerSize + headSize bytes)).length <
                  length := by
                simp only [headerSize] at hwhole hlong ⊢
                rw [List.length_drop]
                omega
              have hrest := ih _ hshorter hnext rfl
              rw [feed_eq, headSize_append more hlong, List.length_append, if_neg (by omega),
                if_neg (not_not.mpr ((headOk_append more hlong).mpr hok)),
                if_neg (by omega), List.take_append_of_le_length hwhole,
                List.drop_append_of_le_length hwhole, hframe, ok_bind, hrest]
              rfl

theorem feedLoop_short {fuel : Nat} {bytes left : List UInt8} (hfits : frame.Fits)
    (hleft : left ≠ []) (hcut : bytes ++ left = frame.encode link) :
    feedLoop link fuel bytes = .ok ([], bytes) := by
  cases fuel with
  | zero => rfl
  | succ fuel =>
    rw [feedLoop]
    split
    case isTrue => rfl
    case isFalse hlong =>
      obtain ⟨hok, hsize⟩ := cut_header hfits hcut (Nat.not_lt.mp hlong)
      have hshort := cut_length_lt hleft hcut
      rw [if_neg (not_not.mpr hok), if_pos (by rwa [hsize])]

theorem feedLoop_frame {fuel : Nat} (hfits : frame.Fits) (tail : List UInt8) :
    feedLoop link (fuel + 1) (frame.encode link ++ tail) = (do
      let (frames, rest) ← feedLoop link fuel tail
      return (frame :: frames, rest)) := by
  have hlength : headerSize ≤ (frame.encode link).length := by
    rw [Frame.length_encode]
    omega
  have hsize : headerSize + headSize (frame.encode link ++ tail) = (frame.encode link).length := by
    rw [headSize_append tail hlength, Frame.headSize_encode hfits, Frame.length_encode]
  rw [feedLoop, if_neg, if_neg, if_neg, hsize, List.take_left, List.drop_left,
    decodeOne_encode hfits, ok_bind]
  · rw [hsize, List.length_append]
    omega
  · exact not_not.mpr ((headOk_append tail hlength).mpr (Frame.headOk_encode hfits))
  · rw [List.length_append]
    omega

theorem feedLoop_cut (frames : List Frame) (hfits : ∀ frame ∈ frames, frame.Fits)
    {fuel : Nat} {bytes rest : List UInt8} (hfuel : bytes.length ≤ fuel)
    (hstream : bytes ++ rest = encodeAll link frames) :
    ∃ whole left tail, frames = whole ++ left ∧ feedLoop link fuel bytes = .ok (whole, tail) ∧
      tail ++ rest = encodeAll link left := by
  induction frames generalizing fuel bytes with
  | nil =>
    obtain ⟨rfl, rfl⟩ := List.append_eq_nil_iff.mp hstream
    refine ⟨[], [], [], rfl, ?_, rfl⟩
    cases fuel <;> simp [feedLoop]
  | cons frame frames ih =>
    have hframe := hfits frame List.mem_cons_self
    rw [encodeAll_cons] at hstream
    rcases cut_or_whole hstream with ⟨left, hleft, hcut, -⟩ | ⟨tail, rfl, htail⟩
    · exact ⟨[], frame :: frames, bytes, rfl, feedLoop_short hframe hleft hcut, hstream⟩
    · have hpositive : 0 < (frame.encode link).length := by
        rw [Frame.length_encode]
        omega
      rw [List.length_append] at hfuel
      obtain ⟨fuel, rfl⟩ := Nat.exists_eq_succ_of_ne_zero (by omega : fuel ≠ 0)
      obtain ⟨whole, left, rest', rfl, hloop, hleft⟩ :=
        ih (fun other hother => hfits other (List.mem_cons_of_mem frame hother))
          (by omega : tail.length ≤ fuel) htail
      refine ⟨frame :: whole, left, rest', rfl, ?_, hleft⟩
      rw [Nat.succ_eq_add_one, feedLoop_frame hframe, hloop]
      rfl

theorem feed_cut {frames : List Frame} (hfits : ∀ frame ∈ frames, frame.Fits)
    {bytes rest : List UInt8} (hstream : bytes ++ rest = encodeAll link frames) :
    ∃ whole left tail, frames = whole ++ left ∧ feed link bytes = .ok (whole, tail) ∧
      tail ++ rest = encodeAll link left :=
  feedLoop_cut frames hfits (Nat.le_refl _) hstream

theorem feed_encode (hfits : frame.Fits) : feed link (frame.encode link) = .ok ([frame], []) := by
  have hlength : (frame.encode link).length = (headerSize + frame.body.length + 31) + 1 := by
    rw [Frame.length_encode]
    omega
  rw [feed, hlength, ← List.append_nil (frame.encode link), feedLoop_frame hfits, feedLoop]
  rfl

structure SameRequests (h h' : ReplayState) : Prop where
  requests : h'.requests = h.requests
  requestBodies : h'.requestBodies = h.requestBodies
  controlSequence : h'.controlSequence = h.controlSequence

theorem SameRequests.symm {h h' : ReplayState} (hsame : SameRequests h h') : SameRequests h' h :=
  ⟨hsame.requests.symm, hsame.requestBodies.symm, hsame.controlSequence.symm⟩

theorem SameRequests.trans {h h' last : ReplayState} (hfirst : SameRequests h h')
    (hsecond : SameRequests h' last) : SameRequests h last :=
  ⟨hsecond.requests.trans hfirst.requests, hsecond.requestBodies.trans hfirst.requestBodies,
    hsecond.controlSequence.trans hfirst.controlSequence⟩

/-! What a request that `send` admits satisfies. -/

theorem validateRequest_kind {kind : Nat} {body : List UInt8}
    (hvalid : validateRequest kind body = .ok ()) :
    kind ∈ [kindExec, kindStatus, kindCancel, kindControl] := by
  rw [validateRequest, require_bind_eq_ok] at hvalid
  exact hvalid.1

theorem send_spec {s t : Session} {kind count : Nat} {body taken : List UInt8}
    (hsend : send link s kind body count = .ok (t, taken)) :
    s.stopped = false ∧ validateRequest kind body = .ok () ∧
      s.state.controlSequence = none ∧ s.sequence < 0xffffffff ∧
      Frame.Fits ⟨kind, s.sequence, body⟩ ∧
      t = { s with
        state := register s.state s.sequence kind body
        sequence := s.sequence + 1
        tx := s.tx ++ (Frame.encode link ⟨kind, s.sequence, body⟩).take count
        stopped := decide (((Frame.encode link ⟨kind, s.sequence, body⟩).take count).length <
          (Frame.encode link ⟨kind, s.sequence, body⟩).length) } ∧
      taken = (Frame.encode link ⟨kind, s.sequence, body⟩).take count := by
  have hkinds : ∀ kind ∈ [kindExec, kindStatus, kindCancel, kindControl], kind < 256 := by
    decide
  rw [send, bind_eq_ok] at hsend
  obtain ⟨⟨⟩, hok, hresult⟩ := hsend
  cases hresult
  rw [sendOk, require_bind_eq_ok, require_bind_eq_ok, bind_eq_ok] at hok
  obtain ⟨hstopped, -, ⟨⟩, hvalid, hok⟩ := hok
  rw [require_bind_eq_ok, require_bind_eq_ok, require_bind_eq_ok] at hok
  obtain ⟨hcontrol, -, hsequence, hbody⟩ := hok
  refine ⟨hstopped, hvalid, hcontrol, hsequence,
    ⟨hkinds kind (validateRequest_kind hvalid), ?_, ?_⟩, rfl, rfl⟩
  · exact Nat.lt_trans hsequence (by decide)
  · by_contra hlong
    rw [require_of_neg _ hlong] at hbody
    cases hbody

end Host
end NativeInitLab.RootConsole
