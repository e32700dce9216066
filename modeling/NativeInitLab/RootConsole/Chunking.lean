import NativeInitLab.RootConsole.Outcomes
import NativeInitLab.RootConsole.Sealing

namespace NativeInitLab.RootConsole

open LittleEndian Lockstep

section Receiving

open Device

variable {p : Profile} {s : State} {now : Nat} {answers : RequestAnswers} {bytes : List UInt8}

/-- The reader is inside a frame, before or after its header. -/
def Reading (s : State) : Prop :=
  s.rxSize = 0 ∧ s.rx.length < headerSize ∨
    headerSize ≤ s.rx.length ∧ s.rx.length < s.rxSize ∧
      s.rxSize = headerSize + headSize s.rx

theorem receive_data (hbytes : bytes ≠ [])
    (hlength : bytes.length ≤ receiveTarget s - s.rx.length) :
    receive p s now (.data bytes) answers =
      andThen (header (append s bytes now)) fun s => complete p s now answers := by
  rw [receive, if_neg]
  simp only [not_or]
  exact ⟨hbytes, Nat.not_lt.mpr hlength⟩

theorem complete_of_ne (hopen : s.rxSize = 0 ∨ s.rx.length ≠ s.rxSize) :
    complete p s now answers = (s, none) := by
  rw [complete, if_neg]
  rintro ⟨hsize, hlength⟩
  exact hopen.elim hsize (fun h => h hlength)

theorem header_of_ne (hother : ¬ (s.rx.length = headerSize ∧ s.rxSize = 0)) :
    header s = (s, none) := by
  rw [header, if_neg hother]

end Receiving

/-! The two incremental readers on one stream.  The host appends each chunk to its
pending bytes; the device reads up to the end of the header and then up to the end
of the frame. -/

namespace Host

/-- The frames that successive calls of `feed` return, with the bytes left pending
or the exception that ended the calls. -/
def feedAll (link : Link) :
    List UInt8 → List (List UInt8) → List Frame × Except String (List UInt8)
  | pending, [] => ([], .ok pending)
  | pending, chunk :: chunks =>
    match feed link (pending ++ chunk) with
    | .error failure => ([], .error failure)
    | .ok (frames, rest) =>
      let later := feedAll link rest chunks
      (frames ++ later.1, later.2)

variable {link : Link} {frames : List Frame}

theorem feed_encodeAll (hfits : ∀ frame ∈ frames, frame.Fits) :
    feed link (encodeAll link frames) = .ok (frames, []) := by
  induction frames with
  | nil => rfl
  | cons frame frames ih =>
    have hrest := ih fun other hother => hfits other (List.mem_cons_of_mem frame hother)
    exact feed_append (feed_encode (hfits frame List.mem_cons_self)) hrest

theorem feed_pending {bytes rest : List UInt8} (hfeed : feed link bytes = .ok (frames, rest)) :
    feed link rest = .ok ([], rest) := by
  induction hlength : bytes.length using Nat.strong_induction_on generalizing bytes frames with
  | _ length ih =>
    have hsame := hfeed
    rw [feed_eq] at hfeed
    split at hfeed
    case isTrue =>
      cases hfeed
      exact hsame
    case isFalse hlong =>
      split at hfeed
      case isTrue => cases hfeed
      case isFalse =>
        split at hfeed
        case isTrue =>
          cases hfeed
          exact hsame
        case isFalse =>
          rw [bind_eq_ok] at hfeed
          obtain ⟨frame, -, hfeed⟩ := hfeed
          rw [bind_eq_ok] at hfeed
          obtain ⟨⟨others, tail⟩, hnext, hfeed⟩ := hfeed
          cases hfeed
          refine ih _ ?_ hnext rfl
          simp only [headerSize] at hlong ⊢
          rw [List.length_drop]
          omega

/-- A stream of frames up to a header that is not well formed. -/
structure Broken (tail : List UInt8) : Prop where
  header : headerSize ≤ tail.length
  malformed : ¬ headOk tail

section

variable (hfits : ∀ frame ∈ frames, frame.Fits)
include hfits

theorem feed_broken {tail : List UInt8} (hbroken : Broken tail) :
    feed link (encodeAll link frames ++ tail) = .error "invalid frame header" := by
  induction frames with
  | nil =>
    rw [encodeAll_nil, List.nil_append, feed_eq, if_neg (Nat.not_lt.mpr hbroken.header),
      if_pos hbroken.malformed]
  | cons frame frames ih =>
    have hrest := ih fun other hother => hfits other (List.mem_cons_of_mem frame hother)
    have hlength : (encodeAll link (frame :: frames) ++ tail).length =
        (frame.encode link ++ (encodeAll link frames ++ tail)).length := by
      rw [encodeAll_cons, List.append_assoc]
    obtain ⟨fuel, hfuel⟩ : ∃ fuel, (encodeAll link (frame :: frames) ++ tail).length =
        fuel + 1 ∧ (encodeAll link frames ++ tail).length ≤ fuel := by
      rw [hlength, List.length_append, Frame.length_encode]
      exact ⟨headerSize + frame.body.length + 31 + (encodeAll link frames ++ tail).length,
        by omega, by omega⟩
    rw [feed, hfuel.1, encodeAll_cons, List.append_assoc,
      feedLoop_frame (hfits frame List.mem_cons_self),
      feedLoop_fuel hfuel.2 (Nat.le_refl _)]
    rw [feed] at hrest
    rw [hrest, error_bind]

theorem feed_broken_cut {tail bytes rest : List UInt8} (hbroken : Broken tail)
    (hstream : bytes ++ rest = encodeAll link frames ++ tail) :
    feed link bytes = .error "invalid frame header" ∨
      ∃ whole left pending, frames = whole ++ left ∧
        feed link bytes = .ok (whole, pending) ∧
        pending ++ rest = encodeAll link left ++ tail := by
  rcases List.append_eq_append_iff.mp hstream with
    ⟨more, hframes, hrest⟩ | ⟨part, hbytes, htail⟩
  · obtain ⟨whole, left, pending, hsplit, hfeed, hpending⟩ := feed_cut hfits hframes.symm
    refine .inr ⟨whole, left, pending, hsplit, hfeed, ?_⟩
    rw [hrest, ← List.append_assoc, hpending]
  · by_cases hpart : headerSize ≤ part.length
    · rw [hbytes]
      refine .inl (feed_broken hfits ⟨hpart, ?_⟩)
      rw [← headOk_append rest hpart, ← htail]
      exact hbroken.malformed
    · refine .inr ⟨frames, [], part, (List.append_nil frames).symm, ?_, ?_⟩
      · have hfeed : feed link part = .ok ([], part) := by
          rw [feed_eq, if_pos (Nat.not_le.mp hpart)]
        have hall := feed_append (feed_encodeAll hfits) hfeed
        rw [List.append_nil] at hall
        rw [hbytes, hall]
      · rw [← htail]
        rfl

theorem feedAll_frames {pending : List UInt8} (hpending : feed link pending = .ok ([], pending))
    {chunks : List (List UInt8)} (hstream : pending ++ chunks.flatten = encodeAll link frames) :
    feedAll link pending chunks = (frames, .ok []) := by
  induction chunks generalizing frames pending with
  | nil =>
    rw [List.flatten_nil, List.append_nil] at hstream
    rw [hstream, feed_encodeAll hfits] at hpending
    cases hpending
    rw [hstream]
    rfl
  | cons chunk chunks ih =>
    rw [List.flatten_cons, ← List.append_assoc] at hstream
    obtain ⟨whole, left, tail, rfl, hfeed, htail⟩ := feed_cut hfits hstream
    have hlater := ih (fun frame hframe => hfits frame (List.mem_append_right whole hframe))
      (feed_pending hfeed) htail
    rw [feedAll, hfeed]
    simp only [hlater]

theorem feedAll_broken {tail pending : List UInt8} (hbroken : Broken tail)
    (hpending : feed link pending = .ok ([], pending)) {chunks : List (List UInt8)}
    (hstream : pending ++ chunks.flatten = encodeAll link frames ++ tail) :
    ∃ given, given <+: frames ∧
      feedAll link pending chunks = (given, .error "invalid frame header") := by
  induction chunks generalizing frames pending with
  | nil =>
    rw [List.flatten_nil, List.append_nil] at hstream
    rw [hstream, feed_broken hfits hbroken] at hpending
    cases hpending
  | cons chunk chunks ih =>
    rw [List.flatten_cons, ← List.append_assoc] at hstream
    rcases feed_broken_cut hfits hbroken hstream with
      hfeed | ⟨whole, left, rest, rfl, hfeed, hrest⟩
    · refine ⟨[], List.nil_prefix, ?_⟩
      rw [feedAll, hfeed]
    · obtain ⟨given, hgiven, hlater⟩ :=
        ih (fun frame hframe => hfits frame (List.mem_append_right whole hframe))
          (feed_pending hfeed) hrest
      refine ⟨whole ++ given, List.prefix_append_right_inj whole |>.mpr hgiven, ?_⟩
      rw [feedAll, hfeed]
      simp only [hlater]

end

theorem feedAll_append {first second : List (List UInt8)} {pending rest : List UInt8}
    (hfirst : feedAll link pending first = (frames, .ok rest)) :
    feedAll link pending (first ++ second) =
      (frames ++ (feedAll link rest second).1, (feedAll link rest second).2) := by
  induction first generalizing pending frames with
  | nil =>
    cases hfirst
    rfl
  | cons chunk first ih =>
    rw [feedAll] at hfirst
    rw [List.cons_append, feedAll]
    cases hfeed : feed link (pending ++ chunk) with
    | error failure =>
      rw [hfeed] at hfirst
      cases hfirst
    | ok result =>
      obtain ⟨whole, left⟩ := result
      simp only [hfeed, Prod.mk.injEq] at hfirst
      obtain ⟨hframes, hrest⟩ := hfirst
      have hlater := ih (Prod.ext rfl hrest)
      simp only [hlater, ← hframes, List.append_assoc]

end Host

namespace Device

def requested (s : State) : Frame := ⟨headKind s.rx, headSeq s.rx, requestBody s⟩

/-- The state in which `rc1_receive` calls `rc1_request`, when the bytes of the read
complete a frame. -/
def handed (s : State) (bytes : List UInt8) (now : Nat) : Option State :=
  if bytes = [] ∨ bytes.length > receiveTarget s - s.rx.length then none
  else
    match header (append s bytes now) with
    | (t, none) => if t.rxSize ≠ 0 ∧ t.rx.length = t.rxSize then some t else none
    | (_, some _) => none

structure Receipt where
  handed : Option State
  returned : Option Errno

structure Intake where
  state : State
  receipts : List Receipt := []

namespace Intake

section Run

variable (p : Profile) (conditions : Nat → Nat × RequestAnswers)

/-- One call while `available` bytes wait in the transport; call `n` finds the clock
and the answers of `conditions n`. -/
def call (intake : Intake) (available : List UInt8) : Intake :=
  let (now, answers) := conditions intake.receipts.length
  let bytes := available.take (receiveTarget intake.state - intake.state.rx.length)
  let result := receive p intake.state now (.data bytes) answers
  { state := result.1
    receipts := intake.receipts ++ [⟨Device.handed intake.state bytes now, result.2⟩] }

/-- Calls until a chunk is used up; each takes at least one byte, unless the reader
has refused the stream. -/
def drain : Nat → Intake → List UInt8 → Intake
  | 0, intake, _ => intake
  | fuel + 1, intake, available =>
    if available = [] then intake
    else drain fuel (call p conditions intake available)
      (available.drop (receiveTarget intake.state - intake.state.rx.length))

def receiveAll (intake : Intake) (chunks : List (List UInt8)) : Intake :=
  chunks.foldl (fun intake chunk => drain p conditions chunk.length intake chunk) intake

end Run

end Intake

def presented (receipts : List Receipt) : List Frame :=
  receipts.filterMap fun receipt => receipt.handed.map requested

/-- The call fails by no check of the reader, and the request in it can be refused
for its sequence number only among the checks of its frame. -/
def Receipt.Accepts (link : Link) (receipt : Receipt) : Prop :=
  match receipt.handed with
  | none => receipt.returned = none
  | some t => requestOk link t ↔ headSeq t.rx = t.next ∧ headSeq t.rx ≠ 2 ^ 32 - 1

/-- The reader holds less than a frame, after a good header once that is whole. -/
structure Midway (s : State) : Prop where
  reading : Reading s
  header : headerSize ≤ s.rx.length → headOk s.rx

variable {p : Profile} {s : State} {bytes : List UInt8}

theorem Midway.length_lt (hmidway : Midway s) : s.rx.length < receiveTarget s := by
  rw [receiveTarget]
  rcases hmidway.reading with ⟨hzero, hshort⟩ | ⟨-, hopen, -⟩
  · rw [if_neg (not_not.mpr hzero)]
    exact hshort
  · rw [if_pos (by omega)]
    exact hopen

theorem Midway.of_nil (hrx : s.rx = []) (hsize : s.rxSize = 0) : Midway s where
  reading := .inl ⟨hsize, by rw [hrx]; decide⟩
  header := by
    rw [hrx]
    intro hlength
    exact absurd hlength (by decide)

inductive Handled (p : Profile) (s : State) (bytes : List UInt8) (now : Nat)
    (answers : RequestAnswers) : Receipt → State → Prop where
  | waiting (t : State) (hrx : t.rx = s.rx ++ bytes) (hmidway : Midway t) :
      Handled p s bytes now answers ⟨none, none⟩ t
  | whole (t : State) (hrx : t.rx = s.rx ++ bytes) (hsize : t.rxSize = t.rx.length)
      (hlength : t.rx.length = headerSize + headSize t.rx) (hok : headOk t.rx) :
      Handled p s bytes now answers ⟨some t, (request p t now answers).2⟩
        (clearRx (request p t now answers)).1
  | malformed (t : State) (hrx : t.rx = s.rx ++ bytes) (hlength : t.rx.length = headerSize)
      (hsize : t.rxSize = 0) (hbad : ¬ headOk t.rx) :
      Handled p s bytes now answers ⟨none, some Errno.eproto⟩ t

theorem Midway.handled (hmidway : Midway s) (hbytes : bytes ≠ [])
    (hlength : bytes.length ≤ receiveTarget s - s.rx.length) (p : Profile) (now : Nat)
    (answers : RequestAnswers) :
    Handled p s bytes now answers
      ⟨handed s bytes now, (receive p s now (.data bytes) answers).2⟩
      (receive p s now (.data bytes) answers).1 := by
  have hfull : s.rx.length + bytes.length ≤ receiveTarget s := by
    have hlt := hmidway.length_lt
    omega
  have hrx : (append s bytes now).rx = s.rx ++ bytes := rfl
  have hsize : (append s bytes now).rxSize = s.rxSize := rfl
  have hsum : (append s bytes now).rx.length = s.rx.length + bytes.length :=
    List.length_append
  rw [receive_data hbytes hlength, handed, if_neg (not_or.mpr ⟨hbytes, Nat.not_lt.mpr hlength⟩)]
  generalize append s bytes now = t at hrx hsize hsum ⊢
  rcases hmidway.reading with ⟨hzero, hshort⟩ | ⟨hheader, hopen, hknown⟩
  · rw [receiveTarget, if_neg (not_not.mpr hzero)] at hfull
    by_cases hheader : t.rx.length = headerSize
    · by_cases hok : headOk t.rx
      · have hgrown : t.rx.length < headerSize + headSize t.rx := by
          have hlower := hok.2.2.1
          omega
        rw [Device.header, if_pos ⟨hheader, hsize.trans hzero⟩, if_pos hok, andThen_none,
          complete_of_ne (.inr (Nat.ne_of_lt hgrown))]
        simp only [if_neg (not_and.mpr fun _ => Nat.ne_of_lt hgrown)]
        exact .waiting _ hrx ⟨.inr ⟨Nat.le_of_eq hheader.symm, hgrown, rfl⟩, fun _ => hok⟩
      · rw [Device.header, if_pos ⟨hheader, hsize.trans hzero⟩, if_neg hok]
        exact .malformed t hrx hheader (hsize.trans hzero) hok
    · have hlt : t.rx.length < headerSize := by omega
      rw [header_of_ne fun h => hheader h.1, andThen_none,
        complete_of_ne (.inl (hsize.trans hzero))]
      simp only [if_neg fun h : t.rxSize ≠ 0 ∧ t.rx.length = t.rxSize =>
        h.1 (hsize.trans hzero)]
      exact .waiting t hrx ⟨.inl ⟨hsize.trans hzero, hlt⟩, fun h => absurd h (Nat.not_le.mpr hlt)⟩
  · rw [receiveTarget, if_pos (by omega)] at hfull
    have hhead : headSize t.rx = headSize s.rx := by rw [hrx, headSize_append _ hheader]
    have hok : headOk t.rx := by
      rw [hrx, headOk_append _ hheader]
      exact hmidway.header hheader
    rw [header_of_ne (by omega), andThen_none]
    by_cases hwhole : t.rx.length = t.rxSize
    · have hfound : t.rxSize ≠ 0 ∧ t.rx.length = t.rxSize := ⟨by omega, hwhole⟩
      rw [complete, if_pos hfound]
      simp only [if_pos hfound]
      exact .whole t hrx hwhole.symm (by omega) hok
    · rw [complete_of_ne (.inr hwhole)]
      simp only [if_neg fun h : t.rxSize ≠ 0 ∧ t.rx.length = t.rxSize => hwhole h.2]
      exact .waiting t hrx ⟨.inr ⟨by omega, by omega, by omega⟩, fun _ => hok⟩

theorem requested_encode {link : Link} {frame : Frame} (hfits : frame.Fits)
    (hrx : s.rx = frame.encode link) (hsize : s.rxSize = s.rx.length) :
    requested s = frame ∧
      (requestOk link s ↔ headSeq s.rx = s.next ∧ headSeq s.rx ≠ 2 ^ 32 - 1) := by
  have hlength : s.rxSize = headerSize + (frame.body.length + 32) := by
    rw [hsize, hrx, Frame.length_encode]
  have hpayload : requestPayload s = frame.payload link := by
    rw [requestPayload, hlength, hrx, Nat.add_sub_cancel_left, Frame.window_payload]
  have hbody : requestBody s = frame.body := by
    rw [requestBody, hlength, hrx, Nat.add_sub_cancel_left, Nat.add_sub_cancel,
      Frame.window_body]
  have htag : requestTag s = link.tag frame.seq frame.kind frame.body := by
    rw [requestTag, hlength, hrx, ← Nat.add_assoc, Nat.add_sub_cancel, Frame.window_tag]
  have hkind : headKind s.rx = frame.kind := by rw [hrx, Frame.headKind_encode hfits]
  have hseq : headSeq s.rx = frame.seq := by rw [hrx, Frame.headSeq_encode hfits]
  have hcrc : headCrc s.rx = link.crc (s.rx.take 12 ++ requestPayload s) := by
    rw [hpayload, hrx, Frame.headCrc_encode, Frame.take_head]
  have hequal : constantTimeEqual
      (link.tag (headSeq s.rx) (headKind s.rx) (requestBody s)) (requestTag s) = true := by
    rw [htag, hbody, hkind, hseq]
    exact (constantTimeEqual_iff rfl).mpr rfl
  refine ⟨?_, ?_⟩
  · rw [requested, hkind, hseq, hbody]
  · rw [requestOk]
    constructor
    · intro hok
      exact ⟨hok.2.1, hok.2.2.1⟩
    · intro hnext
      exact ⟨by omega, hnext.1, hnext.2, hcrc, hequal⟩

namespace Intake

/-- The calls so far presented the first frames of the stream, and the rest of it
lies in `rx` and in `rest`. -/
structure Follows (link : Link) (frames : List Frame) (tail : List UInt8)
    (intake : Intake) (rest : List UInt8) : Prop where
  midway : Midway intake.state
  accepts : ∀ receipt ∈ intake.receipts, receipt.Accepts link
  split : ∃ left, frames = presented intake.receipts ++ left ∧
    intake.state.rx ++ rest = encodeAll link left ++ tail

/-- All frames were presented and the header after them was refused; every later call
fails. -/
structure Refused (link : Link) (frames : List Frame) (tail : List UInt8)
    (intake : Intake) : Prop where
  broken : Host.Broken tail
  full : intake.state.rx.length = headerSize
  closed : intake.state.rxSize = 0
  receipts : ∃ before after, intake.receipts = before ++ ⟨none, some Errno.eproto⟩ :: after ∧
    presented before = frames ∧ (∀ receipt ∈ before, receipt.Accepts link) ∧
    ∀ receipt ∈ after, receipt = ⟨none, some Errno.eio⟩

variable {conditions : Nat → Nat × RequestAnswers} {frames : List Frame}
  {tail rest available : List UInt8} {intake : Intake}

theorem next_frame {link : Link} {left : List Frame} {rx : List UInt8}
    (hfits : ∀ frame ∈ left, frame.Fits) (hstream : rx ++ rest = encodeAll link left ++ tail)
    (htail : tail = [] ∨ Host.Broken tail) (hok : headOk rx)
    (hlength : rx.length = headerSize + headSize rx) :
    ∃ frame later, left = frame :: later ∧ rx = frame.encode link ∧
      rest = encodeAll link later ++ tail := by
  have hheader : headerSize ≤ rx.length := by omega
  cases left with
  | nil =>
    rw [encodeAll_nil, List.nil_append] at hstream
    rcases htail with rfl | hbroken
    · rw [List.append_eq_nil_iff] at hstream
      rw [hstream.1] at hheader
      exact absurd hheader (by decide)
    · refine absurd ?_ hbroken.malformed
      rw [← hstream, headOk_append _ hheader]
      exact hok
  | cons frame later =>
    have hframe := hfits frame List.mem_cons_self
    rw [encodeAll_cons, List.append_assoc] at hstream
    rcases cut_or_whole hstream with ⟨missing, hmissing, hcut, -⟩ | ⟨extra, hrx, hrest⟩
    · have hsize := (cut_header hframe hcut hheader).2
      have hshort := cut_length_lt hmissing hcut
      omega
    · have hlong : headerSize ≤ (frame.encode link).length := by
        rw [Frame.length_encode]
        omega
      have hsize : headSize rx = frame.body.length + 32 := by
        rw [hrx, headSize_append _ hlong, Frame.headSize_encode hframe]
      have hextra : extra = [] := by
        have hsum := congrArg List.length hrx
        rw [List.length_append, Frame.length_encode] at hsum
        exact List.length_eq_zero_iff.mp (by omega)
      subst hextra
      exact ⟨frame, later, rfl, by rw [hrx, List.append_nil], hrest⟩

theorem broken_of_header {link : Link} {left : List Frame} {rx : List UInt8}
    (hfits : ∀ frame ∈ left, frame.Fits) (hstream : rx ++ rest = encodeAll link left ++ tail)
    (hlength : rx.length = headerSize) (hbad : ¬ headOk rx) :
    left = [] ∧ Host.Broken tail := by
  have hheader : headerSize ≤ rx.length := Nat.le_of_eq hlength.symm
  cases left with
  | nil =>
    rw [encodeAll_nil, List.nil_append] at hstream
    refine ⟨rfl, ?_, ?_⟩
    · rw [← hstream, List.length_append]
      omega
    · rw [← hstream, headOk_append _ hheader]
      exact hbad
  | cons frame later =>
    have hframe := hfits frame List.mem_cons_self
    rw [encodeAll_cons, List.append_assoc] at hstream
    rcases cut_or_whole hstream with ⟨missing, hmissing, hcut, -⟩ | ⟨extra, hrx, -⟩
    · exact absurd (cut_header hframe hcut hheader).1 hbad
    · have hsum := congrArg List.length hrx
      rw [List.length_append, Frame.length_encode] at hsum
      omega

theorem presented_append (first second : List Receipt) :
    presented (first ++ second) = presented first ++ presented second :=
  List.filterMap_append

theorem Refused.call {link : Link} (hrefused : Refused link frames tail intake)
    (available : List UInt8) :
    Refused link frames tail (call p conditions intake available) := by
  obtain ⟨before, after, hreceipts, hpresented, haccepts, hafter⟩ := hrefused.receipts
  have hroom : receiveTarget intake.state - intake.state.rx.length = 0 := by
    rw [receiveTarget, if_neg (not_not.mpr hrefused.closed), hrefused.full, Nat.sub_self]
  have hcall : Intake.call p conditions intake available =
      { state := intake.state
        receipts := intake.receipts ++ [⟨none, some Errno.eio⟩] } := by
    simp only [Intake.call, hroom, List.take_zero, handed, receive, true_or, if_true]
  rw [hcall]
  refine ⟨hrefused.broken, hrefused.full, hrefused.closed, before,
    after ++ [⟨none, some Errno.eio⟩], ?_, hpresented, haccepts, ?_⟩
  · rw [hreceipts, List.append_assoc, List.cons_append]
  · intro receipt hmem
    rcases List.mem_append.mp hmem with hmem | hmem
    · exact hafter receipt hmem
    · exact List.mem_singleton.mp hmem

theorem Refused.drain {link : Link} (fuel : Nat) (available : List UInt8)
    (hrefused : Refused link frames tail intake) :
    Refused link frames tail (drain p conditions fuel intake available) := by
  induction fuel generalizing intake available with
  | zero => exact hrefused
  | succ fuel ih =>
    rw [Intake.drain]
    split
    case isTrue => exact hrefused
    case isFalse => exact ih _ (hrefused.call available)

section

variable (hfits : ∀ frame ∈ frames, frame.Fits) (htail : tail = [] ∨ Host.Broken tail)
include hfits htail

theorem Follows.call (havailable : available ≠ [])
    (hfollows : Follows p.link frames tail intake (available ++ rest))
    (conditions : Nat → Nat × RequestAnswers) :
    Follows p.link frames tail (call p conditions intake available)
        (available.drop (receiveTarget intake.state - intake.state.rx.length) ++ rest) ∨
      Refused p.link frames tail (call p conditions intake available) := by
  obtain ⟨left, hsplit, hstream⟩ := hfollows.split
  have hleft : ∀ frame ∈ left, frame.Fits := fun frame hframe =>
    hfits frame (hsplit ▸ List.mem_append_right _ hframe)
  have hroom := hfollows.midway.length_lt
  rw [Intake.call]
  generalize hcount : receiveTarget intake.state - intake.state.rx.length = count
  generalize conditions intake.receipts.length = condition
  obtain ⟨now, answers⟩ := condition
  have hbytes : available.take count ≠ [] := by
    intro hnil
    rcases List.take_eq_nil_iff.mp hnil with hzero | hempty
    · omega
    · exact havailable hempty
  have hbound : (available.take count).length ≤
      receiveTarget intake.state - intake.state.rx.length := by
    rw [hcount]
    exact List.length_take_le _ _
  have hhandled := hfollows.midway.handled hbytes hbound p now answers
  rw [← List.take_append_drop count available, List.append_assoc,
    ← List.append_assoc] at hstream
  generalize hreceipt : (⟨handed intake.state (available.take count) now,
    (receive p intake.state now (.data (available.take count)) answers).2⟩ : Receipt) =
      receipt at hhandled
  simp only [hreceipt]
  generalize (receive p intake.state now (.data (available.take count)) answers).1 = t
    at hhandled ⊢
  cases hhandled with
  | waiting _ hrx hmidway =>
    left
    refine ⟨hmidway, ?_, left, ?_, ?_⟩
    · intro receipt hmem
      rcases List.mem_append.mp hmem with hmem | hmem
      · exact hfollows.accepts receipt hmem
      · rw [List.mem_singleton.mp hmem]
        rfl
    · rw [presented_append]
      simpa [presented] using hsplit
    · rw [hrx]
      exact hstream
  | whole whole hrx hsize hlength hok =>
    left
    rw [← hrx] at hstream
    obtain ⟨frame, later, rfl, hencode, hrest⟩ :=
      next_frame hleft hstream htail hok hlength
    obtain ⟨hframe, hchecks⟩ := requested_encode
      (hleft frame List.mem_cons_self) hencode hsize
    refine ⟨Midway.of_nil rfl rfl, ?_, later, ?_, ?_⟩
    · intro receipt hmem
      rcases List.mem_append.mp hmem with hmem | hmem
      · exact hfollows.accepts receipt hmem
      · rw [List.mem_singleton.mp hmem]
        exact hchecks
    · rw [presented_append, hsplit]
      simp [presented, hframe]
    · exact hrest
  | malformed _ hrx hlength hsize hbad =>
    right
    rw [← hrx] at hstream
    obtain ⟨rfl, hbroken⟩ := broken_of_header hleft hstream hlength hbad
    rw [List.append_nil] at hsplit
    exact ⟨hbroken, hlength, hsize, intake.receipts, [], rfl, hsplit.symm,
      hfollows.accepts, fun receipt hmem => absurd hmem List.not_mem_nil⟩

theorem Follows.drain {fuel : Nat} (hfuel : available.length ≤ fuel)
    (hfollows : Follows p.link frames tail intake (available ++ rest))
    (conditions : Nat → Nat × RequestAnswers) :
    Follows p.link frames tail (drain p conditions fuel intake available) rest ∨
      Refused p.link frames tail (drain p conditions fuel intake available) := by
  induction fuel generalizing intake available with
  | zero =>
    rw [List.length_eq_zero_iff.mp (Nat.le_zero.mp hfuel)] at hfollows
    exact .inl hfollows
  | succ fuel ih =>
    rw [Intake.drain]
    split
    case isTrue hempty =>
      rw [hempty] at hfollows
      exact .inl hfollows
    case isFalse hsome =>
      rcases hfollows.call hfits htail hsome conditions with hnext | hrefused
      · refine ih ?_ hnext
        have hroom := hfollows.midway.length_lt
        rw [List.length_drop]
        omega
      · exact .inr (hrefused.drain fuel _)

theorem Follows.receiveAll {chunks : List (List UInt8)}
    (hfollows : Follows p.link frames tail intake chunks.flatten)
    (conditions : Nat → Nat × RequestAnswers) :
    Follows p.link frames tail (receiveAll p conditions intake chunks) [] ∨
      Refused p.link frames tail (receiveAll p conditions intake chunks) := by
  induction chunks generalizing intake with
  | nil => exact .inl hfollows
  | cons chunk chunks ih =>
    rcases hfollows.drain hfits htail (Nat.le_refl _) conditions with hnext | hrefused
    · exact ih hnext
    · clear ih hfollows
      refine .inr ?_
      rw [Intake.receiveAll, List.foldl_cons]
      generalize Intake.drain p conditions chunk.length intake chunk = start at hrefused
      induction chunks generalizing start with
      | nil => exact hrefused
      | cons chunk chunks ih => exact ih _ (hrefused.drain _ _)

theorem Follows.finished {link : Link} (hfollows : Follows link frames tail intake []) :
    tail = [] ∧ presented intake.receipts = frames ∧ intake.state.rx = [] ∧
      intake.state.rxSize = 0 := by
  obtain ⟨left, hsplit, hstream⟩ := hfollows.split
  rw [List.append_nil] at hstream
  by_cases hheader : headerSize ≤ intake.state.rx.length
  · rcases hfollows.midway.reading with ⟨-, hshort⟩ | ⟨-, hopen, hsize⟩
    · omega
    · exfalso
      have hok := hfollows.midway.header hheader
      cases left with
      | nil =>
        rw [encodeAll_nil, List.nil_append] at hstream
        rcases htail with rfl | hbroken
        · rw [hstream] at hheader
          exact absurd hheader (by decide)
        · exact hbroken.malformed (hstream ▸ hok)
      | cons frame later =>
        have hframe := hfits frame (hsplit ▸ List.mem_append_right _ List.mem_cons_self)
        have hlong : headerSize ≤ (frame.encode link).length := by
          rw [Frame.length_encode]
          omega
        rw [encodeAll_cons, List.append_assoc] at hstream
        rw [hstream, headSize_append _ hlong, Frame.headSize_encode hframe,
          ← @Frame.length_encode link] at hsize
        rw [hsize, hstream, List.length_append] at hopen
        omega
  · have hempty : left = [] ∧ tail = [] := by
      have hlength := congrArg List.length hstream
      rw [List.length_append] at hlength
      cases left with
      | nil =>
        refine ⟨rfl, ?_⟩
        rcases htail with rfl | hbroken
        · rfl
        · have hlong := hbroken.header
          omega
      | cons frame later =>
        rw [encodeAll_cons, List.length_append, Frame.length_encode] at hlength
        omega
    obtain ⟨rfl, rfl⟩ := hempty
    rw [List.append_nil] at hsplit
    refine ⟨rfl, hsplit.symm, hstream, ?_⟩
    rcases hfollows.midway.reading with ⟨hzero, -⟩ | ⟨hlong, -⟩
    · exact hzero
    · exact absurd hlong hheader

end

theorem Follows.start {link : Link} (hrx : s.rx = []) (hsize : s.rxSize = 0) :
    Follows link frames tail { state := s } (encodeAll link frames ++ tail) where
  midway := Midway.of_nil hrx hsize
  accepts receipt hmem := absurd hmem List.not_mem_nil
  split := ⟨frames, rfl, by rw [hrx, List.nil_append]⟩

end Intake
end Device

section RoundTrip

variable {digest : Digest} {identity : Identity} {frames : List Frame}
  {wires : List (List UInt8)}

def Host.Builds (digest : Digest) (identity : Identity) (frame : Frame)
    (wire : List UInt8) : Prop :=
  Host.frame digest identity frame.seq frame.kind frame.body = .ok wire

/-- `rc1_queue` takes the frame and puts the bytes of `wire` into its slot; type and
sequence are `uint8_t` and `uint32_t`. -/
def Device.Queues (digest : Digest) (identity : Identity) (frame : Frame)
    (wire : List UInt8) : Prop :=
  frame.kind < 256 ∧ frame.seq < 2 ^ 32 ∧ ∃ s t : Device.State,
    Device.queue (Device.link digest identity) s frame.kind frame.seq frame.body = (t, none) ∧
      t.queue = s.queue ++ [⟨wire, 0⟩]

theorem Device.Queues.builds {frame : Frame} {wire : List UInt8}
    (hqueues : Device.Queues digest identity frame wire) :
    Host.Builds digest identity frame wire := by
  obtain ⟨hkind, hseq, s, t, hqueue, hwire⟩ := hqueues
  rw [Device.queue] at hqueue
  split at hqueue
  case isTrue => cases hqueue
  case isFalse hroom =>
    cases hqueue
    have hfits : frame.Fits := ⟨hkind, hseq, Nat.not_lt.mp (not_or.mp hroom).1⟩
    have hslot := List.append_cancel_left hwire
    refine Host.frame_eq_ok.mpr ⟨hfits, ?_⟩
    rw [← Device.encode_link hfits]
    injection hslot with hslot
    injection hslot with hslot
    exact hslot.symm

theorem Host.Builds.stream (hbuilds : List.Forall₂ (Host.Builds digest identity) frames wires) :
    (∀ frame ∈ frames, frame.Fits) ∧
      wires.flatten = encodeAll (Host.link digest identity) frames := by
  induction hbuilds with
  | nil => exact ⟨fun frame hmem => absurd hmem List.not_mem_nil, rfl⟩
  | cons hframe hrest ih =>
    obtain ⟨hfits, hwire⟩ := Host.frame_eq_ok.mp hframe
    refine ⟨List.forall_mem_cons.mpr ⟨hfits, ih.1⟩, ?_⟩
    rw [List.flatten_cons, encodeAll_cons, ih.2, hwire]

theorem encodeAll_link (hfits : ∀ frame ∈ frames, frame.Fits) :
    encodeAll (Device.link digest identity) frames =
      encodeAll (Host.link digest identity) frames := by
  induction frames with
  | nil => rfl
  | cons frame frames ih =>
    rw [encodeAll_cons, encodeAll_cons, Device.encode_link (hfits frame List.mem_cons_self),
      ih fun other hother => hfits other (List.mem_cons_of_mem frame hother)]

/-- Frames pass under every division of the stream: those of the host to either
reader, those of the device to the host.  A bad header ends the stream at both. -/
theorem framing_round_trip (digest : Digest) (identity : Identity) :
    (∀ (frames : List Frame) (wires chunks : List (List UInt8)),
      List.Forall₂ (Host.Builds digest identity) frames wires →
      chunks.flatten = wires.flatten →
      Host.feedAll (Host.link digest identity) [] chunks = (frames, .ok []) ∧
      ∀ (p : Device.Profile) (conditions : Nat → Nat × Device.RequestAnswers)
        (s : Device.State),
        p.link = Device.link digest identity → s.rx = [] → s.rxSize = 0 →
        let last := Device.Intake.receiveAll p conditions { state := s } chunks
        Device.presented last.receipts = frames ∧
          last.state.rx = [] ∧ last.state.rxSize = 0 ∧
          ∀ receipt ∈ last.receipts, receipt.Accepts p.link) ∧
    (∀ (frames : List Frame) (wires chunks : List (List UInt8)),
      List.Forall₂ (Device.Queues digest identity) frames wires →
      chunks.flatten = wires.flatten →
      Host.feedAll (Host.link digest identity) [] chunks = (frames, .ok [])) ∧
    (∀ (frames : List Frame) (wires chunks : List (List UInt8)) (tail : List UInt8),
      List.Forall₂ (Host.Builds digest identity) frames wires → Host.Broken tail →
      chunks.flatten = wires.flatten ++ tail →
      (∃ given, given <+: frames ∧
        Host.feedAll (Host.link digest identity) [] chunks =
          (given, .error "invalid frame header") ∧
        ∀ first second, chunks = first ++ second → first.flatten = wires.flatten →
          given = frames) ∧
      ∀ (p : Device.Profile) (conditions : Nat → Nat × Device.RequestAnswers)
        (s : Device.State),
        p.link = Device.link digest identity → s.rx = [] → s.rxSize = 0 →
        ∃ before after,
          (Device.Intake.receiveAll p conditions { state := s } chunks).receipts =
            before ++ ⟨none, some Device.Errno.eproto⟩ :: after ∧
          Device.presented before = frames ∧
          (∀ receipt ∈ before, receipt.Accepts p.link) ∧
          ∀ receipt ∈ after, receipt = ⟨none, some Device.Errno.eio⟩) := by
  refine ⟨?_, ?_, ?_⟩
  · intro frames wires chunks hbuilds hchunks
    obtain ⟨hfits, hwires⟩ := Host.Builds.stream hbuilds
    refine ⟨Host.feedAll_frames hfits rfl (hchunks.trans hwires), ?_⟩
    intro p conditions s hlink hrx hsize last
    have hstream : chunks.flatten = encodeAll p.link frames ++ [] := by
      rw [List.append_nil, hchunks, hwires, hlink, encodeAll_link hfits]
    have hstart : Device.Intake.Follows p.link frames [] { state := s } chunks.flatten :=
      hstream ▸ Device.Intake.Follows.start hrx hsize
    rcases hstart.receiveAll hfits (.inl rfl) conditions with hfollows | hrefused
    · obtain ⟨-, hpresented, hrx, hsize⟩ := hfollows.finished hfits (.inl rfl)
      exact ⟨hpresented, hrx, hsize, hfollows.accepts⟩
    · exact absurd hrefused.broken.header (by decide)
  · intro frames wires chunks hqueues hchunks
    have hbuilds : List.Forall₂ (Host.Builds digest identity) frames wires :=
      hqueues.imp fun _ _ hqueue => hqueue.builds
    obtain ⟨hfits, hwires⟩ := Host.Builds.stream hbuilds
    exact Host.feedAll_frames hfits rfl (hchunks.trans hwires)
  · intro frames wires chunks tail hbuilds hbroken hchunks
    obtain ⟨hfits, hwires⟩ := Host.Builds.stream hbuilds
    rw [hwires] at hchunks
    constructor
    · have hempty : Host.feed (Host.link digest identity) [] = .ok ([], []) := rfl
      obtain ⟨given, hgiven, hfeed⟩ := Host.feedAll_broken hfits hbroken hempty hchunks
      refine ⟨given, hgiven, hfeed, ?_⟩
      rintro first second rfl hfirst
      rw [List.flatten_append, hfirst, hwires] at hchunks
      have hsecond : second.flatten = tail := List.append_cancel_left hchunks
      have hframes := Host.feedAll_frames hfits hempty (hfirst.trans hwires)
      have hnothing : ∀ frame ∈ ([] : List Frame), frame.Fits :=
        fun frame hmem => absurd hmem List.not_mem_nil
      obtain ⟨further, hfurther, hrest⟩ :=
        Host.feedAll_broken hnothing hbroken hempty hsecond
      rw [Host.feedAll_append hframes, hrest, List.prefix_nil.mp hfurther,
        List.append_nil] at hfeed
      exact (Prod.mk.inj hfeed).1.symm
    · intro p conditions s hlink hrx hsize
      have hstream : chunks.flatten = encodeAll p.link frames ++ tail := by
        rw [hchunks, hlink, encodeAll_link hfits]
      have hstart : Device.Intake.Follows p.link frames tail { state := s } chunks.flatten :=
        hstream ▸ Device.Intake.Follows.start hrx hsize
      rcases hstart.receiveAll hfits (.inr hbroken) conditions with hfollows | hrefused
      · obtain ⟨rfl, -⟩ := hfollows.finished hfits (.inr hbroken)
        exact absurd hbroken.header (by decide)
      · exact hrefused.receipts

end RoundTrip

namespace Sample

/-- A toy digest, of which every byte depends on all bytes. -/
def digest : Digest where
  sha256 bytes :=
    let sum := bytes.foldl (fun sum byte => 31 * sum + byte.toNat) 1
    (List.range 32).map fun i => UInt8.ofNat (sum / 7 ^ i)
  length_sha256 _ := by simp

def identity : Identity where
  key := (List.range 32).map UInt8.ofNat
  runId := (List.range 16).map UInt8.ofNat
  nonce := (List.range 32).reverse.map UInt8.ofNat
  length_key := rfl
  length_runId := rfl
  length_nonce := rfl

def frames : List Frame := [⟨kindExec, 3, [0xe8, 3, 0, 0, 1, 0, 0x2f, 0x78]⟩, ⟨kindStatus, 4, []⟩]

def stream : List UInt8 := encodeAll (Host.link digest identity) frames

end Sample

theorem framing_round_trip_status :
    Host.feedAll (Host.link Sample.digest Sample.identity) []
      [Sample.stream.take 5, (Sample.stream.drop 5).take 60, Sample.stream.drop 65] =
      (Sample.frames, .ok []) := by
  refine ((framing_round_trip Sample.digest Sample.identity).1 Sample.frames
    (Sample.frames.map (Frame.encode (Host.link Sample.digest Sample.identity))) _ ?_ ?_).1
  · exact .cons (Host.frame_eq_ok.mpr ⟨⟨by decide, by decide, by decide⟩, rfl⟩)
      (.cons (Host.frame_eq_ok.mpr ⟨⟨by decide, by decide, by decide⟩, rfl⟩) .nil)
  · have hdrop : Sample.stream.drop 65 = (Sample.stream.drop 5).drop 60 := by rw [List.drop_drop]
    change _ = Sample.stream
    simp only [List.flatten_cons, List.flatten_nil, List.append_nil, hdrop, List.take_append_drop]

end NativeInitLab.RootConsole
