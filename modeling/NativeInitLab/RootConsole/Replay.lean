import NativeInitLab.RootConsole.Framing

namespace NativeInitLab.RootConsole.Host

open LittleEndian Lockstep

/-! `replay`: the lifecycle derived again from the two byte streams of a session. -/

/-- A request enters the state of the replay, which has no request window. -/
def record (s : ReplayState) (frame : Frame) : ReplayState :=
  { s with
    requests := Function.update s.requests frame.seq (some frame.kind)
    requestBodies := Function.update s.requestBodies frame.seq (some frame.body)
    controlSequence :=
      if frame.kind = kindControl then some frame.seq else s.controlSequence }

/-- One turn of the loop over the outgoing frames, with the expected number. -/
def retain (progress : ReplayState × Nat) (frame : Frame) : Except String (ReplayState × Nat) := do
  require (frame.seq = progress.2 ∧ progress.1.controlSequence = none)
    "retained request order or post-CONTROL request differs"
  validateRequest frame.kind frame.body
  return (record progress.1 frame, progress.2 + 1)

def replay (link : Link) (rx tx : List UInt8) : Except String (ReplayState × List Frame) := do
  let (outgoing, txRest) ← feed link tx
  let (incoming, rxRest) ← feed link rx
  require (txRest = [] ∧ rxRest = []) "partial retained root frame"
  let (state, _) ← outgoing.foldlM retain ({}, 3)
  let state ← validateAll state incoming
  require (state.finished = true) "retained CONTROL ACK absent"
  require (∀ frame ∈ outgoing, frame.seq ∈ state.responses ∨ frame.kind = kindExec)
    "unanswered retained normal request"
  return (state, incoming)

/-- A session that has raised nothing and whose sends were all taken whole. -/
inductive Undisturbed (link : Link) : Session → Prop where
  | opened : Undisturbed link {}
  | sent {s t : Session} {kind count : Nat} {body taken : List UInt8} (hs : Undisturbed link s)
      (hsend : send link s kind body count = .ok (t, taken)) (hwhole : t.stopped = false) :
      Undisturbed link t
  | polled {s t : Session} {data : List UInt8} (hs : Undisturbed link s)
      (hpoll : poll link s data = .ok t) : Undisturbed link t

/-! Every check that passed passes when more requests are known. -/

structure Extends (s t : ReplayState) : Prop where
  requests : ∀ seq kind, s.requests seq = some kind → t.requests seq = some kind
  bodies : ∀ seq kind, s.requests seq = some kind → t.requestBodies seq = s.requestBodies seq
  control : s.controlSequence ≠ none → t.controlSequence ≠ none

def graft (t s : ReplayState) : ReplayState :=
  { s with
    requests := t.requests
    requestBodies := t.requestBodies
    controlSequence := t.controlSequence
    pending := none }

theorem Extends.refl (s : ReplayState) : Extends s s :=
  ⟨fun _ _ h => h, fun _ _ _ => rfl, id⟩

theorem Extends.trans {s t u : ReplayState} (hfirst : Extends s t)
    (hsecond : Extends t u) : Extends s u where
  requests seq kind h := hsecond.requests seq kind (hfirst.requests seq kind h)
  bodies seq kind h :=
    (hsecond.bodies seq kind (hfirst.requests seq kind h)).trans (hfirst.bodies seq kind h)
  control h := hsecond.control (hfirst.control h)

theorem graft_answered (t s : ReplayState) (seq : Nat) :
    graft t (s.answered seq) = (graft t s).answered seq := by
  simp [graft, ReplayState.answered]

/-- A check that took `s` to `s'` does so under the requests of `t`. -/
def Grafted (t s s' : ReplayState) (check : Except String ReplayState) : Prop :=
  SameRequests s s' ∧ check = .ok (graft t s')

section Graft

variable {s s' t : ReplayState} {request seq kind : Nat} {body : List UInt8}

theorem Grafted.ite {condition : Prop} [Decidable condition]
    {first second first' second' : Except String ReplayState}
    (hfirst : first = .ok s' → Grafted t s s' first')
    (hsecond : second = .ok s' → Grafted t s s' second')
    (h : (if condition then first else second) = .ok s') :
    Grafted t s s' (if condition then first' else second') := by
  split at h
  case isTrue hcondition =>
    rw [if_pos hcondition]
    exact hfirst h
  case isFalse hcondition =>
    rw [if_neg hcondition]
    exact hsecond h

theorem validateReady_graft (h : validateReady s seq body = .ok s') :
    Grafted t s s' (validateReady (graft t s) seq body) := by
  simp only [Grafted, validateReady, require_bind_eq_ok] at h ⊢
  obtain ⟨hshape, hfields, hresult⟩ := h
  cases hresult
  exact ⟨⟨rfl, rfl, rfl⟩, hshape, hfields, rfl⟩

theorem validateOutput_graft (h : validateOutput s request seq body = .ok s') :
    Grafted t s s' (validateOutput (graft t s) request seq body) := by
  simp only [Grafted, validateOutput, require_bind_eq_ok] at h ⊢
  obtain ⟨hshape, horder, hframes, htotal, hresult⟩ := h
  cases hresult
  exact ⟨⟨rfl, rfl, rfl⟩, hshape, horder, hframes, htotal, rfl⟩

theorem validateExit_graft (hextends : Extends s t) (h : validateExit s request seq body = .ok s') :
    Grafted t s s' (validateExit (graft t s) request seq body) := by
  simp only [Grafted, validateExit, require_bind_eq_ok] at h ⊢
  obtain ⟨hshape, houtput, hflags, hdropped, hunknown, hstatus, hexec, hcontrol, hrest⟩ := h
  have hjoined : bit (word 1 body) 32 → (graft t s).controlSequence ≠ none ∧
      bit (word 1 body) 8 ∧ bit (word 1 body) 128 :=
    fun hbit => ⟨hextends.control (hcontrol hbit).1, (hcontrol hbit).2⟩
  split at hrest
  case isTrue hunaccepted =>
    simp only [require_bind_eq_ok] at hrest
    obtain ⟨hsetup, hfresh, hresult⟩ := hrest
    cases hresult
    refine ⟨⟨rfl, rfl, rfl⟩, hshape, houtput, hflags, hdropped, hunknown, hstatus, hexec,
      hjoined, ?_⟩
    rw [if_pos (show seq ∉ (graft t s).accepted from hunaccepted)]
    simp only [require_bind_eq_ok]
    refine ⟨hsetup, hfresh, ?_⟩
    rw [← graft_answered]
    rfl
  case isFalse haccepted =>
    cases hrest
    refine ⟨⟨rfl, rfl, rfl⟩, hshape, houtput, hflags, hdropped, hunknown, hstatus, hexec,
      hjoined, ?_⟩
    rw [if_neg (show ¬ seq ∉ (graft t s).accepted from haccepted)]
    rfl

theorem execAck_graft (h : execAck s seq body = .ok s') :
    Grafted t s s' (execAck (graft t s) seq body) := by
  refine Grafted.ite (fun h => ?_) (Grafted.ite (fun h => ?_) fun h => by cases h) h
  · simp only [Grafted, require_bind_eq_ok] at h ⊢
    obtain ⟨hfields, hfree, hresult⟩ := h
    cases hresult
    exact ⟨⟨rfl, rfl, rfl⟩, hfields, hfree, rfl⟩
  · simp only [Grafted, require_bind_eq_ok] at h ⊢
    obtain ⟨hfields, hresult⟩ := h
    cases hresult
    exact ⟨⟨rfl, rfl, rfl⟩, hfields, rfl⟩

theorem cancelAck_graft (hextends : Extends s t) (hrequest : s.requests seq = some request)
    (h : cancelAck s seq body = .ok s') :
    Grafted t s s' (cancelAck (graft t s) seq body) := by
  have hbody : (graft t s).requestBodies seq = s.requestBodies seq :=
    hextends.bodies seq request hrequest
  -- every branch is one requirement on fields that the graft leaves alone
  have hbranch {condition : Prop} [Decidable condition] {message : String}
      (h : (do require condition message; pure s) = .ok s') :
      Grafted t s s' (do require condition message; pure (graft t s)) := by
    unfold Grafted
    rw [require_bind_eq_ok] at h ⊢
    obtain ⟨hfields, hresult⟩ := h
    cases hresult
    exact ⟨⟨rfl, rfl, rfl⟩, hfields, rfl⟩
  unfold cancelAck at h ⊢
  simp only [hbody] at h ⊢
  exact .ite hbranch (.ite hbranch (.ite hbranch fun h => by cases h)) h

theorem stateAck_graft (h : stateAck s request body = .ok s') :
    Grafted t s s' (stateAck (graft t s) request body) := by
  rw [stateAck, require_bind_eq_ok] at h
  obtain ⟨hshape, h⟩ := h
  rw [stateAck, require_of_pos _ hshape, ok_bind]
  refine .ite (fun h => ?_) (fun h => ?_) h
  · simp only [Grafted, require_bind_eq_ok] at h ⊢
    obtain ⟨hfree, hresult⟩ := h
    cases hresult
    exact ⟨⟨rfl, rfl, rfl⟩, hfree, rfl⟩
  · cases h
    exact ⟨⟨rfl, rfl, rfl⟩, rfl⟩

theorem ackFields_graft (hextends : Extends s t) (h : ackFields s request seq body = .ok ()) :
    ackFields (graft t s) request seq body = .ok () := by
  simp only [ackFields, require_bind_eq_ok] at h ⊢
  obtain ⟨hshape, hidentity, hlast, hactive⟩ := h
  exact ⟨hshape, fun hnonzero => hextends.requests _ _ (hidentity hnonzero), hlast, hactive⟩

theorem Grafted.answered {check check' : Except String ReplayState}
    (hcheck : ∀ u, check = .ok u → Grafted t s u check')
    (h : (do let s ← check; pure (s.answered seq)) = .ok s') :
    Grafted t s s' (do let s ← check'; pure (s.answered seq)) := by
  obtain ⟨u, hu, hresult⟩ := bind_eq_ok.mp h
  obtain ⟨hsame, hgraft⟩ := hcheck u hu
  cases hresult
  refine ⟨⟨hsame.requests, hsame.requestBodies, hsame.controlSequence⟩, ?_⟩
  rw [hgraft, graft_answered]
  rfl

theorem validateAck_graft (hextends : Extends s t) (hrequest : s.requests seq = some request)
    (h : validateAck s request kind seq body = .ok s') :
    Grafted t s s' (validateAck (graft t s) request kind seq body) := by
  simp only [validateAck, require_bind_eq_ok] at h
  obtain ⟨hkind, hfresh, h⟩ := h
  obtain ⟨⟨⟩, hfields, h⟩ := bind_eq_ok.mp h
  unfold validateAck
  rw [require_of_pos _ hkind, ok_bind,
    require_of_pos _ (show seq ∉ (graft t s).responses from hfresh), ok_bind,
    ackFields_graft hextends hfields, ok_bind]
  exact .ite (.answered fun u => execAck_graft)
    (.ite (.answered fun u => cancelAck_graft hextends hrequest)
      (.answered fun u => stateAck_graft)) h

theorem validateFault_graft (h : validateFault s seq body = .ok s') :
    Grafted t s s' (validateFault (graft t s) seq body) := by
  simp only [Grafted, validateFault, require_bind_eq_ok] at h ⊢
  obtain ⟨hshape, hresult⟩ := h
  cases hresult
  exact ⟨⟨rfl, rfl, rfl⟩, hshape, rfl⟩

theorem validateResponse_graft {frame : Frame} (hextends : Extends s t)
    (hrequest : s.requests frame.seq = some request)
    (h : validateResponse s request frame = .ok s') :
    Grafted t s s' (validateResponse (graft t s) request frame) := by
  refine .ite validateOutput_graft (.ite (validateExit_graft hextends) ?_) h
  exact .ite (validateAck_graft hextends hrequest) (.ite validateFault_graft fun h => by cases h)

theorem validate_graft {frame : Frame} (hextends : Extends s t)
    (h : validate s frame = .ok s') : Grafted t s s' (validate (graft t s) frame) := by
  rw [validate, require_bind_eq_ok] at h
  obtain ⟨hopen, h⟩ := h
  rw [validate, require_of_pos _ (show (graft t s).finished = false from hopen), ok_bind]
  refine .ite validateReady_graft (fun h => ?_) h
  rw [require_bind_eq_ok] at h
  obtain ⟨hprepared, h⟩ := h
  rw [require_of_pos _ (show (graft t s).ready ≠ none from hprepared), ok_bind]
  cases hrequest : s.requests frame.seq with
  | none =>
    rw [hrequest] at h
    cases h
  | some request =>
    rw [hrequest] at h
    have hknown : (graft t s).requests frame.seq = some request :=
      hextends.requests _ _ hrequest
    rw [hknown]
    exact validateResponse_graft hextends hrequest h

theorem Extends.same (hextends : Extends s t) (hsame : SameRequests s s') : Extends s' t where
  requests seq kind h := hextends.requests seq kind (hsame.requests ▸ h)
  bodies seq kind h := by
    rw [hsame.requestBodies]
    exact hextends.bodies seq kind (hsame.requests ▸ h)
  control h := hextends.control (hsame.controlSequence ▸ h)

theorem validateAll_graft {frames : List Frame} (hextends : Extends s t)
    (h : validateAll s frames = .ok s') :
    Grafted t s s' (validateAll (graft t s) frames) := by
  induction frames generalizing s with
  | nil =>
    cases h
    exact ⟨⟨rfl, rfl, rfl⟩, rfl⟩
  | cons frame frames ih =>
    rw [validateAll, List.foldlM_cons, bind_eq_ok] at h
    obtain ⟨u, hfirst, hrest⟩ := h
    obtain ⟨hsame, hgraft⟩ := validate_graft hextends hfirst
    obtain ⟨hsame', hrest'⟩ := ih (hextends.same hsame) hrest
    refine ⟨hsame.trans hsame', ?_⟩
    rw [validateAll, List.foldlM_cons, hgraft, ok_bind]
    exact hrest'

end Graft

structure Retained (link : Link) (s : Session) (issued incoming : List Frame) : Prop where
  outgoing : feed link s.tx = .ok (issued, [])
  recorded : issued.foldlM retain ({}, 3) = .ok (graft s.state {}, s.sequence)
  known : ∀ seq kind, s.state.requests seq = some kind ↔
    ∃ frame ∈ issued, frame.seq = seq ∧ frame.kind = kind
  numbered : ∀ frame ∈ issued, 3 ≤ frame.seq ∧ frame.seq < s.sequence
  complete : ∀ seq < s.sequence, 3 ≤ seq → ∃ frame ∈ issued, frame.seq = seq
  started : 3 ≤ s.sequence
  received : feed link s.rx = .ok (incoming, s.decoderPending)
  validated : ∀ t, Extends s.state t → validateAll (graft t {}) incoming = .ok (graft t s.state)
  trailing : s.state.finished = true → s.decoderPending = []

section Streams

variable {link : Link} {s t : Session} {issued incoming : List Frame}

theorem Retained.unused (hs : Retained link s issued incoming) :
    s.state.requests s.sequence = none := by
  cases hused : s.state.requests s.sequence with
  | none => rfl
  | some kind =>
    obtain ⟨frame, hframe, hseq, -⟩ := (hs.known _ _).mp hused
    exact absurd (hs.numbered frame hframe).2 (by omega)

theorem extends_register {state : ReplayState} {seq : Nat} (hunused : state.requests seq = none)
    (kind : Nat) (body : List UInt8) : Extends state (register state seq kind body) := by
  have hother {other kind' : Nat} (h : state.requests other = some kind') : other ≠ seq := by
    rintro rfl
    rw [hunused] at h
    cases h
  refine ⟨?_, ?_, ?_⟩
  · intro other kind' h
    exact (Function.update_of_ne (hother h) _ _).trans h
  · intro other kind' h
    exact Function.update_of_ne (hother h) _ _
  · intro h
    simp only [register]
    split
    case isTrue => exact Option.some_ne_none seq
    case isFalse => exact h

theorem Retained.sent {kind count : Nat} {body taken : List UInt8}
    (hs : Retained link s issued incoming)
    (hsend : send link s kind body count = .ok (t, taken)) (hwhole : t.stopped = false) :
    Retained link t (issued ++ [⟨kind, s.sequence, body⟩]) incoming := by
  obtain ⟨hstopped, hvalid, hcontrol, hsequence, hfits, rfl, -⟩ := send_spec hsend
  have hunused := hs.unused
  have htaken : (Frame.encode link ⟨kind, s.sequence, body⟩).take count =
      Frame.encode link ⟨kind, s.sequence, body⟩ := by
    have hlength := of_decide_eq_false hwhole
    rw [List.length_take] at hlength
    exact List.take_of_length_le (by omega)
  constructor
  case outgoing =>
    simp only [htaken]
    exact feed_append hs.outgoing (feed_encode hfits)
  case recorded =>
    rw [List.foldlM_append, hs.recorded, ok_bind, List.foldlM_cons, retain,
      require_of_pos _ ⟨rfl, hcontrol⟩, ok_bind, hvalid]
    rfl
  case known =>
    intro seq kind'
    have hupdate : (register s.state s.sequence kind body).requests seq = some kind' ↔
        s.state.requests seq = some kind' ∨ s.sequence = seq ∧ kind = kind' := by
      cases hseq : decide (seq = s.sequence) with
      | true =>
        obtain rfl := of_decide_eq_true hseq
        simp [register, hunused]
      | false =>
        have hne := of_decide_eq_false hseq
        simp [register, Function.update_of_ne hne, Ne.symm hne]
    rw [hupdate, hs.known]
    simp [or_and_right, exists_or]
  case numbered =>
    intro frame hframe
    rcases List.mem_append.mp hframe with hold | hnew
    · exact ⟨(hs.numbered frame hold).1, Nat.lt_succ_of_lt (hs.numbered frame hold).2⟩
    · rw [List.mem_singleton.mp hnew]
      exact ⟨hs.started, Nat.lt_succ_self _⟩
  case complete =>
    intro seq hlt hthree
    rcases Nat.lt_succ_iff_lt_or_eq.mp hlt with hold | rfl
    · obtain ⟨frame, hframe, hseq⟩ := hs.complete seq hold hthree
      exact ⟨frame, List.mem_append_left _ hframe, hseq⟩
    · exact ⟨⟨kind, s.sequence, body⟩, by simp, rfl⟩
  case started => exact Nat.le_succ_of_le hs.started
  case received => exact hs.received
  case validated =>
    intro t ht
    exact hs.validated t ((extends_register hunused kind body).trans ht)
  case trailing => exact hs.trailing

theorem Retained.polled {data : List UInt8} (hs : Retained link s issued incoming)
    (hpoll : poll link s data = .ok t) :
    ∃ frames, Retained link t issued (incoming ++ frames) := by
  unfold poll at hpoll
  rw [require_bind_eq_ok, require_bind_eq_ok, require_bind_eq_ok, bind_eq_ok] at hpoll
  obtain ⟨-, -, -, ⟨frames, pending⟩, hfeed, hpoll⟩ := hpoll
  rw [bind_eq_ok] at hpoll
  obtain ⟨state, hvalid, hpoll⟩ := hpoll
  rw [require_bind_eq_ok] at hpoll
  obtain ⟨htrailing, hresult⟩ := hpoll
  cases hresult
  obtain ⟨hsame, -⟩ := validateAll_graft (Extends.refl s.state) hvalid
  refine ⟨frames, hs.outgoing, ?_, ?_, hs.numbered, hs.complete, hs.started,
    feed_append hs.received hfeed, ?_, htrailing⟩
  · rw [hs.recorded]
    simp only [graft, hsame.requests, hsame.requestBodies, hsame.controlSequence]
  · intro seq kind
    rw [hsame.requests]
    exact hs.known seq kind
  · intro t ht
    have hextends := ht.same hsame.symm
    rw [validateAll, List.foldlM_append]
    exact (congrArg (· >>= _) (hs.validated t hextends)).trans (validateAll_graft hextends hvalid).2

theorem Undisturbed.retained (hs : Undisturbed link s) :
    ∃ issued incoming, Retained link s issued incoming := by
  induction hs with
  | opened =>
    refine ⟨[], [], rfl, rfl, by simp, by simp, ?_, Nat.le_refl 3, rfl, fun t _ => rfl, by simp⟩
    intro seq hlt hthree
    exact absurd hlt (Nat.not_lt.mpr hthree)
  | sent _ hsend hwhole ih =>
    obtain ⟨issued, incoming, hs⟩ := ih
    exact ⟨_, incoming, hs.sent hsend hwhole⟩
  | polled _ hpoll ih =>
    obtain ⟨issued, incoming, hs⟩ := ih
    obtain ⟨frames, ht⟩ := hs.polled hpoll
    exact ⟨issued, _, ht⟩

end Streams

/-- Every request of the session was answered, EXEC apart. -/
def AllAnswered (s : Session) : Prop :=
  ∀ seq < s.sequence, 3 ≤ seq → seq ∈ s.state.responses ∨ s.state.requests seq = some kindExec

instance (s : Session) : Decidable (AllAnswered s) :=
  inferInstanceAs (Decidable (∀ seq < s.sequence, _))

theorem Retained.allAnswered {link : Link} {s : Session} {issued incoming : List Frame}
    (hs : Retained link s issued incoming) :
    (∀ frame ∈ issued, frame.seq ∈ s.state.responses ∨ frame.kind = kindExec) ↔
      AllAnswered s := by
  refine ⟨?_, ?_⟩
  · intro h seq hlt hthree
    obtain ⟨frame, hframe, rfl⟩ := hs.complete seq hlt hthree
    exact (h frame hframe).imp_right fun hkind => (hs.known _ _).mpr ⟨frame, hframe, rfl, hkind⟩
  · intro h frame hframe
    have hrequest := (hs.known _ _).mpr ⟨frame, hframe, rfl, rfl⟩
    refine (h _ (hs.numbered frame hframe).2 (hs.numbered frame hframe).1).imp_right ?_
    intro hexec
    rw [hrequest] at hexec
    exact Option.some.inj hexec

theorem replay_eq {link : Link} {s : Session} (hs : Undisturbed link s)
    (hfinished : s.state.finished = true) :
    ∃ incoming, replay link s.rx s.tx =
      if AllAnswered s then .ok ({ s.state with pending := none }, incoming)
      else .error "unanswered retained normal request" := by
  obtain ⟨issued, incoming, hretained⟩ := hs.retained
  have hvalid := hretained.validated s.state (Extends.refl s.state)
  refine ⟨incoming, ?_⟩
  simp only [replay, hretained.outgoing, ok_bind, hretained.received,
    hretained.trailing hfinished, and_self, require_of_pos, hretained.recorded, hvalid]
  rw [require_of_pos _ (show (graft s.state s.state).finished = true from hfinished), ok_bind]
  split
  case isTrue hall =>
    rw [require_of_pos _ (show ∀ frame ∈ issued,
      frame.seq ∈ (graft s.state s.state).responses ∨ frame.kind = kindExec from
        hretained.allAnswered.mpr hall)]
    rfl
  case isFalse hnot =>
    rw [require_of_neg _ (show ¬ ∀ frame ∈ issued,
      frame.seq ∈ (graft s.state s.state).responses ∨ frame.kind = kindExec from
        fun h => hnot (hretained.allAnswered.mp h))]
    rfl

/-- The streams that a finished session retained replay to its own state, the window
apart, when every STATUS and CANCEL was answered; otherwise the replay refuses them. -/
theorem finished_session_replays {link : Link} {s : Session} (hs : Undisturbed link s)
    (hfinished : s.state.finished = true) :
    (AllAnswered s → ∃ incoming,
      replay link s.rx s.tx = .ok ({ s.state with pending := none }, incoming)) ∧
    (¬ AllAnswered s → replay link s.rx s.tx = .error "unanswered retained normal request") := by
  obtain ⟨incoming, hreplay⟩ := replay_eq hs hfinished
  exact ⟨fun hall => ⟨incoming, by rw [hreplay, if_pos hall]⟩,
    fun hnot => by rw [hreplay, if_neg hnot]⟩

namespace Samples

def ready : List UInt8 :=
  Frame.encode Link.keyless ⟨kindReady, 2, words [1, 600000, 300000, 1048576, 767, 255, 0, 0]⟩

def reply (kind seq : Nat) : List UInt8 :=
  Frame.encode Link.keyless ⟨kind, seq, words [0, 0, 0, 1, 0, 0, 0, 0]⟩

def asked : Except String Session := do
  let s ← poll Link.keyless {} ready
  let (s, _) ← send Link.keyless s kindStatus [] 48
  return s

def controlled (s : Session) (seq : Nat) : Except String Session := do
  let (s, _) ← send Link.keyless s kindControl [] 48
  poll Link.keyless s (reply kindControlAck seq)

def unanswered : Except String Session := do
  let s ← asked
  controlled s 4

def answered : Except String Session := do
  let s ← asked
  let s ← poll Link.keyless s (reply kindStatusReply 3)
  controlled s 4

theorem sent_undisturbed {s t : Session} {kind : Nat} {taken : List UInt8}
    (hs : Undisturbed Link.keyless s)
    (hsend : send Link.keyless s kind [] 48 = .ok (t, taken)) :
    Undisturbed Link.keyless t := by
  refine .sent hs hsend ?_
  obtain ⟨-, -, -, -, -, rfl, -⟩ := send_spec hsend
  simp [headerSize]

theorem asked_undisturbed {s : Session} (h : asked = .ok s) : Undisturbed Link.keyless s := by
  rw [asked, bind_eq_ok] at h
  obtain ⟨u, hready, h⟩ := h
  rw [bind_eq_ok] at h
  obtain ⟨⟨t, taken⟩, hsend, hresult⟩ := h
  cases hresult
  exact sent_undisturbed (.polled .opened hready) hsend

theorem controlled_undisturbed {s t : Session} {seq : Nat} (hs : Undisturbed Link.keyless s)
    (h : controlled s seq = .ok t) : Undisturbed Link.keyless t := by
  rw [controlled, bind_eq_ok] at h
  obtain ⟨⟨u, taken⟩, hsend, hpoll⟩ := h
  exact .polled (sent_undisturbed hs hsend) hpoll

theorem unanswered_undisturbed {s : Session} (h : unanswered = .ok s) :
    Undisturbed Link.keyless s := by
  rw [unanswered, bind_eq_ok] at h
  obtain ⟨u, hasked, hcontrolled⟩ := h
  exact controlled_undisturbed (asked_undisturbed hasked) hcontrolled

theorem answered_undisturbed {s : Session} (h : answered = .ok s) : Undisturbed Link.keyless s := by
  rw [answered, bind_eq_ok] at h
  obtain ⟨u, hasked, h⟩ := h
  rw [bind_eq_ok] at h
  obtain ⟨v, hpoll, hcontrolled⟩ := h
  exact controlled_undisturbed (.polled (asked_undisturbed hasked) hpoll) hcontrolled

def ending (sample : Except String Session) : Option (Bool × Bool × Bool) :=
  sample.toOption.map fun s => (s.state.finished, s.state.faulted, decide (AllAnswered s))

theorem ending_eq_some {sample : Except String Session} {finished faulted all : Bool}
    (h : ending sample = some (finished, faulted, all)) :
    ∃ s, sample = .ok s ∧ s.state.finished = finished ∧ s.state.faulted = faulted ∧
      decide (AllAnswered s) = all := by
  cases sample with
  | error message => cases h
  | ok s =>
    cases h
    exact ⟨s, rfl, rfl, rfl, rfl⟩

end Samples

/-- A finished session without a fault that does not replay: its STATUS was not
answered. -/
theorem finished_session_refused_by_replay :
    ∃ s, Undisturbed Link.keyless s ∧ s.state.finished = true ∧ s.state.faulted = false ∧
      replay Link.keyless s.rx s.tx = .error "unanswered retained normal request" := by
  have hending : Samples.ending Samples.unanswered = some (true, false, false) := by
    decide +kernel
  obtain ⟨s, hsample, hfinished, hfaulted, hall⟩ := Samples.ending_eq_some hending
  have hs := Samples.unanswered_undisturbed hsample
  obtain ⟨incoming, hreplay⟩ := replay_eq hs hfinished
  refine ⟨s, hs, hfinished, hfaulted, ?_⟩
  rw [hreplay, if_neg (of_decide_eq_false hall)]

theorem finished_session_replays_status :
    ∃ s incoming, Undisturbed Link.keyless s ∧ s.state.finished = true ∧ AllAnswered s ∧
      replay Link.keyless s.rx s.tx = .ok ({ s.state with pending := none }, incoming) := by
  have hending : Samples.ending Samples.answered = some (true, false, true) := by
    decide +kernel
  obtain ⟨s, hsample, hfinished, -, hall⟩ := Samples.ending_eq_some hending
  have hs := Samples.answered_undisturbed hsample
  obtain ⟨incoming, hreplay⟩ :=
    (finished_session_replays hs hfinished).1 (of_decide_eq_true hall)
  exact ⟨s, incoming, hs, hfinished, of_decide_eq_true hall, hreplay⟩

end NativeInitLab.RootConsole.Host
