import NativeInitLab.Library.RingBuffer
import NativeInitLab.RootConsole.Framing

namespace NativeInitLab.RootConsole.Device

open LittleEndian RingBuffer

/-! The ring of frames that wait for the transport, slot by slot. -/

/-- `struct rc1_frame`; a buffer keeps what a shorter frame does not overwrite. -/
structure Slot where
  bytes : List UInt8 := List.replicate (headerSize + maxPayload) 0
  size : Nat := 0
  used : Nat := 0

abbrev Ring := RingBuffer.Ring queueSlots Slot

def Slot.load (slot : Slot) (encoded : List UInt8) : Slot where
  bytes := encoded ++ slot.bytes.drop encoded.length
  size := encoded.length
  used := 0

def Slot.advance (slot : Slot) (count : Nat) : Slot := { slot with used := slot.used + count }

def ringQueue (link : Link) (ring : Ring) (frame : Frame) : Ring × Option Errno :=
  if hfull : frame.body.length + 32 > maxPayload ∨ ring.count = queueSlots then
    (ring, some Errno.eagain)
  else
    (ring.push ((ring.slots (ring.position ring.count)).load (frame.encode link))
      (Nat.lt_of_le_of_ne ring.bounded fun h => hfull (.inr h)), none)

/-- `rc1_flush`, with the bytes that the transport took. -/
def ringFlush (ring : Ring) (answer : WriteAnswer) : (Ring × Option Errno) × List UInt8 :=
  if ring.count = 0 then ((ring, none), [])
  else
    let slot := ring.slots ring.head
    match answer with
    | .failed errno => ((ring, errno.lasting), [])
    | .wrote count =>
      if count = 0 ∨ count > slot.size - slot.used then ((ring, some Errno.eio), [])
      else
        let ring := ring.setFront (slot.advance count)
        if slot.used + count = slot.size then
          ((ring.pop, none), window slot.used count slot.bytes)
        else ((ring, none), window slot.used count slot.bytes)

/-- The ring, what the transport took, and the frames for which `rc1_queue` returned 0. -/
structure Traffic where
  ring : Ring
  wire : List UInt8 := []
  frames : List Frame := []

def Traffic.start : Traffic where
  ring := { slots := fun _ => {}, head := 0, count := 0, bounded := Nat.zero_le _ }

inductive Call where
  | queue (frame : Frame)
  | flush (answer : WriteAnswer)

def Traffic.call (link : Link) (traffic : Traffic) : Call → Traffic
  | .queue frame =>
    match ringQueue link traffic.ring frame with
    | (ring, none) => { traffic with ring, frames := traffic.frames ++ [frame] }
    | (ring, some _) => { traffic with ring }
  | .flush answer =>
    match ringFlush traffic.ring answer with
    | ((ring, _), sent) => { traffic with ring, wire := traffic.wire ++ sent }

def Traffic.run (link : Link) (traffic : Traffic) (calls : List Call) : Traffic :=
  calls.foldl (Traffic.call link) traffic

def Slot.Unsent (slot : Slot) : Prop := slot.used < slot.size

def Slot.pending (slot : Slot) : List UInt8 := window slot.used (slot.size - slot.used) slot.bytes

/-! The queue is an unbounded one for the bytes. -/

structure InOrder (link : Link) (traffic : Traffic) : Prop where
  order : traffic.wire ++ traffic.ring.contents.flatMap Slot.pending =
    traffic.frames.flatMap (Frame.encode link)
  unsent : ∀ i, (traffic.ring.slots i).Unsent ↔ traffic.ring.Used i
  within : ∀ i, (traffic.ring.slots i).size ≤ (traffic.ring.slots i).bytes.length

section Calls

variable {link : Link} {traffic : Traffic}

theorem InOrder.start : InOrder link Traffic.start where
  order := rfl
  unsent i := by
    refine ⟨fun h => absurd h (Nat.lt_irrefl 0), ?_⟩
    rintro ⟨distance, hlt, -⟩
    exact absurd hlt (Nat.not_lt_zero _)
  within i := Nat.zero_le _

theorem pending_load (slot : Slot) (encoded : List UInt8) :
    (slot.load encoded).pending = encoded := by
  change window 0 (encoded.length - 0) (encoded ++ _) = encoded
  rw [Nat.sub_zero, window_append_left (by omega), window_self]

theorem pending_advance {slot : Slot} {count : Nat} (hcount : count ≤ slot.size - slot.used) :
    slot.pending = window slot.used count slot.bytes ++
      (slot.advance count).pending := by
  rw [Slot.pending, show slot.size - slot.used = count + (slot.size - (slot.used + count)) by omega,
    window_add]
  rfl

theorem InOrder.push (horder : InOrder link traffic) (frame : Frame)
    (hroom : traffic.ring.count < queueSlots) :
    InOrder link { traffic with
      ring := traffic.ring.push ((traffic.ring.slots (traffic.ring.position traffic.ring.count)).load
        (frame.encode link)) hroom
      frames := traffic.frames ++ [frame] } where
  order := by
    dsimp only
    rw [Ring.contents_push, List.flatMap_append, List.flatMap_append, ← List.append_assoc,
      horder.order]
    simp [pending_load]
  unsent i := by
    dsimp only
    rw [Ring.used_push]
    by_cases hi : i = traffic.ring.position traffic.ring.count
    · subst hi
      rw [Ring.slots_push_next]
      refine iff_of_true ?_ (.inr rfl)
      change 0 < (frame.encode link).length
      rw [Frame.length_encode]
      omega
    · rw [Ring.slots_push_of_ne _ _ hi, horder.unsent, or_iff_left hi]
  within i := by
    dsimp only
    by_cases hi : i = traffic.ring.position traffic.ring.count
    · subst hi
      rw [Ring.slots_push_next]
      change (frame.encode link).length ≤ (frame.encode link ++ _).length
      rw [List.length_append]
      omega
    · rw [Ring.slots_push_of_ne _ _ hi]
      exact horder.within i

section Front

variable {slot : Slot} {count : Nat} (hslot : traffic.ring.slots traffic.ring.head = slot)

include hslot

theorem InOrder.within_setFront (horder : InOrder link traffic) (i : Fin queueSlots) :
    ((traffic.ring.setFront (slot.advance count)).slots i).size ≤
      ((traffic.ring.setFront (slot.advance count)).slots i).bytes.length := by
  by_cases hi : i = traffic.ring.head
  · rw [hi, Ring.slots_setFront_head, ← hslot]
    exact horder.within _
  · rw [Ring.slots_setFront_of_ne _ hi]
    exact horder.within i

theorem InOrder.advance (horder : InOrder link traffic) (hcount : 0 < traffic.ring.count)
    (hfits : slot.used + count < slot.size) :
    InOrder link { traffic with
      ring := traffic.ring.setFront (slot.advance count)
      wire := traffic.wire ++ window slot.used count slot.bytes } where
  order := by
    dsimp only
    rw [← horder.order, Ring.contents_setFront _ hcount, Ring.contents_cons hcount, hslot,
      List.flatMap_cons, List.flatMap_cons, List.append_assoc, ← List.append_assoc (window _ _ _),
      ← pending_advance (by omega)]
  unsent i := by
    change Slot.Unsent _ ↔ traffic.ring.Used i
    by_cases hi : i = traffic.ring.head
    · rw [hi, Ring.slots_setFront_head]
      exact iff_of_true hfits (Ring.used_head hcount)
    · rw [Ring.slots_setFront_of_ne _ hi, horder.unsent]
  within := horder.within_setFront hslot

theorem InOrder.complete (horder : InOrder link traffic) (hcount : 0 < traffic.ring.count)
    (hfits : slot.used + count = slot.size) :
    InOrder link { traffic with
      ring := (traffic.ring.setFront (slot.advance count)).pop
      wire := traffic.wire ++ window slot.used count slot.bytes } where
  order := by
    have hpending : slot.pending = window slot.used count slot.bytes := by
      rw [Slot.pending, ← hfits, Nat.add_sub_cancel_left]
    dsimp only
    rw [← horder.order, Ring.contents_pop_setFront, Ring.contents_cons hcount, hslot,
      List.flatMap_cons, List.append_assoc, hpending]
  unsent i := by
    have hused : (traffic.ring.setFront (slot.advance count)).pop.Used i ↔
        traffic.ring.Used i ∧ i ≠ traffic.ring.head := Ring.used_pop hcount
    change Slot.Unsent ((traffic.ring.setFront _).slots i) ↔ _
    rw [hused]
    by_cases hi : i = traffic.ring.head
    · rw [hi, Ring.slots_setFront_head]
      refine iff_of_false ?_ fun h => h.2 rfl
      change ¬ slot.used + count < slot.size
      omega
    · rw [Ring.slots_setFront_of_ne _ hi, horder.unsent, and_iff_left hi]
  within := horder.within_setFront hslot

end Front

theorem InOrder.call (horder : InOrder link traffic) (call : Call) :
    InOrder link (traffic.call link call) := by
  cases call with
  | queue frame =>
    unfold Traffic.call ringQueue
    by_cases hfull : frame.body.length + 32 > maxPayload ∨ traffic.ring.count = queueSlots
    · simp only [dif_pos hfull]
      exact horder
    · simp only [dif_neg hfull]
      exact horder.push frame _
  | flush answer =>
    unfold Traffic.call ringFlush
    by_cases hempty : traffic.ring.count = 0
    · simp only [if_pos hempty, List.append_nil]
      exact horder
    · simp only [if_neg hempty]
      cases answer with
      | failed errno =>
        simp only [List.append_nil]
        exact horder
      | wrote count =>
        dsimp only
        split
        case isTrue =>
          rw [List.append_nil]
          exact horder
        case isFalse hfits =>
          obtain ⟨-, hfits⟩ := not_or.mp hfits
          split
          case isTrue hwhole => exact horder.complete rfl (by omega) hwhole
          case isFalse hpart => exact horder.advance rfl (by omega) (by omega)

theorem InOrder.run (horder : InOrder link traffic) (calls : List Call) :
    InOrder link (traffic.run link calls) := by
  induction calls generalizing traffic with
  | nil => exact horder
  | cons call calls ih => exact ih (horder.call call)

theorem InOrder.kept (horder : InOrder link traffic) (call : Call) (i : Fin queueSlots)
    (hunsent : (traffic.ring.slots i).Unsent) :
    ((traffic.call link call).ring.slots i).bytes = (traffic.ring.slots i).bytes ∧
      ((traffic.call link call).ring.slots i).size = (traffic.ring.slots i).size := by
  cases call with
  | queue frame =>
    unfold Traffic.call ringQueue
    by_cases hfull : frame.body.length + 32 > maxPayload ∨ traffic.ring.count = queueSlots
    · simp only [dif_pos hfull, and_self]
    · have hroom : traffic.ring.count < queueSlots :=
        Nat.lt_of_le_of_ne traffic.ring.bounded fun h => hfull (.inr h)
      have hi : i ≠ traffic.ring.position traffic.ring.count := by
        rintro rfl
        exact Ring.not_used_next hroom ((horder.unsent _).mp hunsent)
      simp only [dif_neg hfull, Ring.slots_push_of_ne _ _ hi, and_self]
  | flush answer =>
    have hfront (count : Nat) :
        ((traffic.ring.setFront ((traffic.ring.slots traffic.ring.head).advance count)).slots
            i).bytes = (traffic.ring.slots i).bytes ∧
          ((traffic.ring.setFront ((traffic.ring.slots traffic.ring.head).advance count)).slots
            i).size = (traffic.ring.slots i).size := by
      by_cases hi : i = traffic.ring.head
      · rw [hi, Ring.slots_setFront_head]
        exact ⟨rfl, rfl⟩
      · rw [Ring.slots_setFront_of_ne _ hi]
        exact ⟨rfl, rfl⟩
    unfold Traffic.call ringFlush
    by_cases hempty : traffic.ring.count = 0
    · simp only [if_pos hempty, and_self]
    · simp only [if_neg hempty]
      cases answer with
      | failed errno => exact ⟨rfl, rfl⟩
      | wrote count =>
        dsimp only
        split
        case isTrue => exact ⟨rfl, rfl⟩
        case isFalse =>
          split
          case isTrue => exact hfront count
          case isFalse => exact hfront count

theorem wire_follows_queue (link : Link) (calls : List Call) :
    (Traffic.start.run link calls).wire <+:
        (Traffic.start.run link calls).frames.flatMap (Frame.encode link) ∧
      ((Traffic.start.run link calls).ring.count = 0 →
        (Traffic.start.run link calls).wire =
          (Traffic.start.run link calls).frames.flatMap (Frame.encode link)) ∧
      ∀ call i, ((Traffic.start.run link calls).ring.slots i).Unsent →
        (((Traffic.start.run link calls).call link call).ring.slots i).bytes =
            ((Traffic.start.run link calls).ring.slots i).bytes ∧
          (((Traffic.start.run link calls).call link call).ring.slots i).size =
            ((Traffic.start.run link calls).ring.slots i).size := by
  have horder := InOrder.run (@InOrder.start link) calls
  refine ⟨⟨_, horder.order⟩, fun hempty => ?_, horder.kept⟩
  have hbytes := horder.order
  rwa [Ring.contents_eq_nil hempty, List.flatMap_nil, List.append_nil] at hbytes

end Calls

/-! The list of frames in the model of the session is the contents of the ring. -/

def Slot.queued (slot : Slot) : Queued := ⟨slot.bytes.take slot.size, slot.used⟩

def Slot.Within (slot : Slot) : Prop := slot.size ≤ slot.bytes.length

section Refinement

variable {s : State} {ring : Ring}

theorem queue_refines (link : Link) (hview : s.queue = ring.contents.map Slot.queued)
    (frame : Frame) :
    (queue link s frame.kind frame.seq frame.body).1.queue =
        (ringQueue link ring frame).1.contents.map Slot.queued ∧
      (queue link s frame.kind frame.seq frame.body).2 = (ringQueue link ring frame).2 := by
  have hlength : s.queue.length = ring.count := by
    rw [hview, List.length_map, Ring.length_contents]
  unfold queue ringQueue
  rw [hlength]
  by_cases hfull : frame.body.length + 32 > maxPayload ∨ ring.count = queueSlots
  · rw [if_pos hfull, dif_pos hfull]
    exact ⟨hview, rfl⟩
  · rw [if_neg hfull, dif_neg hfull, Ring.contents_push, List.map_append]
    refine ⟨?_, rfl⟩
    have hqueued (slot : Slot) :
        (slot.load (frame.encode link)).queued = ⟨frame.encode link, 0⟩ := by
      rw [Slot.queued, Slot.load, List.take_left]
    change s.queue ++ [_] = _ ++ [_]
    rw [hview, hqueued]

theorem flush_refines (hview : s.queue = ring.contents.map Slot.queued)
    (hwithin : (ring.slots ring.head).Within) (answer : WriteAnswer) :
    (flush s answer).1.1.queue = (ringFlush ring answer).1.1.contents.map Slot.queued ∧
      (flush s answer).1.2 = (ringFlush ring answer).1.2 ∧
      (flush s answer).2 = (ringFlush ring answer).2 := by
  unfold flush ringFlush
  by_cases hempty : ring.count = 0
  · have hnil : s.queue = [] := by rw [hview, Ring.contents_eq_nil hempty, List.map_nil]
    rw [if_pos hempty, hnil]
    exact ⟨hnil.trans (hnil.symm.trans hview), rfl, rfl⟩
  · have hcount : 0 < ring.count := by omega
    have hqueue : s.queue = (ring.slots ring.head).queued :: ring.pop.contents.map Slot.queued := by
      rw [hview, Ring.contents_cons hcount, List.map_cons]
    generalize ring.slots ring.head = slot at hwithin hqueue
    have hsize : (slot.bytes.take slot.size).length = slot.size := List.length_take_of_le hwithin
    simp only [if_neg hempty, hqueue, Slot.queued, hsize]
    cases answer with
    | failed errno => exact ⟨hview, rfl, rfl⟩
    | wrote count =>
      by_cases hbad : count = 0 ∨ count > slot.size - slot.used
      · simp only [if_pos hbad]
        exact ⟨hview, trivial, trivial⟩
      · have hsent : window slot.used count (slot.bytes.take slot.size) =
            window slot.used count slot.bytes := window_take (by omega)
        by_cases hwhole : slot.used + count = slot.size
        · simp only [if_neg hbad, if_pos hwhole, hsent, Ring.contents_pop_setFront, and_self]
        · simp only [if_neg hbad, if_neg hwhole, hsent, Ring.contents_setFront _ hcount,
            List.map_cons, and_self]
          exact ⟨rfl, trivial⟩

end Refinement

end NativeInitLab.RootConsole.Device
