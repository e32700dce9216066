import Mathlib.Data.List.Induction
import NativeInitLab.Library.Lines
import NativeInitLab.Library.RingBuffer

/-!
The log that the resident session keeps of a command's output, `s22plus_resident_v1/wire.h`.
-/

namespace NativeInitLab.Resident

open RingBuffer Lines

def maxCounter : Nat := 2 ^ 64 - 1

/-- `struct resident_log`.  A slot holds the first `size` bytes of its row, `line` the first `used`
bytes of `partial`. -/
structure Log where
  ring : Ring 64 (List UInt8)
  line : List UInt8
  discard : Bool
  exhausted : Bool
  last : Nat
  evicted : Nat
  dropped : Nat

def Log.empty : Log := ⟨⟨fun _ => [], 0, 0, Nat.zero_le 64⟩, [], false, false, 0, 0, 0⟩

def printable (c : UInt8) : Bool := 32 ≤ c && c ≤ 126

def residentLogDrop (log : Log) : Log :=
  if log.dropped ≠ maxCounter then { log with dropped := log.dropped + 1 }
  else { log with exhausted := true }

/-- The row is stored after what the ring holds, over the oldest row when the ring is full. -/
def residentLogStore (log : Log) : Log :=
  if hfull : log.ring.count = 64 then
    if log.evicted = maxCounter then { log with exhausted := true }
    else
      { log with
        ring := log.ring.pop.push (log.line ++ [10])
          (Nat.lt_of_le_of_lt (Nat.sub_le_sub_right (Nat.le_of_eq hfull) 1) (by decide))
        evicted := log.evicted + 1
        last := log.last + 1
        line := [] }
  else
    { log with
      ring := log.ring.push (log.line ++ [10]) (Nat.lt_of_le_of_ne log.ring.bounded hfull)
      last := log.last + 1
      line := [] }

def residentLogByte (log : Log) (c : UInt8) : Log :=
  if log.exhausted then log
  else if c = 10 then
    if log.discard then { residentLogDrop log with discard := false, line := [] }
    else if log.last = maxCounter then { log with exhausted := true }
    else residentLogStore log
  else if log.discard then log
  else if printable c = false ∨ log.line.length = 767 then { log with discard := true }
  else { log with line := log.line ++ [c] }

def residentLogFeed (log : Log) (bytes : List UInt8) : Log := bytes.foldl residentLogByte log

/-! What the log is meant to hold. -/

def acceptable (line : List UInt8) : Bool := line.length ≤ 767 && line.all printable

def accepted (stream : List UInt8) : List (List UInt8) := (complete 10 stream).filter acceptable

def rejected (stream : List UInt8) : List (List UInt8) :=
  (complete 10 stream).filter fun line => !acceptable line

theorem acceptable_iff {line : List UInt8} :
    acceptable line = true ↔ line.length ≤ 767 ∧ line.all printable = true := by
  rw [acceptable, Bool.and_eq_true, decide_eq_true_eq]

theorem acceptable_append {line : List UInt8} {c : UInt8} : acceptable (line ++ [c]) = true ↔
      acceptable line = true ∧ printable c = true ∧ line.length ≠ 767 := by
  rw [acceptable_iff, acceptable_iff, List.length_append, List.all_append, Bool.and_eq_true]
  simp only [List.length_singleton, List.all_cons, List.all_nil, Bool.and_true]
  constructor
  · rintro ⟨hlength, hline, hc⟩
    exact ⟨⟨by omega, hline⟩, hc, by omega⟩
  · rintro ⟨⟨hlength, hline⟩, hc, hne⟩
    exact ⟨by omega, hline, hc⟩

section Extend

variable {stream : List UInt8} {c : UInt8}

theorem accepted_newline : accepted (stream ++ [10]) =
      accepted stream ++ if acceptable (unfinished 10 stream) then [unfinished 10 stream] else [] := by
  rw [accepted, complete_newline, List.filter_append, List.filter_singleton]
  cases acceptable (unfinished 10 stream) <;> rfl

theorem rejected_newline : rejected (stream ++ [10]) =
      rejected stream ++ if acceptable (unfinished 10 stream) then [] else [unfinished 10 stream] := by
  rw [rejected, complete_newline, List.filter_append, List.filter_singleton]
  cases acceptable (unfinished 10 stream) <;> rfl

theorem accepted_other (hc : c ≠ 10) : accepted (stream ++ [c]) = accepted stream := by
  rw [accepted, complete_other hc]
  rfl

theorem rejected_other (hc : c ≠ 10) : rejected (stream ++ [c]) = rejected stream := by
  rw [rejected, complete_other hc]
  rfl

end Extend

/-- The line in the making: kept while it can still be accepted, known to be bad otherwise. -/
def Pending (log : Log) (rest : List UInt8) : Prop :=
  if log.discard then acceptable rest = false else log.line = rest ∧ acceptable rest = true

/-- The log holds what it should of the bytes fed so far. -/
structure Shows (log : Log) (stream : List UInt8) : Prop where
  contents : log.ring.contents =
    ((accepted stream).drop ((accepted stream).length - 64)).map (· ++ [10])
  last : log.last = (accepted stream).length
  evicted : log.evicted = (accepted stream).length - 64
  dropped : log.dropped = (rejected stream).length
  pending : Pending log (unfinished 10 stream)

theorem shows_empty : Shows Log.empty [] :=
  ⟨rfl, rfl, rfl, rfl, by simp [Pending, Log.empty, acceptable]⟩

theorem Shows.count {log : Log} {stream : List UInt8} (hshows : Shows log stream) :
    log.ring.count = min 64 (accepted stream).length := by
  rw [← Ring.length_contents, hshows.contents, List.length_map, List.length_drop]
  omega

section Step

variable {log : Log} {stream : List UInt8} {c : UInt8}

theorem pending_newline {next : Log} (hdiscard : next.discard = false) (hline : next.line = []) :
    Pending next (unfinished 10 (stream ++ [10])) := by
  rw [Pending, hdiscard, unfinished_newline, if_neg Bool.false_ne_true]
  exact ⟨hline, rfl⟩

section

variable (hshows : Shows log stream)
include hshows

theorem shows_drop (hdiscard : log.discard = true)
    (hafter : (residentLogDrop log).exhausted = false) :
    Shows { residentLogDrop log with discard := false, line := [] } (stream ++ [10]) := by
  have hpending := hshows.pending
  rw [Pending, hdiscard, if_pos rfl] at hpending
  have hbad : ¬ acceptable (unfinished 10 stream) = true := by simp [hpending]
  have haccepted : accepted (stream ++ [10]) = accepted stream := by
    rw [accepted_newline, if_neg hbad, List.append_nil]
  unfold residentLogDrop at hafter ⊢
  by_cases hdropped : log.dropped = maxCounter
  · rw [if_neg (not_not_intro hdropped)] at hafter
    cases hafter
  · rw [if_pos hdropped]
    refine ⟨?_, ?_, ?_, ?_, pending_newline rfl rfl⟩
    · rw [haccepted]
      exact hshows.contents
    · rw [haccepted]
      exact hshows.last
    · rw [haccepted]
      exact hshows.evicted
    · rw [rejected_newline, if_neg hbad, List.length_append]
      exact congrArg (· + 1) hshows.dropped

theorem contents_pop_of_shows (hfull : log.ring.count = 64) :
    log.ring.pop.contents =
      ((accepted stream).drop ((accepted stream).length - 63)).map (· ++ [10]) := by
  have hcount := hshows.count
  have hcons : log.ring.contents = log.ring.slots log.ring.head :: log.ring.pop.contents :=
    Ring.contents_cons (by omega)
  rw [hshows.contents, List.map_drop] at hcons
  have htail := congrArg List.tail hcons
  rw [List.tail_drop, List.tail_cons] at htail
  rw [← htail, List.map_drop]
  congr 1
  omega

theorem shows_store (hdiscard : log.discard = false)
    (hafter : (residentLogStore log).exhausted = false) :
    Shows (residentLogStore log) (stream ++ [10]) := by
  have hpending := hshows.pending
  rw [Pending, hdiscard, if_neg Bool.false_ne_true] at hpending
  obtain ⟨hline, hgood⟩ := hpending
  have hcount := hshows.count
  have haccepted : accepted (stream ++ [10]) = accepted stream ++ [unfinished 10 stream] := by
    rw [accepted_newline, if_pos hgood]
  have hrejected : rejected (stream ++ [10]) = rejected stream := by
    rw [rejected_newline, if_pos hgood, List.append_nil]
  have hlength : (accepted (stream ++ [10])).length = (accepted stream).length + 1 := by
    rw [haccepted, List.length_append]
    rfl
  unfold residentLogStore at hafter ⊢
  by_cases hfull : log.ring.count = 64
  · rw [dif_pos hfull] at hafter ⊢
    by_cases hevicted : log.evicted = maxCounter
    · rw [if_pos hevicted] at hafter
      cases hafter
    · rw [if_neg hevicted]
      refine ⟨?_, by rw [hlength, hshows.last], ?_, by rw [hrejected, hshows.dropped],
        pending_newline hdiscard rfl⟩
      · show (log.ring.pop.push (log.line ++ [10]) _).contents = _
        rw [Ring.contents_push, contents_pop_of_shows hshows hfull, hlength, haccepted, hline,
          List.drop_append_of_le_length (by omega), List.map_append]
        congr 3
      · show log.evicted + 1 = _
        rw [hlength, hshows.evicted]
        omega
  · rw [dif_neg hfull]
    have hnone : (accepted stream).length - 64 = 0 := by omega
    have hnext : (accepted stream).length + 1 - 64 = 0 := by omega
    refine ⟨?_, by rw [hlength, hshows.last], ?_, by rw [hrejected, hshows.dropped],
      pending_newline hdiscard rfl⟩
    · show (log.ring.push (log.line ++ [10]) _).contents = _
      rw [Ring.contents_push, hshows.contents, hlength, haccepted, hline, hnone, hnext,
        List.drop_zero, List.drop_zero, List.map_append]
      rfl
    · show log.evicted = _
      rw [hlength, hshows.evicted, hnone, hnext]

theorem Shows.other {next : Log} (hc : c ≠ 10) (hring : next.ring = log.ring)
    (hlast : next.last = log.last) (hevicted : next.evicted = log.evicted)
    (hdropped : next.dropped = log.dropped) (hpending : Pending next (unfinished 10 stream ++ [c])) :
    Shows next (stream ++ [c]) := by
  refine ⟨?_, ?_, ?_, ?_, ?_⟩
  · rw [hring, accepted_other hc, hshows.contents]
  · rw [hlast, accepted_other hc, hshows.last]
  · rw [hevicted, accepted_other hc, hshows.evicted]
  · rw [hdropped, rejected_other hc, hshows.dropped]
  · rw [unfinished_other hc]
    exact hpending

theorem shows_byte (hlive : log.exhausted = false)
    (hafter : (residentLogByte log c).exhausted = false) :
    Shows (residentLogByte log c) (stream ++ [c]) := by
  have hpending := hshows.pending
  unfold Pending at hpending
  unfold residentLogByte at hafter ⊢
  rw [hlive, if_neg Bool.false_ne_true] at hafter ⊢
  by_cases hc : c = 10
  · subst hc
    rw [if_pos rfl] at hafter ⊢
    cases hdiscard : log.discard with
    | true =>
      rw [hdiscard, if_pos rfl] at hafter
      rw [if_pos rfl]
      exact shows_drop hshows hdiscard hafter
    | false =>
      rw [hdiscard, if_neg Bool.false_ne_true] at hafter
      rw [if_neg Bool.false_ne_true]
      by_cases hlast : log.last = maxCounter
      · rw [if_pos hlast] at hafter
        cases hafter
      · rw [if_neg hlast] at hafter ⊢
        exact shows_store hshows hdiscard hafter
  · rw [if_neg hc]
    cases hdiscard : log.discard with
    | true =>
      rw [hdiscard, if_pos rfl] at hpending
      rw [if_pos rfl]
      refine hshows.other hc rfl rfl rfl rfl ?_
      rw [Pending, hdiscard, if_pos rfl, ← Bool.not_eq_true, acceptable_append]
      simp [hpending]
    | false =>
      rw [hdiscard, if_neg Bool.false_ne_true] at hpending
      obtain ⟨hline, hgood⟩ := hpending
      rw [if_neg Bool.false_ne_true]
      by_cases hbad : printable c = false ∨ log.line.length = 767
      · rw [if_pos hbad]
        refine hshows.other hc rfl rfl rfl rfl ?_
        rw [Pending, if_pos rfl, ← Bool.not_eq_true, acceptable_append, ← hline]
        rintro ⟨-, hprintable, hlength⟩
        rcases hbad with hbad | hbad
        · rw [hprintable] at hbad
          cases hbad
        · exact hlength hbad
      · rw [if_neg hbad]
        refine hshows.other hc rfl rfl rfl rfl ?_
        rw [Pending, if_neg Bool.false_ne_true, acceptable_append, ← hline]
        rw [not_or, Bool.not_eq_false] at hbad
        exact ⟨rfl, hline ▸ hgood, hbad⟩

end

end Step

theorem residentLogByte_exhausted {log : Log} (hexhausted : log.exhausted = true) (c : UInt8) :
    residentLogByte log c = log := if_pos hexhausted

theorem residentLogFeed_exhausted {log : Log} (hexhausted : log.exhausted = true)
    (bytes : List UInt8) : residentLogFeed log bytes = log := by
  induction bytes with
  | nil => rfl
  | cons c bytes ih =>
    rw [residentLogFeed, List.foldl_cons, residentLogByte_exhausted hexhausted]
    exact ih

theorem residentLogFeed_append (log : Log) (front back : List UInt8) :
    residentLogFeed log (front ++ back) = residentLogFeed (residentLogFeed log front) back :=
  List.foldl_append

theorem shows_feed (stream : List UInt8)
    (hlive : (residentLogFeed Log.empty stream).exhausted = false) :
    Shows (residentLogFeed Log.empty stream) stream := by
  induction stream using List.reverseRecOn with
  | nil => exact shows_empty
  | append_singleton stream c ih =>
    rw [residentLogFeed_append] at hlive ⊢
    cases hbefore : (residentLogFeed Log.empty stream).exhausted with
    | true =>
      rw [residentLogFeed_exhausted hbefore, hbefore] at hlive
      cases hlive
    | false => exact shows_byte (ih hbefore) hbefore hlive

theorem feed_chunks (log : Log) (chunks : List (List UInt8)) :
    chunks.foldl residentLogFeed log = residentLogFeed log chunks.flatten := by
  induction chunks generalizing log with
  | nil => rfl
  | cons chunk chunks ih =>
    rw [List.foldl_cons, ih, List.flatten_cons, residentLogFeed_append]

structure WellFormed (log : Log) : Prop where
  line : acceptable log.line = true
  rows : ∀ row ∈ log.ring.contents, ∃ line, acceptable line = true ∧ row = line ++ [10]
  last : log.last = log.evicted + log.ring.count
  full : log.evicted ≠ 0 → log.ring.count = 64
  last_le : log.last ≤ maxCounter
  dropped_le : log.dropped ≤ maxCounter

theorem wellFormed_empty : WellFormed Log.empty :=
  ⟨rfl, (fun _ hrow => nomatch hrow), rfl, fun hne => absurd rfl hne, Nat.zero_le _, Nat.zero_le _⟩

section Kept

variable {log : Log} (hformed : WellFormed log)
include hformed

theorem WellFormed.drop : WellFormed (residentLogDrop log) := by
  have hle := hformed.dropped_le
  unfold residentLogDrop
  by_cases hdropped : log.dropped = maxCounter
  · rw [if_neg (not_not_intro hdropped)]
    exact ⟨hformed.line, hformed.rows, hformed.last, hformed.full, hformed.last_le, hle⟩
  · rw [if_pos hdropped]
    exact ⟨hformed.line, hformed.rows, hformed.last, hformed.full, hformed.last_le,
      Nat.lt_of_le_of_ne hle hdropped⟩

theorem WellFormed.store (hlast : log.last ≠ maxCounter) : WellFormed (residentLogStore log) := by
  have hrow : ∃ line, acceptable line = true ∧ log.line ++ [10] = line ++ [10] :=
    ⟨log.line, hformed.line, rfl⟩
  have hbalance := hformed.last
  have hnext : log.last + 1 ≤ maxCounter := Nat.lt_of_le_of_ne hformed.last_le hlast
  unfold residentLogStore
  by_cases hfull : log.ring.count = 64
  · rw [dif_pos hfull]
    by_cases hevicted : log.evicted = maxCounter
    · rw [if_pos hevicted]
      exact ⟨hformed.line, hformed.rows, hformed.last, hformed.full, hformed.last_le,
        hformed.dropped_le⟩
    · rw [if_neg hevicted]
      have hcons : log.ring.contents = log.ring.slots log.ring.head :: log.ring.pop.contents :=
        Ring.contents_cons (by omega)
      have hcount : log.ring.count - 1 + 1 = 64 := by omega
      refine ⟨rfl, ?_, ?_, fun _ => hcount, hnext, hformed.dropped_le⟩
      · intro row hmember
        rw [Ring.contents_push] at hmember
        rcases List.mem_append.mp hmember with hold | hlastRow
        · exact hformed.rows row (by rw [hcons]; exact List.mem_cons_of_mem _ hold)
        · rw [List.mem_singleton.mp hlastRow]
          exact hrow
      · show log.last + 1 = log.evicted + 1 + (log.ring.count - 1 + 1)
        omega
  · rw [dif_neg hfull]
    refine ⟨rfl, ?_, ?_, fun hevicted => absurd (hformed.full hevicted) hfull, hnext,
      hformed.dropped_le⟩
    · intro row hmember
      rw [Ring.contents_push] at hmember
      rcases List.mem_append.mp hmember with hold | hlastRow
      · exact hformed.rows row hold
      · rw [List.mem_singleton.mp hlastRow]
        exact hrow
    · show log.last + 1 = log.evicted + (log.ring.count + 1)
      omega

theorem WellFormed.withLine {next : Log} (hline : acceptable next.line = true)
    (hring : next.ring = log.ring) (hlast : next.last = log.last)
    (hevicted : next.evicted = log.evicted) (hdropped : next.dropped = log.dropped) :
    WellFormed next :=
  ⟨hline, hring ▸ hformed.rows, by rw [hlast, hevicted, hring, hformed.last],
    by rw [hevicted, hring]; exact hformed.full, hlast ▸ hformed.last_le,
    hdropped ▸ hformed.dropped_le⟩

theorem WellFormed.byte (c : UInt8) : WellFormed (residentLogByte log c) := by
  unfold residentLogByte
  split
  · exact hformed
  · split
    · split
      · exact hformed.drop.withLine rfl rfl rfl rfl rfl
      · split
        · exact hformed.withLine hformed.line rfl rfl rfl rfl
        · rename_i hlast
          exact hformed.store hlast
    · split
      · exact hformed
      · split
        · exact hformed.withLine hformed.line rfl rfl rfl rfl
        · rename_i hgood
          rw [not_or, Bool.not_eq_false] at hgood
          exact hformed.withLine (acceptable_append.mpr ⟨hformed.line, hgood⟩) rfl rfl rfl rfl

theorem WellFormed.feed (bytes : List UInt8) : WellFormed (residentLogFeed log bytes) := by
  induction bytes generalizing log with
  | nil => exact hformed
  | cons c bytes ih => exact ih (hformed.byte c)

end Kept

/-- A counter that still has room for the line does not exhaust the log. -/
theorem live_byte {log : Log} {stream : List UInt8} {c : UInt8} (hshows : Shows log stream)
    (hlive : log.exhausted = false) (haccepted : (accepted (stream ++ [c])).length ≤ maxCounter)
    (hrejected : (rejected (stream ++ [c])).length ≤ maxCounter) :
    (residentLogByte log c).exhausted = false := by
  have hpending := hshows.pending
  unfold Pending at hpending
  rw [residentLogByte, hlive, if_neg Bool.false_ne_true]
  by_cases hc : c = 10
  · subst hc
    rw [if_pos rfl]
    cases hdiscard : log.discard with
    | true =>
      rw [hdiscard, if_pos rfl] at hpending
      rw [rejected_newline, hpending, List.length_append, ← hshows.dropped] at hrejected
      rw [if_pos rfl, residentLogDrop, if_pos (Nat.ne_of_lt hrejected)]
      exact hlive
    | false =>
      rw [hdiscard, if_neg Bool.false_ne_true] at hpending
      rw [accepted_newline, hpending.2, if_pos rfl, List.length_append, ← hshows.last] at haccepted
      have hevicted : log.evicted ≠ maxCounter := by
        have := hshows.last
        have := hshows.evicted
        simp only [List.length_singleton] at haccepted
        omega
      rw [if_neg Bool.false_ne_true, if_neg (Nat.ne_of_lt haccepted), residentLogStore]
      split <;> exact hlive
  · rw [if_neg hc]
    split
    · exact hlive
    · split <;> rfl

theorem live_feed_iff (stream : List UInt8) :
    (residentLogFeed Log.empty stream).exhausted = false ↔
      (accepted stream).length ≤ maxCounter ∧ (rejected stream).length ≤ maxCounter := by
  constructor
  · intro hlive
    have hshows := shows_feed stream hlive
    have hformed := wellFormed_empty.feed stream
    rw [← hshows.last, ← hshows.dropped]
    exact ⟨hformed.last_le, hformed.dropped_le⟩
  · rintro ⟨haccepted, hrejected⟩
    induction stream using List.reverseRecOn with
    | nil => rfl
    | append_singleton stream c ih =>
      have hlines : complete 10 stream <+: complete 10 (stream ++ [c]) := by
        by_cases hc : c = 10
        · rw [hc, complete_newline]
          exact List.prefix_append ..
        · exact (complete_other hc).symm ▸ List.prefix_rfl
      have hbefore := ih (Nat.le_trans (hlines.filter _).length_le haccepted)
        (Nat.le_trans (hlines.filter _).length_le hrejected)
      rw [residentLogFeed_append]
      exact live_byte (shows_feed stream hbefore) hbefore haccepted hrejected

end NativeInitLab.Resident
