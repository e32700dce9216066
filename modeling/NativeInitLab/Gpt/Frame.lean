import NativeInitLab.Gpt.Recovery

namespace NativeInitLab.Gpt

open CrashProgram

/-! What one run writes, whatever the media holds and whatever the device does. -/

structure Traced where
  media : Media
  writes : List (Nat × (Nat → UInt8)) := []

def Traced.Writes (lba : Nat) (data : Nat → UInt8) (before now : Traced) : Prop :=
  now.writes = before.writes ++ [(lba, data)] ∧ ∀ a, a ∉ sector lba → now.media a = before.media a

/-- Any call may fail, and a write may leave anything in its block.  A read that succeeds gives
the bytes of the media. -/
def anyDevice : Machine Op Answer Traced where
  during
    | .write lba data, before, now => Traced.Writes lba data before now
    | _, before, now => now = before
  after
    | .read, before, answer, now =>
      now = before ∧ (answer = none ∨ answer = some (image before.media))
    | .write lba data, before, _, now => Traced.Writes lba data before now
    | .sync, before, _, now => now = before
    | .event _ _ _, before, _, now => now = before

structure Issued (start : Media) (target : Image) (traced : Traced) : Prop where
  bounded : traced.writes.length ≤ 4
  distinct : (traced.writes.map Prod.fst).Nodup
  listed : ∀ write ∈ traced.writes, ∃ i < 4, write = (lbas i, blockAt target (offsets i))
  frame : ∀ a, (∀ write ∈ traced.writes, a ∉ sector write.1) → traced.media a = start a

theorem Issued.eq_start {start : Media} {target : Image} {traced : Traced}
    (hissued : Issued start target traced) (hwrites : traced.writes = []) :
    traced.media = start := by
  funext a
  refine hissued.frame a fun write hwrite => ?_
  rw [hwrites] at hwrite
  cases hwrite

theorem Issued.start (start : Media) (target : Image) : Issued start target ⟨start, []⟩ where
  bounded := Nat.zero_le _
  distinct := List.nodup_nil
  listed _ hwrite := by cases hwrite
  frame _ _ := rfl

section Ordinals

variable {start : Media} {target : Image} {first : Nat} {traced now : Traced}

def request (target : Image) (first ordinal : Nat) : Nat × (Nat → UInt8) :=
  (lbas ((first + ordinal) % 4), blockAt target (offsets ((first + ordinal) % 4)))

/-- The passes in `ordinals` are the only ones that may have written, each of them once. -/
structure Ordered (start : Media) (target : Image) (first : Nat) (ordinals : List Nat)
    (traced : Traced) : Prop where
  passes : ∃ issued : List Nat,
    issued.Sublist ordinals ∧ traced.writes = issued.map (request target first)
  frame : ∀ a, (∀ write ∈ traced.writes, a ∉ sector write.1) → traced.media a = start a

theorem lbas_injective {i j : Nat} (hi : i < 4) (hj : j < 4) (hlbas : lbas i = lbas j) : i = j := by
  have hi : i = 0 ∨ i = 1 ∨ i = 2 ∨ i = 3 := by omega
  have hj : j = 0 ∨ j = 1 ∨ j = 2 ∨ j = 3 := by omega
  rcases hi with rfl | rfl | rfl | rfl <;> rcases hj with rfl | rfl | rfl | rfl <;>
    first | rfl | cases hlbas

theorem nodup_requests (target : Image) (first : Nat) :
    (([0, 1, 2, 3].map (request target first)).map Prod.fst).Nodup := by
  rw [List.map_map]
  refine List.Nodup.map_on ?_ (by decide)
  intro i hi j hj hequal
  have hi : i < 4 := List.mem_range.mp hi
  have hj : j < 4 := List.mem_range.mp hj
  have hmod := lbas_injective (Nat.mod_lt _ (by decide)) (Nat.mod_lt _ (by decide)) hequal
  omega

theorem Ordered.issued {ordinals : List Nat} (hordered : Ordered start target first ordinals traced)
    (hordinals : ordinals.Sublist [0, 1, 2, 3]) : Issued start target traced := by
  obtain ⟨issued, hsublist, hwrites⟩ := hordered.passes
  have hall := hsublist.trans hordinals
  refine ⟨?_, ?_, ?_, hordered.frame⟩
  · rw [hwrites, List.length_map]
    exact hall.length_le
  · rw [hwrites]
    exact (nodup_requests target first).sublist ((hall.map _).map _)
  · intro write hwrite
    rw [hwrites] at hwrite
    obtain ⟨ordinal, -, rfl⟩ := List.mem_map.mp hwrite
    exact ⟨_, Nat.mod_lt _ (by decide), rfl⟩

theorem Ordered.initial (first : Nat) : Ordered start target first [] ⟨start, []⟩ where
  passes := ⟨[], .slnil, rfl⟩
  frame _ _ := rfl

theorem Ordered.skip {ordinals : List Nat} (ordinal : Nat)
    (hordered : Ordered start target first ordinals traced) :
    Ordered start target first (ordinals ++ [ordinal]) traced where
  passes := by
    obtain ⟨issued, hsublist, hwrites⟩ := hordered.passes
    exact ⟨issued, hsublist.trans (List.sublist_append_left _ _), hwrites⟩
  frame := hordered.frame

theorem Ordered.write {ordinals : List Nat} {ordinal : Nat}
    (hordered : Ordered start target first ordinals traced)
    (hwritten : Traced.Writes (request target first ordinal).1 (request target first ordinal).2
      traced now) : Ordered start target first (ordinals ++ [ordinal]) now where
  passes := by
    obtain ⟨issued, hsublist, hwrites⟩ := hordered.passes
    refine ⟨issued ++ [ordinal], hsublist.append_right [ordinal], ?_⟩
    rw [hwritten.1, hwrites, List.map_append]
    rfl
  frame := by
    intro a ha
    rw [hwritten.1] at ha
    rw [hwritten.2 a (ha _ (List.mem_append_right _ (List.mem_singleton_self _)))]
    exact hordered.frame a fun write hwrite => ha write (List.mem_append_left _ hwrite)

end Ordinals

theorem copies_eq (data original proposed : Image) (r : Result) :
    ∃ primary backup final, copies data original proposed r =
      { r with primaryKind := primary, backupKind := backup, finalKind := final } :=
  ⟨_, _, _, rfl⟩

structure Counted (r : Result) (traced : Traced) : Prop where
  attempted : r.writesAttempted = traced.writes.length
  completed : r.writesCompleted ≤ r.writesAttempted
  pending : r.writesAttempted ≤ r.writesCompleted + 1

theorem Counted.copies {r : Result} {traced : Traced} (hcounted : Counted r traced)
    (data original proposed : Image) : Counted (copies data original proposed r) traced := by
  obtain ⟨primary, backup, final, hcopies⟩ := copies_eq data original proposed r
  rw [hcopies]
  exact ⟨hcounted.attempted, hcounted.completed, hcounted.pending⟩

structure Finished (target : Image) (outcome : Error × Result) (traced : Traced) : Prop where
  counted : Counted outcome.2 traced
  reached : outcome.1 = .ok → image traced.media = target ∧
    outcome.2.skipped + outcome.2.writesCompleted = 4
  begun : outcome.1 ≠ .badMode ∧ outcome.1 ≠ .outside ∧ outcome.1 ≠ .notOriginal

section Loop

variable {original proposed target : Image} {start : Media} {first : Nat} {traced : Traced}
  {A : Type} {inv : Traced → Prop} {post : A → Traced → Prop}

theorem Finished.begun_ok : Error.ok ≠ .badMode ∧ Error.ok ≠ .outside ∧ Error.ok ≠ .notOriginal := by
  decide

theorem Finished.stopped {error : Error} {r : Result} (hcounted : Counted r traced)
    (hok : error ≠ .ok) (hbegun : error ≠ .badMode ∧ error ≠ .outside ∧ error ≠ .notOriginal) :
    Finished target (error, r) traced :=
  ⟨hcounted, fun h => absurd h hok, hbegun⟩

theorem holds_anyEvent {event : Event} {ordinal lba : Nat} {rest : Io A}
    (hrest : Holds anyDevice inv rest post traced) :
    Holds anyDevice inv (call (.event event ordinal lba) >>= fun _ => rest) post traced := by
  refine holds_perform hrest.start ?_ ?_
  · rintro now rfl
    exact hrest.start
  · rintro - now rfl
    exact hrest

theorem holds_anyRead {next : Option Image → Io A} (hinv : inv traced)
    (hnone : Holds anyDevice inv (next none) post traced)
    (hsome : Holds anyDevice inv (next (some (image traced.media))) post traced) :
    Holds anyDevice inv (call .read >>= next) post traced := by
  refine holds_perform hinv ?_ ?_
  · rintro now rfl
    exact hinv
  · rintro answer now ⟨rfl, rfl | rfl⟩
    · exact hnone
    · exact hsome

theorem holds_anyFinish {r : Result} (hissued : Issued start target traced)
    (hcounted : Counted r traced) (hpasses : r.skipped + r.writesCompleted = 4) :
    Holds anyDevice (Issued start target) (finish original proposed target r)
      (Finished target) traced := by
  refine holds_anyRead hissued ?_ ?_
  · exact holds_pure hissued (.stopped hcounted (by decide) (by decide))
  · by_cases hsame : same (image traced.media) target 0 imageBytes
    · simp only [if_pos hsame]
      refine holds_pure hissued ⟨hcounted.copies _ _ _, fun _ => ⟨same_all_iff.mp hsame, ?_⟩,
        Finished.begun_ok⟩
      obtain ⟨primary, backup, final, hcopies⟩ :=
        copies_eq (image traced.media) original proposed r
      rw [hcopies]
      exact hpasses
    · simp only [if_neg hsame]
      exact holds_pure hissued (.stopped hcounted (by decide) (by decide))

theorem holds_anyWriteBlocks (rest : List Nat) :
    ∀ (ordinals : List Nat) (expected : Image) (r : Result) (traced : Traced),
      ordinals ++ rest = [0, 1, 2, 3] → Ordered start target first ordinals traced →
      r.writesAttempted = traced.writes.length → r.writesCompleted = r.writesAttempted →
      r.skipped + r.writesCompleted = ordinals.length →
      Holds anyDevice (Issued start target)
        (writeBlocks original proposed target first rest expected r) (Finished target) traced := by
  induction rest with
  | nil =>
    intro ordinals expected r traced hall hordered hattempted hcompleted hpasses
    rw [List.append_nil] at hall
    subst hall
    exact holds_anyFinish (hordered.issued (List.Sublist.refl _))
      ⟨hattempted, hcompleted.le, by omega⟩ hpasses
  | cons ordinal rest ih =>
    intro ordinals expected r traced hall hordered hattempted hcompleted hpasses
    have hnext : (ordinals ++ [ordinal]) ++ rest = [0, 1, 2, 3] := by
      rw [List.append_assoc]
      exact hall
    have hsublist : (ordinals ++ [ordinal]).Sublist [0, 1, 2, 3] := by
      rw [← hnext]
      exact List.sublist_append_left _ _
    have hissued := (hordered.skip ordinal).issued hsublist
    rw [writeBlocks]
    refine holds_ite (fun _ => ?_) fun _ => ?_
    · refine holds_anyEvent (ih _ _ _ _ hnext (hordered.skip ordinal) hattempted hcompleted ?_)
      rw [List.length_append]
      change r.skipped + 1 + r.writesCompleted = ordinals.length + 1
      omega
    · refine holds_anyEvent (holds_perform hissued (fun now hwritten => ?_)
        fun written now hwritten => ?_)
      · exact (hordered.write hwritten).issued hsublist
      have hwrote := hordered.write hwritten
      have hnow := hwrote.issued hsublist
      have hlength : r.writesAttempted + 1 = now.writes.length := by
        rw [hwritten.1, List.length_append, hattempted]
        rfl
      have hcounted : Counted { r with writesAttempted := r.writesAttempted + 1 } now :=
        ⟨hlength, by simp only; omega, by simp only; omega⟩
      refine holds_ite (fun _ => ?_) fun _ => ?_
      · exact holds_pure hnow (.stopped hcounted (by decide) (by decide))
      refine holds_perform hnow (fun _ hsame => hsame ▸ hnow) fun synced later hlater => ?_
      obtain rfl : later = now := hlater
      refine holds_ite (fun _ => ?_) fun _ => ?_
      · exact holds_pure hnow (.stopped hcounted (by decide) (by decide))
      refine holds_anyRead hnow ?_ ?_
      · exact holds_pure hnow (.stopped hcounted (by decide) (by decide))
      refine holds_ite (fun _ => ?_) fun _ => ?_
      · exact holds_pure hnow (.stopped hcounted (by decide) (by decide))
      refine holds_ite (fun _ => ?_) fun _ => ?_
      · exact holds_pure hnow (.stopped (hcounted.copies _ _ _) (by decide) (by decide))
      refine holds_anyEvent (ih _ _ _ _ hnext hwrote hlength (by simp [copies, hcompleted]) ?_)
      rw [List.length_append]
      change r.skipped + (r.writesCompleted + 1) = ordinals.length + 1
      omega

theorem holds_unchanged (rest : List Nat) (r : Result) (traced : Traced) :
    Holds anyDevice (· = traced)
      (writeBlocks original proposed target first rest target r) (fun _ _ => True) traced := by
  induction rest generalizing r with
  | nil =>
    refine holds_anyRead rfl (holds_pure rfl trivial) ?_
    exact holds_ite (fun _ => holds_pure rfl trivial) fun _ => holds_pure rfl trivial
  | cons ordinal rest ih =>
    rw [writeBlocks]
    exact holds_ite (fun _ => holds_anyEvent (ih _)) fun hdiffers =>
      absurd (Set.eqOn_refl _ _) hdiffers

end Loop

structure Outcome (mode : Mode) (original proposed : Image) (start : Media)
    (outcome : Error × Result) (traced : Traced) : Prop where
  applied : mode = .apply → outcome.1 = .ok → image traced.media = proposed
  restored : mode = .restore → outcome.1 = .ok → image traced.media = original
  refused : outcome.1 = .badMode ∨ outcome.1 = .outside ∨ outcome.1 = .notOriginal →
    traced = ⟨start, []⟩
  early : outcome.1 = .read ∨ outcome.1 = .noCopy → outcome.2.writesAttempted = 0 →
    traced = ⟨start, []⟩
  counted : Counted outcome.2 traced
  passes : mode = .apply ∨ mode = .restore → outcome.1 = .ok →
    outcome.2.skipped + outcome.2.writesCompleted = 4

section Runs

variable {original proposed : Image} {start : Media}

theorem Finished.outcome {mode : Mode} {outcome : Error × Result} {traced : Traced}
    (hissued : Issued start (mode.target original proposed) traced)
    (hfinished : Finished (mode.target original proposed) outcome traced) :
    Outcome mode original proposed start outcome traced where
  applied hmode hok := by
    rw [(hfinished.reached hok).1, Mode.target, if_pos hmode]
  restored hmode hok := by
    rw [(hfinished.reached hok).1, Mode.target, if_neg (by rw [hmode]; decide)]
  refused hrefused := by
    obtain ⟨hmode, houtside, horiginal⟩ := hfinished.begun
    rcases hrefused with h | h | h
    · exact absurd h hmode
    · exact absurd h houtside
    · exact absurd h horiginal
  early _ hnone := by
    rw [hfinished.counted.attempted] at hnone
    have hwrites := List.eq_nil_of_length_eq_zero hnone
    have hmedia := hissued.eq_start hwrites
    obtain ⟨media, writes⟩ := traced
    subst hmedia
    subst hwrites
    rfl
  counted := hfinished.counted
  passes _ hok := (hfinished.reached hok).2

theorem outcome_unwritten {mode : Mode} {error : Error} {r : Result}
    (hcounters : r.writesAttempted = 0 ∧ r.writesCompleted = 0)
    (hok : error = .ok → mode = .observe) :
    Outcome mode original proposed start (error, r) ⟨start, []⟩ where
  applied hmode h := by rw [hok h] at hmode; cases hmode
  restored hmode h := by rw [hok h] at hmode; cases hmode
  refused _ := rfl
  early _ _ := rfl
  counted := ⟨hcounters.1, by simp [hcounters], by simp [hcounters]⟩
  passes hmode h := by rw [hok h] at hmode; rcases hmode with h | h <;> cases h

theorem holds_anyExecute (mode : Mode) (original proposed : Image) (start : Media) : Holds anyDevice
      (fun traced => Issued start (mode.target original proposed) traced ∧
        (mode = .observe → traced.writes = []))
      (execute mode original proposed)
      (fun outcome traced => Outcome mode original proposed start outcome traced)
      ⟨start, []⟩ := by
  have hinv : Issued start (mode.target original proposed) ⟨start, []⟩ ∧
      (mode = .observe → ([] : List (Nat × (Nat → UInt8))) = []) :=
    ⟨.start _ _, fun _ => rfl⟩
  refine holds_ite (fun _ => ?_) fun _ => ?_
  · exact holds_pure hinv (outcome_unwritten ⟨rfl, rfl⟩ nofun)
  refine holds_anyRead hinv (holds_pure hinv (outcome_unwritten ⟨rfl, rfl⟩ nofun)) ?_
  refine holds_ite (fun _ => ?_) fun _ => ?_
  · exact holds_pure hinv (outcome_unwritten ⟨rfl, rfl⟩ nofun)
  refine holds_ite (fun _ => ?_) fun _ => ?_
  · exact holds_pure hinv (outcome_unwritten ⟨rfl, rfl⟩ nofun)
  refine holds_ite (fun hobserve => ?_) fun hobserve => ?_
  · exact holds_pure hinv (outcome_unwritten ⟨rfl, rfl⟩ fun _ => hobserve)
  refine holds_ite (fun _ => ?_) fun _ => ?_
  · exact holds_pure hinv (outcome_unwritten ⟨rfl, rfl⟩ nofun)
  exact (holds_anyWriteBlocks [0, 1, 2, 3] [] _ _ _ rfl (.initial _) rfl rfl rfl).with_inv.weaken
    (fun _ hissued => ⟨hissued, fun h => absurd h hobserve⟩) fun _ _ h => h.2.outcome h.1

theorem holds_restored {start : Media} (hstart : image start = original) :
    Holds anyDevice (· = ⟨start, []⟩) (execute .restore original proposed) (fun _ _ => True)
      ⟨start, []⟩ := by
  refine holds_ite (fun _ => holds_pure rfl trivial) fun _ => ?_
  refine holds_anyRead rfl (holds_pure rfl trivial) ?_
  refine holds_ite (fun _ => holds_pure rfl trivial) fun _ => ?_
  refine holds_ite (fun _ => holds_pure rfl trivial) fun _ => ?_
  refine holds_ite (fun _ => holds_pure rfl trivial) fun _ => ?_
  refine holds_ite (fun _ => holds_pure rfl trivial) fun _ => ?_
  rw [show image (Traced.media ⟨start, []⟩) = original from hstart]
  exact holds_unchanged _ _ _

theorem run_writes_and_postconditions (mode : Mode) (original proposed : Image) (start : Media) :
    (∀ traced, Visits anyDevice (execute mode original proposed) ⟨start, []⟩ traced →
      Issued start (mode.target original proposed) traced ∧
        (mode = .observe → traced.writes = [])) ∧
    (∀ outcome traced, Returns anyDevice (execute mode original proposed) ⟨start, []⟩ outcome
      traced → Outcome mode original proposed start outcome traced) ∧
    ∀ r traced, Returns anyDevice (execute .restore original proposed) ⟨start, []⟩ (.ok, r)
      traced → ∀ later, Visits anyDevice (execute .restore original proposed)
        ⟨traced.media, []⟩ later → later = ⟨traced.media, []⟩ := by
  refine ⟨?_, ?_, ?_⟩
  · exact fun traced hvisits => (holds_anyExecute mode original proposed start).visits hvisits
  · exact fun outcome traced hreturns =>
      ((holds_anyExecute mode original proposed start).returns hreturns).2
  · intro r traced hreturns later hvisits
    have houtcome := ((holds_anyExecute .restore original proposed start).returns hreturns).2
    exact (holds_restored (houtcome.restored rfl rfl)).visits hvisits

end Runs

theorem returns_anyRead {A : Type} {next : Option Image → Io A} {traced later : Traced} {result : A}
    (hnext : Returns anyDevice (next (some (image traced.media))) traced result later) :
    Returns anyDevice (call .read >>= next) traced result later :=
  .call ⟨rfl, .inr rfl⟩ hnext

/-- An observation passes no block and skips none. -/
theorem observation_counts_nothing :
    ∃ r traced, Returns anyDevice (execute .observe Sample.original Sample.proposed)
      ⟨Sample.start, []⟩ (.ok, r) traced ∧ r.skipped + r.writesCompleted ≠ 4 := by
  have hkept : Kept Sample.original Sample.proposed Sample.start Sample.start := kept_start rfl
  have hscope := hkept.scope Sample.agreeOutside
  have hcopies := hkept.copy.copies {}
  refine ⟨copies (image Sample.start) Sample.original Sample.proposed {}, ⟨Sample.start, []⟩,
    ?_, ?_⟩
  · rw [execute, if_neg (by decide)]
    refine returns_anyRead ?_
    simp only [if_neg (not_not_intro hscope), if_neg hcopies, if_true]
    exact .done _ _
  · obtain ⟨primary, backup, final, hequal⟩ :=
      copies_eq (image Sample.start) Sample.original Sample.proposed {}
    rw [hequal]
    exact (by decide : 0 + 0 ≠ 4)

end NativeInitLab.Gpt
