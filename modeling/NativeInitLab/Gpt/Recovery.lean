import NativeInitLab.Gpt.Device

namespace NativeInitLab.Gpt

open CrashProgram TornWrite

/-! One copy of the table survives every history of interrupted rewrites, and a
working restore brings the original back. -/

def primaryRegion : Set (Fin imageBytes) := span 0 primaryBytes
def backupRegion : Set (Fin imageBytes) := span primaryBytes backupBytes

def opposite (i : Nat) : Set (Fin imageBytes) :=
  if i < 2 then primaryRegion else backupRegion

def AgreeOutside (original proposed : Image) : Prop :=
  ∀ i, (∀ b < 4, i ∉ span (offsets b) blockBytes) → original i = proposed i

def Survives (original proposed data : Image) : Prop :=
  Intact original proposed primaryRegion data ∨ Intact original proposed backupRegion data

section Copies

variable (data original proposed : Image) (r : Result)

@[simp] theorem copies_primaryKind : (copies data original proposed r).primaryKind =
    kind data original proposed 0 primaryBytes := rfl

@[simp] theorem copies_backupKind : (copies data original proposed r).backupKind =
    kind data original proposed primaryBytes backupBytes := rfl

@[simp] theorem copies_finalKind : (copies data original proposed r).finalKind =
    kind data original proposed 0 imageBytes := rfl

end Copies

theorem kind_ne_zero_iff {data original proposed : Image} {off size : Nat} :
    kind data original proposed off size ≠ 0 ↔ Intact original proposed (span off size) data := by
  rw [kind, Intact, ← same, ← same]
  by_cases horiginal : same data original off size
  · simp [horiginal]
  · by_cases hproposed : same data proposed off size <;> simp [horiginal, hproposed]

theorem same_all_iff {data other : Image} : same data other 0 imageBytes ↔ data = other := by
  constructor
  · intro hsame
    funext i
    exact hsame ⟨Nat.zero_le _, by simp⟩
  · rintro rfl
    exact Set.eqOn_refl _ _

theorem disjoint_opposite {i : Nat} (hi : i < 4) :
    ∀ x ∈ span (offsets i) blockBytes, x ∉ opposite i := by
  intro x hblock hregion
  have hcases : i = 0 ∨ i = 1 ∨ i = 2 ∨ i = 3 := by omega
  rcases hcases with rfl | rfl | rfl | rfl <;>
    simp [span, offsets, opposite, primaryRegion, backupRegion, blockBytes,
      primaryBytes] at hblock hregion <;>
    omega

theorem side_of_mem_opposite {i b : Nat} (hi : i < 4) (hb : b < 4)
    {x : Fin imageBytes} (hregion : x ∈ opposite i)
    (hblock : x ∈ span (offsets b) blockBytes) : b < 2 ↔ 2 ≤ i := by
  by_contra hside
  have hsame : opposite b = opposite i := by
    have : b < 2 ↔ i < 2 := by omega
    simp [opposite, this]
  rw [← hsame] at hregion
  exact disjoint_opposite hb x hblock hregion

theorem torn_patch (expected target : Image) (off : Nat) :
    Torn (span off blockBytes) target expected (patch expected target off) := by
  intro i
  by_cases hi : off ≤ i.val ∧ i.val < off + blockBytes
  · exact .inr ⟨hi, if_pos hi⟩
  · exact .inl (if_neg hi)

/-! The loop: after `k` ordinals the first `k` blocks hold the target, and until
the first side is finished the other side is untouched. -/

structure Progress (original proposed target : Image) (first k : Nat) (e : Image) : Prop where
  mixed : Mixed original proposed e
  done : ∀ j < k, same e target (offsets ((first + j) % 4)) blockBytes
  guarded : k < 2 → Intact original proposed (opposite first) e

section Progress

variable {original proposed target e : Image} {first k : Nat}

theorem Progress.skip (hprogress : Progress original proposed target first k e)
    (hsame : same e target (offsets ((first + k) % 4)) blockBytes) :
    Progress original proposed target first (k + 1) e where
  mixed := hprogress.mixed
  done := by
    intro j hj
    rcases Nat.lt_succ_iff_lt_or_eq.mp hj with hlt | rfl
    · exact hprogress.done j hlt
    · exact hsame
  guarded := fun hk => hprogress.guarded (by omega)

theorem Progress.patch (hprogress : Progress original proposed target first k e)
    (htarget : Mixed original proposed target) (hfirst : first = 0 ∨ first = 2) :
    Progress original proposed target first (k + 1)
      (patch e target (offsets ((first + k) % 4))) where
  mixed := (torn_patch _ _ _).mixed hprogress.mixed htarget
  done := by
    intro j hj x hx
    by_cases hwritten : x ∈ span (offsets ((first + k) % 4)) blockBytes
    · exact if_pos hwritten
    · rcases Nat.lt_succ_iff_lt_or_eq.mp hj with hlt | rfl
      · exact (if_neg hwritten).trans (hprogress.done j hlt hx)
      · exact absurd hx hwritten
  guarded := by
    intro hk
    have hzero : k = 0 := by omega
    subst k
    have hplace : (first + 0) % 4 = first := by omega
    rw [hplace]
    exact (torn_patch _ _ _).intact (disjoint_opposite (by omega)) (hprogress.guarded (by omega))

theorem eqOn_opposite {i : Nat} (hagree : AgreeOutside original proposed)
    (htarget : Mixed original proposed target) (hmixed : Mixed original proposed e)
    (hi : i < 4)
    (hblocks : ∀ b < 4, (b < 2 ↔ 2 ≤ i) → same e target (offsets b) blockBytes) :
    Set.EqOn e target (opposite i) := by
  intro x hx
  by_cases hmutable : ∃ b < 4, x ∈ span (offsets b) blockBytes
  · obtain ⟨b, hb, hblock⟩ := hmutable
    exact hblocks b hb (side_of_mem_opposite hi hb hx hblock) hblock
  · have hequal := hagree x fun b hb hblock => hmutable ⟨b, hb, hblock⟩
    rw [hmixed.eq_of_agree hequal, htarget.eq_of_agree hequal]

theorem Progress.intact (hprogress : Progress original proposed target first k e)
    (hagree : AgreeOutside original proposed)
    (htarget : target = original ∨ target = proposed)
    (hfirst : first = 0 ∨ first = 2) (hk : k < 4) :
    Intact original proposed (opposite ((first + k) % 4)) e := by
  by_cases hearly : k < 2
  · have hside : opposite ((first + k) % 4) = opposite first := by
      have : (first + k) % 4 < 2 ↔ first < 2 := by omega
      simp [opposite, this]
    rw [hside]
    exact hprogress.guarded hearly
  · have hmixed : Mixed original proposed target := by
      rcases htarget with rfl | rfl
      · exact mixed_left
      · exact mixed_right
    have hequal : Set.EqOn e target (opposite ((first + k) % 4)) := by
      apply eqOn_opposite hagree hmixed hprogress.mixed (by omega)
      intro b hb hside
      have hplace : (first + (b + 4 - first) % 4) % 4 = b := by omega
      have hdone := hprogress.done ((b + 4 - first) % 4) (by omega)
      rwa [hplace] at hdone
    rcases htarget with rfl | rfl
    · exact .inl hequal
    · exact .inr hequal

theorem Progress.eq_target (hprogress : Progress original proposed target first 4 e)
    (hagree : AgreeOutside original proposed)
    (htarget : Mixed original proposed target) (hfirst : first = 0 ∨ first = 2) :
    e = target := by
  funext x
  by_cases hmutable : ∃ b < 4, x ∈ span (offsets b) blockBytes
  · obtain ⟨b, hb, hblock⟩ := hmutable
    have hplace : (first + (b + 4 - first) % 4) % 4 = b := by omega
    have hdone := hprogress.done ((b + 4 - first) % 4) (by omega)
    rw [hplace] at hdone
    exact hdone hblock
  · have hequal := hagree x fun b hb hblock => hmutable ⟨b, hb, hblock⟩
    rw [hprogress.mixed.eq_of_agree hequal, htarget.eq_of_agree hequal]

end Progress

/-! The invariant of every instant, relative to the media the history began with. -/

structure Kept (original proposed : Image) (start media : Media) : Prop where
  outside : ∀ a, (∀ j, address j ≠ a) → media a = start a
  mixed : Mixed original proposed (image media)
  copy : Survives original proposed (image media)

section Kept

variable {original proposed target : Image} {start media now : Media} {first k : Nat}

theorem kept_start (hstart : image start = original) : Kept original proposed start start where
  outside := fun _ _ => rfl
  mixed := by
    rw [hstart]
    exact mixed_left
  copy := by
    rw [hstart]
    exact .inl (.inl (Set.eqOn_refl _ _))

theorem Survives.of_opposite {data : Image} {i : Nat}
    (hintact : Intact original proposed (opposite i) data) :
    Survives original proposed data := by
  by_cases hi : i < 2
  · rw [opposite, if_pos hi] at hintact
    exact .inl hintact
  · rw [opposite, if_neg hi] at hintact
    exact .inr hintact

theorem Kept.torn {i : Nat} (hkept : Kept original proposed start media) (hi : i < 4)
    (htarget : Mixed original proposed target)
    (hintact : Intact original proposed (opposite i) (image media))
    (htorn : Torn (sector (lbas i)) (sectorData (lbas i) (blockAt target (offsets i))) media now) :
    Kept original proposed start now where
  outside := by
    intro a hcaptured
    rcases htorn a with hold | ⟨hsector, -⟩
    · exact hold.trans (hkept.outside a hcaptured)
    · exact absurd hsector (not_mem_sector_of_not_captured hi hcaptured)
  mixed := (torn_image hi htorn).mixed hkept.mixed htarget
  copy := .of_opposite ((torn_image hi htorn).intact (disjoint_opposite hi) hintact)

theorem Kept.scope (hkept : Kept original proposed start media)
    (hagree : AgreeOutside original proposed) :
    scope (image media) original proposed := by
  refine ⟨?_, fun i hequal => hkept.mixed.eq_of_agree hequal⟩
  intro n hn hfixed x hx
  apply hkept.mixed.eq_of_agree
  apply hagree
  intro b hb hblock
  apply hfixed b hb
  have hcases : b = 0 ∨ b = 1 ∨ b = 2 ∨ b = 3 := by omega
  simp only [span, Set.mem_ofPred_eq, blockBytes] at hx hblock
  rcases hcases with rfl | rfl | rfl | rfl <;>
    simp only [offsets, blockBytes, primaryBytes] at hblock ⊢ <;> omega

theorem Survives.copies {data : Image} (hsurvives : Survives original proposed data) (r : Result) :
    ¬ ((copies data original proposed r).primaryKind = 0 ∧
      (copies data original proposed r).backupKind = 0) := by
  rw [copies_primaryKind, copies_backupKind]
  rintro ⟨hprimary, hbackup⟩
  rcases hsurvives with hintact | hintact
  · rw [primaryRegion, ← kind_ne_zero_iff] at hintact
    exact hintact hprimary
  · rw [backupRegion, ← kind_ne_zero_iff] at hintact
    exact hintact hbackup

theorem Kept.eq_start (hkept : Kept original proposed start media)
    (himage : image media = image start) : media = start := by
  funext a
  by_cases hcaptured : ∃ j, address j = a
  · obtain ⟨j, rfl⟩ := hcaptured
    exact congrFun himage j
  · exact hkept.outside a fun j hj => hcaptured ⟨j, hj⟩

end Kept

def Mode.target (mode : Mode) (original proposed : Image) : Image :=
  if mode = .apply then proposed else original

section Runs

variable {original proposed target : Image} {start media : Media} {first : Nat} {faulty : Prop}

def Reaches (faulty : Prop) (target : Image) (outcome : Error × Result) (media : Media) : Prop :=
  ¬ faulty → outcome.1 = .ok ∧ image media = target

theorem holds_event {A : Type} {event : Event} {ordinal lba : Nat} {rest : Io A}
    {post : A → Media → Prop}
    (hrest : Holds (device faulty) (Kept original proposed start) rest post media) :
    Holds (device faulty) (Kept original proposed start)
      (call (.event event ordinal lba) >>= fun _ => rest) post media := by
  refine holds_perform hrest.start ?_ ?_
  · rintro now rfl
    exact hrest.start
  · rintro - now rfl
    exact hrest

section

variable (hkept : Kept original proposed start media)
include hkept

theorem holds_read {A : Type} {next : Option Image → Io A} {post : A → Media → Prop}
    (hsome : Holds (device faulty) (Kept original proposed start)
      (next (some (image media))) post media)
    (hnone : faulty → Holds (device faulty) (Kept original proposed start) (next none) post media) :
    Holds (device faulty) (Kept original proposed start) (call .read >>= next) post media := by
  refine holds_perform hkept ?_ ?_
  · rintro now rfl
    exact hkept
  · rintro answer now ⟨rfl, rfl | ⟨hfaulty, rfl⟩⟩
    · exact hsome
    · exact hnone hfaulty

theorem holds_sync {next : Bool → Io (Error × Result)}
    (hnext : ∀ synced, (¬ faulty → synced = true) →
      Holds (device faulty) (Kept original proposed start) (next synced)
        (Reaches faulty target) media) :
    Holds (device faulty) (Kept original proposed start)
      (call .sync >>= next) (Reaches faulty target) media := by
  refine holds_perform hkept ?_ ?_
  · rintro now rfl
    exact hkept
  · rintro synced now ⟨rfl, hsynced⟩
    exact hnext synced fun hworks => hsynced.resolve_right hworks

theorem holds_write {i : Nat} {next : Bool → Io (Error × Result)} (hi : i < 4)
    (htarget : Mixed original proposed target)
    (hintact : Intact original proposed (opposite i) (image media))
    (hnext : ∀ written now, Kept original proposed start now → (¬ faulty → written = true ∧
        image now = patch (image media) target (offsets i)) →
      Holds (device faulty) (Kept original proposed start) (next written)
        (Reaches faulty target) now) :
    Holds (device faulty) (Kept original proposed start)
      (call (.write (lbas i) (blockAt target (offsets i))) >>= next)
      (Reaches faulty target) media := by
  refine holds_perform hkept ?_ ?_
  · intro now hnow
    simp only [device, mutableLba_lbas hi] at hnow
    exact hkept.torn hi htarget hintact hnow
  · intro written now hafter
    simp only [device, mutableLba_lbas hi] at hafter
    rcases hafter with ⟨hwritten, rfl⟩ | ⟨hfaulty, htorn⟩
    · exact hnext written _ (hkept.torn hi htarget hintact (torn_writeSector _ _ _))
        fun _ => ⟨hwritten, image_writeSector hi target media⟩
    · exact hnext written now (hkept.torn hi htarget hintact htorn)
        fun hworks => absurd hfaulty hworks

theorem holds_error {outcome : Error × Result} (hfaulty : ¬ ¬ faulty) :
    Holds (device faulty) (Kept original proposed start)
      (pure outcome : Io (Error × Result)) (Reaches faulty target) media :=
  holds_pure hkept fun hworks => absurd hworks hfaulty

theorem holds_finish (r : Result) (himage : image media = target) :
    Holds (device faulty) (Kept original proposed start)
      (finish original proposed target r) (Reaches faulty target) media := by
  apply holds_read hkept
  · simp only [same_all_iff, himage]
    exact holds_pure hkept fun _ => ⟨rfl, himage⟩
  · exact fun hfaulty => holds_error hkept (not_not_intro hfaulty)

end

theorem holds_writeBlocks (hagree : AgreeOutside original proposed)
    (htarget : target = original ∨ target = proposed)
    (hfirst : first = 0 ∨ first = 2) (count k : Nat) (hcount : k + count = 4)
    (r : Result) (hkept : Kept original proposed start media)
    (hprogress : Progress original proposed target first k (image media)) :
    Holds (device faulty) (Kept original proposed start)
      (writeBlocks original proposed target first (List.range' k count)
        (image media) r) (Reaches faulty target) media := by
  have hmixed : Mixed original proposed target := by
    rcases htarget with rfl | rfl
    · exact mixed_left
    · exact mixed_right
  induction count generalizing k r media with
  | zero =>
    obtain rfl : k = 4 := by omega
    exact holds_finish hkept r (hprogress.eq_target hagree hmixed hfirst)
  | succ count ih =>
    have hi : (first + k) % 4 < 4 := Nat.mod_lt _ (by decide)
    have hintact := hprogress.intact hagree htarget hfirst (by omega)
    rw [List.range'_succ, writeBlocks]
    refine holds_ite ?_ ?_
    · intro hsame
      exact holds_event (ih (k + 1) (by omega) _ hkept (hprogress.skip hsame))
    · intro _
      refine holds_event ?_
      refine holds_write hkept hi hmixed hintact ?_
      intro written now hnow hworks
      refine holds_ite ?_ ?_
      · intro hwritten
        exact holds_error hnow fun hnot => by simp [(hworks hnot).1] at hwritten
      · intro _
        refine holds_sync hnow ?_
        intro synced hsynced
        refine holds_ite ?_ ?_
        · intro hfailed
          exact holds_error hnow fun hnot => by simp [hsynced hnot] at hfailed
        · intro _
          refine holds_read hnow ?_ fun hfaulty =>
            holds_error hnow (not_not_intro hfaulty)
          refine holds_ite ?_ ?_
          · intro hdiffers
            exact holds_error hnow fun hnot =>
              hdiffers (same_all_iff.mpr (hworks hnot).2)
          · intro hread
            have himage := same_all_iff.mp (not_not.mp hread)
            refine holds_ite (fun hnone => absurd hnone (hnow.copy.copies _)) ?_
            intro _
            refine holds_event ?_
            have hpatched := hprogress.patch hmixed hfirst
            rw [← himage] at hpatched ⊢
            exact ih (k + 1) (by omega) _ hnow hpatched

theorem Kept.progress_zero (hkept : Kept original proposed start media) :
    Progress original proposed target
      (if kind (image media) original proposed 0 primaryBytes ≠ 0 then 0 else 2) 0
      (image media) where
  mixed := hkept.mixed
  done := fun j hj => absurd hj (Nat.not_lt_zero j)
  guarded := by
    intro _
    split
    case isTrue hprimary => exact kind_ne_zero_iff.mp hprimary
    case isFalse hprimary => exact hkept.copy.resolve_left (mt kind_ne_zero_iff.mpr hprimary)

theorem holds_execute {mode : Mode} (hagree : AgreeOutside original proposed)
    (hmode : mode = .apply ∨ mode = .restore)
    (hkept : Kept original proposed start media) :
    Holds (device faulty) (Kept original proposed start) (execute mode original proposed)
      (fun outcome now => (mode = .apply → image media = original) →
        Reaches faulty (mode.target original proposed) outcome now)
      media := by
  have hmodes : mode ≠ .unknown ∧ mode ≠ .observe := by
    rcases hmode with rfl | rfl <;> simp
  have htarget : mode.target original proposed = original ∨
      mode.target original proposed = proposed := by
    rw [Mode.target]
    split <;> simp
  rw [execute, if_neg hmodes.1]
  refine holds_read hkept ?_ fun hfaulty =>
    holds_pure hkept fun _ hworks => absurd hfaulty hworks
  refine holds_ite (fun houtside => absurd (hkept.scope hagree) houtside) fun _ => ?_
  refine holds_ite (fun hnone => absurd hnone (hkept.copy.copies _)) fun _ => ?_
  refine holds_ite (fun hobserve => absurd hobserve hmodes.2) fun _ => ?_
  refine holds_ite ?_ fun _ => ?_
  · rintro ⟨happly, hkind⟩
    refine holds_pure hkept fun horiginal => absurd ?_ hkind
    have hsame := same_all_iff.mpr (horiginal happly)
    rw [copies_finalKind, kind, if_pos hsame]
  · rw [copies_primaryKind]
    refine (holds_writeBlocks hagree htarget ?_ 4 0 rfl _ hkept
      hkept.progress_zero).mono fun _ _ hreaches _ => hreaches
    split <;> simp

end Runs

section Histories

variable {original proposed : Image} {start media : Media}

def Rewrite (original proposed : Image) (program : Io (Error × Result)) : Prop :=
  ∃ mode, (mode = .apply ∨ mode = .restore) ∧ program = execute mode original proposed

/-- Every state in which any number of interrupted runs leave the media. -/
abbrev Interrupted (original proposed : Image) : Media → Media → Prop :=
  Restarts (device True) (Rewrite original proposed)

theorem Interrupted.kept (hagree : AgreeOutside original proposed) (hstart : image start = original)
    (hhistory : Interrupted original proposed start media) :
    Kept original proposed start media := by
  refine hhistory.invariant ?_ (kept_start hstart)
  rintro program s ⟨mode, hmode, rfl⟩ hkept
  exact (holds_execute hagree hmode hkept).mono fun _ _ _ => trivial

theorem run_reaches {mode : Mode} (hagree : AgreeOutside original proposed)
    (hmode : mode = .apply ∨ mode = .restore)
    (hkept : Kept original proposed start media)
    (hready : mode = .apply → image media = original) :
    ∃ r final, (execute mode original proposed).run working media = ((.ok, r), final) ∧
      Kept original proposed start final ∧
      image final = mode.target original proposed := by
  have hholds : Holds (device False) (Kept original proposed start)
      (execute mode original proposed) _ media :=
    holds_execute hagree hmode hkept
  have hreturns := returns_run (device_working False)
    (execute mode original proposed) media
  generalize (execute mode original proposed).run working media = run at hreturns ⊢
  obtain ⟨⟨error, r⟩, final⟩ := run
  obtain ⟨hfinal, hreaches⟩ := hholds.returns hreturns
  obtain ⟨rfl, himage⟩ := hreaches hready not_false
  exact ⟨r, final, rfl, hfinal, himage⟩

theorem interrupted_apply (hagree : AgreeOutside original proposed)
    (hstart : image start = original) :
    ∃ media, Interrupted original proposed start media ∧ image media = proposed := by
  obtain ⟨r, final, hrun, -, himage⟩ :=
    run_reaches hagree (.inl rfl) (kept_start hstart) fun _ => hstart
  have hreturns := returns_run (device_working True)
    (execute .apply original proposed) start
  rw [hrun] at hreturns
  exact ⟨final, .run (.start start) ⟨.apply, .inl rfl, rfl⟩ hreturns.visits, himage⟩

theorem interrupted_keeps_copy (hagree : AgreeOutside original proposed)
    (hstart : image start = original)
    (hhistory : Interrupted original proposed start media) :
    (same (image media) original 0 primaryBytes ∨ same (image media) proposed 0 primaryBytes) ∨
      same (image media) original primaryBytes backupBytes ∨
        same (image media) proposed primaryBytes backupBytes :=
  (hhistory.kept hagree hstart).copy

theorem restore_recovers (hagree : AgreeOutside original proposed) (hstart : image start = original)
    (hhistory : Interrupted original proposed start media) :
    ∃ r, (execute .restore original proposed).run working media = ((.ok, r), start) := by
  obtain ⟨r, final, hrun, hkept, himage⟩ :=
    run_reaches hagree (.inr rfl) (hhistory.kept hagree hstart) (by simp)
  have hmedia : final = start := hkept.eq_start (himage.trans hstart.symm)
  exact ⟨r, by rw [hrun, hmedia]⟩

theorem holds_apply_refused (hagree : AgreeOutside original proposed)
    (hkept : Kept original proposed start media) (hother : image media ≠ original) :
    Holds (device False) (Kept original proposed start) (execute .apply original proposed)
      (fun outcome now => outcome.1 = .notOriginal ∧ now = media) media := by
  rw [execute, if_neg (by simp)]
  refine holds_read hkept ?_ fun hfaulty => hfaulty.elim
  refine holds_ite (fun houtside => absurd (hkept.scope hagree) houtside) fun _ => ?_
  refine holds_ite (fun hnone => absurd hnone (hkept.copy.copies _)) fun _ => ?_
  refine holds_ite (by simp) fun _ => ?_
  refine holds_ite (fun _ => holds_pure hkept ⟨rfl, rfl⟩) fun hready => absurd ?_ hready
  refine ⟨rfl, ?_⟩
  rw [copies_finalKind, kind, if_neg fun hsame => hother (same_all_iff.mp hsame)]
  split <;> decide

theorem apply_after_interruptions (hagree : AgreeOutside original proposed)
    (hstart : image start = original) (hhistory : Interrupted original proposed start media) :
    (image media = original → ∃ r final, (execute .apply original proposed).run working media =
      ((.ok, r), final) ∧ image final = proposed) ∧
    (image media ≠ original → ∃ r, (execute .apply original proposed).run working media =
      ((.notOriginal, r), media)) := by
  have hkept := hhistory.kept hagree hstart
  constructor
  · intro hready
    obtain ⟨r, final, hrun, -, himage⟩ := run_reaches hagree (.inl rfl) hkept fun _ => hready
    exact ⟨r, final, hrun, himage⟩
  · intro hother
    have hreturns := returns_run (device_working False) (execute .apply original proposed) media
    generalize (execute .apply original proposed).run working media = run at hreturns ⊢
    obtain ⟨⟨error, r⟩, final⟩ := run
    obtain ⟨-, rfl, rfl⟩ := (holds_apply_refused hagree hkept hother).returns hreturns
    exact ⟨r, rfl⟩

end Histories

/-! A proposal that changes the first byte of the primary header. -/

namespace Sample

def original : Image := fun _ => 0

def proposed : Image := fun i => if i.val = blockBytes then 1 else 0

def start : Media := fun _ => 0

theorem agreeOutside : AgreeOutside original proposed := by
  intro i houtside
  have hplace : i.val ≠ blockBytes := by
    intro hi
    apply houtside 3 (by decide)
    simp [span, offsets, hi]
  simp [original, proposed, hplace]

end Sample

theorem interrupted_keeps_copy_applied : ∃ media, image media = Sample.proposed ∧
      ((same (image media) Sample.original 0 primaryBytes ∨
          same (image media) Sample.proposed 0 primaryBytes) ∨
        same (image media) Sample.original primaryBytes backupBytes ∨
          same (image media) Sample.proposed primaryBytes backupBytes) := by
  have hstart : image Sample.start = Sample.original := rfl
  obtain ⟨media, hhistory, himage⟩ := interrupted_apply Sample.agreeOutside hstart
  exact ⟨media, himage, interrupted_keeps_copy Sample.agreeOutside hstart hhistory⟩

theorem restore_recovers_applied : ∃ media r, image media = Sample.proposed ∧
      (execute .restore Sample.original Sample.proposed).run working media =
        ((.ok, r), Sample.start) := by
  have hstart : image Sample.start = Sample.original := rfl
  obtain ⟨media, hhistory, himage⟩ := interrupted_apply Sample.agreeOutside hstart
  obtain ⟨r, hrun⟩ := restore_recovers Sample.agreeOutside hstart hhistory
  exact ⟨media, r, himage, hrun⟩

theorem apply_after_interruptions_applied : ∃ media r, image media = Sample.proposed ∧
      (execute .apply Sample.original Sample.proposed).run working media =
        ((.notOriginal, r), media) := by
  have hstart : image Sample.start = Sample.original := rfl
  obtain ⟨media, hhistory, himage⟩ := interrupted_apply Sample.agreeOutside hstart
  have hother : image media ≠ Sample.original := by
    rw [himage]
    exact fun h => absurd (congrFun h ⟨blockBytes, by decide⟩) (by decide)
  obtain ⟨r, hrun⟩ := (apply_after_interruptions Sample.agreeOutside hstart hhistory).2 hother
  exact ⟨media, r, himage, hrun⟩

end NativeInitLab.Gpt
