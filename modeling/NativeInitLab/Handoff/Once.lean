import Mathlib.Data.List.TakeWhile
import NativeInitLab.Handoff.Latch

namespace NativeInitLab.Handoff

open CrashProgram CrashProgram.Program DurableFile

/-! The automatic handoff is dispatched at most once, over all boots. -/

/-- A dispatch behind a durable latch, with an enable file that holds exactly an armed text. -/
def Dispatch.Warranted (build : Build) (dispatch : Dispatch) : Prop :=
  (dispatch.files .latch).Durable ∧ ∃ intent stored, hex64Valid intent = true ∧
    (dispatch.files .enable).now = some stored ∧
    stored.content = stateText build intent armed

structure Sound (build : Build) (world : World) : Prop where
  once : world.dispatches.length ≤ 1
  warranted : ∀ dispatch ∈ world.dispatches, dispatch.Warranted build
  latched : world.dispatches ≠ [] → (world.files .latch).Durable
  plain : (world.files .enable).All (Plain build)

section Texts

variable {build : Build} {intent content : Str}

theorem cString_of_hex (h : hex64Valid intent = true) : cString intent = intent := by
  have hdigits := (Bool.and_eq_true_iff.mp h).2
  refine List.takeWhile_eq_self_iff.mpr fun digit hdigit => decide_eq_true ?_
  rintro rfl
  exact absurd (List.all_eq_true.mp hdigits _ hdigit) (by decide)

theorem length_of_hex (h : hex64Valid intent = true) : intent.length = 64 :=
  eq_of_beq (Bool.and_eq_true_iff.mp h).1

theorem length_armed (h : hex64Valid intent = true) : (stateText build intent armed).length =
      (stateText build (List.replicate 64 '0') armed).length := by
  have hzeros : hex64Valid (List.replicate 64 '0') = true := by decide
  simp only [stateText, line, List.length_append, cString_of_hex h, cString_of_hex hzeros,
    length_of_hex h, List.length_replicate]

theorem exact_of_plain {stored : Stored Char Attributes} (hplain : Plain build stored)
    (hintent : hex64Valid intent = true)
    (h : cString stored.content = stateText build intent armed) :
    stored.content = stateText build intent armed := by
  rw [← h]
  symm
  rcases hplain with hshort | ⟨-, hnul⟩
  · refine ( List.takeWhile_prefix _).eq_of_length_le ?_
    rw [← length_armed hintent, ← h] at hshort
    exact hshort
  · refine List.takeWhile_eq_self_iff.mpr fun character hcharacter => decide_eq_true ?_
    rintro rfl
    exact hnul hcharacter

theorem parseEnable_armed (h : 0 < (parseEnable build content).1) :
    hex64Valid (parseEnable build content).2 = true ∧
      cString content = stateText build (parseEnable build content).2 armed := by
  revert h
  unfold parseEnable
  split
  case h_1 => exact fun h => absurd h (by decide)
  case h_2 rest _ =>
    dsimp only
    split
    case isTrue hvalid =>
      intro _
      refine ⟨hvalid.2.2.1, ?_⟩
      have hformat := hvalid.2.2.2
      unfold formatState at hformat
      split at hformat
      · exact (Option.some.inj hformat).symm
      · cases hformat
    case isFalse => exact fun h => absurd h (by decide)

end Texts

section Looks

variable {build : Build} {world : World} {inv : World → Prop} {name : Name}

theorem statePath_holds (hinv : inv world) : Holds machine inv (statePath name)
      (fun rc next => next = world ∧ (rc = 0 → (world.files name).now = none)) world := by
  refine holds_perform hinv (fun _ h => h.elim) ?_
  rintro stat next ⟨hstat, rfl⟩
  cases hstat with
  | absent hnone => exact holds_pure hinv ⟨rfl, fun _ => hnone⟩
  | failed hpositive => exact holds_pure hinv ⟨rfl, fun hzero => by omega⟩
  | found hsome =>
    refine holds_ite (fun _ => holds_pure hinv ⟨rfl, fun h => absurd h (by decide)⟩)
      fun _ => holds_pure hinv ⟨rfl, fun h => absurd h (by decide)⟩

/-- The enable file is an armed one, as far as `strcmp` sees. -/
def Armed (build : Build) (intent : Str) (world : World) : Prop :=
  hex64Valid intent = true ∧ ∃ stored, (world.files .enable).now = some stored ∧
    cString stored.content = stateText build intent armed

theorem readOpened_holds {stored : Stored Char Attributes} (hinv : inv world)
    (hstored : (world.files .enable).now = some stored) :
    Holds machine inv (readOpened build stored.content.length)
      (fun result next => next = world ∧ (0 < result.1 → Armed build result.2 world)) world := by
  refine holds_perform hinv (fun _ h => h.elim) ?_
  rintro read next ⟨hread, rfl⟩
  cases hread with
  | failed hpositive =>
    refine holds_perform hinv (fun _ h => h.elim) ?_
    rintro closed next ⟨rfl, -⟩
    exact holds_pure hinv ⟨rfl, fun h => by dsimp only at h; omega⟩
  | @part found content hfound hpart hbuffer =>
    refine holds_perform hinv (fun _ h => h.elim) ?_
    rintro extra next ⟨-, rfl⟩
    refine holds_perform hinv (fun _ h => h.elim) ?_
    rintro closed next ⟨rfl, hclosed⟩
    have hpositive : ∀ errno, (if extra = 0 then closed else none) = some errno → 0 < errno := by
      intro errno herrno
      split at herrno
      · exact hclosed errno herrno
      · cases herrno
    cases hfailed : (if extra = 0 then closed else none) with
    | some errno =>
      have := hpositive errno hfailed
      exact holds_pure hinv ⟨rfl, fun h => by dsimp only at h; omega⟩
    | none =>
      refine holds_ite (fun hwhole => ?_)
        fun _ => holds_pure hinv ⟨rfl, fun h => absurd h (by decide)⟩
      have hsame : found = stored := Option.some.inj (hfound.symm.trans hstored)
      subst hsame
      have hcontent : content = found.content := hpart.eq_of_length hwhole.1
      refine holds_pure hinv ⟨rfl, fun h => ?_⟩
      obtain ⟨hvalid, htext⟩ := parseEnable_armed h
      exact ⟨hvalid, found, hfound, hcontent ▸ htext⟩

theorem readEnable_holds (hinv : inv world) : Holds machine inv (readEnable build)
      (fun result next => next = world ∧ (0 < result.1 → Armed build result.2 world)) world := by
  refine holds_perform hinv (fun _ h => h.elim) ?_
  rintro stat next ⟨hstat, rfl⟩
  cases hstat with
  | absent => exact holds_pure hinv ⟨rfl, fun h => absurd h (by decide)⟩
  | failed hpositive => exact holds_pure hinv ⟨rfl, fun h => by dsimp only at h; omega⟩
  | @found stored hsome =>
    refine holds_ite (fun _ => ?_) fun _ => holds_pure hinv ⟨rfl, fun h => absurd h (by decide)⟩
    refine holds_perform hinv (fun _ h => h.elim) ?_
    rintro opened next ⟨rfl, hopened⟩
    cases opened with
    | some errno =>
      have := hopened errno rfl
      exact holds_pure hinv ⟨rfl, fun h => by dsimp only at h; omega⟩
    | none =>
      refine holds_perform hinv (fun _ h => h.elim) ?_
      rintro same next ⟨rfl, hsame⟩
      cases same with
      | some errno =>
        have := hsame errno rfl
        refine holds_perform hinv (fun _ h => h.elim) ?_
        rintro closed next ⟨rfl, -⟩
        exact holds_pure hinv ⟨rfl, fun h => by dsimp only at h; omega⟩
      | none => exact readOpened_holds hinv hsome

end Looks

section Creation

variable {world next : World} {name : Name} {bound : Nat} {P : World → Prop} {content : Str}

def Short (bound : Nat) (file : CacheFile) : Prop :=
  ∀ stored, file.now = some stored → stored.content.length ≤ bound

/-- A property of the world that short files under a name do not disturb. -/
structure Tolerates (name : Name) (bound : Nat) (P : World → Prop) : Prop where
  alter : ∀ world change, P world → Short bound (change (world.files name)) →
    (change (world.files name)).past ⊆ (world.files name).versions → P (world.alter name change)
  settle : ∀ world, P world → P world.settle

theorem alter_same {change : CacheFile → CacheFile} :
    (world.alter name change).files name = change (world.files name) :=
  Function.update_self ..

theorem alter_other {change : CacheFile → CacheFile} {other : Name} (h : other ≠ name) :
    (world.alter name change).files other = world.files other :=
  Function.update_of_ne h ..

structure Making (name : Name) (bound : Nat) (P : World → Prop) (world : World) : Prop where
  holds : P world
  file : ∃ stored, (world.files name).now = some stored ∧ stored.content.length ≤ bound

theorem Making.alter (h : Making name bound P world) (hP : Tolerates name bound P)
    (change : CacheFile → CacheFile) {edit : Stored Char Attributes → Stored Char Attributes}
    (hchange : ∀ file, (change file).now = file.now.map edit ∧ (change file).past = file.past)
    (hedit : ∀ stored, stored.content.length ≤ bound → (edit stored).content.length ≤ bound) :
    Making name bound P (world.alter name change) := by
  obtain ⟨stored, hstored, hlength⟩ := h.file
  have hnow : (change (world.files name)).now = some (edit stored) := by
    rw [(hchange _).1, hstored]
    rfl
  refine ⟨hP.alter world change h.holds ?_ ?_, edit stored, ?_, hedit stored hlength⟩
  · intro other hother
    rw [hnow] at hother
    cases hother
    exact hedit stored hlength
  · rw [(hchange _).2]
    exact List.subset_cons_self ..
  · rw [alter_same]
    exact hnow

theorem fsyncCacheDir_holds {inv : World → Prop} (hinv : inv world) (hsettled : inv world.settle) :
    Holds machine inv fsyncCacheDir (fun rc next =>
      (rc < 0 ∧ (next = world ∨ next = world.settle)) ∨ (rc = 0 ∧ next = world.settle)) world := by
  refine holds_perform hinv (fun _ h => h.elim) ?_
  rintro opened next ⟨rfl, hopened⟩
  cases opened with
  | some errno =>
    have := hopened errno rfl
    exact holds_pure hinv (.inl ⟨by omega, .inl rfl⟩)
  | none =>
    refine holds_perform hinv (fun _ h => h.elim) ?_
    rintro synced later (⟨rfl, rfl⟩ | ⟨errno, hpositive, rfl, rfl⟩)
    · refine holds_perform hsettled (fun _ h => h.elim) ?_
      rintro closed final ⟨rfl, hclosed⟩
      cases closed with
      | none => exact holds_pure hsettled (.inr ⟨rfl, rfl⟩)
      | some errno =>
        have := hclosed errno rfl
        exact holds_pure hsettled (.inl ⟨by omega, .inr rfl⟩)
    · refine holds_perform hinv (fun _ h => h.elim) ?_
      rintro closed final ⟨rfl, -⟩
      exact holds_pure hinv (.inl ⟨by omega, .inl rfl⟩)

theorem abandon_holds (hP : Tolerates name bound P) (h : P world) (rc : Int) :
    Holds machine P (abandon name rc) (fun result next => result = rc ∧ P next) world := by
  have hsync {world : World} (h : P world) : Holds machine P
      (fsyncCacheDir >>= fun _ => pure rc) (fun result next => result = rc ∧ P next) world := by
    refine holds_bind ((fsyncCacheDir_holds h (hP.settle world h)).with_inv.mono ?_)
    rintro result next ⟨hnext, -⟩
    exact holds_pure hnext ⟨rfl, hnext⟩
  refine holds_perform h (fun _ h => h.elim) ?_
  rintro unlinked next (⟨rfl, rfl⟩ | ⟨errno, -, rfl, rfl⟩)
  · refine hsync (hP.alter world Path.unlink h ?_ (List.Subset.refl _))
    intro stored hstored
    cases hstored
  · exact hsync h

theorem fill_holds (hP : Tolerates name content.length P) (h : Making name content.length P world) :
    Holds machine P (fill name content) (fun result next => P next ∧
      (∀ errno, result = some errno → 0 < errno) ∧
      (result = none → ∃ stored, (next.files name).now = some stored ∧
        stored.flushed = true)) world := by
  have hfails {world : World} {errno : Int} (h : P world) (hpositive : 0 < errno) :
      Holds machine P (pure (some errno)) (fun result next => P next ∧
        (∀ errno, result = some errno → 0 < errno) ∧
        (result = none → ∃ stored, (next.files name).now = some stored ∧
          stored.flushed = true)) world :=
    holds_pure h ⟨h, fun _ hother => Option.some.inj hother ▸ hpositive, fun hnone => nomatch hnone⟩
  refine holds_perform h.holds (fun _ h => h.elim) ?_
  rintro chowned next (⟨rfl, rfl⟩ | ⟨errno, hpositive, rfl, rfl⟩)
  rotate_left
  · exact hfails h.holds hpositive
  have h := h.alter hP (Path.setAttributes fun attributes => { attributes with owned := true })
    (fun _ => ⟨rfl, rfl⟩) fun _ h => h
  refine holds_perform h.holds (fun _ h => h.elim) ?_
  rintro chmodded next (⟨rfl, rfl⟩ | ⟨errno, hpositive, rfl, rfl⟩)
  rotate_left
  · exact hfails h.holds hpositive
  have h := h.alter hP (Path.setAttributes fun attributes => { attributes with confined := true })
    (fun _ => ⟨rfl, rfl⟩) fun _ h => h
  have hwrite (part : Str) (hpart : part <+: content) :=
    h.alter hP (Path.write part) (fun _ => ⟨rfl, rfl⟩) fun _ _ => hpart.length_le
  refine holds_perform h.holds ?_ ?_
  · rintro now ⟨part, hpart, rfl⟩
    exact (hwrite part hpart).holds
  rintro written next (⟨rfl, rfl⟩ | ⟨errno, part, hpositive, hpart, rfl, rfl⟩)
  rotate_left
  · exact hfails (hwrite part hpart).holds hpositive
  have h := hwrite content List.prefix_rfl
  have hflushed := h.alter hP Path.flush (fun _ => ⟨rfl, rfl⟩) fun _ h => h
  change Holds machine P (perform (.fsync name) >>= pure) _ _
  refine holds_perform h.holds (fun _ h => h.elim) ?_
  rintro synced next (⟨rfl, rfl⟩ | ⟨errno, hpositive, rfl, rfl⟩)
  · refine holds_pure hflushed.holds ⟨hflushed.holds, (fun _ hsome => nomatch hsome), fun _ => ?_⟩
    obtain ⟨stored, hstored, -⟩ := h.file
    refine ⟨{ stored with flushed := true }, ?_, rfl⟩
    rw [alter_same, Path.flush, hstored]
    rfl
  · exact hfails h.holds hpositive

theorem createState_holds (hP : Tolerates name content.length P) (h : P world) :
    Holds machine P (createState name content)
      (fun rc next => P next ∧ (0 ≤ rc → (next.files name).Durable)) world := by
  refine holds_perform h (fun _ h => h.elim) ?_
  rintro created next (⟨attributes, -, rfl, rfl⟩ | ⟨errno, hpositive, rfl, rfl⟩)
  rotate_left
  · exact holds_pure h ⟨h, fun hrc => by omega⟩
  have hmaking : Making name content.length P (world.alter name (Path.create attributes)) := by
    refine ⟨hP.alter world (Path.create attributes) h ?_ (List.Subset.refl _),
      ⟨[], attributes, false⟩, ?_, Nat.zero_le _⟩
    · rintro stored ⟨⟩
      exact Nat.zero_le _
    · rw [alter_same]
      rfl
  refine holds_bind ((fill_holds hP hmaking).mono ?_)
  rintro filled now ⟨hnow, hfilled, hflushed⟩
  have habandon {world : World} {rc : Int} (h : P world) (hrc : rc < 0) :
      Holds machine P (abandon name rc)
        (fun rc next => P next ∧ (0 ≤ rc → (next.files name).Durable)) world := by
    refine (abandon_holds hP h rc).mono ?_
    rintro result final ⟨rfl, hfinal⟩
    exact ⟨hfinal, fun hle => by omega⟩
  refine holds_perform hnow (fun _ h => h.elim) ?_
  rintro closed next ⟨rfl, hclosed⟩
  cases hfailed : filled.or closed with
  | some errno =>
    have hpositive : 0 < errno := by
      cases filled with
      | some found => exact hfilled errno hfailed
      | none => exact hclosed errno hfailed
    exact habandon hnow (by omega)
  | none =>
    have hnone : filled = none := by
      cases filled with
      | some found => cases hfailed
      | none => rfl
    refine holds_bind ((fsyncCacheDir_holds hnow (hP.settle next hnow)).with_inv.mono ?_)
    rintro rc final ⟨hfinal, ⟨hrc, -⟩ | ⟨rfl, rfl⟩⟩
    · rw [if_pos hrc]
      exact habandon hfinal hrc
    · rw [if_neg (by decide)]
      exact holds_pure hfinal ⟨hfinal, fun _ => ⟨rfl, hflushed hnone⟩⟩

end Creation

section Commands

variable {build : Build} {world next : World} {intent : Str}

theorem Sound.settle (h : Sound build world) : Sound build world.settle :=
  ⟨h.once, h.warranted, fun hsome => (h.latched hsome).settle, h.plain.settle⟩

theorem tolerates_enable (hintent : hex64Valid intent = true) :
    Tolerates .enable (stateText build intent armed).length (Sound build) := by
  refine ⟨fun world change h hshort hpast => ⟨h.once, h.warranted, fun hsome => ?_, ?_⟩,
    fun _ h => h.settle⟩
  · rw [alter_other (by decide)]
    exact h.latched hsome
  · rw [alter_same]
    intro stored hstored
    rcases List.mem_cons.mp hstored with hnow | hearlier
    · refine .inl ?_
      rw [← length_armed hintent]
      exact hshort stored hnow.symm
    · exact h.plain stored (hpast hearlier)

section

variable (h : Sound build world)
include h

theorem createEnable_holds (hintent : hex64Valid intent = true) :
    Holds machine (Sound build) (createEnable build intent) (fun _ next => Sound build next)
      world := by
  unfold createEnable formatState
  split
  · exact holds_pure h h
  case h_2 content hformat =>
    split at hformat
    · cases hformat
      exact (createState_holds (tolerates_enable hintent) h).mono fun _ _ hnext => hnext.1
    · cases hformat

theorem armIntent_holds (hintent : hex64Valid intent = true) :
    Holds machine (Sound build) (armIntent build intent) (fun _ next => Sound build next)
      world := by
  refine holds_bind ((statePath_holds h).mono ?_)
  rintro latchState next ⟨rfl, -⟩
  refine holds_ite (fun _ => holds_pure h h) fun _ => ?_
  refine holds_bind ((statePath_holds h).mono ?_)
  rintro enableState next ⟨rfl, -⟩
  refine holds_ite (fun _ => holds_pure h h) fun _ => ?_
  refine holds_perform h (fun _ h => h.elim) ?_
  rintro rc next rfl
  refine holds_ite (fun _ => holds_pure h h) fun _ => ?_
  refine holds_bind ((createEnable_holds h hintent).mono fun rc final hfinal => ?_)
  exact holds_ite (fun _ => holds_pure hfinal hfinal) fun _ => holds_pure hfinal hfinal

theorem arm_holds (argv : List Str) :
    Holds machine (Sound build) (arm build argv) (fun _ next => Sound build next) world := by
  unfold arm
  split
  · refine holds_ite (fun _ => holds_pure h h) fun _ => ?_
    exact holds_ite (fun hvalid => armIntent_holds h hvalid.2) fun _ => holds_pure h h
  · exact holds_pure h h

theorem cancelEnable_holds :
    Holds machine (Sound build) (cancelEnable build intent) (fun _ next => Sound build next)
      world := by
  refine holds_bind ((readEnable_holds h).mono ?_)
  rintro ⟨state, observed⟩ next ⟨rfl, harmed⟩
  refine holds_ite (fun hmatch => ?_) fun _ => holds_pure h h
  have hvalid := (harmed (by dsimp only at hmatch ⊢; omega)).1
  refine holds_perform h (fun _ h => h.elim) ?_
  rintro unlinked later (⟨rfl, rfl⟩ | ⟨errno, -, rfl, rfl⟩)
  · have hlater : Sound build (next.alter .enable Path.unlink) := by
      refine (tolerates_enable hvalid).alter next Path.unlink h ?_ (List.Subset.refl _)
      rintro stored ⟨⟩
    refine holds_bind ((fsyncCacheDir_holds hlater hlater.settle).with_inv.mono ?_)
    rintro rc final ⟨hfinal, -⟩
    exact holds_pure hfinal hfinal
  · exact holds_pure h h

theorem armReboot_holds (argv : List Str) :
    Holds machine (Sound build) (armReboot build argv) (fun _ next => Sound build next) world := by
  have hsync {A : Type} {rest : Unit → Run A} {post : A → World → Prop} {world : World}
      (h : Sound build world)
      (hrest : ∀ next, Sound build next → Holds machine (Sound build) (rest ()) post next) :
      Holds machine (Sound build) (act .sync >>= rest) post world := by
    refine holds_perform h (fun _ h => h.elim) ?_
    rintro answer next (rfl | rfl)
    · exact hrest _ h
    · exact hrest _ h.settle
  refine holds_bind ((arm_holds h argv).mono fun rc armedWorld h => ?_)
  refine holds_ite (fun _ => holds_pure h h) fun _ => ?_
  refine hsync h fun synced h => ?_
  refine holds_perform h (fun _ h => h.elim) ?_
  rintro failure next ⟨rfl, -⟩
  refine holds_bind ((cancelEnable_holds h).mono fun cancelled final h => ?_)
  refine hsync h fun last h => ?_
  exact holds_ite (fun _ => holds_pure h h) fun _ => holds_pure h h

end

structure Cleared (build : Build) (intent : Str) (world : World) : Prop
    extends Sound build world where
  none : world.dispatches = []
  armed : Armed build intent world

theorem tolerates_latch {bound : Nat} : Tolerates .latch bound (Cleared build intent) := by
  refine ⟨fun world change h _ _ => ⟨⟨h.once, h.warranted, fun hsome => absurd h.none hsome, ?_⟩,
    h.none, h.armed.1, ?_⟩, fun world h => ⟨h.toSound.settle, h.none, h.armed⟩⟩
  · rw [alter_other (by decide)]
    exact h.plain
  · rw [alter_other (by decide)]
    exact h.armed.2

theorem createLatch_holds (h : Cleared build intent world) :
    Holds machine (Cleared build intent) (createLatch build intent)
      (fun rc next => Cleared build intent next ∧ (0 ≤ rc → (next.files .latch).Durable))
      world := by
  unfold createLatch
  split
  · exact holds_pure h ⟨h, fun hrc => absurd hrc (by decide)⟩
  · exact createState_holds tolerates_latch h

theorem dispatch_holds (h : Cleared build intent world) (hlatch : (world.files .latch).Durable) :
    Holds machine (Sound build) dispatch (fun _ next => Sound build next) world := by
  have hdispatched : Sound build { world with dispatches := world.dispatches ++ [⟨world.files⟩] } := by
    obtain ⟨hintent, stored, hstored, htext⟩ := h.armed
    have hexact := exact_of_plain (h.plain stored (hstored ▸ List.mem_cons_self)) hintent htext
    refine ⟨?_, fun dispatch hdispatch => ?_, fun _ => hlatch, h.plain⟩
    · rw [h.none]
      exact Nat.le_refl 1
    · rw [h.none] at hdispatch
      rw [List.mem_singleton.mp hdispatch]
      exact ⟨hlatch, intent, stored, hintent, hstored, hexact⟩
  refine holds_perform h.toSound (fun _ h => h.elim) ?_
  rintro published next rfl
  refine holds_perform h.toSound (fun _ h => h.elim) ?_
  rintro rc final rfl
  exact holds_ite (fun _ => holds_pure hdispatched hdispatched)
    fun _ => holds_pure hdispatched hdispatched

theorem runOnce_holds (h : Sound build world) :
    Holds machine (Sound build) (runOnce build) (fun _ next => Sound build next) world := by
  refine holds_ite (fun _ => holds_pure h h) fun _ => ?_
  refine holds_bind ((statePath_holds h).mono ?_)
  rintro latchState next ⟨rfl, habsent⟩
  refine holds_ite (fun _ => holds_pure h h) fun hnotPositive => ?_
  refine holds_ite (fun _ => holds_pure h h) fun hnotNegative => ?_
  have hnone : next.dispatches = [] := by
    by_contra hsome
    exact (h.latched hsome).present (habsent (by omega))
  refine holds_bind ((readEnable_holds h).mono ?_)
  rintro ⟨enableState, intent⟩ later ⟨rfl, harmed⟩
  dsimp only at harmed ⊢
  refine holds_ite (fun _ => holds_pure h h) fun hnotZero => ?_
  refine holds_ite (fun _ => holds_pure h h) fun hpositive => ?_
  have hcleared : Cleared build intent later := ⟨h, hnone, harmed (by omega)⟩
  refine holds_perform h (fun _ h => h.elim) ?_
  rintro rc qualified rfl
  refine holds_ite (fun _ => holds_pure h h) fun _ => ?_
  refine holds_bind ((createLatch_holds hcleared).weaken (fun _ h => h.toSound) ?_)
  rintro rc final ⟨hfinal, hlatch⟩
  refine holds_ite (fun _ => holds_pure hfinal.toSound hfinal.toSound) fun hrc => ?_
  exact dispatch_holds hfinal (hlatch (by omega))

theorem call_holds (h : Sound build world) (call : Call) :
    Holds machine (Sound build) (call.run build) (fun _ next => Sound build next) world := by
  cases call with
  | arm argv => exact arm_holds h argv
  | armReboot argv => exact armReboot_holds h argv
  | runOnce => exact runOnce_holds h

theorem inherited_plain : Inherited (Plain build) := by
  rintro stored content attributes (hshort | ⟨hflushed, -⟩) hunflushed hlength
  · exact .inl (Nat.le_trans hlength hshort)
  · rw [hflushed] at hunflushed
    cases hunflushed

theorem Sound.crash (h : Sound build world) (hcrash : world.Crash next) : Sound build next := by
  refine ⟨?_, ?_, ?_, h.plain.crash inherited_plain (hcrash.files .enable)⟩
  · rw [hcrash.dispatches]
    exact h.once
  · rw [hcrash.dispatches]
    exact h.warranted
  · rw [hcrash.dispatches]
    exact fun hsome => (h.latched hsome).crash (hcrash.files .latch)

theorem sound_of_reaches (h : Reaches build world) : Sound build world := by
  induction h with
  | start hplain =>
    exact ⟨Nat.zero_le _, fun _ h => (by cases h), fun h => absurd rfl h, hplain⟩
  | called _ hreturns ih => exact ((call_holds ih _).returns hreturns).1
  | crashed _ hvisits hcrash ih => exact ((call_holds ih _).visits hvisits).crash hcrash

theorem runOnce_latched (h : (world.files .latch).now ≠ none) :
    Holds machine (fun now => now.dispatches = world.dispatches) (runOnce build)
      (fun _ _ => True) world := by
  refine holds_ite (fun _ => holds_pure rfl trivial) fun _ => ?_
  have hlook : Holds machine (fun now => now.dispatches = world.dispatches) (statePath .latch)
      (fun rc next => next = world ∧ (rc = 0 → (world.files .latch).now = none)) world :=
    statePath_holds rfl
  refine holds_bind (hlook.mono ?_)
  rintro latchState next ⟨rfl, habsent⟩
  refine holds_ite (fun _ => holds_pure rfl trivial) fun hnotPositive => ?_
  refine holds_ite (fun _ => holds_pure rfl trivial) fun hnotNegative => ?_
  exact absurd (habsent (by omega)) h

theorem arm_refused
    (h : (world.files .latch).now ≠ none ∨ (world.files .enable).now ≠ none) (argv : List Str) :
    Holds machine (fun _ => True) (arm build argv) (fun rc _ => rc < 0) world := by
  unfold arm
  split
  case h_2 => exact holds_pure trivial (by decide)
  refine holds_ite (fun _ => holds_pure trivial (by decide)) fun _ => ?_
  refine holds_ite (fun _ => ?_) fun _ => holds_pure trivial (by decide)
  refine holds_bind ((statePath_holds trivial).mono ?_)
  rintro latchState next ⟨rfl, hlatch⟩
  refine holds_ite (fun hfound => holds_pure trivial ?_) fun hzero => ?_
  · split
    · decide
    · omega
  refine holds_bind ((statePath_holds trivial).mono ?_)
  rintro enableState later ⟨rfl, henable⟩
  refine holds_ite (fun hfound => holds_pure trivial ?_) fun hnone => ?_
  · split
    · decide
    · omega
  rcases h with h | h
  · exact absurd (hlatch (by omega)) h
  · exact absurd (henable (by omega)) h

theorem armReboot_refused
    (h : (world.files .latch).now ≠ none ∨ (world.files .enable).now ≠ none) (argv : List Str) :
    Holds machine (fun _ => True) (armReboot build argv) (fun rc _ => rc < 0) world := by
  refine holds_bind ((arm_refused h argv).mono fun rc next hrc => ?_)
  rw [if_pos hrc]
  exact holds_pure trivial hrc

end Commands

/-- Over all boots, calls, I/O failures and losses of power, from any latch file and any plain
enable file: at every instant at most one switch-root was dispatched, behind a durable latch and
for an exact enable file; a run that finds a latch file dispatches nothing; and an arm that finds
one of the files fails. -/
theorem handoff_is_dispatched_once {build : Build} {world : World} (h : Reaches build world) :
    (∀ (call : Call) now, Visits machine (call.run build) world now →
      now.dispatches.length ≤ 1 ∧ ∀ dispatch ∈ now.dispatches, dispatch.Warranted build) ∧
    ((world.files .latch).now ≠ none → ∀ now, Visits machine (runOnce build) world now →
      now.dispatches = world.dispatches) ∧
    ((world.files .latch).now ≠ none ∨ (world.files .enable).now ≠ none →
      ∀ argv rc next, Returns machine (arm build argv) world rc next ∨
        Returns machine (armReboot build argv) world rc next → rc < 0) := by
  refine ⟨fun call now hvisits => ?_, fun hlatch now hvisits => ?_, ?_⟩
  · have hsound := (call_holds (sound_of_reaches h) call).visits hvisits
    exact ⟨hsound.once, hsound.warranted⟩
  · exact (runOnce_latched hlatch).visits hvisits
  · rintro hfound argv rc next (hreturns | hreturns)
    · exact ((arm_refused hfound argv).returns hreturns).2
    · exact ((armReboot_refused hfound argv).returns hreturns).2

namespace Sample

def attributes : Attributes := ⟨true, true, true⟩

def stat (file : CacheFile) : Stat :=
  match file.now with
  | none => .absent
  | some stored => .found stored.attributes stored.content.length

theorem stats_stat (file : CacheFile) : Stats file (stat file) := by
  unfold stat
  split
  case h_1 hnone => exact .absent hnone
  case h_2 stored hsome => exact .found hsome

def part (file : CacheFile) : Except Int Str :=
  match file.now with
  | none => .error eio
  | some stored => .ok (stored.content.take (stateMax - 1))

theorem reads_part (file : CacheFile) : Reads file (part file) := by
  unfold part
  split
  case h_1 => exact .failed (by decide)
  case h_2 stored hsome =>
    refine .part hsome ( List.take_prefix _ _) ?_
    exact Nat.lt_of_le_of_lt (List.length_take_le _ _) (by decide)

def extra (file : CacheFile) (offset : Nat) : Int :=
  if (file.now.map fun stored => stored.content.length).getD 0 ≤ offset then 0 else 1

theorem extra_end {file : CacheFile} {offset : Nat} (h : extra file offset = 0)
    {stored : Stored Char Attributes} (hstored : file.now = some stored) :
    stored.content.length ≤ offset := by
  unfold extra at h
  rw [hstored] at h
  split at h
  case isTrue hle => exact hle
  case isFalse => cases h

def succeed : (op : Op) → World → Answer op × World
  | .lstat name, world => (stat (world.files name), world)
  | .read name, world => (part (world.files name), world)
  | .readMore name offset, world => (extra (world.files name) offset, world)
  | .create name, world =>
    if (world.files name).now.isNone then (none, world.alter name (Path.create attributes))
    else (some eexist, world)
  | .chown name, world =>
    (none, world.alter name (Path.setAttributes fun attributes => { attributes with owned := true }))
  | .chmod name, world =>
    (none,
      world.alter name (Path.setAttributes fun attributes => { attributes with confined := true }))
  | .write name content, world => (none, world.alter name (Path.write content))
  | .fsync name, world => (none, world.alter name Path.flush)
  | .unlink name, world => (none, world.alter name Path.unlink)
  | .fsyncDirectory, world => (none, world.settle)
  | .sync, world => ((), world)
  | .openRead _, world => (none, world)
  | .fstat _, world => (none, world)
  | .close _, world => (none, world)
  | .openDirectory, world => (none, world)
  | .closeDirectory, world => (none, world)
  | .reboot, world => (some eperm, world)
  | .qualify, world => (0, world)
  | .publish, world => (0, world)
  | .switchRoot, world =>
    (0, { world with dispatches := world.dispatches ++ [⟨world.files⟩] })

theorem succeed_acts (op : Op) (world : World) :
    Acts op world (succeed op world).1 (succeed op world).2 := by
  cases op with
  | lstat name => exact ⟨stats_stat _, rfl⟩
  | read name => exact ⟨reads_part _, rfl⟩
  | readMore name offset => exact ⟨fun hzero _ hstored => extra_end hzero hstored, rfl⟩
  | create name =>
    cases hnow : (world.files name).now.isNone with
    | true =>
      refine .inl ⟨attributes, Option.isNone_iff_eq_none.mp hnow, ?_⟩
      simp [succeed, hnow]
    | false =>
      refine .inr ⟨eexist, by decide, ?_⟩
      simp [succeed, hnow]
  | chown | chmod | write | fsync | unlink | fsyncDirectory => exact .inl ⟨rfl, rfl⟩
  | sync => exact .inl rfl
  | openRead | fstat | close | openDirectory | closeDirectory =>
    exact ⟨rfl, fun _ h => (by cases h)⟩
  | reboot =>
    refine ⟨rfl, fun errno herrno => ?_⟩
    cases herrno
    decide
  | qualify | publish | switchRoot => rfl

def intent : Str := List.replicate 64 '0'

def build : Build := ⟨"h14".toList, .image "/mnt/sdext/a90/runtime/root.img".toList intent⟩

def armCall : Call := .arm ["auto-handoff-arm".toList, armToken, intent]

def fresh : World := {}

theorem reaches_fresh : Reaches build fresh := by
  refine .start fun stored hstored => ?_
  cases List.mem_singleton.mp hstored

def armedWorld : World := ((armCall.run build).run succeed fresh).2

theorem reaches_armed : Reaches build armedWorld :=
  .called reaches_fresh (returns_run succeed_acts (armCall.run build) fresh)

def dispatchedWorld : World := ((Call.run build .runOnce).run succeed armedWorld).2

theorem visits_dispatched : Visits machine (Call.run build .runOnce) armedWorld dispatchedWorld :=
  (returns_run succeed_acts (Call.run build .runOnce) armedWorld).visits

end Sample

theorem handoff_is_dispatched_once_armed :
    Reaches Sample.build Sample.armedWorld ∧ Sample.dispatchedWorld.dispatches.length = 1 ∧
      ∀ dispatch ∈ Sample.dispatchedWorld.dispatches, dispatch.Warranted Sample.build :=
  ⟨Sample.reaches_armed, by decide +kernel,
    ((handoff_is_dispatched_once Sample.reaches_armed).1 .runOnce _ Sample.visits_dispatched).2⟩

end NativeInitLab.Handoff
