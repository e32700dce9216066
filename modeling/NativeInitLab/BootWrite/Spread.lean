import Mathlib.Tactic.Ring

/-! The choice of target sectors spread over the zero sectors that were found. -/

namespace NativeInitLab.BootWrite

def minIndex (targetIndex previousIndex : UInt32) : UInt32 :=
  if targetIndex = 0 then 0 else previousIndex + 1

def maxIndex (zeroCount targetCount targetIndex : UInt32) : UInt32 :=
  zeroCount - (targetCount - targetIndex)

def desired (zeroCount targetCount targetIndex : UInt32) : UInt32 :=
  if targetCount ≤ 1 ∨ zeroCount ≤ 1 then 0
  else (targetIndex.toUInt64 * (zeroCount - 1).toUInt64 / (targetCount - 1).toUInt64).toUInt32

def eSelectSpreadIndex (zeroCount targetCount targetIndex previousIndex : UInt32) : UInt32 :=
  let low := minIndex targetIndex previousIndex
  let high := maxIndex zeroCount targetCount targetIndex
  let raised :=
    if desired zeroCount targetCount targetIndex < low then low
    else desired zeroCount targetCount targetIndex
  if raised > high then high else raised

def previous (zeroCount targetCount : UInt32) : Nat → UInt32
  | 0 => 0
  | index + 1 =>
    eSelectSpreadIndex zeroCount targetCount (UInt32.ofNat index)
      (previous zeroCount targetCount index)

def selected (zeroCount targetCount : UInt32) (index : Nat) : UInt32 :=
  eSelectSpreadIndex zeroCount targetCount (UInt32.ofNat index)
    (previous zeroCount targetCount index)

theorem eSelectSpreadIndex_of_between {zeroCount targetCount targetIndex previousIndex : UInt32}
    (hlow : minIndex targetIndex previousIndex ≤ desired zeroCount targetCount targetIndex)
    (hhigh : desired zeroCount targetCount targetIndex ≤ maxIndex zeroCount targetCount targetIndex) :
    eSelectSpreadIndex zeroCount targetCount targetIndex previousIndex =
      desired zeroCount targetCount targetIndex := by
  rw [eSelectSpreadIndex, if_neg (UInt32.not_lt.mpr hlow), if_neg (UInt32.not_lt.mpr hhigh)]

theorem floor_succ {step count : Nat} (hpositive : 0 < step) (hle : step ≤ count) (index : Nat) :
    index * count / step < (index + 1) * count / step := by
  have hnext : index * count + step ≤ (index + 1) * count := by
    rw [Nat.succ_mul]
    exact Nat.add_le_add_left hle _
  calc index * count / step < index * count / step + 1 := Nat.lt_succ_self _
    _ = (index * count + step) / step := (Nat.add_div_right _ hpositive).symm
    _ ≤ (index + 1) * count / step := Nat.div_le_div_right hnext

theorem floor_le {step count index : Nat} (hle : step ≤ count) (hindex : index ≤ step) :
    index * count / step ≤ count - step + index := by
  apply Nat.div_le_of_le_mul
  obtain ⟨extra, rfl⟩ := Nat.exists_eq_add_of_le hle
  have hextra : index * extra ≤ step * extra := Nat.mul_le_mul_right extra hindex
  rw [Nat.add_sub_cancel_left]
  calc index * (step + extra) = step * index + index * extra := by ring
    _ ≤ step * index + step * extra := Nat.add_le_add_left hextra _
    _ = step * (extra + index) := by ring

section Spread

variable {zeroCount targetCount : UInt32} {index : Nat}

theorem product_lt (hindex : index < targetCount.toNat) :
    index * (zeroCount.toNat - 1) < 18446744073709551616 := by
  have htarget : targetCount.toNat < 4294967296 := targetCount.toNat_lt
  have hzero : zeroCount.toNat < 4294967296 := zeroCount.toNat_lt
  calc index * (zeroCount.toNat - 1) ≤ 4294967295 * 4294967295 :=
        Nat.mul_le_mul (by omega) (by omega)
    _ < 18446744073709551616 := by decide

theorem toNat_maxIndex (hle : targetCount.toNat ≤ zeroCount.toNat)
    (hindex : index < targetCount.toNat) :
    (maxIndex zeroCount targetCount (UInt32.ofNat index)).toNat =
      zeroCount.toNat - targetCount.toNat + index := by
  have htarget : targetCount.toNat < 4294967296 := targetCount.toNat_lt
  have hindexed : (UInt32.ofNat index).toNat = index :=
    UInt32.toNat_ofNat_of_lt (Nat.lt_trans hindex htarget)
  have hremaining : (targetCount - UInt32.ofNat index).toNat = targetCount.toNat - index := by
    rw [UInt32.toNat_sub_of_le _ _ (by rw [UInt32.le_iff_toNat_le]; omega), hindexed]
  rw [maxIndex, UInt32.toNat_sub_of_le _ _ (by rw [UInt32.le_iff_toNat_le]; omega), hremaining]
  omega

variable (htwo : 2 ≤ targetCount.toNat) (hle : targetCount.toNat ≤ zeroCount.toNat)

include htwo hle

theorem toNat_desired (hindex : index < targetCount.toNat) :
    (desired zeroCount targetCount (UInt32.ofNat index)).toNat =
      index * (zeroCount.toNat - 1) / (targetCount.toNat - 1) := by
  have htarget : targetCount.toNat < 4294967296 := targetCount.toNat_lt
  have hzero : zeroCount.toNat < 4294967296 := zeroCount.toNat_lt
  have hless {count : UInt32} (hcount : 2 ≤ count.toNat) : (count - 1).toNat = count.toNat - 1 :=
    UInt32.toNat_sub_of_le _ _ (UInt32.le_iff_toNat_le.mpr (Nat.le_of_lt hcount))
  have hindexed : (UInt32.ofNat index).toNat = index :=
    UInt32.toNat_ofNat_of_lt (Nat.lt_trans hindex htarget)
  have hproduct : ((UInt32.ofNat index).toUInt64 * (zeroCount - 1).toUInt64).toNat =
      index * (zeroCount.toNat - 1) := by
    rw [UInt64.toNat_mul, UInt32.toNat_toUInt64, UInt32.toNat_toUInt64, hindexed,
      hless (Nat.le_trans htwo hle)]
    exact Nat.mod_eq_of_lt (product_lt hindex)
  have hfloor : index * (zeroCount.toNat - 1) / (targetCount.toNat - 1) ≤
      zeroCount.toNat - 1 - (targetCount.toNat - 1) + index := floor_le (by omega) (by omega)
  rw [desired, if_neg]
  · rw [UInt64.toNat_toUInt32, UInt64.toNat_div, hproduct, UInt32.toNat_toUInt64, hless htwo]
    exact Nat.mod_eq_of_lt (by omega)
  · rw [UInt32.le_iff_toNat_le, UInt32.le_iff_toNat_le]
    change ¬ (targetCount.toNat ≤ 1 ∨ zeroCount.toNat ≤ 1)
    omega

theorem desired_le_maxIndex (hindex : index < targetCount.toNat) :
    desired zeroCount targetCount (UInt32.ofNat index) ≤
      maxIndex zeroCount targetCount (UInt32.ofNat index) := by
  have hfloor : index * (zeroCount.toNat - 1) / (targetCount.toNat - 1) ≤
      zeroCount.toNat - 1 - (targetCount.toNat - 1) + index := floor_le (by omega) (by omega)
  rw [UInt32.le_iff_toNat_le, toNat_desired htwo hle hindex, toNat_maxIndex hle hindex]
  omega

/-- The successor of one floor is no more than the next. -/
theorem minIndex_le_desired (hindex : index + 1 < targetCount.toNat) :
    minIndex (UInt32.ofNat (index + 1)) (desired zeroCount targetCount (UInt32.ofNat index)) ≤
      desired zeroCount targetCount (UInt32.ofNat (index + 1)) := by
  have htarget : targetCount.toNat < 4294967296 := targetCount.toNat_lt
  have hindexed : (UInt32.ofNat (index + 1)).toNat = index + 1 :=
    UInt32.toNat_ofNat_of_lt (Nat.lt_trans hindex htarget)
  have hnonzero : UInt32.ofNat (index + 1) ≠ 0 := by
    intro hzero
    rw [hzero] at hindexed
    exact absurd hindexed.symm (Nat.succ_ne_zero index)
  have hnext : (desired zeroCount targetCount (UInt32.ofNat index)).toNat <
      (desired zeroCount targetCount (UInt32.ofNat (index + 1))).toNat := by
    rw [toNat_desired htwo hle (Nat.lt_of_succ_lt hindex), toNat_desired htwo hle hindex]
    exact floor_succ (by omega) (by omega) index
  have hbound := (desired zeroCount targetCount (UInt32.ofNat (index + 1))).toNat_lt
  have hsucc : (desired zeroCount targetCount (UInt32.ofNat index) + 1).toNat =
      (desired zeroCount targetCount (UInt32.ofNat index)).toNat + 1 := by
    rw [UInt32.toNat_add]
    exact Nat.mod_eq_of_lt (Nat.lt_of_le_of_lt hnext hbound)
  rw [minIndex, if_neg hnonzero, UInt32.le_iff_toNat_le, hsucc]
  exact hnext

/-- Neither clamp binds. -/
theorem desired_between (index : Nat) (hindex : index < targetCount.toNat) :
    minIndex (UInt32.ofNat index) (previous zeroCount targetCount index) ≤
        desired zeroCount targetCount (UInt32.ofNat index) ∧
      desired zeroCount targetCount (UInt32.ofNat index) ≤
        maxIndex zeroCount targetCount (UInt32.ofNat index) := by
  induction index with
  | zero => exact ⟨UInt32.zero_le, desired_le_maxIndex htwo hle hindex⟩
  | succ index ih =>
    obtain ⟨hlow, hhigh⟩ := ih (Nat.lt_of_succ_lt hindex)
    refine ⟨?_, desired_le_maxIndex htwo hle hindex⟩
    rw [previous, eSelectSpreadIndex_of_between hlow hhigh]
    exact minIndex_le_desired htwo hle hindex

theorem selected_eq_desired (hindex : index < targetCount.toNat) :
    selected zeroCount targetCount index = desired zeroCount targetCount (UInt32.ofNat index) := by
  obtain ⟨hlow, hhigh⟩ := desired_between htwo hle index hindex
  exact eSelectSpreadIndex_of_between hlow hhigh

theorem toNat_selected (hindex : index < targetCount.toNat) :
    (selected zeroCount targetCount index).toNat =
      index * (zeroCount.toNat - 1) / (targetCount.toNat - 1) := by
  rw [selected_eq_desired htwo hle hindex, toNat_desired htwo hle hindex]

theorem selected_lt {first second : Nat} (hlt : first < second)
    (hsecond : second < targetCount.toNat) :
    (selected zeroCount targetCount first).toNat < (selected zeroCount targetCount second).toNat := by
  induction second with
  | zero => exact absurd hlt (Nat.not_lt_zero first)
  | succ second ih =>
    have hstep : (selected zeroCount targetCount second).toNat <
        (selected zeroCount targetCount (second + 1)).toNat := by
      rw [toNat_selected htwo hle hsecond, toNat_selected htwo hle (Nat.lt_of_succ_lt hsecond)]
      exact floor_succ (by omega) (by omega) second
    rcases Nat.lt_succ_iff_lt_or_eq.mp hlt with hbefore | rfl
    · exact Nat.lt_trans (ih hbefore (Nat.lt_of_succ_lt hsecond)) hstep
    · exact hstep

theorem toNat_selected_last :
    (selected zeroCount targetCount (targetCount.toNat - 1)).toNat = zeroCount.toNat - 1 := by
  rw [toNat_selected htwo hle (by omega)]
  exact Nat.mul_div_cancel_left _ (by omega)

end Spread

theorem spread_selection_is_exact (zeroCount targetCount : UInt32) (htwo : 2 ≤ targetCount)
    (hle : targetCount ≤ zeroCount) :
    (∀ index < targetCount.toNat, (selected zeroCount targetCount index).toNat =
          index * (zeroCount.toNat - 1) / (targetCount.toNat - 1) ∧
        selected zeroCount targetCount index < zeroCount ∧
        minIndex (UInt32.ofNat index) (previous zeroCount targetCount index) ≤
          desired zeroCount targetCount (UInt32.ofNat index) ∧
        desired zeroCount targetCount (UInt32.ofNat index) ≤
          maxIndex zeroCount targetCount (UInt32.ofNat index) ∧
        index * (zeroCount.toNat - 1) < 18446744073709551616) ∧
      (∀ first second, first < second → second < targetCount.toNat →
        selected zeroCount targetCount first < selected zeroCount targetCount second) ∧
      selected zeroCount targetCount 0 = 0 ∧
      selected zeroCount targetCount (targetCount.toNat - 1) = zeroCount - 1 := by
  have htarget : 2 ≤ targetCount.toNat := UInt32.le_iff_toNat_le.mp htwo
  have hcounts : targetCount.toNat ≤ zeroCount.toNat := UInt32.le_iff_toNat_le.mp hle
  have hlast := toNat_selected_last htarget hcounts
  refine ⟨fun index hindex => ?_, fun first second hlt hsecond => ?_, ?_, ?_⟩
  · obtain ⟨hlow, hhigh⟩ := desired_between htarget hcounts index hindex
    refine ⟨toNat_selected htarget hcounts hindex, ?_, hlow, hhigh, product_lt hindex⟩
    rw [UInt32.lt_iff_toNat_lt]
    rcases Nat.lt_or_eq_of_le (Nat.le_sub_one_of_lt hindex) with hbefore | rfl
    · have hlater := selected_lt htarget hcounts hbefore (by omega)
      omega
    · omega
  · exact UInt32.lt_iff_toNat_lt.mpr (selected_lt htarget hcounts hlt hsecond)
  · apply UInt32.toNat_inj.mp
    rw [toNat_selected htarget hcounts (by omega), Nat.zero_mul, Nat.zero_div]
    rfl
  · apply UInt32.toNat_inj.mp
    rw [hlast, UInt32.toNat_sub_of_le _ _ (UInt32.le_iff_toNat_le.mpr ?_)]
    · rfl
    · change 1 ≤ zeroCount.toNat
      omega

theorem spread_selection_is_exact_sixteen : selected 1024 16 0 = 0 ∧ selected 1024 16 15 = 1023 :=
  (spread_selection_is_exact 1024 16 (by decide) (by decide)).2.2

end NativeInitLab.BootWrite
