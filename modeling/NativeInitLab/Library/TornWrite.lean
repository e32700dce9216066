import Mathlib.Data.Set.Function

/-! Writes that may stop half way, and images that consist of two versions. -/

namespace TornWrite

variable {ι β : Type} {first second data before after : ι → β} {span region : Set ι}

/-- A write of `data` to `span` that has reached some of its positions. -/
def Torn (span : Set ι) (data before after : ι → β) : Prop :=
  ∀ i, after i = before i ∨ i ∈ span ∧ after i = data i

def Mixed (first second image : ι → β) : Prop :=
  ∀ i, image i = first i ∨ image i = second i

def Intact (first second : ι → β) (region : Set ι) (image : ι → β) : Prop :=
  Set.EqOn image first region ∨ Set.EqOn image second region

theorem Torn.eqOn (htorn : Torn span data before after)
    (hdisjoint : ∀ i ∈ span, i ∉ region) : Set.EqOn after before region := by
  intro i hi
  rcases htorn i with hold | ⟨hspan, -⟩
  · exact hold
  · exact absurd hi (hdisjoint i hspan)

theorem Torn.mixed (htorn : Torn span data before after)
    (hbefore : Mixed first second before) (hdata : Mixed first second data) :
    Mixed first second after := by
  intro i
  rcases htorn i with hold | ⟨-, hnew⟩
  · rw [hold]
    exact hbefore i
  · rw [hnew]
    exact hdata i

theorem Torn.intact (htorn : Torn span data before after)
    (hdisjoint : ∀ i ∈ span, i ∉ region) (hintact : Intact first second region before) :
    Intact first second region after := by
  have hsame := htorn.eqOn hdisjoint
  rcases hintact with hfirst | hsecond
  · exact .inl (hsame.trans hfirst)
  · exact .inr (hsame.trans hsecond)

theorem mixed_left : Mixed first second first := fun _ => .inl rfl

theorem mixed_right : Mixed first second second := fun _ => .inr rfl

theorem Mixed.eq_of_agree {image : ι → β} (hmixed : Mixed first second image) {i : ι}
    (hagree : first i = second i) : image i = first i := by
  rcases hmixed i with hfirst | hsecond
  · exact hfirst
  · rw [hsecond, hagree]

end TornWrite
