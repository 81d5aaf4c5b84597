import IntentCorrection.Number.Basic

namespace IntentCorrection

def Number.isMark (c : Char) : Bool := c.isDigit || c = '-' || c = '+' || c = '.' || c = 'e'

open Number

theorem Number.isMark_ne {c d : Char} (hc : isMark c = true) (hd : isMark d = false) : c ≠ d := by
  rintro rfl
  rw [hd] at hc
  cases hc

theorem Number.isMark_of_mem_toDigits {n : Nat} {c : Char} (h : c ∈ Nat.toDigits 10 n) :
    isMark c = true := by
  have hd : c.isDigit = true := Nat.isDigit_of_mem_toDigits (by decide) (by decide) h
  simp [isMark, hd]

namespace Binary64

variable {ds : List Char}

theorem isMark_of_mem_positional (hds : ∀ c ∈ ds, isMark c = true) (n : Int) :
    ∀ c ∈ positional ds n, isMark c = true := by
  have hzero : ∀ k, ∀ c ∈ List.replicate k '0', isMark c = true := by
    intro k c hc
    rw [List.eq_of_mem_replicate hc]
    rfl
  intro c hc
  unfold positional at hc
  split at hc
  · simp only [List.mem_cons, List.mem_append] at hc
    rcases hc with rfl | rfl | hc | hc
    · rfl
    · rfl
    · exact hzero _ c hc
    · exact hds c hc
  · dsimp only at hc
    split at hc
    · simp only [List.mem_append, List.mem_cons, List.not_mem_nil, or_false] at hc
      rcases hc with (hc | hc) | rfl | rfl
      · exact hds c hc
      · exact hzero _ c hc
      · rfl
      · rfl
    · simp only [List.mem_append, List.mem_cons] at hc
      rcases hc with hc | rfl | hc
      · exact hds c (List.mem_of_mem_take hc)
      · rfl
      · exact hds c (List.mem_of_mem_drop hc)

theorem isMark_of_mem_scientific (hds : ∀ c ∈ ds, isMark c = true) (e : Int) :
    ∀ c ∈ scientific ds e, isMark c = true := by
  intro c hc
  simp only [scientific, List.mem_append] at hc
  rcases hc with ((hc | hc) | hc) | hc
  · exact hds c (List.mem_of_mem_take hc)
  · split at hc
    · cases hc
    · rcases List.mem_cons.1 hc with rfl | hc
      · rfl
      · exact hds c (List.mem_of_mem_drop hc)
  · split at hc
    all_goals
      simp only [List.mem_cons, List.not_mem_nil, or_false] at hc
      rcases hc with rfl | rfl <;> rfl
  · exact isMark_of_mem_toDigits hc

theorem positional_ne_nil (hds : ds ≠ []) (n : Int) : positional ds n ≠ [] := by
  unfold positional
  split
  · simp
  · dsimp only
    split <;> simp [hds]

theorem scientific_ne_nil (hds : ds ≠ []) (e : Int) : scientific ds e ≠ [] := by
  simp [scientific, hds]

theorem text_marks (x : Binary64) : x.text ≠ [] ∧ ∀ c ∈ x.text, isMark c = true := by
  have hmagnitude : x.magnitudeText ≠ [] ∧ ∀ c ∈ x.magnitudeText, isMark c = true := by
    have hds : ∀ n, ∀ c ∈ Nat.toDigits 10 n, isMark c = true := fun n c ↦ isMark_of_mem_toDigits
    unfold magnitudeText
    split
    · refine ⟨List.cons_ne_nil _ _, fun c hc ↦ ?_⟩
      simp only [List.mem_cons, List.not_mem_nil, or_false] at hc
      rcases hc with rfl | rfl | rfl <;> rfl
    · dsimp only
      split
      · exact ⟨positional_ne_nil Nat.toDigits_ne_nil _, isMark_of_mem_positional (hds _) _⟩
      · exact ⟨scientific_ne_nil Nat.toDigits_ne_nil _, isMark_of_mem_scientific (hds _) _⟩
  unfold text
  split
  · refine ⟨by simp, fun c hc ↦ ?_⟩
    rcases List.mem_cons.1 hc with rfl | hc
    · rfl
    · exact hmagnitude.2 c hc
  · exact hmagnitude

end Binary64

theorem Number.text_marks (n : Number) : n.text ≠ [] ∧ ∀ c ∈ n.text, isMark c = true := by
  cases n with
  | float x => exact x.text_marks
  | integer n =>
    rw [text, Int.toString_eq_repr, Int.repr_eq_if]
    split
    · rw [Nat.toList_repr]
      exact ⟨Nat.toDigits_ne_nil, fun c hc ↦ isMark_of_mem_toDigits hc⟩
    · rw [String.toList_append, Nat.toList_repr]
      refine ⟨by simp, fun c hc ↦ ?_⟩
      rcases List.mem_append.1 hc with hc | hc
      · obtain rfl : c = '-' := by simpa using hc
        rfl
      · exact isMark_of_mem_toDigits hc

end IntentCorrection
