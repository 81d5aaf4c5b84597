namespace IntentCorrection.Text

def atMost : List Char → List Char → Bool
  | [], _ => true
  | _ :: _, [] => false
  | a :: s, b :: t => if a = b then atMost s t else a.toNat < b.toNat

theorem toNat_ne {a b : Char} (h : a ≠ b) : a.toNat ≠ b.toNat :=
  fun e ↦ h (Char.toNat_inj.1 e)

theorem atMost_total (s t : List Char) : atMost s t = true ∨ atMost t s = true := by
  induction s generalizing t with
  | nil => exact .inl rfl
  | cons a s ih =>
    cases t with
    | nil => exact .inr rfl
    | cons b t =>
      by_cases h : a = b
      · simpa [atMost, h] using ih t
      · have := toNat_ne h
        simp only [atMost, h, Ne.symm h, if_false, decide_eq_true_eq]
        omega

theorem atMost_antisymm {s t : List Char} (h : atMost s t = true) (h' : atMost t s = true) : s = t := by
  induction s generalizing t with
  | nil => cases t <;> simp_all [atMost]
  | cons a s ih =>
    cases t with
    | nil => simp [atMost] at h
    | cons b t =>
      by_cases hab : a = b
      · subst hab
        simp only [atMost, if_true] at h h'
        rw [ih h h']
      · simp only [atMost, hab, Ne.symm hab, if_false, decide_eq_true_eq] at h h'
        omega

theorem atMost_trans {s t u : List Char} (h : atMost s t = true) (h' : atMost t u = true) :
    atMost s u = true := by
  induction s generalizing t u with
  | nil => rfl
  | cons a s ih =>
    cases t with
    | nil => simp [atMost] at h
    | cons b t =>
      cases u with
      | nil => simp [atMost] at h'
      | cons c u =>
        by_cases hab : a = b
        · subst hab
          by_cases hac : a = c
          · subst hac
            simp only [atMost, if_true] at h h' ⊢
            exact ih h h'
          · simpa [atMost, hac] using h'
        · simp only [atMost, hab, if_false, decide_eq_true_eq] at h
          by_cases hbc : b = c
          · subst hbc
            simpa [atMost, hab] using h
          · simp only [atMost, hbc, if_false, decide_eq_true_eq] at h'
            have hac : a ≠ c := by
              rintro rfl
              omega
            simp only [atMost, hac, if_false, decide_eq_true_eq]
            omega

end IntentCorrection.Text
