import IntentCorrection.Json.Reader
import IntentCorrection.Text.Escaped

namespace IntentCorrection.Json

open Text

theorem hexValue?_hexDigit (n : Nat) : hexValue? (hexDigit n) = some (n % 16) := by
  have hall : ∀ k < 16, hexValue? (Nat.digitChar k) = some k := by decide
  exact hall (n % 16) (Nat.mod_lt n (by decide))

theorem stringUnits_simpleEscape {d : Char} {u : Nat} (hd : simpleEscape? d = some u) (r : List Char) :
    stringUnits ('\\' :: d :: r) = (stringUnits r).map fun us ↦ (u :: us.1, us.2) := by
  have hne : d ≠ 'u' := by
    rintro rfl
    cases hd
  rw [stringUnits]
  · rw [hd]
    cases stringUnits r <;> rfl
  · exact fun _ _ _ _ _ hu _ ↦ hne hu

/-- One escape is one unit, the number of its character. -/
theorem stringUnits_escape (c : Char) (r : List Char) :
    stringUnits (escape c ++ r) = (stringUnits r).map fun us ↦ (c.toNat :: us.1, us.2) := by
  unfold escape
  iterate 7
    split
    · subst_vars
      exact stringUnits_simpleEscape (by decide) r
  split
  · have hzero : hexValue? '0' = some 0 := by decide
    have hunit : c.toNat / 16 % 16 * 16 + c.toNat % 16 = c.toNat := by omega
    simp only [List.cons_append, List.nil_append, stringUnits, hex4?, hzero, hexValue?_hexDigit]
    cases stringUnits r <;> simp [hunit]
  · rename_i hquote hbackslash _ _ _ _ _ hlow
    rw [List.singleton_append, stringUnits]
    · simp only [hlow, hbackslash, decide_false, Bool.or_self, Bool.false_eq_true, if_false]
      cases stringUnits r <;> rfl
    all_goals simp_all

theorem stringUnits_quoted (cs r : List Char) :
    stringUnits (cs.flatMap escape ++ '"' :: r) = some (cs.map Char.toNat, r) := by
  induction cs with
  | nil => rfl
  | cons c cs ih =>
    rw [List.flatMap_cons, List.append_assoc, stringUnits_escape, ih]
    rfl

/-- No character is half of a surrogate pair. -/
theorem charsOfUnits_toNat (cs : List Char) : charsOfUnits (cs.map Char.toNat) = some cs := by
  induction cs with
  | nil => rfl
  | cons c cs ih =>
    have hvalid : c.toNat < 0xD800 ∨ 0xE000 ≤ c.toNat := by
      rcases c.valid with h | h
      · exact .inl h
      · exact .inr h.1
    have hhigh : isHighSurrogate c.toNat = false := by
      simp only [isHighSurrogate]
      grind
    have hlow : isLowSurrogate c.toNat = false := by
      simp only [isLowSurrogate]
      grind
    rw [List.map_cons]
    unfold charsOfUnits
    simp [hhigh, hlow, ih, Char.ofNat_toNat]

theorem textOfUnits_toNat (s : String) : textOfUnits (s.toList.map Char.toNat) = some s := by
  simp [textOfUnits, charsOfUnits_toNat]

end IntentCorrection.Json
