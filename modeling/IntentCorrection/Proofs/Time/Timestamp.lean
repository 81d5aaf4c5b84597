import IntentCorrection.Proofs.Text.Decimal
import IntentCorrection.Time.Timestamp

namespace IntentCorrection.Timestamp

open Text

theorem readFraction_fractionText {n : Nat} (hn : n < 10 ^ 9) {r : List Char}
    (hr : ∀ c t, r = c :: t → c ≠ '.' ∧ c.isDigit = false) :
    readFraction (fractionText n ++ r) = some (n, r) := by
  by_cases hzero : n = 0
  · subst hzero
    rw [fractionText, if_pos rfl, List.nil_append, readFraction]
    rintro t rfl
    exact (hr '.' t rfl).1 rfl
  · have hfill := take_dropTrailingZeros (fixedDigits 9 n)
    rw [length_fixedDigits] at hfill
    have hvalue : decimalValue 0 (fixedDigits 9 n) = n := by
      rw [decimalValue_fixedDigits, Nat.mul_zero, Nat.zero_add, Nat.mod_eq_of_lt hn]
    have hnil : dropTrailingZeros (fixedDigits 9 n) ≠ [] := by
      intro hnil
      rw [hnil] at hfill
      rw [← hfill] at hvalue
      exact hzero hvalue.symm
    have hall : ∀ c ∈ dropTrailingZeros (fixedDigits 9 n), c.isDigit = true := by
      intro c hc
      obtain ⟨k, hk⟩ := dropTrailingZeros_append (fixedDigits 9 n)
      exact isDigit_of_mem_fixedDigits (hk ▸ List.mem_append_left _ hc)
    have hrest : r.takeWhile Char.isDigit = [] ∧ r.dropWhile Char.isDigit = r := by
      cases r with
      | nil => exact ⟨rfl, rfl⟩
      | cons c t => simp [(hr c t rfl).2]
    rw [fractionText, if_neg hzero, List.cons_append, readFraction]
    simp only [List.takeWhile_append_of_pos hall, List.dropWhile_append_of_pos hall, hrest, List.append_nil, hfill,
      List.isEmpty_iff, hnil, if_false]
    exact congrArg (fun m ↦ some (m, r)) hvalue

theorem expect_cons (c : Char) (r : List Char) : expect c (c :: r) = some r := if_pos rfl

theorem readOffset_digits (sign : Char) {hour minute : Nat} (hhour : hour ≤ 23) (hminute : minute ≤ 59) :
    readOffset (sign :: (fixedDigits 2 hour ++ ':' :: fixedDigits 2 minute)) =
      if sign = '+' then some (60 * (hour : Int) + minute)
      else if sign = '-' then some (-(60 * (hour : Int) + minute))
      else none := by
  have hrest : fixedDigits 2 hour ++ ':' :: fixedDigits 2 minute ≠ [] :=
    List.append_ne_nil_of_right_ne_nil _ (List.cons_ne_nil _ _)
  have hread := readDigits_fixedDigits (show minute < 10 ^ 2 by omega) []
  rw [List.append_nil] at hread
  unfold readOffset
  split
  · rename_i heq
    exact absurd (List.cons.inj heq).2 hrest
  · rename_i heq
    exact absurd (List.cons.inj heq).2 hrest
  · rename_i heq
    obtain ⟨rfl, rfl⟩ := List.cons.inj heq
    have hlimits : ¬(decide (23 < hour) || decide (59 < minute) || !List.isEmpty ([] : List Char)) = true := by
      rw [decide_eq_false (Nat.not_lt.2 hhour), decide_eq_false (Nat.not_lt.2 hminute)]
      decide
    simp only [readDigits_fixedDigits (show hour < 10 ^ 2 by omega), expect_cons, hread, Option.bind_eq_bind,
      Option.bind_some, if_neg hlimits]
  · rename_i heq
    cases heq

theorem readOffset_offsetText {offset : Int} (h : offset.natAbs < 24 * 60) :
    readOffset (offsetText offset) = some offset := by
  have hhour : offset.natAbs / 60 ≤ 23 := by omega
  have hminute : offset.natAbs % 60 ≤ 59 := by omega
  unfold offsetText
  split
  · rename_i hzero
    rw [hzero]
    rfl
  · rw [List.cons_append, readOffset_digits _ hhour hminute]
    split
    · rw [if_neg (by decide), if_pos rfl]
      refine congrArg some ?_
      omega
    · rw [if_pos rfl]
      refine congrArg some ?_
      omega

theorem daysInMonth_le (year month : Nat) : daysInMonth year month ≤ 31 := by
  unfold daysInMonth
  split
  · split <;> decide
  · split <;> decide

/-- An offset does not go on with a fraction. -/
theorem offsetText_lead {offset : Int} {c : Char} {t : List Char} (h : offsetText offset = c :: t) :
    c ≠ '.' ∧ c.isDigit = false := by
  unfold offsetText at h
  split at h
  · cases h
    decide
  · split at h
    · cases h
      decide
    · cases h
      decide

theorem parse?_text (t : Timestamp) : parse? t.text = some t := by
  obtain ⟨⟨year, month, day, hdate⟩, ⟨hour, minute, second, nanosecond, htime⟩, offset, hoffset⟩ := t
  have hfraction : readFraction (fractionText nanosecond ++ offsetText offset) =
      some (nanosecond, offsetText offset) :=
    readFraction_fractionText htime.2.2.2 fun _ _ hc ↦ offsetText_lead hc
  have hday : day < 10 ^ 2 := by
    have := daysInMonth_le year month
    omega
  have hyear : year < 10 ^ 4 := by omega
  have hmonth : month < 10 ^ 2 := by omega
  have hhour : hour < 10 ^ 2 := by omega
  have hminute : minute < 10 ^ 2 := by omega
  have hsecond : second < 10 ^ 2 := by omega
  have hleap : ¬second = 60 := by omega
  have hseparator : ¬127 < 'T'.toNat := by decide
  have htext : text ⟨⟨year, month, day, hdate⟩, ⟨hour, minute, second, nanosecond, htime⟩, offset, hoffset⟩ =
      fixedDigits 4 year ++ '-' :: (fixedDigits 2 month ++ '-' :: (fixedDigits 2 day ++
        'T' :: (fixedDigits 2 hour ++ ':' :: (fixedDigits 2 minute ++ ':' :: (fixedDigits 2 second ++
          (fractionText nanosecond ++ offsetText offset)))))) := by
    simp only [text, List.append_assoc, List.cons_append]
  rw [htext]
  -- Step by step, since the simplifier takes very long on so many nested binds.
  refine Option.bind_eq_some_iff.2 ⟨_, readDigits_fixedDigits hyear _, ?_⟩
  refine Option.bind_eq_some_iff.2 ⟨_, expect_cons '-' _, ?_⟩
  refine Option.bind_eq_some_iff.2 ⟨_, readDigits_fixedDigits hmonth _, ?_⟩
  refine Option.bind_eq_some_iff.2 ⟨_, expect_cons '-' _, ?_⟩
  refine Option.bind_eq_some_iff.2 ⟨_, readDigits_fixedDigits hday _, ?_⟩
  refine Option.bind_eq_some_iff.2 ⟨_, rfl, ?_⟩
  refine Option.bind_eq_some_iff.2 ⟨_, readDigits_fixedDigits hhour _, ?_⟩
  refine Option.bind_eq_some_iff.2 ⟨_, expect_cons ':' _, ?_⟩
  refine Option.bind_eq_some_iff.2 ⟨_, readDigits_fixedDigits hminute _, ?_⟩
  refine Option.bind_eq_some_iff.2 ⟨_, expect_cons ':' _, ?_⟩
  refine Option.bind_eq_some_iff.2 ⟨_, readDigits_fixedDigits hsecond _, ?_⟩
  refine Option.bind_eq_some_iff.2 ⟨_, hfraction, ?_⟩
  refine Option.bind_eq_some_iff.2 ⟨_, readOffset_offsetText hoffset, ?_⟩
  refine Option.bind_eq_some_iff.2 ⟨_, dif_pos hdate, ?_⟩
  rw [if_neg hseparator, if_neg hleap]
  refine Option.bind_eq_some_iff.2 ⟨_, dif_pos htime, ?_⟩
  exact dif_pos hoffset

end IntentCorrection.Timestamp
