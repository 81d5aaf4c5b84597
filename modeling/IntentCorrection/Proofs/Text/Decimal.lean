import IntentCorrection.Text.Decimal
import Mathlib.Algebra.GroupWithZero.Nat

namespace IntentCorrection.Text

def decimalValue (start : Nat) (cs : List Char) : Nat := cs.foldl (fun n c ↦ 10 * n + digitValue c) start

theorem digitValue_digitChar {d : Nat} (h : d < 10) : digitValue (Nat.digitChar d) = d := by
  have hall : ∀ d < 10, digitValue (Nat.digitChar d) = d := by decide
  exact hall d h

theorem length_fixedDigits (k n : Nat) : (fixedDigits k n).length = k := by
  induction k generalizing n with
  | zero => rfl
  | succ k ih => rw [fixedDigits, List.length_append, ih, List.length_singleton]

theorem isDigit_of_mem_fixedDigits {k n : Nat} {c : Char} (h : c ∈ fixedDigits k n) : c.isDigit = true := by
  induction k generalizing n with
  | zero => cases h
  | succ k ih =>
    rcases List.mem_append.1 h with h | h
    · exact ih h
    · have hall : ∀ d < 10, (Nat.digitChar d).isDigit = true := by decide
      rw [List.mem_singleton.1 h]
      exact hall _ (Nat.mod_lt n (by decide))

theorem decimalValue_fixedDigits (start k n : Nat) :
    decimalValue start (fixedDigits k n) = 10 ^ k * start + n % 10 ^ k := by
  induction k generalizing n with
  | zero => simp [fixedDigits, decimalValue, Nat.mod_one]
  | succ k ih =>
    have hlast : decimalValue start (fixedDigits (k + 1) n) =
        10 * decimalValue start (fixedDigits k (n / 10)) + n % 10 := by
      simp [decimalValue, fixedDigits, digitValue_digitChar (Nat.mod_lt n (by decide))]
    have hmod : n % 10 ^ (k + 1) = n % 10 + 10 * (n / 10 % 10 ^ k) := by
      rw [Nat.pow_succ, Nat.mul_comm, Nat.mod_mul]
    rw [hlast, ih, hmod, Nat.pow_succ]
    grind

theorem readDigits_eq {cs : List Char} (h : ∀ c ∈ cs, c.isDigit = true) (start : Nat) (r : List Char) :
    readDigits cs.length start (cs ++ r) = some (decimalValue start cs, r) := by
  induction cs generalizing start with
  | nil => rfl
  | cons c cs ih =>
    obtain ⟨hc, hcs⟩ := List.forall_mem_cons.1 h
    rw [List.length_cons, List.cons_append, readDigits, if_pos hc, ih hcs]
    rfl

theorem readDigits_fixedDigits {k n : Nat} (h : n < 10 ^ k) (r : List Char) :
    readDigits k 0 (fixedDigits k n ++ r) = some (n, r) := by
  have hread := readDigits_eq (fun c hc ↦ isDigit_of_mem_fixedDigits (k := k) (n := n) hc) 0 r
  rwa [length_fixedDigits, decimalValue_fixedDigits, Nat.mul_zero, Nat.zero_add, Nat.mod_eq_of_lt h] at hread

theorem dropTrailingZeros_append (cs : List Char) :
    ∃ k, dropTrailingZeros cs ++ List.replicate k '0' = cs := by
  have hreverse : ∀ rs : List Char, ∃ k, (rs.dropWhile (· = '0')).reverse ++ List.replicate k '0' = rs.reverse := by
    intro rs
    induction rs with
    | nil => exact ⟨0, rfl⟩
    | cons c rs ih =>
      by_cases hc : c = '0'
      · obtain ⟨k, hk⟩ := ih
        refine ⟨k + 1, ?_⟩
        rw [List.replicate_succ', ← List.append_assoc, List.reverse_cons, hc, ← hk]
        simp
      · exact ⟨0, by simp [hc]⟩
  obtain ⟨k, hk⟩ := hreverse cs.reverse
  exact ⟨k, by rwa [List.reverse_reverse] at hk⟩

/-- Zeros at the end may be left off where the width is known. -/
theorem take_dropTrailingZeros (cs : List Char) :
    (dropTrailingZeros cs ++ List.replicate cs.length '0').take cs.length = cs := by
  obtain ⟨k, hk⟩ := dropTrailingZeros_append cs
  have hlength : cs.length = (dropTrailingZeros cs).length + k := by
    rw [← List.length_replicate (n := k) (a := '0'), ← List.length_append, hk]
  have hzeros : List.replicate cs.length '0' = List.replicate k '0' ++ List.replicate (cs.length - k) '0' := by
    rw [List.replicate_append_replicate]
    congr 1
    omega
  rw [hzeros, ← List.append_assoc, hk, List.take_left']
  rfl

end IntentCorrection.Text
