import IntentCorrection.Text.Escaped

namespace IntentCorrection.Text

def hexValue (c : Char) : Nat := if c.isDigit then c.toNat - 48 else c.toNat - 87

theorem hexValue_hexDigit (n : Nat) : hexValue (hexDigit n) = n % 16 := by
  have hall : ∀ k < 16, hexValue (Nat.digitChar k) = k := by decide
  exact hall (n % 16) (Nat.mod_lt n (by decide))

def unescape : List Char → Option (Char × List Char)
  | '\\' :: 'u' :: _ :: _ :: a :: b :: r => some (Char.ofNat (16 * hexValue a + hexValue b), r)
  | '\\' :: 'n' :: r => some ('\n', r)
  | '\\' :: 'r' :: r => some ('\r', r)
  | '\\' :: 't' :: r => some ('\t', r)
  | '\\' :: 'b' :: r => some ('\x08', r)
  | '\\' :: 'f' :: r => some ('\x0c', r)
  | '\\' :: c :: r => some (c, r)
  | '"' :: _ => none
  | c :: r => some (c, r)
  | [] => none

/-- A character stands for itself, or it has an escape of two characters or one by its number. -/
theorem escape_cases (c : Char) :
    (escape c = [c] ∧ c ≠ '"' ∧ c ≠ '\\') ∨
      (∃ d, escape c = ['\\', d] ∧ ∀ r, unescape ('\\' :: d :: r) = some (c, r)) ∨
      escape c = ['\\', 'u', '0', '0', hexDigit (c.toNat / 16), hexDigit c.toNat] ∧ c.toNat < 32 := by
  unfold escape
  iterate 7
    split
    · subst_vars
      exact .inr (.inl ⟨_, rfl, fun _ ↦ rfl⟩)
  split
  · rename_i hlow
    exact .inr (.inr ⟨rfl, hlow⟩)
  · rename_i hquote hbackslash _ _ _ _ _ _
    exact .inl ⟨rfl, hquote, hbackslash⟩

theorem unescape_escape (c : Char) (r : List Char) : unescape (escape c ++ r) = some (c, r) := by
  rcases escape_cases c with ⟨he, hquote, hbackslash⟩ | ⟨d, he, hd⟩ | ⟨he, hlow⟩
  · rw [he]
    unfold unescape
    split <;> simp_all
  · rw [he]
    exact hd r
  · rw [he]
    simp only [List.cons_append, List.nil_append, unescape, hexValue_hexDigit]
    have hn : 16 * (c.toNat / 16 % 16) + c.toNat % 16 = c.toNat := by omega
    rw [hn, Char.ofNat_toNat]

theorem quote_append_inj {s t r r' : List Char} (h : quote s ++ r = quote t ++ r') : s = t ∧ r = r' := by
  have hend : ∀ (c : Char) (x y : List Char), escape c ++ x ≠ '"' :: y := by
    intro c x y he
    have := congrArg unescape he
    rw [unescape_escape] at this
    cases this
  simp only [quote, List.cons_append, List.append_assoc, List.nil_append, List.cons.injEq, true_and] at h
  induction s generalizing t with
  | nil =>
    cases t with
    | nil =>
      simp only [List.flatMap_nil, List.nil_append, List.cons.injEq, true_and] at h
      exact ⟨rfl, h⟩
    | cons b t =>
      rw [List.flatMap_cons, List.append_assoc] at h
      exact absurd h.symm (hend b _ _)
  | cons a s ih =>
    cases t with
    | nil =>
      rw [List.flatMap_cons, List.append_assoc] at h
      exact absurd h (hend a _ _)
    | cons b t =>
      simp only [List.flatMap_cons, List.append_assoc] at h
      have hread := congrArg unescape h
      rw [unescape_escape, unescape_escape] at hread
      obtain ⟨rfl, hrest⟩ := Prod.mk.inj (Option.some.inj hread)
      obtain ⟨rfl, hr⟩ := ih hrest
      exact ⟨rfl, hr⟩

/-- The separators of joined texts stand before all texts but the first. -/
theorem joined_cons (separator t : List Char) (ts : List (List Char)) :
    joined separator (t :: ts) = t ++ ts.flatMap (separator ++ ·) := by
  induction ts generalizing t with
  | nil => simp [joined]
  | cons u ts ih =>
    rw [joined, ih u, List.flatMap_cons]
    · simp
    · simp

end IntentCorrection.Text
