import IntentCorrection.Json.Reader
import IntentCorrection.Proofs.Number.Text

namespace IntentCorrection.Json

/-- What may stand behind a document: nothing, a blank, a comma or a closing bracket. -/
def Follows (r : List Char) : Prop :=
  ∀ c t, r = c :: t → isSpace c = true ∨ c = ',' ∨ c = ']' ∨ c = '}'

theorem Follows.ne {c d : Char} {t : List Char} (h : Follows (c :: t))
    (hd : isSpace d = false ∧ d ≠ ',' ∧ d ≠ ']' ∧ d ≠ '}') : c ≠ d := by
  rintro rfl
  have := h c t rfl
  simp_all

theorem Follows.not_isDigit {c : Char} {t : List Char} (h : Follows (c :: t)) : c.isDigit = false := by
  rcases h c t rfl with h | rfl | rfl | rfl
  · simp only [isSpace, Bool.or_eq_true, decide_eq_true_eq] at h
    rcases h with ((rfl | rfl) | rfl) | rfl <;> rfl
  all_goals rfl

section Append

variable {cs r s : List Char} {ds : List Nat} {negative : Bool} {e : Option Int}

theorem digits_append (hr : Follows r) (cs : List Char) :
    digits (cs ++ r) = ((digits cs).1, (digits cs).2 ++ r) := by
  induction cs with
  | nil =>
    cases r with
    | nil => rfl
    | cons c t => simp [digits, hr.not_isDigit]
  | cons c cs ih =>
    simp only [digits, List.cons_append, List.takeWhile_cons, List.dropWhile_cons, Prod.mk.injEq] at ih ⊢
    split <;> simp_all

theorem digits1?_append (hr : Follows r) (h : digits1? cs = some (ds, s)) :
    digits1? (cs ++ r) = some (ds, s ++ r) := by
  unfold digits1? at h ⊢
  rw [digits_append hr]
  revert h
  rcases digits cs with ⟨_ | ⟨d, ds⟩, s⟩ <;> simp +contextual

theorem fraction?_append (hr : Follows r) {f : Option (List Nat)} (h : fraction? cs = some (f, s)) :
    fraction? (cs ++ r) = some (f, s ++ r) := by
  match cs with
  | [] =>
    cases h
    cases r with
    | nil => rfl
    | cons c t => simp [fraction?, hr.ne (d := '.') (by decide)]
  | c :: cs =>
    by_cases hc : c = '.'
    · subst hc
      simp only [List.cons_append, fraction?, Option.map_eq_some_iff] at h ⊢
      obtain ⟨⟨ds, s'⟩, hds, he⟩ := h
      cases he
      exact ⟨_, digits1?_append hr hds, rfl⟩
    · obtain ⟨rfl, rfl⟩ : none = f ∧ c :: cs = s := by simpa [fraction?, hc] using h
      simp [fraction?, hc]

theorem exponentDigits?_append (hr : Follows r) (h : exponentDigits? negative cs = some (e, s)) :
    exponentDigits? negative (cs ++ r) = some (e, s ++ r) := by
  simp only [exponentDigits?, Option.map_eq_some_iff] at h ⊢
  obtain ⟨⟨ds, s'⟩, hds, he⟩ := h
  cases he
  exact ⟨_, digits1?_append hr hds, rfl⟩

theorem exponent?_append (hr : Follows r) (h : exponent? cs = some (e, s)) :
    exponent? (cs ++ r) = some (e, s ++ r) := by
  match cs with
  | [] =>
    cases h
    cases r with
    | nil => rfl
    | cons c t => simp [exponent?, hr.ne (d := 'e') (by decide), hr.ne (d := 'E') (by decide)]
  | c :: cs =>
    by_cases hc : c = 'e' ∨ c = 'E'
    · simp only [exponent?, List.cons_append, hc, if_true] at h ⊢
      match cs with
      | [] => cases h
      | d :: cs =>
        split at h
        · rename_i heq
          cases heq
          exact exponentDigits?_append hr h
        · rename_i heq
          cases heq
          exact exponentDigits?_append hr h
        · rename_i hplus hminus
          have hplus : d ≠ '+' := fun hd ↦ hplus cs (by rw [hd])
          have hminus : d ≠ '-' := fun hd ↦ hminus cs (by rw [hd])
          simpa [hplus, hminus] using exponentDigits?_append hr h
    · obtain ⟨rfl, rfl⟩ : none = e ∧ c :: cs = s := by simpa [exponent?, hc] using h
      simp [exponent?, hc]

theorem literal?_append (hr : Follows r) {l : NumberLiteral} (h : literal? negative cs = some (l, s)) :
    literal? negative (cs ++ r) = some (l, s ++ r) := by
  simp only [literal?, Option.bind_eq_bind, Option.bind_eq_some_iff] at h ⊢
  obtain ⟨⟨whole, s₁⟩, hwhole, h⟩ := h
  refine ⟨_, digits1?_append hr hwhole, ?_⟩
  split at h
  · cases h
  rename_i hzero
  rw [if_neg hzero]
  simp only [Option.bind_eq_some_iff] at h ⊢
  obtain ⟨⟨f, s₂⟩, hf, ⟨e, s₃⟩, he, h⟩ := h
  cases h
  exact ⟨_, fraction?_append hr hf, _, exponent?_append hr he, rfl⟩

theorem digits1?_suffix (h : digits1? cs = some (ds, s)) : s <:+ cs := by
  unfold digits1? at h
  split at h
  · cases h
  · cases h
    exact List.dropWhile_suffix _

theorem fraction?_suffix {f : Option (List Nat)} (h : fraction? cs = some (f, s)) : s <:+ cs := by
  unfold fraction? at h
  split at h
  · obtain ⟨⟨ds, s'⟩, hds, he⟩ := Option.map_eq_some_iff.1 h
    cases he
    exact (digits1?_suffix hds).trans (List.suffix_cons _ _)
  · cases h
    exact List.suffix_rfl

theorem exponent?_suffix (h : exponent? cs = some (e, s)) : s <:+ cs := by
  have hdigits : ∀ {negative cs}, exponentDigits? negative cs = some (e, s) → s <:+ cs := by
    intro negative cs h
    obtain ⟨⟨ds, s'⟩, hds, he⟩ := Option.map_eq_some_iff.1 h
    cases he
    exact digits1?_suffix hds
  unfold exponent? at h
  split at h
  · split at h
    · refine List.IsSuffix.trans ?_ (List.suffix_cons _ _)
      split at h
      · exact (hdigits h).trans (List.suffix_cons _ _)
      · exact (hdigits h).trans (List.suffix_cons _ _)
      · exact hdigits h
    · cases h
      exact List.suffix_rfl
  · cases h
    exact List.suffix_rfl

theorem literal?_suffix {l : NumberLiteral} (h : literal? negative cs = some (l, s)) : s <:+ cs := by
  simp only [literal?, Option.bind_eq_bind, Option.bind_eq_some_iff] at h
  obtain ⟨⟨whole, s₁⟩, hwhole, h⟩ := h
  split at h
  · cases h
  simp only [Option.bind_eq_some_iff] at h
  obtain ⟨⟨f, s₂⟩, hf, ⟨e, s₃⟩, he, h⟩ := h
  cases h
  exact ((exponent?_suffix he).trans (fraction?_suffix hf)).trans (digits1?_suffix hwhole)

end Append

theorem isSpace_of_isMark {c : Char} (h : Number.isMark c = true) : isSpace c = false := by
  have hne : ∀ d, Number.isMark d = false → c ≠ d := fun d hd ↦ Number.isMark_ne h hd
  simp [isSpace, hne ' ' rfl, hne '\n' rfl, hne '\t' rfl, hne '\r' rfl]

theorem document?_mark {c : Char} (h : Number.isMark c = true) (fuel depth : Nat) (t : List Char) :
    document? (fuel + 1) depth (c :: t) =
      (if c = '-' then literal? true t else literal? false (c :: t)).map fun l ↦ (ofLiteral l.1, l.2) := by
  have hne : ∀ d, Number.isMark d = false → c ≠ d := fun d hd ↦ Number.isMark_ne h hd
  have hskip : skipSpace (c :: t) = c :: t := by simp [skipSpace, isSpace_of_isMark h]
  by_cases hminus : c = '-'
  · subst hminus
    simp [document?, hskip]
  · simp [document?, hskip, hminus, hne 'n' rfl, hne 't' rfl, hne 'f' rfl, hne '"' rfl, hne '[' rfl, hne '{' rfl]

end IntentCorrection.Json

namespace IntentCorrection.Number

open Json

def ReadsBack (n : Number) : Prop := Json.parse n.text = some (.number n)

theorem ReadsBack.document? {n : Number} (h : n.ReadsBack) {r : List Char} (hr : Follows r) (fuel depth : Nat) :
    Json.document? (fuel + 1) depth (n.text ++ r) = some (.number n, r) := by
  obtain ⟨hne, hmarks⟩ := n.text_marks
  obtain ⟨c, t, htext⟩ := List.exists_cons_of_ne_nil hne
  have hc : isMark c = true := hmarks c (by simp [htext])
  unfold ReadsBack parse at h
  rw [htext, document?_mark hc] at h
  simp only [Option.bind_eq_bind, Option.bind_eq_some_iff, Option.map_eq_some_iff] at h
  obtain ⟨-, ⟨⟨l, s⟩, hl, rfl⟩, h⟩ := h
  have hs : s <:+ n.text := by
    rw [htext]
    split at hl
    · exact (literal?_suffix hl).trans (List.suffix_cons _ _)
    · exact literal?_suffix hl
  split at h
  case isFalse => cases h
  rename_i hend
  obtain rfl : s = [] := by
    cases s with
    | nil => rfl
    | cons d s =>
      have hd := isSpace_of_isMark (hmarks d (hs.mem List.mem_cons_self))
      simp [skipSpace, hd] at hend
  have hn : ofLiteral l = .number n := by simpa using h
  rw [htext, List.cons_append, document?_mark hc]
  split at hl
  · rename_i hminus
    rw [if_pos hminus, literal?_append hr hl, ← hn]
    rfl
  · rename_i hminus
    rw [if_neg hminus, ← List.cons_append, literal?_append hr hl, ← hn]
    rfl

theorem head?_toDigits {n : Nat} (h : 0 < n) : (Nat.toDigits 10 n).head? ≠ some '0' := by
  induction n using Nat.strongRecOn with
  | ind n ih =>
    rw [Nat.toDigits_eq_if (by decide)]
    split
    · simp [Nat.digitChar_eq_zero]
      omega
    · have hhead := ih (n / 10) (by omega) (by omega)
      rwa [List.head?_append, Option.or_of_isSome]
      rw [List.isSome_head?]
      exact Nat.toDigits_ne_nil

/-- The digits of a natural number are one literal, and it denotes that number. -/
theorem literal?_toDigits {n : Nat} (h : n < Word.size64) :
    ∃ l, literal? false (Nat.toDigits 10 n) = some (l, []) ∧ l.number? = some (.integer n) := by
  have hall : ∀ c ∈ Nat.toDigits 10 n, c.isDigit = true := fun c hc ↦
    Nat.isDigit_of_mem_toDigits (by decide) (by decide) hc
  have hdigits : digits (Nat.toDigits 10 n) = ((Nat.toDigits 10 n).map (·.toNat - 48), []) := by
    have htake := @List.takeWhile_append_of_pos _ _ _ [] hall
    have hdrop := @List.dropWhile_append_of_pos _ _ _ [] hall
    rw [List.append_nil, List.takeWhile_nil, List.append_nil] at htake
    rw [List.append_nil, List.dropWhile_nil] at hdrop
    rw [digits, htake, hdrop]
  have hvalue : NumberLiteral.natural ((Nat.toDigits 10 n).map (·.toNat - 48)) = n := by
    rw [NumberLiteral.natural, List.foldl_map]
    have hread := Nat.ofDigitChars_toDigits (b := 10) (n := n) (by decide) (by decide)
    rwa [Nat.ofDigitChars_eq_foldl] at hread
  refine ⟨⟨false, (Nat.toDigits 10 n).map (·.toNat - 48), none, none⟩, ?_, ?_⟩
  · have hzero : ¬(((Nat.toDigits 10 n).map (·.toNat - 48)).head? = some 0 ∧
        ((Nat.toDigits 10 n).map (·.toNat - 48)).length ≠ 1) := by
      rintro ⟨hhead, hlength⟩
      obtain ⟨c, hc, hvalue⟩ : ∃ c, (Nat.toDigits 10 n).head? = some c ∧ c.toNat - 48 = 0 := by
        simpa using hhead
      have hdigit := Char.isDigit_iff_toNat.1 (hall c (List.mem_of_head? hc))
      have hc0 : c = '0' := Char.toNat_inj.1 (Nat.le_antisymm (Nat.le_of_sub_eq_zero hvalue) hdigit.1)
      rcases Nat.eq_zero_or_pos n with rfl | hpos
      · exact hlength rfl
      · exact head?_toDigits hpos (by rw [hc, hc0])
    have hone : digits1? (Nat.toDigits 10 n) = some ((Nat.toDigits 10 n).map (·.toNat - 48), []) := by
      obtain ⟨c, t, htext⟩ := List.exists_cons_of_ne_nil (Nat.toDigits_ne_nil (n := n) (b := 10))
      rw [digits1?, hdigits, htext]
      rfl
    simp only [literal?, hone, Option.bind_eq_bind, Option.bind_some, if_neg hzero]
    rfl
  · simp [NumberLiteral.number?, hvalue, h]

theorem readsBack_natural {n : Nat} (h : n < Word.size64) : (integer n).ReadsBack := by
  obtain ⟨l, hl, hn⟩ := literal?_toDigits h
  obtain ⟨c, t, htext⟩ := List.exists_cons_of_ne_nil (Nat.toDigits_ne_nil (n := n) (b := 10))
  have hc : c.isDigit = true := by
    refine Nat.isDigit_of_mem_toDigits (b := 10) (n := n) (by decide) (by decide) ?_
    rw [htext]
    exact List.mem_cons_self
  have hminus : c ≠ '-' := by
    rintro rfl
    cases hc
  unfold ReadsBack parse
  have hmark : isMark c = true := by simp [isMark, hc]
  have htext' : (integer (n : Int)).text = c :: t := by
    rw [text, Int.toString_eq_repr, Int.repr_eq_if, if_pos (Int.natCast_nonneg n), Nat.toList_repr, Int.toNat_natCast,
      htext]
  have hliteral : Json.ofLiteral l = .number (.integer n) := by
    rw [Json.ofLiteral, hn]
    rfl
  rw [htext', document?_mark hmark, if_neg hminus, ← htext, hl, Option.map_some, hliteral]
  rfl

end IntentCorrection.Number
