import IntentCorrection.Text.Blank
import Mathlib.Data.List.TakeWhile

namespace IntentCorrection.Text

variable {cs core front rest word : List Char} {p : Char → Bool}

/-- Skipping stops where the part to skip is over. -/
theorem dropWhile_exact (hfront : ∀ c ∈ front, p c = true) (hrest : ∀ c ∈ rest.head?, p c = false) :
    (front ++ rest).dropWhile p = rest := by
  rw [List.dropWhile_append_of_pos hfront]
  cases rest with
  | nil => rfl
  | cons c rest => exact List.dropWhile_cons_of_neg (by simp [hrest c rfl])

theorem head?_dropWhile {c : Char} (h : c ∈ (cs.dropWhile p).head?) : p c = false := by
  have hhead := List.head?_dropWhile_not p cs
  rw [Option.mem_def.1 h] at hhead
  exact hhead

theorem contains_iff : contains word cs = true ↔ word <:+: cs := by
  induction cs with
  | nil => simp [contains]
  | cons c cs ih => simp [contains, ih, List.infix_cons_iff]

/-- Without the blanks at its ends, and with no more at them, a text is `core`. -/
structure Trims (cs core : List Char) : Prop where
  around : ∃ before after, cs = before ++ (core ++ after) ∧ (∀ c ∈ before, isBlank c = true) ∧
    ∀ c ∈ after, isBlank c = true
  first : ∀ c ∈ core.head?, isBlank c = false
  last : ∀ c ∈ core.getLast?, isBlank c = false

theorem trimStart_split (cs : List Char) : ∃ before, cs = before ++ trimStart cs ∧ ∀ c ∈ before, isBlank c = true :=
  ⟨cs.takeWhile isBlank, List.takeWhile_append_dropWhile.symm, fun _ hc ↦ List.mem_takeWhile_imp hc⟩

theorem trimEnd_split (cs : List Char) : ∃ after, cs = trimEnd cs ++ after ∧ ∀ c ∈ after, isBlank c = true := by
  obtain ⟨before, hsplit, hblank⟩ := trimStart_split cs.reverse
  refine ⟨before.reverse, ?_, fun c hc ↦ hblank c (List.mem_reverse.1 hc)⟩
  rw [trimEnd, ← List.reverse_append, ← hsplit, List.reverse_reverse]

theorem trims_trim (cs : List Char) : Trims cs (trim cs) := by
  obtain ⟨before, hbefore, hblank⟩ := trimStart_split cs
  obtain ⟨after, hafter, hblank'⟩ := trimEnd_split (trimStart cs)
  refine ⟨⟨before, after, by rw [trim, ← hafter, ← hbefore], hblank, hblank'⟩, fun c hc ↦ ?_, fun c hc ↦ ?_⟩
  · -- What is first after both cuts was first after the cut at the front.
    have hstart : c ∈ (trimStart cs).head? := by
      rw [hafter, List.head?_append, ← trim, Option.mem_def.1 hc]
      rfl
    exact head?_dropWhile hstart
  · rw [trim, trimEnd, List.getLast?_reverse] at hc
    exact head?_dropWhile hc

theorem Trims.trim_eq (h : Trims cs core) : trim cs = core := by
  obtain ⟨⟨before, after, rfl, hbefore, hafter⟩, hfirst, hlast⟩ := h
  by_cases hcore : core = []
  · subst hcore
    have hall : ∀ c ∈ before ++ ([] ++ after), isBlank c = true := fun c hc ↦ by
      rcases List.mem_append.1 hc with hc | hc
      · exact hbefore c hc
      · exact hafter c hc
    rw [trim, trimStart, List.dropWhile_eq_nil_iff.2 hall]
    rfl
  · have hhead : (core ++ after).head? = core.head? := by
      obtain ⟨c, core, rfl⟩ := List.exists_cons_of_ne_nil hcore
      rfl
    have hstart : trimStart (before ++ (core ++ after)) = core ++ after :=
      dropWhile_exact hbefore fun c hc ↦ hfirst c (hhead ▸ hc)
    rw [trim, hstart, trimEnd, List.reverse_append, trimStart, dropWhile_exact, List.reverse_reverse]
    · exact fun c hc ↦ hafter c (List.mem_reverse.1 hc)
    · exact fun c hc ↦ hlast c (by rwa [List.head?_reverse] at hc)

theorem trims_iff : Trims cs core ↔ trim cs = core := ⟨Trims.trim_eq, fun h ↦ h ▸ trims_trim cs⟩

theorem code_of_isBlank {c : Char} (h : isBlank c = true) : c.toNat ≤ 0x20 ∨ 0x85 ≤ c.toNat := by
  simp only [isBlank, Bool.or_eq_true, Bool.and_eq_true, decide_eq_true_eq, beq_iff_eq] at h
  omega

theorem isBlank_of_isDigit {c : Char} (h : c.isDigit = true) : isBlank c = false := by
  refine Bool.eq_false_iff.2 fun hblank ↦ ?_
  have hcode := code_of_isBlank hblank
  rw [Char.isDigit_iff_toNat] at h
  have hbounds : 0x30 ≤ c.toNat ∧ c.toNat ≤ 0x39 := h
  omega

theorem toLower_cases (c : Char) :
    c.toLower = c ∨ (0x41 ≤ c.toNat ∧ c.toNat ≤ 0x5A) ∧ c.toLower.toNat = c.toNat + 32 := by
  unfold Char.toLower
  split
  · rename_i h
    have hbounds : 0x41 ≤ c.toNat ∧ c.toNat ≤ 0x5A := h
    refine .inr ⟨hbounds, ?_⟩
    change (c.val + 32).toNat = c.val.toNat + 32
    rw [UInt32.toNat_add]
    change (c.toNat + 32) % 2 ^ 32 = c.toNat + 32
    omega
  · exact .inl rfl

/-- What is no small letter has one case. -/
theorem eq_of_toLower {c d : Char} (h : c.toLower = d) (hd : d.toNat < 0x61 ∨ 0x7A < d.toNat) : c = d := by
  rcases toLower_cases c with hsame | ⟨hbounds, hcode⟩
  · exact hsame.symm.trans h
  · rw [h] at hcode
    omega

theorem isBlank_toLower (c : Char) : isBlank c.toLower = isBlank c := by
  rcases toLower_cases c with hsame | ⟨hbounds, hcode⟩
  · rw [hsame]
  · have hblank : ∀ d : Char, 0x20 < d.toNat → d.toNat < 0x85 → isBlank d = false := by
      intro d hlow hhigh
      refine Bool.eq_false_iff.2 fun h ↦ ?_
      have hcode := code_of_isBlank h
      omega
    rw [hblank c (by omega) (by omega), hblank c.toLower (by omega) (by omega)]

end IntentCorrection.Text
