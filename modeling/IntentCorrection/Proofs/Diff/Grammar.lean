import IntentCorrection.Diff.Path
import IntentCorrection.Diff.Validation
import IntentCorrection.Proofs.Text.Blank

namespace IntentCorrection

namespace Diff

open Text

variable {cs : List Char} {key text : String} {fault : DiffFault}

/-- `[+-*/] blank* [0-9]+`, from end to end. -/
def RelativeOperation (cs : List Char) : Prop :=
  ∃ sign blanks digits, cs = sign :: (blanks ++ digits) ∧ sign ∈ ['+', '-', '*', '/'] ∧
    (∀ c ∈ blanks, isBlank c = true) ∧ digits ≠ [] ∧ ∀ c ∈ digits, c.isDigit = true

/-- Begins with `[A-Za-z_] [A-Za-z0-9_.]* blank* (`. -/
def FunctionCall (cs : List Char) : Prop :=
  ∃ first name blanks rest, cs = first :: (name ++ (blanks ++ '(' :: rest)) ∧ (first.isAlpha = true ∨ first = '_') ∧
    (∀ c ∈ name, c.isAlphanum = true ∨ c = '_' ∨ c = '.') ∧ ∀ c ∈ blanks, isBlank c = true

/-- Once it is trimmed, the text is an instruction and no value. -/
def Forbidden (text : String) : Prop :=
  ∃ core, Trims text.toList core ∧ (RelativeOperation core ∨ FunctionCall core ∨ "__import__".toList <:+: core)

theorem isRelativeOperation_iff : isRelativeOperation cs = true ↔ RelativeOperation cs := by
  constructor
  · intro h
    cases cs with
    | nil => cases h
    | cons sign cs =>
      obtain ⟨blanks, hsplit, hblank⟩ := trimStart_split cs
      simp only [isRelativeOperation, Bool.and_eq_true, Bool.or_eq_true, decide_eq_true_eq, Bool.not_eq_true',
        List.isEmpty_eq_false_iff, List.all_eq_true] at h
      obtain ⟨hsign, hne, hdigits⟩ := h
      exact ⟨sign, blanks, trimStart cs, by rw [← hsplit], by grind, hblank, hne, hdigits⟩
  · rintro ⟨sign, blanks, digits, rfl, hsign, hblank, hne, hdigits⟩
    have hstart : trimStart (blanks ++ digits) = digits :=
      dropWhile_exact hblank fun c hc ↦ isBlank_of_isDigit (hdigits c (List.mem_of_mem_head? hc))
    simp only [isRelativeOperation, hstart]
    grind

theorem continuesName_iff {c : Char} : continuesName c = true ↔ c.isAlphanum = true ∨ c = '_' ∨ c = '.' := by
  simp [continuesName, or_assoc]

theorem code_of_continuesName {c : Char} (h : continuesName c = true) : 0x2E ≤ c.toNat ∧ c.toNat ≤ 0x7A := by
  rcases continuesName_iff.1 h with h | rfl | rfl
  · delta Char.isAlphanum Char.isAlpha Char.isUpper Char.isLower Char.isDigit at h
    simp only [Bool.or_eq_true, Bool.and_eq_true, decide_eq_true_eq, ge_iff_le, UInt32.le_iff_toNat_le,
      Char.toNat_val] at h
    change (0x41 ≤ c.toNat ∧ c.toNat ≤ 0x5A ∨ 0x61 ≤ c.toNat ∧ c.toNat ≤ 0x7A) ∨ 0x30 ≤ c.toNat ∧ c.toNat ≤ 0x39 at h
    omega
  · decide
  · decide

theorem continuesName_of_isBlank {c : Char} (h : isBlank c = true) : continuesName c = false := by
  refine Bool.eq_false_iff.2 fun hname ↦ ?_
  have hblank := code_of_isBlank h
  have hcode := code_of_continuesName hname
  omega

theorem isFunctionCall_iff : isFunctionCall cs = true ↔ FunctionCall cs := by
  constructor
  · intro h
    cases cs with
    | nil => cases h
    | cons first cs =>
      obtain ⟨blanks, hsplit, hblank⟩ := trimStart_split (cs.dropWhile continuesName)
      simp only [isFunctionCall, startsName, Bool.and_eq_true, Bool.or_eq_true, decide_eq_true_eq] at h
      obtain ⟨hfirst, hopen⟩ := h
      obtain ⟨rest, hrest⟩ := List.head?_eq_some_iff.1 hopen
      refine ⟨first, cs.takeWhile continuesName, blanks, rest, ?_, hfirst,
        fun c hc ↦ continuesName_iff.1 (List.mem_takeWhile_imp hc), hblank⟩
      rw [← hrest, ← hsplit, List.takeWhile_append_dropWhile]
  · rintro ⟨first, name, blanks, rest, rfl, hfirst, hname, hblank⟩
    have hdrop : (name ++ (blanks ++ '(' :: rest)).dropWhile continuesName = blanks ++ '(' :: rest := by
      -- The name goes on as far as it can: neither a blank nor the parenthesis is part of one.
      refine dropWhile_exact (fun c hc ↦ continuesName_iff.2 (hname c hc)) fun c hc ↦ ?_
      cases blanks with
      | nil =>
        obtain rfl := Option.some.inj hc
        decide
      | cons b blanks =>
        obtain rfl := Option.some.inj hc
        exact continuesName_of_isBlank (hblank b List.mem_cons_self)
    have hstart : trimStart (blanks ++ '(' :: rest) = '(' :: rest :=
      dropWhile_exact hblank fun c hc ↦ by
        obtain rfl := Option.some.inj hc
        decide
    simp [isFunctionCall, startsName, hdrop, hstart, hfirst]

theorem textFault?_eq_none : textFault? key text = none ↔ ¬Forbidden text := by
  have hforbidden : Forbidden text ↔ isRelativeOperation (trim text.toList) = true ∨
      isFunctionCall (trim text.toList) = true ∨ Text.contains codeMarker (trim text.toList) = true := by
    simp only [Forbidden, trims_iff, exists_eq_left', isRelativeOperation_iff, isFunctionCall_iff, contains_iff]
    rfl
  rw [hforbidden]
  unfold textFault?
  grind

theorem key_of_textFault? (h : textFault? key text = some fault) : fault.key = some key := by
  unfold textFault? at h
  grind [DiffFault.key]

def ProperKey (key : String) : Prop := ∀ segment ∈ Path.segments key, segment ≠ ""

def HasGap (cs : List Char) : Prop := cs.getLast? = some '.' ∨ ['.', '.'] <:+: cs

theorem hasGap_dot : HasGap ('.' :: cs) ↔ cs = [] ∨ cs.head? = some '.' ∨ HasGap cs := by
  cases cs with
  | nil => simp [HasGap]
  | cons c cs => simp [HasGap, List.infix_cons_iff (a := '.')]; grind

theorem hasGap_cons {c : Char} (hc : c ≠ '.') : HasGap (c :: cs) ↔ HasGap cs := by
  cases cs with
  | nil => simp [HasGap, List.infix_cons_iff, hc, hc.symm]
  | cons c' cs => simp [HasGap, List.infix_cons_iff (a := c), hc.symm]

theorem nil_mem_splitDots (cs : List Char) :
    ([] ∈ Path.splitDots cs ↔ cs = [] ∨ cs.head? = some '.' ∨ HasGap cs) ∧
      ([] ∈ (Path.splitDots cs).tail ↔ HasGap cs) := by
  induction cs with
  | nil => simp [Path.splitDots, HasGap]
  | cons c cs ih =>
    obtain ⟨ihall, ihtail⟩ := ih
    by_cases hc : c = '.'
    · subst hc
      simp [Path.splitDots, hasGap_dot, ihall]
    · obtain ⟨s, r, hsplit⟩ := List.exists_cons_of_ne_nil (Path.splitDots_ne_nil cs)
      rw [hsplit, List.tail_cons] at ihtail
      simp [Path.splitDots, hc, hsplit, hasGap_cons hc, ihtail]

theorem properKey_iff : ProperKey key ↔ [] ∉ Path.splitDots key.toList := by
  unfold ProperKey Path.segments
  rw [List.forall_mem_map]
  refine ⟨fun h hnil ↦ h [] hnil rfl, fun h segment hmem hempty ↦ h ?_⟩
  rw [← String.toList_eq_nil_iff, String.toList_ofList] at hempty
  exact hempty ▸ hmem

theorem keyFault?_eq_none : keyFault? key = none ↔ ProperKey key := by
  have hempty : key.isEmpty = true ↔ key.toList = [] := by
    rw [String.isEmpty_iff, String.toList_eq_nil_iff]
  rw [properKey_iff, (nil_mem_splitDots _).1, ← hempty]
  unfold keyFault? hasBadDots HasGap
  rw [← contains_iff]
  grind

theorem key_of_keyFault? (h : keyFault? key = some fault) : fault.key = some key := by
  unfold keyFault? at h
  split at h
  · rename_i hempty
    rw [String.isEmpty_iff.1 hempty]
    cases h
    rfl
  · split at h
    · cases h
      rfl
    · cases h

end Diff

end IntentCorrection
