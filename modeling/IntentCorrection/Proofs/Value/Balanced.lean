import IntentCorrection.Proofs.Number.Text
import IntentCorrection.Proofs.Text.Escaped
import IntentCorrection.Proofs.Value.Induction
import IntentCorrection.Proofs.Value.SortedTexts

namespace IntentCorrection

open Text

inductive Position where
  | outside (depth : Nat)
  | inside (depth : Nat)
  | escaped (depth : Nat)

namespace Position

/-- Reads a character. There is no way on with a backslash outside, or where nothing is open to be closed. -/
def step : Position → Char → Option Position
  | .outside d, c =>
    if c = '"' then some (.inside d)
    else if c = '\\' then none
    else if c = '{' ∨ c = '[' then some (.outside (d + 1))
    else if c = '}' ∨ c = ']' then
      match d with
      | 0 => none
      | d + 1 => some (.outside d)
    else some (.outside d)
  | .inside d, c =>
    if c = '"' then some (.outside d) else if c = '\\' then some (.escaped d) else some (.inside d)
  | .escaped d, _ => some (.inside d)

def scan (p : Position) (t : List Char) : Option Position := t.foldlM step p

@[simp] theorem scan_nil (p : Position) : p.scan [] = some p := rfl

@[simp] theorem scan_cons (p : Position) (c : Char) (t : List Char) :
    p.scan (c :: t) = (p.step c).bind (·.scan t) := rfl

theorem scan_append (p : Position) (s t : List Char) : p.scan (s ++ t) = (p.scan s).bind (·.scan t) :=
  List.foldlM_append

theorem scan_escape (d : Nat) (c : Char) : scan (.inside d) (escape c) = some (.inside d) := by
  have hhex : ∀ n, step (.inside d) (hexDigit n) = some (.inside d) := by
    intro n
    have hall : ∀ k < 16, Nat.digitChar k ≠ '"' ∧ Nat.digitChar k ≠ '\\' := by decide
    obtain ⟨hquote, hbackslash⟩ := hall (n % 16) (Nat.mod_lt n (by decide))
    simp [step, hexDigit, hquote, hbackslash]
  rcases escape_cases c with ⟨he, hquote, hbackslash⟩ | ⟨e, he, -⟩ | ⟨he, -⟩
  · simp [he, step, hquote, hbackslash]
  · simp [he, step]
  · have hzeros : scan (.inside d) ['\\', 'u', '0', '0'] = some (.inside d) := rfl
    rw [he]
    change scan (.inside d) (['\\', 'u', '0', '0'] ++ [_, _]) = _
    rw [scan_append, hzeros]
    simp [hhex]

end Position

open Position

/-- Leads a reader from outside to outside, with nothing more open and nothing less. -/
def Balanced (t : List Char) : Prop := ∀ d, scan (.outside d) t = some (.outside d)

namespace Balanced

theorem nil : Balanced [] := fun _ ↦ rfl

theorem append {s t : List Char} (hs : Balanced s) (ht : Balanced t) : Balanced (s ++ t) := fun d ↦ by
  rw [scan_append, hs d]
  exact ht d

theorem of_marks {t : List Char} (h : ∀ c ∈ t, Number.isMark c = true) : Balanced t := by
  intro d
  induction t with
  | nil => rfl
  | cons c t ih =>
    obtain ⟨hc, ht⟩ := List.forall_mem_cons.1 h
    have hne : ∀ e, Number.isMark e = false → c ≠ e := fun e he ↦ Number.isMark_ne hc he
    have hstep : step (.outside d) c = some (.outside d) := by
      simp [step, hne '"' rfl, hne '\\' rfl, hne '{' rfl, hne '[' rfl, hne '}' rfl, hne ']' rfl]
    rw [scan_cons, hstep]
    exact ih ht

theorem quote (cs : List Char) : Balanced (quote cs) := by
  intro d
  have hbody : scan (.inside d) (cs.flatMap escape) = some (.inside d) := by
    induction cs with
    | nil => rfl
    | cons c cs ih =>
      rw [List.flatMap_cons, scan_append, scan_escape]
      exact ih
  simp only [Text.quote, List.cons_append, scan_cons, scan_append]
  change (scan (.inside d) (cs.flatMap escape)).bind _ = _
  rw [hbody]
  rfl

theorem bracketed {t : List Char} (h : Balanced t) :
    Balanced ('{' :: t ++ ['}']) ∧ Balanced ('[' :: t ++ [']']) := by
  refine ⟨fun d ↦ ?_, fun d ↦ ?_⟩
  all_goals
    rw [List.cons_append, scan_cons]
    change scan (.outside (d + 1)) (t ++ _) = _
    rw [scan_append, h (d + 1)]
    rfl

theorem joined {ts : List (List Char)} (h : ∀ t ∈ ts, Balanced t) : Balanced (joined [','] ts) := by
  have hcomma : Balanced [','] := fun _ ↦ rfl
  cases ts with
  | nil => exact nil
  | cons t ts =>
    obtain ⟨ht, hts⟩ := List.forall_mem_cons.1 h
    rw [joined_cons]
    refine ht.append ?_
    clear h
    induction ts with
    | nil => exact nil
    | cons u ts ih =>
      obtain ⟨hu, hts⟩ := List.forall_mem_cons.1 hts
      rw [List.flatMap_cons]
      exact (hcomma.append hu).append (ih hts)

end Balanced

namespace Value

theorem balanced_entries {entries : List (String × Value)} (h : ∀ e ∈ entries, Balanced e.2.canonical) :
    Balanced (joined [','] (canonicalEntries entries)) := by
  refine .joined fun t ht ↦ ?_
  rw [canonicalEntries_eq_map] at ht
  obtain ⟨e, he, rfl⟩ := List.mem_map.1 ht
  have hcolon : Balanced [':'] := fun _ ↦ rfl
  exact (Balanced.quote _).append (hcolon.append (h e he))

theorem balanced_canonical (v : Value) : Balanced v.canonical := by
  induction v using induction with
  | null => exact fun _ ↦ rfl
  | bool b => cases b <;> exact fun _ ↦ rfl
  | number n => exact .of_marks n.text_marks.2
  | string s => exact .quote _
  | list items ih =>
    refine (Balanced.joined fun t ht ↦ ?_).bracketed.2
    rw [canonicalItems_eq_map] at ht
    obtain ⟨v, hv, rfl⟩ := List.mem_map.1 ht
    exact ih v hv
  | set items ih =>
    refine (Balanced.joined fun t ht ↦ ?_).bracketed.2
    rw [mem_sortTexts, canonicalItems_eq_map] at ht
    obtain ⟨v, hv, rfl⟩ := List.mem_map.1 ht
    exact ih v hv
  | map entries ih => exact (balanced_entries ih).bracketed.1

end Value

end IntentCorrection
