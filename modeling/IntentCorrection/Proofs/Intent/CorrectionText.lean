import IntentCorrection.Intent.Record
import IntentCorrection.Proofs.Value.Balanced

namespace IntentCorrection

open Text

namespace Position

/-- One of two readers is inside of quoted text where the other is outside. -/
def Opposite : Position → Position → Prop
  | .outside _, .inside _ | .inside _, .outside _ => True
  | _, _ => False

/-- A backslash stops one of two opposite readers, and anything else leaves them opposite. -/
theorem Opposite.step {p q p' q' : Position} {c : Char} (h : Opposite p q) (hp : p.step c = some p')
    (hq : q.step c = some q') : Opposite p' q' := by
  have hside : ∀ d e p' q', Position.step (.outside d) c = some p' → Position.step (.inside e) c = some q' →
      Opposite p' q' ∧ Opposite q' p' := by
    intro d e p' q' hp hq
    by_cases hquote : c = '"'
    · subst hquote
      cases hp
      cases hq
      exact ⟨trivial, trivial⟩
    by_cases hbackslash : c = '\\'
    · subst hbackslash
      cases hp
    simp only [Position.step, hquote, hbackslash, if_false] at hp hq
    cases hq
    split at hp
    · cases hp
      exact ⟨trivial, trivial⟩
    · split at hp
      · split at hp
        · cases hp
        · cases hp
          exact ⟨trivial, trivial⟩
      · cases hp
        exact ⟨trivial, trivial⟩
  rcases p with d | d | d <;> rcases q with e | e | e
  case outside.inside => exact (hside d e p' q' hp hq).1
  case inside.outside => exact (hside e d q' p' hq hp).2
  all_goals exact h.elim

theorem Opposite.scan {p q p' q' : Position} {t : List Char} (h : Opposite p q) (hp : p.scan t = some p')
    (hq : q.scan t = some q') : Opposite p' q' := by
  induction t generalizing p q with
  | nil =>
    cases hp
    cases hq
    exact h
  | cons c t ih =>
    obtain ⟨p₁, hp₁, hp⟩ := Option.bind_eq_some_iff.1 hp
    obtain ⟨q₁, hq₁, hq⟩ := Option.bind_eq_some_iff.1 hq
    exact ih (h.step hp₁ hq₁) hp hq

end Position

open Position

/-- Balanced text does not end in a colon and a bracket that is never closed. -/
theorem Balanced.not_append_colon {s t : List Char} (ht : Balanced t) :
    ¬ Balanced (s ++ ':' :: '{' :: t) := by
  intro h
  have hread := h 0
  rw [scan_append] at hread
  obtain ⟨p, -, hp⟩ := Option.bind_eq_some_iff.1 hread
  -- Behind the brace the reader is outside with a bracket open, or inside of quoted text.
  have hbehind : (∃ d, scan (.outside (d + 1)) t = some (.outside 0)) ∨
      ∃ d, scan (.inside d) t = some (.outside 0) := by
    rcases p with d | d | d
    · exact .inl ⟨d, hp⟩
    · exact .inr ⟨d, hp⟩
    · exact .inr ⟨d, hp⟩
  rcases hbehind with ⟨d, hd⟩ | ⟨d, hd⟩
  · rw [ht (d + 1)] at hd
    cases hd
  · have hopposite : Opposite (.inside d) (.outside 0) := trivial
    exact hopposite.scan hd (ht 0)

namespace Diff

theorem exists_canonical (d : Diff) : ∃ t, Balanced t ∧ d.canonical = '{' :: t ++ ['}'] :=
  ⟨_, Value.balanced_entries fun e _ ↦ e.2.balanced_canonical, rfl⟩

/-- The canonical text of a diff is not that of another one behind a colon. -/
theorem canonical_ne_append (d d' : Diff) (s : List Char) : d.canonical ≠ s ++ ':' :: d'.canonical := by
  intro h
  obtain ⟨t, ht, hd⟩ := d.exists_canonical
  obtain ⟨t', ht', hd'⟩ := d'.exists_canonical
  rw [hd, hd'] at h
  cases s with
  | nil => cases h
  | cons c s =>
    have hbody : t ++ ['}'] = (s ++ ':' :: '{' :: t') ++ ['}'] := by
      simpa using (List.cons.inj h).2
    rw [List.append_cancel_right hbody] at ht
    exact ht'.not_append_colon ht

end Diff

/-- Two correction ids are derived from one text only if the keys are the same and the diffs have the same
canonical text. -/
theorem correctionText_inj {key key' : String} {diff diff' : Diff} :
    correctionText key diff = correctionText key' diff' ↔ key = key' ∧ diff.canonical = diff'.canonical := by
  -- One key is a prefix of the other. What the longer one has beyond it would stand before a colon and a diff.
  have hprefix : ∀ {k k' : String} {d d' : Diff} {s : List Char}, k'.toList = k.toList ++ s →
      ':' :: d.canonical = s ++ ':' :: d'.canonical → k = k' ∧ d.canonical = d'.canonical := by
    intro k k' d d' s hs ht
    cases s with
    | nil => exact ⟨String.toList_inj.1 (by simpa using hs.symm), (List.cons.inj ht).2⟩
    | cons c s => exact absurd (List.cons.inj ht).2 (d.canonical_ne_append d' s)
  refine ⟨fun h ↦ ?_, fun ⟨hkey, hdiff⟩ ↦ by rw [correctionText, correctionText, hkey, hdiff]⟩
  rcases List.append_eq_append_iff.1 h with ⟨s, hs, ht⟩ | ⟨s, hs, ht⟩
  · exact hprefix hs ht
  · obtain ⟨hkey, hdiff⟩ := hprefix hs ht
    exact ⟨hkey.symm, hdiff.symm⟩

end IntentCorrection
