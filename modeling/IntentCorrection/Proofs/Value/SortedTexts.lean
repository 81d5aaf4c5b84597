import IntentCorrection.Value.Canonical

namespace IntentCorrection.Value

open Text

theorem mem_dropRepeats {α : Type} [DecidableEq α] {a : α} {l : List α} : a ∈ dropRepeats l ↔ a ∈ l := by
  fun_induction dropRepeats l with
  | case1 b r ih =>
    rw [ih]
    simp
  | case2 b c r _ ih => rw [List.mem_cons, ih, List.mem_cons (a := a) (b := b)]
  | case3 => rfl

theorem mem_sortTexts {t : List Char} {ts : List (List Char)} : t ∈ sortTexts ts ↔ t ∈ ts := by
  rw [sortTexts, mem_dropRepeats, List.mem_mergeSort]

theorem dropRepeats_strict {ts : List (List Char)} (h : ts.Pairwise fun s t ↦ atMost s t = true) :
    (dropRepeats ts).Pairwise fun s t ↦ atMost s t = true ∧ s ≠ t := by
  fun_induction dropRepeats ts with
  | case1 b r ih => exact ih (List.pairwise_cons.1 h).2
  | case2 a b r hab ih =>
    obtain ⟨ha, htail⟩ := List.pairwise_cons.1 h
    refine List.pairwise_cons.2 ⟨fun t ht ↦ ?_, ih htail⟩
    rw [mem_dropRepeats] at ht
    refine ⟨ha t ht, ?_⟩
    rintro rfl
    rcases List.mem_cons.1 ht with he | hr
    · exact hab he
    · have hba := (List.pairwise_cons.1 htail).1 a hr
      exact hab (atMost_antisymm (ha b List.mem_cons_self) hba)
  | case3 ts hts =>
    match ts, hts with
    | [], _ => exact .nil
    | [t], _ => exact List.pairwise_singleton _ _
    | a :: b :: r, hts => exact absurd rfl (hts a b r)

theorem sortTexts_strict (ts : List (List Char)) :
    (sortTexts ts).Pairwise fun s t ↦ atMost s t = true ∧ s ≠ t := by
  have htotal : ∀ s t, (atMost s t || atMost t s) = true := by
    intro s t
    rw [Bool.or_eq_true]
    exact atMost_total s t
  have hsorted : (ts.mergeSort atMost).Pairwise fun s t ↦ atMost s t = true :=
    @List.pairwise_mergeSort _ atMost (fun _ _ _ h h' ↦ atMost_trans h h') htotal ts
  exact dropRepeats_strict hsorted

theorem sortTexts_congr {ts us : List (List Char)} (h : ∀ t, t ∈ ts ↔ t ∈ us) :
    sortTexts ts = sortTexts us := by
  have hnodup : ∀ ts, (sortTexts ts).Nodup := fun ts ↦ (sortTexts_strict ts).imp And.right
  have hperm : (sortTexts ts).Perm (sortTexts us) := by
    refine (List.perm_ext_iff_of_nodup (hnodup ts) (hnodup us)).2 fun t ↦ ?_
    rw [mem_sortTexts, mem_sortTexts, h]
  exact hperm.eq_of_pairwise (fun _ _ _ _ hst hts ↦ atMost_antisymm hst.1 hts.1) (sortTexts_strict ts)
    (sortTexts_strict us)

end IntentCorrection.Value
