import IntentCorrection.Proofs.Value.Decoding
import IntentCorrection.Proofs.Value.SortedTexts

namespace IntentCorrection.Value

open Text

section SortByText

variable {keyed : List (List Char × Value)}

theorem mem_thin {v : Value} (h : v ∈ sortByText.thin keyed) : ∃ e ∈ keyed, e.2 = v := by
  fun_induction sortByText.thin keyed with
  | case1 a b r _ ih =>
    obtain ⟨e, he, hv⟩ := ih h
    exact ⟨e, List.mem_cons_of_mem _ he, hv⟩
  | case2 a b r _ ih =>
    rcases List.mem_cons.1 h with rfl | h
    · exact ⟨a, List.mem_cons_self, rfl⟩
    · obtain ⟨e, he, hv⟩ := ih h
      exact ⟨e, List.mem_cons_of_mem _ he, hv⟩
  | case3 a => exact ⟨a, List.mem_cons_self, (List.mem_singleton.1 h).symm⟩
  | case4 => cases h

theorem map_canonical_thin (h : ∀ e ∈ keyed, e.2.canonical = e.1) :
    (sortByText.thin keyed).map canonical = dropRepeats (keyed.map Prod.fst) := by
  fun_induction sortByText.thin keyed with
  | case1 a b r hab ih =>
    rw [ih fun e he ↦ h e (List.mem_cons_of_mem _ he)]
    simp [dropRepeats, hab]
  | case2 a b r hab ih =>
    rw [List.map_cons, ih fun e he ↦ h e (List.mem_cons_of_mem _ he), h a List.mem_cons_self]
    simp [dropRepeats, hab]
  | case3 a => simp [dropRepeats, h a List.mem_cons_self]
  | case4 => rfl

theorem mem_of_mem_sortByText {v : Value} {vs : List Value} (h : v ∈ sortByText vs) : v ∈ vs := by
  obtain ⟨e, he, rfl⟩ := mem_thin h
  rw [List.mem_mergeSort] at he
  obtain ⟨w, hw, rfl⟩ := List.mem_map.1 he
  exact hw

theorem map_canonical_sortByText (vs : List Value) :
    (sortByText vs).map canonical = sortTexts (vs.map canonical) := by
  have hkeyed : ∀ e ∈ (vs.map fun v ↦ (v.canonical, v)).mergeSort fun a b ↦ atMost a.1 b.1,
      e.2.canonical = e.1 := by
    intro e he
    rw [List.mem_mergeSort] at he
    obtain ⟨v, -, rfl⟩ := List.mem_map.1 he
    rfl
  rw [sortByText, map_canonical_thin hkeyed, List.map_mergeSort (s := atMost) fun _ _ _ _ ↦ rfl, List.map_map]
  rfl

end SortByText

theorem canonical_norm (v : Value) : v.norm.canonical = v.canonical := by
  induction v using induction with
  | null | bool _ | number _ | string _ => rfl
  | list items ih =>
    have htexts : (items.map norm).map canonical = items.map canonical := by
      rw [List.map_map]
      exact List.map_congr_left ih
    simp only [norm, canonical, canonicalItems_eq_map, normItems_eq_map, htexts]
  | set items ih =>
    have htexts : (items.map norm).map canonical = items.map canonical := by
      rw [List.map_map]
      exact List.map_congr_left ih
    simp only [norm, canonical, canonicalItems_eq_map, normItems_eq_map, map_canonical_sortByText, htexts]
  | map entries ih =>
    simp only [norm, canonical, canonicalEntries_eq_map, normEntries_eq_map, List.map_map]
    have htexts : ∀ e ∈ entries, quote e.1.toList ++ ':' :: e.2.norm.canonical =
        quote e.1.toList ++ ':' :: e.2.canonical := fun e he ↦ by rw [ih e he]
    rw [← List.map_congr_left htexts]
    rfl

theorem setFree_norm (v : Value) : SetFree v.norm := by
  induction v using induction with
  | null => exact .null
  | bool b => exact .bool b
  | number n => exact .number n
  | string s => exact .string s
  | list items ih =>
    refine .list fun v hv ↦ ?_
    rw [normItems_eq_map] at hv
    obtain ⟨w, hw, rfl⟩ := List.mem_map.1 hv
    exact ih w hw
  | set items ih =>
    refine .list fun v hv ↦ ?_
    have hv := mem_of_mem_sortByText hv
    rw [normItems_eq_map] at hv
    obtain ⟨w, hw, rfl⟩ := List.mem_map.1 hv
    exact ih w hw
  | map entries ih =>
    refine .map fun e he ↦ ?_
    rw [normEntries_eq_map] at he
    obtain ⟨f, hf, rfl⟩ := List.mem_map.1 he
    exact ih f hf

theorem Alike.canonical_eq {v w : Value} (h : Alike v w) : v.canonical = w.canonical := by
  have hitems : ∀ {vs ws : List Value}, (∀ v ∈ vs, ∀ {w}, Alike v w → v.canonical = w.canonical) →
      List.Forall₂ Alike vs ws → vs.map canonical = ws.map canonical := by
    intro vs ws ih hvs
    induction hvs with
    | nil => rfl
    | cons hvw _ ih' =>
      obtain ⟨hv, hvs⟩ := List.forall_mem_cons.1 ih
      rw [List.map_cons, List.map_cons, hv hvw, ih' hvs]
  induction v using induction generalizing w with
  | null | bool _ | string _ =>
    cases h
    rfl
  | number n =>
    cases h with
    | number h => exact h
  | list items ih =>
    cases h with
    | list h => simp only [canonical, canonicalItems_eq_map, hitems ih h]
  | set items ih =>
    cases h with
    | set h => simp only [canonical, canonicalItems_eq_map, hitems ih h]
  | map entries ih =>
    cases h with
    | @map _ entries' hkeys h =>
      have htexts : canonicalEntries entries = canonicalEntries entries' := by
        clear hitems
        induction h with
        | nil => rfl
        | @cons e f es fs hef _ ih' =>
          obtain ⟨he, hes⟩ := List.forall_mem_cons.1 ih
          obtain ⟨hkey, hkeys⟩ := List.cons.inj hkeys
          simp only [canonicalEntries_eq_map, List.map_cons] at ih' ⊢
          rw [hkey, he hef, ih' hes hkeys]
      simp only [canonical, htexts]

/-- Sets have been reordered, and elements repeated or their repetitions dropped, anywhere in the value. -/
inductive Rearranged : Value → Value → Prop
  | refl (v : Value) : Rearranged v v
  | trans {u v w : Value} : Rearranged u v → Rearranged v w → Rearranged u w
  | set {items items' : List Value} : (∀ v, v ∈ items ↔ v ∈ items') → Rearranged (.set items) (.set items')
  | inSet {v w : Value} (before after : List Value) : Rearranged v w →
      Rearranged (.set (before ++ v :: after)) (.set (before ++ w :: after))
  | inList {v w : Value} (before after : List Value) : Rearranged v w →
      Rearranged (.list (before ++ v :: after)) (.list (before ++ w :: after))
  | inMap {v w : Value} (before after : List (String × Value)) (key : String) : Rearranged v w →
      Rearranged (.map (before ++ (key, v) :: after)) (.map (before ++ (key, w) :: after))

theorem Rearranged.canonical_eq {v w : Value} (h : Rearranged v w) : v.canonical = w.canonical := by
  induction h with
  | refl => rfl
  | trans _ _ ih ih' => exact ih.trans ih'
  | @set items items' h =>
    have htexts : sortTexts (items.map Value.canonical) = sortTexts (items'.map Value.canonical) :=
      sortTexts_congr fun t ↦ by simp only [List.mem_map, h]
    simp only [canonical, canonicalItems_eq_map, htexts]
  | inSet before after _ ih => simp only [canonical, canonicalItems_eq_map, List.map_append, List.map_cons, ih]
  | inList before after _ ih => simp only [canonical, canonicalItems_eq_map, List.map_append, List.map_cons, ih]
  | inMap before after key _ ih =>
    simp only [canonical, canonicalEntries_eq_map, List.map_append, List.map_cons, ih]

/-- The canonical text tells values apart just as their norms do, numbers being taken as they are written. How sets
are ordered, and how often an element is repeated, makes no difference to it. -/
theorem canonical_eq_iff (v w : Value) :
    (v.canonical = w.canonical ↔ Alike v.norm w.norm) ∧ (Rearranged v w → v.canonical = w.canonical) := by
  refine ⟨⟨fun h ↦ ?_, fun h ↦ ?_⟩, Rearranged.canonical_eq⟩
  · have hends : Ends [] := fun c t h ↦ nomatch h
    have htext : v.norm.canonical ++ [] = w.norm.canonical ++ [] := by
      rw [canonical_norm, canonical_norm, h]
    exact ((setFree_norm v).canonical_append_inj (setFree_norm w) hends hends htext).1
  · rw [← canonical_norm v, ← canonical_norm w, h.canonical_eq]

/-- A set of two tags, with one of them written twice and without. -/
theorem canonical_eq_iff_tags :
    (Value.map [("tags", .set [.string "b", .string "a", .string "b"])]).canonical =
        (Value.map [("tags", .set [.string "a", .string "b"])]).canonical ∧
      Alike (Value.map [("tags", .set [.string "b", .string "a", .string "b"])]).norm
        (Value.map [("tags", .set [.string "a", .string "b"])]).norm := by
  have hset : Rearranged (.set [.string "b", .string "a", .string "b"]) (.set [.string "a", .string "b"]) :=
    .set fun v ↦ by grind
  have htext := (canonical_eq_iff _ _).2 (Rearranged.inMap [] [] "tags" hset)
  exact ⟨htext, (canonical_eq_iff _ _).1.1 htext⟩

end IntentCorrection.Value
