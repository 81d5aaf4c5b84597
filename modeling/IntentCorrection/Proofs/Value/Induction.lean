import IntentCorrection.Value.Canonical

namespace IntentCorrection.Value

@[elab_as_elim]
theorem induction {P : Value → Prop} (null : P .null) (bool : ∀ b, P (.bool b)) (number : ∀ n, P (.number n))
    (string : ∀ s, P (.string s)) (list : ∀ items : List Value, (∀ v ∈ items, P v) → P (.list items))
    (set : ∀ items : List Value, (∀ v ∈ items, P v) → P (.set items))
    (map : ∀ entries : List (String × Value), (∀ e ∈ entries, P e.2) → P (.map entries)) (v : Value) :
    P v := by
  refine @Value.rec P (fun items ↦ ∀ v ∈ items, P v) (fun entries ↦ ∀ e ∈ entries, P e.2) (fun e ↦ P e.2)
    null bool number string list set map ?_ ?_ ?_ ?_ ?_ v
  · exact fun v hv ↦ nomatch hv
  · exact fun v items hv hitems ↦ List.forall_mem_cons.2 ⟨hv, hitems⟩
  · exact fun e he ↦ nomatch he
  · exact fun e entries he hentries ↦ List.forall_mem_cons.2 ⟨he, hentries⟩
  · exact fun k v hv ↦ hv

theorem canonicalItems_eq_map (vs : List Value) : canonicalItems vs = vs.map canonical := by
  induction vs with
  | nil => rfl
  | cons v r ih => rw [canonicalItems, ih, List.map_cons]

theorem canonicalEntries_eq_map (es : List (String × Value)) :
    canonicalEntries es = es.map fun e ↦ Text.quote e.1.toList ++ ':' :: e.2.canonical := by
  induction es with
  | nil => rfl
  | cons e r ih => rw [canonicalEntries, ih, List.map_cons]

theorem normItems_eq_map (vs : List Value) : normItems vs = vs.map norm := by
  induction vs with
  | nil => rfl
  | cons v r ih => rw [normItems, ih, List.map_cons]

theorem normEntries_eq_map (es : List (String × Value)) :
    normEntries es = es.map fun e ↦ (e.1, e.2.norm) := by
  induction es with
  | nil => rfl
  | cons e r ih => rw [normEntries, ih, List.map_cons]

end IntentCorrection.Value
