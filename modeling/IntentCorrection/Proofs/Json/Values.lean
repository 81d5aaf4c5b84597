import IntentCorrection.Proofs.Entries
import IntentCorrection.Proofs.Json.Nesting
import IntentCorrection.Proofs.Value.Decoding

namespace IntentCorrection

namespace Value

inductive Ordered : Value → Prop
  | null : Ordered .null
  | bool (b : Bool) : Ordered (.bool b)
  | number (n : Number) : Ordered (.number n)
  | string (s : String) : Ordered (.string s)
  | list {items : List Value} : (∀ v ∈ items, Ordered v) → Ordered (.list items)
  | set {items : List Value} : (∀ v ∈ items, Ordered v) → Ordered (.set items)
  | map {entries : ValueMap} : Entries.Sorted entries → (∀ e ∈ entries, Ordered e.2) → Ordered (.map entries)

mutual

def listed : Value → Value
  | .list items => .list (listedItems items)
  | .set items => .list (listedItems items)
  | .map entries => .map (listedEntries entries)
  | v => v

def listedItems : List Value → List Value
  | [] => []
  | v :: r => listed v :: listedItems r

def listedEntries : List (String × Value) → List (String × Value)
  | [] => []
  | (k, v) :: r => (k, listed v) :: listedEntries r

end

theorem listedItems_eq_map (items : List Value) : listedItems items = items.map listed := by
  induction items with
  | nil => rfl
  | cons v r ih => rw [listedItems, ih, List.map_cons]

theorem listedEntries_eq_map (entries : List (String × Value)) :
    listedEntries entries = entries.map fun e ↦ (e.1, e.2.listed) := by
  induction entries with
  | nil => rfl
  | cons e r ih => rw [listedEntries, ih, List.map_cons]

theorem SetFree.listed_eq {v : Value} (h : SetFree v) : v.listed = v := by
  induction h with
  | null | bool _ | number _ | string _ => rfl
  | list _ ih => rw [listed, listedItems_eq_map, List.map_congr_left (g := id) ih, List.map_id]
  | map _ ih =>
    rw [listed, listedEntries_eq_map, List.map_congr_left (g := id), List.map_id]
    exact fun e he ↦ by rw [ih e he]; rfl

/-- What a document can say: every map in order, and no sets. -/
def Plain (v : Value) : Prop := v.Ordered ∧ v.SetFree

theorem Plain.listedEntries_eq {m : ValueMap} (h : Plain (.map m)) : listedEntries m = m := by
  have hlisted := h.2.listed_eq
  rw [listed] at hlisted
  exact Value.map.inj hlisted

end Value

namespace Json

open Value

theorem ofEntries_eq_map (entries : List (String × Value)) :
    ofEntries entries = entries.map fun e ↦ (e.1, ofValue e.2) := by
  induction entries with
  | nil => rfl
  | cons e r ih => rw [ofEntries, ih, List.map_cons]

theorem value?_ofValue {v : Value} (h : v.Ordered) : (ofValue v).value? = some v.listed := by
  have hitems : ∀ {items : List Value}, (∀ v ∈ items, (ofValue v).value? = some v.listed) →
      values? (ofValues items) = some (listedItems items) := by
    intro items ih
    induction items with
    | nil => rfl
    | cons v r ih' =>
      obtain ⟨hv, hr⟩ := List.forall_mem_cons.1 ih
      simp [ofValues, values?, hv, ih' hr, listedItems]
  induction h with
  | null | bool _ | number _ | string _ => rfl
  | list _ ih => rw [ofValue, value?, hitems ih, listed]; rfl
  | set _ ih => rw [ofValue, value?, hitems ih, listed]; rfl
  | @map entries hsorted _ ih =>
    have hentries : ∀ {entries : List (String × Value)}, (∀ e ∈ entries, (ofValue e.2).value? = some e.2.listed) →
        entries? (ofEntries entries) = some (listedEntries entries) := by
      intro entries ih
      induction entries with
      | nil => rfl
      | cons e r ih' =>
        obtain ⟨he, hr⟩ := List.forall_mem_cons.1 ih
        simp [ofEntries, entries?, he, ih' hr, listedEntries]
    have hlisted : Entries.Sorted (listedEntries entries) := by
      rw [listedEntries_eq_map]
      exact hsorted.map fun _ ↦ rfl
    rw [ofValue, value?, hentries ih, listed, Option.map_some, hlisted.ofList_eq]

theorem mem_values? {items : List Json} {vs : List Value} (h : values? items = some vs) {v : Value} (hv : v ∈ vs) :
    ∃ j ∈ items, j.value? = some v := by
  induction items generalizing vs with
  | nil =>
    cases h
    cases hv
  | cons j r ih =>
    simp only [values?, Option.pure_def, Option.bind_eq_bind, Option.bind_eq_some_iff, Option.some.injEq] at h
    obtain ⟨w, hw, ws, hws, rfl⟩ := h
    rcases List.mem_cons.1 hv with rfl | hv
    · exact ⟨j, List.mem_cons_self, hw⟩
    · obtain ⟨j', hj', hread⟩ := ih hws hv
      exact ⟨j', List.mem_cons_of_mem _ hj', hread⟩

theorem mem_entries? {fields : List (String × Json)} {es : List (String × Value)} (h : entries? fields = some es)
    {e : String × Value} (he : e ∈ es) : ∃ f ∈ fields, f.2.value? = some e.2 := by
  induction fields generalizing es with
  | nil =>
    cases h
    cases he
  | cons f r ih =>
    simp only [entries?, Option.pure_def, Option.bind_eq_bind, Option.bind_eq_some_iff, Option.some.injEq] at h
    obtain ⟨w, hw, ws, hws, rfl⟩ := h
    rcases List.mem_cons.1 he with rfl | he
    · exact ⟨f, List.mem_cons_self, hw⟩
    · obtain ⟨f', hf', hread⟩ := ih hws he
      exact ⟨f', List.mem_cons_of_mem _ hf', hread⟩

theorem plain_of_value? {j : Json} {v : Value} (h : j.value? = some v) : v.Plain := by
  induction j using induction generalizing v with
  | null =>
    cases h
    exact ⟨.null, .null⟩
  | bool b =>
    cases h
    exact ⟨.bool b, .bool b⟩
  | number n =>
    cases h
    exact ⟨.number n, .number n⟩
  | string s =>
    cases h
    exact ⟨.string s, .string s⟩
  | array items ih =>
    obtain ⟨vs, hvs, rfl⟩ := Option.map_eq_some_iff.1 h
    have hall : ∀ v ∈ vs, v.Plain := by
      intro v hv
      obtain ⟨j, hj, hread⟩ := mem_values? hvs hv
      exact ih j hj hread
    exact ⟨.list fun v hv ↦ (hall v hv).1, .list fun v hv ↦ (hall v hv).2⟩
  | object fields ih =>
    obtain ⟨es, hes, rfl⟩ := Option.map_eq_some_iff.1 h
    have hall : ∀ e ∈ Entries.ofList es, e.2.Plain := by
      intro e he
      obtain ⟨f, hf, hread⟩ := mem_entries? hes (Entries.mem_ofList he)
      exact ih f hf hread
    exact ⟨.map (Entries.sorted_ofList es) fun e he ↦ (hall e he).1, .map fun e he ↦ (hall e he).2⟩
  | unreadable => cases h

theorem values?_of_mem {items : List Json} {j : Json} (hj : j ∈ items) (h : j.value? = none) :
    values? items = none := by
  induction items with
  | nil => cases hj
  | cons k r ih =>
    rcases List.mem_cons.1 hj with rfl | hj
    · simp [values?, h]
    · simp [values?, ih hj]

theorem entries?_of_mem {fields : List (String × Json)} {f : String × Json} (hf : f ∈ fields)
    (h : f.2.value? = none) : entries? fields = none := by
  induction fields with
  | nil => cases hf
  | cons g r ih =>
    rcases List.mem_cons.1 hf with rfl | hf
    · simp [entries?, h]
    · simp [entries?, ih hf]

theorem value?_clipped {j : Json} {outer : Nat} (houter : outer ≤ maxDepth) (h : maxDepth < outer + j.depth) :
    (clipped outer j).value? = none := by
  induction j using induction generalizing outer with
  | null | bool _ | number _ | string _ | unreadable => exact absurd h (Nat.not_lt.2 houter)
  | array items ih =>
    rw [clipped_array]
    split
    case isFalse => rfl
    rename_i hroom
    obtain ⟨j, hj, hdeep⟩ := exists_deep_item hroom h
    rw [value?, values?_of_mem (List.mem_map_of_mem hj) (ih j hj hroom hdeep)]
    rfl
  | object fields ih =>
    rw [clipped_object]
    split
    case isFalse => rfl
    rename_i hroom
    obtain ⟨f, hf, hdeep⟩ := exists_deep_field hroom h
    have hmem : (f.1, clipped (outer + 1) f.2) ∈ fields.map fun f ↦ (f.1, clipped (outer + 1) f.2) :=
      List.mem_map_of_mem hf
    rw [value?, entries?_of_mem hmem (ih f hf hroom hdeep)]
    rfl

end Json

end IntentCorrection
