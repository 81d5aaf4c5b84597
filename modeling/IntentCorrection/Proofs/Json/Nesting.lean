import IntentCorrection.Json.Reader

namespace IntentCorrection.Json

@[elab_as_elim]
theorem induction {P : Json → Prop} (null : P .null) (bool : ∀ b, P (.bool b)) (number : ∀ n, P (.number n))
    (string : ∀ s, P (.string s)) (array : ∀ items : List Json, (∀ j ∈ items, P j) → P (.array items))
    (object : ∀ fields : List (String × Json), (∀ f ∈ fields, P f.2) → P (.object fields))
    (unreadable : P .unreadable) (j : Json) : P j := by
  refine @Json.rec P (fun items ↦ ∀ j ∈ items, P j) (fun fields ↦ ∀ f ∈ fields, P f.2) (fun f ↦ P f.2)
    null bool number string array object unreadable ?_ ?_ ?_ ?_ ?_ j
  · exact fun j hj ↦ nomatch hj
  · exact fun j items hj hitems ↦ List.forall_mem_cons.2 ⟨hj, hitems⟩
  · exact fun f hf ↦ nomatch hf
  · exact fun f fields hf hfields ↦ List.forall_mem_cons.2 ⟨hf, hfields⟩
  · exact fun k j hj ↦ hj

mutual

def depth : Json → Nat
  | .array items => depthOfItems items + 1
  | .object fields => depthOfFields fields + 1
  | _ => 0

def depthOfItems : List Json → Nat
  | [] => 0
  | j :: r => max (depth j) (depthOfItems r)

def depthOfFields : List (String × Json) → Nat
  | [] => 0
  | (_, j) :: r => max (depth j) (depthOfFields r)

end

mutual

/-- The document as it is read inside so many containers. -/
def clipped (outer : Nat) : Json → Json
  | .array items => arrayAt (outer + 1) (clippedItems (outer + 1) items)
  | .object fields => objectAt (outer + 1) (clippedFields (outer + 1) fields)
  | j => j

def clippedItems (outer : Nat) : List Json → List Json
  | [] => []
  | j :: r => clipped outer j :: clippedItems outer r

def clippedFields (outer : Nat) : List (String × Json) → List (Option String × Json)
  | [] => []
  | (k, j) :: r => (some k, clipped outer j) :: clippedFields outer r

end

variable {outer n : Nat} {j : Json} {items : List Json} {fields : List (String × Json)}

theorem depth_array_le : (array items).depth ≤ n + 1 ↔ ∀ j ∈ items, j.depth ≤ n := by
  rw [depth, Nat.add_le_add_iff_right]
  induction items with
  | nil => simp [depthOfItems]
  | cons j r ih => rw [depthOfItems, Nat.max_le, ih, List.forall_mem_cons]

theorem depth_object_le : (object fields).depth ≤ n + 1 ↔ ∀ f ∈ fields, f.2.depth ≤ n := by
  rw [depth, Nat.add_le_add_iff_right]
  induction fields with
  | nil => simp [depthOfFields]
  | cons f r ih => rw [depthOfFields, Nat.max_le, ih, List.forall_mem_cons]

theorem depth_lt_array (h : j ∈ items) : j.depth < (array items).depth :=
  Nat.lt_succ_of_le (depth_array_le.1 (Nat.le_refl _) j h)

theorem depth_lt_object {f : String × Json} (h : f ∈ fields) : f.2.depth < (object fields).depth :=
  Nat.lt_succ_of_le (depth_object_le.1 (Nat.le_refl _) f h)

theorem exists_deep_item (hroom : outer < maxDepth) (h : maxDepth < outer + (array items).depth) :
    ∃ j ∈ items, maxDepth < outer + 1 + j.depth := by
  refine Classical.byContradiction fun hnone ↦ ?_
  have hall : ∀ j ∈ items, j.depth ≤ maxDepth - (outer + 1) := by
    intro j hj
    have : ¬maxDepth < outer + 1 + j.depth := fun hlt ↦ hnone ⟨j, hj, hlt⟩
    omega
  have := depth_array_le.2 hall
  omega

theorem exists_deep_field (hroom : outer < maxDepth) (h : maxDepth < outer + (object fields).depth) :
    ∃ f ∈ fields, maxDepth < outer + 1 + f.2.depth := by
  refine Classical.byContradiction fun hnone ↦ ?_
  have hall : ∀ f ∈ fields, f.2.depth ≤ maxDepth - (outer + 1) := by
    intro f hf
    have : ¬maxDepth < outer + 1 + f.2.depth := fun hlt ↦ hnone ⟨f, hf, hlt⟩
    omega
  have := depth_object_le.2 hall
  omega

theorem clippedItems_eq_map (outer : Nat) (items : List Json) :
    clippedItems outer items = items.map (clipped outer) := by
  induction items with
  | nil => rfl
  | cons j r ih => rw [clippedItems, ih, List.map_cons]

theorem named?_clippedFields (outer : Nat) (fields : List (String × Json)) :
    named? (clippedFields outer fields) = some (fields.map fun f ↦ (f.1, clipped outer f.2)) := by
  induction fields with
  | nil => rfl
  | cons f r ih => simp [clippedFields, named?, ih]

theorem clipped_array (outer : Nat) (items : List Json) :
    clipped outer (.array items) =
      if outer < maxDepth then .array (items.map (clipped (outer + 1))) else .unreadable := by
  rw [clipped, arrayAt, clippedItems_eq_map]
  rfl

theorem clipped_object (outer : Nat) (fields : List (String × Json)) :
    clipped outer (.object fields) =
      if outer < maxDepth then .object (fields.map fun f ↦ (f.1, clipped (outer + 1) f.2)) else .unreadable := by
  rw [clipped, objectAt, named?_clippedFields]
  rfl

theorem clipped_of_depth_le (h : outer + j.depth ≤ maxDepth) : clipped outer j = j := by
  induction j using induction generalizing outer with
  | null | bool _ | number _ | string _ | unreadable => rfl
  | array items ih =>
    obtain ⟨n, hn⟩ : ∃ n, maxDepth = outer + (n + 1) := ⟨maxDepth - outer - 1, by simp [depth] at h; omega⟩
    have hitems := depth_array_le.1 (Nat.le_of_add_le_add_left (hn ▸ h))
    rw [clipped_array, if_pos (by omega), List.map_congr_left (g := id), List.map_id]
    intro j hj
    exact ih j hj (by have := hitems j hj; omega)
  | object fields ih =>
    obtain ⟨n, hn⟩ : ∃ n, maxDepth = outer + (n + 1) := ⟨maxDepth - outer - 1, by simp [depth] at h; omega⟩
    have hfields := depth_object_le.1 (Nat.le_of_add_le_add_left (hn ▸ h))
    rw [clipped_object, if_pos (by omega), List.map_congr_left (g := id), List.map_id]
    intro f hf
    rw [ih f hf (by have := hfields f hf; omega)]
    rfl

end IntentCorrection.Json
