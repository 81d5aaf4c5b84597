import IntentCorrection.Json.Fields
import IntentCorrection.Proofs.Json.Values

namespace IntentCorrection

namespace Entries

variable {α : Type} {xs : List (String × α)}

theorem insert_perm {k : String} {v : α} {m : Entries String α} (h : k ∉ m.map Prod.fst) :
    (insert k v m).Perm ((k, v) :: m) := by
  induction m with
  | nil => exact .refl _
  | cons x m ih =>
    obtain ⟨hx, hm⟩ := not_or.1 (mt List.mem_cons.2 h)
    rw [insert, if_neg hx]
    split
    · exact .refl _
    · exact ((ih hm).cons x).trans (.swap ..)

theorem foldl_insert_perm {m : Entries String α} (h : ((xs ++ m).map Prod.fst).Nodup) :
    (xs.foldl (fun m x ↦ m.insert x.1 x.2) m).Perm (xs ++ m) := by
  induction xs generalizing m with
  | nil => exact .refl _
  | cons x xs ih =>
    rw [List.cons_append, List.map_cons, List.nodup_cons, List.map_append] at h
    have hperm := insert_perm (v := x.2) fun hm ↦ h.1 (List.mem_append_right _ hm)
    have hmiddle : (xs ++ m.insert x.1 x.2).Perm (x :: xs ++ m) := (hperm.append_left xs).trans List.perm_middle
    refine (ih ((hmiddle.map Prod.fst).nodup_iff.2 ?_)).trans hmiddle
    rwa [List.cons_append, List.map_cons, List.nodup_cons, List.map_append]

theorem ofList_perm (h : (xs.map Prod.fst).Nodup) : (ofList xs).Perm xs := by
  rw [← List.append_nil xs] at h
  have hperm := foldl_insert_perm h
  rwa [List.append_nil] at hperm

end Entries

namespace Json

mutual

/-- The document as a tree of maps; of several fields of one name the last stays. -/
def tree : Json → Json
  | .array items => .array (treeItems items)
  | .object fields => .object (Entries.ofList (treeFields fields))
  | j => j

def treeItems : List Json → List Json
  | [] => []
  | j :: r => tree j :: treeItems r

def treeFields : List (String × Json) → List (String × Json)
  | [] => []
  | (k, j) :: r => (k, tree j) :: treeFields r

end

theorem treeItems_eq_map (items : List Json) : treeItems items = items.map tree := by
  induction items with
  | nil => rfl
  | cons j r ih => rw [treeItems, ih, List.map_cons]

theorem treeFields_eq_map (fields : List (String × Json)) : treeFields fields = fields.map fun f ↦ (f.1, f.2.tree) := by
  induction fields with
  | nil => rfl
  | cons f r ih => rw [treeFields, ih, List.map_cons]

theorem ofValues_eq_map (items : List Value) : ofValues items = items.map ofValue := by
  induction items with
  | nil => rfl
  | cons v r ih => rw [ofValues, ih, List.map_cons]

theorem tree_ofValue {v : Value} (h : v.Ordered) : (ofValue v).tree = ofValue v := by
  induction h with
  | null | bool _ | number _ | string _ => rfl
  | list _ ih | set _ ih =>
    rw [ofValue, tree, treeItems_eq_map, ofValues_eq_map, List.map_map]
    exact congrArg array (List.map_congr_left ih)
  | @map entries hsorted _ ih =>
    have hentries : treeFields (ofEntries entries) = ofEntries entries := by
      rw [treeFields_eq_map, ofEntries_eq_map, List.map_map]
      exact List.map_congr_left fun e he ↦ congrArg (Prod.mk e.1) (ih e he)
    have hfields : Entries.Sorted (ofEntries entries) := by
      rw [ofEntries_eq_map]
      exact hsorted.map fun _ ↦ rfl
    rw [ofValue, tree, hentries, hfields.ofList_eq]

variable {fields fields' : List (String × Json)}

theorem onlyField?_perm (h : fields.Perm fields') (name : String) : onlyField? fields name = onlyField? fields' name := by
  have hfound := h.filter (·.1 = name)
  unfold onlyField?
  cases hfields : fields'.filter (·.1 = name) with
  | nil =>
    rw [hfields] at hfound
    rw [hfound.eq_nil]
  | cons f r =>
    rw [hfields] at hfound
    cases r with
    | nil => rw [hfound.eq_singleton]
    | cons f' r =>
      have hlength := hfound.length_eq
      split
      · simp_all
      · simp_all
      · rfl

/-- What is read by name does not depend on the order. -/
theorem record?_tree (h : (fields.map Prod.fst).Nodup) (names : List String) :
    (tree (.object fields)).record? .skip names =
      record? .skip names (.object (fields.map fun f ↦ (f.1, f.2.tree))) := by
  have hperm : (Entries.ofList (treeFields fields)).Perm (fields.map fun f ↦ (f.1, f.2.tree)) := by
    rw [treeFields_eq_map]
    exact Entries.ofList_perm (by rwa [List.map_map])
  simp [tree, record?, funext (onlyField?_perm hperm)]

end Json

end IntentCorrection
