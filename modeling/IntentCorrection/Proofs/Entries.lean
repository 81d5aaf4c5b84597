import IntentCorrection.Entries

namespace IntentCorrection.Entries

variable {κ α β : Type} {m m' : Entries κ α} {k : κ} {v : α} {x : κ × α}

theorem sorted_nil [LT κ] : Sorted ([] : Entries κ α) := .nil

theorem Sorted.map [LT κ] {f : κ × α → κ × β} (h : Sorted m) (hf : ∀ x, (f x).1 = x.1) : Sorted (m.map f) :=
  List.pairwise_map.2 (h.imp fun hlt ↦ by rwa [hf, hf])

theorem Sorted.nodup_keys [LT κ] [LE κ] [Std.LawfulOrderLT κ] (h : Sorted m) : (m.map Prod.fst).Nodup := by
  refine List.pairwise_map.2 (h.imp fun hlt heq ↦ ?_)
  rw [heq] at hlt
  exact Std.lt_irrefl hlt

variable [DecidableEq κ]

theorem contains_iff : m.contains k = true ↔ ∃ v, (k, v) ∈ m := by
  unfold contains
  constructor
  · intro h
    obtain ⟨v, hv⟩ := Option.isSome_iff_exists.1 h
    exact ⟨v, mem_of_get? hv⟩
  · rintro ⟨v, hv⟩
    induction m with
    | nil => cases hv
    | cons y m ih =>
      rw [get?_cons]
      split
      · rfl
      · rename_i hne
        refine ih (List.mem_of_ne_of_mem ?_ hv)
        rintro rfl
        exact hne rfl

variable [LT κ]

theorem Sorted.erase (h : Sorted m) (k : κ) : Sorted (m.erase k) := h.filter _

section

variable [LE κ] [Std.LawfulOrderLT κ]

theorem Sorted.mem_iff (h : Sorted m) : (k, v) ∈ m ↔ m.get? k = some v := by
  refine ⟨fun hmem ↦ ?_, mem_of_get?⟩
  induction m with
  | nil => cases hmem
  | cons y m ih =>
    obtain ⟨hy, hm⟩ := List.pairwise_cons.1 h
    rcases List.mem_cons.1 hmem with rfl | hmem
    · simp
    · have hne : k ≠ y.1 := fun heq ↦ Std.lt_irrefl (heq ▸ hy _ hmem)
      rw [get?_cons, if_neg hne, ih hm hmem]

theorem Sorted.ext [Std.IsLinearOrder κ] (h : Sorted m) (h' : Sorted m') (hget : ∀ k, m.get? k = m'.get? k) : m = m' := by
  have hperm : m.Perm m' := by
    have hnodup : ∀ {m : Entries κ α}, Sorted m → m.Nodup := fun h ↦ by
      refine List.Pairwise.imp (fun hlt ↦ ?_) h
      rintro rfl
      exact Std.lt_irrefl hlt
    refine (List.perm_ext_iff_of_nodup (hnodup h) (hnodup h')).2 fun x ↦ ?_
    obtain ⟨k, v⟩ := x
    rw [h.mem_iff, h'.mem_iff, hget]
  exact hperm.eq_of_pairwise (fun a b _ _ hab hba ↦ absurd hba (Std.not_lt.2 (Std.le_of_lt hab))) h h'

end

variable [DecidableLT κ]

theorem insert_insert (k : κ) (v w : α) (m : Entries κ α) : insert k v (insert k w m) = insert k v m := by
  induction m with
  | nil => simp [insert]
  | cons x m ih => grind [insert]

theorem mem_insert (h : x ∈ insert k v m) : x = (k, v) ∨ x ∈ m := by
  induction m with
  | nil => exact .inl (List.mem_singleton.1 h)
  | cons y m ih => grind [insert]

theorem mem_ofList {xs : List (κ × α)} (h : x ∈ ofList xs) : x ∈ xs := by
  have hfold : ∀ (m : Entries κ α), x ∈ xs.foldl (fun m y ↦ m.insert y.1 y.2) m → x ∈ m ∨ x ∈ xs := by
    clear h
    induction xs with
    | nil => exact fun m hm ↦ .inl hm
    | cons y xs ih =>
      intro m hm
      rcases ih _ hm with hm | hxs
      · rcases mem_insert hm with rfl | hm
        · exact .inr List.mem_cons_self
        · exact .inl hm
      · exact .inr (List.mem_cons_of_mem _ hxs)
  rcases hfold [] h with h | h
  · cases h
  · exact h

theorem contains_insert {k' : κ} : (insert k v m).contains k' = true ↔ k' = k ∨ m.contains k' = true := by
  unfold contains
  rw [get?_insert]
  split <;> simp_all

variable [LE κ] [Std.IsLinearOrder κ] [Std.LawfulOrderLT κ]

theorem Sorted.insert (h : Sorted m) (k : κ) (v : α) : Sorted (insert k v m) := by
  induction m with
  | nil => simp [Entries.insert, Sorted]
  | cons y m ih =>
    obtain ⟨hy, hm⟩ := List.pairwise_cons.1 h
    rw [Entries.insert]
    split
    · rename_i heq
      subst heq
      exact List.pairwise_cons.2 ⟨hy, hm⟩
    · rename_i hne
      split
      · rename_i hlt
        refine List.pairwise_cons.2 ⟨fun x hx ↦ ?_, h⟩
        rcases List.mem_cons.1 hx with rfl | hx
        · exact hlt
        · exact Std.lt_trans hlt (hy x hx)
      · rename_i hlt
        refine List.pairwise_cons.2 ⟨fun x hx ↦ ?_, ih hm⟩
        rcases mem_insert hx with rfl | hx
        · exact Classical.byContradiction fun hge ↦ hne (Std.le_antisymm (Std.not_lt.1 hge) (Std.not_lt.1 hlt))
        · exact hy x hx

theorem Sorted.modify (h : Sorted m) (k : κ) (f : α → α) : Sorted (m.modify k f) := by
  unfold Entries.modify
  split
  · exact h.insert _ _
  · exact h

theorem sorted_ofList (xs : List (κ × α)) : Sorted (ofList xs) := by
  have hfold : ∀ (m : Entries κ α), Sorted m → Sorted (xs.foldl (fun m x ↦ m.insert x.1 x.2) m) := by
    induction xs with
    | nil => exact fun m hm ↦ hm
    | cons x xs ih => exact fun m hm ↦ ih _ (hm.insert x.1 x.2)
  exact hfold [] sorted_nil

theorem insert_comm {k' : κ} (h : k ≠ k') (v w : α) (m : Entries κ α) :
    insert k v (insert k' w m) = insert k' w (insert k v m) := by
  induction m with
  | nil => grind [insert]
  | cons x m ih => grind [insert]

theorem insert_of_lt (h : ∀ x ∈ m, x.1 < k) : insert k v m = m ++ [(k, v)] := by
  induction m with
  | nil => rfl
  | cons y m ih =>
    obtain ⟨hy, hm⟩ := List.forall_mem_cons.1 h
    have hne : k ≠ y.1 := fun heq ↦ Std.lt_irrefl (heq ▸ hy)
    rw [insert, if_neg hne, if_neg (Std.not_lt.2 (Std.le_of_lt hy)), ih hm]
    rfl

theorem Sorted.ofList_eq (h : Sorted m) : ofList m = m := by
  have hfold : ∀ (start : Entries κ α), Sorted (start ++ m) →
      m.foldl (fun m x ↦ m.insert x.1 x.2) start = start ++ m := by
    clear h
    induction m with
    | nil => simp
    | cons x m ih =>
      intro start h
      have hlast : ∀ y ∈ start, y.1 < x.1 := fun y hy ↦
        (List.pairwise_append.1 h).2.2 y hy x List.mem_cons_self
      rw [List.foldl_cons, insert_of_lt hlast, ih _ (by simpa using h)]
      simp
  exact hfold [] h

end IntentCorrection.Entries
