import IntentCorrection.Proofs.Entries
import IntentCorrection.Proofs.Store.Contents

namespace IntentCorrection.Store

variable {s : Store}

/-- Intents under different keys make a store, in which each is under its key. -/
theorem foldlM_insert {is : List Intent} (hkeys : (is.map Intent.key).Nodup)
    (hfresh : ∀ i ∈ is, s.intents.get? i.key = none) (hsorted : s.intents.Sorted) :
    ∃ s', is.foldlM insert s = .ok s' ∧ s'.intents.Sorted ∧
      ∀ key i, s'.intents.get? key = some i ↔ s.intents.get? key = some i ∨ i ∈ is ∧ i.key = key := by
  induction is generalizing s with
  | nil => exact ⟨s, rfl, hsorted, by simp⟩
  | cons i is ih =>
    obtain ⟨hi, his⟩ := List.forall_mem_cons.1 hfresh
    rw [List.map_cons, List.nodup_cons] at hkeys
    have hne : ∀ j ∈ is, j.key ≠ i.key := fun j hj he ↦ hkeys.1 (he ▸ List.mem_map_of_mem hj)
    have hwrite : insert s i = .ok (s.write i i.history) := by
      simp [insert, Entries.contains, hi]
    obtain ⟨s', hs', hsorted', hget⟩ := ih (s := s.write i i.history) hkeys.2
      (fun j hj ↦ by rw [get?_write, if_neg (hne j hj), his j hj]) (hsorted.insert i.key i)
    refine ⟨s', by rw [List.foldlM_cons, hwrite]; exact hs', hsorted', fun key j ↦ ?_⟩
    -- The first intent is under its key only, and none of the others takes that key.
    rw [hget, get?_write, List.mem_cons]
    split
    · rename_i hkey
      subst hkey
      rw [hi]
      constructor
      · rintro (hj | ⟨hj, hkey⟩)
        · obtain rfl := Option.some.inj hj
          exact .inr ⟨.inl rfl, rfl⟩
        · exact absurd hkey (hne j hj)
      · rintro (hj | ⟨rfl | hj, hkey⟩)
        · cases hj
        · exact .inl rfl
        · exact absurd hkey (hne j hj)
    · rename_i hkey
      constructor
      · rintro (hj | ⟨hj, hjkey⟩)
        · exact .inl hj
        · exact .inr ⟨.inr hj, hjkey⟩
      · rintro (hj | ⟨rfl | hj, hjkey⟩)
        · exact .inl hj
        · exact absurd hjkey.symm hkey
        · exact .inr ⟨hj, hjkey⟩

/-- The intents of a list are those of the store, and have different keys. -/
structure Lists (s : Store) (is : List Intent) : Prop where
  nodup_keys : (is.map Intent.key).Nodup
  mem : ∀ i, i ∈ is ↔ s.intents.get? i.key = some i

theorem fresh_of_foldlM {is : List Intent} {s' : Store} (h : is.foldlM insert s = .ok s') :
    (is.map Intent.key).Nodup ∧ ∀ i ∈ is, s.intents.get? i.key = none := by
  induction is generalizing s with
  | nil => exact ⟨.nil, nofun⟩
  | cons i is ih =>
    rw [List.foldlM_cons] at h
    cases hi : s.insert i with
    | error e =>
      rw [hi] at h
      cases h
    | ok next =>
      rw [hi] at h
      obtain ⟨hfree, rfl⟩ := insert_ok hi
      obtain ⟨hkeys, hfresh⟩ := ih h
      have hrest : ∀ j ∈ is, j.key ≠ i.key ∧ s.intents.get? j.key = none := by
        intro j hj
        have hj := hfresh j hj
        rw [get?_write] at hj
        split at hj
        · cases hj
        · rename_i hne
          exact ⟨hne, hj⟩
      refine ⟨List.nodup_cons.2 ⟨?_, hkeys⟩, List.forall_mem_cons.2 ⟨hfree, fun j hj ↦ (hrest j hj).2⟩⟩
      intro hmem
      obtain ⟨j, hj, hkey⟩ := List.mem_map.1 hmem
      exact (hrest j hj).1 hkey

theorem lists_of_ofIntents {is : List Intent} (h : ofIntents is = .ok s) : s.Lists is := by
  obtain ⟨hkeys, -⟩ := fresh_of_foldlM h
  obtain ⟨s', hs', -, hget⟩ := foldlM_insert (s := empty) hkeys (fun _ _ ↦ rfl) Entries.sorted_nil
  obtain rfl : s' = s := Except.ok.inj (hs'.symm.trans h)
  refine ⟨hkeys, fun i ↦ ?_⟩
  rw [hget]
  simp [empty]

theorem mem_snapshot (hkeyed : s.Keyed) (hsorted : s.intents.Sorted) {i : Intent} :
    i ∈ s.snapshot ↔ s.intents.get? i.key = some i := by
  have hperm : s.snapshot.Perm (s.intents.map Prod.snd) := List.mergeSort_perm _ _
  rw [hperm.mem_iff, List.mem_map]
  constructor
  · rintro ⟨⟨key, j⟩, hj, rfl⟩
    have hget := hsorted.mem_iff.1 hj
    rwa [hkeyed key j hget]
  · intro hget
    exact ⟨(i.key, i), Entries.mem_of_get? hget, rfl⟩

theorem nodup_keys_stored (hkeyed : s.Keyed) (hsorted : s.intents.Sorted) :
    ((s.intents.map Prod.snd).map Intent.key).Nodup := by
  have hkeys : (s.intents.map Prod.snd).map Intent.key = s.intents.map Prod.fst := by
    rw [List.map_map]
    refine List.map_congr_left fun x hx ↦ ?_
    exact hkeyed x.1 x.2 (hsorted.mem_iff.1 hx)
  rw [hkeys]
  exact hsorted.nodup_keys

theorem nodup_keys_listing {is : List Intent} (hkeys : (is.map Intent.key).Nodup) :
    ((listing is).map Intent.key).Nodup := by
  have hperm : ((listing is).map Intent.key).Perm (is.map Intent.key) := (List.mergeSort_perm _ _).map _
  exact hperm.nodup_iff.2 hkeys

theorem nodup_keys_snapshot (hkeyed : s.Keyed) (hsorted : s.intents.Sorted) :
    (s.snapshot.map Intent.key).Nodup :=
  nodup_keys_listing (nodup_keys_stored hkeyed hsorted)

theorem Lists.perm_snapshot {is : List Intent} (h : s.Lists is) (hkeyed : s.Keyed) (hsorted : s.intents.Sorted) :
    s.snapshot.Perm is := by
  have hnodup : ∀ {is : List Intent}, (is.map Intent.key).Nodup → is.Nodup := fun hkeys ↦
    (List.pairwise_map.1 hkeys).imp fun hne heq ↦ hne (congrArg Intent.key heq)
  refine (List.perm_ext_iff_of_nodup (hnodup (nodup_keys_snapshot hkeyed hsorted)) (hnodup h.nodup_keys)).2 fun i ↦ ?_
  rw [mem_snapshot hkeyed hsorted, h.mem]

theorem Lists.sameContents {s' : Store} {is : List Intent} (h : s.Lists is) (hsame : s.SameContents s') :
    s'.Lists is := by
  refine ⟨h.nodup_keys, fun i ↦ ?_⟩
  rw [h.mem, hsame.1]

theorem Lists.split {is : List Intent} {key : String} {i : Intent} (h : s.Lists is) (hkeyed : s.Keyed)
    (hget : s.get key = .ok i) : i.key = key ∧ ∃ before after, is = before ++ i :: after := by
  have hi := get_eq_ok.1 hget
  obtain rfl := hkeyed key i hi
  exact ⟨rfl, List.append_of_mem ((h.mem i).2 hi)⟩

theorem Lists.replaced {before after : List Intent} {i next : Intent} (h : s.Lists (before ++ i :: after))
    (hkey : next.key = i.key) (journal : List CorrectionRecord) :
    (s.write next journal).Lists (before ++ next :: after) := by
  obtain ⟨hkeys, hmem⟩ := h
  have hother : ∀ j, j ∈ before ∨ j ∈ after → j.key ≠ i.key := by
    intro j hj heq
    rw [List.map_append, List.map_cons, List.nodup_append, List.nodup_cons] at hkeys
    obtain ⟨-, ⟨hafter, -⟩, hbefore⟩ := hkeys
    rcases hj with hj | hj
    · exact hbefore _ (List.mem_map_of_mem hj) _ List.mem_cons_self heq
    · exact hafter (heq ▸ List.mem_map_of_mem hj)
  refine ⟨by simpa [hkey] using hkeys, fun j ↦ ?_⟩
  rw [get?_write, hkey]
  split
  · rename_i hj
    constructor
    · intro hmem'
      rcases List.mem_append.1 hmem' with hmem' | hmem'
      · exact absurd hj (hother j (.inl hmem'))
      · rcases List.mem_cons.1 hmem' with rfl | hmem'
        · rfl
        · exact absurd hj (hother j (.inr hmem'))
    · rintro ⟨⟩
      simp
  · rename_i hj
    have hne : j ≠ i := fun heq ↦ hj (congrArg Intent.key heq)
    have hne' : j ≠ next := fun heq ↦ hj ((congrArg Intent.key heq).trans hkey)
    rw [← hmem]
    simp [hne, hne']

theorem Lists.added {is : List Intent} {next : Intent} (h : s.Lists is) (hfresh : s.intents.get? next.key = none)
    (journal : List CorrectionRecord) : (s.write next journal).Lists (is ++ [next]) := by
  obtain ⟨hkeys, hmem⟩ := h
  have hother : ∀ j ∈ is, j.key ≠ next.key := by
    intro j hj heq
    have hget := (hmem j).1 hj
    rw [heq, hfresh] at hget
    cases hget
  refine ⟨?_, fun j ↦ ?_⟩
  · rw [List.map_append, List.nodup_append]
    refine ⟨hkeys, by simp, fun key hkey key' hkey' ↦ ?_⟩
    obtain ⟨j, hj, rfl⟩ := List.mem_map.1 hkey
    obtain rfl : key' = next.key := by simpa using hkey'
    exact hother j hj
  · rw [get?_write]
    split
    · rename_i hj
      constructor
      · intro hmem'
        rcases List.mem_append.1 hmem' with hmem' | hmem'
        · exact absurd hj (hother j hmem')
        · rw [List.mem_singleton.1 hmem']
      · rintro ⟨⟩
        simp
    · rename_i hj
      have hne : j ≠ next := fun heq ↦ hj (congrArg Intent.key heq)
      rw [← hmem]
      simp [hne]

def Before (a b : Intent) : Prop :=
  a.createdAt.instant < b.createdAt.instant ∨ a.createdAt.instant = b.createdAt.instant ∧ a.key < b.key

theorem precedes_iff {a b : Intent} : precedes a b = true ↔
    a.createdAt.instant < b.createdAt.instant ∨ a.createdAt.instant = b.createdAt.instant ∧ a.key ≤ b.key := by
  simp [precedes]

theorem pairwise_listing (is : List Intent) : (listing is).Pairwise fun a b ↦ precedes a b = true := by
  refine List.pairwise_mergeSort (fun a b c hab hbc ↦ ?_) (fun a b ↦ ?_) is
  · rw [precedes_iff] at hab hbc ⊢
    rcases hab with hab | ⟨hab, hkey⟩ <;> rcases hbc with hbc | ⟨hbc, hkey'⟩
    · exact .inl (Int.lt_trans hab hbc)
    · exact .inl (Int.lt_of_lt_of_le hab (Int.le_of_eq hbc))
    · exact .inl (Int.lt_of_le_of_lt (Int.le_of_eq hab) hbc)
    · exact .inr ⟨hab.trans hbc, Std.le_trans hkey hkey'⟩
  · rw [Bool.or_eq_true, precedes_iff, precedes_iff]
    rcases Int.lt_trichotomy a.createdAt.instant b.createdAt.instant with hlt | heq | hgt
    · exact .inl (.inl hlt)
    · exact (Std.le_total (a := a.key) (b := b.key)).imp (fun hkey ↦ .inr ⟨heq, hkey⟩) fun hkey ↦ .inr ⟨heq.symm, hkey⟩
    · exact .inr (.inl hgt)

theorem before_listing {is : List Intent} (hkeys : (is.map Intent.key).Nodup) : (listing is).Pairwise Before := by
  have hne := List.pairwise_map.1 (nodup_keys_listing hkeys)
  apply ((pairwise_listing is).and hne).imp
  intro a b ⟨hprecedes, hne⟩
  exact (precedes_iff.1 hprecedes).imp_right fun ⟨hinstant, hkey⟩ ↦ ⟨hinstant, Std.lt_of_le_of_ne hkey hne⟩

theorem pairwise_snapshot (hkeyed : s.Keyed) (hsorted : s.intents.Sorted) : s.snapshot.Pairwise Before :=
  before_listing (nodup_keys_stored hkeyed hsorted)

theorem ofIntents_snapshot (hkeyed : s.Keyed) (hsorted : s.intents.Sorted) :
    ∃ s', ofIntents s.snapshot = .ok s' ∧ s'.intents = s.intents := by
  obtain ⟨s', hs', hsorted', hget⟩ := foldlM_insert (s := empty) (nodup_keys_snapshot hkeyed hsorted)
    (fun _ _ ↦ rfl) Entries.sorted_nil
  refine ⟨s', hs', hsorted'.ext hsorted fun key ↦ ?_⟩
  ext i
  rw [hget]
  constructor
  · rintro (hempty | ⟨hi, rfl⟩)
    · cases hempty
    · exact (mem_snapshot hkeyed hsorted).1 hi
  · intro hi
    have hkey := hkeyed key i hi
    exact .inr ⟨(mem_snapshot hkeyed hsorted).2 (hkey ▸ hi), hkey⟩

end IntentCorrection.Store
