import IntentCorrection.Proofs.Diff.Collision

namespace IntentCorrection

namespace Diff

open IntentCorrection.Path

variable {m m₁ m₂ n n' r t d d₁ d₂ : ValueMap} {p q rest : List String} {s : String} {v w : Value}
  {e : String × Value} {es : List (String × Value)}

theorem assign_under (hp : p ≠ []) (sub : ValueMap) :
    assign (s :: p) v (m.insert s (.map sub)) = (assign p v sub).map fun sub' ↦ m.insert s (.map sub') := by
  have hsub : entered ((m.insert s (.map sub)).get? s) = some sub := by
    rw [Entries.get?_insert, if_pos rfl]
    rfl
  rw [assign_of_entered hp hsub]
  simp only [Entries.insert_insert]

/-- What was put at a path or beyond it is not noticed by an assignment at the path. -/
theorem assign_absorb (hq : q ≠ []) (h : assign (q ++ rest) v m = .ok m₁) (w : Value) :
    assign q w m₁ = assign q w m := by
  induction q generalizing m m₁ with
  | nil => exact absurd rfl hq
  | cons s q ih =>
    by_cases hlast : q = []
    · subst hlast
      obtain ⟨x, rfl, -⟩ := insert_of_assign h
      exact congrArg Except.ok (Entries.insert_insert s w x m)
    · obtain ⟨sub, sub', hsub, hassign, rfl⟩ := assign_cons (List.append_ne_nil_of_left_ne_nil hlast rest) h
      rw [assign_under hlast, assign_of_entered hlast hsub, ih hlast hassign]

/-- Two assignments at paths that part, each of which succeeds, succeed in either order with one result. -/
theorem assign_comm (hqp : ¬q <+: p) (hpq : ¬p <+: q) (hq : assign q v m = .ok m₁) (hp : assign p w m = .ok m₂) :
    ∃ n, assign p w m₁ = .ok n ∧ assign q v m₂ = .ok n := by
  induction q generalizing m m₁ m₂ p with
  | nil => exact absurd List.nil_prefix hqp
  | cons s q ih =>
    cases p with
    | nil => exact absurd List.nil_prefix hpq
    | cons s' p =>
      by_cases hs : s' = s
      · -- The way is shared, and both go on from the map that is there or is made there.
        subst hs
        rw [List.cons_prefix_cons, eq_self, true_and] at hqp hpq
        have hqne : q ≠ [] := fun hnil ↦ hqp (hnil ▸ List.nil_prefix)
        have hpne : p ≠ [] := fun hnil ↦ hpq (hnil ▸ List.nil_prefix)
        obtain ⟨sub, sub₁, hsub, hassign, rfl⟩ := assign_cons hqne hq
        obtain ⟨sub', sub₂, hsub', hassign', rfl⟩ := assign_cons hpne hp
        obtain rfl : sub = sub' := Option.some.inj (hsub.symm.trans hsub')
        obtain ⟨n, hn, hn'⟩ := ih hqp hpq hassign hassign'
        refine ⟨m.insert s' (.map n), ?_, ?_⟩
        · rw [assign_under hpne, hn]
          rfl
        · rw [assign_under hqne, hn']
          rfl
      · obtain ⟨x, rfl, hx⟩ := insert_of_assign hq
        obtain ⟨y, rfl, hy⟩ := insert_of_assign hp
        refine ⟨_, hy _ ?_, ?_⟩
        · rw [Entries.get?_insert, if_neg hs]
        · rw [Entries.insert_comm hs]
          apply hx
          rw [Entries.get?_insert, if_neg (Ne.symm hs)]

/-- Of two assignments at paths that part, the second could have come first. -/
theorem assign_swap (hqp : ¬q <+: p) (hpq : ¬p <+: q) (hq : assign q v m = .ok m₁) (hp : assign p w m₁ = .ok r) :
    ∃ n, assign p w m = .ok n ∧ assign q v n = .ok r := by
  obtain ⟨n, hn⟩ : ∃ n, assign p w m = .ok n := by
    cases h : assign p w m with
    | ok n => exact ⟨n, rfl⟩
    | error fault =>
      -- What is in the way of the second is in the way after the first too, or the first would have met it.
      obtain ⟨s, kind⟩ := fault
      obtain ⟨above, rest, x, hpath, hrest, hread, hblocks, -⟩ := obstacle_of_assign h
      rw [List.append_cons] at hpath
      have hne : above ++ [s] ≠ [] := List.append_ne_nil_of_right_ne_nil above (List.cons_ne_nil _ _)
      have habove : above ++ [s] <+: p := ⟨rest, hpath.symm⟩
      by_cases hon : above ++ [s] <+: q
      · obtain ⟨rest', rfl⟩ := hon
        have hrest' : rest' ≠ [] := fun hnil ↦ hqp (by rwa [hnil, List.append_nil])
        exact absurd hblocks (not_blocks_of_assign hq hne hrest' hread)
      · have hoff : ¬q <+: above ++ [s] := fun hqs ↦ hqp (hqs.trans habove)
        rw [← read?_assign_apart hoff hon hq] at hread
        rw [hpath] at hp
        exact absurd hblocks (not_blocks_of_assign hp hne hrest hread)
  obtain ⟨r', hr, hn'⟩ := assign_comm hqp hpq hq hn
  obtain rfl : r' = r := Except.ok.inj (hr.symm.trans hp)
  exact ⟨n, hn, hn'⟩

theorem applyEntries_cons (h : assign (segments e.1) e.2 m = .ok m₁) (es : List (String × Value)) :
    applyEntries m (e :: es) = applyEntries m₁ es := by
  rw [applyEntries, applyEntry, h]
  rfl

/-- An assignment that is made after some entries may be made before them as well, unless one of them leads on from its
path. -/
theorem applyEntries_again (hq : q ≠ []) (hes : ∀ e ∈ es, ¬q <+: segments e.1) (h : assign q v m = .ok m₁)
    (hm : applyEntries m es = .ok n) (hn : assign q v n = .ok n') :
    ∃ x, applyEntries m₁ es = .ok x ∧ assign q v x = .ok n' := by
  induction es generalizing m m₁ with
  | nil =>
    cases hm
    refine ⟨m₁, rfl, ?_⟩
    rw [← List.append_nil q] at h
    rw [assign_absorb hq h, hn]
  | cons e es ih =>
    obtain ⟨he, hes⟩ := List.forall_mem_cons.1 hes
    obtain ⟨m₂, hassign, hm⟩ := ok_of_applyEntries hm
    by_cases hprefix : segments e.1 <+: q
    · -- The entry takes the assignment back, and from there on all is as it was.
      obtain ⟨rest, rfl⟩ := hprefix
      refine ⟨n, ?_, hn⟩
      rw [← assign_absorb (segments_ne_nil _) h] at hassign
      rw [applyEntries_cons hassign, hm]
    · obtain ⟨k, hk, hk'⟩ := assign_comm he hprefix h hassign
      rw [applyEntries_cons hk]
      exact ih hes hk' hm

theorem applyEntries_idempotent (hes : InOrder es) (h : applyEntries m es = .ok r) : applyEntries r es = .ok r := by
  -- By induction on the end of the entries: the last one is put on what the others leave as they find it.
  induction es using List.reverseRecOn generalizing r with
  | nil =>
    cases h
    rfl
  | append_singleton es e ih =>
    obtain ⟨hes, -, hlast⟩ := List.pairwise_append.1 hes
    rw [applyEntries_append] at h ⊢
    obtain ⟨n, hn, h⟩ := ok_of_bind h
    obtain ⟨r', hassign, hr⟩ := ok_of_applyEntries h
    cases hr
    obtain ⟨x, hx, hxr⟩ := applyEntries_again (segments_ne_nil e.1) (fun e' he' ↦ hlast e' he' e (by simp)) hassign
      (ih hes hn) hassign
    rw [hx]
    exact applyEntries_cons hxr []

theorem apply_eq_ok : apply t d = .ok r ↔ validateMap d = .ok () ∧ applyEntries t d = .ok r := by
  constructor
  · intro h
    obtain ⟨_, hvalid, h⟩ := ok_of_bind h
    exact ⟨hvalid, h⟩
  · rintro ⟨hvalid, h⟩
    rw [apply, hvalid]
    exact h

/-- What a diff makes of a target it leaves as it is when it is applied again. -/
theorem apply_idempotent (hd : Entries.Sorted d) (h : apply t d = .ok r) : apply r d = .ok r := by
  obtain ⟨hvalid, h⟩ := apply_eq_ok.1 h
  exact apply_eq_ok.2 ⟨hvalid, applyEntries_idempotent (inOrder_of_sorted hd) h⟩

/-- The second time a map is in the place of the number, and what was put into it is taken out first. -/
theorem apply_idempotent_overlap :
    ∃ r, apply [("a", .ofInt 5)] [("a", .map [("n", .null), ("x.y", .ofInt 1)]), ("a.n.z", .ofInt 2)] = .ok r ∧
      apply r [("a", .map [("n", .null), ("x.y", .ofInt 1)]), ("a.n.z", .ofInt 2)] = .ok r ∧
      read? ["a", "n", "z"] (.map r) = some (.ofInt 2) := by
  have hd : Entries.Sorted [("a", Value.map [("n", .null), ("x.y", .ofInt 1)]), ("a.n.z", .ofInt 2)] := by
    unfold Entries.Sorted
    decide +kernel
  obtain ⟨r, h, hread⟩ : ∃ r, apply [("a", .ofInt 5)]
      [("a", .map [("n", .null), ("x.y", .ofInt 1)]), ("a.n.z", .ofInt 2)] = .ok r ∧
        read? ["a", "n", "z"] (.map r) = some (.ofInt 2) := ⟨_, rfl, rfl⟩
  exact ⟨r, h, apply_idempotent hd h, hread⟩

/-- No key of the one leads to a key of the other or on from it. -/
def Independent (d₁ d₂ : ValueMap) : Prop :=
  ∀ e₁ ∈ d₁, ∀ e₂ ∈ d₂, ¬segments e₁.1 <+: segments e₂.1 ∧ ¬segments e₂.1 <+: segments e₁.1

theorem Independent.symm (h : Independent d₁ d₂) : Independent d₂ d₁ :=
  fun e₂ he₂ e₁ he₁ ↦ (h e₁ he₁ e₂ he₂).symm

theorem applyEntries_after_assign (hes : ∀ e ∈ es, ¬q <+: segments e.1 ∧ ¬segments e.1 <+: q)
    (hq : assign q v m = .ok m₁) (h : applyEntries m₁ es = .ok r) :
    ∃ n, applyEntries m es = .ok n ∧ assign q v n = .ok r := by
  induction es generalizing m m₁ with
  | nil =>
    cases h
    exact ⟨m, rfl, hq⟩
  | cons e es ih =>
    obtain ⟨he, hes⟩ := List.forall_mem_cons.1 hes
    obtain ⟨m₂, hassign, h⟩ := ok_of_applyEntries h
    obtain ⟨k, hk, hk'⟩ := assign_swap he.1 he.2 hq hassign
    rw [applyEntries_cons hk]
    exact ih hes hk' h

theorem applyEntries_swap (hind : Independent d₁ d₂) (h₁ : applyEntries t d₁ = .ok m)
    (h₂ : applyEntries m d₂ = .ok r) : ∃ n, applyEntries t d₂ = .ok n ∧ applyEntries n d₁ = .ok r := by
  induction d₁ generalizing t with
  | nil =>
    cases h₁
    exact ⟨r, h₂, rfl⟩
  | cons e d₁ ih =>
    obtain ⟨hhead, htail⟩ := List.forall_mem_cons.1 hind
    obtain ⟨t', hassign, h₁⟩ := ok_of_applyEntries h₁
    obtain ⟨n', hn', hr⟩ := ih htail h₁
    obtain ⟨n, hn, hassign'⟩ := applyEntries_after_assign hhead hassign hn'
    exact ⟨n, hn, (applyEntries_cons hassign' d₁).trans hr⟩

theorem apply_swap (hind : Independent d₁ d₂) (h : (do apply (← apply t d₁) d₂) = .ok r) :
    (do apply (← apply t d₂) d₁) = .ok r := by
  obtain ⟨m, h₁, h₂⟩ := ok_of_bind h
  obtain ⟨hvalid₁, h₁⟩ := apply_eq_ok.1 h₁
  obtain ⟨hvalid₂, h₂⟩ := apply_eq_ok.1 h₂
  obtain ⟨n, hn, hr⟩ := applyEntries_swap hind h₁ h₂
  rw [apply_eq_ok.2 ⟨hvalid₂, hn⟩]
  exact apply_eq_ok.2 ⟨hvalid₁, hr⟩

end Diff

end IntentCorrection
